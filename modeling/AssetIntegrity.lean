import AssetIntegrity.Main
import AssetIntegrity.Proofs.Text.Lines
import AssetIntegrity.Proofs.Text.Reading
import AssetIntegrity.Proofs.Stream.MarkerLine
import AssetIntegrity.Proofs.Stream.Sections
import AssetIntegrity.Proofs.Stream.Join
import AssetIntegrity.Proofs.Stream.Pass
import AssetIntegrity.Proofs.Stream.Partition
import AssetIntegrity.Proofs.Pointer.GuidSites
import AssetIntegrity.Proofs.Index.Contents
import AssetIntegrity.Proofs.Check.Kinds
import AssetIntegrity.Proofs.Check.BrokenReferences
import AssetIntegrity.Proofs.Check.GuidOwners
import AssetIntegrity.Proofs.Check.Grounds
import AssetIntegrity.Proofs.Check.Projection
import AssetIntegrity.Proofs.Check.Rewriting
import AssetIntegrity.Proofs.Check.Order
import AssetIntegrity.Proofs.Pointer.LineEnds
import AssetIntegrity.Proofs.Stream.LineEnds
import AssetIntegrity.Proofs.Check.LineEnds
import AssetIntegrity.Proofs.Pointer.Foreign
import AssetIntegrity.Proofs.Stream.Composition
import AssetIntegrity.Proofs.Check.Insertion
import AssetIntegrity.Proofs.Check.FileReports
import AssetIntegrity.Proofs.Edit.Agreement
import AssetIntegrity.Proofs.Disk.Resolution
import AssetIntegrity.Proofs.CommandLine.Check
import AssetIntegrity.Proofs.Disk.Collection
import AssetIntegrity.Proofs.Index.Construction
import AssetIntegrity.Proofs.Path.Components
import AssetIntegrity.Proofs.Disk.Reordering
import AssetIntegrity.Proofs.Disk.Search
import AssetIntegrity.Proofs.Text.Pattern
import AssetIntegrity.Proofs.Pointer.KeyPattern
import AssetIntegrity.Proofs.Pointer.GuidPattern
import AssetIntegrity.Proofs.Pointer.Interiors
import AssetIntegrity.Proofs.Pointer.LocalPattern
import AssetIntegrity.Proofs.Check.Flags
import AssetIntegrity.Proofs.Path.FileName
import AssetIntegrity.Proofs.Text.Utf8
import AssetIntegrity.Proofs.Path.LetterCase
import AssetIntegrity.Proofs.Path.Classification
import AssetIntegrity.Proofs.Text.Integer
import AssetIntegrity.Proofs.Stream.ClassName
