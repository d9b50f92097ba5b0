import AssetIntegrity.Index.Table
import AssetIntegrity.Pointer.Guid
import AssetIntegrity.Pointer.Local
import AssetIntegrity.Stream.Basic
/-!
# Indexes — what a stream declares and what it points at

An index holds the documents of a stream by id, the local references that leave each of them, and every GUID value with
the document that it stands in.  When an id is declared again, the first document stays; the references and the GUIDs of
the later ones count for that id as well.

* `Index.ofStream`: the index of a stream.
-/
namespace AssetIntegrity

/-- A GUID value and the id of the document that it stands in; it has none in the preamble. -/
structure GuidMention where
  value : String
  owner : Option String
deriving DecidableEq

namespace Document

/-- The ids that a document points at, other than its own, in order of appearance. -/
def references (document : Document) : List String := (Text.localIds document.body).filter (· ≠ document.id)

def guidMentions (document : Document) : List GuidMention := (Text.guids document.body).map (⟨·, some document.id⟩)

end Document

namespace Stream

def preambleMentions (stream : Stream) : List GuidMention := (Text.guids stream.preamble).map (⟨·, none⟩)

end Stream

/-- Documents by id, the references that leave them, and all GUID values. -/
structure Index where
  /-- The first document of each id. -/
  documents : Table Document
  /-- The ids that each document points at. -/
  references : Table (List String)
  /-- The GUID values in the order of the text. -/
  guids : List GuidMention

namespace Index

def ofMentions (guids : List GuidMention) : Index := ⟨.empty, .empty, guids⟩

def add (index : Index) (document : Document) : Index where
  documents := index.documents.insertNew document.id document
  references := index.references.append document.id document.references
  guids := index.guids ++ document.guidMentions

def ofStream (stream : Stream) : Index := stream.documents.foldl add (ofMentions stream.preambleMentions)

def declares (index : Index) (id : String) : Bool := index.documents.contains id

def document? (index : Index) (id : String) : Option Document := index.documents.get? id

def referencesFrom (index : Index) (id : String) : List String := (index.references.get? id).getD []

def referenceCount (index : Index) : Nat := index.references.values.flatten.length

/-- How messages name the source of a reference: by its label, or by its id when it is not declared. -/
def labelOf (index : Index) (id : String) : String :=
  match index.document? id with
  | some document => document.label
  | none => "&" ++ id

end Index
end AssetIntegrity
