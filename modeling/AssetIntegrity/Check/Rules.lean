import AssetIntegrity.Finding.Basic
import AssetIntegrity.Index.Basic
import AssetIntegrity.Text.Reading
/-!
# Rules — what a check looks for

Each rule reports everything that it sees, whatever the other rules say.

* `headerFindings`: the preamble must begin with the format header and hold the tag directive, and there must be a
  document.
* `Stream.repeats`: an id should be declared once.
* `Index.brokenReferences`: a reference must lead to a declared document, unless its id is null.
* `Index.invalidGuids`: a GUID value must be a GUID.
-/
namespace AssetIntegrity

/-- What is wrong with a preamble that `documents` documents follow. -/
def headerFindings (preamble : Text) (documents : Nat) : List Finding :=
  (if formatHeader.toList.isPrefixOf preamble then [] else [.missingHeader])
    ++ (if Text.occursIn tagDirective.toList preamble then [] else [.missingTag])
    ++ (if documents = 0 then [.noMarkers] else [])

/-- The documents whose id is declared before them, when the documents in `declared` come first. -/
def repeatsAfter (declared : Table Document) : List Document → List Finding
  | [] => []
  | document :: rest =>
    (match declared.get? document.id with
      | some first => [.duplicateId document.id document.position first.position]
      | none => [])
      ++ repeatsAfter (declared.insertNew document.id document) rest

/-- The documents of a stream whose id is declared before them. -/
def Stream.repeats (stream : Stream) : List Finding := repeatsAfter .empty stream.documents

namespace Index

def brokenFrom (index : Index) (source : String) (targets : List String) : List Finding :=
  (targets.filter fun target => !(isNullId target || index.declares target)).map
    fun target => .brokenReference source (index.labelOf source) target

def brokenReferences (index : Index) : List Finding :=
  index.references.entries.flatMap fun (source, targets) => index.brokenFrom source targets

def invalidGuids (index : Index) : List Finding :=
  (index.guids.filter fun token => !isGuid token.value).map fun token => .invalidGuid token.value token.owner

end Index
end AssetIntegrity
