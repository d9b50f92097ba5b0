import AssetIntegrity.Path.Basic
/-!
# Classifiers — which paths name assets that can be checked

A classifier knows extensions.  It accepts a path whose extension is one of them in any ASCII case.

* `Classifier.ofExtensions`: leading dots and case do not matter, and an empty extension counts for nothing.
-/
namespace AssetIntegrity

/-- The extensions by which assets are known, in lower case and without a leading dot. -/
structure Classifier where
  extensions : List String
deriving DecidableEq

namespace Classifier

def normalize (extension : String) : String :=
  String.ofList ((extension.toList.dropWhile (· = '.')).map Char.toLower)

def ofExtensions (extensions : List String) : Classifier :=
  ⟨(extensions.map normalize).filter fun extension => !extension.isEmpty⟩

def standardExtensions : List String := ["unity", "prefab", "asset"]

def standard : Classifier := ofExtensions standardExtensions

def standardAnd (extra : List String) : Classifier := ofExtensions (standard.extensions ++ extra)

/-- The lower case of an ASCII letter, and any other byte as it is. -/
def lowerByte (byte : UInt8) : UInt8 := if 0x41 ≤ byte ∧ byte ≤ 0x5A then byte + 0x20 else byte

/-- Whether a path has one of the extensions.  Only bytes that are text can equal those of an extension. -/
def accepts (classifier : Classifier) (path : Path) : Bool :=
  match path.extension? with
  | some bytes => classifier.extensions.any fun extension => Utf8.encode extension = bytes.map lowerByte
  | none => false

end Classifier
end AssetIntegrity
