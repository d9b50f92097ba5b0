import AssetIntegrity.Pointer.Key
/-!
# GUIDs — pointers into other assets

The value of a `guid` key is examined wherever the key begins a line, behind its indentation and the dash of a list, or
stands behind an opening brace or a comma.  Reading goes on behind the value, so a value that holds `{guid:` hides it.

* `guidItem?`: the value of the entry that begins at this place.
* `guids`: the values of a text, in order, without the empty ones.
-/
namespace AssetIntegrity

def guidLength : Nat := 32

/-- Whether a value is a GUID: hexadecimal digits in the right number. -/
def isGuid (value : String) : Bool := value.toList.length = guidLength && value.toList.all Text.isHexDigit

namespace Text

/-- A character of a GUID value: neither white space nor a character that ends an entry. -/
def isValueChar (c : Char) : Bool := !(isSpace c || c = ',' || c = '}' || c = ']' || isQuote c)

def skipDash : Text → Text
  | '-' :: text => (blanks? text).getD ('-' :: text)
  | text => text

/-- What follows the place where a key may begin: an opening brace or a comma, or the start of a line. -/
def keyPlace? (atLineStart : Bool) : Text → Option Text
  | [] => none
  | c :: text =>
    if c = '{' || c = ',' then some (skipBlanks text)
    else if atLineStart then some (skipDash (skipBlanks (c :: text)))
    else none

/-- The value of the `guid` entry that begins at this place, and what follows the value. -/
def guidItem? (atLineStart : Bool) (text : Text) : Option (Text × Text) := do
  let rest ← keyPlace? atLineStart text
  let rest ← afterKey? (afterIgnoringCase? guidWord) skipBlanks rest
  let rest := skipQuote (skipBlanks rest)
  return (rest.takeWhile isValueChar, rest.dropWhile isValueChar)

theorem length_skipDash_le (text : Text) : (skipDash text).length ≤ text.length := by
  rw [skipDash.eq_def]
  split
  · rename_i rest
    cases h : blanks? rest with
    | none => simp
    | some after =>
      cases rest with
      | nil => cases h
      | cons c rest =>
        rw [blanks?] at h
        split at h
        · obtain rfl := Option.some.inj h
          have := length_skipBlanks_le rest
          simp only [Option.getD_some, List.length_cons]
          omega
        · cases h
  · exact Nat.le_refl _

theorem length_of_keyPlace? {atLineStart : Bool} {text rest : Text} (h : keyPlace? atLineStart text = some rest) :
    rest.length ≤ text.length := by
  cases text with
  | nil => cases h
  | cons c text =>
    rw [keyPlace?] at h
    split at h
    · obtain rfl := Option.some.inj h
      exact Nat.le_succ_of_le (length_skipBlanks_le text)
    · split at h
      · obtain rfl := Option.some.inj h
        exact Nat.le_trans (length_skipDash_le _) (length_skipBlanks_le _)
      · cases h

theorem length_of_guidItem? {atLineStart : Bool} {text value rest : Text}
    (h : guidItem? atLineStart text = some (value, rest)) : rest.length < text.length := by
  obtain ⟨place, hplace, h⟩ := Option.bind_eq_some_iff.1 h
  obtain ⟨behind, hbehind, h⟩ := Option.bind_eq_some_iff.1 h
  obtain ⟨-, rfl⟩ := Prod.mk.inj (Option.some.inj h)
  have h1 := length_of_keyPlace? hplace
  have h2 := length_of_afterKey?
    (fun h => by have := length_of_afterIgnoringCase? h; simp only [guidWord, List.length_cons] at this; omega)
    length_skipBlanks_le hbehind
  have h3 := (List.dropWhile_sublist isValueChar (l := skipQuote (skipBlanks behind))).length_le
  have h4 := length_skipQuote_le (skipBlanks behind)
  have h5 := length_skipBlanks_le behind
  omega

def guidEntries (atLineStart : Bool) (text : Text) : List Text :=
  match _h : guidItem? atLineStart text with
  | some (value, rest) => value :: guidEntries false rest
  | none =>
    match text with
    | [] => []
    | c :: text => guidEntries (c = '\n') text
termination_by text.length
decreasing_by
  · exact length_of_guidItem? ‹_›
  · exact Nat.lt_succ_self _

def guids (text : Text) : List String :=
  ((guidEntries true text).filter fun value => !value.isEmpty).map String.ofList

end Text
end AssetIntegrity
