import AssetIntegrity.Text.Classes
/-!
# Reading — taking words off the front of a text

Each reader looks at the front of a text and returns what follows, so that a grammar is a chain of readers.

* `after?` and `afterIgnoringCase?` ask for a fixed word, `blanks?` for at least one blank, `digits?` for at least
  one decimal digit, `number?` for digits with an optional minus sign.
* `skipBlanks`, `skipSpace` and `skipQuote` drop what may stand there and never fail.

No reader gives back what it has taken: the classes that meet in the grammars are disjoint, so there is never a
second way to read on.
-/
namespace AssetIntegrity
namespace Text

def after? (word text : Text) : Option Text := word.isPrefixOf? text

theorem after?_nil (text : Text) : after? [] text = some text := rfl

theorem after?_cons (w : Char) (word : Text) (c : Char) (text : Text) :
    after? (w :: word) (c :: text) = if w == c then after? word text else none := rfl

/-- What follows `word`, when the text begins with it in any mixture of ASCII case; `word` is in lower case. -/
def afterIgnoringCase? : Text → Text → Option Text
  | [], text => some text
  | _ :: _, [] => none
  | w :: word, c :: text => if c.toLower = w then afterIgnoringCase? word text else none

def skipBlanks (text : Text) : Text := text.dropWhile isBlank

def skipSpace (text : Text) : Text := text.dropWhile isSpace

def skipQuote : Text → Text
  | [] => []
  | c :: text => if isQuote c then text else c :: text

def blanks? : Text → Option Text
  | [] => none
  | c :: text => if isBlank c then some (skipBlanks text) else none

/-- The run of decimal digits in front, not empty, and what follows it. -/
def digits? : Text → Option (Text × Text)
  | [] => none
  | c :: text =>
    if isDecimalDigit c then some (c :: text.takeWhile isDecimalDigit, text.dropWhile isDecimalDigit) else none

/-- A number as written, an optional minus sign and decimal digits, and what follows it. -/
def number? : Text → Option (Text × Text)
  | '-' :: text => (digits? text).map fun (digits, rest) => ('-' :: digits, rest)
  | text => digits? text

def occursIn (word : Text) : Text → Bool
  | [] => word.isEmpty
  | c :: text => word.isPrefixOf (c :: text) || occursIn word text

theorem length_skipBlanks_le (text : Text) : (skipBlanks text).length ≤ text.length :=
  (List.dropWhile_sublist _).length_le

theorem length_skipQuote_le (text : Text) : (skipQuote text).length ≤ text.length := by
  cases text with
  | nil => exact Nat.le_refl _
  | cons c text =>
    rw [skipQuote]
    split
    · exact Nat.le_succ _
    · exact Nat.le_refl _

theorem length_of_afterIgnoringCase? : ∀ {word text rest : Text}, afterIgnoringCase? word text = some rest →
    rest.length + word.length = text.length
  | [], text, rest, h => by
    obtain rfl : text = rest := Option.some.inj h
    rfl
  | _ :: _, [], _, h => by cases h
  | w :: word, c :: text, rest, h => by
    rw [afterIgnoringCase?] at h
    split at h
    · have := length_of_afterIgnoringCase? h
      simp only [List.length_cons]
      omega
    · cases h

theorem length_of_after? {word text rest : Text} (h : after? word text = some rest) :
    rest.length + word.length = text.length := by
  induction word generalizing text with
  | nil =>
    obtain rfl : text = rest := Option.some.inj h
    rfl
  | cons w word ih =>
    cases text with
    | nil => cases h
    | cons c text =>
      rw [after?_cons] at h
      split at h
      · have := ih h
        simp only [List.length_cons]
        omega
      · cases h

end Text
end AssetIntegrity
