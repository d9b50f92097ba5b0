import AssetIntegrity.Text.Reading
/-!
# Keys — how a pointer names its parts

Pointers are flow mappings such as `{fileID: 100, guid: 0af1, type: 2}`.  Both readers of pointers ask for a key in the
same way and differ only in what may stand around the colon: anything that is white space, or blanks of one line.
-/
namespace AssetIntegrity
namespace Text

/-- The key of a local object, which is written in exactly this case. -/
def fileIdWord : Text := ['f', 'i', 'l', 'e', 'I', 'D']

def guidWord : Text := ['g', 'u', 'i', 'd']

/-- What follows a key and its colon: an optional quote, the word, an optional quote, a gap and `:`. -/
def afterKey? (word? : Text → Option Text) (skipGap : Text → Text) (text : Text) : Option Text :=
  (word? (skipQuote text)).bind fun rest => after? [':'] (skipGap (skipQuote rest))

theorem length_of_afterKey? {word? : Text → Option Text} {skipGap : Text → Text}
    (hword : ∀ {a b}, word? a = some b → b.length < a.length) (hgap : ∀ a, (skipGap a).length ≤ a.length)
    {text rest : Text} (h : afterKey? word? skipGap text = some rest) : rest.length + 1 < text.length := by
  obtain ⟨behind, hbehind, hrest⟩ := Option.bind_eq_some_iff.1 h
  have h1 := hword hbehind
  have h2 := length_of_after? hrest
  have h3 := hgap (skipQuote behind)
  have h4 := length_skipQuote_le behind
  have h5 := length_skipQuote_le text
  simp only [List.length_cons, List.length_nil] at h2
  omega

end Text
end AssetIntegrity
