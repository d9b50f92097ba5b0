import AssetIntegrity.Text.Classes
/-!
# Lines — cutting a text after each line feed

A line ends with its line feed, or with the end of the text; a carriage return is an ordinary character of its line.
A position counts bytes of the UTF-8 form from zero and lines from one.

* `flatten_lines`: the lines of a text put together again are the text.
* `lines_append`: a text that ends with a line feed is cut without regard to what follows it.
-/
namespace AssetIntegrity
namespace Text

def byteLength (text : Text) : Nat := text.foldr (fun c bytes => c.utf8Size + bytes) 0

/-- The lines of a text, each with the line feed that ends it; the last one may lack it. -/
def lines : Text → List Text
  | [] => []
  | c :: text =>
    if c = '\n' then ['\n'] :: lines text
    else match lines text with
      | [] => [[c]]
      | line :: more => (c :: line) :: more

/-- Whether a cut after this text falls between two lines: it is empty or ends with a line feed. -/
def EndsLine (text : Text) : Prop := text = [] ∨ ∃ front, text = front ++ ['\n']

@[simp] theorem byteLength_nil : byteLength [] = 0 := rfl

theorem byteLength_cons (c : Char) (text : Text) : byteLength (c :: text) = c.utf8Size + byteLength text := rfl

@[simp] theorem byteLength_append (a b : Text) : byteLength (a ++ b) = byteLength a + byteLength b := by
  induction a with
  | nil => rw [List.nil_append, byteLength_nil, Nat.zero_add]
  | cons c a ih => rw [List.cons_append, byteLength_cons, byteLength_cons, ih, Nat.add_assoc]

theorem flatten_lines (text : Text) : (lines text).flatten = text := by
  induction text with
  | nil => rfl
  | cons c text ih =>
    rw [lines]
    split
    · rename_i h
      rw [List.flatten_cons, ih, h]
      rfl
    · split
      · rename_i h
        rw [h] at ih
        rw [← ih]
        rfl
      · rename_i line more h
        rw [h, List.flatten_cons] at ih
        rw [List.flatten_cons, List.cons_append, ih]

theorem lines_append_newline (front rest : Text) :
    lines (front ++ '\n' :: rest) = lines (front ++ ['\n']) ++ lines rest := by
  induction front with
  | nil => simp [lines]
  | cons c front ih =>
    rw [List.cons_append, List.cons_append, lines, lines, ih]
    split
    · rfl
    · cases h : lines (front ++ ['\n']) with
      | nil =>
        have := flatten_lines (front ++ ['\n'])
        rw [h] at this
        simp at this
      | cons line more => rfl

theorem lines_append {a : Text} (h : EndsLine a) (b : Text) : lines (a ++ b) = lines a ++ lines b := by
  rcases h with rfl | ⟨front, rfl⟩
  · rfl
  · rw [List.append_assoc]
    exact lines_append_newline front b

end Text

/-- A place in a text: the bytes before it, and the number of its line. -/
structure Position where
  offset : Nat
  line : Nat
deriving DecidableEq, Inhabited

def Position.start : Position := ⟨0, 1⟩

def Position.afterLine (position : Position) (line : Text) : Position :=
  ⟨position.offset + line.byteLength, position.line + 1⟩

structure Line where
  position : Position
  text : Text
deriving DecidableEq

/-- Gives each line its place, when the first begins at `position`. -/
def Line.locate (position : Position) : List Text → List Line
  | [] => []
  | line :: more => ⟨position, line⟩ :: Line.locate (position.afterLine line) more

end AssetIntegrity
