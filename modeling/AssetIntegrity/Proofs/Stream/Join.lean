import AssetIntegrity.Proofs.Stream.Sections
import Mathlib.Data.List.Induction
import Mathlib.Data.List.ModifyLast
/-!
# Joining — reading lines in two halves

The stream of lines is the stream of the first half joined with the stream of the second (`Stream.readAt_append`): what
stands in front of the first marker line of the second half continues the last body of the first, or its preamble when
the first half has no document.
-/
namespace AssetIntegrity

open Text

/-- The document with more text at the end of its body. -/
def Document.extend (document : Document) (more : Text) : Document := { document with body := document.body ++ more }

namespace Stream

/-- Puts a stream behind another one: its preamble continues what is open there. -/
def join (a b : Stream) : Stream :=
  if a.documents = [] then ⟨a.preamble ++ b.preamble, b.documents⟩
  else ⟨a.preamble, a.documents.modifyLast (·.extend b.preamble) ++ b.documents⟩

theorem join_of_nil (preamble : Text) (b : Stream) :
    join ⟨preamble, []⟩ b = ⟨preamble ++ b.preamble, b.documents⟩ := rfl

theorem join_of_concat (preamble : Text) (documents : List Document) (last : Document) (b : Stream) :
    join ⟨preamble, documents ++ [last]⟩ b = ⟨preamble, documents ++ last.extend b.preamble :: b.documents⟩ := by
  unfold join
  rw [if_neg (List.append_ne_nil_of_right_ne_nil _ (List.cons_ne_nil _ _)), List.modifyLast_concat, List.append_assoc]
  rfl

theorem empty_join (b : Stream) : empty.join b = b := rfl

theorem join_empty (a : Stream) : a.join empty = a := by
  obtain ⟨preamble, documents⟩ := a
  cases documents using List.reverseRecOn with
  | nil => rw [join_of_nil, empty, List.append_nil]
  | append_singleton documents last => rw [join_of_concat, empty, Document.extend, List.append_nil]

theorem join_assoc (a b c : Stream) : (a.join b).join c = a.join (b.join c) := by
  obtain ⟨p, as⟩ := a
  obtain ⟨q, bs⟩ := b
  cases as using List.reverseRecOn with
  | nil =>
    cases bs using List.reverseRecOn with
    | nil => simp only [join_of_nil, List.append_assoc]
    | append_singleton bs last => simp only [join_of_nil, join_of_concat]
  | append_singleton as first =>
    cases bs using List.reverseRecOn with
    | nil => simp only [join_of_nil, join_of_concat, Document.extend, List.append_assoc]
    | append_singleton bs last =>
      have hlast : as ++ first.extend q :: (bs ++ [last]) = (as ++ first.extend q :: bs) ++ [last] := by
        rw [List.append_assoc, List.cons_append]
      simp only [join_of_concat]
      rw [hlast, join_of_concat, List.append_assoc, List.cons_append]

theorem cons_join (line : Line) (a b : Stream) : cons line (a.join b) = (cons line a).join b := by
  obtain ⟨preamble, documents⟩ := a
  cases h : Marker.parse? line.text with
  | none =>
    cases documents using List.reverseRecOn with
    | nil => simp only [cons, h, join_of_nil, List.append_assoc]
    | append_singleton documents last => simp only [cons, h, join_of_concat]
  | some marker =>
    cases documents using List.reverseRecOn with
    | nil =>
      have hone := join_of_concat [] [] ⟨marker, line.position, preamble⟩ b
      rw [List.nil_append, List.nil_append] at hone
      simp only [cons, h, join_of_nil, hone, Document.extend]
    | append_singleton documents last => simp only [cons, h, join_of_concat, ← List.cons_append]

theorem ofLines_eq_join (lines : List Line) (rest : Stream) : ofLines lines rest = (ofLines lines empty).join rest := by
  induction lines with
  | nil => exact (empty_join rest).symm
  | cons line lines ih =>
    have hcons : ∀ b, ofLines (line :: lines) b = cons line (ofLines lines b) := fun _ => rfl
    rw [hcons, hcons, ih, cons_join]

theorem locate_append : ∀ (a b : List Text) (position : Position),
    Line.locate position (a ++ b) = Line.locate position a ++ Line.locate (position.afterLines a) b
  | [], _, _ => rfl
  | line :: a, b, position => by
    rw [List.cons_append, Line.locate, Line.locate, locate_append a b]
    rfl

/-- **Lines are read in two halves.** -/
theorem readAt_append (position : Position) (a b : List Text) :
    readAt position (a ++ b) = (readAt position a).join (readAt (position.afterLines a) b) := by
  unfold readAt
  rw [locate_append, ofLines_append, ofLines_eq_join]

end Stream
end AssetIntegrity
