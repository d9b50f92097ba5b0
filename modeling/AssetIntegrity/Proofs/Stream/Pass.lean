import AssetIntegrity.Proofs.Stream.Join
/-!
# Passes — a stream cut out of its text by offsets

A pass goes over the lines of a text once.  It keeps the place of the next line, the documents that are closed and the
document that is still open, and it cuts a body out of the text when the next marker line or the end closes it.  A slice
between two offsets does not exist beyond the end of the text, in the wrong order or inside a character
(`slice?_eq_some_iff`).

Every slice that a pass takes exists, and the stream that it returns is the stream of the text (`Stream.scan?_eq`).
-/
namespace AssetIntegrity

namespace Text

/-- What stands before and behind an offset, counted in bytes; `none` inside a character and beyond the end. -/
def cutAt? : Nat → Text → Option (Text × Text)
  | 0, text => some ([], text)
  | _ + 1, [] => none
  | n + 1, c :: text =>
    if c.utf8Size ≤ n + 1 then (cutAt? (n + 1 - c.utf8Size) text).map fun (front, rest) => (c :: front, rest) else none

/-- The text between two offsets. -/
def slice? (text : Text) (start stop : Nat) : Option Text :=
  (cutAt? stop text).bind fun (front, _) => (cutAt? start front).map Prod.snd

theorem cutAt?_byteLength : ∀ (a b : Text), cutAt? a.byteLength (a ++ b) = some (a, b)
  | [], b => by cases b <;> rfl
  | c :: a, b => by
    obtain ⟨n, hn⟩ : ∃ n, byteLength (c :: a) = n + 1 :=
      Nat.exists_eq_add_one_of_ne_zero (by rw [byteLength_cons]; have := c.utf8Size_pos; omega)
    have hsize : n + 1 - c.utf8Size = byteLength a := by rw [← hn, byteLength_cons]; omega
    have hle : c.utf8Size ≤ n + 1 := by rw [← hn, byteLength_cons]; omega
    rw [hn, List.cons_append, cutAt?, if_pos hle, hsize, cutAt?_byteLength a b]
    rfl

theorem eq_append_of_cutAt? : ∀ {text : Text} {n : Nat} {a b : Text}, cutAt? n text = some (a, b) →
    text = a ++ b ∧ n = a.byteLength
  | text, 0, a, b, h => by
    have h : some (([] : Text), text) = some (a, b) := by cases text <;> exact h
    obtain ⟨rfl, rfl⟩ := Prod.mk.inj (Option.some.inj h)
    exact ⟨rfl, rfl⟩
  | [], _ + 1, _, _, h => by cases h
  | c :: text, n + 1, a, b, h => by
    rw [cutAt?] at h
    split at h
    · rename_i hle
      obtain ⟨⟨front, rest⟩, hcut, heq⟩ := Option.map_eq_some_iff.1 h
      obtain ⟨rfl, rfl⟩ := Prod.mk.inj heq
      obtain ⟨rfl, hn⟩ := eq_append_of_cutAt? hcut
      refine ⟨rfl, ?_⟩
      rw [byteLength_cons]
      omega
    · cases h

/-- **An offset cuts a text exactly between two characters.** -/
theorem cutAt?_eq_some_iff {text : Text} {n : Nat} {a b : Text} :
    cutAt? n text = some (a, b) ↔ text = a ++ b ∧ n = a.byteLength := by
  constructor
  · exact eq_append_of_cutAt?
  · rintro ⟨rfl, rfl⟩
    exact cutAt?_byteLength a b

/-- **A slice exists exactly between two offsets that cut the text**, the first not behind the second. -/
theorem slice?_eq_some_iff {text : Text} {start stop : Nat} {middle : Text} :
    text.slice? start stop = some middle ↔
      ∃ a b, text = a ++ middle ++ b ∧ start = a.byteLength ∧ stop = (a ++ middle).byteLength := by
  unfold slice?
  constructor
  · intro h
    obtain ⟨⟨front, b⟩, hstop, h⟩ := Option.bind_eq_some_iff.1 h
    obtain ⟨⟨a, middle'⟩, hstart, heq⟩ := Option.map_eq_some_iff.1 h
    obtain rfl : middle' = middle := heq
    obtain ⟨rfl, rfl⟩ := cutAt?_eq_some_iff.1 hstop
    obtain ⟨rfl, rfl⟩ := cutAt?_eq_some_iff.1 hstart
    exact ⟨a, b, rfl, rfl, rfl⟩
  · rintro ⟨a, b, rfl, rfl, rfl⟩
    rw [cutAt?_byteLength (a ++ middle) b, Option.bind_some]
    exact congrArg (Option.map Prod.snd) (cutAt?_byteLength a middle)

end Text

open Text

/-- A document whose body is still being read; the body begins at an offset. -/
structure OpenDocument extends Marker where
  position : Position
  bodyStart : Nat

/-- The document of an open one, once its body is known. -/
def OpenDocument.close (document : OpenDocument) (body : Text) : Document :=
  ⟨document.toMarker, document.position, body⟩

/-- What a pass knows between two lines. -/
structure Pass where
  /-- The place of the next line. -/
  position : Position
  /-- Where the preamble ends. -/
  preambleEnd : Nat
  closed : List Document
  current : Option OpenDocument

namespace Pass

/-- The pass over a text before its first line; the preamble ends with the text until a marker line is met. -/
def start (text : Text) : Pass := ⟨.start, text.byteLength, [], none⟩

/-- Goes over one line of a text: a marker line closes the document that is open, and opens its own. -/
def next? (text : Text) (pass : Pass) (line : Text) : Option Pass :=
  let position := pass.position.afterLine line
  match Marker.parse? line with
  | none => some { pass with position }
  | some marker =>
    let opened : OpenDocument := ⟨marker, pass.position, pass.position.offset + line.byteLength⟩
    match pass.current with
    | none => some { pass with position, preambleEnd := pass.position.offset, current := some opened }
    | some document =>
      (text.slice? document.bodyStart pass.position.offset).map fun body =>
        { pass with position, closed := pass.closed ++ [document.close body], current := some opened }

/-- The stream of a pass that has gone over all lines; the document that is open ends with the text. -/
def finish? (text : Text) (pass : Pass) : Option Stream := do
  let last ← match pass.current with
    | none => some []
    | some document => (text.slice? document.bodyStart text.byteLength).map fun body => [document.close body]
  let preamble ← text.slice? 0 pass.preambleEnd
  return ⟨preamble, pass.closed ++ last⟩

/-- **What a pass has gathered** when it has gone over `read`: the stream of what it has read, where the last body, if
any, begins at an offset of the text. -/
inductive Gathered (text read : Text) : Pass → Stream → Prop where
  | preamble (position : Position) : Gathered text read ⟨position, text.byteLength, [], none⟩ ⟨read, []⟩
  | body {position place : Position} {preambleEnd bodyStart : Nat} {preamble front body : Text} {marker : Marker}
      {closed : List Document} (hpreamble : preamble <+: text) (hend : preambleEnd = preamble.byteLength)
      (hread : read = front ++ body) (hstart : bodyStart = front.byteLength) :
      Gathered text read ⟨position, preambleEnd, closed, some ⟨marker, place, bodyStart⟩⟩
        ⟨preamble, closed ++ [⟨marker, place, body⟩]⟩

/-- **One line**: its slice exists, and what is gathered then is joined with the stream of that line. -/
theorem Gathered.next {text read line rest : Text} {pass : Pass} {stream : Stream} (htext : text = read ++ line ++ rest)
    (hoffset : pass.position.offset = read.byteLength) (h : Gathered text read pass stream) :
    ∃ pass', pass.next? text line = some pass' ∧ pass'.position = pass.position.afterLine line ∧
      Gathered text (read ++ line) pass' (stream.join (Stream.readAt pass.position [line])) := by
  unfold next?
  cases hm : Marker.parse? line with
  | none =>
    rw [Stream.readAt_singleton_plain _ hm]
    refine ⟨{ pass with position := pass.position.afterLine line }, rfl, rfl, ?_⟩
    cases h with
    | preamble position => exact .preamble _
    | @body _ place _ _ _ front body _ closed hpreamble hend hread hstart =>
      rw [Stream.join_of_concat]
      exact .body hpreamble hend (by rw [hread, List.append_assoc]) hstart
  | some marker =>
    have hstart' : pass.position.offset + line.byteLength = (read ++ line).byteLength := by
      rw [hoffset, byteLength_append]
    rw [Stream.readAt_singleton_marker _ hm]
    cases h with
    | preamble position =>
      refine ⟨_, rfl, rfl, ?_⟩
      rw [Stream.join_of_nil, List.append_nil]
      refine .body ?_ hoffset (List.append_nil _).symm hstart'
      rw [htext, List.append_assoc]
      exact List.prefix_append _ _
    | @body position place _ bodyStart _ front body marker' closed hpreamble hend hread hstart =>
      have hslice : text.slice? bodyStart position.offset = some body := by
        refine slice?_eq_some_iff.2 ⟨front, line ++ rest, ?_, hstart, ?_⟩
        · rw [htext, hread, List.append_assoc]
        · rw [← hread]
          exact hoffset
      simp only [hslice, Option.map_some]
      refine ⟨_, rfl, rfl, ?_⟩
      have hlist : closed ++ [⟨marker', place, body⟩, ⟨marker, position, []⟩]
          = (closed ++ [⟨marker', place, body⟩]) ++ [⟨marker, position, []⟩] := List.append_cons _ _ _
      simp only [Stream.join_of_concat, Document.extend, List.append_nil]
      rw [hlist]
      exact .body hpreamble hend (List.append_nil _).symm hstart'

/-- **All lines**: a pass goes over the rest of the text, and gathers the stream of it behind what it had. -/
theorem Gathered.foldlM {text : Text} : ∀ {lines : List Text} {read : Text} {pass : Pass} {stream : Stream},
    text = read ++ lines.flatten → pass.position.offset = read.byteLength → Gathered text read pass stream →
    ∃ pass', lines.foldlM (next? text) pass = some pass' ∧
      Gathered text text pass' (stream.join (Stream.readAt pass.position lines))
  | [], read, pass, stream, htext, _, h => by
    obtain rfl : text = read := by rw [htext, List.flatten_nil, List.append_nil]
    rw [Stream.readAt_nil, Stream.join_empty]
    exact ⟨pass, rfl, h⟩
  | line :: lines, read, pass, stream, htext, hoffset, h => by
    have htext' : text = read ++ line ++ lines.flatten := by rw [htext, List.flatten_cons, List.append_assoc]
    obtain ⟨pass₁, hnext, hposition, h₁⟩ := h.next htext' hoffset
    have hoffset₁ : pass₁.position.offset = (read ++ line).byteLength := by
      rw [hposition, byteLength_append, ← hoffset]
      rfl
    obtain ⟨pass₂, hfold, h₂⟩ := Gathered.foldlM htext' hoffset₁ h₁
    refine ⟨pass₂, ?_, ?_⟩
    · rw [List.foldlM_cons, hnext]
      exact hfold
    · rw [hposition, Stream.join_assoc] at h₂
      rw [← List.singleton_append, Stream.readAt_append]
      exact h₂

/-- **The end**: the slices of the last body and of the preamble exist. -/
theorem Gathered.finish {text : Text} {pass : Pass} {stream : Stream} (h : Gathered text text pass stream) :
    pass.finish? text = some stream := by
  unfold finish?
  cases h with
  | preamble position =>
    have hslice : text.slice? 0 text.byteLength = some text :=
      slice?_eq_some_iff.2 ⟨[], [], (List.append_nil _).symm, rfl, rfl⟩
    simp [hslice]
  | @body position place _ bodyStart preamble front body marker closed hpreamble hend hread hstart =>
    obtain ⟨behind, hbehind⟩ := hpreamble
    have hlast : text.slice? bodyStart text.byteLength = some body :=
      slice?_eq_some_iff.2 ⟨front, [], by rw [List.append_nil, ← hread], hstart, by rw [← hread]⟩
    have hslice : text.slice? 0 preamble.byteLength = some preamble :=
      slice?_eq_some_iff.2 ⟨[], behind, hbehind.symm, rfl, rfl⟩
    simp [hlast, hend, hslice, OpenDocument.close]

end Pass

namespace Stream

/-- The stream of a text, cut out in one pass; `none` when a slice that the pass takes does not exist. -/
def scan? (text : Text) : Option Stream := (text.lines.foldlM (Pass.next? text) (.start text)).bind (Pass.finish? text)

/-- **Every slice of a pass exists**, and the pass returns the stream of the text. -/
theorem scan?_eq (text : Text) : scan? text = some (ofText text) := by
  have hstart : Pass.Gathered text [] (.start text) empty := .preamble _
  obtain ⟨pass, hfold, h⟩ := hstart.foldlM (flatten_lines text).symm rfl
  rw [empty_join] at h
  rw [scan?, hfold, Option.bind_some, h.finish]
  rfl

end Stream
end AssetIntegrity
