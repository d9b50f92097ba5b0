import AssetIntegrity.Proofs.Stream.Join
/-!
# Blocks — a stream put together from its documents

A block is a marker line with the whole lines behind it, up to the next one.  Blocks put one behind the other, behind a
preamble of whole lines, are read back as that preamble and one document for each block, wherever each comes to stand
(`Stream.unplaced_ofText_blocks`).
-/
namespace AssetIntegrity

open Text

/-- **A block**: a marker line, and behind it whole lines that are no marker lines. -/
structure Block where
  line : Text
  body : Text
  marker : Marker
  marks : Marker.parse? line = some marker
  unbroken : '\n' ∉ line.dropLast
  ended : EndsLine line
  plain : ∀ l ∈ body.lines, Marker.parse? l = none
  bodyEnded : EndsLine body

/-- The document as if it stood at the start of its text. -/
def Document.unplaced (document : Document) : Document := { document with position := .start }

namespace Block

def text (block : Block) : Text := block.line ++ block.body

def document (block : Block) : Document := ⟨block.marker, .start, block.body⟩

theorem lines_text_append (block : Block) (rest : Text) :
    (block.text ++ rest).lines = block.line :: (block.body.lines ++ rest.lines) := by
  have hline : block.line.lines = [block.line] :=
    lines_singleton (Marker.ne_nil_of_parse? block.marks) block.unbroken
  rw [text, List.append_assoc, lines_append block.ended, lines_append block.bodyEnded, hline, List.singleton_append]

end Block

/-- Blocks, one behind the other. -/
def Text.ofBlocks (blocks : List Block) : Text := blocks.flatMap Block.text

theorem Text.ofBlocks_cons (block : Block) (blocks : List Block) :
    ofBlocks (block :: blocks) = block.text ++ ofBlocks blocks := List.flatMap_cons

namespace Stream

theorem readAt_of_plain : ∀ {lines : List Text} (position : Position), (∀ l ∈ lines, Marker.parse? l = none) →
    readAt position lines = ⟨lines.flatten, []⟩
  | [], _, _ => rfl
  | line :: lines, position, h => by
    obtain ⟨hline, hlines⟩ := List.forall_mem_cons.1 h
    rw [readAt_plain position hline, readAt_of_plain _ hlines, List.flatten_cons]

theorem readAt_plain_append (position : Position) {a : List Text} (ha : ∀ l ∈ a, Marker.parse? l = none)
    (b : List Text) :
    readAt position (a ++ b) =
      ⟨a.flatten ++ (readAt (position.afterLines a) b).preamble, (readAt (position.afterLines a) b).documents⟩ := by
  rw [readAt_append, readAt_of_plain position ha, join_of_nil]

/-- **Blocks are read back**, and nothing stands in front of them. -/
theorem readAt_blocks : ∀ (blocks : List Block) (position : Position),
    (readAt position (Text.ofBlocks blocks).lines).preamble = [] ∧
      (readAt position (Text.ofBlocks blocks).lines).documents.map Document.unplaced = blocks.map Block.document
  | [], _ => ⟨rfl, rfl⟩
  | block :: blocks, position => by
    rw [ofBlocks_cons, block.lines_text_append, readAt_marker position block.marks,
      readAt_plain_append _ block.plain, flatten_lines]
    obtain ⟨hpreamble, hdocuments⟩ :=
      readAt_blocks blocks ((position.afterLine block.line).afterLines block.body.lines)
    refine ⟨rfl, ?_⟩
    rw [List.map_cons, List.map_cons, hdocuments, hpreamble, List.append_nil]
    rfl

/-- **A preamble and blocks are read back** as that preamble and the documents of the blocks. -/
theorem unplaced_ofText_blocks {preamble : Text} (hplain : ∀ l ∈ preamble.lines, Marker.parse? l = none)
    (hended : EndsLine preamble) (blocks : List Block) :
    (ofText (preamble ++ .ofBlocks blocks)).preamble = preamble ∧
      (ofText (preamble ++ .ofBlocks blocks)).documents.map Document.unplaced =
        blocks.map Block.document := by
  have hread : ofText (preamble ++ .ofBlocks blocks) =
      readAt .start (preamble.lines ++ (Text.ofBlocks blocks).lines) := by
    rw [← lines_append hended]
    rfl
  obtain ⟨hpreamble, hdocuments⟩ := readAt_blocks blocks (Position.start.afterLines preamble.lines)
  rw [hread, readAt_plain_append _ hplain, flatten_lines, hpreamble, List.append_nil]
  exact ⟨rfl, hdocuments⟩

end Stream
end AssetIntegrity
