import AssetIntegrity.Proofs.Pointer.GuidCuts
import AssetIntegrity.Proofs.Text.Lines
/-!
# GUID sites — on which line a GUID value stands

The sites of a text are its entries with the number of line feeds in front of each (`guidSites`), and reading them from
the whole text is reading them line by line (`guidSites_cons`, `numberedGuids_cons`).
-/
namespace AssetIntegrity
namespace Text

/-- The entries of a text with the number of line feeds in front of each; `above` line feeds come before the text. -/
def guidSites (above : Nat) (atLineStart : Bool) (text : Text) : List (Nat × Text) :=
  match _h : guidItem? atLineStart text with
  | some (value, rest) => (above, value) :: guidSites (above + (text.count '\n' - rest.count '\n')) false rest
  | none =>
    match text with
    | [] => []
    | c :: text => guidSites (above + [c].count '\n') (c = '\n') text
termination_by text.length
decreasing_by
  · exact length_of_guidItem? ‹_›
  · exact Nat.lt_succ_self _

theorem guidSites_some (above : Nat) {atLineStart : Bool} {text value rest : Text}
    (h : guidItem? atLineStart text = some (value, rest)) :
    guidSites above atLineStart text =
      (above, value) :: guidSites (above + (text.count '\n' - rest.count '\n')) false rest := by
  rw [guidSites]
  split
  · rename_i heq
    rw [h] at heq
    cases heq
    rfl
  · rename_i heq
    rw [h] at heq
    cases heq

theorem guidSites_nil (above : Nat) (atLineStart : Bool) : guidSites above atLineStart [] = [] := by
  rw [guidSites]
  split
  · rename_i heq
    rw [guidItem?_nil] at heq
    cases heq
  · rfl

theorem guidSites_none (above : Nat) {atLineStart : Bool} {c : Char} {text : Text}
    (h : guidItem? atLineStart (c :: text) = none) :
    guidSites above atLineStart (c :: text) = guidSites (above + [c].count '\n') (c = '\n') text := by
  rw [guidSites]
  split
  · rename_i heq
    rw [h] at heq
    cases heq
  · rfl

theorem map_snd_guidSites (above : Nat) (atLineStart : Bool) (text : Text) :
    (guidSites above atLineStart text).map Prod.snd = guidEntries atLineStart text := by
  fun_induction guidSites above atLineStart text with
  | case1 above atLineStart text value rest h ih => rw [guidEntries_some h, List.map_cons, ih]
  | case2 above atLineStart h => rw [guidEntries_nil]; rfl
  | case3 above atLineStart c text h ih => rw [guidEntries_none h, ih]

/-- **The entries of one line have one site**, and behind its line feed reading starts afresh on the next line. -/
theorem guidSites_append (above : Nat) (b : Text) (atLineStart : Bool) (a : Text) (ha : '\n' ∉ a) :
    guidSites above atLineStart (a ++ '\n' :: b) =
      (guidEntries atLineStart a).map (above, ·) ++ guidSites (above + 1) true b := by
  fun_induction guidEntries atLineStart a with
  | case1 atLineStart a value rest h ih =>
    have hrest : '\n' ∉ rest := fun hmem => ha ((guidItem_suffix h).subset hmem)
    have hcount : (a ++ '\n' :: b).count '\n' - (rest ++ '\n' :: b).count '\n' = 0 := by
      rw [List.count_append, List.count_append, List.count_eq_zero_of_not_mem ha,
        List.count_eq_zero_of_not_mem hrest, Nat.sub_self]
    have hentry : guidItem? atLineStart (a ++ '\n' :: b) = some (value, rest ++ '\n' :: b) := by
      rw [guidItem?_append_newline, h]
      rfl
    rw [guidSites_some above hentry, hcount, Nat.add_zero, ih hrest]
    rfl
  | case2 atLineStart h =>
    have hentry : guidItem? atLineStart ('\n' :: b) = none := by
      have := guidItem?_append_newline atLineStart [] b
      rwa [h] at this
    rw [List.nil_append, guidSites_none above hentry]
    rfl
  | case3 atLineStart c a h ih =>
    obtain ⟨hc, ha⟩ := not_or.1 (fun hmem => ha (List.mem_cons.2 hmem))
    have hentry : guidItem? atLineStart (c :: (a ++ '\n' :: b)) = none := by
      have := guidItem?_append_newline atLineStart (c :: a) b
      rwa [h] at this
    rw [List.cons_append, guidSites_none above hentry, List.count_singleton, if_neg (by simpa using Ne.symm hc),
      Nat.add_zero, ih ha]

theorem guidSites_of_not_mem (above : Nat) (atLineStart : Bool) (a : Text) (ha : '\n' ∉ a) :
    guidSites above atLineStart a = (guidEntries atLineStart a).map (above, ·) := by
  fun_induction guidEntries atLineStart a with
  | case1 atLineStart a value rest h ih =>
    have hrest : '\n' ∉ rest := fun hmem => ha ((guidItem_suffix h).subset hmem)
    rw [guidSites_some above h, List.count_eq_zero_of_not_mem ha, List.count_eq_zero_of_not_mem hrest, Nat.sub_self,
      Nat.add_zero, ih hrest]
    rfl
  | case2 atLineStart h =>
    rw [guidSites_nil]
    rfl
  | case3 atLineStart c a h ih =>
    obtain ⟨hc, ha⟩ := not_or.1 (fun hmem => ha (List.mem_cons.2 hmem))
    rw [guidSites_none above h, List.count_singleton, if_neg (by simpa using Ne.symm hc), Nat.add_zero, ih ha]

/-! ## Line by line -/

/-- **The sites of a text are those of its first line, and then those of the rest.** -/
theorem guidSites_cons (above : Nat) {line : Text} {more : List Text} (h : WellCut (line :: more)) :
    guidSites above true (line ++ more.flatten) =
      (guidEntries true line).map (above, ·) ++ guidSites (above + 1) true more.flatten := by
  have hunbroken := h.unbroken line List.mem_cons_self
  rcases List.eq_nil_or_concat line with rfl | ⟨front, c, rfl⟩
  · exact absurd rfl (h.nonempty [] List.mem_cons_self)
  rw [List.concat_eq_append] at h hunbroken ⊢
  rw [List.dropLast_concat] at hunbroken
  by_cases hc : c = '\n'
  · subst hc
    rw [guidEntries_newline, guidEntries_nil, List.append_nil, List.append_assoc]
    exact guidSites_append above more.flatten true front hunbroken
  · -- a line without a line feed is the last one
    have hmore : more = [] := by
      cases more with
      | nil => rfl
      | cons next more =>
        rcases h.ended (front ++ [c]) List.mem_cons_self with hnil | ⟨other, heq⟩
        · exact absurd hnil (List.append_ne_nil_of_right_ne_nil front (List.cons_ne_nil c []))
        · exact absurd (List.cons.inj (List.append_inj_right' heq rfl)).1 hc
    subst hmore
    have hline : '\n' ∉ front ++ [c] := by
      rw [List.mem_append, List.mem_singleton, not_or]
      exact ⟨hunbroken, fun e => hc e.symm⟩
    rw [List.flatten_nil, List.append_nil, guidSites_nil, List.append_nil, guidSites_of_not_mem above true _ hline]

/-- The GUID values of a text, each with the number of line feeds in front of it; `above` come before the text. -/
def numberedGuids (above : Nat) (text : Text) : List (Nat × String) :=
  ((guidSites above true text).filter fun site => !site.2.isEmpty).map fun site => (site.1, String.ofList site.2)

theorem map_snd_numberedGuids (above : Nat) (text : Text) : (numberedGuids above text).map Prod.snd = guids text := by
  unfold numberedGuids guids
  rw [← map_snd_guidSites above, List.filter_map, List.map_map, List.map_map]
  rfl

theorem numberedGuids_nil (above : Nat) : numberedGuids above [] = [] := by
  unfold numberedGuids
  rw [guidSites_nil]
  rfl

theorem numberedGuids_cons (above : Nat) {line : Text} {more : List Text} (h : WellCut (line :: more)) :
    numberedGuids above (line ++ more.flatten) =
      (guids line).map (above, ·) ++ numberedGuids (above + 1) more.flatten := by
  unfold numberedGuids guids
  rw [guidSites_cons above h, List.filter_append, List.map_append, List.filter_map, List.map_map, List.map_map]
  rfl

theorem guids_nil : guids [] = [] := by
  unfold guids
  rw [guidEntries_nil]
  rfl

/-- **A cut behind a line cuts no GUID value.** -/
theorem guids_cons {line : Text} {more : List Text} (h : WellCut (line :: more)) :
    guids (line ++ more.flatten) = guids line ++ guids more.flatten := by
  have := congrArg (List.map Prod.snd) (numberedGuids_cons 0 h)
  rw [map_snd_numberedGuids, List.map_append, map_snd_numberedGuids, List.map_map] at this
  rw [this]
  exact congrArg (· ++ _) (List.map_id _)

end Text
end AssetIntegrity
