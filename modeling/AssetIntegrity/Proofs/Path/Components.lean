import AssetIntegrity.Path.Classifier
import AssetIntegrity.Proofs.Disk.Resolution
import AssetIntegrity.Proofs.Path.Order
/-!
# Components — what names add to a path

Joining a valid name to a path adds one component at the end (`components_join`), whether or not the path ends with a
slash.  So the names that were joined can be read off the path (`namesBelow_descend`), and two paths below one root
compare as their names do (`descend_before_iff`).
-/
namespace AssetIntegrity
namespace Path

/-- The path to a place below a root, name by name. -/
def descend (root : Path) (names : List FileName) : Path := names.foldl join root

/-- The names by which a path goes on behind a root. -/
def namesBelow (root path : Path) : List FileName := (path.components.drop root.components.length).map Component.bytes

theorem Component.ofName?_eq_none_iff {part : FileName} : Component.ofName? part = none ↔ part = [] ∨ part = [dot] := by
  unfold Component.ofName?
  split
  · rename_i h
    exact iff_of_true rfl h
  · rename_i h
    refine iff_of_false ?_ h
    split <;> nofun

theorem Component.ofName?_eq_some_name_iff {part name : FileName} :
    Component.ofName? part = some (.name name) ↔ part = name ∧ name ≠ [] ∧ name ≠ [dot] ∧ name ≠ [dot, dot] := by
  unfold Component.ofName?
  constructor
  · intro h
    split at h
    · cases h
    · rename_i hplain
      split at h
      · cases h
      · rename_i hparent
        cases h
        exact ⟨rfl, (not_or.1 hplain).1, (not_or.1 hplain).2, hparent⟩
  · rintro ⟨rfl, hnil, hhere, hparent⟩
    rw [if_neg (not_or.2 ⟨hnil, hhere⟩), if_neg hparent]

theorem Component.ofName?_of_valid {name : FileName} (h : name.Valid) : Component.ofName? name = some (.name name) :=
  Component.ofName?_eq_some_name_iff.2 ⟨rfl, h.ne_nil, h.ne_here, h.ne_parent⟩

/-- What the text in front of the first slash says. -/
def Component.ofFront (front : FileName) : List Component :=
  if front = [] then [.root] else if front = [dot] then [.here] else (Component.ofName? front).toList

theorem components_of_splitOn {path : Path} (hpath : path ≠ []) {front : FileName} {names : List FileName}
    (h : path.splitOn slash = front :: names) :
    path.components = Component.ofFront front ++ names.filterMap Component.ofName? := by
  unfold components Component.ofFront
  rw [h]
  cases front with
  | nil => simp [hpath]
  | cons c rest =>
    by_cases hdot : c :: rest = [dot]
    · simp [hdot, Component.ofName?]
    · simp only [if_neg hdot, List.filterMap_cons, reduceCtorEq, if_false, List.nil_append]
      cases Component.ofName? (c :: rest) <;> rfl

theorem join_ne_nil {path : Path} (hpath : path ≠ []) (name : FileName) : path.join name ≠ [] := by
  obtain ⟨tail, heq, -⟩ := path.exists_join name hpath
  rw [heq]
  exact List.append_ne_nil_of_left_ne_nil hpath tail

theorem length_le_join (path : Path) (name : FileName) : path.length ≤ (path.join name).length := by
  by_cases hpath : path = []
  · rw [hpath]
    exact Nat.zero_le _
  · obtain ⟨tail, heq, -⟩ := path.exists_join name hpath
    rw [heq, List.length_append]
    exact Nat.le_add_right _ _

theorem length_lt_join {path : Path} {name : FileName} (hpath : path ≠ []) (hname : name ≠ []) :
    path.length < (path.join name).length := by
  have hlength := List.length_pos_of_ne_nil hname
  obtain ⟨tail, heq, rfl | rfl⟩ := path.exists_join name hpath
  · rw [heq, List.length_append]
    omega
  · rw [heq, List.length_append, List.length_cons]
    omega

/-- **A name that is joined is one component more.** -/
theorem components_join {path : Path} {name : FileName} (hpath : path ≠ []) (hname : name.Valid) :
    (path.join name).components = path.components ++ [.name name] := by
  obtain ⟨last, hend⟩ := Option.isSome_iff_exists.1 (List.getLast?_isSome.2 hpath)
  obtain ⟨front, names, hsplit⟩ := List.exists_cons_of_ne_nil (List.splitOn_ne_nil slash path)
  have hadded : ∃ names', (path.join name).splitOn slash = front :: names' ∧
      names'.filterMap Component.ofName? = names.filterMap Component.ofName? ++ [.name name] := by
    have hlastName : [name].filterMap Component.ofName? = [.name name] := by
      rw [List.filterMap_cons_some (Component.ofName?_of_valid hname)]
      rfl
    rw [join_of_getLast? hend]
    split
    · -- the path ends with a slash, behind which the name takes the place of the empty name
      rename_i hlast
      obtain ⟨before, rfl⟩ := List.getLast?_eq_some_iff.1 hend
      subst hlast
      obtain ⟨first, more, hbefore⟩ := List.exists_cons_of_ne_nil (List.splitOn_ne_nil slash before)
      rw [List.splitOn_append_cons_self, hbefore, List.splitOn_nil, List.cons_append] at hsplit
      obtain ⟨rfl, rfl⟩ := List.cons.inj hsplit
      refine ⟨more ++ [name], ?_, ?_⟩
      · rw [List.append_assoc, List.singleton_append, List.splitOn_append_cons_self, hbefore,
          List.splitOn_eq_singleton hname.slash_notMem, List.cons_append]
      · rw [List.filterMap_append, List.filterMap_append, hlastName]
        exact congrArg (· ++ _) (List.append_nil _).symm
    · refine ⟨names ++ [name], ?_, ?_⟩
      · rw [List.splitOn_append_cons_self, hsplit, List.splitOn_eq_singleton hname.slash_notMem, List.cons_append]
      · rw [List.filterMap_append, hlastName]
  obtain ⟨names', hsplit', hnames⟩ := hadded
  rw [components_of_splitOn (join_ne_nil hpath name) hsplit', components_of_splitOn hpath hsplit, hnames,
    List.append_assoc]

theorem fileName?_join {path : Path} {name : FileName} (hpath : path ≠ []) (hname : name.Valid) :
    (path.join name).fileName? = some name := by
  unfold fileName?
  rw [components_join hpath hname, List.getLast?_concat]

theorem fileName?_of_valid {name : FileName} (h : name.Valid) : Path.fileName? name = some name := by
  unfold fileName?
  rw [components_of_splitOn h.ne_nil (List.splitOn_eq_singleton h.slash_notMem), List.filterMap_nil, List.append_nil,
    Component.ofFront, if_neg h.ne_nil, if_neg h.ne_here, Component.ofName?_of_valid h]
  rfl

theorem components_descend : ∀ {names : List FileName} {root : Path}, root ≠ [] →
    (∀ name ∈ names, FileName.Valid name) → (root.descend names).components = root.components ++ names.map .name
  | [], root, _, _ => (List.append_nil _).symm
  | name :: names, root, hroot, hnames => by
    obtain ⟨hname, hnames⟩ := List.forall_mem_cons.1 hnames
    show ((root.join name).descend names).components = _
    rw [components_descend (join_ne_nil hroot name) hnames, components_join hroot hname, List.append_assoc]
    rfl

theorem namesBelow_descend {root : Path} {names : List FileName} (hroot : root ≠ [])
    (hnames : ∀ name ∈ names, FileName.Valid name) : root.namesBelow (root.descend names) = names := by
  unfold namesBelow
  rw [components_descend hroot hnames, List.drop_left, List.map_map]
  exact List.map_id _

theorem eq_of_components_descend {root : Path} {a b : List FileName} (hroot : root ≠ [])
    (ha : ∀ name ∈ a, FileName.Valid name) (hb : ∀ name ∈ b, FileName.Valid name)
    (h : (root.descend a).components = (root.descend b).components) : a = b := by
  rw [← namesBelow_descend hroot ha, ← namesBelow_descend hroot hb, namesBelow, h, namesBelow]

/-- **Paths below one root are in the order of their names.** -/
theorem descend_before_iff {root : Path} {a b : List FileName} (hroot : root ≠ [])
    (ha : ∀ name ∈ a, FileName.Valid name) (hb : ∀ name ∈ b, FileName.Valid name) :
    (root.descend a).Before (root.descend b) ↔ a < b := by
  rw [before_iff, components_descend hroot ha, components_descend hroot hb, lex_append_iff, lex_map_name_iff]

theorem length_le_descend : ∀ (names : List FileName) (root : Path), root.length ≤ (root.descend names).length
  | [], _ => Nat.le_refl _
  | name :: names, root => Nat.le_trans (length_le_join root name) (length_le_descend names (root.join name))

end Path

/-- **A classifier looks at the last name only.** -/
theorem Classifier.accepts_join (classifier : Classifier) {path : Path} {name : FileName} (hpath : path ≠ [])
    (hname : name.Valid) : classifier.accepts (path.join name) = classifier.accepts name := by
  unfold accepts Path.extension?
  rw [Path.fileName?_join hpath hname, Path.fileName?_of_valid hname]

end AssetIntegrity
