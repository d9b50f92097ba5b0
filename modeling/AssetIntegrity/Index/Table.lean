import AssetIntegrity.Stream.Document
/-!
# Tables — values by key, in the order of their first insertion

A table keeps its entries in the order in which their keys came; a new value for a key takes the place of the old one.
Every key occurs once, which the type carries.

* `keys_update`: an update leaves the keys as they are, or adds its key at the end.
* `get?_update`: it changes the value of its key and of no other.
-/
namespace AssetIntegrity

/-- Values by key, in the order of insertion. -/
structure Table (α : Type) where
  entries : List (String × α)
  distinct : (entries.map Prod.fst).Nodup

namespace Table

variable {α : Type}

def empty : Table α := ⟨[], List.nodup_nil⟩

instance : Inhabited (Table α) := ⟨empty⟩

def keys (table : Table α) : List String := table.entries.map Prod.fst

def values (table : Table α) : List α := table.entries.map Prod.snd

def get? (table : Table α) (key : String) : Option α := table.entries.lookup key

def contains (table : Table α) (key : String) : Bool := (table.get? key).isSome

/-- Entries with a new value for `key`, found from the old one; a new key comes last. -/
def updateEntries (key : String) (f : Option α → α) : List (String × α) → List (String × α)
  | [] => [(key, f none)]
  | (k, value) :: rest =>
    if k = key then (k, f (some value)) :: rest else (k, value) :: updateEntries key f rest

theorem map_fst_updateEntries (key : String) (f : Option α → α) (entries : List (String × α)) :
    (updateEntries key f entries).map Prod.fst =
      if key ∈ entries.map Prod.fst then entries.map Prod.fst else entries.map Prod.fst ++ [key] := by
  induction entries with
  | nil => simp [updateEntries]
  | cons entry rest ih =>
    obtain ⟨k, value⟩ := entry
    by_cases h : k = key
    · simp [updateEntries, h]
    · have h' : ¬ key = k := fun e => h e.symm
      simp only [updateEntries, if_neg h, List.map_cons, ih, List.mem_cons, h', false_or]
      split <;> simp

theorem lookup_cons_eq_ite (key other : String) (value : α) (rest : List (String × α)) :
    List.lookup other ((key, value) :: rest) = if other = key then some value else List.lookup other rest := by
  by_cases h : other = key
  · simp [h]
  · rw [List.lookup_cons, beq_false_of_ne h, if_neg h]

/-- A look-up finds any entry, when no key occurs twice. -/
theorem lookup_eq_some_iff_mem {κ : Type} [BEq κ] [LawfulBEq κ] : ∀ {entries : List (κ × α)},
    (entries.map Prod.fst).Nodup →
      ∀ {key : κ} {value : α}, entries.lookup key = some value ↔ (key, value) ∈ entries
  | [], _, _, _ => ⟨nofun, nofun⟩
  | (k, v) :: rest, hdistinct, key, value => by
    rw [List.map_cons, List.nodup_cons] at hdistinct
    rw [List.lookup_cons, List.mem_cons, Prod.mk.injEq]
    split
    · rename_i hkey
      have hrest : (key, value) ∉ rest := fun h => hdistinct.1 (List.mem_map.2 ⟨_, h, eq_of_beq hkey⟩)
      rw [Option.some.injEq]
      exact ⟨fun h => .inl ⟨eq_of_beq hkey, h.symm⟩, fun h => (h.resolve_right hrest).2.symm⟩
    · rename_i hkey
      rw [lookup_eq_some_iff_mem hdistinct.2]
      exact ⟨.inr, fun h => h.resolve_left fun heq => ne_of_beq_false hkey heq.1⟩

theorem lookup_updateEntries (key : String) (f : Option α → α) (entries : List (String × α)) (other : String) :
    (updateEntries key f entries).lookup other =
      if other = key then some (f (entries.lookup key)) else entries.lookup other := by
  induction entries with
  | nil => simp only [updateEntries, lookup_cons_eq_ite, List.lookup_nil]
  | cons entry rest ih =>
    obtain ⟨k, value⟩ := entry
    by_cases h : k = key
    · simp only [updateEntries, lookup_cons_eq_ite, h, if_true]
      split <;> rfl
    · have hk : ¬ key = k := fun e => h e.symm
      simp only [updateEntries, if_neg h, lookup_cons_eq_ite, ih, if_neg hk]
      split
      · rename_i e
        rw [if_neg (e ▸ h)]
      · rfl

/-- Gives `key` a new value, found from the old one; a new key comes last. -/
def update (table : Table α) (key : String) (f : Option α → α) : Table α where
  entries := updateEntries key f table.entries
  distinct := by
    rw [map_fst_updateEntries]
    split
    · exact table.distinct
    · rename_i h
      exact List.nodup_append.2 ⟨table.distinct, by simp, by
        intro a ha b hb
        obtain rfl := List.mem_singleton.1 hb
        exact fun e => h (e ▸ ha)⟩

def insert (table : Table α) (key : String) (value : α) : Table α := table.update key fun _ => value

def insertNew (table : Table α) (key : String) (value : α) : Table α := table.update key fun old => old.getD value

def append (table : Table (List α)) (key : String) (more : List α) : Table (List α) :=
  table.update key fun old => old.getD [] ++ more

theorem keys_update (table : Table α) (key : String) (f : Option α → α) :
    (table.update key f).keys = if key ∈ table.keys then table.keys else table.keys ++ [key] :=
  map_fst_updateEntries key f table.entries

theorem get?_update (table : Table α) (key : String) (f : Option α → α) (other : String) :
    (table.update key f).get? other = if other = key then some (f (table.get? key)) else table.get? other :=
  lookup_updateEntries key f table.entries other

end Table
end AssetIntegrity
