/-!
# Maps from paths

A finite map whose keys are paths, kept in the order of its keys. A map is determined by what it
answers, so two maps built in different orders are equal as soon as they agree on every path.

## Main definitions

* `PathMap`: the maps, with `get?`, `insert`, `erase` and `ofList`.
* `PathSet`: a set of paths, as a map to a value without content.

## Main results

* `PathMap.get?_insert`, `PathMap.get?_erase`: what a map answers after a change.
* `PathMap.get?_ofList`: of the entries of a list the last one for a path counts.
* `PathMap.ext_get?`: a map is determined by its answers.
-/

namespace LinePatch

/-- A map from paths, in the order of its paths, which is that of their code points. -/
@[ext]
structure PathMap (α : Type) where
  entries : List (String × α)
  sorted : entries.Pairwise fun a b => a.1 < b.1 := by simp
  deriving DecidableEq

/-- A set of paths. -/
abbrev PathSet : Type := PathMap Unit

namespace PathMap

variable {α : Type}

instance [Repr α] : Repr (PathMap α) := ⟨fun map => reprPrec map.entries⟩

instance : Inhabited (PathMap α) := ⟨⟨[], .nil⟩⟩

/-- The map without entries. -/
def empty : PathMap α := ⟨[], .nil⟩

/-- The value of a path. -/
def get? (map : PathMap α) (path : String) : Option α :=
  map.entries.lookup path

/-- The paths that have a value, in order. -/
def paths (map : PathMap α) : List String :=
  map.entries.map Prod.fst

def isEmpty (map : PathMap α) : Bool :=
  map.entries.isEmpty

/-- Puts an entry in its place among entries in order. -/
def insertEntry (path : String) (value : α) : List (String × α) → List (String × α)
  | [] => [(path, value)]
  | entry :: rest =>
    if path < entry.1 then (path, value) :: entry :: rest
    else if path = entry.1 then (path, value) :: rest
    else entry :: insertEntry path value rest

/-- Of two paths of which neither is smaller, both are the same. -/
theorem eq_of_not_lt {a b : String} (hab : ¬ a < b) (hba : ¬ b < a) : a = b :=
  String.le_antisymm (String.not_lt.1 hba) (String.not_lt.1 hab)

theorem mem_insertEntry {path : String} {value : α} {entries : List (String × α)}
    {entry : String × α} (h : entry ∈ insertEntry path value entries) :
    entry = (path, value) ∨ entry ∈ entries := by
  induction entries with
  | nil => simpa [insertEntry] using h
  | cons head rest ih =>
    unfold insertEntry at h
    split at h
    · simpa using h
    · split at h
      · rcases List.mem_cons.1 h with h | h
        · exact Or.inl h
        · exact Or.inr (List.mem_cons_of_mem _ h)
      · rcases List.mem_cons.1 h with h | h
        · exact Or.inr (h ▸ List.mem_cons_self)
        · exact (ih h).imp_right (List.mem_cons_of_mem _)

theorem sorted_insertEntry (path : String) (value : α) {entries : List (String × α)}
    (h : entries.Pairwise fun a b => a.1 < b.1) :
    (insertEntry path value entries).Pairwise fun a b => a.1 < b.1 := by
  induction entries with
  | nil => simp [insertEntry]
  | cons head rest ih =>
    have hrest := List.pairwise_cons.1 h
    unfold insertEntry
    split
    · rename_i hlt
      refine List.pairwise_cons.2 ⟨?_, h⟩
      intro entry hentry
      rcases List.mem_cons.1 hentry with rfl | hentry
      · exact hlt
      · exact String.lt_trans hlt (hrest.1 entry hentry)
    · rename_i hlt
      split
      · rename_i heq
        refine List.pairwise_cons.2 ⟨?_, hrest.2⟩
        intro entry hentry
        exact heq ▸ hrest.1 entry hentry
      · rename_i hne
        refine List.pairwise_cons.2 ⟨?_, ih hrest.2⟩
        intro entry hentry
        rcases mem_insertEntry hentry with rfl | hentry
        · exact Decidable.byContradiction fun hgt => hne (eq_of_not_lt hlt hgt)
        · exact hrest.1 entry hentry

/-- The map with a value for a path, in place of the one it may have had. -/
def insert (map : PathMap α) (path : String) (value : α) : PathMap α :=
  ⟨insertEntry path value map.entries, sorted_insertEntry path value map.sorted⟩

/-- The map without a value for a path. -/
def erase (map : PathMap α) (path : String) : PathMap α :=
  ⟨map.entries.filter (·.1 ≠ path), map.sorted.filter _⟩

/-- The map of a list of entries, of which a later one counts. -/
def ofList (entries : List (String × α)) : PathMap α :=
  entries.foldl (fun map entry => map.insert entry.1 entry.2) empty

theorem lookup_entry (path : String) (entry : String × α) (rest : List (String × α)) :
    (entry :: rest).lookup path = if path = entry.1 then some entry.2 else rest.lookup path := by
  obtain ⟨key, value⟩ := entry
  by_cases h : path = key
  · simp [h]
  · simp [List.lookup_cons, h, beq_false_of_ne h]

@[simp] theorem get?_empty (path : String) : (empty : PathMap α).get? path = none := rfl

@[simp] theorem get?_insert (map : PathMap α) (path : String) (value : α) (asked : String) :
    (map.insert path value).get? asked = if asked = path then some value else map.get? asked := by
  obtain ⟨entries, sorted⟩ := map
  simp only [get?, insert]
  clear sorted
  induction entries with
  | nil => simp [insertEntry, lookup_entry]
  | cons head rest ih =>
    unfold insertEntry
    split
    · simp [lookup_entry]
    · split
      · rename_i heq
        by_cases h : asked = path <;> simp [lookup_entry, h, ← heq]
      · rename_i hne
        rw [lookup_entry, lookup_entry, ih]
        by_cases h : asked = head.1
        · have hp : ¬ asked = path := fun e => hne (e ▸ h)
          rw [if_pos h, if_neg hp, if_pos h]
        · rw [if_neg h, if_neg h]

theorem get?_eq_some_iff_mem (map : PathMap α) (path : String) (value : α) :
    map.get? path = some value ↔ (path, value) ∈ map.entries := by
  obtain ⟨entries, sorted⟩ := map
  simp only [get?]
  induction entries with
  | nil => simp
  | cons head rest ih =>
    have hrest := List.pairwise_cons.1 sorted
    obtain ⟨key, kept⟩ := head
    rw [lookup_entry]
    by_cases h : path = key
    · subst h
      have hnot : (path, value) ∉ rest := fun hmem =>
        String.lt_irrefl path (hrest.1 (path, value) hmem)
      simp [hnot, eq_comm]
    · simp [h, ih hrest.2]

@[simp] theorem get?_erase (map : PathMap α) (path asked : String) :
    (map.erase path).get? asked = if asked = path then none else map.get? asked := by
  refine Option.ext fun value => ?_
  rw [get?_eq_some_iff_mem]
  by_cases h : asked = path
  · simp [erase, h]
  · simp [erase, h, get?_eq_some_iff_mem]

theorem mem_paths_iff (map : PathMap α) (path : String) :
    path ∈ map.paths ↔ (map.get? path).isSome := by
  simp [paths, Option.isSome_iff_exists, get?_eq_some_iff_mem]

/-- The paths of a map are in order, and none of them stands there twice. -/
theorem pairwise_paths (map : PathMap α) : map.paths.Pairwise (· < ·) :=
  List.pairwise_map.2 map.sorted

/-- **Of the entries of a list the last one for a path counts.** -/
theorem get?_ofList (entries : List (String × α)) (path : String) :
    (ofList entries).get? path = entries.reverse.lookup path := by
  have hfold : ∀ map : PathMap α,
      (entries.foldl (fun map entry => map.insert entry.1 entry.2) map).get? path =
        (entries.reverse.lookup path).or (map.get? path) := by
    induction entries with
    | nil => simp
    | cons entry entries ih =>
      intro map
      rw [List.foldl_cons, ih, List.reverse_cons, List.lookup_append, get?_insert, lookup_entry]
      by_cases h : path = entry.1
      · simp [h]
      · simp [h]
  rw [ofList, hfold, get?_empty, Option.or_none]

theorem mem_paths_ofList (entries : List (String × α)) (path : String) :
    path ∈ (ofList entries).paths ↔ ∃ value, (path, value) ∈ entries := by
  rw [mem_paths_iff, get?_ofList, List.lookup_isSome_iff]
  constructor
  · rintro ⟨⟨key, value⟩, hmem, hkey⟩
    exact ⟨value, by rw [eq_of_beq hkey]; exact List.mem_reverse.1 hmem⟩
  · rintro ⟨value, hmem⟩
    exact ⟨(path, value), List.mem_reverse.2 hmem, beq_self_eq_true path⟩

/-- **A map is determined by its answers.** -/
theorem ext_get? {map other : PathMap α} (h : ∀ path, map.get? path = other.get? path) :
    map = other := by
  have hmem : ∀ entry, entry ∈ map.entries ↔ entry ∈ other.entries := by
    intro entry
    rw [← get?_eq_some_iff_mem, ← get?_eq_some_iff_mem, h]
  have hasymm : ∀ a b : String × α, a.1 < b.1 → b.1 < a.1 → a = b :=
    fun a b hab hba => absurd hba (String.lt_asymm hab)
  have hnodup : ∀ kept : PathMap α, kept.entries.Nodup := by
    intro kept
    refine List.Pairwise.imp ?_ kept.sorted
    intro a b hlt heq
    exact String.lt_irrefl a.1 (heq ▸ hlt)
  have hperm : map.entries.Perm other.entries :=
    (List.perm_ext_iff_of_nodup (hnodup map) (hnodup other)).2 hmem
  exact PathMap.ext (hperm.eq_of_pairwise (fun a b _ _ => hasymm a b) map.sorted other.sorted)

end PathMap

end LinePatch
