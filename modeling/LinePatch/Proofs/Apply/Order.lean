import LinePatch.Proofs.Apply.Actions
import Mathlib.Data.List.Nodup

/-!
# The order of the actions of a patch

Every action is judged and carried out against the files as they were supplied, so whether a patch
succeeds does not depend on the order of its actions. What comes of it depends on the order only
where two actions of one kind name the same file: of these the last one counts. Updates, additions
and deletions can change places with one another as they like, and so can actions of one kind on
different files.

## Main definitions

* `Action.lastUpdate?`, `Action.lastContent?`: the action of a kind that counts for a file.
* `Action.SameLast`: lists of actions of which the same ones count.

## Main results

* `Action.sameLast_of_perm`: without repeated paths the order does not tell which action counts.
* `Changes.Records.eq_of_sameLast`: the changes are determined by the actions that count.
* `applyActions_perm`: the actions of a patch in another order.
-/

namespace LinePatch

/-! ### Paths that are named once -/

section Once

variable {α β : Type} {pick : α → Option β} {key? : α → Option String} {path : String}

/-- What is picked for a path is as much as there are members with this path. -/
theorem length_filterMap_eq_count (h : ∀ member, (pick member).isSome ↔ key? member = some path)
    (list : List α) : (list.filterMap pick).length = (list.filterMap key?).count path := by
  induction list with
  | nil => rfl
  | cons member list ih =>
    have hmember := h member
    rw [List.filterMap_cons, List.filterMap_cons]
    cases hpick : pick member with
    | none =>
      have hother : key? member ≠ some path := by simpa [hpick] using hmember
      cases hkey : key? member with
      | none => exact ih
      | some key =>
        have hne : key ≠ path := fun heq => hother (hkey.trans (congrArg some heq))
        rw [List.count_cons_of_ne hne]
        exact ih
    | some value =>
      have hkey : key? member = some path := by simpa [hpick] using hmember
      simp [hkey, ih]

/-- Where only one member with a path can be picked, the order does not matter. -/
theorem getLast?_filterMap_eq_of_perm {list other : List α} (hperm : list.Perm other)
    (h : ∀ member, (pick member).isSome ↔ key? member = some path)
    (honce : (list.filterMap key?).Nodup) :
    (list.filterMap pick).getLast? = (other.filterMap pick).getLast? := by
  have hpicked : (list.filterMap pick).Perm (other.filterMap pick) := hperm.filterMap pick
  have hlength : (list.filterMap pick).length ≤ 1 := by
    rw [length_filterMap_eq_count h]
    exact List.nodup_iff_count_le_one.1 honce path
  rcases hlist : list.filterMap pick with _ | ⟨value, _ | ⟨next, rest⟩⟩
  · rw [hlist, List.nil_perm] at hpicked
    rw [hpicked]
  · rw [hlist, List.singleton_perm] at hpicked
    rw [← hpicked]
  · simp [hlist] at hlength

end Once

/-! ### The actions that count -/

namespace Action

/-- The hunks of the last update of a file. -/
def lastUpdate? (actions : List Action) (path : String) : Option (List Hunk) :=
  (actions.filterMap (updateOf? path)).getLast?

/-- The content of the last addition of a file. -/
def lastContent? (actions : List Action) (path : String) : Option String :=
  (actions.filterMap (contentOf? path)).getLast?

/-- The path of an update. -/
def updatedPath? : Action → Option String
  | update path _ => some path
  | _ => none

/-- The path of an addition. -/
def addedPath? : Action → Option String
  | add path _ => some path
  | _ => none

/-- Of two lists of actions the same updates and additions count. -/
structure SameLast (actions other : List Action) : Prop where
  update : ∀ path, lastUpdate? actions path = lastUpdate? other path
  content : ∀ path, lastContent? actions path = lastContent? other path

theorem SameLast.symm {actions other : List Action} (h : SameLast actions other) :
    SameLast other actions :=
  ⟨fun path => (h.update path).symm, fun path => (h.content path).symm⟩

/-- **Where no path is updated twice and none is added twice, the same actions count in every
order.** -/
theorem sameLast_of_perm {actions other : List Action} (hperm : actions.Perm other)
    (hupdated : (actions.filterMap updatedPath?).Nodup)
    (hadded : (actions.filterMap addedPath?).Nodup) : SameLast actions other where
  update path := by
    have hkey (action : Action) :
        (updateOf? path action).isSome ↔ updatedPath? action = some path := by
      cases action <;> simp [updateOf?, updatedPath?, @eq_comm _ path]
    exact getLast?_filterMap_eq_of_perm hperm hkey hupdated
  content path := by
    have hkey (action : Action) :
        (contentOf? path action).isSome ↔ addedPath? action = some path := by
      cases action <;> simp [contentOf?, addedPath?, @eq_comm _ path]
    exact getLast?_filterMap_eq_of_perm hperm hkey hadded

end Action

/-! ### Patches -/

variable {mode : Mode} {files : Files} {actions other : List Action} {changes : Changes}

/-- **The changes are determined by the actions that count**, and by what is deleted. -/
theorem Changes.Records.eq_of_sameLast {changes' : Changes} (h : changes.Records files actions)
    (h' : changes'.Records files other) (hmem : ∀ action, action ∈ actions ↔ action ∈ other)
    (hlast : Action.SameLast actions other) : changes = changes' := by
  have hupdated : changes.updated = changes'.updated := by
    refine PathMap.ext_get? fun path => ?_
    rw [h.updated, h'.updated, ← List.getLast?_filterMap, ← List.getLast?_filterMap]
    exact congrArg (Option.bind · _) (hlast.update path)
  have hadded : changes.added = changes'.added := by
    refine PathMap.ext_get? fun path => ?_
    rw [h.added, h'.added, ← List.getLast?_filterMap, ← List.getLast?_filterMap]
    exact hlast.content path
  have hdeleted : changes.deleted = changes'.deleted := by
    refine PathMap.ext_get? fun path => ?_
    have hmember := (h.mem_deleted path).trans ((hmem _).trans (h'.mem_deleted path).symm)
    rw [PathMap.mem_paths_iff, PathMap.mem_paths_iff] at hmember
    cases hold : changes.deleted.get? path <;> cases hnew : changes'.deleted.get? path <;>
      simp_all
  cases changes
  cases changes'
  simp_all

/-- A patch succeeds exactly if all its actions are applicable. -/
theorem exists_result_applyActions_iff :
    (∃ changes, (applyActions mode files actions).result = .ok changes) ↔
      ∀ action ∈ actions, action.IsApplicable mode files := by
  simp only [result_applyActions, ← Action.fault?_eq_none_iff, ← List.findSome?_eq_none_iff]
  cases actions.findSome? (Action.fault? mode files) <;> simp

theorem exists_result_applyActions_perm (hperm : actions.Perm other) :
    (∃ changes, (applyActions mode files actions).result = .ok changes) ↔
      ∃ changes, (applyActions mode files other).result = .ok changes := by
  simp only [exists_result_applyActions_iff, hperm.mem_iff]

/-- The changes of a patch are those of its actions in another order, if the same ones count. -/
theorem result_applyActions_of_perm (hperm : actions.Perm other)
    (hlast : Action.SameLast actions other)
    (h : (applyActions mode files actions).result = .ok changes) :
    (applyActions mode files other).result = .ok changes := by
  obtain ⟨changes', h'⟩ := (exists_result_applyActions_perm hperm).1 ⟨changes, h⟩
  have hrecords := Changes.records_of_result h
  rw [hrecords.eq_of_sameLast (Changes.records_of_result h') (fun _ => hperm.mem_iff) hlast]
  exact h'

/-- **The order of independent actions does not matter.** A patch succeeds in every order of its
actions or in none. Orders in which the same updates and the same additions count, each for its
file, make the same changes, and where no path is updated twice and none is added twice the same
ones count in every order. -/
theorem applyActions_perm (mode : Mode) (files : Files) (hperm : actions.Perm other) :
    ((∃ changes, (applyActions mode files actions).result = .ok changes) ↔
      ∃ changes, (applyActions mode files other).result = .ok changes) ∧
    (Action.SameLast actions other → ∀ changes,
      (applyActions mode files actions).result = .ok changes ↔
        (applyActions mode files other).result = .ok changes) ∧
    ((actions.filterMap Action.updatedPath?).Nodup → (actions.filterMap Action.addedPath?).Nodup →
      Action.SameLast actions other) := by
  refine ⟨exists_result_applyActions_perm hperm, fun hlast changes => ⟨fun h => ?_, fun h => ?_⟩,
    Action.sameLast_of_perm hperm⟩
  · exact result_applyActions_of_perm hperm hlast h
  · exact result_applyActions_of_perm hperm.symm hlast.symm h

/-- A file is updated twice, deleted and another one is added. The updates keep their order, and the
other actions change places with them. -/
theorem applyActions_perm_second_update :
    let files : Files := fun path => if path = "f" then some "base" else none
    let first : Action := .update "f" [⟨none, [.add "first"]⟩]
    let second : Action := .update "f" [⟨none, [.remove "base", .add "second"]⟩]
    let changes : Changes :=
      { updated := PathMap.empty.insert "f" "second"
        added := PathMap.empty.insert "g" "new"
        deleted := PathMap.empty.insert "f" () }
    [first, .add "g" "new", second, .delete "f"].Perm
        [.delete "f", first, second, .add "g" "new"] ∧
      Action.SameLast [first, .add "g" "new", second, .delete "f"]
        [.delete "f", first, second, .add "g" "new"] ∧
      (applyActions .strict files [.delete "f", first, second, .add "g" "new"]).result =
        .ok changes := by
  intro files first second changes
  have hperm : [first, .add "g" "new", second, .delete "f"].Perm
      [.delete "f", first, second, .add "g" "new"] := by
    decide
  have hlast : Action.SameLast [first, .add "g" "new", second, .delete "f"]
      [.delete "f", first, second, .add "g" "new"] := by
    constructor <;> intro path <;> rfl
  have hresult : (applyActions .strict files
      [first, .add "g" "new", second, .delete "f"]).result = .ok changes := by
    rw [Run.result_eq_ok_iff]
    decide +kernel
  exact ⟨hperm, hlast, ((applyActions_perm .strict files hperm).2.1 hlast changes).1 hresult⟩

end LinePatch
