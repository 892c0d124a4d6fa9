import LinePatch.Proofs.Tree.Way

/-!
# What does not lie on the way

Nothing that is done at a path depends on what stands off the way to it. Two trees that differ only
in hidden places are so not told apart by what is done at paths that do not lead through these.

## Main definitions

* `Place.IsOn`: the places on the way to a path, with its own.
* `Tree.SameOff`: trees that differ in hidden places only.
* `Tree.AgreeOff`: attempts that fail alike, or lead to such trees.

## Main results

* `Tree.SameOff.entry`: the entry for a path is found alike.
* `Tree.SameOff.makeDirectories`, `Tree.SameOff.placeFile`, `Tree.SameOff.removeFile`: so are
  directories made, and so do files come and go.
-/

namespace LinePatch

/-- A place on the way to a path, or the one at its end. -/
def Place.IsOn (home place : Place) (path : String) : Prop :=
  ∃ front back, Path.names path = front ++ back ∧ Place.follow (Place.start home path) front = place

theorem Place.isOn_ofPath (home : Place) (path : String) :
    Place.IsOn home (ofPath home path) path :=
  ⟨Path.names path, [], by simp, rfl⟩

namespace Tree

variable {hidden : Place → Prop} {tree other : Tree} {here : Place} {names : List String}
  {path : String}

/-- The trees differ in hidden places only. -/
structure SameOff (hidden : Place → Prop) (tree other : Tree) : Prop where
  home_eq : other.home = tree.home
  node?_eq : ∀ place, ¬ hidden place → other.node? place = tree.node? place

/-- Two attempts that fail alike, or lead to trees that differ in hidden places only. -/
inductive AgreeOff (hidden : Place → Prop) : Except Fault Tree → Except Fault Tree → Prop
  | error (fault : Fault) : AgreeOff hidden (.error fault) (.error fault)
  | ok {tree other : Tree} (h : SameOff hidden tree other) : AgreeOff hidden (.ok tree) (.ok other)

theorem SameOff.refl (tree : Tree) : SameOff hidden tree tree :=
  ⟨rfl, fun _ _ => rfl⟩

/-! ### Following a path -/

theorem step_congr {name : String} (hhere : other.node? here = tree.node? here)
    (hnext : other.node? (here.turn name) = tree.node? (here.turn name)) :
    other.step here name = tree.step here name := by
  unfold step
  rw [hhere]
  by_cases hstays : Path.staysHere name = true
  · simp [hstays]
  by_cases hup : name = ".."
  · simp [hup]
  · rw [Place.turn, if_neg hstays, if_neg hup] at hnext
    rw [hnext]

theorem walk_congr (h : ∀ front back, names = front ++ back →
      other.node? (here.follow front) = tree.node? (here.follow front)) :
    other.walk here names = tree.walk here names := by
  induction names generalizing here with
  | nil => rfl
  | cons name names ih =>
    have hstep : other.step here name = tree.step here name :=
      step_congr (h [] (name :: names) rfl) (h [name] names rfl)
    rw [walk, walk, hstep]
    cases hnext : tree.step here name with
    | error fault => rfl
    | ok next =>
      obtain rfl := eq_turn_of_step hnext
      exact ih fun front back hnames => h (name :: front) back (by rw [hnames]; rfl)

section

variable (h : SameOff hidden tree other)
  (hpath : ∀ place, Place.IsOn tree.home place path → ¬ hidden place)

include h hpath

/-- What stands on the way to a path is the same in both trees. -/
theorem SameOff.node?_follow {front back : List String} (hnames : Path.names path = front ++ back) :
    other.node? ((Place.start tree.home path).follow front) =
      tree.node? ((Place.start tree.home path).follow front) :=
  h.node?_eq _ (hpath _ ⟨front, back, hnames, rfl⟩)

theorem SameOff.find : other.find path = tree.find path := by
  unfold Tree.find
  rw [start_congr h.home_eq]
  cases hstart : tree.start path with
  | error fault => rfl
  | ok start =>
    obtain ⟨here, names⟩ := start
    obtain ⟨rfl, rfl⟩ := start_eq_of_ok hstart
    exact walk_congr fun front back hnames => h.node?_follow hpath hnames

/-- What a path leads to is the same in both trees. -/
theorem SameOff.nodeAt? : other.nodeAt? path = tree.nodeAt? path := by
  unfold Tree.nodeAt?
  rw [h.find hpath]
  cases hfind : tree.find path with
  | error fault => rfl
  | ok place =>
    have hplace := eq_ofPath_of_find hfind
    exact h.node?_eq place (hpath place (hplace ▸ Place.isOn_ofPath tree.home path))

theorem SameOff.isDirectory : other.isDirectory path = tree.isDirectory path := by
  rw [Tree.isDirectory, Tree.isDirectory, h.nodeAt? hpath]

/-- **The entry for a path is the same in both trees.** -/
theorem SameOff.entry : other.entry path = tree.entry path := by
  unfold Tree.entry
  rw [start_congr h.home_eq]
  cases hstart : tree.start path with
  | error fault => rfl
  | ok start =>
    obtain ⟨here, names⟩ := start
    obtain ⟨rfl, rfl⟩ := start_eq_of_ok hstart
    simp only [bind, Except.bind]
    have hsplit := List.takeWhile_append_dropWhile (p := (· == ""))
      (l := (Path.names path).reverse)
    cases hnames : (Path.names path).reverse.dropWhile (· == "") with
    | nil => rfl
    | cons name above =>
      rw [hnames, ← List.reverse_inj, List.reverse_reverse, List.reverse_append, List.reverse_cons,
        List.append_assoc] at hsplit
      have hwalk : other.walk (Place.start tree.home path) above.reverse =
          tree.walk (Place.start tree.home path) above.reverse :=
        walk_congr fun front back hfront =>
          h.node?_follow hpath (hsplit.symm.trans (by rw [hfront, List.append_assoc]))
      simp only [hwalk]
      cases hdirectory : tree.walk (Place.start tree.home path) above.reverse with
      | error fault => rfl
      | ok directory =>
        obtain rfl := eq_follow_of_walk hdirectory
        simp only [h.node?_follow hpath hsplit.symm]

/-- What stands at an entry that does not lead back is the same in both trees. -/
theorem SameOff.node?_place {entry : Entry} (hentry : tree.entry path = .ok entry)
    (hback : ¬ entry.isWayBack = true) : other.node? entry.place = tree.node? entry.place := by
  have hplace := place_of_entry hentry (Bool.not_eq_true _ ▸ hback)
  exact h.node?_eq _ (hpath _ (hplace ▸ Place.isOn_ofPath tree.home path))

/-! ### Changes at a path -/

omit hpath in
theorem SameOff.put (place : Place) (node : Node) (htop : place ≠ []) :
    SameOff hidden (tree.put place node) (other.put place node) := by
  refine ⟨h.home_eq, fun place' hplace' => ?_⟩
  rw [node?_put htop, node?_put htop, h.node?_eq place' hplace']

omit hpath in
theorem SameOff.erase (place : Place) (htop : place ≠ []) :
    SameOff hidden (tree.erase place) (other.erase place) := by
  refine ⟨h.home_eq, fun place' hplace' => ?_⟩
  rw [node?_erase htop, node?_erase htop, h.node?_eq place' hplace']

theorem SameOff.makeDirectory :
    AgreeOff hidden (tree.makeDirectory path) (other.makeDirectory path) := by
  unfold Tree.makeDirectory
  rw [h.entry hpath]
  cases hentry : tree.entry path with
  | error fault => exact .error fault
  | ok entry =>
    simp only [bind, Except.bind]
    by_cases hback : entry.isWayBack = true
    · rw [if_pos hback, if_pos hback]
      exact .error .occupied
    rw [if_neg hback, if_neg hback, h.node?_place hpath hentry hback]
    split
    · exact .error .nameTooLong
    split
    · exact .error .occupied
    · exact .ok (h.put entry.place .directory entry.place_ne_top)

theorem SameOff.placeFile (content : ByteArray) :
    AgreeOff hidden (tree.placeFile path content) (other.placeFile path content) := by
  unfold Tree.placeFile
  rw [h.entry hpath]
  cases hentry : tree.entry path with
  | error fault => exact .error (placeFault fault)
  | ok entry =>
    simp only [ok_mapError_placeFault, bind, Except.bind]
    by_cases hback : entry.isWayBack = true
    · rw [if_pos hback, if_pos hback]
      exact .error .busy
    rw [if_neg hback, if_neg hback, h.node?_place hpath hentry hback]
    split
    · exact .error .nameTooLong
    split
    · exact .error .notDirectory
    split
    · exact .error .isDirectory
    · exact .ok (h.put entry.place (.file content) entry.place_ne_top)

theorem SameOff.removeFile :
    AgreeOff hidden (tree.removeFile path) (other.removeFile path) := by
  unfold Tree.removeFile
  rw [h.entry hpath]
  cases hentry : tree.entry path with
  | error fault => exact .error fault
  | ok entry =>
    simp only [bind, Except.bind]
    by_cases hback : entry.isWayBack = true
    · rw [if_pos hback, if_pos hback]
      exact .error .isDirectory
    rw [if_neg hback, if_neg hback, h.node?_place hpath hentry hback]
    split
    · exact .error .nameTooLong
    split
    · split
      · exact .error .notDirectory
      · exact .ok (h.erase entry.place entry.place_ne_top)
    · exact .error .isDirectory
    · exact .error .missing

theorem SameOff.ensureDirectory :
    (other.ensureDirectory path).2 = (tree.ensureDirectory path).2 ∧
      SameOff hidden (tree.ensureDirectory path).1 (other.ensureDirectory path).1 := by
  unfold Tree.ensureDirectory
  have hmade := h.makeDirectory hpath
  rw [h.isDirectory hpath]
  generalize tree.makeDirectory path = made at hmade ⊢
  generalize other.makeDirectory path = made' at hmade ⊢
  cases hmade with
  | error fault => exact ⟨rfl, h⟩
  | ok hmade => exact ⟨rfl, hmade⟩

end

/-- **Directories are made alike** in both trees. -/
theorem SameOff.makeDirectories {paths : List String} (h : SameOff hidden tree other)
    (hpaths : ∀ path ∈ paths, ∀ place, Place.IsOn tree.home place path → ¬ hidden place) :
    (other.makeDirectories paths).2 = (tree.makeDirectories paths).2 ∧
      SameOff hidden (tree.makeDirectories paths).1 (other.makeDirectories paths).1 := by
  induction paths with
  | nil => exact ⟨rfl, h⟩
  | cons path outer ih =>
    obtain ⟨hpath, houter⟩ := List.forall_mem_cons.1 hpaths
    obtain ⟨hfault, hrest⟩ := ih houter
    have hmade := h.makeDirectory hpath
    have hensure := h.ensureDirectory hpath
    rw [Tree.makeDirectories, Tree.makeDirectories]
    generalize tree.makeDirectory path = made at hmade ⊢
    generalize other.makeDirectory path = made' at hmade ⊢
    cases hmade with
    | ok hmade => exact hensure
    | error fault =>
      cases fault with
      | missing =>
        have hhome := (gainsDirectories_makeDirectories tree outer).home_eq
        rcases hmine : tree.makeDirectories outer with ⟨later, fault?⟩
        rcases hother : other.makeDirectories outer with ⟨later', fault?'⟩
        rw [hmine, hother] at hfault hrest
        rw [hmine] at hhome
        obtain rfl : fault?' = fault? := hfault
        cases fault?' with
        | none => exact hrest.ensureDirectory (hhome ▸ hpath)
        | some fault => exact ⟨rfl, hrest⟩
      | _ => exact hensure

end Tree

end LinePatch
