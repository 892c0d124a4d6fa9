import LinePatch.Proofs.Tree.Files

/-!
# The places of files

Where a file comes to stand when it is put at a path is settled by the directories of the tree
alone: every name on the way leads to a directory, and the last one is entered in it. So it stays
settled while files come and go. When directories come, a way that there was remains, but a place
may be taken by a directory.

## Main definitions

* `Tree.slot?`: the place at which a file comes to stand.

## Main results

* `Tree.placeFile_of_slot?`, `Tree.placeFile_of_slot?_eq_none`, `Tree.removeFile_eq_ok_iff`: files
  come and go at their places.
* `Tree.slot?_congr`, `Tree.KeepsDirectories.slot?`: the place depends on directories.
* `Tree.slot?_of_find`: a file that is found at a path stands at its place.
* `Tree.gainsDirectories_makeDirectories`: making directories changes nothing else.
-/

namespace LinePatch.Tree

variable {tree before after later : Tree} {here place : Place} {path name : String}
  {names : List String}

/-- The place at which a file comes to stand when it is put at a path. There is none if the path
leads nowhere or back, if it asks for a directory, or if a directory stands there. -/
def slot? (tree : Tree) (path : String) : Option Place :=
  match tree.entry path with
  | .error _ => none
  | .ok entry =>
    if entry.isWayBack ∨ maxName < entry.name.utf8ByteSize ∨ entry.asDirectory ∨
        tree.node? entry.place = some .directory then none
    else some entry.place

theorem slot?_eq_some_iff :
    tree.slot? path = some place ↔
      ∃ entry, tree.entry path = .ok entry ∧ entry.isWayBack = false ∧
        entry.name.utf8ByteSize ≤ maxName ∧ entry.asDirectory = false ∧
        tree.node? entry.place ≠ some .directory ∧ entry.place = place := by
  unfold slot?
  rcases tree.entry path with fault | entry
  · simp
  · simp [and_assoc]

theorem node?_ne_directory_of_slot? (h : tree.slot? path = some place) :
    tree.node? place ≠ some .directory := by
  obtain ⟨entry, -, -, -, -, hdirectory, rfl⟩ := slot?_eq_some_iff.1 h
  exact hdirectory

theorem ne_top_of_slot? (h : tree.slot? path = some place) : place ≠ [] := by
  rintro rfl
  exact node?_ne_directory_of_slot? h (node?_top tree)

/-- At the place for a path stands a file, or nothing. -/
theorem node?_of_slot? (h : tree.slot? path = some place) :
    tree.node? place = (tree.fileAt? place).map Node.file := by
  have hfree := node?_ne_directory_of_slot? h
  unfold fileAt?
  rcases hnode : tree.node? place with _ | _ | content
  · rfl
  · exact absurd hnode hfree
  · rfl

/-! ### Files that come to their places and go from there -/

@[simp] theorem ok_mapError_placeFault (entry : Entry) :
    (Except.ok entry : Except Fault Entry).mapError placeFault = .ok entry := rfl

theorem placeFile_of_slot? (h : tree.slot? path = some place) (content : ByteArray) :
    tree.placeFile path content = .ok (tree.put place (.file content)) := by
  obtain ⟨entry, hentry, hback, hname, hasked, hdirectory, rfl⟩ := slot?_eq_some_iff.1 h
  have hname : ¬ maxName < entry.name.utf8ByteSize := Nat.not_lt.2 hname
  simp [placeFile, hentry, bind, Except.bind, hback, hname, hasked]

theorem placeFile_of_slot?_eq_none (h : tree.slot? path = none) (content : ByteArray) :
    ∃ fault, tree.placeFile path content = .error fault := by
  unfold slot? at h
  unfold placeFile
  cases hentry : tree.entry path with
  | error fault => exact ⟨placeFault fault, rfl⟩
  | ok entry =>
    simp only [hentry] at h
    simp only [ok_mapError_placeFault, bind, Except.bind]
    by_cases hback : entry.isWayBack = true
    · exact ⟨_, if_pos hback⟩
    by_cases hname : maxName < entry.name.utf8ByteSize
    · exact ⟨_, by rw [if_neg hback, if_pos hname]⟩
    by_cases hasked : entry.asDirectory = true
    · exact ⟨_, by rw [if_neg hback, if_neg hname, if_pos hasked]⟩
    have hdirectory : tree.node? entry.place = some .directory := by
      simpa [hback, hname, hasked] using h
    exact ⟨_, by rw [if_neg hback, if_neg hname, if_neg hasked, hdirectory]⟩

/-- A file is removed from its place. Where none stands, removing it fails. -/
theorem removeFile_eq_ok_iff :
    tree.removeFile path = .ok later ↔
      ∃ place, tree.slot? path = some place ∧ (tree.fileAt? place).isSome ∧
        later = tree.erase place := by
  unfold slot? removeFile fileAt?
  rcases tree.entry path with fault | entry
  · simp [bind, Except.bind]
  · simp only [bind, Except.bind]
    by_cases hback : entry.isWayBack = true
    · simp [hback]
    by_cases hname : maxName < entry.name.utf8ByteSize
    · simp [hback, hname]
    by_cases hasked : entry.asDirectory = true
    · rcases hnode : tree.node? entry.place with _ | _ | content <;> simp [hback, hname, hasked]
    · rcases hnode : tree.node? entry.place with _ | _ | content <;>
        simp [hback, hname, hasked, hnode, @eq_comm _ later]

/-! ### The way to a place -/

theorem step_eq_ok_iff :
    tree.step here name = .ok place ↔
      tree.node? here = some .directory ∧
        if Path.staysHere name then here = place
        else if name = ".." then here.dropLast = place
        else name.utf8ByteSize ≤ maxName ∧ (tree.node? (here ++ [name])).isSome ∧
          here ++ [name] = place := by
  unfold step
  rcases tree.node? here with _ | _ | content
  · simp
  · by_cases hstays : Path.staysHere name = true
    · simp [hstays]
    by_cases hup : name = ".."
    · subst hup
      simp [hstays]
    by_cases hname : maxName < name.utf8ByteSize
    · simp [hstays, hup, hname, Nat.not_le.2 hname]
    · by_cases hnode : (tree.node? (here ++ [name])).isSome = true
      · simp [hstays, hup, hname, hnode, Nat.not_lt.1 hname]
      · simp [hstays, hup, hname, hnode]
  · simp

theorem walk_cons_eq_ok_iff :
    tree.walk here (name :: names) = .ok place ↔
      ∃ next, tree.step here name = .ok next ∧ tree.walk next names = .ok place := by
  rw [walk]
  rcases tree.step here name with fault | next
  · simp [bind, Except.bind]
  · simp [bind, Except.bind]

theorem walk_append_eq_ok_iff {more : List String} :
    tree.walk here (names ++ more) = .ok place ↔
      ∃ next, tree.walk here names = .ok next ∧ tree.walk next more = .ok place := by
  induction names generalizing here with
  | nil => simp [walk]
  | cons name names ih =>
    simp only [List.cons_append, walk_cons_eq_ok_iff, ih]
    constructor
    · rintro ⟨first, hfirst, next, hnext, hmore⟩
      exact ⟨next, ⟨first, hfirst, hnext⟩, hmore⟩
    · rintro ⟨next, ⟨first, hfirst, hnext⟩, hmore⟩
      exact ⟨first, hfirst, next, hnext, hmore⟩

/-- A way that leads to a directory starts from one. -/
theorem node?_of_walk (h : tree.walk here names = .ok place)
    (hplace : tree.node? place = some .directory) : tree.node? here = some .directory := by
  cases names with
  | nil =>
    obtain rfl : here = place := by simpa [walk] using h
    exact hplace
  | cons name names =>
    obtain ⟨next, hstep, -⟩ := walk_cons_eq_ok_iff.1 h
    exact (step_eq_ok_iff.1 hstep).1

/-- A way that leads to a directory remains as long as the directories do. -/
theorem KeepsDirectories.walk (h : KeepsDirectories before after)
    (hwalk : before.walk here names = .ok place)
    (hplace : before.node? place = some .directory) : after.walk here names = .ok place := by
  induction names generalizing here with
  | nil => exact hwalk
  | cons name names ih =>
    obtain ⟨next, hstep, hlater⟩ := walk_cons_eq_ok_iff.1 hwalk
    refine walk_cons_eq_ok_iff.2 ⟨next, ?_, ih hlater⟩
    have hnext := h.directory next (node?_of_walk hlater hplace)
    obtain ⟨hhere, hname⟩ := step_eq_ok_iff.1 hstep
    refine step_eq_ok_iff.2 ⟨h.directory here hhere, ?_⟩
    by_cases hstays : Path.staysHere name = true
    · rwa [if_pos hstays] at hname ⊢
    by_cases hup : name = ".."
    · rwa [if_neg hstays, if_pos hup] at hname ⊢
    rw [if_neg hstays, if_neg hup] at hname ⊢
    obtain ⟨hsize, -, rfl⟩ := hname
    exact ⟨hsize, by rw [hnext]; rfl, rfl⟩

theorem start_congr (h : after.home = before.home) (path : String) :
    after.start path = before.start path := by
  unfold start
  rw [h]

/-- The entry that a directory has for the last names of a path, of which the last one stands in
front. -/
def IsEntry (tree : Tree) (here : Place) (length : Nat) (entry : Entry) : List String → Prop
  | [] => ⟨here, ".", true⟩ = entry
  | name :: above =>
    ∃ directory, tree.walk here above.reverse = .ok directory ∧
      tree.node? directory = some .directory ∧
      ⟨directory, name, above.length + 1 < length⟩ = entry

theorem entry_eq_ok_iff {entry : Entry} :
    tree.entry path = .ok entry ↔
      ∃ here names, tree.start path = .ok (here, names) ∧
        tree.IsEntry here names.length entry (names.reverse.dropWhile (· == "")) := by
  unfold Tree.entry
  rcases tree.start path with fault | ⟨here, names⟩
  · simp [bind, Except.bind]
  · simp only [bind, Except.bind, Except.ok.injEq, Prod.mk.injEq, exists_and_left, exists_eq_left',
      and_assoc]
    rcases names.reverse.dropWhile (· == "") with _ | ⟨name, above⟩
    · simp [IsEntry]
    · cases hwalk : tree.walk here above.reverse with
      | error fault => simp [IsEntry, hwalk]
      | ok directory =>
        rcases hnode : tree.node? directory with _ | _ | content <;>
          simp [IsEntry, hwalk, hnode]

/-- The entry for a path remains as long as the directories do. -/
theorem KeepsDirectories.entry (h : KeepsDirectories before after) {entry : Entry}
    (hentry : before.entry path = .ok entry) : after.entry path = .ok entry := by
  obtain ⟨here, names, hstart, hfound⟩ := entry_eq_ok_iff.1 hentry
  refine entry_eq_ok_iff.2 ⟨here, names, (start_congr h.home_eq path).trans hstart, ?_⟩
  revert hfound
  cases names.reverse.dropWhile (· == "") with
  | nil => exact id
  | cons name above =>
    rintro ⟨directory, hwalk, hdirectory, hentry⟩
    exact ⟨directory, h.walk hwalk hdirectory, h.directory directory hdirectory, hentry⟩

/-! ### Places that stay as they are -/

/-- The place for a path remains as long as the directories do, unless a directory comes there. -/
theorem KeepsDirectories.slot? (h : KeepsDirectories before after)
    (hslot : before.slot? path = some place) (hfree : after.node? place ≠ some .directory) :
    after.slot? path = some place := by
  obtain ⟨entry, hentry, hback, hname, hasked, -, rfl⟩ := slot?_eq_some_iff.1 hslot
  exact slot?_eq_some_iff.2 ⟨entry, h.entry hentry, hback, hname, hasked, hfree, rfl⟩

/-- Trees with the same directories have the same places for files. -/
theorem slot?_congr (h : KeepsDirectories before after) (h' : KeepsDirectories after before)
    (path : String) : after.slot? path = before.slot? path := by
  ext place
  constructor
  · intro hslot
    exact h'.slot? hslot fun hdirectory =>
      node?_ne_directory_of_slot? hslot (h.directory place hdirectory)
  · intro hslot
    exact h.slot? hslot fun hdirectory =>
      node?_ne_directory_of_slot? hslot (h'.directory place hdirectory)

theorem start_eq_ok_iff :
    tree.start path = .ok (here, names) ↔
      '\x00' ∉ path.toList ∧ path ≠ "" ∧ path.utf8ByteSize ≤ maxPath ∧
        (if Path.isAbsolute path then [] else tree.home) = here ∧ Path.names path = names := by
  unfold start
  by_cases hzero : '\x00' ∈ path.toList
  · simp [hzero]
  by_cases hempty : path = ""
  · simp [hempty]
  by_cases hlong : maxPath < path.utf8ByteSize
  · simp [hzero, hempty, hlong, Nat.not_le.2 hlong]
  · simp [hzero, hempty, hlong, Nat.not_lt.1 hlong]

/-- A file that is found stands at the place for the path. The last name must not be the one that
goes up, by which a file is found only where the way up is obstructed. -/
theorem slot?_of_find (hfind : tree.find path = .ok place)
    (hfile : (tree.fileAt? place).isSome) (hlast : (Path.names path).getLast? ≠ some "..") :
    tree.slot? path = some place := by
  have hfree : tree.node? place ≠ some .directory := by
    intro hdirectory
    simp [fileAt?, hdirectory] at hfile
  obtain ⟨here, names, hstart, hwalk⟩ :
      ∃ here names, tree.start path = .ok (here, names) ∧ tree.walk here names = .ok place := by
    unfold find at hfind
    cases hstart : tree.start path with
    | error fault => simp [hstart, bind, Except.bind] at hfind
    | ok start => exact ⟨start.1, start.2, rfl, by simpa [hstart, bind, Except.bind] using hfind⟩
  have hnames : names = Path.names path := (start_eq_ok_iff.1 hstart).2.2.2.2.symm
  rcases List.eq_nil_or_concat names with hnil | ⟨above, name, rfl⟩
  · rw [hnil] at hnames
    exact absurd hnames.symm (by simp [Path.names, List.splitOn_ne_nil])
  rw [List.concat_eq_append] at *
  obtain ⟨directory, habove, hlater⟩ := walk_append_eq_ok_iff.1 hwalk
  obtain ⟨next, hstep, hend⟩ := walk_cons_eq_ok_iff.1 hlater
  obtain rfl : next = place := by simpa [walk] using hend
  obtain ⟨hdirectory, hname⟩ := step_eq_ok_iff.1 hstep
  have hstays : ¬ Path.staysHere name = true := by
    intro hstays
    rw [if_pos hstays] at hname
    exact hfree (hname ▸ hdirectory)
  have hup : name ≠ ".." := by
    rintro rfl
    rw [← hnames, List.getLast?_concat] at hlast
    exact hlast rfl
  rw [if_neg hstays, if_neg hup] at hname
  obtain ⟨hsize, -, rfl⟩ := hname
  simp only [Path.staysHere, Bool.or_eq_true, beq_iff_eq, not_or] at hstays
  refine slot?_eq_some_iff.2 ⟨⟨directory, name, false⟩, entry_eq_ok_iff.2 ?_, ?_, hsize, rfl,
    hfree, rfl⟩
  · refine ⟨here, above ++ [name], hstart, ?_⟩
    rw [List.reverse_append, List.reverse_singleton, List.singleton_append,
      List.dropWhile_cons_of_neg (by simpa using hstays.1)]
    refine ⟨directory, by rwa [List.reverse_reverse], hdirectory, ?_⟩
    simp
  · simp [Entry.isWayBack, hstays.2, hup]

/-! ### Directories that are made -/

/-- A directory is made for an entry where there is nothing. -/
theorem makeDirectory_eq_ok_iff :
    tree.makeDirectory path = .ok later ↔
      ∃ entry, tree.entry path = .ok entry ∧ entry.isWayBack = false ∧
        entry.name.utf8ByteSize ≤ maxName ∧ tree.node? entry.place = none ∧
        tree.put entry.place .directory = later := by
  unfold makeDirectory
  rcases tree.entry path with fault | entry
  · simp [bind, Except.bind]
  · by_cases hback : entry.isWayBack = true
    · simp [bind, Except.bind, hback]
    by_cases hname : maxName < entry.name.utf8ByteSize
    · simp [bind, Except.bind, hback, hname, Nat.not_le.2 hname]
    · cases hnode : tree.node? entry.place with
      | some node => simp [bind, Except.bind, hback, hname, hnode]
      | none => simp [bind, Except.bind, hback, hname, hnode, Nat.not_lt.1 hname]

theorem gainsDirectories_makeDirectory (h : tree.makeDirectory path = .ok later) :
    GainsDirectories tree later := by
  obtain ⟨entry, -, -, -, hfree, rfl⟩ := makeDirectory_eq_ok_iff.1 h
  exact gainsDirectories_put hfree

theorem gainsDirectories_ensureDirectory (tree : Tree) (path : String) :
    GainsDirectories tree (tree.ensureDirectory path).1 := by
  unfold ensureDirectory
  split
  · rename_i later hlater
    exact gainsDirectories_makeDirectory hlater
  · exact .refl tree

theorem gainsDirectories_makeDirectories (tree : Tree) (paths : List String) :
    GainsDirectories tree (tree.makeDirectories paths).1 := by
  induction paths generalizing tree with
  | nil => exact .refl tree
  | cons path outer ih =>
    rw [makeDirectories]
    split
    · have houter := ih tree
      split
      · rename_i later hlater
        rw [hlater] at houter
        exact houter.trans (gainsDirectories_ensureDirectory later path)
      · rename_i later fault hlater
        rw [hlater] at houter
        exact houter
    · exact gainsDirectories_ensureDirectory tree path

end LinePatch.Tree
