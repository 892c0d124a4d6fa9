import LinePatch.Proofs.Path
import LinePatch.Proofs.Tree.Slot

/-!
# Where paths lead

The tree decides whether a path can be followed, but not where it leads: as nothing in a tree points
elsewhere, that is told by the names of the path alone. A file that is put at a path, found there
or removed from there is so always at the one place that the path names, whatever the tree has
become meanwhile. A path that does not lead out of a directory names a place below it.

## Main definitions

* `Place.follow`, `Place.ofPath`: the place that names, or a path, lead to.
* `Place.IsAbove`, `Place.IsBelow`: the directories on the way to a path, and the places below one.

## Main results

* `Tree.eq_ofPath_of_slot?`, `Tree.nodeAt?_of_slot?`: a file comes to stand at the place that its
  path names, and is found there.
* `Place.ofPath_join_of_isConfined`, `Tree.isBelow_of_slot?_join`: paths inside a directory.
* `Place.isAbove_of_mem_ancestors`, `Tree.node?_makeDirectories`: the directories that are made.
-/

namespace LinePatch

namespace Place

variable {here place : Place} {names : List String}

/-- Where a name leads from a place. -/
def turn (here : Place) (name : String) : Place :=
  if Path.staysHere name then here else if name = ".." then here.dropLast else here ++ [name]

/-- Where names lead from a place, one after the other. -/
def follow (here : Place) (names : List String) : Place :=
  names.foldl turn here

/-- Where a path starts. -/
def start (home : Place) (path : String) : Place :=
  if Path.isAbsolute path then [] else home

/-- The place that a path names. -/
def ofPath (home : Place) (path : String) : Place :=
  follow (start home path) (Path.names path)

/-- A place on the way to a path: the names of the path lead there, and some name after them leads
on. -/
def IsAbove (home place : Place) (path : String) : Prop :=
  ∃ front back, Path.names path = front ++ back ∧
    (∃ name ∈ back, Path.staysHere name = false) ∧ follow (start home path) front = place

/-- A place that is reached from another one by going down. -/
def IsBelow (place above : Place) : Prop :=
  ∃ names, names ≠ [] ∧ place = above ++ names

@[simp] theorem follow_nil (here : Place) : follow here [] = here := rfl

@[simp] theorem follow_cons (here : Place) (name : String) (names : List String) :
    follow here (name :: names) = follow (turn here name) names := rfl

theorem follow_append (here : Place) (front back : List String) :
    follow here (front ++ back) = follow (follow here front) back :=
  List.foldl_append

/-- Where names lead, no other names are than those of the start and these. -/
theorem mem_of_mem_follow {name : String} (h : name ∈ follow here names) :
    name ∈ here ∨ name ∈ names := by
  induction names generalizing here with
  | nil => exact .inl h
  | cons first names ih =>
    rcases ih h with hturn | hlater
    · unfold turn at hturn
      split at hturn
      · exact .inl hturn
      split at hturn
      · exact .inl (List.dropLast_subset here hturn)
      · rcases List.mem_append.1 hturn with hhere | hname
        · exact .inl hhere
        · exact .inr (List.mem_singleton.1 hname ▸ List.mem_cons_self)
    · exact .inr (List.mem_cons_of_mem first hlater)

theorem turn_of_staysHere {name : String} (h : Path.staysHere name = true) :
    turn here name = here :=
  if_pos h

/-- Names that all stay lead nowhere. -/
theorem follow_of_staysHere (h : ∀ name ∈ names, Path.staysHere name = true) :
    follow here names = here := by
  induction names with
  | nil => rfl
  | cons name names ih =>
    rw [follow_cons, turn_of_staysHere (h name List.mem_cons_self),
      ih fun later hlater => h later (List.mem_cons_of_mem name hlater)]

/-- **Names that never go up lead down**, by those of them that do not stay. -/
theorem follow_of_not_mem (h : ".." ∉ names) :
    follow here names = here ++ names.filter (!Path.staysHere ·) := by
  induction names generalizing here with
  | nil => simp
  | cons name names ih =>
    obtain ⟨hname, hnames⟩ := List.ne_and_not_mem_of_not_mem_cons h
    rw [follow_cons, ih hnames]
    by_cases hstays : Path.staysHere name = true
    · simp [turn, hstays]
    · simp [turn, hstays, hname.symm]

/-! ### Paths inside a directory -/

theorem start_join (home : Place) (directory : String) {path : String}
    (h : Path.isAbsolute path = false) :
    start home (Path.join directory path) = start home directory := by
  rw [start, Path.isAbsolute_join directory h, start]

/-- The names of a path inside a directory are some that lead to the directory, and those of the
path. -/
theorem exists_names_join (home : Place) (directory : String) {path : String}
    (h : Path.isAbsolute path = false) :
    ∃ front, Path.names (Path.join directory path) = front ++ Path.names path ∧
      follow (start home (Path.join directory path)) front = ofPath home directory := by
  obtain ⟨front, hnames, hfront⟩ := Path.names_join directory path
  refine ⟨front, hnames, ?_⟩
  rw [ofPath, start_join home directory h]
  rcases hfront with hfront | hfront
  · rw [hfront]
  · rw [hfront, follow_append]
    rfl

/-- **A path inside a directory is followed from where the directory is.** -/
theorem ofPath_join (home : Place) (directory : String) {path : String}
    (h : Path.isAbsolute path = false) :
    ofPath home (Path.join directory path) =
      follow (ofPath home directory) (Path.names path) := by
  obtain ⟨front, hnames, hfront⟩ := exists_names_join home directory h
  rw [ofPath, hnames, follow_append, hfront]

/-- A path that does not lead out of a directory leads down from it. -/
theorem ofPath_join_of_isConfined (home : Place) (directory : String) {path : String}
    (h : Path.isConfined path = true) :
    ofPath home (Path.join directory path) =
      ofPath home directory ++ (Path.names path).filter (!Path.staysHere ·) := by
  obtain ⟨-, habsolute, hup⟩ := Path.isConfined_iff.1 h
  rw [ofPath_join home directory habsolute, follow_of_not_mem hup]

/-- The directories on the way down to a path are above it. -/
theorem isAbove_of_mem_ancestors (home : Place) {above path : String}
    (h : above ∈ Path.ancestors path) : IsAbove home (ofPath home above) path := by
  obtain ⟨hstart, front, back, hnames, hback, habove⟩ := Path.names_of_mem_ancestors h
  refine ⟨front, back, hnames, hback, ?_⟩
  have hfrom : start home above = start home path := by
    rw [start, hstart, start]
  rw [ofPath, hfrom]
  rcases habove with habove | habove
  · rw [habove]
  · rw [habove, follow_append]
    rfl

end Place

/-! ### Following the tree -/

namespace Tree

variable {tree later : Tree} {here place : Place} {path : String} {names : List String}

theorem eq_turn_of_step {name : String} (h : tree.step here name = .ok place) :
    place = Place.turn here name := by
  obtain ⟨-, hname⟩ := step_eq_ok_iff.1 h
  unfold Place.turn
  split
  · rename_i hstays
    rw [if_pos hstays] at hname
    exact hname.symm
  · rename_i hstays
    rw [if_neg hstays] at hname
    split
    · rename_i hup
      rw [if_pos hup] at hname
      exact hname.symm
    · rename_i hup
      rw [if_neg hup] at hname
      exact hname.2.2.symm

theorem eq_follow_of_walk (h : tree.walk here names = .ok place) :
    place = Place.follow here names := by
  induction names generalizing here with
  | nil => simpa [walk] using h.symm
  | cons name names ih =>
    obtain ⟨next, hstep, hlater⟩ := walk_cons_eq_ok_iff.1 h
    rw [ih hlater, eq_turn_of_step hstep, Place.follow_cons]

theorem find_eq_ok_iff :
    tree.find path = .ok place ↔
      ∃ here names, tree.start path = .ok (here, names) ∧ tree.walk here names = .ok place := by
  unfold find
  rcases tree.start path with fault | ⟨here, names⟩
  · simp [bind, Except.bind]
  · simp only [bind, Except.bind, Except.ok.injEq, Prod.mk.injEq, and_assoc, exists_and_left,
      exists_eq_left']

theorem start_eq_of_ok (h : tree.start path = .ok (here, names)) :
    here = Place.start tree.home path ∧ names = Path.names path := by
  obtain ⟨-, -, -, hhere, hnames⟩ := start_eq_ok_iff.1 h
  exact ⟨hhere.symm, hnames.symm⟩

/-- A path that is found leads to the place that it names. -/
theorem eq_ofPath_of_find (h : tree.find path = .ok place) :
    place = Place.ofPath tree.home path := by
  obtain ⟨here, names, hstart, hwalk⟩ := find_eq_ok_iff.1 h
  obtain ⟨rfl, rfl⟩ := start_eq_of_ok hstart
  exact eq_follow_of_walk hwalk

/-- The names of a path with the name of its entry among them: those before it lead to the
directory, and those after it are empty and ask for a directory. -/
theorem exists_names_of_entry {entry : Entry} (h : tree.entry path = .ok entry)
    (hback : entry.isWayBack = false) :
    ∃ above trailing, Path.names path = above ++ entry.name :: trailing ∧
      (∀ name ∈ trailing, name = "") ∧ (entry.asDirectory = false → trailing = []) ∧
      Path.staysHere entry.name = false ∧ entry.name ≠ ".." ∧
      tree.start path = .ok (Place.start tree.home path, Path.names path) ∧
      tree.walk (Place.start tree.home path) above = .ok entry.directory ∧
      tree.node? entry.directory = some .directory := by
  obtain ⟨here, names, hstart, hentry⟩ := entry_eq_ok_iff.1 h
  obtain ⟨rfl, rfl⟩ := start_eq_of_ok hstart
  obtain ⟨tail, htail⟩ : ∃ tail, tail = (Path.names path).reverse.takeWhile (· == "") := ⟨_, rfl⟩
  have hempty : ∀ name ∈ tail, name = "" := by
    intro name hname
    exact beq_iff_eq.1 (List.all_eq_true.1 List.all_takeWhile name (htail ▸ hname))
  have hsplit := List.takeWhile_append_dropWhile (p := (· == "")) (l := (Path.names path).reverse)
  rw [← htail] at hsplit
  have hfirst := List.head?_dropWhile_not (· == "") (Path.names path).reverse
  cases hnames : (Path.names path).reverse.dropWhile (· == "") with
  | nil =>
    rw [hnames] at hentry
    obtain rfl : _ = entry := hentry
    simp [Entry.isWayBack] at hback
  | cons name above =>
    rw [hnames] at hentry hsplit hfirst
    obtain ⟨directory, hwalk, hdirectory, rfl⟩ := hentry
    have hlist : Path.names path = above.reverse ++ name :: tail.reverse := by
      rw [← List.reverse_inj, ← hsplit]
      simp
    simp only [Entry.isWayBack, Bool.or_eq_false_iff, beq_eq_false_iff_ne, List.head?_cons]
      at hback hfirst
    refine ⟨above.reverse, tail.reverse, hlist,
      fun name hname => hempty name (List.mem_reverse.1 hname), fun hasked => ?_, ?_, hback.2,
      hstart, hwalk, hdirectory⟩
    · rw [hlist] at hasked
      simpa using hasked
    · simp [Path.staysHere, hback.1, hfirst]

variable {entry : Entry}

theorem Entry.place_ne_top (entry : Entry) : entry.place ≠ [] :=
  List.concat_ne_nil entry.name entry.directory

/-- The entry for a path stands at the place that the path names. -/
theorem place_of_entry (h : tree.entry path = .ok entry) (hback : entry.isWayBack = false) :
    entry.place = Place.ofPath tree.home path := by
  obtain ⟨above, trailing, hnames, hempty, -, hstays, hup, -, hwalk, -⟩ :=
    exists_names_of_entry h hback
  have htrailing : ∀ name ∈ trailing, Path.staysHere name = true := by
    intro name hname
    rw [hempty name hname]
    rfl
  rw [Place.ofPath, hnames, Place.follow_append, ← eq_follow_of_walk hwalk, Place.follow_cons,
    Place.follow_of_staysHere htrailing, Place.turn, if_neg (by simp [hstays]), if_neg hup,
    Entry.place]

/-- **A file comes to stand at the place that its path names.** -/
theorem eq_ofPath_of_slot? (h : tree.slot? path = some place) :
    place = Place.ofPath tree.home path := by
  obtain ⟨entry, hentry, hback, -, -, -, rfl⟩ := slot?_eq_some_iff.1 h
  exact place_of_entry hentry hback

/-- **A path leads to what stands at its place.** -/
theorem nodeAt?_of_slot? (h : tree.slot? path = some place) :
    tree.nodeAt? path = tree.node? place := by
  obtain ⟨entry, hentry, hback, hsize, hasked, -, rfl⟩ := slot?_eq_some_iff.1 h
  obtain ⟨above, trailing, hnames, -, htrailing, hstays, hup, hstart, hwalk, hdirectory⟩ :=
    exists_names_of_entry hentry hback
  obtain rfl := htrailing hasked
  unfold nodeAt?
  cases hfind : tree.find path with
  | ok found => rw [eq_ofPath_of_find hfind, ← place_of_entry hentry hback]
  | error fault =>
    cases hnode : tree.node? entry.place with
    | none => rfl
    | some node =>
      have hstep : tree.step entry.directory entry.name = .ok entry.place := by
        rw [step_eq_ok_iff, if_neg (by simp [hstays]), if_neg hup, ← Entry.place, hnode]
        exact ⟨hdirectory, hsize, rfl, rfl⟩
      have hfound : tree.find path = .ok entry.place := by
        refine find_eq_ok_iff.2 ⟨_, _, hstart, ?_⟩
        rw [hnames, walk_append_eq_ok_iff]
        exact ⟨_, hwalk, walk_cons_eq_ok_iff.2 ⟨_, hstep, rfl⟩⟩
      rw [hfind] at hfound
      exact nomatch hfound

/-- A file that comes to stand at a confined path in a directory comes to stand below it. -/
theorem isBelow_of_slot?_join {directory : String} (hconfined : Path.isConfined path = true)
    (h : tree.slot? (Path.join directory path) = some place) :
    place.IsBelow (Place.ofPath tree.home directory) := by
  obtain ⟨entry, hentry, hback, -, hasked, -, -⟩ := slot?_eq_some_iff.1 h
  obtain ⟨above, trailing, hnames, -, htrailing, hstays, -⟩ := exists_names_of_entry hentry hback
  obtain rfl := htrailing hasked
  obtain ⟨front, hfront, -⟩ := Path.names_join directory path
  have hlast : (Path.names path).getLast? = some entry.name := by
    have hboth := congrArg List.getLast? (hfront.symm.trans hnames)
    rwa [List.getLast?_append, List.getLast?_eq_some_getLast (Path.names_ne_nil path),
      Option.some_or, ← List.getLast?_eq_some_getLast (Path.names_ne_nil path),
      List.getLast?_concat] at hboth
  refine ⟨(Path.names path).filter (!Path.staysHere ·), ?_, ?_⟩
  · refine List.ne_nil_of_mem (List.mem_filter.2 ⟨List.mem_of_getLast? hlast, ?_⟩)
    rw [hstays]
    rfl
  · rw [eq_ofPath_of_slot? h, Place.ofPath_join_of_isConfined tree.home directory hconfined]

/-! ### Directories that are made -/

/-- A directory comes to stand at the place that its path names, and none comes at the path that
stays. -/
theorem node?_makeDirectory (h : tree.makeDirectory path = .ok later) (place : Place) :
    later.node? place = tree.node? place ∨
      path ≠ "." ∧ place = Place.ofPath tree.home path := by
  obtain ⟨entry, hentry, hback, -, hfree, rfl⟩ := makeDirectory_eq_ok_iff.1 h
  obtain ⟨above, trailing, hnames, -, -, hstays, -⟩ := exists_names_of_entry hentry hback
  by_cases hplace : place = entry.place
  · refine .inr ⟨?_, hplace.trans (place_of_entry hentry hback)⟩
    rintro rfl
    have hdot : ["."] = above ++ entry.name :: trailing := hnames
    have hname : entry.name ∈ ["."] := hdot ▸ List.mem_append_right above List.mem_cons_self
    rw [List.mem_singleton.1 hname] at hstays
    exact absurd hstays (by decide)
  · rw [node?_put entry.place_ne_top, if_neg hplace]
    exact .inl rfl

theorem node?_ensureDirectory (tree : Tree) (path : String) (place : Place) :
    (tree.ensureDirectory path).1.node? place = tree.node? place ∨
      path ≠ "." ∧ place = Place.ofPath tree.home path := by
  unfold ensureDirectory
  split
  · rename_i later hlater
    exact node?_makeDirectory hlater place
  · exact .inl rfl

/-- Directories come to stand at the places that their paths name. -/
theorem node?_makeDirectories (tree : Tree) (paths : List String) (place : Place) :
    (tree.makeDirectories paths).1.node? place = tree.node? place ∨
      ∃ path ∈ paths, path ≠ "." ∧ place = Place.ofPath tree.home path := by
  induction paths generalizing tree with
  | nil => exact .inl rfl
  | cons path outer ih =>
    have hensure : ∀ other : Tree, other.home = tree.home →
        (other.ensureDirectory path).1.node? place = other.node? place ∨
          ∃ later ∈ path :: outer, later ≠ "." ∧ place = Place.ofPath tree.home later := by
      intro other hhome
      refine (node?_ensureDirectory other path place).imp_right fun ⟨hdot, hplace⟩ => ?_
      exact ⟨path, List.mem_cons_self, hdot, hhome ▸ hplace⟩
    have houter := (ih tree).imp_right fun ⟨later, hlater, hplace⟩ =>
      (⟨later, List.mem_cons_of_mem path hlater, hplace⟩ :
        ∃ later ∈ path :: outer, later ≠ "." ∧ place = Place.ofPath tree.home later)
    have hhome := (gainsDirectories_makeDirectories tree outer).home_eq
    rw [makeDirectories]
    split
    · split
      · rename_i later hlater
        rw [hlater] at houter hhome
        rcases hensure later hhome with hsame | hnew
        · rw [hsame]
          exact houter
        · exact .inr hnew
      · rename_i later fault hlater
        rw [hlater] at houter
        exact houter
    · exact hensure tree rfl

end Tree

end LinePatch
