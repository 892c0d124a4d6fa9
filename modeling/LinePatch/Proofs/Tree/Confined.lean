import LinePatch.Proofs.Tree.Way

/-!
# Paths that are let into a directory

A path is let into a directory by its parts, among which names that mean "stay here" do not appear,
but it is followed by its names, with the path of the directory in front of it. Both readings agree:
a path is refused exactly if it is blank, starts at the top or has a name that goes up, and a path
that is let in is followed from the directory on without ever leaving it.

## Main definitions

* `Place.LeadsDown`: how names lead that do not go up.

## Main results

* `Place.leadsDown_of_not_mem`: names among which there is none that goes up.
* `Path.within?_leadsDown`: the paths that are let in, and how they are followed.
-/

namespace LinePatch

namespace Place

/-- Names that lead down from a place: each of them stays or goes down by one name, so that none of
the places on the way is outside, and the last one is below unless all names stay. -/
structure LeadsDown (here : Place) (names : List String) : Prop where
  step : ∀ passed name left, names = passed ++ name :: left →
    follow here (passed ++ [name]) =
      if name = "" ∨ name = "." then follow here passed else follow here passed ++ [name]
  inside : ∀ passed, passed <+: names → here <+: follow here passed
  isBelow_iff : (follow here names).IsBelow here ↔ ∃ name ∈ names, name ≠ "" ∧ name ≠ "."

theorem turn_of_ne {here : Place} {name : String} (h : name ≠ "..") :
    turn here name = if name = "" ∨ name = "." then here else here ++ [name] := by
  simp [turn, Path.staysHere, h]

/-- **Names of which none goes up lead down.** -/
theorem leadsDown_of_not_mem (here : Place) {names : List String} (h : ".." ∉ names) :
    LeadsDown here names := by
  refine ⟨fun passed name left hnames => ?_, fun passed hpassed => ?_, ?_⟩
  · have hname : name ≠ ".." := by
      rintro rfl
      exact h (by simp [hnames])
    rw [follow_append, follow_cons, follow_nil, turn_of_ne hname]
  · rw [follow_of_not_mem fun hmem => h (hpassed.subset hmem)]
    exact List.prefix_append here _
  · rw [follow_of_not_mem h]
    constructor
    · rintro ⟨below, hne, hbelow⟩
      obtain ⟨name, hname⟩ := List.exists_mem_of_ne_nil below hne
      rw [← List.append_cancel_left hbelow, List.mem_filter] at hname
      exact ⟨name, hname.1, by simpa [Path.staysHere] using hname.2⟩
    · rintro ⟨name, hmem, hname⟩
      refine ⟨_, List.ne_nil_of_mem (List.mem_filter.2 ⟨hmem, ?_⟩), rfl⟩
      simpa [Path.staysHere] using hname

end Place

/-- **The paths that are let into a directory.** A path is let in exactly if it is not blank, does
not start with a slash and has no name that goes up; it is then joined to the path of the directory.
The names of the joined path are some that lead to the directory, and those of the path, and these
lead down from there. So in every tree in which the joined path is found, it is found there. -/
theorem Path.within?_leadsDown (directory path : String) :
    ((∃ full, within? directory path = some full) ↔
      Text.trim path ≠ "" ∧ path.toList.head? ≠ some '/' ∧ ".." ∉ names path) ∧
    ∀ full, within? directory path = some full →
      full = join directory path ∧
      ∀ tree : Tree,
        (∃ front, names full = front ++ names path ∧
          Place.follow (Place.start tree.home full) front = Place.ofPath tree.home directory) ∧
        Place.LeadsDown (Place.ofPath tree.home directory) (names path) ∧
        ∀ place, tree.find full = .ok place →
          place = Place.follow (Place.ofPath tree.home directory) (names path) := by
  have hconfined : isConfined path = true ↔
      Text.trim path ≠ "" ∧ path.toList.head? ≠ some '/' ∧ ".." ∉ names path := by
    rw [isConfined_iff, isAbsolute, beq_eq_false_iff_ne]
  refine ⟨?_, fun full hfull => ?_⟩
  · simp only [within?_eq_some_iff, exists_and_left, exists_eq', and_true, hconfined]
  · obtain ⟨hpath, rfl⟩ := within?_eq_some_iff.1 hfull
    obtain ⟨-, habsolute, hup⟩ := isConfined_iff.1 hpath
    refine ⟨rfl, fun tree => ⟨Place.exists_names_join tree.home directory habsolute,
      Place.leadsDown_of_not_mem _ hup, fun place hplace => ?_⟩⟩
    rw [Tree.eq_ofPath_of_find hplace, Place.ofPath_join tree.home directory habsolute]

/-- A path with a blank name, an empty one and dots, in a directory whose path goes up. -/
theorem Path.within?_leadsDown_dots :
    let tree : Tree := ⟨["home"], [(["home"], .directory), (["home", "d"], .directory),
      (["home", " "], .directory), (["home", " ", "a.."], .directory)]⟩
    let full := "d/.././ //a../."
    within? "d/.." "./ //a../." = some full ∧
      Place.LeadsDown (Place.ofPath tree.home "d/..") (names "./ //a../.") ∧
      tree.find full = .ok ["home", " ", "a.."] ∧
      ["home", " ", "a.."] = Place.follow (Place.ofPath tree.home "d/..") (names "./ //a../.") := by
  intro tree full
  have hfull : within? "d/.." "./ //a../." = some full := by decide +kernel
  have hoption : (tree.find full).toOption = some ["home", " ", "a.."] := by decide +kernel
  have hplace : tree.find full = .ok ["home", " ", "a.."] := by
    cases hfind : tree.find full <;> simp_all [Except.toOption]
  obtain ⟨-, hdown, hfound⟩ := ((within?_leadsDown "d/.." "./ //a../.").2 full hfull).2 tree
  exact ⟨hfull, hdown, hplace, hfound _ hplace⟩

end LinePatch
