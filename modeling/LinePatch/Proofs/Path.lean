import LinePatch.Path

/-!
# Paths inside a directory

A path that is joined to a directory keeps its names, and they come last. What is known of the
names of a path that does not lead out of a directory is so known of the last names of the whole.

## Main results

* `Path.names_join`, `Path.isAbsolute_join`: the names and the start of a path inside a directory.
* `Path.names_of_mem_ancestors`: those of the directories on the way down to a path.
* `Path.any_leadsOut_components_iff`, `Path.isConfined_iff`: a path stays in a directory exactly if
  it is not blank and neither its start nor one of its names leads out.
* `Path.getLast?_names_of_within?`: a confined path does not end in a name that goes up.
-/

namespace LinePatch.Path

variable {path full : String}

theorem names_ne_nil (path : String) : names path ≠ [] := by
  simp [names, List.splitOn_ne_nil]

theorem names_append_slash (front path : String) :
    names (front ++ "/" ++ path) = names front ++ names path := by
  simp only [names, String.toList_append]
  rw [show "/".toList = ['/'] from rfl, List.append_assoc, List.singleton_append,
    List.splitOn_append_cons_self, List.map_append]

@[simp] theorem names_empty : names "" = [""] := by
  simp [names]

/-- The names of a path come last when it is joined to a directory. Before them stand the names of
the directory, without the empty one at their end. -/
theorem names_join (directory path : String) :
    ∃ front, names (join directory path) = front ++ names path ∧
      (names directory = front ∨ names directory = front ++ [""]) := by
  unfold join
  split
  · rename_i hdirectory
    rcases hdirectory with rfl | hlast
    · exact ⟨[], by rw [String.empty_append, List.nil_append], .inr names_empty⟩
    · obtain ⟨front, hfront⟩ := List.getLast?_eq_some_iff.1 hlast
      have hdirectory : directory = String.ofList front ++ "/" := by
        rw [← String.toList_inj, hfront]
        simp
      refine ⟨names (String.ofList front), by rw [hdirectory, names_append_slash], .inr ?_⟩
      rw [← names_empty, ← names_append_slash, String.append_empty, ← hdirectory]
  · exact ⟨names directory, names_append_slash directory path, .inl rfl⟩

/-- A path that does not start at the top starts, inside a directory, where the directory does. -/
theorem isAbsolute_join (directory : String) (h : isAbsolute path = false) :
    isAbsolute (join directory path) = isAbsolute directory := by
  by_cases hempty : directory = ""
  · subst hempty
    have hjoin : join "" path = path := by
      rw [join, if_pos (.inl rfl), String.empty_append]
    rw [hjoin, h]
    rfl
  · obtain ⟨first, rest, hfirst⟩ :=
      List.exists_cons_of_ne_nil (show directory.toList ≠ [] by simpa using hempty)
    have hhead : ∀ more : String,
        (directory ++ more).toList.head? = directory.toList.head? := by
      intro more
      rw [String.toList_append, hfirst]
      rfl
    unfold isAbsolute join
    split
    · rw [hhead]
    · rw [String.append_assoc, hhead]

/-! ### Paths of names -/

/-- No name holds the slash that separates names. -/
theorem slash_not_mem_of_mem_names {name : String} (h : name ∈ names path) :
    '/' ∉ name.toList := by
  have hparts : ∀ characters : List Char, ∀ part ∈ characters.splitOn '/', '/' ∉ part := by
    intro characters
    induction characters with
    | nil => simp [List.splitOn_nil]
    | cons first rest ih =>
      rw [List.splitOn_cons_eq_if_modifyHead]
      split
      · simpa using ih
      · rename_i hfirst
        obtain ⟨part, parts, hsplit⟩ := List.exists_cons_of_ne_nil (List.splitOn_ne_nil '/' rest)
        rw [hsplit] at ih ⊢
        have hne : '/' ≠ first := fun heq => hfirst (beq_iff_eq.2 heq.symm)
        simpa [hne] using ih
  obtain ⟨part, hpart, rfl⟩ := List.mem_map.1 h
  simpa using hparts _ part hpart

theorem names_ofNames {list : List String} (hne : list ≠ [])
    (h : ∀ name ∈ list, '/' ∉ name.toList) : names (ofNames list) = list := by
  have hcut : (ofNames list).toList.splitOn '/' = list.map String.toList := by
    rw [ofNames, String.toList_ofList]
    exact List.splitOn_intercalate '/' (by simpa using h) (by simpa using hne)
  rw [names, hcut, List.map_map]
  simp

/-- A path starts at the top if its first name is empty and not the only one. -/
theorem isAbsolute_iff_names :
    isAbsolute path = true ↔ ∃ name rest, names path = "" :: name :: rest := by
  unfold isAbsolute names
  cases path.toList with
  | nil => simp [List.splitOn_nil]
  | cons first rest =>
    obtain ⟨part, parts, hsplit⟩ := List.exists_cons_of_ne_nil (List.splitOn_ne_nil '/' rest)
    rw [List.splitOn_cons_eq_if_modifyHead, hsplit]
    by_cases hfirst : first = '/'
    · simp [hfirst]
    · simp [hfirst]

/-- What is left of names as the last one is taken away stands in front of a name that counts. -/
theorem exists_of_mem_shorter {rest reversed : List String} (h : rest ∈ shorter reversed) :
    ∃ below, reversed = below ++ rest ∧ ∃ name ∈ below, staysHere name = false := by
  induction reversed with
  | nil => simp [shorter] at h
  | cons name above ih =>
    have hlater : rest ∈ shorter above →
        ∃ below, name :: above = below ++ rest ∧ ∃ name ∈ below, staysHere name = false := by
      intro hrest
      obtain ⟨below, habove, other, hother, hstays⟩ := ih hrest
      exact ⟨name :: below, by rw [habove]; rfl, other, List.mem_cons_of_mem name hother, hstays⟩
    rw [shorter] at h
    split at h
    · exact hlater h
    · rename_i hstays
      rcases List.mem_cons.1 h with rfl | hrest
      · refine ⟨name :: above.takeWhile staysHere, ?_, name, List.mem_cons_self,
          by simpa using hstays⟩
        rw [List.cons_append, dropStays, List.takeWhile_append_dropWhile]
      · exact hlater hrest

theorem isAbsolute_eq_false {first : String} {rest : List String} (h : names path = first :: rest)
    (hfirst : first ≠ "") : isAbsolute path = false := by
  rw [← Bool.not_eq_true, isAbsolute_iff_names, h]
  rintro ⟨name, rest, heq⟩
  exact hfirst (List.cons.inj heq).1

/-- What a path starts from is told by its first name. -/
theorem split_cases (path : String) :
    (∃ rest, names path = "" :: rest ∧ isAbsolute path = true ∧ split path = (.top, rest)) ∨
      (names path = [""] ∧ isAbsolute path = false ∧ split path = (.nowhere, [])) ∨
      (∃ rest, names path = "." :: rest ∧ isAbsolute path = false ∧ split path = (.here, rest)) ∨
      ((names path).head? ≠ some "" ∧ isAbsolute path = false ∧
        split path = (.nowhere, names path)) := by
  obtain ⟨first, rest, hnames⟩ := List.exists_cons_of_ne_nil (names_ne_nil path)
  by_cases hempty : first = ""
  · subst hempty
    cases habsolute : isAbsolute path with
    | true => exact .inl ⟨rest, hnames, rfl, by simp [split, hnames, habsolute]⟩
    | false =>
      cases rest with
      | nil => exact .inr (.inl ⟨hnames, rfl, by simp [split, hnames, habsolute]⟩)
      | cons name later =>
        rw [isAbsolute_iff_names.2 ⟨name, later, hnames⟩] at habsolute
        exact nomatch habsolute
  · have habsolute := isAbsolute_eq_false hnames hempty
    by_cases hdot : first = "."
    · subst hdot
      exact .inr (.inr (.inl ⟨rest, hnames, habsolute, by simp [split, hnames]⟩))
    · exact .inr (.inr (.inr ⟨by simpa [hnames] using hempty, habsolute,
        by simp [split, hnames, hempty, hdot]⟩))

/-- The names of a path are those of its start and those that are split from it. -/
theorem names_eq_of_split {start : Start} {list : List String} (h : split path = (start, list))
    (hne : list ≠ []) :
    (start = .top ∧ isAbsolute path = true ∧ names path = "" :: list) ∨
      (start = .here ∧ names path = "." :: list) ∨
      (start = .nowhere ∧ names path = list ∧ list.head? ≠ some "") := by
  rcases split_cases path with ⟨rest, hnames, habsolute, hsplit⟩ | ⟨-, -, hsplit⟩ |
    ⟨rest, hnames, -, hsplit⟩ | ⟨hhead, -, hsplit⟩
  · obtain ⟨rfl, rfl⟩ := Prod.mk.inj (h.symm.trans hsplit)
    exact .inl ⟨rfl, habsolute, hnames⟩
  · exact absurd (Prod.mk.inj (h.symm.trans hsplit)).2 hne
  · obtain ⟨rfl, rfl⟩ := Prod.mk.inj (h.symm.trans hsplit)
    exact .inr (.inl ⟨rfl, hnames⟩)
  · obtain ⟨rfl, rfl⟩ := Prod.mk.inj (h.symm.trans hsplit)
    exact .inr (.inr ⟨rfl, rfl, hhead⟩)

/-- A path that is built from the front of what is split from another one starts where that one
does, with the names in front there. -/
theorem names_build {start : Start} {front back : List String}
    (h : split path = (start, front ++ back)) (hback : back ≠ [])
    (hempty : build start front ≠ "") :
    isAbsolute (build start front) = isAbsolute path ∧
      ∃ before, names path = before ++ back ∧
        (names (build start front) = before ∨ names (build start front) = before ++ [""]) := by
  have hslash : ∀ name ∈ names path, '/' ∉ name.toList := fun name =>
    slash_not_mem_of_mem_names
  rcases names_eq_of_split h (List.append_ne_nil_of_right_ne_nil _ hback) with
    ⟨rfl, habsolute, hnames⟩ | ⟨rfl, hnames⟩ | ⟨rfl, hnames, hhead⟩
  · refine ⟨by rw [habsolute]; simp [build, isAbsolute], "" :: front, hnames, ?_⟩
    have hbuild : names (build .top front) = "" :: names (ofNames front) := by
      rw [build, ← List.singleton_append, ← names_empty, ← names_append_slash, String.empty_append]
    rw [hbuild]
    by_cases hfront : front = []
    · subst hfront
      exact .inr (by simp [ofNames])
    · left
      rw [names_ofNames hfront fun name hname => hslash name (by simp [hnames, hname])]
  · have hbuild : names (build .here front) = "." :: front :=
      names_ofNames (List.cons_ne_nil _ _) fun name hname => hslash name (by
        rw [hnames, ← List.cons_append]
        exact List.mem_append_left back hname)
    refine ⟨?_, "." :: front, hnames, .inl hbuild⟩
    rw [isAbsolute_eq_false hbuild (by decide), isAbsolute_eq_false hnames (by decide)]
  · obtain ⟨name, later, rfl⟩ : ∃ name later, front = name :: later := by
      refine List.exists_cons_of_ne_nil fun hnil => hempty ?_
      rw [hnil]
      rfl
    have hbuild : names (build .nowhere (name :: later)) = name :: later :=
      names_ofNames (List.cons_ne_nil _ _) fun other hother => hslash other (by
        rw [hnames]
        exact List.mem_append_left back hother)
    have hname : name ≠ "" := by simpa using hhead
    refine ⟨?_, name :: later, hnames, .inl hbuild⟩
    rw [isAbsolute_eq_false hbuild hname, isAbsolute_eq_false hnames hname]

/-- **The directories on the way down to a path** start where it does, and the names of each of
them stand in front of a name that counts. -/
theorem names_of_mem_ancestors {above : String} (h : above ∈ ancestors path) :
    isAbsolute above = isAbsolute path ∧
      ∃ front back, names path = front ++ back ∧ (∃ name ∈ back, staysHere name = false) ∧
        (names above = front ∨ names above = front ++ [""]) := by
  unfold ancestors at h
  rcases hsplit : split path with ⟨start, list⟩
  simp only [hsplit, List.mem_filter, List.mem_map, decide_eq_true_eq] at h
  obtain ⟨⟨reversed, hshorter, rfl⟩, hempty⟩ := h
  obtain ⟨below, hlist, name, hname, hstays⟩ := exists_of_mem_shorter hshorter
  have hname : name ∈ below.reverse := List.mem_reverse.2 hname
  rw [← List.reverse_inj, List.reverse_reverse, List.reverse_append] at hlist
  obtain ⟨hstart, front, hnames, habove⟩ :=
    names_build (hlist ▸ hsplit) (List.ne_nil_of_mem hname) hempty
  exact ⟨hstart, front, below.reverse, hnames, ⟨name, hname, hstays⟩, habove⟩

/-! ### Paths that do not lead out of a directory -/

theorem leadsOut_of_component? {name : String} {component : Component}
    (h : component? name = some component) : component.leadsOut = true ↔ name = ".." := by
  unfold component? at h
  split at h
  · exact nomatch h
  · obtain rfl := Option.some.inj h
    split <;> simp_all [Component.leadsOut]

/-- The names of which one leads out are those of which one goes up. -/
theorem any_leadsOut_filterMap_iff {list : List String} :
    (list.filterMap component?).any Component.leadsOut = true ↔ ".." ∈ list := by
  rw [List.any_eq_true]
  constructor
  · rintro ⟨component, hmem, hout⟩
    obtain ⟨name, hname, hcomponent⟩ := List.mem_filterMap.1 hmem
    exact (leadsOut_of_component? hcomponent).1 hout ▸ hname
  · intro hmem
    exact ⟨.up, List.mem_filterMap.2 ⟨"..", hmem, by decide⟩, rfl⟩

theorem any_leadsOut_iff_of_split {start : Start} {list : List String}
    (h : split path = (start, list)) :
    (components path).any Component.leadsOut = true ↔ start = .top ∨ ".." ∈ list := by
  rw [components, h, List.any_append, Bool.or_eq_true, any_leadsOut_filterMap_iff]
  cases start <;> simp [Start.component?, Component.leadsOut]

/-- **A path leads out** if it starts at the top or one of its names goes up. -/
theorem any_leadsOut_components_iff :
    (components path).any Component.leadsOut = true ↔
      isAbsolute path = true ∨ ".." ∈ names path := by
  rcases split_cases path with ⟨rest, -, habsolute, hsplit⟩ | ⟨hnames, habsolute, hsplit⟩ |
    ⟨rest, hnames, habsolute, hsplit⟩ | ⟨-, habsolute, hsplit⟩
  · simp [any_leadsOut_iff_of_split hsplit, habsolute]
  · simp [any_leadsOut_iff_of_split hsplit, habsolute, hnames]
  · simp [any_leadsOut_iff_of_split hsplit, habsolute, hnames]
  · simp [any_leadsOut_iff_of_split hsplit, habsolute]

/-- **The paths that are let into a directory**, told by their names. -/
theorem isConfined_iff :
    isConfined path = true ↔
      Text.trim path ≠ "" ∧ isAbsolute path = false ∧ ".." ∉ names path := by
  rw [isConfined, Bool.and_eq_true, Bool.and_eq_true, bne_iff_ne, Bool.not_eq_true',
    Bool.not_eq_true', ← Bool.not_eq_true ((components path).any _), any_leadsOut_components_iff,
    not_or, and_assoc]
  constructor
  · rintro ⟨hblank, habsolute, -, hup⟩
    exact ⟨hblank, habsolute, hup⟩
  · rintro ⟨hblank, habsolute, hup⟩
    exact ⟨hblank, habsolute, by simp [habsolute], hup⟩

theorem within?_eq_some_iff {directory : String} :
    within? directory path = some full ↔ isConfined path = true ∧ join directory path = full := by
  unfold within?
  split
  · rename_i hconfined
    simp [hconfined]
  · rename_i hconfined
    simp [hconfined]

/-- A path that does not lead out of a directory does not end, inside it, in a name that goes
up. -/
theorem getLast?_names_of_within? {directory : String} (h : within? directory path = some full) :
    (names full).getLast? ≠ some ".." := by
  obtain ⟨hconfined, rfl⟩ := within?_eq_some_iff.1 h
  obtain ⟨front, hfront, -⟩ := names_join directory path
  intro hup
  rw [hfront, List.getLast?_append, List.getLast?_eq_some_getLast (names_ne_nil path),
    Option.some_or, ← List.getLast?_eq_some_getLast (names_ne_nil path)] at hup
  exact (isConfined_iff.1 hconfined).2.2 (List.mem_of_getLast? hup)

end LinePatch.Path
