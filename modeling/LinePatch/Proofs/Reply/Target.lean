import LinePatch.Proofs.Apply.Order
import LinePatch.Proofs.Reply

/-!
# The path that a document is named for

A document is named for the first path that stands behind the mark of an update, and the mark is
looked for in the text as it is. It is found wherever it stands: at the head of a section, but also
in a line that a file gains, in a remark or below the end mark. So the name is the path that the
document updates first as long as the mark does not stand above that update, and of a document that
updates no file, as long as it stands nowhere.

## Main definitions

* `Reply.Names`, `Reply.FirstNames`: the path that a text begins to name, and the first one that it
  names anywhere.
* `firstUpdated?`: the first path that actions update.
* `Reply.StandsAbove`: the part of a document above its first update.

## Main results

* `Reply.target?_eq_some_iff`: the name of a text, as the first path that is named in it.
* `Reply.target?_append_lineFeed`: the name of two texts, one below the other.
* `Reply.exists_standsAbove`: where the first update of a document stands.
* `Reply.target?_of_actions`: the name of a document.
-/

namespace LinePatch

/-- The path of the first file that actions update. -/
def firstUpdated? (actions : List Action) : Option String :=
  actions.findSome? Action.updatedPath?

namespace Reply

open Document

/-- The part of a document above its first update, which has this path. All of a document without
updates stands above. -/
def StandsAbove (text above : String) : Option String → Prop
  | none => above = text
  | some path => (∀ line ∈ Text.lines above, Text.beginsWith updateMark line = false) ∧
      ∃ rest, text = above ++ "\n" ++ rest ∧
        (Text.lines rest).head? = some (updateMark ++ path)

/-! ### Paths that a text names -/

/-- A text begins with the mark of an update, and this path follows it, up to the end of the text or
to a character that ends a path. -/
structure Names (text path : String) : Prop where
  ne_empty : path ≠ ""
  within : ∀ c ∈ path.toList, endsPath c = false
  place : ∃ after, text = updateMark ++ path ++ after ∧
    ∀ c, after.toList.head? = some c → endsPath c = true

/-- A text from the character with this index on. -/
def textFrom (text : String) (start : Nat) : String :=
  String.ofList (text.toList.drop start)

/-- The path is the first one that is named anywhere in the text. -/
def FirstNames (text path : String) : Prop :=
  ∃ start, Names (textFrom text start) path ∧
    ∀ earlier < start, ∀ other, ¬ Names (textFrom text earlier) other

/-- The path that a text begins to name is what is read behind the mark. -/
theorem names_iff {text path : String} :
    Names text path ↔
      (updateMark.toList.isPrefixOf? text.toList).map (·.takeWhile (!endsPath ·)) =
        some path.toList ∧ path ≠ "" := by
  rw [Option.map_eq_some_iff]
  constructor
  · rintro ⟨hne, hwithin, after, rfl, hafter⟩
    refine ⟨⟨(path ++ after).toList, ?_, ?_⟩, hne⟩
    · rw [Text.isPrefixOf?_eq_some_iff, ← String.toList_append, String.append_assoc]
    · rw [String.toList_append, List.takeWhile_append_of_pos (by simpa using hwithin)]
      cases hhead : after.toList with
      | nil => simp
      | cons c more => simp [hafter c (by rw [hhead]; rfl)]
  · rintro ⟨⟨rest, hrest, htake⟩, hne⟩
    refine ⟨hne, fun c hc => ?_, String.ofList (rest.dropWhile (!endsPath ·)), ?_, fun c hc => ?_⟩
    · rw [← htake] at hc
      simpa using List.mem_takeWhile_imp hc
    · rw [← String.toList_inj, Text.isPrefixOf?_eq_some_iff.1 hrest]
      simp [← htake]
    · rw [String.toList_ofList] at hc
      have hhead := List.head?_dropWhile_not (!endsPath ·) rest
      rw [hc] at hhead
      simpa using hhead

/-- A text that begins to name a path is named for it. -/
theorem target?_of_names {text path : String} (h : Names text path) :
    target? text = some (Text.trim path) := by
  obtain ⟨hpath, hne⟩ := names_iff.1 h
  obtain ⟨first, more, hfirst⟩ :=
    List.exists_cons_of_ne_nil (show path.toList ≠ [] by simpa using hne)
  rw [target?]
  cases hchars : text.toList with
  | nil =>
    rw [hchars] at hpath
    exact nomatch hpath
  | cons c chars =>
    rw [hchars, hfirst] at hpath
    rw [targetIn?, hpath]
    change some (Text.trim (String.ofList (first :: more))) = _
    rw [← hfirst, String.ofList_toList]

/-- A text that does not begin to name a path is named for what it names later. -/
theorem targetIn?_cons_of_not_names {c : Char} {chars : List Char}
    (h : ∀ path, ¬ Names (String.ofList (c :: chars)) path) :
    targetIn? (c :: chars) = targetIn? chars := by
  rw [targetIn?]
  split
  · rename_i first more hpath
    refine absurd (names_iff.2 ⟨?_, ?_⟩) (h (String.ofList (first :: more)))
    · simpa using hpath
    · simp [← String.toList_inj]
  · rfl

theorem not_names_empty (path : String) : ¬ Names "" path := by
  rintro ⟨-, -, after, htext, -⟩
  have htoList := congrArg String.toList htext
  simp [updateMark] at htoList

/-- What stands below a line is not part of a path that is named above. -/
theorem names_append_lineFeed {front path : String} (back : String) :
    Names (front ++ "\n" ++ back) path ↔ Names front path := by
  have hends : endsPath '\n' = true := rfl
  constructor
  · rintro ⟨hne, hwithin, after, htext, hafter⟩
    refine ⟨hne, hwithin, ?_⟩
    have hfree : '\n' ∉ (updateMark ++ path).toList := by
      rw [String.toList_append, List.mem_append, not_or]
      refine ⟨by decide, fun hmem => ?_⟩
      rw [hwithin _ hmem] at hends
      exact nomatch hends
    have htoList : front.toList ++ '\n' :: back.toList =
        (updateMark ++ path).toList ++ after.toList := by
      simpa using congrArg String.toList htext
    rcases List.append_eq_append_iff.1 htoList with ⟨more, hmore, hrest⟩ | ⟨more, hmore, hrest⟩
    · cases more with
      | nil =>
        refine ⟨"", ?_, by simp⟩
        rw [String.append_empty, ← String.toList_inj, hmore, List.append_nil]
      | cons c more =>
        obtain ⟨rfl, -⟩ := List.cons.inj hrest
        exact absurd (hmore ▸ by simp) hfree
    · refine ⟨String.ofList more, ?_, fun c hc => hafter c ?_⟩
      · rw [← String.toList_inj, hmore]
        simp
      · rw [String.toList_ofList] at hc
        rw [hrest, List.head?_append, hc, Option.some_or]
  · rintro ⟨hne, hwithin, after, rfl, hafter⟩
    refine ⟨hne, hwithin, after ++ "\n" ++ back, by simp only [String.append_assoc], fun c hc => ?_⟩
    simp only [String.toList_append, List.head?_append] at hc
    cases hhead : after.toList.head? with
    | none =>
      obtain rfl : '\n' = c := by simpa [hhead] using hc
      exact hends
    | some d =>
      obtain rfl : d = c := by simpa [hhead] using hc
      exact hafter d hhead

/-- **A text is named for what its upper part names first**, or else for what its lower part
does. -/
theorem target?_append_lineFeed (front back : String) :
    target? (front ++ "\n" ++ back) = (target? front).or (target? back) := by
  have hlist (front : List Char) :
      targetIn? (front ++ '\n' :: back.toList) = (targetIn? front).or (targetIn? back.toList) := by
    have htext (front : List Char) : String.ofList (front ++ '\n' :: back.toList) =
        String.ofList front ++ "\n" ++ back := by
      simp [← String.toList_inj]
    induction front with
    | nil =>
      rw [List.nil_append, targetIn?_cons_of_not_names fun path hnames => ?_]
      · rfl
      · rw [← List.nil_append ('\n' :: _), htext, names_append_lineFeed] at hnames
        exact not_names_empty path hnames
    | cons c front ih =>
      by_cases hnames : ∃ path, Names (String.ofList (c :: front)) path
      · obtain ⟨path, hpath⟩ := hnames
        have hfront := target?_of_names hpath
        have hboth := target?_of_names ((names_append_lineFeed back).2 hpath)
        rw [← htext] at hboth
        simp only [target?, String.toList_ofList] at hfront hboth
        rw [hfront, hboth, Option.some_or]
      · rw [not_exists] at hnames
        rw [List.cons_append, targetIn?_cons_of_not_names hnames,
          targetIn?_cons_of_not_names fun path => ?_, ih]
        rw [← List.cons_append, htext, names_append_lineFeed]
        exact hnames path
  simpa [target?] using hlist front.toList

theorem textFrom_zero (text : String) : textFrom text 0 = text := by
  simp [textFrom]

theorem textFrom_cons_succ (c : Char) (chars : List Char) (start : Nat) :
    textFrom (String.ofList (c :: chars)) (start + 1) = textFrom (String.ofList chars) start := by
  simp [textFrom]

theorem firstNames_iff_of_names {text path first : String} (h : Names text first) :
    FirstNames text path ↔ Names text path := by
  constructor
  · rintro ⟨start, hnames, hearlier⟩
    cases start with
    | zero => rwa [textFrom_zero] at hnames
    | succ start => exact absurd (by rwa [textFrom_zero]) (hearlier 0 start.succ_pos first)
  · intro hnames
    exact ⟨0, by rwa [textFrom_zero], fun earlier hearlier => absurd hearlier earlier.not_lt_zero⟩

theorem firstNames_cons_iff {c : Char} {chars : List Char} {path : String}
    (h : ∀ path, ¬ Names (String.ofList (c :: chars)) path) :
    FirstNames (String.ofList (c :: chars)) path ↔ FirstNames (String.ofList chars) path := by
  constructor
  · rintro ⟨start, hnames, hearlier⟩
    cases start with
    | zero => exact absurd (by rwa [textFrom_zero] at hnames) (h path)
    | succ start =>
      rw [textFrom_cons_succ] at hnames
      refine ⟨start, hnames, fun earlier hlt other => ?_⟩
      rw [← textFrom_cons_succ c]
      exact hearlier (earlier + 1) (Nat.succ_lt_succ hlt) other
  · rintro ⟨start, hnames, hearlier⟩
    refine ⟨start + 1, by rwa [textFrom_cons_succ], fun earlier hlt other => ?_⟩
    cases earlier with
    | zero => rw [textFrom_zero]; exact h other
    | succ earlier =>
      rw [textFrom_cons_succ]
      exact hearlier earlier (Nat.lt_of_succ_lt_succ hlt) other

/-- **The path that a text is named for** is the first one that it names anywhere. -/
theorem target?_eq_some_iff {text name : String} :
    target? text = some name ↔ ∃ path, FirstNames text path ∧ Text.trim path = name := by
  obtain ⟨chars, rfl⟩ : ∃ chars, String.ofList chars = text := ⟨_, String.ofList_toList⟩
  rw [target?, String.toList_ofList]
  induction chars with
  | nil =>
    refine iff_of_false nofun ?_
    rintro ⟨path, ⟨start, hnames, -⟩, -⟩
    rw [textFrom, String.toList_ofList, List.drop_nil] at hnames
    exact not_names_empty path hnames
  | cons c chars ih =>
    by_cases hnames : ∃ path, Names (String.ofList (c :: chars)) path
    · obtain ⟨first, hfirst⟩ := hnames
      have htarget {path : String} (hpath : Names (String.ofList (c :: chars)) path) :
          targetIn? (c :: chars) = some (Text.trim path) := by
        simpa [target?] using target?_of_names hpath
      simp only [firstNames_iff_of_names hfirst]
      constructor
      · intro h
        exact ⟨first, hfirst, Option.some.inj ((htarget hfirst).symm.trans h)⟩
      · rintro ⟨path, hpath, rfl⟩
        exact htarget hpath
    · rw [not_exists] at hnames
      rw [targetIn?_cons_of_not_names hnames, ih]
      simp only [firstNames_cons_iff hnames]

/-! ### The first update of a document -/

/-- The line of an update names its path. -/
theorem names_of_endsLine {path tail : String} (hne : path ≠ "") (hfeed : '\n' ∉ path.toList)
    (hreturn : '\r' ∉ path.toList) (htail : Text.EndsLine tail) :
    Names (updateMark ++ path ++ tail) path := by
  refine ⟨hne, fun c hc => ?_, tail, rfl, fun c hc => ?_⟩
  · rw [endsPath, Bool.or_eq_false_iff, beq_eq_false_iff_ne, beq_eq_false_iff_ne]
    exact ⟨fun heq => hreturn (heq ▸ hc), fun heq => hfeed (heq ▸ hc)⟩
  · rcases htail with rfl | rfl | ⟨more, rfl⟩ | ⟨more, rfl⟩
    · exact nomatch hc
    · obtain rfl : '\r' = c := by simpa using hc
      rfl
    · obtain rfl : '\n' = c := by simpa using hc
      rfl
    · obtain rfl : '\r' = c := by simpa using hc
      rfl

/-- A text whose first line is that of an update names the path of the update first. -/
theorem target?_of_head?_lines {text path : String}
    (h : (Text.lines text).head? = some (updateMark ++ path)) (hne : path ≠ "")
    (hreturn : '\r' ∉ path.toList) : target? text = some (Text.trim path) := by
  have hfeed : '\n' ∉ path.toList := by
    have hline := Text.lineFeed_not_mem_of_mem_lines (List.mem_of_mem_head? h)
    rw [String.toList_append, List.mem_append, not_or] at hline
    exact hline.2
  obtain ⟨piece, later, hpieces⟩ := List.exists_cons_of_ne_nil (Text.pieces_ne_nil text)
  rw [Text.lines_eq_map_pieces, hpieces, List.map_cons, List.head?_cons, Option.some.injEq] at h
  obtain ⟨tail, htail, hends⟩ := Text.exists_unlines_chomped [] piece later
  rw [List.nil_append, List.nil_append, ← hpieces, Text.unlines_pieces, Text.unlines_singleton,
    h] at htail
  rw [htail]
  exact target?_of_names (names_of_endsLine hne hfeed hreturn hends)

theorem not_beginsWith_updateMark {line : String}
    (h : Text.beginsWith sectionMark line = false) : Text.beginsWith updateMark line = false := by
  rw [← Bool.not_eq_true, Line.beginsWith_updateMark_iff]
  rintro ⟨path, hpath⟩
  have hbody := Line.isBody_ofText line
  rw [hpath, h] at hbody
  exact nomatch hbody

/-- The first update that sections ask for is that of the first of them that begins like one. -/
theorem exists_of_firstUpdated? {bareLines : BareLines} {parts : List Section}
    {list : List Action} {path : String}
    (h : List.Forall₂ (Section.Means bareLines) parts list)
    (hfirst : firstUpdated? list = some path) :
    ∃ before part after, parts = before ++ part :: after ∧ part.head = updateMark ++ path ∧
      ∀ other ∈ before, Text.beginsWith updateMark other.head = false := by
  induction h with
  | nil => exact nomatch hfirst
  | @cons part action parts list hmeans _ ih =>
    have hlater (hnone : action.updatedPath? = none)
        (hhead : Text.beginsWith updateMark part.head = false) :
        ∃ before other after, part :: parts = before ++ other :: after ∧
          other.head = updateMark ++ path ∧
          ∀ other ∈ before, Text.beginsWith updateMark other.head = false := by
      rw [firstUpdated?, List.findSome?_cons, hnone] at hfirst
      obtain ⟨before, other, after, rfl, hother, hbefore⟩ := ih hfirst
      exact ⟨part :: before, other, after, rfl, hother, List.forall_mem_cons.2 ⟨hhead, hbefore⟩⟩
    cases hmeans with
    | @update first rest hsome =>
      obtain rfl : first = path := Option.some.inj hfirst
      exact ⟨[], _, parts, rfl, rfl, by simp⟩
    | @add first rest hcontent =>
      refine hlater rfl ?_
      rw [← Bool.not_eq_true, Line.beginsWith_updateMark_iff,
        show Line.ofText (addMark ++ first) = .add first from @Line.ofText_text (.add first) rfl]
      simp
    | @delete first rest hidle =>
      refine hlater rfl ?_
      rw [← Bool.not_eq_true, Line.beginsWith_updateMark_iff,
        show Line.ofText (deleteMark ++ first) = .delete first from
          @Line.ofText_text (.delete first) rfl]
      simp

/-- The head of the first update is the first of the lines below the opening one that begins like
an update. -/
theorem exists_lines_of_firstUpdated? {bareLines : BareLines} {lines : List String}
    {list : List Action} {path : String}
    (h : List.Forall₂ (Section.Means bareLines) (cut (untilEnd lines)).2 list)
    (hfirst : firstUpdated? list = some path) :
    ∃ above below, lines = above ++ (updateMark ++ path) :: below ∧
      ∀ line ∈ above, Text.beginsWith updateMark line = false := by
  obtain ⟨before, part, after, hparts, hpart, hbefore⟩ := exists_of_firstUpdated? h hfirst
  obtain ⟨hcut, habove, hplain⟩ := cut_append (untilEnd lines)
  rw [hparts] at hcut hplain
  refine ⟨(cut (untilEnd lines)).1 ++ before.flatMap fun part => part.head :: part.rest,
    part.rest ++ (after.flatMap fun part => part.head :: part.rest) ++
      lines.dropWhile (· ≠ endMark), ?_, List.forall_mem_append.2 ⟨fun line hline => ?_, ?_⟩⟩
  · rw [← hpart]
    calc lines = untilEnd lines ++ lines.dropWhile (· ≠ endMark) :=
          List.takeWhile_append_dropWhile.symm
      _ = (cut (untilEnd lines)).1 ++ ((before ++ part :: after).flatMap fun part =>
            part.head :: part.rest) ++ lines.dropWhile (· ≠ endMark) :=
          congrArg (· ++ lines.dropWhile (· ≠ endMark)) hcut.symm
      _ = _ := by simp
  · exact not_beginsWith_updateMark (habove line hline)
  · intro line hline
    obtain ⟨other, hother, hline⟩ := List.mem_flatMap.1 hline
    rcases List.mem_cons.1 hline with rfl | hline
    · exact hbefore other hother
    · exact not_beginsWith_updateMark
        ((hplain other (List.mem_append_left _ hother)).2 line hline)

/-- **The first update of a document** is told by the first line that begins like one. -/
theorem exists_standsAbove {settings : Settings} {text : String} {list : List Action}
    (h : actions settings text = .ok list) :
    ∃ above, StandsAbove text above (firstUpdated? list) := by
  cases hupdated : firstUpdated? list with
  | none => exact ⟨text, rfl⟩
  | some path =>
    obtain ⟨⟨first, hfirst, hbegins⟩, -, hsections, -⟩ :=
      (actions_eq_ok_iff settings text list).1 h
    obtain ⟨rest, hlines⟩ := List.head?_eq_some_iff.1 hfirst
    rw [hlines, sections, scanned_cons] at hsections
    obtain ⟨front, back, rfl, hfront⟩ := exists_lines_of_firstUpdated? hsections hupdated
    obtain ⟨above, below, htext, habove, hbelow⟩ :=
      @Text.exists_of_lines_eq_append text (first :: front) ((updateMark ++ path) :: back) hlines
        (List.cons_ne_nil _ _) (List.cons_ne_nil _ _)
    refine ⟨above, ?_, below, htext, by rw [hbelow, List.head?_cons]⟩
    rw [habove]
    refine List.forall_mem_cons.2 ⟨?_, hfront⟩
    rw [← Bool.not_eq_true, Text.beginsWith_iff]
    obtain ⟨more, rfl⟩ := Text.beginsWith_iff.1 hbegins
    rintro ⟨other, hother⟩
    simpa [beginMark, updateMark] using congrArg String.toList hother

/-- **The path that a document is named for** is the one that it updates first, unless the mark of
an update with a path behind it stands elsewhere above, as in a line that is added or behind the
mark of another section. Then it is the first path that is named there. Of a document without
updates every line counts as above, also those below its end mark. -/
theorem target?_of_actions {settings : Settings} {text : String} {list : List Action}
    (h : actions settings text = .ok list)
    (hpaths : ∀ path hunks, .update path hunks ∈ list → path ≠ "" ∧ '\r' ∉ path.toList) :
    (∃ above, StandsAbove text above (firstUpdated? list)) ∧
    ∀ above, StandsAbove text above (firstUpdated? list) →
      (target? text = (firstUpdated? list).map Text.trim ↔
        ∀ path, FirstNames above path →
          (firstUpdated? list).map Text.trim = some (Text.trim path)) ∧
      ∀ path, FirstNames above path → target? text = some (Text.trim path) := by
  refine ⟨exists_standsAbove h, fun above habove => ?_⟩
  have htarget : target? text = (target? above).or ((firstUpdated? list).map Text.trim) := by
    cases hupdated : firstUpdated? list with
    | none =>
      rw [hupdated] at habove
      obtain rfl : above = text := habove
      rw [Option.map_none, Option.or_none]
    | some path =>
      rw [hupdated] at habove
      obtain ⟨-, rest, rfl, hrest⟩ := habove
      obtain ⟨action, haction, hpath⟩ := List.exists_of_findSome?_eq_some hupdated
      obtain ⟨hunks, rfl⟩ : ∃ hunks, action = .update path hunks := by
        cases action with
        | update other hunks => exact ⟨hunks, by rw [Option.some.inj hpath]⟩
        | add other content | delete other => exact nomatch hpath
      obtain ⟨hne, hreturn⟩ := hpaths path hunks haction
      rw [target?_append_lineFeed, target?_of_head?_lines hrest hne hreturn, Option.map_some]
  have hnamed {path : String} (hfirst : FirstNames above path) :
      target? text = some (Text.trim path) := by
    rw [htarget, target?_eq_some_iff.2 ⟨path, hfirst, rfl⟩, Option.some_or]
  refine ⟨⟨fun heq path hfirst => ?_, fun hall => ?_⟩, fun path hfirst => hnamed hfirst⟩
  · rw [← heq, hnamed hfirst]
  · cases hname : target? above with
    | none => rw [htarget, hname, Option.none_or]
    | some name =>
      obtain ⟨path, hfirst, -⟩ := target?_eq_some_iff.1 hname
      rw [hnamed hfirst, hall path hfirst]

/-- The mark stands in an added line, but no path behind it, and with paths only below the
update. -/
theorem target?_of_actions_marks_below :
    let above := Text.unlines ["*** Begin Patch\r", "*** Add File: x\r", "+*** Update File: \r"]
    let document := above ++ "\n" ++ Text.unlines ["*** Update File:  a \r",
      "+*** Update File: b\r", "*** End Patch\r", "*** Update File: c"]
    let list : List Action := [.add "x" "*** Update File: ",
      .update " a " [⟨none, [.add "*** Update File: b"]⟩]]
    actions {} document = .ok list ∧
      (∀ path hunks, .update path hunks ∈ list → path ≠ "" ∧ '\r' ∉ path.toList) ∧
      StandsAbove document above (firstUpdated? list) ∧
      (∀ path, ¬ FirstNames above path) ∧ target? document = some "a" := by
  intro above document list
  have hlist : actions {} document = .ok list := by decide +kernel
  have hpaths : ∀ path hunks, .update path hunks ∈ list → path ≠ "" ∧ '\r' ∉ path.toList := by
    simp [list]
  have habove : StandsAbove document above (firstUpdated? list) :=
    ⟨by decide +kernel, _, rfl, by decide +kernel⟩
  have hnone : ∀ path, ¬ FirstNames above path := by
    intro path hfirst
    have htarget : target? above = some (Text.trim path) :=
      target?_eq_some_iff.2 ⟨path, hfirst, rfl⟩
    rw [show target? above = none by decide +kernel] at htarget
    cases htarget
  have htarget := ((target?_of_actions hlist hpaths).2 above habove).1.2 fun path hfirst =>
    absurd hfirst (hnone path)
  exact ⟨hlist, hpaths, habove, hnone, htarget.trans (by decide +kernel)⟩

/-- A document is named for a path in a line that it adds, and not for the file that it updates. -/
theorem not_target?_added_line :
    let document := Text.unlines ["*** Begin Patch", "*** Add File: a", "+*** Update File: b",
      "*** Update File: c", "+x", "*** End Patch"]
    let list : List Action := [.add "a" "*** Update File: b", .update "c" [⟨none, [.add "x"]⟩]]
    actions {} document = .ok list ∧
      (∀ path hunks, .update path hunks ∈ list → path ≠ "" ∧ '\r' ∉ path.toList) ∧
      firstUpdated? list = some "c" ∧ target? document ≠ (firstUpdated? list).map Text.trim := by
  intro document list
  exact ⟨by decide +kernel, by simp [list], rfl, by decide +kernel⟩

end Reply

end LinePatch
