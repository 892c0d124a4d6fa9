import LinePatch.Json.Reader
import LinePatch.Proofs.Json.Strings

/-!
# Written values, token by token

A value is written as the tokens that make it up, in either layout: what the layout adds are blanks
between tokens. A number or a name ends where a character follows that no word is made of, and such
a character, or the end of the text, follows wherever a value is written.

## Main definitions

* `Json.Value.isPlain`: the leaves that are written for what they are.
* `Json.Value.tokens`: the tokens that make up a value.
* `Json.EndsWord`: what a word may stand in front of.

## Main results

* `Json.wordToken?_toDigits`: a written count.
* `Json.scan?_write`: a written value.
* `Json.Value.lineFeed_not_mem_write`: a value on one line.
-/

namespace LinePatch.Json

/-! ### Counts -/

/-- The digits of a number begin with a zero only if it is zero. -/
theorem toDigits_eq_zero_cons {n : Nat} {rest : List Char} (h : Nat.toDigits 10 n = '0' :: rest) :
    rest = [] := by
  induction n using Nat.strongRecOn generalizing rest with
  | ind n ih =>
    by_cases hn : n < 10
    · rw [Nat.toDigits_of_lt_base hn] at h
      exact (List.cons.inj h).2.symm
    · rw [Nat.toDigits_of_base_le (by decide) (by omega)] at h
      obtain ⟨first, more, hfirst⟩ :=
        List.exists_cons_of_ne_nil (Nat.toDigits_ne_nil (n := n / 10) (b := 10))
      rw [hfirst, List.cons_append, List.cons.injEq] at h
      obtain ⟨rfl, -⟩ := h
      -- A zero in front would be all of the digits above the last one.
      have hmore := ih (n / 10) (by omega) hfirst
      have hvalue := Nat.ofDigitChars_toDigits (b := 10) (n := n / 10) (by decide) (by decide)
      rw [hfirst, hmore] at hvalue
      have hzero : Nat.ofDigitChars 10 ['0'] 0 = 0 := rfl
      omega

theorem digits?_of_forall {word : List Char} (hne : word ≠ [])
    (h : ∀ c ∈ word, c.isDigit = true) : Number.digits? word = some (word, []) := by
  have htake : (word ++ []).takeWhile Char.isDigit = word ++ [] := List.takeWhile_append_of_pos h
  have hdrop : (word ++ []).dropWhile Char.isDigit = [] := List.dropWhile_append_of_pos h
  rw [List.append_nil] at htake hdrop
  obtain ⟨first, more, rfl⟩ := List.exists_cons_of_ne_nil hne
  simp only [Number.digits?, htake, hdrop]

theorem ofText?_toDigits (n : Nat) :
    Number.ofText? (Nat.toDigits 10 n) = some ⟨false, Nat.toDigits 10 n, [], false, []⟩ := by
  have hdigit : ∀ c ∈ Nat.toDigits 10 n, c.isDigit = true := fun c hc =>
    Nat.isDigit_of_mem_toDigits (by decide) (by decide) hc
  have hwhole : Number.whole? (Nat.toDigits 10 n) = some (Nat.toDigits 10 n, []) := by
    unfold Number.whole?
    split
    · rename_i rest hrest
      rw [hrest, toDigits_eq_zero_cons hrest]
    · exact digits?_of_forall Nat.toDigits_ne_nil hdigit
  unfold Number.ofText?
  split
  rename_i negative text htext
  split at htext
  · rename_i rest hrest
    exact absurd (hdigit '-' (by rw [hrest]; exact List.mem_cons_self)) (by decide)
  · obtain ⟨rfl, rfl⟩ := Prod.mk.inj htext
    rw [hwhole]
    rfl

/-- **A written count is read as a count**, if it fits a word. -/
theorem wordToken?_toDigits {n : Nat} (h : n < UInt64.size) :
    wordToken? (Nat.toDigits 10 n) = some (.leaf (.count n)) := by
  have hvalue : Number.value (Nat.toDigits 10 n) = n :=
    Nat.ofDigitChars_toDigits (by decide) (by decide)
  have hname : ∀ first more, first.isDigit = false → Nat.toDigits 10 n ≠ first :: more := by
    intro first more hfirst heq
    have hdigit : first.isDigit = true := Nat.isDigit_of_mem_toDigits (b := 10) (n := n)
      (by decide) (by decide) (by rw [heq]; exact List.mem_cons_self)
    exact absurd (hdigit.symm.trans hfirst) (by decide)
  have hnull : Nat.toDigits 10 n ≠ "null".toList := hname 'n' ['u', 'l', 'l'] rfl
  have htrue : Nat.toDigits 10 n ≠ "true".toList := hname 't' ['r', 'u', 'e'] rfl
  have hfalse : Nat.toDigits 10 n ≠ "false".toList := hname 'f' ['a', 'l', 's', 'e'] rfl
  rw [wordToken?, if_neg hnull, if_neg htrue, if_neg hfalse, numberToken?, ofText?_toDigits,
    Option.map_some]
  simp [Number.isCount, hvalue, h]

/-! ### What stands between tokens -/

/-- What a word may stand in front of: the end of the text, or a character that no word is made
of. -/
def EndsWord (rest : List Char) : Prop :=
  ∀ c, rest.head? = some c → isWordChar c = false

theorem endsWord_cons {c : Char} (h : isWordChar c = false) (rest : List Char) :
    EndsWord (c :: rest) := by
  rintro _ ⟨⟩
  exact h

theorem endsWord_newLine (layout : Layout) (level : Nat) {rest : List Char} (h : EndsWord rest) :
    EndsWord (layout.newLine level ++ rest) := by
  cases layout with
  | compact => exact h
  | pretty => exact endsWord_cons (by decide) _

theorem scan?_space {c : Char} (h : isSpace c = true) (rest : List Char) :
    scan? .between (c :: rest) = scan? .between rest := by
  simp [scan?, step?, enter?, h]

theorem scan?_spaces {blanks : List Char} (h : ∀ c ∈ blanks, isSpace c = true)
    (rest : List Char) : scan? .between (blanks ++ rest) = scan? .between rest := by
  induction blanks with
  | nil => rfl
  | cons c blanks ih =>
    obtain ⟨hc, hblanks⟩ := List.forall_mem_cons.1 h
    rw [List.cons_append, scan?_space hc, ih hblanks]

theorem scan?_newLine (layout : Layout) (level : Nat) (rest : List Char) :
    scan? .between (layout.newLine level ++ rest) = scan? .between rest := by
  refine scan?_spaces (fun c hc => ?_) rest
  cases layout with
  | compact => exact absurd hc List.not_mem_nil
  | pretty =>
    rcases List.mem_cons.1 hc with rfl | hc
    · rfl
    · rw [List.eq_of_mem_replicate hc]
      rfl

theorem scan?_punctuation {c : Char} {token : Token}
    (h : enter? c = some ([token], .between)) (rest : List Char) :
    scan? .between (c :: rest) = (scan? .between rest).map (token :: ·) := by
  cases hrest : scan? .between rest <;> simp [scan?, step?, h, hrest]

theorem scan?_colon (layout : Layout) (rest : List Char) :
    scan? .between (layout.colon ++ rest) = (scan? .between rest).map (.colon :: ·) := by
  have hcolon := @scan?_punctuation ':' .colon rfl
  cases layout with
  | compact => exact hcolon rest
  | pretty => exact (hcolon (' ' :: rest)).trans (by rw [scan?_space rfl])

theorem enter?_of_isWordChar {c : Char} (h : isWordChar c = true) :
    enter? c = some ([], .word [c]) := by
  have hspace : isSpace c = false := by
    rw [← Bool.not_eq_true]
    intro hspace
    simp only [isSpace, Bool.or_eq_true, beq_iff_eq] at hspace
    rcases hspace with ((rfl | rfl) | rfl) | rfl <;> exact absurd h (by decide)
  have hquote : c ≠ '"' := by
    rintro rfl
    exact absurd h (by decide)
  simp [enter?, hspace, hquote, h]

/-- **A word is one token** if it stands in front of what ends it. -/
theorem scan?_word (word : List Char) (hne : word ≠ []) (hword : word.all isWordChar = true)
    {token : Token} (htoken : wordToken? word = some token) {rest : List Char}
    (hrest : EndsWord rest) :
    scan? .between (word ++ rest) = (scan? .between rest).map (token :: ·) := by
  have hread : ∀ more read, (∀ c ∈ more, isWordChar c = true) →
      scan? (.word read) (more ++ rest) = scan? (.word (more.reverse ++ read)) rest := by
    intro more
    induction more with
    | nil => exact fun read _ => rfl
    | cons c more ih =>
      intro read hmore
      obtain ⟨hc, hmore⟩ := List.forall_mem_cons.1 hmore
      have hstep : scan? (.word read) (c :: (more ++ rest)) =
          scan? (.word (c :: read)) (more ++ rest) := by
        simp [scan?, step?, hc]
      rw [List.cons_append, hstep, ih _ hmore]
      simp
  obtain ⟨first, more, rfl⟩ := List.exists_cons_of_ne_nil hne
  obtain ⟨hfirst, hmore⟩ := List.forall_mem_cons.1 (List.all_eq_true.1 hword)
  have henter : scan? .between (first :: (more ++ rest)) =
      scan? (.word [first]) (more ++ rest) := by
    simp [scan?, step?, enter?_of_isWordChar hfirst]
  have hback : (more.reverse ++ [first]).reverse = first :: more := by simp
  rw [List.cons_append, henter, hread more [first] hmore]
  cases rest with
  | nil => simp only [scan?, finish?, hback, htoken, Option.map_some]
  | cons c rest =>
    simp only [scan?, step?, hrest c rfl, hback, htoken]
    rcases enter? c with _ | ⟨tokens, scan⟩
    · rfl
    · cases hscan : scan? scan rest <;> simp [hscan]

/-! ### Values -/

namespace Value

/-- Whether a value that is neither array nor object is written for what it is. A count has to fit
a word, and what is not a count is not written by a format. -/
def isPlain : Value → Bool
  | count n => decide (n < UInt64.size)
  | number _ | unreadable => false
  | _ => true

mutual

/-- The tokens that make up a value. -/
def tokens : Value → List Token
  | array [] => [.beginArray, .endArray]
  | array (item :: items) => .beginArray :: item.tokens ++ itemTokens items ++ [.endArray]
  | object [] => [.beginObject, .endObject]
  | object ((name, value) :: fields) =>
    .beginObject :: .leaf (.string name) :: .colon :: value.tokens ++ fieldTokens fields ++
      [.endObject]
  | leaf => [.leaf leaf]

/-- The tokens of the further items of an array. -/
def itemTokens : List Value → List Token
  | [] => []
  | item :: items => .comma :: item.tokens ++ itemTokens items

/-- The tokens of the further fields of an object. -/
def fieldTokens : List (String × Value) → List Token
  | [] => []
  | (name, value) :: fields =>
    .comma :: .leaf (.string name) :: .colon :: value.tokens ++ fieldTokens fields

end

end Value

theorem endsWord_writeItems (layout : Layout) (level : Nat) (items : List Value)
    {rest : List Char} (h : EndsWord rest) :
    EndsWord (Value.writeItems layout level items ++ rest) := by
  cases items with
  | nil =>
    simp only [Value.writeItems, List.nil_append]
    exact h
  | cons item items =>
    simp only [Value.writeItems, List.cons_append]
    exact endsWord_cons (by decide) _

theorem endsWord_writeFields (layout : Layout) (level : Nat) (fields : List (String × Value))
    {rest : List Char} (h : EndsWord rest) :
    EndsWord (Value.writeFields layout level fields ++ rest) := by
  cases fields with
  | nil =>
    simp only [Value.writeFields, List.nil_append]
    exact h
  | cons field fields =>
    simp only [Value.writeFields, List.cons_append]
    exact endsWord_cons (by decide) _

mutual

/-- **A written value is read as its tokens**, in front of anything that ends a word. -/
theorem scan?_write (layout : Layout) (level : Nat) (value : Value)
    (hvalue : value.allLeaves Value.isPlain = true) {rest : List Char} (hrest : EndsWord rest) :
    scan? .between (value.write layout level ++ rest) =
      (scan? .between rest).map (value.tokens ++ ·) := by
  match value with
  | .null => exact scan?_word "null".toList (by decide) rfl rfl hrest
  | .bool true => exact scan?_word "true".toList (by decide) rfl rfl hrest
  | .bool false => exact scan?_word "false".toList (by decide) rfl rfl hrest
  | .count n =>
    have hword : (Nat.toDigits 10 n).all isWordChar = true := by
      refine List.all_eq_true.2 fun c hc => ?_
      have hdigit : c.isDigit = true := Nat.isDigit_of_mem_toDigits (by decide) (by decide) hc
      simp [isWordChar, Char.isAlphanum, hdigit]
    simp only [Value.allLeaves, Value.isPlain, decide_eq_true_eq] at hvalue
    exact scan?_word _ Nat.toDigits_ne_nil hword (wordToken?_toDigits hvalue) hrest
  | .string text => exact scan?_quote text rest
  | .number _ => exact absurd hvalue (by simp [Value.allLeaves, Value.isPlain])
  | .unreadable => exact absurd hvalue (by simp [Value.allLeaves, Value.isPlain])
  | .array [] =>
    simp only [Value.write, List.cons_append, List.nil_append]
    rw [scan?_punctuation (c := '[') rfl, scan?_punctuation (c := ']') rfl]
    simp [Value.tokens, Function.comp_def]
  | .array (item :: items) =>
    simp only [Value.allLeaves, Value.allItems, Bool.and_eq_true] at hvalue
    simp only [Value.write, List.cons_append, List.append_assoc, List.nil_append]
    rw [scan?_punctuation (c := '[') rfl, scan?_newLine,
      scan?_write layout (level + 1) item hvalue.1
        (endsWord_writeItems layout _ items (endsWord_newLine layout _ (endsWord_cons rfl _))),
      scan?_writeItems layout (level + 1) items hvalue.2
        (endsWord_newLine layout _ (endsWord_cons rfl _)),
      scan?_newLine, scan?_punctuation (c := ']') rfl]
    simp [Value.tokens, Function.comp_def]
  | .object [] =>
    simp only [Value.write, List.cons_append, List.nil_append]
    rw [scan?_punctuation (c := '\x7b') rfl, scan?_punctuation (c := '\x7d') rfl]
    simp [Value.tokens, Function.comp_def]
  | .object ((name, value) :: fields) =>
    simp only [Value.allLeaves, Value.allFields, Bool.and_eq_true] at hvalue
    simp only [Value.write, List.cons_append, List.append_assoc, List.nil_append]
    rw [scan?_punctuation (c := '\x7b') rfl, scan?_newLine, scan?_quote, scan?_colon,
      scan?_write layout (level + 1) value hvalue.1
        (endsWord_writeFields layout _ fields (endsWord_newLine layout _ (endsWord_cons rfl _))),
      scan?_writeFields layout (level + 1) fields hvalue.2
        (endsWord_newLine layout _ (endsWord_cons rfl _)),
      scan?_newLine, scan?_punctuation (c := '\x7d') rfl]
    simp [Value.tokens, Function.comp_def]

theorem scan?_writeItems (layout : Layout) (level : Nat) (items : List Value)
    (hitems : Value.allItems Value.isPlain items = true) {rest : List Char}
    (hrest : EndsWord rest) :
    scan? .between (Value.writeItems layout level items ++ rest) =
      (scan? .between rest).map (Value.itemTokens items ++ ·) := by
  match items with
  | [] => simp [Value.writeItems, Value.itemTokens]
  | item :: items =>
    simp only [Value.allItems, Bool.and_eq_true] at hitems
    simp only [Value.writeItems, List.cons_append, List.append_assoc]
    rw [scan?_punctuation (c := ',') rfl, scan?_newLine,
      scan?_write layout level item hitems.1 (endsWord_writeItems layout _ items hrest),
      scan?_writeItems layout level items hitems.2 hrest]
    simp [Value.itemTokens, Function.comp_def]

theorem scan?_writeFields (layout : Layout) (level : Nat) (fields : List (String × Value))
    (hfields : Value.allFields Value.isPlain fields = true) {rest : List Char}
    (hrest : EndsWord rest) :
    scan? .between (Value.writeFields layout level fields ++ rest) =
      (scan? .between rest).map (Value.fieldTokens fields ++ ·) := by
  match fields with
  | [] => simp [Value.writeFields, Value.fieldTokens]
  | (name, value) :: fields =>
    simp only [Value.allFields, Bool.and_eq_true] at hfields
    simp only [Value.writeFields, List.cons_append, List.append_assoc]
    rw [scan?_punctuation (c := ',') rfl, scan?_newLine, scan?_quote, scan?_colon,
      scan?_write layout level value hfields.1 (endsWord_writeFields layout _ fields hrest),
      scan?_writeFields layout level fields hfields.2 hrest]
    simp [Value.fieldTokens, Function.comp_def]

end

/-! ### One line -/

namespace Value

mutual

/-- **A value without layout stands on one line.** -/
theorem lineFeed_not_mem_write (level : Nat) (value : Value)
    (hvalue : value.allLeaves isPlain = true) : '\n' ∉ value.write .compact level := by
  match value with
  | .null => simp [write]
  | .bool true => simp [write]
  | .bool false => simp [write]
  | .count n =>
    intro hmem
    exact absurd (Nat.isDigit_of_mem_toDigits (b := 10) (by decide) (by decide) hmem) (by decide)
  | .string text => exact lineFeed_not_mem_quote text
  | .number _ => exact absurd hvalue (by simp [allLeaves, isPlain])
  | .unreadable => exact absurd hvalue (by simp [allLeaves, isPlain])
  | .array [] => simp [write]
  | .array (item :: items) =>
    simp only [allLeaves, allItems, Bool.and_eq_true] at hvalue
    have hitem := lineFeed_not_mem_write (level + 1) item hvalue.1
    have hitems := lineFeed_not_mem_writeItems (level + 1) items hvalue.2
    simp [write, Layout.newLine, hitem, hitems]
  | .object [] => simp [write]
  | .object ((name, value) :: fields) =>
    simp only [allLeaves, allFields, Bool.and_eq_true] at hvalue
    have hname := lineFeed_not_mem_quote name
    have hvalue' := lineFeed_not_mem_write (level + 1) value hvalue.1
    have hfields := lineFeed_not_mem_writeFields (level + 1) fields hvalue.2
    simp [write, Layout.newLine, Layout.colon, hname, hvalue', hfields]

theorem lineFeed_not_mem_writeItems (level : Nat) (items : List Value)
    (hitems : allItems isPlain items = true) : '\n' ∉ writeItems .compact level items := by
  match items with
  | [] => simp [writeItems]
  | item :: items =>
    simp only [allItems, Bool.and_eq_true] at hitems
    have hitem := lineFeed_not_mem_write level item hitems.1
    have hmore := lineFeed_not_mem_writeItems level items hitems.2
    simp [writeItems, Layout.newLine, hitem, hmore]

theorem lineFeed_not_mem_writeFields (level : Nat) (fields : List (String × Value))
    (hfields : allFields isPlain fields = true) : '\n' ∉ writeFields .compact level fields := by
  match fields with
  | [] => simp [writeFields]
  | (name, value) :: fields =>
    simp only [allFields, Bool.and_eq_true] at hfields
    have hname := lineFeed_not_mem_quote name
    have hvalue := lineFeed_not_mem_write level value hfields.1
    have hmore := lineFeed_not_mem_writeFields level fields hfields.2
    simp [writeFields, Layout.newLine, Layout.colon, hname, hvalue, hmore]

end

end Value

end LinePatch.Json
