import LinePatch.Json.Record
import LinePatch.Proofs.Json.Tokens

/-!
# Values, written and read

The machine that puts a value together takes the tokens of a value, whatever is open around it, to
where it stands after that value. With the tokens of a written value this makes reading the inverse
of writing, in either layout. A value of the formats is not deep and has nothing unreadable inside,
so that it may also be looked at as a whole, which is how the tag of a tagged value is found.

## Main definitions

* `Json.ReadsBack`: a form that a value is written in and read from.

## Main results

* `Json.State.foldlM_tokens`: the machine on the tokens of a value.
* `Json.Value.ofText?_toText_append`: a written value is read back, also in front of blanks.
* `Json.Value.tagged?_object`: the tag of a tagged value.
-/

namespace LinePatch.Json

namespace State

/-- No value begins with the end of an array, so that the first item of an array is read as any
other value. -/
theorem foldlM_tokens_firstItem (value : Value) (stack : List Open) :
    value.tokens.foldlM next? (.firstItem stack) =
      value.tokens.foldlM next? (.needValue (.array [] :: stack)) := by
  match value with
  | .null | .bool _ | .count _ | .number _ | .string _ | .unreadable => rfl
  | .array [] | .array (_ :: _) | .object [] | .object (_ :: _) =>
    simp [Value.tokens, List.foldlM_cons, next?]

/-- Fields with their names, as the machine keeps them. -/
def kept (fields : List (String × Value)) : List (Name × Value) :=
  fields.map fun field => (some field.1, field.2)

theorem ofFields_kept (fields : List (String × Value)) :
    Value.ofFields (kept fields) = .object fields := by
  have hfields : (kept fields).mapM (fun field => field.1.map (·, field.2)) = some fields := by
    induction fields with
    | nil => rfl
    | cons field fields ih => simp_all [kept]
  simp only [Value.ofFields, hfields]

mutual

/-- **The tokens of a value lead to where a complete value leads.** -/
theorem foldlM_tokens (value : Value) (stack : List Open) :
    value.tokens.foldlM next? (.needValue stack) = some (afterValue value stack) := by
  match value with
  | .null | .bool _ | .count _ | .number _ | .string _ | .unreadable => rfl
  | .array [] => rfl
  | .array (item :: items) =>
    have hitem := foldlM_tokens item (.array [] :: stack)
    have hitems := foldlM_itemTokens items stack [item]
    rw [← foldlM_tokens_firstItem] at hitem
    simp [Value.tokens, next?, beginValue?, hitem, afterValue, hitems]
  | .object [] => rfl
  | .object ((name, value) :: fields) =>
    have hvalue := foldlM_tokens value (.object [] (some name) :: stack)
    have hfields := foldlM_fieldTokens fields stack [(some name, value)]
    have hobject := ofFields_kept ((name, value) :: fields)
    simp only [kept, List.map_cons] at hobject hfields
    simp [Value.tokens, next?, beginValue?, name?, hvalue, afterValue, hfields, hobject]

/-- Further items are put in front of those that were read. -/
theorem foldlM_itemTokens (items : List Value) (stack : List Open) (read : List Value) :
    (Value.itemTokens items).foldlM next? (.afterItem stack read) =
      some (.afterItem stack (items.reverse ++ read)) := by
  match items with
  | [] => rfl
  | item :: items =>
    have hitem := foldlM_tokens item (.array read :: stack)
    have hitems := foldlM_itemTokens items stack (item :: read)
    simp [Value.itemTokens, next?, hitem, afterValue, hitems]

/-- Further fields are put in front of those that were read. -/
theorem foldlM_fieldTokens (fields : List (String × Value)) (stack : List Open)
    (read : List (Name × Value)) :
    (Value.fieldTokens fields).foldlM next? (.afterField stack read) =
      some (.afterField stack ((kept fields).reverse ++ read)) := by
  match fields with
  | [] => rfl
  | (name, value) :: fields =>
    have hvalue := foldlM_tokens value (.object read (some name) :: stack)
    have hfields := foldlM_fieldTokens fields stack ((some name, value) :: read)
    simp [Value.fieldTokens, next?, name?, hvalue, afterValue, hfields, kept]

end

end State

namespace Value

theorem ofTokens?_tokens (value : Value) : ofTokens? value.tokens = some value := by
  rw [ofTokens?, State.foldlM_tokens]
  rfl

/-- **A written value is read back**, whichever way it is laid out. Blanks may follow it. -/
theorem ofText?_toText_append (layout : Layout) {value : Value}
    (hvalue : value.allLeaves isPlain = true) (blanks : String)
    (hblanks : blanks.toList.all isSpace = true) :
    ofText? (value.toText layout ++ blanks) = some value := by
  have hend : EndsWord blanks.toList := by
    intro c hc
    have hspace := List.all_eq_true.1 hblanks c (List.mem_of_head? hc)
    simp only [isSpace, Bool.or_eq_true, beq_iff_eq] at hspace
    rcases hspace with ((rfl | rfl) | rfl) | rfl <;> decide
  have hnothing : scan? .between blanks.toList = some [] := by
    rw [← List.append_nil blanks.toList, scan?_spaces (List.all_eq_true.1 hblanks)]
    rfl
  have htokens : tokens? (value.toText layout ++ blanks) = some value.tokens := by
    rw [tokens?, String.toList_append, toText, String.toList_ofList,
      scan?_write layout 0 value hvalue hend, hnothing, Option.map_some, List.append_nil]
  rw [ofText?, htokens, Option.bind_eq_bind, Option.bind_some, ofTokens?_tokens]

theorem ofText?_toText (layout : Layout) {value : Value}
    (hvalue : value.allLeaves isPlain = true) : ofText? (value.toText layout) = some value := by
  have hread := ofText?_toText_append layout hvalue "" rfl
  rwa [String.append_empty] at hread

/-! ### What is looked at as a whole -/

section Whole

variable {holds : Value → Bool} {items : List Value} {fields : Fields} {bound : Nat}

theorem allItems_eq_true_iff :
    allItems holds items = true ↔ ∀ item ∈ items, item.allLeaves holds = true := by
  induction items with
  | nil => simp [allItems]
  | cons item items ih => simp [allItems, ih]

theorem allFields_eq_true_iff :
    allFields holds fields = true ↔ ∀ field ∈ fields, field.2.allLeaves holds = true := by
  induction fields with
  | nil => simp [allFields]
  | cons field fields ih => simp [allFields, ih]

theorem heightItems_le_iff : heightItems items ≤ bound ↔ ∀ item ∈ items, item.height ≤ bound := by
  induction items with
  | nil => simp [heightItems]
  | cons item items ih => rw [heightItems, Nat.max_le, ih, List.forall_mem_cons]

mutual

/-- What is plain can be looked at. -/
theorem allLeaves_isReadable (value : Value) (hvalue : value.allLeaves isPlain = true) :
    value.allLeaves isReadable = true := by
  match value with
  | .null | .bool _ | .count _ | .string _ => rfl
  | .number _ | .unreadable => exact absurd hvalue (by simp [allLeaves, isPlain])
  | .array items => exact allItems_isReadable items hvalue
  | .object fields => exact allFields_isReadable fields hvalue

theorem allItems_isReadable (items : List Value) (hitems : allItems isPlain items = true) :
    allItems isReadable items = true := by
  match items with
  | [] => rfl
  | item :: items =>
    simp only [allItems, Bool.and_eq_true] at hitems ⊢
    exact ⟨allLeaves_isReadable item hitems.1, allItems_isReadable items hitems.2⟩

theorem allFields_isReadable (fields : Fields) (hfields : allFields isPlain fields = true) :
    allFields isReadable fields = true := by
  match fields with
  | [] => rfl
  | (name, value) :: fields =>
    simp only [allFields, Bool.and_eq_true] at hfields ⊢
    exact ⟨allLeaves_isReadable value hfields.1, allFields_isReadable fields hfields.2⟩

end

/-- **The tag of a tagged value** is found in front of its fields. -/
theorem tagged?_object (names : List String) {key tag : String} {kinds : List Kind} {inner : Bool}
    (hplain : allFields isPlain fields = true) (hheight : heightFields fields < maxHeight)
    (hkey : given key fields = [])
    (hkind : (kinds.map fun kind => (kind.1, kind)).lookup tag = some (tag, names)) :
    (object ((key, ofEnum tag) :: fields)).tagged? key kinds inner =
      some (tag, (key, ofEnum tag) :: fields) := by
  have hgiven : given key ((key, ofEnum tag) :: fields) = [ofEnum tag] := by
    simpa [given] using hkey
  have hwhole : (object ((key, ofEnum tag) :: fields)).isWhole = true := by
    have hreadable := allFields_isReadable fields hplain
    simp only [isWhole, ofEnum, height, heightFields, allLeaves, allFields, isReadable, hreadable,
      Bool.and_true, decide_eq_true_eq]
    omega
  simp only [tagged?, hwhole, if_true, required, hgiven]
  simp only [named?, ofEnum, hkind, Option.map_some]

end Whole

end Value

/-! ### Forms -/

section Forms

variable {α : Type} {toJson : α → Value} {ofJson? : Value → Option α}

/-- A value is given back by the text that its form is written as, whichever way that is laid
out. -/
def ReadsBack (toJson : α → Value) (ofJson? : Value → Option α) (value : α) : Prop :=
  ∀ layout, (Value.ofText? ((toJson value).toText layout) >>= ofJson?) = some value

theorem readsBack_of_isPlain {value : α} (hplain : (toJson value).allLeaves Value.isPlain = true)
    (hread : ofJson? (toJson value) = some value) : ReadsBack toJson ofJson? value := by
  intro layout
  rw [Value.ofText?_toText layout hplain, Option.bind_eq_bind, Option.bind_some, hread]

/-- What is read from all values of a list, each of them written, is the list. -/
theorem mapM_map_of_forall {β : Type} {write : α → β} {read? : β → Option α} {list : List α}
    (h : ∀ value ∈ list, read? (write value) = some value) :
    (list.map write).mapM read? = some list := by
  induction list with
  | nil => rfl
  | cons value list ih =>
    obtain ⟨hvalue, hlist⟩ := List.forall_mem_cons.1 h
    simp [hvalue, ih hlist]

end Forms

end LinePatch.Json
