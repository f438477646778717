import Stylesheet.Builtin.Table
import Stylesheet.Operator
import Stylesheet.Proofs.MappingPlaces
import Stylesheet.Proofs.UnitCancelling

/-! Numbers that are computed from literals. A literal has one unit name at most, and whatever an operator or a built-in
function makes of its operands has the unit of one of them, no unit, a percent sign, or a product or quotient that was
cancelled. So no number ever has a unit above the line that is convertible to one below it. -/

namespace Stylesheet

namespace Value

/-- A number stands in a value, however deep. -/
inductive Holds (n : Number) : Value → Prop
  | number : Holds n (.number n)
  | item {items : List Value} {separator : Separator} {bracketed : Bool} {item : Value} (member : item ∈ items)
    (inside : Holds n item) : Holds n (.list items separator bracketed)
  | key {entries : List (Value × Value)} {entry : Value × Value} (member : entry ∈ entries)
    (inside : Holds n entry.1) : Holds n (.map entries)
  | value {entries : List (Value × Value)} {entry : Value × Value} (member : entry ∈ entries)
    (inside : Holds n entry.2) : Holds n (.map entries)

/-- All numbers in a value have units in lowest terms. -/
def InLowestTerms (value : Value) : Prop := ∀ n, value.Holds n → n.unit.Reduced

variable {n : Number} {items : List Value} {entries : List (Value × Value)} {separator : Separator} {bracketed : Bool}

@[simp] theorem inLowestTerms_null : null.InLowestTerms := nofun

@[simp] theorem inLowestTerms_bool (b : Bool) : (bool b).InLowestTerms := nofun

@[simp] theorem inLowestTerms_color (c : Color) : (color c).InLowestTerms := nofun

@[simp] theorem inLowestTerms_string (text : String) (quoted : Bool) : (string text quoted).InLowestTerms := nofun

@[simp] theorem inLowestTerms_unquoted (text : String) : (unquoted text).InLowestTerms := nofun

@[simp] theorem inLowestTerms_number : (number n).InLowestTerms ↔ n.unit.Reduced :=
  ⟨fun all => all n .number, fun reduced _ holds => by cases holds; exact reduced⟩

@[simp] theorem inLowestTerms_list :
    (list items separator bracketed).InLowestTerms ↔ ∀ item ∈ items, item.InLowestTerms := by
  refine ⟨fun all item member n inside => all n (.item member inside), fun each n holds => ?_⟩
  cases holds with
  | item member inside => exact each _ member n inside

@[simp] theorem inLowestTerms_map :
    (map entries).InLowestTerms ↔ ∀ entry ∈ entries, entry.1.InLowestTerms ∧ entry.2.InLowestTerms := by
  refine ⟨fun all entry member =>
      ⟨fun n inside => all n (.key member inside), fun n inside => all n (.value member inside)⟩,
    fun each n holds => ?_⟩
  cases holds with
  | key member inside => exact (each _ member).1 n inside
  | value member inside => exact (each _ member).2 n inside

/-- A value is seen as a list of values that it holds. -/
theorem items_inLowestTerms {value : Value} (reduced : value.InLowestTerms) :
    ∀ item ∈ value.items, item.InLowestTerms := by
  match value with
  | .list items separator bracketed => exact inLowestTerms_list.1 reduced
  | .map entries =>
    refine List.forall_mem_map.2 fun entry member => ?_
    have both := inLowestTerms_map.1 reduced entry member
    simp [pair, both]
  | .null | .bool _ | .number _ | .color _ | .string _ _ | .error _ | .warning _ =>
    exact List.forall_mem_singleton.2 reduced

theorem lookup_inLowestTerms {key value : Value} (reduced : (map entries).InLowestTerms)
    (found : lookup key entries = some value) : value.InLowestTerms := by
  induction entries with
  | nil => cases found
  | cons entry entries later =>
    obtain ⟨here, behind⟩ := List.forall_mem_cons.1 (inLowestTerms_map.1 reduced)
    rw [lookup] at found
    split at found
    · cases found
      exact here.2
    · exact later (inLowestTerms_map.2 behind) found

theorem insert_inLowestTerms {key value : Value} (reduced : (map entries).InLowestTerms) (newKey : key.InLowestTerms)
    (newValue : value.InLowestTerms) : (map (insert key value entries)).InLowestTerms := by
  induction entries with
  | nil => simp [insert, newKey, newValue]
  | cons entry entries later =>
    obtain ⟨here, behind⟩ := List.forall_mem_cons.1 (inLowestTerms_map.1 reduced)
    rw [insert]
    split
    · exact inLowestTerms_map.2 (List.forall_mem_cons.2 ⟨⟨here.1, newValue⟩, behind⟩)
    · have rest := inLowestTerms_map.1 (later (inLowestTerms_map.2 behind))
      exact inLowestTerms_map.2 (List.forall_mem_cons.2 ⟨here, rest⟩)

/-- The entries of one map put into another one. -/
theorem merge_inLowestTerms {first second : List (Value × Value)} (reduced : (map first).InLowestTerms)
    (more : (map second).InLowestTerms) : (map (Builtin.merge first second)).InLowestTerms := by
  induction second generalizing first with
  | nil => exact reduced
  | cons entry second later =>
    obtain ⟨here, behind⟩ := List.forall_mem_cons.1 (inLowestTerms_map.1 more)
    exact later (insert_inLowestTerms reduced here.1 here.2) (inLowestTerms_map.2 behind)

/-! Operators -/

variable {places : Nat} {left right result : Value}

theorem textual_inLowestTerms {op : BinaryOp} (ran : textual places op left right = .ok result) :
    result.InLowestTerms := by
  unfold textual at ran
  split at ran
  · split at ran <;> cases ran
    exact inLowestTerms_string _ _
  · split at ran <;> cases ran
    exact inLowestTerms_unquoted _
  · split at ran <;> cases ran
    exact inLowestTerms_unquoted _
  · cases ran

theorem relation_inLowestTerms {op : BinaryOp} {holds : Ordering → Bool}
    (ran : relation places op holds left right = .ok result) : result.InLowestTerms := by
  unfold relation at ran
  split at ran
  · split at ran <;> cases ran
    exact inLowestTerms_bool _
  · cases ran

theorem ofNumber_inLowestTerms {op : Float → Float → Float} {a b : Number} (first : a.unit.Reduced)
    (second : b.unit.Reduced) (ran : ofNumber (Number.combine op a b) = .ok result) : result.InLowestTerms := by
  cases combined : Number.combine op a b with
  | error mismatch =>
    rw [combined] at ran
    cases ran
  | ok sum =>
    rw [combined] at ran
    cases ran
    rw [inLowestTerms_number]
    rcases Number.unit_combine combined with same | same
    · rwa [same]
    · rwa [same]

theorem ofChannels_inLowestTerms (op : Float → Float → Float) (c : Color) (red green blue : Float) :
    (ofChannels op c red green blue).InLowestTerms := inLowestTerms_color _

mutual

/-- Lists work item by item, and what is no arithmetic is text. -/
theorem arithmetic_inLowestTerms (op : BinaryOp) (compute : Float → Float → Float) : (left right : Value) →
    left.InLowestTerms → right.InLowestTerms → ∀ result, arithmetic places op compute left right = .ok result →
      result.InLowestTerms
  | .error _, _, _, _, _, ran => by cases ran
  | .number a, right, first, second, result, ran => by
    have reducedLeft := inLowestTerms_number.1 first
    cases right with
    | error message => cases ran
    | number b =>
      have reducedRight := inLowestTerms_number.1 second
      cases op with
      | mul =>
        cases ran
        exact inLowestTerms_number.2 (Number.reduced_mul a b)
      | div =>
        cases ran
        exact inLowestTerms_number.2 (Number.reduced_div a b)
      | _ => exact ofNumber_inLowestTerms reducedLeft reducedRight ran
    | color c =>
      rw [arithmetic] at ran
      split at ran
      · cases ran
        exact ofChannels_inLowestTerms _ _ _ _ _
      · exact textual_inLowestTerms ran
    | _ => exact textual_inLowestTerms ran
  | .color a, right, _, _, result, ran => by
    cases right with
    | error message => cases ran
    | color b =>
      rw [arithmetic] at ran
      split at ran <;> cases ran
      exact ofChannels_inLowestTerms _ _ _ _ _
    | number n =>
      rw [arithmetic] at ran
      split at ran
      · cases ran
        exact ofChannels_inLowestTerms _ _ _ _ _
      · exact textual_inLowestTerms ran
    | _ => exact textual_inLowestTerms ran
  | .list items separator bracketed, right, first, second, result, ran => by
    cases right with
    | error message => cases ran
    | list others separator' bracketed' =>
      rw [arithmetic] at ran
      split at ran
      · obtain ⟨results, each, same⟩ := Css.Except.map_eq_ok ran
        cases same
        exact inLowestTerms_list.2 (arithmeticItems_inLowestTerms op compute items others (inLowestTerms_list.1 first)
          (inLowestTerms_list.1 second) results each)
      · exact textual_inLowestTerms ran
    | _ => exact textual_inLowestTerms ran
  | .null, right, _, _, result, ran | .bool _, right, _, _, result, ran | .string _ _, right, _, _, result, ran
  | .map _, right, _, _, result, ran | .warning _, right, _, _, result, ran => by
    cases right with
    | error message => cases ran
    | _ => exact textual_inLowestTerms ran

theorem arithmeticItems_inLowestTerms (op : BinaryOp) (compute : Float → Float → Float) : (lefts rights : List Value) →
    (∀ item ∈ lefts, item.InLowestTerms) → (∀ item ∈ rights, item.InLowestTerms) →
      ∀ results, arithmeticItems places op compute lefts rights = .ok results → ∀ item ∈ results, item.InLowestTerms
  | [], _, _, _, _, ran => by
    cases ran
    exact nofun
  | _ :: _, [], _, _, _, ran => by
    cases ran
    exact nofun
  | left :: lefts, right :: rights, first, second, results, ran => by
    obtain ⟨leftHere, leftLater⟩ := List.forall_mem_cons.1 first
    obtain ⟨rightHere, rightLater⟩ := List.forall_mem_cons.1 second
    rw [arithmeticItems] at ran
    split at ran
    · next head known =>
      obtain ⟨tail, each, same⟩ := Css.Except.map_eq_ok ran
      cases same
      exact List.forall_mem_cons.2 ⟨arithmetic_inLowestTerms op compute left right leftHere rightHere head known,
        arithmeticItems_inLowestTerms op compute lefts rights leftLater rightLater tail each⟩
    · cases ran

end

theorem binary_inLowestTerms {op : BinaryOp} (first : left.InLowestTerms) (second : right.InLowestTerms)
    (ran : binary places op left right = .ok result) : result.InLowestTerms := by
  cases op with
  | eq | ne =>
    cases ran
    exact inLowestTerms_bool _
  | lt | le | gt | ge => exact relation_inLowestTerms ran
  | and | or =>
    cases ran
    split
    · assumption
    · assumption
  | add | sub | mul | div | rem => exact arithmetic_inLowestTerms _ _ left right first second result ran

theorem unary_inLowestTerms {op : UnaryOp} {operand : Value} (reduced : operand.InLowestTerms) :
    (unary places op operand).InLowestTerms := by
  unfold unary
  split
  · exact inLowestTerms_bool _
  · next n =>
      have unchanged : n.unit.Reduced := inLowestTerms_number.1 reduced
      exact inLowestTerms_number.2 unchanged
  · exact reduced
  · exact inLowestTerms_unquoted _
  · exact inLowestTerms_unquoted _

end Value

/-! Built-in functions -/

namespace Builtin

variable {α β ε : Type} {p : α → Prop} {q : β → Prop}

/-- What is computed, if anything is, has a property. -/
def Gives (p : α → Prop) (result : Except ε α) : Prop := ∀ value, result = .ok value → p value

namespace Gives

theorem any (result : Except ε α) : Gives (fun _ => True) result := fun _ _ => trivial

theorem pure {value : α} (holds : p value) : Gives p (Pure.pure value : Except ε α) := by
  rintro _ ⟨⟩
  exact holds

theorem throw {error : ε} : Gives p (throw error : Except ε α) := nofun

theorem bind {first : Except ε α} {next : α → Except ε β} (gives : Gives p first)
    (rest : ∀ value, p value → Gives q (next value)) :
    Gives q (first >>= next) := by
  intro result run
  obtain ⟨value, known, later⟩ := Css.Except.bind_eq_ok run
  exact rest value (gives value known) result later

/-- A first step of which nothing has to be known. -/
theorem behind {first : Except ε α} {next : α → Except ε β} (rest : ∀ value, Gives q (next value)) :
    Gives q (first >>= next) :=
  (any first).bind fun value _ => rest value

end Gives

/-- All arguments of a call are in lowest terms. -/
def Call.InLowestTerms (call : Call) : Prop := ∀ value, some value ∈ call.values → value.InLowestTerms

/-- A built-in function makes values in lowest terms from such values. -/
def Keeps (run : Call → Result) : Prop := ∀ call : Call, call.InLowestTerms → Gives Value.InLowestTerms (run call)

variable {call : Call}

theorem gives_required (reduced : call.InLowestTerms) (i : Nat) : Gives Value.InLowestTerms (call.required i) := by
  intro value found
  unfold Call.required Call.get? at found
  split at found
  · next known =>
    cases found
    obtain ⟨slot, there, same⟩ := Option.bind_eq_some_iff.1 known
    cases same
    exact reduced _ (List.mem_of_getElem? there)
  · cases found

theorem gives_number (reduced : call.InLowestTerms) (i : Nat) :
    Gives (fun n => n.unit.Reduced) (call.number i) := by
  refine (gives_required reduced i).bind fun value known => ?_
  split
  · exact .pure (Value.inLowestTerms_number.1 known)
  · exact .throw

theorem gives_map (reduced : call.InLowestTerms) (i : Nat) :
    Gives (fun entries => (Value.map entries).InLowestTerms) (call.map i) := by
  refine (gives_required reduced i).bind fun value known => ?_
  split
  · exact .pure known
  · exact .pure (Value.inLowestTerms_map.2 nofun)
  · exact .throw

/-- A number without a unit. -/
theorem inLowestTerms_unitless (value : Float) : (Value.number (Number.unitless value)).InLowestTerms :=
  Value.inLowestTerms_number.2 Units.reduced_none

theorem inLowestTerms_ofNat (n : Nat) : (Value.number (Number.ofNat n)).InLowestTerms := inLowestTerms_unitless _

/-- Functions on colors give colors, channels and texts. -/
theorem keeps_colors : ∀ run ∈ [rgb, rgba, hsl, hsla, red, green, blue, alpha, mix, lighten, darken, saturate,
    desaturate, adjustHue, grayscale, complement, invert, transparentize, opacify], Keeps run := by
  have color (c : Color) : Gives Value.InLowestTerms (.ok (.color c) : Result) := .pure (Value.inLowestTerms_color c)
  have channel (n : Nat) : Gives Value.InLowestTerms (.ok (.number (Number.ofNat n)) : Result) :=
    .pure (inLowestTerms_ofNat n)
  have either : Keeps alpha := by
    refine fun call _ => .behind fun value => ?_
    split
    · exact .pure (Value.inLowestTerms_unquoted _)
    · exact .behind fun _ => .pure (inLowestTerms_unitless _)
  have translucent : Keeps rgba := by
    intro call _
    unfold rgba
    split
    · exact .behind fun _ => color _
    · exact .behind fun _ => .behind fun _ => .behind fun _ => .behind fun _ => color _
  have gray : Keeps grayscale := by
    refine fun call _ => .behind fun value => ?_
    split
    · exact .pure (Value.inLowestTerms_unquoted _)
    · exact .behind fun _ => color _
  simp only [List.forall_mem_cons, List.not_mem_nil, false_implies, implies_true, and_true]
  refine ⟨?rgb, translucent, ?hsl, ?hsla, ?red, ?green, ?blue, either, ?mix, ?lighten, ?darken, ?saturate, ?desaturate,
    ?adjustHue, gray, ?complement, ?invert, ?transparentize, ?opacify⟩
  case red | green | blue => exact fun _ _ => .behind fun _ => channel _
  case complement => exact fun _ _ => .behind fun _ => color _
  case lighten | darken | saturate | desaturate | adjustHue | invert | transparentize | opacify =>
    exact fun _ _ => .behind fun _ => .behind fun _ => color _
  case rgb | hsl | mix => exact fun _ _ => .behind fun _ => .behind fun _ => .behind fun _ => color _
  case hsla => exact fun _ _ => .behind fun _ => .behind fun _ => .behind fun _ => .behind fun _ => color _

theorem keeps_percentage : Keeps percentage := by
  refine fun call _ => .behind fun n => ?_
  split
  · exact .pure (Value.inLowestTerms_number.2 (Units.reduced_single "%"))
  · exact .throw

/-- Rounding keeps the unit. -/
theorem keeps_onValue (change : Float → Float) : Keeps (onValue change) := fun _ reduced =>
  (gives_number reduced 0).bind fun _ known => .pure (Value.inLowestTerms_number.2 known)

/-- By induction on the numbers that are left; the best one so far is one of the arguments. -/
theorem gives_extremeOf {places : Nat} {wanted : Ordering} {best : Number} {values : List Value}
    (reduced : best.unit.Reduced) (more : ∀ value ∈ values, value.InLowestTerms) :
    Gives Value.InLowestTerms (extremeOf places wanted best values) := by
  induction values generalizing best with
  | nil => exact .pure (Value.inLowestTerms_number.2 reduced)
  | cons value rest later =>
    obtain ⟨here, behind⟩ := List.forall_mem_cons.1 more
    cases value with
    | number n =>
      have other := Value.inLowestTerms_number.1 here
      rw [extremeOf]
      split
      · refine later ?_ behind
        split
        · exact other
        · exact reduced
      · exact .throw
    | _ => exact .throw

theorem keeps_extreme (wanted : Ordering) : Keeps (extreme wanted) := by
  refine fun call reduced => (gives_required reduced 0).bind fun value known => ?_
  have items := Value.items_inLowestTerms known
  split
  · exact .throw
  · next same =>
    rw [same] at items
    obtain ⟨here, behind⟩ := List.forall_mem_cons.1 items
    exact gives_extremeOf (Value.inLowestTerms_number.1 here) behind
  · exact .throw

/-- Functions that tell something about their arguments. -/
theorem keeps_questions : ∀ run ∈ [unit, unitless, comparable, length, index, listSeparator, mapHasKey, typeOf, inspect,
    strLength, strIndex], Keeps run := by
  simp only [List.forall_mem_cons, List.not_mem_nil, false_implies, implies_true, and_true]
  refine ⟨?unit, ?unitless, ?comparable, ?length, ?index, ?separator, ?hasKey, ?typeOf, ?inspect, ?strLength, ?strIndex⟩
  case unit => exact fun _ _ => .behind fun _ => .pure (Value.inLowestTerms_string _ _)
  case unitless => exact fun _ _ => .behind fun _ => .pure (Value.inLowestTerms_bool _)
  case comparable | hasKey => exact fun _ _ => .behind fun _ => .behind fun _ => .pure (Value.inLowestTerms_bool _)
  case length | strLength => exact fun _ _ => .behind fun _ => .pure (inLowestTerms_ofNat _)
  case index =>
    refine fun _ _ => .behind fun _ => .behind fun _ => ?_
    split
    · exact .pure (inLowestTerms_ofNat _)
    · exact .pure Value.inLowestTerms_null
  case strIndex =>
    refine fun _ _ => .behind fun _ => .behind fun _ => ?_
    dsimp only
    split
    · exact .pure (inLowestTerms_ofNat _)
    · exact .pure Value.inLowestTerms_null
  case separator | typeOf | inspect => exact fun _ _ => .behind fun _ => .pure (Value.inLowestTerms_unquoted _)

/-- Functions that change texts. -/
theorem keeps_texts : ∀ run ∈ [quote, strSlice, onText String.toUpper, onText String.toLower], Keeps run := by
  have text (s : String) (quoted : Bool) : Gives Value.InLowestTerms (.ok (.string s quoted) : Result) :=
    .pure (Value.inLowestTerms_string s quoted)
  simp only [List.forall_mem_cons, List.not_mem_nil, false_implies, implies_true, and_true]
  refine ⟨?quote, ?slice, ?upper, ?lower⟩
  case quote | upper | lower => exact fun _ _ => .behind fun _ => text _ _
  case slice =>
    refine fun call _ => .behind fun _ => .behind fun _ => ?_
    dsimp only
    split
    · exact .behind fun _ => .behind fun _ => text _ _
    · exact .behind fun _ => text _ _

theorem keeps_unquote : Keeps unquote := by
  refine fun call reduced => (gives_required reduced 0).bind fun value known => ?_
  split
  · exact .pure (Value.inLowestTerms_unquoted _)
  · exact .pure known

theorem mem_of_itemAt? {items : List Value} {i : Int} {item : Value} (found : itemAt? items i = some item) :
    item ∈ items := by
  unfold itemAt? at found
  generalize (if i < 0 then (items.length : Int) + i else i - 1) = place at found
  dsimp only at found
  split at found
  · cases found
  · exact List.mem_of_getElem? found

theorem keeps_nth : Keeps nth := by
  refine fun call reduced => (gives_required reduced 0).bind fun list known => .behind fun n => ?_
  split
  · next item found =>
    split at found
    · exact .pure (Value.items_inLowestTerms known item (mem_of_itemAt? found))
    · cases found
  · exact .throw

theorem keeps_join : Keeps join := by
  refine fun call reduced => (gives_required reduced 0).bind fun first known => ?_
  refine (gives_required reduced 1).bind fun second known' => .behind fun _ => .pure ?_
  exact Value.inLowestTerms_list.2 (List.forall_mem_append.2
    ⟨Value.items_inLowestTerms known, Value.items_inLowestTerms known'⟩)

theorem keeps_append : Keeps append := by
  refine fun call reduced => (gives_required reduced 0).bind fun list known => .behind fun _ => ?_
  refine (gives_required reduced 1).bind fun value known' => .pure ?_
  exact Value.inLowestTerms_list.2 (List.forall_mem_append.2
    ⟨Value.items_inLowestTerms known, List.forall_mem_singleton.2 known'⟩)

theorem keeps_mapGet : Keeps mapGet := by
  refine fun call reduced => (gives_map reduced 0).bind fun entries known => .behind fun key => .pure ?_
  cases found : Value.lookup key entries with
  | none => exact Value.inLowestTerms_null
  | some value => exact Value.lookup_inLowestTerms known found

theorem keeps_mapMerge : Keeps mapMerge := fun _ reduced => (gives_map reduced 0).bind fun _ known =>
  (gives_map reduced 1).bind fun _ known' => .pure (Value.merge_inLowestTerms known known')

theorem keeps_mapKeys : Keeps mapKeys := fun _ reduced => (gives_map reduced 0).bind fun _ known =>
  .pure (Value.inLowestTerms_list.2
    (List.forall_mem_map.2 fun entry member => (Value.inLowestTerms_map.1 known entry member).1))

theorem keeps_mapValues : Keeps mapValues := fun _ reduced => (gives_map reduced 0).bind fun _ known =>
  .pure (Value.inLowestTerms_list.2
    (List.forall_mem_map.2 fun entry member => (Value.inLowestTerms_map.1 known entry member).2))

/-- Every built-in function keeps numbers in lowest terms. -/
theorem keeps_table : ∀ entry ∈ table, Keeps entry.2.run := by
  have colors := keeps_colors
  have questions := keeps_questions
  have texts := keeps_texts
  simp only [List.forall_mem_cons, List.not_mem_nil, false_implies, implies_true, and_true] at colors questions texts
  simp only [table, fixed, List.forall_mem_cons, List.not_mem_nil, false_implies, implies_true, and_true, colors,
    questions, texts, keeps_percentage, keeps_onValue, keeps_extreme, keeps_unquote, keeps_nth, keeps_join,
    keeps_append, keeps_mapGet, keeps_mapMerge, keeps_mapKeys, keeps_mapValues]

end Builtin

/-! Values that are computed -/

/-- A value is computed from literals: a number that is written has one unit name at most, and all else is made of
computed values by operators and built-in functions. Beside the functions of the table there are `if`, which chooses one
of two values, and the queries for names, which give booleans. -/
inductive Computed (places : Nat) : Value → Prop
  | number (value : Float) (name : String) : Computed places (.number ⟨value, Units.single name⟩)
  | null : Computed places .null
  | bool (b : Bool) : Computed places (.bool b)
  | color (c : Color) : Computed places (.color c)
  | string (text : String) (quoted : Bool) : Computed places (.string text quoted)
  | list {items : List Value} (separator : Separator) (bracketed : Bool) (each : ∀ item ∈ items, Computed places item) :
    Computed places (.list items separator bracketed)
  | map {entries : List (Value × Value)} (keys : ∀ entry ∈ entries, Computed places entry.1)
    (values : ∀ entry ∈ entries, Computed places entry.2) : Computed places (.map (Value.ofEntries entries))
  | binary {op : BinaryOp} {left right result : Value} (first : Computed places left) (second : Computed places right)
    (ran : Value.binary places op left right = .ok result) : Computed places result
  | unary {op : UnaryOp} {operand : Value} (computed : Computed places operand) :
    Computed places (Value.unary places op operand)
  | builtin {name : String} {builtin : Builtin} {values : List (Option Value)} {result : Value}
    (known : (name, builtin) ∈ Builtin.table) (arguments : ∀ value, some value ∈ values → Computed places value)
    (ran : builtin.run ⟨builtin.parameters, values, places⟩ = .ok result) : Computed places result

/-- By induction on how the value is computed. -/
theorem Computed.inLowestTerms {places : Nat} {value : Value} (computed : Computed places value) :
    value.InLowestTerms := by
  induction computed with
  | number value name => exact Value.inLowestTerms_number.2 (Units.reduced_single name)
  | null => exact Value.inLowestTerms_null
  | bool b => exact Value.inLowestTerms_bool b
  | color c => exact Value.inLowestTerms_color c
  | string text quoted => exact Value.inLowestTerms_string text quoted
  | list separator bracketed _ each => exact Value.inLowestTerms_list.2 each
  | map _ _ keys values =>
    have reduced := Value.inLowestTerms_map.2 fun entry member => ⟨keys entry member, values entry member⟩
    exact Value.merge_inLowestTerms (Value.inLowestTerms_map.2 nofun) reduced
  | binary _ _ ran first second => exact Value.binary_inLowestTerms first second ran
  | unary _ reduced => exact Value.unary_inLowestTerms reduced
  | @builtin name builtin values result known _ ran arguments =>
    have call : Builtin.Call.InLowestTerms ⟨builtin.parameters, values, places⟩ := arguments
    exact Builtin.keeps_table _ known _ call _ ran

/-- Names that are convertible form classes. A product has the sum and a quotient the difference of the exponents for
every class, both are in lowest terms, and so is every number that is computed from literals. -/
theorem units_in_lowest_terms : Equivalence Convertible ∧
    (∀ (a b : Number) (name : String),
      (a.mul b).unit.exponent name = a.unit.exponent name + b.unit.exponent name ∧
        (a.div b).unit.exponent name = a.unit.exponent name - b.unit.exponent name) ∧
    (∀ a b : Number, (a.mul b).unit.Reduced ∧ (a.div b).unit.Reduced) ∧
    ∀ places value, Computed places value → ∀ n, value.Holds n → n.unit.Reduced :=
  ⟨convertible_equivalence, fun a b name => ⟨a.exponent_mul b name, a.exponent_div b name⟩,
    fun a b => ⟨a.reduced_mul b, a.reduced_div b⟩, fun _ _ computed => computed.inLowestTerms⟩

/-- Inches cancel against pixels in the product of pixels and a font size over inches, and rounding leaves the unit. -/
theorem units_in_lowest_terms_rounded :
    let product := Number.mul ⟨3, Units.single "px"⟩ ⟨2, Units.single "em"⟩
    let quotient := Number.div product ⟨4, Units.single "In"⟩
    let rounded : Number := { quotient with value := Decimal.round quotient.value }
    product.unit = ⟨["px", "em"], []⟩ ∧ rounded.unit = ⟨["em"], []⟩ ∧ Computed 5 (.number rounded) ∧
      rounded.unit.Reduced := by
  intro product quotient rounded
  have multiplied : Value.binary 5 .mul (.number ⟨3, Units.single "px"⟩) (.number ⟨2, Units.single "em"⟩) =
      .ok (.number product) := rfl
  have divided : Value.binary 5 .div (.number product) (.number ⟨4, Units.single "In"⟩) = .ok (.number quotient) := rfl
  have computed : Computed 5 (.number quotient) :=
    .binary (.binary (.number 3 "px") (.number 2 "em") multiplied) (.number 4 "In") divided
  have known : ("round", Builtin.fixed ["number"] (Builtin.onValue Decimal.round)) ∈ Builtin.table := by
    simp [Builtin.table]
  have last : Computed 5 (.number rounded) := by
    have arguments : ∀ value, some value ∈ [some (Value.number quotient)] → Computed 5 value := by
      rintro value member
      obtain rfl := Option.some.inj (List.mem_singleton.1 member)
      exact computed
    exact .builtin known arguments rfl
  exact ⟨by decide +kernel, by decide +kernel, last, units_in_lowest_terms.2.2.2 5 _ last rounded .number⟩

end Stylesheet
