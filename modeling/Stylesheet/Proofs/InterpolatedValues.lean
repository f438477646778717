import Stylesheet.Proofs.MappingPlaces

/-! What an interpolation writes of a value, next to the value in CSS. The two differ where a list inside stands in
brackets, which the interpolation leaves out, and where an item without text stands among others, which it separates
from them. They differ there in any case: neither can make up for the other, since brackets can be counted, and without
brackets the interpolation is the longer one. -/

namespace Stylesheet.Value

mutual

/-- The value and all values inside. -/
def parts : Value → List Value
  | list items separator bracketed => list items separator bracketed :: itemsParts items
  | map entries => map entries :: entriesParts entries
  | other => [other]

def itemsParts : List Value → List Value
  | [] => []
  | item :: rest => item.parts ++ itemsParts rest

def entriesParts : List (Value × Value) → List Value
  | [] => []
  | (key, value) :: rest => key.parts ++ value.parts ++ entriesParts rest

end

def isQuoted : Value → Bool
  | string _ quoted => quoted
  | _ => false

/-- Whether items stand in brackets. -/
def isBracketed : Value → Bool
  | list (_ :: _) _ bracketed => bracketed
  | _ => false

/-- Whether an item without text stands among others. Null is no item here. -/
def hasGap (places : Nat) : Value → Bool
  | list items _ _ =>
    let texts := interpolatedItems places items
    1 < texts.length && texts.contains ""
  | _ => false

/-- How many characters of a kind a text has. -/
def amount (kind : Char → Bool) (text : String) : Nat := text.toList.countP kind

def total (kind : Char → Bool) (texts : List String) : Nat := (texts.flatMap String.toList).countP kind

variable {kind : Char → Bool} {value : Value} {places : Nat} {text : String} {texts : List String}

theorem amount_empty (kind : Char → Bool) : amount kind "" = 0 := by
  rw [amount, String.toList_empty, List.countP_nil]

theorem total_cons (kind : Char → Bool) (text : String) (texts : List String) :
    total kind (text :: texts) = amount kind text + total kind texts := by
  rw [total, List.flatMap_cons, List.countP_append, amount, total]

theorem amount_intercalate (kind : Char → Bool) (separator : String) (texts : List String) :
    amount kind (separator.intercalate texts) = total kind texts + amount kind separator * (texts.length - 1) := by
  rw [amount, String.toList_intercalate]
  induction texts with
  | nil => rfl
  | cons text rest later =>
    cases rest with
    | nil => simp [total]
    | cons next rest =>
      rw [List.map_cons, List.intercalate_cons_of_ne_nil (by simp), List.countP_append, List.countP_append, later,
        total_cons kind text]
      simp only [List.length_cons, amount, Nat.add_sub_cancel]
      rw [Nat.mul_succ]
      omega

/-- An empty text that is left out is not missed. -/
theorem total_kept (kind : Char → Bool) (text : String) (texts : List String) :
    total kind (if text.isEmpty then texts else text :: texts) = amount kind text + total kind texts := by
  split
  next empty =>
    rw [String.isEmpty_iff.1 empty, amount_empty, Nat.zero_add]
  next => exact total_cons kind text texts

/-- All that has a text is kept, and with it the number of characters. -/
theorem total_filter (kind : Char → Bool) (texts : List String) :
    total kind (texts.filter (!·.isEmpty)) = total kind texts := by
  induction texts with
  | nil => rfl
  | cons text rest later =>
    have step := total_kept kind text (rest.filter (!·.isEmpty))
    rw [later, ← total_cons] at step
    rw [List.filter_cons, ← step]
    cases text.isEmpty <;> rfl

theorem eq_null_of_isNull (null : value.isNull = true) : value = .null := by
  cases value with
  | null => rfl
  | _ => cases null

theorem total_interpolatedItems (kind : Char → Bool) (places : Nat) (item : Value) (rest : List Value) :
    total kind (interpolatedItems places (item :: rest)) =
      amount kind (item.interpolated places) + total kind (interpolatedItems places rest) := by
  rw [interpolatedItems]
  split
  next null =>
    rw [eq_null_of_isNull null, interpolated, amount_empty, Nat.zero_add]
  next => exact total_cons kind _ _

/-- A value without items is written by an interpolation as it is in CSS. -/
theorem interpolated_of_no_items
    (none : ∀ item rest separator bracketed, value ≠ list (item :: rest) separator bracketed)
    (plain : value.isQuoted = false) (shown : css places false value = .ok text) :
    value.interpolated places = text ∧ ∀ part ∈ value.parts, part.isBracketed = false ∧ part.hasGap places = false := by
  have same : value.cssOrInspect places = text := by rw [cssOrInspect, shown]
  cases value with
  | string content quoted =>
    cases plain
    rw [css] at shown
    cases shown
    exact ⟨rfl, by simp [parts, isBracketed, hasGap]⟩
  | list items separator bracketed =>
    cases items with
    | nil => exact ⟨same, by simp [parts, itemsParts, isBracketed, hasGap, interpolatedItems]⟩
    | cons item rest => exact absurd rfl (none item rest separator bracketed)
  | map entries =>
    rw [css] at shown
    cases shown
  | null =>
    rw [css] at shown
    cases shown
    exact ⟨rfl, by simp [parts, isBracketed, hasGap]⟩
  | _ => exact ⟨same, by simp [parts, isBracketed, hasGap]⟩

theorem css_list {item : Value} {rest : List Value} {separator : Separator} {bracketed : Bool}
    (shown : css places false (list (item :: rest) separator bracketed) = .ok text) :
    ∃ texts, cssItems places false (item :: rest) = .ok texts ∧
      text = bracket bracketed ((separator.text false).intercalate texts) := by
  rw [css] at shown
  obtain ⟨texts, run, same⟩ := Css.Except.map_eq_ok shown
  exact ⟨texts, run, same.symm⟩

theorem cssItems_cons {item : Value} {rest : List Value}
    (shown : cssItems places false (item :: rest) = .ok texts) :
    ∃ text others, css places false item = .ok text ∧ cssItems places false rest = .ok others ∧
      texts = if text.isEmpty then others else text :: others := by
  rw [cssItems] at shown
  split at shown
  next => cases shown
  next text first =>
    obtain ⟨others, later, same⟩ := Css.Except.map_eq_ok shown
    exact ⟨text, others, first, later, same.symm⟩

theorem css_null (places : Nat) : css places false null = .ok "" := by rw [css]

/-! Brackets in CSS are counted. -/

def opens (c : Char) : Bool := c == '['

theorem opens_separator (separator : Separator) : amount opens (separator.text false) = 0 := by cases separator <;> rfl

theorem amount_bracket (bracketed : Bool) (text : String) :
    amount opens (bracket bracketed text) = amount opens text + if bracketed then 1 else 0 := by
  unfold amount bracket
  split
  · simp [opens, Nat.add_comm]
  · rfl

mutual

/-- An interpolation writes as many brackets as CSS has, or fewer if it leaves brackets of a list out. -/
theorem opens_css : (value : Value) → (text : String) → (∀ part ∈ value.parts, part.isQuoted = false) →
    css places false value = .ok text → amount opens (value.interpolated places) ≤ amount opens text ∧
      (amount opens text ≤ amount opens (value.interpolated places) → ∀ part ∈ value.parts, part.isBracketed = false)
  | list (item :: rest) separator bracketed, text, plain, shown => by
    obtain ⟨texts, run, rfl⟩ := css_list shown
    obtain ⟨-, inside⟩ := List.forall_mem_cons.1 plain
    obtain ⟨less, unbracketed⟩ := opens_cssItems (item :: rest) texts inside run
    rw [interpolated, amount_bracket, amount_intercalate, amount_intercalate, opens_separator, Nat.zero_mul,
      Nat.zero_mul, Nat.add_zero, Nat.add_zero, parts]
    refine ⟨Nat.le_add_right_of_le less, fun equal => List.forall_mem_cons.2 ⟨?_, unbracketed (by omega)⟩⟩
    cases bracketed with
    | false => rfl
    | true =>
      rw [if_pos rfl] at equal
      omega
  | list [] _ _, text, plain, shown | null, text, plain, shown | bool _, text, plain, shown
  | number _, text, plain, shown | color _, text, plain, shown | string _ _, text, plain, shown
  | map _, text, plain, shown | error _, text, plain, shown | warning _, text, plain, shown => by
    obtain ⟨rfl, fits⟩ := interpolated_of_no_items (by rintro _ _ _ _ ⟨⟩) (plain _ (by simp [parts])) shown
    exact ⟨Nat.le_refl _, fun _ part member => (fits part member).1⟩

theorem opens_cssItems : (items : List Value) → (texts : List String) →
    (∀ part ∈ itemsParts items, part.isQuoted = false) → cssItems places false items = .ok texts →
    total opens (interpolatedItems places items) ≤ total opens texts ∧
      (total opens texts ≤ total opens (interpolatedItems places items) →
        ∀ part ∈ itemsParts items, part.isBracketed = false)
  | [], texts, plain, shown => by
    cases shown
    exact ⟨Nat.le_refl _, fun _ => nofun⟩
  | item :: rest, texts, plain, shown => by
    obtain ⟨text, others, first, later, rfl⟩ := cssItems_cons shown
    obtain ⟨here, behind⟩ := List.forall_mem_append.1 plain
    obtain ⟨less, unbracketed⟩ := opens_css item text here first
    obtain ⟨less', unbracketed'⟩ := opens_cssItems rest others behind later
    rw [total_kept, total_interpolatedItems]
    refine ⟨Nat.add_le_add less less', fun equal => List.forall_mem_append.2 ⟨unbracketed ?_, unbracketed' ?_⟩⟩
    · omega
    · omega

end

/-! Without brackets the lengths are compared. -/

def counts (_ : Char) : Bool := true

theorem counts_separator (separator : Separator) : 0 < amount counts (separator.text false) := by
  cases separator <;> decide

/-- Only an empty text among others makes a difference. -/
theorem intercalate_filter (separator : String) (noGap : (1 < texts.length && texts.contains "") = false) :
    separator.intercalate (texts.filter (!·.isEmpty)) = separator.intercalate texts := by
  by_cases empty : "" ∈ texts
  · have alone : texts.length ≤ 1 := by simpa [empty] using noGap
    obtain ⟨text, rfl⟩ := List.length_eq_one_iff.1 (Nat.le_antisymm alone (List.length_pos_of_mem empty))
    obtain rfl := List.mem_singleton.1 empty
    rfl
  · have full : ∀ text ∈ texts, (!text.isEmpty) = true := fun text member => by
      simpa [String.isEmpty_iff] using fun same : text = "" => empty (same ▸ member)
    rw [List.filter_eq_self.2 full]

/-- An empty text among others is separated from them, and they are fewer without it. -/
theorem intercalate_filter_lt (separator : Separator) (gap : (1 < texts.length && texts.contains "") = true) :
    amount counts ((separator.text false).intercalate (texts.filter (!·.isEmpty))) <
      amount counts ((separator.text false).intercalate texts) := by
  obtain ⟨several, empty⟩ : 1 < texts.length ∧ "" ∈ texts := by simpa using gap
  have fewer : (texts.filter (!·.isEmpty)).length < texts.length :=
    List.length_filter_lt_length_iff_exists.2 ⟨"", empty, by decide⟩
  rw [amount_intercalate, amount_intercalate, total_filter]
  exact Nat.add_lt_add_left (Nat.mul_lt_mul_of_pos_left (by omega) (counts_separator separator)) _

theorem filter_interpolatedItems (places : Nat) (item : Value) (rest : List Value) :
    (interpolatedItems places (item :: rest)).filter (!·.isEmpty) =
      if (item.interpolated places).isEmpty then (interpolatedItems places rest).filter (!·.isEmpty)
      else item.interpolated places :: (interpolatedItems places rest).filter (!·.isEmpty) := by
  rw [interpolatedItems]
  split
  next null =>
    rw [eq_null_of_isNull null, interpolated]
    rfl
  next =>
    rw [List.filter_cons]
    cases (item.interpolated places).isEmpty <;> rfl

/-- What CSS has of an item, an interpolation has as well. -/
theorem length_kept_le {item : Value} (rest : List Value) (shown : css places false item = .ok text)
    (fewer : texts.length ≤ (interpolatedItems places rest).length) :
    (if text.isEmpty then texts else text :: texts).length ≤ (interpolatedItems places (item :: rest)).length := by
  cases null : item.isNull with
  | true =>
    rw [eq_null_of_isNull null, css_null] at shown
    cases shown
    rwa [interpolatedItems, if_pos null]
  | false =>
    rw [interpolatedItems, null, if_neg Bool.false_ne_true]
    split
    · exact Nat.le_succ_of_le fewer
    · exact Nat.succ_le_succ fewer

mutual

/-- A value without brackets is written as in CSS, or it is longer because of a gap. -/
theorem counts_css : (value : Value) → (text : String) → (∀ part ∈ value.parts, part.isQuoted = false) →
    (∀ part ∈ value.parts, part.isBracketed = false) → css places false value = .ok text →
    (value.interpolated places = text ∧ ∀ part ∈ value.parts, part.hasGap places = false) ∨
      (amount counts text < amount counts (value.interpolated places) ∧ ∃ part ∈ value.parts, part.hasGap places = true)
  | list (item :: rest) separator bracketed, text, plain, unbracketed, shown => by
    obtain ⟨texts, run, rfl⟩ := css_list shown
    obtain ⟨-, inside⟩ := List.forall_mem_cons.1 plain
    obtain ⟨rfl, unbracketed'⟩ := List.forall_mem_cons.1 unbracketed
    rw [interpolated, bracket, if_neg Bool.false_ne_true, parts]
    rcases counts_cssItems (item :: rest) texts inside unbracketed' run with ⟨rfl, noGaps⟩ | ⟨less, fewer, gap⟩
    · cases here : hasGap places (list (item :: rest) separator false) with
      | false => exact .inl ⟨(intercalate_filter _ here).symm, List.forall_mem_cons.2 ⟨here, noGaps⟩⟩
      | true => exact .inr ⟨intercalate_filter_lt separator here, _, List.mem_cons_self, here⟩
    · obtain ⟨part, member, gap⟩ := gap
      refine .inr ⟨?_, part, List.mem_cons_of_mem _ member, gap⟩
      rw [amount_intercalate, amount_intercalate]
      exact Nat.add_lt_add_of_lt_of_le less (Nat.mul_le_mul_left _ (Nat.sub_le_sub_right fewer 1))
  | list [] _ _, text, plain, _, shown | null, text, plain, _, shown | bool _, text, plain, _, shown
  | number _, text, plain, _, shown | color _, text, plain, _, shown | string _ _, text, plain, _, shown
  | map _, text, plain, _, shown | error _, text, plain, _, shown | warning _, text, plain, _, shown => by
    obtain ⟨same, fits⟩ := interpolated_of_no_items (by rintro _ _ _ _ ⟨⟩) (plain _ (by simp [parts])) shown
    exact .inl ⟨same, fun part member => (fits part member).2⟩

theorem counts_cssItems : (items : List Value) → (texts : List String) →
    (∀ part ∈ itemsParts items, part.isQuoted = false) → (∀ part ∈ itemsParts items, part.isBracketed = false) →
    cssItems places false items = .ok texts →
    (texts = (interpolatedItems places items).filter (!·.isEmpty) ∧
        ∀ part ∈ itemsParts items, part.hasGap places = false) ∨
      (total counts texts < total counts (interpolatedItems places items) ∧
        texts.length ≤ (interpolatedItems places items).length ∧ ∃ part ∈ itemsParts items, part.hasGap places = true)
  | [], texts, _, _, shown => by
    cases shown
    exact .inl ⟨rfl, nofun⟩
  | item :: rest, texts, plain, unbracketed, shown => by
    obtain ⟨text, others, first, later, rfl⟩ := cssItems_cons shown
    obtain ⟨plain, plain'⟩ := List.forall_mem_append.1 plain
    obtain ⟨unbracketed, unbracketed'⟩ := List.forall_mem_append.1 unbracketed
    rcases counts_css item text plain unbracketed first with ⟨same, noGap⟩ | ⟨less, part, member, gap⟩
    · rcases counts_cssItems rest others plain' unbracketed' later with ⟨rfl, noGaps⟩ | ⟨less, fewer, part, member, gap⟩
      · exact .inl ⟨by rw [filter_interpolatedItems, same], List.forall_mem_append.2 ⟨noGap, noGaps⟩⟩
      · refine .inr ⟨?_, length_kept_le rest first fewer, part, List.mem_append_right _ member, gap⟩
        rw [total_kept, total_interpolatedItems, same]
        exact Nat.add_lt_add_left less _
    · have most : total counts others ≤ total counts (interpolatedItems places rest) ∧
          others.length ≤ (interpolatedItems places rest).length := by
        rcases counts_cssItems rest others plain' unbracketed' later with ⟨rfl, -⟩ | ⟨less, fewer, -⟩
        · exact ⟨Nat.le_of_eq (total_filter _ _), List.length_filter_le _ _⟩
        · exact ⟨Nat.le_of_lt less, fewer⟩
      refine .inr ⟨?_, length_kept_le rest first most.2, part, List.mem_append_left _ member, gap⟩
      rw [total_kept, total_interpolatedItems]
      exact Nat.add_lt_add_of_lt_of_le less most.1

end

/-- A value without quoted strings is written by an interpolation as it is in CSS exactly if no list inside has items in
brackets and in none a text that is empty stands among others. -/
theorem interpolated_eq_css_iff (value : Value) (places : Nat) (text : String)
    (plain : ∀ part ∈ value.parts, part.isQuoted = false) (shown : css places false value = .ok text) :
    value.interpolated places = text ↔
      ∀ part ∈ value.parts, part.isBracketed = false ∧ part.hasGap places = false := by
  constructor
  · intro same
    have unbracketed := (opens_css value text plain shown).2 (same ▸ Nat.le_refl _)
    rcases counts_css value text plain unbracketed shown with ⟨-, noGaps⟩ | ⟨less, -⟩
    · exact fun part member => ⟨unbracketed part member, noGaps part member⟩
    · rw [same] at less
      exact absurd less (Nat.lt_irrefl _)
  · intro fits
    rcases counts_css value text plain (fun part member => (fits part member).1) shown with
      ⟨same, -⟩ | ⟨-, part, member, gap⟩
    · exact same
    · rw [(fits part member).2] at gap
      cases gap

/-- Lists in a list, one of them empty and in brackets, and a null. -/
theorem interpolated_eq_css_nested :
    let value := list [list [unquoted "x", bool true] .comma false, null, list [] .space true] .space false
    (∀ part ∈ value.parts, part.isQuoted = false) ∧ css 5 false value = .ok "x, true []" ∧
      value.interpolated 5 = "x, true []" := by
  intro value
  have plain : ∀ part ∈ value.parts, part.isQuoted = false := by decide
  have shown : css 5 false value = .ok "x, true []" := rfl
  have fits : ∀ part ∈ value.parts, part.isBracketed = false ∧ part.hasGap 5 = false := by decide
  exact ⟨plain, shown, (interpolated_eq_css_iff value 5 _ plain shown).2 fits⟩

/-- An interpolation leaves brackets out, and it separates what has no text. -/
theorem interpolated_unlike_css :
    ∃ bracketed gapped : Value, (∀ part ∈ bracketed.parts ++ gapped.parts, part.isQuoted = false) ∧
      css 5 false bracketed = .ok "[x y]" ∧ bracketed.interpolated 5 = "x y" ∧
      css 5 false gapped = .ok "a, b" ∧ gapped.interpolated 5 = "a, , b" := by
  refine ⟨list [unquoted "x", unquoted "y"] .space true, list [unquoted "a", unquoted "", unquoted "b"] .comma false,
    by decide, ?_, ?_, ?_, ?_⟩ <;> decide

end Stylesheet.Value
