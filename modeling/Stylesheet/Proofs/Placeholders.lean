import Stylesheet.Proofs.SelectorNesting

/-! Placeholders in nested rules. Nesting keeps every placeholder of the selectors that it puts together and makes no
new one, so it does not matter whether the selectors with placeholders are left out before the nesting or behind it. -/

namespace Stylesheet

namespace Selector

/-- The selector that a rule inside of others has for this choice of one selector from each, the outermost first. -/
inductive Combines : List Selector → Selector → Prop
  | outermost (selector : Selector) : Combines [selector] selector
  | nested {origins : List Selector} {parent child selector : Selector} (outer : Combines origins parent)
      (ran : within parent child = .ok selector) : Combines (origins ++ [child]) selector

variable {parent child result : Selector} {base compound grafted : Compound} {isFirst : Bool} {links : List Link}

/-- Whether one of the links holds a placeholder. -/
def anyPlaceholder (links : List Link) : Bool := links.any fun link => link.compound.any Simple.isPlaceholder

theorem anyPlaceholder_append (first second : List Link) :
    anyPlaceholder (first ++ second) = (anyPlaceholder first || anyPlaceholder second) := List.any_append

theorem anyPlaceholder_singleton (compound : Compound) (combinator : Combinator) :
    anyPlaceholder [⟨compound, combinator⟩] = compound.any Simple.isPlaceholder := by
  simp [anyPlaceholder]

/-- A longer name is of the same kind. -/
theorem continued_isPlaceholder {last longer : Simple} {more : String} (continued : last.continued more = some longer) :
    longer.isPlaceholder = last.isPlaceholder := by
  cases last <;> cases continued <;> rfl

theorem graft_anyPlaceholder (ran : graft base isFirst compound = .ok grafted) :
    grafted.any Simple.isPlaceholder = (base.any Simple.isPlaceholder || compound.any Simple.isPlaceholder) := by
  induction compound generalizing base isFirst with
  | nil =>
    cases ran
    simp
  | cons simple compound later =>
    unfold graft at ran
    split at ran
    next same => cases same
    next more rest same =>
      cases same
      split at ran
      next longer found =>
        obtain ⟨last, final, continued⟩ := Option.bind_eq_some_iff.1 found
        have begun : (base.dropLast ++ [longer]).any Simple.isPlaceholder = base.any Simple.isPlaceholder := by
          conv => rhs; rw [← List.dropLast_append_getLast? last final]
          simp [continued_isPlaceholder continued]
        rw [later ran, begun, List.any_cons]
        rfl
      next => cases ran
    next same =>
      cases same
      rw [later ran, List.any_cons]
      rfl
    next same =>
      cases same
      rw [later ran, List.any_append, List.any_cons, List.any_cons, List.any_nil, Bool.or_false, Bool.or_assoc]

theorem anyPlaceholder_withLast (links : List Link) (combinator : Combinator) :
    anyPlaceholder (withLast links combinator) = anyPlaceholder links := by
  rcases List.eq_nil_or_concat' links with rfl | ⟨before, last, rfl⟩
  · rfl
  · simp [withLast_concat, anyPlaceholder]

/-- A link with a reference brings in the placeholders of the parent. -/
theorem Link.within_anyPlaceholder {link : Link} (ran : link.within parent = .ok links) :
    anyPlaceholder links = ((link.compound.any Simple.isParent && parent.hasPlaceholder) ||
      link.compound.any Simple.isPlaceholder) := by
  unfold Link.within at ran
  split at ran
  next refers =>
    rw [refers, Bool.true_and]
    split at ran
    next missing =>
      cases ran
      rw [hasPlaceholder, List.getLast?_eq_none_iff.1 missing, List.any_nil, Bool.false_or, anyPlaceholder_singleton]
    next last final =>
      split at ran
      next compound grafted =>
        cases ran
        have outer : parent.hasPlaceholder =
            (anyPlaceholder parent.links.dropLast || last.compound.any Simple.isPlaceholder) := by
          rw [hasPlaceholder, ← anyPlaceholder]
          conv => lhs; rw [← List.dropLast_append_getLast? last final]
          rw [anyPlaceholder_append, anyPlaceholder_singleton]
        rw [anyPlaceholder_append, anyPlaceholder_singleton, graft_anyPlaceholder grafted, outer, Bool.or_assoc]
      next => cases ran
  next plain =>
    cases ran
    rw [Bool.eq_false_iff.2 plain, Bool.false_and, Bool.false_or, anyPlaceholder_singleton]

theorem flatten_anyPlaceholder {inner : List Link} {groups : List (List Link)}
    (each : List.Forall₂ (fun link links => link.within parent = .ok links) inner groups) :
    anyPlaceholder groups.flatten =
      ((inner.any (·.compound.any Simple.isParent) && parent.hasPlaceholder) || anyPlaceholder inner) := by
  induction each with
  | nil => rfl
  | @cons link _ inner _ ran _ later =>
    rw [List.flatten_cons, anyPlaceholder_append, Link.within_anyPlaceholder ran, later, List.any_cons,
      anyPlaceholder, anyPlaceholder, List.any_cons, Bool.and_or_distrib_right]
    simp only [Bool.or_assoc, Bool.or_left_comm]

/-- A nested selector has the placeholders of the two that it is put together from, and no others. -/
theorem within_hasPlaceholder (ran : within parent child = .ok result) :
    result.hasPlaceholder = (parent.hasPlaceholder || child.hasPlaceholder) := by
  by_cases refers : child.refersToParent = true
  · obtain ⟨groups, each, rfl⟩ := (within_refers refers).1 ran
    have kept := flatten_anyPlaceholder each
    rwa [← refersToParent, refers, Bool.true_and] at kept
  · rw [within, if_neg refers] at ran
    split at ran
    next combinator rest begins =>
      cases ran
      have inner : child.hasPlaceholder = anyPlaceholder rest := by
        rw [hasPlaceholder, begins]
        rfl
      rw [inner]
      exact (anyPlaceholder_append _ _).trans (congrArg (· || _) (anyPlaceholder_withLast _ _))
    next =>
      cases ran
      refine (anyPlaceholder_append _ _).trans (congrArg (· || _) ?_)
      split
      · exact anyPlaceholder_withLast _ _
      · rfl

theorem Combines.hasPlaceholder {origins : List Selector} {selector : Selector} (combines : Combines origins selector) :
    selector.hasPlaceholder = origins.any Selector.hasPlaceholder := by
  induction combines with
  | outermost selector => simp
  | nested _ ran outer => simp [within_hasPlaceholder ran, outer]

end Selector

namespace Selectors

open Selector (Combines)

variable {parents children outer result : Selectors} {rules : List Selectors}

/-- The selectors of the innermost of rules that stand in each other, where `outer` are those of the outermost one. -/
def nestedIn (outer : Selectors) (rules : List Selectors) : Except NestingError Selectors :=
  rules.foldlM (fun parents selectors => selectors.resolve (some parents)) outer

/-- Each choice, followed by each selector of a rule inside. -/
def extended (chosen : List (List Selector)) (selectors : Selectors) : List (List Selector) :=
  chosen.flatMap fun origins => selectors.map fun inner => origins ++ [inner]

/-- One selector of each rule, in all ways. -/
def choices (outer : Selectors) (rules : List Selectors) : List (List Selector) :=
  rules.foldl extended (outer.map ([·]))

theorem mem_withoutPlaceholders {selector : Selector} :
    selector ∈ withoutPlaceholders parents ↔ selector ∈ parents ∧ selector.hasPlaceholder = false := by
  simp [withoutPlaceholders]

theorem withoutPlaceholders_append (first second : Selectors) : withoutPlaceholders (first ++ second) =
    first.withoutPlaceholders ++ second.withoutPlaceholders := List.filter_append _ _

theorem withoutPlaceholders_cons (first : Selector) (rest : Selectors) : withoutPlaceholders (first :: rest) =
    if first.hasPlaceholder then rest.withoutPlaceholders else first :: rest.withoutPlaceholders := by
  cases hidden : first.hasPlaceholder <;> simp [withoutPlaceholders, hidden]

/-- What the selectors of one parent give without placeholders: nothing, if the parent has one itself. -/
theorem group_withoutPlaceholders {parent : Selector} {group : Selectors}
    (each : List.Forall₂ (fun child selector => Selector.within parent child = .ok selector) children group) :
    (parent.hasPlaceholder = true → group.withoutPlaceholders = []) ∧
      (parent.hasPlaceholder = false → List.Forall₂ (fun child selector => Selector.within parent child = .ok selector)
        children.withoutPlaceholders group.withoutPlaceholders) := by
  constructor
  · intro hidden
    refine List.filter_eq_nil_iff.2 fun selector member => ?_
    obtain ⟨child, -, ran⟩ := forall₂_mem_right each selector member
    simp [Selector.within_hasPlaceholder ran, hidden]
  · intro shown
    induction each with
    | nil => exact .nil
    | @cons child selector _ _ ran _ later =>
      have alike : selector.hasPlaceholder = child.hasPlaceholder := by
        rw [Selector.within_hasPlaceholder ran, shown, Bool.false_or]
      rw [withoutPlaceholders_cons, withoutPlaceholders_cons, alike]
      split
      · exact later
      · exact .cons ran later

theorem resolve_withoutPlaceholders (ran : children.resolve (some parents) = .ok result) :
    children.withoutPlaceholders.resolve (some parents.withoutPlaceholders) = .ok result.withoutPlaceholders := by
  obtain ⟨groups, nested, rfl⟩ := resolve_eq_ok.1 ran
  clear ran
  rw [resolve_eq_ok]
  induction nested with
  | nil => exact ⟨[], .nil, rfl⟩
  | @cons parent group parents groups each _ later =>
    obtain ⟨groups', nested', same⟩ := later
    obtain ⟨hidden, shown⟩ := group_withoutPlaceholders each
    rw [List.flatten_cons, withoutPlaceholders_append, withoutPlaceholders_cons]
    cases known : parent.hasPlaceholder with
    | true =>
      rw [if_pos rfl, hidden known]
      exact ⟨groups', nested', same⟩
    | false =>
      rw [if_neg (by decide), ← same]
      exact ⟨withoutPlaceholders group :: groups', .cons (shown known) nested', rfl⟩

/-- One more rule inside: each selector of it is put behind each choice from the rules around. -/
theorem combines_resolve {chosen : List (List Selector)} (combined : List.Forall₂ Combines chosen parents)
    (ran : children.resolve (some parents) = .ok result) :
    List.Forall₂ Combines (extended chosen children) result := by
  obtain ⟨groups, nested, rfl⟩ := resolve_eq_ok.1 ran
  clear ran
  induction combined generalizing groups with
  | nil =>
    cases nested
    exact .nil
  | @cons origins parent _ _ outer _ later =>
    cases nested with
    | cons each nested =>
      rw [extended, List.flatMap_cons, List.flatten_cons]
      refine List.rel_append ?_ (later _ nested)
      rw [List.forall₂_map_left_iff]
      exact each.imp fun _ _ ran => .nested outer ran

theorem combines_nestedIn {chosen : List (List Selector)} (combined : List.Forall₂ Combines chosen outer)
    (ran : nestedIn outer rules = .ok result) :
    List.Forall₂ Combines (rules.foldl extended chosen) result := by
  induction rules generalizing chosen outer with
  | nil =>
    cases ran
    exact combined
  | cons selectors rules deeper =>
    rw [nestedIn, List.foldlM_cons] at ran
    cases step : selectors.resolve (some outer) with
    | error reason =>
      rw [step] at ran
      cases ran
    | ok inner =>
      rw [step] at ran
      exact deeper (combines_resolve combined step) ran

theorem nestedIn_withoutPlaceholders (ran : nestedIn outer rules = .ok result) :
    nestedIn outer.withoutPlaceholders (rules.map withoutPlaceholders) = .ok result.withoutPlaceholders := by
  induction rules generalizing outer with
  | nil =>
    cases ran
    rfl
  | cons selectors rules deeper =>
    rw [nestedIn, List.foldlM_cons] at ran
    cases step : selectors.resolve (some outer) with
    | error reason =>
      rw [step] at ran
      cases ran
    | ok inner =>
      rw [step] at ran
      rw [List.map_cons, nestedIn, List.foldlM_cons, resolve_withoutPlaceholders step]
      exact deeper ran

/-- It is the same whether selectors with placeholders are left out before they are nested or behind it, for two lists
and all along rules that stand in each other. Behind such a chain of rules a selector is left out exactly if one of the
selectors that it was put together from, one of each rule, has a placeholder. -/
theorem placeholders_left_out :
    (∀ parents children result : Selectors, children.resolve (some parents) = .ok result →
      children.withoutPlaceholders.resolve (some parents.withoutPlaceholders) = .ok result.withoutPlaceholders) ∧
    ∀ (outer : Selectors) (rules : List Selectors) (result : Selectors), nestedIn outer rules = .ok result →
      nestedIn outer.withoutPlaceholders (rules.map withoutPlaceholders) = .ok result.withoutPlaceholders ∧
      List.Forall₂ (fun origins selector => Combines origins selector ∧
          (selector ∉ result.withoutPlaceholders ↔ ∃ origin ∈ origins, origin.hasPlaceholder = true))
        (choices outer rules) result := by
  refine ⟨fun _ _ _ => resolve_withoutPlaceholders, fun outer rules result ran =>
    ⟨nestedIn_withoutPlaceholders ran, ?_⟩⟩
  have alone : List.Forall₂ Combines (outer.map ([·])) outer :=
    List.forall₂_map_left_iff.2 (List.forall₂_same.2 fun selector _ => .outermost selector)
  have known := (List.forall₂_and_left result _).2 ⟨fun _ member => member, (combines_nestedIn alone ran).flip⟩
  refine known.flip.imp fun origins selector ⟨member, combines⟩ => ⟨combines, ?_⟩
  rw [mem_withoutPlaceholders, not_and, combines.hasPlaceholder, Bool.not_eq_false, List.any_eq_true]
  exact ⟨fun hidden => hidden member, fun hidden _ => hidden⟩

/-- Three rules, in which placeholders are continued, stand beside references and stand in a list with others. -/
theorem placeholders_left_out_thrice :
    let outer := parse ".a, %b"
    let rules := [parse "&-c, > %d", parse "e & + &:f, %g ~ &"]
    ∃ result, nestedIn outer rules = .ok result ∧
      nestedIn outer.withoutPlaceholders (rules.map withoutPlaceholders) = .ok result.withoutPlaceholders ∧
      result.withoutPlaceholders.css false = "e .a-c + .a-c:f" ∧ result.length = 8 := by
  intro outer rules
  cases ran : nestedIn outer rules with
  | error reason =>
    have succeeds : (nestedIn outer rules).isOk = true := by decide +kernel
    rw [ran] at succeeds
    cases succeeds
  | ok result =>
    have shown : (nestedIn outer rules).map (fun result => (result.withoutPlaceholders.css false, result.length)) =
        .ok ("e .a-c + .a-c:f", 8) := by decide +kernel
    rw [ran] at shown
    obtain ⟨text, count⟩ := Prod.mk.inj (Except.ok.inj shown)
    exact ⟨result, rfl, (placeholders_left_out.2 outer rules result ran).1, text, count⟩

end Selectors

end Stylesheet
