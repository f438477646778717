import Mathlib.Data.List.Forall2
import Stylesheet.Proofs.SelectorReading

/-! Nesting, as it shows in the texts of selectors. A nested selector has the text of the selector around it in place of
each reference, and behind it where there is no reference. The selectors around a rule come from the nesting of others:
what carries over is that such a selector ends in a compound selector, which does not end in a reference. -/

namespace Stylesheet

theorem mapM_eq_ok {ε α β : Type} {f : α → Except ε β} {xs : List α} {ys : List β} :
    xs.mapM f = .ok ys ↔ List.Forall₂ (fun x y => f x = .ok y) xs ys := by
  induction xs generalizing ys with
  | nil => cases ys <;> simp [pure, Except.pure]
  | cons x xs ih =>
    rw [List.mapM_cons]
    cases first : f x with
    | error => cases ys <;> simp [bind, Except.bind, first]
    | ok value =>
      cases rest : xs.mapM f with
      | error => cases ys <;> simp [bind, Except.bind, first, ← ih, rest]
      | ok values => cases ys <;> simp [bind, Except.bind, pure, Except.pure, first, ← ih, rest]

theorem map_mapM_eq_ok {ε α β γ : Type} {f : α → Except ε β} {g : List β → γ} {xs : List α} {result : γ} :
    (xs.mapM f).map g = .ok result ↔ ∃ ys, List.Forall₂ (fun x y => f x = .ok y) xs ys ∧ g ys = result := by
  simp only [← mapM_eq_ok]
  cases ran : xs.mapM f with
  | error => simp [Except.map]
  | ok ys => simp [Except.map]

theorem map_of_forall₂ {α β γ : Type} {R : α → β → Prop} {g : β → γ} {h : α → γ} {xs : List α} {ys : List β}
    (related : List.Forall₂ R xs ys) (each : ∀ x ∈ xs, ∀ y, R x y → g y = h x) : ys.map g = xs.map h := by
  induction related with
  | nil => rfl
  | cons first _ ih =>
    rw [List.map_cons, List.map_cons, each _ List.mem_cons_self _ first,
      ih fun x member => each x (List.mem_cons_of_mem _ member)]

theorem exists_forall₂ {α β : Type} {R : α → β → Prop} {xs : List α} :
    (∃ ys, List.Forall₂ R xs ys) ↔ ∀ x ∈ xs, ∃ y, R x y := by
  induction xs with
  | nil => simp
  | cons x xs ih =>
    constructor
    · rintro ⟨_, related⟩
      cases related with
      | cons first rest =>
        have later := ih.1 ⟨_, rest⟩
        simpa using ⟨⟨_, first⟩, later⟩
    · intro each
      obtain ⟨y, first⟩ := each x List.mem_cons_self
      obtain ⟨ys, rest⟩ := ih.2 fun x member => each x (List.mem_cons_of_mem _ member)
      exact ⟨y :: ys, .cons first rest⟩

theorem forall₂_concat {α β : Type} {R : α → β → Prop} {xs : List α} {x : α} {ys : List β}
    (related : List.Forall₂ R (xs ++ [x]) ys) : ∃ ys' y, ys = ys' ++ [y] ∧ R x y := by
  induction xs generalizing ys with
  | nil =>
    obtain ⟨y, _, first, rest, rfl⟩ := List.forall₂_cons_left_iff.1 related
    cases rest
    exact ⟨[], y, rfl, first⟩
  | cons _ xs ih =>
    obtain ⟨y, ys, -, rest, rfl⟩ := List.forall₂_cons_left_iff.1 related
    obtain ⟨ys, last, rfl, final⟩ := ih rest
    exact ⟨y :: ys, last, rfl, final⟩

theorem forall₂_mem_right {α β : Type} {R : α → β → Prop} {xs : List α} {ys : List β} (related : List.Forall₂ R xs ys) :
    ∀ y ∈ ys, ∃ x ∈ xs, R x y := by
  induction related with
  | nil => simp
  | cons first _ ih =>
    intro y member
    rcases List.mem_cons.1 member with rfl | later
    · exact ⟨_, List.mem_cons_self, first⟩
    · obtain ⟨x, known, holds⟩ := ih y later
      exact ⟨x, List.mem_cons_of_mem _ known, holds⟩

namespace Selector

/-- The selector ends in this simple selector. -/
def EndsIn (selector : Selector) (last : Simple) : Prop :=
  ∃ links compound, selector.links = links ++ [⟨compound ++ [last], .none⟩]

/-- A selector that is no longer nested: it does not end in a reference. -/
def Whole (selector : Selector) : Prop := ∃ last, selector.EndsIn last ∧ last.isParent = false

variable {parent child selector : Selector} {last : Simple} {links : List Link} {base compound result : Compound}
  {isFirst compressed : Bool}

theorem Linked.endsIn (linked : Linked links) : ∃ last, EndsIn ⟨links⟩ last := by
  induction linked with
  | @last _ _ compound _ nonempty =>
    obtain ⟨compound, last, rfl⟩ := (List.eq_nil_or_concat' compound).resolve_left nonempty
    exact ⟨last, [], compound, rfl⟩
  | next _ _ _ _ ih =>
    obtain ⟨last, links, compound, same⟩ := ih
    dsimp only at same
    exact ⟨last, _ :: links, compound, by rw [same, List.cons_append]⟩

theorem Readable.endsIn (readable : Readable selector) : ∃ last, selector.EndsIn last := by
  cases readable with
  | plain linked => exact linked.endsIn
  | leading _ linked =>
    obtain ⟨last, links, compound, same⟩ := linked.endsIn
    dsimp only at same
    exact ⟨last, _ :: links, compound, by rw [same, List.cons_append]⟩

theorem endsIn_of_mem_parse {text : String} (member : selector ∈ Selectors.parse text) :
    ∃ last, selector.EndsIn last := by
  unfold Selectors.parse at member
  dsimp only at member
  cases read : Selectors.read? text.toList with
  | some selectors =>
    rw [read] at member
    exact ((Selectors.read?_readable read).2 selector member).endsIn
  | none =>
    rw [read] at member
    obtain ⟨piece, -, rfl⟩ := List.mem_map.1 member
    exact ⟨.raw (String.ofList piece), [], [], rfl⟩

theorem EndsIn.isParent_eq_false (ends : selector.EndsIn last) (plain : selector.refersToParent = false) :
    last.isParent = false := by
  obtain ⟨links, compound, same⟩ := ends
  rw [refersToParent, same] at plain
  simp at plain
  exact plain.2.2

theorem continued_isParent {simple : Simple} {more : String} (longer : simple.continued more = some last) :
    last.isParent = false := by
  cases simple <;> cases longer <;> rfl

theorem graft_ends (plain : last.isParent = false) (grafted : graft (base ++ [last]) isFirst compound = .ok result) :
    ∃ base' last', result = base' ++ [last'] ∧ last'.isParent = false := by
  -- Over what is still to be grafted: no step leaves a reference at the end of what is there already.
  induction compound generalizing base last isFirst with
  | nil =>
    cases grafted
    exact ⟨base, last, rfl, plain⟩
  | cons simple compound ih =>
    unfold graft at grafted
    split at grafted
    next same => cases same
    next more rest same =>
      cases same
      split at grafted
      next longer found =>
        obtain ⟨_, -, continued⟩ := Option.bind_eq_some_iff.1 found
        exact ih (continued_isParent continued) grafted
      next => cases grafted
    next same =>
      cases same
      exact ih plain grafted
    next notParent _ same =>
      cases same
      have plain : simple.isParent = false := by
        cases simple with
        | parent => exact (notParent _ rfl).elim
        | _ => rfl
      exact ih plain grafted

/-- The last link of a nested selector, in which no reference is left. -/
theorem Link.within_ends {link : Link} {links : List Link} (whole : parent.Whole)
    (ended : ∃ compound last, link = ⟨compound ++ [last], .none⟩) (ran : link.within parent = .ok links) :
    ∃ links' compound last, links = links' ++ [⟨compound ++ [last], .none⟩] ∧ last.isParent = false := by
  obtain ⟨outer, ⟨before, base, same⟩, plain⟩ := whole
  obtain ⟨compound, last, rfl⟩ := ended
  unfold Link.within at ran
  rw [same, List.getLast?_concat] at ran
  dsimp only at ran
  split at ran
  next =>
    split at ran
    next grafted =>
      cases ran
      obtain ⟨base', last', rfl, plain'⟩ := graft_ends plain grafted
      exact ⟨_, base', last', rfl, plain'⟩
    next => cases ran
  next other =>
    cases ran
    exact ⟨[], compound, last, rfl, by simp at other; exact other.2⟩

/-- The nesting of a selector that has references, link by link. -/
theorem within_refers {selector : Selector} (refers : child.refersToParent = true) :
    within parent child = .ok selector ↔
      ∃ groups, List.Forall₂ (fun link links => link.within parent = .ok links) child.links groups ∧
        ⟨groups.flatten⟩ = selector := by
  rw [within, if_pos refers, map_mapM_eq_ok]

theorem within_whole {result : Selector} (whole : parent.Whole) (ended : ∃ last, child.EndsIn last)
    (ran : within parent child = .ok result) : result.Whole := by
  obtain ⟨last, ends⟩ := ended
  obtain ⟨before, compound, same⟩ := id ends
  by_cases refers : child.refersToParent = true
  · obtain ⟨groups, each, rfl⟩ := (within_refers refers).1 ran
    rw [same] at each
    obtain ⟨groups, links, rfl, final⟩ := forall₂_concat each
    obtain ⟨links, base, last', rfl, plain⟩ := Link.within_ends whole ⟨compound, last, rfl⟩ final
    exact ⟨last', ⟨groups.flatten ++ links, base, by simp⟩, plain⟩
  · -- Without references the links of the child stay behind those of the parent, and so does its end.
    rw [within, if_neg refers] at ran
    have plain := ends.isParent_eq_false (Bool.eq_false_iff.2 refers)
    split at ran
    next combinator rest begins =>
      cases ran
      cases before with
      | nil =>
        rw [begins] at same
        simp at same
      | cons link before =>
        obtain ⟨-, rfl⟩ := List.cons.inj (begins.symm.trans same)
        exact ⟨last, ⟨_, compound, (List.append_assoc _ before _).symm⟩, plain⟩
    next =>
      cases ran
      rw [same]
      exact ⟨last, ⟨_, compound, (List.append_assoc _ before _).symm⟩, plain⟩

end Selector

namespace Selectors

/-- What stands around a rule: selectors that were read, nested in none or in such a list. -/
inductive Resolved : Selectors → Prop where
  | top {selectors : Selectors} (text : String) (ran : (parse text).resolve none = .ok selectors) : Resolved selectors
  | nested {parents selectors : Selectors} (text : String) (outer : Resolved parents)
      (ran : (parse text).resolve (some parents) = .ok selectors) : Resolved selectors

theorem resolve_eq_ok {parents children result : Selectors} :
    children.resolve (some parents) = .ok result ↔
      ∃ groups, List.Forall₂ (fun parent group =>
          List.Forall₂ (fun child selector => Selector.within parent child = .ok selector) children group)
        parents groups ∧ groups.flatten = result := by
  rw [resolve, map_mapM_eq_ok]
  simp only [mapM_eq_ok]

/-- Every selector of the result comes from a pair of selectors. -/
theorem exists_within {parents children result : Selectors} (ran : children.resolve (some parents) = .ok result)
    {selector : Selector} (member : selector ∈ result) :
    ∃ parent ∈ parents, ∃ child ∈ children, Selector.within parent child = .ok selector := by
  obtain ⟨groups, nested, rfl⟩ := resolve_eq_ok.1 ran
  obtain ⟨group, known, inside⟩ := List.mem_flatten.1 member
  obtain ⟨parent, outer, each⟩ := forall₂_mem_right nested group known
  obtain ⟨child, inner, ran⟩ := forall₂_mem_right each selector inside
  exact ⟨parent, outer, child, inner, ran⟩

/-- Every pair of selectors has its selector in the result. -/
theorem exists_resolved {parents children result : Selectors} (ran : children.resolve (some parents) = .ok result)
    {parent child : Selector} (outer : parent ∈ parents) (inner : child ∈ children) :
    ∃ selector ∈ result, Selector.within parent child = .ok selector := by
  obtain ⟨groups, nested, rfl⟩ := resolve_eq_ok.1 ran
  obtain ⟨group, known, each⟩ := forall₂_mem_right nested.flip parent outer
  obtain ⟨selector, inside, ran⟩ := forall₂_mem_right each.flip child inner
  exact ⟨selector, List.mem_flatten.2 ⟨group, known, inside⟩, ran⟩

theorem Resolved.whole {selectors : Selectors} (resolved : Resolved selectors) :
    ∀ selector ∈ selectors, selector.Whole := by
  induction resolved with
  | @top selectors text ran =>
    unfold resolve at ran
    dsimp only at ran
    split at ran
    next => cases ran
    next plain =>
      cases ran
      intro selector member
      obtain ⟨last, ends⟩ := Selector.endsIn_of_mem_parse member
      have plain : selector.refersToParent = false := by
        apply Bool.eq_false_iff.2
        intro refers
        exact plain (List.any_eq_true.2 ⟨selector, member, refers⟩)
      exact ⟨last, ends, ends.isParent_eq_false plain⟩
  | @nested parents selectors text _ ran ih =>
    intro selector member
    obtain ⟨parent, outer, child, inner, ran⟩ := exists_within ran member
    exact Selector.within_whole (ih parent outer) (Selector.endsIn_of_mem_parse inner) ran

end Selectors

namespace Selector

/-- An ampersand occurs once at most, and only as the first simple selector. -/
def AmpersandFirst (compound : Compound) : Prop :=
  (Compound.css compound).toList.count '&' ≤ 1 ∧
    ('&' ∈ (Compound.css compound).toList → compound.head?.any Simple.isParent = true)

instance (compound : Compound) : Decidable (AmpersandFirst compound) := inferInstanceAs (Decidable (_ ∧ (_ → _)))

/-- Simple selectors that do not end in a name. -/
def Simple.isClosed : Simple → Bool
  | .universal | .bracketed _ | .percentage _ => true
  | _ => false

/-- The simple selector at the end. -/
def last? (selector : Selector) : Option Simple := selector.links.getLast?.bind (·.compound.getLast?)

/-- A reference that continues a name meets a selector that does not end in one. -/
def Clashes (parent child : Selector) : Prop :=
  (∃ link ∈ child.links, ∃ more, Simple.parent (some more) ∈ link.compound) ∧ parent.last?.any Simple.isClosed = true

def startsWithCombinator (selector : Selector) : Bool := selector.links.head?.any (·.compound.isEmpty)

/-- The text `inner` with `outer` in place of each ampersand. -/
def filled (outer inner : List Char) : List Char := inner.flatMap fun c => if c = '&' then outer else [c]

def nestedText (compressed : Bool) (parent child : Selector) : List Char :=
  let outer := (parent.css compressed).toList
  let inner := (child.css compressed).toList
  if '&' ∈ inner then filled outer inner
  else if compressed ∧ child.startsWithCombinator then outer ++ inner
  else outer ++ ' ' :: inner

variable {parent child selector : Selector} {last : Simple} {links : List Link} {base compound result : Compound}
  {isFirst compressed : Bool} {outer inner : List Char} {link : Link}

theorem filled_append (outer first second : List Char) :
    filled outer (first ++ second) = filled outer first ++ filled outer second := List.flatMap_append

theorem filled_of_notMem (absent : '&' ∉ inner) : filled outer inner = inner := by
  induction inner with
  | nil => rfl
  | cons c inner ih =>
    rw [List.mem_cons, not_or] at absent
    rw [filled, List.flatMap_cons, ← filled, ih absent.2, if_neg (Ne.symm absent.1), List.singleton_append]

theorem Compound.css_append (first second : Compound) :
    (Compound.css (first ++ second)).toList = (Compound.css first).toList ++ (Compound.css second).toList := by
  simp [Compound.css]

theorem Simple.css_parent (more : Option String) :
    (Simple.css (.parent more)).toList = '&' :: (more.getD "").toList := by
  simp [Simple.css]

/-- A reference in front, or no ampersand at all. -/
theorem AmpersandFirst.cases (first : AmpersandFirst compound) :
    (∃ more rest, compound = .parent more :: rest ∧ '&' ∉ (more.getD "").toList ++ (Compound.css rest).toList) ∨
      '&' ∉ (Compound.css compound).toList := by
  by_cases occurs : '&' ∈ (Compound.css compound).toList
  · left
    have begins := first.2 occurs
    cases compound with
    | nil => simp at begins
    | cons simple rest =>
      cases simple with
      | parent more =>
        refine ⟨more, rest, rfl, ?_⟩
        have count := first.1
        rw [Compound.css_cons, Simple.css_parent, List.cons_append, List.count_cons_self] at count
        exact List.count_eq_zero.1 (by omega)
      | _ => simp [Simple.isParent] at begins
  · exact .inr occurs

theorem any_isParent_of_notMem (absent : '&' ∉ (Compound.css compound).toList) :
    compound.any Simple.isParent = false := by
  induction compound with
  | nil => rfl
  | cons simple compound ih =>
    rw [Compound.css_cons, List.mem_append, not_or] at absent
    have plain : simple.isParent = false := by
      cases simple with
      | parent more => simp [Simple.css_parent] at absent
      | _ => rfl
    rw [List.any_cons, plain, ih absent.2]
    rfl

theorem graft_plain (plain : compound.any Simple.isParent = false) :
    graft base isFirst compound = .ok (base ++ compound) := by
  induction compound generalizing base isFirst with
  | nil => rw [graft, List.append_nil]
  | cons simple compound ih =>
    rw [List.any_cons, Bool.or_eq_false_iff] at plain
    have same : graft base isFirst (simple :: compound) = graft (base ++ [simple]) isFirst compound := by
      cases simple with
      | parent => simp [Simple.isParent] at plain
      | _ => cases isFirst <;> rfl
    rw [same, ih plain.2, List.append_assoc, List.singleton_append]

theorem continued_closed (closed : last.isClosed = true) (more : String) : last.continued more = none := by
  cases last <;> first | rfl | cases closed

theorem continued_open (opened : last.isClosed = false) (plain : last.isParent = false) (more : String) :
    ∃ longer, last.continued more = some longer ∧ longer.css.toList = last.css.toList ++ more.toList := by
  cases last with
  | universal | bracketed | percentage => cases opened
  | parent => cases plain
  | _ => exact ⟨_, rfl, by simp [Simple.css]⟩

theorem notMem_behind (compressed : Bool) (combinator : Combinator) : '&' ∉ behind compressed combinator := by
  cases combinator <;> cases compressed <;> decide

/-- An ampersand in the text of a link stands in the compound selector. -/
theorem notMem_link (absent : '&' ∉ (Compound.css link.compound).toList) (compressed : Bool) :
    '&' ∉ (link.css compressed).toList := by
  obtain ⟨compound, combinator⟩ := link
  cases combinator <;> cases compressed <;> simp_all [Link.css, Combinator.symbol?] <;> split <;> simp_all

theorem css_of_links {before : List Link} {simples : Compound} (same : selector.links = before ++ [⟨simples, .none⟩])
    (compressed : Bool) :
    (selector.css compressed).toList = linksText compressed before ++ (Compound.css simples).toList := by
  obtain ⟨links⟩ := selector
  dsimp only at same
  rw [same, css_toList, linksText, List.flatMap_append, List.flatMap_singleton]
  simp [linksText, Link.css, Combinator.symbol?]

/-- A compound selector grafted onto one that ends in a name, if it continues one. -/
theorem graft_reference (base : Compound) {more : Option String} {rest : Compound} (plain : last.isParent = false)
    (fits : more.isSome = true → last.isClosed = false) (absent : '&' ∉ (Compound.css rest).toList) :
    ∃ result, graft (base ++ [last]) true (.parent more :: rest) = .ok result ∧ result ≠ [] ∧
      (Compound.css result).toList =
        (Compound.css (base ++ [last])).toList ++ ((more.getD "").toList ++ (Compound.css rest).toList) := by
  have tail (base : Compound) : graft base false rest = .ok (base ++ rest) :=
    graft_plain (any_isParent_of_notMem absent)
  cases more with
  | none =>
    refine ⟨base ++ [last] ++ rest, tail _, by simp, ?_⟩
    rw [Compound.css_append]
    rfl
  | some more =>
    obtain ⟨longer, continued, text⟩ := continued_open (fits rfl) plain more
    refine ⟨base ++ [longer] ++ rest, ?_, by simp, ?_⟩
    · rw [graft, List.getLast?_concat, Option.bind_some, continued]
      dsimp only
      rw [List.dropLast_concat, tail]
    · simp [Compound.css, text]

/-- A link of a nested selector has the text of the selector around in place of its reference. -/
theorem Link.within_text (ends : parent.EndsIn last) (plain : last.isParent = false)
    (first : AmpersandFirst link.compound)
    (fits : (∃ more, Simple.parent (some more) ∈ link.compound) → last.isClosed = false) :
    ∃ links, link.within parent = .ok links ∧ ∀ compressed,
      linksText compressed links = filled (parent.css compressed).toList (link.css compressed).toList := by
  obtain ⟨compound, combinator⟩ := link
  rcases first.cases with ⟨more, rest, rfl, absent⟩ | absent
  · obtain ⟨before, base, same⟩ := ends
    rw [List.mem_append, not_or] at absent
    have fits : more.isSome = true → last.isClosed = false := by
      intro continues
      obtain ⟨text, rfl⟩ := Option.isSome_iff_exists.1 continues
      exact fits ⟨text, List.mem_cons_self⟩
    obtain ⟨grafted, ran, nonempty, text⟩ := graft_reference base plain fits absent.2
    refine ⟨before ++ [⟨grafted, combinator⟩], ?_, fun compressed => ?_⟩
    · unfold Link.within
      rw [same, List.getLast?_concat, List.dropLast_concat]
      dsimp only
      rw [ran, if_pos (by simp [Simple.isParent])]
    · have kept : '&' ∉ (more.getD "").toList ++ (Compound.css rest).toList ++ behind compressed combinator := by
        simpa [absent] using notMem_behind compressed combinator
      rw [linksText, List.flatMap_append, List.flatMap_singleton, Link.css_toList compressed _ nonempty, ← linksText,
        text, css_of_links same, Link.css_toList compressed _ (List.cons_ne_nil _ _), Compound.css_cons,
        Simple.css_parent, List.cons_append, List.cons_append, filled, List.flatMap_cons, ← filled, if_pos rfl,
        filled_of_notMem kept]
      simp only [List.append_assoc]
  · refine ⟨[⟨compound, combinator⟩], ?_, fun compressed => ?_⟩
    · unfold Link.within
      rw [if_neg (by simpa using any_isParent_of_notMem absent)]
    · rw [linksText, List.flatMap_singleton, filled_of_notMem (notMem_link absent compressed)]

theorem Link.within_clash (ends : parent.EndsIn last) (closed : last.isClosed = true)
    (first : AmpersandFirst link.compound) {more : String} (continues : Simple.parent (some more) ∈ link.compound)
    (links : List Link) :
    link.within parent ≠ .ok links := by
  obtain ⟨compound, combinator⟩ := link
  obtain ⟨before, base, same⟩ := ends
  rcases first.cases with ⟨more', rest, rfl, absent⟩ | absent
  · rw [List.mem_append, not_or] at absent
    have others := List.any_eq_false.1 (any_isParent_of_notMem absent.2)
    have same' : more' = some more := by
      rcases List.mem_cons.1 continues with same | later
      · exact (Simple.parent.inj same).symm
      · exact absurd rfl (others _ later)
    subst same'
    unfold Link.within
    rw [same, List.getLast?_concat, if_pos (by simp [Simple.isParent])]
    dsimp only
    rw [graft, List.getLast?_concat, Option.bind_some, continued_closed closed]
    simp
  · have none := any_isParent_of_notMem absent
    rw [List.any_eq_false] at none
    exact absurd rfl (none _ continues)

theorem EndsIn.last?_eq (ends : parent.EndsIn last) : parent.last? = some last := by
  obtain ⟨before, base, same⟩ := ends
  rw [last?, same, List.getLast?_concat, Option.bind_some, List.getLast?_concat]

theorem refersToParent_iff (first : ∀ link ∈ child.links, AmpersandFirst link.compound) (compressed : Bool) :
    child.refersToParent = true ↔ '&' ∈ (child.css compressed).toList := by
  obtain ⟨links⟩ := child
  rw [css_toList, linksText, List.mem_flatMap, refersToParent, List.any_eq_true]
  constructor
  · rintro ⟨⟨compound, combinator⟩, member, refers⟩
    refine ⟨_, member, ?_⟩
    have nonempty : compound ≠ [] := by
      rintro rfl
      cases refers
    rw [Link.css_toList compressed combinator nonempty, List.mem_append]
    left
    by_contra absent
    rw [any_isParent_of_notMem absent] at refers
    cases refers
  · rintro ⟨link, member, occurs⟩
    refine ⟨link, member, ?_⟩
    rcases (first link member).cases with ⟨more, rest, same, -⟩ | absent
    · simp [same, Simple.isParent]
    · exact absurd occurs (notMem_link absent compressed)

theorem linksText_append (compressed : Bool) (before links : List Link) :
    linksText compressed (before ++ links) = linksText compressed before ++ linksText compressed links :=
  List.flatMap_append

theorem linksText_flatten {groups : List (List Link)}
    (related : List.Forall₂ (fun link group => linksText compressed group = filled outer (link.css compressed).toList)
      links groups) : linksText compressed groups.flatten = filled outer (linksText compressed links) := by
  induction related with
  | nil => rfl
  | @cons link _ links _ first _ ih =>
    have split : linksText compressed (link :: links) =
        (link.css compressed).toList ++ linksText compressed links := rfl
    rw [List.flatten_cons, linksText_append, first, ih, split, filled_append]

theorem Linked.exists_cons (linked : Linked links) :
    ∃ compound combinator more, links = ⟨compound, combinator⟩ :: more ∧ compound.isEmpty = false := by
  cases linked with
  | last _ nonempty | next _ nonempty => exact ⟨_, _, _, rfl, by simpa using nonempty⟩

theorem withLast_concat (before : List Link) (link : Link) (combinator : Combinator) :
    withLast (before ++ [link]) combinator = before ++ [{ link with combinator }] := by
  rw [withLast, List.getLast?_concat, List.dropLast_concat]

theorem linksText_withLast (ends : parent.EndsIn last) (compressed : Bool) (combinator : Combinator) :
    linksText compressed (withLast parent.links combinator) =
      (parent.css compressed).toList ++ behind compressed combinator := by
  obtain ⟨before, base, same⟩ := ends
  rw [same, withLast_concat, linksText_append, linksText, linksText, List.flatMap_singleton,
    Link.css_toList compressed combinator (by simp), css_of_links same, linksText, List.append_assoc]

theorem within_text (ends : parent.EndsIn last) (plain : last.isParent = false) (readable : Readable child)
    (first : ∀ link ∈ child.links, AmpersandFirst link.compound) (fits : ¬ Clashes parent child) :
    ∃ result, within parent child = .ok result ∧ ∀ compressed,
      (result.css compressed).toList = nestedText compressed parent child := by
  have fits : ∀ link ∈ child.links, (∃ more, Simple.parent (some more) ∈ link.compound) → last.isClosed = false := by
    rintro link member ⟨more, continues⟩
    apply Bool.eq_false_iff.2
    intro closed
    exact fits ⟨⟨link, member, more, continues⟩, by rw [ends.last?_eq]; exact closed⟩
  by_cases refers : child.refersToParent = true
  · obtain ⟨groups, related⟩ := exists_forall₂.2 fun link member =>
      Link.within_text ends plain (first link member) (fits link member)
    refine ⟨⟨groups.flatten⟩, ?_, fun compressed => ?_⟩
    · exact (within_refers refers).2 ⟨groups, related.imp fun _ _ holds => holds.1, rfl⟩
    · have text := linksText_flatten (related.imp fun _ _ holds => holds.2 compressed)
      rw [nestedText, if_pos ((refersToParent_iff first compressed).1 refers), css_toList, text, ← css_toList]
  · have absent (compressed : Bool) : '&' ∉ (child.css compressed).toList :=
      fun occurs => refers ((refersToParent_iff first compressed).2 occurs)
    cases readable with
    | @plain links linked =>
      obtain ⟨compound, combinator, more, rfl, nonempty⟩ := linked.exists_cons
      have final : parent.links.getLast?.map Link.combinator = some .none := by
        obtain ⟨before, base, same⟩ := ends
        rw [same, List.getLast?_concat]
        rfl
      refine ⟨⟨withLast parent.links .descendant ++ ⟨compound, combinator⟩ :: more⟩, ?_, fun compressed => ?_⟩
      · rw [within, if_neg refers]
        split
        next same =>
          cases same
          cases nonempty
        next =>
          rw [final]
          rfl
      · have begins : startsWithCombinator ⟨⟨compound, combinator⟩ :: more⟩ = false := nonempty
        rw [nestedText, if_neg (absent compressed), begins, if_neg (by simp), css_toList compressed (_ ++ _),
          linksText_append, linksText_withLast ends, List.append_assoc, ← css_toList]
        rfl
    | @leading combinator links symbol linked =>
      refine ⟨⟨withLast parent.links combinator ++ links⟩, ?_, fun compressed => ?_⟩
      · rw [within, if_neg refers]
      · have begins : startsWithCombinator ⟨⟨[], combinator⟩ :: links⟩ = true := rfl
        have inner : (Selector.css compressed ⟨⟨[], combinator⟩ :: links⟩).toList =
            (Link.css compressed ⟨[], combinator⟩).toList ++ linksText compressed links := css_toList _ _
        rw [nestedText, if_neg (absent compressed), begins, css_toList compressed (_ ++ _), linksText_append,
          linksText_withLast ends, behind_symbol symbol, inner]
        cases compressed <;> simp

theorem within_ok_iff (ends : parent.EndsIn last) (plain : last.isParent = false) (readable : Readable child)
    (first : ∀ link ∈ child.links, AmpersandFirst link.compound) :
    (∃ result, within parent child = .ok result) ↔ ¬ Clashes parent child := by
  constructor
  · rintro ⟨result, ran⟩ ⟨⟨link, member, more, continues⟩, closed⟩
    rw [ends.last?_eq] at closed
    have refers : child.refersToParent = true :=
      List.any_eq_true.2 ⟨link, member, List.any_eq_true.2 ⟨_, continues, rfl⟩⟩
    obtain ⟨groups, each, -⟩ := (within_refers refers).1 ran
    obtain ⟨links, nested⟩ := exists_forall₂.1 ⟨groups, each⟩ link member
    exact Link.within_clash ends closed (first link member) continues links nested
  · intro fits
    obtain ⟨result, ran, -⟩ := within_text ends plain readable first fits
    exact ⟨result, ran⟩

end Selector

namespace Selectors

open Selector (AmpersandFirst Clashes Readable nestedText)

variable {parents children : Selectors}

theorem resolve_ok_iff (whole : ∀ parent ∈ parents, parent.Whole) (readable : ∀ child ∈ children, Readable child)
    (first : ∀ child ∈ children, ∀ link ∈ child.links, AmpersandFirst link.compound) :
    (∃ result, children.resolve (some parents) = .ok result) ↔
      ∀ parent ∈ parents, ∀ child ∈ children, ¬ Clashes parent child := by
  constructor
  · rintro ⟨result, ran⟩ parent outer child inner
    obtain ⟨last, ends, plain⟩ := whole parent outer
    obtain ⟨selector, -, ran⟩ := exists_resolved ran outer inner
    exact (Selector.within_ok_iff ends plain (readable child inner) (first child inner)).1 ⟨selector, ran⟩
  · intro fits
    obtain ⟨groups, nested⟩ := exists_forall₂.2 fun parent outer => exists_forall₂.2 fun child inner => by
      obtain ⟨last, ends, plain⟩ := whole parent outer
      exact (Selector.within_ok_iff ends plain (readable child inner) (first child inner)).2
        (fits parent outer child inner)
    exact ⟨groups.flatten, resolve_eq_ok.2 ⟨groups, nested, rfl⟩⟩

theorem resolve_text {result : Selectors} (whole : ∀ parent ∈ parents, parent.Whole)
    (readable : ∀ child ∈ children, Readable child)
    (first : ∀ child ∈ children, ∀ link ∈ child.links, AmpersandFirst link.compound)
    (ran : children.resolve (some parents) = .ok result) (compressed : Bool) :
    result.map (fun selector => (selector.css compressed).toList) =
      parents.flatMap fun parent => children.map (nestedText compressed parent) := by
  obtain ⟨groups, nested, rfl⟩ := resolve_eq_ok.1 ran
  rw [List.map_flatten, List.flatMap]
  congr 1
  apply map_of_forall₂ nested
  intro parent outer group each
  obtain ⟨last, ends, plain⟩ := whole parent outer
  apply map_of_forall₂ each
  intro child inner selector nested
  have fits := (Selector.within_ok_iff ends plain (readable child inner) (first child inner)).1 ⟨selector, nested⟩
  obtain ⟨same, ran, text⟩ := Selector.within_text ends plain (readable child inner) (first child inner) fits
  cases nested.symm.trans ran
  exact text compressed

/-- Nesting of selectors is nesting of their texts. -/
theorem resolve_nests (resolved : Resolved parents) (text : String) (grammatical : Grammatical (parse text))
    (first : ∀ child ∈ parse text, ∀ link ∈ child.links, AmpersandFirst link.compound) :
    ((∃ result, (parse text).resolve (some parents) = .ok result) ↔
      ∀ parent ∈ parents, ∀ child ∈ parse text, ¬ Clashes parent child) ∧
    ∀ result, (parse text).resolve (some parents) = .ok result → ∀ compressed,
      result.map (fun selector => (selector.css compressed).toList) =
        parents.flatMap fun parent => (parse text).map (nestedText compressed parent) := by
  have readable := parse_readable grammatical
  refine ⟨resolve_ok_iff resolved.whole readable first, fun result ran compressed => ?_⟩
  exact resolve_text resolved.whole readable first ran compressed

/-- The selectors of a rule inside a rule for `.a`. -/
def innerSelectors : Selectors :=
  [⟨[⟨[.className "a-b"], .none⟩]⟩, ⟨[⟨[.className "a"], .child⟩, ⟨[.element "c"], .none⟩]⟩]

theorem resolve_nests_twice :
    Resolved innerSelectors ∧ Grammatical (parse "&:d + &, ~ e") ∧
      (∀ child ∈ parse "&:d + &, ~ e", ∀ link ∈ child.links, AmpersandFirst link.compound) ∧
      ∃ result, (parse "&:d + &, ~ e").resolve (some innerSelectors) = .ok result ∧
        result.map (fun selector => (selector.css false).toList) =
          [".a-b:d + .a-b", ".a-b ~ e", ".a > c:d + .a > c", ".a > c ~ e"].map String.toList := by
  have resolved : Resolved innerSelectors := .nested "&-b, > c" (.top ".a" rfl) rfl
  have grammatical : Grammatical (parse "&:d + &, ~ e") := by decide +kernel
  have first : ∀ child ∈ parse "&:d + &, ~ e", ∀ link ∈ child.links, AmpersandFirst link.compound := by decide +kernel
  obtain ⟨succeeds, text⟩ := resolve_nests resolved "&:d + &, ~ e" grammatical first
  obtain ⟨result, ran⟩ := succeeds.2 (by
    intro parent outer child _ clash
    have opened : ∀ parent ∈ innerSelectors, parent.last?.any Selector.Simple.isClosed = false := by decide
    rw [Clashes, opened parent outer] at clash
    exact Bool.noConfusion clash.2)
  exact ⟨resolved, grammatical, first, result, ran, (text result ran false).trans (by decide +kernel)⟩

end Selectors

end Stylesheet
