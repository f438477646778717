import Stylesheet.Proofs.SelectorNesting

/-! What becomes of the references to the rule around. Nesting replaces all that stand as simple selectors of their own.
The argument of a pseudo-class and the inside of an attribute selector are texts that are kept as they are written, so
an ampersand in one of these stays. -/

namespace Stylesheet

namespace Selector

/-- Its text has an ampersand. -/
def Simple.ShowsReference (simple : Simple) : Prop := '&' ∈ simple.css.toList

/-- A part of it is kept as it was written. -/
def Simple.isVerbatim : Simple → Bool
  | .pseudo _ | .bracketed _ => true
  | _ => false

/-- The simple selectors of links, without what joins them. -/
def simples (links : List Link) : List Simple := links.flatMap Link.compound

variable {simple : Simple} {compound base result : Compound} {link : Link} {links : List Link} {isFirst : Bool}

theorem simples_append (first second : List Link) : simples (first ++ second) = simples first ++ simples second :=
  List.flatMap_append

theorem simples_singleton (link : Link) : simples [link] = link.compound := List.flatMap_singleton _ _

/-! Ampersands in texts -/

theorem Compound.mem_css : '&' ∈ (Compound.css compound).toList ↔ ∃ simple ∈ compound, simple.ShowsReference := by
  simp [Compound.css, String.toList_join, Simple.ShowsReference]

theorem Link.mem_css (compressed : Bool) :
    '&' ∈ (link.css compressed).toList ↔ ∃ simple ∈ link.compound, simple.ShowsReference := by
  rw [← Compound.mem_css]
  refine ⟨fun shown => ?_, fun shown => ?_⟩
  · by_contra absent
    exact notMem_link absent compressed shown
  · rw [Link.css, String.toList_append]
    exact List.mem_append_left _ shown

theorem mem_css (compressed : Bool) (selector : Selector) :
    '&' ∈ (selector.css compressed).toList ↔ ∃ simple ∈ simples selector.links, simple.ShowsReference := by
  obtain ⟨links⟩ := selector
  rw [css_toList, linksText, List.mem_flatMap]
  simp only [Link.mem_css, simples, List.mem_flatMap]
  constructor
  · rintro ⟨link, known, simple, member, shows⟩
    exact ⟨simple, ⟨link, known, member⟩, shows⟩
  · rintro ⟨simple, ⟨link, known, member⟩, shows⟩
    exact ⟨link, known, simple, member, shows⟩

/-! What was read -/

theorem notMem_of_nameChars {cs : List Char} (continues : ∀ c ∈ cs, Token.isNameChar c = true) : '&' ∉ cs :=
  fun member => Bool.noConfusion (continues '&' member)

theorem IsName.notMem {name : List Char} (named : IsName name) : '&' ∉ name := by
  obtain ⟨hyphen, start, continues⟩ := named
  refine fun member => ?_
  rcases List.mem_append.1 member with front | back
  · exact Bool.noConfusion (hyphen '&' front)
  · rcases List.mem_cons.1 back with rfl | later
    · cases start
    · exact notMem_of_nameChars continues later

theorem notMem_digits {cs : List Char} (digits : ∀ c ∈ cs, c.isDigit = true) : '&' ∉ cs :=
  fun member => Bool.noConfusion (digits '&' member)

theorem IsPercentage.notMem {text : List Char} (looks : IsPercentage text) : '&' ∉ text := by
  cases looks with
  | whole _ digits => simpa using notMem_digits digits
  | fraction _ digits more => simpa using ⟨notMem_digits digits, not_or.1 (List.mem_cons.not.1 (notMem_digits more))⟩

/-- Names have no ampersand. -/
theorem Reads.isVerbatim {cs left : List Char} (reads : Reads cs simple left) (plain : simple.isParent = false)
    (shows : simple.ShowsReference) : simple.isVerbatim = true := by
  unfold Simple.ShowsReference Simple.css at shows
  cases reads with
  | idName named | className named | placeholder named => simp [named.notMem] at shows
  | element named => simp [named.notMem] at shows
  | percentage looks => simp [looks.notMem] at shows
  | universal => simp at shows
  | parent | continued => cases plain
  | pseudo | call | bracketed => rfl

theorem Reads.notMem_continuation {cs left : List Char} {more : String}
    (reads : Reads cs (.parent (some more)) left) : '&' ∉ more.toList := by
  cases reads with
  | continued _ continues => simpa using notMem_of_nameChars continues

theorem ReadsAll.exists_reads {cs left : List Char} (reads : ReadsAll cs compound left) :
    ∀ simple ∈ compound, ∃ cs left, Reads cs simple left := by
  induction reads with
  | nil => nofun
  | cons first _ later => exact List.forall_mem_cons.2 ⟨⟨_, _, first⟩, later⟩

theorem Linked.exists_reads (linked : Linked links) : ∀ simple ∈ simples links, ∃ cs left, Reads cs simple left := by
  induction linked with
  | last reads _ => simpa [simples] using reads.exists_reads
  | next reads _ _ _ later =>
    rw [simples, List.flatMap_cons, List.forall_mem_append]
    exact ⟨reads.exists_reads, later⟩

theorem Readable.exists_reads {selector : Selector} (readable : Readable selector) :
    ∀ simple ∈ simples selector.links, ∃ cs left, Reads cs simple left := by
  cases readable with
  | plain linked => exact linked.exists_reads
  | leading _ linked => simpa [simples] using linked.exists_reads

/-! Nesting -/

/-- A simple selector with its name continued, or as it was. -/
structure Stems (before after : Simple) : Prop where
  shows : after.ShowsReference ↔ before.ShowsReference
  verbatim : after.isVerbatim = before.isVerbatim

theorem Stems.refl (simple : Simple) : Stems simple simple := ⟨Iff.rfl, rfl⟩

theorem Stems.trans {first second third : Simple} (stems : Stems first second) (more : Stems second third) :
    Stems first third := ⟨more.shows.trans stems.shows, more.verbatim.trans stems.verbatim⟩

theorem stems_continued {last longer : Simple} {more : String} (absent : '&' ∉ more.toList)
    (continued : last.continued more = some longer) : Stems last longer := by
  cases last <;> cases continued <;> refine ⟨?_, rfl⟩ <;> simp [Simple.ShowsReference, Simple.css, absent]

theorem forall₂_stems_trans {first second third : List Simple} (stems : List.Forall₂ Stems first second)
    (more : List.Forall₂ Stems second third) : List.Forall₂ Stems first third := by
  induction stems generalizing third with
  | nil => exact more
  | cons here _ later =>
    cases more with
    | cons here' behind => exact .cons (here.trans here') (later behind)

/-- The base, perhaps with its last name continued, and what stood beside the references. -/
theorem graft_stems (absent : ∀ more, .parent (some more) ∈ compound → '&' ∉ more.toList)
    (ran : graft base isFirst compound = .ok result) :
    List.Forall₂ Stems (base ++ compound.filter (!·.isParent)) result := by
  induction compound generalizing base isFirst with
  | nil =>
    cases ran
    simpa using List.forall₂_same.2 fun simple _ => Stems.refl simple
  | cons simple compound later =>
    have absent' (more : String) (member : .parent (some more) ∈ compound) : '&' ∉ more.toList :=
      absent more (List.mem_cons_of_mem _ member)
    unfold graft at ran
    split at ran
    next same => cases same
    next more rest same =>
      cases same
      split at ran
      next longer found =>
        obtain ⟨last, final, continued⟩ := Option.bind_eq_some_iff.1 found
        have stems := stems_continued (absent more List.mem_cons_self) continued
        have step : List.Forall₂ Stems (base ++ compound.filter (!·.isParent))
            (base.dropLast ++ [longer] ++ compound.filter (!·.isParent)) := by
          conv => lhs; rw [← List.dropLast_append_getLast? last final]
          have alike (simples : List Simple) : List.Forall₂ Stems simples simples :=
            List.forall₂_same.2 fun simple _ => .refl simple
          exact List.rel_append (List.rel_append (alike _) (.cons stems .nil)) (alike _)
        exact forall₂_stems_trans step (later absent' ran)
      next => cases ran
    next same =>
      cases same
      exact later absent' ran
    next notParent _ same =>
      cases same
      have plain : simple.isParent = false := by
        cases simple with
        | parent => exact (notParent _ rfl).elim
        | _ => rfl
      rw [List.filter_cons_of_pos (by rw [plain]; rfl), List.append_cons]
      exact later absent' ran

/-- A simple selector of a nested selector that is no reference to the parent, or one that finds nothing there. -/
def Stays (parent : Selector) (simple : Simple) : Prop := simple.isParent = true → parent.links = []

/-- The simple selectors of a nested selector, and those of what it means inside the parent. -/
structure Nests (parent : Selector) (inner outer : List Simple) : Prop where
  origin : ∀ after ∈ outer, ∃ before, Stems before after ∧
    (before ∈ simples parent.links ∨ before ∈ inner ∧ Stays parent before)
  kept : ∀ before ∈ inner, Stays parent before → ∃ after ∈ outer, Stems before after

namespace Nests

variable {parent child : Selector} {inner inner' outer outer' : List Simple}

theorem outside (parent : Selector) : Nests parent [] (simples parent.links) :=
  ⟨fun after member => ⟨after, .refl after, .inl member⟩, nofun⟩

theorem itself (stay : ∀ simple ∈ inner, Stays parent simple) : Nests parent inner inner :=
  ⟨fun after member => ⟨after, .refl after, .inr ⟨member, stay after member⟩⟩,
    fun before member _ => ⟨before, member, .refl before⟩⟩

theorem append (first : Nests parent inner outer) (second : Nests parent inner' outer') :
    Nests parent (inner ++ inner') (outer ++ outer') where
  origin after member := by
    rcases List.mem_append.1 member with front | back
    · obtain ⟨before, stems, origin⟩ := first.origin after front
      exact ⟨before, stems, origin.imp_right (And.imp_left (List.mem_append_left _))⟩
    · obtain ⟨before, stems, origin⟩ := second.origin after back
      exact ⟨before, stems, origin.imp_right (And.imp_left (List.mem_append_right _))⟩
  kept before member stays := by
    rcases List.mem_append.1 member with front | back
    · obtain ⟨after, there, stems⟩ := first.kept before front stays
      exact ⟨after, List.mem_append_left _ there, stems⟩
    · obtain ⟨after, there, stems⟩ := second.kept before back stays
      exact ⟨after, List.mem_append_right _ there, stems⟩

end Nests

theorem exists_stems {before after : List Simple} (stems : List.Forall₂ Stems before after) :
    ∀ simple ∈ before, ∃ longer ∈ after, Stems simple longer :=
  forall₂_mem_right stems.flip

theorem Link.within_nests {parent : Selector} (absent : ∀ more, .parent (some more) ∈ link.compound → '&' ∉ more.toList)
    (ran : link.within parent = .ok links) : Nests parent link.compound (simples links) := by
  unfold Link.within at ran
  split at ran
  next =>
    split at ran
    next missing =>
      cases ran
      rw [simples_singleton]
      exact .itself fun _ _ _ => List.getLast?_eq_none_iff.1 missing
    next last final =>
      split at ran
      next compound grafted =>
        cases ran
        have stems := graft_stems absent grafted
        have outer : simples parent.links = simples parent.links.dropLast ++ last.compound := by
          conv => lhs; rw [← List.dropLast_append_getLast? last final]
          rw [simples_append, simples_singleton]
        rw [simples_append, simples_singleton]
        refine ⟨fun after member => ?_, fun before member stays => ?_⟩
        · rw [outer]
          rcases List.mem_append.1 member with front | back
          · exact ⟨after, .refl after, .inl (List.mem_append_left _ front)⟩
          · obtain ⟨before, known, stems⟩ := forall₂_mem_right stems after back
            refine ⟨before, stems, ?_⟩
            rcases List.mem_append.1 known with based | beside
            · exact .inl (List.mem_append_right _ based)
            · obtain ⟨inside, plain⟩ := List.mem_filter.1 beside
              exact .inr ⟨inside, fun refers => by simp [refers] at plain⟩
        · have plain : before.isParent = false := Bool.eq_false_iff.2 fun refers => by
            rw [stays refers] at final
            cases final
          obtain ⟨after, there, stems⟩ := exists_stems stems before
            (List.mem_append_right _ (List.mem_filter.2 ⟨member, by rw [plain]; rfl⟩))
          exact ⟨after, List.mem_append_right _ there, stems⟩
      next => cases ran
  next plain =>
    cases ran
    rw [simples_singleton]
    exact .itself fun simple member refers => absurd (List.any_eq_true.2 ⟨simple, member, refers⟩) plain

theorem simples_withLast (links : List Link) (combinator : Combinator) :
    simples (withLast links combinator) = simples links := by
  rcases List.eq_nil_or_concat links with rfl | ⟨before, last, rfl⟩
  · rfl
  · rw [List.concat_eq_append, withLast_concat, simples_append, simples_append, simples_singleton, simples_singleton]

theorem within_nests {parent child result : Selector}
    (absent : ∀ more, .parent (some more) ∈ simples child.links → '&' ∉ more.toList)
    (ran : within parent child = .ok result) : Nests parent (simples child.links) (simples result.links) := by
  by_cases refers : child.refersToParent = true
  · obtain ⟨groups, each, rfl⟩ := (within_refers refers).1 ran
    clear ran refers
    generalize child.links = links at each absent
    induction each with
    | nil => exact .itself nofun
    | @cons link group links groups ran _ later =>
      rw [simples, List.flatMap_cons, ← simples, List.flatten_cons, simples_append]
      rw [simples, List.flatMap_cons, ← simples] at absent
      exact (Link.within_nests (fun more member => absent more (List.mem_append_left _ member)) ran).append
        (later fun more member => absent more (List.mem_append_right _ member))
  · have stay : ∀ simple ∈ simples child.links, Stays parent simple := by
      intro simple member reference
      obtain ⟨link, known, inside⟩ := List.mem_flatMap.1 member
      exact absurd (List.any_eq_true.2 ⟨link, known, List.any_eq_true.2 ⟨simple, inside, reference⟩⟩) refers
    -- The child's links stand behind the parent's, of which one has another combinator perhaps.
    have behind (links : List Link) (same : simples links = simples parent.links) :
        Nests parent (simples child.links) (simples links ++ simples child.links) := by
      rw [same]
      exact (Nests.outside parent).append (.itself stay)
    rw [within, if_neg refers] at ran
    split at ran
    next combinator rest begins =>
      cases ran
      have inner : simples child.links = simples rest := by rw [begins]; rfl
      rw [simples_append, ← inner]
      exact behind _ (simples_withLast _ _)
    next =>
      cases ran
      rw [simples_append]
      refine behind _ ?_
      split
      · exact simples_withLast _ _
      · rfl

section Reference

variable {parent child result : Selector}

theorem refersToParent_iff_mem :
    child.refersToParent = true ↔ ∃ simple ∈ simples child.links, simple.isParent = true := by
  simp only [refersToParent, simples, List.any_eq_true, List.mem_flatMap]
  constructor
  · rintro ⟨link, known, simple, inside, refers⟩
    exact ⟨simple, ⟨link, known, inside⟩, refers⟩
  · rintro ⟨simple, ⟨link, known, inside⟩, refers⟩
    exact ⟨link, known, simple, inside, refers⟩

theorem Readable.within_nests (readable : Readable child) (ran : within parent child = .ok result) :
    Nests parent (simples child.links) (simples result.links) :=
  Selector.within_nests (fun more member => by
    obtain ⟨cs, left, reads⟩ := readable.exists_reads _ member
    exact reads.notMem_continuation) ran

/-- An ampersand in a nested selector was one there: in a text that is kept as it was written, or as a reference to a
parent that has nothing to put in its place. -/
theorem Readable.origin (readable : Readable child) (plain : ∀ simple ∈ simples parent.links, ¬simple.ShowsReference)
    (ran : within parent child = .ok result) {after : Simple} (member : after ∈ simples result.links)
    (shows : after.ShowsReference) : ∃ before ∈ simples child.links, Stems before after ∧
      (before.isVerbatim = true ∨ before.isParent = true ∧ parent.links = []) := by
  obtain ⟨before, stems, outer | ⟨inner, stays⟩⟩ := (readable.within_nests ran).origin after member
  · exact absurd (stems.shows.1 shows) (plain before outer)
  · obtain ⟨cs, left, reads⟩ := readable.exists_reads before inner
    cases refers : before.isParent with
    | true => exact ⟨before, inner, stems, .inr ⟨refers, stays refers⟩⟩
    | false => exact ⟨before, inner, stems, .inl (reads.isVerbatim refers (stems.shows.1 shows))⟩

theorem Readable.within_shows (readable : Readable child)
    (plain : ∀ simple ∈ simples parent.links, ¬simple.ShowsReference) (ran : within parent child = .ok result) :
    (∃ simple ∈ simples result.links, simple.ShowsReference) ↔
      (∃ simple ∈ simples child.links, simple.isVerbatim = true ∧ simple.ShowsReference) ∨
        parent.links = [] ∧ child.refersToParent = true := by
  have nests := readable.within_nests ran
  constructor
  · rintro ⟨after, member, shows⟩
    obtain ⟨before, inner, stems, verbatim | ⟨refers, empty⟩⟩ := readable.origin plain ran member shows
    · exact .inl ⟨before, inner, verbatim, stems.shows.1 shows⟩
    · exact .inr ⟨empty, refersToParent_iff_mem.2 ⟨before, inner, refers⟩⟩
  · rintro (⟨before, inner, verbatim, shows⟩ | ⟨empty, refers⟩)
    · have stays : Stays parent before := fun refers => by
        cases before <;> first | exact absurd refers Bool.false_ne_true | exact absurd verbatim Bool.false_ne_true
      obtain ⟨after, there, stems⟩ := nests.kept before inner stays
      exact ⟨after, there, stems.shows.2 shows⟩
    · obtain ⟨before, inner, reference⟩ := refersToParent_iff_mem.1 refers
      obtain ⟨after, there, stems⟩ := nests.kept before inner fun _ => empty
      refine ⟨after, there, stems.shows.2 ?_⟩
      cases before with
      | parent more => simp [Simple.ShowsReference, Simple.css_parent]
      | _ => cases reference

end Reference

end Selector

namespace Selectors

open Selector (simples)

theorem mem_css (compressed : Bool) (selectors : Selectors) : '&' ∈ (css compressed selectors).toList ↔
    ∃ selector ∈ selectors, ∃ simple ∈ simples selector.links, simple.ShowsReference := by
  have comma : '&' ∉ Selector.comma compressed := by cases compressed <;> decide
  simp only [← Selector.mem_css compressed]
  cases selectors with
  | nil => cases compressed <;> simp [css]
  | cons first selectors => simp [css_toList, Selector.moreText, comma]

/-- Which ampersands are left when a list of selectors has been put in the place of the references to it: those in the
argument of a pseudo-class or the inside of an attribute selector, which are kept as they are written. A selector
without links has nothing that could be put in place of a reference; no text is read as such a selector. -/
theorem resolve_references (parents : Selectors) (text : String) (result : Selectors) (compressed : Bool)
    (plain : '&' ∉ (parents.css compressed).toList) (grammatical : Grammatical (parse text))
    (ran : (parse text).resolve (some parents) = .ok result) :
    ('&' ∈ (result.css compressed).toList ↔
      (parents ≠ [] ∧ ∃ child ∈ parse text, ∃ simple ∈ simples child.links,
        simple.isVerbatim = true ∧ simple.ShowsReference) ∨
      (∃ parent ∈ parents, parent.links = []) ∧ ∃ child ∈ parse text, child.refersToParent = true) ∧
    ((∀ parent ∈ parents, parent.links ≠ []) → ∀ selector ∈ result, ∀ simple ∈ simples selector.links,
      simple.ShowsReference → simple.isVerbatim = true) := by
  have readable := parse_readable grammatical
  have outer : ∀ parent ∈ parents, ∀ simple ∈ simples parent.links, ¬simple.ShowsReference := by
    intro parent member simple inside shows
    exact plain ((mem_css compressed parents).2 ⟨parent, member, simple, inside, shows⟩)
  constructor
  · rw [mem_css]
    constructor
    · rintro ⟨selector, member, shown⟩
      obtain ⟨parent, there, child, inner, nested⟩ := exists_within ran member
      rcases ((readable child inner).within_shows (outer parent there) nested).1 shown with verbatim | ⟨empty, refers⟩
      · exact .inl ⟨List.ne_nil_of_mem there, child, inner, verbatim⟩
      · exact .inr ⟨⟨parent, there, empty⟩, child, inner, refers⟩
    · rintro (⟨some, child, inner, verbatim⟩ | ⟨⟨parent, there, empty⟩, child, inner, refers⟩)
      · obtain ⟨parent, there⟩ := List.exists_mem_of_ne_nil parents some
        obtain ⟨selector, member, nested⟩ := exists_resolved ran there inner
        exact ⟨selector, member, ((readable child inner).within_shows (outer parent there) nested).2 (.inl verbatim)⟩
      · obtain ⟨selector, member, nested⟩ := exists_resolved ran there inner
        exact ⟨selector, member,
          ((readable child inner).within_shows (outer parent there) nested).2 (.inr ⟨empty, refers⟩)⟩
  · intro full selector member simple inside shows
    obtain ⟨parent, there, child, inner, nested⟩ := exists_within ran member
    obtain ⟨before, -, stems, kept⟩ := (readable child inner).origin (outer parent there) nested inside shows
    rcases kept with verbatim | ⟨-, empty⟩
    · rw [stems.verbatim, verbatim]
    · exact absurd empty (full parent there)

/-- References in three places, in each of two selectors, one of them with a continuation. -/
theorem resolve_references_argument :
    let parents := parse "a > b, .c"
    let text := "&-x d + &, :not(&.e)"
    '&' ∉ (parents.css true).toList ∧ Grammatical (parse text) ∧ (∀ parent ∈ parents, parent.links ≠ []) ∧
      ∃ result, (parse text).resolve (some parents) = .ok result ∧ '&' ∈ (result.css true).toList ∧
        ∀ selector ∈ result, ∀ simple ∈ simples selector.links, simple.ShowsReference → simple.isVerbatim = true := by
  intro parents text
  have plain : '&' ∉ (css true parents).toList := by decide +kernel
  have grammatical : Grammatical (parse text) := by decide +kernel
  have full : ∀ parent ∈ parents, parent.links ≠ [] := by decide +kernel
  have shown : ∃ child ∈ parse text, ∃ simple ∈ simples child.links,
      simple.isVerbatim = true ∧ '&' ∈ simple.css.toList := by decide +kernel
  have succeeds : ((parse text).resolve (some parents)).isOk = true := by decide +kernel
  cases ran : (parse text).resolve (some parents) with
  | error reason =>
    rw [ran] at succeeds
    cases succeeds
  | ok result =>
    obtain ⟨left, only⟩ := resolve_references parents text result true plain grammatical ran
    exact ⟨plain, grammatical, full, result, rfl, left.2 (.inl ⟨by decide +kernel, shown⟩), only full⟩

/-- A reference in an argument stays, and so does one to a selector that has no links. -/
theorem references_left :
    ('&' ∉ (Selectors.css true (parse "a")).toList ∧ Grammatical (parse ":not(&)") ∧
      ((parse ":not(&)").resolve (some (parse "a"))).map (css true) = .ok "a :not(&)") ∧
    ('&' ∉ (Selectors.css true [⟨[]⟩]).toList ∧ Grammatical (parse "&") ∧
      ((parse "&").resolve (some [⟨[]⟩])).map (css true) = .ok "&") := by
  decide +kernel

end Selectors

end Stylesheet
