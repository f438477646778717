import Stylesheet.Proofs.SelectorParts

/-! Selectors are read from their own texts as they are. Such a text differs from the one that a selector was read from
in the blanks around its combinators and commas, and a compressed text has hardly any. -/

namespace Stylesheet

namespace Selector

variable {cs left rest : List Char} {compound : Compound} {steps : Nat}

/-- What is written behind a compound selector. -/
def behind (compressed : Bool) (combinator : Combinator) : List Char :=
  match combinator.symbol? with
  | some symbol => if compressed then symbol.toList else ' ' :: (symbol.toList ++ [' '])
  | none => if combinator = .descendant then [' '] else []

theorem Link.css_toList (compressed : Bool) (combinator : Combinator) (nonempty : compound ≠ []) :
    (Link.css compressed ⟨compound, combinator⟩).toList =
      (Compound.css compound).toList ++ behind compressed combinator := by
  have nonempty : compound.isEmpty = false := by simpa using nonempty
  cases combinator <;> cases compressed <;> simp [Link.css, behind, Combinator.symbol?, nonempty]

/-- The text of the links of a selector. -/
def linksText (compressed : Bool) (links : List Link) : List Char :=
  links.flatMap fun link => (link.css compressed).toList

/-- Links that were read: between two compound selectors stands a combinator, and behind the last one there is none. -/
inductive Linked : List Link → Prop where
  | last {cs left : List Char} {compound : Compound} (reads : ReadsAll cs compound left) (nonempty : compound ≠ []) :
    Linked [⟨compound, .none⟩]
  | next {cs left : List Char} {compound : Compound} {combinator : Combinator} {links : List Link}
      (reads : ReadsAll cs compound left) (nonempty : compound ≠ []) (joined : combinator ≠ .none)
      (more : Linked links) :
    Linked (⟨compound, combinator⟩ :: links)

variable {combinator : Combinator} {links : List Link} {compressed : Bool}

theorem readCombinator_symbol (read : readCombinator cs = some (combinator, left)) : combinator.symbol? ≠ none := by
  unfold readCombinator at read
  split at read <;> cases read <;> exact Option.some_ne_none _

theorem readJoined_reads {joiner : Combinator} (joined : joiner ≠ .none)
    (read : ((readCompound cs).map fun (compound, left) => ((joiner, compound), left)) =
      some ((combinator, compound), left)) :
    combinator ≠ .none ∧ compound ≠ [] ∧ ∃ between, ReadsAll between compound left := by
  obtain ⟨⟨next, after⟩, found, same⟩ := Option.map_eq_some_iff.1 read
  cases same
  obtain ⟨reads, nonempty⟩ := readCompound_reads found
  exact ⟨joined, nonempty, _, reads⟩

theorem readNext_reads (read : readNext cs = some ((combinator, compound), left)) :
    combinator ≠ .none ∧ compound ≠ [] ∧ ∃ between, ReadsAll between compound left := by
  unfold readNext at read
  dsimp only at read
  split at read
  next found =>
    apply readJoined_reads _ read
    intro none
    exact readCombinator_symbol found (none ▸ rfl)
  next =>
    split at read
    next => exact readJoined_reads Combinator.noConfusion read
    next => cases read

theorem readLinks_linked {between : List Char} (reads : ReadsAll between compound cs) (nonempty : compound ≠ [])
    (read : readLinks steps compound cs = (links, left)) : Linked links := by
  induction steps generalizing between compound cs links with
  | zero =>
    cases read
    exact .last reads nonempty
  | succ steps ih =>
    rw [readLinks] at read
    split at read
    next combinator next rest found =>
      obtain ⟨joined, some_compound, between, reads'⟩ := readNext_reads found
      cases read
      exact .next reads nonempty joined (ih reads' some_compound rfl)
    next =>
      cases read
      exact .last reads nonempty

/-- Where a selector ends: at the end of the text or at a comma. -/
def EndsSelector (cs : List Char) : Prop := ∀ c ∈ cs.head?, c = ','

theorem EndsSelector.stops (ends : EndsSelector cs) : Stops cs := by
  intro c first
  rw [ends c first]
  decide

theorem EndsSelector.readNext (ends : EndsSelector cs) : readNext cs = none := by
  cases cs with
  | nil => rfl
  | cons c cs =>
    have same : c = ',' := ends c rfl
    subst same
    rw [Selector.readNext]
    simp [skipSpace, isSpace, readCombinator]

/-- Neither a blank nor a combinator begins a compound selector. -/
theorem ReadsAll.begins (reads : ReadsAll cs compound left) (nonempty : compound ≠ []) (rest : List Char) :
    skipSpace ((Compound.css compound).toList ++ rest) = (Compound.css compound).toList ++ rest ∧
      readCombinator ((Compound.css compound).toList ++ rest) = none := by
  cases reads with
  | nil => exact absurd rfl nonempty
  | @cons _ _ _ simple compound first =>
    obtain ⟨c, begins, -, known⟩ := first.head_eq
    obtain ⟨more, same⟩ := List.head?_eq_some_iff.1 begins
    have notSpace : isSpace c = false := by
      apply Bool.eq_false_iff.2
      intro space
      simp only [isSpace, Bool.or_eq_true, beq_iff_eq] at space
      rcases space with ((rfl | rfl) | rfl) | rfl <;> exact not_opens (by simp) known
    rw [Compound.css_cons, same, List.append_assoc, List.cons_append, skipSpace,
      List.dropWhile_cons_of_neg (by simp [notSpace])]
    refine ⟨rfl, ?_⟩
    unfold readCombinator
    split
    next begins => exact absurd known (not_opens (by rw [(List.cons.inj begins).1]; simp))
    next begins => exact absurd known (not_opens (by rw [(List.cons.inj begins).1]; simp))
    next begins => exact absurd known (not_opens (by rw [(List.cons.inj begins).1]; simp))
    next => rfl

theorem skipSpace_space (cs : List Char) : skipSpace (' ' :: cs) = skipSpace cs := rfl

theorem behind_symbol (symbol : combinator.symbol? ≠ none) (compressed : Bool) :
    behind compressed combinator =
      (if compressed then [] else [' ']) ++ (Link.css compressed ⟨[], combinator⟩).toList := by
  cases combinator <;> first | exact absurd rfl symbol | cases compressed <;> rfl

/-- A combinator is read again, and the blank that may stand behind it is skipped. -/
theorem readCombinator_again (symbol : combinator.symbol? ≠ none) (compressed : Bool) (begins : skipSpace rest = rest) :
    skipSpace ((Link.css compressed ⟨[], combinator⟩).toList ++ rest) =
        (Link.css compressed ⟨[], combinator⟩).toList ++ rest ∧
      ∃ after, readCombinator ((Link.css compressed ⟨[], combinator⟩).toList ++ rest) = some (combinator, after) ∧
        skipSpace after = rest := by
  cases combinator with
  | none | descendant => exact absurd rfl symbol
  | child | adjacent | sibling =>
    cases compressed with
    | false => exact ⟨rfl, ' ' :: rest, rfl, begins⟩
    | true => exact ⟨rfl, rest, rfl, begins⟩

theorem readNext_again (joined : combinator ≠ .none) (reads : ReadsAll cs compound left) (nonempty : compound ≠ [])
    (stops : Stops rest) :
    readNext (behind compressed combinator ++ ((Compound.css compound).toList ++ rest)) =
      some ((combinator, compound), rest) := by
  obtain ⟨begins, noCombinator⟩ := reads.begins nonempty rest
  have read := reads.readCompound nonempty stops
  generalize (Compound.css compound).toList ++ rest = text at *
  unfold readNext
  by_cases symbol : combinator.symbol? = none
  · have same : combinator = .descendant := by cases combinator <;> first | rfl | contradiction
    subst same
    have blank : behind compressed .descendant = [' '] := rfl
    simp only [blank, List.singleton_append, skipSpace_space, begins, noCombinator, List.length_cons, Nat.lt_succ_self,
      if_pos, read, Option.map_some]
  · obtain ⟨marked, after, found, left⟩ := readCombinator_again symbol compressed begins
    have skipped : skipSpace (behind compressed combinator ++ text) =
        (Link.css compressed ⟨[], combinator⟩).toList ++ text := by
      rw [behind_symbol symbol, List.append_assoc]
      cases compressed
      · exact (skipSpace_space _).trans marked
      · exact marked
    simp only [skipped, found, left, read, Option.map_some]

theorem behind_stops (joined : combinator ≠ .none) (cs : List Char) : Stops (behind compressed combinator ++ cs) := by
  cases combinator with
  | none => exact absurd rfl joined
  | descendant =>
    rintro c ⟨⟩
    decide
  | child | adjacent | sibling =>
    cases compressed <;> rintro c ⟨⟩ <;> decide

/-- The links of a selector are read again from behind its first compound selector. -/
theorem Linked.again (linked : Linked links) (compressed : Bool) :
    ∃ cs compound left text, ReadsAll cs compound left ∧ compound ≠ [] ∧
      linksText compressed links = (Compound.css compound).toList ++ text ∧
      ∀ rest steps, EndsSelector rest → text.length ≤ steps →
        Stops (text ++ rest) ∧ readLinks steps compound (text ++ rest) = (links, rest) := by
  -- The first compound selector is read by whoever reads what is in front of it, so it is kept apart.
  induction linked with
  | @last cs left compound reads nonempty =>
    refine ⟨cs, compound, left, [], reads, nonempty, ?_, ?_⟩
    · rw [linksText, List.flatMap_singleton, Link.css_toList compressed _ nonempty]
      rfl
    · intro rest steps ends _
      refine ⟨ends.stops, ?_⟩
      cases steps with
      | zero => rfl
      | succ steps => rw [List.nil_append, readLinks, ends.readNext]
  | @next cs left compound combinator links reads nonempty joined _ ih =>
    obtain ⟨cs', next, left', text, reads', nonempty', same, again⟩ := ih
    refine ⟨cs, compound, left, behind compressed combinator ++ linksText compressed links, reads, nonempty, ?_, ?_⟩
    · rw [linksText, List.flatMap_cons, Link.css_toList compressed _ nonempty, List.append_assoc]
      rfl
    · intro rest steps ends enough
      have short : 0 < (Compound.css next).toList.length :=
        Nat.lt_of_lt_of_le (List.length_pos_iff.2 nonempty') reads'.length_le
      rw [same, List.length_append, List.length_append] at enough
      obtain ⟨steps, rfl⟩ := Nat.exists_eq_add_one.2 (show 0 < steps by omega)
      obtain ⟨stops, read⟩ := again rest steps ends (by omega)
      rw [List.append_assoc]
      refine ⟨behind_stops joined _, ?_⟩
      rw [same, List.append_assoc, readLinks, readNext_again joined reads' nonempty' stops]
      dsimp only
      rw [read]

/-- A selector that was read: its links, with a combinator in front of them at most. -/
inductive Readable : Selector → Prop where
  | plain {links : List Link} (linked : Linked links) : Readable ⟨links⟩
  | leading {combinator : Combinator} {links : List Link} (symbol : combinator.symbol? ≠ none) (linked : Linked links) :
    Readable ⟨⟨[], combinator⟩ :: links⟩

variable {selector : Selector}

theorem readAfter_linked {leading : List Link}
    (read : ((readCompound cs).map fun (compound, rest) =>
      let (links, left) := readLinks rest.length compound rest
      (Selector.mk (leading ++ links), left)) = some (selector, left)) :
    ∃ links, selector = ⟨leading ++ links⟩ ∧ Linked links := by
  obtain ⟨⟨compound, after⟩, found, same⟩ := Option.map_eq_some_iff.1 read
  obtain ⟨reads, nonempty⟩ := readCompound_reads found
  cases same
  exact ⟨_, rfl, readLinks_linked reads nonempty rfl⟩

theorem read_readable (read : read cs = some (selector, left)) : Readable selector := by
  unfold Selector.read at read
  dsimp only at read
  split at read
  next found =>
    obtain ⟨links, rfl, linked⟩ := readAfter_linked read
    exact .leading (readCombinator_symbol found) linked
  next =>
    obtain ⟨links, rfl, linked⟩ := readAfter_linked read
    exact .plain linked

theorem css_toList (compressed : Bool) (links : List Link) :
    (Selector.css compressed ⟨links⟩).toList = linksText compressed links := by
  rw [css, String.toList_join, List.flatMap_map, linksText]

/-- What stands behind a combinator in front of a selector. -/
theorem Linked.readFirst (linked : Linked links) (compressed : Bool) (ends : EndsSelector rest) :
    skipSpace (linksText compressed links ++ rest) = linksText compressed links ++ rest ∧
      readCombinator (linksText compressed links ++ rest) = none ∧
      ∃ compound after, readCompound (linksText compressed links ++ rest) = some (compound, after) ∧
        readLinks after.length compound after = (links, rest) := by
  obtain ⟨cs, compound, left, text, reads, nonempty, same, again⟩ := linked.again compressed
  obtain ⟨stops, links_again⟩ := again rest (text ++ rest).length ends (by simp)
  obtain ⟨begins, noCombinator⟩ := reads.begins nonempty (text ++ rest)
  rw [same, List.append_assoc]
  exact ⟨begins, noCombinator, compound, text ++ rest, reads.readCompound nonempty stops, links_again⟩

theorem Readable.again (readable : Readable selector) (compressed : Bool) (ends : EndsSelector rest) :
    read ((selector.css compressed).toList ++ rest) = some (selector, rest) := by
  cases readable with
  | plain linked =>
    obtain ⟨begins, noCombinator, compound, after, first, links⟩ := linked.readFirst compressed ends
    rw [css_toList, Selector.read]
    simp only [begins, noCombinator, first, Option.map_some, links, List.nil_append]
  | @leading combinator links symbol linked =>
    obtain ⟨begins, -, compound, after, first, again⟩ := linked.readFirst compressed ends
    obtain ⟨marked, after', found, behind⟩ := readCombinator_again symbol compressed begins
    rw [css_toList, linksText, List.flatMap_cons, ← linksText, List.append_assoc, Selector.read]
    simp only [marked, found, behind, first, again, Option.map_some, List.singleton_append]

theorem read_space (cs : List Char) : read (' ' :: cs) = read cs := rfl

def comma (compressed : Bool) : List Char := if compressed then [','] else [',', ' ']

/-- The text of the selectors behind the first one. -/
def moreText (compressed : Bool) (selectors : Selectors) : List Char :=
  selectors.flatMap fun selector => comma compressed ++ (selector.css compressed).toList

variable {selectors : Selectors}

theorem endsSelector_moreText (compressed : Bool) (selectors : Selectors) :
    EndsSelector (moreText compressed selectors) := by
  cases selectors with
  | nil => rintro c ⟨⟩
  | cons selector selectors =>
    cases compressed <;>
    · rintro c ⟨⟩
      rfl

theorem readMore_again (readable : ∀ selector ∈ selectors, Readable selector) (compressed : Bool)
    (enough : selectors.length ≤ steps) : readMore steps (moreText compressed selectors) = (selectors, []) := by
  induction selectors generalizing steps with
  | nil => cases steps <;> rfl
  | cons selector selectors ih =>
    obtain ⟨steps, rfl⟩ := Nat.exists_eq_add_one.2 (Nat.lt_of_lt_of_le (Nat.zero_lt_succ _) enough)
    have more := ih (fun selector member => readable selector (List.mem_cons_of_mem _ member))
      (Nat.le_of_succ_le_succ enough)
    have first := (readable selector List.mem_cons_self).again compressed (endsSelector_moreText compressed selectors)
    have text : moreText compressed (selector :: selectors) =
        ',' :: ((if compressed then [] else [' ']) ++
          ((selector.css compressed).toList ++ moreText compressed selectors)) := by
      cases compressed <;> simp [moreText, comma]
    have begins (cs : List Char) : skipSpace (',' :: cs) = ',' :: cs := rfl
    have read : read ((if compressed then [] else [' ']) ++
        ((selector.css compressed).toList ++ moreText compressed selectors)) =
          some (selector, moreText compressed selectors) := by
      cases compressed
      · exact (read_space _).trans first
      · exact first
    rw [readMore, text, begins]
    simp only [read, more]

theorem length_le_moreText (compressed : Bool) (selectors : Selectors) :
    selectors.length ≤ (moreText compressed selectors).length := by
  induction selectors with
  | nil => exact Nat.zero_le _
  | cons selector selectors ih =>
    have short : 0 < (comma compressed).length := by cases compressed <;> decide
    rw [moreText, List.flatMap_cons, ← moreText, List.length_append, List.length_append, List.length_cons]
    omega

theorem readMore_readable (read : readMore steps cs = (selectors, left)) :
    ∀ selector ∈ selectors, Readable selector := by
  induction steps generalizing cs selectors with
  | zero =>
    cases read
    simp
  | succ steps ih =>
    rw [readMore] at read
    split at read
    next =>
      split at read
      next selector rest found =>
        cases read
        intro other member
        rcases List.mem_cons.1 member with rfl | later
        · exact read_readable found
        · exact ih rfl other later
      next =>
        cases read
        simp
    next =>
      cases read
      simp

def Simple.isRaw : Simple → Bool
  | .raw _ => true
  | _ => false

end Selector

namespace Selectors

open Selector (Readable)

variable {selectors : Selectors}

/-- No selector of a list is kept as it was written. -/
def Grammatical (selectors : Selectors) : Prop :=
  ∀ selector ∈ selectors, ∀ link ∈ selector.links, ∀ simple ∈ link.compound, simple.isRaw = false

instance (selectors : Selectors) : Decidable (Grammatical selectors) :=
  inferInstanceAs (Decidable (∀ selector ∈ selectors, ∀ link ∈ selector.links, ∀ simple ∈ link.compound,
    simple.isRaw = false))

theorem css_toList (compressed : Bool) (first : Selector) (selectors : Selectors) :
    (css compressed (first :: selectors)).toList =
      (first.css compressed).toList ++ Selector.moreText compressed selectors := by
  have separator : (if compressed then "," else ", ").toList = Selector.comma compressed := by cases compressed <;> rfl
  rw [css, String.toList_intercalate, separator, List.map_cons, List.map_cons, Text.intercalate_cons, List.map_map,
    List.flatMap_map]
  rfl

theorem read?_readable {cs : List Char} (read : read? cs = some selectors) :
    selectors ≠ [] ∧ ∀ selector ∈ selectors, Readable selector := by
  unfold read? at read
  split at read
  next first rest found =>
    dsimp only at read
    split at read
    next =>
      cases read
      refine ⟨List.cons_ne_nil _ _, ?_⟩
      intro selector member
      rcases List.mem_cons.1 member with rfl | later
      · exact Selector.read_readable found
      · exact Selector.readMore_readable rfl selector later
    next => cases read
  next => cases read

theorem parse_readable {text : String} (grammatical : Grammatical (parse text)) :
    ∀ selector ∈ parse text, Readable selector := by
  intro selector member
  unfold parse at grammatical member
  dsimp only at grammatical member
  cases read : read? text.toList with
  | some selectors =>
    rw [read] at member
    exact (read?_readable read).2 selector member
  | none =>
    rw [read] at grammatical member
    have kept := grammatical selector member
    obtain ⟨piece, -, rfl⟩ := List.mem_map.1 member
    exact absurd (kept _ List.mem_cons_self _ List.mem_cons_self) Bool.noConfusion

theorem parse_css_of_readable (readable : ∀ selector ∈ selectors, Readable selector) (compressed : Bool) :
    parse (css compressed selectors) = selectors := by
  cases selectors with
  | nil => cases compressed <;> rfl
  | cons first selectors =>
    have read := (readable first List.mem_cons_self).again compressed
      (Selector.endsSelector_moreText compressed selectors)
    have more := Selector.readMore_again (fun selector member => readable selector (List.mem_cons_of_mem _ member))
      compressed (Selector.length_le_moreText compressed selectors)
    have whole : read? (css compressed (first :: selectors)).toList = some (first :: selectors) := by
      rw [css_toList, read?, read]
      dsimp only
      rw [more]
      rfl
    rw [parse, whole]
    rfl

/-- What is read from the text of a list that was read is that list, whether the text is compressed or not. -/
theorem parse_css (text : String) (compressed : Bool) (grammatical : Grammatical (parse text)) :
    parse (css compressed (parse text)) = parse text :=
  parse_css_of_readable (parse_readable grammatical) compressed

def spacedText : String := " a\t>\n.b:not(.c , #d)[ x = y ]*,~ 50.5%\\e %-f"

def tightText : String := "a>.b:not(.c , #d)[x = y]*,~50.5%\\e %-f"

theorem parse_css_compressed :
    Grammatical (parse spacedText) ∧ css true (parse spacedText) = tightText ∧ parse tightText = parse spacedText := by
  have grammatical : Grammatical (parse spacedText) := by decide +kernel
  have text : css true (parse spacedText) = tightText := by decide +kernel
  have again := parse_css spacedText true grammatical
  rw [text] at again
  exact ⟨grammatical, text, again⟩

end Selectors

end Stylesheet
