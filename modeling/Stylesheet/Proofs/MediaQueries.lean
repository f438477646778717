import Mathlib.Data.Finset.Max
import Stylesheet.Proofs.ImportedText
import Stylesheet.Proofs.Placement
import Stylesheet.Proofs.Tasks
import Stylesheet.Proofs.Wording

/-! Media blocks directly inside of one another. A query is a list of alternatives, and the query of an inner block is
written as the text of both queries with an `and` between them. The commas of both stay where they are, so only the last
alternative of the outer query is joined, with the first one of the inner query. -/

namespace Stylesheet

namespace Text

variable {α : Type} {p : Char → Bool} {c : Char}

/-- One of the alternatives of a query, as its words. -/
abbrev Alternative := List (List Char)

def alternatives (query : List Char) : List Alternative := (pieces (· == ',') query).map words

/-- The last one of some lists becomes one with the first of others. -/
def glue (earlier later : List (List α)) : List (List α) :=
  earlier.dropLast ++ (earlier.getLastD [] ++ later.headD []) :: later.tail

theorem glue_ne_nil (earlier later : List (List α)) : glue earlier later ≠ [] := by
  simp [glue]

theorem glue_nil_left {lists : List (List α)} (nonempty : lists ≠ []) : glue [[]] lists = lists := by
  cases lists with
  | nil => exact absurd rfl nonempty
  | cons => rfl

theorem glue_nil_right {lists : List (List α)} (nonempty : lists ≠ []) : glue lists [[]] = lists := by
  obtain ⟨front, last, rfl⟩ := (List.eq_nil_or_concat' lists).resolve_left nonempty
  simp [glue]

theorem alternatives_ne_nil (query : List Char) : alternatives query ≠ [] :=
  List.map_eq_nil_iff.not.2 (pieces_ne_nil _ query)

theorem pieces_glue (first second : List Char) :
    pieces p (first ++ second) = glue (pieces p first) (pieces p second) := by
  induction first with
  | nil => exact (glue_nil_left (pieces_ne_nil p second)).symm
  | cons c first later =>
    obtain ⟨piece, others, cut⟩ := List.exists_cons_of_ne_nil (pieces_ne_nil p first)
    rw [List.cons_append, pieces, pieces, later, cut]
    split
    · simp [glue]
    · cases others <;> simp [glue]

/-- At a blank, the words of a query can be read apart. -/
theorem alternatives_blank (blank : isBlank c = true) (first second : List Char) :
    alternatives (first ++ c :: second) = glue (alternatives first) (alternatives second) := by
  have plain : (c == ',') = false := by
    cases same : c == ','
    · rfl
    · rw [beq_iff_eq.1 same] at blank
      cases blank
  obtain ⟨front, last, known⟩ := (List.eq_nil_or_concat' _).resolve_left (pieces_ne_nil (· == ',') first)
  obtain ⟨piece, others, cut⟩ := List.exists_cons_of_ne_nil (pieces_ne_nil (· == ',') second)
  have apart : words (last ++ c :: piece) = words last ++ words piece := wordsBy_append_separator blank last piece
  rw [alternatives, pieces_glue, alternatives, alternatives, known, pieces, plain, cut]
  simp [glue, apart]

/-- What the parts of a query between blanks make together. -/
def together (parts : List (List Char)) : List Alternative :=
  parts.foldr (fun part later => glue (alternatives part) later) [[]]

theorem together_ne_nil (parts : List (List Char)) : together parts ≠ [] := by
  cases parts with
  | nil => exact List.cons_ne_nil _ _
  | cons => exact glue_ne_nil _ _

/-- By induction on the rest of the query, behind a part that has begun. -/
theorem alternatives_append (start query : List Char) :
    alternatives (start ++ query) =
      glue (alternatives (start ++ (pieces isBlank query).headD [])) (together (pieces isBlank query).tail) := by
  induction query generalizing start with
  | nil => exact (glue_nil_right (alternatives_ne_nil _)).symm
  | cons c query later =>
    obtain ⟨piece, others, cut⟩ := List.exists_cons_of_ne_nil (pieces_ne_nil isBlank query)
    rw [cut] at later
    cases blank : isBlank c with
    | true =>
      have behind : alternatives query = together (piece :: others) := later []
      rw [alternatives_blank blank, behind, pieces, blank, cut]
      simp
    | false =>
      have behind := later (start ++ [c])
      rw [pieces, blank, cut]
      simpa using behind

theorem alternatives_eq_together (query : List Char) : alternatives query = together (pieces isBlank query) := by
  obtain ⟨piece, others, cut⟩ := List.exists_cons_of_ne_nil (pieces_ne_nil isBlank query)
  have apart := alternatives_append [] query
  rwa [cut] at apart ⊢

theorem together_filter (parts : List (List Char)) : together (parts.filter (!·.isEmpty)) = together parts := by
  induction parts with
  | nil => rfl
  | cons part parts later =>
    cases part with
    | nil => exact later.trans (glue_nil_left (together_ne_nil parts)).symm
    | cons c part => exact congrArg (glue (alternatives (c :: part))) later

theorem alternatives_intercalate (parts : List (List Char)) :
    alternatives (List.intercalate [' '] parts) = together parts := by
  induction parts with
  | nil => rfl
  | cons part parts later =>
    cases parts with
    | nil =>
      rw [List.intercalate_singleton]
      exact (glue_nil_right (alternatives_ne_nil part)).symm
    | cons next parts =>
      rw [List.intercalate_cons_of_ne_nil (List.cons_ne_nil _ _), List.append_assoc, List.singleton_append,
        alternatives_blank rfl, later]
      rfl

/-- A query in which each run of blanks is one space. -/
def collapsed (query : String) : String := " ".intercalate ((words query.toList).map String.ofList)

/-- Blanks make no difference. -/
theorem alternatives_collapsed (query : String) :
    alternatives (collapsed query).toList = alternatives query.toList := by
  have same : (collapsed query).toList = List.intercalate [' '] (words query.toList) := by
    simp [collapsed, Function.comp_def]
  rw [same, alternatives_intercalate, words, together_filter, ← alternatives_eq_together]

/-! What joined queries ask for -/

/-- Both alternatives must hold. -/
def both (first second : Alternative) : Alternative := first ++ "and".toList :: second

/-- Two queries with an `and` between them. -/
def meet (outer inner : List Alternative) : List Alternative :=
  outer.dropLast ++ both (outer.getLastD []) (inner.headD []) :: inner.tail

/-- Queries with an `and` between each and the next one. -/
def met : List (List Alternative) → List Alternative
  | [] => []
  | first :: others => others.foldl meet first

theorem met_concat {queries : List (List Alternative)} (nonempty : queries ≠ []) (query : List Alternative) :
    met (queries ++ [query]) = meet (met queries) query := by
  obtain ⟨first, others, rfl⟩ := List.exists_cons_of_ne_nil nonempty
  exact List.foldl_concat meet first query others

theorem alternatives_and (outer inner : String) :
    alternatives (outer ++ " and " ++ inner).toList = meet (alternatives outer.toList) (alternatives inner.toList) := by
  have apart : (outer ++ " and " ++ inner).toList = outer.toList ++ ' ' :: ("and".toList ++ ' ' :: inner.toList) := by
    simp
  have word : alternatives "and".toList = [["and".toList]] := rfl
  rw [apart, alternatives_blank rfl, alternatives_blank rfl, word]
  rfl

theorem length_meet {outer inner : List Alternative} (some_ : outer ≠ []) (some_' : inner ≠ []) :
    (meet outer inner).length + 1 = outer.length + inner.length := by
  have := List.length_pos_iff.2 some_
  have := List.length_pos_iff.2 some_'
  simp only [meet, List.length_append, List.length_dropLast, List.length_cons, List.length_tail]
  omega

/-- By induction on the number of queries: there is one alternative if there is one in each. -/
theorem length_met {queries : List (List Alternative)} (nonempty : queries ≠ [])
    (filled : ∀ query ∈ queries, query ≠ []) :
    met queries ≠ [] ∧ ((met queries).length = 1 ↔ ∀ query ∈ queries, query.length = 1) := by
  induction queries using List.reverseRecOn with
  | nil => exact absurd rfl nonempty
  | append_singleton front last earlier =>
    have behind : last ≠ [] := filled last (by simp)
    by_cases alone : front = []
    · subst alone
      exact ⟨behind, by simp [met]⟩
    · obtain ⟨before, single⟩ := earlier alone fun query member => filled query (by simp [member])
      have sum := length_meet before behind
      have := List.length_pos_iff.2 before
      have := List.length_pos_iff.2 behind
      rw [met_concat alone, List.forall_mem_append, List.forall_mem_singleton, ← single]
      exact ⟨by simp [meet], by omega⟩

variable {outer inner rest front tail : List Alternative} {last head top : Alternative}

theorem length_both (first second : Alternative) : (both first second).length = first.length + second.length + 1 := by
  simp [both, Nat.add_assoc]

/-- Beside a longest one there are no others that each have a shorter one behind them. -/
theorem eq_nil_of_descends (longest : ∀ one ∈ rest, one.length ≤ top.length)
    (descends : ∀ one ∈ rest, ∃ shorter, (shorter = top ∨ shorter ∈ rest) ∧ shorter.length < one.length) :
    rest = [] := by
  refine List.eq_nil_iff_forall_not_mem.2 fun one member => ?_
  induction size : one.length using Nat.strong_induction_on generalizing one with
  | h size smaller =>
    obtain ⟨shorter, rfl | among, less⟩ := descends one member
    · exact absurd (longest one member) (Nat.not_le.2 less)
    · exact smaller _ (size ▸ less) shorter among rfl

theorem exists_longest (nonempty : rest ≠ []) : ∃ one ∈ rest, ∀ other ∈ rest, other.length ≤ one.length := by
  have nonempty : rest.toFinset.Nonempty := (List.toFinset_nonempty_iff rest).2 nonempty
  obtain ⟨one, member, longest⟩ := rest.toFinset.exists_max_image List.length nonempty
  exact ⟨one, List.mem_toFinset.1 member, fun other among => longest other (List.mem_toFinset.2 among)⟩

/-- If all conjunctions are there, a longest one can only be that of the two alternatives that are joined. -/
theorem longest_of_complete (complete : ∀ first ∈ front ++ [last], ∀ second ∈ head :: tail,
      both first second ∈ front ++ both last head :: tail) :
    (∀ first ∈ front ++ [last], first.length ≤ last.length) ∧ ∀ second ∈ head :: tail, second.length ≤ head.length := by
  obtain ⟨first, among, longest⟩ := exists_longest (List.concat_ne_nil last front)
  obtain ⟨second, among', longest'⟩ := exists_longest (List.cons_ne_nil head tail)
  have upper : last.length ≤ first.length := longest last (by simp)
  have upper' : head.length ≤ second.length := longest' head (by simp)
  have size := length_both first second
  have top : first.length = last.length ∧ second.length = head.length := by
    rcases List.mem_append.1 (complete first among second among') with earlier | here
    · have := longest _ (List.mem_append_left _ earlier)
      omega
    · rcases List.mem_cons.1 here with same | later
      · have := congrArg List.length same
        rw [length_both, length_both] at this
        omega
      · have := longest' _ (List.mem_cons_of_mem _ later)
        omega
  exact ⟨fun one member => top.1 ▸ longest one member, fun one member => top.2 ▸ longest' one member⟩

/-- Joined as texts, two queries ask for exactly the conjunctions of an alternative of each if and only if both have one
alternative: each of the others that are left alone would have to be longer than what it consists of. -/
theorem meet_exact (some_ : outer ≠ []) (some_' : inner ≠ []) :
    (∀ alternative, alternative ∈ meet outer inner ↔
        ∃ first ∈ outer, ∃ second ∈ inner, alternative = both first second) ↔
      outer.length = 1 ∧ inner.length = 1 := by
  obtain ⟨front, last, rfl⟩ := (List.eq_nil_or_concat' outer).resolve_left some_
  obtain ⟨head, tail, rfl⟩ := List.exists_cons_of_ne_nil some_'
  have joined : meet (front ++ [last]) (head :: tail) = front ++ both last head :: tail := by simp [meet]
  rw [joined]
  constructor
  · intro exactly
    obtain ⟨longest, longest'⟩ := longest_of_complete fun first among second among' =>
      (exactly (both first second)).2 ⟨first, among, second, among', rfl⟩
    have noFront : front = [] := by
      refine eq_nil_of_descends (fun one member => longest one (List.mem_append_left _ member)) fun one member => ?_
      obtain ⟨part, among, other, -, rfl⟩ := (exactly one).1 (List.mem_append_left _ member)
      refine ⟨part, ?_, by rw [length_both]; omega⟩
      simpa [or_comm] using among
    have noTail : tail = [] := by
      refine eq_nil_of_descends (fun one member => longest' one (List.mem_cons_of_mem _ member)) fun one member => ?_
      obtain ⟨other, -, part, among, rfl⟩ := (exactly one).1 (List.mem_append_right _ (List.mem_cons_of_mem _ member))
      exact ⟨part, List.mem_cons.1 among, by rw [length_both]; omega⟩
    simp [noFront, noTail]
  · rintro ⟨single, single'⟩ alternative
    have noFront : front = [] := by simpa using single
    have noTail : tail = [] := by simpa using single'
    simp [noFront, noTail]

end Text

namespace Evaluation
open Evaluator Text

variable {environment : Environment} {queries : List (List Alternative)} {before between state : State}

/-- The block that is being filled is a media block directly inside of others, with these queries from the outermost one
on. There may be rules between them, and what is between them may come from mixins and imports. -/
inductive Nested : List (List Alternative) → State → Prop
  | first {state : State} (reached : Reachable state)
    (apart : ∀ media, state.place.media = some media → state.place.container ≠ some media.block)
    (words : String) (pos : Position) (outside : state.functionDepth = 0) :
    Nested [alternatives words.toList] (state.inMedia words pos)
  | deeper {queries : List (List Alternative)} {state : State} (nested : Nested queries state) (words : String)
    (pos : Position) (outside : state.functionDepth = 0) :
    Nested (queries ++ [alternatives words.toList]) (state.inMedia words pos)
  | leads {queries : List (List Alternative)} {part : Part} {before after : State} (nested : Nested queries before)
    (leads : Leads part before after) : Nested queries after
  | inside {queries : List (List Alternative)} {inner outer : Part} {state entered : State}
    {leave : State → State} (nested : Nested queries state) (enters : Enters inner outer state entered leave)
    (media : entered.place.media = state.place.media) (container : entered.place.container = state.place.container) :
    Nested queries entered

namespace Nested

theorem reachable (nested : Nested queries state) : Reachable state := by
  induction nested with
  | first reached apart words pos outside => exact .enters reached (.inMedia words pos outside)
  | deeper _ words pos outside reached => exact .enters reached (.inMedia words pos outside)
  | leads _ leads reached => exact .leads reached leads
  | inside _ enters _ _ reached => exact .enters reached enters

theorem filled (nested : Nested queries state) : queries ≠ [] ∧ ∀ query ∈ queries, query ≠ [] := by
  induction nested with
  | first => exact ⟨List.cons_ne_nil _ _, by simp [alternatives_ne_nil]⟩
  | deeper _ words _ _ filled =>
    refine ⟨by simp, fun query member => ?_⟩
    rcases List.mem_append.1 member with earlier | last
    · exact filled.2 query earlier
    · exact List.mem_singleton.1 last ▸ alternatives_ne_nil _
  | leads _ _ filled | inside _ _ _ _ filled => exact filled

/-- The media block is known, with its query. -/
theorem joined (nested : Nested queries state) : ∃ media, state.place.media = some media ∧
    state.place.container = some media.block ∧ alternatives media.query.toList = met queries := by
  induction nested with
  | @first state reached apart words pos outside =>
    refine ⟨_, rfl, rfl, ?_⟩
    have alone : (joinedMedia state.place words).1 = words := by
      unfold joinedMedia
      split
      · next media known => rw [if_neg (apart media known)]
      · rfl
    rw [alone]
    rfl
  | @deeper queries state nested words pos outside joined =>
    obtain ⟨media, known, direct, read⟩ := joined
    refine ⟨_, rfl, rfl, ?_⟩
    have together : (joinedMedia state.place words).1 = media.query ++ " and " ++ words := by
      simp only [joinedMedia, known, if_pos direct]
    rw [together, alternatives_and, read, met_concat nested.filled.1]
  | leads nested leads joined =>
    have same := (leads.returns nested.reachable.anchored).context
    rwa [same.media, same.container]
  | inside _ _ media container joined => rwa [media, container]

end Nested

/-- Where a media block is being filled, it is nested in that way. -/
theorem Reachable.nested (reached : Reachable state) {media : MediaContext} (known : state.place.media = some media)
    (direct : state.place.container = some media.block) : ∃ queries, Nested queries state := by
  induction reached generalizing media with
  | start sheet => cases known
  | leads reached leads nested =>
    have same := (leads.returns reached.anchored).context
    obtain ⟨queries, nested⟩ := nested (same.media ▸ known) (same.container ▸ direct)
    exact ⟨queries, nested.leads leads⟩
  | @enters inner outer state entered leave reached enters nested =>
    have within (here : entered.place.media = state.place.media)
        (there : entered.place.container = state.place.container) : ∃ queries, Nested queries entered := by
      obtain ⟨queries, nested⟩ := nested (here ▸ known) (there ▸ direct)
      exact ⟨queries, nested.inside enters here there⟩
    cases enters with
    | inMedia words pos outside =>
      by_cases apart : ∀ media, state.place.media = some media → state.place.container ≠ some media.block
      · exact ⟨_, .first reached apart words pos outside⟩
      · simp only [not_forall, not_not] at apart
        obtain ⟨media, known, direct⟩ := apart
        obtain ⟨queries, nested⟩ := nested known direct
        exact ⟨_, nested.deeper words pos outside⟩
    | inDirective name parameters pos =>
      -- The media block was there before the directive.
      obtain ⟨entry, found, -⟩ := reached.laid.media media known
      have old := (Array.getElem?_eq_some_iff.1 found).1
      have new : state.tree.entries.size = media.block := Option.some.inj direct
      omega
    | _ => exact within rfl rfl

/-- The new block is there when its body begins, and stays. -/
theorem media_written {depth : Nat} {query : Template Expr} {body : List Statement} {pos : Position} {text : String}
    (reached : Reachable between) (outside : between.functionDepth = 0)
    (read : Yields ((evaluator depth).text query) environment before text between) :
    let after := (((evaluator depth).media query body pos).outcome environment before).2
    ∃ node, after.tree.entries[between.tree.entries.size]? = some node ∧
      node.content = .block "media" (joinedMedia between.place (collapsed text)).1 := by
  intro after
  let words := collapsed text
  let told : State := { between with log := .media (joinedMedia between.place words).1 :: between.log }
  let ended := (((evaluator depth).run body).outcome environment (told.inMedia words pos)).2
  have ends : after.tree = ended.tree := by
    show ((Evaluator.media _ query body pos).outcome environment before).2.tree = _
    rw [Evaluator.media, read.bind]
    rfl
  have begun : Reachable (told.inMedia words pos) :=
    .enters (.leads reached (.report .statement between _)) (.inMedia words pos outside)
  obtain ⟨entry, found, content, -⟩ := begun.laid.media _ rfl
  have inside : Leads .statement (told.inMedia words pos) ended :=
    (run_performs (working_evaluator environment depth) body _).leads
  obtain ⟨node, present, same, -⟩ := (inside.returns begun.anchored).keeps _ _ found
  exact ⟨node, ends ▸ present, same.trans content⟩

/-- A media block directly inside of others is written with the query of the innermost one and its own. What is written
asks for exactly the conjunctions of both if and only if each query of the nest has one alternative. -/
theorem media_joined {depth : Nat} {query : Template Expr} {body : List Statement} {pos : Position} {text : String}
    (nested : Nested queries before) (outside : before.functionDepth = 0)
    (read : Yields ((evaluator depth).text query) environment before text between) :
    let after := (((evaluator depth).media query body pos).outcome environment before).2
    ∃ media node written, before.place.media = some media ∧
      after.tree.entries[between.tree.entries.size]? = some node ∧ node.content = .block "media" written ∧
      written = media.query ++ " and " ++ collapsed text ∧
      alternatives media.query.toList = met queries ∧
      alternatives written.toList = met (queries ++ [alternatives text.toList]) ∧
      ((∀ alternative, alternative ∈ alternatives written.toList ↔
          ∃ first ∈ alternatives media.query.toList, ∃ second ∈ alternatives text.toList,
            alternative = both first second) ↔
        ∀ query ∈ queries ++ [alternatives text.toList], query.length = 1) := by
  intro after
  have performs : Performs environment .expression before
      (((evaluator depth).text query).outcome environment before).2 :=
    text_performs (working_evaluator environment depth) query before
  rw [read] at performs
  have leads : Leads .expression before between := performs.leads
  have same := (leads.returns nested.reachable.anchored).context
  have nested := nested.leads leads
  obtain ⟨media, known, direct, outermost⟩ := nested.joined
  obtain ⟨nonempty, filled⟩ := nested.filled
  obtain ⟨node, present, content⟩ := @media_written environment before between depth query body pos text
    nested.reachable (leads.functionDepth.trans outside) read
  have joined : (joinedMedia between.place (collapsed text)).1 = media.query ++ " and " ++ collapsed text := by
    simp only [joinedMedia, known, if_pos direct]
  rw [joined] at content
  have together : alternatives (media.query ++ " and " ++ collapsed text).toList =
      meet (met queries) (alternatives text.toList) := by
    rw [alternatives_and, outermost, alternatives_collapsed]
  refine ⟨media, node, _, same.media.symm.trans known, present, content, rfl, outermost, ?_, ?_⟩
  · rw [together, met_concat nonempty]
  · obtain ⟨before, single⟩ := length_met nonempty filled
    rw [together, outermost, List.forall_mem_append, List.forall_mem_singleton, ← single]
    exact meet_exact before (alternatives_ne_nil _)

def listText : String := "@media a, b \x7b @media c \x7b d \x7b e: f \x7d \x7d \x7d"

def listSheet : Sheet :=
  { path := "stdin", source := listText, directory := none, chain := ["stdin"]
    statements := statementsOf listText "stdin" }

/-- Inside of the outer block, whose query is a list. -/
def listState : State := (State.start listSheet).inMedia "a, b" .start

theorem nested_listState : Nested [alternatives "a, b".toList] listState :=
  .first (.start _) (by rintro _ ⟨⟩) "a, b" .start rfl

/-- There, the query `c` is joined with `b` alone. -/
theorem media_joined_list :
    let after := (((evaluator 2).media [.text "c"] [] .start).outcome plainEnvironment listState).2
    ∃ node, after.tree.entries[1]? = some node ∧ node.content = .block "media" "a, b and c" ∧
      alternatives "a, b and c".toList = [[['a']], both [['b']] [['c']]] := by
  intro after
  have read : Yields ((evaluator 2).text [.text "c"]) plainEnvironment listState "c" listState := rfl
  obtain ⟨media, node, written, known, present, content, rfl, -, joined, -⟩ :=
    @media_joined plainEnvironment _ listState listState 2 [.text "c"] [] .start "c" nested_listState rfl read
  have outer : media.query = "a, b" := congrArg MediaContext.query (Option.some.inj known).symm
  have text : media.query ++ " and " ++ collapsed "c" = "a, b and c" := by
    rw [outer]
    decide +kernel
  rw [text] at content joined
  exact ⟨node, present, content, joined.trans (by decide +kernel)⟩

/-- What is written holds where `a` does, whether `c` does or not. -/
theorem list_joined_loosely :
    let after := (evaluate plainEnvironment listSheet).2
    (Statement.parse listText "stdin" false).isOk = true ∧
      (after.tree.write ⟨.compressed, 5, "", "", false⟩).toOption.map (·.css) =
        some "@media a, b and c\x7bd\x7be:f\x7d\x7d" ∧
      ¬∀ alternative, alternative ∈ alternatives "a, b and c".toList ↔
        ∃ first ∈ alternatives "a, b".toList, ∃ second ∈ alternatives "c".toList, alternative = both first second := by
  refine ⟨by decide +kernel, by decide +kernel, fun exactly => ?_⟩
  have loose := (exactly [['a']]).1 (by decide +kernel)
  exact absurd loose (by decide +kernel)

end Evaluation

end Stylesheet
