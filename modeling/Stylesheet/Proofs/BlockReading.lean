import Stylesheet.Proofs.SimpleReading

/-! What precedes a block is read first, each kind of it by itself, when it is known how the block is read. -/

namespace Stylesheet.Canonical

open Grammar
open Spelling (mark space dollarWord atSignWord)

variable {context : Context} {before between after more : List Spelling}
variable {statement : Statement} {behind : List Statement → Prop} {inBlock : Bool} {n : Nat}

theorem mem_separated {s : Spelling} {items : List (List Spelling)} (inside : s ∈ separated items) :
    s = mark ',' ∨ s = space ∨ ∃ item ∈ items, s ∈ item := by
  induction items with
  | nil => cases inside
  | cons first items ih =>
    cases items with
    | nil => exact .inr (.inr ⟨first, List.mem_cons_self, by simpa using inside⟩)
    | cons second items =>
      rw [separated_cons_cons, List.mem_append, List.mem_cons, List.mem_cons] at inside
      rcases inside with inside | rfl | rfl | inside
      · exact .inr (.inr ⟨first, List.mem_cons_self, inside⟩)
      · exact .inl rfl
      · exact .inr (.inl rfl)
      · rcases ih inside with same | same | ⟨item, member, inside⟩
        · exact .inl same
        · exact .inr (.inl same)
        · exact .inr (.inr ⟨item, List.mem_cons_of_mem _ member, inside⟩)

theorem Selector.raw (selector : Selector) : ∀ s ∈ selector.spellings ++ [space], IsRaw ['{', ';', '}'] s := by
  intro s inside
  rcases List.mem_append.1 inside with inside | inside
  · rcases mem_separated inside with rfl | rfl | ⟨item, member, inside⟩
    · exact .mark rfl (by decide)
    · exact .space
    · obtain ⟨name, -, rfl⟩ := List.mem_map.1 member
      simp only [List.mem_cons, List.not_mem_nil, or_false] at inside
      rcases inside with rfl | rfl
      · exact .mark rfl (by decide)
      · exact .word
  · cases List.mem_singleton.1 inside
    exact .space

theorem chars_append_space (spellings : List Spelling) :
    Spelling.chars (spellings ++ [space]) = Spelling.chars spellings ++ [' '] := by
  simp [space]

theorem Selector.isEmpty_text (selector : Selector) :
    (Template.ofText selector.text : Template Expr).isEmpty = false := by
  obtain ⟨tail, begins⟩ := selector.begins
  have nonempty : selector.text.isEmpty = false := by simp [text, begins]
  unfold Template.ofText Template.consText
  rw [nonempty]
  rfl

/-- A block is read. The number of calls needed grows with its tokens. -/
def ReadsBlock (context : Context) (body more : List Spelling) (inside : List Statement) : Prop :=
  ∀ {n before}, 16 * body.length + 3 ≤ n → Spelling.significant before = inBraces body ++ more →
    Parses context (block n) before more (Statement.bareAll · = inside)

theorem parses_rule (selector : Selector) {body : List Spelling} {inside : List Statement}
    (reads : ReadsBlock context body more inside) (enough : selector.spellings.length + 16 * body.length + 6 ≤ n)
    (pos : Position) :
    Parses context (rule n pos) (selector.spellings ++ space :: (inBraces body ++ more)) more
      (·.bare = .rule .start (.ofText selector.text) inside) := by
  obtain ⟨n, rfl⟩ := Nat.exists_eq_add_one.2 (Nat.zero_lt_of_lt enough)
  obtain ⟨tail, begins⟩ := selector.begins
  have text : String.ofList (tidied (Spelling.chars (selector.spellings ++ [space]))) = selector.text := by
    rw [chars_append_space, tidied_space, Selector.spellings, selector.tidy]
    rfl
  have written : Parses context (rawTemplate n false ['{', ';', '}'])
      (selector.spellings ++ [space] ++ mark '{' :: (body ++ [space, mark '}'] ++ more))
      (mark '{' :: (body ++ [space, mark '}'] ++ more)) (·.trimEnd = .ofText selector.text) := by
    rw [← text]
    refine parses_rawTemplate selector.raw ?_ rfl false ?_
    · rw [begins]
      rintro _ ⟨⟩
      rfl
    · rw [List.length_append, List.length_singleton]
      omega
  rw [List.append_assoc] at written
  rw [rule]
  refine written.bind fun template same => ?_
  dsimp only
  rw [same, selector.isEmpty_text]
  refine (parses_atMark significant_mark '{').bind ?_
  rintro _ rfl
  refine (reads (by omega) rfl).bind fun read known => .pure ?_
  rw [Statement.bare, known, Template.bare_ofText]

/-- A selector begins with a point, and no declaration does. -/
theorem parses_statements_rule (selector : Selector) {body : List Spelling} {inside : List Statement}
    (reads : ReadsBlock context body more inside) (enough : selector.spellings.length + 16 * body.length + 6 ≤ n)
    (rest : Parses context (statements n inBlock) more after behind) :
    Parses context (statements (n + 1) inBlock) (selector.spellings ++ space :: (inBraces body ++ more)) after
      (First (.rule .start (.ofText selector.text) inside) behind) := by
  obtain ⟨tail, begins⟩ := selector.begins
  have first := parses_rule selector reads enough
  rw [begins] at first ⊢
  rw [statements]
  refine parses_skipBlank.bind fun _ _ => ?_
  refine .get_bind fun tokens spelled => ?_
  have noDeclaration := startsDeclaration_eq_false spelled
  obtain ⟨token, left, rfl, known, -⟩ := List.map_eq_cons_iff.1 spelled
  have kind : token.kind = .mark '.' := congrArg Spelling.kind known
  dsimp only
  rw [kind, noDeclaration]
  refine (first token.pos (token :: left) spelled).bind fun first same => ?_
  exact rest.bind fun rest holds => .pure ⟨first, rest, rfl, same, holds⟩

theorem parses_callable (name : Word) (list : ParameterList) {body : List Spelling} {inside : List Statement}
    (reads : ReadsBlock context body more inside) (enough : list.spellings.length + 16 * body.length + 15 ≤ n) :
    Parses context (callable n)
      (space :: Spelling.word name.name :: (list.spellings ++ space :: (inBraces body ++ more))) more
      (Statement.bareCallable · = list.callable name inside) := by
  obtain ⟨n, rfl⟩ := Nat.exists_eq_add_one.2 (Nat.zero_lt_of_lt enough)
  have lengths : list.spellings.length = (separated list.items).length + 2 := by simp [ParameterList.spellings]
  rw [callable]
  refine (parses_expectName rfl).bind ?_
  rintro _ rfl
  refine (parses_eatMark significant_mark).bind ?_
  rintro _ rfl
  have starts : Spelling.significant (separated list.items ++ [mark ')'] ++ space :: (inBraces body ++ more)) =
      separated list.items ++ mark ')' :: space :: (inBraces body ++ more) := by
    rw [List.append_assoc]
    exact significant_items list.isItem ')' _
  obtain ⟨parameters, last⟩ := list
  refine (parses_parameters parameters last starts (by omega)).bind fun read known => ?_
  refine (reads (by omega) rfl).bind fun block same => ?_
  refine .read_bind (.pure ?_)
  simp only [Statement.bareCallable, known.1, known.2, same, ParameterList.callable]

/-! Directives -/

theorem parses_optionalBlock {body : List Spelling} {inside : List Statement} (reads : ReadsBlock context body more inside)
    (enough : 16 * body.length + 4 ≤ n) (starts : Spelling.significant before = inBraces body ++ more) :
    Parses context (optionalBlock n) before more (Statement.bareBlock · = some inside) := by
  obtain ⟨n, rfl⟩ := Nat.exists_eq_add_one.2 (Nat.zero_lt_of_lt enough)
  rw [optionalBlock]
  refine (parses_atMark starts '{').bind ?_
  rintro _ rfl
  refine (reads (by omega) starts).map.imp ?_
  rintro _ ⟨block, rfl, same⟩
  exact congrArg some same

theorem parses_rangeWord (inclusive : Bool)
    (starts : Spelling.significant before = Spelling.word (rangeWordOf inclusive) :: more) :
    Parses context rangeWord before more (· = inclusive) := by
  refine (parses_atWord starts "through").bind ?_
  rintro _ rfl
  cases inclusive with
  | true =>
    rw [rangeWordOf, if_pos rfl, sameWord_self]
    exact (parses_advance starts).bind fun _ _ => .pure rfl
  | false =>
    have other : Text.sameWord "to" "through" = false := sameWord_eq_false (by decide) (by decide) (by decide)
    rw [rangeWordOf, if_neg Bool.false_ne_true, other]
    refine (parses_atWord starts "to").bind ?_
    rintro _ rfl
    rw [rangeWordOf, if_neg Bool.false_ne_true, sameWord_self]
    exact (parses_advance starts).bind fun _ _ => .pure rfl

/-- The first bound of a range ends at the word in front of the second one. -/
theorem parses_lowerBound {v : Variable} (inclusive : Bool) (enough : 12 ≤ n) :
    Parses context (stoppingAt ["through", "to"] (expression n))
      (space :: v.spelling :: space :: Spelling.word (rangeWordOf inclusive) :: more)
      (space :: Spelling.word (rangeWordOf inclusive) :: more) (·.bare = v.expr) := by
  have closing : closes ["through", "to"] (Spelling.word (rangeWordOf inclusive)).kind = true := by
    cases inclusive <;> exact closes_word (by decide) (by decide) (by decide)
  refine .stoppingAt ((parses_expression rfl rfl closing rfl enough).imp ?_)
  rintro _ ⟨pos, rfl⟩
  rfl

theorem parses_loopNames (first : Variable) (names : List Variable)
    (starts : Spelling.significant before =
      separated ((first :: names).map fun v => [v.spelling]) ++ space :: Spelling.word "in" :: more)
    (enough : (separated ((first :: names).map fun v => [v.spelling])).length ≤ n) :
    Parses context (loopNames n) before (space :: Spelling.word "in" :: more)
      (· = (first :: names).map Variable.name) := by
  induction names generalizing first before n with
  | nil =>
    obtain ⟨n, rfl⟩ := Nat.exists_eq_add_one.2 (Nat.lt_of_lt_of_le Nat.zero_lt_one enough)
    rw [loopNames]
    refine (parses_expectVariable starts).bind ?_
    rintro _ rfl
    refine (parses_eatMark_other (s := Spelling.word "in") rfl rfl).bind ?_
    rintro _ rfl
    exact .pure rfl
  | cons second names ih =>
    rw [List.map_cons] at starts enough
    have shorter := length_separated_lt (List.cons_ne_nil first.spelling []) ((second :: names).map fun v => [v.spelling])
    obtain ⟨n, rfl⟩ := Nat.exists_eq_add_one.2 (Nat.lt_of_lt_of_le (Nat.zero_lt_of_lt shorter) enough)
    rw [separated_cons] at starts
    rw [loopNames]
    refine (parses_expectVariable starts).bind ?_
    rintro _ rfl
    refine (parses_eatMark significant_mark).bind ?_
    rintro _ rfl
    have behind : Parses context (loopNames n)
        (space :: (separated ((second :: names).map fun v => [v.spelling]) ++ space :: Spelling.word "in" :: more))
        (space :: Spelling.word "in" :: more) (· = (second :: names).map Variable.name) :=
      ih second (significant_separated second [] _ _) (by omega)
    refine behind.bind ?_
    rintro _ rfl
    exact .pure rfl

section Blocks

variable {body : List Spelling} {inside : List Statement} (reads : ReadsBlock context body more inside) (pos : Position)

include reads

theorem parses_media (query : Query) (enough : 16 * body.length + 5 ≤ n) :
    Parses context (directive (n + 1) "media" pos) (space :: Spelling.word query.name :: space :: (inBraces body ++ more))
      more (·.bare = .media .start (.ofText query.name) inside) := by
  have raw : ∀ s ∈ [Spelling.word query.name, space], IsRaw ['{', ';'] s := by
    intro s member
    simp only [List.mem_cons, List.not_mem_nil, or_false] at member
    rcases member with rfl | rfl
    · exact .word
    · exact .space
  have text : Spelling.chars [Spelling.word query.name, space] = query.name.toList ++ [' '] := by
    simp [Spelling.word, space]
  have written : Parses context (rawTemplate n true ['{', ';']) (Spelling.word query.name :: space :: (inBraces body ++ more))
      (inBraces body ++ more) (·.trimEnd = .ofText query.name) := by
    refine (parses_rawTemplate raw (by rintro _ ⟨⟩; rfl) rfl true (by simp; omega)).imp fun template same => ?_
    rw [same, text, tidied_space, query.tidy, String.ofList_toList]
  rw [directive]
  simp only [show "media".toLower = "media" from toLower_eq_self (by decide)]
  refine parses_skipTrivia.bind fun _ _ => ?_
  refine written.bind fun template same => ?_
  refine (reads (by omega) rfl).bind fun block known => .pure ?_
  rw [Statement.bare, same, known, Template.bare_ofText]

theorem parses_mixin (name : Word) (list : ParameterList) (enough : list.spellings.length + 16 * body.length + 15 ≤ n) :
    Parses context (directive (n + 1) "mixin" pos)
      (space :: Spelling.word name.name :: (list.spellings ++ space :: (inBraces body ++ more))) more
      (·.bare = .mixin .start (list.callable name inside)) := by
  rw [directive]
  simp only [show "mixin".toLower = "mixin" from toLower_eq_self (by decide)]
  exact (parses_callable name list reads enough).bind fun _ same => .pure (by rw [Statement.bare, same])

theorem parses_function (name : Word) (list : ParameterList)
    (enough : list.spellings.length + 16 * body.length + 15 ≤ n) :
    Parses context (directive (n + 1) "function" pos)
      (space :: Spelling.word name.name :: (list.spellings ++ space :: (inBraces body ++ more))) more
      (·.bare = .function .start (list.callable name inside)) := by
  rw [directive]
  simp only [show "function".toLower = "function" from toLower_eq_self (by decide)]
  exact (parses_callable name list reads enough).bind fun _ same => .pure (by rw [Statement.bare, same])

theorem parses_each (first : Variable) (names : List Variable) (items : Variable)
    (enough : (separated ((first :: names).map fun v => [v.spelling])).length + 16 * body.length + 12 ≤ n) :
    Parses context (directive (n + 1) "each" pos)
      (space :: (separated ((first :: names).map fun v => [v.spelling]) ++
        space :: Spelling.word "in" :: space :: items.spelling :: space :: (inBraces body ++ more))) more
      (·.bare = .forEach .start ((first :: names).map Variable.name) items.expr inside) := by
  rw [directive]
  simp only [show "each".toLower = "each" from toLower_eq_self (by decide)]
  have listed : Parses context (loopNames n)
      (space :: (separated ((first :: names).map fun v => [v.spelling]) ++
        space :: Spelling.word "in" :: space :: items.spelling :: space :: (inBraces body ++ more)))
      (space :: Spelling.word "in" :: space :: items.spelling :: space :: (inBraces body ++ more))
      (· = (first :: names).map Variable.name) :=
    parses_loopNames first names (significant_separated first [] _ _) (by omega)
  refine listed.bind ?_
  rintro _ rfl
  refine (parses_expectWord rfl).bind fun _ _ => ?_
  refine (parses_whole rfl rfl (by simp) (by omega)).bind fun items same => ?_
  exact (reads (by omega) rfl).bind fun block known => .pure (by rw [Statement.bare, same, known])

theorem parses_while (condition : Variable) (enough : 16 * body.length + 12 ≤ n) :
    Parses context (directive (n + 1) "while" pos) (space :: condition.spelling :: space :: (inBraces body ++ more)) more
      (·.bare = .whileTrue .start condition.expr inside) := by
  rw [directive]
  simp only [show "while".toLower = "while" from toLower_eq_self (by decide)]
  refine (parses_whole rfl rfl (by simp) (by omega)).bind fun read same => ?_
  exact (reads (by omega) rfl).bind fun block known => .pure (by rw [Statement.bare, same, known])

theorem parses_for (name first last : Variable) (inclusive : Bool) (enough : 16 * body.length + 12 ≤ n) :
    Parses context (directive (n + 1) "for" pos)
      (space :: name.spelling :: space :: Spelling.word "from" :: space :: first.spelling :: space ::
        Spelling.word (rangeWordOf inclusive) :: space :: last.spelling :: space :: (inBraces body ++ more)) more
      (·.bare = .forRange .start name.name first.expr last.expr inclusive inside) := by
  rw [directive]
  simp only [show "for".toLower = "for" from toLower_eq_self (by decide)]
  refine (parses_expectVariable rfl).bind ?_
  rintro _ rfl
  refine (parses_expectWord rfl).bind fun _ _ => ?_
  refine (parses_lowerBound inclusive (by omega)).bind fun first least => ?_
  refine (parses_rangeWord inclusive rfl).bind ?_
  rintro _ rfl
  refine (parses_whole rfl rfl (by simp) (by omega)).bind fun last greatest => ?_
  exact (reads (by omega) rfl).bind fun block known => .pure (by rw [Statement.bare, least, greatest, known])

end Blocks

/-- The head of a statement and its block. -/
theorem Head.parses (head : Head) {body : List Spelling} {inside : List Statement}
    (reads : ReadsBlock context body more inside) (enough : 16 * (head.spellings.length + body.length) ≤ n)
    (rest : Parses context (statements n inBlock) more after behind) :
    Parses context (statements (n + 1) inBlock) (head.spellings ++ space :: (inBraces body ++ more)) after
      (First (head.statement inside) behind) := by
  cases head with
  | rule selector =>
    obtain ⟨tail, begins⟩ := selector.begins
    have length := congrArg List.length begins
    rw [Head.spellings] at enough
    rw [List.length_cons] at length
    exact parses_statements_rule selector reads (by omega) rest
  | media query =>
    simp only [Head.spellings, List.length_cons, List.length_nil] at enough
    obtain ⟨n, rfl⟩ := Nat.exists_eq_add_of_le' (show 6 ≤ n by omega)
    exact parses_directive (fun pos => parses_media reads pos query (by omega)) rest
  | mixin name list =>
    simp only [Head.spellings, List.length_append, List.length_cons, List.length_nil] at enough
    obtain ⟨n, rfl⟩ := Nat.exists_eq_add_of_le' (show 6 ≤ n by omega)
    exact parses_directive (fun pos => parses_mixin reads pos name list (by omega)) rest
  | function name list =>
    simp only [Head.spellings, List.length_append, List.length_cons, List.length_nil] at enough
    obtain ⟨n, rfl⟩ := Nat.exists_eq_add_of_le' (show 6 ≤ n by omega)
    exact parses_directive (fun pos => parses_function reads pos name list (by omega)) rest
  | inclusion name list =>
    simp only [Head.spellings, List.length_append, List.length_cons, List.length_nil] at enough
    obtain ⟨n, rfl⟩ := Nat.exists_eq_add_of_le' (show 6 ≤ n by omega)
    have block : Parses context (optionalBlock (n + 5)) (space :: (inBraces body ++ more)) more
        (Statement.bareBlock · = some inside) := parses_optionalBlock reads (by omega) rfl
    exact parses_directive (fun pos => parses_inclusion name list rfl rfl (by omega) block pos) rest
  | forEach first names items =>
    simp only [Head.spellings, List.length_append, List.length_cons, List.length_nil] at enough
    obtain ⟨n, rfl⟩ := Nat.exists_eq_add_of_le' (show 6 ≤ n by omega)
    rw [Head.spellings, List.append_assoc, List.append_assoc]
    exact parses_directive (fun pos => parses_each reads pos first names items (by omega)) rest
  | forRange name first last inclusive =>
    simp only [Head.spellings, List.length_cons, List.length_nil] at enough
    obtain ⟨n, rfl⟩ := Nat.exists_eq_add_of_le' (show 6 ≤ n by omega)
    exact parses_directive (fun pos => parses_for reads pos name first last inclusive (by omega)) rest
  | whileTrue condition =>
    simp only [Head.spellings, List.length_cons, List.length_nil] at enough
    obtain ⟨n, rfl⟩ := Nat.exists_eq_add_of_le' (show 6 ≤ n by omega)
    exact parses_directive (fun pos => parses_while reads pos condition (by omega)) rest
end Stylesheet.Canonical
