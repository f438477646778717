import Stylesheet.Proofs.Canonical
import Stylesheet.Proofs.ReadingCases

/-! How lists between commas are read: the arguments of a mixin, and the parameters of a definition. A number of calls in
proportion to the tokens is enough. -/

namespace Stylesheet.Canonical

open Grammar
open Spelling (mark space dollarWord atSignWord)

variable {context : Context} {before between after more : List Spelling}

/-- What stands behind an item in a list that `after` follows. -/
def following (items : List (List Spelling)) (after : List Spelling) : List Spelling :=
  match items with
  | [] => after
  | items => mark ',' :: space :: (separated items ++ after)

theorem separated_cons (item : List Spelling) (items : List (List Spelling)) (after : List Spelling) :
    separated (item :: items) ++ after = item ++ following items after := by
  cases items with
  | nil => simp [following]
  | cons second items => simp [following, List.append_assoc]

theorem length_separated_lt {item : List Spelling} (nonempty : item ≠ []) (items : List (List Spelling)) :
    (separated items).length < (separated (item :: items)).length := by
  have positive := List.length_pos_iff.2 nonempty
  cases items with
  | nil => simpa [separated] using positive
  | cons second items =>
    rw [separated_cons_cons, List.length_append, List.length_cons, List.length_cons]
    omega

theorem following_starts (items : List (List Spelling)) (more : List Spelling) :
    ∃ c rest, following items (mark ')' :: more) = mark c :: rest ∧ (c = ',' ∨ c = ')') := by
  cases items with
  | nil => exact ⟨')', _, rfl, .inr rfl⟩
  | cons item items => exact ⟨',', _, rfl, .inl rfl⟩

theorem significant_mark {c : Char} : Spelling.significant (mark c :: more) = mark c :: more := rfl

theorem significant_separated (v : Variable) (tail : List Spelling) (items : List (List Spelling))
    (after : List Spelling) : Spelling.significant (separated ((v.spelling :: tail) :: items) ++ after) =
      separated ((v.spelling :: tail) :: items) ++ after := by
  rw [separated_cons]
  rfl

theorem significant_items {items : List (List Spelling)} (each : ∀ item ∈ items, IsItem item) (c : Char)
    (after : List Spelling) :
    Spelling.significant (separated items ++ mark c :: after) = separated items ++ mark c :: after := by
  cases items with
  | nil => rfl
  | cons item items =>
    obtain ⟨⟨v, tail, rfl⟩, -⟩ := each item List.mem_cons_self
    exact significant_separated v tail items _

theorem Argument.isItem_map (list : List Argument) : ∀ item ∈ list.map Argument.spellings, IsItem item := by
  intro item member
  obtain ⟨argument, -, rfl⟩ := List.mem_map.1 member
  exact argument.isItem

theorem closes_mark {c : Char} (ends : c ∈ [',', ';', ')', '{', '.', '!']) (stops : List String) :
    closes stops (mark c).kind = true := by
  simp only [List.mem_cons, List.not_mem_nil, or_false] at ends
  rcases ends with rfl | rfl | rfl | rfl | rfl | rfl <;> rfl

theorem parses_value {v : Variable} {c : Char} (starts : Spelling.significant before = v.spelling :: mark c :: more)
    (ends : c ∈ [',', ';', ')', '{', '.', '!']) {n : Nat} (enough : 11 ≤ n) :
    Parses context (spaceList n) before (mark c :: more) (·.bare = v.expr) := by
  refine (parses_spaceList starts significant_mark (closes_mark ends _) enough).imp ?_
  rintro _ ⟨pos, rfl⟩
  rfl

theorem parses_whole {v : Variable} {c : Char} (starts : Spelling.significant before = v.spelling :: more)
    (follows : Spelling.significant more = mark c :: after) (ends : c ∈ [';', '{', '!']) (enough : 12 ≤ n) :
    Parses context (expression n) before more (·.bare = v.expr) := by
  have closing : closes context.stops (mark c).kind = true := closes_mark (by
    simp only [List.mem_cons, List.not_mem_nil, or_false] at ends
    rcases ends with rfl | rfl | rfl <;> simp) _
  have single : (mark c).isMark ',' = false := by
    simp only [List.mem_cons, List.not_mem_nil, or_false] at ends
    rcases ends with rfl | rfl | rfl <;> rfl
  refine (parses_expression starts follows closing single enough).imp ?_
  rintro _ ⟨pos, rfl⟩
  rfl

/-! Arguments -/

/-- What becomes of arguments that are read one after the other. -/
def collect : List Argument → Arguments Expr
  | [] => .none
  | .positional value :: rest => { collect rest with positional := value.expr :: (collect rest).positional }
  | .keyword name value :: rest => { collect rest with keyword := (name.name, value.expr) :: (collect rest).keyword }
  | .spread list :: rest => { collect rest with rest := (collect rest).rest <|> some list.expr }

theorem collect_items (list : ArgumentList) : collect list.items = list.arguments := by
  obtain ⟨positional, keyword, rest⟩ := list
  have last : collect (rest.toList.map .spread) = ⟨[], [], rest.map Variable.expr⟩ := by cases rest <;> rfl
  have named : collect (keyword.map (fun pair => .keyword pair.1 pair.2) ++ rest.toList.map .spread) =
      ⟨[], keyword.map fun pair => (pair.1.name, pair.2.expr), rest.map Variable.expr⟩ := by
    induction keyword with
    | nil => exact last
    | cons first keyword ih => simp only [List.map_cons, List.cons_append, collect, ih]
  simp only [ArgumentList.items, ArgumentList.arguments, List.append_assoc]
  induction positional with
  | nil => exact named
  | cons first positional ih => simp only [List.map_cons, List.cons_append, collect, ih]

theorem parses_moreArguments {list : List Argument} {n : Nat}
    (later : ∀ {before}, Spelling.significant before = separated (list.map Argument.spellings) ++ mark ')' :: more →
      Parses context (argumentList n) before more (·.bare = collect list)) :
    Parses context (moreArguments (n + 1)) (following (list.map Argument.spellings) (mark ')' :: more)) more
      (·.bare = collect list) := by
  rw [moreArguments]
  cases list with
  | nil =>
    refine (parses_eatMark_other significant_mark rfl).bind ?_
    rintro _ rfl
    exact (parses_expectMark significant_mark).bind fun _ _ => .pure rfl
  | cons first rest =>
    refine (parses_eatMark significant_mark).bind ?_
    rintro _ rfl
    exact later (significant_items (Argument.isItem_map (first :: rest)) ')' more)

theorem keywordAt?_eq {name : String} {s : Spelling} {tokens : List Token} (spelled : tokens.map Token.spelling = before)
    (starts : Spelling.significant before = dollarWord name :: s :: more) (plain : s.isTrivia = false) :
    keywordAt? tokens = if s.isMark ':' then some name else none := by
  obtain ⟨token, rest, same, first, behind⟩ := significant_eq_cons spelled starts
  have kind : token.kind = .variable name := congrArg Spelling.kind first
  have colon : startsMark rest ':' = s.isMark ':' :=
    startsMark_eq behind (List.dropWhile_cons_of_neg (by simp [plain])) ':'
  rw [keywordAt?, same]
  dsimp only
  rw [kind]
  dsimp only
  rw [colon]

/-- By induction on the arguments. Which kind an argument is of shows behind its variable. -/
theorem parses_argumentList (list : List Argument)
    (starts : Spelling.significant before = separated (list.map Argument.spellings) ++ mark ')' :: more) {n : Nat}
    (enough : 2 * (separated (list.map Argument.spellings)).length + 14 ≤ n) :
    Parses context (argumentList n) before more (·.bare = collect list) := by
  induction list generalizing n before with
  | nil =>
    obtain ⟨n, rfl⟩ := Nat.exists_eq_add_of_le' (Nat.le_of_add_left_le enough)
    rw [argumentList]
    refine (parses_eatMark starts).bind ?_
    rintro _ rfl
    exact .pure rfl
  | cons first list ih =>
    have shorter : (separated (list.map Argument.spellings)).length <
        (separated ((first :: list).map Argument.spellings)).length :=
      length_separated_lt (by cases first <;> exact List.cons_ne_nil _ _) _
    obtain ⟨n, rfl⟩ := Nat.exists_eq_add_of_le' (Nat.le_of_add_left_le enough)
    have rest : Parses context (moreArguments (n + 13)) (following (list.map Argument.spellings) (mark ')' :: more)) more
        (·.bare = collect list) := parses_moreArguments fun starts => ih starts (by omega)
    obtain ⟨c, behind, follows, ends⟩ := following_starts (list.map Argument.spellings) more
    rw [List.map_cons, separated_cons] at starts
    rw [follows] at starts rest
    have noColon : (c == ':') = false := by rcases ends with rfl | rfl <;> rfl
    have noPoint : (c == '.') = false := by rcases ends with rfl | rfl <;> rfl
    have ends : c ∈ [',', ';', ')', '{', '.', '!'] := by rcases ends with rfl | rfl <;> simp
    rw [argumentList]
    cases first with
    | positional value =>
      refine (parses_eatMark_other starts rfl).bind ?_
      rintro _ rfl
      refine .get_bind fun tokens spelled => ?_
      rw [keywordAt?_eq spelled starts rfl, isMark_mark, noColon]
      refine (parses_value starts ends (by omega) tokens spelled).bind fun read same => ?_
      refine (parses_eatSpread_other significant_mark noPoint).bind ?_
      rintro _ rfl
      refine rest.bind fun more known => .pure ?_
      rw [collect, ← known, ← same]
      cases more
      rfl
    | keyword name value =>
      refine (parses_eatMark_other starts rfl).bind ?_
      rintro _ rfl
      refine .get_bind fun tokens spelled => ?_
      rw [keywordAt?_eq spelled starts rfl, isMark_mark, beq_self_eq_true]
      refine (parses_advance starts tokens spelled).bind fun _ _ => ?_
      refine (parses_expectMark significant_mark).bind fun _ _ => ?_
      refine (parses_value rfl ends (by omega)).bind fun read same => ?_
      refine rest.bind fun more known => .pure ?_
      rw [collect, ← known, ← same]
      cases more
      rfl
    | spread list =>
      refine (parses_eatMark_other starts rfl).bind ?_
      rintro _ rfl
      refine .get_bind fun tokens spelled => ?_
      rw [keywordAt?_eq spelled starts rfl]
      refine (parses_value starts (by simp) (by omega) tokens spelled).bind fun read same => ?_
      refine (parses_eatSpread significant_mark).bind ?_
      rintro _ rfl
      refine rest.bind fun more known => .pure ?_
      rw [collect, ← known, ← same]
      obtain ⟨positional, keyword, rest⟩ := more
      cases rest <;> rfl

/-! Parameters -/

theorem ParameterList.items_cons (name : Variable) (default : Option Variable)
    (parameters : List (Variable × Option Variable)) (rest : Option Variable) :
    (ParameterList.mk ((name, default) :: parameters) rest).items =
      (name.spelling :: defaultSpellings default) :: (ParameterList.mk parameters rest).items := rfl

/-- What is read of parameters. -/
def ParameterList.Read (list : ParameterList) (read : List Parameter × Option String) : Prop :=
  read.1.map Parameter.bare = (list.parameters.map fun pair => ⟨pair.1.name, pair.2.map Variable.expr⟩) ∧
    read.2 = list.rest.map Variable.name

theorem parses_moreParameters {parameters : List (Variable × Option Variable)} {rest : Option Variable} {n : Nat}
    (later : ∀ {before},
      Spelling.significant before = separated (ParameterList.mk parameters rest).items ++ mark ')' :: more →
        Parses context (Grammar.parameters n) before more (ParameterList.mk parameters rest).Read)
    (name : Variable) {default : Option Variable} {value : Option Expr}
    (same : value.map Expr.bare = default.map Variable.expr) :
    Parses context (moreParameters n name.name value)
      (following (ParameterList.mk parameters rest).items (mark ')' :: more)) more
      (ParameterList.mk ((name, default) :: parameters) rest).Read := by
  cases listed : (ParameterList.mk parameters rest).items with
  | nil =>
    obtain ⟨rfl, rfl⟩ : parameters = [] ∧ rest = none := by simpa [ParameterList.items] using listed
    refine (parses_eatMark_other significant_mark rfl).bind ?_
    rintro _ rfl
    refine (parses_expectMark significant_mark).bind fun _ _ => .pure ⟨?_, rfl⟩
    exact congrArg (fun value => [Parameter.mk name.name value]) same
  | cons second items =>
    refine (parses_eatMark significant_mark).bind ?_
    rintro _ rfl
    rw [← listed]
    have starts : Spelling.significant
        (space :: (separated (ParameterList.mk parameters rest).items ++ mark ')' :: more)) =
          separated (ParameterList.mk parameters rest).items ++ mark ')' :: more :=
      significant_items (ParameterList.mk parameters rest).isItem ')' more
    refine (later starts).bind fun read known => .pure ⟨?_, known.2⟩
    simp only [List.map_cons, Parameter.bare, same, known.1]

/-- By induction on the parameters, behind which the one for all other arguments may stand. -/
theorem parses_parameters (parameters : List (Variable × Option Variable)) (rest : Option Variable)
    (starts : Spelling.significant before = separated (ParameterList.mk parameters rest).items ++ mark ')' :: more)
    {n : Nat} (enough : (separated (ParameterList.mk parameters rest).items).length + 14 ≤ n) :
    Parses context (Grammar.parameters n) before more (ParameterList.mk parameters rest).Read := by
  induction parameters generalizing n before with
  | nil =>
    obtain ⟨n, rfl⟩ := Nat.exists_eq_add_of_le' (Nat.le_of_add_left_le enough)
    rw [parameters_succ]
    cases rest with
    | none =>
      refine (parses_eatMark starts).bind ?_
      rintro _ rfl
      exact .pure ⟨rfl, rfl⟩
    | some v =>
      refine (parses_eatMark_other starts rfl).bind ?_
      rintro _ rfl
      refine (parses_expectVariable starts).bind ?_
      rintro _ rfl
      refine (parses_eatSpread significant_mark).bind ?_
      rintro _ rfl
      exact (parses_expectMark significant_mark).bind fun _ _ => .pure ⟨rfl, rfl⟩
  | cons first parameters ih =>
    obtain ⟨name, default⟩ := first
    have shorter := length_separated_lt (List.cons_ne_nil name.spelling (defaultSpellings default))
      (ParameterList.mk parameters rest).items
    rw [ParameterList.items_cons] at starts enough
    rw [separated_cons] at starts
    obtain ⟨n, rfl⟩ := Nat.exists_eq_add_of_le' (Nat.le_of_add_left_le enough)
    obtain ⟨c, behind, follows, ends⟩ := following_starts (ParameterList.mk parameters rest).items more
    have noColon : (c == ':') = false := by rcases ends with rfl | rfl <;> rfl
    have noPoint : (c == '.') = false := by rcases ends with rfl | rfl <;> rfl
    have tail {value : Option Expr} (same : value.map Expr.bare = default.map Variable.expr) :
        Parses context (moreParameters (n + 13) name.name value)
          (following (ParameterList.mk parameters rest).items (mark ')' :: more)) more
          (ParameterList.mk ((name, default) :: parameters) rest).Read :=
      parses_moreParameters (fun starts => ih starts (by omega)) name same
    rw [follows] at starts tail
    rw [parameters_succ]
    refine (parses_eatMark_other starts rfl).bind ?_
    rintro _ rfl
    refine (parses_expectVariable starts).bind ?_
    rintro _ rfl
    cases default with
    | none =>
      refine (parses_eatSpread_other significant_mark noPoint).bind ?_
      rintro _ rfl
      refine (parses_eatMark_other significant_mark noColon).bind ?_
      rintro _ rfl
      exact tail rfl
    | some v =>
      refine (parses_eatSpread_other significant_mark rfl).bind ?_
      rintro _ rfl
      refine (parses_eatMark significant_mark).bind ?_
      rintro _ rfl
      have value : Parses context (spaceList (n + 13)) (space :: v.spelling :: mark c :: behind) (mark c :: behind)
          (·.bare = v.expr) := parses_value rfl (by rcases ends with rfl | rfl <;> simp) (by omega)
      refine value.map.bind ?_
      rintro _ ⟨value, rfl, same⟩
      exact tail (congrArg some same)

end Stylesheet.Canonical
