import Stylesheet.Proofs.Precedence

/-! Expressions in their usual form are read back as they are. Each level of operators reads operands that bind more
tightly, and stops in front of the first operator that is looser. All that has to be known of the tokens behind an
expression is therefore which operator they begin with. -/

namespace Stylesheet.Canonical

open Grammar
open Spelling (mark space dollarWord)

variable {context : Context} {before between after more : List Spelling} {tokens : List Token} {e : Expr}
  {n level : Nat}

/-! The tokens around an expression -/

theorem BeginsExpr.significant (begins : BeginsExpr before) : Spelling.significant before = before := by
  obtain ⟨s, tail, rfl, ⟨name, rfl⟩ | rfl | rfl⟩ := begins <;> rfl

theorem binaryOpOf?_word {name : String} (small : isSmall name = true) (plain : name ≠ "or" ∧ name ≠ "and") :
    binaryOpOf? (.ident name) = none := by
  have noOr : Text.sameWord name "or" = false := sameWord_eq_false small (by decide) plain.1
  have noAnd : Text.sameWord name "and" = false := sameWord_eq_false small (by decide) plain.2
  simp [binaryOpOf?, noOr, noAnd]

theorem binaryOpOf?_operator (op : BinaryOp) : binaryOpOf? (operatorSpelling op).kind = some op := by
  have other : Text.sameWord "and" "or" = false := sameWord_eq_false (by decide) (by decide) (by decide)
  cases op with
  | or => simp [operatorSpelling, Spelling.word, binaryOpOf?, sameWord_self]
  | and => simp [operatorSpelling, Spelling.word, binaryOpOf?, sameWord_self, other]
  | _ => rfl

theorem bindingLevel_lt (op : BinaryOp) : bindingLevel op < operandLevel := by
  cases op <;> decide

/-- No operator of this level or of a tighter one comes next. -/
def Follows (level : Nat) (more : List Spelling) : Prop :=
  ∀ s rest, Spelling.significant more = s :: rest → ∀ op, binaryOpOf? s.kind = some op → bindingLevel op < level

theorem Follows.of_none {s : Spelling} (starts : Spelling.significant more = s :: after)
    (none : binaryOpOf? s.kind = none) : Follows level more := by
  intro t rest same op known
  cases starts.symm.trans same
  cases none.symm.trans known

theorem BeginsExpr.follows (begins : BeginsExpr more) : Follows level (space :: more) := by
  have starts : Spelling.significant (space :: more) = more := begins.significant
  obtain ⟨s, tail, rfl, known⟩ := begins
  apply Follows.of_none starts
  obtain ⟨name, rfl⟩ | rfl | rfl := known
  · rfl
  · rfl
  · exact binaryOpOf?_word (by decide) (by decide)

theorem follows_operator (op : BinaryOp) : Follows (bindingLevel op + 1) (space :: operatorSpelling op :: more) := by
  have solid : Spelling.significant (space :: operatorSpelling op :: more) = operatorSpelling op :: more := by
    cases op <;> rfl
  intro s rest same found known
  cases solid.symm.trans same
  cases (binaryOpOf?_operator op).symm.trans known
  exact Nat.lt_succ_self _

/-- What ends an expression in parentheses, between commas or at the end of a text. -/
def Closes (more : List Spelling) : Prop := more = [] ∨ ∃ c ∈ [',', ':', ')'], ∃ rest, more = mark c :: rest

theorem Closes.follows (closes : Closes more) : Follows level more := by
  obtain rfl | ⟨c, sign, rest, rfl⟩ := closes
  · intro s rest none
    cases none
  · apply Follows.of_none (s := mark c) rfl
    simp only [List.mem_cons, List.not_mem_nil, or_false] at sign
    obtain rfl | rfl | rfl := sign <;> rfl

theorem operatorAt?_of_follows (spelled : tokens.map Token.spelling = more) (follows : Follows level more) :
    operatorAt? level tokens = none := by
  have same := map_significant tokens
  rw [spelled] at same
  rw [operatorAt?]
  cases known : significant tokens with
  | nil => rfl
  | cons token rest =>
    rw [known] at same
    dsimp only
    cases found : binaryOpOf? token.kind with
    | none => rfl
    | some op =>
      have looser := follows _ _ same.symm op found
      dsimp only
      rw [if_pos (by simpa using Nat.ne_of_lt looser)]

theorem operatorAt?_operator (op : BinaryOp)
    (spelled : tokens.map Token.spelling = space :: operatorSpelling op :: space :: more) :
    ∃ pos left, operatorAt? (bindingLevel op) tokens = some (op, pos, left) ∧
      left.map Token.spelling = space :: more := by
  obtain ⟨blank, tokens, rfl, first, spelled⟩ := List.map_eq_cons_iff.1 spelled
  obtain ⟨token, left, rfl, second, spelled⟩ := List.map_eq_cons_iff.1 spelled
  obtain ⟨gap, rest, rfl, third, behind⟩ := List.map_eq_cons_iff.1 spelled
  have trivia : blank.isTrivia = true := congrArg Spelling.isTrivia first
  have kind : binaryOpOf? token.kind = some op := by
    rw [show token.kind = (operatorSpelling op).kind from congrArg Spelling.kind second, binaryOpOf?_operator]
  have solid : token.isTrivia = false := by
    have same : token.isTrivia = (operatorSpelling op).isTrivia := congrArg Spelling.isTrivia second
    rw [same]
    cases op <;> rfl
  have apart : gap.isBlank = true := congrArg Spelling.isBlank third
  have starts : significant (blank :: token :: gap :: rest) = token :: gap :: rest := by
    rw [significant, List.dropWhile_cons_of_pos trivia, List.dropWhile_cons_of_neg (by simp [solid])]
  refine ⟨token.pos, gap :: rest, ?_, spelled⟩
  rw [operatorAt?, starts]
  dsimp only
  rw [kind]
  simp [isItemSign, apart]

theorem parses_noOperator (follows : Follows level more) (left : Expr) :
    Parses context (operationsOn (n + 1) level left) more more (· = left) := by
  rw [operationsOn]
  apply Parses.get_bind
  intro tokens spelled
  rw [operatorAt?_of_follows spelled follows]
  exact .pure spelled rfl

theorem parses_ongoing (free : context.stops = []) (begins : BeginsExpr between)
    (starts : Spelling.significant before = between) : Parses context atExpressionEnd before before (· = false) := by
  intro tokens spelled
  refine ⟨_, tokens, rfl, spelled, ?_⟩
  obtain ⟨s, tail, rfl, known⟩ := begins
  obtain ⟨token, rest, same, first, -⟩ := significant_eq_cons spelled starts
  have kind : token.kind = s.kind := congrArg Spelling.kind first
  rw [endsExpression, same, free]
  dsimp only
  rw [kind]
  obtain ⟨name, rfl⟩ | rfl | rfl := known <;> rfl

theorem BeginsExpr.isMark (begins : BeginsExpr before) {c : Char} (other : c ≠ '(') :
    ∃ s tail, before = s :: tail ∧ s.isMark c = false := by
  obtain ⟨s, tail, rfl, ⟨name, rfl⟩ | rfl | rfl⟩ := begins
  · exact ⟨_, _, rfl, rfl⟩
  · exact ⟨_, _, rfl, beq_false_of_ne other.symm⟩
  · exact ⟨_, _, rfl, rfl⟩

theorem parses_closed (closes : Closes more) : Parses context atExpressionEnd more more (· = true) := by
  obtain rfl | ⟨c, sign, rest, rfl⟩ := closes
  · intro tokens spelled
    obtain rfl := List.map_eq_nil_iff.1 spelled
    exact ⟨true, [], rfl, rfl, rfl⟩
  · apply parses_atExpressionEnd significant_mark
    simp only [List.mem_cons, List.not_mem_nil, or_false] at sign
    obtain rfl | rfl | rfl := sign <;> rfl

/-! Operands -/

/-- An operand is read by itself, whatever follows it. -/
def ReadsOperand (e : Expr) : Prop :=
  ∀ ⦃context : Context⦄ ⦃n : Nat⦄ ⦃before more : List Spelling⦄, context.stops = [] → 16 * e.spellings.length ≤ n →
    Spelling.significant before = e.spellings ++ more → Parses context (operand n) before more (·.bare = e.bare)

theorem readsOperand_leaf {name : String} {pos : Position} : ReadsOperand (.variable name pos) := by
  intro context n before more free enough starts
  rw [Expr.spellings, List.length_singleton] at enough
  obtain ⟨n, rfl⟩ := Nat.exists_eq_add_of_le' (show 2 ≤ n by omega)
  rw [Expr.spellings] at starts
  apply (parses_operand starts n).imp
  intro value known
  obtain ⟨pos, rfl⟩ := known
  rfl

theorem BeginsExpr.behind_space (begins : BeginsExpr before) (more : List Spelling) :
    Spelling.significant (space :: (before ++ more)) = before ++ more := begins.append.significant

theorem ReadsOperand.not {pos : Position} (reads : ReadsOperand e) (begins : BeginsExpr e.spellings) :
    ReadsOperand (.unary .not e pos) := by
  intro context n before more free enough starts
  rw [Expr.spellings, List.length_cons, List.length_cons] at enough
  obtain ⟨n, rfl⟩ := Nat.exists_eq_add_of_le' (show 1 ≤ n by omega)
  rw [Expr.spellings] at starts
  rw [operand]
  apply (parses_peek starts).bind
  intro found known
  obtain ⟨token, rfl, same⟩ := known
  have sign : unaryOpOf? token.kind = some .not := by
    rw [show token.kind = .ident "not" from congrArg Spelling.kind same]
    simp [unaryOpOf?, sameWord_self]
  dsimp only
  rw [sign]
  apply (parses_advance starts).bind
  intro _ _
  have inner : Parses context (operand n) (space :: (e.spellings ++ more)) more (·.bare = e.bare) :=
    reads free (by omega) (begins.behind_space more)
  apply inner.bind
  intro value same
  apply Parses.pure
  rw [Expr.bare, Expr.bare, same]

/-- A parenthesis is an operand. No word ends a list in it. -/
theorem parses_parenthesis {found : Expr → Prop} {body : List Spelling}
    (starts : Spelling.significant before = mark '(' :: body)
    (inside : ∀ pos, Parses { context with stops := [] } (parenthesized n pos) body more found) :
    Parses context (operand (n + 2)) before more found := by
  rw [operand]
  apply (parses_peek starts).bind
  intro first known
  obtain ⟨token, rfl, same⟩ := known
  have kind : token.kind = .mark '(' := congrArg Spelling.kind same
  have noSign : unaryOpOf? token.kind = none := by
    rw [kind]
    rfl
  dsimp only
  rw [noSign]
  dsimp only
  rw [primary, kind]
  apply (parses_advance starts).bind
  intro _ _
  exact (inside token.pos).stoppingAt

/-! Operators -/

/-- All of an expression is read where operators of a level are read, when only looser operators follow. -/
def ReadsOperation (level : Nat) (e : Expr) : Prop :=
  ∀ ⦃context : Context⦄ ⦃n : Nat⦄ ⦃before more : List Spelling⦄, context.stops = [] →
    16 * e.spellings.length + (7 - level) ≤ n → Spelling.significant before = e.spellings ++ more →
    Follows level more → Parses context (Grammar.operation n level) before more (·.bare = e.bare)

/-- An expression becomes the left operand of the operators of a level that follow it. They are read by the same loop
that has read the expression, which is why what the loop goes on to read is part of this. -/
def ReadsLeft (level : Nat) (e : Expr) : Prop :=
  ∀ ⦃context : Context⦄ ⦃n : Nat⦄ ⦃before more after : List Spelling⦄ ⦃result : Expr → Prop⦄, context.stops = [] →
    16 * e.spellings.length + (7 - level) ≤ n → Spelling.significant before = e.spellings ++ more →
    Follows (level + 1) more →
    (∀ m left, n ≤ m + e.spellings.length → left.bare = e.bare →
      Parses context (operationsOn m level left) more after result) →
    Parses context (Grammar.operation n level) before after result

theorem ReadsOperand.operation (reads : ReadsOperand e) : ReadsOperation operandLevel e := by
  intro context n before more free enough starts follows
  rw [show 7 - operandLevel = 1 from rfl] at enough
  obtain ⟨n, rfl⟩ := Nat.exists_eq_add_of_le' (Nat.le_of_add_left_le enough)
  rw [Grammar.operation, if_neg (Nat.lt_irrefl _)]
  exact reads free (by omega) starts

theorem ReadsLeft.operation (reads : ReadsLeft level e) (loose : level < operandLevel) : ReadsOperation level e := by
  intro context n before more free enough starts follows
  have levels : operandLevel = 6 := rfl
  apply reads free enough starts
  · intro s rest same op known
    exact Nat.lt_succ_of_lt (follows s rest same op known)
  · intro m left remaining same
    obtain ⟨m, rfl⟩ := Nat.exists_eq_add_of_le' (show 1 ≤ m by omega)
    apply (parses_noOperator follows left).imp
    intro value known
    rw [known, same]

theorem ReadsOperation.left (reads : ReadsOperation (level + 1) e) (loose : level < operandLevel)
    (begins : BeginsExpr e.spellings) : ReadsLeft level e := by
  intro context n before more after result free enough starts follows rest
  have levels : operandLevel = 6 := rfl
  obtain ⟨n, rfl⟩ := Nat.exists_eq_add_of_le' (show 1 ≤ n by omega)
  have nonempty : 1 ≤ e.spellings.length := by
    obtain ⟨s, tail, same, -⟩ := begins
    rw [same]
    exact Nat.succ_pos _
  rw [Grammar.operation, if_pos loose]
  apply (reads free (by omega) starts follows).bind
  intro left same
  exact rest n left (by omega) same

theorem ReadsLeft.binary {op : BinaryOp} {left right : Expr} {pos : Position}
    (first : ReadsLeft (bindingLevel op) left) (second : ReadsOperation (bindingLevel op + 1) right)
    (begins : BeginsExpr right.spellings) : ReadsLeft (bindingLevel op) (.binary op left right pos) := by
  intro context n before more after result free enough starts follows rest
  have tight := bindingLevel_lt op
  have levels : operandLevel = 6 := rfl
  simp only [Expr.spellings, List.length_append, List.length_cons] at enough rest
  rw [Expr.spellings, List.append_assoc] at starts
  apply first free (by omega) starts (follows_operator op)
  -- The loop is behind the left operand now. It goes on with this operator, and then with what is behind it.
  intro m left' remaining same
  obtain ⟨m, rfl⟩ := Nat.exists_eq_add_of_le' (show 1 ≤ m by omega)
  rw [operationsOn]
  apply Parses.get_bind
  intro tokens spelled
  obtain ⟨pos, behind, known, spelled⟩ := operatorAt?_operator op spelled
  rw [known]
  apply Accepts.set_bind spelled
  have operand : Parses context (Grammar.operation m (bindingLevel op + 1)) (space :: (right.spellings ++ more)) more
      (·.bare = right.bare) := second free (by omega) (begins.behind_space more) follows
  apply operand.bind
  intro right' same'
  apply rest m
  · omega
  · rw [Expr.bare, Expr.bare, same, same']

/-! Lists of a space -/

def ReadsSpaceList (e : Expr) : Prop :=
  ∀ ⦃context : Context⦄ ⦃n : Nat⦄ ⦃before more : List Spelling⦄, context.stops = [] →
    16 * e.spellings.length + 9 ≤ n → Spelling.significant before = e.spellings ++ more → Closes more →
    Parses context (spaceList n) before more (·.bare = e.bare)

/-- The items of a list behind the first one. -/
def spaced (items : List Expr) : List Spelling := items.flatMap fun item => space :: item.spellings

theorem spaced_cons (item : Expr) (items : List Expr) :
    spaced (item :: items) = space :: (item.spellings ++ spaced items) := List.flatMap_cons

theorem intercalate_space (first : Expr) (items : List Expr) :
    [space].intercalate ((first :: items).map Expr.spellings) = first.spellings ++ spaced items := by
  induction items generalizing first with
  | nil => simp [spaced]
  | cons second items ih =>
    rw [List.map_cons, List.map_cons, List.intercalate_cons_cons, ← List.map_cons, ih, spaced_cons, List.append_assoc]
    rfl

theorem follows_spaced {items : List Expr} (each : ∀ item ∈ items, BeginsExpr item.spellings) (closes : Closes more) :
    Follows level (spaced items ++ more) := by
  cases items with
  | nil => exact closes.follows
  | cons item items =>
    have begins := each item List.mem_cons_self
    rw [spaced_cons, List.cons_append, List.append_assoc]
    exact begins.append.follows

theorem parses_spaceItems (free : context.stops = []) (items : List Expr)
    (each : ∀ item ∈ items, BeginsExpr item.spellings ∧ ReadsOperation 0 item) (closes : Closes more)
    (enough : 16 * (spaced items).length + 8 ≤ n) :
    Parses context (spaceItems n) (spaced items ++ more) more (·.map Expr.bare = items.map Expr.bare) := by
  induction items generalizing n with
  | nil =>
    obtain ⟨n, rfl⟩ := Nat.exists_eq_add_of_le' (show 1 ≤ n by omega)
    rw [spaceItems]
    apply (parses_closed closes).bind_eq
    apply Parses.get_bind
    intro tokens spelled
    exact .pure spelled rfl
  | cons item items ih =>
    obtain ⟨begins, reads⟩ := each item List.mem_cons_self
    have later := fun item inside => each item (List.mem_cons_of_mem _ inside)
    have whole : spaced (item :: items) ++ more = space :: (item.spellings ++ (spaced items ++ more)) := by
      rw [spaced_cons, List.cons_append, List.append_assoc]
    have starts : Spelling.significant (space :: (item.spellings ++ (spaced items ++ more))) = _ :=
      begins.behind_space _
    rw [spaced_cons, List.length_cons, List.length_append] at enough
    obtain ⟨n, rfl⟩ := Nat.exists_eq_add_of_le' (show 1 ≤ n by omega)
    rw [whole, spaceItems]
    apply (parses_ongoing free begins.append starts).bind_eq
    apply Parses.get_bind
    intro tokens spelled
    have single : startsSpread tokens = false := by
      obtain ⟨s, tail, same, other⟩ := begins.isMark (c := '.') (by decide)
      rw [same] at starts spelled
      exact startsSpread_eq_false spelled starts other
    rw [single, Bool.or_false, if_neg Bool.false_ne_true]
    have first : Parses context (Grammar.operation n 0) _ (spaced items ++ more) (·.bare = item.bare) :=
      reads free (by omega) starts (follows_spaced (fun item inside => (later item inside).1) closes)
    apply (first tokens spelled).bind
    intro value same
    apply (ih later (by omega)).bind
    intro values known
    apply Parses.pure
    rw [List.map_cons, List.map_cons, same, known]

theorem parses_spaceListOf (free : context.stops = []) (first : Expr) (items : List Expr)
    (each : ∀ item ∈ first :: items, BeginsExpr item.spellings ∧ ReadsOperation 0 item)
    (starts : Spelling.significant before = first.spellings ++ (spaced items ++ more)) (closes : Closes more)
    (enough : 16 * (first.spellings ++ spaced items).length + 9 ≤ n) :
    Parses context (spaceList n) before more (·.bare = listExpr .space first.bare (items.map Expr.bare)) := by
  obtain ⟨begins, reads⟩ := each first List.mem_cons_self
  have later := fun item inside => each item (List.mem_cons_of_mem _ inside)
  rw [List.length_append] at enough
  obtain ⟨n, rfl⟩ := Nat.exists_eq_add_of_le' (show 1 ≤ n by omega)
  rw [spaceList]
  apply (parses_ongoing free begins.append starts).bind_eq
  rw [if_neg Bool.false_ne_true]
  have follows : Follows 0 (spaced items ++ more) := follows_spaced (fun item inside => (later item inside).1) closes
  apply (reads free (by omega) starts follows).bind
  intro value same
  apply (parses_spaceItems free items later closes (by omega)).bind
  intro values known
  apply Parses.pure
  rw [Expr.bare_listExpr, same, known]

theorem ReadsOperation.spaceList (reads : ReadsOperation 0 e) (begins : BeginsExpr e.spellings) : ReadsSpaceList e := by
  intro context n before more free enough starts closes
  have each : ∀ item ∈ [e], BeginsExpr item.spellings ∧ ReadsOperation 0 item := by
    intro item inside
    rw [List.mem_singleton.1 inside]
    exact ⟨begins, reads⟩
  exact parses_spaceListOf free e [] each starts closes (by simpa [spaced] using enough)

theorem readsSpaceList_list {items : List Expr} (several : 2 ≤ items.length)
    (each : ∀ item ∈ items, BeginsExpr item.spellings ∧ ReadsOperation 0 item) :
    ReadsSpaceList (.list items .space false) := by
  intro context n before more free enough starts closes
  obtain ⟨first, items, rfl⟩ := List.exists_cons_of_length_pos (Nat.lt_of_lt_of_le Nat.zero_lt_two several)
  rw [Expr.spellings, Expr.itemSpellings_eq_map, intercalate_space] at enough starts
  rw [List.append_assoc] at starts
  cases items with
  | nil => exact absurd several (Nat.not_succ_le_self 1)
  | cons second items =>
    apply (parses_spaceListOf free first (second :: items) each starts closes enough).imp
    intro value known
    rw [known, ← Expr.bare_listExpr]
    rfl

/-! Lists at commas, and what stands in parentheses -/

/-- An expression is made of lists of a space between commas, which may be a single one. -/
def ReadsList (e : Expr) : Prop :=
  ∃ first items, e.spellings = separated ((first :: items).map Expr.spellings) ∧ e = listExpr .comma first items ∧
    ∀ item ∈ first :: items, BeginsExpr item.spellings ∧ ReadsSpaceList item

theorem ReadsSpaceList.list (reads : ReadsSpaceList e) (begins : BeginsExpr e.spellings) : ReadsList e := by
  refine ⟨e, [], by simp, rfl, ?_⟩
  intro item inside
  rw [List.mem_singleton.1 inside]
  exact ⟨begins, reads⟩

theorem readsList_list {items : List Expr} (several : 2 ≤ items.length)
    (each : ∀ item ∈ items, BeginsExpr item.spellings ∧ ReadsSpaceList item) :
    ReadsList (.list items .comma false) := by
  obtain ⟨first, items, rfl⟩ := List.exists_cons_of_length_pos (Nat.lt_of_lt_of_le Nat.zero_lt_two several)
  cases items with
  | nil => exact absurd several (Nat.not_succ_le_self 1)
  | cons second items =>
    refine ⟨first, second :: items, ?_, rfl, each⟩
    rw [Expr.spellings, Expr.itemSpellings_eq_map]

/-- The end of a text or of a parenthesis. -/
def Ends (more : List Spelling) : Prop := more = [] ∨ ∃ rest, more = mark ')' :: rest

theorem Ends.closes (ends : Ends more) : Closes more := by
  obtain rfl | ⟨rest, rfl⟩ := ends
  · exact .inl rfl
  · exact .inr ⟨')', by simp, rest, rfl⟩

theorem Ends.startsMark (ends : Ends more) (spelled : tokens.map Token.spelling = more) {c : Char} (other : c ≠ ')') :
    startsMark tokens c = false := by
  obtain rfl | ⟨rest, rfl⟩ := ends
  · rw [List.map_eq_nil_iff.1 spelled]
    rfl
  · rw [startsMark_eq spelled significant_mark, isMark_mark]
    exact beq_false_of_ne other.symm

theorem Ends.parses_atMark (ends : Ends more) {c : Char} (other : c ≠ ')') :
    Parses context (atMark c) more more (· = false) := by
  intro tokens spelled
  exact ⟨_, tokens, rfl, spelled, ends.startsMark spelled other⟩

theorem Ends.parses_eatMark (ends : Ends more) {c : Char} (other : c ≠ ')') :
    Parses context (eatMark c) more more (· = false) := by
  apply (ends.parses_atMark other).bind_eq
  exact .pure rfl

theorem following_closes (items : List (List Spelling)) (ends : Ends more) : Closes (following items more) := by
  cases items with
  | nil => exact ends.closes
  | cons item items => exact .inr ⟨',', by simp, _, rfl⟩

theorem parses_commaItems (free : context.stops = []) {atEnd : Parse Bool}
    (goesOn : ∀ {before between}, BeginsExpr between → Spelling.significant before = between →
      Parses context atEnd before before (· = false))
    (items : List Expr) (each : ∀ item ∈ items, BeginsExpr item.spellings ∧ ReadsSpaceList item) (ends : Ends more)
    (enough : 16 * (following (items.map Expr.spellings) []).length + 1 ≤ n) :
    Parses context (commaItems n atEnd) (following (items.map Expr.spellings) more) more
      (·.map Expr.bare = items.map Expr.bare) := by
  induction items generalizing n with
  | nil =>
    obtain ⟨n, rfl⟩ := Nat.exists_eq_add_of_le' (Nat.le_of_add_left_le enough)
    rw [commaItems]
    apply (ends.parses_eatMark (by decide)).bind_eq
    exact .pure rfl
  | cons item items ih =>
    obtain ⟨begins, reads⟩ := each item List.mem_cons_self
    have later := fun item inside => each item (List.mem_cons_of_mem _ inside)
    have whole (more : List Spelling) : following ((item :: items).map Expr.spellings) more =
        mark ',' :: space :: (item.spellings ++ following (items.map Expr.spellings) more) := by
      rw [← separated_cons]
      rfl
    rw [whole, List.length_cons, List.length_cons, List.length_append] at enough
    obtain ⟨n, rfl⟩ := Nat.exists_eq_add_of_le' (Nat.le_of_add_left_le enough)
    rw [whole, commaItems]
    apply (parses_eatMark significant_mark).bind_eq
    apply (goesOn begins.append (begins.behind_space _)).bind_eq
    apply (reads free (by omega) (begins.behind_space _) (following_closes _ ends)).bind
    intro value same
    apply (ih later (by omega)).bind
    intro values known
    apply Parses.pure
    rw [List.map_cons, List.map_cons, same, known]

theorem length_separated (first : Expr) (items : List Expr) :
    (separated ((first :: items).map Expr.spellings)).length =
      first.spellings.length + (following (items.map Expr.spellings) []).length := by
  rw [List.map_cons, ← List.length_append, ← separated_cons, List.append_nil]

/-- Behind a first list of a space, a comma shows whether there are more. -/
theorem parses_atComma (items : List Expr) (ends : Ends more) :
    Parses context (atMark ',') (following (items.map Expr.spellings) more) (following (items.map Expr.spellings) more)
      (· = !items.isEmpty) := by
  cases items with
  | nil => exact ends.parses_atMark (by decide)
  | cons item items =>
    apply (parses_atMark significant_mark ',').imp
    intro found known
    exact known

/-- What a first list of a space and those behind it become, where `next` goes on with it. -/
theorem parses_listBehind {α : Type} {result : α → Prop} (free : context.stops = []) {atEnd : Parse Bool}
    (goesOn : ∀ {before between}, BeginsExpr between → Spelling.significant before = between →
      Parses context atEnd before before (· = false))
    {first value : Expr} (same : value.bare = first.bare) (items : List Expr)
    (each : ∀ item ∈ items, BeginsExpr item.spellings ∧ ReadsSpaceList item) (ends : Ends more)
    (enough : 16 * (following (items.map Expr.spellings) []).length + 1 ≤ n) (next : Expr → Parse α)
    (rest : ∀ value : Expr, value.bare = (listExpr .comma first items).bare →
      Parses context (next value) more after result) :
    Parses context
      (if (!items.isEmpty) = true then commaItems n atEnd >>= fun items => next (.list (value :: items) .comma false)
        else next value)
      (following (items.map Expr.spellings) more) after result := by
  cases items with
  | nil => exact rest value same
  | cons second items =>
    apply (parses_commaItems free goesOn (second :: items) each ends enough).bind
    intro values known
    apply rest
    rw [Expr.bare_listExpr, Expr.bare, Expr.bareAll_eq_map, List.map_cons, same, known]
    rfl

theorem ReadsList.expression (reads : ReadsList e) (free : context.stops = [])
    (starts : Spelling.significant before = e.spellings ++ more) (ends : Ends more)
    (enough : 16 * e.spellings.length + 10 ≤ n) : Parses context (expression n) before more (·.bare = e.bare) := by
  obtain ⟨first, items, spelled, rfl, each⟩ := reads
  obtain ⟨begins, reads⟩ := each first List.mem_cons_self
  have later := fun item inside => each item (List.mem_cons_of_mem _ inside)
  rw [spelled, List.map_cons, separated_cons] at starts
  rw [spelled, length_separated] at enough
  obtain ⟨n, rfl⟩ := Nat.exists_eq_add_of_le' (Nat.le_of_add_left_le enough)
  rw [Grammar.expression]
  apply (reads free (by omega) starts (following_closes _ ends)).bind
  intro value same
  apply (parses_atComma items ends).bind_eq
  exact parses_listBehind free (parses_ongoing free) same items later ends (by omega) pure fun value same => .pure same

theorem parses_beforeParenthesis (begins : BeginsExpr between) (starts : Spelling.significant before = between) :
    Parses context (atMark ')') before before (· = false) := by
  obtain ⟨s, tail, rfl, other⟩ := begins.isMark (c := ')') (by decide)
  apply (parses_atMark starts ')').imp
  intro found known
  rw [known, other]

theorem parses_noParenthesis (begins : BeginsExpr between) (starts : Spelling.significant before = between) :
    Parses context (eatMark ')') before before (· = false) := by
  apply (parses_beforeParenthesis begins starts).bind_eq
  exact .pure rfl

theorem parses_noColon (items : List (List Spelling)) :
    Parses context (eatMark ':') (following items (mark ')' :: more)) (following items (mark ')' :: more))
      (· = false) := by
  cases items with
  | nil => exact parses_eatMark_other significant_mark rfl
  | cons item items => exact parses_eatMark_other significant_mark rfl

theorem ReadsList.paren (reads : ReadsList e) : ReadsOperand (.paren e) := by
  intro context n before more free enough starts
  rw [Expr.spellings, inParentheses_append] at starts
  rw [Expr.spellings, inParentheses, List.length_cons, List.length_append, List.length_singleton] at enough
  obtain ⟨n, rfl⟩ := Nat.exists_eq_add_of_le' (show 3 ≤ n by omega)
  apply parses_parenthesis starts
  intro pos
  have free : Context.stops { context with stops := [] } = [] := rfl
  have ends : Ends (mark ')' :: more) := .inr ⟨more, rfl⟩
  obtain ⟨first, items, spelled, rfl, each⟩ := reads
  obtain ⟨begins, reads⟩ := each first List.mem_cons_self
  have later := fun item inside => each item (List.mem_cons_of_mem _ inside)
  rw [spelled, length_separated] at enough
  rw [spelled, List.map_cons, separated_cons, parenthesized]
  apply (parses_noParenthesis begins.append begins.append.significant).bind_eq
  apply (reads free (by omega) begins.append.significant (following_closes _ ends)).bind
  intro value same
  apply (parses_noColon _).bind_eq
  apply (parses_atComma items ends).bind_eq
  have closed : ∀ inner : Expr, inner.bare = (listExpr .comma first items).bare →
      Parses { context with stops := [] } (do expectMark ')'; return Expr.paren inner) (mark ')' :: more) more
        (·.bare = (listExpr .comma first items).paren.bare) := by
    intro inner known
    apply (parses_expectMark significant_mark).bind
    intro _ _
    apply Parses.pure
    rw [Expr.bare, Expr.bare, known]
  exact parses_listBehind free parses_beforeParenthesis same items later ends (by omega) _ closed

/-! Maps -/

/-- An entry of a map, whose key and value are lists of a space. -/
def ReadsEntry (entry : Expr × Expr) : Prop :=
  (BeginsExpr entry.1.spellings ∧ ReadsSpaceList entry.1) ∧ BeginsExpr entry.2.spellings ∧ ReadsSpaceList entry.2

theorem entrySpelling_append (entry : Expr × Expr) (more : List Spelling) :
    Expr.entrySpelling entry ++ more = entry.1.spellings ++ mark ':' :: space :: (entry.2.spellings ++ more) := by
  rw [Expr.entrySpelling, List.append_assoc, List.cons_append, List.cons_append]

theorem parses_mapEntries (free : context.stops = []) (entries : List (Expr × Expr))
    (each : ∀ entry ∈ entries, ReadsEntry entry)
    (enough : 16 * (following (entries.map Expr.entrySpelling) []).length + 1 ≤ n) :
    Parses context (mapEntries n) (following (entries.map Expr.entrySpelling) (mark ')' :: more)) (mark ')' :: more)
      (Expr.bareEntries · = Expr.bareEntries entries) := by
  induction entries generalizing n with
  | nil =>
    obtain ⟨n, rfl⟩ := Nat.exists_eq_add_of_le' (Nat.le_of_add_left_le enough)
    rw [mapEntries]
    apply (parses_eatMark_other significant_mark rfl).bind_eq
    exact .pure rfl
  | cons entry entries ih =>
    obtain ⟨⟨begins, reads⟩, begins', reads'⟩ := each entry List.mem_cons_self
    have later := fun entry inside => each entry (List.mem_cons_of_mem _ inside)
    have ends : Ends (mark ')' :: more) := .inr ⟨more, rfl⟩
    have whole (more : List Spelling) : following ((entry :: entries).map Expr.entrySpelling) more =
        mark ',' :: space :: (entry.1.spellings ++
          mark ':' :: space :: (entry.2.spellings ++ following (entries.map Expr.entrySpelling) more)) := by
      rw [← entrySpelling_append, ← separated_cons]
      rfl
    simp only [whole, List.length_cons, List.length_append] at enough
    obtain ⟨n, rfl⟩ := Nat.exists_eq_add_of_le' (Nat.le_of_add_left_le enough)
    rw [whole, mapEntries]
    apply (parses_eatMark significant_mark).bind_eq
    apply (parses_beforeParenthesis begins.append (begins.behind_space _)).bind_eq
    apply (reads free (by omega) (begins.behind_space _) (.inr ⟨':', by simp, _, rfl⟩)).bind
    intro key same
    apply (parses_expectMark significant_mark).bind
    intro _ _
    apply (reads' free (by omega) (begins'.behind_space _) (following_closes _ ends)).bind
    intro value same'
    apply (ih later (by omega)).bind
    intro rest known
    apply Parses.pure
    rw [Expr.bareEntries, Expr.bareEntries, same, same', known]

theorem readsOperand_map {entries : List (Expr × Expr)} {pos : Position} (nonempty : entries ≠ [])
    (each : ∀ entry ∈ entries, ReadsEntry entry) : ReadsOperand (.map entries pos) := by
  intro context n before more free enough starts
  obtain ⟨first, entries, rfl⟩ := List.exists_cons_of_ne_nil nonempty
  obtain ⟨⟨begins, reads⟩, begins', reads'⟩ := each first List.mem_cons_self
  have later := fun entry inside => each entry (List.mem_cons_of_mem _ inside)
  have ends : Ends (mark ')' :: more) := .inr ⟨more, rfl⟩
  have whole (more : List Spelling) : separated ((first :: entries).map Expr.entrySpelling) ++ more =
      first.1.spellings ++
        mark ':' :: space :: (first.2.spellings ++ following (entries.map Expr.entrySpelling) more) := by
    rw [List.map_cons, separated_cons, entrySpelling_append]
  have length := congrArg List.length (whole [])
  rw [List.append_nil] at length
  rw [Expr.spellings, Expr.entrySpellings_eq_map, inParentheses_append, whole] at starts
  rw [Expr.spellings, Expr.entrySpellings_eq_map, inParentheses, List.length_cons, List.length_append,
    List.length_singleton, length] at enough
  simp only [List.length_append, List.length_cons] at enough
  obtain ⟨n, rfl⟩ := Nat.exists_eq_add_of_le' (show 3 ≤ n by omega)
  apply parses_parenthesis starts
  intro pos'
  have free : Context.stops { context with stops := [] } = [] := rfl
  rw [parenthesized]
  apply (parses_noParenthesis begins.append begins.append.significant).bind_eq
  apply (reads free (by omega) begins.append.significant (.inr ⟨':', by simp, _, rfl⟩)).bind
  intro key same
  apply (parses_eatMark significant_mark).bind_eq
  apply (reads' free (by omega) (begins'.behind_space _) (following_closes _ ends)).bind
  intro value same'
  apply (parses_mapEntries free entries later (by omega)).bind
  intro rest known
  apply (parses_expectMark significant_mark).bind
  intro _ _
  apply Parses.pure
  rw [Expr.bare, Expr.bare, Expr.bareEntries, Expr.bareEntries, same, same', known]

/-! Any expression -/

/-- How an expression is read that stands at a place. -/
def ReadsAt : (place : Nat) → Expr → Prop
  | 0, e => ReadsList e
  | 1, e => ReadsSpaceList e
  | level + 2, e => if level < operandLevel then ReadsLeft level e else level = operandLevel ∧ ReadsOperand e

theorem ReadsAt.operation (reads : ReadsAt (level + 2) e) : ReadsOperation level e := by
  rw [ReadsAt] at reads
  split at reads
  next loose => exact reads.operation loose
  next tight =>
    obtain ⟨rfl, reads⟩ := reads
    exact reads.operation

theorem ReadsAt.looser {place : Nat} (reads : ReadsAt (place + 1) e) (begins : BeginsExpr e.spellings) :
    ReadsAt place e := by
  match place with
  | 0 => exact reads.list begins
  | 1 => exact reads.operation.spaceList begins
  | level + 2 =>
    have loose : level < operandLevel := by
      by_contra tight
      rw [ReadsAt, if_neg (by omega)] at reads
      omega
    rw [ReadsAt, if_pos loose]
    exact reads.operation.left loose begins

/-- By induction on how the expression is built, with the reading of its place in each case. -/
theorem StandsAt.reads {place : Nat} (stands : StandsAt place e) : ReadsAt place e := by
  induction stands with
  | leaf valid => exact ⟨rfl, readsOperand_leaf⟩
  | not inner ih => exact ⟨rfl, ih.2.not inner.begins⟩
  | paren any ih => exact ⟨rfl, ih.paren⟩
  | map nonempty keys values keyIh valueIh =>
    refine ⟨rfl, readsOperand_map nonempty ?_⟩
    intro entry inside
    exact ⟨⟨(keys entry inside).begins, keyIh entry inside⟩, (values entry inside).begins, valueIh entry inside⟩
  | @binary op left right pos first second firstIh secondIh =>
    rw [ReadsAt, if_pos (bindingLevel_lt op)] at firstIh ⊢
    exact firstIh.binary secondIh.operation second.begins
  | spaceList several each ih =>
    apply readsSpaceList_list several
    intro item inside
    exact ⟨(each item inside).begins, (ih item inside).operation⟩
  | commaList several each ih =>
    apply readsList_list several
    intro item inside
    exact ⟨(each item inside).begins, ih item inside⟩
  | tighter stands ih => exact ih.looser stands.begins

end Stylesheet.Canonical

namespace Stylesheet

open Grammar

/-- The expression that a text begins with, and the tokens behind it. -/
def Expr.parse (source file : String) (origin : Position) : Except ParseError (Expr × List Token) :=
  parseText source file origin do return (← expression (expressionLimit source.toList), ← get)

/-- The text of an expression is read back as that expression, and nothing is left of it. -/
theorem Expr.parse_of_rendered {e : Expr} (stands : Canonical.StandsAt 0 e) (file : String) (origin : Position) :
    ∃ read, Expr.parse e.rendered file origin = .ok (read, []) ∧ read.bare = e.bare := by
  have fits : Spelling.Fits (e.spellings ++ []) := stands.fits [] (.inl rfl) True.intro
  rw [List.append_nil] at fits
  obtain ⟨sound, spelled⟩ := Spelling.lex_chars fits origin
  have enough : 16 * e.spellings.length + 10 ≤ expressionLimit e.rendered.toList := by
    have short := Spelling.length_le_chars fits
    rw [Expr.rendered, String.toList_ofList, expressionLimit]
    omega
  rw [← Expr.rendered] at sound spelled
  let context : Context :=
    { source := e.rendered.toList, finish := finishOf (lex e.rendered origin).tokens, stops := [], file }
  have starts : Spelling.significant e.spellings = e.spellings ++ [] := by
    rw [List.append_nil, stands.begins.significant]
  have reads : Canonical.ReadsList e := stands.reads
  have parses : Parses context (expression (expressionLimit e.rendered.toList)) e.spellings [] (·.bare = e.bare) :=
    reads.expression rfl starts (.inl rfl) enough
  obtain ⟨read, left, same, none, known⟩ := parses _ spelled
  obtain rfl := List.map_eq_nil_iff.1 none
  refine ⟨read, ?_, known⟩
  simp only [Expr.parse, parseText, sound]
  have whole : (do return (← expression (expressionLimit e.rendered.toList), ← get) : Parse (Expr × List Token)) context
      (lex e.rendered origin).tokens = .ok ((read, []), []) := by
    have step :
        (do return (← expression (expressionLimit e.rendered.toList), ← get) : Parse (Expr × List Token)) context
          (lex e.rendered origin).tokens =
      (expression (expressionLimit e.rendered.toList) context (lex e.rendered origin).tokens >>= fun (read, left) =>
        .ok ((read, left), left)) := rfl
    rw [step, same]
    rfl
  exact congrArg (Except.map Prod.fst) whole

/-- Differences that associate to either side, and a list of a space in a list at commas. -/
theorem Expr.parse_of_rendered_nested :
    let v (name : String) : Expr := .variable name .start
    let inner := Expr.binary .sub (v "c") (v "d") .start
    let difference := Expr.binary .sub (.binary .sub (v "a") (v "b") .start) (.paren inner) .start
    let e := Expr.list [difference, .list [.unary .not (v "a") .start, v "b"] .space false] .comma false
    Canonical.StandsAt 0 e ∧ e.rendered = "$a - $b - ($c - $d), not $a $b" ∧
      ∃ read, Expr.parse e.rendered "" .start = .ok (read, []) ∧ read.bare = e.bare := by
  intro v inner difference e
  have leaf {name : String} {place : Nat} (valid : isVariableName name.toList = true) (le : place ≤ 8) :
      Canonical.StandsAt place (v name) := (Canonical.StandsAt.leaf valid).of_le le
  have less {left right : Expr} (first : Canonical.StandsAt 6 left) (second : Canonical.StandsAt 7 right) :
      Canonical.StandsAt 6 (.binary .sub left right .start) := by
    have level : Grammar.bindingLevel .sub = 4 := rfl
    have stands := @Canonical.StandsAt.binary .sub left right .start
    rw [level] at stands
    exact stands first second
  have both {place : Nat} {first second : Expr} (one : Canonical.StandsAt place first)
      (two : Canonical.StandsAt place second) : ∀ item ∈ [first, second], Canonical.StandsAt place item := by
    intro item inside
    obtain rfl | inside := List.mem_cons.1 inside
    · exact one
    · rw [List.mem_singleton.1 inside]
      exact two
  have innerStands : Canonical.StandsAt 6 inner := less (leaf (by decide) (by decide)) (leaf (by decide) (by decide))
  have chain : Canonical.StandsAt 6 difference := by
    apply less (less (leaf (by decide) (by decide)) (leaf (by decide) (by decide)))
    exact (Canonical.StandsAt.paren (innerStands.of_le (by decide))).of_le (by decide)
  have pair : Canonical.StandsAt 1 (.list [.unary .not (v "a") .start, v "b"] .space false) := by
    apply Canonical.StandsAt.spaceList (by decide)
    have negation : Canonical.StandsAt 8 (.unary .not (v "a") .start) := .not (leaf (by decide) (by decide))
    exact both (negation.of_le (by decide)) (leaf (by decide) (by decide))
  have stands : Canonical.StandsAt 0 e := .commaList (by decide) (both (chain.of_le (by decide)) pair)
  exact ⟨stands, by decide +kernel, Expr.parse_of_rendered stands "" .start⟩

end Stylesheet
