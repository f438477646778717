import Stylesheet.Proofs.Spelling
import Stylesheet.Statement.Parser

/-! How parsers read tokens of which only the spellings are known. The steps of a parser take the spellings from the
front one after the other, so what is read of a text follows from what it is put together from. -/

namespace Stylesheet

namespace Spelling

def isTrivia (s : Spelling) : Bool :=
  match s.kind with
  | .blank _ | .comment _ => true
  | _ => false

def isMark (s : Spelling) (c : Char) : Bool :=
  match s.kind with
  | .mark d => d == c
  | _ => false

def significant (spellings : List Spelling) : List Spelling := spellings.dropWhile isTrivia

end Spelling

namespace Grammar

variable {α β : Type} {context : Context} {before between after more : List Spelling} {s : Spelling}
  {tokens left : List Token}

/-- A parser succeeds on some tokens. It leaves tokens that are spelled as `after` says. -/
def Accepts (context : Context) (parse : Parse α) (tokens : List Token) (after : List Spelling)
    (result : α → Prop) : Prop :=
  ∃ value left, parse context tokens = .ok (value, left) ∧ left.map Token.spelling = after ∧ result value

/-- A parser succeeds on all tokens that are spelled as `before` says. -/
def Parses (context : Context) (parse : Parse α) (before after : List Spelling) (result : α → Prop) : Prop :=
  ∀ tokens : List Token, tokens.map Token.spelling = before → Accepts context parse tokens after result

section Steps

variable {parse : Parse α} {next : α → Parse β} {found : α → Prop} {result : β → Prop}

theorem Accepts.pure {value : α} (spelled : tokens.map Token.spelling = before) (holds : found value) :
    Accepts context (pure value) tokens before found := ⟨value, tokens, rfl, spelled, holds⟩

theorem Accepts.bind (first : Accepts context parse tokens between found)
    (rest : ∀ value, found value → Parses context (next value) between after result) :
    Accepts context (parse >>= next) tokens after result := by
  obtain ⟨value, left, same, spelled, holds⟩ := first
  obtain ⟨value', left', same', more⟩ := rest value holds left spelled
  refine ⟨value', left', ?_, more⟩
  have step : (parse >>= next) context tokens = (parse context tokens >>= fun (value, left) => next value context left) :=
    rfl
  rw [step, same]
  exact same'

theorem Parses.bind (first : Parses context parse before between found)
    (rest : ∀ value, found value → Parses context (next value) between after result) :
    Parses context (parse >>= next) before after result :=
  fun tokens spelled => (first tokens spelled).bind rest

/-- A value that is known can be put in place before the rest is read. -/
theorem Parses.bind_eq {value : α} (first : Parses context parse before between (· = value))
    (rest : Parses context (next value) between after result) : Parses context (parse >>= next) before after result := by
  apply first.bind
  intro found known
  rw [known]
  exact rest

theorem Parses.pure {value : α} (holds : found value) : Parses context (pure value) before before found :=
  fun _ spelled => .pure spelled holds

theorem Parses.map {f : α → β} (first : Parses context parse before after found) :
    Parses context (f <$> parse) before after fun value => ∃ inner, value = f inner ∧ found inner := by
  rw [map_eq_pure_bind]
  exact first.bind fun value holds => .pure ⟨value, rfl, holds⟩

theorem Parses.imp {found' : α → Prop} (parses : Parses context parse before after found)
    (weaker : ∀ value, found value → found' value) : Parses context parse before after found' := by
  intro tokens spelled
  obtain ⟨value, left, same, spelled, holds⟩ := parses tokens spelled
  exact ⟨value, left, same, spelled, weaker value holds⟩

/-- Parsing that looks at the tokens first. -/
theorem Parses.get_bind {next : List Token → Parse β}
    (rest : ∀ tokens, tokens.map Token.spelling = before → Accepts context (next tokens) tokens after result) :
    Parses context (get >>= next) before after result :=
  fun tokens spelled => rest tokens spelled

theorem Parses.read_bind {next : Context → Parse β} (rest : Parses context (next context) before after result) :
    Parses context (read >>= next) before after result :=
  fun tokens spelled => rest tokens spelled

theorem Accepts.set_bind {next : PUnit → Parse β} (spelled : left.map Token.spelling = between)
    (rest : Parses context (next ⟨⟩) between after result) : Accepts context (set left >>= next) tokens after result :=
  rest left spelled

theorem Parses.stoppingAt {stops : List String} (parses : Parses { context with stops } parse before after found) :
    Parses context (stoppingAt stops parse) before after found := parses

end Steps

/-! Single tokens -/

theorem map_significant (tokens : List Token) :
    (significant tokens).map Token.spelling = Spelling.significant (tokens.map Token.spelling) := by
  rw [significant, Spelling.significant, List.dropWhile_map]
  rfl

theorem significant_eq_cons (spelled : tokens.map Token.spelling = before)
    (starts : Spelling.significant before = s :: more) :
    ∃ token rest, significant tokens = token :: rest ∧ token.spelling = s ∧ rest.map Token.spelling = more := by
  have same := map_significant tokens
  rw [spelled, starts] at same
  exact List.map_eq_cons_iff.1 same

theorem startsMark_eq (spelled : tokens.map Token.spelling = before)
    (starts : Spelling.significant before = s :: more) (c : Char) : startsMark tokens c = s.isMark c := by
  obtain ⟨token, rest, same, rfl, -⟩ := significant_eq_cons spelled starts
  rw [startsMark, same]
  rfl

theorem parses_atMark (starts : Spelling.significant before = s :: more) (c : Char) :
    Parses context (atMark c) before before (· = s.isMark c) :=
  fun tokens spelled => ⟨_, tokens, rfl, spelled, startsMark_eq spelled starts c⟩

theorem parses_peek (starts : Spelling.significant before = s :: more) :
    Parses context peek before before fun found => ∃ token, found = some token ∧ token.spelling = s := by
  intro tokens spelled
  obtain ⟨token, rest, same, first, -⟩ := significant_eq_cons spelled starts
  refine ⟨_, tokens, rfl, spelled, token, ?_, first⟩
  rw [same]
  rfl

theorem parses_advance (starts : Spelling.significant before = s :: more) :
    Parses context advance before more fun _ => True := by
  intro tokens spelled
  obtain ⟨token, rest, same, -, left⟩ := significant_eq_cons spelled starts
  refine ⟨⟨⟩, (significant tokens).drop 1, rfl, ?_, trivial⟩
  rw [same]
  exact left

theorem parses_skipTrivia : Parses context skipTrivia before (Spelling.significant before) fun _ => True := by
  intro tokens spelled
  refine ⟨⟨⟩, significant tokens, rfl, ?_, trivial⟩
  rw [map_significant, spelled]

theorem isMark_spelling (token : Token) (c : Char) : token.spelling.isMark c = token.isMark c := rfl

@[simp] theorem isMark_mark (c d : Char) : (Spelling.mark c).isMark d = (c == d) := rfl

theorem parses_eatMark {c : Char} (starts : Spelling.significant before = .mark c :: more) :
    Parses context (eatMark c) before more (· = true) := by
  refine (parses_atMark starts c).bind fun found same => ?_
  rw [same, isMark_mark, beq_self_eq_true, if_pos rfl]
  exact (parses_advance starts).bind fun _ _ => .pure rfl

theorem parses_eatMark_other {c : Char} (starts : Spelling.significant before = s :: more)
    (other : s.isMark c = false) : Parses context (eatMark c) before before (· = false) := by
  refine (parses_atMark starts c).bind fun found same => ?_
  rw [same, other, if_neg Bool.false_ne_true]
  exact .pure rfl

theorem parses_expectMark {c : Char} (starts : Spelling.significant before = .mark c :: more) :
    Parses context (expectMark c) before more fun _ => True := by
  refine (parses_eatMark starts).bind fun found same => ?_
  rw [same]
  exact .pure trivial

theorem parses_endStatement (starts : Spelling.significant before = .mark ';' :: more) :
    Parses context endStatement before more fun _ => True := by
  refine (parses_eatMark starts).bind fun found same => ?_
  rw [same]
  exact .pure trivial

theorem parses_expectName {name : String} (starts : Spelling.significant before = .word name :: more) :
    Parses context expectName before more (· = name) := by
  refine (parses_peek starts).bind ?_
  rintro _ ⟨token, rfl, same⟩
  have kind : token.kind = .ident name := congrArg Spelling.kind same
  rw [Option.map_some, kind]
  exact (parses_advance starts).bind fun _ _ => .pure rfl

theorem parses_expectVariable {name : String} (starts : Spelling.significant before = .dollarWord name :: more) :
    Parses context expectVariable before more (· = name) := by
  refine (parses_peek starts).bind ?_
  rintro _ ⟨token, rfl, same⟩
  have kind : token.kind = .variable name := congrArg Spelling.kind same
  rw [Option.map_some, kind]
  exact (parses_advance starts).bind fun _ _ => .pure rfl

/-- Whether a word is in small letters, as those are that the parsers look for. -/
def isSmall (name : String) : Bool := name.toList.all fun c => c.toLower == c

theorem toLower_eq_self {name : String} (small : isSmall name = true) : name.toLower = name := by
  have same : ∀ c ∈ name.toList, c.toLower = c := by simpa [isSmall] using small
  have mapped : name.toLower = name.map Char.toLower := rfl
  refine String.toList_inj.1 ?_
  rw [mapped, String.toList_map, List.map_congr_left same, List.map_id']

theorem sameWord_self (name : String) : Text.sameWord name name = true := beq_self_eq_true _

theorem sameWord_eq_false {name other : String} (small : isSmall name = true) (small' : isSmall other = true)
    (different : name ≠ other) : Text.sameWord name other = false := by
  rw [Text.sameWord, toLower_eq_self small, toLower_eq_self small']
  exact beq_false_of_ne different

theorem parses_atWord {name : String} (starts : Spelling.significant before = .word name :: more) (word : String) :
    Parses context (atWord word) before before (· = Text.sameWord name word) := by
  refine (parses_peek starts).bind ?_
  rintro _ ⟨token, rfl, same⟩
  have kind : token.kind = .ident name := congrArg Spelling.kind same
  refine .pure ?_
  rw [Option.any_some, isWord, kind]

theorem parses_expectWord {word : String} (starts : Spelling.significant before = .word word :: more) :
    Parses context (expectWord word) before more fun _ => True := by
  refine (parses_atWord starts word).bind fun found same => ?_
  rw [same, sameWord_self, if_pos rfl]
  exact parses_advance starts

theorem startsSpread_eq_false (spelled : tokens.map Token.spelling = before)
    (starts : Spelling.significant before = s :: more) (other : s.isMark '.' = false) : startsSpread tokens = false := by
  obtain ⟨token, rest, same, rfl, -⟩ := significant_eq_cons spelled starts
  have point : token.isMark '.' = false := other
  rw [startsSpread, same]
  split
  · next first _ _ _ known =>
    cases known
    rw [point, Bool.false_and, Bool.false_and]
  · rfl

theorem parses_eatSpread
    (starts : Spelling.significant before = .mark '.' :: .mark '.' :: .mark '.' :: more) :
    Parses context eatSpread before more (· = true) := by
  refine .get_bind fun tokens spelled => ?_
  obtain ⟨first, rest, same, one, spelled⟩ := significant_eq_cons spelled starts
  obtain ⟨second, rest, rfl, two, spelled⟩ := List.map_eq_cons_iff.1 spelled
  obtain ⟨third, rest, rfl, three, spelled⟩ := List.map_eq_cons_iff.1 spelled
  have point {token : Token} (known : token.spelling = .mark '.') : token.isMark '.' = true := by
    rw [← isMark_spelling, known, isMark_mark, beq_self_eq_true]
  have spreads : startsSpread tokens = true := by
    rw [startsSpread, same]
    simp only [point one, point two, point three, Bool.and_self]
  rw [spreads, if_pos rfl]
  refine ⟨true, (significant tokens).drop 3, rfl, ?_, rfl⟩
  rw [same]
  exact spelled

theorem parses_eatSpread_other (starts : Spelling.significant before = s :: more) (other : s.isMark '.' = false) :
    Parses context eatSpread before before (· = false) := by
  refine .get_bind fun tokens spelled => ?_
  rw [startsSpread_eq_false spelled starts other, if_neg Bool.false_ne_true]
  exact .pure spelled rfl

/-! Variables -/

/-- Whether an expression ends in front of a token. -/
def closes (stops : List String) (kind : TokenKind) : Bool :=
  (binaryOpOf? kind).isNone &&
    match kind with
    | .mark c => [',', ';', ')', ']', '}', '{', ':', '!', '.'].contains c
    | .ident name => stops.any (Text.sameWord name)
    | _ => false

theorem closes_word {name : String} {stops : List String} (small : isSmall name = true)
    (plain : name ≠ "or" ∧ name ≠ "and") (stop : name ∈ stops) : closes stops (.ident name) = true := by
  have noOr : Text.sameWord name "or" = false := sameWord_eq_false small (by decide) plain.1
  have noAnd : Text.sameWord name "and" = false := sameWord_eq_false small (by decide) plain.2
  have found : stops.any (Text.sameWord name) = true := List.any_eq_true.2 ⟨name, stop, sameWord_self name⟩
  simp [closes, binaryOpOf?, noOr, noAnd, found]

theorem parses_atExpressionEnd (starts : Spelling.significant before = s :: more)
    (ends : closes context.stops s.kind = true) : Parses context atExpressionEnd before before (· = true) := by
  refine fun tokens spelled => ⟨_, tokens, rfl, spelled, ?_⟩
  obtain ⟨token, rest, same, rfl, -⟩ := significant_eq_cons spelled starts
  simp only [closes, Bool.and_eq_true] at ends
  rw [endsExpression, same]
  exact ends.2

theorem parses_atExpressionEnd_other {name : String} (starts : Spelling.significant before = .dollarWord name :: more) :
    Parses context atExpressionEnd before before (· = false) := by
  refine fun tokens spelled => ⟨_, tokens, rfl, spelled, ?_⟩
  obtain ⟨token, rest, same, first, -⟩ := significant_eq_cons spelled starts
  rw [endsExpression, same]
  dsimp only
  rw [show token.kind = .variable name from congrArg Spelling.kind first]

theorem operatorAt?_eq_none (spelled : tokens.map Token.spelling = before)
    (starts : Spelling.significant before = s :: more) {stops : List String} (ends : closes stops s.kind = true)
    (level : Nat) : operatorAt? level tokens = none := by
  obtain ⟨token, rest, same, rfl, -⟩ := significant_eq_cons spelled starts
  have none : binaryOpOf? token.kind = none := by
    simp only [closes, Bool.and_eq_true, Option.isNone_iff_eq_none] at ends
    exact ends.1
  rw [operatorAt?, same]
  dsimp only
  rw [none]

theorem parses_operand {name : String} (starts : Spelling.significant before = .dollarWord name :: more) (n : Nat) :
    Parses context (operand (n + 2)) before more fun value => ∃ pos, value = .variable name pos := by
  rw [operand]
  refine (parses_peek starts).bind ?_
  rintro _ ⟨token, rfl, same⟩
  have kind : token.kind = .variable name := congrArg Spelling.kind same
  have noSign : unaryOpOf? token.kind = none := by
    rw [kind]
    rfl
  dsimp only
  rw [noSign]
  dsimp only
  rw [primary, kind]
  exact (parses_advance starts).bind fun _ _ => .pure ⟨token.pos, rfl⟩

/-- By induction on the number of levels that bind more tightly. -/
theorem parses_operation {name : String} (starts : Spelling.significant before = .dollarWord name :: more)
    (follows : Spelling.significant more = s :: after) (ends : closes context.stops s.kind = true) {tighter level : Nat}
    (levels : level + tighter = operandLevel) {n : Nat} (enough : tighter + 3 ≤ n) :
    Parses context (operation n level) before more fun value => ∃ pos, value = .variable name pos := by
  induction tighter generalizing level n with
  | zero =>
    obtain ⟨n, rfl⟩ := Nat.exists_eq_add_of_le' enough
    rw [operation, if_neg (by omega)]
    exact parses_operand starts n
  | succ tighter ih =>
    obtain ⟨n, rfl⟩ := Nat.exists_eq_add_of_le' enough
    rw [show n + (tighter + 1 + 3) = (n + tighter + 3) + 1 by omega, operation, if_pos (by omega)]
    refine (ih (by omega) (by omega)).bind ?_
    intro value known
    rw [operationsOn]
    refine .get_bind fun tokens spelled => ?_
    rw [operatorAt?_eq_none spelled follows ends]
    exact .pure spelled known

theorem parses_spaceList {name : String} (starts : Spelling.significant before = .dollarWord name :: more)
    (follows : Spelling.significant more = s :: after) (ends : closes context.stops s.kind = true) {n : Nat}
    (enough : 11 ≤ n) :
    Parses context (spaceList n) before more fun value => ∃ pos, value = .variable name pos := by
  obtain ⟨n, rfl⟩ := Nat.exists_eq_add_of_le' enough
  rw [show n + 11 = (n + 9 + 1) + 1 by omega, spaceList]
  refine (parses_atExpressionEnd_other starts).bind ?_
  rintro _ rfl
  rw [if_neg Bool.false_ne_true]
  have levels : 0 + 6 = operandLevel := rfl
  refine (parses_operation starts follows ends levels (by omega)).bind ?_
  rintro _ ⟨pos, rfl⟩
  have noMore : Parses context (spaceItems (n + 9 + 1)) more more (· = []) := by
    rw [spaceItems]
    refine (parses_atExpressionEnd follows ends).bind ?_
    rintro _ rfl
    exact .get_bind fun tokens spelled => .pure spelled rfl
  refine noMore.bind ?_
  rintro _ rfl
  exact .pure ⟨pos, rfl⟩

/-- A variable alone is an expression. No comma may follow it, which would make it the first item of a list. -/
theorem parses_expression {name : String} (starts : Spelling.significant before = .dollarWord name :: more)
    (follows : Spelling.significant more = s :: after) (ends : closes context.stops s.kind = true)
    (single : s.isMark ',' = false) {n : Nat} (enough : 12 ≤ n) :
    Parses context (expression n) before more fun value => ∃ pos, value = .variable name pos := by
  obtain ⟨n, rfl⟩ := Nat.exists_eq_add_of_le' enough
  rw [show n + 12 = (n + 11) + 1 by omega, expression]
  refine (parses_spaceList starts follows ends (by omega)).bind ?_
  rintro value known
  refine (parses_atMark follows ',').bind ?_
  rintro _ rfl
  rw [single, if_neg Bool.false_ne_true]
  exact .pure known

/-! Statements -/

theorem parses_skipBlank : Parses context skipBlank before (before.dropWhile Spelling.isBlank) fun _ => True := by
  intro tokens spelled
  refine ⟨⟨⟩, tokens.dropWhile Token.isBlank, rfl, ?_, trivial⟩
  rw [← spelled, List.dropWhile_map]
  rfl

theorem skipBlank_bind {α : Type} (next : Unit → Parse α) (tokens : List Token) :
    (skipBlank >>= next) context tokens = next ⟨⟩ context (tokens.dropWhile Token.isBlank) := rfl

theorem parses_textEnd {n : Nat} : Parses context (statements (n + 1) false) [] [] (· = []) := by
  rw [statements]
  refine parses_skipBlank.bind fun _ _ => ?_
  refine .get_bind fun tokens spelled => ?_
  obtain rfl := List.map_eq_nil_iff.1 spelled
  exact .pure rfl rfl

theorem parses_blockEnd {n : Nat} :
    Parses context (statements (n + 1) true) (.space :: .mark '}' :: more) more (· = []) := by
  rw [statements]
  refine parses_skipBlank.bind fun _ _ => ?_
  refine .get_bind fun tokens spelled => ?_
  obtain ⟨token, left, rfl, known, spelled⟩ := List.map_eq_cons_iff.1 spelled
  have kind : token.kind = .mark '}' := congrArg Spelling.kind known
  dsimp only
  rw [kind]
  exact .set_bind spelled (.pure rfl)

theorem parses_content (starts : Spelling.significant before = .mark ';' :: more) {n : Nat} (pos : Position) :
    Parses context (directive (n + 1) "content" pos) before more (· = .content pos) := by
  rw [directive]
  simp only [show "content".toLower = "content" from toLower_eq_self (by decide)]
  refine (parses_atMark starts '(').bind ?_
  rintro _ rfl
  exact (parses_endStatement starts).bind fun _ _ => .pure rfl

/-! Texts that are kept as they are written -/

/-- A token that a raw text takes over, where the marks `ends` would end it. -/
inductive IsRaw (ends : List Char) : Spelling → Prop
  | word {name text : String} : IsRaw ends ⟨.ident name, text⟩
  | mark {c : Char} {text : String} (goes : ends.contains c = false) (outside : c ∉ ['(', '[', ')', ']']) :
    IsRaw ends ⟨.mark c, text⟩
  | space {newline : Bool} : IsRaw ends ⟨.blank newline, " "⟩

theorem IsRaw.goes {ends : List Char} (raw : IsRaw ends s) : ends.any s.isMark = false := by
  cases raw with
  | word | space => exact List.any_eq_false.2 fun _ _ => Bool.false_ne_true
  | mark goes => rwa [List.contains_eq_any_beq] at goes

theorem consText_ofText (s t : String) : Template.consText s (Template.ofText t : Template Expr) = .ofText (s ++ t) := by
  have empty {r : String} (none : r.isEmpty = true) : r = "" := by simpa using none
  unfold Template.ofText Template.consText
  by_cases first : s.isEmpty = true
  · rw [if_pos first, empty first, String.empty_append]
  · by_cases second : t.isEmpty = true
    · rw [if_pos second, empty second, String.append_empty]
    · have whole : (s ++ t).isEmpty ≠ true := by simp_all
      rw [if_neg first, if_neg second, if_neg whole]

/-- By induction on the spellings. Only a blank in front of all others would be left out. -/
theorem parses_rawPieces {ends : List Char} {spellings : List Spelling} (raw : ∀ s ∈ spellings, IsRaw ends s)
    {started : Bool} (begins : started = true ∨ ∀ s ∈ spellings.head?, s.isTrivia = false)
    (stops : ends.any s.isMark = true) (withVariables : Bool) {n : Nat} (enough : spellings.length < n) :
    Parses context (rawPieces n withVariables ends 0 started) (spellings ++ s :: more) (s :: more)
      (· = Template.ofText (String.ofList (Spelling.chars spellings))) := by
  induction spellings generalizing started n with
  | nil =>
    obtain ⟨n, rfl⟩ := Nat.exists_eq_add_one.2 (Nat.zero_lt_of_lt enough)
    rw [rawPieces]
    refine .get_bind fun tokens spelled => ?_
    obtain ⟨token, rest, rfl, rfl, -⟩ := List.map_eq_cons_iff.1 spelled
    have stops : ends.any token.isMark = true := stops
    dsimp only
    rw [stops]
    exact .pure spelled rfl
  | cons first spellings ih =>
    obtain ⟨n, rfl⟩ := Nat.exists_eq_add_one.2 (Nat.zero_lt_of_lt enough)
    have later : Parses context (rawPieces n withVariables ends 0 true) (spellings ++ s :: more) (s :: more)
        (· = Template.ofText (String.ofList (Spelling.chars spellings))) :=
      ih (fun s inside => raw s (List.mem_cons_of_mem _ inside)) (.inl rfl) (Nat.lt_of_succ_lt_succ enough)
    have text {value : Template Expr}
        (known : value = Template.ofText (String.ofList (Spelling.chars spellings))) :
        Template.consText first.text value = Template.ofText (String.ofList (Spelling.chars (first :: spellings))) := by
      rw [known, consText_ofText, Spelling.chars_cons, String.ofList_append, String.ofList_toList]
    rw [rawPieces]
    refine .get_bind fun tokens spelled => ?_
    obtain ⟨⟨kind, written, start, pos, endPos⟩, rest, rfl, rfl, behind⟩ := List.map_eq_cons_iff.1 spelled
    have raw : IsRaw ends ⟨kind, written⟩ := raw _ List.mem_cons_self
    have goes : ends.any (Token.isMark ⟨kind, written, start, pos, endPos⟩) = false := raw.goes
    dsimp only
    rw [goes]
    refine .set_bind behind ?_
    cases raw with
    | word =>
      refine later.bind fun value known => ?_
      exact .pure (text known)
    | mark goes outside =>
      simp only [List.mem_cons, List.not_mem_nil, or_false, not_or] at outside
      simp only [Token.isMark, outside, Bool.or_self, beq_eq_false_iff_ne.2, ne_eq, not_false_eq_true]
      refine later.bind fun value known => ?_
      exact .pure (text known)
    | space =>
      have started : started = true := begins.resolve_right fun other => Bool.noConfusion (other _ rfl)
      subst started
      refine later.bind fun value known => ?_
      exact .pure (text known)

/-- A text whose runs of blanks are single spaces, and without blanks at its end. -/
def tidied (cs : List Char) : List Char := Text.trimEnd (Text.squeeze false cs)

theorem squeeze_ofText (text : String) : Template.squeeze (Template.ofText text : Template Expr) =
    .ofText (String.ofList (Text.squeeze false text.toList)) := by
  unfold Template.ofText Template.consText
  by_cases empty : text.isEmpty = true
  · rw [if_pos empty, show text = "" by simpa using empty]
    rfl
  · rw [if_neg empty]
    rfl

theorem trimEnd_squeeze (text : String) :
    Template.trimEnd (Template.squeeze (Template.ofText text)) =
      (Template.ofText (String.ofList (tidied text.toList)) : Template Expr) := by
  have trimEnd (s : String) : Template.trimEnd (Template.ofText s : Template Expr) = .ofText (Text.trimmedEnd s) := by
    unfold Template.ofText Template.consText
    by_cases empty : s.isEmpty = true
    · rw [if_pos empty, show s = "" by simpa using empty]
      rfl
    · rw [if_neg empty]
      rfl
  rw [squeeze_ofText, trimEnd, Text.trimmedEnd, String.toList_ofList, tidied]

theorem parses_rawTemplate {ends : List Char} {spellings : List Spelling} (raw : ∀ s ∈ spellings, IsRaw ends s)
    (begins : ∀ s ∈ spellings.head?, s.isTrivia = false) (stops : ends.any s.isMark = true) (withVariables : Bool)
    {n : Nat} (enough : spellings.length + 1 < n) :
    Parses context (rawTemplate n withVariables ends) (spellings ++ s :: more) (s :: more) fun template =>
      Template.trimEnd template = .ofText (String.ofList (tidied (Spelling.chars spellings))) := by
  obtain ⟨n, rfl⟩ := Nat.exists_eq_add_one.2 (Nat.zero_lt_of_lt enough)
  rw [rawTemplate]
  refine (parses_rawPieces raw (.inr begins) stops withVariables (Nat.lt_of_succ_lt_succ enough)).bind ?_
  rintro _ rfl
  exact .pure ((trimEnd_squeeze _).trans (by rw [String.toList_ofList]))

/-- A space at the end of a text is lost. -/
theorem tidied_space (cs : List Char) : tidied (cs ++ [' ']) = tidied cs := by
  have along (afterBlank : Bool) :
      Text.trimEnd (Text.squeeze afterBlank (cs ++ [' '])) = Text.trimEnd (Text.squeeze afterBlank cs) := by
    induction cs generalizing afterBlank with
    | nil => cases afterBlank <;> rfl
    | cons c tail ih =>
      simp only [List.cons_append, Text.squeeze]
      split
      · split
        · exact ih true
        · simp only [Text.trimEnd, ih true]
      · simp only [Text.trimEnd, ih false]
  exact along false

end Grammar

end Stylesheet
