import Stylesheet.Proofs.Reading

/-! Tokens of the same kinds. What a parser sees of the tokens ahead are their kinds, not where they stand or how they are
written. And the kinds of the tokens of a text do not depend on what stands before it, as long as the text begins with a
token of its own. -/

namespace Stylesheet

/-- Tokens of the same kinds, wherever they stand. -/
inductive SameKinds : List Token → List Token → Prop
  | nil : SameKinds [] []
  | cons {token token' : Token} {rest rest' : List Token} (kind : token.kind = token'.kind)
    (behind : SameKinds rest rest') : SameKinds (token :: rest) (token' :: rest')

namespace Token

variable {token token' : Token}

theorem isTrivia_congr (kind : token.kind = token'.kind) : token.isTrivia = token'.isTrivia := by
  rw [isTrivia, isTrivia, kind]

theorem isBlank_congr (kind : token.kind = token'.kind) : token.isBlank = token'.isBlank := by
  rw [isBlank, isBlank, kind]

theorem isMark_congr (kind : token.kind = token'.kind) (c : Char) : token.isMark c = token'.isMark c := by
  rw [isMark, isMark, kind]

end Token

namespace SameKinds

open Grammar

variable {tokens tokens' : List Token}

theorem drop (same : SameKinds tokens tokens') (count : Nat) : SameKinds (tokens.drop count) (tokens'.drop count) := by
  induction count generalizing tokens tokens' with
  | zero => exact same
  | succ count fewer =>
    cases same with
    | nil => exact .nil
    | cons kind behind => exact fewer behind

theorem significant (same : SameKinds tokens tokens') :
    SameKinds (Grammar.significant tokens) (Grammar.significant tokens') := by
  induction same with
  | nil => exact .nil
  | cons kind behind later =>
    unfold Grammar.significant at later ⊢
    rw [List.dropWhile_cons, List.dropWhile_cons, Token.isTrivia_congr kind]
    split
    · exact later
    · exact .cons kind behind

theorem trans {tokens'' : List Token} (first : SameKinds tokens tokens') (second : SameKinds tokens' tokens'') :
    SameKinds tokens tokens'' := by
  induction first generalizing tokens'' with
  | nil => exact second
  | cons kind behind later =>
    cases second with
    | cons kind' behind' => exact .cons (kind.trans kind') (later behind')

/-- Tokens that are spelled alike are of the same kinds. -/
theorem of_spelled (spelled : tokens.map Token.spelling = tokens'.map Token.spelling) : SameKinds tokens tokens' := by
  induction tokens generalizing tokens' with
  | nil =>
    rw [List.map_nil, eq_comm, List.map_eq_nil_iff] at spelled
    rw [spelled]
    exact .nil
  | cons token rest later =>
    obtain ⟨token', rest', rfl, first, behind⟩ := List.map_eq_cons_iff.1 spelled.symm
    exact .cons (congrArg Spelling.kind first.symm) (later behind.symm)

variable (same : SameKinds tokens tokens')

include same

/-- What comes next in both. -/
theorem ahead : Grammar.significant tokens = [] ∧ Grammar.significant tokens' = [] ∨
    ∃ token token' rest rest', Grammar.significant tokens = token :: rest ∧
      Grammar.significant tokens' = token' :: rest' ∧ token.kind = token'.kind ∧ SameKinds rest rest' := by
  have next := same.significant
  generalize Grammar.significant tokens = left, Grammar.significant tokens' = left' at next
  cases next with
  | nil => exact .inl ⟨rfl, rfl⟩
  | cons kind behind => exact .inr ⟨_, _, _, _, rfl, rfl, kind, behind⟩

theorem head_isMark (c : Char) : tokens.head?.any (·.isMark c) = tokens'.head?.any (·.isMark c) := by
  cases same with
  | nil => rfl
  | cons kind => exact Token.isMark_congr kind c

theorem head_isBlank : tokens.head?.any Token.isBlank = tokens'.head?.any Token.isBlank := by
  cases same with
  | nil => rfl
  | cons kind => exact Token.isBlank_congr kind

theorem startsMark (c : Char) : Grammar.startsMark tokens c = Grammar.startsMark tokens' c :=
  same.significant.head_isMark c

theorem startsSpread : Grammar.startsSpread tokens = Grammar.startsSpread tokens' := by
  unfold Grammar.startsSpread
  rcases same.ahead with ⟨empty, empty'⟩ | ⟨token, token', rest, rest', next, next', first, behind⟩
  · rw [empty, empty']
  · rw [next, next']
    cases behind with
    | nil => rfl
    | cons second behind =>
      cases behind with
      | nil => rfl
      | cons third behind =>
        dsimp only
        rw [Token.isMark_congr first, Token.isMark_congr second, Token.isMark_congr third]

theorem endsExpression (stops : List String) :
    Grammar.endsExpression stops tokens = Grammar.endsExpression stops tokens' := by
  unfold Grammar.endsExpression
  rcases same.ahead with ⟨empty, empty'⟩ | ⟨token, token', rest, rest', next, next', kind, behind⟩
  · rw [empty, empty']
  · rw [next, next']
    dsimp only
    rw [kind]

theorem keywordAt? : Grammar.keywordAt? tokens = Grammar.keywordAt? tokens' := by
  unfold Grammar.keywordAt?
  rcases same.ahead with ⟨empty, empty'⟩ | ⟨token, token', rest, rest', next, next', kind, behind⟩
  · rw [empty, empty']
  · rw [next, next']
    dsimp only
    rw [kind, behind.startsMark]

theorem joinsWord : Grammar.joinsWord tokens = Grammar.joinsWord tokens' := by
  unfold Grammar.joinsWord
  cases same with
  | nil => rfl
  | cons kind behind =>
    dsimp only [List.head?_cons, Option.map_some]
    rw [kind]

theorem takeWhile_trivia : SameKinds (tokens.takeWhile Token.isTrivia) (tokens'.takeWhile Token.isTrivia) := by
  induction same with
  | nil => exact .nil
  | cons kind behind later =>
    rw [List.takeWhile_cons, List.takeWhile_cons, Token.isTrivia_congr kind]
    split
    · exact .cons kind later
    · exact .nil

theorem last_isBlank : tokens.getLast?.any Token.isBlank = tokens'.getLast?.any Token.isBlank := by
  induction same with
  | nil => rfl
  | cons kind behind later =>
    cases behind with
    | nil => exact Token.isBlank_congr kind
    | cons kind' behind =>
      rw [List.getLast?_cons_cons, List.getLast?_cons_cons]
      exact later

theorem operatorAt? (level : Nat) :
    Grammar.operatorAt? level tokens = none ∧ Grammar.operatorAt? level tokens' = none ∨
      ∃ op pos pos' rest rest', Grammar.operatorAt? level tokens = some (op, pos, rest) ∧
        Grammar.operatorAt? level tokens' = some (op, pos', rest') ∧ SameKinds rest rest' := by
  unfold Grammar.operatorAt?
  rcases same.ahead with ⟨empty, empty'⟩ | ⟨token, token', rest, rest', next, next', kind, behind⟩
  · rw [empty, empty']
    exact .inl ⟨rfl, rfl⟩
  · rw [next, next']
    dsimp only
    rw [kind]
    cases binaryOpOf? token'.kind with
    | none => exact .inl ⟨rfl, rfl⟩
    | some op =>
      dsimp only
      rw [isItemSign, isItemSign, same.takeWhile_trivia.last_isBlank, behind.head_isBlank]
      split
      · exact .inl ⟨rfl, rfl⟩
      · split
        · exact .inl ⟨rfl, rfl⟩
        · exact .inr ⟨op, token.pos, token'.pos, rest, rest', rfl, rfl, behind⟩

end SameKinds

/-! Texts with the same end -/

variable {cs : List Char} {steps steps' : Nat}

/-- The tokens of a text do not depend on where it stands. -/
theorem Token.scan_sameKinds (enough : cs.length ≤ steps) (enough' : cs.length ≤ steps') (offset offset' : Nat)
    (pos pos' : Position) :
    ((scan steps offset pos cs).error = none → (scan steps' offset' pos' cs).error = none) ∧
      SameKinds (scan steps offset pos cs).tokens (scan steps' offset' pos' cs).tokens := by
  induction steps generalizing cs steps' offset offset' pos pos' with
  | zero =>
    obtain rfl := List.eq_nil_of_length_eq_zero (Nat.le_zero.1 enough)
    cases steps' <;> exact ⟨id, .nil⟩
  | succ steps fewer =>
    cases cs with
    | nil => cases steps' <;> exact ⟨id, .nil⟩
    | cons c rest =>
      obtain ⟨steps', rfl⟩ : ∃ fewer, steps' = fewer + 1 :=
        Nat.exists_eq_add_one.2 (Nat.lt_of_lt_of_le (Nat.succ_pos _) enough')
      rw [scan_cons, scan_cons]
      have reads := lexeme_reads c rest
      cases read : lexeme c rest with
      | error fault => exact ⟨nofun, .nil⟩
      | ok first =>
        rw [read] at reads
        have covers := congrArg List.length reads.1.covers
        have taken := List.length_pos_iff.2 reads.1.nonempty
        simp only [List.length_append, List.length_cons] at covers enough enough'
        have shorter : first.left.length ≤ steps := by omega
        have shorter' : first.left.length ≤ steps' := by omega
        obtain ⟨sound, same⟩ := fewer shorter shorter' _ _ _ _
        exact ⟨sound, .cons rfl same⟩

namespace Spelling

/-- Each token is read in front of those behind it and the rest of a text. -/
def FitsBefore : List Spelling → List Char → Prop
  | [], _ => True
  | s :: more, rest => s.Reads (chars more ++ rest) ∧ FitsBefore more rest

theorem scan_front {front : List Spelling} (fits : FitsBefore front cs)
    (enough : (chars front ++ cs).length ≤ steps) (offset : Nat) (pos : Position) :
    ∃ read steps' offset' pos', cs.length ≤ steps' ∧ read.map Token.spelling = front ∧
      Token.scan steps offset pos (chars front ++ cs) =
        ⟨read ++ (Token.scan steps' offset' pos' cs).tokens, (Token.scan steps' offset' pos' cs).error⟩ := by
  induction front generalizing steps offset pos with
  | nil => exact ⟨[], steps, offset, pos, enough, rfl, rfl⟩
  | cons s more later =>
    have nonempty := fits.1.length_pos
    obtain ⟨⟨c, tail, text, first⟩, fits⟩ := fits
    rw [chars_cons, List.append_assoc, text] at enough ⊢
    obtain ⟨steps, rfl⟩ : ∃ fewer, steps = fewer + 1 :=
      Nat.exists_eq_add_one.2 (Nat.lt_of_lt_of_le (Nat.succ_pos _) enough)
    have shorter : (chars more ++ cs).length ≤ steps := by
      have lengths := congrArg List.length text
      simp only [List.length_append, List.length_cons] at lengths enough ⊢
      omega
    rw [Token.scan_cons, first]
    obtain ⟨read, steps', offset', pos', enough', spelled, same⟩ := later fits shorter
      (Token.mk s.kind (String.ofList s.text.toList) offset pos (pos.after s.text.toList)).stop
      (pos.after s.text.toList)
    refine ⟨_ :: read, steps', offset', pos', enough', ?_, by dsimp only; rw [same]; rfl⟩
    rw [List.map_cons, spelled, Token.spelling, String.ofList_toList]

end Spelling

/-- Texts that differ at the beginning only: behind that, the tokens are of the same kinds. -/
theorem lex_sameKinds {front front' : List Spelling} (fits : Spelling.FitsBefore front cs)
    (fits' : Spelling.FitsBefore front' cs)
    (fine : (lex (String.ofList (Spelling.chars front ++ cs))).error = none) :
    (lex (String.ofList (Spelling.chars front' ++ cs))).error = none ∧
      ∃ read read' more more', (lex (String.ofList (Spelling.chars front ++ cs))).tokens = read ++ more ∧
        (lex (String.ofList (Spelling.chars front' ++ cs))).tokens = read' ++ more' ∧
        read.map Token.spelling = front ∧ read'.map Token.spelling = front' ∧ SameKinds more more' := by
  have text (front : List Spelling) : lex (String.ofList (Spelling.chars front ++ cs)) =
      Token.scan (Spelling.chars front ++ cs).length 0 Position.start (Spelling.chars front ++ cs) := by
    rw [lex, String.toList_ofList]
  obtain ⟨read, steps, offset, pos, enough, spelled, scanned⟩ :=
    Spelling.scan_front fits (Nat.le_refl _) 0 Position.start
  obtain ⟨read', steps', offset', pos', enough', spelled', scanned'⟩ :=
    Spelling.scan_front fits' (Nat.le_refl _) 0 Position.start
  rw [text, scanned] at fine
  rw [text, text, scanned, scanned']
  obtain ⟨sound, same⟩ := Token.scan_sameKinds enough enough' offset offset' pos pos'
  exact ⟨sound fine, read, read', _, _, rfl, rfl, spelled, spelled', same⟩

end Stylesheet
