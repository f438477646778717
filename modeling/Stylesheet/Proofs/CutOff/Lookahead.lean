import Stylesheet.Proofs.CutOff.Continuation
import Stylesheet.Statement.Parser

/-! What comes next in a text that is cut off, and in the same text with closing braces behind it. As far as the parsers
look ahead, they see the same: the end of a text is to them what a closing brace is. -/

namespace Stylesheet

/-! What comes next -/

namespace Grammar

variable {tokens rest : List Token} {token : Token}

/-- Nothing but blanks and comments is left. -/
def Ended (tokens : List Token) : Prop := significant tokens = []

theorem ended_nil : Ended [] := rfl

theorem ended_cons : Ended (token :: rest) ↔ token.isTrivia = true ∧ Ended rest := by
  unfold Ended significant
  rw [List.dropWhile_cons]
  split
  · next trivia => simp [trivia]
  · next other => simp [other]

theorem Ended.significant (ended : Ended tokens) : Ended (significant tokens) := by
  rw [show Grammar.significant tokens = [] from ended]
  exact ended_nil

theorem isTrivia_of_mark {c : Char} (kind : token.kind = .mark c) : token.isTrivia = false := by
  unfold Token.isTrivia
  rw [kind]

theorem isMark_of_mark {c d : Char} (kind : token.kind = .mark c) : token.isMark d = (c == d) := by
  unfold Token.isMark
  rw [kind]

theorem isWord_of_mark {c : Char} (kind : token.kind = .mark c) (word : String) : isWord token word = false := by
  unfold isWord
  rw [kind]

end Grammar

namespace TokenKind.Becomes

variable {token token' : Token} (becomes : token.kind.Becomes token'.kind)

include becomes

theorem isTrivia : token'.isTrivia = token.isTrivia := by
  unfold Token.isTrivia
  generalize token.kind = kind, token'.kind = kind' at becomes
  cases becomes <;> rfl

theorem isBlank : token'.isBlank = token.isBlank := by
  unfold Token.isBlank
  generalize token.kind = kind, token'.kind = kind' at becomes
  cases becomes <;> rfl

theorem isMark (c : Char) : token.isMark c = false ∧ token'.isMark c = false := by
  unfold Token.isMark
  generalize token.kind = kind, token'.kind = kind' at becomes
  cases becomes <;> exact ⟨rfl, rfl⟩

theorem isWord {word : String} (known : isKnown word = true) :
    Grammar.isWord token word = false ∧ Grammar.isWord token' word = false := by
  unfold Grammar.isWord
  generalize token.kind = kind, token'.kind = kind' at becomes
  cases becomes with
  | ident first second => exact ⟨sameWord_of_unknown first known, sameWord_of_unknown second known⟩
  | blank | atKeyword | «variable» | hash => exact ⟨rfl, rfl⟩

end TokenKind.Becomes

namespace Closing

variable {token : Token} {tokens rest : List Token} (closing : Closing tokens)

theorem nil : Closing [] := fun _ member => absurd member List.not_mem_nil

theorem tail (closing : Closing (token :: rest)) : Closing rest :=
  fun other member => closing other (List.mem_cons_of_mem token member)

include closing

theorem drop (count : Nat) : Closing (tokens.drop count) :=
  fun token member => closing token (List.mem_of_mem_drop member)

theorem significant : Grammar.significant tokens = tokens := by
  cases tokens with
  | nil => rfl
  | cons token rest =>
    rw [Grammar.significant, List.dropWhile_cons, Grammar.isTrivia_of_mark (closing token List.mem_cons_self)]
    rfl

theorem skipBlank : tokens.dropWhile Token.isBlank = tokens := by
  cases tokens with
  | nil => rfl
  | cons token rest =>
    have blank : ¬token.isBlank := by
      rw [Token.isBlank, closing token List.mem_cons_self]
      exact nofun
    rw [List.dropWhile_cons_of_neg blank]

theorem isMark {c : Char} (other : c ≠ '}') : tokens.head?.any (·.isMark c) = false := by
  cases tokens with
  | nil => rfl
  | cons token rest =>
    change token.isMark c = false
    rw [Grammar.isMark_of_mark (closing token List.mem_cons_self)]
    exact beq_false_of_ne other.symm

end Closing

/-- What comes next in a text and in the text that continues it. -/
inductive Ahead (short long : List Token) : Prop
  | ended (ended : Grammar.significant short = []) (closing : Closing (Grammar.significant long))
  | same {token : Token} {rest rest' : List Token} (first : Grammar.significant short = token :: rest)
    (second : Grammar.significant long = token :: rest') (behind : Continues rest rest')
    (before : short.takeWhile Token.isTrivia = long.takeWhile Token.isTrivia)
  | last {token token' : Token} {braces : List Token} (first : Grammar.significant short = [token])
    (second : Grammar.significant long = token' :: braces) (becomes : token.kind.Becomes token'.kind)
    (place : token.pos = token'.pos) (closing : Closing braces)

namespace Continues

open Grammar (significant isTrivia_of_mark isMark_of_mark)

variable {short long : List Token} (continues : Continues short long)

include continues

theorem ahead : Ahead short long := by
  induction continues with
  | closing closing =>
    refine .ended rfl ?_
    rwa [closing.significant]
  | @last token token' braces becomes place closing =>
    cases trivia : token.isTrivia with
    | true =>
      refine .ended ?_ ?_
      · simp [significant, trivia]
      · rw [significant, List.dropWhile_cons_of_pos (becomes.isTrivia.trans trivia)]
        rwa [show braces.dropWhile Token.isTrivia = braces from closing.significant]
    | false =>
      refine .last ?_ ?_ becomes place closing
      · simp [significant, trivia]
      · simp [significant, becomes.isTrivia, trivia]
  | @cons token rest rest' behind ahead =>
    cases trivia : token.isTrivia with
    | true =>
      have skip (tokens : List Token) : significant (token :: tokens) = significant tokens := by
        simp [significant, trivia]
      cases ahead with
      | ended ended closing => exact .ended (by rwa [skip]) (by rwa [skip])
      | same first second behind before =>
        refine .same (by rwa [skip]) (by rwa [skip]) behind ?_
        rw [List.takeWhile_cons_of_pos trivia, List.takeWhile_cons_of_pos trivia, before]
      | last first second becomes place closing =>
        exact .last (by rwa [skip]) (by rwa [skip]) becomes place closing
    | false =>
      have plain (tokens : List Token) : significant (token :: tokens) = token :: tokens := by
        simp [significant, trivia]
      exact .same (plain rest) (plain rest') behind (by simp [trivia])

theorem significant : Continues (significant short) (significant long) := by
  cases continues.ahead with
  | ended ended closing =>
    rw [ended]
    exact .closing closing
  | same first second behind _ =>
    rw [first, second]
    exact .cons behind
  | last first second becomes place closing =>
    rw [first, second]
    exact .last becomes place closing

theorem skipBlank : Continues (short.dropWhile Token.isBlank) (long.dropWhile Token.isBlank) := by
  induction continues with
  | @closing braces closing =>
    rw [closing.skipBlank]
    exact .closing closing
  | @last token token' braces becomes place closing =>
    rw [List.dropWhile_cons, List.dropWhile_cons, becomes.isBlank]
    split
    · rw [closing.skipBlank]
      exact .closing closing
    · exact .last becomes place closing
  | @cons token rest rest' behind skipped =>
    rw [List.dropWhile_cons, List.dropWhile_cons]
    split
    · exact skipped
    · exact .cons behind

theorem drop (count : Nat) : Continues (short.drop count) (long.drop count) := by
  induction count generalizing short long with
  | zero => exact continues
  | succ count fewer =>
    cases continues with
    | closing closing => exact .closing (closing.drop _)
    | last becomes place closing =>
      rw [List.drop_succ_cons, List.drop_succ_cons, List.drop_nil]
      exact .closing (closing.drop _)
    | cons behind => exact fewer behind

/-! What is seen ahead is the same in both texts. -/

theorem isMark {c : Char} (other : c ≠ '}') : short.head?.any (·.isMark c) = long.head?.any (·.isMark c) := by
  cases continues with
  | closing closing => exact (closing.isMark other).symm
  | last becomes => exact (becomes.isMark c).1.trans (becomes.isMark c).2.symm
  | cons => rfl

theorem startsMark {c : Char} (other : c ≠ '}') : Grammar.startsMark short c = Grammar.startsMark long c :=
  continues.significant.isMark other

theorem startsSpread : Grammar.startsSpread short = Grammar.startsSpread long := by
  have points (tokens : List Token) : Grammar.startsSpread tokens =
      ((Grammar.significant tokens).head?.any (·.isMark '.') &&
        ((Grammar.significant tokens).drop 1).head?.any (·.isMark '.') &&
        ((Grammar.significant tokens).drop 2).head?.any (·.isMark '.')) := by
    unfold Grammar.startsSpread
    rcases Grammar.significant tokens with _ | ⟨first, _ | ⟨second, _ | ⟨third, rest⟩⟩⟩
    · rfl
    · simp
    · simp
    · rfl
  have same (count : Nat) := (continues.significant.drop count).isMark (c := '.') (by decide)
  rw [points, points, same 1, same 2]
  congr 2
  exact same 0

theorem isWord {word : String} (known : isKnown word = true) :
    short.head?.any (Grammar.isWord · word) = long.head?.any (Grammar.isWord · word) := by
  cases continues with
  | closing closing =>
    cases long with
    | nil => rfl
    | cons token rest =>
      change false = Grammar.isWord token word
      rw [Grammar.isWord, closing token List.mem_cons_self]
  | last becomes => exact (becomes.isWord known).1.trans (becomes.isWord known).2.symm
  | cons => rfl

theorem endsExpression {stops : List String} (known : ∀ word ∈ stops, isKnown word = true) :
    Grammar.endsExpression stops short = Grammar.endsExpression stops long := by
  unfold Grammar.endsExpression
  cases continues.ahead with
  | ended ended closing =>
    rw [ended]
    cases behind : Grammar.significant long with
    | nil => rfl
    | cons token rest =>
      rw [behind] at closing
      simp only [closing token List.mem_cons_self]
      rfl
  | same first second => rw [first, second]
  | @last token token' braces first second becomes =>
    rw [first, second]
    dsimp only
    generalize token.kind = kind, token'.kind = kind' at becomes
    cases becomes with
    | ident unknown unknown' =>
      change stops.any _ = stops.any _
      rw [List.any_eq_false.2, List.any_eq_false.2]
      · exact fun word member => Bool.eq_false_iff.1 (sameWord_of_unknown unknown' (known word member))
      · exact fun word member => Bool.eq_false_iff.1 (sameWord_of_unknown unknown (known word member))
    | blank | atKeyword | «variable» | hash => rfl

theorem keywordAt? : Grammar.keywordAt? short = Grammar.keywordAt? long := by
  unfold Grammar.keywordAt?
  cases continues.ahead with
  | ended ended closing =>
    rw [ended]
    cases behind : Grammar.significant long with
    | nil => rfl
    | cons token rest =>
      rw [behind] at closing
      simp only [closing token List.mem_cons_self]
  | same first second behind =>
    rw [first, second]
    dsimp only
    rw [behind.startsMark (by decide)]
  | @last token token' braces first second becomes _ closing =>
    have none : Grammar.startsMark [] ':' = false := rfl
    have none' : Grammar.startsMark braces ':' = false := by
      rw [Grammar.startsMark, closing.significant]
      exact closing.isMark (by decide)
    rw [first, second]
    dsimp only
    rw [none, none']
    generalize token.kind = kind, token'.kind = kind' at becomes
    cases becomes <;> rfl

theorem isItemSign (trivia : List Token) : Grammar.isItemSign trivia short = Grammar.isItemSign trivia long := by
  have blank : short.head?.any Token.isBlank = long.head?.any Token.isBlank := by
    cases continues with
    | closing closing =>
      cases long with
      | nil => rfl
      | cons token rest =>
        change false = token.isBlank
        rw [Token.isBlank, closing token List.mem_cons_self]
    | last becomes => exact becomes.isBlank.symm
    | cons => rfl
  rw [Grammar.isItemSign, Grammar.isItemSign, blank]

theorem joinsWord : Grammar.joinsWord short = Grammar.joinsWord long := by
  unfold Grammar.joinsWord
  cases continues with
  | closing closing =>
    cases long with
    | nil => rfl
    | cons token rest => simp [closing token List.mem_cons_self]
  | @last token token' braces becomes =>
    dsimp only [List.head?_cons, Option.map_some]
    generalize token.kind = kind, token'.kind = kind' at becomes
    cases becomes <;> rfl
  | cons => rfl

end Continues

namespace Grammar

/-! Operators -/

theorem operatorAt?_of_ended {level : Nat} {tokens : List Token} (ended : Ended tokens) :
    operatorAt? level tokens = none := by
  unfold operatorAt?
  rw [show significant tokens = [] from ended]

theorem binaryOpOf?_of_becomes {kind kind' : TokenKind} (becomes : kind.Becomes kind') :
    binaryOpOf? kind = none ∧ binaryOpOf? kind' = none := by
  have word {name : String} (unknown : IsUnknown name) : binaryOpOf? (.ident name) = none := by
    rw [binaryOpOf?, sameWord_of_unknown unknown (by decide), sameWord_of_unknown unknown (by decide)]
    rfl
  cases becomes with
  | ident unknown unknown' => exact ⟨word unknown, word unknown'⟩
  | blank | atKeyword | «variable» | hash => exact ⟨rfl, rfl⟩

theorem unaryOpOf?_of_becomes {kind kind' : TokenKind} (becomes : kind.Becomes kind') :
    unaryOpOf? kind = none ∧ unaryOpOf? kind' = none := by
  have word {name : String} (unknown : IsUnknown name) : unaryOpOf? (.ident name) = none := by
    rw [unaryOpOf?, sameWord_of_unknown unknown (by decide)]
    rfl
  cases becomes with
  | ident unknown unknown' => exact ⟨word unknown, word unknown'⟩
  | blank | atKeyword | «variable» | hash => exact ⟨rfl, rfl⟩

theorem operatorAt?_continues (level : Nat) {short long : List Token} (continues : Continues short long) :
    operatorAt? level short = none ∧ operatorAt? level long = none ∨
      ∃ op pos rest rest', operatorAt? level short = some (op, pos, rest) ∧
        operatorAt? level long = some (op, pos, rest') ∧ Continues rest rest' := by
  cases continues.ahead with
  | ended ended closing =>
    refine .inl ⟨operatorAt?_of_ended ended, ?_⟩
    unfold operatorAt?
    cases behind : significant long with
    | nil => rfl
    | cons token rest =>
      rw [behind] at closing
      simp only [closing token List.mem_cons_self]
      rfl
  | @same token rest rest' first second behind before =>
    unfold operatorAt?
    rw [first, second]
    dsimp only
    cases binaryOpOf? token.kind with
    | none => exact .inl ⟨rfl, rfl⟩
    | some op =>
      dsimp only
      rw [behind.isItemSign, before]
      by_cases looser : bindingLevel op != level
      · rw [if_pos looser, if_pos looser]
        exact .inl ⟨rfl, rfl⟩
      · rw [if_neg looser, if_neg looser]
        by_cases sign : (op == .add || op == .sub) && isItemSign (long.takeWhile Token.isTrivia) rest'
        · rw [if_pos sign, if_pos sign]
          exact .inl ⟨rfl, rfl⟩
        · rw [if_neg sign, if_neg sign]
          exact .inr ⟨op, token.pos, rest, rest', rfl, rfl, behind⟩
  | last first second becomes =>
    unfold operatorAt?
    rw [first, second]
    dsimp only
    rw [(binaryOpOf?_of_becomes becomes).1, (binaryOpOf?_of_becomes becomes).2]
    exact .inl ⟨rfl, rfl⟩

/-! Declarations -/

variable {tokens short long rest : List Token} {token : Token}

/-- Whatever is open, a value ends at closing braces as it does at the end of the text. -/
theorem endsBeforeBlock_of_closing {codes depth : Nat} (closing : Closing tokens) :
    endsBeforeBlock codes depth tokens = true := by
  induction tokens generalizing codes with
  | nil => rfl
  | cons token rest later =>
    unfold endsBeforeBlock
    simp only [closing token List.mem_cons_self]
    split
    · exact later closing.tail
    · split
      · rfl
      · exact later closing.tail

theorem endsBeforeBlock_eq {codes depth : Nat} (continues : Continues short long) :
    endsBeforeBlock codes depth short = endsBeforeBlock codes depth long := by
  induction continues generalizing codes depth with
  | closing closing => exact (endsBeforeBlock_of_closing closing).symm
  | @last token token' braces becomes place closing =>
    unfold endsBeforeBlock
    generalize token.kind = kind, token'.kind = kind' at becomes
    cases becomes <;> exact (endsBeforeBlock_of_closing closing).symm
  | @cons token rest rest' behind same =>
    unfold endsBeforeBlock
    simp only [same]

theorem startsMark_of_closing {c : Char} (closing : Closing tokens) (other : c ≠ '}') :
    startsMark tokens c = false := by
  rw [startsMark, closing.significant]
  exact closing.isMark other

theorem scanProperty_closing {codes : Nat} {start found : List Char} (closing : Closing tokens)
    (scanned : scanProperty codes start tokens = some (found, rest)) : Closing rest := by
  induction tokens generalizing codes with
  | nil =>
    cases codes with
    | zero =>
      cases scanned
      exact closing
    | succ codes => cases scanned
  | cons token behind later =>
    cases codes with
    | zero =>
      rw [scanProperty] at scanned
      simp only [closing token List.mem_cons_self] at scanned
      cases scanned
      exact closing
    | succ codes =>
      rw [scanProperty] at scanned
      simp only [closing token List.mem_cons_self] at scanned
      exact later closing.tail scanned

/-- What may be the name of a property, in both texts: the same with tokens behind it that continue each other, or it
goes on to the end of the text, and no colon follows. -/
theorem scanProperty_continues (codes : Nat) (start : List Char) (continues : Continues short long) :
    (∃ found rest rest', scanProperty codes start short = some (found, rest) ∧
      scanProperty codes start long = some (found, rest') ∧ Continues rest rest') ∨
    (∀ found rest, scanProperty codes start short = some (found, rest) → startsMark rest ':' = false) ∧
      ∀ found rest, scanProperty codes start long = some (found, rest) → startsMark rest ':' = false := by
  induction continues generalizing codes start with
  | closing closing =>
    refine .inr ⟨fun found rest scanned => ?_, fun found rest scanned => ?_⟩
    · exact startsMark_of_closing (scanProperty_closing .nil scanned) (by decide)
    · exact startsMark_of_closing (scanProperty_closing closing scanned) (by decide)
  | @last token token' braces becomes place closing =>
    have ended {codes : Nat} {start found : List Char} {rest : List Token}
        (scanned : scanProperty codes start [] = some (found, rest)) : startsMark rest ':' = false :=
      startsMark_of_closing (scanProperty_closing .nil scanned) (by decide)
    have closed {codes : Nat} {start found : List Char} {rest : List Token}
        (scanned : scanProperty codes start braces = some (found, rest)) : startsMark rest ':' = false :=
      startsMark_of_closing (scanProperty_closing closing scanned) (by decide)
    have alone : Continues [token] (token' :: braces) := .last becomes place closing
    cases codes with
    | zero =>
      rw [scanProperty.eq_def 0 start [token], scanProperty.eq_def 0 start (token' :: braces)]
      dsimp only
      generalize token.kind = kind, token'.kind = kind' at becomes
      cases becomes with
      | ident => exact .inr ⟨fun _ _ => ended, fun _ _ => closed⟩
      | blank | atKeyword | «variable» | hash => exact .inl ⟨start, _, _, rfl, rfl, alone⟩
    | succ codes =>
      rw [scanProperty.eq_def (codes + 1) start [token], scanProperty.eq_def (codes + 1) start (token' :: braces)]
      dsimp only
      generalize token.kind = kind, token'.kind = kind' at becomes
      cases becomes <;> exact .inr ⟨fun _ _ => ended, fun _ _ => closed⟩
  | @cons token rest rest' behind later =>
    cases codes with
    | zero =>
      rw [scanProperty, scanProperty]
      split
      · exact later _ _
      · exact later _ _
      · exact later _ _
      · exact later _ _
      · exact .inl ⟨start, _, _, rfl, rfl, .cons behind⟩
    | succ codes =>
      rw [scanProperty, scanProperty]
      split
      · exact later _ _
      · exact later _ _
      · exact later _ _
      · exact later _ _

theorem startsDeclaration_of_noColon
    (none : ∀ found rest, scanProperty 0 [] tokens = some (found, rest) → startsMark rest ':' = false) :
    startsDeclaration tokens = false := by
  unfold startsDeclaration
  split
  · rfl
  · rfl
  · next start rest _ scanned =>
    have other := none start rest scanned
    unfold startsMark at other
    split
    · next colon value follows =>
      rw [follows] at other
      have other : colon.isMark ':' = false := other
      rw [other]
      rfl
    · rfl

theorem startsDeclaration_eq (continues : Continues short long) : startsDeclaration short = startsDeclaration long := by
  rcases scanProperty_continues 0 [] continues with
    ⟨found, rest, rest', first, second, behind⟩ | ⟨none, none'⟩
  · unfold startsDeclaration
    rw [first, second]
    cases found with
    | nil => rfl
    | cons c found =>
      dsimp only
      cases behind.ahead with
      | ended ended closing =>
        rw [ended]
        cases follows : significant rest' with
        | nil => rfl
        | cons token more =>
          rw [follows] at closing
          dsimp only
          rw [isMark_of_mark (closing token List.mem_cons_self)]
          rfl
      | @same colon value value' here there later =>
        rw [here, there]
        dsimp only
        split
        · rfl
        · split
          · rfl
          · cases later with
            | closing closing =>
              cases value' with
              | nil => rfl
              | cons token more =>
                dsimp only
                rw [endsBeforeBlock_of_closing closing, Bool.or_true]
            | last becomes place closing =>
              dsimp only
              rw [becomes.isTrivia, (becomes.isMark '{').1, (becomes.isMark '{').2,
                endsBeforeBlock_eq (.last becomes place closing)]
            | cons behind =>
              dsimp only
              rw [endsBeforeBlock_eq (.cons behind)]
      | last here there becomes =>
        rw [here, there]
        dsimp only
        rw [(becomes.isMark ':').1, (becomes.isMark ':').2]
        rfl
  · rw [startsDeclaration_of_noColon none, startsDeclaration_of_noColon none']

/-! References and branches -/

theorem referenceAt?_of_ended (ended : Ended tokens) : referenceAt? tokens = none := by
  unfold referenceAt?
  rw [show significant tokens = [] from ended]

/-- A reference may be followed by the end of the text as well as by a closing brace. -/
theorem referenceAt?_continues (continues : Continues short long) :
    referenceAt? short = none ∧ referenceAt? long = none ∨
      ∃ reference pos rest rest', referenceAt? short = some (reference, pos, rest) ∧
        referenceAt? long = some (reference, pos, rest') ∧ Continues rest rest' := by
  cases continues.ahead with
  | ended ended closing =>
    refine .inl ⟨referenceAt?_of_ended ended, ?_⟩
    unfold referenceAt?
    cases follows : significant long with
    | nil => rfl
    | cons token rest =>
      rw [follows] at closing
      simp only [closing token List.mem_cons_self]
  | @same token rest rest' first second behind =>
    have alone : ((significant rest).head?.all fun next => next.isMark ',' || next.isMark ';' || next.isMark '}') =
        (significant rest').head?.all fun next => next.isMark ',' || next.isMark ';' || next.isMark '}' := by
      cases behind.ahead with
      | ended ended closing =>
        rw [ended]
        cases follows : significant rest' with
        | nil => rfl
        | cons next more =>
          rw [follows] at closing
          dsimp only [List.head?_cons, Option.all_some]
          rw [isMark_of_mark (d := '}') (closing next List.mem_cons_self), beq_self_eq_true, Bool.or_true]
          rfl
      | same here there =>
        rw [here, there]
        rfl
      | last here there becomes =>
        rw [here, there]
        dsimp only [List.head?_cons, Option.all_some]
        simp only [(becomes.isMark _).1, (becomes.isMark _).2]
    unfold referenceAt?
    rw [first, second]
    dsimp only
    split
    · rw [alone]
      split
      · exact .inr ⟨_, _, rest, rest', rfl, rfl, behind⟩
      · exact .inl ⟨rfl, rfl⟩
    · exact .inl ⟨rfl, rfl⟩
  | @last token token' braces first second becomes =>
    unfold referenceAt?
    rw [first, second]
    dsimp only
    generalize token.kind = kind, token'.kind = kind' at becomes
    cases becomes <;> exact .inl ⟨rfl, rfl⟩

theorem elseAt?_of_ended (ended : Ended tokens) : elseAt? tokens = none := by
  unfold elseAt?
  rw [show significant tokens = [] from ended]

theorem elseAt?_continues (continues : Continues short long) :
    elseAt? short = none ∧ elseAt? long = none ∨
      ∃ condition rest rest', elseAt? short = some (condition, rest) ∧ elseAt? long = some (condition, rest') ∧
        Continues rest rest' := by
  cases continues.ahead with
  | ended ended closing =>
    refine .inl ⟨elseAt?_of_ended ended, ?_⟩
    unfold elseAt?
    cases follows : significant long with
    | nil => rfl
    | cons token rest =>
      rw [follows] at closing
      simp only [closing token List.mem_cons_self]
  | @same token rest rest' first second behind =>
    unfold elseAt?
    rw [first, second]
    dsimp only
    split
    · split
      · exact .inr ⟨true, rest, rest', rfl, rfl, behind⟩
      · split
        · cases behind.ahead with
          | ended ended closing =>
            rw [ended]
            cases follows : significant rest' with
            | nil => exact .inr ⟨false, rest, rest', rfl, rfl, behind⟩
            | cons next more =>
              rw [follows] at closing
              dsimp only
              rw [if_neg (Bool.eq_false_iff.1 (isWord_of_mark (closing next List.mem_cons_self) _))]
              exact .inr ⟨false, rest, rest', rfl, rfl, behind⟩
          | same here there later =>
            rw [here, there]
            dsimp only
            split
            · exact .inr ⟨true, _, _, rfl, rfl, later⟩
            · exact .inr ⟨false, rest, rest', rfl, rfl, behind⟩
          | last here there becomes =>
            have known : isKnown "if" = true := by decide
            obtain ⟨plain, plain'⟩ := becomes.isWord known
            rw [here, there]
            dsimp only
            rw [if_neg (Bool.eq_false_iff.1 plain), if_neg (Bool.eq_false_iff.1 plain')]
            exact .inr ⟨false, rest, rest', rfl, rfl, behind⟩
        · exact .inl ⟨rfl, rfl⟩
    · exact .inl ⟨rfl, rfl⟩
  | @last token token' braces first second becomes =>
    unfold elseAt?
    rw [first, second]
    dsimp only
    generalize token.kind = kind, token'.kind = kind' at becomes
    cases becomes with
    | atKeyword unknown unknown' =>
      dsimp only
      rw [sameWord_of_unknown unknown (by decide), sameWord_of_unknown unknown (by decide),
        sameWord_of_unknown unknown' (by decide), sameWord_of_unknown unknown' (by decide)]
      exact .inl ⟨rfl, rfl⟩
    | blank | ident | «variable» | hash => exact .inl ⟨rfl, rfl⟩


end Grammar

end Stylesheet
