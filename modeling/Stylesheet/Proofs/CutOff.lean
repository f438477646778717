import Stylesheet.Proofs.CutOff.Statements
import Stylesheet.Proofs.ParsingLimit

/-! Where a text is reported to be cut off. If only closing braces are missing, the error is found at the last token
that is no blank and no comment, at its last character unless that is a line feed. -/

namespace Stylesheet

/-- The token is the last one that is no blank and no comment. -/
def Token.IsLast (token : Token) (tokens : List Token) : Prop :=
  ∃ before behind, tokens = before ++ token :: behind ∧ token.isTrivia = false ∧ ∀ other ∈ behind, other.isTrivia = true

namespace Grammar

variable {α : Type} {tokens : List Token} {token : Token}

theorem ended_iff : Ended tokens ↔ ∀ token ∈ tokens, token.isTrivia = true := List.dropWhile_eq_nil_iff

theorem exists_last (more : ¬ Ended tokens) : ∃ token : Token, token.IsLast tokens := by
  induction tokens with
  | nil => exact absurd ended_nil more
  | cons token rest later =>
    by_cases ended : Ended rest
    · have plain : token.isTrivia = false :=
        Bool.eq_false_iff.2 fun trivia => more (ended_cons.2 ⟨trivia, ended⟩)
      exact ⟨token, [], rest, rfl, plain, ended_iff.1 ended⟩
    · obtain ⟨last, before, behind, parts, plain, trivia⟩ := later ended
      exact ⟨last, token :: before, behind, congrArg (token :: ·) parts, plain, trivia⟩

theorem finishOf_last (last : token.IsLast tokens) :
    finishOf tokens = ⟨token.endPos.line, max 1 (token.endPos.column - 1)⟩ := by
  obtain ⟨before, behind, rfl, plain, trivia⟩ := last
  have found : (before ++ token :: behind).reverse.find? (!·.isTrivia) = some token := by
    have none : behind.reverse.find? (!·.isTrivia) = none := by
      simpa using trivia
    rw [List.reverse_append, List.reverse_cons, List.append_assoc, List.find?_append, none]
    simp [plain]
  rw [finishOf, found]

/-- Blanks and comments alone are statements, so that only the limit could be met there. -/
theorem limit_of_ended {n : Nat} {context : Context} {error : ParseError} (ended : Ended tokens)
    (run : statements n false context tokens = .error error) : error.cause = .limit := by
  induction n generalizing tokens with
  | zero =>
    cases run
    rfl
  | succ n shorter =>
    rw [statements, skipBlank_bind] at run
    have behind := ended.skipBlank
    cases known : tokens.dropWhile Token.isBlank with
    | nil =>
      rw [known] at run
      cases run
    | cons token rest =>
      have printing := List.head?_dropWhile_not Token.isBlank tokens
      rw [known] at run behind printing
      obtain ⟨trivia, behind⟩ := ended_cons.1 behind
      -- What is trivia and no blank is a comment, which is a statement of its own.
      unfold Token.isTrivia at trivia
      split at trivia
      · next kind =>
        have printing : token.isBlank = false := printing
        rw [Token.isBlank, kind] at printing
        cases printing
      · next comment kind =>
        have first (next : List Token → Parse (List Statement)) :
            (get >>= next) context (token :: rest) = next (token :: rest) context (token :: rest) := rfl
        rw [first] at run
        simp only [kind] at run
        have run : (statements n false context rest >>= fun behind =>
            .ok (Statement.comment token.pos comment :: behind.1, behind.2)) = .error error := run
        cases later : statements n false context rest with
        | ok result =>
          rw [later] at run
          cases run
        | error found =>
          rw [later] at run
          cases run
          exact shorter behind later
      · cases trivia

/-- The context in which the tokens of a whole text are parsed. -/
def textContext (source file : String) : Context :=
  { source := source.toList, finish := finishOf (lex source).tokens, stops := [], file }

theorem parseText_of_lex {source file : String} {parse : Parse α} (fine : (lex source).error = none) :
    parseText source file Position.start parse =
      (parse (textContext source file) (lex source).tokens).map Prod.fst := by
  unfold parseText
  dsimp only
  rw [fine]
  rfl

theorem parseText_eq_ok {source file : String} {parse : Parse α} {value : α}
    (parsed : parseText source file Position.start parse = .ok value) :
    (lex source).error = none ∧
      ∃ left, parse (textContext source file) (lex source).tokens = .ok (value, left) := by
  cases fine : (lex source).error with
  | some error =>
    unfold parseText at parsed
    dsimp only at parsed
    rw [fine] at parsed
    cases parsed
  | none =>
    rw [parseText_of_lex fine] at parsed
    obtain ⟨⟨found, left⟩, run, same⟩ := Css.Except.map_eq_ok parsed
    cases same
    exact ⟨rfl, left, run⟩

end Grammar

theorem Position.one_le_column {p : Position} (cs : List Char) (one : 1 ≤ p.column) : 1 ≤ (p.after cs).column := by
  induction cs generalizing p with
  | nil => exact one
  | cons c rest later =>
    apply later
    unfold Position.next
    split
    · exact Nat.le_refl 1
    · exact Nat.le_add_left 1 _

/-- One column before the end of a token stands its last character, unless the line ends there. -/
theorem Position.before_end (p : Position) {before : List Char} {c : Char} (one : 1 ≤ p.column) :
    let behind := p.after (before ++ [c])
    (⟨behind.line, max 1 (behind.column - 1)⟩ : Position) = p.after before ↔ c ≠ '\n' := by
  intro behind
  have last : behind = (p.after before).next c := Position.after_append p before [c]
  have first := Position.one_le_column before one
  rw [last]
  generalize p.after before = q at first
  unfold Position.next
  constructor
  · rintro same rfl
    have line := congrArg Position.line same
    simp at line
  · intro other
    rw [if_neg other]
    cases q
    simp only [Nat.add_sub_cancel]
    rw [max_eq_right first]

open Grammar in
/-- A text that lacks closing braces only is refused at its end, where something is missing. Both texts are parsed with
the limit of the longer one, which changes nothing. -/
theorem Statement.parse_refused_at_finish {source file : String} {count : Nat} {tree : List Statement}
    (closed : Statement.parse (source ++ String.ofList (List.replicate count '}')) file false = .ok tree)
    (cut : ∀ tree, Statement.parse source file false ≠ .ok tree) :
    ¬ Ended (lex source).tokens ∧ ∃ expected, Statement.parse source file false =
      .error ⟨.unexpected (String.ofList (lineEnd source.toList)) expected "", finishOf (lex source).tokens⟩ := by
  let whole := source ++ String.ofList (Token.braces count)
  have enough : expressionLimit source.toList ≤ expressionLimit whole.toList := by
    simp only [whole, expressionLimit, String.toList_append, List.length_append]
    omega
  have closed : parseText whole file Position.start (statements (expressionLimit whole.toList) false) = .ok tree :=
    closed
  generalize expressionLimit whole.toList = limit at enough closed
  obtain ⟨same, within⟩ := @Statement.parse_within_limit source file limit enough
  obtain ⟨read, left, run⟩ := parseText_eq_ok closed
  obtain ⟨fine, continues⟩ := lex_continues read
  have alike : Alike (textContext source file) (textContext whole file) := ⟨rfl, knownStops, rfl⟩
  have pursues := ((breaksOffStatements limit).statements false).follows _ _ continues _ _ alike tree left run
  rw [parseText_of_lex fine] at same
  cases short : statements limit false (textContext source file) (lex source).tokens with
  | ok result =>
    rw [short] at same
    exact absurd same (cut result.1)
  | error error =>
    rw [short] at same pursues
    have same : Statement.parse source file false = .error error := same
    have within : error.cause ≠ .limit := within error same
    obtain ⟨place, cause⟩ := pursues
    obtain ⟨expected, cause⟩ := cause.resolve_left within
    refine ⟨fun ended => within (limit_of_ended ended short), expected, ?_⟩
    rw [same]
    exact congrArg Except.error (by cases error; cases place; cases cause; rfl)

open Grammar in
/-- Where closing braces are all that a text lacks, the error is found at its last token that is no blank and no
comment. The column before the end of the token is reported: there the last character stands, unless it is a line
feed. -/
theorem Statement.parse_cut_off {source file : String} {count : Nat} {tree : List Statement}
    (closed : Statement.parse (source ++ String.ofList (List.replicate count '}')) file false = .ok tree)
    (cut : ∀ tree, Statement.parse source file false ≠ .ok tree) :
    ∃ (token : Token) (expected : Expectation), token.IsLast (lex source).tokens ∧
      Statement.parse source file false =
        .error ⟨.unexpected (String.ofList (lineEnd source.toList)) expected "",
          ⟨token.endPos.line, max 1 (token.endPos.column - 1)⟩⟩ ∧
      ∀ before c, token.text.toList = before ++ [c] →
        ((⟨token.endPos.line, max 1 (token.endPos.column - 1)⟩ : Position) = token.pos.after before ↔ c ≠ '\n') := by
  obtain ⟨more, expected, refused⟩ := Statement.parse_refused_at_finish closed cut
  obtain ⟨token, last⟩ := exists_last more
  rw [finishOf_last last] at refused
  refine ⟨token, expected, last, refused, fun before c written => ?_⟩
  obtain ⟨first, behind, parts, -⟩ := last
  obtain ⟨rest, tiles⟩ := lex_tiles source Position.start
  have stands := tiles.stands first token behind parts
  have ends := Position.after_append Position.start (Token.spelled first) token.text.toList
  rw [← stands.pos, ← stands.endPos, written] at ends
  rw [ends]
  apply Position.before_end
  rw [stands.pos]
  exact Position.one_le_column _ (Nat.le_refl 1)

/-- Two blocks are open where the text ends. -/
theorem Statement.parse_cut_off_nested :
    let source := "a \x7b b \x7b c: d"
    (Statement.parse (source ++ String.ofList (List.replicate 2 '}')) "stdin" false).toOption.isSome ∧
      ∃ error, Statement.parse source "stdin" false = .error error ∧ error.pos = ⟨1, 12⟩ ∧
        ∃ (token : Token) (expected : Expectation), token.IsLast (lex source).tokens ∧
          error = ⟨.unexpected (String.ofList (Grammar.lineEnd source.toList)) expected "",
            ⟨token.endPos.line, max 1 (token.endPos.column - 1)⟩⟩ := by
  intro source
  have closes : (Statement.parse (source ++ String.ofList (List.replicate 2 '}')) "stdin" false).toOption.isSome := by
    decide +kernel
  refine ⟨closes, ?_⟩
  have place : ((Statement.parse source "stdin" false).mapError (·.pos)).map (fun _ => ()) = .error ⟨1, 12⟩ := by
    decide +kernel
  cases refused : Statement.parse source "stdin" false with
  | ok tree =>
    rw [refused] at place
    cases place
  | error error =>
    rw [refused] at place
    refine ⟨error, rfl, Except.error.inj place, ?_⟩
    obtain ⟨tree, closed⟩ := Option.isSome_iff_exists.1 closes
    cases parsed : Statement.parse (source ++ String.ofList (List.replicate 2 '}')) "stdin" false with
    | error error =>
      rw [parsed] at closed
      cases closed
    | ok tree =>
      have cut : ∀ tree, Statement.parse source "stdin" false ≠ .ok tree := by
        intro tree same
        rw [refused] at same
        cases same
      obtain ⟨token, expected, last, same, -⟩ := Statement.parse_cut_off parsed cut
      exact ⟨token, expected, last, Except.error.inj (refused.symm.trans same)⟩

/-- The last token is a name that ends in an escaped line feed, which is its tenth character. The error is found at the
begin of the next line. -/
theorem Statement.cut_off_misplaced :
    let source := "a \x7b b: c\\\n"
    (Statement.parse (source ++ String.ofList (List.replicate 1 '}')) "stdin" false).toOption.isSome ∧
      ∃ error, Statement.parse source "stdin" false = .error error ∧ error.pos = ⟨2, 1⟩ ∧
        ∃ token : Token, token.IsLast (lex source).tokens ∧ token.text.toList = ['c', '\\'] ++ ['\n'] ∧
          token.pos.after ['c', '\\'] = ⟨1, 10⟩ := by
  intro source
  refine ⟨by decide +kernel, ?_⟩
  have place : ((Statement.parse source "stdin" false).mapError (·.pos)).map (fun _ => ()) = .error ⟨2, 1⟩ := by
    decide +kernel
  cases refused : Statement.parse source "stdin" false with
  | ok tree =>
    rw [refused] at place
    cases place
  | error error =>
    rw [refused] at place
    let token : Token := ⟨.ident "c\\\n", "c\\\n", 7, ⟨1, 8⟩, ⟨2, 1⟩⟩
    have last : token.IsLast (lex source).tokens :=
      ⟨(lex source).tokens.dropLast, [], by decide +kernel, rfl, fun _ member => absurd member List.not_mem_nil⟩
    exact ⟨error, rfl, Except.error.inj place, token, last, by decide +kernel, by decide +kernel⟩

end Stylesheet
