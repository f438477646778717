import Stylesheet.Proofs.CutOff.Lookahead
import Stylesheet.Proofs.MentionReading

/-! Parsing a text that is cut off. Where a text with closing braces behind it can be read, the text alone is read in
the same way up to its end, and what is missing is missed there. -/

namespace Stylesheet.Grammar

variable {α β : Type} {short long tokens left rest rest' : List Token} {token token' : Token} {context : Context}

/-- An error at the end of the text, where something is missing. -/
def AtFinish (context : Context) (error : ParseError) : Prop :=
  error.pos = context.finish ∧ (error.cause = .limit ∨
    ∃ expected, error.cause = .unexpected (String.ofList (lineEnd context.source)) expected "")

/-- What becomes of a parser at the end of the text: it fails there, or it stays there. -/
def Stops (context : Context) : Except ParseError (α × List Token) → Prop
  | .ok (_, left) => Ended left
  | .error error => AtFinish context error

def EndsOn (tokens : List Token) (parse : Parse α) : Prop := ∀ context, Stops context (parse context tokens)

/-- Contexts of a text and of the text that continues it. -/
structure Alike (context context' : Context) : Prop where
  stops : context.stops = context'.stops
  known : ∀ word ∈ context.stops, isKnown word = true
  file : context.file = context'.file

/-- What becomes of a parser where it makes `value` of the text that continues this one, and `left'` is left there. -/
def Pursues (context : Context) (value : α) (left' : List Token) : Except ParseError (α × List Token) → Prop
  | .ok (found, left) => Ended left ∨ found = value ∧ Continues left left'
  | .error error => AtFinish context error

/-- Whatever the second parser makes of the longer text, the first one makes it of the shorter text or meets its end. -/
def FollowsOn (short long : List Token) (parse parse' : Parse α) : Prop :=
  ∀ context context', Alike context context' → ∀ value left', parse' context' long = .ok (value, left') →
    Pursues context value left' (parse context short)

/-- A parser stays at the end of a text, and before it does what it does in the text that continues it. -/
structure BreaksOff (parse : Parse α) : Prop where
  ends : ∀ tokens, Ended tokens → EndsOn tokens parse
  follows : ∀ short long, Continues short long → FollowsOn short long parse parse

theorem Stops.pursues {value : α} {left' : List Token} {result : Except ParseError (α × List Token)}
    (stops : Stops context result) : Pursues context value left' result := by
  cases result with
  | ok result => exact .inl stops
  | error error => exact stops

namespace EndsOn

variable {parse : Parse α} {next : α → Parse β}

theorem pure {value : α} (ended : Ended tokens) : EndsOn tokens (pure value) := fun _ => ended

theorem giveUp : EndsOn tokens (giveUp : Parse α) := fun _ => ⟨rfl, .inl rfl⟩

theorem fail {expected : Expectation} (ended : Ended tokens) : EndsOn tokens (fail expected : Parse α) := by
  intro context
  change AtFinish context (errorAt context expected tokens)
  unfold errorAt
  rw [show significant tokens = [] from ended]
  exact ⟨rfl, .inr ⟨expected, rfl⟩⟩

theorem bind (first : EndsOn tokens parse) (later : ∀ value left, Ended left → EndsOn left (next value)) :
    EndsOn tokens (parse >>= next) := by
  intro context
  have step : (parse >>= next) context tokens =
      (parse context tokens >>= fun (value, left) => next value context left) := rfl
  have stops := first context
  rw [step]
  cases run : parse context tokens with
  | error error =>
    rw [run] at stops
    exact stops
  | ok result =>
    rw [run] at stops
    exact later result.1 result.2 stops context

theorem stoppingAt {stops : List String} (inside : EndsOn tokens parse) : EndsOn tokens (stoppingAt stops parse) := by
  intro context
  have inside := inside { context with stops }
  change Stops context (parse { context with stops } tokens)
  cases run : parse { context with stops } tokens with
  | error error =>
    rw [run] at inside
    exact inside
  | ok result =>
    rw [run] at inside
    exact inside

theorem set_bind {next : PUnit → Parse β} (later : EndsOn rest (next ⟨⟩)) : EndsOn tokens (set rest >>= next) := later

end EndsOn

namespace FollowsOn

variable {parse parse' : Parse α} {next : α → Parse β}

theorem pure {value : α} (continues : Continues short long) : FollowsOn short long (pure value) (pure value) := by
  intro context context' _ value left' run
  cases run
  exact .inr ⟨rfl, continues⟩

/-- Nothing follows where the longer text is refused. -/
theorem fail {expected : Expectation} : FollowsOn short long parse (fail expected) := by
  intro context context' _ value left' run
  cases run

theorem giveUp : FollowsOn short long parse giveUp := by
  intro context context' _ value left' run
  cases run

/-- The shorter text has ended. -/
theorem of_ends (ends : EndsOn short parse) : FollowsOn short long parse parse' :=
  fun context _ _ _ _ _ => (ends context).pursues

theorem bind (first : FollowsOn short long parse parse') (later : ∀ value, BreaksOff (next value)) :
    FollowsOn short long (parse >>= next) (parse' >>= next) := by
  intro context context' alike value left' run
  obtain ⟨middle, between, parsed, run⟩ := bind_eq_ok run
  have pursues := first context context' alike middle between parsed
  have step : (parse >>= next) context short =
      (parse context short >>= fun (found, left) => next found context left) := rfl
  rw [step]
  cases found : parse context short with
  | error error =>
    rw [found] at pursues
    exact pursues
  | ok result =>
    rw [found] at pursues
    obtain ⟨value', left⟩ := result
    rcases pursues with ended | ⟨rfl, continues⟩
    · exact ((later value').ends left ended context).pursues
    · exact (later value').follows left between continues context context' alike value left' run

theorem set_bind {next next' : PUnit → Parse β} (later : FollowsOn rest rest' (next ⟨⟩) (next' ⟨⟩)) :
    FollowsOn short long (set rest >>= next) (set rest' >>= next') := later

theorem peek_bind {next next' : Option Token → Parse β}
    (later : FollowsOn short long (next (significant short).head?) (next' (significant long).head?)) :
    FollowsOn short long (peek >>= next) (peek >>= next') := later

theorem modify_bind {f : List Token → List Token} {next next' : PUnit → Parse β}
    (later : FollowsOn (f short) (f long) (next ⟨⟩) (next' ⟨⟩)) :
    FollowsOn short long (modify f >>= next) (modify f >>= next') := later

theorem advance_bind {next next' : PUnit → Parse β} (first : significant short = token :: rest)
    (second : significant long = token' :: rest') (later : FollowsOn rest rest' (next ⟨⟩) (next' ⟨⟩)) :
    FollowsOn short long (advance >>= next) (advance >>= next') := by
  apply modify_bind
  rwa [first, second, List.drop_succ_cons, List.drop_succ_cons, List.drop_zero, List.drop_zero]

end FollowsOn

namespace BreaksOff

variable {parse : Parse α} {next : α → Parse β}

theorem pure {value : α} : BreaksOff (pure value) := ⟨fun _ => .pure, fun _ _ => .pure⟩

theorem giveUp : BreaksOff (giveUp : Parse α) := ⟨fun _ _ => .giveUp, fun _ _ _ => .giveUp⟩

theorem fail {expected : Expectation} : BreaksOff (fail expected : Parse α) := ⟨fun _ => .fail, fun _ _ _ => .fail⟩

theorem bind (first : BreaksOff parse) (later : ∀ value, BreaksOff (next value)) : BreaksOff (parse >>= next) := by
  constructor
  · intro tokens ended
    exact (first.ends tokens ended).bind fun value left => (later value).ends left
  · intro short long continues
    exact (first.follows short long continues).bind later

theorem map {f : α → β} (inside : BreaksOff parse) : BreaksOff (f <$> parse) := by
  rw [map_eq_pure_bind]
  exact inside.bind fun _ => .pure

theorem stoppingAt {stops : List String} (inside : BreaksOff parse) (known : ∀ word ∈ stops, isKnown word = true) :
    BreaksOff (stoppingAt stops parse) := by
  refine ⟨fun tokens ended => (inside.ends tokens ended).stoppingAt, ?_⟩
  intro short long continues context context' alike value left' run
  have pursues := inside.follows short long continues { context with stops } { context' with stops }
    ⟨rfl, known, alike.file⟩ value left' run
  change Pursues context value left' (parse { context with stops } short)
  cases found : parse { context with stops } short with
  | error error =>
    rw [found] at pursues
    exact pursues
  | ok result =>
    rw [found] at pursues
    exact pursues

theorem get_bind {next : List Token → Parse β} (ends : ∀ tokens, Ended tokens → EndsOn tokens (next tokens))
    (follows : ∀ short long, Continues short long → FollowsOn short long (next short) (next long)) :
    BreaksOff (get >>= next) :=
  ⟨ends, follows⟩

theorem modify {f : List Token → List Token} (ends : ∀ tokens, Ended tokens → Ended (f tokens))
    (follows : ∀ short long, Continues short long → Continues (f short) (f long)) :
    BreaksOff (modify f : Parse PUnit) := by
  refine ⟨fun tokens ended _ => ends tokens ended, fun short long continues => ?_⟩
  exact FollowsOn.pure (follows short long continues)

/-- What is seen ahead may decide how to go on, as it is the same in both texts. -/
theorem look_bind {next : List Token → Parse β} (all : ∀ tokens, BreaksOff (next tokens))
    (same : ∀ short long, Continues short long → next short = next long) : BreaksOff (get >>= next) := by
  refine .get_bind (fun tokens => (all tokens).ends tokens) fun short long continues => ?_
  rw [same short long continues]
  exact (all long).follows short long continues

end BreaksOff

/-! Steps that all parsers take -/

theorem Ended.drop (ended : Ended tokens) (count : Nat) : Ended ((Grammar.significant tokens).drop count) := by
  rw [show Grammar.significant tokens = [] from ended, List.drop_nil]
  exact ended_nil

theorem Ended.skipBlank (ended : Ended tokens) : Ended (tokens.dropWhile Token.isBlank) := by
  induction tokens with
  | nil => exact ended
  | cons token rest later =>
    rw [List.dropWhile_cons]
    split
    · exact later (ended_cons.1 ended).2
    · exact ended

theorem breaksOff_skipTrivia : BreaksOff skipTrivia :=
  .modify (fun _ ended => ended.significant) fun _ _ continues => continues.significant

theorem breaksOff_skipBlank : BreaksOff skipBlank :=
  .modify (fun _ ended => ended.skipBlank) fun _ _ continues => continues.skipBlank

theorem breaksOff_advance : BreaksOff advance :=
  .modify (fun _ ended => ended.drop 1) fun _ _ continues => continues.significant.drop 1

theorem breaksOff_atMark {c : Char} (other : c ≠ '}') : BreaksOff (atMark c) :=
  .look_bind (fun _ => .pure) fun _ _ continues => by rw [continues.startsMark other]

theorem breaksOff_eatMark {c : Char} (other : c ≠ '}') : BreaksOff (eatMark c) := by
  apply (breaksOff_atMark other).bind
  intro starts
  split
  · exact breaksOff_advance.bind fun _ => .pure
  · exact .pure

theorem eatMark_eq {c : Char} (context : Context) (tokens : List Token) : eatMark c context tokens =
    if startsMark tokens c then .ok (true, (significant tokens).drop 1) else .ok (false, tokens) := by
  change (if startsMark tokens c then (do advance; return true) else return false : Parse Bool) context tokens = _
  cases startsMark tokens c <;> rfl

/-- A closing brace may be expected too: where it is missing, the text has ended. -/
theorem breaksOff_expectMark (c : Char) : BreaksOff (expectMark c) := by
  have step (context : Context) (tokens : List Token) : expectMark c context tokens =
      if startsMark tokens c then .ok (⟨⟩, (significant tokens).drop 1)
      else .error (errorAt context (.mark c) tokens) := by
    change (do unless ← eatMark c do fail (.mark c) : Parse PUnit) context tokens = _
    have bound (next : Bool → Parse PUnit) : (eatMark c >>= next) context tokens =
        (eatMark c context tokens >>= fun (value, left) => next value context left) := rfl
    rw [bound, eatMark_eq]
    cases startsMark tokens c <;> rfl
  have ends (tokens : List Token) (ended : Ended tokens) : EndsOn tokens (expectMark c) := by
    intro context
    have none : startsMark tokens c = false := by
      rw [startsMark, show significant tokens = [] from ended]
      rfl
    rw [step, none]
    exact EndsOn.fail (α := PUnit) ended context
  refine ⟨ends, fun short long continues => ?_⟩
  cases continues.ahead with
  | ended ended => exact .of_ends (ends short ended)
  | @same token rest rest' first second behind =>
    intro context context' _ value left' run
    rw [step, startsMark, second, List.head?_cons, Option.any_some] at run
    rw [step, startsMark, first, List.head?_cons, Option.any_some]
    by_cases mark : token.isMark c
    · rw [if_pos mark] at run ⊢
      cases run
      exact .inr ⟨rfl, behind⟩
    · rw [if_neg mark] at run
      cases run
  | last first second becomes =>
    intro context context' _ value left' run
    rw [step, startsMark, second, List.head?_cons, Option.any_some, (becomes.isMark c).2] at run
    cases run

theorem breaksOff_atWord {word : String} (known : isKnown word = true) : BreaksOff (atWord word) := by
  refine ⟨fun tokens ended _ => ended, fun short long continues => ?_⟩
  have same := continues.significant.isWord known
  change FollowsOn short long (Pure.pure _) (Pure.pure _)
  rw [same]
  exact .pure continues

theorem breaksOff_expectWord {word : String} (known : isKnown word = true) : BreaksOff (expectWord word) := by
  apply (breaksOff_atWord known).bind
  intro starts
  split
  · exact breaksOff_advance
  · exact .fail

theorem breaksOff_rangeWord : BreaksOff rangeWord := by
  apply (breaksOff_atWord (by decide)).bind
  intro through
  split
  · exact breaksOff_advance.bind fun _ => .pure
  · apply (breaksOff_atWord (by decide)).bind
    intro upTo
    split
    · exact breaksOff_advance.bind fun _ => .pure
    · exact .fail

/-- The last token is taken, and the text has ended. -/
theorem FollowsOn.advance_last {next : PUnit → Parse β} {parse' : Parse β} (first : significant short = [token])
    (later : BreaksOff (next ⟨⟩)) : FollowsOn short long (advance >>= next) parse' := by
  apply FollowsOn.of_ends
  intro context
  have taken : (significant short).drop 1 = [] := by rw [first]; rfl
  have ends := later.ends [] ended_nil context
  rw [← taken] at ends
  exact ends

/-- What a parser does with the next token, which is the same in both texts or the last one. -/
theorem BreaksOff.peek_bind {next : Option Token → Parse β} (none : ∀ tokens, Ended tokens → EndsOn tokens (next none))
    (same : ∀ {short long token rest rest'}, Continues short long → significant short = token :: rest →
      significant long = token :: rest' → Continues rest rest' →
        FollowsOn short long (next (some token)) (next (some token)))
    (last : ∀ {short long token token'}, Continues short long → significant short = [token] →
      token.kind.Becomes token'.kind → FollowsOn short long (next (some token)) (next (some token'))) :
    BreaksOff (peek >>= next) := by
  refine ⟨fun tokens ended => ?_, fun short long continues => .peek_bind ?_⟩
  · intro context
    change Stops context (next (significant tokens).head? context tokens)
    rw [show significant tokens = [] from ended]
    exact none tokens ended context
  cases continues.ahead with
  | ended ended =>
    rw [ended]
    exact .of_ends (none short ended)
  | same first second behind =>
    rw [first, second]
    exact same continues first second behind
  | last first second becomes =>
    rw [first, second]
    exact last continues first becomes

theorem breaksOff_expectName : BreaksOff expectName := by
  refine .peek_bind (fun _ => .fail) (fun {short long token rest rest'} _ first second behind => ?_)
    fun {short long token token'} _ first becomes => ?_
  · dsimp only [Option.map_some]
    split
    · exact .advance_bind first second (.pure behind)
    · exact .fail
  · dsimp only [Option.map_some]
    generalize token.kind = kind, token'.kind = kind' at becomes
    cases becomes with
    | ident => exact .advance_last first .pure
    | blank | atKeyword | «variable» | hash => exact .fail

theorem breaksOff_expectVariable : BreaksOff expectVariable := by
  refine .peek_bind (fun _ => .fail) (fun {short long token rest rest'} _ first second behind => ?_)
    fun {short long token token'} _ first becomes => ?_
  · dsimp only [Option.map_some]
    split
    · exact .advance_bind first second (.pure behind)
    · exact .fail
  · dsimp only [Option.map_some]
    generalize token.kind = kind, token'.kind = kind' at becomes
    cases becomes with
    | «variable» => exact .advance_last first .pure
    | blank | atKeyword | ident | hash => exact .fail

theorem breaksOff_endStatement : BreaksOff endStatement := by
  apply (breaksOff_eatMark (by decide)).bind
  intro taken
  split
  · exact .pure
  · refine .peek_bind (fun _ => .pure) (fun continues _ _ _ => ?_) fun _ _ becomes => ?_
    · dsimp only
      split
      · exact .pure continues
      · exact .fail
    · dsimp only
      rw [if_neg (Bool.eq_false_iff.1 (becomes.isMark '}').2)]
      exact .fail

theorem breaksOff_eatSpread : BreaksOff eatSpread := by
  have taken : BreaksOff (do modify fun tokens => (significant tokens).drop 3; return true) :=
    (BreaksOff.modify (fun _ ended => ended.drop 3) fun _ _ continues => continues.significant.drop 3).bind
      fun _ => .pure
  refine .look_bind (fun tokens => ?_) fun short long continues => by rw [continues.startsSpread]
  split
  · exact taken
  · exact .pure

theorem breaksOff_atExpressionEnd : BreaksOff atExpressionEnd := by
  refine ⟨fun tokens ended _ => ended, fun short long continues context context' alike value left' run => ?_⟩
  cases run
  refine .inr ⟨?_, continues⟩
  rw [← alike.stops]
  exact continues.endsExpression alike.known


end Stylesheet.Grammar
