import Stylesheet.Proofs.MentionReading
import Stylesheet.Proofs.TokenTexts

/-! Places of variables. A variable that is read from a token of the source is recorded where its dollar sign stands.
The interpolations of a string or an address are read as texts of their own, and the places in them are counted on from
the begin of the token: this leads to the dollar sign of a variable as long as all characters that are counted before
the interpolation that it is read in stand in one line and nothing was dropped before them. -/

namespace Stylesheet

open Grammar

/-- A text stands in a source at a place. -/
def Occurs (source text : List Char) (pos : Position) : Prop :=
  ∃ before behind, source = before ++ text ++ behind ∧ pos = Position.start.after before

theorem occurs_iff {source text : List Char} {pos : Position} : Occurs source text pos ↔
    ∃ i ∈ List.range (source.length + 1), text <+: source.drop i ∧ pos = Position.start.after (source.take i) := by
  refine ⟨fun occurs => ?_, fun found => ?_⟩
  · obtain ⟨before, behind, rfl, place⟩ := occurs
    refine ⟨before.length, ?_, ?_, ?_⟩
    · simp only [List.mem_range, List.length_append]
      omega
    · rw [List.append_assoc, List.drop_left]
      exact List.prefix_append text behind
    · rw [place, List.append_assoc, List.take_left]
  · obtain ⟨i, -, ⟨behind, cut⟩, place⟩ := found
    refine ⟨source.take i, behind, ?_, place⟩
    rw [List.append_assoc, cut, List.take_append_drop]

instance (source text : List Char) (pos : Position) : Decidable (Occurs source text pos) :=
  decidable_of_iff _ occurs_iff.symm

/-- A dollar sign and the name of the variable stand where the variable is recorded. -/
def Mention.Placed (source : List Char) (mention : Mention) : Prop :=
  Occurs source ('$' :: mention.name.toList) mention.pos

instance (source : List Char) (mention : Mention) : Decidable (mention.Placed source) :=
  inferInstanceAs (Decidable (Occurs source ('$' :: mention.name.toList) mention.pos))

namespace Occurs

variable {source text before behind : List Char} {pos : Position}

theorem front (occurs : Occurs source (text ++ behind) pos) : Occurs source text pos := by
  obtain ⟨first, last, rfl, rfl⟩ := occurs
  exact ⟨first, behind ++ last, by simp only [List.append_assoc], rfl⟩

theorem back (occurs : Occurs source (before ++ text) pos) : Occurs source text (pos.after before) := by
  obtain ⟨first, last, rfl, rfl⟩ := occurs
  exact ⟨first ++ before, last, by simp only [List.append_assoc], (Position.after_append _ _ _).symm⟩

/-- Behind a part without line feeds the place is found by counting. -/
theorem shifted (occurs : Occurs source (before ++ text) pos) (inLine : '\n' ∉ before) :
    Occurs source text (Grammar.shifted pos before.length) := by
  have place := occurs.back
  rwa [Position.after_of_notMem pos inLine] at place

end Occurs

/-- Each token of a text that stands somewhere in a source stands there itself, and its text suits its kind. -/
theorem lex_occurs {source : List Char} {text : String} {origin : Position} {token : Token}
    (occurs : Occurs source text.toList origin) (member : token ∈ (lex text origin).tokens) :
    Occurs source token.text.toList token.pos ∧ token.kind.Suits token.text.toList := by
  obtain ⟨rest, tiles⟩ := lex_tiles text origin
  refine ⟨?_, Token.scan_suits _ _ _ _ token member⟩
  obtain ⟨before, behind, parts⟩ := List.append_of_mem member
  have stands := tiles.stands before token behind parts
  have covers := tiles.covers
  rw [parts] at covers
  have cut : text.toList = Token.spelled before ++ (token.text.toList ++ (Token.spelled behind ++ rest)) := by
    rw [← covers]
    simp [Token.spelled]
  rw [cut] at occurs
  rw [stands.pos]
  exact occurs.back.front

theorem isInfix_of_mem_lex {text : String} {origin : Position} {token : Token}
    (member : token ∈ (lex text origin).tokens) : token.text.toList <:+: text.toList := by
  obtain ⟨rest, tiles⟩ := lex_tiles text origin
  obtain ⟨before, behind, parts⟩ := List.append_of_mem member
  refine ⟨Token.spelled before, Token.spelled behind ++ rest, ?_⟩
  rw [← tiles.covers, parts]
  simp [Token.spelled]

/-- A token is longer than what it encloses. -/
theorem TokenKind.Suits.length_lt {kind : TokenKind} {text contents : List Char} {skipped : Nat}
    (suits : kind.Suits text) (encloses : kind.enclosed? = some (skipped, contents)) :
    contents.length < text.length := by
  unfold enclosed? at encloses
  split at encloses
  · cases encloses
    obtain ⟨-, rfl⟩ := suits
    rw [List.length_append, List.length_cons]
    omega
  · cases encloses
    obtain ⟨front, argument, rfl, -, -, longer⟩ := suits
    rw [List.length_append]
    omega
  · cases encloses

/-! Variables to which counting does not lead -/

/-- A variable is read in a text that begins at a place. -/
def TextMentions (pos : Position) (cs : List Char) (mention : Mention) : Prop :=
  ∃ n context tokens template left,
    textTemplate n pos cs context tokens = .ok (template, left) ∧ mention ∈ template.mentions

/-- The first interpolation of a text, with what stands before it and behind it. -/
def FirstCode (cs before body rest : List Char) : Prop :=
  ∃ behind, splitAtInterpolation cs = some (before, behind) ∧ splitAtBrace 0 none behind = some (body, rest)

mutual

/-- A variable that is read in a text is missed if the characters before it are counted as if they stood in one line: a
line feed stands before the interpolation that it is read in, or it is missed in a token there. -/
inductive Miscounted : Position → List Char → Mention → Prop
  | lineBefore {pos : Position} {cs before body rest : List Char} {mention : Mention}
    (code : FirstCode cs before body rest) (line : '\n' ∈ before) (reads : TextMentions pos cs mention) :
    Miscounted pos cs mention
  | lineWithin {pos : Position} {cs before body rest : List Char} {mention : Mention}
    (code : FirstCode cs before body rest) (line : '\n' ∈ body)
    (reads : TextMentions (shifted (shifted pos (before.length + 2)) (body.length + 1)) rest mention) :
    Miscounted pos cs mention
  | token {pos : Position} {cs before body rest : List Char} {token : Token} {mention : Mention}
    (code : FirstCode cs before body rest)
    (member : token ∈ (lex (String.ofList body) (shifted pos (before.length + 2))).tokens)
    (misses : token.Misses mention) : Miscounted pos cs mention
  | later {pos : Position} {cs before body rest : List Char} {mention : Mention} (code : FirstCode cs before body rest)
    (missed : Miscounted (shifted (shifted pos (before.length + 2)) (body.length + 1)) rest mention) :
    Miscounted pos cs mention

/-- A variable in a string or an address is missed if something was dropped before the text in it, which can only be
blanks behind the parenthesis of an address, or if it is missed in this text. -/
inductive Token.Misses : Token → Mention → Prop
  | dropped {token : Token} {skipped : Nat} {contents : List Char} {mention : Mention}
    (encloses : token.kind.enclosed? = some (skipped, contents))
    (dropped : ¬ contents <+: token.text.toList.drop skipped)
    (reads : TextMentions (shifted token.pos skipped) contents mention) : Token.Misses token mention
  | inside {token : Token} {skipped : Nat} {contents : List Char} {mention : Mention}
    (encloses : token.kind.enclosed? = some (skipped, contents))
    (reads : TextMentions (shifted token.pos skipped) contents mention)
    (missed : Miscounted (shifted token.pos skipped) contents mention) : Token.Misses token mention

end

namespace Occurs

variable {source : List Char}

/-- What a token encloses stands where it is looked for. -/
theorem enclosed {token : Token} {skipped : Nat} {contents : List Char}
    (occurs : Occurs source token.text.toList token.pos) (suits : token.kind.Suits token.text.toList)
    (encloses : token.kind.enclosed? = some (skipped, contents))
    (direct : contents <+: token.text.toList.drop skipped) :
    Occurs source contents (Grammar.shifted token.pos skipped) := by
  obtain ⟨tail, cut⟩ := direct
  have front : (token.text.toList.take skipped).length = skipped ∧ '\n' ∉ token.text.toList.take skipped := by
    unfold TokenKind.enclosed? at encloses
    split at encloses
    · next inner quote kind =>
      cases encloses
      rw [kind] at suits
      obtain ⟨isQuote, text⟩ := suits
      rw [text]
      rcases isQuote with rfl | rfl <;> simp
    · next inner kind =>
      cases encloses
      rw [kind] at suits
      obtain ⟨word, argument, text, length, inLine, -⟩ := suits
      rw [text, ← length, List.take_left]
      exact ⟨rfl, inLine⟩
    · cases encloses
  rw [← List.take_append_drop skipped token.text.toList, ← cut] at occurs
  have place := occurs.shifted front.2
  rw [front.1] at place
  exact place.front

end Occurs

/-- The variables of a text that stands in a source: those that are missed in its tokens apart, they are recorded where
their dollar signs stand, if this is so for the texts that are enclosed by the tokens. -/
theorem lex_known {source : List Char} {text : String} {origin : Position} (occurs : Occurs source text.toList origin)
    (inside : ∀ pos contents, contents.length < text.toList.length → Occurs source contents pos →
      TextKnown (fun mention => mention.Placed source ∨ Miscounted pos contents mention) pos contents) :
    ∀ token ∈ (lex text origin).tokens, token.Known fun mention =>
      mention.Placed source ∨ ∃ token ∈ (lex text origin).tokens, token.Misses mention := by
  intro token member
  obtain ⟨stands, suits⟩ := lex_occurs occurs member
  refine ⟨fun name kind => .inl ?_, fun skipped contents encloses => ?_⟩
  · rw [kind] at suits
    have text : token.text.toList = '$' :: name.toList := suits
    rw [text] at stands
    exact stands
  · by_cases direct : contents <+: token.text.toList.drop skipped
    · have shorter : contents.length < text.toList.length :=
        (suits.length_lt encloses).trans_le (isInfix_of_mem_lex member).length_le
      intro n context tokens template left run mention reads
      have found := inside _ contents shorter (stands.enclosed suits encloses direct) n context tokens template left run
        mention reads
      exact found.imp_right fun missed =>
        ⟨token, member, .inside encloses ⟨n, context, tokens, template, left, run, reads⟩ missed⟩
    · intro n context tokens template left run mention reads
      exact .inr ⟨token, member, .dropped encloses direct ⟨n, context, tokens, template, left, run, reads⟩⟩

/-- By induction on the length of the text. The tokens of the first interpolation are tokens of the source, unless a
line feed stands before it, and the text behind it is found by counting, unless it has a line feed inside. -/
theorem textKnown_of_occurs {source : List Char} (pos : Position) (cs : List Char) (occurs : Occurs source cs pos) :
    TextKnown (fun mention => mention.Placed source ∨ Miscounted pos cs mention) pos cs := by
  intro n context tokens template left run mention member
  rcases textTemplate_eq_ok run with ⟨-, none, -⟩ | ⟨m, before, behind, body, rest, code, more, -, opens, closes, first,
    second, mentions⟩
  · rw [none] at member
    cases member
  have firstCode : FirstCode cs before body rest := ⟨behind, opens, closes⟩
  by_cases inLine : '\n' ∈ before
  · exact .inr (.lineBefore firstCode inLine ⟨n, context, tokens, template, left, run, member⟩)
  have cut := splitAtInterpolation_eq opens
  rw [splitAtBrace_eq closes] at cut
  have opening : Occurs source (body ++ '}' :: rest) (shifted pos (before.length + 2)) := by
    have place : Occurs source ((before ++ ['#', '{']) ++ (body ++ '}' :: rest)) pos := by simpa [cut] using occurs
    have place := place.shifted (by simpa using inLine)
    simpa using place
  rw [mentions] at member
  rcases List.mem_append.1 member with here | later
  · obtain ⟨-, m', context', left', expression⟩ := embedded_eq_ok first
    have stands : Occurs source (String.ofList body).toList (shifted pos (before.length + 2)) := by
      rw [String.toList_ofList]
      exact opening.front
    have good := lex_known stands fun pos contents shorter occurs =>
      have : contents.length < cs.length := by
        rw [String.toList_ofList] at shorter
        simp only [cut, List.length_append, List.length_cons]
        omega
      textKnown_of_occurs pos contents occurs
    have found := ((findsExpressions (.knowing context'.file _) m').expression context' _ code left' rfl good
      expression).1 mention here
    exact found.imp_right fun ⟨token, member, misses⟩ => .token firstCode member misses
  · by_cases inLine : '\n' ∈ body
    · exact .inr (.lineWithin firstCode inLine ⟨m, context, tokens, more, left, second, later⟩)
    have behind : Occurs source rest (shifted (shifted pos (before.length + 2)) (body.length + 1)) := by
      have place : Occurs source ((body ++ ['}']) ++ rest) (shifted pos (before.length + 2)) := by simpa using opening
      have place := place.shifted (by simpa using inLine)
      simpa using place
    have : rest.length < cs.length := by
      simp only [cut, List.length_append, List.length_cons]
      omega
    have found := textKnown_of_occurs _ rest behind m context tokens more left second mention later
    exact found.imp_right fun missed => .later firstCode missed
termination_by cs.length

/-! The tree of a source -/

/-- In the tree of a text every variable is recorded where its dollar sign stands in the text, the variables apart that
are missed in a string or an address. -/
theorem Statement.mentions_placed {source file : String} {statements : List Statement}
    (parsed : Statement.parse source file false = .ok statements) :
    ∀ mention ∈ Statement.mentionsIn statements, mention.Placed source.toList ∨
      ∃ token ∈ (lex source).tokens, token.Misses mention := by
  have whole : Occurs source.toList source.toList Position.start := ⟨[], [], by simp, rfl⟩
  have good := lex_known whole fun pos contents _ occurs => textKnown_of_occurs pos contents occurs
  exact ((findsStatements (.knowing file _) _).statements false).parseText good parsed

/-- A line feed in a string: the variable behind it is missed, and no other one. -/
theorem Statement.mentions_placed_nested :
    let source := "a#\x7b$v\x7d \x7b b: \"c#\x7b\"d#\x7b$w\x7d\"\x7d\\\n#\x7b$x\x7d\" url(e#\x7b$y\x7d) $z \x7d"
    ∃ statements, Statement.parse source "stdin" false = .ok statements ∧
      Statement.mentionsIn statements =
        [⟨"v", ⟨1, 4⟩⟩, ⟨"w", ⟨1, 21⟩⟩, ⟨"x", ⟨1, 30⟩⟩, ⟨"y", ⟨2, 15⟩⟩, ⟨"z", ⟨2, 20⟩⟩] ∧
      (Statement.mentionsIn statements).filter (¬ ·.Placed source.toList) = [⟨"x", ⟨1, 30⟩⟩] ∧
      ∀ mention ∈ Statement.mentionsIn statements, mention.Placed source.toList ∨
        ∃ token ∈ (lex source).tokens, token.Misses mention := by
  intro source
  have mentions : (Statement.parse source "stdin" false).toOption.map Statement.mentionsIn =
      some [⟨"v", ⟨1, 4⟩⟩, ⟨"w", ⟨1, 21⟩⟩, ⟨"x", ⟨1, 30⟩⟩, ⟨"y", ⟨2, 15⟩⟩, ⟨"z", ⟨2, 20⟩⟩] := by decide +kernel
  cases parsed : Statement.parse source "stdin" false with
  | error error =>
    rw [parsed] at mentions
    cases mentions
  | ok statements =>
    rw [parsed] at mentions
    have mentions : Statement.mentionsIn statements =
        [⟨"v", ⟨1, 4⟩⟩, ⟨"w", ⟨1, 21⟩⟩, ⟨"x", ⟨1, 30⟩⟩, ⟨"y", ⟨2, 15⟩⟩, ⟨"z", ⟨2, 20⟩⟩] := Option.some.inj mentions
    refine ⟨statements, rfl, mentions, ?_, Statement.mentions_placed parsed⟩
    rw [mentions]
    decide +kernel

/-- Blanks behind the parenthesis of an address are not counted: the variable is recorded where the brace before it
stands. -/
theorem Statement.mention_misplaced :
    let source := "a \x7b b: url( #\x7b$x\x7d) \x7d"
    ∃ statements, Statement.parse source "stdin" false = .ok statements ∧
      ∃ mention ∈ Statement.mentionsIn statements, ¬ mention.Placed source.toList := by
  intro source
  have mentions : (Statement.parse source "stdin" false).toOption.map Statement.mentionsIn = some [⟨"x", ⟨1, 14⟩⟩] := by
    decide +kernel
  cases parsed : Statement.parse source "stdin" false with
  | error error =>
    rw [parsed] at mentions
    cases mentions
  | ok statements =>
    rw [parsed] at mentions
    have mentions : Statement.mentionsIn statements = [⟨"x", ⟨1, 14⟩⟩] := Option.some.inj mentions
    refine ⟨statements, rfl, ⟨"x", ⟨1, 14⟩⟩, ?_, by decide +kernel⟩
    rw [mentions]
    exact List.mem_singleton_self _

end Stylesheet
