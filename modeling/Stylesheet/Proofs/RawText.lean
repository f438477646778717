import Stylesheet.Proofs.Rereading

/-! Raw texts, such as selectors and the values of custom properties. Their tokens are put together again, without
comments and with single spaces for blanks, and the strings among them are squeezed like all the rest. Tokens that this
leaves as they are, and that are kept apart by blanks where comments stood, are read again from the text. -/

namespace Stylesheet

namespace Grammar

/-- How many parentheses and brackets are open behind a token. -/
def depthBehind (depth : Nat) (token : Token) : Nat :=
  if token.isMark '(' || token.isMark '[' then depth + 1
  else if token.isMark ')' || token.isMark ']' then depth - 1
  else depth

/-- The tokens of a raw text: those in front of the first of the marks `ends` outside parentheses and brackets. -/
def collected (ends : List Char) : (depth : Nat) → List Token → List Token
  | _, [] => []
  | depth, token :: rest =>
    if depth == 0 && ends.any token.isMark then [] else token :: collected ends (depthBehind depth token) rest

/-- A token without an interpolation. -/
def isLiteral (token : Token) : Bool :=
  match token.kind with
  | .interpolation => false
  | .quoted contents _ => !decide (['#', '{'] <:+: contents.toList)
  | _ => true

/-- What a raw text is made of before its blanks are drawn together. -/
def written : (started : Bool) → List Token → List Char
  | _, [] => []
  | started, token :: rest =>
    if token.isBlank then if started then ' ' :: written started rest else written started rest
    else if token.isTrivia then written started rest
    else token.text.toList ++ written true rest

variable {ends : List Char} {depth n : Nat} {started : Bool} {tokens rest : List Token} {token : Token}

theorem collected_cons_stop (stops : (depth == 0 && ends.any token.isMark) = true) (rest : List Token) :
    collected ends depth (token :: rest) = [] := by
  rw [collected, if_pos stops]

theorem collected_cons (goes : (depth == 0 && ends.any token.isMark) = false) (rest : List Token) :
    collected ends depth (token :: rest) = token :: collected ends (depthBehind depth token) rest := by
  rw [collected, if_neg (by simp [goes])]

theorem isTrivia_of_isBlank (blank : token.isBlank = true) : token.isTrivia = true := by
  obtain ⟨newline, kind⟩ := Token.isBlank_iff.1 blank
  rw [Token.isTrivia, kind]

theorem isBlank_of_printing (printing : token.isTrivia = false) : token.isBlank = false :=
  Bool.eq_false_iff.2 fun blank => Bool.noConfusion (printing.symm.trans (isTrivia_of_isBlank blank))

/-- A token is a blank, a comment or neither. -/
theorem blank_or_comment (token : Token) :
    token.isBlank = true ∨ (token.isBlank = false ∧ token.isTrivia = true) ∨ token.isTrivia = false := by
  cases token.isBlank <;> cases token.isTrivia <;> simp

theorem written_printing (printing : token.isTrivia = false) (started : Bool) (rest : List Token) :
    written started (token :: rest) = token.text.toList ++ written true rest := by
  rw [written, if_neg (by simp [isBlank_of_printing printing]), if_neg (by simp [printing])]

theorem written_blank (blank : token.isBlank = true) (started : Bool) (rest : List Token) :
    written started (token :: rest) = (if started then [' '] else []) ++ written started rest := by
  rw [written, if_pos blank]
  cases started <;> rfl

theorem written_comment (noBlank : token.isBlank = false) (trivia : token.isTrivia = true) (started : Bool)
    (rest : List Token) : written started (token :: rest) = written started rest := by
  rw [written, if_neg (by simp [noBlank]), if_pos trivia]

/-- A token that is no mark leaves the depth as it is. -/
theorem depthBehind_unmarked (unmarked : ∀ c, token.isMark c = false) (depth : Nat) : depthBehind depth token = depth := by
  rw [depthBehind, unmarked, unmarked, unmarked, unmarked]
  rfl

theorem ofList_text (token : Token) (cs : List Char) :
    token.text ++ String.ofList cs = String.ofList (token.text.toList ++ cs) := by
  rw [String.ofList_append, String.ofList_toList]

/-- What is collected stands at the front of the tokens. -/
theorem collected_append (ends : List Char) (depth : Nat) (tokens : List Token) :
    collected ends depth tokens ++ tokens.drop (collected ends depth tokens).length = tokens := by
  induction tokens generalizing depth with
  | nil => rfl
  | cons token rest later =>
    cases stops : depth == 0 && ends.any token.isMark with
    | true =>
      rw [collected_cons_stop stops]
      rfl
    | false =>
      rw [collected_cons stops, List.length_cons, List.drop_succ_cons, List.cons_append, later]

theorem bind_ok {α β : Type} {parse : Parse α} {next : α → Parse β} {context : Context} {value : α} {left : List Token}
    (run : parse context tokens = .ok (value, left)) : (parse >>= next) context tokens = next value context left := by
  change (parse context tokens >>= fun found => next found.1 context found.2) = _
  rw [run]
  rfl

theorem append_ofText (s : String) (template : Template Expr) :
    Template.append (.ofText s) template = Template.consText s template := by
  unfold Template.ofText Template.consText
  by_cases empty : s.isEmpty = true
  · rw [if_pos empty, if_pos empty]
    rfl
  · rw [if_neg empty, if_neg empty]
    simp [Template.append, Template.consPiece, Template.consText, empty]

theorem textTemplate_plain {contents : String} (pos : Position) (context : Context) (tokens : List Token)
    (plain : ¬ ['#', '{'] <:+: contents.toList) (enough : 0 < n) :
    textTemplate n pos contents.toList context tokens = .ok (.ofText contents, tokens) := by
  obtain ⟨n, rfl⟩ := Nat.exists_eq_add_one.2 enough
  rw [textTemplate]
  cases cut : splitAtInterpolation contents.toList with
  | none =>
    rw [String.ofList_toList]
    rfl
  | some parts =>
    have text : contents.toList = parts.1 ++ '#' :: '{' :: parts.2 := splitAtInterpolation_eq cut
    exact absurd ⟨parts.1, parts.2, by simp [text]⟩ plain

/-- The quotes of a string, its contents and the text behind it become one text. -/
theorem consText_quoted {contents : String} {quote : Char}
    (text : token.text.toList = quote :: contents.toList ++ [quote]) (cs : List Char) :
    Template.consText quote.toString
        (.append (.ofText contents) (Template.consText quote.toString (.ofText (String.ofList cs)))) =
      (.ofText (String.ofList (token.text.toList ++ cs)) : Template Expr) := by
  have spelled : quote.toString ++ (contents ++ (quote.toString ++ String.ofList cs)) =
      String.ofList (token.text.toList ++ cs) := by
    rw [text, ← String.toList_inj]
    simp [Char.toString]
  rw [append_ofText, consText_ofText, consText_ofText, consText_ofText, spelled]

/-- The pieces of a raw text without interpolations. By induction on the tokens; each of those that are collected adds
its text. -/
theorem rawPieces_eq (context : Context) (started : Bool) (enough : (collected ends depth tokens).length < n)
    (literal : ∀ token ∈ collected ends depth tokens, isLiteral token = true)
    (suits : ∀ token ∈ tokens, token.kind.Suits token.text.toList) :
    rawPieces n false ends depth started context tokens =
      .ok (.ofText (String.ofList (written started (collected ends depth tokens))),
        tokens.drop (collected ends depth tokens).length) := by
  induction tokens generalizing depth started n with
  | nil =>
    obtain ⟨n, rfl⟩ := Nat.exists_eq_add_one.2 (Nat.zero_lt_of_lt enough)
    rw [rawPieces]
    rfl
  | cons token rest later =>
    obtain ⟨n, rfl⟩ := Nat.exists_eq_add_one.2 (Nat.zero_lt_of_lt enough)
    cases stops : depth == 0 && ends.any token.isMark with
    | true =>
      rw [collected_cons_stop stops, rawPieces]
      change (if _ then _ else _ : Parse _) context (token :: rest) = _
      rw [if_pos stops]
      rfl
    | false =>
      rw [collected_cons stops, List.length_cons] at enough
      rw [collected_cons stops] at literal ⊢
      rw [rawPieces]
      change (if _ then _ else _ : Parse _) context (token :: rest) = _
      rw [if_neg (by simp [stops])]
      have suits' : ∀ token ∈ rest, token.kind.Suits token.text.toList :=
        fun token inside => suits token (List.mem_cons_of_mem _ inside)
      have literal' : ∀ next ∈ collected ends (depthBehind depth token) rest, isLiteral next = true :=
        fun next inside => literal next (List.mem_cons_of_mem _ inside)
      have behind (started : Bool) := later started (Nat.lt_of_succ_lt_succ enough) literal' suits'
      have plain := literal token List.mem_cons_self
      unfold isLiteral at plain
      have set_bind (next : Parse (Template Expr)) :
          (set rest >>= fun _ => next) context (token :: rest) = next context rest := rfl
      refine (set_bind _).trans ?_
      rw [List.length_cons, List.drop_succ_cons]
      cases kind : token.kind with
      | interpolation =>
        rw [kind] at plain
        cases plain
      | «variable» name =>
        rw [depthBehind_unmarked fun c => by rw [Token.isMark, kind]] at behind ⊢
        refine (bind_ok (behind true)).trans ?_
        rw [written_printing (by rw [Token.isTrivia, kind]), if_neg Bool.false_ne_true, consText_ofText, ofList_text]
        rfl
      | quoted contents quote =>
        rw [depthBehind_unmarked fun c => by rw [Token.isMark, kind]] at behind ⊢
        rw [written_printing (by rw [Token.isTrivia, kind])]
        have text : token.text.toList = quote :: contents.toList ++ [quote] := by
          have known := suits token List.mem_cons_self
          rw [kind] at known
          exact known.2
        rw [kind] at plain
        have inner := textTemplate_plain (shifted token.pos 1) context rest (by simpa using plain)
          (Nat.zero_lt_of_lt (Nat.lt_of_succ_lt_succ enough))
        refine (bind_ok inner).trans ((bind_ok (behind true)).trans ?_)
        rw [consText_quoted text]
        rfl
      | blank newline =>
        rw [depthBehind_unmarked fun c => by rw [Token.isMark, kind]] at behind ⊢
        refine (bind_ok (behind started)).trans ?_
        rw [written_blank (by rw [Token.isBlank, kind])]
        cases started with
        | true =>
          rw [if_pos rfl, if_pos rfl, consText_ofText, String.ofList_append]
          rfl
        | false => rfl
      | comment comment =>
        rw [depthBehind_unmarked fun c => by rw [Token.isMark, kind]] at behind ⊢
        rw [written_comment (by rw [Token.isBlank, kind]) (by rw [Token.isTrivia, kind])]
        exact behind started
      | _ =>
        refine (bind_ok (behind true)).trans ?_
        rw [written_printing (by rw [Token.isTrivia, kind]), consText_ofText, ofList_text]
        rfl

theorem rawTemplate_eq (context : Context) (enough : (collected ends 0 tokens).length + 1 < n)
    (literal : ∀ token ∈ collected ends 0 tokens, isLiteral token = true)
    (suits : ∀ token ∈ tokens, token.kind.Suits token.text.toList) :
    rawTemplate n false ends context tokens =
      .ok (.ofText (String.ofList (Text.squeeze false (written false (collected ends 0 tokens)))),
        tokens.drop (collected ends 0 tokens).length) := by
  obtain ⟨n, rfl⟩ := Nat.exists_eq_add_one.2 (Nat.zero_lt_of_lt enough)
  rw [rawTemplate]
  refine (bind_ok (rawPieces_eq context false (Nat.lt_of_succ_lt_succ enough) literal suits)).trans ?_
  rw [squeeze_ofText, String.toList_ofList]
  rfl

end Grammar

/-! The tokens of the text -/

namespace Token

def isComment (token : Token) : Bool := token.isTrivia && !token.isBlank

/-- A token that a raw text keeps: what squeezing leaves as it is, with no blank at its end, and not up against what
follows it there. -/
structure KeptApart (token : Token) (behind : List Token) : Prop where
  squeezed : Text.squeeze false token.text.toList = token.text.toList
  ends : token.text.toList.getLast?.all (!Text.isBlank ·) = true
  /-- Comments right behind the token are followed by a blank, if by anything. -/
  apart : behind.head?.any isComment = true → (behind.dropWhile isComment).head?.all isBlank = true
  /-- The word `url` and a parenthesis are followed by what begins no address. -/
  word : Grammar.isWord token "url" = true → behind.head?.any (fun next => next.isMark '(') = true →
    ∀ next ∈ (Grammar.significant behind.tail).head?, next.text.toList.head?.any ['"', '\'', ')', '$'].contains = true

end Token

namespace Grammar

open Token (KeptApart spelled)

/-- The tokens of a raw text as they are written; `afterToken` says that a token has been written last, and no blank. -/
def rewritten : (afterToken : Bool) → List Token → List Spelling
  | _, [] => []
  | afterToken, token :: rest =>
    if token.isBlank then if afterToken then Spelling.space :: rewritten false rest else rewritten false rest
    else if token.isTrivia then rewritten afterToken rest
    else token.spelling :: rewritten true rest

variable {token : Token}

theorem rewritten_blank (blank : token.isBlank = true) (afterToken : Bool) (rest : List Token) :
    rewritten afterToken (token :: rest) = (if afterToken then [Spelling.space] else []) ++ rewritten false rest := by
  rw [rewritten, if_pos blank]
  cases afterToken <;> rfl

theorem rewritten_comment (noBlank : token.isBlank = false) (trivia : token.isTrivia = true) (afterToken : Bool)
    (rest : List Token) : rewritten afterToken (token :: rest) = rewritten afterToken rest := by
  rw [rewritten, if_neg (by simp [noBlank]), if_pos trivia]

theorem rewritten_printing (printing : token.isTrivia = false) (afterToken : Bool) (rest : List Token) :
    rewritten afterToken (token :: rest) = token.spelling :: rewritten true rest := by
  rw [rewritten, if_neg (by simp [isBlank_of_printing printing]), if_neg (by simp [printing])]

/-- What is neither a blank nor a comment is kept, in its order. -/
theorem rewritten_filter (afterToken : Bool) (tokens : List Token) :
    (rewritten afterToken tokens).filter (!·.isTrivia) = (tokens.filter (!·.isTrivia)).map Token.spelling := by
  induction tokens generalizing afterToken with
  | nil => rfl
  | cons token rest later =>
    rcases blank_or_comment token with blank | ⟨noBlank, trivia⟩ | printing
    · have trivia := isTrivia_of_isBlank blank
      rw [rewritten_blank blank, List.filter_append, later, List.filter_cons_of_neg (by simp [trivia])]
      cases afterToken <;> rfl
    · rw [rewritten_comment noBlank trivia, later, List.filter_cons_of_neg (by simp [trivia])]
    · have same : token.spelling.isTrivia = false := printing
      rw [rewritten_printing printing, List.filter_cons_of_pos (by simp [same]), later,
        List.filter_cons_of_pos (by simp [printing]), List.map_cons]

/-! Squeezing -/

theorem squeeze_append (text : List Char) {last : Char} (seen : Text.isBlank last = false) (afterBlank : Bool)
    (more : List Char) : Text.squeeze afterBlank (text ++ [last] ++ more) =
      Text.squeeze afterBlank (text ++ [last]) ++ Text.squeeze false more := by
  induction text generalizing afterBlank with
  | nil => simp [Text.squeeze, seen]
  | cons c text later =>
    simp only [List.cons_append, Text.squeeze, later]
    split
    · split <;> rfl
    · rfl

/-- A token that is kept as it is stays so in front of any text. -/
theorem squeeze_kept {behind : List Token} {text : List Char} {c : Char} (kept : KeptApart token behind)
    (written : token.text.toList = c :: text) (seen : Text.isBlank c = false) (afterBlank : Bool) (more : List Char) :
    Text.squeeze afterBlank (token.text.toList ++ more) = token.text.toList ++ Text.squeeze false more := by
  have same : Text.squeeze afterBlank token.text.toList = token.text.toList := by
    have squeezed := kept.squeezed
    rw [written, Text.squeeze, if_neg (by simp [seen])] at squeezed ⊢
    exact squeezed
  have nonempty : token.text.toList ≠ [] := by simp [written]
  obtain ⟨front, last, split⟩ := (List.eq_nil_or_concat' token.text.toList).resolve_left nonempty
  have ends : Text.isBlank last = false := by simpa [split] using kept.ends
  have appended := squeeze_append front ends afterBlank more
  rwa [← split, same] at appended

section

variable {stretch rest : List Token} {tail : List Char}

/-- Tokens are read one behind the other in front of `tail`. -/
def ReadBefore (tail : List Char) (stretch : List Token) : Prop :=
  ∀ token behind, token :: behind <:+ stretch → token.spelling.Reads (spelled behind ++ tail)

theorem ReadBefore.of_cons (reads : ReadBefore tail (token :: rest)) : ReadBefore tail rest :=
  fun next behind within => reads next behind (within.trans (List.suffix_cons token rest))

/-- The tokens of a stretch that are neither blanks nor comments are kept apart. -/
def AllApart (stretch : List Token) : Prop :=
  ∀ token behind, token :: behind <:+ stretch → token.isTrivia = false → KeptApart token behind

theorem AllApart.of_cons (apart : AllApart (token :: rest)) : AllApart rest :=
  fun next behind within => apart next behind (within.trans (List.suffix_cons token rest))

theorem first_printing {behind : List Char} (reads : token.spelling.Reads behind) (printing : token.isTrivia = false) :
    ∃ c text, token.text.toList = c :: text ∧ Text.isBlank c = false := by
  obtain ⟨c, text, written⟩ := List.exists_cons_of_length_pos reads.length_pos
  have written : token.text.toList = c :: text := written
  have starts := reads.startsBlank (isBlank_of_printing printing)
  simp only [Token.spelling, written, List.cons_append, Token.startsBlank, Bool.or_eq_false_iff] at starts
  exact ⟨c, text, written, starts.1⟩

theorem squeeze_written (reads : ReadBefore tail stretch) (apart : AllApart stretch) (started afterBlank : Bool) :
    Text.squeeze afterBlank (written started stretch) =
      Spelling.chars (rewritten (started && !afterBlank) stretch) := by
  induction stretch generalizing started afterBlank with
  | nil => cases afterBlank <;> rfl
  | cons token rest later =>
    have later := later reads.of_cons apart.of_cons
    rcases blank_or_comment token with blank | ⟨noBlank, trivia⟩ | printing
    · rw [written_blank blank, rewritten_blank blank]
      cases started with
      | false => exact later false afterBlank
      | true =>
        cases afterBlank with
        | false => exact congrArg (' ' :: ·) (later true true)
        | true => exact later true true
    · rw [written_comment noBlank trivia, rewritten_comment noBlank trivia, later]
    · obtain ⟨c, text, begins, seen⟩ := first_printing (reads token rest List.suffix_rfl) printing
      rw [written_printing printing, rewritten_printing printing,
        squeeze_kept (apart token rest List.suffix_rfl printing) begins seen, later]
      rfl

/-! Reading the text -/

theorem startsBlank_rewritten (fits : Spelling.Fits (rewritten false stretch)) :
    Token.startsBlank (Spelling.chars (rewritten false stretch)) = false := by
  induction stretch with
  | nil => rfl
  | cons token rest later =>
    rcases blank_or_comment token with blank | ⟨noBlank, trivia⟩ | printing
    · rw [rewritten_blank blank] at fits ⊢
      exact later fits
    · rw [rewritten_comment noBlank trivia] at fits ⊢
      exact later fits
    · rw [rewritten_printing printing] at fits ⊢
      exact fits.1.startsBlank (isBlank_of_printing printing)

/-- Comments that are followed by a blank, if by anything, leave a blank or nothing behind a token. -/
theorem rewritten_comments (comment : token.isComment = true)
    (separated : ((token :: rest).dropWhile Token.isComment).head?.all Token.isBlank = true) :
    Spelling.chars (rewritten true (token :: rest)) = [] ∨
      ∃ more, Spelling.chars (rewritten true (token :: rest)) = ' ' :: more := by
  obtain ⟨trivia, noBlank⟩ := Bool.and_eq_true_iff.1 comment
  rw [Bool.not_eq_true'] at noBlank
  rw [rewritten_comment noBlank trivia]
  rw [List.dropWhile_cons_of_pos comment] at separated
  induction rest with
  | nil => exact .inl rfl
  | cons next rest later =>
    cases again : next.isComment with
    | true =>
      obtain ⟨trivia, noBlank⟩ := Bool.and_eq_true_iff.1 again
      rw [Bool.not_eq_true'] at noBlank
      rw [rewritten_comment noBlank trivia]
      rw [List.dropWhile_cons_of_pos again] at separated
      exact later separated
    | false =>
      rw [List.dropWhile_cons_of_neg (by simp [again])] at separated
      rw [rewritten_blank separated]
      exact .inr ⟨_, rfl⟩

/-- What is written behind a token that is kept apart: nothing, a space or the token that follows it. -/
theorem rewritten_next (kept : KeptApart token stretch) :
    Spelling.chars (rewritten true stretch) = [] ∨
      (∃ next rest more, stretch = next :: rest ∧ Spelling.chars (rewritten true stretch) = ' ' :: more) ∨
      ∃ next rest, stretch = next :: rest ∧ next.isTrivia = false ∧
        Spelling.chars (rewritten true stretch) = next.text.toList ++ Spelling.chars (rewritten true rest) := by
  cases stretch with
  | nil => exact .inl rfl
  | cons next rest =>
    rcases blank_or_comment next with blank | ⟨noBlank, trivia⟩ | printing
    · rw [rewritten_blank blank]
      exact .inr (.inl ⟨next, rest, _, rfl, rfl⟩)
    · have comment : next.isComment = true := by rw [Token.isComment, trivia, noBlank]; rfl
      rcases rewritten_comments comment (kept.apart comment) with none | ⟨more, space⟩
      · exact .inl none
      · exact .inr (.inl ⟨next, rest, more, rfl, space⟩)
    · refine .inr (.inr ⟨next, rest, rfl, printing, ?_⟩)
      rw [rewritten_printing printing]
      rfl

theorem spelled_ne_nil {next : Token} (reads : ReadBefore tail (next :: rest)) :
    ∃ c text, next.text.toList = c :: text :=
  List.exists_cons_of_length_pos (reads next rest List.suffix_rfl).length_pos

/-- The text behind a token agrees with the one that was read there as far as it matters. -/
theorem follows_rewritten (kept : KeptApart token stretch) (reads : ReadBefore tail stretch)
    (apart : AllApart stretch) :
    Token.Follows (spelled stretch ++ tail) (Spelling.chars (rewritten true stretch)) := by
  rcases rewritten_next kept with none | ⟨next, rest, more, rfl, space⟩ | ⟨next, rest, rfl, printing, same⟩
  · rw [none]
    exact .ends _
  · obtain ⟨c, text, written⟩ := spelled_ne_nil reads
    rw [space, Token.spelled_cons, written]
    exact .space _ _ _
  · obtain ⟨c, text, written⟩ := spelled_ne_nil reads
    rw [same, Token.spelled_cons, written, List.append_assoc]
    refine .same c _ _ ?_
    cases text with
    | cons d text => exact .inr (.inr rfl)
    | nil =>
      -- The token has one character, so the one behind it counts as well.
      rcases rewritten_next (apart next rest List.suffix_rfl printing) with
        none | ⟨_, _, more, rfl, space⟩ | ⟨second, rest, rfl, -, same⟩
      · rw [none]
        exact .inl rfl
      · rw [space]
        exact .inr (.inl rfl)
      · obtain ⟨d, text, written⟩ := spelled_ne_nil reads.of_cons
        rw [same, Token.spelled_cons, written]
        exact .inr (.inr rfl)

/-- What begins no address in the tokens begins none in the text. -/
theorem startsUrl_rewritten (reads : ReadBefore tail stretch)
    (quiet : ∀ next ∈ (significant stretch).head?, next.text.toList.head?.any ['"', '\'', ')', '$'].contains = true)
    (afterToken : Bool) : Token.startsUrl (Spelling.chars (rewritten afterToken stretch)) = false := by
  have space (cs : List Char) : Token.startsUrl (' ' :: cs) = Token.startsUrl cs := rfl
  induction stretch generalizing afterToken with
  | nil => rfl
  | cons token rest later =>
    rcases blank_or_comment token with blank | ⟨noBlank, trivia⟩ | printing
    · rw [significant, List.dropWhile_cons_of_pos (isTrivia_of_isBlank blank)] at quiet
      rw [rewritten_blank blank]
      cases afterToken with
      | false => exact later reads.of_cons quiet false
      | true => exact (space _).trans (later reads.of_cons quiet false)
    · rw [significant, List.dropWhile_cons_of_pos trivia] at quiet
      rw [rewritten_comment noBlank trivia]
      exact later reads.of_cons quiet afterToken
    · rw [significant, List.dropWhile_cons_of_neg (by simp [printing])] at quiet
      have first := quiet token rfl
      obtain ⟨c, text, written, seen⟩ := first_printing (reads token rest List.suffix_rfl) printing
      rw [rewritten_printing printing, Spelling.chars_cons]
      have text : token.spelling.text.toList = c :: text := written
      rw [text, List.cons_append, Token.startsUrl, Text.trimStart, List.dropWhile_cons_of_neg (by simp [seen])]
      have sign : c = '"' ∨ c = '\'' ∨ c = ')' ∨ c = '$' := by simpa [written] using first
      rcases sign with rfl | rfl | rfl | rfl <;> rfl

/-- A parenthesis at the front is a mark of its own. -/
theorem isMark_of_parenthesis {behind text : List Char} (reads : token.spelling.Reads behind)
    (opens : token.text.toList = '(' :: text) : token.isMark '(' = true ∧ text = [] := by
  obtain ⟨c, tail, whole, read⟩ := reads
  have written : token.spelling.text.toList = '(' :: text := opens
  rw [written] at whole read
  obtain ⟨rfl, -⟩ := List.cons.inj whole
  have parenthesis : (Spelling.mark '(').Reads tail := Spelling.reads_mark (by simp)
  obtain ⟨_, _, whole', mark⟩ := parenthesis
  rw [Spelling.toList_mark] at whole' mark
  obtain ⟨rfl, rfl⟩ := List.cons.inj whole'
  obtain ⟨kind, same, -⟩ := Token.Lexeme.mk.inj (Except.ok.inj (mark.symm.trans read))
  have kind : token.kind = .mark '(' := kind.symm
  exact ⟨by simp [Token.isMark, kind], (List.cons.inj same).2.symm⟩

/-- The tokens that are written are the ones that are read from the text they make. By induction on the stretch; each
token is followed by a text in front of which it is read again. -/
theorem fits_rewritten (reads : ReadBefore tail stretch) (apart : AllApart stretch) (afterToken : Bool) :
    Spelling.Fits (rewritten afterToken stretch) := by
  induction stretch generalizing afterToken with
  | nil => trivial
  | cons token rest later =>
    have later := later reads.of_cons apart.of_cons
    rcases blank_or_comment token with blank | ⟨noBlank, trivia⟩ | printing
    · rw [rewritten_blank blank]
      cases afterToken with
      | false => exact later false
      | true => exact ⟨Spelling.reads_space (startsBlank_rewritten (later false)), later false⟩
    · rw [rewritten_comment noBlank trivia]
      exact later afterToken
    · have kept := apart token rest List.suffix_rfl printing
      rw [rewritten_printing printing]
      refine ⟨(reads token rest List.suffix_rfl).again (follows_rewritten kept reads.of_cons apart.of_cons) printing ?_,
        later true⟩
      intro name after word url opens
      rcases rewritten_next kept with none | ⟨_, _, more, -, space⟩ | ⟨next, rest, rfl, -, same⟩
      · rw [none] at opens
        cases opens
      · rw [space] at opens
        cases opens
      · obtain ⟨c, text, written⟩ := spelled_ne_nil reads.of_cons
        rw [same, written] at opens
        obtain ⟨rfl, rfl⟩ := List.cons.inj opens
        obtain ⟨mark, rfl⟩ := isMark_of_parenthesis (reads.of_cons next rest List.suffix_rfl) written
        have word : isWord token "url" = true := by
          rw [isWord, show token.kind = .ident name from word]
          exact url
        exact startsUrl_rewritten reads.of_cons.of_cons (kept.word word mark) true

end

/-- The tokens that are collected from those of a source are read one behind the other. -/
theorem readBefore_collected {source : String} {origin : Position} {passed tokens : List Token} {rest : List Char}
    (tiles : Token.Tiles 0 origin source.toList (lex source origin) rest)
    (within : (lex source origin).tokens = passed ++ tokens) (ends : List Char) :
    ReadBefore (spelled (tokens.drop (collected ends 0 tokens).length) ++ rest) (collected ends 0 tokens) := by
  rintro token behind ⟨front, split⟩
  have parts := collected_append ends 0 tokens
  generalize tokens.drop (collected ends 0 tokens).length = left at parts ⊢
  have whole : (lex source origin).tokens = (passed ++ front) ++ token :: (behind ++ left) := by
    rw [within, ← parts, ← split]
    simp
  have read := tiles.reads whole
  rwa [spelled, List.flatMap_append, List.append_assoc] at read

/-- A raw text keeps its tokens. Where they are kept apart, the text that is made of those that are collected, read
again, has the same tokens, blanks and comments left out. -/
theorem rawTemplate_keeps_tokens {source : String} {origin : Position} {passed tokens : List Token}
    (within : (lex source origin).tokens = passed ++ tokens) (context : Context) {ends : List Char} {n : Nat}
    (enough : (collected ends 0 tokens).length + 1 < n)
    (literal : ∀ token ∈ collected ends 0 tokens, isLiteral token = true)
    (apart : AllApart (collected ends 0 tokens)) :
    ∃ text, rawTemplate n false ends context tokens =
        .ok (.ofText text, tokens.drop (collected ends 0 tokens).length) ∧
      ∀ place, (lex text place).error = none ∧
        ((lex text place).tokens.filter (!·.isTrivia)).map Token.spelling =
          ((collected ends 0 tokens).filter (!·.isTrivia)).map Token.spelling := by
  obtain ⟨rest, tiles⟩ := lex_tiles source origin
  have suits : ∀ token ∈ tokens, token.kind.Suits token.text.toList := by
    intro token member
    refine Token.scan_suits source.toList.length 0 origin source.toList token ?_
    change token ∈ (lex source origin).tokens
    rw [within]
    exact List.mem_append_right passed member
  have reads := readBefore_collected tiles within ends
  refine ⟨_, rawTemplate_eq context enough literal suits, fun place => ?_⟩
  rw [squeeze_written reads apart]
  obtain ⟨sound, same⟩ := Spelling.lex_chars (fits_rewritten reads apart false) place
  refine ⟨sound, ?_⟩
  have filtered := congrArg (List.filter (!·.isTrivia)) same
  rw [List.filter_map, rewritten_filter] at filtered
  exact filtered

instance (token : Token) (behind : List Token) : Decidable (KeptApart token behind) :=
  decidable_of_iff (_ ∧ _ ∧ _ ∧ _)
    ⟨fun ⟨squeezed, ends, apart, word⟩ => ⟨squeezed, ends, apart, word⟩,
      fun ⟨squeezed, ends, apart, word⟩ => ⟨squeezed, ends, apart, word⟩⟩

theorem allApart_cons {token : Token} {rest : List Token} :
    AllApart (token :: rest) ↔ (token.isTrivia = false → KeptApart token rest) ∧ AllApart rest := by
  refine ⟨fun apart => ⟨apart token rest List.suffix_rfl, apart.of_cons⟩, fun ⟨first, later⟩ next behind within => ?_⟩
  rcases List.suffix_cons_iff.1 within with same | within
  · cases same
    exact first
  · exact later next behind within

instance : (stretch : List Token) → Decidable (AllApart stretch)
  | [] => .isTrue fun _ _ within => absurd (List.suffix_nil.1 within) (by simp)
  | token :: rest =>
    have : Decidable (AllApart rest) := instDecidableAllApart rest
    decidable_of_iff _ allApart_cons.symm

/-- A selector and what follows it, with blanks and comments that are left out. -/
def sampleSource : String := "a[b=\"c d\"]  /* e */\n> f:not( .g ),\tfoo url(\"h\") \x7b"

def sampleContext : Context := ⟨[], .start, [], "stdin"⟩

theorem rawTemplate_keeps_tokens_selector :
    let tokens := (lex sampleSource).tokens
    let stretch := collected ['{', ';', '}'] 0 tokens
    (∀ token ∈ stretch, isLiteral token = true) ∧ AllApart stretch ∧ stretch.length + 1 < 40 ∧
      ∃ text, rawTemplate 40 false ['{', ';', '}'] sampleContext tokens =
          .ok (.ofText text, tokens.drop stretch.length) ∧
        (lex text).error = none ∧
        ((lex text).tokens.filter (!·.isTrivia)).map Token.spelling =
          (stretch.filter (!·.isTrivia)).map Token.spelling := by
  intro tokens stretch
  have literal : ∀ token ∈ stretch, isLiteral token = true := by decide +kernel
  have apart : AllApart stretch := by decide +kernel
  have enough : stretch.length + 1 < 40 := by decide +kernel
  have within : (lex sampleSource).tokens = [] ++ tokens := (List.nil_append tokens).symm
  obtain ⟨text, run, again⟩ := rawTemplate_keeps_tokens within sampleContext enough literal apart
  exact ⟨literal, apart, enough, text, run, again .start⟩

/-- Two blanks of a string become one, and another string is read from the text. -/
theorem rawTemplate_squeezes_strings :
    let tokens := (lex "a[b=\"c  d\"]\x7b").tokens
    let stretch := collected ['{', ';', '}'] 0 tokens
    (∀ token ∈ stretch, isLiteral token = true) ∧
      ∃ text, rawTemplate 40 false ['{', ';', '}'] sampleContext tokens =
          .ok (.ofText text, tokens.drop stretch.length) ∧
        ((lex text).tokens.filter (!·.isTrivia)).map Token.kind ≠ (stretch.filter (!·.isTrivia)).map Token.kind := by
  intro tokens stretch
  have literal : ∀ token ∈ stretch, isLiteral token = true := by decide +kernel
  have enough : stretch.length + 1 < 40 := by decide +kernel
  exact ⟨literal, _, rawTemplate_eq sampleContext enough literal (Token.scan_suits _ _ _ _), by decide +kernel⟩

end Grammar

end Stylesheet
