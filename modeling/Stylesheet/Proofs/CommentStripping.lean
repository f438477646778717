import Mathlib.Data.List.Infix
import Stylesheet.Indented
import Stylesheet.Proofs.CutOff.Continuation

/-! The comment at the end of an indented line. The scanner that cuts it off knows strings and two slashes, and no other
tokens. Where quotes belong to strings and two slashes to the comment, the cut is the one that the tokens call for: in
front of the comment and outside the tokens that might hold slashes. -/

namespace Stylesheet

/-- The tokens with text between a begin and an end, which may hold slashes. -/
def TokenKind.holdsText : TokenKind → Bool
  | .quoted _ _ | .url _ | .comment _ => true
  | _ => false

namespace Token

variable {cs rest : List Char} {token : Token}

/-- A run of blanks without a line comment. -/
def Uncommented (token : Token) : Prop := token.isBlank = true → ∀ c ∈ token.text.toList, Text.isBlank c = true

/-- A token that is read, if it holds text, has an end that is no blank. -/
def Closed : Except Fault Lexeme → Prop
  | .ok lexeme => lexeme.kind.holdsText = true → ∃ last, Text.isBlank last = false ∧ [last] <:+ lexeme.taken
  | .error _ => True

theorem Closed.ite {p : Prop} [Decidable p] {yes no : Except Fault Lexeme} (holds : p → Closed yes)
    (fails : ¬ p → Closed no) : Closed (if p then yes else no) := by
  split
  · next h => exact holds h
  · next h => exact fails h

theorem wordLexeme_closed (cs : List Char) : Closed (.ok (wordLexeme cs)) := by
  unfold wordLexeme
  dsimp only
  split
  · split
    · split
      · next taken left scanned =>
        intro _
        have suffix : taken <:+ (scanName cs).1 ++ '(' :: taken :=
          (List.suffix_cons '(' taken).trans (List.suffix_append _ _)
        exact ⟨')', by decide, (scanUrl_closed scanned).trans suffix⟩
      · exact nofun
    · exact nofun
  · exact nofun

theorem lexeme_closed (c : Char) (rest : List Char) : Closed (lexeme c rest) := by
  unfold lexeme
  refine .ite (fun _ => nofun) fun _ => .ite (fun _ => ?_) fun _ => .ite (fun quote => ?_) fun _ => ?_
  · split
    · next taken left scanned =>
      intro _
      have suffix : ['/'] <:+ ['*', '/'] := List.suffix_cons '*' ['/']
      have closed := suffix.trans (scanComment_closed scanned)
      exact ⟨'/', by decide, closed.trans ((List.suffix_cons '*' taken).trans (List.suffix_cons '/' _))⟩
    · trivial
  · split
    · next contents left _ =>
      intro _
      refine ⟨c, ?_, List.suffix_append (c :: contents) [c]⟩
      simp only [Bool.or_eq_true, beq_iff_eq] at quote
      rcases quote with rfl | rfl <;> decide
    · trivial
    · trivial
    · trivial
  refine .ite (fun _ => nofun) fun _ => .ite (fun _ => nofun) fun _ => .ite (fun _ => nofun) fun _ => ?_
  refine .ite (fun _ => nofun) fun _ => .ite (fun _ => nofun) fun _ => .ite (fun _ => nofun) fun _ => ?_
  refine .ite (fun _ => wordLexeme_closed _) fun _ => ?_
  dsimp only
  split <;> exact nofun

theorem scanBlank_comment (oneLine : '\n' ∉ cs) : scanBlank true cs = (cs, []) := by
  induction cs with
  | nil => rfl
  | cons c rest later =>
    have inLine : (c != '\n') = true := by
      rw [bne_iff_ne]
      rintro rfl
      exact oneLine List.mem_cons_self
    have known := later fun member => oneLine (List.mem_cons_of_mem c member)
    rw [scanBlank_cons fun outside => Bool.noConfusion outside]
    simp [inLine, known]

/-- In a single line a comment takes all that follows. -/
theorem scanBlank_line (oneLine : '\n' ∉ cs) :
    (∀ c ∈ (scanBlank false cs).1, Text.isBlank c = true) ∨
      ∃ blanks comment, (∀ c ∈ blanks, Text.isBlank c = true) ∧
        scanBlank false cs = (blanks ++ '/' :: '/' :: comment, []) := by
  generalize outside : false = inComment
  fun_induction scanBlank inComment cs with
  | case1 rest taken left scanned later =>
    rw [scanBlank_comment (by simp_all)] at scanned
    cases scanned
    exact .inr ⟨[], _, by simp, rfl⟩
  | case2 inComment c rest plain blank taken left scanned later =>
    subst outside
    have blank : Text.isBlank c = true := by simpa using blank
    rcases later (by simp_all) rfl with blanks | ⟨blanks, comment, blank', same⟩
    · rw [scanned] at blanks
      exact .inl (by simpa [blank] using blanks)
    · rw [scanned] at same
      cases same
      exact .inr ⟨c :: blanks, comment, by simpa [blank] using blank', rfl⟩
  | case3 => exact .inl (by simp)
  | case4 => exact .inl (by simp)

/-- A blank token of a single line holds no comment, or it is the last one and ends in a comment. -/
theorem Tiles.blank_cases {source : String} {origin : Position} {before behind : List Token}
    (tiles : Tiles 0 origin source.toList (lex source origin) rest) (oneLine : '\n' ∉ source.toList)
    (same : (lex source origin).tokens = before ++ token :: behind) :
    token.Uncommented ∨ ∃ blanks comment, (∀ c ∈ blanks, Text.isBlank c = true) ∧
      token.text.toList = blanks ++ '/' :: '/' :: comment ∧ behind = [] := by
  obtain ⟨c, tail, text, first⟩ := tiles.reads same
  by_cases blank : token.isBlank = true
  · obtain ⟨newline, kind⟩ := isBlank_iff.1 blank
    have run := lexeme_reads c tail
    rw [first] at run
    obtain ⟨-, run⟩ := run.2 newline kind
    have scanned : scanBlank false (c :: tail) = (token.text.toList, spelled behind ++ rest) :=
      Prod.ext (congrArg Lexeme.taken run).symm (congrArg Lexeme.left run).symm
    have inLine : '\n' ∉ c :: tail := by
      have covers := tiles.covers
      rw [same] at covers
      intro member
      rw [← text] at member
      refine oneLine ?_
      rw [← covers]
      simp only [spelled, List.flatMap_append, List.flatMap_cons, List.append_assoc]
      exact List.mem_append_right _ member
    rcases scanBlank_line inLine with blanks | ⟨blanks, comment, blanks', cut⟩
    · rw [scanned] at blanks
      exact .inl fun _ => blanks
    · rw [scanned] at cut
      obtain ⟨text, left⟩ := Prod.mk.inj cut
      refine .inr ⟨blanks, comment, blanks', text, ?_⟩
      cases behind with
      | nil => rfl
      | cons next behind =>
        have nonempty := (tiles.stands (before ++ [token]) next behind (by simp [same])).nonempty
        simp only [spelled_cons, List.append_eq_nil_iff, String.toList_eq_nil_iff] at left
        exact absurd left.1.1 nonempty
  · exact .inl fun known => absurd known blank

/-- The tokens of a line that ends in a comment. The comment and the blanks in front of it are the last token. -/
structure EndsInComment (tokens body : List Token) (last : Token) (blanks comment : List Char) : Prop where
  split : tokens = body ++ [last]
  isBlank : last.isBlank = true
  text : last.text.toList = blanks ++ '/' :: '/' :: comment
  blank : ∀ c ∈ blanks, Text.isBlank c = true
  others : ∀ token ∈ body, token.Uncommented

theorem Tiles.comment_cases {source : String} {origin : Position}
    (tiles : Tiles 0 origin source.toList (lex source origin) rest) (oneLine : '\n' ∉ source.toList) :
    (∀ token ∈ (lex source origin).tokens, token.Uncommented) ∨
      ∃ body last blanks comment, EndsInComment (lex source origin).tokens body last blanks comment := by
  by_cases uncommented : ∀ token ∈ (lex source origin).tokens, token.Uncommented
  · exact .inl uncommented
  · push Not at uncommented
    obtain ⟨last, member, commented⟩ := uncommented
    obtain ⟨body, behind, same⟩ := List.append_of_mem member
    obtain ⟨blanks, comment, blank, text, rfl⟩ := (tiles.blank_cases oneLine same).resolve_left commented
    refine .inr ⟨body, last, blanks, comment, same, (Classical.not_imp.1 commented).1, text, blank, ?_⟩
    intro token member
    obtain ⟨before, behind, rfl⟩ := List.append_of_mem member
    refine (tiles.blank_cases oneLine (by simpa using same)).resolve_right ?_
    rintro ⟨_, _, _, _, none⟩
    simp at none

/-- What a scanner that looks for quotes and slashes may take a token for: a string counts as its quotes, and a line
comment as its first slash. -/
def outline (token : Token) : List Char :=
  match token.kind with
  | .quoted _ quote => [quote, quote]
  | .blank _ => token.text.toList.takeWhile Text.isBlank ++ (token.text.toList.dropWhile Text.isBlank).take 1
  | _ => token.text.toList

theorem commented {blanks comment : List Char} (isBlank : token.isBlank = true)
    (text : token.text.toList = blanks ++ '/' :: '/' :: comment) : ¬ token.Uncommented := by
  intro quiet
  have slash := quiet isBlank '/' (by simp [text])
  exact absurd slash (by decide)

namespace EndsInComment

variable {tokens body before behind : List Token} {last : Token} {blanks blanks' comment comment' : List Char}

/-- Only the last token is a comment that begins with two slashes, and it is split in one way. -/
theorem unique (ends : EndsInComment tokens body last blanks comment) (same : tokens = before ++ token :: behind)
    (isBlank : token.isBlank = true) (text : token.text.toList = blanks' ++ '/' :: '/' :: comment')
    (blank : ∀ c ∈ blanks', Text.isBlank c = true) : before = body ∧ blanks' = blanks := by
  have split := same.symm.trans ends.split
  rcases List.eq_nil_or_concat' behind with rfl | ⟨behind, final, rfl⟩
  · obtain ⟨rfl, one⟩ := List.append_inj' split rfl
    obtain rfl : token = last := List.singleton_inj.1 one
    have slash {cs : List Char} : ∀ c ∈ ('/' :: cs).head?, Text.isBlank c = false := by
      rintro _ ⟨⟩
      rfl
    have run : token.text.toList.takeWhile Text.isBlank = blanks' := by rw [text, Text.takeWhile_again blank slash]
    rw [ends.text, Text.takeWhile_again ends.blank slash] at run
    exact ⟨rfl, run.symm⟩
  · have inside : before ++ token :: behind = body := by
      have parts : (before ++ token :: behind) ++ [final] = body ++ [last] := by simpa using split
      exact (List.append_inj' parts rfl).1
    exact absurd (ends.others token (by simp [← inside])) (commented isBlank text)

/-- A token that is not the comment stands in front of it. -/
theorem spelled_isPrefix (ends : EndsInComment tokens body last blanks comment)
    (same : tokens = before ++ token :: behind) (other : token.isBlank = false) :
    spelled (before ++ [token]) <+: spelled body := by
  have begins : before ++ [token] <+: body ++ [last] := ⟨behind, by rw [← ends.split, same]; simp⟩
  rcases List.prefix_concat_iff.1 begins with whole | ⟨rest, rfl⟩
  · obtain rfl : token = last := List.singleton_inj.1 (List.append_inj_right' whole rfl)
    exact Bool.noConfusion (other.symm.trans ends.isBlank)
  · exact ⟨spelled rest, by simp [spelled]⟩

theorem outline (ends : EndsInComment tokens body last blanks comment) : last.outline = blanks ++ ['/'] := by
  obtain ⟨newline, kind⟩ := isBlank_iff.1 ends.isBlank
  have slash : ∀ c ∈ ('/' :: '/' :: comment).head?, Text.isBlank c = false := by
    rintro _ ⟨⟩
    rfl
  rw [Token.outline, kind, ends.text]
  dsimp only
  rw [Text.takeWhile_again ends.blank slash, Text.dropWhile_again ends.blank slash]
  rfl

end EndsInComment

theorem isBlank_of_holdsText (holds : token.kind.holdsText = true) : token.isBlank = false := by
  refine Bool.eq_false_iff.2 fun isBlank => ?_
  obtain ⟨newline, kind⟩ := isBlank_iff.1 isBlank
  rw [kind] at holds
  cases holds

/-- What is cut off as blank does not reach into a token that holds text. -/
theorem Tiles.trimEnd_whole {source : String} {origin : Position} {before behind : List Token} {kept : List Char}
    (tiles : Tiles 0 origin source.toList (lex source origin) rest)
    (same : (lex source origin).tokens = before ++ token :: behind) (holds : token.kind.holdsText = true)
    (begins : spelled (before ++ [token]) <+: kept) : spelled (before ++ [token]) <+: Text.trimEnd kept := by
  obtain ⟨c, tail, -, first⟩ := tiles.reads same
  have closed := lexeme_closed c tail
  rw [first] at closed
  obtain ⟨last, seen, front, text⟩ := closed holds
  have text : front ++ [last] = token.text.toList := text
  obtain ⟨more, rfl⟩ := begins
  have stays : Text.trimEnd (spelled (before ++ [token])) = spelled (before ++ [token]) := by
    have ends : spelled (before ++ [token]) = (spelled before ++ front) ++ [last] := by simp [spelled, ← text]
    rw [ends, Text.trimEnd_concat, if_neg (by simp [seen])]
  rw [Text.trimEnd_append, stays]
  split
  · exact List.prefix_rfl
  · exact List.prefix_append _ _

end Token

namespace Indented

/-- Two slashes next to each other stand behind a colon. -/
def SlashesApart (cs : List Char) : Prop :=
  ∀ front, front <+: cs → ['/', '/'] <:+ front → [':', '/', '/'] <:+ front

/-- The quote of a string stands in it behind a backslash only, and no backslash stands in front of the closing one. -/
structure PlainlyQuoted (quote : Char) (contents : List Char) : Prop where
  escaped : ∀ front, front <+: contents → [quote] <:+ front → ['\\', quote] <:+ front
  closed : ¬ ['\\'] <:+ contents

/-- A token whose quotes are those of a string. -/
def PlainToken (token : Token) : Prop :=
  match token.kind with
  | .quoted contents quote => PlainlyQuoted quote contents.toList
  | .blank _ => True
  | _ => '"' ∉ token.text.toList ∧ '\'' ∉ token.text.toList

/-- Tokens in which quotes and slashes mean what they seem to mean. -/
structure Legible (tokens : List Token) : Prop where
  quotes : ∀ token ∈ tokens, PlainToken token
  slashes : SlashesApart (tokens.flatMap Token.outline)

variable {c quote : Char} {cs before seen part contents : List Char} {tokens : List Token} {token : Token}
  {inside inside' inside'' : Option Char}

theorem SlashesApart.of_append (apart : SlashesApart (cs ++ part)) : SlashesApart cs :=
  fun front begins => apart front (begins.trans (List.prefix_append cs part))

theorem stripComment_quote (isQuote : c = '"' ∨ c = '\'') (before rest : List Char) :
    stripComment none before (c :: rest) = stripComment (some c) (c :: before) rest := by
  rw [stripComment.eq_def]
  exact if_pos isQuote

/-- Outside strings only a slash behind another one stops the scanner, unless that one stands behind a colon. -/
theorem stripComment_other (noQuote : ¬ (c = '"' ∨ c = '\''))
    (apart : ∀ earlier, c = '/' → before = '/' :: earlier → earlier.head? = some ':') (rest : List Char) :
    stripComment none before (c :: rest) = stripComment none (c :: before) rest := by
  rw [stripComment.eq_def]
  dsimp only
  rw [if_neg noQuote]
  split
  · next slash =>
    split
    · rfl
    · next earlier other =>
      have colon := apart earlier slash rfl
      cases earlier with
      | nil => cases colon
      | cons d earlier =>
        cases colon
        exact absurd rfl (other earlier)
    · rfl
  · rfl

theorem stripComment_slash {earlier : List Char} (bare : earlier.head? ≠ some ':') (rest : List Char) :
    stripComment none ('/' :: earlier) ('/' :: rest) = Text.trimEnd earlier.reverse := by
  rw [stripComment.eq_def]
  dsimp only
  rw [if_neg (by decide), if_pos rfl]
  split
  · next same =>
    cases same
    exact absurd rfl bare
  · next same =>
    cases same
    rfl
  · next other => exact absurd rfl (other earlier)

/-- Where the cut of a line lies: no earlier than before the last character that has been passed. -/
theorem stripComment_cut (inside : Option Char) (before cs : List Char) :
    ∃ kept, kept <+: before.reverse ++ cs ∧ stripComment inside before cs = Text.trimEnd kept ∧
      before.length ≤ kept.length + 1 := by
  induction cs generalizing inside before with
  | nil => exact ⟨before.reverse, by simp, by rw [stripComment], by simp⟩
  | cons c rest later =>
    have goes (inside : Option Char) : ∃ kept, kept <+: before.reverse ++ c :: rest ∧
        stripComment inside (c :: before) rest = Text.trimEnd kept ∧ before.length ≤ kept.length + 1 := by
      obtain ⟨kept, begins, same, length⟩ := later inside (c :: before)
      refine ⟨kept, by simpa using begins, same, ?_⟩
      rw [List.length_cons] at length
      omega
    cases inside with
    | some q =>
      rw [stripComment]
      exact goes _
    | none =>
      unfold stripComment
      split
      · exact goes _
      · split
        · split
          · exact goes _
          · next earlier _ => exact ⟨earlier.reverse, by simp, rfl, by simp⟩
          · exact goes _
        · exact goes _

/-- The scanner passes a part of a line without a cut. -/
def Passes (inside : Option Char) (before part : List Char) (inside' : Option Char) : Prop :=
  ∀ rest, stripComment inside before (part ++ rest) = stripComment inside' (part.reverse ++ before) rest

theorem Passes.nil : Passes inside before [] inside := fun _ => rfl

theorem Passes.append (first : Passes inside before part inside')
    (second : Passes inside' (part.reverse ++ before) cs inside'') : Passes inside before (part ++ cs) inside'' := by
  intro rest
  rw [List.append_assoc, first, second, List.reverse_append, List.append_assoc]

theorem Passes.cons (first : ∀ rest, stripComment inside before (c :: rest) = stripComment inside' (c :: before) rest)
    (second : Passes inside' (c :: before) part inside'') : Passes inside before (c :: part) inside'' := by
  have one : Passes inside before [c] inside' := first
  exact one.append second

/-! Strings -/

theorem passes_contents {done : List Char}
    (escaped : ∀ front, front <+: done ++ part → [quote] <:+ front → ['\\', quote] <:+ front) :
    Passes (some quote) (done.reverse ++ quote :: before) part (some quote) := by
  induction part generalizing done with
  | nil => exact .nil
  | cons c part later =>
    have shift : done ++ c :: part = (done ++ [c]) ++ part := by simp
    have stays : ¬ (c = quote ∧ (done.reverse ++ quote :: before).head? ≠ some '\\') := by
      rintro ⟨rfl, open_⟩
      obtain ⟨front, same⟩ := escaped (done ++ [c]) (by simp) (List.suffix_append done [c])
      have same : front ++ ['\\'] ++ [c] = done ++ [c] := by simpa using same
      obtain rfl := List.append_cancel_right same
      exact open_ (by simp)
    have first (rest : List Char) : stripComment (some quote) (done.reverse ++ quote :: before) (c :: rest) =
        stripComment (some quote) (c :: (done.reverse ++ quote :: before)) rest := by
      rw [stripComment, if_neg stays]
    rw [shift] at escaped
    exact .cons first (by simpa using later escaped)

theorem passes_string (isQuote : quote = '"' ∨ quote = '\'') (plainly : PlainlyQuoted quote contents) :
    Passes none before (quote :: contents ++ [quote]) none := by
  have opens : Passes none before [quote] (some quote) := by
    intro rest
    exact stripComment_quote isQuote before rest
  have middle : Passes (some quote) (quote :: before) contents (some quote) :=
    @passes_contents quote before contents [] plainly.escaped
  have closes : Passes (some quote) (contents.reverse ++ quote :: before) [quote] none := by
    intro rest
    have ends : quote = quote ∧ (contents.reverse ++ quote :: before).head? ≠ some '\\' := by
      refine ⟨rfl, fun backslash => ?_⟩
      rcases List.eq_nil_or_concat' contents with rfl | ⟨front, last, rfl⟩
      · obtain rfl : quote = '\\' := by simpa using backslash
        exact absurd isQuote (by decide)
      · obtain rfl : last = '\\' := by simpa using backslash
        exact plainly.closed (List.suffix_append front ['\\'])
    rw [List.singleton_append, stripComment, if_pos ends]
    rfl
  exact opens.append (middle.append closes)

/-! Text outside strings -/

/-- A text and its outline, the last character first. They are the same as far as the scanner looks back at a slash. -/
structure Agrees (before seen : List Char) : Prop where
  last : before.head? = seen.head?
  slash : before.head? = some '/' → before.tail.head? = seen.tail.head?

theorem Agrees.cons (agrees : Agrees before seen) (c : Char) : Agrees (c :: before) (c :: seen) :=
  ⟨rfl, fun _ => agrees.last⟩

theorem Agrees.append (agrees : Agrees before seen) (part : List Char) :
    Agrees (part.reverse ++ before) (part.reverse ++ seen) := by
  induction part generalizing before seen with
  | nil => exact agrees
  | cons c part later => simpa using later (agrees.cons c)

/-- Outside strings, slashes that stand apart do not stop the scanner. -/
theorem passes_plain (agrees : Agrees before seen) (noQuote : '"' ∉ part ∧ '\'' ∉ part)
    (apart : SlashesApart (seen.reverse ++ part)) : Passes none before part none := by
  induction part generalizing before seen with
  | nil => exact .nil
  | cons c part later =>
    simp only [List.mem_cons, not_or] at noQuote
    obtain ⟨⟨notDouble, double⟩, notSingle, single⟩ := noQuote
    have behind := later (agrees.cons c) ⟨double, single⟩ (by simpa using apart)
    refine .cons (stripComment_other (by simp [Ne.symm notDouble, Ne.symm notSingle]) ?_) behind
    rintro earlier rfl rfl
    -- The outline ends in the same slash, and what stands in front of that one there is the colon.
    have last : some '/' = seen.head? := agrees.last
    obtain ⟨shown, rfl⟩ : ∃ shown, seen = '/' :: shown := List.head?_eq_some_iff.1 last.symm
    have slash : earlier.head? = shown.head? := agrees.slash rfl
    obtain ⟨front, same⟩ := apart (shown.reverse ++ ['/', '/']) (by simp) (List.suffix_append _ _)
    have same : front ++ [':'] ++ ['/', '/'] = shown.reverse ++ ['/', '/'] := by simpa using same
    rw [slash, ← List.getLast?_reverse, ← List.append_cancel_right same, List.getLast?_concat]

/-! The tokens of a line -/

/-- Outside strings a token has its text for an outline, and no quotes. -/
theorem outline_cases (suits : token.kind.Suits token.text.toList) (plain : PlainToken token)
    (uncommented : token.Uncommented) :
    (∃ quote contents, (quote = '"' ∨ quote = '\'') ∧ PlainlyQuoted quote contents ∧
      token.text.toList = quote :: contents ++ [quote] ∧ token.outline = [quote, quote]) ∨
    (token.outline = token.text.toList ∧ '"' ∉ token.text.toList ∧ '\'' ∉ token.text.toList) := by
  unfold PlainToken at plain
  cases kind : token.kind with
  | quoted contents quote =>
    rw [kind] at suits plain
    exact .inl ⟨quote, contents.toList, suits.1, plain, suits.2, by rw [Token.outline, kind]⟩
  | blank newline =>
    have blanks := uncommented (Token.isBlank_iff.2 ⟨newline, kind⟩)
    have all : token.text.toList.takeWhile Text.isBlank = token.text.toList := List.takeWhile_eq_self_iff.2 blanks
    have none : token.text.toList.dropWhile Text.isBlank = [] := List.dropWhile_eq_nil_iff.2 blanks
    refine .inr ⟨by rw [Token.outline, kind, all, none, List.take_nil, List.append_nil], ?_, ?_⟩
    · exact fun member => absurd (blanks _ member) (by decide)
    · exact fun member => absurd (blanks _ member) (by decide)
  | _ =>
    rw [kind] at plain
    exact .inr ⟨by rw [Token.outline, kind], plain⟩

theorem passes_token (suits : token.kind.Suits token.text.toList) (plain : PlainToken token)
    (uncommented : token.Uncommented) (agrees : Agrees before seen)
    (apart : SlashesApart (seen.reverse ++ token.outline)) :
    Passes none before token.text.toList none ∧
      Agrees (token.text.toList.reverse ++ before) (token.outline.reverse ++ seen) := by
  rcases outline_cases suits plain uncommented with ⟨quote, contents, isQuote, plainly, text, outline⟩ | ⟨same, noQuote⟩
  · rw [text, outline]
    refine ⟨passes_string isQuote plainly, ⟨by simp, fun slash => ?_⟩⟩
    obtain rfl : quote = '/' := by simpa using slash
    exact absurd isQuote (by decide)
  · rw [same] at apart ⊢
    exact ⟨passes_plain agrees noQuote apart, agrees.append _⟩

/-- By induction on the tokens; the line and its outline agree behind each of them. -/
theorem passes_tokens (suits : ∀ token ∈ tokens, token.kind.Suits token.text.toList)
    (plain : ∀ token ∈ tokens, PlainToken token) (uncommented : ∀ token ∈ tokens, token.Uncommented)
    (agrees : Agrees before seen) (apart : SlashesApart (seen.reverse ++ tokens.flatMap Token.outline)) :
    Passes none before (Token.spelled tokens) none ∧
      Agrees ((Token.spelled tokens).reverse ++ before) ((tokens.flatMap Token.outline).reverse ++ seen) := by
  induction tokens generalizing before seen with
  | nil => exact ⟨.nil, agrees⟩
  | cons token tokens later =>
    rw [List.flatMap_cons, ← List.append_assoc] at apart
    obtain ⟨first, agrees⟩ := passes_token (suits token List.mem_cons_self) (plain token List.mem_cons_self)
      (uncommented token List.mem_cons_self) agrees apart.of_append
    obtain ⟨rest, agrees⟩ := later (fun token member => suits token (List.mem_cons_of_mem _ member))
      (fun token member => plain token (List.mem_cons_of_mem _ member))
      (fun token member => uncommented token (List.mem_cons_of_mem _ member)) agrees (by simpa using apart)
    rw [Token.spelled_cons, List.flatMap_cons]
    exact ⟨first.append rest, by simpa using agrees⟩

section Lines

variable {line : String} {origin : Position} {body : List Token} {last : Token} {blanks comment : List Char}

/-- The scanner passes a legible line up to the first slash of the comment. -/
theorem passes_commented (ends : Token.EndsInComment (lex line origin).tokens body last blanks comment)
    (legible : Legible (lex line origin).tokens) :
    Passes none [] (Token.spelled body ++ (blanks ++ ['/'])) none := by
  have suits : ∀ token ∈ (lex line origin).tokens, token.kind.Suits token.text.toList :=
    Token.scan_suits line.toList.length 0 origin line.toList
  have slashes := legible.slashes
  rw [ends.split, List.flatMap_append, List.flatMap_singleton, ends.outline] at slashes
  have inside : ∀ token ∈ body, token ∈ (lex line origin).tokens := by
    intro token member
    rw [ends.split]
    exact List.mem_append_left _ member
  have start : Agrees [] [] := ⟨rfl, nofun⟩
  obtain ⟨passes, agrees⟩ := passes_tokens (fun token member => suits token (inside token member))
    (fun token member => legible.quotes token (inside token member)) ends.others start slashes.of_append
  have noQuote {c : Char} (quote : Text.isBlank c = false) (other : c ≠ '/') : c ∉ blanks ++ ['/'] := by
    intro member
    rcases List.mem_append.1 member with blank | slash
    · exact Bool.noConfusion ((ends.blank c blank).symm.trans quote)
    · exact other (List.mem_singleton.1 slash)
  exact passes.append (passes_plain agrees ⟨noQuote rfl (by decide), noQuote rfl (by decide)⟩ (by simpa using slashes))

theorem stripComment_uncommented (covers : Token.spelled (lex line origin).tokens = line.toList)
    (quiet : ∀ token ∈ (lex line origin).tokens, token.Uncommented) (legible : Legible (lex line origin).tokens) :
    stripComment none [] line.toList = Text.trimEnd line.toList := by
  have suits : ∀ token ∈ (lex line origin).tokens, token.kind.Suits token.text.toList :=
    Token.scan_suits line.toList.length 0 origin line.toList
  have start : Agrees [] [] := ⟨rfl, nofun⟩
  have passes := (passes_tokens suits legible.quotes quiet start legible.slashes).1 []
  rw [covers, List.append_nil, List.append_nil] at passes
  rw [passes, stripComment, List.reverse_reverse]

/-- Where a legible line is cut that ends in a comment: in front of the comment, or in it if that stands behind a
colon. -/
theorem stripComment_commented (covers : Token.spelled (lex line origin).tokens = line.toList)
    (ends : Token.EndsInComment (lex line origin).tokens body last blanks comment)
    (legible : Legible (lex line origin).tokens) :
    ∃ kept, kept <+: line.toList ∧ stripComment none [] line.toList = Text.trimEnd kept ∧
      Token.spelled body ++ blanks <+: kept ∧
      (¬ [':'] <:+ Token.spelled body ++ blanks → kept = Token.spelled body ++ blanks) := by
  have whole : line.toList = Token.spelled body ++ (blanks ++ ['/']) ++ '/' :: comment := by
    rw [← covers, ends.split]
    simp [Token.spelled, ends.text]
  have passes := passes_commented ends legible ('/' :: comment)
  rw [← whole] at passes
  by_cases colon : [':'] <:+ Token.spelled body ++ blanks
  · obtain ⟨kept, begins, same, length⟩ := stripComment_cut none ((Token.spelled body ++ (blanks ++ ['/'])).reverse)
      ('/' :: comment)
    rw [List.reverse_reverse, ← whole] at begins
    rw [List.append_nil, same] at passes
    refine ⟨kept, begins, passes, ?_, fun other => absurd colon other⟩
    refine List.prefix_of_prefix_length_le ?_ begins ?_
    · exact ⟨'/' :: '/' :: comment, by simp [whole]⟩
    · simp only [List.length_reverse, List.length_append, List.length_singleton] at length ⊢
      omega
  · refine ⟨Token.spelled body ++ blanks, ⟨'/' :: '/' :: comment, by simp [whole]⟩, ?_, List.prefix_rfl, fun _ => rfl⟩
    have bare : (Token.spelled body ++ blanks).reverse.head? ≠ some ':' := by
      rw [List.head?_reverse]
      intro last
      obtain ⟨front, same⟩ := List.getLast?_eq_some_iff.1 last
      exact colon ⟨front, same.symm⟩
    have slash := stripComment_slash bare comment
    rw [List.reverse_reverse] at slash
    rw [passes, ← slash]
    simp

end Lines

/-- The comment at the end of a legible line is cut off where the tokens have it, unless it stands behind a colon. All
strings, addresses and block comments stay whole, and a line without a comment at its end stays as it is. -/
theorem stripComment_agrees_with_tokens {line : String} {origin : Position} (oneLine : '\n' ∉ line.toList)
    (sound : (lex line origin).error = none) (legible : Legible (lex line origin).tokens) :
    ∃ kept, kept <+: line.toList ∧ stripComment none [] line.toList = Text.trimEnd kept ∧
      (∀ before token behind, (lex line origin).tokens = before ++ token :: behind → token.kind.holdsText = true →
        Token.spelled (before ++ [token]) <+: Text.trimEnd kept) ∧
      (∀ before token behind blanks comment, (lex line origin).tokens = before ++ token :: behind →
        token.isBlank = true → token.text.toList = blanks ++ '/' :: '/' :: comment →
        (∀ c ∈ blanks, Text.isBlank c = true) → ¬ [':'] <:+ Token.spelled before ++ blanks →
        kept = Token.spelled before ++ blanks) ∧
      ((∀ token ∈ (lex line origin).tokens, token.Uncommented) → kept = line.toList) := by
  obtain ⟨rest, tiles⟩ := lex_tiles line origin
  obtain rfl := tiles.ends sound
  have covers := tiles.covers
  rw [List.append_nil] at covers
  rcases tiles.comment_cases oneLine with quiet | ⟨body, last, blanks, comment, ends⟩
  · refine ⟨line.toList, List.prefix_rfl, stripComment_uncommented covers quiet legible, ?_, ?_, fun _ => rfl⟩
    · intro before token behind same holds
      refine tiles.trimEnd_whole same holds ⟨Token.spelled behind, ?_⟩
      rw [← covers, same]
      simp [Token.spelled]
    · intro before token behind blanks comment same isBlank text
      exact absurd (quiet token (by simp [same])) (Token.commented isBlank text)
  · obtain ⟨kept, begins, same, passed, exactly⟩ := stripComment_commented covers ends legible
    refine ⟨kept, begins, same, ?_, ?_, ?_⟩
    · intro before token behind split holds
      have inFront := ends.spelled_isPrefix split (Token.isBlank_of_holdsText holds)
      exact tiles.trimEnd_whole split holds ((inFront.trans (List.prefix_append _ blanks)).trans passed)
    · intro before token behind blanks comment split isBlank text blank colon
      obtain ⟨rfl, rfl⟩ := ends.unique split isBlank text blank
      exact exactly colon
    · intro quiet
      exact absurd (quiet last (by simp [ends.split])) (Token.commented ends.isBlank ends.text)

instance (cs : List Char) : Decidable (SlashesApart cs) :=
  decidable_of_iff (∀ front ∈ cs.inits, ['/', '/'] <:+ front → [':', '/', '/'] <:+ front)
    (by simp [SlashesApart, List.mem_inits])

instance (quote : Char) (contents : List Char) : Decidable (PlainlyQuoted quote contents) :=
  decidable_of_iff ((∀ front ∈ contents.inits, [quote] <:+ front → ['\\', quote] <:+ front) ∧ ¬ ['\\'] <:+ contents)
    ⟨fun ⟨escaped, closed⟩ => ⟨by simpa [List.mem_inits] using escaped, closed⟩,
      fun ⟨escaped, closed⟩ => ⟨by simpa [List.mem_inits] using escaped, closed⟩⟩

instance (token : Token) : Decidable (PlainToken token) := by
  unfold PlainToken
  split <;> infer_instance

instance (tokens : List Token) : Decidable (Legible tokens) :=
  decidable_of_iff (_ ∧ _) ⟨fun ⟨quotes, slashes⟩ => ⟨quotes, slashes⟩, fun ⟨quotes, slashes⟩ => ⟨quotes, slashes⟩⟩

/-- Slashes in a string, with an escaped quote, and in an address behind a colon. -/
def sampleLine : String := "b: \"x\\\"//y\" url(http://c) /* d / */ // \"e"

theorem stripComment_agrees_with_tokens_sample :
    '\n' ∉ sampleLine.toList ∧ (lex sampleLine).error = none ∧ Legible (lex sampleLine).tokens ∧
      stripComment none [] sampleLine.toList = "b: \"x\\\"//y\" url(http://c) /* d / */".toList := by
  have oneLine : '\n' ∉ sampleLine.toList := by decide +kernel
  have sound : (lex sampleLine).error = none := by decide +kernel
  have legible : Legible (lex sampleLine).tokens := by decide +kernel
  obtain ⟨kept, -, same, -, comment, -⟩ := stripComment_agrees_with_tokens oneLine sound legible
  have some_token : (lex sampleLine).tokens ≠ [] := by decide +kernel
  have exactly := comment (lex sampleLine).tokens.dropLast ((lex sampleLine).tokens.getLast some_token) [] [' ']
    " \"e".toList (List.dropLast_append_getLast some_token).symm (by decide +kernel +revert)
    (by decide +kernel +revert) (List.forall_mem_singleton.2 rfl) (by decide +kernel)
  rw [exactly] at same
  exact ⟨oneLine, sound, legible, same.trans (by decide +kernel)⟩

/-- The address has no comment in it, and its slashes are not those of one. -/
theorem stripComment_cuts_address :
    '\n' ∉ "url(//x.y/z)".toList ∧ (lex "url(//x.y/z)").error = none ∧
      (lex "url(//x.y/z)").tokens.map Token.kind = [.url "//x.y/z"] ∧
      stripComment none [] "url(//x.y/z)".toList = "url(".toList := by
  decide +kernel

end Indented

end Stylesheet
