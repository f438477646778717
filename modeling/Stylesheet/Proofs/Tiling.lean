import Mathlib.Tactic.Common
import Stylesheet.Token.Lexer

/-! Tokens cover their text. Each scanner cuts off a part from the front of its text, so the tokens, put together, spell
the text up to its end or up to a comment or a string that has no end, and each of them begins where the one before it
ends. -/

namespace Stylesheet

namespace Token

variable {c : Char} {rest cs taken left : List Char}

/-! What the scanners cut off -/

theorem scanName_append (cs : List Char) : (scanName cs).1 ++ (scanName cs).2 = cs := by
  fun_induction scanName cs with
  | case1 c rest taken left scanned ih => simpa [scanned] using ih
  | case2 c rest _ _ taken left scanned ih => simpa [scanned] using ih
  | case3 => rfl
  | case4 => rfl

theorem scanName_ne_nil (start : isNameChar c = true) : (scanName (c :: rest)).1 ≠ [] := by
  rw [scanName.eq_def]
  split
  · next same => simp
  · next same =>
    cases same
    simp [start]
  · next same => cases same

/-- Whether a text begins with a blank character or a line comment. -/
def startsBlank : List Char → Bool
  | c :: rest => Text.isBlank c || (c == '/' && rest.head?.any (· == '/'))
  | [] => false

theorem startsBlank_cons :
    startsBlank (c :: rest) = true ↔ Text.isBlank c = true ∨ c = '/' ∧ ∃ tail, rest = '/' :: tail := by
  cases rest with
  | nil => simp [startsBlank]
  | cons d rest => simp [startsBlank]

theorem scanBlank_append (inComment : Bool) (cs : List Char) :
    (scanBlank inComment cs).1 ++ (scanBlank inComment cs).2 = cs := by
  fun_induction scanBlank inComment cs with
  | case1 rest taken left scanned ih => simpa [scanned] using ih
  | case2 inComment c rest _ _ taken left scanned ih => simpa [scanned] using ih
  | case3 => rfl
  | case4 => rfl

theorem scanBlank_ne_nil (blank : startsBlank cs = true) : (scanBlank false cs).1 ≠ [] := by
  rw [scanBlank.eq_def]
  split
  · simp
  · next c rest other =>
    rcases startsBlank_cons.1 blank with plain | ⟨rfl, tail, rfl⟩
    · simp [plain]
    · exact absurd rfl (other tail rfl rfl)
  · simp [startsBlank] at blank

/-- A run of blanks is as long as it can be. -/
theorem startsBlank_scanBlank (inComment : Bool) (cs : List Char) : startsBlank (scanBlank inComment cs).2 = false := by
  fun_induction scanBlank inComment cs with
  | case1 rest taken left scanned ih => simpa [scanned] using ih
  | case2 inComment c rest _ _ taken left scanned ih => simpa [scanned] using ih
  | case3 inComment c rest other printing =>
    simp only [Bool.or_eq_true, not_or, Bool.not_eq_true] at printing
    refine Bool.eq_false_iff.2 fun blank => ?_
    rcases startsBlank_cons.1 blank with plain | ⟨rfl, tail, rfl⟩
    · exact absurd plain (by simp [printing.1])
    · exact other tail printing.2 rfl rfl
  | case4 => rfl

theorem scanComment_append (scanned : scanComment cs = some (taken, left)) : taken ++ left = cs := by
  fun_induction scanComment cs generalizing taken left with
  | case1 rest =>
    cases scanned
    rfl
  | case2 c rest _ ih =>
    obtain ⟨⟨inner, after⟩, found, same⟩ := Option.map_eq_some_iff.1 scanned
    cases same
    exact congrArg (c :: ·) (ih found)
  | case3 => cases scanned

/-- A block comment that has an end is found to have one. -/
theorem scanComment_none (scanned : scanComment cs = none) : ¬ ['*', '/'] <:+: cs := by
  fun_induction scanComment cs with
  | case1 => cases scanned
  | case2 c rest other ih =>
    have later := ih (Option.map_eq_none_iff.1 scanned)
    rintro ⟨before, after, same⟩
    cases before with
    | nil =>
      cases same
      exact other after rfl rfl
    | cons d before =>
      cases same
      exact later ⟨before, after, rfl⟩
  | case3 => simp

/-- Where a string ends, or where an interpolation in it begins that has no end. -/
def QuotedScan.Cuts (quote : Char) (cs : List Char) : QuotedScan → Prop
  | closed contents left => contents ++ quote :: left = cs
  | unclosedCode before => before ++ ['#', '{'] <+: cs
  | unclosed | insideCode => True

theorem QuotedScan.Cuts.cons {quote : Char} {scan : QuotedScan} (cuts : scan.Cuts quote cs) (c : Char) :
    (scan.cons c).Cuts quote (c :: cs) := by
  cases scan with
  | closed contents left => exact congrArg (c :: ·) cuts
  | unclosedCode before => exact (List.prefix_cons_inj c).2 cuts
  | unclosed | insideCode => trivial

theorem QuotedScan.Cuts.openCode {quote : Char} {scan : QuotedScan} (cuts : scan.Cuts quote cs) :
    scan.openCode.Cuts quote ('#' :: '{' :: cs) := by
  cases scan with
  | insideCode => exact ⟨cs, rfl⟩
  | closed | unclosed | unclosedCode => exact (cuts.cons '{').cons '#'

theorem QuotedScan.openCode_ne (scan : QuotedScan) : scan.openCode ≠ insideCode := by
  cases scan <;> simp [openCode, cons]

theorem QuotedScan.cons_ne {scan : QuotedScan} (other : scan ≠ insideCode) (c : Char) : scan.cons c ≠ insideCode := by
  cases scan with
  | insideCode => exact absurd rfl other
  | closed | unclosed | unclosedCode => simp [QuotedScan.cons]

/-- By induction on the text; a string and the interpolations in it are scanned in turn. -/
theorem scanQuoted_cuts (quote : Char) :
    (∀ cs, (scanQuoted quote cs).Cuts quote cs ∧ scanQuoted quote cs ≠ .insideCode) ∧
      ∀ depth inner cs, (scanQuotedCode quote depth inner cs).Cuts quote cs := by
  apply scanQuoted.mutual_induct quote
  · intro c rest ⟨cuts, other⟩
    exact ⟨(cuts.cons c).cons '\\', QuotedScan.cons_ne (QuotedScan.cons_ne other c) '\\'⟩
  · intro rest cuts
    exact ⟨cuts.openCode, QuotedScan.openCode_ne _⟩
  · intro rest plain code
    have closed : scanQuoted quote (quote :: rest) = .closed [] rest := by
      rw [scanQuoted.eq_3 quote quote rest plain code, if_pos rfl]
    rw [closed]
    exact ⟨rfl, nofun⟩
  · intro rest plain code other
    have open_ : scanQuoted quote ('\n' :: rest) = .unclosed := by
      rw [scanQuoted.eq_3 quote '\n' rest plain code, if_neg other, if_pos rfl]
    rw [open_]
    exact ⟨trivial, nofun⟩
  · intro c rest plain code other inLine ⟨cuts, inside⟩
    rw [scanQuoted.eq_3 quote c rest plain code, if_neg other, if_neg inLine]
    exact ⟨cuts.cons c, QuotedScan.cons_ne inside c⟩
  · exact ⟨trivial, nofun⟩
  · intro depth inner
    rw [scanQuotedCode.eq_1]
    trivial
  · intro depth q c rest cuts
    exact (cuts.cons c).cons '\\'
  · intro depth q c rest plain cuts
    rw [scanQuotedCode.eq_3 quote depth q c rest plain]
    exact cuts.cons c
  · intro depth c rest ends cuts
    rw [scanQuotedCode.eq_4, if_pos ends]
    exact cuts.1.cons c
  · intro depth c rest goes inner deeper cuts
    rw [scanQuotedCode.eq_4, if_neg goes]
    exact cuts.cons c

theorem scanNumber_append (cs : List Char) :
    (scanNumber cs).1 ++ (if (scanNumber cs).2.1.isEmpty then [] else '.' :: (scanNumber cs).2.1) ++ (scanNumber cs).2.2 =
      cs := by
  have whole : cs.takeWhile Char.isDigit ++ cs.dropWhile Char.isDigit = cs := List.takeWhile_append_dropWhile
  unfold scanNumber
  dsimp only
  split
  · next c rest behind =>
    split
    · next digit =>
      have fraction : (c :: rest).takeWhile Char.isDigit ++ (c :: rest).dropWhile Char.isDigit = c :: rest :=
        List.takeWhile_append_dropWhile
      have nonempty : ((c :: rest).takeWhile Char.isDigit).isEmpty = false := by simp [digit]
      rw [nonempty, if_neg Bool.false_ne_true, List.append_assoc, List.cons_append, fraction, ← behind, whole]
    · next other => simpa [behind] using whole
  · simp

theorem scanUnit_append (cs : List Char) : (scanUnit cs).1 ++ (scanUnit cs).2 = cs := by
  unfold scanUnit
  split
  · rfl
  · exact List.takeWhile_append_dropWhile

theorem scanUrl_append {depth : Nat} (scanned : scanUrl depth cs = some (taken, left)) : taken ++ left = cs := by
  induction cs generalizing depth taken left with
  | nil => cases scanned
  | cons c rest later =>
    rw [scanUrl] at scanned
    split at scanned
    · cases scanned
      rfl
    · split at scanned
      · cases scanned
      · obtain ⟨⟨inner, after⟩, found, same⟩ := Option.map_eq_some_iff.1 scanned
        cases same
        exact congrArg (c :: ·) (later found)

/-! The first token of a text -/

/-- A token takes a part from the front of its text. -/
structure Lexeme.Cuts (lexeme : Lexeme) (cs : List Char) : Prop where
  covers : lexeme.taken ++ lexeme.left = cs
  nonempty : lexeme.taken ≠ []

theorem named_cuts (kind : String → TokenKind) {sign cs : List Char}
    (nonempty : sign = [] → (scanName cs).1 ≠ []) : (named kind sign cs).Cuts (sign ++ cs) := by
  refine ⟨?_, ?_⟩
  · simp only [named, List.append_assoc, scanName_append]
  · simp only [named, ne_eq, List.append_eq_nil_iff, not_and]
    exact nonempty

theorem blankLexeme_cuts (blank : startsBlank cs = true) : (blankLexeme cs).Cuts cs :=
  ⟨scanBlank_append false cs, scanBlank_ne_nil blank⟩

theorem numberLexeme_cuts (nonempty : (numberLexeme cs).taken ≠ []) : (numberLexeme cs).Cuts cs := by
  refine ⟨?_, nonempty⟩
  have number := scanNumber_append cs
  have unit := scanUnit_append (scanNumber cs).2.2
  simp only [numberLexeme, List.append_assoc, unit]
  simpa only [List.append_assoc] using number

theorem numberLexeme_ne_nil (digits : (c.isDigit || (c == '.' && rest.head?.any Char.isDigit)) = true) :
    (numberLexeme (c :: rest)).taken ≠ [] := by
  cases digit : c.isDigit with
  | true => 
    have whole : (scanNumber (c :: rest)).1 ≠ [] := by
      unfold scanNumber
      dsimp only
      split
      · split <;> simp [digit]
      · simp [digit]
    simp [numberLexeme, whole]
  | false =>
    rw [digit, Bool.false_or, Bool.and_eq_true, beq_iff_eq] at digits
    obtain ⟨rfl, second⟩ := digits
    cases rest with
    | nil => cases second
    | cons d tail =>
      have second : d.isDigit = true := second
      simp [numberLexeme, scanNumber, second]

/-- A word is no blank, nor is an address. -/
theorem wordLexeme_printing (cs : List Char) (newline : Bool) : (wordLexeme cs).kind ≠ .blank newline := by
  unfold wordLexeme
  dsimp only
  split
  · split
    · split <;> simp
    · simp
  · simp

theorem wordLexeme_cuts (start : isNameStart c = true) : (wordLexeme (c :: rest)).Cuts (c :: rest) := by
  have name := scanName_append (c :: rest)
  have nonempty : (scanName (c :: rest)).1 ≠ [] := scanName_ne_nil (by simp [isNameChar, start])
  have word : Lexeme.Cuts ⟨.ident (String.ofList (scanName (c :: rest)).1), (scanName (c :: rest)).1,
    (scanName (c :: rest)).2⟩ (c :: rest) := ⟨name, nonempty⟩
  unfold wordLexeme
  dsimp only
  split
  · next tail behind =>
    split
    · split
      · next taken left scanned =>
        have argument := scanUrl_append scanned
        refine ⟨?_, by simp⟩
        simp only [List.append_assoc, List.cons_append, argument, ← behind, name]
      · exact word
    · exact word
  · exact word

/-- A comment or a string without an end at the front of a text. An interpolation without an end stands in a string, and
the fault is where it begins. -/
inductive Unclosed : List Char → Fault → Prop
  | comment {cs : List Char} (endless : ¬ ['*', '/'] <:+: cs) : Unclosed ('/' :: '*' :: cs) ⟨.comment, []⟩
  | string {quote : Char} {cs : List Char} (isQuote : quote = '"' ∨ quote = '\'')
    (endless : scanQuoted quote cs = .unclosed) : Unclosed (quote :: cs) ⟨.string, []⟩
  | interpolation {quote : Char} {cs before : List Char} (isQuote : quote = '"' ∨ quote = '\'')
    (endless : scanQuoted quote cs = .unclosedCode before) (inside : before ++ ['#', '{'] <+: cs) :
    Unclosed (quote :: cs) ⟨.interpolation, quote :: before⟩

/-- What is known of the first token of a text, or of what is there instead. -/
def Reads (cs : List Char) : Except Fault Lexeme → Prop
  | .ok lexeme => lexeme.Cuts cs ∧
      ∀ newline, lexeme.kind = .blank newline → startsBlank cs = true ∧ lexeme = blankLexeme cs
  | .error fault => Unclosed cs fault

theorem Reads.of_cuts {lexeme : Lexeme} (cuts : lexeme.Cuts cs)
    (printing : ∀ newline, lexeme.kind ≠ .blank newline) : Reads cs (.ok lexeme) :=
  ⟨cuts, fun newline blank => absurd blank (printing newline)⟩

theorem Reads.ite {p : Prop} [Decidable p] {yes no : Except Fault Lexeme} (holds : p → Reads cs yes)
    (fails : ¬ p → Reads cs no) : Reads cs (if p then yes else no) := by
  split
  · next h => exact holds h
  · next h => exact fails h

theorem lexeme_reads (c : Char) (rest : List Char) : Reads (c :: rest) (lexeme c rest) := by
  have headed {p : Char → Bool} (second : rest.head?.any p = true) : ∃ d tail, rest = d :: tail ∧ p d = true := by
    cases rest with
    | nil => cases second
    | cons d tail => exact ⟨d, tail, rfl, second⟩
  unfold lexeme
  refine .ite (fun blank => ⟨blankLexeme_cuts blank, fun _ _ => ⟨blank, rfl⟩⟩) fun _ => ?_
  refine .ite (fun opens => ?_) fun _ => ?_
  · obtain ⟨slash, second⟩ := Bool.and_eq_true_iff.1 opens
    obtain rfl := eq_of_beq slash
    obtain ⟨d, tail, rfl, star⟩ := headed second
    obtain rfl := eq_of_beq star
    split
    · next taken left scanned =>
      refine .of_cuts ⟨?_, by simp⟩ (by simp)
      simpa using scanComment_append scanned
    · next endless => exact .comment (scanComment_none endless)
  refine .ite (fun quoted => ?_) fun _ => ?_
  · have isQuote : c = '"' ∨ c = '\'' := by simpa using quoted
    obtain ⟨cuts, inside⟩ := (scanQuoted_cuts c).1 rest
    cases scanned : scanQuoted c rest with
    | closed contents left =>
      have covers : contents ++ c :: left = rest := by rwa [scanned] at cuts
      exact .of_cuts ⟨by simp [covers], by simp⟩ (by simp)
    | unclosed => exact .string isQuote scanned
    | insideCode => exact absurd scanned inside
    | unclosedCode before =>
      rw [scanned] at cuts
      exact .interpolation isQuote scanned cuts
  refine .ite (fun opens => .of_cuts (named_cuts .variable (by simp)) (by simp [named])) fun _ => ?_
  refine .ite (fun opens => .of_cuts (named_cuts .atKeyword (by simp)) (by simp [named])) fun _ => ?_
  refine .ite (fun opens => ?_) fun _ => ?_
  · obtain ⟨sign, second⟩ := Bool.and_eq_true_iff.1 opens
    obtain rfl := eq_of_beq sign
    obtain ⟨d, tail, rfl, brace⟩ := headed second
    obtain rfl := eq_of_beq brace
    exact .of_cuts ⟨rfl, by simp⟩ (by simp)
  refine .ite (fun opens => .of_cuts (named_cuts .hash (by simp)) (by simp [named])) fun _ => ?_
  refine .ite (fun digits => .of_cuts (numberLexeme_cuts (numberLexeme_ne_nil digits)) (by simp [numberLexeme]))
    fun _ => ?_
  refine .ite (fun opens => ?_) fun _ => ?_
  · obtain rfl := eq_of_beq (Bool.and_eq_true_iff.1 opens).1
    have nonempty : (scanName ('-' :: rest)).1 ≠ [] := scanName_ne_nil (by decide)
    exact .of_cuts (named_cuts .ident fun _ => nonempty) (by simp [named])
  refine .ite (fun start => .of_cuts (wordLexeme_cuts start) (wordLexeme_printing _)) fun _ => ?_
  dsimp only
  split
  · next relation known =>
    split at known
    · next second =>
      obtain ⟨d, tail, rfl, equals⟩ := headed second
      obtain rfl := eq_of_beq equals
      exact .of_cuts ⟨rfl, by simp⟩ (by simp)
    · cases known
  · exact .of_cuts ⟨rfl, by simp⟩ (by simp)

/-! The tokens of a text -/

theorem isBlank_iff {token : Token} : token.isBlank = true ↔ ∃ newline, token.kind = .blank newline := by
  unfold isBlank
  split
  · next newline known => simp [known]
  · next other => simpa using other

/-- The characters of some tokens, one token behind the other. -/
def spelled (tokens : List Token) : List Char := tokens.flatMap (·.text.toList)

@[simp] theorem spelled_cons (token : Token) (tokens : List Token) :
    spelled (token :: tokens) = token.text.toList ++ spelled tokens := List.flatMap_cons

/-- Where a token stands: `before` is the text between the begin of a source and the token. -/
structure StandsBehind (before : List Char) (offset : Nat) (origin : Position) (token : Token) : Prop where
  nonempty : token.text ≠ ""
  start : token.start = offset + (String.ofList before).utf8ByteSize
  stop : token.stop = offset + (String.ofList (before ++ token.text.toList)).utf8ByteSize
  pos : token.pos = origin.after before
  endPos : token.endPos = origin.after (before ++ token.text.toList)
  newline : ∀ newline, token.kind = .blank newline → (newline = true ↔ '\n' ∈ token.text.toList)

/-- The tokens of a text follow each other without a gap, up to the end of the text or to what has no end. -/
structure Tiles (offset : Nat) (origin : Position) (cs : List Char) (lexed : Lexed) (rest : List Char) : Prop where
  covers : spelled lexed.tokens ++ rest = cs
  stands : ∀ before token behind, lexed.tokens = before ++ token :: behind →
    StandsBehind (spelled before) offset origin token
  apart : lexed.tokens.IsChain fun first second => first.isBlank = true → second.isBlank = false
  ends : lexed.error = none → rest = []
  fails : ∀ error, lexed.error = some error → ∃ fault, Unclosed rest fault ∧
    error = ⟨fault.construct, origin.after (spelled lexed.tokens ++ fault.before)⟩

theorem StandsBehind.shift {first token : Token} {before : List Char} {offset : Nat} {origin : Position}
    (begins : StandsBehind [] offset origin first)
    (stands : StandsBehind before first.stop first.endPos token) :
    StandsBehind (first.text.toList ++ before) offset origin token := by
  have stop := begins.stop
  have endPos := begins.endPos
  rw [List.nil_append] at stop endPos
  refine ⟨stands.nonempty, ?_, ?_, ?_, ?_, stands.newline⟩
  · simp only [stands.start, stop, String.ofList_append, String.utf8ByteSize_append, Nat.add_assoc]
  · simp only [stands.stop, stop, String.ofList_append, String.utf8ByteSize_append, Nat.add_assoc]
  · rw [stands.pos, endPos, Position.after_append]
  · rw [stands.endPos, endPos, List.append_assoc, ← Position.after_append]

/-- One more token in front of others. -/
theorem Tiles.cons {token : Token} {tokens : List Token} {error : Option LexError} {offset : Nat} {origin : Position}
    (begins : StandsBehind [] offset origin token)
    (tiles : Tiles token.stop token.endPos left ⟨tokens, error⟩ rest)
    (apart : ∀ second behind, tokens = second :: behind → token.isBlank = true → second.isBlank = false) :
    Tiles offset origin (token.text.toList ++ left) ⟨token :: tokens, error⟩ rest := by
  refine ⟨?_, ?_, ?_, tiles.ends, ?_⟩
  · rw [spelled_cons, List.append_assoc, tiles.covers]
  · intro before other behind same
    cases before with
    | nil =>
      cases same
      exact begins
    | cons first before =>
      cases same
      exact begins.shift (tiles.stands before other behind rfl)
  · cases tokens with
    | nil => exact .singleton token
    | cons second behind => exact .cons_cons (apart second behind rfl) tiles.apart
  · intro found known
    obtain ⟨fault, unclosed, same⟩ := tiles.fails found known
    have endPos := begins.endPos
    rw [List.nil_append] at endPos
    refine ⟨fault, unclosed, ?_⟩
    rw [same, endPos, spelled_cons, List.append_assoc, ← Position.after_append]

theorem tiles_nil (offset : Nat) (origin : Position) : Tiles offset origin [] ⟨[], none⟩ [] :=
  ⟨rfl, by simp, .nil, fun _ => rfl, nofun⟩

theorem scan_cons (steps offset : Nat) (pos : Position) (c : Char) (rest : List Char) :
    scan (steps + 1) offset pos (c :: rest) =
      match lexeme c rest with
      | .error fault => ⟨[], some ⟨fault.construct, pos.after fault.before⟩⟩
      | .ok ⟨kind, taken, left⟩ =>
        let token : Token := ⟨kind, String.ofList taken, offset, pos, pos.after taken⟩
        let more := scan steps token.stop token.endPos left
        ⟨token :: more.tokens, more.error⟩ := (rfl)

/-- By induction on the steps, of which there are enough. A run of blanks is followed by no blank. -/
theorem scan_tiles {steps : Nat} (enough : cs.length ≤ steps) (offset : Nat) (origin : Position) :
    (∃ rest, Tiles offset origin cs (scan steps offset origin cs) rest) ∧
      ∀ token behind, (scan steps offset origin cs).tokens = token :: behind → token.isBlank = true →
        startsBlank cs = true := by
  induction steps generalizing offset origin cs with
  | zero =>
    obtain rfl := List.eq_nil_of_length_eq_zero (Nat.le_zero.1 enough)
    exact ⟨⟨[], tiles_nil offset origin⟩, nofun⟩
  | succ steps shorter =>
    cases cs with
    | nil => exact ⟨⟨[], tiles_nil offset origin⟩, nofun⟩
    | cons c rest =>
      have reads : Reads (c :: rest) (lexeme c rest) := lexeme_reads c rest
      rw [scan_cons]
      generalize lexeme c rest = result at reads
      cases result with
      | error fault =>
        refine ⟨⟨c :: rest, rfl, by simp, .nil, nofun, ?_⟩, nofun⟩
        rintro _ ⟨⟩
        exact ⟨fault, reads, rfl⟩
      | ok first =>
        obtain ⟨kind, taken, left⟩ := first
        have covers : taken ++ left = c :: rest := reads.1.covers
        have nonempty : taken ≠ [] := reads.1.nonempty
        let token : Token := ⟨kind, String.ofList taken, offset, origin, origin.after taken⟩
        have text : token.text.toList = taken := String.toList_ofList
        have blank {token' : Token} (same : token'.kind = kind) (isBlank : token'.isBlank = true) :
            startsBlank (c :: rest) = true ∧ startsBlank left = false := by
          obtain ⟨newline, known⟩ := isBlank_iff.1 isBlank
          obtain ⟨starts, run⟩ := reads.2 newline (same.symm.trans known)
          cases run
          exact ⟨starts, startsBlank_scanBlank false _⟩
        have shrinks : left.length ≤ steps := by
          have lengths := congrArg List.length covers
          have := List.length_pos_iff.2 nonempty
          simp only [List.length_append, List.length_cons] at lengths enough
          omega
        obtain ⟨⟨tail, tiles⟩, head⟩ := shorter shrinks token.stop token.endPos
        have begins : StandsBehind [] offset origin token := by
          refine ⟨?_, rfl, ?_, rfl, ?_, ?_⟩
          · exact fun empty => nonempty (text ▸ String.toList_eq_nil_iff.2 empty)
          · rw [List.nil_append, text]
            rfl
          · rw [List.nil_append, text]
          · intro newline known
            have known : kind = .blank newline := known
            obtain ⟨-, run⟩ := reads.2 newline known
            have flag := congrArg Lexeme.kind run
            have blanks := congrArg Lexeme.taken run
            simp only [blankLexeme] at flag blanks
            rw [known, ← blanks, TokenKind.blank.injEq] at flag
            rw [flag, text, List.contains_iff_mem]
        refine ⟨⟨tail, ?_⟩, ?_⟩
        · have all := tiles.cons begins ?_
          · rwa [text, covers] at all
          · intro second behind same isBlank
            by_contra again
            have starts := head second behind same (by simpa using again)
            rw [(blank rfl isBlank).2] at starts
            cases starts
        · rintro _ _ ⟨⟩ isBlank
          exact (blank rfl isBlank).1

end Token

/-- The tokens of a text tile it from the origin on: all of it, or all in front of the comment or string without an
end that the error is about. -/
theorem lex_tiles (source : String) (origin : Position) :
    ∃ rest, Token.Tiles 0 origin source.toList (lex source origin) rest := by
  have enough : source.toList.length ≤ source.toList.length := Nat.le_refl _
  exact (Token.scan_tiles enough 0 origin).1

end Stylesheet
