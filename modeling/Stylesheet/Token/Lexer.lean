import Stylesheet.Decimal
import Stylesheet.Text.Blank
import Stylesheet.Token

/-! Reading tokens. Each scanner cuts its text in two: the characters it takes and those it leaves. The first
character, and at most one more, decides which scanner reads the next token. -/

namespace Stylesheet.Token

def isNameStart (c : Char) : Bool :=
  c.isAlpha || c == '_' || c == '\\' || c.toNat ≥ 128

def isNameChar (c : Char) : Bool :=
  isNameStart c || c.isDigit || c == '-'

theorem isNameChar_of_isNameStart {c : Char} (start : isNameStart c = true) : isNameChar c = true := by
  rw [isNameChar, start]
  rfl

theorem isDigit_of_isNameStart {c : Char} (start : isNameStart c = true) : c.isDigit = false := by
  refine Bool.eq_false_iff.2 fun digit => ?_
  have digit : 48 ≤ c.toNat ∧ c.toNat ≤ 57 := Char.isDigit_iff_toNat.1 digit
  have value : c.toNat = c.val.toNat := rfl
  have alpha : c.isAlpha = (decide (c.val ≥ 'A'.val ∧ c.val ≤ 'Z'.val) ||
    (decide (c.val ≥ 'a'.val) && decide (c.val ≤ 'z'.val))) := rfl
  simp only [isNameStart, alpha, Bool.or_eq_true, Bool.and_eq_true, decide_eq_true_eq, beq_iff_eq, ge_iff_le,
    UInt32.le_iff_toNat_le] at start
  rcases start with ((letter | rfl) | rfl) | beyond
  · have upper : 'A'.val.toNat = 65 := rfl
    have lower : 'a'.val.toNat = 97 := rfl
    omega
  · exact absurd digit (by decide)
  · exact absurd digit (by decide)
  · omega

/-- A name. A backslash takes the character behind it along, whatever that is. -/
def scanName : List Char → List Char × List Char
  | '\\' :: c :: rest => let (taken, left) := scanName rest; ('\\' :: c :: taken, left)
  | c :: rest =>
    if isNameChar c then let (taken, left) := scanName rest; (c :: taken, left) else ([], c :: rest)
  | [] => ([], [])

/-- Blank characters and line comments. The line feed behind a comment is blank and does not belong to it. -/
def scanBlank : (inComment : Bool) → List Char → List Char × List Char
  | false, '/' :: '/' :: rest => let (taken, left) := scanBlank true rest; ('/' :: '/' :: taken, left)
  | inComment, c :: rest =>
    if Text.isBlank c || inComment then
      let (taken, left) := scanBlank (inComment && c != '\n') rest
      (c :: taken, left)
    else ([], c :: rest)
  | _, [] => ([], [])

/-- The rest of a block comment through its end. -/
def scanComment : List Char → Option (List Char × List Char)
  | '*' :: '/' :: rest => some (['*', '/'], rest)
  | c :: rest => (scanComment rest).map fun (taken, left) => (c :: taken, left)
  | [] => none

theorem scanComment_closed {cs taken left : List Char} (scanned : scanComment cs = some (taken, left)) :
    ['*', '/'] <:+ taken := by
  fun_induction scanComment cs generalizing taken left with
  | case1 rest =>
    cases scanned
    exact List.suffix_rfl
  | case2 c rest _ ih =>
    obtain ⟨⟨inner, after⟩, found, same⟩ := Option.map_eq_some_iff.1 scanned
    cases same
    exact (ih found).trans (List.suffix_cons c inner)
  | case3 => cases scanned

/-- What became of a string behind its opening quote. -/
inductive QuotedScan where
  | closed (contents left : List Char)
  | unclosed
  /-- The interpolation that the text is in the middle of has no end. -/
  | insideCode
  /-- An interpolation of the string has no end; `before` stands between the opening quote and it. -/
  | unclosedCode (before : List Char)

namespace QuotedScan

def cons (c : Char) : QuotedScan → QuotedScan
  | closed contents left => closed (c :: contents) left
  | unclosed => unclosed
  | insideCode => insideCode
  | unclosedCode before => unclosedCode (c :: before)

def openCode : QuotedScan → QuotedScan
  | insideCode => unclosedCode []
  | outcome => (outcome.cons '{').cons '#'

end QuotedScan

mutual

/-- The contents of a string up to its closing quote. A line feed must be escaped. -/
def scanQuoted (quote : Char) : List Char → QuotedScan
  | '\\' :: c :: rest => ((scanQuoted quote rest).cons c).cons '\\'
  | '#' :: '{' :: rest => (scanQuotedCode quote 0 none rest).openCode
  | c :: rest =>
    if c = quote then .closed [] rest
    else if c = '\n' then .unclosed
    else (scanQuoted quote rest).cons c
  | [] => .unclosed
  termination_by structural cs => cs

/-- The rest of an interpolation, and then of the string around it. `depth` counts the braces opened inside the
interpolation, and `inner` is the quote of the string that the interpolation is in the middle of. -/
def scanQuotedCode (quote : Char) : (depth : Nat) → (inner : Option Char) → List Char → QuotedScan
  | _, _, [] => .insideCode
  | depth, some q, '\\' :: c :: rest => ((scanQuotedCode quote depth (some q) rest).cons c).cons '\\'
  | depth, some q, c :: rest => (scanQuotedCode quote depth (if c = q then none else some q) rest).cons c
  | depth, none, c :: rest =>
    if c = '}' ∧ depth = 0 then (scanQuoted quote rest).cons c
    else
      let inner := if c = '"' ∨ c = '\'' then some c else none
      let depth := if c = '{' then depth + 1 else if c = '}' then depth - 1 else depth
      (scanQuotedCode quote depth inner rest).cons c
  termination_by structural _ _ cs => cs

end

/-- A number in its longest spelling: digits with an optional fraction, or a fraction alone. -/
def scanNumber (cs : List Char) : List Char × List Char × List Char :=
  let whole := cs.takeWhile Char.isDigit
  match cs.dropWhile Char.isDigit with
  | '.' :: c :: rest =>
    if c.isDigit then (whole, (c :: rest).takeWhile Char.isDigit, (c :: rest).dropWhile Char.isDigit)
    else (whole, [], '.' :: c :: rest)
  | left => (whole, [], left)

/-- The unit behind a number: a percent sign or letters. -/
def scanUnit : List Char → List Char × List Char
  | '%' :: rest => (['%'], rest)
  | cs => (cs.takeWhile Char.isAlpha, cs.dropWhile Char.isAlpha)

/-- The argument of an unquoted `url(...)` through its parenthesis. Outside braces it holds no quote, no
parenthesis and no line feed. -/
def scanUrl : (depth : Nat) → List Char → Option (List Char × List Char)
  | _, [] => none
  | depth, c :: rest =>
    if c = ')' ∧ depth = 0 then some ([c], rest)
    else if depth = 0 ∧ (c = '(' ∨ c = '"' ∨ c = '\'' ∨ c = '\n') then none
    else
      let depth := if c = '{' then depth + 1 else if c = '}' then depth - 1 else depth
      (scanUrl depth rest).map fun (taken, left) => (c :: taken, left)

/-- Whether an argument, behind the parenthesis, is one that `url(...)` may hold without quotes. -/
def startsUrl (cs : List Char) : Bool :=
  match Text.trimStart cs with
  | c :: _ => !(c == '"' || c == '\'' || c == ')' || c == '$')
  | [] => false

/-- A token without its place: its kind, the characters it takes and those it leaves. -/
structure Lexeme where
  kind : TokenKind
  taken : List Char
  left : List Char

/-- A construct without an end, and what stands before it in the token that it belongs to. -/
structure Fault where
  construct : LexError.Construct
  before : List Char

/-- A name behind the characters `sign`. -/
def named (kind : String → TokenKind) (sign : List Char) (cs : List Char) : Lexeme :=
  let (name, left) := scanName cs
  ⟨kind (String.ofList name), sign ++ name, left⟩

def blankLexeme (cs : List Char) : Lexeme :=
  let (taken, left) := scanBlank false cs
  ⟨.blank (taken.contains '\n'), taken, left⟩

def numberLexeme (cs : List Char) : Lexeme :=
  let (whole, fraction, rest) := scanNumber cs
  let (unit, left) := scanUnit rest
  let literal := whole ++ (if fraction.isEmpty then [] else '.' :: fraction)
  ⟨.number (Decimal.ofDigits whole fraction) (String.ofList unit), literal ++ unit, left⟩

/-- A name, or a `url(...)` that needs no quotes. -/
def wordLexeme (cs : List Char) : Lexeme :=
  let (name, left) := scanName cs
  let word : Lexeme := ⟨.ident (String.ofList name), name, left⟩
  match left with
  | '(' :: rest =>
    if Text.sameWord (String.ofList name) "url" && startsUrl rest then
      match scanUrl 0 rest with
      | some (taken, left) => ⟨.url (String.ofList (Text.trim taken.dropLast)), name ++ '(' :: taken, left⟩
      | none => word
    else word
  | _ => word

/-- The first token of the text `c :: rest`. -/
def lexeme (c : Char) (rest : List Char) : Except Fault Lexeme :=
  let second (test : Char → Bool) : Bool := rest.head?.any test
  if Text.isBlank c || (c == '/' && second (· == '/')) then .ok (blankLexeme (c :: rest))
  else if c == '/' && second (· == '*') then
    match scanned : scanComment (rest.drop 1) with
    | some (taken, left) =>
      let comment : Comment :=
        ⟨String.ofList ('/' :: '*' :: taken), by
          rw [String.toList_ofList]
          exact (scanComment_closed scanned).trans ((List.suffix_cons _ _).trans (List.suffix_cons _ _))⟩
      .ok ⟨.comment comment, '/' :: '*' :: taken, left⟩
    | none => .error ⟨.comment, []⟩
  else if c == '"' || c == '\'' then
    match scanQuoted c rest with
    | .closed contents left => .ok ⟨.quoted (String.ofList contents) c, c :: contents ++ [c], left⟩
    | .unclosed => .error ⟨.string, []⟩
    | .insideCode => .error ⟨.interpolation, []⟩
    | .unclosedCode before => .error ⟨.interpolation, c :: before⟩
  else if c == '$' && second isNameStart then .ok (named .variable [c] rest)
  else if c == '@' && second (fun d => isNameStart d || d == '-') then .ok (named .atKeyword [c] rest)
  else if c == '#' && second (· == '{') then .ok ⟨.interpolation, ['#', '{'], rest.drop 1⟩
  else if c == '#' && second isNameChar then .ok (named .hash [c] rest)
  else if c.isDigit || (c == '.' && second Char.isDigit) then .ok (numberLexeme (c :: rest))
  else if c == '-' && second (fun d => isNameStart d || d == '-') then .ok (named .ident [] (c :: rest))
  else if isNameStart c then .ok (wordLexeme (c :: rest))
  else
    let relation? : Option Relation :=
      if second (· == '=') then
        match c with
        | '=' => some .equal
        | '!' => some .unequal
        | '<' => some .atMost
        | '>' => some .atLeast
        | _ => none
      else none
    match relation? with
    | some relation => .ok ⟨.relation relation, [c, '='], rest.drop 1⟩
    | none => .ok ⟨.mark c, [c], rest⟩

/-- The tokens of a text that begins `offset` bytes into its source, at `pos`. Each token takes a character at
least, so as many steps as there are characters are enough. -/
def scan : (steps offset : Nat) → Position → List Char → Lexed
  | _, _, _, [] => ⟨[], none⟩
  | 0, _, _, _ => ⟨[], none⟩
  | steps + 1, offset, pos, c :: rest =>
    match lexeme c rest with
    | .error fault => ⟨[], some ⟨fault.construct, pos.after fault.before⟩⟩
    | .ok ⟨kind, taken, left⟩ =>
      let token : Token := ⟨kind, String.ofList taken, offset, pos, pos.after taken⟩
      let more := scan steps token.stop token.endPos left
      ⟨token :: more.tokens, more.error⟩

end Stylesheet.Token

namespace Stylesheet

/-- The tokens of a text whose first character stands at `origin`. -/
def lex (source : String) (origin : Position := Position.start) : Lexed :=
  let cs := source.toList
  Token.scan cs.length 0 origin cs

end Stylesheet
