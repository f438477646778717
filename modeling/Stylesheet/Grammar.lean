import Stylesheet.Statement
import Stylesheet.Text.Blank
import Stylesheet.Token.Lexer

/-! What all parsers share: the tokens that are left, the text they came from, and the errors. A parser works on
the list of tokens that are left; it takes tokens from the front and never puts one back. -/

namespace Stylesheet

/-- What a parser wanted to see where it found something else. -/
inductive Expectation where
  | mark (c : Char)
  | word (w : String)
  | identifier
  | variable
  | expression
  | selectorOrDirective
  | ifBeforeElse
  | reference
  | rangeEnd
  deriving DecidableEq, Repr

def Expectation.text : Expectation → String
  | mark c => "\"" ++ c.toString ++ "\""
  | word w => "\"" ++ w ++ "\""
  | identifier => "identifier"
  | .variable => "variable (e.g. $foo)"
  | expression => "expression (e.g. 1px, bold)"
  | selectorOrDirective => "selector or at-rule"
  | ifBeforeElse => "@if before @else"
  | reference => "file to import (string or url())"
  | rangeEnd => "\"through\" or \"to\""

inductive ParseError.Cause where
  | unclosed (construct : LexError.Construct)
  /-- The text `found` stands behind `before`, where something else was expected. -/
  | unexpected (before : String) (expected : Expectation) (found : String)
  /-- The parser gave up. The limit is out of reach, as each step takes a token. -/
  | limit
  deriving DecidableEq, Repr

structure ParseError where
  cause : ParseError.Cause
  pos : Position
  deriving DecidableEq, Repr

def ParseError.message (error : ParseError) : String :=
  match error.cause with
  | .unclosed .string => "Invalid CSS: unterminated string, expected closing quote"
  | .unclosed .comment => "Invalid CSS: unterminated comment, expected \"*/\""
  | .unclosed .interpolation => "Invalid CSS: unterminated interpolation, expected \"\x7d\""
  | .unexpected before expected found =>
    "Invalid CSS after \"" ++ before ++ "\": expected " ++ expected.text ++ ", was \"" ++ found ++ "\""
  | .limit => "Invalid CSS: nested too deeply"

namespace Grammar

/-- What does not change while a text is parsed. -/
structure Context where
  source : List Char
  /-- The last character of the last token that is no trivia. Errors at the end of the text are found there. -/
  finish : Position
  /-- Words that end a list of expressions. -/
  stops : List String
  file : String

abbrev Parse := ReaderT Context (StateT (List Token) (Except ParseError))

def significant (tokens : List Token) : List Token := tokens.dropWhile Token.isTrivia

def finishOf (tokens : List Token) : Position :=
  match tokens.reverse.find? (!·.isTrivia) with
  | some token => ⟨token.endPos.line, max 1 (token.endPos.column - 1)⟩
  | none => Position.start

/-- The characters of a text before a number of bytes. -/
def takeBytes : Nat → List Char → List Char
  | _, [] => []
  | bytes, c :: rest => if bytes < c.utf8Size then [] else c :: takeBytes (bytes - c.utf8Size) rest

/-- The end of the line that a text ends in, without blanks around it. -/
def lineEnd (before : List Char) : List Char :=
  let line := Text.trim (before.reverse.takeWhile (· != '\n')).reverse
  line.drop (line.length - 20)

/-- The error at the tokens that are left. -/
def errorAt (context : Context) (expected : Expectation) (tokens : List Token) : ParseError :=
  match significant tokens with
  | token :: _ =>
    let before := lineEnd (takeBytes token.start context.source)
    ⟨.unexpected (String.ofList before) expected token.text, token.pos⟩
  | [] => ⟨.unexpected (String.ofList (lineEnd context.source)) expected "", context.finish⟩

def fail {α : Type} (expected : Expectation) : Parse α := fun context tokens =>
  .error (errorAt context expected tokens)

def giveUp {α : Type} : Parse α := fun context _ => .error ⟨.limit, context.finish⟩

/-- Parses with other words that end a list. -/
def stoppingAt {α : Type} (stops : List String) (parse : Parse α) : Parse α :=
  fun context tokens => parse { context with stops } tokens

def skipTrivia : Parse Unit := modify significant

def skipBlank : Parse Unit := modify (List.dropWhile Token.isBlank)

def peek : Parse (Option Token) := return (significant (← get)).head?

/-- Takes trivia and the token behind it. -/
def advance : Parse Unit := modify fun tokens => (significant tokens).drop 1

def startsMark (tokens : List Token) (c : Char) : Bool := (significant tokens).head?.any (·.isMark c)

def atMark (c : Char) : Parse Bool := return startsMark (← get) c

/-- Takes a mark if it comes next, and says whether it did. -/
def eatMark (c : Char) : Parse Bool := do
  if ← atMark c then advance; return true
  else return false

def expectMark (c : Char) : Parse Unit := do
  unless ← eatMark c do fail (.mark c)

def isWord (token : Token) (word : String) : Bool :=
  match token.kind with
  | .ident name => Text.sameWord name word
  | _ => false

def atWord (word : String) : Parse Bool := return (← peek).any (isWord · word)

def expectName : Parse String := do
  match (← peek).map Token.kind with
  | some (.ident name) => advance; return name
  | _ => fail .identifier

def expectVariable : Parse String := do
  match (← peek).map Token.kind with
  | some (.variable name) => advance; return name
  | _ => fail .variable

/-- A semicolon, which may be missing before a closing brace and at the end of the text. -/
def endStatement : Parse Unit := do
  unless ← eatMark ';' do
    match ← peek with
    | some token => unless token.isMark '}' do fail (.mark ';')
    | none => return

/-- Three points, which spread a list over several arguments or take them together. -/
def startsSpread (tokens : List Token) : Bool :=
  match significant tokens with
  | first :: second :: third :: _ => first.isMark '.' && second.isMark '.' && third.isMark '.'
  | _ => false

/-- Takes the three points of a spread if they come next, and says whether they did. -/
def eatSpread : Parse Bool := do
  if startsSpread (← get) then
    modify fun tokens => (significant tokens).drop 3
    return true
  else return false

/-- Whether no further expression can begin here. -/
def endsExpression (stops : List String) (tokens : List Token) : Bool :=
  match significant tokens with
  | [] => true
  | token :: _ =>
    match token.kind with
    | .mark c => [',', ';', ')', ']', '}', '{', ':', '!', '.'].contains c
    | .ident name => stops.any (Text.sameWord name)
    | _ => false

def atExpressionEnd : Parse Bool := do
  return endsExpression (← read).stops (← get)

/-- Reads the tokens of a text that begins at `origin` and parses them. -/
def parseText {α : Type} (source file : String) (origin : Position) (parse : Parse α) : Except ParseError α :=
  let lexed := lex source origin
  match lexed.error with
  | some error => .error ⟨.unclosed error.construct, error.pos⟩
  | none =>
    let context : Context := { source := source.toList, finish := finishOf lexed.tokens, stops := [], file }
    (parse context lexed.tokens).map Prod.fst

end Grammar

end Stylesheet
