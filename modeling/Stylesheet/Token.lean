import Stylesheet.Position

/-! Tokens of a stylesheet. A token keeps the text it was read from, so the tokens of a text, blank runs and
comments included, spell that text out again. -/

namespace Stylesheet

/-- The relations that are written with two characters. -/
inductive Relation where
  | equal
  | unequal
  | atMost
  | atLeast
  deriving DecidableEq, Repr

def Relation.text : Relation → String
  | .equal => "=="
  | .unequal => "!="
  | .atMost => "<="
  | .atLeast => ">="

/-- A block comment with its delimiters. -/
structure Comment where
  text : String
  closed : ['*', '/'] <:+ text.toList
  deriving DecidableEq, Repr

instance : Coe Comment String := ⟨Comment.text⟩

inductive TokenKind where
  | ident (name : String)
  /-- A variable; the name comes without the dollar sign. -/
  | variable (name : String)
  /-- A directive; the name comes without the at sign. -/
  | atKeyword (name : String)
  | number (value : Float) (unit : String)
  /-- A number sign and a name: a color among values, an id in a selector. -/
  | hash (name : String)
  /-- A quoted string with its escapes and interpolations as they are written. -/
  | quoted (contents : String) (quote : Char)
  /-- The argument of an unquoted `url(...)`. -/
  | url (contents : String)
  /-- The opening `#{` of an interpolation. -/
  | interpolation
  | relation (relation : Relation)
  | mark (c : Char)
  /-- A run of blank characters and line comments. -/
  | blank (newline : Bool)
  | comment (comment : Comment)
  deriving DecidableEq, Repr

structure Token where
  kind : TokenKind
  text : String
  /-- The number of bytes before the token when the text is encoded in UTF-8. -/
  start : Nat
  pos : Position
  endPos : Position
  deriving DecidableEq, Repr

namespace Token

def stop (token : Token) : Nat := token.start + token.text.utf8ByteSize

def isBlank (token : Token) : Bool :=
  match token.kind with
  | .blank _ => true
  | _ => false

/-- Blank runs and comments separate tokens and mean nothing else. -/
def isTrivia (token : Token) : Bool :=
  match token.kind with
  | .blank _ | .comment _ => true
  | _ => false

def isMark (token : Token) (c : Char) : Bool :=
  match token.kind with
  | .mark d => d == c
  | _ => false

end Token

/-- What was left open at the end of a text. -/
inductive LexError.Construct where
  | string
  | comment
  | interpolation
  deriving DecidableEq, Repr

/-- A construct that is never closed, and where it begins. -/
structure LexError where
  construct : LexError.Construct
  pos : Position
  deriving DecidableEq, Repr

def LexError.message (error : LexError) : String :=
  match error.construct with
  | .string => "unterminated string"
  | .comment => "unterminated comment"
  | .interpolation => "unterminated interpolation"

/-- The tokens of a text up to its end or up to the first construct that is never closed. -/
structure Lexed where
  tokens : List Token
  error : Option LexError
  deriving DecidableEq, Repr

end Stylesheet
