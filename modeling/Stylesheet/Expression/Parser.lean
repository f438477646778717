import Stylesheet.Grammar

/-! Reading expressions. Binary operators bind in six levels, `or` loosest and products tightest, and all of them
associate to the left. Expressions side by side make a list of a space, and such lists make a list at commas.

Every function takes the number of calls that may still be nested. Each cycle of calls takes a character of the
text, so a small multiple of the length is enough, and `expressionLimit` is that. -/

namespace Stylesheet.Grammar

/-- How tightly an operator binds. -/
def bindingLevel : BinaryOp → Nat
  | .or => 0
  | .and => 1
  | .eq | .ne => 2
  | .lt | .le | .gt | .ge => 3
  | .add | .sub => 4
  | .mul | .div | .rem => 5

/-- The level of operands of the tightest operators. -/
def operandLevel : Nat := 6

def binaryOpOf? : TokenKind → Option BinaryOp
  | .ident name =>
    if Text.sameWord name "or" then some .or else if Text.sameWord name "and" then some .and else none
  | .relation .equal => some .eq
  | .relation .unequal => some .ne
  | .relation .atMost => some .le
  | .relation .atLeast => some .ge
  | .mark '<' => some .lt
  | .mark '>' => some .gt
  | .mark '+' => some .add
  | .mark '-' => some .sub
  | .mark '*' => some .mul
  | .mark '/' => some .div
  | .mark '%' => some .rem
  | _ => none

def unaryOpOf? : TokenKind → Option UnaryOp
  | .mark '-' => some .neg
  | .mark '+' => some .plus
  | .ident name => if Text.sameWord name "not" then some .not else none
  | _ => none

/-- Whether a sign is written like that of a list item: behind a blank and directly before its operand. -/
def isItemSign (trivia rest : List Token) : Bool :=
  trivia.getLast?.any Token.isBlank && !rest.head?.any Token.isBlank

/-- A binary operator of one level at the front of the tokens, with its place and what follows it. -/
def operatorAt? (level : Nat) (tokens : List Token) : Option (BinaryOp × Position × List Token) :=
  match significant tokens with
  | token :: rest =>
    match binaryOpOf? token.kind with
    | some op =>
      if bindingLevel op != level then none
      else if (op == .add || op == .sub) && isItemSign (tokens.takeWhile Token.isTrivia) rest then none
      else some (op, token.pos, rest)
    | none => none
  | [] => none

/-- Functions of CSS whose arguments are kept as they are written. -/
def verbatimFunctions : List String :=
  ["calc", "-webkit-calc", "-moz-calc", "var", "env", "expression", "element"]

/-- What stands before the first interpolation of a text, and what stands behind its opening. -/
def splitAtInterpolation : List Char → Option (List Char × List Char)
  | '#' :: '{' :: rest => some ([], rest)
  | c :: rest => (splitAtInterpolation rest).map fun (before, behind) => (c :: before, behind)
  | [] => none

/-- What stands before the brace that closes an interpolation, and what stands behind it. `depth` counts the braces
opened since, and `quote` is the quote of the string that the text is in the middle of. -/
def splitAtBrace : (depth : Nat) → (quote : Option Char) → List Char → Option (List Char × List Char)
  | _, _, [] => none
  | depth, some q, '\\' :: c :: rest =>
    (splitAtBrace depth (some q) rest).map fun (before, behind) => ('\\' :: c :: before, behind)
  | depth, some q, c :: rest =>
    (splitAtBrace depth (if c = q then none else some q) rest).map fun (before, behind) => (c :: before, behind)
  | depth, none, c :: rest =>
    if c = '}' ∧ depth = 0 then some ([], rest)
    else
      let quote := if c = '"' ∨ c = '\'' then some c else none
      let depth := if c = '{' then depth + 1 else if c = '}' then depth - 1 else depth
      (splitAtBrace depth quote rest).map fun (before, behind) => (c :: before, behind)

def wordExpr (name : String) : Expr :=
  match name.toLower with
  | "true" => .literal (.bool true)
  | "false" => .literal (.bool false)
  | "null" => .literal .null
  | _ =>
    match Color.ofName? name with
    | some color => .literal (.color color)
    | none => .string (Template.ofText name) false

def hashExpr (name : String) : Expr :=
  match Color.ofHex? name with
  | some color => .literal (.color color)
  | none => .string (Template.ofText ("#" ++ name)) false

/-- The list in brackets whose contents were read as an expression. -/
def bracketedExpr : Option Expr → Expr
  | none => .list [] .space true
  | some (.list items separator false) => .list items separator true
  | some item => .list [item] .space true

def listExpr (separator : Separator) (first : Expr) : List Expr → Expr
  | [] => first
  | rest => .list (first :: rest) separator false

/-- Whether the tokens begin with the name of an argument, that is a variable and a colon. -/
def keywordAt? (tokens : List Token) : Option String :=
  match significant tokens with
  | token :: rest =>
    match token.kind with
    | .variable name => if startsMark rest ':' then some name else none
    | _ => none
  | [] => none

/-- Whether the mark at the front joins a bare word to the part behind it. -/
def joinsWord (rest : List Token) : Bool :=
  match rest.head?.map Token.kind with
  | some (.ident _) | some .interpolation => true
  | _ => false

/-- A place some characters further on in the same line. -/
def shifted (pos : Position) (columns : Nat) : Position := { pos with column := pos.column + columns }

mutual

/-- A list of expressions between commas. -/
def expression : Nat → Parse Expr
  | 0 => giveUp
  | n + 1 => do
    let first ← spaceList n
    if ← atMark ',' then return .list (first :: (← commaItems n atExpressionEnd)) .comma false
    else return first

/-- The items behind a first one, each behind a comma. The last comma may stand alone, where `atEnd` holds. -/
def commaItems : Nat → (atEnd : Parse Bool) → Parse (List Expr)
  | 0, _ => giveUp
  | n + 1, atEnd => do
    if ← eatMark ',' then
      if ← atEnd then return []
      else
        let item ← spaceList n
        return item :: (← commaItems n atEnd)
    else return []

/-- Expressions side by side. -/
def spaceList : Nat → Parse Expr
  | 0 => giveUp
  | n + 1 => do
    if ← atExpressionEnd then fail .expression
    else
      let first ← operation n 0
      return listExpr .space first (← spaceItems n)

def spaceItems : Nat → Parse (List Expr)
  | 0 => giveUp
  | n + 1 => do
    if (← atExpressionEnd) || startsSpread (← get) then return []
    else
      let item ← operation n 0
      return item :: (← spaceItems n)

/-- Operands joined by operators of a level or of tighter ones. -/
def operation : Nat → (level : Nat) → Parse Expr
  | 0, _ => giveUp
  | n + 1, level => do
    if level < operandLevel then
      let left ← operation n (level + 1)
      operationsOn n level left
    else operand n

/-- The operators of a level that follow their left operand. -/
def operationsOn : Nat → (level : Nat) → (left : Expr) → Parse Expr
  | 0, _, _ => giveUp
  | n + 1, level, left => do
    match operatorAt? level (← get) with
    | some (op, pos, rest) =>
      set rest
      let right ← operation n (level + 1)
      operationsOn n level (.binary op left right pos)
    | none => return left

/-- An expression with the signs before it. -/
def operand : Nat → Parse Expr
  | 0 => giveUp
  | n + 1 => do
    match ← peek with
    | some token =>
      match unaryOpOf? token.kind with
      | some op =>
        advance
        return .unary op (← operand n) token.pos
      | none => primary n token
    | none => fail .expression

/-- An expression whose first token is `token`. -/
def primary : Nat → (token : Token) → Parse Expr
  | 0, _ => giveUp
  | n + 1, token => do
    match token.kind with
    | .number value unit => advance; return .literal (.number ⟨value, Units.single unit⟩)
    | .hash name => advance; return hashExpr name
    | .quoted contents _ =>
      advance
      return .string (← textTemplate n (shifted token.pos 1) contents.toList) true
    | .url contents =>
      advance
      let inner ← textTemplate n (shifted token.pos 4) contents.toList
      return .string (Template.consText "url(" (Template.append inner (Template.ofText ")"))) false
    | .variable name => advance; return .variable name token.pos
    | .mark '(' => advance; stoppingAt [] (parenthesized n token.pos)
    | .mark '[' => advance; stoppingAt [] (bracketed n)
    | .mark '&' => advance; return .string (Template.ofText "&") false
    | .ident name => advance; word n name token.pos
    | .interpolation => skipTrivia; return .string (← bareWord n) false
    | _ => fail .expression

/-- The rest of a parenthesis: the empty list, a map, or an expression. -/
def parenthesized : Nat → Position → Parse Expr
  | 0, _ => giveUp
  | n + 1, pos => do
    if ← eatMark ')' then return .literal Value.emptyList
    else
      let first ← spaceList n
      if ← eatMark ':' then
        let value ← spaceList n
        let entries ← mapEntries n
        expectMark ')'
        return .map ((first, value) :: entries) pos
      else
        let inner ← if ← atMark ',' then
            let items ← commaItems n (atMark ')')
            pure (.list (first :: items) .comma false)
          else pure first
        expectMark ')'
        return .paren inner

/-- The entries of a map behind the first one. -/
def mapEntries : Nat → Parse (List (Expr × Expr))
  | 0 => giveUp
  | n + 1 => do
    if ← eatMark ',' then
      if ← atMark ')' then return []
      else
        let key ← spaceList n
        expectMark ':'
        let value ← spaceList n
        return (key, value) :: (← mapEntries n)
    else return []

/-- The rest of a list in brackets. -/
def bracketed : Nat → Parse Expr
  | 0 => giveUp
  | n + 1 => do
    let inner ← if ← atMark ']' then pure none else some <$> expression n
    expectMark ']'
    return bracketedExpr inner

/-- A word that has been taken: a call, a part of a longer word, or a word alone. -/
def word : Nat → (name : String) → Position → Parse Expr
  | 0, _, _ => giveUp
  | n + 1, name, pos => do
    match ← get with
    | next :: rest =>
      if next.isMark '(' then
        set rest
        if verbatimFunctions.contains name.toLower then verbatimCall n name
        else return .call name (← stoppingAt [] (argumentList n)) pos
      else
        match next.kind with
        | .interpolation => return .string (Template.consText name (← bareWord n)) false
        | _ => return wordExpr name
    | [] => return wordExpr name

/-- The parts of a bare word that follow each other without a blank. -/
def bareWord : Nat → Parse (Template Expr)
  | 0 => giveUp
  | n + 1 => do
    match ← get with
    | token :: rest =>
      match token.kind with
      | .ident _ | .number _ _ =>
        set rest
        return Template.consText token.text (← bareWord n)
      | .interpolation =>
        set rest
        let code ← interpolationBody n
        return .code code :: (← bareWord n)
      | .mark '-' =>
        if joinsWord rest then
          set rest
          return Template.consText "-" (← bareWord n)
        else return []
      | _ => return []
    | [] => return []

/-- The rest of a call whose arguments are kept as they are written. -/
def verbatimCall : Nat → (name : String) → Parse Expr
  | 0, _ => giveUp
  | n + 1, name => do
    let inner ← rawTemplate n false [')']
    match ← get with
    | _ :: rest =>
      set rest
      return .string (Template.consText (name ++ "(") (Template.append inner (Template.ofText ")"))) false
    | [] => fail (.mark ')')

/-- Arguments through the closing parenthesis. -/
def argumentList : Nat → Parse (Arguments Expr)
  | 0 => giveUp
  | n + 1 => do
    if ← eatMark ')' then return Arguments.none
    else
      match keywordAt? (← get) with
      | some name =>
        advance
        expectMark ':'
        let value ← spaceList n
        let more ← moreArguments n
        return { more with keyword := (name, value) :: more.keyword }
      | none =>
        let value ← spaceList n
        if ← eatSpread then
          let more ← moreArguments n
          return { more with rest := more.rest <|> some value }
        else
          let more ← moreArguments n
          return { more with positional := value :: more.positional }

/-- What follows an argument: a comma and more arguments, or the closing parenthesis. -/
def moreArguments : Nat → Parse (Arguments Expr)
  | 0 => giveUp
  | n + 1 => do
    if ← eatMark ',' then argumentList n
    else
      expectMark ')'
      return Arguments.none

/-- The rest of an interpolation. -/
def interpolationBody : Nat → Parse Expr
  | 0 => giveUp
  | n + 1 => do
    let code ← stoppingAt [] (expression n)
    expectMark '}'
    return code

/-- The text up to one of the marks `ends` outside parentheses and brackets, with its interpolations and, where
`withVariables` says so, its variables. Comments are left out and blanks become single spaces. -/
def rawTemplate : Nat → (withVariables : Bool) → (ends : List Char) → Parse (Template Expr)
  | 0, _, _ => giveUp
  | n + 1, withVariables, ends => do return Template.squeeze (← rawPieces n withVariables ends 0 false)

/-- The pieces of a raw text. `depth` counts open parentheses and brackets, and `started` says whether the text
has begun, as blanks before it are left out. -/
def rawPieces : Nat → (withVariables : Bool) → (ends : List Char) → (depth : Nat) → (started : Bool) →
    Parse (Template Expr)
  | 0, _, _, _, _ => giveUp
  | n + 1, withVariables, ends, depth, started => do
    match ← get with
    | token :: rest =>
      if depth == 0 && ends.any token.isMark then return []
      else
        set rest
        match token.kind with
        | .interpolation =>
          let code ← interpolationBody n
          return .code code :: (← rawPieces n withVariables ends depth true)
        | .variable name =>
          let more ← rawPieces n withVariables ends depth true
          return if withVariables then .code (.variable name token.pos) :: more else Template.consText token.text more
        | .quoted contents quote =>
          let inner ← textTemplate n (shifted token.pos 1) contents.toList
          let more ← rawPieces n withVariables ends depth true
          let closing := Template.consText quote.toString more
          return Template.consText quote.toString (Template.append inner closing)
        | .blank _ =>
          let more ← rawPieces n withVariables ends depth started
          return if started then Template.consText " " more else more
        | .comment _ => rawPieces n withVariables ends depth started
        | _ =>
          let depth :=
            if token.isMark '(' || token.isMark '[' then depth + 1
            else if token.isMark ')' || token.isMark ']' then depth - 1
            else depth
          return Template.consText token.text (← rawPieces n withVariables ends depth true)
    | [] => return []

/-- The contents of a string or of a `url(...)` that begin at `pos`, cut at their interpolations. -/
def textTemplate : Nat → (pos : Position) → List Char → Parse (Template Expr)
  | 0, _, _ => giveUp
  | n + 1, pos, cs => do
    match splitAtInterpolation cs with
    | none => return Template.ofText (String.ofList cs)
    | some (before, behind) =>
      let inside := shifted pos (before.length + 2)
      match splitAtBrace 0 none behind with
      | none => fun _ _ => .error ⟨.unclosed .interpolation, inside⟩
      | some (body, rest) =>
        let code ← embedded n inside body
        let more ← textTemplate n (shifted inside (body.length + 1)) rest
        return Template.consText (String.ofList before) (.code code :: more)

/-- An expression that is a text of its own. -/
def embedded : Nat → (pos : Position) → List Char → Parse Expr
  | 0, _, _ => giveUp
  | n + 1, pos, cs => fun context tokens =>
    let whole : Parse Expr := do
      let code ← expression n
      if (← peek).isSome then fail (.mark '}')
      else return code
    (parseText (String.ofList cs) context.file pos whole).map fun code => (code, tokens)

end

/-- More nested calls than the expressions of a text can need. -/
def expressionLimit (source : List Char) : Nat := 32 * (source.length + 1)

end Stylesheet.Grammar
