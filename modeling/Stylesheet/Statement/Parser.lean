import Stylesheet.Expression.Parser
import Stylesheet.Indented

/-! Reading statements. A name and a colon may begin a declaration or a selector; which of them it is shows only
further on, at the brace or the semicolon that comes first. -/

namespace Stylesheet.Grammar

/-- The first two characters of what may be the name of a property, and the tokens behind it. Interpolations
count as one character; `codes` counts the braces of one that are open. -/
def scanProperty : (codes : Nat) → (start : List Char) → List Token → Option (List Char × List Token)
  | 0, start, [] => some (start, [])
  | _ + 1, _, [] => none
  | 0, start, token :: rest =>
    match token.kind with
    | .ident name => scanProperty 0 ((start ++ name.toList).take 2) rest
    | .mark '-' | .mark '*' => scanProperty 0 ((start ++ ['-']).take 2) rest
    | .interpolation => scanProperty 1 ((start ++ ['#']).take 2) rest
    | _ => some (start, token :: rest)
  | codes + 1, start, token :: rest =>
    match token.kind with
    | .interpolation | .mark '{' => scanProperty (codes + 2) start rest
    | .mark '}' => scanProperty codes start rest
    | _ => scanProperty (codes + 1) start rest

/-- Whether a value ends before a block opens. `codes` counts open braces of interpolations, and `depth` open
parentheses and brackets. -/
def endsBeforeBlock : (codes depth : Nat) → List Token → Bool
  | _, _, [] => true
  | codes, depth, token :: rest =>
    match token.kind with
    | .interpolation => endsBeforeBlock (codes + 1) depth rest
    | .mark '(' | .mark '[' => endsBeforeBlock codes (depth + 1) rest
    | .mark ')' | .mark ']' => endsBeforeBlock codes (depth - 1) rest
    | .mark '{' =>
      if codes > 0 then endsBeforeBlock (codes + 1) depth rest
      else if depth == 0 then false
      else endsBeforeBlock codes depth rest
    | .mark '}' =>
      if codes > 0 then endsBeforeBlock (codes - 1) depth rest
      else if depth == 0 then true
      else endsBeforeBlock codes depth rest
    | .mark ';' => if depth == 0 then true else endsBeforeBlock codes depth rest
    | _ => endsBeforeBlock codes depth rest

/-- Whether the tokens begin with a declaration rather than with a selector. -/
def startsDeclaration (tokens : List Token) : Bool :=
  match scanProperty 0 [] tokens with
  | none | some ([], _) => false
  | some (start, rest) =>
    match significant rest with
    | colon :: value =>
      if !colon.isMark ':' then false
      else if start == ['-', '-'] then true
      else
        match value with
        | [] => true
        | first :: _ => first.isTrivia || first.isMark '{' || endsBeforeBlock 0 0 value
    | [] => false

/-- The flags of an assignment: whether it is a default, and whether it is global. -/
def assignmentFlags : Nat → (isDefault isGlobal : Bool) → Parse (Bool × Bool)
  | 0, _, _ => giveUp
  | n + 1, isDefault, isGlobal => do
    match significant (← get) with
    | bang :: rest =>
      if bang.isMark '!' then
        match rest with
        | flag :: rest =>
          if isWord flag "default" then
            set rest
            assignmentFlags n true isGlobal
          else if isWord flag "global" then
            set rest
            assignmentFlags n isDefault true
          else fail (.mark ';')
        | [] => fail (.mark ';')
      else return (isDefault, isGlobal)
    | [] => return (isDefault, isGlobal)

def importance : Parse Bool := do
  match significant (← get) with
  | bang :: rest =>
    if bang.isMark '!' then
      match rest with
      | flag :: rest =>
        if isWord flag "important" then
          set rest
          return true
        else fail (.mark ';')
      | [] => fail (.mark ';')
    else return false
  | [] => return false

def assignment (n : Nat) (name : String) (pos : Position) : Parse Statement := do
  expectMark ':'
  let value ← expression n
  let (isDefault, isGlobal) ← assignmentFlags n false false
  endStatement
  return .assignment pos name value isDefault isGlobal

/-- Parameters through the closing parenthesis, the last of which may take the arguments left over. -/
def parameters : Nat → Parse (List Parameter × Option String)
  | 0 => giveUp
  | n + 1 => do
    if ← eatMark ')' then return ([], none)
    else
      let name ← expectVariable
      if ← eatSpread then
        expectMark ')'
        return ([], some name)
      else
        let default ← if ← eatMark ':' then some <$> spaceList n else pure none
        if ← eatMark ',' then
          let (more, rest) ← parameters n
          return (⟨name, default⟩ :: more, rest)
        else
          expectMark ')'
          return ([⟨name, default⟩], none)

/-- The variables of a loop over a list, separated by commas. -/
def loopNames : Nat → Parse (List String)
  | 0 => giveUp
  | n + 1 => do
    let name ← expectVariable
    if ← eatMark ',' then return name :: (← loopNames n)
    else return [name]

/-- The reference of an import that is a string without interpolations and stands alone between commas. -/
def referenceAt? (tokens : List Token) : Option (String × Position × List Token) :=
  match significant tokens with
  | token :: rest =>
    match token.kind with
    | .quoted reference _ =>
      let alone := (significant rest).head?.all fun next => next.isMark ',' || next.isMark ';' || next.isMark '}'
      if alone && (splitAtInterpolation reference.toList).isNone then some (reference, token.pos, rest) else none
    | _ => none
  | [] => none

/-- What an import names. Whatever is no plain reference is left to the browser. -/
def importTargets : Nat → Parse (List ImportTarget)
  | 0 => giveUp
  | n + 1 => do
    match referenceAt? (← get) with
    | some (reference, pos, rest) =>
      set rest
      let target := ImportTarget.sheet reference pos
      if ← eatMark ',' then return target :: (← importTargets n)
      else return [target]
    | none =>
      if (← peek).isNone then fail .reference
      else return [.css (Template.trimEnd (← rawTemplate n false [';', '}']))]

/-- Whether a branch follows, and if so whether it has a condition. -/
def elseAt? (tokens : List Token) : Option (Bool × List Token) :=
  match significant tokens with
  | token :: rest =>
    match token.kind with
    | .atKeyword name =>
      if Text.sameWord name "elseif" then some (true, rest)
      else if Text.sameWord name "else" then
        match significant rest with
        | next :: behind => if isWord next "if" then some (true, behind) else some (false, rest)
        | [] => some (false, rest)
      else none
    | _ => none
  | [] => none

def expectWord (word : String) : Parse Unit := do
  if ← atWord word then advance
  else fail (.word word)

/-- Whether a range includes its end, as the word before the end says. -/
def rangeWord : Parse Bool := do
  if ← atWord "through" then advance; return true
  else if ← atWord "to" then advance; return false
  else fail .rangeEnd

mutual

/-- Statements up to the end of the text or, inside a block, through its closing brace. -/
def statements : Nat → (inBlock : Bool) → Parse (List Statement)
  | 0, _ => giveUp
  | n + 1, inBlock => do
    skipBlank
    match ← get with
    | [] => if inBlock then fail (.mark '}') else return []
    | token :: rest =>
      match token.kind with
      | .comment comment =>
        set rest
        return .comment token.pos comment :: (← statements n inBlock)
      | .mark '}' =>
        if inBlock then
          set rest
          return []
        else fail .selectorOrDirective
      | .mark ';' =>
        set rest
        statements n inBlock
      | .atKeyword name =>
        set rest
        let first ← directive n name token.pos
        return first :: (← statements n inBlock)
      | .variable name =>
        let first ← if startsMark rest ':' then
            set rest
            assignment n name token.pos
          else rule n token.pos
        return first :: (← statements n inBlock)
      | _ =>
        let first ← if startsDeclaration (token :: rest) then declaration n token.pos else rule n token.pos
        return first :: (← statements n inBlock)

def block : Nat → Parse (List Statement)
  | 0 => giveUp
  | n + 1 => do
    expectMark '{'
    statements n true

/-- A block, or the end of a statement that has none. -/
def optionalBlock : Nat → Parse (Option (List Statement))
  | 0 => giveUp
  | n + 1 => do
    if ← atMark '{' then some <$> block n
    else
      endStatement
      return none

def rule : Nat → Position → Parse Statement
  | 0, _ => giveUp
  | n + 1, pos => do
    let selector := Template.trimEnd (← rawTemplate n false ['{', ';', '}'])
    if selector.isEmpty || !(← atMark '{') then fail (.mark '{')
    else return .rule pos selector (← block n)

def declaration : Nat → Position → Parse Statement
  | 0, _ => giveUp
  | n + 1, pos => do
    let property := Template.trimEnd (← rawTemplate n false [':'])
    expectMark ':'
    if property.isCustomProperty then
      skipTrivia
      let text := Template.trimEnd (← rawTemplate n false [';', '}'])
      endStatement
      return .declaration pos property (some (.string text false)) false []
    else
      let value ← if ← atMark '{' then pure none else some <$> expression n
      let important ← importance
      if ← atMark '{' then return .declaration pos property value important (← block n)
      else if value.isNone then fail .expression
      else
        endStatement
        return .declaration pos property value important []

/-- A directive whose name has been taken. -/
def directive : Nat → (name : String) → Position → Parse Statement
  | 0, _, _ => giveUp
  | n + 1, name, pos => do
    match name.toLower with
    | "import" =>
      let targets ← importTargets n
      endStatement
      return .imports pos targets
    | "mixin" => return .mixin pos (← callable n)
    | "function" => return .function pos (← callable n)
    | "include" =>
      let mixin ← expectName
      let arguments ← if ← eatMark '(' then stoppingAt [] (argumentList n) else pure Arguments.none
      return .inclusion pos mixin arguments (← optionalBlock n)
    | "content" =>
      if ← atMark '(' then let _ ← stoppingAt [] (argumentList n)
      endStatement
      return .content pos
    | "return" =>
      let value ← expression n
      endStatement
      return .result pos value
    | "if" =>
      let condition ← expression n
      let body ← block n
      let (clauses, otherwise) ← branches n
      return .branch pos ((condition, body) :: clauses) otherwise
    | "else" => fail .ifBeforeElse
    | "each" =>
      let names ← loopNames n
      expectWord "in"
      let items ← expression n
      return .forEach pos names items (← block n)
    | "for" =>
      let name ← expectVariable
      expectWord "from"
      let first ← stoppingAt ["through", "to"] (expression n)
      let inclusive ← rangeWord
      let last ← expression n
      return .forRange pos name first last inclusive (← block n)
    | "while" =>
      let condition ← expression n
      return .whileTrue pos condition (← block n)
    | "warn" => message n .warn pos
    | "debug" => message n .debug pos
    | "error" => message n .error pos
    | "extend" | "at-root" | "use" | "forward" =>
      let _ ← rawTemplate n false [';', '{', '}']
      let _ ← optionalBlock n
      return .unsupported pos name.toLower
    | "media" =>
      skipTrivia
      let query := Template.trimEnd (← rawTemplate n true ['{', ';'])
      return .media pos query (← block n)
    | _ =>
      skipTrivia
      let parameters := Template.trimEnd (← rawTemplate n false ['{', ';', '}'])
      return .directive pos name parameters (← optionalBlock n)

def message : Nat → MessageKind → Position → Parse Statement
  | 0, _, _ => giveUp
  | n + 1, kind, pos => do
    let value ← expression n
    endStatement
    return .message pos kind value

/-- The definition of a mixin or a function behind its directive. -/
def callable : Nat → Parse (Callable Statement)
  | 0 => giveUp
  | n + 1 => do
    let name ← expectName
    let (parameters, rest) ← if ← eatMark '(' then parameters n else pure ([], none)
    let body ← block n
    return { name, parameters, rest, body, file := (← read).file }

/-- The branches behind the first one. -/
def branches : Nat → Parse (List (Expr × List Statement) × Option (List Statement))
  | 0 => giveUp
  | n + 1 => do
    match elseAt? (← get) with
    | some (true, rest) =>
      set rest
      let condition ← expression n
      let body ← block n
      let (clauses, otherwise) ← branches n
      return ((condition, body) :: clauses, otherwise)
    | some (false, rest) =>
      set rest
      return ([], some (← block n))
    | none => return ([], none)

end

end Grammar

/-- The statements of a stylesheet. An indented one is given braces first. -/
def Statement.parse (source file : String) (indented : Bool) : Except ParseError (List Statement) :=
  let text := if indented then Indented.toBraces source else source
  Grammar.parseText text file Position.start (Grammar.statements (Grammar.expressionLimit text.toList) false)

end Stylesheet
