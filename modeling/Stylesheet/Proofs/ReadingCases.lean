import Stylesheet.Statement.Parser

/-! One token decides how an expression or a directive is read: the first one of the expression, and the name of the
directive. What is done in each case is said here once, so that what is shown of these parsers has a part for each of the
cases, by its name. It may be about several limits at once, so the cases are functions of the limit. -/

namespace Stylesheet.Grammar

theorem primary_cases {motive : (Nat → Parse Expr) → Prop} (token : Token)
    (number : ∀ value unit, token.kind = .number value unit → motive fun _ => do
      advance
      return .literal (.number ⟨value, Units.single unit⟩))
    (hash : ∀ name, token.kind = .hash name → motive fun _ => do
      advance
      return hashExpr name)
    (quoted : ∀ contents quote, token.kind = .quoted contents quote → motive fun n => do
      advance
      return .string (← textTemplate n (shifted token.pos 1) contents.toList) true)
    (address : ∀ contents, token.kind = .url contents → motive fun n => do
      advance
      let inner ← textTemplate n (shifted token.pos 4) contents.toList
      return .string (Template.consText "url(" (Template.append inner (Template.ofText ")"))) false)
    (named : ∀ name, token.kind = .variable name → motive fun _ => do
      advance
      return .variable name token.pos)
    (parenthesis : motive fun n => do
      advance
      stoppingAt [] (parenthesized n token.pos))
    (bracket : motive fun n => do
      advance
      stoppingAt [] (bracketed n))
    (parent : motive fun _ => do
      advance
      return .string (Template.ofText "&") false)
    (identifier : ∀ name, token.kind = .ident name → motive fun n => do
      advance
      word n name token.pos)
    (code : token.kind = .interpolation → motive fun n => do
      skipTrivia
      return .string (← bareWord n) false)
    (other : motive fun _ => fail .expression) : motive fun n => primary (n + 1) token := by
  have of {parse : Nat → Parse Expr} (holds : motive parse) (same : ∀ n, primary (n + 1) token = parse n) :
      motive fun n => primary (n + 1) token := (funext same : (fun n => primary (n + 1) token) = parse) ▸ holds
  cases kind : token.kind with
  | number value unit => exact of (number value unit kind) fun n => by rw [primary, kind]
  | hash name => exact of (hash name kind) fun n => by rw [primary, kind]
  | quoted contents quote => exact of (quoted contents quote kind) fun n => by rw [primary, kind]
  | url contents => exact of (address contents kind) fun n => by rw [primary, kind]
  | «variable» name => exact of (named name kind) fun n => by rw [primary, kind]
  | ident name => exact of (identifier name kind) fun n => by rw [primary, kind]
  | interpolation => exact of (code kind) fun n => by rw [primary, kind]
  | mark c =>
    by_cases isParenthesis : c = '('
    · subst isParenthesis
      exact of parenthesis fun n => by rw [primary, kind]; rfl
    by_cases isBracket : c = '['
    · subst isBracket
      exact of bracket fun n => by rw [primary, kind]; rfl
    by_cases isParent : c = '&'
    · subst isParent
      exact of parent fun n => by rw [primary, kind]; rfl
    refine of other fun n => ?_
    rw [primary, kind]
    split
    case h_11 => rfl
    all_goals simp_all
  | _ => exact of other fun n => by rw [primary, kind]

theorem directive_cases {motive : (Nat → Parse Statement) → Prop} (name : String) (pos : Position)
    (imports : motive fun n => do
      let targets ← importTargets n
      endStatement
      return .imports pos targets)
    (mixin : motive fun n => do return .mixin pos (← callable n))
    (function : motive fun n => do return .function pos (← callable n))
    (inclusion : motive fun n => do
      let mixin ← expectName
      let arguments ← if ← eatMark '(' then stoppingAt [] (argumentList n) else pure Arguments.none
      return .inclusion pos mixin arguments (← optionalBlock n))
    (content : motive fun n => do
      if ← atMark '(' then let _ ← stoppingAt [] (argumentList n)
      endStatement
      return .content pos)
    (result : motive fun n => do
      let value ← expression n
      endStatement
      return .result pos value)
    (branch : motive fun n => do
      let condition ← expression n
      let body ← block n
      let (clauses, otherwise) ← branches n
      return .branch pos ((condition, body) :: clauses) otherwise)
    (otherwise : motive fun _ => fail .ifBeforeElse)
    (forEach : motive fun n => do
      let names ← loopNames n
      expectWord "in"
      let items ← expression n
      return .forEach pos names items (← block n))
    (forRange : motive fun n => do
      let name ← expectVariable
      expectWord "from"
      let first ← stoppingAt ["through", "to"] (expression n)
      let inclusive ← rangeWord
      let last ← expression n
      return .forRange pos name first last inclusive (← block n))
    (whileTrue : motive fun n => do
      let condition ← expression n
      return .whileTrue pos condition (← block n))
    (tells : ∀ kind, motive fun n => message n kind pos)
    (unsupported : motive fun n => do
      let _ ← rawTemplate n false [';', '{', '}']
      let _ ← optionalBlock n
      return .unsupported pos name.toLower)
    (media : motive fun n => do
      skipTrivia
      let query := Template.trimEnd (← rawTemplate n true ['{', ';'])
      return .media pos query (← block n))
    (other : motive fun n => do
      skipTrivia
      let parameters := Template.trimEnd (← rawTemplate n false ['{', ';', '}'])
      return .directive pos name parameters (← optionalBlock n)) : motive fun n => directive (n + 1) name pos := by
  have of {parse : Nat → Parse Statement} (holds : motive parse) (same : ∀ n, directive (n + 1) name pos = parse n) :
      motive fun n => directive (n + 1) name pos :=
    (funext same : (fun n => directive (n + 1) name pos) = parse) ▸ holds
  by_cases isImport : name.toLower = "import"
  · exact of imports fun n => by simp only [directive, isImport]
  by_cases isMixin : name.toLower = "mixin"
  · exact of mixin fun n => by simp only [directive, isMixin]
  by_cases isFunction : name.toLower = "function"
  · exact of function fun n => by simp only [directive, isFunction]
  by_cases isInclude : name.toLower = "include"
  · exact of inclusion fun n => by simp only [directive, isInclude]
  by_cases isContent : name.toLower = "content"
  · exact of content fun n => by simp only [directive, isContent]
  by_cases isReturn : name.toLower = "return"
  · exact of result fun n => by simp only [directive, isReturn]
  by_cases isIf : name.toLower = "if"
  · exact of branch fun n => by simp only [directive, isIf]
  by_cases isElse : name.toLower = "else"
  · exact of otherwise fun n => by simp only [directive, isElse]
  by_cases isEach : name.toLower = "each"
  · exact of forEach fun n => by simp only [directive, isEach]
  by_cases isFor : name.toLower = "for"
  · exact of forRange fun n => by simp only [directive, isFor]
  by_cases isWhile : name.toLower = "while"
  · exact of whileTrue fun n => by simp only [directive, isWhile]
  by_cases isWarn : name.toLower = "warn"
  · exact of (tells .warn) fun n => by simp only [directive, isWarn]
  by_cases isDebug : name.toLower = "debug"
  · exact of (tells .debug) fun n => by simp only [directive, isDebug]
  by_cases isError : name.toLower = "error"
  · exact of (tells .error) fun n => by simp only [directive, isError]
  by_cases isMedia : name.toLower = "media"
  · exact of media fun n => by simp only [directive, isMedia]
  by_cases known : name.toLower ∈ ["extend", "at-root", "use", "forward"]
  · refine of unsupported fun n => ?_
    simp only [List.mem_cons, List.not_mem_nil, or_false] at known
    rcases known with known | known | known | known <;> simp only [directive, known]
  simp only [List.mem_cons, List.not_mem_nil, or_false, not_or] at known
  obtain ⟨isExtend, isAtRoot, isUse, isForward⟩ := known
  refine of other fun n => ?_
  rw [directive]
  split
  case h_20 => rfl
  all_goals contradiction

/-- What is read behind a parameter: a comma and more parameters, or the end of the list. -/
def moreParameters (n : Nat) (name : String) (default : Option Expr) : Parse (List Parameter × Option String) := do
  if ← eatMark ',' then
    let (more, rest) ← parameters n
    return (⟨name, default⟩ :: more, rest)
  else
    expectMark ')'
    return ([⟨name, default⟩], none)

theorem parameters_succ (n : Nat) : parameters (n + 1) = (do
    if ← eatMark ')' then return ([], none)
    else
      let name ← expectVariable
      if ← eatSpread then
        expectMark ')'
        return ([], some name)
      else if ← eatMark ':' then
        let default ← some <$> spaceList n
        moreParameters n name default
      else moreParameters n name none) := by
  rw [parameters]
  rfl

end Stylesheet.Grammar
