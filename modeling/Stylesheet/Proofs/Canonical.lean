import Stylesheet.Proofs.BareStatement
import Stylesheet.Proofs.Reading

/-! Statements in the one form that they are usually written in: a space between the parts of a statement, a semicolon
behind a statement without a block, and braces around the statements of a block. Every expression is a variable. -/

namespace Stylesheet.Canonical

open Spelling (mark space word dollarWord atSignWord)

structure Word where
  name : String
  valid : isIdentifier name.toList = true

structure Variable where
  name : String
  valid : isVariableName name.toList = true

def Variable.expr (v : Variable) : Expr := .variable v.name .start

def Variable.spelling (v : Variable) : Spelling := dollarWord v.name

/-- The name of a property that is not a custom one. Names may hold blanks, by means of backslashes or beyond ASCII,
but only such as are kept in a text. -/
structure Property extends Word where
  regular : ¬ ['-', '-'] <+: name.toList
  tidy : Grammar.tidied name.toList = name.toList

/-- A query of one word. -/
structure Query extends Word where
  tidy : Grammar.tidied name.toList = name.toList

/-- What stands between commas. -/
def separated (items : List (List Spelling)) : List Spelling := [mark ',', space].intercalate items

@[simp] theorem separated_singleton (item : List Spelling) : separated [item] = item := List.intercalate_singleton

@[simp] theorem separated_cons_cons (first second : List Spelling) (items : List (List Spelling)) :
    separated (first :: second :: items) = first ++ mark ',' :: space :: separated (second :: items) := by
  rw [separated, List.intercalate_cons_cons, List.append_assoc]
  rfl

def classSpellings (classes : List Word) : List Spelling :=
  separated (classes.map fun name => [mark '.', word name.name])

/-- A selector of classes. -/
structure Selector where
  classes : List Word
  nonempty : classes ≠ []
  tidy : Grammar.tidied (Spelling.chars (classSpellings classes)) = Spelling.chars (classSpellings classes)

def Selector.spellings (selector : Selector) : List Spelling := classSpellings selector.classes

def Selector.text (selector : Selector) : String := String.ofList (Spelling.chars selector.spellings)

/-- A block comment, of which `body` stands between the delimiters. -/
structure BlockComment where
  body : String
  single : ¬ ['*', '/'] <:+: body.toList

def BlockComment.comment (written : BlockComment) : Comment where
  text := "/*" ++ written.body ++ "*/"
  closed := by
    rw [String.toList_append]
    exact List.suffix_append _ _

inductive Argument where
  | positional (value : Variable)
  | keyword (name value : Variable)
  | spread (list : Variable)

def Argument.spellings : Argument → List Spelling
  | positional value => [value.spelling]
  | keyword name value => [name.spelling, mark ':', space, value.spelling]
  | spread list => [list.spelling, mark '.', mark '.', mark '.']

/-- Arguments of a mixin: those that go by position, those that go by name, and a list that is spread over more. -/
structure ArgumentList where
  positional : List Variable
  keyword : List (Variable × Variable)
  rest : Option Variable

namespace ArgumentList

def items (list : ArgumentList) : List Argument :=
  list.positional.map .positional ++ list.keyword.map (fun pair => .keyword pair.1 pair.2) ++
    list.rest.toList.map .spread

/-- The parentheses are left out where there is nothing in them. -/
def spellings (list : ArgumentList) : List Spelling :=
  if list.items.isEmpty then [] else mark '(' :: separated (list.items.map Argument.spellings) ++ [mark ')']

def arguments (list : ArgumentList) : Arguments Expr where
  positional := list.positional.map Variable.expr
  keyword := list.keyword.map fun pair => (pair.1.name, pair.2.expr)
  rest := list.rest.map Variable.expr

end ArgumentList

/-- Parameters of a mixin or a function with their defaults, of which `rest` takes what is left over. -/
structure ParameterList where
  parameters : List (Variable × Option Variable)
  rest : Option Variable

def defaultSpellings : Option Variable → List Spelling
  | none => []
  | some value => [mark ':', space, value.spelling]

namespace ParameterList

def items (list : ParameterList) : List (List Spelling) :=
  list.parameters.map (fun pair => pair.1.spelling :: defaultSpellings pair.2) ++
    list.rest.toList.map fun v => [v.spelling, mark '.', mark '.', mark '.']

def spellings (list : ParameterList) : List Spelling := mark '(' :: separated list.items ++ [mark ')']

/-- The definition that has these parameters. -/
def callable (list : ParameterList) (name : Word) (body : List Statement) : Callable Statement where
  name := name.name
  parameters := list.parameters.map fun pair => ⟨pair.1.name, pair.2.map Variable.expr⟩
  rest := list.rest.map Variable.name
  body := body
  file := ""

end ParameterList

/-- A statement without a block. -/
inductive Simple where
  | declaration (property : Property) (value : Variable)
  | assignment (name value : Variable) (isDefault isGlobal : Bool)
  | inclusion (mixin : Word) (arguments : ArgumentList)
  | content
  | result (value : Variable)
  | comment (written : BlockComment)

def flag (name : String) (holds : Bool) : List Spelling := if holds then [space, mark '!', word name] else []

def Simple.spellings : Simple → List Spelling
  | declaration property value => [word property.name, mark ':', space, value.spelling, mark ';']
  | assignment name value isDefault isGlobal =>
    [name.spelling, mark ':', space, value.spelling] ++ flag "default" isDefault ++ flag "global" isGlobal ++ [mark ';']
  | inclusion name arguments =>
    [atSignWord "include", space, word name.name] ++ arguments.spellings ++ [mark ';']
  | content => [atSignWord "content", mark ';']
  | result value => [atSignWord "return", space, value.spelling, mark ';']
  | comment written => [Spelling.comment written.comment]

def Simple.statement : Simple → Statement
  | declaration property value => .declaration .start (.ofText property.name) (some value.expr) false []
  | assignment name value isDefault isGlobal => .assignment .start name.name value.expr isDefault isGlobal
  | inclusion name arguments => .inclusion .start name.name arguments.arguments none
  | content => .content .start
  | result value => .result .start value.expr
  | comment written => .comment .start written.comment

/-- What stands in front of a block. -/
inductive Head where
  | rule (selector : Selector)
  | media (query : Query)
  | mixin (name : Word) (parameters : ParameterList)
  | function (name : Word) (parameters : ParameterList)
  | inclusion (mixin : Word) (arguments : ArgumentList)
  | forEach (first : Variable) (more : List Variable) (items : Variable)
  | forRange (name first last : Variable) (inclusive : Bool)
  | whileTrue (condition : Variable)

def rangeWordOf (inclusive : Bool) : String := if inclusive then "through" else "to"

def Head.spellings : Head → List Spelling
  | rule selector => selector.spellings
  | media query => [atSignWord "media", space, word query.name]
  | mixin name parameters => [atSignWord "mixin", space, word name.name] ++ parameters.spellings
  | function name parameters => [atSignWord "function", space, word name.name] ++ parameters.spellings
  | inclusion name arguments => [atSignWord "include", space, word name.name] ++ arguments.spellings
  | forEach first more items =>
    [atSignWord "each", space] ++ separated ((first :: more).map fun v => [v.spelling]) ++
      [space, word "in", space, items.spelling]
  | forRange name first last inclusive =>
    [atSignWord "for", space, name.spelling, space, word "from", space, first.spelling, space,
      word (rangeWordOf inclusive), space, last.spelling]
  | whileTrue condition => [atSignWord "while", space, condition.spelling]

def Head.statement (body : List Statement) : Head → Statement
  | rule selector => .rule .start (.ofText selector.text) body
  | media query => .media .start (.ofText query.name) body
  | mixin name parameters => .mixin .start (parameters.callable name body)
  | function name parameters => .function .start (parameters.callable name body)
  | inclusion name arguments => .inclusion .start name.name arguments.arguments (some body)
  | forEach first more items => .forEach .start ((first :: more).map Variable.name) items.expr body
  | forRange name first last inclusive => .forRange .start name.name first.expr last.expr inclusive body
  | whileTrue condition => .whileTrue .start condition.expr body

mutual

inductive Tree where
  | simple (statement : Simple)
  | block (head : Head) (body : List Tree)
  | branch (condition : Variable) (body : List Tree) (others : Others)

/-- What follows the first block of a branching. -/
inductive Others where
  | none
  | otherwise (body : List Tree)
  | elseIf (condition : Variable) (body : List Tree) (others : Others)

end

def inBraces (body : List Spelling) : List Spelling := mark '{' :: body ++ [space, mark '}']

mutual

def Tree.spellings : Tree → List Spelling
  | .simple statement => statement.spellings
  | .block head body => head.spellings ++ space :: inBraces (Tree.spaced body)
  | .branch condition body others =>
    [atSignWord "if", space, condition.spelling, space] ++ inBraces (Tree.spaced body) ++ others.spellings

def Others.spellings : Others → List Spelling
  | .none => []
  | .otherwise body => [space, atSignWord "else", space] ++ inBraces (Tree.spaced body)
  | .elseIf condition body others =>
    [space, atSignWord "else", space, word "if", space, condition.spelling, space] ++ inBraces (Tree.spaced body) ++
      others.spellings

/-- Statements with a space in front of each. -/
def Tree.spaced : List Tree → List Spelling
  | [] => []
  | tree :: rest => space :: tree.spellings ++ Tree.spaced rest

end

mutual

def Tree.statement : Tree → Statement
  | .simple statement => statement.statement
  | .block head body => head.statement (Tree.statements body)
  | .branch condition body others =>
    .branch .start ((condition.expr, Tree.statements body) :: others.clauses) others.last

/-- The blocks with a condition. -/
def Others.clauses : Others → List (Expr × List Statement)
  | .none => []
  | .otherwise _ => []
  | .elseIf condition body others => (condition.expr, Tree.statements body) :: others.clauses

/-- The block without a condition. -/
def Others.last : Others → Option (List Statement)
  | .none => none
  | .otherwise body => some (Tree.statements body)
  | .elseIf _ _ others => others.last

def Tree.statements : List Tree → List Statement
  | [] => []
  | tree :: rest => tree.statement :: Tree.statements rest

end

/-- The text of a stylesheet. -/
def rendered (sheet : List Tree) : String := String.ofList (Spelling.chars (Tree.spaced sheet).tail)

/-! The texts of statements are read as the tokens that they are put together from. -/

section Fits

open Spelling (Fits chars endsName)

variable {name : String} {more after spellings : List Spelling} {c : Char}

/-- What may stand behind a name: a space or a mark that no name holds, but no parenthesis. -/
def EndsWord (spellings : List Spelling) : Prop :=
  ∃ s more, spellings = s :: more ∧ (s = space ∨ ∃ c ∈ [':', ';', ',', ')', '.'], s = mark c)

theorem endsWord_space : EndsWord (space :: more) := ⟨_, _, rfl, .inl rfl⟩

theorem endsWord_mark (sign : c ∈ [':', ';', ',', ')', '.']) : EndsWord (mark c :: more) := ⟨_, _, rfl, .inr ⟨c, sign, rfl⟩⟩

theorem EndsWord.chars (ends : EndsWord more) : ∃ c rest, chars more = c :: rest ∧ Token.isNameChar c = false ∧ c ≠ '(' := by
  obtain ⟨s, more, rfl, rfl | ⟨c, sign, rfl⟩⟩ := ends
  · exact ⟨' ', Spelling.chars more, by simp [space], by decide, by decide⟩
  · refine ⟨c, Spelling.chars more, by simp, ?_⟩
    simp only [List.mem_cons, List.not_mem_nil, or_false] at sign
    rcases sign with rfl | rfl | rfl | rfl | rfl <;> decide

theorem EndsWord.endsName (ends : EndsWord more) : endsName (Spelling.chars more) = true := by
  obtain ⟨c, rest, same, other, -⟩ := ends.chars
  simp [same, Spelling.endsName, other]

theorem fits_word (valid : isIdentifier name.toList = true) (ends : EndsWord more) (fits : Fits more) :
    Fits (word name :: more) := by
  refine ⟨Spelling.reads_word valid ends.endsName fun tail opens => ?_, fits⟩
  obtain ⟨c, rest, same, -, other⟩ := ends.chars
  rw [same] at opens
  exact absurd (List.cons.inj opens).1 other

theorem Variable.fits (v : Variable) (ends : EndsWord more) (fits : Fits more) : Fits (v.spelling :: more) :=
  ⟨Spelling.reads_dollarWord v.valid ends.endsName, fits⟩

theorem fits_atSignWord (valid : isVariableName name.toList = true) (ends : EndsWord more) (fits : Fits more) :
    Fits (atSignWord name :: more) :=
  ⟨Spelling.reads_atSignWord valid ends.endsName, fits⟩

theorem fits_mark (plain : c ∈ [':', ';', ',', '(', ')', '{', '}']) (fits : Fits more) : Fits (mark c :: more) :=
  ⟨Spelling.reads_mark plain, fits⟩

/-- Whether tokens begin with one that is no blank. -/
def isPrinting (spellings : List Spelling) : Bool := spellings.head?.any fun s => !s.isBlank

theorem isPrinting_append (printing : isPrinting spellings = true) : isPrinting (spellings ++ more) = true :=
  Spelling.head?_append_any printing

theorem fits_space (printing : isPrinting spellings = true) (fits : Fits spellings) : Fits (space :: spellings) := by
  refine ⟨Spelling.reads_space ?_, fits⟩
  cases spellings with
  | nil => cases printing
  | cons s more => exact fits.1.startsBlank (by simpa [isPrinting] using printing)

/-- Three points behind a variable. -/
theorem fits_spread (v : Variable) (ends : EndsWord more) (fits : Fits more) :
    Fits (v.spelling :: mark '.' :: mark '.' :: mark '.' :: more) := by
  have point (spellings : List Spelling) : EndsWord (mark '.' :: spellings) := endsWord_mark (by simp)
  have next {spellings : List Spelling} (ends : EndsWord spellings) :
      (chars spellings).head?.all (fun d => !d.isDigit) = true := by
    obtain ⟨d, rest, same, other, -⟩ := ends.chars
    simp_all [Token.isNameChar]
  exact v.fits (point _) ⟨Spelling.reads_point (next (point _)), Spelling.reads_point (next (point _)),
    Spelling.reads_point (next ends), fits⟩

theorem intercalate_begins (separator item : List Spelling) (items : List (List Spelling)) :
    ∃ tail, separator.intercalate (item :: items) = item ++ tail := by
  cases items with
  | nil => exact ⟨[], by rw [List.intercalate_singleton, List.append_nil]⟩
  | cons second items => exact ⟨_, by rw [List.intercalate_cons_cons, List.append_assoc]⟩

/-- Items with a separator between them that runs into nothing, where `ends` says what may follow an item. -/
theorem fits_joined (ends : List Spelling → Prop) {separator : List Spelling} {items : List (List Spelling)}
    (joins : ∀ spellings, isPrinting spellings = true → Fits spellings →
      ends (separator ++ spellings) ∧ Fits (separator ++ spellings))
    (each : ∀ item ∈ items, isPrinting item = true ∧ ∀ more, ends more → Fits more → Fits (item ++ more))
    (ended : ends after) (fits : Fits after) : Fits (separator.intercalate items ++ after) := by
  induction items with
  | nil => exact fits
  | cons item items ih =>
    have first := each item List.mem_cons_self
    have later := ih fun item inside => each item (List.mem_cons_of_mem _ inside)
    cases items with
    | nil =>
      rw [List.intercalate_singleton]
      exact first.2 after ended fits
    | cons second items =>
      have second := (each second (by simp)).1
      obtain ⟨tail, begins⟩ := intercalate_begins separator _ items
      rw [begins, List.append_assoc] at later
      obtain ⟨ends, fits⟩ := joins _ (isPrinting_append second) later
      rw [List.intercalate_cons_cons, begins, List.append_assoc, List.append_assoc, List.append_assoc]
      exact first.2 _ ends fits

/-- A comma does not run into what follows it, and ends what it follows. -/
theorem fits_separated {items : List (List Spelling)}
    (each : ∀ item ∈ items, isPrinting item = true ∧
      ∀ more, EndsWord more → Fits more → Fits (item ++ more)) (ends : EndsWord after) (fits : Fits after) :
    Fits (separated items ++ after) := by
  apply fits_joined EndsWord _ each ends fits
  intro spellings printing fits
  exact ⟨endsWord_mark (by simp), fits_mark (by simp) (fits_space printing fits)⟩

theorem Word.fits (name : Word) (ends : EndsWord more) (fits : Fits more) : Fits (word name.name :: more) :=
  fits_word name.valid ends fits

/-- A class, or anything else behind a point that is no digit. -/
theorem fits_class (name : Word) (ends : EndsWord more) (fits : Fits more) : Fits (mark '.' :: word name.name :: more) := by
  refine ⟨Spelling.reads_point ?_, name.fits ends fits⟩
  have valid := name.valid
  rw [Spelling.chars_cons, word]
  dsimp only
  rw [isIdentifier.eq_def] at valid
  split at valid
  · next text => simp [text]
  · next c tail _ text =>
    simp only [Bool.and_eq_true] at valid
    simp [text, Token.isDigit_of_isNameStart valid.1.1]
  · cases valid

/-- What stands between commas in parentheses. It begins with a variable, as an address does not. -/
def IsItem (item : List Spelling) : Prop :=
  (∃ v : Variable, ∃ tail, item = v.spelling :: tail) ∧ ∀ more, EndsWord more → Fits more → Fits (item ++ more)

theorem startsUrl_eq_false {cs : List Char} (begins : cs.head? = some '$' ∨ cs.head? = some ')') :
    Token.startsUrl cs = false := by
  cases cs with
  | nil => simp at begins
  | cons c tail =>
    rcases begins with begins | begins <;> cases begins <;> rfl

theorem fits_enclosed (name : Word) {items : List (List Spelling)} (each : ∀ item ∈ items, IsItem item)
    (fits : Fits more) : Fits (word name.name :: mark '(' :: separated items ++ mark ')' :: more) := by
  have inside : Fits (mark '(' :: separated items ++ mark ')' :: more) := by
    refine fits_mark (by simp) (fits_separated (fun item member => ?_) (endsWord_mark (by simp)) (fits_mark (by simp) fits))
    obtain ⟨⟨v, tail, rfl⟩, fits⟩ := each item member
    exact ⟨rfl, fits⟩
  refine ⟨Spelling.reads_word name.valid ?_ ?_, inside⟩
  · simp [Spelling.endsName, Token.isNameChar, Token.isNameStart]
  · intro tail opens
    have same : tail = chars (separated items ++ mark ')' :: more) := by simpa using opens.symm
    refine startsUrl_eq_false ?_
    cases items with
    | nil => exact .inr (by simp [same, separated])
    | cons item items =>
      obtain ⟨⟨v, behind, rfl⟩, -⟩ := each _ List.mem_cons_self
      refine .inl ?_
      cases items <;> simp [same, Variable.spelling, dollarWord]

theorem Argument.isItem (argument : Argument) : IsItem argument.spellings := by
  cases argument with
  | positional value => exact ⟨⟨value, _, rfl⟩, fun more ends fits => value.fits ends fits⟩
  | keyword name value =>
    refine ⟨⟨name, _, rfl⟩, fun more ends fits => ?_⟩
    exact name.fits (endsWord_mark (by simp)) (fits_mark (by simp) (fits_space rfl (value.fits ends fits)))
  | spread list => exact ⟨⟨list, _, rfl⟩, fun more ends fits => fits_spread list ends fits⟩

theorem ParameterList.isItem (list : ParameterList) : ∀ item ∈ list.items, IsItem item := by
  intro item member
  simp only [items, List.mem_append, List.mem_map] at member
  rcases member with ⟨⟨name, default⟩, -, rfl⟩ | ⟨v, -, rfl⟩
  · refine ⟨⟨name, _, rfl⟩, fun more ends fits => ?_⟩
    cases default with
    | none => exact name.fits ends fits
    | some v => exact name.fits (endsWord_mark (by simp)) (fits_mark (by simp) (fits_space rfl (v.fits ends fits)))
  · exact ⟨⟨v, _, rfl⟩, fun more ends fits => fits_spread v ends fits⟩

theorem fits_arguments (name : Word) (list : ArgumentList) (ends : EndsWord more) (fits : Fits more) :
    Fits (word name.name :: (list.spellings ++ more)) := by
  unfold ArgumentList.spellings
  split
  · exact name.fits ends fits
  · have each : ∀ item ∈ list.items.map Argument.spellings, IsItem item := by
      rintro _ member
      obtain ⟨argument, -, rfl⟩ := List.mem_map.1 member
      exact argument.isItem
    simpa using fits_enclosed name each fits

theorem fits_parameters (name : Word) (list : ParameterList) (fits : Fits more) :
    Fits (word name.name :: (list.spellings ++ more)) := by
  have enclosed := fits_enclosed name list.isItem fits
  simpa [ParameterList.spellings] using enclosed

theorem fits_flag {name : String} (known : name = "default" ∨ name = "global") (holds : Bool) (ends : EndsWord more)
    (fits : Fits more) : Fits (flag name holds ++ more) ∧ EndsWord (flag name holds ++ more) := by
  cases holds with
  | false => exact ⟨fits, ends⟩
  | true =>
    have bang : (mark '!').Reads (chars (word name :: more)) := by
      refine Spelling.reads_bang ?_
      rcases known with rfl | rfl <;> simp [word]
    have valid : isIdentifier name.toList = true := by
      rcases known with rfl | rfl <;> decide
    exact ⟨fits_space rfl ⟨bang, fits_word valid ends fits⟩, endsWord_space⟩

theorem Simple.fits (statement : Simple) (fits : Fits more) : Fits (statement.spellings ++ more) := by
  have closed : Fits (mark ';' :: more) := fits_mark (by simp) fits
  have ends : EndsWord (mark ';' :: more) := endsWord_mark (by simp)
  cases statement with
  | declaration property value =>
    exact property.toWord.fits (endsWord_mark (by simp)) (fits_mark (by simp) (fits_space rfl (value.fits ends closed)))
  | assignment name value isDefault isGlobal =>
    obtain ⟨last, ends⟩ := fits_flag (.inr rfl) isGlobal ends closed
    obtain ⟨first, ends⟩ := fits_flag (.inl rfl) isDefault ends last
    have colon : Fits (mark ':' :: space :: value.spelling :: _) :=
      fits_mark (by simp) (fits_space rfl (value.fits ends first))
    have whole := name.fits (endsWord_mark (by simp)) colon
    simpa [Simple.spellings] using whole
  | inclusion name arguments =>
    have call := fits_arguments name arguments ends closed
    have whole : Fits (atSignWord "include" :: space :: _) := fits_atSignWord (by decide) endsWord_space (fits_space rfl call)
    simpa [Simple.spellings] using whole
  | content => exact fits_atSignWord (by decide) ends closed
  | result value => exact fits_atSignWord (by decide) endsWord_space (fits_space rfl (value.fits ends closed))
  | comment written =>
    have text : written.comment.text.toList = '/' :: '*' :: (written.body.toList ++ ['*', '/']) := by
      simp [BlockComment.comment]
    exact ⟨Spelling.reads_comment text written.single, fits⟩

theorem Selector.begins (selector : Selector) : ∃ tail, selector.spellings = mark '.' :: tail := by
  obtain ⟨classes, nonempty, -⟩ := selector
  cases classes with
  | nil => exact absurd rfl nonempty
  | cons first more => cases more <;> exact ⟨_, rfl⟩

theorem Head.printing (head : Head) : isPrinting head.spellings = true := by
  cases head with
  | rule selector =>
    obtain ⟨tail, begins⟩ := selector.begins
    rw [Head.spellings, begins]
    rfl
  | _ => rfl

/-- A space stands between a head and its block. -/
theorem Head.fits (head : Head) (fits : Fits (space :: more)) : Fits (head.spellings ++ space :: more) := by
  have ends : EndsWord (space :: more) := endsWord_space
  cases head with
  | rule selector =>
    refine fits_separated (fun item member => ?_) ends fits
    obtain ⟨name, -, rfl⟩ := List.mem_map.1 member
    exact ⟨rfl, fun more ends fits => fits_class name ends fits⟩
  | media query =>
    exact fits_atSignWord (by decide) endsWord_space (fits_space rfl (query.toWord.fits ends fits))
  | mixin name parameters | function name parameters =>
    have whole := fits_space rfl (fits_parameters name parameters fits)
    simpa [Head.spellings] using fits_atSignWord (by decide) endsWord_space whole
  | inclusion name arguments =>
    have whole := fits_space rfl (fits_arguments name arguments ends fits)
    simpa [Head.spellings] using fits_atSignWord (by decide) endsWord_space whole
  | forEach first names items =>
    have behind : Fits (space :: word "in" :: space :: items.spelling :: space :: more) :=
      fits_space rfl (fits_word (by decide) endsWord_space (fits_space rfl (items.fits ends fits)))
    have listed : Fits (separated ((first :: names).map fun v => [v.spelling]) ++ _) :=
      fits_separated (fun item member => by
        obtain ⟨v, -, rfl⟩ := List.mem_map.1 member
        exact ⟨rfl, fun more ends fits => v.fits ends fits⟩) endsWord_space behind
    have printing : isPrinting (separated ((first :: names).map fun v => [v.spelling])) = true := by
      cases names <;> simp [isPrinting, Variable.spelling, dollarWord, Spelling.isBlank]
    have whole : Fits (atSignWord "each" :: space :: _) :=
      fits_atSignWord (by decide) endsWord_space (fits_space (isPrinting_append printing) listed)
    simpa [Head.spellings] using whole
  | forRange name first last inclusive =>
    have range : isIdentifier (rangeWordOf inclusive).toList = true := by cases inclusive <;> decide
    have behind := fits_space rfl (fits_word range endsWord_space (fits_space rfl (last.fits ends fits)))
    have words : Fits (word "from" :: space :: first.spelling :: space :: _) :=
      fits_word (by decide) endsWord_space (fits_space rfl (first.fits endsWord_space behind))
    exact fits_atSignWord (by decide) endsWord_space (fits_space rfl (name.fits endsWord_space (fits_space rfl words)))
  | whileTrue condition =>
    exact fits_atSignWord (by decide) endsWord_space (fits_space rfl (condition.fits ends fits))

theorem Simple.printing (statement : Simple) : isPrinting statement.spellings = true := by
  cases statement <;> rfl

theorem Tree.printing (tree : Tree) : isPrinting tree.spellings = true := by
  cases tree with
  | simple statement => exact statement.printing
  | block head body =>
    rw [spellings]
    exact isPrinting_append head.printing
  | branch condition body others =>
    rw [spellings]
    rfl

theorem fits_inBraces {body : List Spelling} (inside : ∀ more, Fits more → Fits (body ++ more)) (fits : Fits more) :
    Fits (inBraces body ++ more) := by
  have whole := fits_mark (c := '{') (by simp) (inside _ (fits_space (by rfl) (fits_mark (c := '}') (by simp) fits)))
  simpa [inBraces] using whole

mutual

theorem Tree.fits : (tree : Tree) → ∀ more, Fits more → Fits (tree.spellings ++ more)
  | .simple statement, more, fits => by
    rw [Tree.spellings]
    exact statement.fits fits
  | .block head body, more, fits => by
    have block := fits_space rfl (fits_inBraces (Tree.fits_spaced body) fits)
    have whole := head.fits block
    simpa only [Tree.spellings, List.append_assoc, List.cons_append, List.nil_append] using whole
  | .branch condition body others, more, fits => by
    have block := fits_space rfl (fits_inBraces (Tree.fits_spaced body) (others.fits more fits))
    have whole : Fits (atSignWord "if" :: space :: _) :=
      fits_atSignWord (by decide) endsWord_space (fits_space rfl (condition.fits endsWord_space block))
    simpa only [Tree.spellings, List.append_assoc, List.cons_append, List.nil_append] using whole

theorem Others.fits : (others : Others) → ∀ more, Fits more → Fits (others.spellings ++ more)
  | .none, more, fits => fits
  | .otherwise body, more, fits => by
    have block := fits_space rfl (fits_inBraces (Tree.fits_spaced body) fits)
    have whole : Fits (space :: atSignWord "else" :: _) := fits_space rfl (fits_atSignWord (by decide) endsWord_space block)
    simpa only [Others.spellings, List.append_assoc, List.cons_append, List.nil_append] using whole
  | .elseIf condition body others, more, fits => by
    have block := fits_space rfl (fits_inBraces (Tree.fits_spaced body) (others.fits more fits))
    have condition : Fits (space :: word "if" :: space :: condition.spelling :: _) :=
      fits_space rfl (fits_word (by decide) endsWord_space (fits_space rfl (condition.fits endsWord_space block)))
    have whole : Fits (space :: atSignWord "else" :: _) :=
      fits_space rfl (fits_atSignWord (by decide) endsWord_space condition)
    simpa only [Others.spellings, List.append_assoc, List.cons_append, List.nil_append] using whole

theorem Tree.fits_spaced : (trees : List Tree) → ∀ more, Fits more → Fits (Tree.spaced trees ++ more)
  | [], more, fits => fits
  | tree :: trees, more, fits => by
    have whole := fits_space (isPrinting_append tree.printing) (tree.fits _ (Tree.fits_spaced trees more fits))
    simpa only [Tree.spaced, List.append_assoc, List.cons_append] using whole

end

end Fits

end Stylesheet.Canonical
