import Stylesheet.Proofs.ListReading

/-! Expressions of variables, operators, parentheses, maps and lists in the one form that they are usually written in.
Each kind of expression binds as tightly as its operator does, and stands only where nothing tighter is wanted. A looser
one has to be put into parentheses first. -/

namespace Stylesheet

open Spelling (mark space word dollarWord)

namespace Canonical

def operatorSpelling : BinaryOp → Spelling
  | .or => word "or"
  | .and => word "and"
  | .eq => ⟨.relation .equal, "=="⟩
  | .ne => ⟨.relation .unequal, "!="⟩
  | .lt => mark '<'
  | .le => ⟨.relation .atMost, "<="⟩
  | .gt => mark '>'
  | .ge => ⟨.relation .atLeast, ">="⟩
  | .add => mark '+'
  | .sub => mark '-'
  | .mul => mark '*'
  | .div => mark '/'
  | .rem => mark '%'

def inParentheses (body : List Spelling) : List Spelling := mark '(' :: (body ++ [mark ')'])

theorem inParentheses_append (body more : List Spelling) :
    inParentheses body ++ more = mark '(' :: (body ++ mark ')' :: more) := by
  rw [inParentheses, List.cons_append, List.append_assoc, List.singleton_append]

end Canonical

open Canonical (operatorSpelling separated inParentheses)

mutual

/-- The usual form. Only the kinds of expressions that `Canonical.StandsAt` admits have one. -/
def Expr.spellings : Expr → List Spelling
  | .variable name _ => [dollarWord name]
  | .unary .not operand _ => word "not" :: space :: operand.spellings
  | .binary op left right _ => left.spellings ++ space :: operatorSpelling op :: space :: right.spellings
  | .paren inner => inParentheses inner.spellings
  | .map entries _ => inParentheses (separated (Expr.entrySpellings entries))
  | .list items .space false => [space].intercalate (Expr.itemSpellings items)
  | .list items .comma false => separated (Expr.itemSpellings items)
  | _ => []

def Expr.itemSpellings : List Expr → List (List Spelling)
  | [] => []
  | item :: rest => item.spellings :: Expr.itemSpellings rest

def Expr.entrySpellings : List (Expr × Expr) → List (List Spelling)
  | [] => []
  | (key, value) :: rest => (key.spellings ++ mark ':' :: space :: value.spellings) :: Expr.entrySpellings rest

end

/-- The text of an expression. -/
def Expr.rendered (e : Expr) : String := String.ofList (Spelling.chars e.spellings)

theorem Expr.itemSpellings_eq_map (items : List Expr) : itemSpellings items = items.map spellings := by
  induction items with
  | nil => rfl
  | cons item rest ih => rw [itemSpellings, ih, List.map_cons]

theorem Expr.bareAll_eq_map (items : List Expr) : bareAll items = items.map bare := by
  induction items with
  | nil => rfl
  | cons item rest ih => rw [bareAll, ih, List.map_cons]

theorem Expr.bare_listExpr (separator : Separator) (first : Expr) (items : List Expr) :
    (Grammar.listExpr separator first items).bare = Grammar.listExpr separator first.bare (items.map bare) := by
  cases items with
  | nil => rfl
  | cons second items =>
    rw [List.map_cons]
    simp only [Grammar.listExpr, bare, bareAll_eq_map, List.map_cons]

def Expr.entrySpelling (entry : Expr × Expr) : List Spelling :=
  entry.1.spellings ++ mark ':' :: space :: entry.2.spellings

theorem Expr.entrySpellings_eq_map (entries : List (Expr × Expr)) :
    entrySpellings entries = entries.map entrySpelling := by
  induction entries with
  | nil => rfl
  | cons entry rest ih => rw [entrySpellings, ih, List.map_cons, entrySpelling]

namespace Canonical

/-- How tightly an expression must bind where it stands. Lists at commas are the loosest, then lists of a space, then
the operators by their levels. An operand is the tightest. -/
inductive StandsAt : (place : Nat) → Expr → Prop
  | leaf {name : String} {pos : Position} (valid : isVariableName name.toList = true) :
    StandsAt 8 (.variable name pos)
  | not {operand : Expr} {pos : Position} (inner : StandsAt 8 operand) : StandsAt 8 (.unary .not operand pos)
  | paren {inner : Expr} (any : StandsAt 0 inner) : StandsAt 8 (.paren inner)
  | map {entries : List (Expr × Expr)} {pos : Position} (nonempty : entries ≠ [])
    (keys : ∀ entry ∈ entries, StandsAt 1 entry.1) (values : ∀ entry ∈ entries, StandsAt 1 entry.2) :
    StandsAt 8 (.map entries pos)
  | binary {op : BinaryOp} {left right : Expr} {pos : Position} (first : StandsAt (Grammar.bindingLevel op + 2) left)
    (second : StandsAt (Grammar.bindingLevel op + 3) right) :
    StandsAt (Grammar.bindingLevel op + 2) (.binary op left right pos)
  | spaceList {items : List Expr} (several : 2 ≤ items.length) (each : ∀ item ∈ items, StandsAt 2 item) :
    StandsAt 1 (.list items .space false)
  | commaList {items : List Expr} (several : 2 ≤ items.length) (each : ∀ item ∈ items, StandsAt 1 item) :
    StandsAt 0 (.list items .comma false)
  | tighter {place : Nat} {e : Expr} (stands : StandsAt (place + 1) e) : StandsAt place e

variable {e : Expr} {place : Nat} {before more after : List Spelling} {s : Spelling}

theorem StandsAt.of_le {tight : Nat} (stands : StandsAt tight e) (le : place ≤ tight) : StandsAt place e := by
  induction le with
  | refl => exact stands
  | step le ih => exact ih stands.tighter

/-- What every expression begins with: a variable, an opening parenthesis or `not`. -/
def BeginsExpr (spellings : List Spelling) : Prop :=
  ∃ s tail, spellings = s :: tail ∧ ((∃ name, s = dollarWord name) ∨ s = mark '(' ∨ s = word "not")

theorem BeginsExpr.append (begins : BeginsExpr before) : BeginsExpr (before ++ more) := by
  obtain ⟨s, tail, rfl, known⟩ := begins
  exact ⟨s, tail ++ more, rfl, known⟩

theorem BeginsExpr.intercalate {separator : List Spelling} {items : List (List Spelling)} (nonempty : items ≠ [])
    (each : ∀ item ∈ items, BeginsExpr item) : BeginsExpr (separator.intercalate items) := by
  cases items with
  | nil => exact absurd rfl nonempty
  | cons first rest =>
    have begins := each first List.mem_cons_self
    cases rest with
    | nil => rwa [List.intercalate_singleton]
    | cons second rest =>
      rw [List.intercalate_cons_cons, List.append_assoc]
      exact begins.append

theorem StandsAt.begins (stands : StandsAt place e) : BeginsExpr e.spellings := by
  induction stands with
  | leaf valid =>
    rw [Expr.spellings]
    exact ⟨_, [], rfl, .inl ⟨_, rfl⟩⟩
  | not inner ih =>
    rw [Expr.spellings]
    exact ⟨_, _, rfl, .inr (.inr rfl)⟩
  | paren any ih =>
    rw [Expr.spellings]
    exact ⟨_, _, rfl, .inr (.inl rfl)⟩
  | map nonempty keys values keyIh valueIh =>
    rw [Expr.spellings]
    exact ⟨_, _, rfl, .inr (.inl rfl)⟩
  | binary first second firstIh secondIh =>
    rw [Expr.spellings]
    exact firstIh.append
  | @spaceList items several each ih | @commaList items several each ih =>
    have nonempty : items.map Expr.spellings ≠ [] := by
      intro none
      rw [List.map_eq_nil_iff.1 none] at several
      exact absurd several (by decide)
    rw [Expr.spellings, Expr.itemSpellings_eq_map]
    apply BeginsExpr.intercalate nonempty
    intro spelled member
    obtain ⟨item, inside, rfl⟩ := List.mem_map.1 member
    exact ih item inside
  | tighter stands ih => exact ih

theorem BeginsExpr.printing (begins : BeginsExpr before) : isPrinting before = true := by
  obtain ⟨s, tail, rfl, ⟨name, rfl⟩ | rfl | rfl⟩ := begins <;> rfl

/-! The text of an expression is read as the tokens that it is put together from. -/

section Fits

open Spelling (Fits chars endsName)

/-- What may stand behind an expression: nothing, or what may stand behind a word. -/
def EndsExpr (spellings : List Spelling) : Prop := spellings = [] ∨ EndsWord spellings

theorem EndsExpr.endsName (ends : EndsExpr more) : endsName (chars more) = true := by
  obtain rfl | ends := ends
  · rfl
  · exact ends.endsName

theorem endsExpr_space : EndsExpr (space :: more) := .inr endsWord_space

theorem endsExpr_mark {c : Char} (sign : c ∈ [':', ',', ')']) : EndsExpr (mark c :: more) := by
  apply Or.inr
  apply endsWord_mark
  simp only [List.mem_cons, List.not_mem_nil, or_false] at sign ⊢
  tauto

/-- Signs that a space keeps apart from what follows. -/
theorem reads_sign {c : Char} (sign : c ∈ ['<', '>', '+', '-', '*', '/', '%']) (rest : List Char) :
    (mark c).Reads (' ' :: rest) := by
  refine ⟨c, ' ' :: rest, by simp, ?_⟩
  unfold Token.lexeme
  simp only [List.mem_cons, List.not_mem_nil, or_false] at sign
  rcases sign with rfl | rfl | rfl | rfl | rfl | rfl | rfl <;>
    simp [Text.isBlank, mark, Char.toString, Token.isNameStart]

theorem reads_operator (op : BinaryOp) (rest : List Char) : (operatorSpelling op).Reads (' ' :: rest) := by
  have word {name : String} (valid : isIdentifier name.toList = true) : (word name).Reads (' ' :: rest) := by
    apply Spelling.reads_word valid rfl
    intro tail opens
    cases opens
  cases op with
  | or => exact word (by decide)
  | and => exact word (by decide)
  | eq | ne | le | ge => exact ⟨_, _, rfl, rfl⟩
  | lt | gt | add | sub | mul | div | rem => exact reads_sign (by simp) rest

theorem fits_operator (op : BinaryOp) (fits : Fits (space :: more)) : Fits (operatorSpelling op :: space :: more) := by
  refine ⟨?_, fits⟩
  exact reads_operator op (chars more)

theorem StandsAt.fits (stands : StandsAt place e) :
    ∀ more, EndsExpr more → Fits more → Fits (e.spellings ++ more) := by
  induction stands with
  | leaf valid =>
    intro more ends fits
    rw [Expr.spellings]
    exact ⟨Spelling.reads_dollarWord valid ends.endsName, fits⟩
  | not inner ih =>
    intro more ends fits
    have operand := fits_space (isPrinting_append inner.begins.printing) (ih more ends fits)
    rw [Expr.spellings]
    exact fits_word (by decide) endsWord_space operand
  | paren any ih =>
    intro more ends fits
    have inside := ih _ (endsExpr_mark (by simp)) (fits_mark (c := ')') (by simp) fits)
    rw [Expr.spellings, inParentheses_append]
    exact fits_mark (by simp) inside
  | @map entries pos nonempty keys values keyIh valueIh =>
    intro more ends fits
    have inside : Fits (separated (entries.map Expr.entrySpelling) ++ mark ')' :: more) := by
      apply fits_separated
      · intro spelled member
        obtain ⟨entry, inside, rfl⟩ := List.mem_map.1 member
        refine ⟨isPrinting_append (keys entry inside).begins.printing, ?_⟩
        intro more ends fits
        have value := valueIh entry inside more (.inr ends) fits
        have colon := fits_mark (c := ':') (by simp)
          (fits_space (isPrinting_append (values entry inside).begins.printing) value)
        have whole := keyIh entry inside _ (endsExpr_mark (by simp)) colon
        rwa [Expr.entrySpelling, List.append_assoc]
      · exact endsWord_mark (by simp)
      · exact fits_mark (by simp) fits
    rw [Expr.spellings, Expr.entrySpellings_eq_map, inParentheses_append]
    exact fits_mark (by simp) inside
  | @binary op left right pos first second firstIh secondIh =>
    intro more ends fits
    have operand := fits_space (isPrinting_append second.begins.printing) (secondIh more ends fits)
    have behind := fits_space ?_ (fits_operator op operand)
    have whole := firstIh _ endsExpr_space behind
    · rw [Expr.spellings, List.append_assoc]
      exact whole
    · cases op <;> rfl
  | @spaceList items several each ih =>
    intro more ends fits
    rw [Expr.spellings, Expr.itemSpellings_eq_map]
    apply fits_joined EndsExpr _ _ ends fits
    · intro spellings printing fits
      exact ⟨endsExpr_space, fits_space printing fits⟩
    · intro spelled member
      obtain ⟨item, inside, rfl⟩ := List.mem_map.1 member
      exact ⟨(each item inside).begins.printing, ih item inside⟩
  | @commaList items several each ih =>
    intro more ends fits
    rw [Expr.spellings, Expr.itemSpellings_eq_map]
    apply fits_joined EndsExpr _ _ ends fits
    · intro spellings printing fits
      exact ⟨endsExpr_mark (by simp), fits_mark (by simp) (fits_space printing fits)⟩
    · intro spelled member
      obtain ⟨item, inside, rfl⟩ := List.mem_map.1 member
      exact ⟨(each item inside).begins.printing, ih item inside⟩
  | tighter stands ih => exact ih

end Fits

end Canonical

end Stylesheet
