import Stylesheet.Selector
import Stylesheet.Text.Blank
import Stylesheet.Token.Lexer

/-! Reading selectors. A reader takes a selector from the front of a text and gives back what follows it, or
nothing when there is no such selector there. A list that cannot be read to its end is split at its commas, and
the pieces are kept as they are. -/

namespace Stylesheet.Selector

abbrev Reader (α : Type) := List Char → Option (α × List Char)

/-- The blank characters that may stand around combinators and commas. -/
def isSpace (c : Char) : Bool := c == ' ' || c == '\t' || c == '\r' || c == '\n'

def skipSpace (cs : List Char) : List Char := cs.dropWhile isSpace

/-- A name: hyphens, then a character that begins names, then any that continue them. -/
def readName : Reader (List Char) := fun cs =>
  let hyphens := cs.takeWhile (· == '-')
  let rest := cs.dropWhile (· == '-')
  match rest with
  | c :: _ =>
    if Token.isNameStart c then some (hyphens ++ rest.takeWhile Token.isNameChar, rest.dropWhile Token.isNameChar)
    else none
  | [] => none

/-- The characters through the parenthesis that closes `depth` open ones and one more. -/
def readBalanced : (depth : Nat) → Reader (List Char)
  | _, [] => none
  | depth, c :: rest =>
    if c = ')' ∧ depth = 0 then some ([c], rest)
    else
      let depth := if c = '(' then depth + 1 else if c = ')' then depth - 1 else depth
      (readBalanced depth rest).map fun (taken, left) => (c :: taken, left)

/-- A pseudo-class or pseudo-element behind its first colon. -/
def readPseudo : Reader Simple := fun cs =>
  let (colons, rest) := match cs with
    | ':' :: rest => ([':', ':'], rest)
    | _ => ([':'], cs)
  (readName rest).map fun (name, rest) =>
    let bare := (Simple.pseudo (String.ofList (colons ++ name)), rest)
    match rest with
    | '(' :: argument =>
      match readBalanced 0 argument with
      | some (taken, left) => (.pseudo (String.ofList (colons ++ name ++ '(' :: taken)), left)
      | none => bare
    | _ => bare

def readPercentage : Reader Simple := fun cs =>
  let (whole, fraction, rest) := Token.scanNumber cs
  match rest with
  | '%' :: left =>
    if whole.isEmpty then none
    else some (.percentage (String.ofList (whole ++ (if fraction.isEmpty then [] else '.' :: fraction) ++ ['%'])), left)
  | _ => none

def readSimple : Reader Simple := fun cs =>
  let named (kind : String → Simple) (rest : List Char) : Option (Simple × List Char) :=
    (readName rest).map fun (name, left) => (kind (String.ofList name), left)
  match cs with
  | '#' :: rest => named .idName rest
  | '.' :: rest => named .className rest
  | '%' :: rest => named .placeholder rest
  | ':' :: rest => readPseudo rest
  | '&' :: rest =>
    let more := rest.takeWhile Token.isNameChar
    some (.parent (if more.isEmpty then none else some (String.ofList more)), rest.dropWhile Token.isNameChar)
  | '*' :: rest => some (.universal, rest)
  | '[' :: rest =>
    match rest.dropWhile (· != ']') with
    | _ :: left => some (.bracketed (String.ofList (Text.trim (rest.takeWhile (· != ']')))), left)
    | [] => none
  | _ => (readPercentage cs).orElse fun _ => named .element cs

/-- As many simple selectors as follow each other. Each takes a character at least, so `steps` need not exceed the
number of characters. -/
def readSimples : (steps : Nat) → List Char → Compound × List Char
  | 0, cs => ([], cs)
  | steps + 1, cs =>
    match readSimple cs with
    | some (simple, rest) => let (more, left) := readSimples steps rest; (simple :: more, left)
    | none => ([], cs)

def readCompound : Reader Compound := fun cs =>
  match readSimples cs.length cs with
  | ([], _) => none
  | (compound, left) => some (compound, left)

def readCombinator : Reader Combinator
  | '>' :: rest => some (.child, rest)
  | '+' :: rest => some (.adjacent, rest)
  | '~' :: rest => some (.sibling, rest)
  | _ => none

/-- A combinator and the compound selector behind it. -/
def readNext : Reader (Combinator × Compound) := fun cs =>
  let rest := skipSpace cs
  match readCombinator rest with
  | some (combinator, rest) =>
    (readCompound (skipSpace rest)).map fun (compound, left) => ((combinator, compound), left)
  | none =>
    if rest.length < cs.length then (readCompound rest).map fun (compound, left) => ((.descendant, compound), left)
    else none

/-- The links that begin with a compound selector that has been read already. -/
def readLinks : (steps : Nat) → (compound : Compound) → List Char → List Link × List Char
  | 0, compound, cs => ([⟨compound, .none⟩], cs)
  | steps + 1, compound, cs =>
    match readNext cs with
    | some ((combinator, next), rest) =>
      let (links, left) := readLinks steps next rest
      (⟨compound, combinator⟩ :: links, left)
    | none => ([⟨compound, .none⟩], cs)

def read : Reader Selector := fun cs =>
  let cs := skipSpace cs
  let (leading, cs) : List Link × List Char := match readCombinator cs with
    | some (combinator, rest) => ([⟨[], combinator⟩], skipSpace rest)
    | none => ([], cs)
  (readCompound cs).map fun (compound, rest) =>
    let (links, left) := readLinks rest.length compound rest
    (⟨leading ++ links⟩, left)

def readMore : (steps : Nat) → List Char → Selectors × List Char
  | 0, cs => ([], cs)
  | steps + 1, cs =>
    match skipSpace cs with
    | ',' :: rest =>
      match read rest with
      | some (selector, rest) => let (more, left) := readMore steps rest; (selector :: more, left)
      | none => ([], cs)
    | _ => ([], cs)

/-- The pieces between commas that stand in no parentheses and no brackets. -/
def pieces : (depth : Nat) → List Char → List (List Char)
  | _, [] => [[]]
  | depth, c :: rest =>
    if c = ',' ∧ depth = 0 then [] :: pieces depth rest
    else
      let depth := if c = '(' ∨ c = '[' then depth + 1 else if c = ')' ∨ c = ']' then depth - 1 else depth
      match pieces depth rest with
      | [] => [[c]]
      | first :: others => (c :: first) :: others

/-- A selector that is kept as it is written. -/
def verbatim (cs : List Char) : Selector := ⟨[⟨[.raw (String.ofList cs)], .none⟩]⟩

end Selector

namespace Selectors

/-- The selectors of a text that is a list of selectors from beginning to end. -/
def read? (cs : List Char) : Option Selectors :=
  match Selector.read cs with
  | some (first, rest) =>
    let (more, left) := Selector.readMore rest.length rest
    if (Text.trim left).isEmpty then some (first :: more) else none
  | none => none

def parse (text : String) : Selectors :=
  let cs := text.toList
  (read? cs).getD (((Selector.pieces 0 cs).map Text.trim |>.filter (!·.isEmpty)).map Selector.verbatim)

end Selectors

end Stylesheet
