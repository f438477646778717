/-! Blank characters, and the cuts of a text at them. A text is a list of characters here, so that
every cut can be reasoned about as a cut of a list. -/

namespace Stylesheet.Text

/-- The characters that have the Unicode property White_Space. -/
def isBlank (c : Char) : Bool :=
  let n := c.toNat
  (9 ≤ n && n ≤ 13) || n == 0x20 || n == 0x85 || n == 0xA0 || n == 0x1680 || (0x2000 ≤ n && n ≤ 0x200A)
    || n == 0x2028 || n == 0x2029 || n == 0x202F || n == 0x205F || n == 0x3000

def trimStart (cs : List Char) : List Char := cs.dropWhile isBlank

def trimEnd : List Char → List Char
  | [] => []
  | c :: rest =>
    match trimEnd rest with
    | [] => if isBlank c then [] else [c]
    | kept => c :: kept

def trim (cs : List Char) : List Char := trimEnd (trimStart cs)

/-- The pieces between occurrences of a separator; one more piece than there are occurrences. -/
def pieces (isSeparator : Char → Bool) : List Char → List (List Char)
  | [] => [[]]
  | c :: rest =>
    if isSeparator c then [] :: pieces isSeparator rest
    else
      match pieces isSeparator rest with
      | [] => [[c]]
      | first :: others => (c :: first) :: others

/-- The maximal runs of characters that are not blank. -/
def words (cs : List Char) : List (List Char) :=
  (pieces isBlank cs).filter (!·.isEmpty)

/-- Each run of blank characters becomes one space; `afterBlank` says that a run has begun. -/
def squeeze : (afterBlank : Bool) → List Char → List Char
  | _, [] => []
  | afterBlank, c :: rest =>
    if isBlank c then
      if afterBlank then squeeze true rest else ' ' :: squeeze true rest
    else c :: squeeze false rest

/-- A text cut at its line feeds. A line feed at the end closes the last line and opens no other. -/
def lines (cs : List Char) : List (List Char) :=
  let cut := pieces (· == '\n') cs
  if cut.getLast? == some [] then cut.dropLast else cut

end Stylesheet.Text

namespace Stylesheet

def Text.trimmed (s : String) : String := String.ofList (Text.trim s.toList)

def Text.trimmedEnd (s : String) : String := String.ofList (Text.trimEnd s.toList)

/-- Whether two words agree up to the case of ASCII letters. -/
def Text.sameWord (s t : String) : Bool := s.toLower == t.toLower

end Stylesheet
