import Stylesheet.Proofs.Tiling
import Stylesheet.Value.Text

/-! Quoted strings that are written and read again. The writer escapes the quote that it has chosen and leaves all other
escapes alone, so the lexer comes to the closing quote where the writer put it, and not before. -/

namespace Stylesheet.Value
open Token

/-- Whether a text can stand between quotes, but for the quotes in it: each backslash has a character behind it, and
each line feed and each opening of an interpolation stands behind a backslash. -/
def standsInQuotes : List Char → Bool
  | [] => true
  | ['\\'] => false
  | '\\' :: _ :: rest => standsInQuotes rest
  | '#' :: '{' :: _ => false
  | c :: rest => c != '\n' && standsInQuotes rest

/-- What an escaped text means: each backslash goes and leaves the character behind it. -/
def unescaped : List Char → List Char
  | '\\' :: c :: rest => c :: unescaped rest
  | c :: rest => c :: unescaped rest
  | [] => []

variable {quote : Char} {text left : List Char}

theorem quoteFor_cases (text : List Char) : quoteFor text = '"' ∨ quoteFor text = '\'' := by
  unfold quoteFor
  split
  · exact .inr rfl
  · exact .inl rfl

/-- A character that is no escape, or a backslash at the end, is kept. -/
theorem unescaped_cons {c : Char} (plain : c = '\\' → text = []) : unescaped (c :: text) = c :: unescaped text := by
  by_cases escape : c = '\\'
  · rw [escape, plain escape]
    rfl
  · exact unescaped.eq_2 c text fun _ _ same => absurd same escape

/-- An escape that the writer adds means the quote itself. -/
theorem unescaped_escapeQuote (isQuote : quote = '"' ∨ quote = '\'') (text : List Char) :
    unescaped (escapeQuote quote text) = unescaped text := by
  fun_induction escapeQuote quote text with
  | case1 c rest later => rw [unescaped, unescaped, later]
  | case2 rest plain later =>
    have other : quote ≠ '\\' := by rcases isQuote with rfl | rfl <;> decide
    rw [unescaped, unescaped_cons (absurd · other), later]
  | case3 c rest plain different later =>
    have alone : c = '\\' → rest = [] := fun escape =>
      List.eq_nil_iff_forall_not_mem.2 fun d member => by
        cases rest with
        | nil => cases member
        | cons d rest => exact plain d rest escape rfl
    have alone' : c = '\\' → escapeQuote quote rest = [] := fun escape => by rw [alone escape, escapeQuote]
    rw [unescaped_cons alone', unescaped_cons alone, later]
  | case4 => rfl

/-- The writer puts no brace in front that was not there. -/
theorem escapeQuote_brace {tail : List Char} (isQuote : quote = '"' ∨ quote = '\'')
    (begins : escapeQuote quote text ++ quote :: left = '{' :: tail) : ∃ rest, text = '{' :: rest := by
  have brace : quote ≠ '{' := by rcases isQuote with rfl | rfl <;> decide
  revert begins
  fun_cases escapeQuote quote text with
  | case1 c rest => exact nofun
  | case2 rest plain => exact nofun
  | case3 c rest plain different =>
    intro begins
    obtain ⟨rfl, -⟩ := List.cons.inj begins
    exact ⟨rest, rfl⟩
  | case4 => exact fun begins => absurd (List.cons.inj begins).1 brace

/-- The writer's text between quotes is read up to the quote behind it. -/
theorem scanQuoted_escapeQuote (isQuote : quote = '"' ∨ quote = '\'') (stands : standsInQuotes text = true) :
    scanQuoted quote (escapeQuote quote text ++ quote :: left) = .closed (escapeQuote quote text) left := by
  have other : quote ≠ '\\' ∧ quote ≠ '#' := by rcases isQuote with rfl | rfl <;> decide
  fun_induction standsInQuotes text with
  | case1 =>
    rw [escapeQuote, List.nil_append, scanQuoted.eq_3 quote quote left (fun _ _ same => absurd same other.1)
      fun _ same => absurd same other.2, if_pos rfl]
  | case2 => cases stands
  | case3 c rest later =>
    rw [escapeQuote, List.cons_append, List.cons_append, scanQuoted, later stands]
    rfl
  | case4 => cases stands
  | case5 c rest alone plain opening later =>
    obtain ⟨inLine, stands⟩ := Bool.and_eq_true_iff.1 stands
    have escape : c ≠ '\\' := fun escape => by
      cases rest with
      | nil => exact alone escape rfl
      | cons d rest => exact plain d rest escape rfl
    rw [escapeQuote.eq_2 quote c rest fun _ _ same => absurd same escape]
    split
    next => rw [List.cons_append, List.cons_append, scanQuoted, later stands]; rfl
    next different =>
      have closed (tail : List Char) (sign : c = '#')
          (begins : escapeQuote quote rest ++ quote :: left = '{' :: tail) : False := by
        obtain ⟨rest, rfl⟩ := escapeQuote_brace isQuote begins
        exact opening rest sign rfl
      rw [List.cons_append, scanQuoted.eq_3 quote c _ (fun _ _ same => absurd same escape) closed, if_neg different,
        if_neg (by simpa using inLine), later stands]
      rfl

theorem lexeme_quoted {rest contents : List Char} (isQuote : quote = '"' ∨ quote = '\'')
    (closed : scanQuoted quote rest = .closed contents left) :
    lexeme quote rest = .ok ⟨.quoted (String.ofList contents) quote, quote :: contents ++ [quote], left⟩ := by
  have sign : Text.isBlank quote = false ∧ (quote == '/') = false ∧ (quote == '"' || quote == '\'') = true := by
    rcases isQuote with rfl | rfl <;> decide
  unfold lexeme
  simp only [sign.1, sign.2.1, sign.2.2, Bool.false_and, Bool.or_self, Bool.false_eq_true, if_false, if_true, closed]

theorem css_string (text : String) (quoted : Bool) (places : Nat) (compressed : Bool) :
    (string text quoted).css places compressed = .ok (stringText text quoted) := by rw [css]

theorem scan_nil (steps offset : Nat) (pos : Position) : scan steps offset pos [] = ⟨[], none⟩ := by cases steps <;> rfl

/-- The text between the quotes that the writer chooses is one token. -/
theorem lex_quotedText {text : String} (stands : standsInQuotes text.toList = true) (origin : Position) :
    lex (quotedText text) origin =
      { tokens := [⟨.quoted (String.ofList (escapeQuote (quoteFor text.toList) text.toList)) (quoteFor text.toList),
          quotedText text, 0, origin, origin.after (quotedText text).toList⟩], error := none } := by
  have isQuote := quoteFor_cases text.toList
  have closed : scanQuoted (quoteFor text.toList) (escapeQuote (quoteFor text.toList) text.toList ++
      [quoteFor text.toList]) = .closed (escapeQuote (quoteFor text.toList) text.toList) [] :=
    scanQuoted_escapeQuote isQuote stands
  have whole : (quotedText text).toList =
      quoteFor text.toList :: (escapeQuote (quoteFor text.toList) text.toList ++ [quoteFor text.toList]) := by
    rw [quotedText, String.toList_ofList, List.cons_append]
  rw [lex, whole, List.length_cons, scan_cons, lexeme_quoted isQuote closed]
  dsimp only
  rw [scan_nil, List.cons_append, ← whole, String.ofList_toList]

/-- A string that is written with quotes is read as one token, which is all of the text and means what the string does.
It does not matter which quotes the writer chooses, and which the string has inside, escaped or not. -/
theorem css_quoted_string (text : String) (places : Nat) (compressed : Bool) (origin : Position)
    (stands : standsInQuotes text.toList = true) :
    ∃ (written contents : String) (quote : Char), css places compressed (string text true) = .ok written ∧
      lex written origin =
        { tokens := [⟨.quoted contents quote, written, 0, origin, origin.after written.toList⟩], error := none } ∧
      unescaped contents.toList = unescaped text.toList := by
  have same : unescaped (escapeQuote (quoteFor text.toList) text.toList) = unescaped text.toList :=
    unescaped_escapeQuote (quoteFor_cases text.toList) text.toList
  exact ⟨quotedText text, _, quoteFor text.toList, css_string text true places compressed, lex_quotedText stands origin,
    by rw [String.toList_ofList, same]⟩

/-- Both kinds of quotes, each of them once escaped and once not, an escaped line feed and an escaped opening. -/
theorem css_quoted_string_mixed :
    let text := "\\\"a' #\\\x7b\" \\\n\\'"
    standsInQuotes text.toList = true ∧
      ∃ written contents quote, (string text true).css 5 false = .ok written ∧
        written = "\"\\\"a' #\\\x7b\\\" \\\n\\'\"" ∧
        (lex written).tokens.map Token.kind = [.quoted contents quote] ∧
        unescaped contents.toList = "\"a' #\x7b\" \n'".toList := by
  intro text
  have stands : standsInQuotes text.toList = true := by decide +kernel
  have meaning : unescaped text.toList = "\"a' #\x7b\" \n'".toList := by decide +kernel
  have shown : quotedText text = "\"\\\"a' #\\\x7b\\\" \\\n\\'\"" := by decide +kernel
  obtain ⟨written, contents, quote, known, read, same⟩ := css_quoted_string text 5 false .start stands
  obtain rfl := Except.ok.inj ((css_string text true 5 false).symm.trans known)
  exact ⟨stands, _, contents, quote, known, shown, by rw [read]; rfl, same.trans meaning⟩

end Stylesheet.Value
