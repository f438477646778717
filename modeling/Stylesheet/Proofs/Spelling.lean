import Stylesheet.Proofs.Tiling

/-! Texts that are put together from tokens. Where each token is followed by a text that it cannot run into, the tokens
of the whole text are the ones that it was put together from. -/

namespace Stylesheet

/-- What a token is, apart from where it stands. -/
structure Spelling where
  kind : TokenKind
  text : String

def Token.spelling (token : Token) : Spelling := ⟨token.kind, token.text⟩

open Token in
/-- The characters of a name, in which a backslash takes the character behind it along. -/
def isNameBody : List Char → Bool
  | '\\' :: _ :: rest => isNameBody rest
  | c :: rest => c != '\\' && isNameChar c && isNameBody rest
  | [] => true

open Token in
/-- A word of a stylesheet. A hyphen in front of it must be followed by a letter or by another hyphen. -/
def isIdentifier : List Char → Bool
  | '-' :: d :: rest => (isNameStart d || d == '-') && isNameBody (d :: rest)
  | c :: rest => isNameStart c && !Text.isBlank c && isNameBody (c :: rest)
  | [] => false

/-- The name of a variable, without the dollar sign. -/
def isVariableName : List Char → Bool
  | c :: rest => Token.isNameStart c && isNameBody (c :: rest)
  | [] => false

namespace Spelling

variable {name : String} {rest cs : List Char} {c : Char}

/-- The text that tokens make when they are written one behind the other. -/
def chars (spellings : List Spelling) : List Char := spellings.flatMap (·.text.toList)

@[simp] theorem chars_nil : chars [] = [] := rfl

@[simp] theorem chars_cons (s : Spelling) (more : List Spelling) : chars (s :: more) = s.text.toList ++ chars more :=
  List.flatMap_cons

@[simp] theorem chars_append (first second : List Spelling) : chars (first ++ second) = chars first ++ chars second :=
  List.flatMap_append

/-- The first token of a text is the one that it begins with, when `rest` is what stands behind that. -/
def Reads (s : Spelling) (rest : List Char) : Prop :=
  ∃ c tail, s.text.toList ++ rest = c :: tail ∧ Token.lexeme c tail = .ok ⟨s.kind, s.text.toList, rest⟩

def Fits : List Spelling → Prop
  | [] => True
  | s :: more => s.Reads (chars more) ∧ Fits more

def isBlank (s : Spelling) : Bool :=
  match s.kind with
  | .blank _ => true
  | _ => false

/-- A token that is no blank does not begin with one. -/
theorem Reads.startsBlank {s : Spelling} (reads : s.Reads rest) (printing : s.isBlank = false) :
    Token.startsBlank (s.text.toList ++ rest) = false := by
  obtain ⟨c, tail, text, lexeme⟩ := reads
  rw [text]
  refine Bool.eq_false_iff.2 fun blank => ?_
  have blank : (Text.isBlank c || (c == '/' && tail.head?.any (· == '/'))) = true := blank
  unfold Token.lexeme at lexeme
  rw [if_pos blank] at lexeme
  have kind : (Token.blankLexeme (c :: tail)).kind = s.kind := congrArg Token.Lexeme.kind (Except.ok.inj lexeme)
  rw [isBlank, ← kind] at printing
  cases printing

theorem Reads.length_pos {s : Spelling} (reads : s.Reads rest) : 0 < s.text.toList.length := by
  obtain ⟨c, tail, -, lexeme⟩ := reads
  have reads := Token.lexeme_reads c tail
  rw [lexeme] at reads
  exact List.length_pos_iff.2 reads.1.nonempty

theorem length_le_chars {spellings : List Spelling} (fits : Fits spellings) :
    spellings.length ≤ (chars spellings).length := by
  induction spellings with
  | nil => exact Nat.le_refl _
  | cons s more ih =>
    have first := fits.1.length_pos
    have rest := ih fits.2
    rw [chars_cons, List.length_append, List.length_cons]
    omega

theorem scan_chars {spellings : List Spelling} (fits : Fits spellings) {steps : Nat}
    (enough : (chars spellings).length ≤ steps) (offset : Nat) (origin : Position) :
    (Token.scan steps offset origin (chars spellings)).error = none ∧
      (Token.scan steps offset origin (chars spellings)).tokens.map Token.spelling = spellings := by
  induction spellings generalizing steps offset origin with
  | nil => cases steps <;> exact ⟨rfl, rfl⟩
  | cons s more ih =>
    have nonempty := fits.1.length_pos
    obtain ⟨⟨c, tail, text, first⟩, fits⟩ := fits
    rw [chars_cons, text] at enough ⊢
    obtain ⟨steps, rfl⟩ : ∃ fewer, steps = fewer + 1 := by
      refine Nat.exists_eq_add_one.2 ?_
      rw [List.length_cons] at enough
      omega
    have shorter : (chars more).length ≤ steps := by
      have lengths := congrArg List.length text
      simp only [List.length_append, List.length_cons] at lengths enough
      omega
    rw [Token.scan_cons, first]
    obtain ⟨sound, same⟩ := ih fits shorter (Token.mk s.kind (String.ofList s.text.toList) offset origin
      (origin.after s.text.toList)).stop (origin.after s.text.toList)
    refine ⟨sound, ?_⟩
    simp only [List.map_cons, same]
    rw [Token.spelling, String.ofList_toList]

theorem lex_chars {spellings : List Spelling} (fits : Fits spellings) (origin : Position) :
    (lex (String.ofList (chars spellings)) origin).error = none ∧
      (lex (String.ofList (chars spellings)) origin).tokens.map Token.spelling = spellings := by
  have scanned := scan_chars fits (Nat.le_refl _) 0 origin
  rwa [lex, String.toList_ofList]

/-! Names -/

/-- Whether a name ends in front of a text. -/
def endsName (cs : List Char) : Bool := cs.head?.all (!Token.isNameChar ·)

theorem scanName_body (body : isNameBody cs = true) (ends : endsName rest = true) :
    Token.scanName (cs ++ rest) = (cs, rest) := by
  fun_induction isNameBody cs with
  | case1 c tail ih =>
    rw [List.cons_append, List.cons_append, Token.scanName, ih body]
  | case2 c tail _ ih =>
    simp only [Bool.and_eq_true, bne_iff_ne] at body
    obtain ⟨⟨plain, named⟩, body⟩ := body
    rw [List.cons_append, Token.scanName.eq_def]
    split
    · next same => exact absurd (List.cons.inj same).1 plain
    · next same =>
      cases same
      rw [if_pos named, ih body]
    · next same => cases same
  | case3 =>
    cases rest with
    | nil => rfl
    | cons c rest =>
      have other : Token.isNameChar c = false := by simpa [endsName] using ends
      rw [List.nil_append, Token.scanName.eq_def]
      split
      · next same =>
        cases same
        cases other
      · next same =>
        cases same
        rw [if_neg (by simp [other])]
      · next same => cases same

/-- A letter begins neither blanks, a comment nor a string, and it is no sign. -/
theorem lexeme_letter (start : Token.isNameStart c = true) (printing : Text.isBlank c = false) (rest : List Char) :
    Token.lexeme c rest = .ok (Token.wordLexeme (c :: rest)) := by
  have other {d : Char} (sign : Token.isNameStart d = false) : (c == d) = false := by
    refine beq_false_of_ne ?_
    rintro rfl
    simp [start] at sign
  have digit := Token.isDigit_of_isNameStart start
  have slash := other (d := '/') (by decide)
  have point := other (d := '.') (by decide)
  unfold Token.lexeme
  rw [if_neg (by simp [printing, slash]), if_neg (by simp [slash]),
    if_neg (by simp [other (d := '"') (by decide), other (d := '\'') (by decide)]),
    if_neg (by simp [other (d := '$') (by decide)]), if_neg (by simp [other (d := '@') (by decide)]),
    if_neg (by simp [other (d := '#') (by decide)]), if_neg (by simp [other (d := '#') (by decide)]),
    if_neg (by simp [digit, point]), if_neg (by simp [other (d := '-') (by decide)]), if_pos start]

/-- A hyphen that begins a name. -/
theorem lexeme_hyphen (second : rest.head?.any (fun d => Token.isNameStart d || d == '-') = true) :
    Token.lexeme '-' rest = .ok (Token.named .ident [] ('-' :: rest)) := by
  unfold Token.lexeme
  rw [if_neg (by simp [Text.isBlank]), if_neg (by simp), if_neg (by decide), if_neg (by simp), if_neg (by simp),
    if_neg (by simp), if_neg (by simp), if_neg (by simp), if_pos (by simpa using second)]

def word (name : String) : Spelling := ⟨.ident name, name⟩

theorem named_eq (kind : String → TokenKind) (sign : List Char) (body : isNameBody name.toList = true)
    (ends : endsName rest = true) :
    Token.named kind sign (name.toList ++ rest) = ⟨kind name, sign ++ name.toList, rest⟩ := by
  rw [Token.named, scanName_body body ends]
  dsimp only
  rw [String.ofList_toList]

theorem wordLexeme_eq (body : isNameBody name.toList = true) (ends : endsName rest = true)
    (plain : ∀ tail, rest = '(' :: tail → Token.startsUrl tail = false) :
    Token.wordLexeme (name.toList ++ rest) = ⟨.ident name, name.toList, rest⟩ := by
  unfold Token.wordLexeme
  rw [scanName_body body ends]
  dsimp only
  rw [String.ofList_toList]
  split
  · next tail =>
    rw [if_neg (by simp [plain tail rfl])]
  · rfl

/-- A name is read as a word, unless `url` and a parenthesis begin an address. -/
theorem reads_word (valid : isIdentifier name.toList = true) (ends : endsName rest = true)
    (plain : ∀ tail, rest = '(' :: tail → Token.startsUrl tail = false) : (word name).Reads rest := by
  have first : ∃ c tail, name.toList = c :: tail ∧
      Token.lexeme c (tail ++ rest) = .ok ⟨.ident name, name.toList, rest⟩ := by
    have valid := valid
    rw [isIdentifier.eq_def] at valid
    split at valid
    · next d tail text =>
      obtain ⟨second, body⟩ := Bool.and_eq_true_iff.1 valid
      have whole : isNameBody name.toList = true := by
        rw [text, isNameBody.eq_def]
        simpa [Token.isNameChar] using body
      refine ⟨'-', d :: tail, text, ?_⟩
      rw [lexeme_hyphen (by simpa using second), ← List.cons_append, ← text, named_eq .ident [] whole ends]
      rfl
    · next c tail _ text =>
      simp only [Bool.and_eq_true, Bool.not_eq_true'] at valid
      obtain ⟨⟨start, printing⟩, body⟩ := valid
      refine ⟨c, tail, text, ?_⟩
      rw [lexeme_letter start printing, ← List.cons_append, ← text, wordLexeme_eq (text ▸ body) ends plain]
    · cases valid
  obtain ⟨c, tail, text, lexeme⟩ := first
  exact ⟨c, tail ++ rest, congrArg (· ++ rest) text, lexeme⟩

theorem isVariableName_iff : isVariableName cs = true ↔
    cs.head?.any Token.isNameStart = true ∧ isNameBody cs = true := by
  cases cs with
  | nil => simp [isVariableName]
  | cons c tail => simp [isVariableName]

theorem head?_append_any {α : Type} {p : α → Bool} {front behind : List α} (first : front.head?.any p = true) :
    (front ++ behind).head?.any p = true := by
  cases front with
  | nil => cases first
  | cons c tail => exact first

/-- The use of a variable. -/
def dollarWord (name : String) : Spelling := ⟨.variable name, "$" ++ name⟩

theorem reads_dollarWord (valid : isVariableName name.toList = true) (ends : endsName rest = true) :
    (dollarWord name).Reads rest := by
  obtain ⟨start, body⟩ := isVariableName_iff.1 valid
  have second : (name.toList ++ rest).head?.any Token.isNameStart = true := head?_append_any start
  refine ⟨'$', name.toList ++ rest, by simp [dollarWord], ?_⟩
  unfold Token.lexeme
  rw [if_neg (by simp [Text.isBlank]), if_neg (by simp), if_neg (by decide), if_pos (by simpa using second),
    named_eq .variable ['$'] body ends]
  simp [dollarWord]

/-- The name of a directive. -/
def atSignWord (name : String) : Spelling := ⟨.atKeyword name, "@" ++ name⟩

theorem reads_atSignWord (valid : isVariableName name.toList = true) (ends : endsName rest = true) :
    (atSignWord name).Reads rest := by
  obtain ⟨start, body⟩ := isVariableName_iff.1 valid
  have second : (name.toList ++ rest).head?.any (fun d => Token.isNameStart d || d == '-') = true :=
    head?_append_any (by
      cases text : name.toList with
      | nil => simp [text] at start
      | cons c tail =>
        rw [text] at start
        simp_all)
  refine ⟨'@', name.toList ++ rest, by simp [atSignWord], ?_⟩
  unfold Token.lexeme
  rw [if_neg (by simp [Text.isBlank]), if_neg (by simp), if_neg (by decide), if_neg (by simp),
    if_pos (by simpa using second), named_eq .atKeyword ['@'] body ends]
  simp [atSignWord]

/-! Marks, blanks and comments -/

def mark (c : Char) : Spelling := ⟨.mark c, c.toString⟩

@[simp] theorem toList_mark (c : Char) : (mark c).text.toList = [c] := by simp [mark, Char.toString]

/-- The marks that are read as such whatever follows them. -/
theorem reads_mark (plain : c ∈ [':', ';', ',', '(', ')', '{', '}']) : (mark c).Reads rest := by
  refine ⟨c, rest, by simp, ?_⟩
  unfold Token.lexeme
  simp only [List.mem_cons, List.not_mem_nil, or_false] at plain
  rcases plain with rfl | rfl | rfl | rfl | rfl | rfl | rfl <;>
    simp [Text.isBlank, mark, Char.toString, Token.isNameStart]

theorem reads_point (next : rest.head?.all (!Char.isDigit ·) = true) : (mark '.').Reads rest := by
  refine ⟨'.', rest, by simp, ?_⟩
  have other : rest.head?.any Char.isDigit = false := by
    cases rest with
    | nil => rfl
    | cons c tail => simpa using next
  unfold Token.lexeme
  simp [Text.isBlank, mark, Char.toString, Token.isNameStart, other]

theorem reads_bang (next : rest.head?.all (· != '=') = true) : (mark '!').Reads rest := by
  refine ⟨'!', rest, by simp, ?_⟩
  have other : rest.head?.any (· == '=') = false := by
    cases rest with
    | nil => rfl
    | cons c tail => simpa using next
  unfold Token.lexeme
  simp [Text.isBlank, mark, Char.toString, Token.isNameStart, other]

/-- A single space. -/
def space : Spelling := ⟨.blank false, " "⟩

theorem scanBlank_nil (printing : Token.startsBlank rest = false) : Token.scanBlank false rest = ([], rest) := by
  rw [Token.scanBlank.eq_def]
  split
  · next tail => simp [Token.startsBlank] at printing
  · next c tail _ =>
    have plain : Text.isBlank c = false := by
      simp only [Token.startsBlank, Bool.or_eq_false_iff] at printing
      exact printing.1
    rw [if_neg (by simp [plain])]
  · rfl

theorem reads_space (printing : Token.startsBlank rest = false) : space.Reads rest := by
  refine ⟨' ', rest, by simp [space], ?_⟩
  unfold Token.lexeme
  rw [if_pos (by simp [Text.isBlank]), Token.blankLexeme, Token.scanBlank.eq_def]
  simp [Text.isBlank, scanBlank_nil printing, space]

def comment (comment : Comment) : Spelling := ⟨.comment comment, comment.text⟩

theorem scanComment_append (single : ¬ ['*', '/'] <:+: cs) :
    Token.scanComment (cs ++ '*' :: '/' :: rest) = some (cs ++ ['*', '/'], rest) := by
  induction cs with
  | nil => rfl
  | cons c tail ih =>
    have shorter : ¬ ['*', '/'] <:+: tail := fun inside => single (inside.trans (List.suffix_cons c tail).isInfix)
    rw [List.cons_append, Token.scanComment.eq_def]
    split
    · next behind same =>
      -- Only the star at the end of the body might close the comment earlier, and no slash follows it.
      exfalso
      cases tail with
      | nil => simp at same
      | cons d tail =>
        cases same
        exact single ⟨[], tail, rfl⟩
    · next same =>
      cases same
      rw [ih shorter]
      rfl
    · next same => cases same

theorem reads_comment {body : List Char} {written : Comment}
    (same : written.text.toList = '/' :: '*' :: (body ++ ['*', '/'])) (single : ¬ ['*', '/'] <:+: body) :
    (comment written).Reads rest := by
  have scan : _ = some (_, rest) := scanComment_append single
  refine ⟨'/', '*' :: (body ++ '*' :: '/' :: rest), by simp [comment, same], ?_⟩
  unfold Token.lexeme
  rw [if_neg (by simp [Text.isBlank]), if_pos (by simp)]
  split
  · next taken left scanned =>
    have found : some (taken, left) = some (body ++ ['*', '/'], rest) := scanned.symm.trans scan
    cases found
    have text : String.ofList ('/' :: '*' :: (body ++ ['*', '/'])) = written.text := by rw [← same, String.ofList_toList]
    simp only [comment, same]
    cases written
    cases text
    rfl
  · next scanned =>
    have none : (none : Option (List Char × List Char)) = _ := scanned.symm.trans scan
    cases none

end Spelling

/-! Tokens read from a text -/

namespace Token

variable {cs rest : List Char} {before behind : List Token} {token : Token}

/-- Each token is the first one of the text that begins with it. -/
theorem scan_reads {steps offset : Nat} {origin : Position}
    (covers : spelled (scan steps offset origin cs).tokens ++ rest = cs)
    (same : (scan steps offset origin cs).tokens = before ++ token :: behind) :
    token.spelling.Reads (spelled behind ++ rest) := by
  induction steps generalizing offset origin cs before with
  | zero =>
    have none : (scan 0 offset origin cs).tokens = [] := by cases cs <;> rfl
    rw [none] at same
    simp at same
  | succ steps later =>
    cases cs with
    | nil =>
      have none : (scan (steps + 1) offset origin []).tokens = [] := rfl
      rw [none] at same
      simp at same
    | cons c tail =>
      have reads := lexeme_reads c tail
      rw [scan_cons] at covers same
      cases first : lexeme c tail with
      | error fault =>
        rw [first] at same
        exact absurd same (by simp)
      | ok lexeme =>
        obtain ⟨kind, taken, left⟩ := lexeme
        rw [first] at reads covers same
        simp only [spelled_cons, String.toList_ofList, List.append_assoc] at covers
        have whole : taken ++ left = c :: tail := reads.1.covers
        have left_eq := List.append_cancel_left (covers.trans whole.symm)
        cases before with
        | nil =>
          obtain ⟨rfl, rfl⟩ := List.cons.inj same
          refine ⟨c, tail, ?_, ?_⟩
          · simpa [spelling, left_eq] using whole
          · rw [first, left_eq]
            simp [spelling]
        | cons _ before => exact later left_eq (List.cons.inj same).2

theorem Tiles.reads {source : String} {origin : Position}
    (tiles : Tiles 0 origin source.toList (lex source origin) rest)
    (same : (lex source origin).tokens = before ++ token :: behind) :
    token.spelling.Reads (spelled behind ++ rest) :=
  scan_reads tiles.covers same

end Token

end Stylesheet
