import Stylesheet.Selector.Parser
import Stylesheet.Text.Cuts

/-! What the readers of simple selectors take from a text, and the reading of their own texts again. Simple selectors
stand side by side without anything between them: where one of them ends shows only in what follows it. -/

namespace Stylesheet

namespace Selector

variable {cs left rest name : List Char} {simple : Simple}

/-- A text that does not continue a name. -/
def EndsName (cs : List Char) : Prop := ∀ c ∈ cs.head?, Token.isNameChar c = false

theorem endsName_dropWhile (cs : List Char) : EndsName (cs.dropWhile Token.isNameChar) := by
  intro c first
  have stops := List.head?_dropWhile_not Token.isNameChar cs
  rw [Option.mem_def.1 first] at stops
  exact stops

/-- What a name looks like. -/
inductive IsName : List Char → Prop where
  | intro {hyphens more : List Char} {c : Char} (hyphen : ∀ d ∈ hyphens, (d == '-') = true)
    (start : Token.isNameStart c = true) (continues : ∀ d ∈ more, Token.isNameChar d = true) :
    IsName (hyphens ++ c :: more)

theorem ne_hyphen_of_start {c : Char} (start : Token.isNameStart c = true) : (c == '-') = false := by
  apply beq_eq_false_iff_ne.2
  rintro rfl
  exact absurd start (by decide)

theorem readName_eq_some :
    readName cs = some (name, left) ↔ IsName name ∧ EndsName left ∧ cs = name ++ left := by
  constructor
  · intro read
    unfold readName at read
    dsimp only at read
    split at read
    next c more begins =>
      by_cases start : Token.isNameStart c = true
      · rw [if_pos start] at read
        have taken := List.takeWhile_append_dropWhile (p := (· == '-')) (l := cs)
        cases read
        refine ⟨?_, endsName_dropWhile _, ?_⟩
        · rw [begins, List.takeWhile_cons_of_pos (Token.isNameChar_of_isNameStart start)]
          have hyphen : ∀ d ∈ cs.takeWhile (· == '-'), (d == '-') = true := by
            intro d member
            exact List.mem_takeWhile_imp (p := (· == '-')) member
          exact .intro hyphen start fun d member => List.mem_takeWhile_imp member
        · rw [List.append_assoc, List.takeWhile_append_dropWhile, taken]
      · rw [if_neg start] at read
        cases read
    next => cases read
  · rintro ⟨⟨hyphen, start, continues⟩, ends, rfl⟩
    rename_i hyphens more c
    have stops : ∀ d ∈ (c :: (more ++ left)).head?, (d == '-') = false := by
      rintro d ⟨⟩
      exact ne_hyphen_of_start start
    have all : ∀ d ∈ c :: more, Token.isNameChar d = true := by
      simpa using ⟨Token.isNameChar_of_isNameStart start, continues⟩
    unfold readName
    rw [List.append_assoc, List.cons_append, Text.takeWhile_again hyphen stops, Text.dropWhile_again hyphen stops]
    dsimp only
    rw [if_pos start, ← List.cons_append, Text.takeWhile_again all ends, Text.dropWhile_again all ends]

theorem IsName.eq_cons (named : IsName name) :
    ∃ c more, name = c :: more ∧ Token.isNameChar c = true ∧ c.isDigit = false := by
  obtain @⟨hyphens, more, c, hyphen, start, -⟩ := named
  cases hyphens with
  | nil => exact ⟨c, more, rfl, Token.isNameChar_of_isNameStart start, Token.isDigit_of_isNameStart start⟩
  | cons d hyphens =>
    have same : d = '-' := beq_iff_eq.1 (hyphen d List.mem_cons_self)
    subst same
    exact ⟨'-', _, rfl, by decide, by decide⟩

/-- An argument through its closing parenthesis ends there, whatever follows. -/
theorem readBalanced_again {depth : Nat} {taken : List Char} (read : readBalanced depth cs = some (taken, left)) :
    cs = taken ++ left ∧ ∀ rest, readBalanced depth (taken ++ rest) = some (taken, rest) := by
  induction cs generalizing depth taken with
  | nil => cases read
  | cons c cs ih =>
    rw [readBalanced] at read
    by_cases closes : c = ')' ∧ depth = 0
    · rw [if_pos closes] at read
      cases read
      refine ⟨rfl, fun rest => ?_⟩
      rw [List.singleton_append, readBalanced, if_pos closes]
    · rw [if_neg closes] at read
      obtain ⟨⟨inner, after⟩, found, same⟩ := Option.map_eq_some_iff.1 read
      cases same
      obtain ⟨cut, again⟩ := ih found
      refine ⟨by rw [cut, List.cons_append], fun rest => ?_⟩
      rw [List.cons_append, readBalanced, if_neg closes]
      dsimp only
      rw [again]
      rfl

/-- What a percentage looks like. -/
inductive IsPercentage : List Char → Prop where
  | whole {whole : List Char} (nonempty : whole ≠ []) (digits : ∀ c ∈ whole, c.isDigit = true) :
    IsPercentage (whole ++ ['%'])
  | fraction {whole fraction : List Char} {c : Char} (nonempty : whole ≠ []) (digits : ∀ d ∈ whole, d.isDigit = true)
      (more : ∀ d ∈ c :: fraction, d.isDigit = true) :
    IsPercentage (whole ++ '.' :: c :: fraction ++ ['%'])

theorem scanNumber_parts {whole fraction : List Char} (scan : Token.scanNumber cs = (whole, fraction, left)) :
    (∀ c ∈ whole, c.isDigit = true) ∧ (∀ c ∈ fraction, c.isDigit = true) ∧
      cs = whole ++ (if fraction.isEmpty then [] else '.' :: fraction) ++ left := by
  have cut := List.takeWhile_append_dropWhile (p := Char.isDigit) (l := cs)
  unfold Token.scanNumber at scan
  dsimp only at scan
  split at scan
  next c rest begins =>
    by_cases digit : c.isDigit = true
    · rw [if_pos digit] at scan
      cases scan
      refine ⟨fun c member => List.mem_takeWhile_imp member, fun c member => List.mem_takeWhile_imp member, ?_⟩
      have more : (c :: rest).takeWhile Char.isDigit ≠ [] := by simp [digit]
      rw [if_neg (by simpa using more), List.append_assoc, List.cons_append, List.takeWhile_append_dropWhile, ← begins,
        cut]
    · rw [if_neg digit] at scan
      cases scan
      refine ⟨fun c member => List.mem_takeWhile_imp member, by simp, ?_⟩
      simp [← begins, cut]
  next =>
    cases scan
    refine ⟨fun c member => List.mem_takeWhile_imp member, by simp, ?_⟩
    simp [cut]

theorem scanNumber_percentage {whole : List Char} (digits : ∀ c ∈ whole, c.isDigit = true) (rest : List Char) :
    Token.scanNumber (whole ++ '%' :: rest) = (whole, [], '%' :: rest) := by
  have stops : ∀ c ∈ ('%' :: rest).head?, c.isDigit = false := by
    rintro c ⟨⟩
    rfl
  unfold Token.scanNumber
  rw [Text.takeWhile_again digits stops, Text.dropWhile_again digits stops]
  rfl

theorem scanNumber_fraction {whole fraction : List Char} {c : Char} (digits : ∀ d ∈ whole, d.isDigit = true)
    (more : ∀ d ∈ c :: fraction, d.isDigit = true) (rest : List Char) :
    Token.scanNumber (whole ++ '.' :: (c :: fraction ++ '%' :: rest)) = (whole, c :: fraction, '%' :: rest) := by
  have point : ∀ d ∈ ('.' :: (c :: fraction ++ '%' :: rest)).head?, d.isDigit = false := by
    rintro d ⟨⟩
    rfl
  have stops : ∀ d ∈ ('%' :: rest).head?, d.isDigit = false := by
    rintro d ⟨⟩
    rfl
  unfold Token.scanNumber
  rw [Text.takeWhile_again digits point, Text.dropWhile_again digits point, List.cons_append]
  refine (if_pos (more c List.mem_cons_self)).trans ?_
  rw [← List.cons_append, Text.takeWhile_again more stops, Text.dropWhile_again more stops]

theorem readPercentage_eq_some :
    readPercentage cs = some (simple, left) ↔
      ∃ text, IsPercentage text ∧ cs = text ++ left ∧ simple = .percentage (String.ofList text) := by
  constructor
  · intro read
    unfold readPercentage at read
    generalize scan : Token.scanNumber cs = number at read
    obtain ⟨whole, fraction, after⟩ := number
    obtain ⟨digits, more, same⟩ := scanNumber_parts scan
    dsimp only at read
    split at read
    next =>
      split at read
      next => cases read
      next nonempty =>
        have nonempty : whole ≠ [] := by simpa using nonempty
        cases read
        refine ⟨_, ?_, ?_, rfl⟩
        · cases fraction with
          | nil => simpa using IsPercentage.whole nonempty digits
          | cons c fraction => simpa using IsPercentage.fraction nonempty digits more
        · rw [same]
          simp
    next => cases read
  · rintro ⟨_, looks, rfl, rfl⟩
    unfold readPercentage
    cases looks with
    | whole nonempty digits =>
      rw [List.append_assoc, List.singleton_append, scanNumber_percentage digits]
      simp [nonempty]
    | fraction nonempty digits more =>
      rw [List.append_assoc, List.append_assoc, List.singleton_append, List.cons_append,
        scanNumber_fraction digits more]
      simp [nonempty]

theorem readPercentage_none (begins : ∀ c ∈ cs.head?, c.isDigit = false) : readPercentage cs = none := by
  rw [Option.eq_none_iff_forall_ne_some]
  rintro ⟨simple, left⟩ read
  obtain ⟨text, looks, rfl, -⟩ := readPercentage_eq_some.1 read
  have first : ∀ {whole behind : List Char}, whole ≠ [] → (∀ c ∈ whole, c.isDigit = true) →
      (∀ c ∈ (whole ++ behind).head?, c.isDigit = false) → False := by
    intro whole behind nonempty digits begins
    obtain ⟨c, whole, rfl⟩ := List.exists_cons_of_ne_nil nonempty
    have digit := digits c List.mem_cons_self
    rw [begins c rfl] at digit
    cases digit
  cases looks with
  | whole nonempty digits => exact first nonempty digits (by rwa [List.append_assoc] at begins)
  | fraction nonempty digits => exact first nonempty digits (by rwa [List.append_assoc, List.append_assoc] at begins)

/-- A simple selector is read from the front of a text, of which `left` is left. -/
inductive Reads : List Char → Simple → List Char → Prop where
  | idName {name left : List Char} (named : IsName name) (ends : EndsName left) :
    Reads ('#' :: (name ++ left)) (.idName (String.ofList name)) left
  | className {name left : List Char} (named : IsName name) (ends : EndsName left) :
    Reads ('.' :: (name ++ left)) (.className (String.ofList name)) left
  | placeholder {name left : List Char} (named : IsName name) (ends : EndsName left) :
    Reads ('%' :: (name ++ left)) (.placeholder (String.ofList name)) left
  | pseudo {colons name left : List Char} (colon : colons = [':'] ∨ colons = [':', ':']) (named : IsName name)
      (ends : EndsName left) :
    Reads (colons ++ (name ++ left)) (.pseudo (String.ofList (colons ++ name))) left
  | call {colons name taken left : List Char} (colon : colons = [':'] ∨ colons = [':', ':']) (named : IsName name)
      (closed : ∀ rest, readBalanced 0 (taken ++ rest) = some (taken, rest)) :
    Reads (colons ++ (name ++ '(' :: (taken ++ left))) (.pseudo (String.ofList (colons ++ name ++ '(' :: taken))) left
  | parent {left : List Char} (ends : EndsName left) : Reads ('&' :: left) (.parent none) left
  | continued {more left : List Char} (nonempty : more ≠ []) (continues : ∀ c ∈ more, Token.isNameChar c = true)
      (ends : EndsName left) :
    Reads ('&' :: (more ++ left)) (.parent (some (String.ofList more))) left
  | universal {left : List Char} : Reads ('*' :: left) .universal left
  | bracketed {inner left : List Char} (closed : ']' ∉ inner) :
    Reads ('[' :: (inner ++ ']' :: left)) (.bracketed (String.ofList (Text.trim inner))) left
  | percentage {text left : List Char} (looks : IsPercentage text) :
    Reads (text ++ left) (.percentage (String.ofList text)) left
  | element {name left : List Char} (named : IsName name) (ends : EndsName left) :
    Reads (name ++ left) (.element (String.ofList name)) left

/-- What stands behind the colons of a pseudo-class or pseudo-element. -/
def readBehind (colons : List Char) : Reader Simple := fun cs =>
  (readName cs).map fun (name, rest) =>
    let bare := (Simple.pseudo (String.ofList (colons ++ name)), rest)
    match rest with
    | '(' :: argument =>
      match readBalanced 0 argument with
      | some (taken, left) => (.pseudo (String.ofList (colons ++ name ++ '(' :: taken)), left)
      | none => bare
    | _ => bare

theorem readPseudo_of_ne (other : cs.head? ≠ some ':') : readPseudo cs = readBehind [':'] cs := by
  cases cs with
  | nil => rfl
  | cons c cs =>
    have other : c ≠ ':' := by simpa using other
    unfold readPseudo
    split
    next same =>
      split at same
      next begins => exact absurd (List.cons.inj begins).1 other
      next =>
        cases same
        rfl

theorem readBehind_reads {colons : List Char} (colon : colons = [':'] ∨ colons = [':', ':'])
    (read : readBehind colons cs = some (simple, left)) : Reads (colons ++ cs) simple left := by
  obtain ⟨⟨name, rest⟩, named, same⟩ := Option.map_eq_some_iff.1 read
  obtain ⟨looks, ends, rfl⟩ := readName_eq_some.1 named
  dsimp only at same
  split at same
  next argument =>
    split at same
    next taken after found =>
      cases same
      obtain ⟨rfl, closed⟩ := readBalanced_again found
      exact .call colon looks closed
    next =>
      cases same
      exact .pseudo colon looks ends
  next =>
    cases same
    exact .pseudo colon looks ends

theorem readPseudo_reads (read : readPseudo cs = some (simple, left)) : Reads (':' :: cs) simple left := by
  by_cases second : cs.head? = some ':'
  · obtain ⟨rest, rfl⟩ := List.head?_eq_some_iff.1 second
    exact readBehind_reads (.inr rfl) read
  · rw [readPseudo_of_ne second] at read
    exact readBehind_reads (.inl rfl) read

theorem readSimple_reads (read : readSimple cs = some (simple, left)) : Reads cs simple left := by
  have named {kind : String → Simple} {rest : List Char}
      (read : ((readName rest).map fun (name, left) => (kind (String.ofList name), left)) = some (simple, left)) :
      ∃ name, IsName name ∧ EndsName left ∧ rest = name ++ left ∧ simple = kind (String.ofList name) := by
    obtain ⟨⟨name, after⟩, found, same⟩ := Option.map_eq_some_iff.1 read
    cases same
    obtain ⟨looks, ends, cut⟩ := readName_eq_some.1 found
    exact ⟨name, looks, ends, cut, rfl⟩
  unfold readSimple at read
  dsimp only at read
  split at read
  · obtain ⟨name, looks, ends, rfl, rfl⟩ := named read
    exact .idName looks ends
  · obtain ⟨name, looks, ends, rfl, rfl⟩ := named read
    exact .className looks ends
  · obtain ⟨name, looks, ends, rfl, rfl⟩ := named read
    exact .placeholder looks ends
  · exact readPseudo_reads read
  next rest =>
    have cut := List.takeWhile_append_dropWhile (p := Token.isNameChar) (l := rest)
    cases read
    have ends := endsName_dropWhile rest
    by_cases none : rest.takeWhile Token.isNameChar = []
    · rw [none, List.nil_append] at cut
      rw [none, cut]
      rw [cut] at ends
      exact .parent ends
    · have reads := Reads.continued none (fun c member => List.mem_takeWhile_imp member) ends
      rw [cut] at reads
      rwa [if_neg (by simpa using none)]
  · cases read
    exact .universal
  next rest =>
    have cut := List.takeWhile_append_dropWhile (p := (· != ']')) (l := rest)
    split at read
    next closing after behind =>
      have stops := List.head?_dropWhile_not (· != ']') rest
      rw [behind] at stops
      have same : closing = ']' := by simpa using stops
      subst same
      cases read
      have inside : ']' ∉ rest.takeWhile (· != ']') := by
        intro member
        have other := List.mem_takeWhile_imp member
        simp at other
      have reads := @Reads.bracketed _ left inside
      rw [← behind, cut] at reads
      exact reads
    next => cases read
  next =>
    rw [Option.orElse_eq_or, Option.or_eq_some_iff] at read
    rcases read with read | ⟨-, read⟩
    · obtain ⟨text, looks, rfl, rfl⟩ := readPercentage_eq_some.1 read
      exact .percentage looks
    · obtain ⟨name, looks, ends, rfl, rfl⟩ := named read
      exact .element looks ends

/-- What stands behind a part when the part is read again: it continues a name only if that was so before. -/
structure Clear (left rest : List Char) : Prop where
  ends : EndsName left → EndsName rest
  apart : rest.head? ≠ some '('

theorem readName_again (looks : IsName name) (ends : EndsName rest) : readName (name ++ rest) = some (name, rest) :=
  readName_eq_some.2 ⟨looks, ends, rfl⟩

theorem IsName.head_ne (looks : IsName name) {d : Char} (other : Token.isNameChar d = false) (rest : List Char) :
    (name ++ rest).head? ≠ some d := by
  obtain ⟨c, more, rfl, continues, -⟩ := looks.eq_cons
  intro same
  rw [← Option.some.inj same, continues] at other
  cases other

section Again

variable {colons taken more inner text : List Char}

theorem readSimple_colons (colon : colons = [':'] ∨ colons = [':', ':']) (behind : cs.head? ≠ some ':') :
    readSimple (colons ++ cs) = readBehind colons cs := by
  rcases colon with rfl | rfl
  · exact readPseudo_of_ne behind
  · rfl

theorem readSimple_pseudo (colon : colons = [':'] ∨ colons = [':', ':']) (looks : IsName name) (ends : EndsName rest)
    (apart : rest.head? ≠ some '(') :
    readSimple (colons ++ (name ++ rest)) = some (.pseudo (String.ofList (colons ++ name)), rest) := by
  rw [readSimple_colons colon (looks.head_ne (by decide) rest), readBehind, readName_again looks ends, Option.map_some]
  dsimp only
  split
  next => simp at apart
  next => rfl

theorem readSimple_call (colon : colons = [':'] ∨ colons = [':', ':']) (looks : IsName name)
    (closed : ∀ rest, readBalanced 0 (taken ++ rest) = some (taken, rest)) (rest : List Char) :
    readSimple (colons ++ (name ++ '(' :: (taken ++ rest))) =
      some (.pseudo (String.ofList (colons ++ name ++ '(' :: taken)), rest) := by
  have ends : EndsName ('(' :: (taken ++ rest)) := by
    rintro c ⟨⟩
    rfl
  rw [readSimple_colons colon (looks.head_ne (by decide) _), readBehind, readName_again looks ends, Option.map_some]
  simp only [closed]

theorem readSimple_parent (more : List Char) (continues : ∀ c ∈ more, Token.isNameChar c = true)
    (ends : EndsName rest) :
    readSimple ('&' :: (more ++ rest)) =
      some (.parent (if more.isEmpty then none else some (String.ofList more)), rest) := by
  rw [readSimple, Text.takeWhile_again continues ends, Text.dropWhile_again continues ends]

theorem readSimple_bracketed (closed : ']' ∉ inner) (rest : List Char) :
    readSimple ('[' :: (inner ++ ']' :: rest)) = some (.bracketed (String.ofList (Text.trim inner)), rest) := by
  have inside : ∀ c ∈ inner, (c != ']') = true := by
    intro c member
    exact bne_iff_ne.2 fun same => closed (same ▸ member)
  have stops : ∀ c ∈ (']' :: rest).head?, (c != ']') = false := by
    rintro c ⟨⟩
    rfl
  rw [readSimple, Text.takeWhile_again inside stops, Text.dropWhile_again inside stops]

/-- The marks that a simple selector may begin with. -/
def marks : List Char := ['#', '.', '%', ':', '&', '*', '[']

theorem isNameChar_of_mem_marks {c : Char} (mark : c ∈ marks) : Token.isNameChar c = false := by
  simp only [marks, List.mem_cons, List.not_mem_nil, or_false] at mark
  rcases mark with rfl | rfl | rfl | rfl | rfl | rfl | rfl <;> rfl

/-- A text that begins with no mark is a percentage or the name of an element. -/
theorem readSimple_plain (plain : ∀ mark ∈ marks, cs.head? ≠ some mark) :
    readSimple cs =
      (readPercentage cs).or ((readName cs).map fun (name, left) => (.element (String.ofList name), left)) := by
  unfold readSimple
  split <;> first | exact absurd rfl (plain _ (by simp [marks])) | exact Option.orElse_eq_or

theorem IsPercentage.eq_cons (looks : IsPercentage text) : ∃ c more, text = c :: more ∧ c.isDigit = true := by
  have first {whole : List Char} (nonempty : whole ≠ []) (digits : ∀ c ∈ whole, c.isDigit = true) (behind : List Char) :
      ∃ c more, whole ++ behind = c :: more ∧ c.isDigit = true := by
    obtain ⟨c, whole, rfl⟩ := List.exists_cons_of_ne_nil nonempty
    exact ⟨c, whole ++ behind, rfl, digits c List.mem_cons_self⟩
  cases looks with
  | whole nonempty digits => exact first nonempty digits _
  | fraction nonempty digits =>
    rw [List.append_assoc]
    exact first nonempty digits _

theorem readSimple_percentage (looks : IsPercentage text) (rest : List Char) :
    readSimple (text ++ rest) = some (.percentage (String.ofList text), rest) := by
  obtain ⟨c, more, same, digit⟩ := looks.eq_cons
  have plain : ∀ mark ∈ marks, (text ++ rest).head? ≠ some mark := by
    intro mark member first
    have other := isNameChar_of_mem_marks member
    rw [same] at first
    rw [← Option.some.inj first, Token.isNameChar, digit] at other
    simp at other
  rw [readSimple_plain plain, readPercentage_eq_some.2 ⟨text, looks, rfl, rfl⟩]
  rfl

theorem readSimple_element (looks : IsName name) (ends : EndsName rest) :
    readSimple (name ++ rest) = some (.element (String.ofList name), rest) := by
  have plain : ∀ mark ∈ marks, (name ++ rest).head? ≠ some mark := by
    intro mark member
    exact looks.head_ne (isNameChar_of_mem_marks member) rest
  have number : readPercentage (name ++ rest) = none := by
    obtain ⟨c, more, rfl, -, other⟩ := looks.eq_cons
    apply readPercentage_none
    rintro d ⟨⟩
    exact other
  rw [readSimple_plain plain, number, readName_again looks ends]
  rfl

end Again

/-- The characters that a simple selector may begin with. -/
def Opens (c : Char) : Prop := Token.isNameChar c = true ∨ c ∈ marks

instance : DecidablePred Opens := fun c => inferInstanceAs (Decidable (Token.isNameChar c = true ∨ c ∈ marks))

theorem not_opens {c : Char} (member : c ∈ [' ', '\t', '\r', '\n', ',', '>', '+', '~', '(']) : ¬ Opens c := by
  simp only [List.mem_cons, List.not_mem_nil, or_false] at member
  rcases member with rfl | rfl | rfl | rfl | rfl | rfl | rfl | rfl | rfl <;> decide

namespace Reads

/-- The text of a simple selector is read as that simple selector. -/
theorem again (reads : Reads cs simple left) (clear : Clear left rest) :
    readSimple (simple.css.toList ++ rest) = some (simple, rest) := by
  cases reads with
  | idName looks ends =>
    simp [Simple.css, readSimple, readName_again looks (clear.ends ends)]
  | className looks ends =>
    simp [Simple.css, readSimple, readName_again looks (clear.ends ends)]
  | placeholder looks ends =>
    simp [Simple.css, readSimple, readName_again looks (clear.ends ends)]
  | pseudo colon looks ends =>
    rw [Simple.css, String.toList_ofList, List.append_assoc,
      readSimple_pseudo colon looks (clear.ends ends) clear.apart]
  | call colon looks closed =>
    rw [Simple.css, String.toList_ofList, List.append_assoc, List.append_assoc, List.cons_append,
      readSimple_call colon looks closed]
  | parent ends => exact readSimple_parent [] (by simp) (clear.ends ends)
  | continued nonempty continues ends =>
    have read := readSimple_parent _ continues (clear.ends ends)
    rw [if_neg (by simpa using nonempty)] at read
    simpa [Simple.css] using read
  | universal => rfl
  | bracketed closed =>
    have read := readSimple_bracketed (fun member => closed (Text.mem_of_mem_trim member)) rest
    simpa [Simple.css] using read
  | percentage looks => rw [Simple.css, String.toList_ofList, readSimple_percentage looks]
  | element looks ends => rw [Simple.css, String.toList_ofList, readSimple_element looks (clear.ends ends)]

theorem head_eq (reads : Reads cs simple left) :
    ∃ c, simple.css.toList.head? = some c ∧ cs.head? = some c ∧ Opens c := by
  cases reads with
  | idName | className | placeholder | parent | continued | universal | bracketed =>
    exact ⟨_, by simp [Simple.css], rfl, .inr (by simp [marks])⟩
  | pseudo colon | call colon =>
    rcases colon with rfl | rfl <;> exact ⟨':', by simp [Simple.css], rfl, .inr (by simp [marks])⟩
  | percentage looks =>
    obtain ⟨c, more, rfl, digit⟩ := looks.eq_cons
    exact ⟨c, by simp [Simple.css], rfl, .inl (by simp [Token.isNameChar, digit])⟩
  | element looks =>
    obtain ⟨c, more, rfl, continues, -⟩ := looks.eq_cons
    exact ⟨c, by simp [Simple.css], rfl, .inl continues⟩

end Reads

/-- Where no simple selector begins: at the end, at a blank or comma and at a combinator. -/
def Stops (cs : List Char) : Prop := ∀ c ∈ cs.head?, c ∈ [' ', ',', '>', '+', '~']

theorem Stops.not_opens (stops : Stops cs) (c : Char) (first : c ∈ cs.head?) : ¬ Opens c := by
  have known := stops c first
  apply Selector.not_opens
  simp only [List.mem_cons, List.not_mem_nil, or_false] at known ⊢
  tauto

theorem Stops.readSimple (stops : Stops cs) : readSimple cs = none := by
  rw [Option.eq_none_iff_forall_ne_some]
  rintro ⟨simple, left⟩ read
  obtain ⟨c, -, first, begins⟩ := (readSimple_reads read).head_eq
  exact stops.not_opens c first begins

theorem Stops.clear (stops : Stops rest) : Clear left rest := by
  constructor
  · intro _ c first
    exact Bool.eq_false_iff.2 fun continues => stops.not_opens c first (.inl continues)
  · intro first
    exact absurd (stops '(' first) (by decide)

/-- A compound selector that is read from the front of a text. -/
inductive ReadsAll : List Char → Compound → List Char → Prop where
  | nil {cs : List Char} : ReadsAll cs [] cs
  | cons {cs between left : List Char} {simple : Simple} {compound : Compound} (first : Reads cs simple between)
      (more : ReadsAll between compound left) : ReadsAll cs (simple :: compound) left

variable {compound : Compound} {steps : Nat}

theorem readSimples_reads (read : readSimples steps cs = (compound, left)) : ReadsAll cs compound left := by
  induction steps generalizing cs compound with
  | zero =>
    cases read
    exact .nil
  | succ steps ih =>
    rw [readSimples] at read
    split at read
    next simple rest first =>
      cases read
      exact .cons (readSimple_reads first) (ih rfl)
    next =>
      cases read
      exact .nil

theorem Compound.css_cons (simple : Simple) (compound : Compound) :
    (Compound.css (simple :: compound)).toList = simple.css.toList ++ (Compound.css compound).toList := by
  simp [Compound.css]

/-- What stands behind a simple selector in a compound, when its text is read again. -/
theorem ReadsAll.clear (reads : ReadsAll cs compound left) (stops : Stops rest) :
    Clear cs ((Compound.css compound).toList ++ rest) := by
  cases reads with
  | nil => exact stops.clear
  | @cons _ _ _ simple compound first =>
    -- The next one begins with the character that it began with before, so a name ends here if it did there.
    obtain ⟨c, begins, same, known⟩ := first.head_eq
    have head : ((Compound.css (simple :: compound)).toList ++ rest).head? = cs.head? := by
      rw [Compound.css_cons, List.append_assoc, List.head?_append, begins, same]
      rfl
    constructor
    · intro ends
      rwa [EndsName, head]
    · rw [head, same]
      rintro ⟨⟩
      exact not_opens (by decide) known

theorem ReadsAll.length_le (reads : ReadsAll cs compound left) :
    compound.length ≤ (Compound.css compound).toList.length := by
  induction reads with
  | nil => exact Nat.zero_le _
  | cons first _ ih =>
    obtain ⟨c, begins, -⟩ := first.head_eq
    obtain ⟨more, same⟩ := List.head?_eq_some_iff.1 begins
    rw [Compound.css_cons, same, List.length_cons, List.length_append, List.length_cons]
    omega

theorem ReadsAll.again (reads : ReadsAll cs compound left) (stops : Stops rest) (enough : compound.length ≤ steps) :
    readSimples steps ((Compound.css compound).toList ++ rest) = (compound, rest) := by
  induction reads generalizing steps with
  | nil =>
    cases steps with
    | zero => rfl
    | succ steps =>
      rw [readSimples, Compound.css, List.map_nil, String.join_nil, String.toList_empty, List.nil_append,
        stops.readSimple]
  | cons first more ih =>
    obtain ⟨steps, rfl⟩ := Nat.exists_eq_add_one.2 (Nat.lt_of_lt_of_le (Nat.zero_lt_succ _) enough)
    have rest := ih (Nat.le_of_succ_le_succ enough)
    rw [readSimples, Compound.css_cons, List.append_assoc, first.again (more.clear stops)]
    dsimp only
    rw [rest]

theorem ReadsAll.readCompound (reads : ReadsAll cs compound left) (nonempty : compound ≠ []) (stops : Stops rest) :
    readCompound ((Compound.css compound).toList ++ rest) = some (compound, rest) := by
  have enough : compound.length ≤ ((Compound.css compound).toList ++ rest).length := by
    have short := reads.length_le
    rw [List.length_append]
    omega
  rw [Selector.readCompound, reads.again stops enough]
  cases compound with
  | nil => exact absurd rfl nonempty
  | cons => rfl

theorem readCompound_reads (read : readCompound cs = some (compound, left)) :
    ReadsAll cs compound left ∧ compound ≠ [] := by
  unfold readCompound at read
  cases known : readSimples cs.length cs with
  | mk simples after =>
    rw [known] at read
    cases simples with
    | nil => cases read
    | cons =>
      cases read
      exact ⟨readSimples_reads known, List.cons_ne_nil _ _⟩

end Selector

end Stylesheet
