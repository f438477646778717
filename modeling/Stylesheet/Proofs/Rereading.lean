import Mathlib.Data.List.Infix
import Stylesheet.Proofs.CutOff.Continuation

/-! Tokens read in front of another text. What a scanner takes depends on the text behind it by two characters at most,
so a token is read again in front of each text that begins in the same way, begins with a space or is empty. Only a word
that might begin an address looks further ahead. -/

namespace Stylesheet.Token

variable {c quote : Char} {cs rest taken left left' : List Char}

/-- A text behind a token, and another one that can stand there: it is empty, begins with a space, or agrees with the
first in one character and, as far as it goes on without a space, in the next. -/
inductive Follows : List Char → List Char → Prop
  | ends (left : List Char) : Follows left []
  | space (d : Char) (left left' : List Char) : Follows (d :: left) (' ' :: left')
  | same (d : Char) (left left' : List Char)
    (next : left' = [] ∨ left'.head? = some ' ' ∨ left'.head? = left.head?) : Follows (d :: left) (d :: left')

theorem Follows.of_nil (follows : Follows [] left') : left' = [] := by
  cases follows
  rfl

theorem Follows.cons (follows : Follows left left') (d : Char) : Follows (d :: left) (d :: left') := by
  refine .same d left left' ?_
  cases follows with
  | ends => exact .inl rfl
  | space => exact .inr (.inl rfl)
  | same => exact .inr (.inr rfl)

theorem Follows.append (follows : Follows left left') (front : List Char) :
    Follows (front ++ left) (front ++ left') := by
  induction front with
  | nil => exact follows
  | cons d front later => exact later.cons d

/-- A test of the next character that holds of the other text holds of the first. -/
theorem Follows.head? {p : Char → Bool} (follows : Follows left left') (printing : p ' ' = false)
    (holds : left'.head?.any p = true) : left.head?.any p = true := by
  cases follows with
  | ends => cases holds
  | space => exact absurd holds (by simp [printing])
  | same => exact holds

theorem Follows.stops {p : Char → Bool} (follows : Follows left left') (printing : p ' ' = false)
    (stops : ∀ d ∈ left.head?, p d = false) : ∀ d ∈ left'.head?, p d = false := by
  intro d member
  cases holds : p d with
  | false => rfl
  | true =>
    have first := follows.head? printing (by simpa [Option.mem_def.1 member] using holds)
    cases begins : left.head? with
    | none => simp [begins] at first
    | some e =>
      have holds : p e = true := by simpa [begins] using first
      exact holds.symm.trans (stops e begins)

/-! The scanners -/

theorem scanName_again (scanned : scanName cs = (taken, left)) (follows : Follows left left') :
    scanName (taken ++ left') = (taken, left') := by
  fun_induction scanName cs generalizing taken left with
  | case1 c rest inner behind known later =>
    cases scanned
    rw [List.cons_append, List.cons_append, scanName, later known follows]
  | case2 c rest plain start inner behind known later =>
    cases scanned
    have again := later known follows
    have plain' : ∀ d more, c = '\\' → inner ++ left' = d :: more → False := by
      rintro d more rfl same
      cases rest with
      | cons e rest => exact plain e rest rfl rfl
      | nil =>
        -- A backslash at the end of the text, behind which there is nothing.
        cases known
        rw [follows.of_nil] at same
        cases same
    rw [List.cons_append, scanName.eq_2 _ _ plain', if_pos start, again]
  | case3 c rest plain other =>
    cases scanned
    cases follows with
    | ends => rfl
    | space => rfl
    | same _ _ more =>
      have plain' : ∀ d rest, c = '\\' → more = d :: rest → False := by
        rintro d rest rfl -
        exact other rfl
      rw [List.nil_append, scanName.eq_2 _ _ plain', if_neg other]
  | case4 =>
    cases scanned
    rw [follows.of_nil]
    rfl

theorem scanUrl_again {depth : Nat} (scanned : scanUrl depth cs = some (taken, left)) (left' : List Char) :
    scanUrl depth (taken ++ left') = some (taken, left') := by
  induction cs generalizing depth taken left with
  | nil => cases scanned
  | cons c rest later =>
    rw [scanUrl] at scanned
    split at scanned
    · next closing =>
      cases scanned
      rw [List.singleton_append, scanUrl, if_pos closing]
    · next goes =>
      split at scanned
      · cases scanned
      · next inside =>
        obtain ⟨⟨inner, after⟩, found, same⟩ := Option.map_eq_some_iff.1 scanned
        cases same
        rw [List.cons_append, scanUrl, if_neg goes, if_neg inside]
        dsimp only
        rw [later found]
        rfl

theorem QuotedScan.cons_eq_closed {scan : QuotedScan} {contents : List Char} :
    scan.cons c = .closed contents left ↔ ∃ inner, scan = .closed inner left ∧ contents = c :: inner := by
  cases scan <;> simp [cons, eq_comm, and_comm]

theorem QuotedScan.openCode_eq_closed {scan : QuotedScan} {contents : List Char} :
    scan.openCode = .closed contents left ↔ ∃ inner, scan = .closed inner left ∧ contents = '#' :: '{' :: inner := by
  cases scan <;> simp [openCode, cons, eq_comm, and_comm]

/-- A character that escapes nothing in front of one closing quote escapes nothing in front of another one. -/
theorem escapes_nothing {inner : List Char} (plain : ∀ d tail, c = '\\' → cs = d :: tail → False)
    (covers : inner ++ quote :: left = cs) (left' : List Char) :
    ∀ d tail, c = '\\' → inner ++ quote :: left' = d :: tail → False := by
  rintro d tail escape -
  obtain ⟨e, more, same⟩ : ∃ e more, cs = e :: more := by
    cases inner with
    | nil => exact ⟨quote, left, covers.symm⟩
    | cons e inner => exact ⟨e, inner ++ quote :: left, covers.symm⟩
  exact plain e more escape same

/-- A string that is closed is closed in the same place, whatever follows. By induction on the text; a string and the
interpolations in it are scanned in turn. -/
theorem scanQuoted_again (isQuote : quote = '"' ∨ quote = '\'') (left' : List Char) :
    (∀ cs contents left, scanQuoted quote cs = .closed contents left →
        scanQuoted quote (contents ++ quote :: left') = .closed contents left') ∧
      ∀ depth inner cs contents left, scanQuotedCode quote depth inner cs = .closed contents left →
        scanQuotedCode quote depth inner (contents ++ quote :: left') = .closed contents left' := by
  have escape : quote ≠ '\\' := by rcases isQuote with rfl | rfl <;> decide
  have sign : quote ≠ '#' := by rcases isQuote with rfl | rfl <;> decide
  have closed (left : List Char) : scanQuoted quote (quote :: left) = .closed [] left := by
    rw [scanQuoted.eq_3 quote quote left (fun _ _ same => absurd same escape) fun _ same => absurd same sign,
      if_pos rfl]
  have cuts := scanQuoted_cuts quote
  apply scanQuoted.mutual_induct quote
  · -- an escaped character of the string
    intro c rest later contents left same
    obtain ⟨_, behind, rfl⟩ := QuotedScan.cons_eq_closed.1 same
    obtain ⟨inner, known, rfl⟩ := QuotedScan.cons_eq_closed.1 behind
    rw [List.cons_append, List.cons_append, scanQuoted.eq_1, later _ _ known]
    rfl
  · -- an opening
    intro rest later contents left same
    obtain ⟨inner, known, rfl⟩ := QuotedScan.openCode_eq_closed.1 same
    rw [List.cons_append, List.cons_append, scanQuoted.eq_2, later _ _ known]
    rfl
  · -- the closing quote
    intro rest plain code contents left same
    rw [closed] at same
    cases same
    exact closed left'
  · -- a line feed
    intro rest plain code other contents left same
    rw [scanQuoted.eq_3 quote '\n' rest plain code, if_neg other, if_pos rfl] at same
    cases same
  · -- any other character of the string
    intro c rest plain code other inLine later contents left same
    rw [scanQuoted.eq_3 quote c rest plain code, if_neg other, if_neg inLine] at same
    obtain ⟨inner, known, rfl⟩ := QuotedScan.cons_eq_closed.1 same
    have covers : inner ++ quote :: left = rest := by simpa only [known, QuotedScan.Cuts] using (cuts.1 rest).1
    have code' : ∀ more, c = '#' → inner ++ quote :: left' = '{' :: more → False := by
      rintro more rfl opens
      cases inner with
      | nil =>
        cases opens
        exact code left rfl covers.symm
      | cons d inner =>
        cases opens
        exact code _ rfl covers.symm
    rw [List.cons_append, scanQuoted.eq_3 quote c _ (escapes_nothing plain covers left') code', if_neg other,
      if_neg inLine, later _ _ known]
    rfl
  · -- the end of the text, in the string and in an interpolation
    intro contents left same
    cases same
  · intro depth inner contents left same
    rw [scanQuotedCode.eq_1] at same
    cases same
  · -- an escaped character of a string in an interpolation
    intro depth q c rest later contents left same
    obtain ⟨_, behind, rfl⟩ := QuotedScan.cons_eq_closed.1 same
    obtain ⟨inner, known, rfl⟩ := QuotedScan.cons_eq_closed.1 behind
    rw [List.cons_append, List.cons_append, scanQuotedCode.eq_2, later _ _ known]
    rfl
  · -- any other character of such a string
    intro depth q c rest plain later contents left same
    rw [scanQuotedCode.eq_3 quote depth q c rest plain] at same
    obtain ⟨inner, known, rfl⟩ := QuotedScan.cons_eq_closed.1 same
    have covers : inner ++ quote :: left = rest := by
      simpa only [known, QuotedScan.Cuts] using cuts.2 depth (if c = q then none else some q) rest
    rw [List.cons_append, scanQuotedCode.eq_3 quote depth q c _ (escapes_nothing plain covers left'), later _ _ known]
    rfl
  · -- the brace that closes the interpolation
    intro depth c rest ends later contents left same
    rw [scanQuotedCode.eq_4, if_pos ends] at same
    obtain ⟨inner, known, rfl⟩ := QuotedScan.cons_eq_closed.1 same
    rw [List.cons_append, scanQuotedCode.eq_4, if_pos ends, later _ _ known]
    rfl
  · -- any other character of the interpolation
    intro depth c rest goes inner deeper later contents left same
    rw [scanQuotedCode.eq_4, if_neg goes] at same
    obtain ⟨contents, known, rfl⟩ := QuotedScan.cons_eq_closed.1 same
    rw [List.cons_append, scanQuotedCode.eq_4, if_neg goes]
    dsimp only
    rw [later _ _ known]
    rfl

theorem dropWhile_stops (p : Char → Bool) (cs : List Char) : ∀ d ∈ (cs.dropWhile p).head?, p d = false := by
  intro d member
  have stops := List.head?_dropWhile_not p cs
  rw [Option.mem_def.1 member] at stops
  exact stops

/-- What is taken while a test holds is taken again where the text behind it does not go on. -/
theorem takeWhile_again {p : Char → Bool} (printing : p ' ' = false) (follows : Follows (cs.dropWhile p) left') :
    (cs.takeWhile p ++ left').takeWhile p = cs.takeWhile p ∧ (cs.takeWhile p ++ left').dropWhile p = left' := by
  have taken : ∀ d ∈ cs.takeWhile p, p d = true := fun d member => List.mem_takeWhile_imp member
  have stops := follows.stops printing (dropWhile_stops p cs)
  exact ⟨Text.takeWhile_again taken stops, Text.dropWhile_again taken stops⟩

theorem scanUnit_again (follows : Follows (scanUnit cs).2 left') :
    scanUnit ((scanUnit cs).1 ++ left') = ((scanUnit cs).1, left') := by
  by_cases percent : ∃ rest, cs = '%' :: rest
  · obtain ⟨rest, rfl⟩ := percent
    rfl
  · have letters : scanUnit cs = (cs.takeWhile Char.isAlpha, cs.dropWhile Char.isAlpha) :=
      scanUnit.eq_2 cs fun rest same => percent ⟨rest, same⟩
    rw [letters] at follows ⊢
    obtain ⟨taken, dropped⟩ := takeWhile_again (by decide) follows
    have plain : ∀ more, cs.takeWhile Char.isAlpha ++ left' ≠ '%' :: more := by
      intro more same
      cases begins : cs.takeWhile Char.isAlpha with
      | nil =>
        have whole := List.takeWhile_append_dropWhile (p := Char.isAlpha) (l := cs)
        rw [begins, List.nil_append] at whole same
        have sign : cs.head?.any (· == '%') = true :=
          whole ▸ follows.head? (p := (· == '%')) (by decide) (by simp [same])
        cases cs with
        | nil => cases sign
        | cons d rest =>
          obtain rfl : d = '%' := by simpa using sign
          exact percent ⟨rest, rfl⟩
      | cons d front =>
        rw [begins] at same
        obtain ⟨rfl, -⟩ := List.cons.inj same
        have member : '%' ∈ cs.takeWhile Char.isAlpha := begins ▸ List.mem_cons_self
        have alpha : Char.isAlpha '%' = true := List.mem_takeWhile_imp member
        exact absurd alpha (by decide)
    rw [scanUnit.eq_2 _ plain, taken, dropped]

/-- What a number was read from, up to its unit. -/
def literal (number : List Char × List Char × List Char) : List Char :=
  number.1 ++ if number.2.1.isEmpty then [] else '.' :: number.2.1

theorem scanNumber_again (follows : Follows (scanNumber cs).2.2 left') :
    scanNumber (literal (scanNumber cs) ++ left') = ((scanNumber cs).1, (scanNumber cs).2.1, left') := by
  by_cases point : ∃ d rest, cs.dropWhile Char.isDigit = '.' :: d :: rest ∧ d.isDigit = true
  · obtain ⟨d, rest, behind, digit⟩ := point
    rw [scanNumber_fraction behind digit] at follows ⊢
    obtain ⟨taken, dropped⟩ := takeWhile_again (by decide) follows
    have digits : (d :: rest).takeWhile Char.isDigit = d :: rest.takeWhile Char.isDigit :=
      List.takeWhile_cons_of_pos digit
    rw [digits] at taken dropped ⊢
    have stops : ∀ e ∈ ('.' :: d :: (rest.takeWhile Char.isDigit ++ left')).head?, Char.isDigit e = false := by
      rintro _ ⟨⟩
      rfl
    have whole : ∀ e ∈ cs.takeWhile Char.isDigit, Char.isDigit e = true := fun e member => List.mem_takeWhile_imp member
    have text : literal (cs.takeWhile Char.isDigit, d :: rest.takeWhile Char.isDigit,
        (d :: rest).dropWhile Char.isDigit) ++ left' =
        cs.takeWhile Char.isDigit ++ '.' :: d :: (rest.takeWhile Char.isDigit ++ left') := by
      simp [literal]
    rw [text, scanNumber_fraction (Text.dropWhile_again whole stops) digit, Text.takeWhile_again whole stops]
    exact Prod.ext rfl (Prod.ext taken dropped)
  · have plain : ∀ d rest, cs.dropWhile Char.isDigit = '.' :: d :: rest → d.isDigit = false := by
      intro d rest behind
      exact Bool.eq_false_iff.2 fun digit => point ⟨d, rest, behind, digit⟩
    rw [scanNumber_whole plain] at follows ⊢
    obtain ⟨taken, dropped⟩ := takeWhile_again (by decide) follows
    have text : literal (cs.takeWhile Char.isDigit, [], cs.dropWhile Char.isDigit) ++ left' =
        cs.takeWhile Char.isDigit ++ left' := by
      simp [literal]
    have plain' : ∀ d rest, (cs.takeWhile Char.isDigit ++ left').dropWhile Char.isDigit = '.' :: d :: rest →
        d.isDigit = false := by
      intro d rest behind
      rw [dropped] at behind
      subst behind
      -- A point that a digit follows stood there before.
      cases before : cs.dropWhile Char.isDigit with
      | nil => rw [before] at follows; cases follows.of_nil
      | cons e tail =>
        rw [before] at follows
        generalize known : '.' :: d :: rest = text at follows
        cases follows with
        | ends => cases known
        | space => cases known
        | same _ _ _ next =>
          cases known
          rcases next with none | space | same
          · cases none
          · cases space
            rfl
          · cases tail with
            | nil => cases same
            | cons f tail =>
              cases same
              exact plain d tail before
    rw [text, scanNumber_whole plain', taken, dropped]

/-! The tokens -/

theorem numberLexeme_eq (cs : List Char) :
    numberLexeme cs = ⟨.number (Decimal.ofDigits (scanNumber cs).1 (scanNumber cs).2.1)
      (String.ofList (scanUnit (scanNumber cs).2.2).1), literal (scanNumber cs) ++ (scanUnit (scanNumber cs).2.2).1,
      (scanUnit (scanNumber cs).2.2).2⟩ := rfl

theorem numberLexeme_again (follows : Follows (numberLexeme cs).left left') :
    numberLexeme ((numberLexeme cs).taken ++ left') = ⟨(numberLexeme cs).kind, (numberLexeme cs).taken, left'⟩ := by
  rw [numberLexeme_eq cs] at follows ⊢
  have unit := scanUnit_again follows
  have behind : Follows (scanNumber cs).2.2 ((scanUnit (scanNumber cs).2.2).1 ++ left') := by
    have appended := follows.append (scanUnit (scanNumber cs).2.2).1
    rwa [scanUnit_append] at appended
  rw [numberLexeme_eq, List.append_assoc, scanNumber_again behind]
  simp only [literal, unit]

theorem startsUrl_again (printing : ∃ c ∈ taken, Text.isBlank c = false) (left left' : List Char) :
    startsUrl (taken ++ left') = startsUrl (taken ++ left) := by
  obtain ⟨c, member, seen⟩ := printing
  have begins : taken.dropWhile Text.isBlank ≠ [] := by
    intro none
    exact Bool.noConfusion (seen.symm.trans (List.dropWhile_eq_nil_iff.1 none c member))
  have trimmed (left : List Char) : Text.trimStart (taken ++ left) = taken.dropWhile Text.isBlank ++ left := by
    rw [Text.trimStart, List.dropWhile_append, if_neg (by simpa using begins)]
  unfold startsUrl
  rw [trimmed, trimmed]
  cases begins' : taken.dropWhile Text.isBlank with
  | nil => exact absurd begins' begins
  | cons d rest => rfl

theorem wordLexeme_address {name : List Char} (scanned : scanName cs = (name, '(' :: rest))
    (starts : (Text.sameWord (String.ofList name) "url" && startsUrl rest) = true)
    (argument : scanUrl 0 rest = some (taken, left)) :
    wordLexeme cs = ⟨.url (String.ofList (Text.trim taken.dropLast)), name ++ '(' :: taken, left⟩ := by
  unfold wordLexeme
  rw [scanned]
  simp only [starts, argument, if_true]

theorem wordLexeme_word {name behind : List Char} (scanned : scanName cs = (name, behind))
    (plain : ∀ rest, behind = '(' :: rest → Text.sameWord (String.ofList name) "url" = true → startsUrl rest = true →
      scanUrl 0 rest = none) :
    wordLexeme cs = ⟨.ident (String.ofList name), name, behind⟩ := by
  unfold wordLexeme
  rw [scanned]
  dsimp only
  split
  · next rest =>
    split
    · next starts =>
      obtain ⟨url, starts⟩ := Bool.and_eq_true_iff.1 starts
      rw [plain rest rfl url starts]
    · rfl
  · rfl

/-- An address is read again in front of any text. A word is read again unless an address begins there. -/
theorem wordLexeme_again (follows : Follows (wordLexeme cs).left left')
    (plain : ∀ name tail, (wordLexeme cs).kind = .ident name → Text.sameWord name "url" = true → left' = '(' :: tail →
      startsUrl tail = false) :
    wordLexeme ((wordLexeme cs).taken ++ left') = ⟨(wordLexeme cs).kind, (wordLexeme cs).taken, left'⟩ := by
  obtain ⟨name, behind, scanned⟩ : ∃ name behind, scanName cs = (name, behind) := ⟨_, _, rfl⟩
  by_cases address : ∃ rest taken left, behind = '(' :: rest ∧
      (Text.sameWord (String.ofList name) "url" && startsUrl rest) = true ∧ scanUrl 0 rest = some (taken, left)
  · obtain ⟨rest, taken, left, rfl, starts, argument⟩ := address
    rw [wordLexeme_address scanned starts argument]
    have covers := scanUrl_append argument
    have printing : ∃ c ∈ taken, Text.isBlank c = false := ⟨')', (scanUrl_closed argument).subset (by simp), rfl⟩
    have opens : Follows ('(' :: rest) ('(' :: (taken ++ left')) := by
      refine .same _ _ _ (.inr (.inr ?_))
      rw [← covers]
      obtain ⟨d, more, rfl⟩ := List.exists_cons_of_ne_nil (scanUrl_ne_nil argument)
      rfl
    rw [List.append_assoc, List.cons_append]
    refine wordLexeme_address (scanName_again scanned opens) ?_ (scanUrl_again argument left')
    rw [startsUrl_again printing left left', covers, starts]
  · have other : ∀ rest, behind = '(' :: rest → Text.sameWord (String.ofList name) "url" = true →
        startsUrl rest = true → scanUrl 0 rest = none := by
      intro rest opens url starts
      cases argument : scanUrl 0 rest with
      | none => rfl
      | some cut => exact absurd ⟨rest, cut.1, cut.2, opens, by rw [url, starts]; rfl, argument⟩ address
    rw [wordLexeme_word scanned other] at follows plain ⊢
    refine wordLexeme_word (scanName_again scanned follows) fun rest opens url starts => ?_
    rw [plain _ rest rfl url opens] at starts
    cases starts

variable {kind : TokenKind} {more : List Char}

/-- A token that is read in front of one text is read in front of another one. -/
def Again (kind : TokenKind) (taken left left' : List Char) (first again : Except Fault Lexeme) : Prop :=
  first = .ok ⟨kind, taken, left⟩ → again = .ok ⟨kind, taken, left'⟩

theorem Again.ite {test test' : Bool} {yes yes' no no' : Except Fault Lexeme} (fewer : test' = true → test = true)
    (holds : test = true → yes = .ok ⟨kind, taken, left⟩ → test' = true ∧ yes' = .ok ⟨kind, taken, left'⟩)
    (fails : Again kind taken left left' no no') :
    Again kind taken left left' (if test then yes else no) (if test' then yes' else no') := by
  cases known : test with
  | true =>
    intro same
    obtain ⟨known', same'⟩ := holds known same
    rw [known', if_pos rfl, same']
  | false =>
    have known' : test' = false := by
      refine Bool.eq_false_iff.2 fun holds => ?_
      rw [fewer holds] at known
      cases known
    rw [known']
    exact fails

theorem isNameChar_of_hyphen (start : (isNameStart c || c == '-') = true) : isNameChar c = true := by
  rcases Bool.or_eq_true_iff.1 start with start | hyphen
  · exact isNameChar_of_isNameStart start
  · rw [eq_of_beq hyphen]
    rfl

/-- A name behind a sign; the next character shows that there is one. -/
theorem named_signed {kind' : String → TokenKind} {p : Char → Bool} (names : ∀ d, p d = true → isNameChar d = true)
    (follows : Follows left left') (second : (more ++ left).head?.any p = true)
    (read : named kind' [c] (more ++ left) = ⟨kind, c :: more, left⟩) :
    (more ++ left').head?.any p = true ∧ named kind' [c] (more ++ left') = ⟨kind, c :: more, left'⟩ := by
  have name : (scanName (more ++ left)).1 = more := (List.cons.inj (congrArg Lexeme.taken read)).2
  have behind : (scanName (more ++ left)).2 = left := congrArg Lexeme.left read
  have again : scanName (more ++ left') = (more, left') :=
    scanName_again (Prod.ext name behind) follows
  cases more with
  | nil =>
    obtain ⟨d, tail, text⟩ : ∃ d tail, left = d :: tail := by
      cases left with
      | nil => cases second
      | cons d tail => exact ⟨d, tail, rfl⟩
    subst text
    exact absurd name (scanName_ne_nil (names d (by simpa using second)))
  | cons d more =>
    refine ⟨second, ?_⟩
    have known : kind' (String.ofList (scanName (d :: more ++ left)).1) = kind := congrArg Lexeme.kind read
    rw [name] at known
    rw [named, again, ← known]
    rfl

theorem named_hyphen {p : Char → Bool} (names : ∀ d, p d = true → isNameChar d = true) (follows : Follows left left')
    (second : (more ++ left).head?.any p = true)
    (read : named .ident [] ('-' :: (more ++ left)) = ⟨kind, '-' :: more, left⟩) :
    (more ++ left').head?.any p = true ∧ named .ident [] ('-' :: (more ++ left')) = ⟨kind, '-' :: more, left'⟩ := by
  have step (cs : List Char) : scanName ('-' :: cs) = ('-' :: (scanName cs).1, (scanName cs).2) := by
    rw [scanName.eq_2 _ _ fun _ _ same _ => absurd same (by decide), if_pos (by decide)]
  have known := congrArg Lexeme.kind read
  have name := congrArg Lexeme.taken read
  have behind := congrArg Lexeme.left read
  simp only [named, step, List.nil_append] at known name behind
  have name := (List.cons.inj name).2
  rw [name] at known
  have signed : named (fun _ => kind) ['-'] (more ++ left) = ⟨kind, '-' :: more, left⟩ := by
    rw [named, ← Prod.eta (scanName (more ++ left)), name, behind]
    rfl
  obtain ⟨second, again⟩ := named_signed names follows second signed
  have name' : (scanName (more ++ left')).1 = more := (List.cons.inj (congrArg Lexeme.taken again)).2
  have behind' : (scanName (more ++ left')).2 = left' := congrArg Lexeme.left again
  refine ⟨second, ?_⟩
  rw [named, step, ← known]
  simp [name', behind']

/-- A point that begins a number does not make it up alone. -/
theorem numberLexeme_point (digit : left.head?.any Char.isDigit = true) :
    (numberLexeme ('.' :: left)).taken ≠ ['.'] := by
  cases left with
  | nil => cases digit
  | cons d tail =>
    have digit : d.isDigit = true := digit
    have number : scanNumber ('.' :: d :: tail) = _ := scanNumber_fraction rfl digit
    rw [numberLexeme_eq, number]
    simp [literal, digit]

/-- A token of a sign and a name. -/
theorem signed_again {sign : Char} {kind' : String → TokenKind} {p : Char → Bool}
    (names : ∀ d, p d = true → isNameChar d = true) (follows : Follows left left')
    (opens : (c == sign && (more ++ left).head?.any p) = true)
    (read : (.ok (named kind' [c] (more ++ left)) : Except Fault Lexeme) = .ok ⟨kind, c :: more, left⟩) :
    (c == sign && (more ++ left').head?.any p) = true ∧
      (.ok (named kind' [c] (more ++ left')) : Except Fault Lexeme) = .ok ⟨kind, c :: more, left'⟩ := by
  obtain ⟨first, second⟩ := Bool.and_eq_true_iff.1 opens
  obtain ⟨second, again⟩ := named_signed names follows second (Except.ok.inj read)
  exact ⟨Bool.and_eq_true_iff.2 ⟨first, second⟩, congrArg Except.ok again⟩

/-- A number begins with the same digit, or with the same point and the same digit behind it. -/
theorem number_again (follows : Follows left left')
    (digits : (c.isDigit || (c == '.' && (more ++ left).head?.any Char.isDigit)) = true)
    (read : numberLexeme (c :: (more ++ left)) = ⟨kind, c :: more, left⟩) :
    (c.isDigit || (c == '.' && (more ++ left').head?.any Char.isDigit)) = true ∧
      numberLexeme (c :: (more ++ left')) = ⟨kind, c :: more, left'⟩ := by
  constructor
  · cases more with
    | nil =>
      rcases Bool.or_eq_true_iff.1 digits with digit | point
      · rw [digit]
        rfl
      · obtain ⟨first, second⟩ := Bool.and_eq_true_iff.1 point
        obtain rfl := eq_of_beq first
        exact absurd (congrArg Lexeme.taken read) (numberLexeme_point second)
    | cons d more => exact digits
  · have behind : Follows (numberLexeme (c :: (more ++ left))).left left' := by rwa [read]
    have again := numberLexeme_again behind
    rwa [read] at again

/-- A token that is neither a blank nor a comment is read again, unless it becomes an address. -/
theorem lexeme_again (read : lexeme c (more ++ left) = .ok ⟨kind, c :: more, left⟩) (follows : Follows left left')
    (noBlank : ∀ newline, kind ≠ .blank newline) (noComment : ∀ comment, kind ≠ .comment comment)
    (plain : ∀ name tail, kind = .ident name → Text.sameWord name "url" = true → left' = '(' :: tail →
      startsUrl tail = false) :
    lexeme c (more ++ left') = .ok ⟨kind, c :: more, left'⟩ := by
  have fewer {p : Char → Bool} (space : p ' ' = false) (second : (more ++ left').head?.any p = true) :
      (more ++ left).head?.any p = true := by
    cases more with
    | nil => exact follows.head? space second
    | cons d more => exact second
  have sign {d : Char} {p : Char → Bool} (space : p ' ' = false)
      (known : (c == d && (more ++ left').head?.any p) = true) : (c == d && (more ++ left).head?.any p) = true := by
    obtain ⟨first, second⟩ := Bool.and_eq_true_iff.1 known
    rw [first, fewer space second]
    rfl
  suffices again : Again kind (c :: more) left left' (lexeme c (more ++ left)) (lexeme c (more ++ left')) from
    again read
  unfold lexeme
  refine .ite (fun blank => ?_) (fun _ same => absurd (congrArg Lexeme.kind (Except.ok.inj same)).symm (noBlank _)) ?_
  · rcases Bool.or_eq_true_iff.1 blank with blank | slash
    · rw [blank]
      rfl
    · rw [sign rfl slash, Bool.or_true]
  refine .ite (sign rfl) (fun _ same => ?_) ?_
  · split at same
    · exact absurd (congrArg Lexeme.kind (Except.ok.inj same)).symm (noComment _)
    · cases same
  refine .ite id (fun quote same => ⟨quote, ?_⟩) ?_
  · have isQuote : c = '"' ∨ c = '\'' := by simpa using quote
    split at same
    · next contents behind scanned =>
      obtain ⟨rfl, text, rfl⟩ := Lexeme.mk.inj (Except.ok.inj same)
      obtain rfl : contents ++ [c] = more := (List.cons.inj text).2
      have again := (scanQuoted_again isQuote left').1 _ _ _ scanned
      have whole : contents ++ [c] ++ left' = contents ++ c :: left' := by simp
      rw [whole, again]
      rfl
    · cases same
    · cases same
    · cases same
  refine .ite (sign rfl) (signed_again (fun _ => isNameChar_of_isNameStart) follows) ?_
  refine .ite (sign rfl) (signed_again (fun _ => isNameChar_of_hyphen) follows) ?_
  refine .ite (sign rfl) (fun opens same => ?_) ?_
  · obtain ⟨rfl, text, -⟩ := Lexeme.mk.inj (Except.ok.inj same)
    obtain ⟨rfl, rfl⟩ := List.cons.inj text
    exact ⟨opens, rfl⟩
  refine .ite (sign rfl) (signed_again (fun _ => id) follows) ?_
  refine .ite (fun digits => ?_) (fun digits same => ?_) ?_
  · rcases Bool.or_eq_true_iff.1 digits with digit | point
    · rw [digit]
      rfl
    · rw [sign rfl point, Bool.or_true]
  · obtain ⟨digits, again⟩ := number_again follows digits (Except.ok.inj same)
    exact ⟨digits, congrArg Except.ok again⟩
  refine .ite (sign rfl) (fun opens same => ?_) ?_
  · obtain ⟨first, second⟩ := Bool.and_eq_true_iff.1 opens
    obtain rfl := eq_of_beq first
    obtain ⟨second, again⟩ := named_hyphen (fun _ => isNameChar_of_hyphen) follows second
      (Except.ok.inj same)
    exact ⟨Bool.and_eq_true_iff.2 ⟨first, second⟩, congrArg Except.ok again⟩
  refine .ite id (fun start same => ⟨start, ?_⟩) ?_
  · have word := Except.ok.inj same
    have behind : Follows (wordLexeme (c :: (more ++ left))).left left' := by rwa [word]
    have again := wordLexeme_again behind fun name tail known => plain name tail (by rwa [word] at known)
    rw [word] at again
    exact congrArg Except.ok again
  -- What is left are relations and single marks. A mark stays one, as no equals sign comes behind it.
  intro same
  dsimp only at same ⊢
  by_cases second : (more ++ left').head?.any (· == '=') = true
  · rw [if_pos (fewer rfl second)] at same
    rw [if_pos second]
    revert same
    split
    · intro same
      obtain ⟨rfl, text, -⟩ := Lexeme.mk.inj (Except.ok.inj same)
      cases text
      rfl
    · intro same
      obtain ⟨rfl, text, -⟩ := Lexeme.mk.inj (Except.ok.inj same)
      cases text
      rfl
  · rw [if_neg second]
    split at same
    · obtain ⟨-, text, -⟩ := Lexeme.mk.inj (Except.ok.inj same)
      cases text
      exact absurd rfl second
    · obtain ⟨rfl, text, -⟩ := Lexeme.mk.inj (Except.ok.inj same)
      cases text
      rfl

end Stylesheet.Token

namespace Stylesheet.Spelling

/-- A token that is neither a blank nor a comment is read in front of another text as well. -/
theorem Reads.again {s : Spelling} {left left' : List Char} (reads : s.Reads left) (follows : Token.Follows left left')
    (printing : s.isTrivia = false)
    (plain : ∀ name tail, s.kind = .ident name → Text.sameWord name "url" = true → left' = '(' :: tail →
      Token.startsUrl tail = false) : s.Reads left' := by
  have nonempty := reads.length_pos
  obtain ⟨c, tail, text, read⟩ := reads
  obtain ⟨d, more, written⟩ := List.exists_cons_of_length_pos nonempty
  rw [written] at text read
  obtain ⟨rfl, rfl⟩ := List.cons.inj text
  refine ⟨d, more ++ left', by rw [written]; rfl, ?_⟩
  rw [written]
  refine Token.lexeme_again read follows ?_ ?_ plain
  · intro newline kind
    simp [isTrivia, kind] at printing
  · intro comment kind
    simp [isTrivia, kind] at printing

end Stylesheet.Spelling
