import Stylesheet.Proofs.Reading
import Stylesheet.Proofs.TokenTexts

/-! A text with closing braces behind it. Its tokens are those of the text alone, and marks for the braces. Only the
last token of the text may differ, where it is a line comment or ends in a backslash. -/

namespace Stylesheet

/-- A name that is no word of the grammar, as it ends in a backslash or in an escaped brace. -/
def IsUnknown (name : String) : Prop := name.toList.getLast? = some '\\' ∨ name.toList.getLast? = some '}'

/-- A word in small letters that is no unknown name. -/
def isKnown (word : String) : Bool :=
  Grammar.isSmall word && word.toList.getLast?.all fun c => c != '\\' && c != '}'

theorem sameWord_of_unknown {name word : String} (unknown : IsUnknown name) (known : isKnown word = true) :
    Text.sameWord name word = false := by
  obtain ⟨small, last⟩ := Bool.and_eq_true_iff.1 known
  refine Bool.eq_false_iff.2 fun same => ?_
  have same : name.toLower = word.toLower := eq_of_beq same
  rw [Grammar.toLower_eq_self small] at same
  have chars : (name.map Char.toLower).toList = word.toList := congrArg String.toList same
  rw [String.toList_map] at chars
  rw [← chars, List.getLast?_map] at last
  rcases unknown with ends | ends
  · rw [ends] at last
    exact absurd last (by decide)
  · rw [ends] at last
    exact absurd last (by decide)

/-- What the last token of a text becomes as braces follow: a line comment takes them along, and an open escape takes
one of them. -/
inductive TokenKind.Becomes : TokenKind → TokenKind → Prop
  | blank (newline : Bool) : Becomes (.blank newline) (.blank newline)
  | ident {name name' : String} (short : IsUnknown name) (long : IsUnknown name') : Becomes (.ident name) (.ident name')
  | atKeyword {name name' : String} (short : IsUnknown name) (long : IsUnknown name') :
    Becomes (.atKeyword name) (.atKeyword name')
  | variable (name name' : String) : Becomes (.variable name) (.variable name')
  | hash (name name' : String) : Becomes (.hash name) (.hash name')

/-- Nothing but closing braces. -/
def Closing (tokens : List Token) : Prop := ∀ token ∈ tokens, token.kind = .mark '}'

/-- The tokens of a text, and those of the same text with closing braces behind it. -/
inductive Continues : List Token → List Token → Prop
  | closing {braces : List Token} (closing : Closing braces) : Continues [] braces
  | last {token token' : Token} {braces : List Token} (becomes : token.kind.Becomes token'.kind)
    (place : token.pos = token'.pos) (closing : Closing braces) : Continues [token] (token' :: braces)
  | cons {token : Token} {rest rest' : List Token} (behind : Continues rest rest') :
    Continues (token :: rest) (token :: rest')

/-! Reading the tokens -/

namespace Token

variable {c quote : Char} {cs rest : List Char} {count : Nat}

/-- Closing braces that stand behind a text. -/
def braces (count : Nat) : List Char := List.replicate count '}'

theorem takeWhile_braces {p : Char → Bool} (fails : p '}' = false) (cs : List Char) (count : Nat) :
    (cs ++ braces count).takeWhile p = cs.takeWhile p := by
  induction cs with
  | nil => cases count <;> simp [braces, List.replicate_succ, fails]
  | cons c rest same => rw [List.cons_append, List.takeWhile_cons, List.takeWhile_cons, same]

theorem dropWhile_braces {p : Char → Bool} (fails : p '}' = false) (cs : List Char) (count : Nat) :
    (cs ++ braces count).dropWhile p = cs.dropWhile p ++ braces count := by
  induction cs with
  | nil => cases count <;> simp [braces, List.replicate_succ, fails]
  | cons c rest same =>
    rw [List.cons_append, List.dropWhile_cons, List.dropWhile_cons, same]
    split <;> rfl

theorem head?_braces {p : Char → Bool} (fails : p '}' = false) (cs : List Char) (count : Nat) :
    (cs ++ braces count).head?.any p = cs.head?.any p := by
  cases cs with
  | nil => cases count <;> simp [braces, List.replicate_succ, fails]
  | cons => rfl

/-- A name is cut off in the same place as braces follow, or its open escape takes one of them along. -/
inductive NameGoesOn (count : Nat) : List Char × List Char → List Char × List Char → Prop
  | same (name left : List Char) : NameGoesOn count (name, left) (name, left ++ braces count)
  | escape {name : List Char} (ends : name.getLast? = some '\\') (more : Nat) :
    NameGoesOn count (name, []) (name ++ ['}'], braces more)

theorem NameGoesOn.cons {name name' left left' : List Char} (goesOn : NameGoesOn count (name, left) (name', left'))
    (c : Char) : NameGoesOn count (c :: name, left) (c :: name', left') := by
  cases goesOn with
  | same => exact .same (c :: name) left
  | escape ends more =>
    have last : (c :: name).getLast? = some '\\' := by
      rw [List.getLast?_cons, ends]
      rfl
    exact .escape last more

theorem scanName_braces (count : Nat) (cs : List Char) :
    NameGoesOn count (scanName cs) (scanName (cs ++ braces count)) := by
  have none (count : Nat) : scanName (braces count) = ([], braces count) := by
    cases count <;> rfl
  fun_induction scanName cs with
  | case1 c rest name left scanned later =>
    rw [scanned] at later
    rw [List.cons_append, List.cons_append, scanName]
    exact (later.cons c).cons '\\'
  | case2 c rest plain start name left scanned later =>
    rw [scanned] at later
    cases rest with
    | nil =>
      cases scanned
      rw [List.cons_append, List.nil_append]
      by_cases escape : c = '\\'
      · subst escape
        cases count with
        | zero => exact .same ['\\'] []
        | succ count =>
          have taken : scanName ('\\' :: braces (count + 1)) = (['\\', '}'], braces count) := by
            rw [braces, List.replicate_succ, scanName, ← braces, none]
          have ends : ['\\'].getLast? = some '\\' := rfl
          rw [taken]
          exact .escape ends count
      · rw [scanName.eq_2 _ _ fun _ _ same _ => escape same, if_pos start, none]
        exact .same [c] []
    | cons d rest =>
      have plain' : ∀ e more, c = '\\' → (d :: rest) ++ braces count = e :: more → False :=
        fun e more escape _ => plain d rest escape rfl
      rw [List.cons_append, scanName.eq_2 _ _ plain', if_pos start]
      exact later.cons c
  | case3 c rest plain other =>
    have plain' : ∀ e more, c = '\\' → rest ++ braces count = e :: more → False := by
      rintro e more rfl -
      exact other rfl
    rw [List.cons_append, scanName.eq_2 _ _ plain', if_neg other]
    exact .same [] (c :: rest)
  | case4 =>
    rw [List.nil_append, none]
    exact .same [] []

/-- A run of blanks goes on where it is a line comment that is not over. -/
inductive BlankGoesOn (count : Nat) : List Char × List Char → List Char × List Char → Prop
  | same (taken left : List Char) : BlankGoesOn count (taken, left) (taken, left ++ braces count)
  | comment (taken : List Char) : BlankGoesOn count (taken, []) (taken ++ braces count, [])

theorem BlankGoesOn.cons {taken taken' left left' : List Char}
    (goesOn : BlankGoesOn count (taken, left) (taken', left')) (c : Char) :
    BlankGoesOn count (c :: taken, left) (c :: taken', left') := by
  cases goesOn with
  | same => exact .same (c :: taken) left
  | comment => exact .comment (c :: taken)

/-- A character that opens no line comment is taken if it is blank or stands in a line comment. -/
theorem scanBlank_cons {inComment : Bool} (plain : inComment = false → c = '/' → rest.head? ≠ some '/') :
    scanBlank inComment (c :: rest) =
      if Text.isBlank c || inComment then
        (c :: (scanBlank (inComment && c != '\n') rest).1, (scanBlank (inComment && c != '\n') rest).2)
      else ([], c :: rest) := by
  rw [scanBlank.eq_def]
  split
  · next same =>
    cases same
    exact absurd rfl (plain rfl rfl)
  · next same =>
    cases same
    rfl
  · next same => cases same

theorem scanBlank_braces (count : Nat) (inComment : Bool) (cs : List Char) :
    BlankGoesOn count (scanBlank inComment cs) (scanBlank inComment (cs ++ braces count)) := by
  have one : (braces count).head? ≠ some '/' := by
    cases count with
    | zero => exact nofun
    | succ => exact fun same => absurd (Option.some.inj same) (by decide)
  fun_induction scanBlank inComment cs with
  | case1 rest taken left scanned later =>
    rw [scanned] at later
    exact (later.cons '/').cons '/'
  | case2 inComment c rest plain blank taken left scanned later =>
    rw [scanned] at later
    rw [List.cons_append, scanBlank_cons, if_pos blank]
    · exact later.cons c
    · rintro rfl rfl
      exact absurd blank (by decide)
  | case3 inComment c rest plain other =>
    rw [List.cons_append, scanBlank_cons, if_neg other]
    · exact .same [] (c :: rest)
    · rintro rfl rfl
      cases rest with
      | nil => exact one
      | cons d rest =>
        intro same
        cases Option.some.inj same
        exact plain rest rfl rfl rfl
  | case4 inComment =>
    cases inComment with
    | true =>
      have all (count : Nat) : scanBlank true (braces count) = (braces count, []) := by
        induction count with
        | zero => rfl
        | succ count fewer =>
          have brace : braces (count + 1) = '}' :: braces count := rfl
          rw [brace, scanBlank_cons fun outside => Bool.noConfusion outside, if_pos (Bool.or_true _)]
          change ('}' :: (scanBlank true (braces count)).1, (scanBlank true (braces count)).2) = _
          rw [fewer]
      rw [List.nil_append, all]
      exact .comment []
    | false =>
      have none : scanBlank false (braces count) = ([], braces count) := by
        cases count <;> rfl
      rw [List.nil_append, none]
      exact .same [] []

theorem scanComment_braces {taken left : List Char}
    (scanned : scanComment (cs ++ braces count) = some (taken, left)) :
    ∃ left', scanComment cs = some (taken, left') ∧ left = left' ++ braces count := by
  have none (count : Nat) : scanComment (braces count) = none := by
    induction count with
    | zero => rfl
    | succ count fewer => 
      change (scanComment (braces count)).map _ = none
      rw [fewer]
      rfl
  fun_induction scanComment cs generalizing taken left with
  | case1 rest =>
    cases scanned
    exact ⟨rest, rfl, rfl⟩
  | case2 c rest plain later =>
    have plain' : ∀ more, c = '*' → rest ++ braces count = '/' :: more → False := by
      rintro more rfl same
      cases rest with
      | nil =>
        cases count with
        | zero => cases same
        | succ => cases same
      | cons d rest =>
        cases same
        exact plain rest rfl rfl
    rw [List.cons_append, scanComment.eq_2 _ _ plain'] at scanned
    obtain ⟨⟨inner, behind⟩, found, same⟩ := Option.map_eq_some_iff.1 scanned
    cases same
    obtain ⟨left', known, rfl⟩ := later found
    exact ⟨left', by rw [known]; rfl, rfl⟩
  | case3 =>
    rw [List.nil_append, none] at scanned
    cases scanned

/-- A string that is closed before the braces is closed there in the text alone. -/
def QuotedScan.GoesOn (count : Nat) (short long : QuotedScan) : Prop :=
  ∀ contents left, long = .closed contents left → ∃ left', short = .closed contents left' ∧ left = left' ++ braces count

theorem QuotedScan.GoesOn.cons {short long : QuotedScan} (goesOn : short.GoesOn count long) (c : Char) :
    (short.cons c).GoesOn count (long.cons c) := by
  intro contents left closed
  cases long with
  | closed inner behind =>
    cases closed
    obtain ⟨left', rfl, rfl⟩ := goesOn inner left rfl
    exact ⟨left', rfl, rfl⟩
  | unclosed | insideCode | unclosedCode => cases closed

theorem QuotedScan.GoesOn.openCode {short long : QuotedScan} (goesOn : short.GoesOn count long) :
    short.openCode.GoesOn count long.openCode := by
  intro contents left closed
  cases long with
  | closed inner behind =>
    cases closed
    obtain ⟨left', rfl, rfl⟩ := goesOn inner left rfl
    exact ⟨left', rfl, rfl⟩
  | unclosed | insideCode | unclosedCode => cases closed

theorem QuotedScan.GoesOn.of_cuts {short long : QuotedScan} (cuts : long.Cuts quote cs) (none : quote ∉ cs) :
    short.GoesOn count long := by
  rintro contents left rfl
  have cuts : contents ++ quote :: left = cs := cuts
  rw [← cuts] at none
  simp at none

/-- By induction on the text; a string and the interpolations in it are scanned in turn. -/
theorem scanQuoted_braces (count : Nat) (isQuote : quote = '"' ∨ quote = '\'') :
    (∀ cs, (scanQuoted quote cs).GoesOn count (scanQuoted quote (cs ++ braces count))) ∧
      ∀ depth inner cs,
        (scanQuotedCode quote depth inner cs).GoesOn count (scanQuotedCode quote depth inner (cs ++ braces count)) := by
  have absent : quote ∉ braces count := by
    intro member
    obtain rfl := List.eq_of_mem_replicate member
    exact absurd isQuote (by decide)
  have escape : quote ≠ '\\' := by rcases isQuote with rfl | rfl <;> decide
  have sign : quote ≠ '#' := by rcases isQuote with rfl | rfl <;> decide
  have cuts := scanQuoted_cuts quote
  apply scanQuoted.mutual_induct quote
  · intro c rest later
    exact (later.cons c).cons '\\'
  · intro rest later
    exact later.openCode
  · intro rest plain code
    have closed (rest : List Char) : scanQuoted quote (quote :: rest) = .closed [] rest := by
      rw [scanQuoted.eq_3 quote quote rest (fun _ _ same => absurd same escape) fun _ same => absurd same sign,
        if_pos rfl]
    rw [List.cons_append, closed, closed]
    rintro contents left ⟨⟩
    exact ⟨rest, rfl, rfl⟩
  · intro rest plain code other
    have unclosed : scanQuoted quote ('\n' :: (rest ++ braces count)) = .unclosed := by
      rw [scanQuoted.eq_3 quote '\n' _ (fun _ _ same => absurd same (by decide)) fun _ same => absurd same (by decide),
        if_neg other, if_pos rfl]
    rw [List.cons_append, unclosed]
    intro contents left same
    cases same
  · intro c rest plain code other inLine later
    cases rest with
    | nil => exact .of_cuts (cuts.1 _).1 (by simp [absent, Ne.symm other])
    | cons d rest =>
      have plain' : ∀ e more, c = '\\' → d :: (rest ++ braces count) = e :: more → False :=
        fun e more escape _ => plain d rest escape rfl
      have code' : ∀ more, c = '#' → d :: (rest ++ braces count) = '{' :: more → False := by
        rintro more rfl same
        cases same
        exact code rest rfl rfl
      rw [scanQuoted.eq_3 quote c _ plain code, if_neg other, if_neg inLine, List.cons_append, List.cons_append,
        scanQuoted.eq_3 quote c _ plain' code', if_neg other, if_neg inLine]
      exact later.cons c
  · exact .of_cuts (cuts.1 _).1 absent
  · intro depth inner
    exact .of_cuts (cuts.2 depth inner _) absent
  · intro depth q c rest later
    exact (later.cons c).cons '\\'
  · intro depth q c rest plain later
    by_cases open_ : c = '\\'
    · subst open_
      cases rest with
      | nil => exact .of_cuts (cuts.2 depth (some q) _) (by simp [absent, escape])
      | cons d rest => exact (plain d rest rfl rfl).elim
    · rw [scanQuotedCode.eq_3 quote depth q c rest plain, List.cons_append,
        scanQuotedCode.eq_3 quote depth q c _ fun _ _ same => absurd same open_]
      exact later.cons c
  · intro depth c rest ends later
    rw [List.cons_append, scanQuotedCode.eq_4, if_pos ends, scanQuotedCode.eq_4, if_pos ends]
    exact later.cons c
  · intro depth c rest goes inner deeper later
    rw [List.cons_append, scanQuotedCode.eq_4, if_neg goes, scanQuotedCode.eq_4, if_neg goes]
    exact later.cons c

theorem scanNumber_fraction (behind : cs.dropWhile Char.isDigit = '.' :: c :: rest) (digit : c.isDigit = true) :
    scanNumber cs =
      (cs.takeWhile Char.isDigit, (c :: rest).takeWhile Char.isDigit, (c :: rest).dropWhile Char.isDigit) := by
  unfold scanNumber
  rw [behind]
  exact if_pos digit

theorem scanNumber_whole (plain : ∀ c rest, cs.dropWhile Char.isDigit = '.' :: c :: rest → c.isDigit = false) :
    scanNumber cs = (cs.takeWhile Char.isDigit, [], cs.dropWhile Char.isDigit) := by
  unfold scanNumber
  dsimp only
  split
  · next c rest same =>
    rw [if_neg (Bool.eq_false_iff.1 (plain c rest same)), same]
  · rfl

theorem scanNumber_braces (cs : List Char) (count : Nat) :
    scanNumber (cs ++ braces count) =
      ((scanNumber cs).1, (scanNumber cs).2.1, (scanNumber cs).2.2 ++ braces count) := by
  have whole := takeWhile_braces (p := Char.isDigit) rfl cs count
  have later := dropWhile_braces (p := Char.isDigit) rfl cs count
  by_cases fraction : ∃ c rest, cs.dropWhile Char.isDigit = '.' :: c :: rest ∧ c.isDigit = true
  · obtain ⟨c, rest, behind, digit⟩ := fraction
    have digits := takeWhile_braces (p := Char.isDigit) rfl (c :: rest) count
    have left := dropWhile_braces (p := Char.isDigit) rfl (c :: rest) count
    rw [behind, List.cons_append, List.cons_append] at later
    rw [List.cons_append] at digits left
    rw [scanNumber_fraction behind digit, scanNumber_fraction later digit, whole, digits, left]
  · have plain (c : Char) (rest : List Char) (behind : cs.dropWhile Char.isDigit = '.' :: c :: rest) :
        c.isDigit = false :=
      Bool.eq_false_iff.2 fun digit => fraction ⟨c, rest, behind, digit⟩
    rw [scanNumber_whole plain, scanNumber_whole, whole, later]
    intro c rest same
    rw [later] at same
    generalize cs.dropWhile Char.isDigit = behind at same plain
    -- Behind a point at the end of the text there is a brace, which is no digit.
    rcases behind with _ | ⟨point, _ | ⟨d, more⟩⟩
    · cases count <;> cases same
    · cases count <;> cases same
      rfl
    · cases same
      exact plain c more rfl

theorem scanUnit_braces (cs : List Char) (count : Nat) :
    scanUnit (cs ++ braces count) = ((scanUnit cs).1, (scanUnit cs).2 ++ braces count) := by
  by_cases percent : ∃ rest, cs = '%' :: rest
  · obtain ⟨rest, rfl⟩ := percent
    rfl
  · have plain (cs : List Char) (other : ∀ rest, cs = '%' :: rest → False) :
        scanUnit cs = (cs.takeWhile Char.isAlpha, cs.dropWhile Char.isAlpha) := scanUnit.eq_2 cs other
    rw [plain, plain, takeWhile_braces rfl, dropWhile_braces rfl]
    · exact fun rest same => percent ⟨rest, same⟩
    · intro rest same
      cases cs with
      | nil =>
        cases count with
        | zero => cases same
        | succ => cases same
      | cons c tail =>
        cases same
        exact percent ⟨tail, rfl⟩

theorem scanUrl_braces (depth : Nat) (cs : List Char) (count : Nat) :
    scanUrl depth (cs ++ braces count) = (scanUrl depth cs).map fun (taken, left) => (taken, left ++ braces count) := by
  have none (depth count : Nat) : scanUrl depth (braces count) = none := by
    induction count generalizing depth with
    | zero => rfl
    | succ count fewer =>
      change (if _ then _ else if _ then _ else _) = _
      rw [if_neg (by simp), if_neg (by simp)]
      exact Option.map_eq_none_iff.2 (fewer _)
  induction cs generalizing depth with
  | nil => exact none depth count
  | cons c rest later =>
    rw [List.cons_append, scanUrl, scanUrl]
    by_cases closes : c = ')' ∧ depth = 0
    · rw [if_pos closes, if_pos closes]
      rfl
    · rw [if_neg closes, if_neg closes]
      by_cases breaks : depth = 0 ∧ (c = '(' ∨ c = '"' ∨ c = '\'' ∨ c = '\n')
      · rw [if_pos breaks, if_pos breaks]
        rfl
      · rw [if_neg breaks, if_neg breaks]
        dsimp only
        rw [later, Option.map_map, Option.map_map]
        rfl

/-- What is cut from the front of a text and from the same text with braces behind it: the same, or the last token. -/
inductive Lexeme.GoesOn (count : Nat) : Lexeme → Lexeme → Prop
  | same (kind : TokenKind) (taken left : List Char) :
    GoesOn count ⟨kind, taken, left⟩ ⟨kind, taken, left ++ braces count⟩
  | last {kind kind' : TokenKind} (taken taken' : List Char) (becomes : kind.Becomes kind') (more : Nat) :
    GoesOn count ⟨kind, taken, []⟩ ⟨kind', taken', braces more⟩

/-- Where the longer text begins with a token, so does the text alone. -/
def GoesOn (count : Nat) : Except Fault Lexeme → Except Fault Lexeme → Prop
  | .ok short, .ok long => short.GoesOn count long
  | .error _, .ok _ => False
  | _, .error _ => True

theorem GoesOn.ite {test test' : Bool} {yes yes' no no' : Except Fault Lexeme} (same : test' = test)
    (holds : test = true → GoesOn count yes yes') (fails : test ≠ true → GoesOn count no no') :
    GoesOn count (if test then yes else no) (if test' then yes' else no') := by
  subst same
  split
  · next h => exact holds h
  · next h => exact fails h

theorem isUnknown_of_escape {name : List Char} (ends : name.getLast? = some '\\') :
    IsUnknown (String.ofList name) ∧ IsUnknown (String.ofList (name ++ ['}'])) := by
  constructor
  · exact .inl (by rwa [String.toList_ofList])
  · exact .inr (by rw [String.toList_ofList, List.getLast?_concat])

theorem named_braces {kind : String → TokenKind} (sign cs : List Char) (count : Nat)
    (becomes : ∀ name name', IsUnknown name → IsUnknown name' → (kind name).Becomes (kind name')) :
    (named kind sign cs).GoesOn count (named kind sign (cs ++ braces count)) := by
  unfold named
  have goesOn := scanName_braces count cs
  generalize scanName cs = short, scanName (cs ++ braces count) = long at goesOn
  cases goesOn with
  | same => exact .same _ _ _
  | escape ends more =>
    obtain ⟨unknown, unknown'⟩ := isUnknown_of_escape ends
    exact .last _ _ (becomes _ _ unknown unknown') more

theorem newline_braces (taken : List Char) (count : Nat) :
    (taken ++ braces count).contains '\n' = taken.contains '\n' := by
  have none : '\n' ∉ braces count := fun member => absurd (List.eq_of_mem_replicate member) (by decide)
  rw [Bool.eq_iff_iff, List.contains_iff_mem, List.contains_iff_mem, List.mem_append]
  exact or_iff_left none

theorem blankLexeme_braces (cs : List Char) (count : Nat) :
    (blankLexeme cs).GoesOn count (blankLexeme (cs ++ braces count)) := by
  unfold blankLexeme
  have goesOn := scanBlank_braces count false cs
  generalize scanBlank false cs = short, scanBlank false (cs ++ braces count) = long at goesOn
  cases goesOn with
  | same => exact .same _ _ _
  | comment taken =>
    have becomes : TokenKind.Becomes (.blank (taken.contains '\n'))
        (.blank ((taken ++ braces count).contains '\n')) := by
      rw [newline_braces]
      exact .blank _
    exact .last taken _ becomes 0

theorem numberLexeme_braces (cs : List Char) (count : Nat) :
    (numberLexeme cs).GoesOn count (numberLexeme (cs ++ braces count)) := by
  unfold numberLexeme
  rw [scanNumber_braces]
  dsimp only
  rw [scanUnit_braces]
  exact .same _ _ _

theorem scanUrl_of_blank (blank : ∀ c ∈ cs, Text.isBlank c = true) : scanUrl 0 cs = none := by
  induction cs with
  | nil => rfl
  | cons c rest later =>
    have here : Text.isBlank c = true := blank c List.mem_cons_self
    have other {d : Char} (plain : Text.isBlank d = false) : c ≠ d := by
      rintro rfl
      rw [here] at plain
      cases plain
    rw [scanUrl, if_neg fun closes => other (by decide) closes.1]
    split
    · rfl
    · dsimp only
      rw [if_neg (other (by decide)), if_neg (other (by decide)),
        later fun d member => blank d (List.mem_cons_of_mem c member)]
      rfl

/-- An argument that begins with a brace behind the text is not closed. -/
theorem address_braces (cs : List Char) (count : Nat) :
    (if startsUrl (cs ++ braces count) then scanUrl 0 (cs ++ braces count) else none) =
      (if startsUrl cs then scanUrl 0 cs else none).map fun (taken, left) => (taken, left ++ braces count) := by
  rw [scanUrl_braces]
  unfold startsUrl Text.trimStart
  rw [dropWhile_braces (by decide)]
  cases starts : cs.dropWhile Text.isBlank with
  | cons c rest =>
    dsimp only [List.cons_append]
    split <;> rfl
  | nil =>
    rw [scanUrl_of_blank (List.dropWhile_eq_nil_iff.1 starts)]
    simp

theorem wordLexeme_braces (cs : List Char) (count : Nat) :
    (wordLexeme cs).GoesOn count (wordLexeme (cs ++ braces count)) := by
  unfold wordLexeme
  have goesOn := scanName_braces count cs
  generalize scanName cs = short, scanName (cs ++ braces count) = long at goesOn
  cases goesOn with
  | escape ends more =>
    obtain ⟨unknown, unknown'⟩ := isUnknown_of_escape ends
    cases more <;> exact .last _ _ (.ident unknown unknown') _
  | same name left =>
    have word : Lexeme.GoesOn count ⟨.ident (String.ofList name), name, left⟩
        ⟨.ident (String.ofList name), name, left ++ braces count⟩ := .same _ _ left
    dsimp only
    split
    · next rest =>
      -- The words open a parenthesis; whether it is an address shows at the closing one, which the braces hold none of.
      simp only [List.cons_append] at word ⊢
      have address := address_braces rest count
      cases Text.sameWord (String.ofList name) "url" with
      | false => exact word
      | true =>
        rw [Bool.true_and, Bool.true_and]
        cases short : startsUrl rest with
        | true =>
          cases long : startsUrl (rest ++ braces count) with
          | true =>
            rw [short, long, if_pos rfl, if_pos rfl] at address
            rw [if_pos rfl, if_pos rfl, address]
            cases scanUrl 0 rest with
            | none => exact word
            | some cut => exact .same _ _ cut.2
          | false =>
            rw [short, long, if_pos rfl, if_neg Bool.false_ne_true] at address
            rw [if_pos rfl, if_neg Bool.false_ne_true, Option.map_eq_none_iff.1 address.symm]
            exact word
        | false =>
          cases long : startsUrl (rest ++ braces count) with
          | true =>
            rw [short, long, if_pos rfl, if_neg Bool.false_ne_true] at address
            rw [if_pos rfl, if_neg Bool.false_ne_true, address]
            exact word
          | false => exact word
    · next plain =>
      split
      · next rest same =>
        cases left with
        | nil => cases count <;> cases same
        | cons d more =>
          cases same
          exact absurd rfl (plain more)
      · exact word

theorem lexeme_braces (c : Char) (rest : List Char) (count : Nat) :
    GoesOn count (lexeme c rest) (lexeme c (rest ++ braces count)) := by
  have second {test : Char → Bool} (plain : test '}' = false) :
      (rest ++ braces count).head?.any test = rest.head?.any test := head?_braces plain rest count
  have headed {test : Char → Bool} (found : rest.head?.any test = true) : ∃ d tail, rest = d :: tail := by
    cases rest with
    | nil => cases found
    | cons d tail => exact ⟨d, tail, rfl⟩
  have joined {test : Char → Bool} (first : Bool) (plain : test '}' = false) :
      (first && (rest ++ braces count).head?.any test) = (first && rest.head?.any test) :=
    congrArg (first && ·) (second plain)
  unfold lexeme
  refine .ite (congrArg (_ || ·) (joined _ rfl)) (fun _ => blankLexeme_braces (c :: rest) count) fun _ => ?_
  refine .ite (joined _ rfl) (fun opens => ?_) fun _ => ?_
  · obtain ⟨d, tail, rfl⟩ := headed (Bool.and_eq_true_iff.1 opens).2
    split
    · next taken left known =>
      split
      · next taken' left' scanned =>
        have scanned : scanComment (tail ++ braces count) = some (taken', left') := scanned
        obtain ⟨behind, closed, rfl⟩ := scanComment_braces scanned
        cases closed.symm.trans known
        exact .same _ _ left
      · trivial
    · next endless =>
      split
      · next taken left scanned =>
        have scanned : scanComment (tail ++ braces count) = some (taken, left) := scanned
        obtain ⟨behind, closed, -⟩ := scanComment_braces scanned
        cases closed.symm.trans endless
      · trivial
  refine .ite rfl (fun quoted => ?_) fun _ => ?_
  · have isQuote : c = '"' ∨ c = '\'' := by simpa using quoted
    have goesOn := (scanQuoted_braces count isQuote).1 rest
    generalize scanQuoted c (rest ++ braces count) = long at goesOn
    cases long with
    | closed contents left =>
      obtain ⟨left', closed, rfl⟩ := goesOn contents left rfl
      rw [closed]
      exact .same _ _ left'
    | unclosed | insideCode | unclosedCode => cases scanQuoted c rest <;> trivial
  refine .ite (joined _ rfl) (fun _ => named_braces [c] rest count fun _ _ _ _ => .variable _ _) fun _ => ?_
  refine .ite (joined _ rfl) (fun _ => named_braces [c] rest count fun _ _ => .atKeyword) fun _ => ?_
  refine .ite (joined _ rfl) (fun opens => ?_) fun _ => ?_
  · obtain ⟨d, tail, rfl⟩ := headed (Bool.and_eq_true_iff.1 opens).2
    exact .same _ _ tail
  refine .ite (joined _ rfl) (fun _ => named_braces [c] rest count fun _ _ _ _ => .hash _ _) fun _ => ?_
  refine .ite (congrArg (c.isDigit || ·) (joined _ rfl)) (fun _ => numberLexeme_braces (c :: rest) count) fun _ => ?_
  refine .ite (joined _ rfl) (fun _ => named_braces [] (c :: rest) count fun _ _ => .ident) fun _ => ?_
  refine .ite rfl (fun _ => wordLexeme_braces (c :: rest) count) fun _ => ?_
  have equals : (rest ++ braces count).head?.any (· == '=') = rest.head?.any (· == '=') := second rfl
  simp only [equals]
  split
  · next relation known =>
    rw [known]
    split at known
    · next second =>
      obtain ⟨d, tail, rfl⟩ := headed second
      exact .same _ _ tail
    · cases known
  · next known =>
    rw [known]
    exact .same _ _ rest

theorem lexeme_brace (rest : List Char) : lexeme '}' rest = .ok ⟨.mark '}', ['}'], rest⟩ := by
  have brace : (Spelling.mark '}').Reads rest := Spelling.reads_mark (by decide)
  obtain ⟨c, tail, written, reads⟩ := brace
  rw [Spelling.toList_mark] at written reads
  cases written
  exact reads

/-- Closing braces are marks, whatever the number of steps. -/
theorem scan_closing (steps offset : Nat) (pos : Position) (count : Nat) :
    Closing (scan steps offset pos (braces count)).tokens := by
  induction steps generalizing offset pos count with
  | zero => cases count <;> exact nofun
  | succ steps fewer =>
    cases count with
    | zero => exact nofun
    | succ count =>
      have brace : braces (count + 1) = '}' :: braces count := rfl
      rw [brace, scan_cons, lexeme_brace]
      intro token member
      rcases List.mem_cons.1 member with rfl | later
      · rfl
      · exact fewer _ _ count token later

/-- By induction on the steps of the text alone, of which there are enough. -/
theorem scan_continues {steps steps' : Nat} (enough : cs.length ≤ steps) (enough' : cs.length ≤ steps') (offset : Nat)
    (pos : Position) (closed : (scan steps' offset pos (cs ++ braces count)).error = none) :
    (scan steps offset pos cs).error = none ∧
      Continues (scan steps offset pos cs).tokens (scan steps' offset pos (cs ++ braces count)).tokens := by
  induction steps generalizing steps' offset pos cs with
  | zero =>
    obtain rfl := List.eq_nil_of_length_eq_zero (Nat.le_zero.1 enough)
    exact ⟨rfl, .closing (scan_closing _ _ _ _)⟩
  | succ steps shorter =>
    cases cs with
    | nil => exact ⟨rfl, .closing (scan_closing _ _ _ _)⟩
    | cons c rest =>
      obtain ⟨steps', rfl⟩ : ∃ fewer, steps' = fewer + 1 := Nat.exists_eq_succ_of_ne_zero (by
        rintro rfl
        cases enough')
      have goesOn := lexeme_braces c rest count
      have reads := lexeme_reads c rest
      rw [List.cons_append, scan_cons] at closed ⊢
      rw [scan_cons]
      generalize lexeme c rest = short, lexeme c (rest ++ braces count) = long at goesOn reads closed
      cases long with
      | error => cases closed
      | ok long =>
        cases short with
        | error => exact goesOn.elim
        | ok short =>
          have goesOn : short.GoesOn count long := goesOn
          cases goesOn with
          | same kind taken left =>
            have shrinks : left.length ≤ steps ∧ left.length ≤ steps' := by
              have lengths := congrArg List.length reads.1.covers
              have := List.length_pos_iff.2 reads.1.nonempty
              simp only [List.length_append, List.length_cons] at lengths enough enough' this
              omega
            obtain ⟨fine, continues⟩ := shorter shrinks.1 shrinks.2 _ _ closed
            exact ⟨fine, .cons continues⟩
          | last taken taken' becomes more =>
            cases steps <;> exact ⟨rfl, .last becomes rfl (scan_closing _ _ _ _)⟩

end Token

/-- The tokens of a text with braces behind it continue those of the text alone. -/
theorem lex_continues {source : String} {count : Nat} {origin : Position}
    (closed : (lex (source ++ String.ofList (Token.braces count)) origin).error = none) :
    (lex source origin).error = none ∧
      Continues (lex source origin).tokens (lex (source ++ String.ofList (Token.braces count)) origin).tokens := by
  unfold lex at closed ⊢
  rw [String.toList_append, String.toList_ofList] at closed ⊢
  exact Token.scan_continues (Nat.le_refl _) (by rw [List.length_append]; omega) 0 origin closed

end Stylesheet
