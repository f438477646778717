import Stylesheet.Proofs.MentionReading
import Stylesheet.Proofs.TokenTexts
import Stylesheet.Statement.Parser

/-! Interpolations of a string. They are looked for twice: the scanner skips them to find the closing quote, and the
contents are cut at them again when they are read. Both agree on where an interpolation ends; but an opening behind a
backslash is escaped for the scanner alone. -/

namespace Stylesheet

open Grammar

/-- An interpolation of a text, from the sign through the closing brace, by the numbers of characters before. -/
structure Region where
  start : Nat
  stop : Nat
  deriving DecidableEq

def Region.Holds (region : Region) (i : Nat) : Prop := region.start ≤ i ∧ i < region.stop

instance (region : Region) (i : Nat) : Decidable (region.Holds i) := instDecidableAnd

/-- What stands between the braces. -/
def Region.code (region : Region) (cs : List Char) : List Char :=
  (cs.drop (region.start + 2)).take (region.stop - region.start - 3)

/-- An opening stands behind the first `i` characters. -/
def Opens (cs : List Char) (i : Nat) : Prop := ['#', '{'] <+: cs.drop i

instance (cs : List Char) (i : Nat) : Decidable (Opens cs i) := inferInstanceAs (Decidable (_ <+: _))

namespace Token

mutual

/-- What `scanQuoted` finds, and the interpolations that it skips. -/
def skimQuoted (quote : Char) : (offset : Nat) → List Char → QuotedScan × List Region
  | offset, '\\' :: c :: rest => (skimQuoted quote (offset + 2) rest).map (fun scan => (scan.cons c).cons '\\') id
  | offset, '#' :: '{' :: rest => (skimCode quote offset (offset + 2) 0 none rest).map QuotedScan.openCode id
  | offset, c :: rest =>
    if c = quote then (.closed [] rest, [])
    else if c = '\n' then (.unclosed, [])
    else (skimQuoted quote (offset + 1) rest).map (·.cons c) id
  | _, [] => (.unclosed, [])
  termination_by structural _ cs => cs

/-- What `scanQuotedCode` finds, and the interpolations that it skips. The one that it is in begins at `start`. -/
def skimCode (quote : Char) : (start offset depth : Nat) → (inner : Option Char) → List Char → QuotedScan × List Region
  | _, _, _, _, [] => (.insideCode, [])
  | start, offset, depth, some q, '\\' :: c :: rest =>
    (skimCode quote start (offset + 2) depth (some q) rest).map (fun scan => (scan.cons c).cons '\\') id
  | start, offset, depth, some q, c :: rest =>
    (skimCode quote start (offset + 1) depth (if c = q then none else some q) rest).map (·.cons c) id
  | start, offset, depth, none, c :: rest =>
    if c = '}' ∧ depth = 0 then (skimQuoted quote (offset + 1) rest).map (·.cons c) (⟨start, offset + 1⟩ :: ·)
    else
      let inner := if c = '"' ∨ c = '\'' then some c else none
      let depth := if c = '{' then depth + 1 else if c = '}' then depth - 1 else depth
      (skimCode quote start (offset + 1) depth inner rest).map (·.cons c) id
  termination_by structural _ _ _ _ cs => cs

end

variable {quote : Char} {offset start depth : Nat} {inner : Option Char} {cs contents left : List Char}
  {regions : List Region}

/-- By induction on the text, as the scanner takes it. -/
theorem skim_fst (quote : Char) :
    (∀ offset cs, (skimQuoted quote offset cs).1 = scanQuoted quote cs) ∧
      ∀ start offset depth inner cs,
        (skimCode quote start offset depth inner cs).1 = scanQuotedCode quote depth inner cs := by
  apply skimQuoted.mutual_induct quote
  · intro offset c rest later
    exact congrArg (fun scan : QuotedScan => (scan.cons c).cons '\\') later
  · intro offset rest later
    exact congrArg QuotedScan.openCode later
  · intro offset rest plain code
    rw [skimQuoted.eq_3 quote offset quote rest plain code, scanQuoted.eq_3 quote quote rest plain code, if_pos rfl,
      if_pos rfl]
  · intro offset rest plain code other
    rw [skimQuoted.eq_3 quote offset '\n' rest plain code, scanQuoted.eq_3 quote '\n' rest plain code, if_neg other,
      if_neg other, if_pos rfl, if_pos rfl]
  · intro offset c rest plain code other inLine later
    rw [skimQuoted.eq_3 quote offset c rest plain code, scanQuoted.eq_3 quote c rest plain code, if_neg other,
      if_neg other, if_neg inLine, if_neg inLine]
    exact congrArg (QuotedScan.cons c) later
  · exact fun _ => rfl
  · intro start offset depth inner
    rw [skimCode.eq_1, scanQuotedCode.eq_1]
  · intro start offset depth q c rest later
    exact congrArg (fun scan : QuotedScan => (scan.cons c).cons '\\') later
  · intro start offset depth q c rest plain later
    rw [skimCode.eq_3 quote start offset depth q c rest plain, scanQuotedCode.eq_3 quote depth q c rest plain]
    exact congrArg (QuotedScan.cons c) later
  · intro start offset depth c rest ends later
    rw [skimCode.eq_4, scanQuotedCode.eq_4, if_pos ends, if_pos ends]
    exact congrArg (QuotedScan.cons c) later
  · intro start offset depth c rest goes _ _ later
    rw [skimCode.eq_4, scanQuotedCode.eq_4, if_neg goes, if_neg goes]
    exact congrArg (QuotedScan.cons c) later

theorem map_cons_eq_closed {skim : QuotedScan × List Region} {c : Char} {more : List Region → List Region}
    (same : skim.map (·.cons c) more = (.closed contents left, regions)) :
    ∃ behind others, contents = c :: behind ∧ regions = more others ∧ skim = (.closed behind left, others) := by
  obtain ⟨scan, others⟩ := skim
  cases scan with
  | closed behind => cases same; exact ⟨behind, others, rfl, rfl, rfl⟩
  | _ => cases same

theorem map_openCode_eq_closed {skim : QuotedScan × List Region}
    (same : skim.map QuotedScan.openCode id = (.closed contents left, regions)) :
    ∃ behind, contents = '#' :: '{' :: behind ∧ skim = (.closed behind left, regions) := by
  obtain ⟨scan, others⟩ := skim
  cases scan with
  | closed behind => cases same; exact ⟨behind, rfl, rfl⟩
  | _ => cases same

/-- How the contents of a string are taken when its end is found: what is behind a backslash is escaped, interpolations
are skipped, and all else is plain. -/
inductive Skims : (offset : Nat) → (contents : List Char) → List Region → Prop
  | done (offset : Nat) : Skims offset [] []
  | escape {offset : Nat} {contents : List Char} {regions : List Region} (c : Char)
    (more : Skims (offset + 2) contents regions) : Skims offset ('\\' :: c :: contents) regions
  | code {offset : Nat} {contents body behind : List Char} {regions : List Region}
    (closes : splitAtBrace 0 none contents = some (body, behind))
    (more : Skims (offset + body.length + 3) behind regions) :
    Skims offset ('#' :: '{' :: contents) (⟨offset, offset + body.length + 3⟩ :: regions)
  | plain {offset : Nat} {contents : List Char} {regions : List Region} {c : Char} (noEscape : c ≠ '\\')
    (noOpening : ¬ ['#', '{'] <+: c :: contents) (more : Skims (offset + 1) contents regions) :
    Skims offset (c :: contents) regions

theorem Skims.le_start (skims : Skims offset contents regions) : ∀ region ∈ regions, offset ≤ region.start := by
  induction skims with
  | done => simp
  | escape _ _ later | plain _ _ _ later => exact fun region member => Nat.le_of_add_right_le (later region member)
  | code closes more later =>
    intro region member
    rcases List.mem_cons.1 member with rfl | member
    · exact Nat.le_refl _
    · have := later region member
      omega

/-- The rest of an interpolation is skipped up to the brace where the contents are cut. -/
def SkimsCode (start offset depth : Nat) (inner : Option Char) (contents : List Char) (regions : List Region) : Prop :=
  ∃ body behind others, splitAtBrace depth inner contents = some (body, behind) ∧
    regions = ⟨start, offset + body.length + 1⟩ :: others ∧ Skims (offset + body.length + 1) behind others

/-- Some characters more that do not end it. -/
theorem SkimsCode.append (front : List Char) {depth' : Nat} {inner' : Option Char}
    (skims : SkimsCode start (offset + front.length) depth' inner' contents regions)
    (goes : ∀ body behind, splitAtBrace depth' inner' contents = some (body, behind) →
      splitAtBrace depth inner (front ++ contents) = some (front ++ body, behind)) :
    SkimsCode start offset depth inner (front ++ contents) regions := by
  obtain ⟨body, behind, others, closes, rfl, more⟩ := skims
  have count : offset + (front ++ body).length + 1 = offset + front.length + body.length + 1 := by
    rw [List.length_append, ← Nat.add_assoc offset]
  exact ⟨front ++ body, behind, others, goes body behind closes, by rw [count], by rw [count]; exact more⟩

/-- By induction on the text. -/
theorem skim_skims (quote : Char) :
    (∀ offset cs contents left regions, skimQuoted quote offset cs = (.closed contents left, regions) →
        Skims offset contents regions) ∧
      ∀ start offset depth inner cs contents left regions,
        skimCode quote start offset depth inner cs = (.closed contents left, regions) →
          SkimsCode start offset depth inner contents regions := by
  apply skimQuoted.mutual_induct quote
  · -- an escaped character of the string
    intro offset c rest later contents left regions ran
    have ran : ((skimQuoted quote (offset + 2) rest).map (·.cons c) id).map (·.cons '\\') id =
      (.closed contents left, regions) := ran
    obtain ⟨_, _, rfl, rfl, ran⟩ := map_cons_eq_closed ran
    obtain ⟨_, _, rfl, rfl, ran⟩ := map_cons_eq_closed ran
    exact .escape c (later _ _ _ ran)
  · -- an opening
    intro offset rest later contents left regions ran
    have ran : (skimCode quote offset (offset + 2) 0 none rest).map QuotedScan.openCode id =
      (.closed contents left, regions) := ran
    obtain ⟨contents, rfl, begun⟩ := map_openCode_eq_closed ran
    obtain ⟨body, behind, others, closes, rfl, more⟩ := later _ _ _ begun
    have count : offset + 2 + body.length + 1 = offset + body.length + 3 := by omega
    rw [count] at more ⊢
    exact .code closes more
  · -- the closing quote
    intro offset rest plain code contents left regions ran
    rw [skimQuoted.eq_3 quote offset quote rest plain code, if_pos rfl] at ran
    cases ran
    exact .done offset
  · -- a line feed
    intro offset rest plain code other contents left regions ran
    rw [skimQuoted.eq_3 quote offset '\n' rest plain code, if_neg other, if_pos rfl] at ran
    cases ran
  · -- any other character of the string
    intro offset c rest plain code other inLine later contents left regions ran
    rw [skimQuoted.eq_3 quote offset c rest plain code, if_neg other, if_neg inLine] at ran
    obtain ⟨contents, regions, rfl, rfl, ran⟩ := map_cons_eq_closed ran
    have cuts := ((scanQuoted_cuts quote).1 rest).1
    rw [← (skim_fst quote).1 (offset + 1), ran] at cuts
    have cut : contents ++ quote :: left = rest := cuts
    refine .plain ?_ ?_ (later _ _ _ ran)
    · rintro rfl
      have nonempty : rest ≠ [] := by simp [← cut]
      obtain ⟨d, tail, same⟩ := List.exists_cons_of_ne_nil nonempty
      exact plain d tail rfl same
    · rintro ⟨tail, opening⟩
      cases opening
      exact code _ rfl cut.symm
  · -- the end of the text, in the string and in an interpolation
    intro offset contents left regions ran
    cases ran
  · intro start offset depth inner contents left regions ran
    rw [skimCode.eq_1] at ran
    cases ran
  · -- an escaped character of a string in an interpolation
    intro start offset depth q c rest later contents left regions ran
    have ran : ((skimCode quote start (offset + 2) depth (some q) rest).map (·.cons c) id).map (·.cons '\\') id =
      (.closed contents left, regions) := ran
    obtain ⟨_, _, rfl, rfl, ran⟩ := map_cons_eq_closed ran
    obtain ⟨contents, _, rfl, rfl, ran⟩ := map_cons_eq_closed ran
    refine SkimsCode.append ['\\', c] (later _ _ _ ran) fun body behind closes => ?_
    rw [List.cons_append, List.cons_append, splitAtBrace, List.nil_append, closes]
    rfl
  · -- any other character of such a string
    intro start offset depth q c rest plain later contents left regions ran
    rw [skimCode.eq_3 quote start offset depth q c rest plain] at ran
    obtain ⟨contents, others, rfl, rfl, ran⟩ := map_cons_eq_closed ran
    have cuts := (scanQuoted_cuts quote).2 depth (if c = q then none else some q) rest
    rw [← (skim_fst quote).2 start (offset + 1), ran] at cuts
    have cut : contents ++ quote :: left = rest := cuts
    refine SkimsCode.append [c] (later _ _ _ ran) fun body behind closes => ?_
    have goes : ∀ d tail, c = '\\' → contents = d :: tail → False := by
      rintro d tail escape rfl
      exact plain d _ escape cut.symm
    rw [List.singleton_append, splitAtBrace.eq_3 depth q c contents goes, closes]
    rfl
  · -- the brace that closes the interpolation
    intro start offset depth c rest ends later contents left regions ran
    rw [skimCode.eq_4, if_pos ends] at ran
    obtain ⟨contents, others, rfl, rfl, behind⟩ := map_cons_eq_closed ran
    refine ⟨[], contents, others, ?_, rfl, later _ _ _ behind⟩
    rw [splitAtBrace.eq_4, if_pos ends]
  · -- any other character of the interpolation
    intro start offset depth c rest goes _ _ later contents left regions ran
    rw [skimCode.eq_4, if_neg goes] at ran
    obtain ⟨contents, _, rfl, rfl, ran⟩ := map_cons_eq_closed ran
    refine SkimsCode.append [c] (later _ _ _ ran) fun body behind closes => ?_
    rw [List.singleton_append, splitAtBrace.eq_4, if_neg goes]
    dsimp only
    rw [closes]
    rfl

end Token

namespace Grammar

variable {offset : Nat} {cs before behind body rest : List Char} {c : Char} {regions : List Region}

/-- The interpolations that a text is cut at, if each of them has an end. -/
def interpolations (offset : Nat) (cs : List Char) : Option (List Region) :=
  match _ : splitAtInterpolation cs with
  | none => some []
  | some (before, behind) =>
    match _ : splitAtBrace 0 none behind with
    | none => none
    | some (body, rest) =>
      let start := offset + before.length
      let stop := start + body.length + 3
      (interpolations stop rest).map (⟨start, stop⟩ :: ·)
  termination_by cs.length
  decreasing_by
    rw [splitAtInterpolation_eq ‹splitAtInterpolation cs = _›, splitAtBrace_eq ‹splitAtBrace 0 none behind = _›]
    simp only [List.length_append, List.length_cons]
    omega

theorem interpolations_plain (plain : splitAtInterpolation cs = none) : interpolations offset cs = some [] := by
  rw [interpolations]
  split
  · rfl
  · next opens =>
    rw [plain] at opens
    cases opens

theorem interpolations_unclosed (opens : splitAtInterpolation cs = some (before, behind))
    (endless : splitAtBrace 0 none behind = none) : interpolations offset cs = none := by
  rw [interpolations]
  split
  · next plain =>
    rw [opens] at plain
    cases plain
  · next opens' =>
    cases opens.symm.trans opens'
    split
    · rfl
    · next closes =>
      rw [endless] at closes
      cases closes

theorem interpolations_code (opens : splitAtInterpolation cs = some (before, behind))
    (closes : splitAtBrace 0 none behind = some (body, rest)) :
    interpolations offset cs = (interpolations (offset + before.length + body.length + 3) rest).map
      (⟨offset + before.length, offset + before.length + body.length + 3⟩ :: ·) := by
  rw [interpolations]
  split
  · next plain =>
    rw [opens] at plain
    cases plain
  · next opens' =>
    cases opens.symm.trans opens'
    split
    · next endless =>
      rw [endless] at closes
      cases closes
    · next closes' =>
      cases closes.symm.trans closes'
      rfl

theorem splitAtInterpolation_cons (noOpening : ¬ ['#', '{'] <+: c :: cs) :
    splitAtInterpolation (c :: cs) = (splitAtInterpolation cs).map (·.map (c :: ·) id) := by
  rw [splitAtInterpolation]
  · rfl
  · rintro rest rfl rfl
    exact noOpening ⟨rest, rfl⟩

/-- A character that begins no interpolation is counted. -/
theorem interpolations_cons (noOpening : ¬ ['#', '{'] <+: c :: cs) :
    interpolations offset (c :: cs) = interpolations (offset + 1) cs := by
  have later := splitAtInterpolation_cons noOpening
  cases opens : splitAtInterpolation cs with
  | none =>
    rw [opens] at later
    rw [interpolations_plain later, interpolations_plain opens]
  | some cut =>
    rw [opens] at later
    cases closes : splitAtBrace 0 none cut.2 with
    | none => rw [interpolations_unclosed later closes, interpolations_unclosed opens closes]
    | some parts =>
      rw [interpolations_code later closes, interpolations_code opens closes]
      have count : offset + (c :: cut.1).length = offset + 1 + cut.1.length := by
        rw [List.length_cons]
        omega
      dsimp only
      rw [count]

theorem exists_interpolation (closes : splitAtBrace 0 none cs = some (body, rest)) :
    ∃ front, '#' :: '{' :: cs = front ++ rest ∧ front.length = body.length + 3 :=
  ⟨'#' :: '{' :: (body ++ ['}']), by simp [splitAtBrace_eq closes], by simp⟩

/-- An interpolation at the begin of a text. -/
theorem interpolations_opening : interpolations offset ('#' :: '{' :: cs) = (splitAtBrace 0 none cs).bind fun cut =>
    (interpolations (offset + cut.1.length + 3) cut.2).map (⟨offset, offset + cut.1.length + 3⟩ :: ·) := by
  have opens : splitAtInterpolation ('#' :: '{' :: cs) = some ([], cs) := rfl
  cases closes : splitAtBrace 0 none cs with
  | none => exact interpolations_unclosed opens closes
  | some cut => exact interpolations_code opens closes

end Grammar

/-- Every opening of a text stands in one of the interpolations. -/
def Accounted (offset : Nat) (cs : List Char) (regions : List Region) : Prop :=
  ∀ i, Opens cs i → ∃ region ∈ regions, region.Holds (offset + i)

namespace Accounted

variable {offset : Nat} {cs front : List Char} {regions : List Region} {c : Char}

theorem cons (noOpening : ¬ ['#', '{'] <+: c :: cs) :
    Accounted offset (c :: cs) regions ↔ Accounted (offset + 1) cs regions := by
  constructor
  · intro accounted i opens
    have found := accounted (i + 1) opens
    rwa [← Nat.add_assoc, Nat.add_right_comm] at found
  · intro accounted i opens
    cases i with
    | zero => exact absurd opens noOpening
    | succ i =>
      have found := accounted i opens
      rwa [Nat.add_right_comm] at found

/-- Behind an interpolation. -/
theorem append : Accounted offset (front ++ cs) (⟨offset, offset + front.length⟩ :: regions) ↔
    Accounted (offset + front.length) cs regions := by
  constructor
  · intro accounted i opens
    have opens : Opens (front ++ cs) (front.length + i) := by rwa [Opens, List.drop_length_add_append]
    obtain ⟨region, member, holds⟩ := accounted _ opens
    rw [← Nat.add_assoc] at holds
    rcases List.mem_cons.1 member with rfl | member
    · exact absurd holds.2 (Nat.not_lt.2 (Nat.le_add_right _ _))
    · exact ⟨region, member, holds⟩
  · intro accounted i opens
    by_cases inside : i < front.length
    · exact ⟨_, List.mem_cons_self, Nat.le_add_right _ _, Nat.add_lt_add_left inside _⟩
    · obtain ⟨j, rfl⟩ := Nat.exists_eq_add_of_le (Nat.not_lt.1 inside)
      rw [Opens, List.drop_length_add_append] at opens
      obtain ⟨region, member, holds⟩ := accounted j opens
      exact ⟨region, List.mem_cons_of_mem _ member, by rwa [← Nat.add_assoc]⟩

end Accounted

namespace Token.Skims

variable {offset : Nat} {contents : List Char} {regions : List Region} {c : Char}

/-- By induction on how the contents are taken. -/
theorem found_iff (skims : Skims offset contents regions) :
    interpolations offset contents = some regions ↔ Accounted offset contents regions := by
  induction skims with
  | done offset =>
    refine iff_of_true (interpolations_plain rfl) fun i opens => ?_
    simp [Opens] at opens
  | @escape offset contents regions c more later =>
    have plain : ¬ ['#', '{'] <+: '\\' :: c :: contents := by simp
    by_cases opening : ['#', '{'] <+: c :: contents
    · -- The escaped opening is taken for one.
      obtain ⟨rest, same⟩ := opening
      obtain ⟨rfl, rfl⟩ : c = '#' ∧ contents = '{' :: rest := by simpa [eq_comm] using same
      refine iff_of_false (fun found => ?_) fun accounted => ?_
      · rw [interpolations_cons plain, interpolations_opening] at found
        obtain ⟨cut, -, found⟩ := Option.bind_eq_some_iff.1 found
        obtain ⟨others, -, rfl⟩ := Option.map_eq_some_iff.1 found
        have behind : offset + 2 ≤ offset + 1 := more.le_start _ List.mem_cons_self
        omega
      · obtain ⟨region, member, holds⟩ := accounted 1 ⟨rest, rfl⟩
        have := more.le_start region member
        have := holds.1
        omega
    · rw [interpolations_cons plain, interpolations_cons opening, later, Accounted.cons plain,
        Accounted.cons opening]
  | @code offset contents body behind regions closes more later =>
    obtain ⟨front, parts, length⟩ := exists_interpolation closes
    have stop : offset + body.length + 3 = offset + front.length := by rw [length, Nat.add_assoc]
    rw [interpolations_opening, closes, Option.bind_some, parts, stop, Accounted.append, ← stop, ← later,
      Option.map_eq_some_iff]
    simp
  | @plain offset contents regions c noEscape noOpening more later =>
    rw [interpolations_cons noOpening, later, Accounted.cons noOpening]

/-- By induction on how the contents are taken: an opening that stands in none of the interpolations is escaped. -/
theorem escaped (skims : Skims offset contents regions) : ∀ i, Opens contents i →
    (∃ region ∈ regions, region.Holds (offset + i)) ∨ ∃ j, i = j + 1 ∧ contents[j]? = some '\\' := by
  induction skims with
  | done offset =>
    intro i opens
    simp [Opens] at opens
  | @escape offset contents regions c more later =>
    intro i opens
    cases i with
    | zero => exact absurd (List.cons_prefix_cons.1 opens).1 (by decide)
    | succ i =>
      cases i with
      | zero => exact .inr ⟨0, rfl, rfl⟩
      | succ i =>
        rcases later i opens with ⟨region, member, holds⟩ | ⟨j, rfl, escape⟩
        · exact .inl ⟨region, member, by rwa [Nat.add_right_comm] at holds⟩
        · exact .inr ⟨j + 2, rfl, escape⟩
  | @code offset contents body behind regions closes more later =>
    intro i opens
    obtain ⟨front, parts, length⟩ := exists_interpolation closes
    by_cases inside : i < body.length + 3
    · exact .inl ⟨_, List.mem_cons_self, Nat.le_add_right _ _, Nat.add_lt_add_left inside offset⟩
    · obtain ⟨j, rfl⟩ := Nat.exists_eq_add_of_le (Nat.not_lt.1 inside)
      rw [parts, ← length, Opens, List.drop_length_add_append] at opens
      rcases later j opens with ⟨region, member, holds⟩ | ⟨k, rfl, escape⟩
      · exact .inl ⟨region, List.mem_cons_of_mem _ member, by rwa [← Nat.add_assoc]⟩
      · refine .inr ⟨body.length + 3 + k, rfl, ?_⟩
        rw [parts, ← length, List.getElem?_append_right (Nat.le_add_right _ _), Nat.add_sub_cancel_left]
        exact escape
  | @plain offset contents regions c noEscape noOpening more later =>
    intro i opens
    cases i with
    | zero => exact absurd opens noOpening
    | succ i =>
      rcases later i opens with ⟨region, member, holds⟩ | ⟨j, rfl, escape⟩
      · exact .inl ⟨region, member, by rwa [Nat.add_right_comm] at holds⟩
      · exact .inr ⟨j + 1, rfl, escape⟩

end Token.Skims

/-! What is read from the contents of a string -/

namespace Grammar

variable {n m offset : Nat} {pos : Position} {cs front before behind body rest : List Char} {regions : List Region}
  {context : Context} {tokens left : List Token} {template : Template Expr} {error : ParseError}

/-- Places are counted from the begin of a text. -/
theorem shifted_shifted (pos : Position) (first second : Nat) :
    shifted (shifted pos first) second = shifted pos (first + second) := by
  simp [shifted, Nat.add_assoc]

/-- The first interpolation of a text that stands behind `front`, and what stands behind it. -/
theorem exists_first (front : List Char) (opens : splitAtInterpolation cs = some (before, behind))
    (closes : splitAtBrace 0 none behind = some (body, rest)) : ∃ next, front ++ cs = next ++ rest ∧
      next.length = front.length + before.length + body.length + 3 ∧
      Region.code ⟨front.length + before.length, next.length⟩ (front ++ cs) = body := by
  let opening := front ++ before ++ ['#', '{']
  have parts : front ++ cs = opening ++ (body ++ '}' :: rest) := by
    simp [opening, splitAtInterpolation_eq opens, splitAtBrace_eq closes]
  have start : front.length + before.length + 2 = opening.length := by simp [opening, Nat.add_assoc]
  have length : (opening ++ body ++ ['}']).length = front.length + before.length + body.length + 3 := by
    simp only [List.length_append, ← start, List.length_singleton]
    omega
  refine ⟨opening ++ body ++ ['}'], by simp [parts], length, ?_⟩
  have count : (opening ++ body ++ ['}']).length - (front.length + before.length) - 3 = body.length := by
    rw [length]
    omega
  rw [Region.code, count, start, parts, List.drop_left, List.take_left]

/-- Where the text behind it is read. -/
theorem shifted_next {next : List Char} (length : next.length = front.length + before.length + body.length + 3) :
    shifted (shifted (shifted pos front.length) (before.length + 2)) (body.length + 1) = shifted pos next.length := by
  rw [shifted_shifted, shifted_shifted, length]
  congr 1
  omega

theorem bind_eq_error {α β : Type} {parse : Parse α} {next : α → Parse β}
    (run : (parse >>= next) context tokens = .error error) : parse context tokens = .error error ∨
      ∃ middle between, parse context tokens = .ok (middle, between) ∧ next middle context between = .error error := by
  have step : (parse >>= next) context tokens = (parse context tokens >>= fun pair => next pair.1 context pair.2) := rfl
  rw [step] at run
  cases parsed : parse context tokens with
  | error error =>
    rw [parsed] at run
    cases run
    exact .inl rfl
  | ok pair =>
    rw [parsed] at run
    exact .inr ⟨pair.1, pair.2, rfl, run⟩

/-- What fails when the text can be cut: one of the expressions in its interpolations. -/
theorem textTemplate_error (enough : cs.length < n) (found : interpolations front.length cs = some regions)
    (run : textTemplate n (shifted pos front.length) cs context tokens = .error error) :
    ∃ region ∈ regions, ∃ m,
      embedded m (shifted pos (region.start + 2)) (region.code (front ++ cs)) context tokens = .error error := by
  induction n generalizing front cs regions with
  | zero => omega
  | succ n shorter =>
    rw [textTemplate] at run
    cases opens : splitAtInterpolation cs with
    | none =>
      rw [opens] at run
      cases run
    | some cut =>
      obtain ⟨before, behind⟩ := cut
      rw [opens] at run
      dsimp only at run
      cases closes : splitAtBrace 0 none behind with
      | none =>
        rw [interpolations_unclosed opens closes] at found
        cases found
      | some cut =>
        obtain ⟨body, rest⟩ := cut
        rw [closes] at run
        dsimp only at run
        obtain ⟨next, parts, length, text⟩ := exists_first front opens closes
        rw [interpolations_code opens closes, ← length] at found
        obtain ⟨others, further, rfl⟩ := Option.map_eq_some_iff.1 found
        rcases bind_eq_error run with inside | ⟨code, between, inside, goes⟩
        · rw [shifted_shifted, ← Nat.add_assoc] at inside
          exact ⟨_, List.mem_cons_self, n, by rw [text]; exact inside⟩
        · obtain ⟨rfl, -⟩ := embedded_eq_ok inside
          rcases bind_eq_error goes with later | ⟨_, _, -, ends⟩
          · rw [shifted_next length] at later
            have shrinks := congrArg List.length (splitAtInterpolation_eq opens)
            rw [splitAtBrace_eq closes] at shrinks
            simp only [List.length_append, List.length_cons] at shrinks
            obtain ⟨region, member, m, reads⟩ := shorter (by omega) further later
            exact ⟨region, List.mem_cons_of_mem _ member, m, by rwa [parts]⟩
          · cases ends

end Grammar

/-! The strings among the tokens of a text -/

namespace Token

variable {contents : String} {quote : Char}

/-- A string that is read at the front of a text, behind its opening quote. -/
def Quotes (c : Char) (rest : List Char) : Except Fault Lexeme → Prop
  | .ok lexeme => ∀ contents quote, lexeme.kind = .quoted contents quote →
      c = quote ∧ scanQuoted quote rest = .closed contents.toList lexeme.left
  | .error _ => True

theorem Quotes.ite {c : Char} {rest : List Char} {p : Prop} [Decidable p] {yes no : Except Fault Lexeme}
    (holds : p → Quotes c rest yes) (fails : ¬ p → Quotes c rest no) : Quotes c rest (if p then yes else no) := by
  split
  · next h => exact holds h
  · next h => exact fails h

theorem Quotes.other {c : Char} {rest : List Char} {lexeme : Lexeme}
    (other : ∀ contents quote, lexeme.kind ≠ .quoted contents quote) : Quotes c rest (.ok lexeme) :=
  fun contents quote quoted => absurd quoted (other contents quote)

theorem wordLexeme_not_quoted (cs : List Char) (contents : String) (quote : Char) :
    (wordLexeme cs).kind ≠ .quoted contents quote := by
  unfold wordLexeme
  dsimp only
  split
  · split
    · split <;> simp
    · simp
  · simp

theorem lexeme_quotes (c : Char) (rest : List Char) : Quotes c rest (lexeme c rest) := by
  unfold lexeme
  refine .ite (fun _ => .other (by simp [blankLexeme])) fun _ => ?_
  refine .ite (fun _ => ?_) fun _ => .ite (fun _ => ?_) fun _ => ?_
  · split
    · exact .other (by simp)
    · trivial
  · split
    · next scanned =>
      intro contents quote quoted
      cases quoted
      exact ⟨rfl, by rw [String.toList_ofList, scanned]⟩
    · trivial
    · trivial
    · trivial
  refine .ite (fun _ => .other (by simp [named])) fun _ => .ite (fun _ => .other (by simp [named])) fun _ => ?_
  refine .ite (fun _ => .other (by simp)) fun _ => .ite (fun _ => .other (by simp [named])) fun _ => ?_
  refine .ite (fun _ => .other (by simp [numberLexeme])) fun _ => .ite (fun _ => .other (by simp [named])) fun _ => ?_
  refine .ite (fun _ => .other (wordLexeme_not_quoted _)) fun _ => ?_
  dsimp only
  split <;> exact .other (by simp)

/-- Where it stands in a source, a string is read up to its closing quote, and these interpolations are skipped. -/
def Skips (source : List Char) (origin : Position) (token : Token) (contents : String) (quote : Char)
    (regions : List Region) : Prop :=
  ∃ before left, source = before ++ quote :: (contents.toList ++ quote :: left) ∧ token.pos = origin.after before ∧
    skimQuoted quote 0 (contents.toList ++ quote :: left) = (.closed contents.toList left, regions)

/-- By induction on the steps. -/
theorem scan_skips (steps offset : Nat) (pos : Position) (cs : List Char) :
    ∀ token ∈ (scan steps offset pos cs).tokens, ∀ contents quote, token.kind = .quoted contents quote →
      ∃ regions, token.Skips cs pos contents quote regions := by
  induction steps generalizing offset pos cs with
  | zero =>
    intro token member
    cases cs <;> cases member
  | succ steps shorter =>
    cases cs with
    | nil =>
      intro token member
      cases member
    | cons c rest =>
      have quotes := lexeme_quotes c rest
      have reads := lexeme_reads c rest
      rw [scan_cons]
      split
      · intro token member
        cases member
      · next kind taken left known =>
        rw [known] at quotes reads
        have covers : taken ++ left = c :: rest := reads.1.covers
        intro token member contents quote quoted
        rcases List.mem_cons.1 member with rfl | later
        · obtain ⟨rfl, scanned⟩ := quotes contents quote quoted
          have cut : contents.toList ++ c :: left = rest := by
            have cuts := ((scanQuoted_cuts c).1 rest).1
            rwa [scanned] at cuts
          refine ⟨_, [], left, by rw [cut]; rfl, rfl, Prod.ext ?_ rfl⟩
          rw [(skim_fst c).1, cut]
          exact scanned
        · obtain ⟨regions, before, behind, parts, place, skims⟩ := shorter _ _ _ token later contents quote quoted
          refine ⟨regions, taken ++ before, behind, ?_, ?_, skims⟩
          · rw [List.append_assoc, ← parts, covers]
          · rw [place, Position.after_append]

end Token

/-- The interpolations that a string is cut at are those that were skipped in it if and only if each opening stands in
one of these. Every other opening is behind a backslash. If the string is cut there, all that can fail in its contents
are the expressions in them. -/
theorem Token.interpolations_agree {source contents : String} {origin : Position} {token : Token} {quote : Char}
    (member : token ∈ (lex source origin).tokens) (quoted : token.kind = .quoted contents quote) :
    ∃ skipped, token.Skips source.toList origin contents quote skipped ∧
      (interpolations 0 contents.toList = some skipped ↔
        ∀ i, Opens contents.toList i → ∃ region ∈ skipped, region.Holds i) ∧
      (∀ i, Opens contents.toList i → (∃ region ∈ skipped, region.Holds i) ∨
        ∃ j, i = j + 1 ∧ contents.toList[j]? = some '\\') ∧
      ∀ n context tokens error, interpolations 0 contents.toList = some skipped → contents.toList.length < n →
        textTemplate n (shifted token.pos 1) contents.toList context tokens = .error error →
          ∃ region ∈ skipped, ∃ m, embedded m (shifted (shifted token.pos 1) (region.start + 2))
            (region.code contents.toList) context tokens = .error error := by
  obtain ⟨skipped, skips⟩ := Token.scan_skips _ _ _ _ token member contents quote quoted
  have place := skips
  obtain ⟨_, _, -, -, skims⟩ := place
  have skims := (Token.skim_skims quote).1 _ _ _ _ _ skims
  refine ⟨skipped, skips, ?_, ?_, ?_⟩
  · have iff := skims.found_iff
    simpa only [Accounted, Nat.zero_add] using iff
  · have escaped := skims.escaped
    simpa only [Nat.zero_add] using escaped
  · intro n context tokens error found enough run
    have run : textTemplate n (shifted (shifted token.pos 1) ([] : List Char).length) contents.toList context tokens =
      .error error := run
    exact @textTemplate_error n (shifted token.pos 1) contents.toList [] skipped context tokens error enough found run

/-- A brace and a quote in a string of the interpolation do not end it, and an escaped quote does not end the string. -/
theorem Token.interpolations_agree_nested :
    let source := "\"a#\x7b\"\x7d\"\x7d\\\"c\""
    let contents := "a#\x7b\"\x7d\"\x7d\\\"c"
    ∃ token ∈ (lex source).tokens, token.kind = .quoted contents '"' ∧
      token.Skips source.toList .start contents '"' [⟨1, 7⟩] ∧
      interpolations 0 contents.toList = some [⟨1, 7⟩] := by
  intro source contents
  let token : Token := ⟨.quoted contents '"', source, 0, ⟨1, 1⟩, ⟨1, 13⟩⟩
  have member : token ∈ (lex source).tokens := by decide +kernel
  obtain ⟨skipped, skips, agree, -⟩ := Token.interpolations_agree member rfl
  have only : skipped = [⟨1, 7⟩] := by
    obtain ⟨before, left, parts, -, skims⟩ := skips
    have length := congrArg List.length parts
    have whole : source.toList.length = 12 := by decide +kernel
    have inner : contents.toList = ['a', '#', '{', '"', '}', '"', '}', '\\', '"', 'c'] := by decide +kernel
    rw [inner] at skims length
    simp only [List.length_append, List.length_cons, List.length_nil, whole] at length
    obtain rfl := List.eq_nil_of_length_eq_zero (show left.length = 0 by omega)
    exact (congrArg Prod.snd skims).symm
  subst only
  refine ⟨token, member, rfl, skips, agree.2 fun i opens => ⟨⟨1, 7⟩, List.mem_cons_self, ?_⟩⟩
  have bound : ∀ i < 11, Opens contents.toList i → (⟨1, 7⟩ : Region).Holds i := by decide +kernel
  refine bound i (Nat.lt_of_not_le fun beyond => ?_) opens
  rw [Opens, List.drop_eq_nil_of_le (Nat.le_trans (by decide +kernel) beyond)] at opens
  exact absurd opens (by decide)

/-- The scanner reads the string `\#\x7b` without an interpolation. When its contents are read, one is looked for. -/
theorem Token.escaped_opening_taken :
    let source := "a \x7b b: \"\\#\x7b\" \x7d"
    let contents := "\\#\x7b"
    (lex source).error = none ∧
      (∃ token ∈ (lex source).tokens, token.kind = .quoted contents '"' ∧
        token.Skips source.toList .start contents '"' []) ∧
      interpolations 0 contents.toList = none ∧
      (Statement.parse source "stdin" false).map (fun _ => ()) = .error ⟨.unclosed .interpolation, ⟨1, 12⟩⟩ := by
  intro source contents
  let token : Token := ⟨.quoted contents '"', "\"\\#\x7b\"", 7, ⟨1, 8⟩, ⟨1, 13⟩⟩
  have inner : contents.toList = ['\\', '#', '{'] := by decide +kernel
  refine ⟨by decide +kernel, ⟨token, by decide +kernel, rfl, ?_⟩, ?_, by decide +kernel⟩
  · refine ⟨"a \x7b b: ".toList, [' ', '}'], by decide +kernel, by decide +kernel, ?_⟩
    rw [inner]
    rfl
  · rw [inner]
    have opens : splitAtInterpolation ['\\', '#', '{'] = some (['\\'], []) := rfl
    exact interpolations_unclosed opens rfl

end Stylesheet
