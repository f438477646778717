import Stylesheet.SourceMap
import Stylesheet.Text.Cuts

/-! A reader of source maps, written from the format and not from the writer, gives back every list
of mappings that was written. Lines and sources may be skipped, and all fields but the generated
line may fall from one mapping to the next. -/

namespace Stylesheet.SourceMap

def digitValue? (c : Char) : Option Nat := digits.idxOf? c

/-- Bits five at a time, the lowest first, up to the digit that lacks the sixth bit. -/
def decodeNat : List Char → Option (Nat × List Char)
  | [] => none
  | c :: rest => do
    let n ← digitValue? c
    if n < 32 then return (n, rest)
    else
      let (higher, rest) ← decodeNat rest
      return (n - 32 + 32 * higher, rest)

/-- The lowest bit is set for a negative number. -/
def decodeInt (text : List Char) : Option (Int × List Char) := do
  let (n, rest) ← decodeNat text
  return (if n % 2 = 0 then (n / 2 : Nat) else -(n / 2 : Nat), rest)

/-- A segment holds the differences to the mapping before it. -/
def decodeSegment (previous : Mapping) (text : List Char) : Option Mapping := do
  let (column, text) ← decodeInt text
  let (source, text) ← decodeInt text
  let (sourceLine, text) ← decodeInt text
  let (sourceColumn, text) ← decodeInt text
  if !text.isEmpty then none
  return {
    line := previous.line
    column := ← (previous.column + column).toNat?
    source := ← (previous.source + source).toNat?
    sourceLine := ← (previous.sourceLine + sourceLine).toNat?
    sourceColumn := ← (previous.sourceColumn + sourceColumn).toNat? }

def decodeSegments : (previous : Mapping) → List (List Char) → Option (List Mapping)
  | _, [] => some []
  | previous, text :: rest => do
    let mapping ← decodeSegment previous text
    return mapping :: (← decodeSegments mapping rest)

/-- The segments of a line stand between commas; a line without any is empty. -/
def segments (line : List Char) : List (List Char) := (Text.pieces (· == ',') line).filter (!·.isEmpty)

/-- Columns are counted anew on each line; the other fields go on from the line before. -/
def nextLine (previous : Mapping) : Mapping := { previous with line := previous.line + 1, column := 0 }

def decodeLines : (previous : Mapping) → List (List Char) → Option (List Mapping)
  | _, [] => some []
  | previous, line :: rest => do
    let here ← decodeSegments previous (segments line)
    return here ++ (← decodeLines (nextLine (here.getLastD previous)) rest)

def decode (text : String) : Option (List Mapping) :=
  decodeLines ⟨0, 0, 0, 0, 0⟩ (Text.pieces (· == ';') text.toList)

section Digits

private theorem digit_facts : ∀ n : Fin 64,
    digitValue? (digit n) = some n.val ∧ digit n ≠ ',' ∧ digit n ≠ ';' := by decide +kernel

theorem digitValue?_digit {n : Nat} (small : n < 64) : digitValue? (digit n) = some n :=
  (digit_facts ⟨n, small⟩).1

/-- What is written for a number holds neither kind of separator. -/
def Joined (text : List Char) : Prop := ',' ∉ text ∧ ';' ∉ text

private theorem joined_digit {n : Nat} (small : n < 64) {text : List Char} (joined : Joined text) :
    Joined (digit n :: text) := by
  obtain ⟨-, comma, semicolon⟩ := digit_facts ⟨n, small⟩
  refine ⟨?_, ?_⟩
  · simpa only [List.mem_cons, not_or] using ⟨comma.symm, joined.1⟩
  · simpa only [List.mem_cons, not_or] using ⟨semicolon.symm, joined.2⟩

theorem encodeNat_joined (n : Nat) : Joined (encodeNat n) := by
  have empty : Joined [] := ⟨List.not_mem_nil, List.not_mem_nil⟩
  induction n using encodeNat.induct with
  | case1 n small =>
    rw [encodeNat, if_pos small]
    exact joined_digit (by omega) empty
  | case2 n large ih =>
    rw [encodeNat, if_neg large]
    exact joined_digit (by omega) ih

theorem encodeInt_joined (z : Int) : Joined (encodeInt z) := by
  cases z <;> exact encodeNat_joined _

theorem Joined.append {first second : List Char} (left : Joined first) (right : Joined second) :
    Joined (first ++ second) :=
  ⟨by simp [left.1, right.1], by simp [left.2, right.2]⟩

theorem decodeNat_encodeNat (n : Nat) (rest : List Char) :
    decodeNat (encodeNat n ++ rest) = some (n, rest) := by
  induction n using encodeNat.induct with
  | case1 n small =>
    rw [encodeNat, if_pos small]
    simp [decodeNat, digitValue?_digit (by omega : n < 64), small]
  | case2 n large ih =>
    rw [encodeNat, if_neg large]
    have continued : ¬ n % 32 + 32 < 32 := by omega
    simp only [List.cons_append, decodeNat, digitValue?_digit (by omega : n % 32 + 32 < 64), ih, Option.bind_eq_bind,
      Option.bind_some, if_neg continued]
    have split : n % 32 + 32 - 32 + 32 * (n / 32) = n := by omega
    rw [split]
    rfl

theorem decodeInt_encodeInt (z : Int) (rest : List Char) : decodeInt (encodeInt z ++ rest) = some (z, rest) := by
  cases z with
  | ofNat n => simp [decodeInt, encodeInt, decodeNat_encodeNat]
  | negSucc n =>
    have odd : ¬ (2 * (n + 1) + 1) % 2 = 0 := by omega
    have half : (2 * (n + 1) + 1) / 2 = n + 1 := by omega
    simp only [decodeInt, encodeInt, decodeNat_encodeNat, Option.bind_eq_bind, Option.bind_some, if_neg odd, half]
    rfl

end Digits

section Segments

/-- The numbers written for a mapping, against another mapping. -/
def segment (previous mapping : Mapping) : List Char :=
  encodeInt (mapping.column - previous.column) ++ encodeInt (mapping.source - previous.source)
    ++ encodeInt (mapping.sourceLine - previous.sourceLine)
    ++ encodeInt (mapping.sourceColumn - previous.sourceColumn)

theorem segment_joined (previous mapping : Mapping) : Joined (segment previous mapping) :=
  (((encodeInt_joined _).append (encodeInt_joined _)).append (encodeInt_joined _)).append (encodeInt_joined _)

theorem segment_ne_nil (previous mapping : Mapping) : segment previous mapping ≠ [] := by
  intro empty
  have read := decodeInt_encodeInt (mapping.sourceColumn - previous.sourceColumn) []
  rw [List.append_nil, (List.append_eq_nil_iff.mp empty).2] at read
  cases read

theorem decodeSegment_segment (previous mapping : Mapping) (same : previous.line = mapping.line) :
    decodeSegment previous (segment previous mapping) = some mapping := by
  have restored (a b : Nat) : ((a : Int) + ((b : Int) - a)).toNat? = some b := by
    rw [show (a : Int) + ((b : Int) - a) = (b : Int) by omega]
    rfl
  have last := decodeInt_encodeInt (mapping.sourceColumn - previous.sourceColumn) []
  rw [List.append_nil] at last
  simp only [decodeSegment, segment, List.append_assoc, decodeInt_encodeInt, last, Option.bind_eq_bind,
    Option.bind_some, restored, same]
  rfl

end Segments

section Lines

/-- Nothing more in the line, or a separator. -/
def Ends (rest : List Char) : Prop := rest = [] ∨ ∃ more, rest = ',' :: more ∨ rest = ';' :: more

private theorem segments_append {text first : List Char} (joined : Joined text) (nonempty : text ≠ [])
    (ends : first = [] ∨ ∃ more, first = ',' :: more) : segments (text ++ first) = text :: segments first := by
  have free := Text.free_of_notMem joined.1
  obtain rfl | ⟨more, rfl⟩ := ends
  · have cut : Text.pieces (· == ',') (text ++ []) = (text ++ []) :: [] := Text.pieces_append free rfl
    rw [segments, cut, List.append_nil, List.filter_cons_of_pos (by simpa using nonempty)]
    rfl
  · have separated := Text.pieces_separator (p := (· == ',')) (c := ',') rfl more
    rw [segments, segments, Text.pieces_append free separated, separated, List.append_nil,
      List.filter_cons_of_pos (by simpa using nonempty)]
    rfl

/-- The first line of what follows a segment is empty or goes on behind a comma. -/
private theorem Ends.first {rest first : List Char} {others : List (List Char)} (ends : Ends rest)
    (cut : Text.pieces (· == ';') rest = first :: others) : first = [] ∨ ∃ more, first = ',' :: more := by
  obtain rfl | ⟨more, rfl | rfl⟩ := ends
  · exact .inl (List.cons.inj cut).1.symm
  · obtain ⟨head, tail, later⟩ := List.exists_cons_of_ne_nil (Text.pieces_ne_nil (· == ';') more)
    have joined : Text.pieces (· == ';') ([','] ++ more) = ([','] ++ head) :: tail := Text.pieces_append (by simp) later
    exact .inr ⟨head, (List.cons.inj (cut.symm.trans joined)).1⟩
  · exact .inl (List.cons.inj (cut.symm.trans (Text.pieces_separator rfl more))).1

/-- The mappings of a text in which `previous` was the last mapping read. -/
def decodeFrom (previous : Mapping) (text : List Char) : Option (List Mapping) :=
  decodeLines previous (Text.pieces (· == ';') text)

theorem decodeFrom_newline (previous : Mapping) (text : List Char) :
    decodeFrom previous (';' :: text) = decodeFrom (nextLine previous) text := by
  rw [decodeFrom, Text.pieces_separator rfl]
  cases later : decodeFrom (nextLine previous) text <;> simp_all [decodeLines, decodeFrom, segments, Text.pieces,
    decodeSegments]

theorem decodeFrom_newlines (previous : Mapping) (count : Nat) (text : List Char) :
    decodeFrom previous (List.replicate (count + 1) ';' ++ text)
      = decodeFrom { previous with line := previous.line + (count + 1), column := 0 } text := by
  induction count generalizing previous with
  | zero => exact decodeFrom_newline previous text
  | succ count ih =>
    rw [List.replicate_succ, List.cons_append, decodeFrom_newline, ih]
    simp only [nextLine, Nat.add_assoc, Nat.add_comm 1]

theorem decodeFrom_comma (previous : Mapping) (text : List Char) :
    decodeFrom previous (',' :: text) = decodeFrom previous text := by
  obtain ⟨first, others, cut⟩ := List.exists_cons_of_ne_nil (Text.pieces_ne_nil (· == ';') text)
  have joined : Text.pieces (· == ';') ([','] ++ text) = ([','] ++ first) :: others := Text.pieces_append (by simp) cut
  have dropped : segments ([','] ++ first) = segments first := by
    rw [segments, List.singleton_append, Text.pieces_separator rfl]
    rfl
  rw [decodeFrom, decodeFrom, ← List.singleton_append, joined, cut, decodeLines, decodeLines, dropped]

theorem decodeFrom_segment (previous mapping : Mapping) (same : previous.line = mapping.line) {rest : List Char}
    (ends : Ends rest) : decodeFrom previous (segment previous mapping ++ rest)
      = (decodeFrom mapping rest).map (mapping :: ·) := by
  have joined := segment_joined previous mapping
  obtain ⟨first, others, cut⟩ := List.exists_cons_of_ne_nil (Text.pieces_ne_nil (· == ';') rest)
  rw [decodeFrom, Text.pieces_append (Text.free_of_notMem joined.2) cut, decodeFrom, cut, decodeLines, decodeLines,
    segments_append joined (segment_ne_nil _ _) (ends.first cut), decodeSegments, decodeSegment_segment _ _ same]
  simp only [Option.bind_eq_bind, Option.bind_some, Option.pure_def]
  cases decodeSegments mapping (segments first) with
  | none => rfl
  | some here =>
    simp only [Option.bind_some, List.getLastD_cons]
    generalize decodeLines (nextLine (here.getLastD mapping)) others = later
    cases later <;> rfl

end Lines

section Encoding

/-- What separates a mapping from the one before it. -/
def lead (reached : Reached) (mapping : Mapping) : List Char :=
  if mapping.line - reached.previous.line = 0 then if reached.first then [] else [',']
  else List.replicate (mapping.line - reached.previous.line) ';'

/-- The mapping that the next one is written against. -/
def base (reached : Reached) (mapping : Mapping) : Mapping :=
  { reached.previous with
    line := mapping.line
    column := if mapping.line - reached.previous.line = 0 then reached.previous.column else 0 }

theorem encodeNext_eq (reached : Reached) (mapping : Mapping) :
    encodeNext reached mapping = lead reached mapping ++ segment (base reached mapping) mapping := by
  simp only [encodeNext, lead, segment, base, List.append_assoc]
  split <;> rfl

theorem encodeFrom_ends (previous : Mapping) (mappings : List Mapping) :
    Ends (encodeFrom ⟨previous, false⟩ mappings) := by
  cases mappings with
  | nil => exact .inl rfl
  | cons mapping rest =>
    refine .inr ?_
    rw [encodeFrom, encodeNext_eq, lead]
    split
    · exact ⟨_, .inl rfl⟩
    · next apart =>
      obtain ⟨count, more⟩ := Nat.exists_eq_succ_of_ne_zero apart
      rw [more, List.replicate_succ]
      exact ⟨_, .inr rfl⟩

/-- The separators bring the reader to the mapping that the next one is written against. -/
theorem decodeFrom_lead (reached : Reached) (mapping : Mapping) (text : List Char)
    (below : reached.previous.line ≤ mapping.line) :
    decodeFrom reached.previous (lead reached mapping ++ text) = decodeFrom (base reached mapping) text := by
  by_cases same : mapping.line - reached.previous.line = 0
  · have unmoved : base reached mapping = reached.previous := by
      have lines : mapping.line = reached.previous.line := by omega
      rw [base, if_pos same, lines]
    rw [lead, if_pos same, unmoved]
    split
    · rfl
    · exact decodeFrom_comma _ _
  · obtain ⟨count, apart⟩ := Nat.exists_eq_succ_of_ne_zero same
    have moved : base reached mapping
        = { reached.previous with line := reached.previous.line + (count + 1), column := 0 } := by
      have lines : mapping.line = reached.previous.line + (count + 1) := by omega
      rw [base, if_neg same, lines]
    rw [lead, if_neg same, apart, Nat.succ_eq_add_one, decodeFrom_newlines, moved]

theorem decodeFrom_encodeFrom (mappings : List Mapping) (reached : Reached)
    (sorted : mappings.Pairwise (·.line ≤ ·.line)) (below : ∀ m ∈ mappings, reached.previous.line ≤ m.line) :
    decodeFrom reached.previous (encodeFrom reached mappings) = some mappings := by
  induction mappings generalizing reached with
  | nil => rfl
  | cons mapping rest ih =>
    obtain ⟨ordered, sorted⟩ := List.pairwise_cons.mp sorted
    have start := below mapping List.mem_cons_self
    have reach : { mapping with line := max reached.previous.line mapping.line } = mapping := by
      rw [Nat.max_eq_right start]
    rw [encodeFrom, reach, encodeNext_eq, List.append_assoc, decodeFrom_lead _ _ _ start,
      decodeFrom_segment (base reached mapping) mapping rfl (encodeFrom_ends mapping rest),
      ih ⟨mapping, false⟩ sorted ordered]
    rfl

/-- Mappings in the order of their lines are read back as they were written. -/
theorem decode_encode (mappings : List Mapping) (sorted : mappings.Pairwise (·.line ≤ ·.line)) :
    decode (encode mappings) = some mappings := by
  rw [decode, encode, String.toList_ofList]
  exact decodeFrom_encodeFrom mappings Reached.start sorted fun _ _ => Nat.zero_le _

theorem decode_encode_falling :
    [(⟨1, 40, 3, 100, 7⟩ : Mapping), ⟨1, 2, 0, 5, 900⟩, ⟨4, 0, 1, 0, 0⟩].Pairwise (·.line ≤ ·.line) ∧
      decode (encode [⟨1, 40, 3, 100, 7⟩, ⟨1, 2, 0, 5, 900⟩, ⟨4, 0, 1, 0, 0⟩])
        = some [⟨1, 40, 3, 100, 7⟩, ⟨1, 2, 0, 5, 900⟩, ⟨4, 0, 1, 0, 0⟩] :=
  ⟨by decide, decode_encode _ (by decide)⟩

end Encoding

end Stylesheet.SourceMap
