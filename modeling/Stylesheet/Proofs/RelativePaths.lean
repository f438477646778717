import Stylesheet.Proofs.NormalPaths

/-! The way from a directory to a target. It climbs out of the directory until the parts that both have at the beginning are
left, and goes down to the target from there. Written as a text and read again, joined to the directory and normalized, it
is the target: each climb takes back a name of the directory, as there are no two points in a normal path from the root.

A path is more than its text can tell: a text has no empty parts, and only a first part can be a single point. So the
lemmas on reading ask for parts that can stand between slashes. -/

namespace Stylesheet.Path

variable {base target parts names : List String} {part text : String} {path : Path}

/-! Paths that texts can have -/

theorem isSegment_of_mem (member : part ∈ segments text) (nonempty : part ≠ "") : IsSegment part := by
  refine ⟨nonempty, fun slash => ?_⟩
  obtain ⟨piece, cut, rfl⟩ := List.mem_map.1 member
  rw [String.toList_ofList] at slash
  exact absurd (Text.free_of_mem_pieces cut '/' slash) (by decide)

/-- The parts of a path can stand between slashes, and no single point is among them. -/
def AreSpelled (parts : List String) : Prop := ∀ part ∈ parts, IsSegment part ∧ part ≠ "."

theorem segments_intercalate (spelled : AreSpelled parts) (nonempty : parts ≠ []) :
    segments ("/".intercalate parts) = parts := by
  have cut : Text.pieces (· == '/') (List.intercalate ['/'] (parts.map String.toList)) = parts.map String.toList := by
    refine Text.pieces_joined (by simpa using nonempty) fun item member => ?_
    obtain ⟨part, inside, rfl⟩ := List.mem_map.1 member
    exact (spelled part inside).1.free
  rw [segments, String.toList_intercalate, show "/".toList = ['/'] from rfl, cut, List.map_map]
  simp

/-- What is left of the segments of a text: neither empty ones nor single points. -/
def namedParts (parts : List String) : List String := parts.filter fun part => !part.isEmpty && part != "."

theorem namedParts_eq_self (spelled : AreSpelled parts) : namedParts parts = parts := by
  refine List.filter_eq_self.2 fun part member => ?_
  obtain ⟨segment, pointless⟩ := spelled part member
  simp [segment.nonempty, pointless]

theorem namedParts_concat (segment : IsSegment part) (pointless : part ≠ ".") :
    namedParts (parts ++ [part]) = namedParts parts ++ [part] := by
  rw [namedParts, namedParts, List.filter_append, List.filter_cons_of_pos, List.filter_nil]
  simp [segment.nonempty, pointless]

/-! A text is read by what stands before its first slash. -/

section Reading

variable {first next : String} {more : List String}

theorem ofString_rooted (cut : segments text = "" :: next :: more) :
    ofString text = ⟨true, namedParts (next :: more)⟩ := by
  unfold segments at cut
  rw [ofString, cut]
  rfl

theorem ofString_pointed (cut : segments text = "." :: more) : ofString text = ⟨false, "." :: namedParts more⟩ := by
  unfold segments at cut
  rw [ofString, cut]
  rfl

theorem ofString_named (cut : segments text = first :: more) (rootless : first = "" → more = [])
    (pointless : first ≠ ".") : ofString text = ⟨false, namedParts (first :: more)⟩ := by
  unfold segments at cut
  rw [ofString, cut]
  split
  · next same =>
    obtain ⟨root, goesOn⟩ := List.cons.inj same
    rw [rootless root] at goesOn
    cases goesOn
  · next same => exact absurd (List.cons.inj same).1 pointless
  · rfl

end Reading

theorem ofString_relative (spelled : AreSpelled parts) : ofString ("/".intercalate parts) = ⟨false, parts⟩ := by
  cases parts with
  | nil => rfl
  | cons first others =>
    obtain ⟨segment, pointless⟩ := spelled first (.head _)
    have cut := segments_intercalate spelled (List.cons_ne_nil _ _)
    rw [ofString_named cut (fun empty => absurd empty segment.nonempty) pointless, namedParts_eq_self spelled]

theorem ofString_absolute (spelled : AreSpelled parts) : ofString ("/" ++ "/".intercalate parts) = ⟨true, parts⟩ := by
  obtain ⟨first, others, known⟩ := List.exists_cons_of_ne_nil (segments_ne_nil ("/".intercalate parts))
  have cut : segments ("/" ++ "/".intercalate parts) = "" :: first :: others := by
    rw [← known]
    exact segments_slash "" ("/".intercalate parts)
  rw [ofString_rooted cut, ← known]
  cases parts with
  | nil => rfl
  | cons part parts => rw [segments_intercalate spelled (List.cons_ne_nil _ _), namedParts_eq_self spelled]

/-- A path is read from its own text. -/
theorem ofString_toString (spelled : AreSpelled path.parts) : ofString path.toString = path := by
  obtain ⟨absolute, parts⟩ := path
  cases absolute with
  | true => exact ofString_absolute spelled
  | false =>
    rw [toString, if_neg Bool.false_ne_true, String.empty_append]
    exact ofString_relative spelled

/-! The way from one path to another -/

theorem take_commonLength : (base target : List String) →
    base.take (commonLength base target) = target.take (commonLength base target)
  | [], _ => by simp [commonLength]
  | _ :: _, [] => by simp [commonLength]
  | a :: base, b :: target => by
    rw [commonLength]
    split
    · next same => rw [List.take_succ_cons, List.take_succ_cons, same, take_commonLength base target]
    · rfl

theorem commonLength_le : (base target : List String) → commonLength base target ≤ base.length
  | [], _ => by simp [commonLength]
  | _ :: _, [] => by simp [commonLength]
  | a :: base, b :: target => by
    rw [commonLength]
    split
    · exact Nat.succ_le_succ (commonLength_le base target)
    · exact Nat.zero_le _

/-- Pairs of points take as many names back. -/
theorem foldl_back {absolute : Bool} (named : ∀ name ∈ names, isName name = true) {count : Nat}
    (enough : count ≤ names.length) :
    (List.replicate count "..").foldl (stepNormal absolute) names = names.take (names.length - count) := by
  induction count generalizing names with
  | zero => simp
  | succ count later =>
    rcases List.eq_nil_or_concat' names with rfl | ⟨names, last, rfl⟩
    · cases enough
    · have here : isName last = true := named last (by simp)
      have front : ∀ name ∈ names, isName name = true := fun name member => named name (by simp [member])
      rw [List.length_append, List.length_singleton] at enough ⊢
      rw [List.replicate_succ, List.foldl_cons, stepNormal_back here, later front (by omega),
        show names.length + 1 - (count + 1) = names.length - count by omega, List.take_append_of_le_length (by omega)]

/-- The names that both paths begin with stay, the others of the base are taken back, and those of the target follow. -/
theorem foldl_relativeParts (named : ∀ name ∈ base, isName name = true) (named' : ∀ name ∈ target, isName name = true) :
    (relativeParts base target).foldl (stepNormal true) base = target := by
  have rest : base.length - (base.length - commonLength base target) = commonLength base target := by
    have bound := commonLength_le base target
    omega
  unfold relativeParts
  dsimp only
  rw [List.foldl_append, foldl_back named (Nat.sub_le _ _), rest, take_commonLength,
    foldl_names fun name member => named' name (List.mem_of_mem_drop member), List.take_append_drop]

theorem areSpelled_relativeParts (named : ∀ name ∈ target, isName name = true)
    (segments : ∀ name ∈ target, IsSegment name) : AreSpelled (relativeParts base target) := by
  intro part member
  unfold relativeParts at member
  dsimp only at member
  rcases List.mem_append.1 member with points | name
  · rw [List.eq_of_mem_replicate points]
    exact ⟨isSegment_points, by decide⟩
  · have inside := List.mem_of_mem_drop name
    exact ⟨segments part inside, (isName_iff.1 (named part inside)).1⟩

/-- The way to a target, taken from where it starts, ends at the target. -/
theorem normalize_join_relativeText {base target : Path} (rooted : base.absolute = true) (normal : base.IsNormal)
    (rooted' : target.absolute = true) (normal' : target.IsNormal) (segments : ∀ name ∈ target.parts, IsSegment name) :
    (base.join (ofString (relativeText base target.toString))).normalize = target := by
  have named : ∀ name ∈ base.parts, isName name = true := NormalParts.isName (rooted ▸ normal)
  have named' : ∀ name ∈ target.parts, isName name = true := NormalParts.isName (rooted' ▸ normal')
  have spelled : AreSpelled target.parts := fun part member =>
    ⟨segments part member, (isName_iff.1 (named' part member)).1⟩
  have way : ofString (relativeText base target.toString) = ⟨false, relativeParts base.parts target.parts⟩ := by
    rw [relativeText, ofString_toString spelled, rooted, rooted']
    exact ofString_relative (areSpelled_relativeParts named' segments)
  rw [way, normalize_join_relative base rfl, normal.normalize_eq, rooted]
  dsimp only
  rw [foldl_relativeParts named named', ← rooted']

end Stylesheet.Path
