import Stylesheet.Path
import Stylesheet.Text.Cuts

/-! Paths in normal form. Normalization puts the names of a path on a stack, from which two points take the last name
back. Two points that find no name stay, or are lost at the root. So the stack always holds a run of two points, which is
empty in an absolute path, and names behind it; and all that matters of the path before a part is the stack it leaves. -/

namespace Stylesheet.Path

variable {absolute : Bool} {stack parts names : List String} {part name : String} {path : Path}

/-- Two points stand at the beginning only, and there only if the path is not absolute. All other parts are names. -/
def NormalParts (absolute : Bool) (parts : List String) : Prop :=
  ∃ climbs names, parts = List.replicate climbs ".." ++ names ∧ (∀ name ∈ names, isName name = true) ∧
    (absolute = true → climbs = 0)

def IsNormal (path : Path) : Prop := NormalParts path.absolute path.parts

theorem isName_iff : isName part = true ↔ part ≠ "." ∧ part ≠ ".." := by simp [isName]

/-! One step -/

@[simp] theorem stepNormal_point : stepNormal absolute stack "." = stack := if_pos rfl

theorem stepNormal_name (named : isName part = true) : stepNormal absolute stack part = stack ++ [part] := by
  obtain ⟨noPoint, noPoints⟩ := isName_iff.1 named
  rw [stepNormal, if_neg noPoint, if_neg noPoints]

/-- Two points take a name back. -/
theorem stepNormal_back (named : isName name = true) : stepNormal absolute (stack ++ [name]) ".." = stack := by
  rw [stepNormal, if_neg (by decide), if_pos rfl, List.getLast?_concat]
  dsimp only
  rw [if_neg (isName_iff.1 named).2, List.dropLast_concat]

/-- Two points that find no name in an absolute path are lost. -/
theorem stepNormal_root : stepNormal true [] ".." = [] := rfl

/-- Two points that find no name in a relative path stay. -/
theorem stepNormal_climb (climbs : Nat) :
    stepNormal false (List.replicate climbs "..") ".." = List.replicate (climbs + 1) ".." := by
  cases climbs with
  | zero => rfl
  | succ climbs =>
    rw [List.replicate_succ', stepNormal, if_neg (by decide), if_pos rfl, List.getLast?_concat]
    dsimp only
    rw [if_pos rfl, ← List.replicate_succ', ← List.replicate_succ']

theorem NormalParts.step (normal : NormalParts absolute stack) (part : String) :
    NormalParts absolute (stepNormal absolute stack part) := by
  obtain ⟨climbs, names, rfl, named, rooted⟩ := normal
  by_cases point : part = "."
  · subst point
    exact ⟨climbs, names, stepNormal_point, named, rooted⟩
  by_cases points : part = ".."
  · subst points
    rcases List.eq_nil_or_concat' names with rfl | ⟨names, last, rfl⟩
    · rw [List.append_nil]
      cases absolute with
      | true =>
        obtain rfl := rooted rfl
        exact ⟨0, [], stepNormal_root, named, rooted⟩
      | false => exact ⟨climbs + 1, [], by rw [stepNormal_climb, List.append_nil], named, nofun⟩
    · rw [← List.append_assoc, stepNormal_back (named last (by simp))]
      exact ⟨climbs, names, rfl, fun name member => named name (by simp [member]), rooted⟩
  · have isName : isName part = true := isName_iff.2 ⟨point, points⟩
    refine ⟨climbs, names ++ [part], by rw [stepNormal_name isName, List.append_assoc], ?_, rooted⟩
    intro name member
    rcases List.mem_append.1 member with before | here
    · exact named name before
    · rwa [List.mem_singleton.1 here]

/-! All steps -/

theorem NormalParts.foldl (normal : NormalParts absolute stack) (parts : List String) :
    NormalParts absolute (parts.foldl (stepNormal absolute) stack) := by
  induction parts generalizing stack with
  | nil => exact normal
  | cons part parts later => exact later (normal.step part)

theorem foldl_names (named : ∀ name ∈ names, isName name = true) :
    names.foldl (stepNormal absolute) stack = stack ++ names := by
  induction names generalizing stack with
  | nil => rw [List.append_nil, List.foldl_nil]
  | cons name names later =>
    obtain ⟨here, behind⟩ := List.forall_mem_cons.1 named
    rw [List.foldl_cons, stepNormal_name here, later behind, List.append_assoc, List.singleton_append]

theorem foldl_climbs (climbs : Nat) :
    (List.replicate climbs "..").foldl (stepNormal false) [] = List.replicate climbs ".." := by
  induction climbs with
  | zero => rfl
  | succ climbs before =>
    rw [List.replicate_succ', List.foldl_append, before, List.foldl_cons, List.foldl_nil, stepNormal_climb,
      List.replicate_succ']

/-- What is in normal form stays as it is. -/
theorem NormalParts.foldl_eq (normal : NormalParts absolute parts) :
    parts.foldl (stepNormal absolute) [] = parts := by
  obtain ⟨climbs, names, rfl, named, rooted⟩ := normal
  rw [List.foldl_append, foldl_names named]
  cases absolute with
  | true =>
    obtain rfl := rooted rfl
    rfl
  | false => rw [foldl_climbs]

theorem isNormal_normalize (path : Path) : path.normalize.IsNormal :=
  NormalParts.foldl ⟨0, [], rfl, nofun, fun _ => rfl⟩ path.parts

theorem IsNormal.normalize_eq (normal : path.IsNormal) : path.normalize = path := by
  rw [normalize, NormalParts.foldl_eq normal]

/-! The parts of a path in normal form -/

theorem mem_of_mem_stepNormal (member : name ∈ stepNormal absolute stack part) : name ∈ stack ∨ name = part := by
  unfold stepNormal at member
  split at member
  · exact .inl member
  · split at member
    · next points =>
      split at member
      · split at member
        · rw [points]
          simpa using member
        · exact .inl (List.dropLast_subset _ member)
      · split at member
        · cases member
        · rw [points]
          exact .inr (List.mem_singleton.1 member)
    · simpa using member

/-- Normalization makes no new parts. -/
theorem mem_of_mem_foldl (member : name ∈ parts.foldl (stepNormal absolute) stack) : name ∈ stack ∨ name ∈ parts := by
  induction parts generalizing stack with
  | nil => exact .inl member
  | cons part parts later =>
    rcases later member with before | behind
    · rcases mem_of_mem_stepNormal before with inside | rfl
      · exact .inl inside
      · exact .inr (.head _)
    · exact .inr (.tail _ behind)

/-- From the root, all parts are names. -/
theorem NormalParts.isName (normal : NormalParts true parts) : ∀ part ∈ parts, isName part = true := by
  obtain ⟨climbs, names, rfl, named, rooted⟩ := normal
  obtain rfl := rooted rfl
  exact named

/-! Paths that are joined -/

/-- Single points do nothing, so they may be left out before. -/
theorem foldl_filter_points (parts : List String) :
    (parts.filter (· != ".")).foldl (stepNormal absolute) stack = parts.foldl (stepNormal absolute) stack := by
  induction parts generalizing stack with
  | nil => rfl
  | cons part parts later =>
    by_cases point : part = "."
    · subst point
      rw [List.filter_cons_of_neg (by decide), List.foldl_cons, stepNormal_point, later]
    · rw [List.filter_cons_of_pos (by simpa using point), List.foldl_cons, List.foldl_cons, later]

/-- A relative path goes on from the stack that the path before it leaves. -/
theorem normalize_join_relative (base : Path) (relative : path.absolute = false) :
    (base.join path).normalize =
      ⟨base.absolute, path.parts.foldl (stepNormal base.absolute) base.normalize.parts⟩ := by
  unfold join
  rw [relative, if_neg Bool.false_ne_true]
  split
  · next empty =>
    obtain ⟨nowhere, nothing⟩ : base.absolute = false ∧ base.parts = [] := by simpa [isEmpty] using empty
    rw [normalize, normalize, nothing, nowhere, relative]
    rfl
  · rw [normalize, normalize]
    dsimp only
    rw [List.foldl_append, foldl_filter_points]

theorem normalize_join (base path : Path) : (base.join path).normalize = (base.normalize.join path).normalize := by
  cases known : path.absolute with
  | true => simp [join, known]
  | false =>
    rw [normalize_join_relative base known, normalize_join_relative base.normalize known,
      (isNormal_normalize base).normalize_eq]
    rfl

theorem normalize_point (front behind : List String) :
    normalize ⟨absolute, front ++ "." :: behind⟩ = normalize ⟨absolute, front ++ behind⟩ := by
  simp only [normalize, List.foldl_append, List.foldl_cons, stepNormal_point]

theorem normalize_detour (front behind : List String) (named : isName name = true) :
    normalize ⟨absolute, front ++ name :: ".." :: behind⟩ = normalize ⟨absolute, front ++ behind⟩ := by
  simp only [normalize, List.foldl_append, List.foldl_cons, stepNormal_name named, stepNormal_back named]

/-! Paths as texts -/

/-- What stands between the slashes of a text. -/
def segments (text : String) : List String := (Text.pieces (· == '/') text.toList).map String.ofList

/-- A text begins with a slash. -/
def startsAtRoot (text : String) : Bool :=
  match segments text with
  | "" :: _ :: _ => true
  | _ => false

theorem segments_ne_nil (text : String) : segments text ≠ [] := by
  simp [segments, Text.pieces_ne_nil]

theorem segments_slash (front behind : String) :
    segments (front ++ "/" ++ behind) = segments front ++ segments behind := by
  have chars : (front ++ "/" ++ behind).toList = front.toList ++ '/' :: behind.toList := by simp
  rw [segments, chars, Text.pieces_append_separator rfl, List.map_append]
  rfl

theorem segments_of_free {text : String} (free : '/' ∉ text.toList) : segments text = [text] := by
  have cut : Text.pieces (· == '/') (text.toList ++ []) = [text.toList ++ []] :=
    Text.pieces_append (Text.free_of_notMem free) rfl
  rw [List.append_nil] at cut
  rw [segments, cut, List.map_singleton, String.ofList_toList]

/-- A text is read as an absolute path if it begins with a slash, and else as a relative one. Either way, normalization
goes over what stands between the slashes. -/
theorem normalize_ofString (text : String) : (ofString text).normalize =
    ⟨startsAtRoot text, ((segments text).filter (!·.isEmpty)).foldl (stepNormal (startsAtRoot text)) []⟩ := by
  have named (absolute : Bool) (segments : List String) :
      (segments.filter fun segment => !segment.isEmpty && segment != ".").foldl (stepNormal absolute) [] =
        (segments.filter (!·.isEmpty)).foldl (stepNormal absolute) [] := by
    rw [← foldl_filter_points (segments.filter (!·.isEmpty)), List.filter_filter]
    simp only [Bool.and_comm]
  unfold ofString startsAtRoot normalize
  dsimp only
  rw [show (Text.pieces (· == '/') text.toList).map String.ofList = segments text from rfl]
  split
  · next known =>
    rw [known]
    exact congrArg (Path.mk true) (named true _)
  · next known =>
    rw [known]
    exact congrArg (Path.mk false) (named false _)
  · next relative _ =>
    have begins : (match segments text with | "" :: _ :: _ => true | _ => false) = false := by
      split
      · next known => exact absurd known (relative _ _)
      · rfl
    rw [begins]
    exact congrArg (Path.mk false) (named false _)

/-- Where a slash is known to stand, what is in front of it says whether the path is absolute. -/
theorem startsAtRoot_slash (front behind : String) :
    startsAtRoot (front ++ "/" ++ behind) = ((segments front).head? == some "") := by
  obtain ⟨first, others, cut⟩ := List.exists_cons_of_ne_nil (segments_ne_nil front)
  obtain ⟨next, more, cut'⟩ := List.exists_cons_of_ne_nil (segments_ne_nil behind)
  unfold startsAtRoot
  rw [segments_slash, cut, cut']
  by_cases root : first = ""
  · subst root
    cases others <;> rfl
  · rw [List.head?_cons, beq_false_of_ne (by simpa using root)]
    split
    · next known => exact absurd (List.cons.inj known).1 root
    · rfl

/-- What changes no stack can stand between two slashes or not. -/
theorem normalize_inserted (front inserted behind : String)
    (idle : ∀ absolute stack, ((segments inserted).filter (!·.isEmpty)).foldl (stepNormal absolute) stack = stack) :
    (ofString (front ++ "/" ++ inserted ++ "/" ++ behind)).normalize =
      (ofString (front ++ "/" ++ behind)).normalize := by
  have root : startsAtRoot (front ++ "/" ++ inserted ++ "/" ++ behind) = startsAtRoot (front ++ "/" ++ behind) := by
    have spread : front ++ "/" ++ inserted ++ "/" ++ behind = front ++ "/" ++ (inserted ++ "/" ++ behind) := by
      simp only [String.append_assoc]
    rw [spread, startsAtRoot_slash, startsAtRoot_slash]
  rw [normalize_ofString, normalize_ofString, root, segments_slash, segments_slash, segments_slash]
  simp only [List.filter_append, List.foldl_append, idle]

/-- What a text has between two slashes, as a part of a path. -/
structure IsSegment (part : String) : Prop where
  nonempty : part ≠ ""
  free : '/' ∉ part.toList

theorem filter_segments {text : String} (segment : IsSegment text) :
    (segments text).filter (!·.isEmpty) = [text] := by
  rw [segments_of_free segment.free, List.filter_cons_of_pos (by simpa using segment.nonempty), List.filter_nil]

theorem isSegment_point : IsSegment "." := ⟨by decide, by decide⟩

theorem isSegment_points : IsSegment ".." := ⟨by decide, by decide⟩

theorem normalize_point_text (front behind : String) :
    (ofString (front ++ "/./" ++ behind)).normalize = (ofString (front ++ "/" ++ behind)).normalize := by
  have inserted := normalize_inserted front "." behind fun absolute stack => by
    rw [filter_segments isSegment_point, List.foldl_cons, List.foldl_nil, stepNormal_point]
  have same : front ++ "/" ++ "." ++ "/" ++ behind = front ++ "/./" ++ behind := by
    simp only [String.append_assoc]
    rfl
  rwa [same] at inserted

theorem normalize_detour_text (front behind : String) (segment : IsSegment name) (named : isName name = true) :
    (ofString (front ++ "/" ++ name ++ "/../" ++ behind)).normalize =
      (ofString (front ++ "/" ++ behind)).normalize := by
  have inserted := normalize_inserted front (name ++ "/" ++ "..") behind fun absolute stack => by
    rw [segments_slash, List.filter_append, filter_segments segment, filter_segments isSegment_points,
      List.singleton_append, List.foldl_cons, List.foldl_cons, List.foldl_nil, stepNormal_name named,
      stepNormal_back named]
  have same : front ++ "/" ++ (name ++ "/" ++ "..") ++ "/" ++ behind = front ++ "/" ++ name ++ "/../" ++ behind := by
    simp only [String.append_assoc]
    rfl
  rwa [same] at inserted

/-- Each path has one normal form. That is a path without single points, in which two points stand at the beginning only,
and only if it is relative; it is its own normal form, and it stands for the path wherever other paths start from it.
A single point changes nothing in it, and neither does a name with two points behind it, in the parts of a path and in
the text of one. -/
theorem one_normal_form (base path : Path) :
    path.normalize.IsNormal ∧ path.normalize.normalize = path.normalize ∧
      (base.join path).normalize = (base.normalize.join path).normalize ∧
      (∀ absolute front behind, normalize ⟨absolute, front ++ "." :: behind⟩ = normalize ⟨absolute, front ++ behind⟩) ∧
      (∀ absolute front behind name, isName name = true →
        normalize ⟨absolute, front ++ name :: ".." :: behind⟩ = normalize ⟨absolute, front ++ behind⟩) ∧
      (∀ front behind, (ofString (front ++ "/./" ++ behind)).normalize = (ofString (front ++ "/" ++ behind)).normalize) ∧
      ∀ front behind name, IsSegment name → isName name = true →
        (ofString (front ++ "/" ++ name ++ "/../" ++ behind)).normalize =
          (ofString (front ++ "/" ++ behind)).normalize :=
  have normal := isNormal_normalize path
  ⟨normal, normal.normalize_eq, normalize_join base path, fun _ => normalize_point, fun _ front behind _ =>
    normalize_detour front behind, normalize_point_text, fun front behind _ => normalize_detour_text front behind⟩

/-- A way back behind two points that stay, in a path that starts from another one. -/
theorem one_normal_form_climbing :
    IsSegment "x" ∧ isName "x" = true ∧ (ofString "../../a/x/../b").normalize = (ofString "../../a/b").normalize ∧
      ((ofString "/u/./v").join (ofString "../../../w")).normalize = ⟨true, ["w"]⟩ := by
  have segment : IsSegment "x" := ⟨by decide, by decide⟩
  obtain ⟨-, -, joined, -, -, -, detour⟩ := one_normal_form (ofString "/u/./v") (ofString "../../../w")
  refine ⟨segment, rfl, detour "../../a" "b" "x" segment rfl, ?_⟩
  rw [joined]
  decide +kernel

end Stylesheet.Path
