import Mathlib.Data.List.DropRight
import Stylesheet.Text.Blank

/-! What the cuts of a text at blanks and at separators leave of it. -/

namespace Stylesheet.Text

variable {p : Char → Bool} {cs rest : List Char} {c : Char}

/-- What is taken from the front of a text is taken again when another text is behind it in which that stops. -/
theorem takeWhile_again (taken : ∀ c ∈ cs, p c = true) (stops : ∀ c ∈ rest.head?, p c = false) :
    (cs ++ rest).takeWhile p = cs := by
  rw [List.takeWhile_append_of_pos taken]
  cases rest with
  | nil => simp
  | cons c rest => rw [List.takeWhile_cons_of_neg (by simp [stops c rfl]), List.append_nil]

theorem dropWhile_again (taken : ∀ c ∈ cs, p c = true) (stops : ∀ c ∈ rest.head?, p c = false) :
    (cs ++ rest).dropWhile p = rest := by
  rw [List.dropWhile_append_of_pos taken]
  cases rest with
  | nil => rfl
  | cons c rest => rw [List.dropWhile_cons_of_neg (by simp [stops c rfl])]

theorem trimEnd_append (cs tail : List Char) :
    trimEnd (cs ++ tail) = if trimEnd tail = [] then trimEnd cs else cs ++ trimEnd tail := by
  induction cs with
  | nil => by_cases empty : trimEnd tail = [] <;> simp [empty, trimEnd]
  | cons c cs ih =>
    simp only [List.cons_append, trimEnd, ih]
    by_cases empty : trimEnd tail = []
    · simp only [if_pos empty]
    · simp only [if_neg empty]
      cases cs <;> cases known : trimEnd tail <;> simp_all

theorem trimEnd_concat (cs : List Char) (c : Char) :
    trimEnd (cs ++ [c]) = if isBlank c then trimEnd cs else cs ++ [c] := by
  rw [trimEnd_append]
  by_cases blank : isBlank c = true <;> simp [trimEnd, blank]

theorem trimEnd_eq_rdropWhile (cs : List Char) : trimEnd cs = cs.rdropWhile isBlank := by
  induction cs using List.reverseRecOn with
  | nil => rfl
  | append_singleton cs c ih => rw [trimEnd_concat, List.rdropWhile_concat, ih]

theorem trimEnd_eq_nil : trimEnd cs = [] ↔ ∀ c ∈ cs, isBlank c = true := by
  rw [trimEnd_eq_rdropWhile, List.rdropWhile_eq_nil_iff]

theorem trimEnd_isPrefix (cs : List Char) : trimEnd cs <+: cs := by
  rw [trimEnd_eq_rdropWhile]
  exact List.rdropWhile_prefix isBlank cs

@[simp] theorem trimEnd_trimEnd (cs : List Char) : trimEnd (trimEnd cs) = trimEnd cs := by
  simp only [trimEnd_eq_rdropWhile]
  exact List.rdropWhile_idempotent isBlank cs

theorem trimEnd_cons (seen : isBlank c = false) (rest : List Char) : trimEnd (c :: rest) = c :: trimEnd rest := by
  rw [trimEnd]
  split
  next empty => rw [empty, if_neg (by simp [seen])]
  next => rfl

@[simp] theorem trim_trim (cs : List Char) : trim (trim cs) = trim cs := by
  have begins := List.head?_dropWhile_not isBlank cs
  unfold trim trimStart
  cases known : cs.dropWhile isBlank with
  | nil => rfl
  | cons c rest =>
    have seen : isBlank c = false := by simpa [known] using begins
    rw [trimEnd_cons seen, List.dropWhile_cons_of_neg (by simp [seen]), trimEnd_cons seen, trimEnd_trimEnd]

theorem mem_of_mem_trim (member : c ∈ trim cs) : c ∈ cs :=
  (List.dropWhile_sublist _).subset ((trimEnd_isPrefix _).subset member)

/-- Blanks in front of a text stay, if the text does not consist of blanks. -/
theorem trimEnd_append_of_ne (start : List Char) (text : trimEnd cs ≠ []) :
    trimEnd (start ++ cs) = start ++ trimEnd cs := by
  rw [trimEnd_append, if_neg text]

theorem pieces_ne_nil (p : Char → Bool) (text : List Char) : pieces p text ≠ [] := by
  cases text with
  | nil => simp [pieces]
  | cons c rest =>
    rw [pieces]
    split
    · simp
    · split <;> simp

/-- A text without separators in front of another one belongs to the first piece of it. -/
theorem pieces_append {text : List Char} (free : ∀ c ∈ text, p c = false)
    {rest first : List Char} {others : List (List Char)} (cut : pieces p rest = first :: others) :
    pieces p (text ++ rest) = (text ++ first) :: others := by
  induction text with
  | nil => exact cut
  | cons c text ih =>
    rw [List.cons_append, pieces, ih (fun c member => free c (List.mem_cons_of_mem _ member)),
      free c List.mem_cons_self]
    rfl

theorem pieces_separator (separates : p c = true) (rest : List Char) :
    pieces p (c :: rest) = [] :: pieces p rest := by
  rw [pieces, if_pos separates]

theorem pieces_append_separator (separates : p c = true) (cs rest : List Char) :
    pieces p (cs ++ c :: rest) = pieces p cs ++ pieces p rest := by
  induction cs with
  | nil => exact pieces_separator separates rest
  | cons first cs ih =>
    rw [List.cons_append, pieces, pieces, ih]
    split
    · rfl
    · cases known : pieces p cs with
      | nil => exact absurd known (pieces_ne_nil p cs)
      | cons piece others => rfl

/-- No piece of a text holds a separator. -/
theorem free_of_mem_pieces {piece : List Char} (member : piece ∈ pieces p cs) : ∀ c ∈ piece, p c = false := by
  induction cs generalizing piece with
  | nil =>
    rw [List.mem_singleton.1 member]
    exact nofun
  | cons first cs later =>
    rw [pieces] at member
    split at member
    · rcases List.mem_cons.1 member with rfl | behind
      · exact nofun
      · exact later behind
    · next free =>
      obtain ⟨start, others, cut⟩ := List.exists_cons_of_ne_nil (pieces_ne_nil p cs)
      rw [cut] at member later
      rcases List.mem_cons.1 member with rfl | behind
      · rintro c (_ | ⟨_, inside⟩)
        · exact Bool.eq_false_iff.2 free
        · exact later (.head _) c inside
      · exact later (.tail _ behind)

theorem free_of_notMem {text : List Char} (absent : c ∉ text) : ∀ d ∈ text, (d == c) = false := by
  intro d member
  exact beq_eq_false_iff_ne.mpr fun same => absent (same ▸ member)

theorem intercalate_cons (separator item : List Char) (items : List (List Char)) :
    List.intercalate separator (item :: items) = item ++ items.flatMap (separator ++ ·) := by
  induction items generalizing item with
  | nil => simp
  | cons next items ih =>
    rw [List.intercalate_cons_of_ne_nil (List.cons_ne_nil _ _), ih, List.flatMap_cons]
    simp only [List.append_assoc]

theorem intercalate_concat (separator : List Char) {items : List (List Char)} (nonempty : items ≠ [])
    (last : List Char) :
    List.intercalate separator (items ++ [last]) = List.intercalate separator items ++ separator ++ last := by
  induction items with
  | nil => exact absurd rfl nonempty
  | cons item items ih =>
    cases items with
    | nil => simp
    | cons next items =>
      have nonempty : next :: items ++ [last] ≠ [] := List.cons_ne_nil _ _
      rw [List.cons_append, List.intercalate_cons_of_ne_nil nonempty, ih (List.cons_ne_nil _ _),
        List.intercalate_cons_of_ne_nil (List.cons_ne_nil _ _)]
      simp only [List.append_assoc]

/-- The pieces of a text that is joined from pieces. -/
theorem pieces_joined {items : List (List Char)} (nonempty : items ≠ []) (free : ∀ item ∈ items, c ∉ item) :
    pieces (· == c) (List.intercalate [c] items) = items := by
  induction items with
  | nil => exact absurd rfl nonempty
  | cons item items ih =>
    have begins := free_of_notMem (free item List.mem_cons_self)
    cases items with
    | nil =>
      have cut : pieces (· == c) (item ++ []) = [item ++ []] := pieces_append begins rfl
      simpa using cut
    | cons next items =>
      have rest := ih (List.cons_ne_nil _ _) fun item member => free item (List.mem_cons_of_mem _ member)
      rw [List.intercalate_cons_of_ne_nil (List.cons_ne_nil _ _), List.append_assoc, List.singleton_append]
      have cut := pieces_separator (p := (· == c)) (beq_self_eq_true c) (List.intercalate [c] (next :: items))
      rw [rest] at cut
      simpa using pieces_append begins cut

end Stylesheet.Text
