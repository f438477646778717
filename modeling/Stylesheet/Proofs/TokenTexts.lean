import Stylesheet.Proofs.Reading
import Stylesheet.Proofs.Tiling
import Stylesheet.Text.Cuts

/-! What the text of a token has to do with its kind, and what a text is cut into at an interpolation. -/

namespace Stylesheet

/-- A variable is written as a dollar sign and its name, a string in its quotes, and an address begins with a word of
three letters and a parenthesis, behind which stands more than what the token says of it. -/
def TokenKind.Suits (text : List Char) : TokenKind → Prop
  | .variable name => text = '$' :: name.toList
  | .quoted contents quote => (quote = '"' ∨ quote = '\'') ∧ text = quote :: contents.toList ++ [quote]
  | .url contents => ∃ front argument, text = front ++ argument ∧ front.length = 4 ∧ '\n' ∉ front ∧
      contents.toList.length < argument.length
  | _ => True

namespace Token

/-- The token that is read, if one is, has a text that suits its kind. -/
def Suited : Except Fault Lexeme → Prop
  | .ok lexeme => lexeme.kind.Suits lexeme.taken
  | .error _ => True

theorem Suited.ite {p : Prop} [Decidable p] {yes no : Except Fault Lexeme} (holds : p → Suited yes)
    (fails : ¬ p → Suited no) : Suited (if p then yes else no) := by
  split
  · next h => exact holds h
  · next h => exact fails h

theorem length_of_url {name : List Char} (same : Text.sameWord (String.ofList name) "url" = true) :
    name.length = 3 ∧ '\n' ∉ name := by
  have small : name.map Char.toLower = ['u', 'r', 'l'] := by
    have lower : (String.ofList name).toLower = "url" := by
      rw [eq_of_beq same]
      exact Grammar.toLower_eq_self (by decide)
    have chars : ((String.ofList name).map Char.toLower).toList = ['u', 'r', 'l'] := congrArg String.toList lower
    rwa [String.toList_map, String.toList_ofList] at chars
  refine ⟨by simpa using congrArg List.length small, fun linefeed => ?_⟩
  have member := List.mem_map_of_mem (f := Char.toLower) linefeed
  rw [small] at member
  exact absurd member (by decide)

theorem length_trim_le (cs : List Char) : (Text.trim cs).length ≤ cs.length :=
  (Text.trimEnd_isPrefix _).length_le.trans (List.dropWhile_sublist _).length_le

theorem scanUrl_ne_nil {depth : Nat} {cs taken left : List Char} (scanned : scanUrl depth cs = some (taken, left)) :
    taken ≠ [] := by
  cases cs with
  | nil => cases scanned
  | cons c rest =>
    rw [scanUrl] at scanned
    split at scanned
    · cases scanned
      simp
    · split at scanned
      · cases scanned
      · obtain ⟨⟨inner, after⟩, -, same⟩ := Option.map_eq_some_iff.1 scanned
        cases same
        simp

theorem scanUrl_closed {depth : Nat} {cs taken left : List Char} (scanned : scanUrl depth cs = some (taken, left)) :
    [')'] <:+ taken := by
  induction cs generalizing depth taken left with
  | nil => cases scanned
  | cons c rest later =>
    rw [scanUrl] at scanned
    split at scanned
    · next closing =>
      cases scanned
      obtain ⟨rfl, -⟩ := closing
      exact List.suffix_rfl
    · split at scanned
      · cases scanned
      · obtain ⟨⟨inner, after⟩, found, same⟩ := Option.map_eq_some_iff.1 scanned
        cases same
        exact (later found).trans (List.suffix_cons c inner)

theorem wordLexeme_suits (cs : List Char) : (wordLexeme cs).kind.Suits (wordLexeme cs).taken := by
  unfold wordLexeme
  dsimp only
  split
  · split
    · next address =>
      split
      · next taken left scanned =>
        obtain ⟨three, inLine⟩ := length_of_url (Bool.and_eq_true_iff.1 address).1
        refine ⟨(scanName cs).1 ++ ['('], taken, by simp, by simp [three], by simpa using inLine, ?_⟩
        rw [String.toList_ofList]
        calc (Text.trim taken.dropLast).length
          _ ≤ taken.dropLast.length := length_trim_le _
          _ < taken.length := by
            have := List.length_pos_iff.2 (scanUrl_ne_nil scanned)
            rw [List.length_dropLast]
            omega
      · trivial
    · trivial
  · trivial

theorem lexeme_suits (c : Char) (rest : List Char) : Suited (lexeme c rest) := by
  unfold lexeme
  refine .ite (fun _ => trivial) fun _ => .ite (fun _ => ?_) fun _ => .ite (fun quote => ?_) fun _ => ?_
  · split <;> trivial
  · split
    · exact ⟨by simpa using quote, by simp⟩
    · trivial
    · trivial
    · trivial
  refine .ite (fun dollar => ?_) fun _ => ?_
  · obtain rfl := eq_of_beq (Bool.and_eq_true_iff.1 dollar).1
    simp [Suited, named, TokenKind.Suits]
  refine .ite (fun _ => trivial) fun _ => .ite (fun _ => trivial) fun _ => .ite (fun _ => trivial) fun _ => ?_
  refine .ite (fun _ => trivial) fun _ => .ite (fun _ => trivial) fun _ => ?_
  refine .ite (fun _ => wordLexeme_suits _) fun _ => ?_
  dsimp only
  split <;> trivial

theorem scan_suits (steps offset : Nat) (pos : Position) (cs : List Char) :
    ∀ token ∈ (scan steps offset pos cs).tokens, token.kind.Suits token.text.toList := by
  induction steps generalizing offset pos cs with
  | zero => cases cs <;> exact nofun
  | succ steps shorter =>
    cases cs with
    | nil => exact nofun
    | cons c rest =>
      have suited := lexeme_suits c rest
      rw [scan_cons]
      split
      · exact nofun
      · next kind taken left known =>
        rw [known] at suited
        intro token member
        rcases List.mem_cons.1 member with rfl | later
        · rw [String.toList_ofList]
          exact suited
        · exact shorter _ _ _ token later

end Token

/-! Cuts of a text at its interpolations -/

namespace Grammar

theorem splitAtInterpolation_eq {cs before behind : List Char}
    (cut : splitAtInterpolation cs = some (before, behind)) : cs = before ++ '#' :: '{' :: behind := by
  fun_induction splitAtInterpolation cs generalizing before behind with
  | case1 rest =>
    cases cut
    rfl
  | case2 c rest _ later =>
    obtain ⟨⟨front, back⟩, found, same⟩ := Option.map_eq_some_iff.1 cut
    cases same
    exact congrArg (c :: ·) (later found)
  | case3 => cases cut

theorem splitAtBrace_eq {depth : Nat} {quote : Option Char} {cs body rest : List Char}
    (cut : splitAtBrace depth quote cs = some (body, rest)) : cs = body ++ '}' :: rest := by
  fun_induction splitAtBrace depth quote cs generalizing body rest with
  | case1 => cases cut
  | case2 depth q c cs later =>
    obtain ⟨⟨front, back⟩, found, same⟩ := Option.map_eq_some_iff.1 cut
    cases same
    exact congrArg (fun cs => '\\' :: c :: cs) (later found)
  | case3 depth q c cs _ later =>
    obtain ⟨⟨front, back⟩, found, same⟩ := Option.map_eq_some_iff.1 cut
    cases same
    exact congrArg (c :: ·) (later found)
  | case4 depth c cs closes =>
    cases cut
    rw [closes.1]
    rfl
  | case5 depth c cs goes quote =>
    rename_i deeper later
    obtain ⟨⟨front, back⟩, found, same⟩ := Option.map_eq_some_iff.1 cut
    cases same
    exact congrArg (c :: ·) (later found)

end Grammar

end Stylesheet
