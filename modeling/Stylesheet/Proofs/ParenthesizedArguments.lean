import Stylesheet.Proofs.Lockstep

/-! Arguments and expressions in parentheses. What is read as a list of arguments through the closing parenthesis may be
read as the inside of an expression in parentheses, too: arguments by place are the items of a list, and arguments by name
are the entries of a map. A mixture of the two, or a spread, is an expression no more. But wherever both can be read, they
end at the same parenthesis. -/

namespace Stylesheet.Grammar

variable {α β : Type} {tokens tokens' rest left : List Token} {token : Token} {context : Context} {n m : Nat}

/-! An expression that is a single operand -/

/-- What ends an expression is no operator. -/
theorem operatorAt?_of_end {level : Nat} (ends : endsExpression [] tokens = true) : operatorAt? level tokens = none := by
  unfold endsExpression at ends
  unfold operatorAt?
  split at ends
  · next empty => rw [empty]
  · next token rest next =>
    rw [next]
    dsimp only
    split at ends
    · next c kind =>
      simp only [List.contains_iff_mem, List.mem_cons, List.not_mem_nil, or_false] at ends
      rw [kind]
      rcases ends with rfl | rfl | rfl | rfl | rfl | rfl | rfl | rfl | rfl <;> rfl
    · cases ends
    · cases ends

theorem endsExpression_of_end {stops : List String} (ends : endsExpression [] tokens = true) :
    endsExpression stops tokens = true := by
  unfold endsExpression at *
  split at ends
  · rfl
  · split at ends
    · exact ends
    · cases ends
    · cases ends

theorem endsExpression_of_startsMark {c : Char} (starts : startsMark tokens c = true)
    (ends : [',', ';', ')', ']', '}', '{', ':', '!', '.'].contains c = true) : endsExpression [] tokens = true := by
  unfold startsMark at starts
  unfold endsExpression
  cases next : significant tokens with
  | nil => rfl
  | cons token rest =>
    rw [next] at starts
    have starts : token.isMark c = true := starts
    unfold Token.isMark at starts
    split at starts
    · next kind =>
      obtain rfl := eq_of_beq starts
      dsimp only
      rw [kind]
      exact ends
    · cases starts

/-- The first operand of an operation is read first. Nothing else is read where an expression ends behind it. -/
theorem operation_begins {level : Nat} {value : Expr} (first : significant tokens = token :: rest)
    (unsigned : unaryOpOf? token.kind = none) (run : operation n level context tokens = .ok (value, left)) :
    ∃ m value' between, primary m token context tokens = .ok (value', between) ∧
      (endsExpression [] between = true → left = between) := by
  induction n generalizing level value left with
  | zero => cases run
  | succ n shallower =>
    rw [operation] at run
    split at run
    · obtain ⟨operand, middle, parsed, run⟩ := bind_eq_ok run
      obtain ⟨m, value', between, primary, alone⟩ := shallower parsed
      refine ⟨m, value', between, primary, fun ends => ?_⟩
      obtain rfl := alone ends
      cases n with
      | zero => cases run
      | succ n =>
        rw [operationsOn, get_bind_eq, operatorAt?_of_end ends] at run
        cases run
        rfl
    · cases n with
      | zero => cases run
      | succ n =>
        rw [operand, peek_bind_eq, first] at run
        dsimp only [List.head?_cons] at run
        rw [unsigned] at run
        exact ⟨n, value, left, run, fun _ => rfl⟩

theorem spaceList_begins {value : Expr} (first : significant tokens = token :: rest)
    (unsigned : unaryOpOf? token.kind = none) (run : spaceList n context tokens = .ok (value, left)) :
    ∃ m value' between, primary m token context tokens = .ok (value', between) ∧
      (endsExpression [] between = true → left = between) := by
  cases n with
  | zero => cases run
  | succ n =>
    rw [spaceList] at run
    obtain ⟨ended, start, asked, run⟩ := bind_eq_ok run
    cases asked
    split at run
    · cases run
    · obtain ⟨item, middle, parsed, run⟩ := bind_eq_ok run
      obtain ⟨m, value', between, primary, alone⟩ := operation_begins first unsigned parsed
      refine ⟨m, value', between, primary, fun ends => ?_⟩
      obtain rfl := alone ends
      obtain ⟨items, behind, parsed', run⟩ := bind_eq_ok run
      cases run
      cases n with
      | zero => cases parsed'
      | succ n =>
        rw [spaceItems] at parsed'
        obtain ⟨ended', start', asked', run'⟩ := bind_eq_ok parsed'
        cases asked'
        rw [endsExpression_of_end ends] at run'
        cases run'
        rfl

/-- In front of a colon, the name of an argument is an expression. -/
theorem spaceList_keyword {name : String} {value : Expr} (named : keywordAt? tokens = some name)
    (run : spaceList n context tokens = .ok (value, left)) :
    left = (significant tokens).drop 1 ∧ startsMark left ':' = true := by
  unfold keywordAt? at named
  split at named
  · next token rest next =>
    split at named
    · next kind =>
      split at named
      · next colon =>
        obtain ⟨m, value', between, primary, alone⟩ := spaceList_begins next (by rw [kind]; rfl) run
        cases m with
        | zero => cases primary
        | succ m =>
          rw [Grammar.primary, kind] at primary
          have behind : (significant tokens).drop 1 = rest := by rw [next, List.drop_succ_cons, List.drop_zero]
          cases primary
          dsimp only at alone
          rw [behind] at alone ⊢
          obtain rfl := alone (endsExpression_of_startsMark colon rfl)
          exact ⟨rfl, colon⟩
      · cases named
    · cases named
  · cases named

theorem InStep.spaceList_keyword {name : String} {parse : Parse α} {next : Expr → Parse β}
    (named : keywordAt? tokens' = some name)
    (later : ∀ value, startsMark ((significant tokens').drop 1) ':' = true →
      InStep tokens ((significant tokens').drop 1) parse (next value)) :
    InStep tokens tokens' parse (spaceList m >>= next) := by
  intro context context' stops value value' left left' run run'
  obtain ⟨found, between, parsed, run'⟩ := bind_eq_ok run'
  obtain ⟨rfl, colon⟩ := Grammar.spaceList_keyword named parsed
  exact later found colon context context' stops value value' left left' run run'

/-- Behind the last item of a list comes a comma or the parenthesis. -/
theorem InStep.refused_items {c : Char} {parse : Parse α} {atEnd : Parse Bool} {f : List Expr → β}
    (starts : startsMark tokens' c = true) (noComma : c ≠ ',') (noEnd : c ≠ ')') :
    InStep tokens tokens' parse (do let items ← commaItems m atEnd; expectMark ')'; return f items) := by
  cases m with
  | zero => exact .giveUp'
  | succ m =>
    rw [commaItems, bind_assoc]
    refine .right (eatMark_missing (startsMark_unique starts noComma)) ?_
    simp only [Bool.false_eq_true, if_false, pure_bind]
    exact .refused' (startsMark_unique starts noEnd)

/-- Behind an argument comes a comma or the parenthesis. -/
theorem InStep.refused_arguments {c : Char} {parse' : Parse β} {f : Arguments Expr → α}
    (starts : startsMark tokens c = true) (noComma : c ≠ ',') (noEnd : c ≠ ')') :
    InStep tokens tokens' (do return f (← moreArguments n)) parse' := by
  cases n with
  | zero => exact .giveUp
  | succ n =>
    rw [moreArguments, bind_assoc]
    refine .left (eatMark_missing (startsMark_unique starts noComma)) ?_
    simp only [Bool.false_eq_true, if_false, bind_assoc]
    exact .refused (startsMark_unique starts noEnd)

/-- No argument behind the last comma. -/
theorem inStep_noArgument {value : β} (same : SameKinds tokens tokens') (closes : startsMark tokens' ')' = true) :
    InStep tokens tokens' (argumentList (n + 1)) (do expectMark ')'; return value) := by
  rw [argumentList]
  refine .left (eatMark_taken ((same.startsMark ')').trans closes)) (.right (expectMark_taken closes) ?_)
  exact .pure (same.significant.drop 1)

/-- One argument, and one expression: the name of an argument is an expression in front of a colon, and the value is
one, whatever follows. -/
theorem inStep_argument {next' : Expr → Parse β} (same : SameKinds tokens tokens')
    (goes : startsMark tokens' ')' = false)
    (named : ∀ (f : Expr → Arguments Expr → Arguments Expr) key {left left'}, SameKinds left left' →
      startsMark left' ':' = true →
      InStep left left' (do expectMark ':'; let value ← spaceList n; let more ← moreArguments n; return f value more)
        (next' key))
    (placed : ∀ (f : Arguments Expr → Arguments Expr) item {left left'}, SameKinds left left' →
      InStep left left' (do return f (← moreArguments n)) (next' item))
    (spread : ∀ (parse : Parse (Arguments Expr)) item {left left'}, startsMark left' '.' = true →
      InStep left left' parse (next' item)) :
    InStep tokens tokens' (argumentList (n + 1)) (spaceList m >>= next') := by
  rw [argumentList]
  refine .left (eatMark_missing ((same.startsMark ')').trans goes)) ?_
  simp only [Bool.false_eq_true, if_false]
  refine .left get_bind_eq ?_
  rw [same.keywordAt?]
  cases key : keywordAt? tokens' with
  | some name =>
    refine .spaceList_keyword key fun value colon => .left advance_bind_eq ?_
    exact named (fun value more => { more with keyword := (name, value) :: more.keyword }) value
      (same.significant.drop 1) colon
  | none =>
    refine ((parallelExpressions n m).spaceList.inStep same).bind fun value item left left' same => ?_
    cases points : startsSpread left with
    | true => exact spread _ item (startsMark_of_startsSpread (same.startsSpread.symm.trans points))
    | false =>
      refine .left (eatSpread_missing points) ?_
      exact placed (fun more => { more with positional := value :: more.positional }) item same

/-- Arguments and the items of a list that are written alike come to the same parenthesis: by induction on the
arguments, of which each is one item. -/
theorem parallel_items (n m : Nat) (f : List Expr → β) :
    Parallel (moreArguments n) (do let items ← commaItems m (atMark ')'); expectMark ')'; return f items) := by
  induction n using Nat.strong_induction_on generalizing m f with
  | _ n fewer =>
  cases n with
  | zero => exact .giveUp
  | succ n =>
    cases m with
    | zero => exact .giveUp'
    | succ m =>
      rw [moreArguments, commaItems, bind_assoc]
      apply Parallel.eatMark_bind
      intro more
      cases more with
      | false => exact (parallel_expectMark ')').bind fun _ _ => .pure
      | true =>
        cases n with
        | zero => exact .giveUp
        | succ n =>
          simp only [if_true, bind_assoc]
          refine ⟨fun {tokens tokens'} same => .right atMark_bind_eq ?_⟩
          cases closes : startsMark tokens' ')' with
          | true =>
            simp only [if_true, pure_bind]
            exact inStep_noArgument same closes
          | false =>
            simp only [Bool.false_eq_true, if_false, bind_assoc, pure_bind]
            refine inStep_argument same closes (fun _ _ _ _ _ colon => ?_) (fun _ item _ _ same => ?_)
              fun _ _ _ _ point => ?_
            · exact .refused_items colon (by decide) (by decide)
            · exact (fewer n (by omega) m (fun items => f (item :: items))).return_left.inStep same
            · exact .refused_items point (by decide) (by decide)

/-- Arguments and the entries of a map that are written alike come to the same parenthesis. -/
theorem parallel_entries (n m : Nat) (f : List (Expr × Expr) → β) :
    Parallel (moreArguments n) (do let entries ← mapEntries m; expectMark ')'; return f entries) := by
  induction n using Nat.strong_induction_on generalizing m f with
  | _ n fewer =>
  cases n with
  | zero => exact .giveUp
  | succ n =>
    cases m with
    | zero => exact .giveUp'
    | succ m =>
      rw [moreArguments, mapEntries, bind_assoc]
      apply Parallel.eatMark_bind
      intro more
      cases more with
      | false => exact (parallel_expectMark ')').bind fun _ _ => .pure
      | true =>
        cases n with
        | zero => exact .giveUp
        | succ n =>
          simp only [if_true, bind_assoc]
          refine ⟨fun {tokens tokens'} same => .right atMark_bind_eq ?_⟩
          cases closes : startsMark tokens' ')' with
          | true =>
            simp only [if_true, pure_bind]
            exact inStep_noArgument same closes
          | false =>
            simp only [Bool.false_eq_true, if_false, bind_assoc, pure_bind]
            refine inStep_argument same closes (fun _ key left left' same _ => ?_) (fun _ item left left' same => ?_)
              fun _ _ _ _ point => ?_
            · refine Parallel.inStep ?_ same
              apply (parallel_expectMark ':').bind
              intro _ _
              apply (parallelExpressions n m).spaceList.bind
              intro value value'
              exact (fewer n (by omega) m (fun entries => f ((key, value') :: entries))).return_left
            · cases colon : startsMark left' ':' with
              | true => exact .refused_arguments ((same.startsMark ':').trans colon) (by decide) (by decide)
              | false => exact .refused' colon
            · exact .refused' (startsMark_unique point (by decide))

/-- Behind the last argument comes the parenthesis. -/
theorem parallel_last (n : Nat) (value : β) : Parallel (moreArguments n) (do expectMark ')'; return value) := by
  cases n with
  | zero => exact .giveUp
  | succ n =>
    refine ⟨fun {tokens tokens'} same => ?_⟩
    cases closes : startsMark tokens' ')' with
    | false => exact .refused' closes
    | true =>
      rw [moreArguments]
      refine .left (eatMark_missing ((same.startsMark ',').trans (startsMark_unique closes (by decide)))) ?_
      exact ((parallel_expectMark ')').bind fun _ _ => .pure).inStep same

/-- Arguments, and the same text read as an expression in parentheses, come to the same parenthesis. -/
theorem parallel_arguments_parenthesized (n m : Nat) (pos : Position) :
    Parallel (argumentList n) (parenthesized m pos) := by
  cases n with
  | zero => exact .giveUp
  | succ n =>
    cases m with
    | zero => exact .giveUp'
    | succ m =>
      refine ⟨fun {tokens tokens'} same => ?_⟩
      rw [parenthesized]
      cases closes : startsMark tokens' ')' with
      | true =>
        rw [argumentList]
        refine .left (eatMark_taken ((same.startsMark ')').trans closes)) (.right (eatMark_taken closes) ?_)
        exact .pure (same.significant.drop 1)
      | false =>
        refine .right (eatMark_missing closes) ?_
        simp only [Bool.false_eq_true, if_false, pure_bind]
        refine inStep_argument same closes (fun _ key left left' same colon => ?_) (fun _ item left left' same => ?_)
          fun _ _ left left' point => ?_
        · refine .right (eatMark_taken colon) ?_
          simp only [if_true]
          have taken : startsMark left ':' = true := (same.startsMark ':').trans colon
          refine .left (expectMark_taken taken) (Parallel.inStep ?_ (same.significant.drop 1))
          apply (parallelExpressions n m).spaceList.bind
          intro value value'
          exact (parallel_entries n m fun entries => Expr.map ((key, value') :: entries) pos).return_left
        · cases colon : startsMark left' ':' with
          | true => exact .refused_arguments ((same.startsMark ':').trans colon) (by decide) (by decide)
          | false =>
            refine .right (eatMark_missing colon) ?_
            simp only [Bool.false_eq_true, if_false]
            refine .right atMark_bind_eq ?_
            cases startsMark left' ',' with
            | true =>
              refine Parallel.inStep (.return_left ?_) same
              exact parallel_items n m fun items => Expr.paren (.list (item :: items) .comma false)
            | false => exact (parallel_last n item.paren).return_left.inStep same
        · refine .right (eatMark_missing (startsMark_unique point (by decide))) ?_
          simp only [Bool.false_eq_true, if_false]
          refine .right atMark_bind_eq ?_
          rw [startsMark_unique point (by decide)]
          exact .refused' (startsMark_unique point (by decide))

end Stylesheet.Grammar
