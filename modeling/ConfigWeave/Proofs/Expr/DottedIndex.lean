import ConfigWeave.Proofs.Expr.Arithmetic
import ConfigWeave.Proofs.Numeral

namespace ConfigWeave.Expr

/-- An index as it is written behind a dot or in brackets: decimal digits of an integer of 64 bits. -/
structure Subscript where
  digits : List Char
  digits_ne_nil : digits ≠ []
  isDigit : ∀ c ∈ digits, c.isDigit = true
  bounded : digitsValue 10 digits < 2 ^ 63

namespace Subscript

def value (i : Subscript) : Int64 :=
  Int64.ofNat (digitsValue 10 i.digits)

def dotted (subscripts : List Subscript) : List Char :=
  subscripts.flatMap fun i => '.' :: i.digits

def bracketed (subscripts : List Subscript) : List Char :=
  subscripts.flatMap fun i => '[' :: i.digits ++ [']']

/-- A number takes the point and the digits behind it, so behind a dot two subscripts are one number. -/
def dottedTokens : List Subscript → List Token
  | [] => []
  | [i] => [.symbol .dot, .number i.digits]
  | i :: j :: rest => .symbol .dot :: .number (i.digits ++ '.' :: j.digits) :: dottedTokens rest

def bracketedTokens (subscripts : List Subscript) : List Token :=
  subscripts.flatMap fun i => [.symbol .bracketOpen, .number i.digits, .symbol .bracketClose]

/-- The expression that indexes by one subscript after the other. -/
def indexed (target : Expr) (subscripts : List Subscript) : Expr :=
  subscripts.foldl (fun e i => .index e (.lit (.int i.value))) target

theorem integer?_digits (i : Subscript) : Number.integer? 10 i.digits = some i.value := by
  have digit : ∀ c ∈ i.digits, digitValue c < 10 := fun c member => isDigit_iff.mp (i.isDigit c member)
  have leads : Sign.absent.Leads i.digits :=
    Sign.absent.leads_of_digits fun c member => (digit c member).trans (by decide)
  refine (Number.integer?_eq_some_iff (by decide) (by decide) leads).mpr ⟨i.digits_ne_nil, digit, ?_⟩
  have small := i.bounded
  rw [value, Int64.toInt_ofNat_of_lt small]
  simp [Sign.factor]

theorem isProper (i : Subscript) : (Token.number i.digits).IsProper :=
  ⟨i.digits_ne_nil, i.isDigit⟩

theorem exists_cons (i : Subscript) :
    ∃ c cs, i.digits = c :: cs ∧ c.isDigit = true ∧ ∀ d ∈ cs, d.isDigit = true := by
  obtain ⟨c, cs, split⟩ := List.exists_cons_of_ne_nil i.digits_ne_nil
  exact ⟨c, cs, split, List.forall_mem_cons.mp (split ▸ i.isDigit)⟩

/-- What follows a number with a point belongs neither to its digits nor to an exponent. -/
def Ends (rest : List Char) : Prop :=
  ∀ c ∈ rest.head?, isNumeral c = false ∧ c ≠ 'e' ∧ c ≠ 'E'

theorem fractionLength_digits (i : Subscript) {rest : List Char} (ends : Ends rest) :
    fractionLength ('.' :: (i.digits ++ rest)) = i.digits.length + 1 := by
  obtain ⟨c, cs, split, first, others⟩ := i.exists_cons
  rw [split]
  have taken : (cs ++ rest).takeWhile isNumeral = cs :=
    takeWhile_append_of_stop (fun d member => by simp [isNumeral, others d member]) fun d next => (ends d next).1
  have length : numeralLength (c :: cs ++ rest) = cs.length + 1 := by
    rw [List.cons_append, numeralLength, if_pos first, taken]
  rw [fractionLength, length]
  rfl

/-- Two subscripts with a point between them are read as one number. -/
theorem spells_pair (i j : Subscript) {rest : List Char} {spelled : List Token} (ends : Ends rest)
    (later : Spells rest spelled) :
    Spells (i.digits ++ '.' :: j.digits ++ rest) (.number (i.digits ++ '.' :: j.digits) :: spelled) := by
  obtain ⟨c, cs, split, first, others⟩ := i.exists_cons
  rw [split]
  have fraction := j.fractionLength_digits ends
  have behind : ('.' :: (j.digits ++ rest)).drop (j.digits.length + 1) = rest := by
    rw [List.drop_succ_cons, List.drop_left]
  have length : numberLength (cs ++ '.' :: j.digits ++ rest) = (cs ++ '.' :: j.digits).length := by
    rw [List.append_assoc, List.cons_append, numberLength_append others (by rintro d ⟨⟩; decide), fraction, behind,
      exponentLength_eq_zero fun d next => (ends d next).2, List.length_append, List.length_cons]
    rfl
  have found : tokenAt? c (cs ++ '.' :: j.digits ++ rest) =
      some (.number (c :: (cs ++ '.' :: j.digits)), (cs ++ '.' :: j.digits).length) := by
    simp only [tokenAt?, if_pos first, length, List.take_left]
  exact .cons (isBlank_eq_false (by decide) first) found later

theorem head?_flatMap (subscripts : List Subscript) (lead : Char) (text : Subscript → List Char) :
    ∀ c ∈ (subscripts.flatMap fun i => lead :: text i).head?, c = lead := by
  cases subscripts with
  | nil => nofun
  | cons i rest =>
    rintro c ⟨⟩
    rfl

theorem head?_dotted (subscripts : List Subscript) : ∀ c ∈ (dotted subscripts).head?, c = '.' :=
  head?_flatMap subscripts '.' digits

theorem head?_bracketed (subscripts : List Subscript) : ∀ c ∈ (bracketed subscripts).head?, c = '[' :=
  head?_flatMap subscripts '[' fun i => i.digits ++ [']']

theorem ends_dotted (subscripts : List Subscript) : Ends (dotted subscripts) := by
  intro c first
  rw [head?_dotted subscripts c first]
  decide

theorem spells_dotted (subscripts : List Subscript) : Spells (dotted subscripts) (dottedTokens subscripts) := by
  fun_induction dottedTokens subscripts with
  | case1 => exact .nil
  | case2 i =>
    have text : dotted [i] = (Token.symbol .dot).spelling ++ (Token.number i.digits).spelling :=
      congrArg ('.' :: ·) (List.append_nil _)
    rw [text]
    exact .spelling trivial nofun (.single i.isProper)
  | case3 i j rest ih =>
    have text : dotted (i :: j :: rest) =
        (Token.symbol .dot).spelling ++ (i.digits ++ '.' :: j.digits ++ dotted rest) := by
      simp [dotted, Token.spelling, Symbol.spelling]
    rw [text]
    exact .spelling trivial nofun (spells_pair i j (ends_dotted rest) ih)

theorem spells_bracketed (subscripts : List Subscript) :
    Spells (bracketed subscripts) (bracketedTokens subscripts) := by
  induction subscripts with
  | nil => exact .nil
  | cons i rest ih =>
    have text : bracketed (i :: rest) = (Token.symbol .bracketOpen).spelling ++
        ((Token.number i.digits).spelling ++ ((Token.symbol .bracketClose).spelling ++ bracketed rest)) := by
      simp [bracketed, Token.spelling, Symbol.spelling]
    rw [text]
    have stops : (Token.number i.digits).Stops ((Token.symbol .bracketClose).spelling ++ bracketed rest) :=
      stops_cons (by decide) (by decide) (by decide) _ _
    exact .spelling trivial nofun (.spelling i.isProper stops (.spelling trivial nofun ih))

theorem ne_point (i : Subscript) : ∀ c ∈ i.digits, (c == '.') = false := by
  intro c member
  rw [beq_eq_false_iff_ne]
  rintro rfl
  exact not_mem_of_isDigit i.isDigit (by decide) member

theorem indexes?_single (i : Subscript) : indexes? i.digits = some [i.value] := by
  have whole := List.splitOnP_eq_singleton i.ne_point
  simp [indexes?, whole, filter_underscore i.isDigit, i.integer?_digits]

theorem indexes?_pair (i j : Subscript) : indexes? (i.digits ++ '.' :: j.digits) = some [i.value, j.value] := by
  have halves : (i.digits ++ '.' :: j.digits).splitOnP (· == '.') = [i.digits, j.digits] := by
    rw [List.splitOnP_append_cons i.digits j.digits rfl, List.splitOnP_eq_singleton i.ne_point,
      List.splitOnP_eq_singleton j.ne_point]
    rfl
  simp [indexes?, halves, filter_underscore i.isDigit, filter_underscore j.isDigit, integer?_digits]

end Subscript

/-- A dot and a number behind an operand index it by the integers that the number is made of. -/
theorem readsAs_dotted {tokens : List Token} {e : Expr} (target : ReadsAs tokens e .access) {spelling : List Char}
    {indexes : List Int64} (read : indexes? spelling = some indexes) :
    ReadsAs (tokens ++ [.symbol .dot, .number spelling]) (indexes.foldl (fun e i => .index e (.lit (.int i))) e)
      .access := by
  intro stack admits
  obtain ⟨middle, reads, completes⟩ := target stack admits
  have stepped : step (.dot stack e) (.number spelling) =
      .ok (.after stack (indexes.foldl (fun e i => .index e (.lit (.int i))) e) true) := by
    rw [step, read]
  exact ⟨_, reads.append (.cons completes.step_dot (.single stepped)),
    .of_rests (rests_after stack _ true) fun _ => rfl⟩

namespace Subscript

variable {tokens : List Token} {e : Expr}

theorem readsAs_dottedTokens (target : ReadsAs tokens e .access) (subscripts : List Subscript) :
    ReadsAs (tokens ++ dottedTokens subscripts) (indexed e subscripts) .access := by
  -- Two subscripts are one step, behind which what they index is the operand in front of the rest.
  fun_induction dottedTokens subscripts generalizing tokens e with
  | case1 =>
    rw [List.append_nil]
    exact target
  | case2 i => exact readsAs_dotted target i.indexes?_single
  | case3 i j rest ih =>
    have behind := ih (readsAs_dotted target (indexes?_pair i j))
    rwa [List.append_assoc] at behind

theorem readsAs_bracketedTokens (target : ReadsAs tokens e .access) (subscripts : List Subscript) :
    ReadsAs (tokens ++ bracketedTokens subscripts) (indexed e subscripts) .access := by
  induction subscripts generalizing tokens e with
  | nil =>
    rw [bracketedTokens, List.flatMap_nil, List.append_nil]
    exact target
  | cons i rest ih =>
    have number : ReadsAs [.number i.digits] (.lit (.int i.value)) .access := readsAs_literal fun stack => by
      rw [startOperand, number?_digits i.isDigit i.integer?_digits]
    have behind := ih (readsAs_index target number)
    have text : tokens ++ bracketedTokens (i :: rest) = operandTokens Precedence.access.rank .access tokens ++
        .symbol .bracketOpen :: [.number i.digits] ++ [.symbol .bracketClose] ++ bracketedTokens rest := by
      simp [bracketedTokens, operandTokens]
    rw [text]
    exact behind

end Subscript

theorem isSpelled_name {name : String} (identifier : isIdentifier name.toList = true) {rest : List Char}
    {spelled : List Token} (stop : ∀ c ∈ rest.head?, continuesName c = false) (later : Spells rest spelled) :
    IsSpelled (name ++ String.ofList rest) (.name name.toList :: spelled) := by
  have whole : Spells ((Token.name name.toList).spelling ++ rest) (.name name.toList :: spelled) :=
    .spelling identifier stop later
  refine Spells.isSpelled ?_
  rw [String.toList_append, String.toList_ofList]
  exact whole

/-- Behind a variable, indexes in decimal digits may be written with dots or in brackets, whatever their number.
That two of them with a point between them are read as one number makes no difference. -/
theorem parse_subscripts {name : String} (identifier : isIdentifier name.toList = true)
    (noKeyword : isKeyword name = false) (noLiteral : name ∉ literalNames) (subscripts : List Subscript) :
    let dotted := name ++ String.ofList (Subscript.dotted subscripts)
    let bracketed := name ++ String.ofList (Subscript.bracketed subscripts)
    let e := Subscript.indexed (.var name) subscripts
    IsSpelled dotted (.name name.toList :: Subscript.dottedTokens subscripts) ∧
      parse dotted = .ok e ∧ parse bracketed = .ok e ∧
      ∀ scope, evaluate scope dotted = evaluate scope bracketed := by
  intro dotted bracketed e
  have target : ReadsAs [.name name.toList] (.var name) .access := readsAs_var noKeyword noLiteral
  have spelledDotted : IsSpelled dotted (.name name.toList :: Subscript.dottedTokens subscripts) := by
    refine isSpelled_name identifier (fun c first => ?_) (Subscript.spells_dotted subscripts)
    rw [Subscript.head?_dotted subscripts c first]
    decide
  have spelledBracketed : IsSpelled bracketed (.name name.toList :: Subscript.bracketedTokens subscripts) := by
    refine isSpelled_name identifier (fun c first => ?_) (Subscript.spells_bracketed subscripts)
    rw [Subscript.head?_bracketed subscripts c first]
    decide
  have parsedDotted := parse_of_readsAs spelledDotted (Subscript.readsAs_dottedTokens target subscripts)
  have parsedBracketed := parse_of_readsAs spelledBracketed (Subscript.readsAs_bracketedTokens target subscripts)
  refine ⟨spelledDotted, parsedDotted, parsedBracketed, fun scope => ?_⟩
  rw [evaluate_eq, evaluate_eq, parsedDotted, parsedBracketed]

theorem parse_subscripts_three :
    let e : Expr := .index (.index (.index (.var "rows") (.lit (.int 0))) (.lit (.int 12))) (.lit (.int 7))
    isIdentifier "rows".toList = true ∧ isKeyword "rows" = false ∧ "rows" ∉ literalNames ∧
      IsSpelled "rows.0.12.007"
        [.name "rows".toList, .symbol .dot, .number "0.12".toList, .symbol .dot, .number "007".toList] ∧
      parse "rows.0.12.007" = .ok e ∧ parse "rows[0][12][007]" = .ok e ∧
      ∀ scope, evaluate scope "rows.0.12.007" = evaluate scope "rows[0][12][007]" := by
  intro e
  have identifier : isIdentifier "rows".toList = true := by decide
  have noKeyword : isKeyword "rows" = false := by decide
  have noLiteral : "rows" ∉ literalNames := by decide
  let subscripts : List Subscript := [⟨['0'], by decide, by simp, by decide⟩,
    ⟨['1', '2'], by decide, by simp, by decide⟩, ⟨['0', '0', '7'], by decide, by simp, by decide⟩]
  exact ⟨identifier, noKeyword, noLiteral, parse_subscripts identifier noKeyword noLiteral subscripts⟩

end ConfigWeave.Expr
