import ConfigWeave.Proofs.Expr.Literal
import ConfigWeave.Proofs.Expr.Warnings
import ConfigWeave.Proofs.Number.Double

namespace ConfigWeave.Expr

open Number

/-- What has to hold of the integers that an operation comes upon. -/
inductive Demand where
  /-- A divisor is not zero. -/
  | divisor (b : Int)
  /-- A result is one of 64 bits. -/
  | fits (n : Int)
deriving DecidableEq, Repr

namespace Demand

def Met : Demand → Prop
  | divisor b => b ≠ 0
  | fits n => leastInteger ≤ n ∧ n ≤ greatestInteger

instance : DecidablePred Met
  | divisor b => inferInstanceAs (Decidable (b ≠ 0))
  | fits n => inferInstanceAs (Decidable (leastInteger ≤ n ∧ n ≤ greatestInteger))

/-- The error where the demand is not met. -/
def failure : Demand → ExprError
  | divisor _ => .divisionByZero
  | fits _ => .overflow

end Demand

/-- The operations that keep integers integers. -/
inductive Operation where
  | add
  | subtract
  | multiply
  | quotient
  | remainder
deriving DecidableEq, Repr

namespace Operation

def op : Operation → BinaryOp
  | add => .add
  | subtract => .subtract
  | multiply => .multiply
  | quotient => .floorDivide
  | remainder => .modulo

/-- The result over the unbounded integers. A division is that of Euclid, whose remainder is never negative. -/
def value (a b : Int) : Operation → Int
  | add => a + b
  | subtract => a - b
  | multiply => a * b
  | quotient => a / b
  | remainder => a % b

/-- A remainder demands that the quotient fits, too. It fits itself because the divisor does. -/
def demands (a b : Int) : Operation → List Demand
  | quotient | remainder => [.divisor b, .fits (a / b)]
  | operation => [.fits (operation.value a b)]

theorem euclidean (a : Int) {b : Int} (nonzero : b ≠ 0) :
    a = b * quotient.value a b + remainder.value a b ∧ 0 ≤ remainder.value a b ∧ remainder.value a b < |b| :=
  ⟨(Int.mul_ediv_add_emod a b).symm, Int.emod_nonneg a nonzero, Int.emod_lt_abs a nonzero⟩

end Operation

/-- The computation reports nothing. If all demands are met it gives the integer, otherwise it fails with the error
of the first one that is not. -/
def Exact (demands : List Demand) (n : Int) (x : Eval (Option Value)) : Prop :=
  (∃ i : Int64, i.toInt = n ∧ (∀ demand ∈ demands, demand.Met) ∧ x = pure (some (.int i))) ∨
  ∃ before demand after, demands = before ++ demand :: after ∧ (∀ met ∈ before, met.Met) ∧ ¬demand.Met ∧
    x = .lift (.error demand.failure)

namespace Exact

variable {demands more : List Demand} {n m : Int} {x : Eval (Option Value)} {f : Option Value → Eval (Option Value)}

theorem pure {i : Int64} (value : i.toInt = n) : Exact [] n (Pure.pure (some (.int i))) :=
  .inl ⟨i, value, nofun, rfl⟩

theorem check {demand : Demand} (unmet : ¬demand.Met → x = .lift (.error demand.failure))
    (met : demand.Met → Exact demands n x) : Exact (demand :: demands) n x := by
  by_cases holds : demand.Met
  · obtain ⟨i, value, rest, given⟩ | ⟨before, later, after, split, first, fails, failed⟩ := met holds
    · exact .inl ⟨i, value, List.forall_mem_cons.mpr ⟨holds, rest⟩, given⟩
    · exact .inr ⟨demand :: before, later, after, by rw [split, List.cons_append],
        List.forall_mem_cons.mpr ⟨holds, first⟩, fails, failed⟩
  · exact .inr ⟨[], demand, demands, rfl, nofun, holds, unmet holds⟩

theorem ok_of_met (exact : Exact demands n x) (met : ∀ demand ∈ demands, demand.Met) :
    ∃ i : Int64, i.toInt = n ∧ x = Pure.pure (some (.int i)) := by
  obtain ⟨i, value, _, given⟩ | ⟨before, demand, after, rfl, _, fails, _⟩ := exact
  · exact ⟨i, value, given⟩
  · exact absurd (met demand (List.mem_append_right before List.mem_cons_self)) fails

theorem bind (first : Exact demands n x) (later : ∀ i : Int64, i.toInt = n → Exact more m (f (some (.int i)))) :
    Exact (demands ++ more) m (x >>= f) := by
  obtain ⟨i, value, holds, rfl⟩ | ⟨before, demand, after, rfl, holds, fails, rfl⟩ := first
  · rw [pure_bind]
    obtain ⟨j, result, rest, given⟩ | ⟨before, demand, after, rfl, rest, fails, failed⟩ := later i value
    · exact .inl ⟨j, result, List.forall_mem_append.mpr ⟨holds, rest⟩, given⟩
    · exact .inr ⟨demands ++ before, demand, after, by rw [List.append_assoc],
        List.forall_mem_append.mpr ⟨holds, rest⟩, fails, failed⟩
  · exact .inr ⟨before, demand, after ++ more, by rw [List.append_assoc, List.cons_append], holds, fails, rfl⟩

theorem inRange_of_met (met : (Demand.fits n).Met) : Exact [] n (.lift ((Expr.inRange n).map some)) := by
  have inside : bounded? n = some (Int64.ofInt n) := if_pos met
  rw [Expr.inRange, inside]
  exact .pure (toInt_of_bounded? inside)

theorem inRange (n : Int) : Exact [.fits n] n (.lift ((Expr.inRange n).map some)) := by
  refine check (fun unmet => ?_) inRange_of_met
  have outside : bounded? n = none := if_neg unmet
  rw [Expr.inRange, outside]
  rfl

theorem negate (i : Int64) :
    Exact [.fits (-i.toInt)] (-i.toInt) (do return some (← Traced.lift (Expr.negate (.int i)))) := by
  have negated : (do return some (← Traced.lift (Expr.negate (.int i))) : Eval (Option Value)) =
      .lift ((Expr.inRange (-i.toInt)).map some) := by
    rw [Expr.negate]
    cases Expr.inRange (-i.toInt) <;> rfl
  rw [negated]
  exact .inRange _

end Exact

/-- The zero test of a divisor looks at the double next to it, which is zero for no other integer. -/
theorem applyBinary_divides {op : BinaryOp} (divides : op = .floorDivide ∨ op = .modulo) (i j : Int64) :
    applyBinary op (some (.int i)) (some (.int j)) =
      if j.toInt = 0 then .error .divisionByZero else (integerArithmetic op i.toInt j.toInt).map some := by
  have zero : (Double.ofInt j.toInt).isZero = decide (j.toInt = 0) := by
    have lower := j.le_toInt
    have upper := j.toInt_lt
    rw [Double.isZero, Double.toFloat_ofInt]
    exact ofInt_beq_zero (by omega)
  obtain rfl | rfl := divides
  all_goals
    simp only [applyBinary, arithmetic, toDouble?, Expr.divides, zero, Bool.true_and, decide_eq_true_eq]
    split <;> rfl

theorem fits_emod (a : Int) {j : Int64} (nonzero : j.toInt ≠ 0) : (Demand.fits (a % j.toInt)).Met := by
  have lower := j.le_toInt
  have upper := j.toInt_lt
  have least := Int.emod_nonneg a nonzero
  have below := Int.emod_lt a nonzero
  simp only [Demand.Met, leastInteger, greatestInteger]
  omega

/-- An operation between two integers of 64 bits. -/
theorem exact_applyBinary (operation : Operation) (i j : Int64) :
    Exact (operation.demands i.toInt j.toInt) (operation.value i.toInt j.toInt)
      (.lift (applyBinary operation.op (some (.int i)) (some (.int j)))) := by
  cases operation with
  | add => exact .inRange _
  | subtract => exact .inRange _
  | multiply => exact .inRange _
  | quotient =>
    refine .check (fun zero => ?_) fun nonzero => ?_
    · rw [Operation.op, applyBinary_divides (.inl rfl), if_pos (not_not.mp zero)]
      rfl
    · rw [Operation.op, applyBinary_divides (.inl rfl), if_neg nonzero]
      exact .inRange _
  | remainder =>
    refine .check (fun zero => ?_) fun nonzero => ?_
    · rw [Operation.op, applyBinary_divides (.inr rfl), if_pos (not_not.mp zero)]
      rfl
    · have both : Traced.lift ((integerArithmetic .modulo i.toInt j.toInt).map some) =
          (Traced.lift ((inRange (i.toInt / j.toInt)).map some) : Eval (Option Value)) >>= fun _ =>
            Traced.lift ((inRange (i.toInt % j.toInt)).map some) := by
        rw [integerArithmetic]
        · cases inRange (i.toInt / j.toInt) <;> rfl
        all_goals nofun
      rw [Operation.op, applyBinary_divides (.inr rfl), if_neg nonzero, both]
      exact .bind (.inRange _) fun _ _ => .inRange_of_met (fits_emod i.toInt nonzero)

/-- An expression of integers as it is written. A number comes with its value, a variable with the integer it stands
for. -/
inductive Term where
  | number (spelling : List Char) (value : Int64)
  | var (name : String) (value : Int64)
  | group (inner : Term)
  | plus (operand : Term)
  | minus (operand : Term)
  | operation (kind : Operation) (left right : Term)

namespace Term

/-- The expression that a term is read as. Parentheses and a plus sign leave nothing behind. -/
def expr : Term → Expr
  | number _ i => .lit (.int i)
  | var name _ => .var name
  | group inner => inner.expr
  | plus operand => operand.expr
  | minus operand => .neg operand.expr
  | operation kind left right => .binary kind.op left.expr right.expr

def precedence : Term → Precedence
  | number .. | var .. | group _ => .access
  | plus _ | minus _ => .unary
  | operation kind .. => Operator.precedence (.binary kind.op)

/-- The tokens of a term. An operand that does not hold together without parentheses has some. -/
def tokens : Term → List Token
  | number spelling _ => [.number spelling]
  | var name _ => [.name name.toList]
  | group inner => inParens inner.tokens
  | plus operand => .symbol .plus :: operandTokens Precedence.unary.rank operand.precedence operand.tokens
  | minus operand => .symbol .minus :: operandTokens Precedence.unary.rank operand.precedence operand.tokens
  | operation kind left right =>
    operationTokens (.binary kind.op) left.precedence right.precedence left.tokens right.tokens

/-- The numbers are spelled as such, and the scope has the variables. -/
def Stands (scope : Scope) : Term → Prop
  | number spelling i => number? spelling = some (.int i)
  | var name i => isKeyword name = false ∧ name ∉ literalNames ∧ scope.get? name = some (.int i)
  | group inner | plus inner | minus inner => inner.Stands scope
  | operation _ left right => left.Stands scope ∧ right.Stands scope

/-- The exact value over the unbounded integers. -/
def value : Term → Int
  | number _ i | var _ i => i.toInt
  | group inner => inner.value
  | plus operand => operand.value
  | minus operand => -operand.value
  | operation kind left right => kind.value left.value right.value

/-- The demands of all operations in the order of their evaluation. -/
def demands : Term → List Demand
  | number .. | var .. => []
  | group inner => inner.demands
  | plus operand => operand.demands
  | minus operand => operand.demands ++ [.fits (-operand.value)]
  | operation kind left right => left.demands ++ (right.demands ++ kind.demands left.value right.value)

variable {scope : Scope}

theorem readsAs {t : Term} (stands : t.Stands scope) : ReadsAs t.tokens t.expr t.precedence := by
  induction t with
  | number spelling i =>
    refine readsAs_literal fun stack => ?_
    rw [startOperand, show number? spelling = some (.int i) from stands]
  | var name i => exact readsAs_var stands.1 stands.2.1
  | group inner ih => exact readsAs_inParens (ih stands)
  | plus operand ih => exact readsAs_unary .plus (fun _ => rfl) (ih stands)
  | minus operand ih => exact readsAs_unary .negate (fun _ => rfl) (ih stands)
  | operation kind left right first second =>
    exact readsAs_operation (.binary kind.op) (first stands.1) (second stands.2)

theorem exact_eval {t : Term} (stands : t.Stands scope) : Exact t.demands t.value (eval scope t.expr) := by
  induction t with
  | number spelling i => exact .pure rfl
  | var name i =>
    have bound : eval scope (.var name) = Pure.pure (some (.int i)) := by
      show variableValue scope name = _
      rw [variableValue, stands.2.2]
    exact bound ▸ .pure rfl
  | group inner ih => exact ih stands
  | plus operand ih => exact ih stands
  | minus operand ih =>
    refine .bind (ih stands) fun i given => ?_
    rw [value, ← given]
    exact .negate i
  | operation kind left right first second =>
    refine .bind (first stands.1) fun i leftGiven => .bind (second stands.2) fun j rightGiven => ?_
    rw [value, ← leftGiven, ← rightGiven]
    exact exact_applyBinary kind i j

end Term

/-- The source is read as the tokens, wherever they start. -/
def IsSpelled (source : String) (spelled : List Token) : Prop :=
  (tokens source.toList).map (·.map Prod.fst) = .ok spelled

theorem Spells.isSpelled {source : String} {spelled : List Token} (spells : Spells source.toList spelled) :
    IsSpelled source spelled := by
  obtain ⟨placed, read, same⟩ := spells 0
  rw [IsSpelled, tokens, read, ← same]
  rfl

theorem parse_of_readsAs {source : String} {spelled : List Token} {e : Expr} {p : Precedence}
    (spelling : IsSpelled source spelled) (reads : ReadsAs spelled e p) : parse source = .ok e := by
  obtain ⟨state, read, completes⟩ := reads [] nofun
  unfold IsSpelled at spelling
  cases lexed : tokens source.toList with
  | error offset =>
    rw [lexed] at spelling
    cases spelling
  | ok placed =>
    rw [lexed] at spelling
    cases spelling
    rw [parse, lexed]
    simp only [read.run, bind, Except.bind, completes.finish?]

/-- Arithmetic on integers is exact. A source that is written in integers, variables that stand for integers,
parentheses, signs and operators comes to the value over the unbounded integers, where a division is that of
Euclid. It fails only if an operation has a divisor that is zero or a result that does not fit, and then for the
first of them. -/
theorem evaluate_term {scope : Scope} {source : String} {t : Term} (spelling : IsSpelled source t.tokens)
    (stands : t.Stands scope) :
    Exact t.demands t.value (evaluate scope source) ∧
    ∀ a b : Int, b ≠ 0 → a = b * Operation.quotient.value a b + Operation.remainder.value a b ∧
      0 ≤ Operation.remainder.value a b ∧ Operation.remainder.value a b < |b| := by
  refine ⟨?_, fun a _ => Operation.euclidean a⟩
  rw [evaluate_eq, parse_of_readsAs spelling (Term.readsAs stands)]
  exact Term.exact_eval stands

theorem evaluate_term_remainder :
    Exact [.fits (-7), .divisor 2, .fits (-4), .fits (-1), .divisor (-1), .fits 9223372036854775808, .fits 0] 0
      (evaluate ⟨[("n", .int 10), ("least", .int (-9223372036854775808))]⟩ "(3 - n) % +2 * (least % -1)") := by
  let t : Term := .operation .multiply
    (.operation .remainder (.group (.operation .subtract (.number ['3'] 3) (.var "n" 10)))
      (.plus (.number ['2'] 2)))
    (.group (.operation .remainder (.var "least" (-9223372036854775808)) (.minus (.number ['1'] 1))))
  have spelling : IsSpelled "(3 - n) % +2 * (least % -1)" t.tokens := ok_of_toOption (by decide +kernel)
  have stands : t.Stands ⟨[("n", .int 10), ("least", .int (-9223372036854775808))]⟩ :=
    ⟨⟨⟨rfl, by decide, by decide, rfl⟩, rfl⟩, ⟨by decide, by decide, rfl⟩, rfl⟩
  exact (evaluate_term spelling stands).1

end ConfigWeave.Expr
