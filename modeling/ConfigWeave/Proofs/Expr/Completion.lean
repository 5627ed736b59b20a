import ConfigWeave.Expr.Print

namespace ConfigWeave.Expr

/-- The tokens take the parse from one state to another. -/
def Reads (state : State) (tokens : List Token) (next : State) : Prop :=
  tokens.foldlM step state = .ok next

theorem Reads.nil (state : State) : Reads state [] state :=
  rfl

theorem Reads.cons {state middle next : State} {token : Token} {rest : List Token}
    (stepped : step state token = .ok middle) (read : Reads middle rest next) :
    Reads state (token :: rest) next := by
  rw [Reads, List.foldlM_cons, stepped]
  exact read

theorem Reads.append {state middle next : State} {tokens more : List Token} (first : Reads state tokens middle)
    (second : Reads middle more next) : Reads state (tokens ++ more) next := by
  rw [Reads, List.foldlM_append, show tokens.foldlM step state = .ok middle from first]
  exact second

theorem Reads.single {state next : State} {token : Token} (stepped : step state token = .ok next) :
    Reads state [token] next :=
  .cons stepped (.nil next)

theorem Reads.uncons {state next : State} {token : Token} {rest : List Token}
    (read : Reads state (token :: rest) next) :
    ∃ middle, step state token = .ok middle ∧ Reads middle rest next := by
  rw [Reads, List.foldlM_cons] at read
  cases stepped : step state token with
  | error misfit =>
    rw [stepped] at read
    cases read
  | ok middle =>
    rw [stepped] at read
    exact ⟨middle, rfl, read⟩

theorem Reads.run {state next : State} {tokens : List (Token × Nat)}
    (read : Reads state (tokens.map Prod.fst) next) :
    run state tokens = .ok next := by
  induction tokens generalizing state with
  | nil =>
    cases read
    rfl
  | cons entry rest ih =>
    obtain ⟨middle, stepped, later⟩ := read.uncons
    simp only [Expr.run, stepped]
    exact ih later

theorem Operator.power_eq (op : Operator) : op.power = 2 * op.precedence.rank := by
  cases op with
  | binary op => cases op <;> rfl
  | _ => rfl

def UnaryOperator.precedence : UnaryOperator → Precedence
  | .not => .not
  | .negate | .plus => .unary

theorem UnaryOperator.power_eq (op : UnaryOperator) : op.power = 2 * op.precedence.rank := by
  cases op <;> rfl

/-- An operand of at least this rank is not torn apart by the part of an expression that waits for it. -/
def Frame.Admits (rank : Nat) : Frame → Prop
  | .right op _ => op.precedence.rank < rank
  | .operand op => op.precedence.rank ≤ rank
  | .condition _ => 0 < rank
  | _ => True

def Stack.Admits (stack : Stack) (rank : Nat) : Prop :=
  ∀ frame ∈ stack.head?, frame.Admits rank

theorem Stack.Admits.mono {stack : Stack} {least rank : Nat} (admits : Stack.Admits stack least)
    (above : least ≤ rank) :
    Stack.Admits stack rank := by
  intro frame top
  have here := admits frame top
  cases frame with
  | right op left => exact Nat.lt_of_lt_of_le here above
  | operand op => exact Nat.le_trans here above
  | condition body => exact Nat.lt_of_lt_of_le here above
  | _ => trivial

/-- Operators of the rank that a stack admits leave it as it is. -/
theorem close_of_admits {stack : Stack} {rank power : Nat} (admits : Stack.Admits stack rank)
    (above : 2 * rank ≤ power) (e : Expr) : close power stack e = (stack, e) := by
  cases stack with
  | nil => rfl
  | cons frame stack =>
    have here := admits frame rfl
    cases frame with
    | right op left =>
      have below := op.power_eq
      rw [close, if_pos (by simp only [Frame.Admits] at here; omega)]
    | operand op =>
      have below := op.power_eq
      rw [close, if_pos (by simp only [Frame.Admits] at here; omega)]
    | _ => rfl

/-- Operators of a power below this one close an expression. Only brackets close a conditional, and no operator has
the power of `not` or of a sign. -/
def Precedence.limit : Precedence → Nat
  | .conditional => 0
  | .not => 6
  | .unary => 16
  | p => 2 * p.rank + 1

theorem Precedence.limit_mono {p q : Precedence} (below : p.rank ≤ q.rank) : p.limit ≤ q.limit := by
  cases p <;> cases q <;> simp_all [rank, limit]

theorem Operator.limit_eq (op : Operator) : op.precedence.limit = op.power + 1 := by
  cases op with
  | binary op => cases op <;> rfl
  | _ => rfl

theorem UnaryOperator.limit_eq (op : UnaryOperator) : op.precedence.limit = op.power := by
  cases op <;> rfl

theorem Operator.rank_lt (op : Operator) : op.precedence.rank < Precedence.unary.rank := by
  cases op with
  | binary op => cases op <;> decide
  | _ => decide

/-- A state in which an operand is complete, whether it is clear already that no call follows or not. -/
structure Rests (state : State) (around : Stack) (e : Expr) (accessible : Bool) : Prop where
  step_eq : ∀ token, token ≠ .symbol .parenOpen → step state token = follow around e accessible token
  finish?_eq : state.finish? = State.finish?.whole around e

theorem rests_after (stack : Stack) (e : Expr) (accessible : Bool) :
    Rests (.after stack e accessible) stack e accessible :=
  ⟨fun _ _ => rfl, rfl⟩

theorem rests_attribute (stack : Stack) (target : Expr) (name : String) :
    Rests (.attribute stack target name) stack (.attr target name) true := by
  refine ⟨fun token other => ?_, rfl⟩
  simp only [step]

theorem rests_filter (stack : Stack) (input : Expr) (name : String) :
    Rests (.filter stack input name) stack (.call name input []) false := by
  refine ⟨fun token other => ?_, rfl⟩
  simp only [step]

/-- A state in which an expression is complete, as far as tokens can tell that bind no tighter than it holds. -/
inductive Completes (state : State) (stack : Stack) (e : Expr) (p : Precedence) : Prop
  | intro {around : Stack} {last : Expr} {accessible : Bool} (rests : Rests state around last accessible)
      (all : closeAll around last = closeAll stack e)
      (some : ∀ power < p.limit, close power around last = close power stack e)
      (filter : Precedence.filter.rank ≤ p.rank → around = stack ∧ last = e)
      (access : Precedence.access.rank ≤ p.rank → accessible = true)

namespace Completes

variable {state : State} {stack : Stack} {e : Expr} {p : Precedence}

theorem of_rests {accessible : Bool} (rests : Rests state stack e accessible)
    (access : Precedence.access.rank ≤ p.rank → accessible = true) : Completes state stack e p :=
  .intro rests rfl (fun _ _ => rfl) (fun _ => ⟨rfl, rfl⟩) access

theorem of_loose {around : Stack} {last : Expr} {accessible : Bool} (loose : p.rank < Precedence.filter.rank)
    (rests : Rests state around last accessible) (all : closeAll around last = closeAll stack e)
    (some : ∀ power < p.limit, close power around last = close power stack e) : Completes state stack e p :=
  .intro rests all some (fun above => absurd loose (Nat.not_lt.mpr above))
    (fun above => absurd loose (Nat.not_lt.mpr (Nat.le_trans (by decide) above)))

theorem mono {q : Precedence} (completes : Completes state stack e q) (below : p.rank ≤ q.rank) :
    Completes state stack e p := by
  obtain ⟨rests, all, some, filter, access⟩ := completes
  exact .intro rests all (fun power small => some power (Nat.lt_of_lt_of_le small (Precedence.limit_mono below)))
    (fun above => filter (Nat.le_trans above below)) (fun above => access (Nat.le_trans above below))

theorem step_operator (completes : Completes state stack e p) {token : Token} {op : Operator}
    (found : operator? token = some op) (small : op.power < p.limit) (stays : close op.power stack e = (stack, e)) :
    step state token = .ok (.start (.right op e :: stack)) := by
  obtain ⟨rests, _, some, _, _⟩ := completes
  have other : token ≠ .symbol .parenOpen := by
    rintro rfl
    cases found
  simp only [rests.step_eq token other, follow, found, takeOperator, some _ small, stays]

theorem step_bracket (completes : Completes state stack e p) {s : Symbol}
    (bracket : s ∈ [.parenClose, .bracketClose, .braceClose, .comma, .colon]) :
    step state (.symbol s) = closeBracket stack e s := by
  obtain ⟨rests, all, _, _, _⟩ := completes
  unfold closeBracket
  rw [← all]
  cases s with
  | parenClose | bracketClose | braceClose | comma | colon => exact rests.step_eq _ nofun
  | _ => exact absurd bracket (by decide)

theorem finish? (completes : Completes state [] e p) : state.finish? = some e := by
  obtain ⟨rests, all, _, _, _⟩ := completes
  simp only [rests.finish?_eq, State.finish?.whole, all, closeAll]

theorem step_dot (completes : Completes state stack e .access) :
    step state (.symbol .dot) = .ok (.dot stack e) := by
  obtain ⟨rests, _, _, filter, access⟩ := completes
  obtain ⟨rfl, rfl⟩ := filter (by decide)
  obtain rfl := access (by decide)
  exact rests.step_eq _ nofun

theorem step_index (completes : Completes state stack e .access) :
    step state (.symbol .bracketOpen) = .ok (.start (.index e :: stack)) := by
  obtain ⟨rests, _, _, filter, access⟩ := completes
  obtain ⟨rfl, rfl⟩ := filter (by decide)
  obtain rfl := access (by decide)
  exact rests.step_eq _ nofun

theorem step_bar (completes : Completes state stack e .filter) :
    step state (.symbol .bar) = .ok (.pipe stack e) := by
  obtain ⟨rests, _, _, filter, _⟩ := completes
  obtain ⟨rfl, rfl⟩ := filter (by decide)
  exact rests.step_eq _ nofun

theorem step_if (completes : Completes state stack e .or) (admits : Stack.Admits stack 0) :
    step state (.name "if".toList) = .ok (.start (.condition e :: stack)) := by
  obtain ⟨rests, _, some, _, _⟩ := completes
  have stays := (some 0 (by decide)).trans (close_of_admits admits (Nat.le_refl 0) e)
  rw [rests.step_eq _ (by simp)]
  cases stack with
  | nil => simp [follow, operator?, stays]
  | cons frame stack =>
    cases frame with
    | condition body => exact absurd (admits _ rfl) (Nat.lt_irrefl 0)
    | _ => simp [follow, operator?, stays]

theorem step_else {body : Expr} (completes : Completes state (.condition body :: stack) e .or) :
    step state (.name "else".toList) = .ok (.start (.otherwise body e :: stack)) := by
  obtain ⟨rests, _, some, _, _⟩ := completes
  have stays := some 0 (by decide)
  rw [rests.step_eq _ (by simp)]
  simp [follow, operator?, stays, close]

/-- The tokens of an operator lead to its operand on the right. -/
theorem reads_operator (completes : Completes state stack e p) {op : Operator} (small : op.power < p.limit)
    (stays : close op.power stack e = (stack, e)) : Reads state op.tokens (.start (.right op e :: stack)) := by
  cases op with
  | or => exact .single (completes.step_operator rfl small stays)
  | and => exact .single (completes.step_operator rfl small stays)
  | binary op =>
    cases op with
    | notMember =>
      obtain ⟨rests, _, some, _, _⟩ := completes
      have first : step state (.name "not".toList) = .ok (.notIn _ _) :=
        rests.step_eq (.name "not".toList) (by simp)
      refine .cons first (.single ?_)
      exact congrArg (fun closed : Stack × Expr =>
        Except.ok (State.start (.right (.binary .notMember) closed.2 :: closed.1)))
        ((some _ small).trans stays)
    | _ => exact .single (completes.step_operator rfl small stays)

end Completes

/-- Wherever an operand of its precedence may start, the tokens are read as the expression. -/
def ReadsAs (tokens : List Token) (e : Expr) (p : Precedence) : Prop :=
  ∀ stack, Stack.Admits stack p.rank → ∃ state, Reads (.start stack) tokens state ∧ Completes state stack e p

/-- An operand up to the bracket or separator behind it. -/
theorem ReadsAs.reads_bracket {tokens : List Token} {e : Expr} {p : Precedence} (reads : ReadsAs tokens e p)
    {stack : Stack} {s : Symbol} {next : State} (admits : Stack.Admits stack p.rank)
    (bracket : s ∈ [.parenClose, .bracketClose, .braceClose, .comma, .colon])
    (closed : closeBracket stack e s = .ok next) : Reads (.start stack) (tokens ++ [.symbol s]) next := by
  obtain ⟨state, read, completes⟩ := reads stack admits
  exact read.append (.single ((completes.step_bracket bracket).trans closed))

theorem step_start {token : Token} (other : token ≠ .symbol .bracketClose) (stack : Stack) :
    step (.start stack) token = startOperand stack token := by
  simp only [step]
  split
  · exact absurd rfl other
  · rfl

section Composite

variable {e left right : Expr} {p q : Precedence} {tokens leftTokens rightTokens : List Token}

/-- In parentheses any expression is an operand. -/
theorem reads_group (reads : ReadsAs tokens e p) (stack : Stack) :
    Reads (.start (.group :: stack)) (tokens ++ [.symbol .parenClose]) (.after stack e true) :=
  reads.reads_bracket (by rintro frame ⟨⟩; trivial) (by decide) rfl

theorem readsAs_inParens (reads : ReadsAs tokens e p) : ReadsAs (inParens tokens) e .access := by
  intro stack _
  exact ⟨_, .cons rfl (reads_group reads stack), .of_rests (rests_after stack e true) fun _ => rfl⟩

theorem reads_operandTokens {least : Nat} (reads : ReadsAs tokens e p) (bound : least ≤ Precedence.access.rank)
    {stack : Stack} (admits : Stack.Admits stack least) : ∃ q : Precedence, least ≤ q.rank ∧
      ∃ state, Reads (.start stack) (operandTokens least p tokens) state ∧ Completes state stack e q := by
  unfold operandTokens
  split
  · exact ⟨.access, bound, readsAs_inParens reads stack (admits.mono bound)⟩
  · rename_i tight
    exact ⟨p, by omega, reads stack (admits.mono (by omega))⟩

theorem readsAs_operation (op : Operator) (first : ReadsAs leftTokens left p)
    (second : ReadsAs rightTokens right q) :
    ReadsAs (operationTokens op p q leftTokens rightTokens) (op.apply left right) op.precedence := by
  intro stack admits
  have loose := op.rank_lt
  have wide : op.precedence.rank + 1 ≤ Precedence.access.rank := Nat.le_trans loose (by decide)
  obtain ⟨leftRank, above, middle, readLeft, completesLeft⟩ :=
    reads_operandTokens first (Nat.le_of_succ_le wide) admits
  have small : op.power < leftRank.limit := by
    have limit := Precedence.limit_mono above
    rw [op.limit_eq] at limit
    exact limit
  have readOperator := completesLeft.reads_operator small
    (close_of_admits admits (Nat.le_of_eq op.power_eq.symm) left)
  have inner : Stack.Admits (.right op left :: stack) (op.precedence.rank + 1) := by
    rintro frame ⟨⟩
    exact Nat.lt_succ_self _
  obtain ⟨rightRank, tighter, state, readRight, completesRight⟩ := reads_operandTokens second wide inner
  refine ⟨state, (readLeft.append readOperator).append readRight, ?_⟩
  obtain ⟨rests, all, some, _, _⟩ := completesRight
  refine .of_loose (Nat.lt_trans loose (by decide)) rests all fun power bound => ?_
  -- What binds no tighter than the operator also closes the operand on its right.
  have limit := Precedence.limit_mono (Nat.le_of_succ_le tighter)
  rw [some power (Nat.lt_of_lt_of_le bound limit)]
  rw [op.limit_eq] at bound
  rw [close, if_neg (by omega)]

theorem readsAs_unary (op : UnaryOperator) {token : Token}
    (starts : ∀ stack, step (.start stack) token = .ok (.start (.operand op :: stack)))
    (reads : ReadsAs tokens e p) :
    ReadsAs (token :: operandTokens op.precedence.rank p tokens) (op.apply e) op.precedence := by
  intro stack _
  have loose : op.precedence.rank < Precedence.filter.rank := by cases op <;> decide
  have inner : Stack.Admits (.operand op :: stack) op.precedence.rank := by
    rintro frame ⟨⟩
    exact Nat.le_refl _
  obtain ⟨rank, above, state, read, completes⟩ :=
    reads_operandTokens reads (Nat.le_trans (Nat.le_of_lt loose) (by decide)) inner
  refine ⟨state, .cons (starts stack) read, ?_⟩
  obtain ⟨rests, all, some, _, _⟩ := completes
  refine .of_loose loose rests all fun power bound => ?_
  rw [some power (Nat.lt_of_lt_of_le bound (Precedence.limit_mono above))]
  rw [op.limit_eq] at bound
  rw [close, if_neg (by omega)]

/-- A body and a condition up to an `else`, if there is one. -/
theorem reads_condition (body : ReadsAs leftTokens left p) (condition : ReadsAs rightTokens right q) {stack : Stack}
    (admits : Stack.Admits stack 0) :
    ∃ state, Reads (.start stack) (operandTokens Precedence.or.rank p leftTokens ++
      .name "if".toList :: operandTokens Precedence.or.rank q rightTokens) state ∧
      Completes state (.condition left :: stack) right .or := by
  obtain ⟨bodyRank, bodyAbove, middle, readBody, completesBody⟩ :=
    reads_operandTokens body (by decide) (admits.mono (Nat.zero_le Precedence.or.rank))
  have inner : Stack.Admits (.condition left :: stack) Precedence.or.rank := by
    rintro frame ⟨⟩
    exact Nat.zero_lt_one
  obtain ⟨rank, above, state, read, completes⟩ := reads_operandTokens condition (by decide) inner
  have readIf := (completesBody.mono bodyAbove).step_if admits
  exact ⟨state, readBody.append (.cons readIf read), completes.mono above⟩

theorem readsAs_cond (body : ReadsAs leftTokens left p) (condition : ReadsAs rightTokens right q) :
    ReadsAs (operandTokens Precedence.or.rank p leftTokens ++
      .name "if".toList :: operandTokens Precedence.or.rank q rightTokens) (.cond left right none)
        .conditional := by
  intro stack admits
  obtain ⟨state, read, completes⟩ := reads_condition body condition admits
  obtain ⟨rests, all, _, _, _⟩ := completes
  exact ⟨state, read, .of_loose (by decide) rests all fun _ => nofun⟩

theorem readsAs_cond_else {r : Precedence} (body : ReadsAs leftTokens left p)
    (condition : ReadsAs rightTokens right q) (otherwise : ReadsAs tokens e r) :
    ReadsAs (operandTokens Precedence.or.rank p leftTokens ++
      .name "if".toList :: operandTokens Precedence.or.rank q rightTokens ++ .name "else".toList :: tokens)
      (.cond left right (some e)) .conditional := by
  intro stack admits
  obtain ⟨middle, readCondition, completes⟩ := reads_condition body condition admits
  obtain ⟨state, read, completesElse⟩ := otherwise (.otherwise left right :: stack) (by rintro frame ⟨⟩; trivial)
  obtain ⟨rests, all, _, _, _⟩ := completesElse
  exact ⟨state, readCondition.append (.cons completes.step_else read),
    .of_loose (by decide) rests all fun _ => nofun⟩

theorem readsAs_attr (target : ReadsAs tokens e p) (name : String) :
    ReadsAs (operandTokens Precedence.access.rank p tokens ++ [.symbol .dot, .name name.toList]) (.attr e name)
      .access := by
  intro stack admits
  obtain ⟨rank, above, middle, read, completes⟩ := reads_operandTokens target (Nat.le_refl _) admits
  have named : step (.dot stack e) (.name name.toList) = .ok (.attribute stack e name) := by
    rw [step, String.ofList_toList]
  exact ⟨_, read.append (.cons (completes.mono above).step_dot (.single named)),
    .of_rests (rests_attribute stack e name) fun _ => rfl⟩

theorem readsAs_index (target : ReadsAs leftTokens left p) (position : ReadsAs rightTokens right q) :
    ReadsAs (operandTokens Precedence.access.rank p leftTokens ++
      .symbol .bracketOpen :: rightTokens ++ [.symbol .bracketClose]) (.index left right) .access := by
  intro stack admits
  obtain ⟨rank, above, middle, readTarget, completes⟩ := reads_operandTokens target (Nat.le_refl _) admits
  have readPosition : Reads (.start (.index left :: stack)) (rightTokens ++ [.symbol .bracketClose])
      (.after stack (.index left right) true) :=
    position.reads_bracket (by rintro frame ⟨⟩; trivial) (by decide) rfl
  have whole := readTarget.append (.cons (completes.mono above).step_index readPosition)
  rw [← List.cons_append, ← List.append_assoc] at whole
  exact ⟨_, whole, .of_rests (rests_after stack (.index left right) true) fun _ => rfl⟩

end Composite

end ConfigWeave.Expr
