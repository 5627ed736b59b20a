import ConfigWeave.Proofs.Expr.Balance
import ConfigWeave.Proofs.ParsedTree

namespace ConfigWeave

namespace Expr

/-- The literals of an expression are scalars. Collections in it are made when it is evaluated. -/
inductive Elementary : Expr → Prop
  | lit {v} : v.IsScalar → Elementary (.lit v)
  | var {name} : Elementary (.var name)
  | list {items} : (∀ item ∈ items, Elementary item) → Elementary (.list items)
  | map {entries} : (∀ entry ∈ entries, Elementary entry.1) → (∀ entry ∈ entries, Elementary entry.2) →
      Elementary (.map entries)
  | neg {operand} : Elementary operand → Elementary (.neg operand)
  | not {operand} : Elementary operand → Elementary (.not operand)
  | binary {op left right} : Elementary left → Elementary right → Elementary (.binary op left right)
  | and {left right} : Elementary left → Elementary right → Elementary (.and left right)
  | or {left right} : Elementary left → Elementary right → Elementary (.or left right)
  | cond {body condition otherwise} : Elementary body → Elementary condition → (∀ e ∈ otherwise, Elementary e) →
      Elementary (.cond body condition otherwise)
  | attr {target name} : Elementary target → Elementary (.attr target name)
  | index {target position} : Elementary target → Elementary position → Elementary (.index target position)
  | call {name input args} : Elementary input → (∀ arg ∈ args, Elementary arg.2) →
      Elementary (.call name input args)

abbrev EntriesElementary (entries : List (Expr × Expr)) : Prop :=
  ∀ entry ∈ entries, entry.1.Elementary ∧ entry.2.Elementary

abbrev ArgumentsElementary (args : List (Option String × Expr)) : Prop :=
  ∀ arg ∈ args, arg.2.Elementary

theorem elementary_map {entries : List (Expr × Expr)} (each : EntriesElementary entries) :
    (Expr.map entries).Elementary :=
  .map (fun entry member => (each entry member).1) fun entry member => (each entry member).2

theorem Operator.elementary_apply {left right : Expr} (leftElementary : left.Elementary)
    (rightElementary : right.Elementary) (op : Operator) : (op.apply left right).Elementary := by
  cases op with
  | or => exact .or leftElementary rightElementary
  | and => exact .and leftElementary rightElementary
  | binary op => exact .binary leftElementary rightElementary

theorem UnaryOperator.elementary_apply {operand : Expr} (elementary : operand.Elementary) (op : UnaryOperator) :
    (op.apply operand).Elementary := by
  cases op with
  | not => exact .not elementary
  | negate => exact .neg elementary
  | plus => exact elementary

/-- What waits for an operand holds elementary expressions. -/
def Frame.Elementary : Frame → Prop
  | .right _ left => left.Elementary
  | .operand _ | .group => True
  | .condition body => body.Elementary
  | .otherwise body chosen => body.Elementary ∧ chosen.Elementary
  | .list items => ∀ item ∈ items, item.Elementary
  | .key entries => EntriesElementary entries
  | .value entries named => EntriesElementary entries ∧ named.Elementary
  | .argument pending args _ => pending.input.Elementary ∧ ArgumentsElementary args
  | .index target => target.Elementary

def Stack.Elementary (stack : Stack) : Prop :=
  ∀ frame ∈ stack, frame.Elementary

/-- All that has been read so far is elementary. -/
def State.Elementary : State → Prop
  | .start stack => Stack.Elementary stack
  | .after stack e _ | .dot stack e | .attribute stack e _ | .pipe stack e | .filter stack e _ | .notIn stack e =>
    Stack.Elementary stack ∧ e.Elementary
  | .key stack entries | .keyName stack entries _ => Stack.Elementary stack ∧ EntriesElementary entries
  | .argument stack pending args | .argumentName stack pending args _ =>
    Stack.Elementary stack ∧ pending.input.Elementary ∧ ArgumentsElementary args

theorem Stack.elementary_cons {frame : Frame} {stack : Stack} :
    Stack.Elementary (frame :: stack) ↔ frame.Elementary ∧ Stack.Elementary stack :=
  List.forall_mem_cons

theorem elementary_close (power : Nat) {stack : Stack} {e : Expr} (around : Stack.Elementary stack)
    (elementary : e.Elementary) :
    Stack.Elementary (close power stack e).1 ∧ (close power stack e).2.Elementary := by
  fun_induction close power stack e with
  | case1 => exact ⟨around, elementary⟩
  | case2 op left stack e _ ih =>
    obtain ⟨here, below⟩ := Stack.elementary_cons.mp around
    exact ih below (op.elementary_apply here elementary)
  | case3 => exact ⟨around, elementary⟩
  | case4 op stack e _ ih => exact ih (Stack.elementary_cons.mp around).2 (op.elementary_apply elementary)
  | case5 => exact ⟨around, elementary⟩

theorem elementary_closeAll {stack : Stack} {e : Expr} (around : Stack.Elementary stack)
    (elementary : e.Elementary) :
    Stack.Elementary (closeAll stack e).1 ∧ (closeAll stack e).2.Elementary := by
  fun_induction closeAll stack e with
  | case1 op left stack e ih =>
    obtain ⟨here, below⟩ := Stack.elementary_cons.mp around
    exact ih below (op.elementary_apply here elementary)
  | case2 op stack e ih => exact ih (Stack.elementary_cons.mp around).2 (op.elementary_apply elementary)
  | case3 body stack e ih =>
    obtain ⟨here, below⟩ := Stack.elementary_cons.mp around
    exact ih below (.cond here elementary (by simp))
  | case4 body chosen stack e ih =>
    obtain ⟨⟨here, condition⟩, below⟩ := Stack.elementary_cons.mp around
    refine ih below (.cond here condition ?_)
    rintro _ ⟨⟩
    exact elementary
  | case5 => exact ⟨around, elementary⟩

theorem elementary_startName {stack : Stack} (around : Stack.Elementary stack) {name : String} {next : State}
    (started : startName stack name = some next) : next.Elementary := by
  unfold startName at started
  split at started
  iterate 7 exact Option.some.inj started ▸ ⟨around, .lit trivial⟩
  · exact Option.some.inj started ▸ Stack.elementary_cons.mpr ⟨trivial, around⟩
  · split at started
    · cases started
    · exact Option.some.inj started ▸ ⟨around, .var⟩

theorem isScalar_number {spelling : List Char} {v : Value} (read : number? spelling = some v) : v.IsScalar := by
  unfold number? at read
  dsimp only at read
  split at read <;> obtain ⟨_, _, rfl⟩ := Option.map_eq_some_iff.mp read <;> trivial

theorem elementary_startOperand {stack : Stack} (around : Stack.Elementary stack) {token : Token} {next : State}
    (started : startOperand stack token = .ok next) : next.Elementary := by
  cases token with
  | number spelling =>
    simp only [startOperand] at started
    split at started
    · rename_i value read
      exact Except.ok.inj started ▸ ⟨around, .lit (isScalar_number read)⟩
    · cases started
  | text content => exact Except.ok.inj started ▸ ⟨around, .lit trivial⟩
  | name spelling =>
    simp only [startOperand] at started
    split at started
    · rename_i state found
      exact Except.ok.inj started ▸ elementary_startName around found
    · cases started
  | symbol symbol =>
    have opened {frame : Frame} (empty : frame.Elementary) : (State.start (frame :: stack)).Elementary :=
      Stack.elementary_cons.mpr ⟨empty, around⟩
    simp only [startOperand] at started
    split at started
    iterate 4 exact Except.ok.inj started ▸ opened trivial
    · exact Except.ok.inj started ▸ opened (List.forall_mem_nil _)
    · exact Except.ok.inj started ▸ ⟨around, List.forall_mem_nil _⟩
    · cases started

theorem elementary_finishCall {stack : Stack} (around : Stack.Elementary stack) {pending : PendingCall}
    (input : pending.input.Elementary) {args : List (Option String × Expr)} (each : ArgumentsElementary args) :
    (finishCall stack pending args).Elementary :=
  ⟨around, .call input fun arg member => each arg (List.mem_reverse.mp member)⟩

theorem elementary_takeOperator {stack : Stack} (around : Stack.Elementary stack) {left : Expr}
    (elementary : left.Elementary) (op : Operator) : (takeOperator stack left op).Elementary := by
  obtain ⟨below, closed⟩ := elementary_close op.power around elementary
  exact Stack.elementary_cons.mpr ⟨closed, below⟩

theorem elementary_closeBracket {stack : Stack} (around : Stack.Elementary stack) {e : Expr}
    (elementary : e.Elementary) {symbol : Symbol} {next : State}
    (closed : closeBracket stack e symbol = .ok next) : next.Elementary := by
  have rest := elementary_closeAll around elementary
  unfold closeBracket at closed
  split at closed
  case h_10 => cases closed
  all_goals
    rename_i same
    rw [same] at rest
    obtain ⟨within, here⟩ := rest
    obtain ⟨top, below⟩ := Stack.elementary_cons.mp within
  · exact Except.ok.inj closed ▸ ⟨below, here⟩
  · exact Except.ok.inj closed ▸ elementary_finishCall below top.1 (List.forall_mem_cons.mpr ⟨here, top.2⟩)
  · refine Except.ok.inj closed ▸ ⟨below, .list fun item member => ?_⟩
    exact List.forall_mem_cons.mpr ⟨here, top⟩ item (List.mem_reverse.mp member)
  · exact Except.ok.inj closed ▸ ⟨below, .index top here⟩
  · refine Except.ok.inj closed ▸ ⟨below, elementary_map fun entry member => ?_⟩
    exact List.forall_mem_cons.mpr ⟨⟨top.2, here⟩, top.1⟩ entry (List.mem_reverse.mp member)
  · exact Except.ok.inj closed ▸ Stack.elementary_cons.mpr ⟨List.forall_mem_cons.mpr ⟨here, top⟩, below⟩
  · exact Except.ok.inj closed ▸ ⟨below, List.forall_mem_cons.mpr ⟨⟨top.2, here⟩, top.1⟩⟩
  · exact Except.ok.inj closed ▸ ⟨below, top.1, List.forall_mem_cons.mpr ⟨here, top.2⟩⟩
  · exact Except.ok.inj closed ▸ Stack.elementary_cons.mpr ⟨⟨top, here⟩, below⟩

theorem elementary_follow {stack : Stack} (around : Stack.Elementary stack) {e : Expr} (elementary : e.Elementary)
    {accessible : Bool} {token : Token} {next : State} (followed : follow stack e accessible token = .ok next) :
    next.Elementary := by
  unfold follow at followed
  split at followed
  · exact Except.ok.inj followed ▸ elementary_takeOperator around elementary _
  · split at followed
    · split at followed <;> cases followed
      exact ⟨around, elementary⟩
    · split at followed <;> cases followed
      exact Stack.elementary_cons.mpr ⟨elementary, around⟩
    · exact Except.ok.inj followed ▸ ⟨around, elementary⟩
    · exact elementary_closeBracket around elementary followed
    · have rest := elementary_close 0 around elementary
      split at followed
      · exact Except.ok.inj followed ▸ ⟨around, elementary⟩
      · cases followed
      · rename_i same
        rw [same] at rest
        exact Except.ok.inj followed ▸ Stack.elementary_cons.mpr ⟨rest.2, rest.1⟩
      · rename_i same
        rw [same] at rest
        obtain ⟨body, below⟩ := Stack.elementary_cons.mp rest.1
        exact Except.ok.inj followed ▸ Stack.elementary_cons.mpr ⟨⟨body, rest.2⟩, below⟩
      · cases followed
    · cases followed

theorem elementary_followName {stack : Stack} (around : Stack.Elementary stack) {name : String} {token : Token}
    {next : State} (followed : followName stack name token = .ok next) : next.Elementary := by
  unfold followName at followed
  split at followed
  · rename_i found
    obtain ⟨around, elementary⟩ : State.Elementary (.after _ _ _) := elementary_startName around found
    exact elementary_follow around elementary followed
  · rename_i found
    exact elementary_startOperand (elementary_startName around found) followed
  · cases followed

theorem elementary_indexes {target : Expr} (elementary : target.Elementary) (indexes : List Int64) :
    (indexes.foldl (fun e i => Expr.index e (.lit (.int i))) target).Elementary := by
  induction indexes generalizing target with
  | nil => exact elementary
  | cons i rest ih => exact ih (.index elementary (.lit trivial))

theorem elementary_step {state next : State} {token : Token} (elementary : state.Elementary)
    (stepped : step state token = .ok next) : next.Elementary := by
  match state, elementary with
  | .start stack, around =>
    simp only [step] at stepped
    split at stepped
    · obtain ⟨items, below⟩ := Stack.elementary_cons.mp around
      exact Except.ok.inj stepped ▸ ⟨below, .list fun item member => items item (List.mem_reverse.mp member)⟩
    · exact elementary_startOperand around stepped
  | .after stack e accessible, ⟨around, here⟩ => exact elementary_follow around here stepped
  | .dot stack target, ⟨around, here⟩ =>
    simp only [step] at stepped
    split at stepped
    · exact Except.ok.inj stepped ▸ ⟨around, here⟩
    · split at stepped <;> cases stepped
      exact ⟨around, elementary_indexes here _⟩
    · cases stepped
  | .attribute stack target name, ⟨around, here⟩ =>
    simp only [step] at stepped
    split at stepped
    · exact Except.ok.inj stepped ▸ ⟨around, here, by simp⟩
    · exact elementary_follow around (.attr here) stepped
  | .pipe stack input, elementary =>
    simp only [step] at stepped
    split at stepped <;> cases stepped
    exact elementary
  | .filter stack input name, ⟨around, here⟩ =>
    simp only [step] at stepped
    split at stepped
    · exact Except.ok.inj stepped ▸ ⟨around, here, by simp⟩
    · exact elementary_follow around (.call here (by simp)) stepped
  | .notIn stack left, ⟨around, here⟩ =>
    simp only [step] at stepped
    split at stepped <;> cases stepped
    exact elementary_takeOperator around here _
  | .key stack entries, ⟨around, each⟩ =>
    simp only [step] at stepped
    split at stepped
    · refine Except.ok.inj stepped ▸ ⟨around, elementary_map fun entry member => ?_⟩
      exact each entry (List.mem_reverse.mp member)
    · exact Except.ok.inj stepped ▸ ⟨around, each⟩
    · have opened : Stack.Elementary (.key entries :: stack) := Stack.elementary_cons.mpr ⟨each, around⟩
      exact elementary_startOperand opened stepped
  | .keyName stack entries name, ⟨around, each⟩ =>
    simp only [step] at stepped
    split at stepped
    · exact Except.ok.inj stepped ▸ Stack.elementary_cons.mpr ⟨⟨each, .lit trivial⟩, around⟩
    · have opened : Stack.Elementary (.key entries :: stack) := Stack.elementary_cons.mpr ⟨each, around⟩
      exact elementary_followName opened stepped
  | .argument stack pending args, ⟨around, input, each⟩ =>
    simp only [step] at stepped
    split at stepped
    · exact Except.ok.inj stepped ▸ elementary_finishCall around input each
    · exact Except.ok.inj stepped ▸ ⟨around, input, each⟩
    · have opened : Stack.Elementary (.argument pending args none :: stack) :=
        Stack.elementary_cons.mpr ⟨⟨input, each⟩, around⟩
      exact elementary_startOperand opened stepped
  | .argumentName stack pending args name, ⟨around, input, each⟩ =>
    simp only [step] at stepped
    split at stepped
    · exact Except.ok.inj stepped ▸ Stack.elementary_cons.mpr ⟨⟨input, each⟩, around⟩
    · have opened : Stack.Elementary (.argument pending args none :: stack) :=
        Stack.elementary_cons.mpr ⟨⟨input, each⟩, around⟩
      exact elementary_followName opened stepped

theorem elementary_run {state final : State} {tokens : List (Token × Nat)} (elementary : state.Elementary)
    (ran : run state tokens = .ok final) : final.Elementary := by
  induction tokens generalizing state with
  | nil => exact Except.ok.inj ran ▸ elementary
  | cons entry rest ih =>
    simp only [run] at ran
    split at ran
    · rename_i stepped
      exact ih (elementary_step elementary stepped) ran
    · cases ran

theorem elementary_finish? {state : State} (elementary : state.Elementary) {e : Expr}
    (finished : state.finish? = some e) : e.Elementary := by
  have whole {stack : Stack} {operand : Expr} (around : Stack.Elementary stack) (here : operand.Elementary)
      (finished : State.finish?.whole stack operand = some e) : e.Elementary := by
    have rest := elementary_closeAll around here
    unfold State.finish?.whole at finished
    split at finished
    · rename_i same
      rw [same] at rest
      exact Option.some.inj finished ▸ rest.2
    · cases finished
  match state, elementary with
  | .after stack operand accessible, ⟨around, here⟩ => exact whole around here finished
  | .attribute stack target name, ⟨around, here⟩ => exact whole around (.attr here) finished
  | .filter stack input name, ⟨around, here⟩ => exact whole around (.call here (by simp)) finished
  | .start _, _ | .dot .., _ | .pipe .., _ | .notIn .., _ | .key .., _ | .keyName .., _ | .argument .., _
  | .argumentName .., _ => cases finished

/-- Whatever is accepted as an expression has only scalars for literals. -/
theorem elementary_of_parse {source : String} {e : Expr} (accepted : parse source = .ok e) : e.Elementary := by
  unfold parse at accepted
  split at accepted
  · cases accepted
  · rename_i read _
    cases ran : run (.start []) read with
    | error e =>
      rw [ran] at accepted
      cases accepted
    | ok final =>
      rw [ran] at accepted
      dsimp only [bind, Except.bind] at accepted
      split at accepted
      · rename_i whole
        have begins : State.Elementary (.start []) := fun _ member => (by cases member)
        exact Except.ok.inj accepted ▸ elementary_finish? (elementary_run begins ran) whole
      · cases accepted

end Expr

end ConfigWeave
