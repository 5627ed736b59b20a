import ConfigWeave.Expr.Parse

namespace ConfigWeave

namespace Expr

/-- How many braces are open behind a token, unless it closes one where none is open. -/
def Token.braces? (depth : Nat) : Token → Option Nat
  | .symbol .braceOpen => some (depth + 1)
  | .symbol .braceClose => if depth = 0 then none else some (depth - 1)
  | _ => some depth

/-- How many braces are open behind a list of tokens. -/
def bracesBehind? (depth : Nat) (tokens : List (Token × Nat)) : Option Nat :=
  tokens.foldlM (fun depth entry => entry.1.braces? depth) depth

def Frame.braces : Frame → Nat
  | .key _ | .value .. => 1
  | _ => 0

def Stack.braces : Stack → Nat
  | [] => 0
  | frame :: stack => frame.braces + Stack.braces stack

/-- The braces that are open in a state. That of a mapping is only on the stack while a key or a value is read. -/
def State.braces : State → Nat
  | .start stack | .after stack .. | .dot stack _ | .attribute stack .. | .pipe stack _ | .filter stack ..
  | .notIn stack _ | .argument stack .. | .argumentName stack .. => Stack.braces stack
  | .key stack _ | .keyName stack .. => Stack.braces stack + 1

@[simp] theorem Stack.braces_cons (frame : Frame) (stack : Stack) :
    Stack.braces (frame :: stack) = frame.braces + Stack.braces stack :=
  rfl

theorem braces_close (power : Nat) (stack : Stack) (e : Expr) :
    Stack.braces (close power stack e).1 = Stack.braces stack := by
  fun_induction close power stack e <;> simp_all [Frame.braces]

theorem braces_closeAll (stack : Stack) (e : Expr) : Stack.braces (closeAll stack e).1 = Stack.braces stack := by
  fun_induction closeAll stack e <;> simp_all [Frame.braces]

theorem braces_startName {stack : Stack} {name : String} {next : State}
    (started : startName stack name = some next) :
    next.braces = Stack.braces stack := by
  unfold startName at started
  split at started
  all_goals first
    | cases started; simp [State.braces, Frame.braces]
    | split at started
      · cases started
      · cases started; rfl

theorem braces?_startOperand {stack : Stack} {token : Token} {next : State}
    (started : startOperand stack token = .ok next) : token.braces? (Stack.braces stack) = some next.braces := by
  cases token with
  | number spelling =>
    simp only [startOperand] at started
    split at started
    · cases started
      rfl
    · cases started
  | text content =>
    cases started
    rfl
  | name spelling =>
    simp only [startOperand] at started
    split at started
    · rename_i state found
      cases started
      rw [braces_startName found]
      rfl
    · cases started
  | symbol symbol =>
    cases symbol <;> cases started <;> simp [Token.braces?, State.braces, Frame.braces]

theorem braces?_closeBracket {stack : Stack} {e : Expr} {symbol : Symbol} {next : State}
    (closed : closeBracket stack e symbol = .ok next) :
    (Token.symbol symbol).braces? (Stack.braces stack) = some next.braces := by
  have same := braces_closeAll stack e
  unfold closeBracket at closed
  split at closed
  all_goals first
    | cases closed
      rename_i around
      rw [around] at same
      simp [← same, Token.braces?, State.braces, Frame.braces, finishCall, Nat.add_comm]
    | cases closed

theorem braces_takeOperator (stack : Stack) (left : Expr) (op : Operator) :
    (takeOperator stack left op).braces = Stack.braces stack := by
  simp [takeOperator, State.braces, Frame.braces, braces_close]

/-- No operator is a brace. -/
theorem braces?_of_operator? {token : Token} {op : Operator} (found : operator? token = some op) (depth : Nat) :
    token.braces? depth = some depth := by
  cases token with
  | symbol symbol => cases symbol <;> first | rfl | cases found
  | _ => rfl

theorem braces?_follow {stack : Stack} {e : Expr} {accessible : Bool} {token : Token} {next : State}
    (followed : follow stack e accessible token = .ok next) :
    token.braces? (Stack.braces stack) = some next.braces := by
  unfold follow at followed
  split at followed
  · rename_i op found
    cases followed
    rw [braces?_of_operator? found, braces_takeOperator]
  · split at followed
    · split at followed <;> cases followed
      rfl
    · split at followed <;> cases followed
      simp [Token.braces?, State.braces, Frame.braces]
    · cases followed
      rfl
    · exact braces?_closeBracket followed
    · rename_i spelling
      have same := braces_close 0 stack e
      split at followed
      · cases followed
        rfl
      · cases followed
      · rename_i around
        cases followed
        rw [around] at same
        simp [← same, Token.braces?, State.braces, Frame.braces]
      · rename_i around
        cases followed
        rw [around] at same
        simp [← same, Token.braces?, State.braces, Frame.braces]
      · cases followed
    · cases followed

theorem braces?_followName {stack : Stack} {name : String} {token : Token} {next : State}
    (followed : followName stack name token = .ok next) :
    token.braces? (Stack.braces stack) = some next.braces := by
  unfold followName at followed
  split at followed
  · rename_i found
    have same := braces_startName found
    simp only [State.braces] at same
    rw [← same]
    exact braces?_follow followed
  · rename_i found
    have same := braces_startName found
    simp only [State.braces] at same
    rw [← same]
    exact braces?_startOperand followed
  · cases followed

/-- A token opens and closes in the parse the brace that it is. -/
theorem braces?_step {state next : State} {token : Token} (stepped : step state token = .ok next) :
    token.braces? state.braces = some next.braces := by
  match state with
  | .start stack =>
    simp only [step] at stepped
    split at stepped
    · cases stepped
      simp [Token.braces?, State.braces, Frame.braces]
    · exact braces?_startOperand stepped
  | .after stack e accessible => exact braces?_follow stepped
  | .dot stack target =>
    simp only [step] at stepped
    split at stepped
    · cases stepped
      rfl
    · split at stepped <;> cases stepped
      rfl
    · cases stepped
  | .attribute stack target name =>
    simp only [step] at stepped
    split at stepped
    · cases stepped
      rfl
    · exact braces?_follow stepped
  | .pipe stack input =>
    simp only [step] at stepped
    split at stepped <;> cases stepped
    rfl
  | .filter stack input name =>
    simp only [step] at stepped
    split at stepped
    · cases stepped
      rfl
    · exact braces?_follow stepped
  | .notIn stack left =>
    simp only [step] at stepped
    split at stepped <;> cases stepped
    rw [braces_takeOperator]
    rfl
  | .key stack entries =>
    simp only [step] at stepped
    split at stepped
    · cases stepped
      rfl
    · cases stepped
      rfl
    · have started := braces?_startOperand stepped
      rwa [Stack.braces_cons, Frame.braces, Nat.add_comm] at started
  | .keyName stack entries name =>
    simp only [step] at stepped
    split at stepped
    · cases stepped
      simp [Token.braces?, State.braces, Frame.braces, Nat.add_comm]
    · have followed := braces?_followName stepped
      rwa [Stack.braces_cons, Frame.braces, Nat.add_comm] at followed
  | .argument stack pending args =>
    simp only [step] at stepped
    split at stepped
    · cases stepped
      simp [Token.braces?, finishCall, State.braces]
    · cases stepped
      rfl
    · have started := braces?_startOperand stepped
      simpa [State.braces, Frame.braces] using started
  | .argumentName stack pending args name =>
    simp only [step] at stepped
    split at stepped
    · cases stepped
      simp [Token.braces?, State.braces, Frame.braces]
    · have followed := braces?_followName stepped
      simpa [State.braces, Frame.braces] using followed

theorem bracesBehind?_run {state final : State} {tokens : List (Token × Nat)} (ran : run state tokens = .ok final) :
    bracesBehind? state.braces tokens = some final.braces := by
  induction tokens generalizing state with
  | nil =>
    cases ran
    rfl
  | cons entry rest ih =>
    obtain ⟨token, offset⟩ := entry
    simp only [run] at ran
    split at ran
    · rename_i next stepped
      have later := ih ran
      rw [bracesBehind?, List.foldlM_cons, braces?_step stepped]
      exact later
    · cases ran

theorem braces_of_finish? {state : State} {e : Expr} (finished : state.finish? = some e) : state.braces = 0 := by
  have whole {stack : Stack} {operand : Expr} (finished : State.finish?.whole stack operand = some e) :
      Stack.braces stack = 0 := by
    unfold State.finish?.whole at finished
    split at finished
    · rename_i around
      rw [← braces_closeAll stack operand, around]
      rfl
    · cases finished
  match state with
  | .after stack operand accessible => exact whole finished
  | .attribute stack target name => exact whole finished
  | .filter stack input name => exact whole finished
  | .start _ | .dot .. | .pipe .. | .notIn .. | .key .. | .keyName .. | .argument ..
  | .argumentName .. => cases finished

/-- In an expression that is accepted, every brace that is opened is closed again. -/
theorem bracesBehind?_of_parse {source : String} {e : Expr} (accepted : parse source = .ok e) :
    ∃ read, tokens source.toList = .ok read ∧ bracesBehind? 0 read = some 0 := by
  unfold parse at accepted
  split at accepted
  · cases accepted
  · rename_i read scanned
    refine ⟨read, scanned, ?_⟩
    cases ran : run (.start []) read with
    | error e =>
      rw [ran] at accepted
      cases accepted
    | ok final =>
      rw [ran] at accepted
      have balanced := bracesBehind?_run ran
      dsimp only [bind, Except.bind] at accepted
      split at accepted
      · rename_i whole
        rwa [braces_of_finish? whole] at balanced
      · cases accepted

end Expr

end ConfigWeave
