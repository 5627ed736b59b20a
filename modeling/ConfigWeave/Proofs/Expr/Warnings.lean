import ConfigWeave.Expr.Evaluate

namespace ConfigWeave.Expr

variable {α β : Type}

theorem eval_call (scope : Scope) (name : String) (input : Expr) (args : List (Option String × Expr)) :
    eval scope (.call name input args) =
      (if name = "default" then silently (eval scope input) else eval scope input) >>= fun v =>
        evalArgs scope .empty args >>= fun args => .lift (callFunction name v args) := by
  rw [eval]
  split <;> rfl

/-- The evaluation reports what the computation reports, behind all that was collected before. -/
def Evaluator.Reports (x : Evaluator α) (y : Eval α) : Prop :=
  ∀ warnings, x.finish warnings = (y.result, warnings ++ y.trace)

namespace Evaluator

theorem finish_pure (a : α) (warnings : List String) : (pure a : Evaluator α).finish warnings = (.ok a, warnings) :=
  rfl

/-- What follows an evaluation starts from the warnings at its end, unless the evaluation fails. -/
theorem finish_bind (x : Evaluator α) (f : α → Evaluator β) (warnings : List String) :
    (x >>= f).finish warnings =
      match x.finish warnings with
      | (.ok a, collected) => (f a).finish collected
      | (.error e, collected) => (.error e, collected) := by
  unfold finish
  rw [EStateM.run_bind]
  cases x.run warnings <;> rfl

theorem finish_lift (x : Except ExprError α) (warnings : List String) :
    (lift x).finish warnings = (x, warnings) := by
  cases x <;> rfl

namespace Reports

theorem pure (a : α) : (Pure.pure a : Evaluator α).Reports (Pure.pure a) := by
  intro warnings
  rw [finish_pure, Traced.pure_def, List.append_nil]

theorem lift (x : Except ExprError α) : (Evaluator.lift x).Reports (.lift x) := by
  intro warnings
  rw [finish_lift, Traced.lift, List.append_nil]

theorem warn (message : String) : (Evaluator.warn message).Reports (.report message) :=
  fun _ => rfl

theorem bind {x : Evaluator α} {y : Eval α} {f : α → Evaluator β} {g : α → Eval β} (first : x.Reports y)
    (later : ∀ a, (f a).Reports (g a)) : (x >>= f).Reports (y >>= g) := by
  intro warnings
  rw [finish_bind, first]
  cases done : y.result with
  | error e => rw [Traced.bind_of_error done]
  | ok a => simp only [Traced.bind_of_ok done, later a (warnings ++ y.trace), List.append_assoc]

theorem ofCollected {f : List String → Evaluator α} {y : Eval α} (any : ∀ collected, (f collected).Reports y) :
    (get >>= f).Reports y :=
  fun warnings => any warnings warnings

/-- Dropping the warnings down to the number that was there leaves those from before, unless there was no time to
drop any because of a failure. -/
theorem silently {x : Evaluator α} {y : Eval α} {f : α → Evaluator β} {g : α → Eval β} (first : x.Reports y)
    (later : ∀ a, (f a).Reports (g a)) :
    (do
      let reported := (← get).length
      let a ← x
      truncate reported
      f a : Evaluator β).Reports (Expr.silently y >>= g) := by
  intro warnings
  have begun (rest : List String → Evaluator β) : (get >>= rest).finish warnings =
      (rest warnings).finish warnings := by
    rw [finish_bind]
    rfl
  have dropped (rest : Unit → Evaluator β) :
      (truncate warnings.length >>= rest).finish (warnings ++ y.trace) = (rest ()).finish warnings := by
    have kept : (truncate warnings.length).finish (warnings ++ y.trace) = (.ok (), warnings) :=
      congrArg (Prod.mk (Except.ok ())) (List.take_left' rfl)
    rw [finish_bind, kept]
  rw [begun, finish_bind, first]
  cases done : y.result with
  | error e => simp only [Expr.silently, done, Traced.bind_of_error done]
  | ok a => simp only [Expr.silently, done, dropped, later a warnings, Traced.bind_ok, List.nil_append]

end Reports

theorem eval_call (scope : Scope) (name : String) (input : Expr) (args : List (Option String × Expr)) :
    eval scope (.call name input args) = (do
      let reported := (← get).length
      let v ← eval scope input
      if name = "default" then truncate reported
      let args ← evalArgs scope .empty args
      lift (callFunction name v args)) := by
  rw [eval]

theorem reports_variableValue (scope : Scope) (name : String) :
    (variableValue scope name).Reports (Expr.variableValue scope name) := by
  unfold variableValue Expr.variableValue
  split
  · exact .pure _
  · split
    · exact .pure _
    · exact .bind (.warn _) fun _ => .pure _

mutual
/-- To keep all warnings in one list, and to cut it down again behind the input of `default`, comes to the same as
to collect the warnings of each part by themselves. -/
theorem reports_eval (scope : Scope) : (e : Expr) → (eval scope e).Reports (Expr.eval scope e)
  | .lit v => .pure _
  | .var name => reports_variableValue scope name
  | .list items => .bind (reports_evalItems scope items) fun _ => .pure _
  | .map entries => .bind (reports_evalEntries scope [] entries) fun _ => .pure _
  | .neg operand => .bind (reports_eval scope operand) fun v => by
    cases v with
    | none => exact .pure _
    | some v => exact .bind (.lift _) fun _ => .pure _
  | .not operand => .bind (reports_eval scope operand) fun _ => .pure _
  | .and left right => .bind (reports_eval scope left) fun l => by
    split
    · exact reports_eval scope right
    · exact .pure _
  | .or left right => .bind (reports_eval scope left) fun l => by
    split
    · exact .pure _
    · exact reports_eval scope right
  | .cond body condition none => .bind (reports_eval scope condition) fun c => by
    split
    · exact reports_eval scope body
    · exact .pure _
  | .cond body condition (some otherwise) => .bind (reports_eval scope condition) fun c => by
    split
    · exact reports_eval scope body
    · exact reports_eval scope otherwise
  | .binary op left right =>
    .bind (reports_eval scope left) fun _ => .bind (reports_eval scope right) fun _ => .lift _
  | .attr target name => .bind (reports_eval scope target) fun _ => .pure _
  | .index target position =>
    .bind (reports_eval scope target) fun t => .bind (reports_eval scope position) fun p => by
      split
      · exact .pure _
      · exact .pure _
  | .call name input args => by
    rw [eval_call, Expr.eval_call]
    split
    · exact .silently (reports_eval scope input) fun _ =>
        .bind (reports_evalArgs scope .empty args) fun _ => .lift _
    · exact .ofCollected fun _ =>
        .bind (reports_eval scope input) fun _ => .bind (reports_evalArgs scope .empty args) fun _ => .lift _
theorem reports_evalItems (scope : Scope) :
    (items : List Expr) → (evalItems scope items).Reports (Expr.evalItems scope items)
  | [] => .pure _
  | item :: rest => .bind (reports_eval scope item) fun _ => .bind (reports_evalItems scope rest) fun _ => .pure _
theorem reports_evalEntries (scope : Scope) (m : Mapping) :
    (entries : List (Expr × Expr)) → (evalEntries scope m entries).Reports (Expr.evalEntries scope m entries)
  | [] => .pure _
  | (key, value) :: rest => .bind (reports_eval scope key) fun k => .bind (reports_eval scope value) fun v => by
    cases v with
    | none => exact reports_evalEntries scope m rest
    | some v => exact reports_evalEntries scope (Mapping.insert m (k.getD .null) v) rest
theorem reports_evalArgs (scope : Scope) (args : Arguments) :
    (more : List (Option String × Expr)) → (evalArgs scope args more).Reports (Expr.evalArgs scope args more)
  | [] => .pure _
  | (keyword, value) :: rest =>
    .bind (reports_eval scope value) fun v => reports_evalArgs scope (args.add keyword (v.getD .null)) rest
end

theorem reports_evaluate (scope : Scope) (source : String) :
    (evaluate scope source).Reports (.lift (parse source) >>= Expr.eval scope) :=
  .bind (.lift _) (reports_eval scope)

/-- Evaluating only adds to the warnings that were collected before, and what it adds and what it comes to do not
depend on them. A `default` leaves no warnings of its input if that has not failed. It goes on from those in front
of it, so that only its arguments still add to them. -/
theorem eval_frame (scope : Scope) (e : Expr) :
    (∃ outcome added, ∀ warnings, (eval scope e).finish warnings = (outcome, warnings ++ added)) ∧
    ∀ args warnings, (eval scope (.call "default" e args)).finish warnings =
      match (eval scope e).finish warnings with
      | (.ok v, _) => (evalArgs scope .empty args >>= fun args => lift (callFunction "default" v args)).finish
        warnings
      | (.error failure, collected) => (.error failure, collected) := by
  refine ⟨⟨_, _, reports_eval scope e⟩, fun args warnings => ?_⟩
  rw [reports_eval, reports_eval, Expr.eval_call, if_pos rfl]
  cases done : (Expr.eval scope e).result with
  | error failure => simp only [silently, done, Traced.bind_of_error done]
  | ok v =>
    have called := Reports.bind (reports_evalArgs scope .empty args) fun args =>
      .lift (callFunction "default" v args)
    simp only [silently, done, Traced.bind_ok, called warnings, List.nil_append]

example : ((evaluate ⟨[]⟩ "[a, b | default(c | default(d))]").finish ["before"]).2 =
    ["before", "Undefined variable 'a'", "Undefined variable 'd'"] := by
  decide +kernel

end Evaluator

theorem evaluate_eq (scope : Scope) (source : String) :
    evaluate scope source = .lift (parse source) >>= eval scope := by
  simp only [evaluate, Evaluator.reports_evaluate scope source [], List.nil_append]

end ConfigWeave.Expr
