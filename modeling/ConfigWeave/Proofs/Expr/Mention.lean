import ConfigWeave.Proofs.Expr.Warnings

namespace ConfigWeave

namespace Expr

mutual
/-- The names of the variables in an expression, from left to right. -/
def mentioned : Expr → List String
  | .lit _ => []
  | .var name => [name]
  | .list items => mentionedItems items
  | .map entries => mentionedEntries entries
  | .neg operand | .not operand => mentioned operand
  | .and left right | .or left right | .binary _ left right => mentioned left ++ mentioned right
  | .cond body condition none => mentioned body ++ mentioned condition
  | .cond body condition (some otherwise) => mentioned body ++ (mentioned condition ++ mentioned otherwise)
  | .attr target _ => mentioned target
  | .index target position => mentioned target ++ mentioned position
  | .call _ input args => mentioned input ++ mentionedArgs args
def mentionedItems : List Expr → List String
  | [] => []
  | item :: rest => mentioned item ++ mentionedItems rest
def mentionedEntries : List (Expr × Expr) → List String
  | [] => []
  | (key, value) :: rest => mentioned key ++ (mentioned value ++ mentionedEntries rest)
def mentionedArgs : List (Option String × Expr) → List String
  | [] => []
  | (_, value) :: rest => mentioned value ++ mentionedArgs rest
end

end Expr

/-- Two scopes give the same meaning to some names. The name of the whole scope only has the same meaning if both
give it a value of its own. -/
structure Scope.Agree (first second : Scope) (names : List String) : Prop where
  same : ∀ name ∈ names, first.get? name = second.get? name
  whole : "VARS" ∈ names → first.contains "VARS" = true ∧ second.contains "VARS" = true

namespace Expr

variable {α β : Type} {first second : Scope} {names : List String}

/-- Two evaluations, one in each scope, that come to the same and warn of the same variables in the same order. All
of these are among the names and have no value in either scope. -/
def Alike (first second : Scope) (names : List String) (x y : Eval α) : Prop :=
  x.result = y.result ∧ ∃ missing : List String,
    (∀ name ∈ missing, name ∈ names ∧ first.get? name = none ∧ second.get? name = none) ∧
      x.trace = missing.map (undefinedWarning first) ∧ y.trace = missing.map (undefinedWarning second)

namespace Alike

theorem lift (x : Except ExprError α) : Alike first second names (.lift x) (.lift x) :=
  ⟨rfl, [], nofun, rfl, rfl⟩

theorem pure (a : α) : Alike first second names (Pure.pure a) (Pure.pure a) :=
  .lift (.ok a)

theorem bind {x y : Eval α} {f g : α → Eval β} (here : Alike first second names x y)
    (later : ∀ a, Alike first second names (f a) (g a)) : Alike first second names (x >>= f) (y >>= g) := by
  obtain ⟨same, missing, absent, left, right⟩ := here
  cases done : x.result with
  | error e =>
    rw [Traced.bind_of_error done, Traced.bind_of_error (same.symm.trans done)]
    exact ⟨rfl, missing, absent, left, right⟩
  | ok a =>
    obtain ⟨sameLater, more, absentLater, leftLater, rightLater⟩ := later a
    rw [Traced.bind_of_ok done, Traced.bind_of_ok (same.symm.trans done)]
    refine ⟨sameLater, missing ++ more, List.forall_mem_append.mpr ⟨absent, absentLater⟩, ?_, ?_⟩
    · rw [left, leftLater, List.map_append]
    · rw [right, rightLater, List.map_append]

theorem silently {x y : Eval α} (alike : Alike first second names x y) :
    Alike first second names (silently x) (silently y) := by
  have same := alike.1
  unfold Expr.silently
  rw [← same]
  cases x.result with
  | error e => exact alike
  | ok a => exact .pure a

end Alike

theorem alike_variableValue (agree : first.Agree second names) {name : String} (known : name ∈ names) :
    Alike first second names (variableValue first name) (variableValue second name) := by
  have same := agree.same name known
  unfold variableValue
  rw [← same]
  cases found : first.get? name with
  | some v => exact .pure _
  | none =>
    have other : name ≠ "VARS" := by
      rintro rfl
      simpa [Scope.contains, found] using (agree.whole known).1
    rw [if_neg other, if_neg other]
    refine .bind ⟨rfl, [name], ?_, rfl, rfl⟩ fun _ => .pure _
    rintro missing member
    obtain rfl := List.mem_singleton.mp member
    exact ⟨known, found, same.symm.trans found⟩

mutual
theorem alike_eval (agree : first.Agree second names) :
    (e : Expr) → mentioned e ⊆ names → Alike first second names (eval first e) (eval second e)
  | .lit _, _ => .pure _
  | .var name, within => alike_variableValue agree (within List.mem_cons_self)
  | .list items, within => .bind (alike_evalItems agree items within) fun _ => .pure _
  | .map entries, within => .bind (alike_evalEntries agree [] entries within) fun _ => .pure _
  | .neg operand, within => .bind (alike_eval agree operand within) fun v => by
    cases v with
    | none => exact .pure _
    | some v => exact .bind (.lift _) fun _ => .pure _
  | .not operand, within => .bind (alike_eval agree operand within) fun _ => .pure _
  | .and left right, within => by
    obtain ⟨inLeft, inRight⟩ := List.append_subset.mp within
    refine .bind (alike_eval agree left inLeft) fun l => ?_
    split
    · exact alike_eval agree right inRight
    · exact .pure _
  | .or left right, within => by
    obtain ⟨inLeft, inRight⟩ := List.append_subset.mp within
    refine .bind (alike_eval agree left inLeft) fun l => ?_
    split
    · exact .pure _
    · exact alike_eval agree right inRight
  | .cond body condition none, within => by
    obtain ⟨inBody, inCondition⟩ := List.append_subset.mp within
    refine .bind (alike_eval agree condition inCondition) fun c => ?_
    split
    · exact alike_eval agree body inBody
    · exact .pure _
  | .cond body condition (some otherwise), within => by
    obtain ⟨inBody, inRest⟩ := List.append_subset.mp within
    obtain ⟨inCondition, inOtherwise⟩ := List.append_subset.mp inRest
    refine .bind (alike_eval agree condition inCondition) fun c => ?_
    split
    · exact alike_eval agree body inBody
    · exact alike_eval agree otherwise inOtherwise
  | .binary op left right, within => by
    obtain ⟨inLeft, inRight⟩ := List.append_subset.mp within
    exact .bind (alike_eval agree left inLeft) fun _ => .bind (alike_eval agree right inRight) fun _ => .lift _
  | .attr target name, within => .bind (alike_eval agree target within) fun _ => .pure _
  | .index target position, within => by
    obtain ⟨inTarget, inPosition⟩ := List.append_subset.mp within
    refine .bind (alike_eval agree target inTarget) fun t =>
      .bind (alike_eval agree position inPosition) fun p => ?_
    split
    · exact .pure _
    · exact .pure _
  | .call name input args, within => by
    obtain ⟨inInput, inArgs⟩ := List.append_subset.mp within
    have here := alike_eval agree input inInput
    rw [eval_call, eval_call]
    refine .bind ?_ fun v => .bind (alike_evalArgs agree .empty args inArgs) fun _ => .lift _
    split
    · exact here.silently
    · exact here
theorem alike_evalItems (agree : first.Agree second names) :
    (items : List Expr) → mentionedItems items ⊆ names →
      Alike first second names (evalItems first items) (evalItems second items)
  | [], _ => .pure _
  | item :: rest, within => by
    obtain ⟨inItem, inRest⟩ := List.append_subset.mp within
    exact .bind (alike_eval agree item inItem) fun _ => .bind (alike_evalItems agree rest inRest) fun _ => .pure _
theorem alike_evalEntries (agree : first.Agree second names) (m : Mapping) :
    (entries : List (Expr × Expr)) → mentionedEntries entries ⊆ names →
      Alike first second names (evalEntries first m entries) (evalEntries second m entries)
  | [], _ => .pure _
  | (key, value) :: rest, within => by
    obtain ⟨inKey, inOthers⟩ := List.append_subset.mp within
    obtain ⟨inValue, inRest⟩ := List.append_subset.mp inOthers
    refine .bind (alike_eval agree key inKey) fun k => .bind (alike_eval agree value inValue) fun v => ?_
    cases v with
    | none => exact alike_evalEntries agree m rest inRest
    | some v => exact alike_evalEntries agree (Mapping.insert m (k.getD .null) v) rest inRest
theorem alike_evalArgs (agree : first.Agree second names) (args : Arguments) :
    (more : List (Option String × Expr)) → mentionedArgs more ⊆ names →
      Alike first second names (evalArgs first args more) (evalArgs second args more)
  | [], _ => .pure _
  | (keyword, value) :: rest, within => by
    obtain ⟨inValue, inRest⟩ := List.append_subset.mp within
    exact .bind (alike_eval agree value inValue) fun v =>
      alike_evalArgs agree (args.add keyword (v.getD .null)) rest inRest
end

/-- An expression depends on nothing but the variables that it mentions. In two scopes that agree on these it comes
to the same, be it a value, nothing or a failure, and warns of the same variables in the same order. Only what is
suggested in place of them may differ, for that is looked for among all names of the scope. -/
theorem finish_eval_of_agree {e : Expr} (agree : first.Agree second (mentioned e)) : ∃ outcome, ∃ missing :
    List String, (∀ name ∈ missing, name ∈ mentioned e ∧ first.get? name = none ∧ second.get? name = none) ∧
    ∀ warnings,
      (Evaluator.eval first e).finish warnings = (outcome, warnings ++ missing.map (undefinedWarning first)) ∧
      (Evaluator.eval second e).finish warnings = (outcome, warnings ++ missing.map (undefinedWarning second)) := by
  obtain ⟨same, missing, absent, left, right⟩ := alike_eval agree e (List.Subset.refl _)
  refine ⟨(eval first e).result, missing, absent, fun warnings => ⟨?_, ?_⟩⟩
  · rw [Evaluator.reports_eval, left]
  · rw [Evaluator.reports_eval, right, same]

theorem finish_eval_of_agree_suggesting :
    let e : Expr := .list [.var "a", .var "nmae", .call "default" (.var "b") [(none, .var "VARS")]]
    let first : Scope := ⟨[("a", .int 1), ("name", .null), ("VARS", .bool true)]⟩
    let second : Scope := ⟨[("VARS", .bool true), ("c", .str ""), ("a", .int 1)]⟩
    first.Agree second (mentioned e) ∧ ∃ outcome, ∃ missing : List String,
      (∀ name ∈ missing, name ∈ mentioned e ∧ first.get? name = none ∧ second.get? name = none) ∧ ∀ warnings,
        (Evaluator.eval first e).finish warnings = (outcome, warnings ++ missing.map (undefinedWarning first)) ∧
        (Evaluator.eval second e).finish warnings =
          (outcome, warnings ++ missing.map (undefinedWarning second)) := by
  intro e first second
  have same : ∀ name ∈ ["a", "nmae", "b", "VARS"], first.get? name = second.get? name := by
    simp only [List.forall_mem_cons]
    exact ⟨rfl, rfl, rfl, rfl, nofun⟩
  have agree : first.Agree second (mentioned e) := ⟨same, fun _ => ⟨rfl, rfl⟩⟩
  exact ⟨agree, finish_eval_of_agree agree⟩

end Expr

end ConfigWeave
