import ConfigWeave.Interpolation
import ConfigWeave.Proofs.Expr.Elementary
import ConfigWeave.Proofs.Expr.Warnings
import ConfigWeave.Proofs.Hereditary.Function
import ConfigWeave.Proofs.Hereditary.Scope

namespace ConfigWeave

theorem Expr.gives_silently {α : Type} {post : α → Prop} {x : Eval α} (gives : Gives post x.result) :
    Gives post (silently x).result := by
  unfold silently
  split
  · rename_i a same
    exact .ok (gives a same)
  · exact gives

namespace Value.Hereditary

variable {C : Value → Prop} {scope : Scope}

theorem variableValue (hereditary : Hereditary C) (known : C scope.toValue) (name : String) :
    Gives (IfAny C) (Expr.variableValue scope name).result := by
  unfold Expr.variableValue
  split
  · rename_i v found
    exact .ok (.some (hereditary.of_get? known found))
  · split
    · exact .ok (.some known)
    · exact .ok .none

section Forms

/-! What a form makes of its operands, for each kind of form. -/

variable (hereditary : Hereditary C) {operand left right body condition target position input : Expr}
include hereditary

theorem eval_neg (here : Gives (IfAny C) (Expr.eval scope operand).result) :
    Gives (IfAny C) (Expr.eval scope (.neg operand)).result := by
  refine .traced here fun v _ => ?_
  cases v with
  | none => exact .ok .none
  | some v => exact .traced (hereditary.negate v) fun _ holds => .ok (.some holds)

theorem eval_not : Gives (IfAny C) (Expr.eval scope (.not operand)).result :=
  .traced .trivially fun _ _ => .ok (.some (hereditary.scalar trivial))

theorem eval_binary (op : BinaryOp) (first : Gives (IfAny C) (Expr.eval scope left).result)
    (second : Gives (IfAny C) (Expr.eval scope right).result) :
    Gives (IfAny C) (Expr.eval scope (.binary op left right)).result :=
  .traced first fun _ here => .traced second fun _ there => hereditary.applyBinary op here there

omit hereditary in
/-- An operand decides which of two computations goes on, or ends with it. -/
theorem eval_chosen {chosen : Option Value → Prop} {first second : Option Value → Expr.Eval (Option Value)}
    (here : Gives chosen (Expr.eval scope operand).result) (yes : ∀ v, chosen v → Gives (IfAny C) (first v).result)
    (no : ∀ v, chosen v → Gives (IfAny C) (second v).result) : Gives (IfAny C)
      (Expr.eval scope operand >>= fun v => if Expr.isTrue v then first v else second v).result := by
  refine .traced here fun v known => ?_
  split
  · exact yes v known
  · exact no v known

theorem eval_attr (name : String) (here : Gives (IfAny C) (Expr.eval scope target).result) :
    Gives (IfAny C) (Expr.eval scope (.attr target name)).result := by
  refine .traced here fun t here => .ok ?_
  cases t with
  | none => exact .none
  | some t => exact hereditary.attribute? (here t rfl) name

theorem eval_index (here : Gives (IfAny C) (Expr.eval scope target).result) :
    Gives (IfAny C) (Expr.eval scope (.index target position)).result := by
  refine .traced here fun t here => .traced .trivially fun p _ => ?_
  split
  · exact .ok (hereditary.lookup? (here _ rfl) _)
  · exact .ok .none

theorem eval_call (name : String) {args : List (Option String × Expr)}
    (here : Gives (IfAny C) (Expr.eval scope input).result)
    (arguments : Gives (Expr.Arguments.Every C) (Expr.evalArgs scope .empty args).result) :
    Gives (IfAny C) (Expr.eval scope (.call name input args)).result := by
  have called (v : Option Value) (holds : IfAny C v) : Gives (IfAny C)
      (Expr.evalArgs scope .empty args >>= fun args => .lift (Expr.callFunction name v args)).result :=
    .traced arguments fun _ every => hereditary.callFunction name holds every
  simp only [Expr.eval]
  split
  · exact .traced (Expr.gives_silently here) called
  · exact .traced here called

end Forms

mutual
/-- Whatever an expression takes apart and puts together of the values in its scope has their property. -/
theorem eval (hereditary : Hereditary C) (known : C scope.toValue) :
    (e : Expr) → e.Elementary → Gives (IfAny C) (Expr.eval scope e).result
  | .lit v, elementary => by
    cases elementary with
    | lit scalar => exact .ok (.some (hereditary.scalar scalar))
  | .var name, _ => hereditary.variableValue known name
  | .list items, elementary => by
    cases elementary with
    | list each =>
      exact .traced (hereditary.evalItems known items each) fun _ each => .ok (.some (hereditary.seq each))
  | .map entries, elementary => by
    cases elementary with
    | map keys values =>
      have each : Expr.EntriesElementary entries := fun entry member => ⟨keys entry member, values entry member⟩
      exact .traced (hereditary.evalEntries known hereditary.map_nil entries each) fun _ holds => .ok (.some holds)
  | .neg operand, elementary => by
    cases elementary with
    | neg inner => exact hereditary.eval_neg (hereditary.eval known operand inner)
  | .not operand, _ => hereditary.eval_not
  | .and left right, elementary => by
    cases elementary with
    | and first second =>
      exact eval_chosen (hereditary.eval known left first) (fun _ _ => hereditary.eval known right second)
        fun _ => .ok
  | .or left right, elementary => by
    cases elementary with
    | or first second =>
      exact eval_chosen (hereditary.eval known left first) (fun _ => .ok) fun _ _ =>
        hereditary.eval known right second
  | .cond body condition none, elementary => by
    cases elementary with
    | cond inner =>
      exact eval_chosen .trivially (fun _ _ => hereditary.eval known body inner) fun _ _ => .ok .none
  | .cond body condition (some otherwise), elementary => by
    cases elementary with
    | cond inner _ other =>
      exact eval_chosen .trivially (fun _ _ => hereditary.eval known body inner) fun _ _ =>
        hereditary.eval known otherwise (other otherwise rfl)
  | .binary op left right, elementary => by
    cases elementary with
    | binary first second =>
      exact hereditary.eval_binary op (hereditary.eval known left first) (hereditary.eval known right second)
  | .attr target name, elementary => by
    cases elementary with
    | attr inner => exact hereditary.eval_attr name (hereditary.eval known target inner)
  | .index target position, elementary => by
    cases elementary with
    | index inner => exact hereditary.eval_index (hereditary.eval known target inner)
  | .call name input args, elementary => by
    cases elementary with
    | call inner each =>
      exact hereditary.eval_call name (hereditary.eval known input inner)
        (hereditary.evalArgs known Expr.Arguments.every_empty args each)
theorem evalItems (hereditary : Hereditary C) (known : C scope.toValue) :
    (items : List Expr) → (∀ item ∈ items, item.Elementary) →
      Gives (fun items => ∀ item ∈ items, C item) (Expr.evalItems scope items).result
  | [], _ => .ok (by simp)
  | item :: rest, elementary => by
    obtain ⟨first, others⟩ := List.forall_mem_cons.mp elementary
    refine .traced (hereditary.eval known item first) fun v here => ?_
    refine .traced (hereditary.evalItems known rest others) fun items later => .ok ?_
    exact List.forall_mem_append.mpr ⟨fun w member => here w (Option.mem_toList.mp member), later⟩
theorem evalEntries (hereditary : Hereditary C) (known : C scope.toValue) {m : Mapping} (before : C (.map m)) :
    (entries : List (Expr × Expr)) → Expr.EntriesElementary entries →
      Gives (fun m => C (.map m)) (Expr.evalEntries scope m entries).result
  | [], _ => .ok before
  | (key, value) :: rest, elementary => by
    obtain ⟨⟨keyElementary, valueElementary⟩, others⟩ := List.forall_mem_cons.mp elementary
    refine .traced (hereditary.eval known key keyElementary) fun k here => ?_
    refine .traced (hereditary.eval known value valueElementary) fun v there => ?_
    cases v with
    | none => exact hereditary.evalEntries known before rest others
    | some v =>
      have keyOrNull : C (k.getD .null) := here.getD (hereditary.scalar trivial)
      exact hereditary.evalEntries known (hereditary.insert before keyOrNull (there v rfl)) rest others
theorem evalArgs (hereditary : Hereditary C) (known : C scope.toValue) {args : Expr.Arguments}
    (before : args.Every C) :
    (more : List (Option String × Expr)) → Expr.ArgumentsElementary more →
      Gives (Expr.Arguments.Every C) (Expr.evalArgs scope args more).result
  | [], _ => .ok before
  | (keyword, value) :: rest, elementary => by
    obtain ⟨first, others⟩ := List.forall_mem_cons.mp elementary
    refine .traced (hereditary.eval known value first) fun v here => ?_
    have valueOrNull : C (v.getD .null) := here.getD (hereditary.scalar trivial)
    exact hereditary.evalArgs known (before.add keyword valueOrNull) rest others
end

theorem evaluateLogged (hereditary : Hereditary C) (known : C scope.toValue) (source : String) :
    Gives (IfAny C) (ConfigWeave.evaluateLogged scope source).result := by
  have evaluated : Gives (IfAny C) (Expr.evaluate scope source).result := by
    rw [Expr.evaluate_eq]
    exact .traced (fun e accepted => Expr.elementary_of_parse accepted) fun e elementary =>
      hereditary.eval known e elementary
  unfold ConfigWeave.evaluateLogged
  split
  · exact .ok .none
  · dsimp only
    split
    · rename_i v done
      exact .ok (evaluated v done)
    · exact .error
    · exact .ok .none

/-- What placeholders are replaced by has the property of all that their expressions can refer to. -/
theorem interpolate (hereditary : Hereditary C) (known : C scope.toValue) (p : Pattern) (text : String) :
    Gives (IfAny C) (ConfigWeave.interpolate p scope text).result := by
  unfold ConfigWeave.interpolate
  split
  · exact .ok .none
  · exact .traced (hereditary.evaluateLogged known _) fun _ holds =>
      .ok (.some (holds.getD (hereditary.scalar trivial)))
  · exact .traced .trivially fun _ _ => .ok (.some (hereditary.scalar trivial))

end Value.Hereditary

end ConfigWeave
