import ConfigWeave.Expr.Function
import ConfigWeave.Proofs.Hereditary.Operation

namespace ConfigWeave

namespace Expr.Arguments

/-- All arguments of a call have a property. -/
structure Every (C : Value → Prop) (args : Arguments) : Prop where
  positional : ∀ v ∈ args.positional, C v
  named : ∀ entry ∈ args.named, C entry.2

variable {C : Value → Prop} {args : Arguments}

theorem every_empty : empty.Every C :=
  ⟨nofun, nofun⟩

theorem forall_mem_setKeyword {keyword : String} {value : Value} (holds : C value) {named : List (String × Value)}
    (each : ∀ entry ∈ named, C entry.2) : ∀ entry ∈ setKeyword keyword value named, C entry.2 := by
  fun_induction setKeyword keyword value named with
  | case1 => exact List.forall_mem_singleton.mpr holds
  | case2 v rest => exact List.forall_mem_cons.mpr ⟨holds, (List.forall_mem_cons.mp each).2⟩
  | case3 k v rest _ ih =>
    obtain ⟨first, others⟩ := List.forall_mem_cons.mp each
    exact List.forall_mem_cons.mpr ⟨first, ih others⟩

theorem Every.add (every : args.Every C) (keyword : Option String) {value : Value} (holds : C value) :
    (args.add keyword value).Every C := by
  cases keyword with
  | none => exact ⟨List.forall_mem_append.mpr ⟨every.positional, List.forall_mem_singleton.mpr holds⟩, every.named⟩
  | some keyword => exact ⟨every.positional, forall_mem_setKeyword holds every.named⟩

theorem Every.get? (every : args.Every C) (position : Nat) (keyword : String) :
    IfAny C (args.get? position keyword) := by
  refine .orElse (fun v found => ?_) fun v found => every.positional v (List.mem_of_getElem? found)
  obtain ⟨before, after, same, _⟩ := List.lookup_eq_some_iff.mp found
  exact every.named (keyword, v) (by rw [same]; simp)

end Expr.Arguments

namespace Expr

theorem gives_sort {C : Value → Prop} {items : List Value} (each : ∀ item ∈ items, C item) :
    Gives (fun sorted => ∀ item ∈ sorted, C item) (sort items) := by
  refine .map .trivially fun places _ => List.forall_mem_map.mpr fun i _ => each _ ?_
  exact List.getElem_mem i.isLt

theorem forall_mem_unique {C : Value → Prop} {items : List Value} (each : ∀ item ∈ items, C item) :
    ∀ item ∈ unique items, C item := by
  have collected (seen : List Value) (before : ∀ item ∈ seen, C item) : ∀ item ∈
      items.foldl (fun seen v => if seen.any (·.looseEq v) then seen else v :: seen) seen, C item := by
    induction items generalizing seen with
    | nil => exact before
    | cons v rest ih =>
      obtain ⟨first, others⟩ := List.forall_mem_cons.mp each
      rw [List.foldl_cons]
      split
      · exact ih others seen before
      · exact ih others _ (List.forall_mem_cons.mpr ⟨first, before⟩)
  exact fun item member => collected [] (by simp) item (List.mem_reverse.mp member)

end Expr

namespace Value.Hereditary

variable {C : Value → Prop} (hereditary : Hereditary C)
include hereditary

theorem applyDefault {input : Option Value} (holds : IfAny C input) {args : Expr.Arguments}
    (arguments : args.Every C) :
    C (Expr.applyDefault input args) := by
  have fallback : C ((args.get? 0 "value").getD (.str "")) := (arguments.get? _ _).getD (hereditary.scalar trivial)
  unfold Expr.applyDefault
  split
  · exact fallback
  · exact fallback
  · rename_i v _
    dsimp only
    split
    · exact fallback
    · exact holds v rfl

omit hereditary in
theorem foldlM {follow : Value → Value → Option Value} {input : Value} (holds : C input) (steps : List Value)
    (each : ∀ v step, C v → IfAny C (follow v step)) : IfAny C (steps.foldlM follow input) := by
  induction steps generalizing input with
  | nil => exact .some holds
  | cons step rest ih =>
    intro w found
    obtain ⟨v, here, later⟩ := Option.bind_eq_some_iff.mp (List.foldlM_cons.symm.trans found)
    exact ih (each input step holds v here) w later

theorem dig {input : Value} (holds : C input) (path : List Value) : C (Expr.dig input path) := by
  refine (foldlM holds _ fun v step holds => ?_).getD (hereditary.scalar trivial)
  split
  · intro w found
    obtain ⟨i, _, here⟩ := Option.bind_eq_some_iff.mp found
    exact hereditary.lookup? holds _ w here
  · exact hereditary.lookup? holds _

theorem strings (parts : List String) : C (Expr.strings parts) := by
  refine hereditary.seq fun item member => ?_
  obtain ⟨_, _, rfl⟩ := List.mem_map.mp member
  exact hereditary.scalar trivial

section Families

/-! A function makes scalars of what it is given, or a collection of parts of it. -/

variable {input : Value} {e : ExprError}

theorem ofScalar {v : Value} (scalar : v.IsScalar) : Gives (ε := ExprError) (IfAny C) (.ok (some v)) :=
  .ok (.some (hereditary.scalar scalar))

/-- A function of sequences alone. -/
theorem ofItems (holds : C input) {f : List Value → Except ExprError (Option Value)}
    (known : ∀ items, (∀ item ∈ items, C item) → Gives (IfAny C) (f items)) :
    Gives (IfAny C) (match input with
      | .seq items => f items
      | _ => .error e) := by
  split
  · exact known _ (hereditary.items holds)
  · exact .error

/-- A function of sequences and strings. -/
theorem ofItemsOrText (holds : C input) {f : List Value → Except ExprError (Option Value)}
    {g : String → Except ExprError (Option Value)}
    (known : ∀ items, (∀ item ∈ items, C item) → Gives (IfAny C) (f items)) (known' : ∀ s, Gives (IfAny C) (g s)) :
    Gives (IfAny C) (match input with
      | .seq items => f items
      | .str s => g s
      | _ => .error e) := by
  split
  · exact known _ (hereditary.items holds)
  · exact known' _
  · exact .error

omit hereditary in
/-- A function of mappings alone. -/
theorem ofEntries (holds : C input) {f : Mapping → Except ExprError (Option Value)}
    (known : ∀ entries, C (.map entries) → Gives (IfAny C) (f entries)) :
    Gives (IfAny C) (match input with
      | .map entries => f entries
      | _ => .error e) := by
  split
  · exact known _ holds
  · exact .error

end Families

theorem character (c : Option Char) : IfAny C (c.map fun c => .str (String.singleton c)) :=
  .map (f := fun c => Value.str (String.singleton c)) (fun _ => hereditary.scalar trivial) c

omit hereditary in
theorem ofSorted {items : List Value} (each : ∀ item ∈ items, C item) {f : List Value → Option Value}
    (known : ∀ sorted, (∀ item ∈ sorted, C item) → IfAny C (f sorted)) :
    Gives (IfAny C) ((Expr.sort items).map f) :=
  (Expr.gives_sort each).map known

theorem round (signature : Expr.Signature) (places : Int) (input : Value) :
    Gives (IfAny C) (Expr.Signature.apply.round signature places input) := by
  unfold Expr.Signature.apply.round
  split
  · exact hereditary.ofScalar trivial
  · exact hereditary.ofScalar trivial
  · exact .error

section Apply

variable (signature : Expr.Signature) {input : Value} {args : Expr.Arguments}

/-- The functions that make a text, a number or a truth value out of any value, or texts out of a text. -/
theorem applyToText (family : signature.function ∈ [.label, .upper, .lower, .capitalize, .title, .trim, .strip,
    .replace,
      .repeat, .split, .startswith, .endswith, .contains, .length, .string, .bool, .tojson]) :
    Gives (IfAny C) (signature.apply input args) := by
  unfold Expr.Signature.apply
  generalize signature.function = function at family
  cases function with
  | replace =>
    dsimp only
    split
    · exact hereditary.ofScalar trivial
    · exact hereditary.ofScalar trivial
    · exact .error
  | «repeat» =>
    dsimp only
    split
    · exact .map .trivially fun _ _ => .some (hereditary.scalar trivial)
    · exact .error
  | split =>
    dsimp only
    split
    · exact .ok (.some (hereditary.strings _))
    · exact .ok (.some (hereditary.strings _))
  | length =>
    dsimp only
    split
    iterate 3 exact hereditary.ofScalar trivial
    · exact .error
  | label | upper | lower | capitalize | title | trim | strip | startswith | endswith | contains | string | bool
  | tojson =>
    exact hereditary.ofScalar trivial
  | _ => exact absurd family (by decide)

/-- The functions of numbers. -/
theorem applyToNumber (family : signature.function ∈ [.abs, .round]) :
    Gives (IfAny C) (signature.apply input args) := by
  unfold Expr.Signature.apply
  generalize signature.function = function at family
  cases function with
  | abs =>
    dsimp only
    split
    · exact hereditary.ofScalar trivial
    · exact hereditary.ofScalar trivial
    · exact .error
  | round =>
    dsimp only
    split
    · exact hereditary.round signature _ _
    · exact hereditary.round signature _ _
    · exact .error
  | _ => exact absurd family (by decide)

/-- The functions that read a number and have a fallback. -/
theorem applyToNumeral (arguments : args.Every C) (family : signature.function ∈ [.int, .float]) :
    Gives (IfAny C) (signature.apply input args) := by
  unfold Expr.Signature.apply
  generalize signature.function = function at family
  have fallback {v : Value} (scalar : v.IsScalar) : C ((args.get? 0 "default").getD v) :=
    (arguments.get? _ _).getD (hereditary.scalar scalar)
  cases function with
  | int | float =>
    dsimp only
    split
    · exact hereditary.ofScalar trivial
    · exact .ok (.some (fallback trivial))
  | _ => exact absurd family (by decide)

variable (holds : C input)
include holds

/-- The functions of mappings. -/
theorem applyToEntries (family : signature.function ∈ [.keys, .values]) :
    Gives (IfAny C) (signature.apply input args) := by
  unfold Expr.Signature.apply
  generalize signature.function = function at family
  cases function with
  | keys => exact ofEntries holds fun _ holds => .ok (.some (hereditary.keys holds))
  | values => exact ofEntries holds fun _ holds => .ok (.some (hereditary.values holds))
  | _ => exact absurd family (by decide)

/-- The functions of sequences, some of strings too. -/
theorem applyToItems (family : signature.function ∈ [.join, .first, .last, .reverse, .sort, .unique, .min, .max]) :
    Gives (IfAny C) (signature.apply input args) := by
  unfold Expr.Signature.apply
  generalize signature.function = function at family
  cases function with
  | join => exact hereditary.ofItems holds fun _ _ => hereditary.ofScalar trivial
  | first =>
    exact hereditary.ofItemsOrText holds (fun _ each => .ok (.of_mem each fun _ => List.mem_of_head?)) fun _ =>
      .ok (hereditary.character _)
  | last =>
    exact hereditary.ofItemsOrText holds (fun _ each => .ok (.of_mem each fun _ => List.mem_of_getLast?)) fun _ =>
      .ok (hereditary.character _)
  | reverse =>
    refine hereditary.ofItemsOrText holds (fun _ each => .ok (.some (hereditary.seq ?_))) fun _ =>
      hereditary.ofScalar trivial
    exact fun item member => each item (List.mem_reverse.mp member)
  | sort => exact hereditary.ofItems holds fun _ each => ofSorted each fun _ each => .some (hereditary.seq each)
  | unique =>
    exact hereditary.ofItems holds fun _ each => .ok (.some (hereditary.seq (Expr.forall_mem_unique each)))
  | min =>
    exact hereditary.ofItems holds fun _ each => ofSorted each fun _ each => .of_mem each fun _ => List.mem_of_head?
  | max =>
    exact hereditary.ofItems holds fun _ each => ofSorted each fun _ each => .of_mem each fun _ =>
      List.mem_of_getLast?
  | _ => exact absurd family (by decide)

theorem apply (arguments : args.Every C) : Gives (IfAny C) (signature.apply input args) := by
  cases function : signature.function with
  | default =>
    unfold Expr.Signature.apply
    rw [function]
    exact .ok (.some (hereditary.applyDefault (.some holds) arguments))
  | dig =>
    unfold Expr.Signature.apply
    rw [function]
    exact .ok (.some (hereditary.dig holds _))
  | join | first | last | reverse | sort | unique | min | max =>
    exact hereditary.applyToItems signature holds (by rw [function]; decide)
  | keys | values => exact hereditary.applyToEntries signature holds (by rw [function]; decide)
  | int | float => exact hereditary.applyToNumeral signature arguments (by rw [function]; decide)
  | abs | round => exact hereditary.applyToNumber signature (by rw [function]; decide)
  | _ => exact hereditary.applyToText signature (by rw [function]; decide)

end Apply

theorem untag {v : Value} (holds : C v) : C (Expr.untag v) := by
  unfold Expr.untag
  split
  · exact hereditary.payload holds
  · exact holds

theorem callFunction (name : String) {input : Option Value} (holds : IfAny C input) {args : Expr.Arguments}
    (arguments : args.Every C) : Gives (IfAny C) (Expr.callFunction name input args) := by
  unfold Expr.callFunction
  refine .bind .trivially fun signature _ => ?_
  split
  · exact .ok (.some (hereditary.applyDefault holds arguments))
  · cases input with
    | none => exact .ok .none
    | some v => exact hereditary.apply signature (hereditary.untag (holds v rfl)) arguments

end Value.Hereditary

end ConfigWeave
