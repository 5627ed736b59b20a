import ConfigWeave.Proofs.Compositional.Document
import ConfigWeave.Proofs.Hereditary.Expression

namespace ConfigWeave

theorem Value.hereditary_keysDistinct : Value.Hereditary Value.KeysDistinct where
  seq := everyMapping_seq_iff.mpr
  items := everyMapping_seq_iff.mp
  map here each := everyMapping_map_iff.mpr ⟨here, each⟩
  entries distinct := (everyMapping_map_iff.mp distinct).2
  insert distinct key value := distinct.insert key value
  scalar scalar := scalar.everyMapping _
  payload := everyMapping_tagged_iff.mp
  distinct distinct := (everyMapping_map_iff.mp distinct).1

/-- No variable of a scope has two values, and in none of the values a key stands twice. -/
def Scope.KeysDistinct (scope : Scope) : Prop :=
  scope.toValue.KeysDistinct

/-- In none of the bodies of templates a key stands twice. -/
def Templates.KeysDistinct (templates : Templates) : Prop :=
  ∀ name body, templates.get? name = some body → body.KeysDistinct

/-- What is composed of trees with distinct keys has distinct keys, as have all values of variables in between. -/
def Quality.distinctKeys : Quality where
  Written := Value.KeysDistinct
  Composed := Value.KeysDistinct
  Sound := Scope.KeysDistinct
  written := id
  writtenItems := Value.hereditary_keysDistinct.items
  writtenEntries distinct entry member :=
    (Value.hereditary_keysDistinct.entries distinct entry member).imp_left .inl
  withoutSections distinct := Value.hereditary_keysDistinct.sublist distinct (Mapping.withoutSections_sublist _)
  below := Value.everyMapping_tagged_iff.mpr
  payload distinct _ _ := Value.hereditary_keysDistinct.payload distinct
  kept distinct _ := distinct
  scalar := Value.hereditary_keysDistinct.scalar
  seq := Value.hereditary_keysDistinct.seq
  items := Value.hereditary_keysDistinct.items
  entries := Value.hereditary_keysDistinct.entries
  replacement := Value.everyMapping_tagged_iff.mpr
  collected := Value.hereditary_keysDistinct.collected
  merged := Value.hereditary_keysDistinct.merged
  deepMerge := Value.hereditary_keysDistinct.deepMerge
  withoutHidden distinct := Value.hereditary_keysDistinct.sublist distinct List.filter_sublist
  values := Value.hereditary_keysDistinct.boundValues
  define distinct value := Value.hereditary_keysDistinct.define distinct _ value
  unprotected := Value.hereditary_keysDistinct.unprotected
  interpolated distinct p text v spliced :=
    Value.hereditary_keysDistinct.interpolate distinct p text _ spliced v rfl

/-- Files that are composed like that have distinct keys. -/
def Composition.KeepsKeysDistinct (compose : Composition) : Prop :=
  ∀ stack file given v, given.KeysDistinct → (compose stack file given).result = .ok v → v.KeysDistinct

namespace World

open Compositional

variable (world : World) {nested : Option Composition} (within : ∀ compose ∈ nested, compose.KeepsKeysDistinct)
include within

theorem keysDistinct_inclusion (stack : List Path) (file : Path) (lines : LineIndex) (mark : Nat)
    {arguments : Arguments} (known : Quality.distinctKeys.Given arguments) {scope : Scope}
    (distinct : scope.KeysDistinct) :
    always.Ensures Value.KeysDistinct fun _ => world.inclusion nested stack file lines mark arguments scope := by
  have worlds : Worlds fun _ : Unit => world := .same world
  refine worlds.ensures_inclusion (Q := .distinctKeys) stack file lines mark known distinct fun target _ _ => ?_
  cases nested with
  | none => exact .inl fun _ => rfl
  | some compose =>
    refine .inr ⟨fun _ => compose, fun _ => rfl, fun messages inherited sound => ⟨trivial, fun _ v done => ?_⟩⟩
    exact within compose rfl _ _ _ v sound done

theorem documents_distinctKeys (stack : List Path) (file : Path) (text : String) :
    always.Documents .distinctKeys fun _ => world.document nested stack file text :=
  ⟨⟨file, fun _ => rfl⟩, ⟨.ofText text, fun _ => rfl⟩, fun mark _ _ known sound =>
    world.keysDistinct_inclusion within stack file (.ofText text) mark known sound⟩

theorem keysDistinct_composeWith : Composition.KeepsKeysDistinct (world.composeWith nested) := by
  intro stack file given v distinct done
  have builtins : ∃ scope : Scope, scope.KeysDistinct ∧ ∀ _ : Unit, world.builtins file = scope :=
    ⟨_, Value.hereditary_keysDistinct.builtin _ _ _ _, fun _ => rfl⟩
  have reading : always.Ensures (fun text => ∀ content, Yaml.parse? text = some content → content.KeysDistinct)
      fun _ => world.readText file :=
    ⟨trivial, fun _ _ _ _ parsed => Yaml.keysDistinct_of_parse parsed⟩
  have composed : always.Ensures Value.KeysDistinct fun _ => world.composeWith nested stack file given :=
    ensures_composeWith (Q := .distinctKeys) builtins distinct reading fun lines mark arguments scope known sound =>
      world.keysDistinct_inclusion within stack file lines mark known sound
  exact composed.result () v done

omit within in
/-- Whatever is composed within any depth has distinct keys. -/
theorem keysDistinct_nested (depth : Nat) : ∀ compose ∈ world.nested depth, compose.KeepsKeysDistinct := by
  induction depth with
  | zero => nofun
  | succ depth ih =>
    rintro _ ⟨⟩
    exact world.keysDistinct_composeWith ih

end World

end ConfigWeave
