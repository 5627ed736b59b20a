import ConfigWeave.Proofs.Overriding
import ConfigWeave.Proofs.Settled.Tree

namespace ConfigWeave

namespace Value

/-- The tree that remains of a document once its overrides are applied, if there are any. -/
def overridden (v : Value) : Value :=
  if v.hasOverride then v.applyOverrides?.getD .null else v

theorem finished_eq (v : Value) : v.finished = v.overridden.untagged.withoutNullKeys :=
  rfl

/-- Nothing that a tag asks for is left to be done in a tree, but to apply its overrides. -/
structure Resolved (v : Value) : Prop where
  overrides : ∀ tag mark payload, Part (.tagged tag mark payload) v → tag = .removal ∨ tag = .replacement
  tagFree : v.overridden.TagFree
  untagged : v.overridden.untagged = v.overridden

theorem hasOverride_of_part {tag : Tag} {mark : Nat} {payload v : Value} (part : Part (.tagged tag mark payload) v)
    (overrides : tag.isOverride = true) : v.hasOverride = true := by
  induction part with
  | self => rw [hasOverride, overrides, Bool.true_or]
  | item member _ ih => exact anyItemOverrides_of_mem member ih
  | key member _ ih => exact anyEntryOverrides_of_mem member (.inl ih)
  | value member _ ih => exact anyEntryOverrides_of_mem member (.inr ih)
  | payload _ ih =>
    rw [hasOverride, Bool.or_eq_true]
    exact .inr ih

namespace Settled

theorem overrides {v : Value} (settled : v.Settled) {tag : Tag} {mark : Nat} {payload : Value}
    (part : Part (.tagged tag mark payload) v) : tag = .removal ∨ tag = .replacement := by
  induction settled with
  | scalar scalar =>
    cases part with
    | self | item | key | value | payload => exact scalar.elim
  | seq _ ih =>
    cases part with
    | item member inside => exact ih _ member inside
  | map _ _ _ keys values =>
    cases part with
    | key member inside => exact keys _ member inside
    | value member inside => exact values _ member inside
  | removal free _ =>
    cases part with
    | self => exact .inl rfl
    | payload inside => exact absurd inside (free _ _ _)
  | replacement _ ih =>
    cases part with
    | self => exact .inr rfl
    | payload inside => exact ih inside

theorem overridesOnly {v : Value} (settled : v.Settled) : v.OverridesOnly := by
  intro tag mark payload standing
  rcases settled.overrides standing.part with rfl | rfl <;> rfl

theorem overridden {v : Value} (settled : v.Settled) : v.overridden.TagFree ∧ v.overridden.KeysDistinct := by
  unfold Value.overridden
  split
  · cases remains : v.applyOverrides? with
    | none => exact ⟨fun _ _ _ part => (by cases part), keysDistinct_null⟩
    | some w => exact ⟨settled.overridesOnly.tagFree remains, settled.keysDistinct.applyOverrides? remains⟩
  · rename_i none
    refine ⟨fun tag mark payload part => none (hasOverride_of_part part ?_), settled.keysDistinct⟩
    rcases settled.overrides part with rfl | rfl <;> rfl

theorem resolved {v : Value} (settled : v.Settled) : v.Resolved :=
  ⟨fun _ _ _ => settled.overrides, settled.overridden.1,
    untagged_of_tagFree settled.overridden.1 settled.overridden.2⟩

end Settled

end Value

end ConfigWeave
