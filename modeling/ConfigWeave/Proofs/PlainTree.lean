import ConfigWeave.Proofs.ParsedTree

namespace ConfigWeave

/-- Entries that are distinct already are inserted as they are. -/
theorem Mapping.insertAll_of_distinct {m : Mapping} {entries : List (Value × Value)}
    (distinct : Distinct (m ++ entries)) :
    insertAll m entries = m ++ entries := by
  induction entries generalizing m with
  | nil => rw [List.append_nil, insertAll, List.foldl_nil]
  | cons entry rest ih =>
    obtain ⟨key, value⟩ := entry
    have absent : contains m key = false := by
      obtain ⟨_, _, apart⟩ := List.pairwise_append.mp distinct
      simp only [contains, List.any_eq_false, Bool.not_eq_true]
      exact fun other member => apart other member (key, value) List.mem_cons_self
    rw [insertAll, List.foldl_cons, insert_of_not_contains absent, ← insertAll, ih, List.append_assoc]
    · rfl
    · rwa [List.append_assoc]

theorem Mapping.ofList_of_distinct {m : Mapping} (distinct : m.Distinct) : Mapping.ofList m = m :=
  insertAll_of_distinct distinct

namespace Value

theorem NullKeyFree.of_mem_seq {items : List Value} (free : (Value.seq items).NullKeyFree) {item : Value}
    (member : item ∈ items) : item.NullKeyFree :=
  fun entries reached => free entries (.item member reached)

theorem NullKeyFree.of_mem_map {entries : List (Value × Value)} (free : (Value.map entries).NullKeyFree)
    {entry : Value × Value} (member : entry ∈ entries) : entry.1 ≠ .null ∧ entry.2.NullKeyFree :=
  ⟨free entries (.self _) entry member, fun inner reached => free inner (.value member reached)⟩

theorem TagFree.not_tagged {tag : Tag} {mark : Nat} {payload : Value} : ¬ (Value.tagged tag mark payload).TagFree :=
  fun free => free tag mark payload (.self _)

theorem untagged_of_tagFree {v : Value} (free : v.TagFree) (distinct : v.KeysDistinct) : v.untagged = v := by
  induction v with
  | scalar v isScalar => exact isScalar.untagged
  | seq items ih =>
    have same : ∀ item ∈ items, item.untagged = item := fun item member =>
      ih item member (free.of_mem_seq member) (everyMapping_seq_iff.mp distinct item member)
    rw [untagged, untaggedItems_eq, List.map_congr_left same, List.map_id']
  | map entries ih =>
    obtain ⟨here, below⟩ := everyMapping_map_iff.mp distinct
    have same : ∀ entry ∈ entries, (entry.1.untagged, entry.2.untagged) = entry := fun entry member => by
      obtain ⟨keyFree, valueFree⟩ := free.of_mem_map member
      obtain ⟨keyDistinct, valueDistinct⟩ := below entry member
      rw [(ih entry member).1 keyFree keyDistinct, (ih entry member).2 valueFree valueDistinct]
    rw [untagged, untaggedEntries_eq, List.map_congr_left same, List.map_id', Mapping.ofList_of_distinct here]
  | tagged => exact absurd free TagFree.not_tagged

theorem withoutNullKeys_of_nullKeyFree {v : Value} (free : v.NullKeyFree) : v.withoutNullKeys = v := by
  induction v with
  | scalar v isScalar => exact isScalar.withoutNullKeys
  | seq items ih =>
    have same : ∀ item ∈ items, item.withoutNullKeys = item := fun item member =>
      ih item member (free.of_mem_seq member)
    rw [withoutNullKeys, itemsWithoutNullKeys_eq, List.map_congr_left same, List.map_id']
  | map entries ih =>
    have named : ∀ entry ∈ entries, (!entry.1.isNull) = true := fun entry member => by
      rw [isNull_eq_false_iff.mpr (free.of_mem_map member).1, Bool.not_false]
    have same : ∀ entry ∈ entries, (entry.1, entry.2.withoutNullKeys) = entry := fun entry member => by
      rw [(ih entry member).2 (free.of_mem_map member).2]
    rw [withoutNullKeys, entriesWithoutNullKeys_eq, List.filter_eq_self.mpr named, List.map_congr_left same,
      List.map_id']
  | tagged => rfl

theorem TagFree.hasOverride {v : Value} (free : v.TagFree) : v.hasOverride = false := by
  induction v with
  | scalar v isScalar => exact isScalar.hasOverride
  | seq items ih =>
    rw [Value.hasOverride, anyItemOverrides_eq, List.any_eq_false]
    intro item member
    rw [ih item member (free.of_mem_seq member)]
    exact Bool.false_ne_true
  | map entries ih =>
    rw [Value.hasOverride, anyEntryOverrides_eq, List.any_eq_false]
    intro entry member
    obtain ⟨key, value⟩ := free.of_mem_map member
    rw [(ih entry member).1 key, (ih entry member).2 value]
    exact Bool.false_ne_true
  | tagged => exact absurd free TagFree.not_tagged

/-- Of a tree without tags nothing is left to be done but to take null keys out of it. -/
theorem finished_of_tagFree {v : Value} (tagFree : v.TagFree) (distinct : v.KeysDistinct) :
    v.finished = v.withoutNullKeys := by
  simp only [finished, tagFree.hasOverride, Bool.false_eq_true, if_false, untagged_of_tagFree tagFree distinct]

/-- A clean tree is finished. -/
theorem finished_of_clean {v : Value} (tagFree : v.TagFree) (nullKeyFree : v.NullKeyFree)
    (distinct : v.KeysDistinct) :
    v.finished = v := by
  rw [finished_of_tagFree tagFree distinct, withoutNullKeys_of_nullKeyFree nullKeyFree]

end Value

namespace Value

/-- The values that a tree is made of, but for those below nodes with a certain tag. -/
inductive Outside (closed : Tag) : Value → Value → Prop
  | self (v : Value) : Outside closed v v
  | item {part item : Value} {items : List Value} :
      item ∈ items → Outside closed part item → Outside closed part (.seq items)
  | key {part : Value} {entry : Value × Value} {entries : List (Value × Value)} :
      entry ∈ entries → Outside closed part entry.1 → Outside closed part (.map entries)
  | value {part : Value} {entry : Value × Value} {entries : List (Value × Value)} :
      entry ∈ entries → Outside closed part entry.2 → Outside closed part (.map entries)
  | payload {part payload : Value} {tag : Tag} {mark : Nat} :
      tag ≠ closed → Outside closed part payload → Outside closed part (.tagged tag mark payload)

/-- What stands in a tree outside of all that is to be removed. -/
abbrev Standing := Outside .removal

theorem Outside.part {closed : Tag} {inner v : Value} (outside : Outside closed inner v) : Part inner v := by
  induction outside with
  | self => exact .self _
  | item member _ ih => exact .item member ih
  | key member _ ih => exact .key member ih
  | value member _ ih => exact .value member ih
  | payload _ _ ih => exact .payload ih

theorem Outside.trans {closed : Tag} {inner middle v : Value} (inside : Outside closed inner middle)
    (outside : Outside closed middle v) : Outside closed inner v := by
  induction outside with
  | self => exact inside
  | item member _ ih => exact .item member ih
  | key member _ ih => exact .key member ih
  | value member _ ih => exact .value member ih
  | payload apart _ ih => exact .payload apart ih

/-- A tree with no other tags than those that override, whatever there is below what is to be removed. -/
def OverridesOnly (v : Value) : Prop :=
  ∀ tag mark payload, Standing (.tagged tag mark payload) v → tag.isOverride = true

theorem TagFree.overridesOnly {v : Value} (free : v.TagFree) : v.OverridesOnly :=
  fun _ _ _ standing => absurd standing.part (free _ _ _)

theorem OverridesOnly.of_mem_seq {items : List Value} (only : (Value.seq items).OverridesOnly) {item : Value}
    (member : item ∈ items) : item.OverridesOnly :=
  fun _ _ _ standing => only _ _ _ (.item member standing)

theorem OverridesOnly.of_mem_map {entries : List (Value × Value)} (only : (Value.map entries).OverridesOnly)
    {entry : Value × Value} (member : entry ∈ entries) : entry.1.OverridesOnly ∧ entry.2.OverridesOnly :=
  ⟨fun _ _ _ standing => only _ _ _ (.key member standing), fun _ _ _ standing =>
    only _ _ _ (.value member standing)⟩

theorem OverridesOnly.of_replacement {mark : Nat} {payload : Value}
    (only : (Value.tagged .replacement mark payload).OverridesOnly) : payload.OverridesOnly :=
  fun _ _ _ standing => only _ _ _ (.payload (by decide) standing)

/-- A merge key is none of the keys. -/
theorem OverridesOnly.mergeKey_beq {key : Value} (only : key.OverridesOnly) : (mergeKey == key) = false := by
  cases key with
  | tagged tag mark payload =>
    match tag, only tag mark payload (.self _) with
    | .removal, _ | .replacement, _ => rfl
  | _ => rfl

end Value

theorem Site.resolveMergeKey_of_overridesOnly (site : Site) {m : Mapping}
    (only : ∀ entry ∈ m, entry.1.OverridesOnly) :
    site.resolveMergeKey m = pure m := by
  have absent : m.get? Value.mergeKey = none := by
    rw [Mapping.get?, List.find?_eq_none.mpr, Option.map_none]
    intro entry member
    rw [(only entry member).mergeKey_beq]
    exact Bool.false_ne_true
  rw [resolveMergeKey, absent]

mutual
/-- Without patterns, and without other tags than those that override, nothing is carried out. -/
theorem transform_of_overridesOnly (site : Site) (scope : Scope) : {v : Value} → v.OverridesOnly → v.KeysDistinct →
    transform site scope none v = pure (some v)
  | .seq _, only, distinct => by
    rw [transform, transformItems_of_overridesOnly site scope (fun _ => only.of_mem_seq)
      (Value.everyMapping_seq_iff.mp distinct)]
    rfl
  | .map entries, only, distinct => by
    obtain ⟨here, below⟩ := Value.everyMapping_map_iff.mp distinct
    have keysOnly : ∀ entry ∈ entries, entry.1.OverridesOnly := fun _ member => (only.of_mem_map member).1
    rw [transform, transformEntries_of_overridesOnly site scope (fun _ => only.of_mem_map) below, pure_bind,
      Mapping.ofList_of_distinct here, site.resolveMergeKey_of_overridesOnly keysOnly]
    rfl
  | .tagged tag mark payload, only, distinct => by
    have override := only tag mark payload (.self _)
    match tag, override, only with
    | .removal, _, _ => rw [transform]
    | .replacement, _, only =>
      have below := transform_of_overridesOnly site scope only.of_replacement
        (Value.everyMapping_tagged_iff.mp distinct)
      simp only [transform, below, pure_bind, Option.getD_some]
  | .null, _, _ | .bool _, _, _ | .int _, _, _ | .float _, _, _ | .str _, _, _ => by rw [transform]
theorem transformItems_of_overridesOnly (site : Site) (scope : Scope) : {items : List Value} →
    (∀ item ∈ items, item.OverridesOnly) → (∀ item ∈ items, item.KeysDistinct) →
    transformItems site scope none items = pure items
  | [], _, _ => rfl
  | _ :: _, only, distinct => by
    obtain ⟨only, onlyRest⟩ := List.forall_mem_cons.mp only
    obtain ⟨distinct, distinctRest⟩ := List.forall_mem_cons.mp distinct
    rw [transformItems, transform_of_overridesOnly site scope only distinct,
      transformItems_of_overridesOnly site scope onlyRest distinctRest]
    rfl
theorem transformEntries_of_overridesOnly (site : Site) (scope : Scope) : {entries : List (Value × Value)} →
    (∀ entry ∈ entries, entry.1.OverridesOnly ∧ entry.2.OverridesOnly) →
    (∀ entry ∈ entries, entry.1.KeysDistinct ∧ entry.2.KeysDistinct) →
    transformEntries site scope none entries = pure entries
  | [], _, _ => rfl
  | (_, _) :: _, only, distinct => by
    obtain ⟨only, onlyRest⟩ := List.forall_mem_cons.mp only
    obtain ⟨distinct, distinctRest⟩ := List.forall_mem_cons.mp distinct
    rw [transformEntries, transform_of_overridesOnly site scope only.1 distinct.1, pure_bind]
    simp only [transform_of_overridesOnly site scope only.2 distinct.2,
      transformEntries_of_overridesOnly site scope onlyRest distinctRest, pure_bind]
end

theorem Site.resolveMergeKey_of_tagFree (site : Site) {m : Mapping} (free : ∀ entry ∈ m, entry.1.TagFree) :
    site.resolveMergeKey m = pure m :=
  site.resolveMergeKey_of_overridesOnly fun entry member => (free entry member).overridesOnly

/-- Without tags and patterns nothing is carried out. -/
theorem transform_of_tagFree (site : Site) (scope : Scope) {v : Value} (free : v.TagFree)
    (distinct : v.KeysDistinct) :
    transform site scope none v = pure (some v) :=
  transform_of_overridesOnly site scope free.overridesOnly distinct

end ConfigWeave
