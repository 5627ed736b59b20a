import ConfigWeave.Value.Finished

namespace ConfigWeave

namespace Value

def IsScalar : Value → Prop
  | .seq _ | .map _ | .tagged .. => False
  | _ => True

/-- Trees are made of scalars, sequences, mappings and tagged nodes. What a node has as soon as all nodes right
below it have it, in keys as well, all trees have. -/
@[elab_as_elim, induction_eliminator]
theorem induction {motive : Value → Prop} (scalar : ∀ v : Value, v.IsScalar → motive v)
    (seq : ∀ items, (∀ item ∈ items, motive item) → motive (.seq items))
    (map : ∀ entries, (∀ entry ∈ entries, motive entry.1 ∧ motive entry.2) → motive (.map entries))
    (tagged : ∀ tag mark payload, motive payload → motive (.tagged tag mark payload)) : (v : Value) → motive v
  | .seq items => seq items fun item _ => induction scalar seq map tagged item
  | .map entries => map entries fun entry _ =>
    ⟨induction scalar seq map tagged entry.1, induction scalar seq map tagged entry.2⟩
  | .tagged tag mark payload => tagged tag mark payload (induction scalar seq map tagged payload)
  | .null | .bool _ | .int _ | .float _ | .str _ => scalar _ trivial
termination_by v => sizeOf v
decreasing_by
  all_goals simp only [Value.seq.sizeOf_spec, Value.map.sizeOf_spec, Value.tagged.sizeOf_spec]
  · have smaller := List.sizeOf_lt_of_mem ‹item ∈ items›
    omega
  · have smaller := List.sizeOf_lt_of_mem ‹entry ∈ entries›
    have parts : sizeOf entry = 1 + sizeOf entry.1 + sizeOf entry.2 := rfl
    omega
  · have smaller := List.sizeOf_lt_of_mem ‹entry ∈ entries›
    have parts : sizeOf entry = 1 + sizeOf entry.1 + sizeOf entry.2 := rfl
    omega
  · omega

theorem IsScalar.untagged {v : Value} (scalar : v.IsScalar) : v.untagged = v := by
  cases v with
  | seq | map | tagged => exact scalar.elim
  | _ => rfl

theorem IsScalar.withoutNullKeys {v : Value} (scalar : v.IsScalar) : v.withoutNullKeys = v := by
  cases v with
  | seq | map | tagged => exact scalar.elim
  | _ => rfl

theorem IsScalar.hasOverride {v : Value} (scalar : v.IsScalar) : v.hasOverride = false := by
  cases v with
  | seq | map | tagged => exact scalar.elim
  | _ => rfl

theorem untaggedItems_eq (items : List Value) : untaggedItems items = items.map untagged := by
  induction items with
  | nil => rfl
  | cons item rest ih => rw [untaggedItems, ih, List.map_cons]

theorem untaggedEntries_eq (entries : List (Value × Value)) :
    untaggedEntries entries = entries.map fun entry => (entry.1.untagged, entry.2.untagged) := by
  induction entries with
  | nil => rfl
  | cons entry rest ih => rw [untaggedEntries, ih, List.map_cons]

theorem itemsWithoutNullKeys_eq (items : List Value) : itemsWithoutNullKeys items = items.map withoutNullKeys := by
  induction items with
  | nil => rfl
  | cons item rest ih => rw [itemsWithoutNullKeys, ih, List.map_cons]

theorem entriesWithoutNullKeys_eq (entries : List (Value × Value)) : entriesWithoutNullKeys entries =
    (entries.filter fun entry => !entry.1.isNull).map fun entry => (entry.1, entry.2.withoutNullKeys) := by
  induction entries with
  | nil => rfl
  | cons entry rest ih =>
    rw [entriesWithoutNullKeys, ih, List.filter_cons]
    cases entry.1.isNull <;> rfl

theorem anyItemOverrides_eq (items : List Value) : anyItemOverrides items = items.any hasOverride := by
  induction items with
  | nil => rfl
  | cons item rest ih => rw [anyItemOverrides, ih, List.any_cons]

theorem anyEntryOverrides_eq (entries : List (Value × Value)) :
    anyEntryOverrides entries = entries.any fun entry => entry.1.hasOverride || entry.2.hasOverride := by
  induction entries with
  | nil => rfl
  | cons entry rest ih => rw [anyEntryOverrides, ih, List.any_cons]

theorem isNull_eq_false_iff {v : Value} : v.isNull = false ↔ v ≠ .null := by
  cases v <;> simp [isNull]

theorem forall_mem_untaggedItems {P : Value → Prop} {items : List Value} :
    (∀ v ∈ untaggedItems items, P v) ↔ ∀ item ∈ items, P item.untagged := by
  rw [untaggedItems_eq, List.forall_mem_map]

theorem forall_mem_untaggedEntries {P : Value × Value → Prop} {entries : List (Value × Value)} :
    (∀ entry ∈ untaggedEntries entries, P entry) ↔ ∀ entry ∈ entries, P (entry.1.untagged, entry.2.untagged) := by
  rw [untaggedEntries_eq, List.forall_mem_map]

theorem forall_mem_itemsWithoutNullKeys {P : Value → Prop} {items : List Value} :
    (∀ v ∈ itemsWithoutNullKeys items, P v) ↔ ∀ item ∈ items, P item.withoutNullKeys := by
  rw [itemsWithoutNullKeys_eq, List.forall_mem_map]

theorem forall_mem_entriesWithoutNullKeys {P : Value × Value → Prop} {entries : List (Value × Value)} :
    (∀ entry ∈ entriesWithoutNullKeys entries, P entry) ↔
      ∀ entry ∈ entries, entry.1 ≠ .null → P (entry.1, entry.2.withoutNullKeys) := by
  simp only [entriesWithoutNullKeys_eq, List.forall_mem_map, List.mem_filter, Bool.not_eq_true',
    isNull_eq_false_iff, and_imp]

end Value

end ConfigWeave
