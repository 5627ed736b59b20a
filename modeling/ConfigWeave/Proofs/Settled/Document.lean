import ConfigWeave.Proofs.Compositional.Document
import ConfigWeave.Proofs.Hereditary.Expression
import ConfigWeave.Proofs.Settled.Tree

namespace ConfigWeave

namespace Scope

/-- All values in a scope are settled, and no name has two of them. -/
def Settled (scope : Scope) : Prop :=
  scope.toValue.Settled

theorem settled_empty : empty.Settled :=
  Value.Settled.hereditary.map_nil

theorem settled_builtin (file root resolvedRoot : Path) (environment : List (String × String)) :
    (builtin file root resolvedRoot environment).Settled :=
  Value.Settled.hereditary.builtin file root resolvedRoot environment

theorem Settled.values {scope : Scope} (settled : scope.Settled) : ∀ entry ∈ scope.entries, entry.2.Settled :=
  Value.Settled.hereditary.boundValues settled

theorem Settled.define {scope : Scope} (settled : scope.Settled) (name : String) {v : Value} (value : v.Settled) :
    (scope.define name v).Settled :=
  Value.Settled.hereditary.define settled name value

end Scope

/-- What is composed of trees in which tags are where they may be is settled, as are all scopes in between. -/
def Quality.settling : Quality where
  Written := Value.Proper
  Composed := Value.Settled
  Sound := Scope.Settled
  written := Value.Settled.proper
  writtenItems := Value.Proper.items
  writtenEntries := Value.Proper.entries
  withoutSections := Value.Proper.withoutSections
  below proper := .tagged nofun nofun proper
  payload proper kept _ := proper.payload kept
  kept := Value.Proper.settled_of_kept
  scalar := .scalar
  seq := .seq
  items := Value.Settled.items
  entries := Value.Settled.entries
  replacement := .replacement
  collected := Value.Settled.hereditary.collected
  merged := Value.Settled.hereditary.merged
  deepMerge := Value.Settled.hereditary.deepMerge
  withoutHidden settled := Value.Settled.hereditary.sublist settled List.filter_sublist
  values := Scope.Settled.values
  define settled value := settled.define _ value
  unprotected := Value.Settled.hereditary.unprotected
  interpolated settled p text v spliced := Value.Settled.hereditary.interpolate settled p text _ spliced v rfl

namespace Value

/-- There are no tags below what is to be removed, and no alias stands for a merge key. -/
structure Orderly (v : Value) : Prop where
  removed : ∀ mark payload, Part (.tagged .removal mark payload) v → payload.TagFree
  aliased : ∀ mark payload, Part (.tagged .alias mark payload) v → ¬ payload.IsPlainMerge

instance (key : Value) : Decidable key.IsPlainMerge :=
  decidable_of_iff ((mergeKey == key) = true) isPlainMerge_mergeKey.beq_iff

instance (v : Value) : Decidable v.Orderly :=
  decidable_of_iff
    (∀ node ∈ v.taggedNodes,
      (node.1 = .removal → node.2.2.TagFree) ∧ (node.1 = .alias → ¬ node.2.2.IsPlainMerge))
    ⟨fun each => ⟨fun _ _ part => (each _ (mem_taggedNodes.mpr part)).1 rfl,
        fun _ _ part => (each _ (mem_taggedNodes.mpr part)).2 rfl⟩,
      fun orderly node member => by
        obtain ⟨tag, mark, payload⟩ := node
        have part := mem_taggedNodes.mp member
        constructor
        · rintro rfl
          exact orderly.removed mark payload part
        · rintro rfl
          exact orderly.aliased mark payload part⟩

/-- A value that is proper unless it is not in order, or keys are repeated in it. -/
def Placed (v : Value) : Prop :=
  v.Orderly → v.KeysDistinct → v.Proper

/-- What may wait for a value as a key. -/
def PlacedKey (key : Value) : Prop :=
  key.Placed ∨ key.IsPlainMerge

theorem orderly_seq_iff {items : List Value} : (Value.seq items).Orderly ↔ ∀ item ∈ items, item.Orderly := by
  constructor
  · exact fun orderly item member =>
      ⟨fun _ _ part => orderly.removed _ _ (.item member part), fun _ _ part =>
        orderly.aliased _ _ (.item member part)⟩
  · refine fun each => ⟨fun mark payload part => ?_, fun mark payload part => ?_⟩
    · cases part with
      | item member inside => exact (each _ member).removed mark payload inside
    · cases part with
      | item member inside => exact (each _ member).aliased mark payload inside

theorem Orderly.entries {entries : Mapping} (orderly : (Value.map entries).Orderly) :
    ∀ entry ∈ entries, entry.1.Orderly ∧ entry.2.Orderly :=
  fun _ member =>
    ⟨⟨fun _ _ part => orderly.removed _ _ (.key member part), fun _ _ part =>
      orderly.aliased _ _ (.key member part)⟩, ⟨fun _ _ part => orderly.removed _ _ (.value member part),
        fun _ _ part => orderly.aliased _ _ (.value member part)⟩⟩

theorem Orderly.payload {tag : Tag} {mark : Nat} {payload : Value}
    (orderly : (Value.tagged tag mark payload).Orderly) :
    payload.Orderly :=
  ⟨fun _ _ part => orderly.removed _ _ (.payload part), fun _ _ part => orderly.aliased _ _ (.payload part)⟩

theorem IsScalar.placed {v : Value} (scalar : v.IsScalar) : v.Placed :=
  fun _ _ => .scalar scalar

theorem placed_seq {items : List Value} (each : ∀ item ∈ items, item.Placed) : (Value.seq items).Placed := by
  intro orderly distinct
  exact .seq fun item member =>
    each item member (orderly_seq_iff.mp orderly item member) (everyMapping_seq_iff.mp distinct item member)

/-- Sources of a merge that are collected one after the other. -/
theorem placed_concat {items : List Value} (before : (Value.seq items).Placed) {v : Value} (placed : v.Placed) :
    (Value.seq (items ++ [v])).Placed := by
  intro orderly distinct
  obtain ⟨orderlyItems, orderlyLast⟩ := List.forall_mem_append.mp (orderly_seq_iff.mp orderly)
  obtain ⟨distinctItems, distinctLast⟩ := List.forall_mem_append.mp (everyMapping_seq_iff.mp distinct)
  have proper := before (orderly_seq_iff.mpr orderlyItems) (everyMapping_seq_iff.mpr distinctItems)
  have last := placed (orderlyLast v (List.mem_singleton_self v)) (distinctLast v (List.mem_singleton_self v))
  exact .seq (List.forall_mem_append.mpr ⟨proper.items, List.forall_mem_singleton.mpr last⟩)

theorem placed_map {entries : Mapping} (each : ∀ entry ∈ entries, entry.1.PlacedKey ∧ entry.2.Placed) :
    (Value.map entries).Placed := by
  intro orderly distinct
  obtain ⟨here, below⟩ := everyMapping_map_iff.mp distinct
  refine .map here (fun entry member plain => ?_) fun entry member => ?_
  · exact (each entry member).1.resolve_right plain (orderly.entries entry member).1 (below entry member).1
  · exact (each entry member).2 (orderly.entries entry member).2 (below entry member).2

theorem placed_tagged {tag : Tag} {mark : Nat} {payload : Value} (written : tag ≠ .mergeKey)
    (placed : payload.Placed) :
    (Value.tagged tag mark payload).Placed := by
  intro orderly distinct
  have below := everyMapping_tagged_iff.mp distinct
  by_cases removal : tag = .removal
  · subst removal
    exact .removal (orderly.removed _ _ (.self _)) below
  · exact .tagged removal written (placed orderly.payload below)

theorem placed_alias {mark : Nat} {payload : Value} (placed : payload.PlacedKey) :
    (Value.tagged .alias mark payload).Placed := by
  intro orderly distinct
  have plain := placed.resolve_right (orderly.aliased mark payload (.self _))
  exact placed_tagged (by decide) plain orderly distinct

end Value

theorem Tag.ofSuffix_ne_mergeKey (suffix : String) : ofSuffix suffix ≠ .mergeKey := by
  unfold ofSuffix
  split
  case h_8 => split <;> simp
  all_goals decide

namespace Yaml

/-- A merge key cannot be written as a tag. -/
theorem NodeTag.ne_mergeKey {tag : NodeTag} {kept : Tag} (meaning : tag.meaning = .kept kept) :
    kept ≠ .mergeKey := by
  unfold NodeTag.meaning at meaning
  split at meaning
  · cases meaning
  · split at meaning
    · exact TagMeaning.kept.inj meaning ▸ Tag.ofSuffix_ne_mergeKey _
    · split at meaning
      · split at meaning
        · cases meaning
        · exact TagMeaning.kept.inj meaning ▸ Tag.ofSuffix_ne_mergeKey _
      · exact TagMeaning.kept.inj meaning ▸ nofun

/-- All entries are such that the mapping is placed. -/
abbrev EntriesPlaced (entries : List (Value × Value)) : Prop :=
  ∀ entry ∈ entries, entry.1.PlacedKey ∧ entry.2.Placed

theorem EntriesPlaced.insert {m : Mapping} (each : EntriesPlaced m) {key value : Value} (placedKey : key.PlacedKey)
    (placed : value.Placed) : EntriesPlaced (m.insert key value) := by
  have new : EntriesPlaced [(key, value)] := List.forall_mem_singleton.mpr ⟨placedKey, placed⟩
  exact Mapping.forall_mem_insertAll each new

theorem EntriesPlaced.addEntry {m : Mapping} (each : EntriesPlaced m) {key value : Value}
    (placedKey : key.PlacedKey) (placed : value.Placed) : EntriesPlaced (addEntry m key value) := by
  unfold Yaml.addEntry
  split
  · split
    · rename_i sources found
      obtain ⟨entry, member, same⟩ := Value.exists_mem_of_get? found
      exact each.insert placedKey (Value.placed_concat (same ▸ (each entry member).2) placed)
    · rename_i source _ found
      obtain ⟨entry, member, rfl⟩ := Value.exists_mem_of_get? found
      have sources : ∀ source ∈ [entry.2, value], source.Placed :=
        List.forall_mem_cons.mpr ⟨(each entry member).2, List.forall_mem_singleton.mpr placed⟩
      exact each.insert placedKey (Value.placed_seq sources)
    · exact each.insert placedKey placed
  · exact each.insert placedKey placed

theorem placed_mappingOfEntries {entries : List (Value × Value)} (each : EntriesPlaced entries) :
    (Value.map (mappingOfEntries entries)).Placed :=
  Value.placed_map (mappingOfEntries_induction (P := EntriesPlaced) (by simp)
    (fun before entry => before.addEntry entry.1 entry.2) each)

/-- Merge keys only stand where keys stand, unless an alias puts them elsewhere. -/
theorem proper_of_parse {text : String} {v : Value} (parsed : parse? text = some v) (orderly : v.Orderly) :
    v.Proper := by
  have grows : Grows Value.Placed Value.PlacedKey := {
    scalar := Value.IsScalar.placed
    key := .inl
    mergeKey := fun mark => .inr ⟨mark, rfl⟩
    aliased := Value.placed_alias
    seq := Value.placed_seq
    map := placed_mappingOfEntries
    kept := fun meaning => Value.placed_tagged (NodeTag.ne_mergeKey meaning) }
  exact grows.parse parsed orderly (keysDistinct_of_parse parsed)

end Yaml

end ConfigWeave
