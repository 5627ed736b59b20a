import ConfigWeave.Proofs.Hereditary.Operation
import ConfigWeave.Proofs.PlainTree

namespace ConfigWeave

namespace Value

/-- A tree in which whatever its tags ask for has been done, apart from what packages still have to be merged for:
nodes that are to be removed and nodes that replace others. There are no tags below what is to be removed. -/
inductive Settled : Value → Prop
  | scalar {v} : v.IsScalar → Settled v
  | seq {items} : (∀ item ∈ items, Settled item) → Settled (.seq items)
  | map {entries : Mapping} : entries.Distinct → (∀ entry ∈ entries, Settled entry.1) →
      (∀ entry ∈ entries, Settled entry.2) → Settled (.map entries)
  | removal {mark payload} : payload.TagFree → payload.KeysDistinct → Settled (.tagged .removal mark payload)
  | replacement {mark payload} : Settled payload → Settled (.tagged .replacement mark payload)

/-- A tree as it may be written: with any tags, but none below what is to be removed, and with merge keys only where
keys stand. -/
inductive Proper : Value → Prop
  | scalar {v} : v.IsScalar → Proper v
  | seq {items} : (∀ item ∈ items, Proper item) → Proper (.seq items)
  | map {entries : Mapping} : entries.Distinct → (∀ entry ∈ entries, ¬ entry.1.IsPlainMerge → Proper entry.1) →
      (∀ entry ∈ entries, Proper entry.2) → Proper (.map entries)
  | removal {mark payload} : payload.TagFree → payload.KeysDistinct → Proper (.tagged .removal mark payload)
  | tagged {tag mark payload} : tag ≠ .removal → tag ≠ .mergeKey → Proper payload →
      Proper (.tagged tag mark payload)

namespace Settled

theorem items {items : List Value} (settled : (Value.seq items).Settled) : ∀ item ∈ items, item.Settled := by
  cases settled with
  | scalar scalar => exact scalar.elim
  | seq each => exact each

theorem distinct {entries : Mapping} (settled : (Value.map entries).Settled) : entries.Distinct := by
  cases settled with
  | scalar scalar => exact scalar.elim
  | map distinct => exact distinct

theorem entries {entries : Mapping} (settled : (Value.map entries).Settled) :
    ∀ entry ∈ entries, entry.1.Settled ∧ entry.2.Settled := by
  cases settled with
  | scalar scalar => exact scalar.elim
  | map _ keys values => exact fun entry member => ⟨keys entry member, values entry member⟩

theorem of_entries {entries : Mapping} (distinct : entries.Distinct)
    (each : ∀ entry ∈ entries, entry.1.Settled ∧ entry.2.Settled) : (Value.map entries).Settled :=
  .map distinct (fun entry member => (each entry member).1) fun entry member => (each entry member).2

theorem of_tagFree {v : Value} (free : v.TagFree) (distinct : v.KeysDistinct) : v.Settled := by
  induction v with
  | scalar v isScalar => exact .scalar isScalar
  | seq items ih =>
    exact .seq fun item member =>
      ih item member (free.of_mem_seq member) (everyMapping_seq_iff.mp distinct item member)
  | map entries ih =>
    obtain ⟨here, below⟩ := everyMapping_map_iff.mp distinct
    refine of_entries here fun entry member => ?_
    obtain ⟨keyFree, valueFree⟩ := free.of_mem_map member
    obtain ⟨keyDistinct, valueDistinct⟩ := below entry member
    exact ⟨(ih entry member).1 keyFree keyDistinct, (ih entry member).2 valueFree valueDistinct⟩
  | tagged => exact absurd free TagFree.not_tagged

theorem proper {v : Value} (settled : v.Settled) : v.Proper := by
  induction settled with
  | scalar scalar => exact .scalar scalar
  | seq _ ih => exact .seq ih
  | map distinct _ _ keys values => exact .map distinct (fun entry member _ => keys entry member) values
  | removal free distinct => exact .removal free distinct
  | replacement _ ih => exact .tagged (by decide) (by decide) ih

theorem keysDistinct {v : Value} (settled : v.Settled) : v.KeysDistinct := by
  induction settled with
  | scalar scalar => exact scalar.everyMapping _
  | seq _ ih => exact everyMapping_seq_iff.mpr ih
  | map distinct _ _ keys values =>
    exact everyMapping_map_iff.mpr ⟨distinct, fun entry member => ⟨keys entry member, values entry member⟩⟩
  | removal _ distinct => exact everyMapping_tagged_iff.mpr distinct
  | replacement _ ih => exact everyMapping_tagged_iff.mpr ih

/-- Whatever a settled node has a tag on is settled as well. -/
theorem payload {tag : Tag} {mark : Nat} {payload : Value} (settled : (Value.tagged tag mark payload).Settled) :
    payload.Settled := by
  cases settled with
  | scalar scalar => exact scalar.elim
  | removal free distinct => exact of_tagFree free distinct
  | replacement below => exact below

theorem insert {m : Mapping} (settled : (Value.map m).Settled) {key value : Value} (keySettled : key.Settled)
    (valueSettled : value.Settled) : (Value.map (m.insert key value)).Settled := by
  have new : ∀ entry ∈ [(key, value)], entry.1.Settled ∧ entry.2.Settled :=
    List.forall_mem_singleton.mpr ⟨keySettled, valueSettled⟩
  exact of_entries (settled.distinct.insert key value) (Mapping.forall_mem_insertAll settled.entries new)

theorem hereditary : Hereditary Settled where
  seq := .seq
  items := items
  map := of_entries
  entries := entries
  insert here key value := here.insert key value
  scalar := .scalar
  payload := payload
  distinct := distinct

end Settled

namespace Proper

theorem items {items : List Value} (proper : (Value.seq items).Proper) : ∀ item ∈ items, item.Proper := by
  cases proper with
  | scalar scalar => exact scalar.elim
  | seq each => exact each

theorem distinct {entries : Mapping} (proper : (Value.map entries).Proper) : entries.Distinct := by
  cases proper with
  | scalar scalar => exact scalar.elim
  | map distinct => exact distinct

theorem entries {entries : Mapping} (proper : (Value.map entries).Proper) :
    ∀ entry ∈ entries, (entry.1.Proper ∨ entry.1.IsPlainMerge) ∧ entry.2.Proper := by
  cases proper with
  | scalar scalar => exact scalar.elim
  | map _ keys values =>
    exact fun entry member =>
      ⟨(Classical.em _).elim .inr fun plain => .inl (keys entry member plain), values entry member⟩

theorem payload {tag : Tag} {mark : Nat} {payload : Value} (proper : (Value.tagged tag mark payload).Proper)
    (kept : tag ≠ .removal) : payload.Proper := by
  cases proper with
  | scalar scalar => exact scalar.elim
  | removal => exact absurd rfl kept
  | tagged _ _ below => exact below

theorem settled_of_kept {tag : Tag} {mark : Nat} {payload : Value} (proper : (Value.tagged tag mark payload).Proper)
    (kept : tag = .removal ∨ tag = .mergeKey) : (Value.tagged tag mark payload).Settled := by
  cases proper with
  | scalar scalar => exact scalar.elim
  | removal free distinct => exact .removal free distinct
  | tagged notRemoval notMerge => exact (kept.elim notRemoval notMerge).elim

theorem withoutSections {entries : Mapping} (proper : (Value.map entries).Proper) :
    (Value.map entries.withoutSections).Proper := by
  have within := Mapping.withoutSections_sublist entries
  refine .map (proper.distinct.sublist within) (fun entry member plain => ?_) fun entry member => ?_
  · exact (proper.entries entry (within.subset member)).1.resolve_right plain
  · exact (proper.entries entry (within.subset member)).2

/-- Every part of a tree in which tags are where they may be is itself such a tree, or a merge key. -/
theorem part {v inner : Value} (proper : v.Proper) (part : Part inner v) : inner.Proper ∨ inner.IsPlainMerge := by
  induction part with
  | self => exact .inl proper
  | item member _ ih => exact ih (proper.items _ member)
  | @key entry entries member inside ih =>
    rcases (proper.entries entry member).1 with keyProper | ⟨mark, merge⟩
    · exact ih keyProper
    · rw [merge] at inside
      cases inside with
      | self => exact .inr ⟨mark, rfl⟩
      | payload below =>
        cases below with
        | self => exact .inl (.scalar trivial)
  | value member _ ih => exact ih (proper.entries _ member).2
  | payload inside ih =>
    cases proper with
    | scalar scalar => exact scalar.elim
    | removal free distinct => exact ih (Settled.of_tagFree free distinct).proper
    | tagged _ _ below => exact ih below

end Proper

end Value

end ConfigWeave
