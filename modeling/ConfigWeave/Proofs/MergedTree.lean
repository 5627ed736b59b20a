import ConfigWeave.Compose.Document
import ConfigWeave.Proofs.ParsedTree

namespace ConfigWeave

/-- Whether a key is one that a plain `<<` is read as, wherever it stands. -/
def Value.IsPlainMerge (key : Value) : Prop :=
  ∃ mark, key = .tagged .mergeKey mark (.str "<<")

namespace Mapping

theorem Distinct.insertAll {m : Mapping} (distinct : m.Distinct) (entries : List (Value × Value)) :
    Distinct (insertAll m entries) := by
  induction entries generalizing m with
  | nil => exact distinct
  | cons entry rest ih => exact ih (distinct.insert entry.1 entry.2)

theorem distinct_ofList (entries : List (Value × Value)) : Distinct (ofList entries) :=
  Distinct.insertAll List.Pairwise.nil entries

theorem erase_sublist (m : Mapping) (key : Value) : (erase m key).Sublist m := by
  induction m with
  | nil => exact List.Sublist.refl _
  | cons entry rest ih =>
    simp only [erase]
    split
    · exact List.sublist_cons_self _ _
    · exact ih.cons_cons _

theorem foldl_erase_sublist (names : List String) (m : Mapping) :
    (names.foldl (fun m name => erase m (.str name)) m).Sublist m := by
  induction names generalizing m with
  | nil => exact List.Sublist.refl _
  | cons name rest ih => exact (ih (erase m (.str name))).trans (erase_sublist m _)

theorem withoutSections_sublist (m : Mapping) : (withoutSections m).Sublist m :=
  foldl_erase_sublist sectionKeys m

end Mapping

namespace Value

theorem IsPlainMerge.beq_iff {a b : Value} (merge : a.IsPlainMerge) : (a == b) = true ↔ b.IsPlainMerge := by
  obtain ⟨mark, rfl⟩ := merge
  show (Value.tagged .mergeKey mark (.str "<<")).beq b = true ↔ _
  constructor
  · intro same
    cases b with
    | tagged tag other payload =>
      rw [beq, Bool.and_eq_true, beq_iff_eq] at same
      obtain ⟨rfl, text⟩ := same
      rw [str_beq_iff.mp text]
      exact ⟨other, rfl⟩
    | _ => cases same
  · rintro ⟨other, rfl⟩
    rfl

theorem isPlainMerge_mergeKey : mergeKey.IsPlainMerge :=
  ⟨0, rfl⟩

/-- Among distinct keys there is one merge key at most. -/
theorem not_isPlainMerge_of_mem_erase {m : Mapping} (distinct : m.Distinct) {entry : Value × Value}
    (member : entry ∈ m.erase mergeKey) : ¬ entry.1.IsPlainMerge := by
  induction m with
  | nil => cases member
  | cons first rest ih =>
    obtain ⟨apart, distinctRest⟩ := List.pairwise_cons.mp distinct
    simp only [Mapping.erase] at member
    split at member
    · rename_i found
      intro merge
      have same := merge.beq_iff.mpr (isPlainMerge_mergeKey.beq_iff.mp found)
      rw [apart entry member] at same
      cases same
    · rename_i other
      rcases List.mem_cons.mp member with rfl | later
      · exact fun merge => other (isPlainMerge_mergeKey.beq_iff.mpr merge)
      · exact ih distinctRest later

/-- A property of trees that those keep which are put together from others. -/
structure Assembled (C : Value → Prop) : Prop where
  seq : ∀ {items}, (∀ item ∈ items, C item) → C (.seq items)
  items : ∀ {items}, C (.seq items) → ∀ item ∈ items, C item
  map : ∀ {m : Mapping}, m.Distinct → (∀ entry ∈ m, C entry.1 ∧ C entry.2) → C (.map m)
  entries : ∀ {m : Mapping}, C (.map m) → ∀ entry ∈ m, C entry.1 ∧ C entry.2
  insert : ∀ {m : Mapping} {key value}, C (.map m) → C key → C value → C (.map (m.insert key value))

namespace Assembled

variable {C : Value → Prop}

theorem insertMissing (assembled : Assembled C) {m : Mapping} (here : C (.map m)) {entries : List (Value × Value)}
    (each : ∀ entry ∈ entries, C entry.1 ∧ C entry.2) : C (.map (m.insertMissing entries)) :=
  Mapping.insertMissing_induction (P := fun m => C (.map m)) here
    (fun before entry => assembled.insert before entry.1 entry.2) each

mutual
/-- What overrides stays as it is, and otherwise the values of both are put together. -/
theorem mergedWith (assembled : Assembled C) {existing : Value} (here : C existing) :
    (incoming : Value) → C incoming → C (existing.mergedWith incoming)
  | .seq incoming, comes => by
    unfold Value.mergedWith
    split
    · split
      · exact here
      · exact comes
    · exact assembled.seq (List.forall_mem_append.mpr ⟨assembled.items here, assembled.items comes⟩)
    · exact comes
  | .map incoming, comes => by
    unfold Value.mergedWith
    split
    · split
      · exact here
      · exact comes
    · exact mergedEntries assembled here incoming (assembled.entries comes)
    · exact comes
  | .null, comes | .bool _, comes | .int _, comes | .float _, comes | .str _, comes | .tagged .., comes => by
    unfold Value.mergedWith
    split
    · split
      · exact here
      · exact comes
    · exact comes
theorem mergedEntries (assembled : Assembled C) {target : Mapping} (here : C (.map target)) :
    (source : List (Value × Value)) → (∀ entry ∈ source, C entry.1 ∧ C entry.2) →
      C (.map (Value.mergedEntries target source))
  | [], _ => here
  | (k, v) :: rest, each => by
    obtain ⟨⟨key, value⟩, others⟩ := List.forall_mem_cons.mp each
    unfold Value.mergedEntries
    split
    · exact mergedEntries assembled (assembled.insert here key value) rest others
    · rename_i existing found
      obtain ⟨entry, member, rfl⟩ := exists_mem_of_get? found
      have merged := mergedWith assembled (assembled.entries here entry member).2 v value
      exact mergedEntries assembled (assembled.insert here key merged) rest others
end

theorem deepMerge (assembled : Assembled C) {target source : Mapping} (here : C (.map target))
    (comes : C (.map source)) :
    C (.map (target.deepMerge source)) :=
  assembled.mergedEntries here source (assembled.entries comes)

/-- Merge keys are found among collected entries under the plain one. -/
theorem collected (assembled : Assembled C) {entries : Mapping}
    (each : ∀ entry ∈ entries, (C entry.1 ∨ entry.1.IsPlainMerge) ∧ C entry.2)
    (absent : (Mapping.ofList entries).get? mergeKey = none) : C (.map (Mapping.ofList entries)) := by
  refine assembled.map (Mapping.distinct_ofList entries) fun entry member => ?_
  obtain ⟨key, value⟩ :=
    Mapping.forall_mem_insertAll (P := fun key => C key ∨ key.IsPlainMerge) (by simp) each entry member
  refine ⟨key.resolve_right fun merge => ?_, value⟩
  have none := List.find?_eq_none.mp (Option.map_eq_none_iff.mp absent) entry member
  exact none (isPlainMerge_mergeKey.beq_iff.mpr merge)

theorem merged (assembled : Assembled C) {entries sources : Mapping}
    (each : ∀ entry ∈ entries, (C entry.1 ∨ entry.1.IsPlainMerge) ∧ C entry.2)
    (others : ∀ entry ∈ sources, C entry.1 ∧ C entry.2) :
    C (.map (((Mapping.ofList entries).erase mergeKey).insertMissing sources)) := by
  have distinct := Mapping.distinct_ofList entries
  have within := Mapping.erase_sublist (Mapping.ofList entries) mergeKey
  refine assembled.insertMissing (assembled.map (distinct.sublist within) fun entry member => ?_) others
  obtain ⟨key, value⟩ := Mapping.forall_mem_insertAll
    (P := fun key => C key ∨ key.IsPlainMerge) (by simp) each entry (within.subset member)
  exact ⟨key.resolve_right (not_isPlainMerge_of_mem_erase distinct member), value⟩

end Assembled

end Value

end ConfigWeave
