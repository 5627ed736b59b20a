import ConfigWeave.Proofs.Lookup
import ConfigWeave.Proofs.TopLevelKeys

namespace ConfigWeave

namespace Value

mutual
/-- The mappings that are to be merged from the value of a merge key. Sequences of them may be nested. -/
def mergedMappings : Value → List Mapping
  | .map m => [m]
  | .seq items => itemMappings items
  | _ => []
def itemMappings : List Value → List Mapping
  | [] => []
  | item :: rest => item.mergedMappings ++ itemMappings rest
end

mutual
/-- What is neither null nor a mapping or a sequence of them in the value of a merge key. -/
def unmergeable : Value → List Value
  | .null | .map _ => []
  | .seq items => unmergeableItems items
  | v => [v]
def unmergeableItems : List Value → List Value
  | [] => []
  | item :: rest => item.unmergeable ++ unmergeableItems rest
end

theorem mergedMappings_seq (items : List Value) :
    (Value.seq items).mergedMappings = items.flatMap mergedMappings := by
  rw [mergedMappings]
  induction items with
  | nil => rw [itemMappings, List.flatMap_nil]
  | cons item rest ih => rw [itemMappings, ih, List.flatMap_cons]

theorem unmergeable_seq (items : List Value) : (Value.seq items).unmergeable = items.flatMap unmergeable := by
  rw [unmergeable]
  induction items with
  | nil => rw [unmergeableItems, List.flatMap_nil]
  | cons item rest ih => rw [unmergeableItems, ih, List.flatMap_cons]

/-- What a document is warned about a value that cannot be merged. -/
def unmergeableMessage (v : Value) : String :=
  let got := v.typeName
  s!"Expected a mapping or a sequence of mappings for merge key '<<', got {got}"

/-- What the items of sequences have of them, the mappings that are merged from a value have of it. -/
theorem forall_mem_mergedMappings {P : Value → Prop} (items : ∀ {items}, P (.seq items) → ∀ item ∈ items, P item)
    {v : Value} (holds : P v) : ∀ m ∈ v.mergedMappings, P (.map m) := by
  induction v with
  | scalar v isScalar =>
    cases v with
    | seq | map | tagged => exact isScalar.elim
    | _ => simp [mergedMappings]
  | seq parts ih =>
    rw [mergedMappings_seq]
    intro m member
    obtain ⟨item, among, inside⟩ := List.mem_flatMap.mp member
    exact ih item among (items holds item among) m inside
  | map m =>
    rw [mergedMappings]
    exact List.forall_mem_singleton.mpr holds
  | tagged => simp [mergedMappings]

theorem TagFree.isMergeKey {v : Value} (free : v.TagFree) : v.isMergeKey = false := by
  cases v with
  | tagged => exact free.not_tagged.elim
  | _ => rfl

theorem IsPlainMerge.of_beq {a b : Value} (merge : b.IsPlainMerge) (same : (a == b) = true) : a.IsPlainMerge := by
  obtain ⟨mark, rfl⟩ := merge
  have equal : a.beq (.tagged .mergeKey mark (.str "<<")) = true := same
  cases a with
  | tagged tag other payload =>
    rw [beq, Bool.and_eq_true, beq_iff_eq] at equal
    obtain ⟨rfl, text⟩ := equal
    exact ⟨other, by rw [beq_str_iff.mp text]⟩
  | _ => cases equal

theorem IsPlainMerge.isMergeKey {key : Value} (merge : key.IsPlainMerge) : key.isMergeKey = true := by
  obtain ⟨mark, rfl⟩ := merge
  rfl

end Value

open Value

namespace OpenDocument

theorem warnAll_append (document : OpenDocument) (messages more : List String) :
    document.warnAll (messages ++ more) = (do document.warnAll messages; document.warnAll more) := by
  rw [warnAll, List.map_append]
  rfl

end OpenDocument

namespace Site

mutual
theorem mergeSources_eq (site : Site) : (v : Value) → site.mergeSources v = do
    site.warnAll (v.unmergeable.map unmergeableMessage)
    return v.mergedMappings.flatten
  | .null | .map _ => by
    simp only [mergeSources, unmergeable, mergedMappings, List.map_nil, List.flatten_cons, List.flatten_nil,
      List.append_nil]
    rfl
  | .seq items => by
    simp only [mergeSources, unmergeable, mergedMappings, mergeSourceItems_eq site items]
  | .bool _ | .int _ | .float _ | .str _ | .tagged .. => by
    simp only [mergeSources, unmergeable, mergedMappings, List.map_cons, List.map_nil, List.flatten_nil]
    rfl
theorem mergeSourceItems_eq (site : Site) : (items : List Value) → site.mergeSourceItems items = do
    site.warnAll ((unmergeableItems items).map unmergeableMessage)
    return (itemMappings items).flatten
  | [] => rfl
  | item :: rest => by
    simp only [mergeSourceItems, unmergeableItems, itemMappings, mergeSources_eq site item,
      mergeSourceItems_eq site rest, List.map_append, OpenDocument.warnAll_append, List.flatten_append, bind_assoc,
      pure_bind]
end

end Site

namespace Mapping

/-- What there is to be collected under the merge key of a mapping. -/
def held {β : Type} (collect : Value → List β) (m : Mapping) : List β :=
  (m.get? mergeKey).elim [] collect

theorem get?_plainMerge (m : Mapping) {key : Value} (merge : key.IsPlainMerge) : m.get? key = m.get? mergeKey := by
  have same : (fun entry : Value × Value => key == entry.1) = fun entry => mergeKey == entry.1 := by
    funext entry
    rw [Bool.eq_iff_iff, merge.beq_iff, isPlainMerge_mergeKey.beq_iff]
  rw [get?, get?, same]

theorem get?_mergeKey_insert (m : Mapping) {key : Value} (merge : key.IsPlainMerge) (value : Value) :
    (m.insert key value).get? mergeKey = some value := by
  induction m with
  | nil => rw [insert, get?_cons, if_pos (isPlainMerge_mergeKey.beq_iff.mpr merge)]
  | cons entry rest ih =>
    obtain ⟨k, v⟩ := entry
    rw [insert]
    split
    · rename_i found
      rw [get?_cons, if_pos (isPlainMerge_mergeKey.beq_iff.mpr (merge.beq_iff.mp found))]
    · rename_i other
      rw [get?_cons, if_neg fun found => other (merge.beq_iff.mpr (isPlainMerge_mergeKey.beq_iff.mp found)), ih]

theorem get?_mergeKey_insert_of_local (m : Mapping) {key : Value} (other : ¬ key.IsPlainMerge) (value : Value) :
    (m.insert key value).get? mergeKey = m.get? mergeKey := by
  induction m with
  | nil => rw [insert, get?_cons, if_neg fun found => other (isPlainMerge_mergeKey.beq_iff.mp found)]
  | cons entry rest ih =>
    obtain ⟨k, v⟩ := entry
    rw [insert]
    split
    · rename_i present
      have apart : ¬ (mergeKey == k) = true :=
        fun found => other ((isPlainMerge_mergeKey.beq_iff.mp found).of_beq present)
      rw [get?_cons, get?_cons, if_neg apart, if_neg apart]
    · rw [get?_cons, get?_cons, ih]

theorem erase_mergeKey_insert (m : Mapping) {key : Value} (merge : key.IsPlainMerge) (value : Value) :
    (m.insert key value).erase mergeKey = m.erase mergeKey := by
  refine erase_insert_of_same (fun k => ?_) (isPlainMerge_mergeKey.beq_iff.mpr merge) m value
  rw [Bool.eq_iff_iff, isPlainMerge_mergeKey.beq_iff, merge.beq_iff]

theorem erase_mergeKey_insert_of_local (m : Mapping) {key : Value} (other : ¬ key.IsPlainMerge) (value : Value) :
    (m.insert key value).erase mergeKey = (m.erase mergeKey).insert key value := by
  refine erase_insert_of_apart ?_ (fun k found => ?_) m value
  · exact Bool.eq_false_iff.mpr fun found => other (isPlainMerge_mergeKey.beq_iff.mp found)
  · exact Bool.eq_false_iff.mpr fun present => other ((isPlainMerge_mergeKey.beq_iff.mp found).of_beq present)

end Mapping

namespace Yaml

open Mapping

theorem erase_addEntry {m : Mapping} {key : Value} (plain : key.IsPlainMerge ∨ key.isMergeKey = false)
    (value : Value) :
    (addEntry m key value).erase mergeKey =
      if key.isMergeKey then m.erase mergeKey else (m.erase mergeKey).insert key value := by
  unfold addEntry
  rcases plain with merge | other
  · rw [merge.isMergeKey, if_pos rfl, if_pos rfl]
    split <;> exact erase_mergeKey_insert m merge _
  · rw [other, if_neg Bool.false_ne_true, if_neg Bool.false_ne_true]
    refine erase_mergeKey_insert_of_local m (fun merge => ?_) value
    rw [merge.isMergeKey] at other
    cases other

/-- What is collected from sequences item by item is collected from the values of repeated merge keys one after the
other, whether the first of them is a sequence itself or not. -/
theorem held_addEntry {β : Type} {collect : Value → List β}
    (seq : ∀ items, collect (.seq items) = items.flatMap collect) {m : Mapping} {key : Value}
    (plain : key.IsPlainMerge ∨ key.isMergeKey = false) (value : Value) :
    (addEntry m key value).held collect = m.held collect ++ if key.isMergeKey then collect value else [] := by
  unfold addEntry held
  rcases plain with merge | other
  · rw [merge.isMergeKey, if_pos rfl, if_pos rfl, m.get?_plainMerge merge]
    split
    · rename_i sources found
      rw [get?_mergeKey_insert m merge, found]
      simp only [Option.elim_some, seq, List.flatMap_append, List.flatMap_cons, List.flatMap_nil, List.append_nil]
    · rename_i source _ found
      rw [get?_mergeKey_insert m merge, found]
      simp only [Option.elim_some, seq, List.flatMap_cons, List.flatMap_nil, List.append_nil]
    · rename_i found
      rw [get?_mergeKey_insert m merge, found]
      rfl
  · have apart : ¬ key.IsPlainMerge := fun merge => by
      rw [merge.isMergeKey] at other
      cases other
    rw [other, if_neg Bool.false_ne_true, if_neg Bool.false_ne_true, get?_mergeKey_insert_of_local m apart,
      List.append_nil]

/-- The entries that a mapping has of its own. -/
def localEntries (entries : List (Value × Value)) : List (Value × Value) :=
  entries.filter fun entry => !entry.1.isMergeKey

/-- The values of the merge keys among entries. -/
def mergeValues (entries : List (Value × Value)) : List Value :=
  (entries.filter fun entry => entry.1.isMergeKey).map Prod.snd

section Entries

variable {entries : List (Value × Value)}
  (plain : ∀ entry ∈ entries, entry.1.IsPlainMerge ∨ entry.1.isMergeKey = false)
include plain

theorem erase_foldl_addEntry (m : Mapping) :
    (entries.foldl (fun m entry => addEntry m entry.1 entry.2) m).erase mergeKey =
    (m.erase mergeKey).insertAll (localEntries entries) := by
  induction entries generalizing m with
  | nil => rfl
  | cons entry rest ih =>
    obtain ⟨first, others⟩ := List.forall_mem_cons.mp plain
    rw [List.foldl_cons, ih others, erase_addEntry first, localEntries, localEntries, List.filter_cons]
    cases entry.1.isMergeKey <;> rfl

theorem held_foldl_addEntry {β : Type} {collect : Value → List β}
    (seq : ∀ items, collect (.seq items) = items.flatMap collect) (m : Mapping) :
    (entries.foldl (fun m entry => addEntry m entry.1 entry.2) m).held collect =
      m.held collect ++ (mergeValues entries).flatMap collect := by
  induction entries generalizing m with
  | nil => exact (List.append_nil _).symm
  | cons entry rest ih =>
    obtain ⟨first, others⟩ := List.forall_mem_cons.mp plain
    rw [List.foldl_cons, ih others, held_addEntry seq first, mergeValues, mergeValues, List.filter_cons]
    cases entry.1.isMergeKey
    · simp only [Bool.false_eq_true, if_false, List.append_nil]
    · simp only [if_true, List.map_cons, List.flatMap_cons, List.append_assoc]

end Entries

end Yaml

namespace Site

/-- What comes of a mapping is told by what there is to be collected under its merge key. -/
theorem resolveMergeKey_eq (site : Site) (m : Mapping) : site.resolveMergeKey m = do
    site.warnAll ((m.held unmergeable).map unmergeableMessage)
    return (m.erase mergeKey).insertMissing (m.held mergedMappings).flatten := by
  unfold resolveMergeKey Mapping.held
  cases found : m.get? mergeKey with
  | none =>
    rw [Mapping.erase_of_absent found]
    rfl
  | some value =>
    simp only [Option.elim_some, mergeSources_eq, bind_assoc, pure_bind]

end Site

theorem Mapping.get?_flatten (sources : List Mapping) (key : Value) :
    Mapping.get? sources.flatten key = sources.findSome? (·.get? key) := by
  induction sources with
  | nil => rfl
  | cons first rest ih =>
    rw [List.flatten_cons, get?_append, ih, List.findSome?_cons]
    cases first.get? key <;> rfl

namespace Yaml

open Mapping

/-- Merge keys of a mapping, wherever they stand among its entries and however often, are merged into it. Where the
mapping has an entry of its own under a key, the last one counts. Otherwise it is the first mapping that has the
key in the order of the text, those in sequences where the sequences stand. The keys of the mapping itself come
first. What is merged is left as it is, and what cannot be merged is only warned about. -/
theorem resolveMergeKey_mappingOfEntries (site : Site) {entries : List (Value × Value)}
    (plain : ∀ entry ∈ entries, entry.1.IsPlainMerge ∨ entry.1.isMergeKey = false)
    (distinct : ∀ entry ∈ entries, entry.1.KeysDistinct ∧ entry.2.KeysDistinct)
    (free : ∀ v ∈ mergeValues entries, v.TagFree) :
    let sources := (mergeValues entries).flatMap mergedMappings
    ∃ m : Mapping,
      (site.resolveMergeKey (mappingOfEntries entries) = do
        site.warnAll (((mergeValues entries).flatMap unmergeable).map unmergeableMessage)
        return m) ∧
      m.map Prod.fst = ((localEntries entries ++ sources.flatten).map Prod.fst).eraseDups ∧
      (∀ key : Value, key.KeysDistinct →
        m.get? key = (Mapping.get? (localEntries entries).reverse key).or (sources.findSome? (·.get? key))) ∧
      ∀ entry ∈ m, entry.1.isMergeKey = false := by
  intro sources
  have own : ∀ entry ∈ localEntries entries, entry.1.KeysDistinct ∧ entry.1.isMergeKey = false := by
    intro entry member
    obtain ⟨among, other⟩ := List.mem_filter.mp member
    exact ⟨(distinct entry among).1, Bool.not_eq_true' _ ▸ other⟩
  have merged : ∀ entry ∈ sources.flatten, entry.1.KeysDistinct ∧ entry.1.isMergeKey = false := by
    intro entry member
    obtain ⟨m, source, inside⟩ := List.mem_flatten.mp member
    obtain ⟨v, value, source⟩ := List.mem_flatMap.mp source
    obtain ⟨holder, among, rfl⟩ := List.mem_map.mp value
    have mDistinct := forall_mem_mergedMappings everyMapping_seq_iff.mp
      (distinct holder (List.mem_filter.mp among).1).2
    have mFree := forall_mem_mergedMappings (fun free _ => free.of_mem_seq) (free _ value)
    exact ⟨((everyMapping_map_iff.mp (mDistinct m source)).2 entry inside).1,
      ((mFree m source).of_mem_map inside).1.isMergeKey⟩
  have start : ∀ entry ∈ ([] : Mapping), entry.1.KeysDistinct := nofun
  have inserted : ∀ entry ∈ Mapping.ofList (localEntries entries),
      entry.1.KeysDistinct ∧ entry.1.isMergeKey = false :=
    fun entry member => (forall_mem_insertAll (P := fun key => key.KeysDistinct ∧ key.isMergeKey = false)
      (Q := fun _ => True) (by simp) (fun entry member => ⟨own entry member, trivial⟩) entry member).1
  refine ⟨(Mapping.ofList (localEntries entries)).insertMissing sources.flatten, ?_, ?_, ?_, ?_⟩
  · rw [Site.resolveMergeKey_eq, mappingOfEntries, erase_foldl_addEntry plain,
      held_foldl_addEntry plain unmergeable_seq, held_foldl_addEntry plain mergedMappings_seq]
    rfl
  · rw [keys_insertMissing, ← keys_insertAll, ← keys_ofList, Mapping.ofList, Mapping.ofList, insertAll, insertAll,
      insertAll, List.foldl_append]
  · intro key keyDistinct
    rw [get?_insertMissing (fun entry member => (inserted entry member).1)
        (fun entry member => (merged entry member).1) keyDistinct,
      Mapping.ofList, get?_insertAll start (fun entry member => (own entry member).1) keyDistinct, get?_nil,
      Option.or_none, get?_flatten]
  · exact forall_key_insertMissing (P := fun key => key.isMergeKey = false)
      (fun entry member => (inserted entry member).2) fun entry member => (merged entry member).2

/-- Merge keys at both ends of a mapping and within it. One has a sequence and one has a text, which cannot be
merged. -/
theorem resolveMergeKey_mappingOfEntries_repeated :
    let document : OpenDocument := ⟨⟨"/main"⟩, .ofText "", fun _ _ _ => return .null⟩
    let site : Site := Templates.empty.site document
    let merge (offset : Nat) : Value := .tagged .mergeKey offset (.str "<<")
    let entries : List (Value × Value) :=
      [(merge 0, .seq [.map [(.str "a", .int 1), (.str "b", .int 2)], .seq [.null, .map [(.str "c", .int 3)]]]),
        (.str "a", .int 4), (merge 1, .str "b"), (.str "a", .int 5),
        (merge 2, .map [(.str "c", .int 6), (.str "d", .int 7)])]
    ∃ m : Mapping, (site.resolveMergeKey (mappingOfEntries entries) = do
        site.warnAll ["Expected a mapping or a sequence of mappings for merge key '<<', got string"]
        return m) ∧
      m.map Prod.fst = [.str "a", .str "b", .str "c", .str "d"] ∧
      m.get? (.str "a") = some (.int 5) ∧ m.get? (.str "b") = some (.int 2) ∧
      m.get? (.str "c") = some (.int 3) ∧ m.get? (.str "d") = some (.int 7) := by
  intro document site merge entries
  have plain : ∀ entry ∈ entries, entry.1.IsPlainMerge ∨ entry.1.isMergeKey = false := by
    simp [entries, merge, Value.IsPlainMerge, Value.isMergeKey]
  have text (s : String) : (Value.str s).KeysDistinct := Value.everyMapping_str _ s
  have number (i : Int64) : (Value.int i).KeysDistinct := Value.IsScalar.everyMapping (v := .int i) trivial _
  have distinct : ∀ entry ∈ entries, entry.1.KeysDistinct ∧ entry.2.KeysDistinct := by
    simp +decide [entries, merge, everyMapping_map_iff, everyMapping_seq_iff, everyMapping_tagged_iff, text, number,
      keysDistinct_null]
  have free : ∀ v ∈ mergeValues entries, v.TagFree := by decide
  obtain ⟨m, run, keys, values, _⟩ := resolveMergeKey_mappingOfEntries site plain distinct free
  refine ⟨m, run, keys, ?_, ?_, ?_, ?_⟩
  all_goals rw [values _ (text _)]; rfl

end Yaml

end ConfigWeave
