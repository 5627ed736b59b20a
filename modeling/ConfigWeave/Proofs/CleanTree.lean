import ConfigWeave.Compose.Document
import ConfigWeave.Proofs.Mapping
import ConfigWeave.Proofs.TreeInduction

namespace ConfigWeave

namespace Value

/-- The values that a tree is made of, at any depth and with the keys of its mappings. -/
inductive Part : Value → Value → Prop
  | self (v : Value) : Part v v
  | item {part item : Value} {items : List Value} : item ∈ items → Part part item → Part part (.seq items)
  | key {part : Value} {entry : Value × Value} {entries : List (Value × Value)} :
      entry ∈ entries → Part part entry.1 → Part part (.map entries)
  | value {part : Value} {entry : Value × Value} {entries : List (Value × Value)} :
      entry ∈ entries → Part part entry.2 → Part part (.map entries)
  | payload {part payload : Value} {tag : Tag} {mark : Nat} : Part part payload →
      Part part (.tagged tag mark payload)

/-- Where one gets in a tree through the items of sequences and the values of mappings. -/
inductive Reaches : Value → Value → Prop
  | self (v : Value) : Reaches v v
  | item {item v : Value} {items : List Value} : item ∈ items → Reaches item v → Reaches (.seq items) v
  | value {v : Value} {entry : Value × Value} {entries : List (Value × Value)} :
      entry ∈ entries → Reaches entry.2 v → Reaches (.map entries) v

def TagFree (v : Value) : Prop :=
  ∀ tag mark payload, ¬ Part (.tagged tag mark payload) v

def NullKeyFree (v : Value) : Prop :=
  ∀ entries, v.Reaches (.map entries) → ∀ entry ∈ entries, entry.1 ≠ .null

theorem tagFree_seq {items : List Value} (free : ∀ item ∈ items, item.TagFree) : (Value.seq items).TagFree := by
  intro tag mark payload part
  cases part with
  | item member inside => exact free _ member _ _ _ inside

theorem tagFree_map {entries : List (Value × Value)} (free : ∀ entry ∈ entries, entry.1.TagFree ∧ entry.2.TagFree) :
    (Value.map entries).TagFree := by
  intro tag mark payload part
  cases part with
  | key member inside => exact (free _ member).1 _ _ _ inside
  | value member inside => exact (free _ member).2 _ _ _ inside

theorem TagFree.of_mem_seq {items : List Value} (free : (Value.seq items).TagFree) {item : Value}
    (member : item ∈ items) : item.TagFree :=
  fun _ _ _ inside => free _ _ _ (.item member inside)

theorem TagFree.of_mem_map {entries : List (Value × Value)} (free : (Value.map entries).TagFree)
    {entry : Value × Value} (member : entry ∈ entries) : entry.1.TagFree ∧ entry.2.TagFree :=
  ⟨fun _ _ _ inside => free _ _ _ (.key member inside), fun _ _ _ inside => free _ _ _ (.value member inside)⟩

mutual
/-- The nodes of a tree that have a tag, each with what is below it. -/
def taggedNodes : Value → List (Tag × Nat × Value)
  | .tagged tag mark payload => (tag, mark, payload) :: payload.taggedNodes
  | .seq items => taggedItems items
  | .map entries => taggedEntries entries
  | _ => []
def taggedItems : List Value → List (Tag × Nat × Value)
  | [] => []
  | v :: rest => v.taggedNodes ++ taggedItems rest
def taggedEntries : List (Value × Value) → List (Tag × Nat × Value)
  | [] => []
  | (k, v) :: rest => k.taggedNodes ++ v.taggedNodes ++ taggedEntries rest
end

theorem taggedItems_eq (items : List Value) : taggedItems items = items.flatMap taggedNodes := by
  induction items with
  | nil => rfl
  | cons item rest ih => rw [taggedItems, ih, List.flatMap_cons]

theorem taggedEntries_eq (entries : List (Value × Value)) :
    taggedEntries entries = entries.flatMap fun entry => entry.1.taggedNodes ++ entry.2.taggedNodes := by
  induction entries with
  | nil => rfl
  | cons entry rest ih => rw [taggedEntries, ih, List.flatMap_cons]

theorem part_of_mem_taggedNodes {v : Value} {node : Tag × Nat × Value} (member : node ∈ v.taggedNodes) :
    Part (.tagged node.1 node.2.1 node.2.2) v := by
  induction v with
  | scalar v isScalar =>
    cases v with
    | seq | map | tagged => exact isScalar.elim
    | _ => cases member
  | seq items ih =>
    rw [taggedNodes, taggedItems_eq] at member
    obtain ⟨item, among, inside⟩ := List.mem_flatMap.mp member
    exact .item among (ih item among inside)
  | map entries ih =>
    rw [taggedNodes, taggedEntries_eq] at member
    obtain ⟨entry, among, inside⟩ := List.mem_flatMap.mp member
    rcases List.mem_append.mp inside with inKey | inValue
    · exact .key among ((ih entry among).1 inKey)
    · exact .value among ((ih entry among).2 inValue)
  | tagged tag mark payload ih =>
    rcases List.mem_cons.mp member with rfl | below
    · exact .self _
    · exact .payload (ih below)

theorem mem_taggedNodes {v : Value} {tag : Tag} {mark : Nat} {payload : Value} :
    (tag, mark, payload) ∈ v.taggedNodes ↔ Part (.tagged tag mark payload) v := by
  refine ⟨part_of_mem_taggedNodes, fun part => ?_⟩
  induction part with
  | self => exact List.mem_cons_self
  | item member _ ih =>
    rw [taggedNodes, taggedItems_eq]
    exact List.mem_flatMap.mpr ⟨_, member, ih⟩
  | key member _ ih =>
    rw [taggedNodes, taggedEntries_eq]
    exact List.mem_flatMap.mpr ⟨_, member, List.mem_append_left _ ih⟩
  | value member _ ih =>
    rw [taggedNodes, taggedEntries_eq]
    exact List.mem_flatMap.mpr ⟨_, member, List.mem_append_right _ ih⟩
  | payload _ ih => exact List.mem_cons_of_mem _ ih

theorem taggedNodes_eq_nil {v : Value} : v.taggedNodes = [] ↔ v.TagFree := by
  rw [List.eq_nil_iff_forall_not_mem]
  exact ⟨fun none tag mark payload part => none _ (mem_taggedNodes.mpr part),
    fun free node member => free _ _ _ (part_of_mem_taggedNodes member)⟩

instance (v : Value) : Decidable v.TagFree :=
  decidable_of_iff (v.taggedNodes.isEmpty = true) (List.isEmpty_iff.trans taggedNodes_eq_nil)

theorem IsScalar.tagFree {v : Value} (scalar : v.IsScalar) : v.TagFree := by
  intro tag mark payload part
  cases part with
  | self | item | key | value | payload => exact scalar.elim

theorem tagFree_untagged (v : Value) : v.untagged.TagFree := by
  induction v with
  | scalar v isScalar =>
    rw [isScalar.untagged]
    exact isScalar.tagFree
  | seq items ih => exact tagFree_seq (forall_mem_untaggedItems.mpr ih)
  | map entries ih => exact tagFree_map (Mapping.forall_mem_insertAll (by simp) (forall_mem_untaggedEntries.mpr ih))
  | tagged _ _ payload ih => exact ih

theorem nullKeyFree_seq {items : List Value} (free : ∀ item ∈ items, item.NullKeyFree) :
    (Value.seq items).NullKeyFree := by
  intro entries reached
  cases reached with
  | item member inside => exact free _ member entries inside

theorem nullKeyFree_map {entries : List (Value × Value)}
    (free : ∀ entry ∈ entries, entry.1 ≠ .null ∧ entry.2.NullKeyFree) : (Value.map entries).NullKeyFree := by
  intro inner reached
  cases reached with
  | self => exact fun entry member => (free entry member).1
  | value member inside => exact (free _ member).2 inner inside

theorem nullKeyFree_withoutNullKeys (v : Value) : v.withoutNullKeys.NullKeyFree := by
  induction v with
  | scalar v isScalar =>
    rw [isScalar.withoutNullKeys]
    intro entries reached
    cases reached with
    | self | item | value => exact isScalar.elim
  | seq items ih => exact nullKeyFree_seq (forall_mem_itemsWithoutNullKeys.mpr ih)
  | map entries ih =>
    refine nullKeyFree_map (forall_mem_entriesWithoutNullKeys.mpr fun entry member named => ?_)
    exact ⟨named, (ih entry member).2⟩
  | tagged tag mark payload =>
    intro entries reached
    cases reached

/-- What is left out does not bring in a tag. -/
theorem TagFree.withoutNullKeys {v : Value} (free : v.TagFree) : v.withoutNullKeys.TagFree := by
  induction v with
  | scalar v isScalar => rwa [isScalar.withoutNullKeys]
  | seq items ih =>
    refine tagFree_seq (forall_mem_itemsWithoutNullKeys.mpr fun item member => ?_)
    exact ih item member (free.of_mem_seq member)
  | map entries ih =>
    refine tagFree_map (forall_mem_entriesWithoutNullKeys.mpr fun entry member _ => ?_)
    obtain ⟨key, value⟩ := free.of_mem_map member
    exact ⟨key, (ih entry member).2 value⟩
  | tagged => exact free

theorem tagFree_finished (v : Value) : v.finished.TagFree :=
  (tagFree_untagged _).withoutNullKeys

theorem nullKeyFree_finished (v : Value) : v.finished.NullKeyFree :=
  nullKeyFree_withoutNullKeys _

end Value

theorem World.exists_finished_of_load {world : World} {main : Path} {v : Value}
    (loaded : (world.load main).result = .ok v) : ∃ composed : Value, v = composed.finished := by
  unfold load at loaded
  split at loaded
  · cases loaded
  · rename_i file found
    rcases result :
      ((world.composeWith (world.nested world.settings.maxDepth)) [file] file .empty).result with e | composed
    · rw [Traced.bind_of_error result] at loaded
      cases loaded
    · rw [Traced.bind_of_ok result] at loaded
      cases loaded
      exact ⟨composed, rfl⟩

/-- What is loaded is a clean tree. No node is tagged, be it in a key, and no mapping that the host can get at has
a null key. -/
theorem World.clean_of_load {world : World} {main : Path} {v : Value} (loaded : (world.load main).result = .ok v) :
    v.TagFree ∧ v.NullKeyFree := by
  obtain ⟨composed, rfl⟩ := exists_finished_of_load loaded
  exact ⟨composed.tagFree_finished, composed.nullKeyFree_finished⟩

theorem World.clean_of_load_replaced :
    let text := "a: !replace\n  ~: 1\n  b: !remove x\n  c: !sub ${ 2 }\n"
    let world : World := ⟨⟨[(["main"], .file text.toUTF8.toList (.change 0))], [], 1⟩, .empty, [], .ofRoot ⟨"/"⟩⟩
    ∃ v, (world.load ⟨"/main"⟩).result = .ok v ∧ v.TagFree ∧ v.NullKeyFree := by
  intro text world
  have loads : (world.load ⟨"/main"⟩).result.isOk = true := by decide +kernel
  rcases result : (world.load ⟨"/main"⟩).result with e | v
  · rw [result] at loads
    cases loads
  · exact ⟨v, rfl, clean_of_load result⟩

end ConfigWeave
