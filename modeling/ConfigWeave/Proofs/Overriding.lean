import ConfigWeave.Proofs.Equality
import ConfigWeave.Proofs.MergedTree
import ConfigWeave.Proofs.PlainTree
import Mathlib.Data.List.Basic

namespace ConfigWeave

namespace Value

/-- Whether overrides remove a node, be it what is to replace another one. -/
def isRemoved : Value → Bool
  | .tagged .removal _ _ => true
  | .tagged .replacement _ payload => payload.isRemoved
  | _ => false

theorem applyOverrides?_eq_none_iff : (v : Value) → (v.applyOverrides? = none ↔ v.isRemoved = true)
  | .tagged tag _ payload => by
    cases tag with
    | replacement => exact applyOverrides?_eq_none_iff payload
    | _ => simp [applyOverrides?, isRemoved]
  | .null | .bool _ | .int _ | .float _ | .str _ | .seq _ | .map _ => by simp [applyOverrides?, isRemoved]

theorem isRemoved_of_applyOverrides? {v w : Value} (applied : v.applyOverrides? = some w) :
    v.isRemoved = false := by
  rw [Bool.eq_false_iff, Ne, ← applyOverrides?_eq_none_iff, applied]
  nofun

/-- What becomes of an entry that is not removed with its key or its value. -/
def overriddenPair? (entry : Value × Value) : Option (Value × Value) :=
  entry.1.applyOverrides?.bind fun key => entry.2.applyOverrides?.map fun value => (key, value)

theorem overriddenPair?_eq_some_iff {entry new : Value × Value} : overriddenPair? entry = some new ↔
    entry.1.applyOverrides? = some new.1 ∧ entry.2.applyOverrides? = some new.2 := by
  obtain ⟨key, value⟩ := new
  simp only [overriddenPair?, Option.bind_eq_some_iff, Option.map_eq_some_iff, Prod.mk.injEq]
  constructor
  · rintro ⟨_, keyKept, _, valueKept, rfl, rfl⟩
    exact ⟨keyKept, valueKept⟩
  · rintro ⟨keyKept, valueKept⟩
    exact ⟨key, keyKept, value, valueKept, rfl, rfl⟩

theorem overriddenPair?_eq_none_iff {entry : Value × Value} :
    overriddenPair? entry = none ↔ (entry.1.isRemoved || entry.2.isRemoved) = true := by
  rw [Bool.or_eq_true, ← applyOverrides?_eq_none_iff, ← applyOverrides?_eq_none_iff, overriddenPair?]
  cases entry.1.applyOverrides? <;> cases entry.2.applyOverrides? <;> simp

theorem overriddenItems_eq (items : List Value) : overriddenItems items = items.filterMap applyOverrides? := by
  induction items with
  | nil => rfl
  | cons item rest ih =>
    rw [overriddenItems, List.filterMap_cons, ih]
    cases item.applyOverrides? <;> rfl

theorem overriddenEntries_eq (entries : List (Value × Value)) :
    overriddenEntries entries = entries.filterMap overriddenPair? := by
  induction entries with
  | nil => rfl
  | cons entry rest ih =>
    obtain ⟨key, value⟩ := entry
    rw [overriddenEntries, List.filterMap_cons, overriddenPair?, ih]
    cases key.applyOverrides? <;> cases value.applyOverrides? <;> rfl

theorem forall_mem_overriddenItems {P : Value → Prop} {items : List Value}
    (each : ∀ item ∈ items, ∀ w, item.applyOverrides? = some w → P w) : ∀ w ∈ overriddenItems items, P w := by
  intro w member
  rw [overriddenItems_eq, List.mem_filterMap] at member
  obtain ⟨item, among, left⟩ := member
  exact each item among w left

theorem forall_mem_overriddenEntries {P Q : Value → Prop} {entries : List (Value × Value)}
    (each : ∀ entry ∈ entries, (∀ key, entry.1.applyOverrides? = some key → P key) ∧
      ∀ value, entry.2.applyOverrides? = some value → Q value) :
    ∀ entry ∈ Mapping.ofList (overriddenEntries entries), P entry.1 ∧ Q entry.2 := by
  refine Mapping.forall_mem_insertAll (by simp) fun new member => ?_
  rw [overriddenEntries_eq, List.mem_filterMap] at member
  obtain ⟨entry, among, left⟩ := member
  obtain ⟨keyLeft, valueLeft⟩ := overriddenPair?_eq_some_iff.mp left
  exact ⟨(each entry among).1 new.1 keyLeft, (each entry among).2 new.2 valueLeft⟩

theorem IsScalar.applyOverrides? {v : Value} (scalar : v.IsScalar) : v.applyOverrides? = some v := by
  cases v with
  | seq | map | tagged => exact scalar.elim
  | _ => rfl

/-- What is left of a tree stems from it node by node: overrides leave scalars and nodes with other tags as they
are, put what replaces a node in its place, and keep sequences and mappings of what is left of their parts. -/
theorem applyOverrides?_induction {C : Value → Value → Prop} (scalar : ∀ {v : Value}, v.IsScalar → C v v)
    (kept : ∀ {tag mark payload}, tag.isOverride = false → C (.tagged tag mark payload) (.tagged tag mark payload))
    (replacement : ∀ {mark payload w}, C payload w → C (.tagged .replacement mark payload) w)
    (seq : ∀ {items}, (∀ item ∈ items, ∀ w, item.applyOverrides? = some w → C item w) →
      C (.seq items) (.seq (overriddenItems items)))
    (map : ∀ {entries}, (∀ entry ∈ entries, (∀ w, entry.1.applyOverrides? = some w → C entry.1 w) ∧
      ∀ w, entry.2.applyOverrides? = some w → C entry.2 w) →
      C (.map entries) (.map (Mapping.ofList (overriddenEntries entries)))) :
    (v w : Value) → v.applyOverrides? = some w → C v w := by
  intro v
  induction v with
  | scalar v isScalar =>
    intro w found
    rw [isScalar.applyOverrides?] at found
    cases found
    exact scalar isScalar
  | seq items ih =>
    rintro _ ⟨⟩
    exact seq ih
  | map entries ih =>
    rintro _ ⟨⟩
    exact map ih
  | tagged tag mark payload ih =>
    intro w found
    cases tag with
    | replacement => exact replacement (ih w found)
    | removal => cases found
    | _ =>
      cases found
      exact kept rfl

theorem applyOverrides?_of_not_isOverride {tag : Tag} (other : tag.isOverride = false) (mark : Nat)
    (payload : Value) :
    (Value.tagged tag mark payload).applyOverrides? = some (.tagged tag mark payload) := by
  cases tag with
  | removal | replacement => cases other
  | _ => rfl

theorem IsScalar.bare {v : Value} (scalar : v.IsScalar) : v.bare = v := by
  cases v with
  | seq | map | tagged => exact scalar.elim
  | _ => rfl

theorem overriddenItems_of_forall {items : List Value} (each : ∀ item ∈ items, item.applyOverrides? = some item) :
    overriddenItems items = items := by
  rw [overriddenItems_eq, (List.filterMap_eq_map_iff_forall_eq_some (g := id)).mpr each, List.map_id]

theorem overriddenEntries_of_forall {entries : List (Value × Value)}
    (each : ∀ entry ∈ entries, entry.1.applyOverrides? = some entry.1 ∧ entry.2.applyOverrides? = some entry.2) :
    overriddenEntries entries = entries := by
  have kept : ∀ entry ∈ entries, overriddenPair? entry = some entry :=
    fun entry member => overriddenPair?_eq_some_iff.mpr (each entry member)
  rw [overriddenEntries_eq, (List.filterMap_eq_map_iff_forall_eq_some (g := id)).mpr kept, List.map_id]

/-- What no override stands in is left as it is. -/
theorem applyOverrides?_of_not_hasOverride : {v : Value} → v.KeysDistinct → v.hasOverride = false →
    v.applyOverrides? = some v := by
  refine fun {v} => KeysDistinct.induction (C := fun v => v.hasOverride = false → v.applyOverrides? = some v)
    (fun scalar _ => scalar.applyOverrides?) (fun each none => ?_) (fun distinct each none => ?_)
      (fun _ none => ?_) v
  · rw [applyOverrides?, overriddenItems_of_forall]
    intro item member
    refine each item member (Bool.eq_false_iff.mpr fun override => ?_)
    rw [hasOverride, anyItemOverrides_of_mem member override] at none
    cases none
  · rw [applyOverrides?, overriddenEntries_of_forall, Mapping.ofList_of_distinct distinct]
    intro entry member
    have unmarked : ¬ (entry.1.hasOverride = true ∨ entry.2.hasOverride = true) := fun override => by
      rw [hasOverride, anyEntryOverrides_of_mem member override] at none
      cases none
    rw [not_or, Bool.not_eq_true, Bool.not_eq_true] at unmarked
    exact ⟨(each entry member).1 unmarked.1, (each entry member).2 unmarked.2⟩
  · rw [hasOverride, Bool.or_eq_false_iff] at none
    exact applyOverrides?_of_not_isOverride none.1 _ _

theorem TagFree.applyOverrides? {v : Value} (free : v.TagFree) (distinct : v.KeysDistinct) :
    v.applyOverrides? = some v :=
  applyOverrides?_of_not_hasOverride distinct free.hasOverride

/-- What overrides leave of a tree they leave as it is. -/
theorem applyOverrides?_idem {v w : Value} (applied : v.applyOverrides? = some w) : w.applyOverrides? = some w := by
  refine applyOverrides?_induction (C := fun _ w => w.applyOverrides? = some w)
    (fun scalar => scalar.applyOverrides?)
    (fun other => applyOverrides?_of_not_isOverride other _ _) id (fun each => ?_) (fun each => ?_) v w applied
  · rw [Value.applyOverrides?, overriddenItems_of_forall (forall_mem_overriddenItems each)]
  · rw [Value.applyOverrides?, overriddenEntries_of_forall (forall_mem_overriddenEntries each),
      Mapping.ofList_of_distinct (Mapping.distinct_ofList _)]

/-- Where overrides are the only tags, there is no other tag whose node could stay. -/
theorem OverridesOnly.induction {C : Value → Value → Prop} (scalar : ∀ {v : Value}, v.IsScalar → C v v)
    (replacement : ∀ {mark payload w}, C payload w → C (.tagged .replacement mark payload) w)
    (seq : ∀ {items}, (∀ item ∈ items, ∀ w, item.applyOverrides? = some w → C item w) →
      C (.seq items) (.seq (overriddenItems items)))
    (map : ∀ {entries}, (∀ entry ∈ entries, (∀ w, entry.1.applyOverrides? = some w → C entry.1 w) ∧
      ∀ w, entry.2.applyOverrides? = some w → C entry.2 w) →
      C (.map entries) (.map (Mapping.ofList (overriddenEntries entries))))
    {v w : Value} (only : v.OverridesOnly) (applied : v.applyOverrides? = some w) : C v w := by
  refine applyOverrides?_induction (C := fun v w => v.OverridesOnly → C v w) (fun isScalar _ => scalar isScalar)
    (fun other only => ?_) (fun below only => replacement (below only.of_replacement)) (fun each only => seq ?_)
    (fun each only => map fun entry member => ?_) v w applied only
  · rw [only _ _ _ (.self _)] at other
    cases other
  · exact fun item member w left => each item member w left (only.of_mem_seq member)
  · obtain ⟨key, value⟩ := only.of_mem_map member
    exact ⟨fun w left => (each entry member).1 w left key, fun w left => (each entry member).2 w left value⟩

/-- Where overrides are the only tags, none is left. -/
theorem OverridesOnly.tagFree {v w : Value} (only : v.OverridesOnly) (applied : v.applyOverrides? = some w) :
    w.TagFree :=
  only.induction (C := fun _ w => w.TagFree) (fun scalar => scalar.tagFree) id
    (fun each => tagFree_seq (forall_mem_overriddenItems each))
    (fun each => tagFree_map (forall_mem_overriddenEntries each)) applied

/-- Keys that are distinct stay so. -/
theorem KeysDistinct.applyOverrides? {v w : Value} (distinct : v.KeysDistinct)
    (applied : v.applyOverrides? = some w) :
    w.KeysDistinct := by
  refine applyOverrides?_induction (C := fun v w => v.KeysDistinct → w.KeysDistinct) (fun _ => id) (fun _ => id)
    (fun below distinct => below (everyMapping_tagged_iff.mp distinct))
      (fun each distinct => everyMapping_seq_iff.mpr ?_)
    (fun each distinct => everyMapping_map_iff.mpr ⟨Mapping.distinct_ofList _, ?_⟩) v w applied distinct
  · exact forall_mem_overriddenItems fun item member w left =>
      each item member w left (everyMapping_seq_iff.mp distinct item member)
  · refine forall_mem_overriddenEntries fun entry member => ?_
    obtain ⟨key, value⟩ := (everyMapping_map_iff.mp distinct).2 entry member
    exact ⟨fun w left => (each entry member).1 w left key, fun w left => (each entry member).2 w left value⟩

/-- Overrides do not change of what kind a node is, and leave of a scalar what it is below its tags. -/
theorem OverridesOnly.kept {v w : Value} (only : v.OverridesOnly) (applied : v.applyOverrides? = some w) :
    w.typeName = v.typeName ∧ (v.bare.IsScalar → w = v.bare) := by
  refine only.induction (C := fun v w => w.typeName = v.typeName ∧ (v.bare.IsScalar → w = v.bare))
    (fun scalar => ?_) id (fun _ => ⟨rfl, False.elim⟩) (fun _ => ⟨rfl, False.elim⟩) applied
  rw [scalar.bare]
  exact ⟨rfl, fun _ => rfl⟩

end Value

/-- A node right below another one: an item of a sequence, or the key or the value of an entry, with the other half
of the entry. -/
inductive Child where
  | item (v : Value)
  | key (k v : Value)
  | value (k v : Value)

namespace Child

/-- Whether overrides remove a node: an item on its own, the key and the value of an entry with each other. -/
def isRemoved : Child → Bool
  | .item v => v.isRemoved
  | .key k v | .value k v => k.isRemoved || v.isRemoved

/-- The node with what overrides make of it, if they do not remove it. -/
def overridden : Child → Child
  | .item v => .item (v.applyOverrides?.getD .null)
  | .key k v => .key (k.applyOverrides?.getD .null) (v.applyOverrides?.getD .null)
  | .value k v => .value (k.applyOverrides?.getD .null) (v.applyOverrides?.getD .null)

/-- The ways to a node and to those below it, from those that lead on. -/
def lead (child : Child) (further : List (List Child)) : List (List Child) :=
  [child] :: further.map (child :: ·)

/-- Of the ways to nodes those that are left, where no node on them is removed, through what is left of the
nodes. -/
def left (ways : List (List Child)) : List (List Child) :=
  (ways.filter fun way => way.all fun child => !child.isRemoved).map fun way => way.map overridden

theorem left_append (ways more : List (List Child)) : left (ways ++ more) = left ways ++ left more := by
  rw [left, List.filter_append, List.map_append, left, left]

theorem left_lead_of_isRemoved {child : Child} (removed : child.isRemoved = true) (further : List (List Child)) :
    left (child.lead further) = [] := by
  rw [left, List.map_eq_nil_iff, List.filter_eq_nil_iff]
  intro way member
  rcases List.mem_cons.mp member with rfl | longer
  · simp [removed]
  · obtain ⟨rest, _, rfl⟩ := List.mem_map.mp longer
    simp [removed]

theorem left_lead {child : Child} (kept : child.isRemoved = false) (further : List (List Child)) :
    left (child.lead further) = child.overridden.lead (left further) := by
  simp [left, lead, kept, List.filter_map, Function.comp_def]

end Child

namespace Value

mutual
/-- The ways to all nodes below the root of a tree in the order of the document, each from the root down to the
node. Tags on nodes are passed over. -/
def ways : Value → List (List Child)
  | .tagged _ _ payload => payload.ways
  | .seq items => itemWays items
  | .map entries => entryWays entries
  | _ => []
def itemWays : List Value → List (List Child)
  | [] => []
  | v :: rest => (Child.item v).lead v.ways ++ itemWays rest
def entryWays : List (Value × Value) → List (List Child)
  | [] => []
  | (k, v) :: rest => (Child.key k v).lead k.ways ++ (Child.value k v).lead v.ways ++ entryWays rest
end

/-- The keys of the entries that are left of a mapping are distinct, once they are unwrapped. -/
def UnwrapsApart (v : Value) : Prop :=
  ∀ entries, Standing (.map entries) v → Mapping.Distinct (overriddenEntries entries)

theorem IsScalar.ways {v : Value} (scalar : v.IsScalar) : v.ways = [] := by
  cases v with
  | seq | map | tagged => exact scalar.elim
  | _ => rfl

theorem itemWays_overriddenItems {items : List Value}
    (each : ∀ item ∈ items, ∀ w, item.applyOverrides? = some w → w.ways = Child.left item.ways) :
    itemWays (overriddenItems items) = Child.left (itemWays items) := by
  induction items with
  | nil => rfl
  | cons item rest ih =>
    obtain ⟨first, others⟩ := List.forall_mem_cons.mp each
    rw [itemWays, Child.left_append, ← ih others]
    cases found : item.applyOverrides? with
    | none =>
      have removed : (Child.item item).isRemoved = true := (applyOverrides?_eq_none_iff item).mp found
      simp only [overriddenItems, found, Child.left_lead_of_isRemoved removed, List.nil_append]
    | some w =>
      have kept : (Child.item item).isRemoved = false := isRemoved_of_applyOverrides? found
      simp only [overriddenItems, found, itemWays, Child.left_lead kept, Child.overridden, Option.getD_some,
        first w found]

theorem entryWays_overriddenEntries {entries : List (Value × Value)}
    (each : ∀ entry ∈ entries, (∀ w, entry.1.applyOverrides? = some w → w.ways = Child.left entry.1.ways) ∧
      ∀ w, entry.2.applyOverrides? = some w → w.ways = Child.left entry.2.ways) :
    entryWays (overriddenEntries entries) = Child.left (entryWays entries) := by
  induction entries with
  | nil => rfl
  | cons entry rest ih =>
    obtain ⟨⟨key, value⟩, others⟩ := List.forall_mem_cons.mp each
    rw [entryWays, Child.left_append, Child.left_append, ← ih others, overriddenEntries_eq, overriddenEntries_eq,
      List.filterMap_cons]
    cases found : overriddenPair? entry with
    | none =>
      -- The key and the value are left out together, by one test.
      have keyRemoved : (Child.key entry.1 entry.2).isRemoved = true := overriddenPair?_eq_none_iff.mp found
      have valueRemoved : (Child.value entry.1 entry.2).isRemoved = true := keyRemoved
      rw [Child.left_lead_of_isRemoved keyRemoved, Child.left_lead_of_isRemoved valueRemoved]
      rfl
    | some new =>
      obtain ⟨keyLeft, valueLeft⟩ := overriddenPair?_eq_some_iff.mp found
      have keyKept : (Child.key entry.1 entry.2).isRemoved = false := by
        rw [Child.isRemoved, isRemoved_of_applyOverrides? keyLeft, isRemoved_of_applyOverrides? valueLeft,
          Bool.or_false]
      have valueKept : (Child.value entry.1 entry.2).isRemoved = false := keyKept
      rw [Child.left_lead keyKept, Child.left_lead valueKept, ← key _ keyLeft, ← value _ valueLeft,
        Child.overridden, Child.overridden, keyLeft, valueLeft]
      rfl

/-- A node stays in a tree if overrides remove neither it, with an entry the other half of it, nor a node that it
stands in, and the nodes that stay keep their order. -/
theorem ways_of_applyOverrides? {v w : Value} (only : v.OverridesOnly) (apart : v.UnwrapsApart)
    (applied : v.applyOverrides? = some w) : w.ways = Child.left v.ways := by
  refine only.induction (C := fun v w => v.UnwrapsApart → w.ways = Child.left v.ways) (fun scalar _ => ?_)
    (fun below apart => below fun entries standing => ?_) (fun each apart => ?_)
      (fun {entries} each apart => ?_) applied
    apart
  · rw [scalar.ways]
    rfl
  · have stays : Tag.replacement ≠ .removal := Tag.noConfusion
    exact apart entries (.payload stays standing)
  · refine itemWays_overriddenItems fun item member left found => each item member left found ?_
    exact fun entries standing => apart entries (.item member standing)
  · rw [ways, ways, Mapping.ofList_of_distinct (apart entries (.self _))]
    refine entryWays_overriddenEntries fun entry member => ⟨fun left found => ?_, fun left found => ?_⟩
    · exact (each entry member).1 left found fun entries standing => apart entries (.key member standing)
    · exact (each entry member).2 left found fun entries standing => apart entries (.value member standing)

end Value

end ConfigWeave
