import ConfigWeave.Proofs.Lookup
import ConfigWeave.Proofs.PlainTree
import ConfigWeave.Value.Hash

namespace ConfigWeave

namespace Value

mutual
/-- What is equal feeds a hash the same data. This needs no distinct keys: of mappings only the sizes are
compared. -/
theorem hashInput_of_beq : (a : Value) → {b : Value} → (a == b) = true → a.hashInput = b.hashInput
  | .seq items, b, same => by
    cases b with
    | seq others =>
      obtain ⟨size, inputs⟩ := hashInputs_of_beq items same
      rw [hashInput, hashInput, size, inputs]
    | _ => cases same
  | .map entries, b, same => by
    cases b with
    | map others => rw [hashInput, hashInput, (map_beq_iff.mp same).1]
    | _ => cases same
  | .tagged tag _ payload, b, same => by
    cases b with
    | tagged other _ inner =>
      obtain ⟨sameTag, sameInner⟩ :=
        Bool.and_eq_true_iff.mp (show (tag == other && payload == inner) = true from same)
      rw [hashInput, hashInput, eq_of_beq sameTag, hashInput_of_beq payload sameInner]
    | _ => cases same
  | .float x, b, same => by
    cases b with
    | float y => rw [hashInput, hashInput, eq_of_beq (show (x == y) = true from same)]
    | _ => cases same
  | .bool x, b, same => by
    cases b with
    | bool y => rw [eq_of_beq (show (x == y) = true from same)]
    | _ => cases same
  | .int x, b, same => by
    cases b with
    | int y => rw [eq_of_beq (show (x == y) = true from same)]
    | _ => cases same
  | .str x, b, same => by rw [str_beq_iff.mp same]
  | .null, b, same => by
    cases b with
    | null => rfl
    | _ => cases same
theorem hashInputs_of_beq : (a : List Value) → {b : List Value} → (Value.seq a == .seq b) = true →
    a.length = b.length ∧ hashInputs a = hashInputs b
  | [], b, same => by
    cases b with
    | nil => exact ⟨rfl, rfl⟩
    | cons => cases same
  | v :: rest, b, same => by
    cases b with
    | nil => cases same
    | cons w others =>
      obtain ⟨first, later⟩ :=
        Bool.and_eq_true_iff.mp (show (v == w && Value.seq rest == .seq others) = true from same)
      obtain ⟨size, inputs⟩ := hashInputs_of_beq rest later
      exact ⟨congrArg (· + 1) size, by rw [hashInputs, hashInputs, hashInput_of_beq v first, inputs]⟩
end

section Hashed

variable (hash : List HashInput → UInt64)

/-- Comparing hashes first leaves out no key that is equal. -/
theorem hash_beq_and (a b : Value) : (hash a.hashInput == hash b.hashInput && a == b) = (a == b) := by
  by_cases same : (a == b) = true
  · rw [hashInput_of_beq a same, beq_self_eq_true, Bool.true_and]
  · rw [Bool.not_eq_true] at same
    rw [same, Bool.and_false]

mutual
/-- Whatever the hash is, equality is the same as without. -/
theorem hashedBeq_eq : (a b : Value) → a.hashedBeq hash b = (a == b)
  | .seq items, b => by
    cases b with
    | seq others => exact hashedBeqItems_eq items others
    | _ => rfl
  | .map entries, b => by
    cases b with
    | map others =>
      show (entries.length == others.length && hashedWithin hash entries others) =
        (entries.length == others.length && within entries others)
      rw [hashedWithin_eq]
    | _ => rfl
  | .tagged tag _ payload, b => by
    cases b with
    | tagged other _ inner =>
      show (tag == other && payload.hashedBeq hash inner) = (tag == other && payload == inner)
      rw [hashedBeq_eq]
    | _ => rfl
  | .null, b | .bool _, b | .int _, b | .float _, b | .str _, b => by cases b <;> rfl
theorem hashedBeqItems_eq : (a b : List Value) → hashedBeqItems hash a b = (Value.seq a == .seq b)
  | [], b => by cases b <;> rfl
  | v :: rest, b => by
    cases b with
    | nil => rfl
    | cons w others =>
      show (v.hashedBeq hash w && hashedBeqItems hash rest others) = (v == w && Value.seq rest == .seq others)
      rw [hashedBeq_eq, hashedBeqItems_eq]
theorem hashedWithin_eq : (a b : Mapping) → hashedWithin hash a b = within a b
  | [], _ => by rw [hashedWithin, within]
  | (k, v) :: rest, others => by
    have keys (entry : Value × Value) :
        (hash k.hashInput == hash entry.1.hashInput && k.hashedBeq hash entry.1) = k.beq entry.1 := by
      rw [hashedBeq_eq]
      exact hash_beq_and hash k entry.1
    simp only [hashedWithin, within, keys, hashedWithin_eq rest others]
    cases others.find? fun entry => k.beq entry.1 with
    | none => rfl
    | some entry => exact congrArg (· && within rest others) (hashedBeq_eq v entry.2)
end

end Hashed

/-- Values as they come about: mappings start empty, and entries are inserted, taken out by their key, or
filtered. -/
inductive Built : Value → Prop
  | scalar {v : Value} : v.IsScalar → Built v
  | seq {items : List Value} : (∀ item ∈ items, Built item) → Built (.seq items)
  | tagged {tag : Tag} {mark : Nat} {payload : Value} : Built payload → Built (.tagged tag mark payload)
  | empty : Built (.map [])
  | insert {m : Mapping} {key value : Value} : Built (.map m) → Built key → Built value →
      Built (.map (m.insert key value))
  | erase {m : Mapping} {key : Value} : Built (.map m) → Built key → Built (.map (m.erase key))
  | filter {m : Mapping} (p : Value × Value → Bool) : Built (.map m) → Built (.map (m.filter p))

/-- Each step leaves keys distinct, an insertion because equal keys have one entry. -/
theorem Built.keysDistinct {v : Value} (built : v.Built) : v.KeysDistinct := by
  induction built with
  | scalar scalar => exact scalar.everyMapping _
  | seq _ each => exact everyMapping_seq_iff.mpr each
  | tagged _ below => exact everyMapping_tagged_iff.mpr below
  | empty => exact everyMapping_map_iff.mpr ⟨.nil, nofun⟩
  | insert _ _ _ entries key value => exact entries.insert key value
  | erase _ _ entries => exact hereditary_keysDistinct.sublist entries (Mapping.erase_sublist _ _)
  | filter _ _ entries => exact hereditary_keysDistinct.sublist entries List.filter_sublist

theorem Built.insertAll {m : Mapping} (built : (Value.map m).Built) {entries : List (Value × Value)}
    (each : ∀ entry ∈ entries, entry.1.Built ∧ entry.2.Built) : (Value.map (m.insertAll entries)).Built := by
  unfold Mapping.insertAll
  induction entries generalizing m with
  | nil => exact built
  | cons entry rest ih =>
    obtain ⟨⟨key, value⟩, others⟩ := List.forall_mem_cons.mp each
    exact ih (built.insert key value) others

/-- Nothing but distinct keys is needed for a value to come about. -/
theorem built_iff_keysDistinct {v : Value} : v.Built ↔ v.KeysDistinct := by
  refine ⟨Built.keysDistinct, KeysDistinct.induction .scalar .seq (fun {m} distinct each => ?_) .tagged v⟩
  have inserted := Built.empty.insertAll each
  rwa [Mapping.insertAll_of_distinct (m := []) distinct] at inserted

end Value

namespace Mapping

/-- The entry that a key addresses: what is at a place is found, replaced and taken out, and where there is no
place a new entry stands behind the others. -/
structure Addresses (hash : List HashInput → UInt64) (m : Mapping) (key : Value) (place : Option Nat) : Prop where
  found : m.place? hash key = place
  lookup : m.get? key = place.bind fun i => m[i]?.map (·.2)
  insertion : ∀ value, m.insert key value =
    place.elim (m ++ [(key, value)]) fun i => m.modify i fun entry => (entry.1, value)
  removal : m.erase key = place.elim m m.eraseIdx

theorem get?_eq_findIdx? (m : Mapping) (key : Value) :
    m.get? key = (m.findIdx? (key == ·.1)).bind fun i => m[i]?.map (·.2) := by
  induction m with
  | nil => rfl
  | cons entry rest ih =>
    obtain ⟨k, v⟩ := entry
    rw [get?_cons, List.findIdx?_cons, ih]
    split
    · rfl
    · rw [Option.bind_map]
      rfl

theorem insert_eq_findIdx? (m : Mapping) (key value : Value) : m.insert key value =
    (m.findIdx? (key == ·.1)).elim (m ++ [(key, value)]) fun i => m.modify i fun entry => (entry.1, value) := by
  induction m with
  | nil => rfl
  | cons entry rest ih =>
    obtain ⟨k, v⟩ := entry
    rw [insert, List.findIdx?_cons, ih]
    split
    · rfl
    · cases rest.findIdx? (key == ·.1) <;> rfl

theorem erase_eq_findIdx? (m : Mapping) (key : Value) :
    m.erase key = (m.findIdx? (key == ·.1)).elim m m.eraseIdx := by
  induction m with
  | nil => rfl
  | cons entry rest ih =>
    obtain ⟨k, v⟩ := entry
    rw [erase, List.findIdx?_cons, ih]
    split
    · rfl
    · cases rest.findIdx? (key == ·.1) <;> rfl

section Place

variable (hash : List HashInput → UInt64)

/-- As equal keys have the same hash, the place of a key is that of the first one that is equal. -/
theorem place?_eq_findIdx? (m : Mapping) (key : Value) : m.place? hash key = m.findIdx? (key == ·.1) := by
  simp only [place?, Value.hashedBeq_eq, Value.hash_beq_and]

theorem addresses (m : Mapping) (key : Value) : m.Addresses hash key (m.place? hash key) := by
  refine ⟨rfl, ?_, fun value => ?_, ?_⟩ <;> rw [place?_eq_findIdx?]
  · exact get?_eq_findIdx? m key
  · exact insert_eq_findIdx? m key value
  · exact erase_eq_findIdx? m key

variable {m : Mapping} (built : (Value.map m).Built) {a b : Value} (first : a.Built) (second : b.Built)
include built first

/-- A key that is equal to one of a mapping addresses the entry of that. -/
theorem addresses_of_beq {i : Nat} {entry : Value × Value} (here : m[i]? = some entry)
    (same : (a == entry.1) = true) :
    m.Addresses hash a (some i) := by
  obtain ⟨distinct, below⟩ := Value.everyMapping_map_iff.mp built.keysDistinct
  have place : m.place? hash a = some i := by
    rw [place?_eq_findIdx?, List.findIdx?_eq_some_iff_getElem]
    obtain ⟨bound, atPlace⟩ := List.getElem?_eq_some_iff.mp here
    refine ⟨bound, by rwa [atPlace], fun j earlier also => ?_⟩
    -- The key would be equal to both, and they to each other.
    have apart := List.pairwise_iff_getElem.mp distinct j i (Nat.lt_trans earlier bound) bound earlier
    have keys (n : Nat) (inside : n < m.length) := (below m[n] (List.getElem_mem inside)).1
    rw [atPlace, ← first.keysDistinct.lawful.congr (atPlace ▸ keys i bound) (keys j _) same, also] at apart
    cases apart
  exact place ▸ addresses hash m a

include second

/-- Equal keys address the same entry. -/
theorem place?_congr (same : (a == b) = true) : m.place? hash a = m.place? hash b := by
  have below := (Value.everyMapping_map_iff.mp built.keysDistinct).2
  have equal (entry) (member : entry ∈ m) : (a == entry.1) = (b == entry.1) :=
    first.keysDistinct.lawful.congr second.keysDistinct (below entry member).1 same
  have places (key : Value) : m.place? hash key = (m.map (key == ·.1)).findIdx? id := by
    rw [place?_eq_findIdx?, List.findIdx?_map]
    rfl
  rw [places a, places b, List.map_congr_left equal]

end Place

/-- Of distinct keys none that is left is equal to one that is taken out. -/
theorem Distinct.beq_eq_false_of_mem_erase {m : Mapping} (distinct : m.Distinct)
    (keys : ∀ entry ∈ m, entry.1.KeysDistinct) {key : Value} (keyDistinct : key.KeysDistinct)
    {entry : Value × Value} (member : entry ∈ m.erase key) : (key == entry.1) = false := by
  induction m with
  | nil => cases member
  | cons other rest ih =>
    obtain ⟨apart, distinctRest⟩ := List.pairwise_cons.mp distinct
    obtain ⟨first, later⟩ := List.forall_mem_cons.mp keys
    rw [erase] at member
    split at member
    · rename_i found
      rw [keyDistinct.lawful.congr first (later entry member) found, first.beq_comm (later entry member)]
      exact apart entry member
    · rename_i absent
      rcases List.mem_cons.mp member with rfl | among
      · exact Bool.eq_false_iff.mpr absent
      · exact ih distinctRest later among

/-- Nothing is found under a key that is equal to one that is taken out. -/
theorem get?_erase_of_beq {m : Mapping} (distinct : (Value.map m).KeysDistinct) {a b : Value}
    (first : a.KeysDistinct) (second : b.KeysDistinct) (same : (a == b) = true) : (m.erase a).get? b = none := by
  obtain ⟨here, below⟩ := Value.everyMapping_map_iff.mp distinct
  have keys : ∀ entry ∈ m, entry.1.KeysDistinct := fun entry member => (below entry member).1
  rw [get?, List.find?_eq_none.mpr, Option.map_none]
  intro entry member equal
  have inside := keys entry ((erase_sublist m a).subset member)
  rw [← first.lawful.congr second inside same, here.beq_eq_false_of_mem_erase keys first member] at equal
  cases equal

end Mapping

/-- Equality of values is sound for keys. Among values as they come about it is an equivalence, whatever hash keys
are looked up by, and equal values feed the hash the same data. So no key stands in a mapping twice, and with equal
keys the same entry is found, replaced and taken out. -/
theorem Value.key_equality (hash : List HashInput → UInt64) {a b c : Value} (first : a.Built) (second : b.Built)
    (third : c.Built) {m : Mapping} (built : (Value.map m).Built) :
    (a == a) = true ∧ ((a == b) = true → (b == a) = true) ∧
      ((a == b) = true → (b == c) = true → (a == c) = true) ∧
      a.hashedBeq hash b = (a == b) ∧ ((a == b) = true → a.hashInput = b.hashInput) ∧
      m.Distinct ∧
      (∀ i entry, m[i]? = some entry → (a == entry.1) = true → m.Addresses hash a (some i)) ∧
      ((a == b) = true → (∃ place, m.Addresses hash a place ∧ m.Addresses hash b place) ∧
        (m.erase a).get? b = none ∧ ∀ value, (m.insert a value).get? b = some value) := by
  have lawful := first.keysDistinct.lawful
  obtain ⟨distinct, below⟩ := everyMapping_map_iff.mp built.keysDistinct
  have keys : ∀ entry ∈ m, entry.1.KeysDistinct := fun entry member => (below entry member).1
  refine ⟨lawful.refl, fun same => ?_, fun one two => ?_, hashedBeq_eq hash a b, hashInput_of_beq a, distinct,
    fun i entry => Mapping.addresses_of_beq hash built first, fun same => ⟨?_, ?_, fun value => ?_⟩⟩
  · rwa [← lawful.comm second.keysDistinct]
  · rwa [lawful.congr second.keysDistinct third.keysDistinct one]
  · refine ⟨m.place? hash a, m.addresses hash a, ?_⟩
    rw [Mapping.place?_congr hash built first second same]
    exact m.addresses hash b
  · exact Mapping.get?_erase_of_beq built.keysDistinct first.keysDistinct second.keysDistinct same
  · have back : (b == a) = true := by rwa [← lawful.comm second.keysDistinct]
    rw [Mapping.get?_insert keys second.keysDistinct first.keysDistinct, if_pos back]

/-- A key whose entries stand in another order, one of them under a merge key from elsewhere, while all hashes are
the same. -/
theorem Value.key_equality_reordered :
    let key : Value := .map [(.tagged .mergeKey 3 (.str "<<"), .int 1), (.str "x", .seq [.bool true])]
    let reordered : Value := .map [(.str "x", .seq [.bool true]), (.tagged .mergeKey 7 (.str "<<"), .int 1)]
    let m : Mapping := [(.str "y", .null), (key, .bool true)]
    (key == reordered) = true ∧ (reordered == key) = true ∧ key.hashInput = reordered.hashInput ∧
      m.Addresses (fun _ => 0) reordered (some 1) ∧ (m.erase reordered).get? key = none ∧
      (m.insert reordered (.bool false)).get? key = some (.bool false) := by
  intro key reordered m
  have text (s : String) : (Value.str s).KeysDistinct := Value.everyMapping_str _ s
  have number : (Value.int 1).KeysDistinct := IsScalar.everyMapping (show (Value.int 1).IsScalar from trivial) _
  have bool : (Value.bool true).KeysDistinct :=
    IsScalar.everyMapping (show (Value.bool true).IsScalar from trivial) _
  have keyDistinct : key.KeysDistinct :=
    everyMapping_map_iff.mpr
      ⟨by decide, by simp [text, number, bool, everyMapping_tagged_iff, everyMapping_seq_iff]⟩
  have alsoDistinct : reordered.KeysDistinct :=
    everyMapping_map_iff.mpr
      ⟨by decide, by simp [text, number, bool, everyMapping_tagged_iff, everyMapping_seq_iff]⟩
  have entriesDistinct : (Value.map m).KeysDistinct :=
    everyMapping_map_iff.mpr ⟨by decide, by simp [m, text, bool, keyDistinct, keysDistinct_null]⟩
  have built := built_iff_keysDistinct.mpr keyDistinct
  obtain ⟨_, comm, _, _, _, _, addressed, same⟩ :=
    key_equality (fun _ => 0) (built_iff_keysDistinct.mpr alsoDistinct) built built
      (built_iff_keysDistinct.mpr entriesDistinct)
  have equal : (reordered == key) = true := by decide
  obtain ⟨_, absent, present⟩ := same equal
  exact ⟨comm equal, equal, hashInput_of_beq key (comm equal), addressed 1 _ rfl equal, absent, present _⟩

end ConfigWeave
