import ConfigWeave.Proofs.ParsedTree

namespace ConfigWeave

/-- If all elements of a list have a partner in another one that is no longer, and no two of them the same one, then
nothing in the other list is left without. The induction is on the first list, with each partner taken out of the
second. -/
theorem exists_partner {α β : Type} {R : α → β → Prop} {a : List α} {b : List β} (size : b.length ≤ a.length)
    (each : ∀ x ∈ a, ∃ y ∈ b, R x y) (apart : a.Pairwise fun x later => ∀ y ∈ b, R x y → ¬ R later y) :
    ∀ y ∈ b, ∃ x ∈ a, R x y := by
  induction a generalizing b with
  | nil =>
    intro y member
    rw [List.eq_nil_of_length_eq_zero (Nat.le_zero.mp size)] at member
    cases member
  | cons x rest ih =>
    obtain ⟨alone, apartRest⟩ := List.pairwise_cons.mp apart
    obtain ⟨⟨taken, member, related⟩, others⟩ := List.forall_mem_cons.mp each
    obtain ⟨before, after, rfl⟩ := List.append_of_mem member
    have sizeRest : (before ++ after).length ≤ rest.length := by
      simp only [List.length_append, List.length_cons] at size ⊢
      omega
    have eachRest : ∀ z ∈ rest, ∃ y ∈ before ++ after, R z y := by
      intro z here
      obtain ⟨y, among, relatedRest⟩ := others z here
      have different : y ≠ taken := by
        rintro rfl
        exact alone z here y member related relatedRest
      refine ⟨y, ?_, relatedRest⟩
      simpa [different] using among
    have found := ih sizeRest eachRest (apartRest.imp fun distinct y among => distinct y (by
      simp only [List.mem_append, List.mem_cons] at among ⊢
      exact among.imp_right .inr))
    intro y among
    by_cases same : y = taken
    · exact ⟨x, List.mem_cons_self, same ▸ related⟩
    · obtain ⟨z, here, relatedRest⟩ := found y (by simpa [same] using among)
      exact ⟨z, List.mem_cons_of_mem _ here, relatedRest⟩

namespace Mapping

instance (m : Mapping) : Decidable m.Distinct :=
  inferInstanceAs (Decidable (m.Pairwise fun earlier later => (later.1 == earlier.1) = false))

theorem exists_entry_of_get? {m : Mapping} {key v : Value} (found : m.get? key = some v) :
    ∃ entry ∈ m, (key == entry.1) = true ∧ entry.2 = v := by
  obtain ⟨entry, first, same⟩ := Option.map_eq_some_iff.mp found
  exact ⟨entry, List.mem_of_find?_eq_some first, by simpa using List.find?_some first, same⟩

/-- A key leads to an entry of its own, if it is no key of others. -/
theorem Distinct.get?_of_mem {m : Mapping} (distinct : m.Distinct) {entry : Value × Value} (member : entry ∈ m)
    {key : Value} (equal : (key == entry.1) = true)
    (alone : ∀ other ∈ m, (key == other.1) = true → (entry.1 == other.1) = true) : m.get? key = some entry.2 := by
  induction m with
  | nil => cases member
  | cons first rest ih =>
    obtain ⟨apart, distinctRest⟩ := List.pairwise_cons.mp distinct
    rw [get?_cons]
    split
    · rename_i found
      rcases List.mem_cons.mp member with rfl | later
      · rfl
      · have same := alone first List.mem_cons_self found
        rw [apart entry later] at same
        cases same
    · rename_i other
      rcases List.mem_cons.mp member with rfl | later
      · exact absurd equal other
      · exact ih distinctRest later fun entry among => alone entry (List.mem_cons_of_mem _ among)

end Mapping

namespace Value

theorem within_eq_all (a b : Mapping) : within a b = a.all fun entry => (b.get? entry.1).any (entry.2 == ·) := by
  induction a with
  | nil => rw [within, List.all_nil]
  | cons entry rest ih =>
    obtain ⟨k, v⟩ := entry
    rw [within, ih, List.all_cons, show b.get? k = (b.find? fun entry => k.beq entry.1).map (·.2) from rfl]
    cases b.find? fun entry => k.beq entry.1 <;> rfl

theorem map_beq_iff {a b : Mapping} : (Value.map a == .map b) = true ↔
    a.length = b.length ∧ ∀ entry ∈ a, ∃ v, b.get? entry.1 = some v ∧ (entry.2 == v) = true := by
  show (Value.map a).beq (.map b) = true ↔ _
  simp only [beq, Bool.and_eq_true, beq_iff_eq, within_eq_all, List.all_eq_true, Option.any_eq_true]

/-- Trees in which keys are distinct are made of scalars, sequences, mappings with distinct keys, and tagged
nodes. -/
theorem KeysDistinct.induction {C : Value → Prop} (scalar : ∀ {v : Value}, v.IsScalar → C v)
    (seq : ∀ {items}, (∀ item ∈ items, C item) → C (.seq items))
    (map : ∀ {m : Mapping}, m.Distinct → (∀ entry ∈ m, C entry.1 ∧ C entry.2) → C (.map m))
    (tagged : ∀ {tag mark payload}, C payload → C (.tagged tag mark payload)) (v : Value)
    (distinct : v.KeysDistinct) :
    C v := by
  induction v with
  | scalar v isScalar => exact scalar isScalar
  | seq items ih => exact seq fun item member => ih item member (everyMapping_seq_iff.mp distinct item member)
  | map entries ih =>
    obtain ⟨here, below⟩ := everyMapping_map_iff.mp distinct
    refine map here fun entry member => ?_
    obtain ⟨key, value⟩ := below entry member
    exact ⟨(ih entry member).1 key, (ih entry member).2 value⟩
  | tagged tag mark payload ih => exact tagged (ih (everyMapping_tagged_iff.mp distinct))

/-- What makes the equality of a value with others one: it equals itself, it does not matter which of two values
stands first, and what it equals is equal to the same values as it is. -/
structure Lawful (v : Value) : Prop where
  distinct : v.KeysDistinct
  refl : (v == v) = true
  comm : ∀ {w : Value}, w.KeysDistinct → (v == w) = (w == v)
  congr : ∀ {w z : Value}, w.KeysDistinct → z.KeysDistinct → (v == w) = true → (v == z) = (w == z)

theorem IsScalar.lawful {v : Value} (scalar : v.IsScalar) : v.Lawful where
  distinct := scalar.everyMapping _
  refl := by
    show v.beq v = true
    cases v <;> simp_all [beq, IsScalar]
  comm {w} _ := by
    show v.beq w = w.beq v
    cases v <;> cases w <;> simp_all [beq, IsScalar, BEq.comm]
  congr {w z} _ _ := by
    show v.beq w = true → v.beq z = w.beq z
    cases v <;> cases w <;> cases z <;> simp_all [beq, IsScalar]

theorem Lawful.tagged {payload : Value} (lawful : payload.Lawful) (tag : Tag) (mark : Nat) :
    (Value.tagged tag mark payload).Lawful where
  distinct := everyMapping_tagged_iff.mpr lawful.distinct
  refl := by
    show (tag == tag && payload == payload) = true
    rw [beq_self_eq_true, lawful.refl, Bool.and_true]
  comm {w} distinct := by
    cases w with
    | tagged other place inner =>
      show (tag == other && payload == inner) = (other == tag && inner == payload)
      rw [lawful.comm (everyMapping_tagged_iff.mp distinct), BEq.comm]
    | _ => rfl
  congr {w z} distinct distinctLast same := by
    cases w with
    | tagged other place inner =>
      obtain ⟨sameTag, sameInner⟩ :=
        Bool.and_eq_true_iff.mp (show (tag == other && payload == inner) = true from same)
      cases z with
      | tagged third end_ last =>
        have distinctInner := everyMapping_tagged_iff.mp distinct
        have equal := lawful.congr distinctInner (everyMapping_tagged_iff.mp distinctLast) sameInner
        show (tag == third && payload == last) = (other == third && inner == last)
        rw [eq_of_beq sameTag, equal]
      | _ => rfl
    | _ => cases same

theorem lawful_seq_nil : (Value.seq []).Lawful where
  distinct := everyMapping_seq_iff.mpr (by simp)
  refl := rfl
  comm {w} _ := by
    cases w with
    | seq items => cases items <;> rfl
    | _ => rfl
  congr {w z} _ _ same := by
    cases w with
    | seq items =>
      cases items with
      | nil => rfl
      | cons _ _ => cases same
    | _ => cases same

theorem Lawful.seq_cons {item : Value} {rest : List Value} (first : item.Lawful)
    (others : (Value.seq rest).Lawful) :
    (Value.seq (item :: rest)).Lawful where
  distinct := everyMapping_seq_iff.mpr
    (List.forall_mem_cons.mpr ⟨first.distinct, everyMapping_seq_iff.mp others.distinct⟩)
  refl := by
    show (item == item && Value.seq rest == .seq rest) = true
    rw [first.refl, others.refl, Bool.and_true]
  comm {w} distinct := by
    cases w with
    | seq items =>
      cases items with
      | nil => rfl
      | cons head tail =>
        obtain ⟨distinctHead, distinctTail⟩ := List.forall_mem_cons.mp (everyMapping_seq_iff.mp distinct)
        show (item == head && Value.seq rest == .seq tail) = (head == item && Value.seq tail == .seq rest)
        rw [first.comm distinctHead, others.comm (everyMapping_seq_iff.mpr distinctTail)]
    | _ => rfl
  congr {w z} distinct distinctLast same := by
    cases w with
    | seq items =>
      cases items with
      | nil => cases same
      | cons head tail =>
        obtain ⟨distinctHead, distinctTail⟩ := List.forall_mem_cons.mp (everyMapping_seq_iff.mp distinct)
        obtain ⟨sameHead, sameTail⟩ := Bool.and_eq_true_iff.mp
          (show (item == head && Value.seq rest == .seq tail) = true from same)
        cases z with
        | seq last =>
          cases last with
          | nil => rfl
          | cons end_ more =>
            obtain ⟨distinctEnd, distinctMore⟩ := List.forall_mem_cons.mp (everyMapping_seq_iff.mp distinctLast)
            show (item == end_ && Value.seq rest == .seq more) = (head == end_ && Value.seq tail == .seq more)
            rw [first.congr distinctHead distinctEnd sameHead,
              others.congr (everyMapping_seq_iff.mpr distinctTail) (everyMapping_seq_iff.mpr distinctMore) sameTail]
        | _ => rfl
    | _ => cases same

theorem lawful_seq {items : List Value} (each : ∀ item ∈ items, item.Lawful) : (Value.seq items).Lawful := by
  induction items with
  | nil => exact lawful_seq_nil
  | cons item rest ih =>
    obtain ⟨first, others⟩ := List.forall_mem_cons.mp each
    exact first.seq_cons (ih others)

/-- Entries of the same key and value. -/
def SameEntry (a b : Value × Value) : Prop :=
  (a.1 == b.1) = true ∧ (a.2 == b.2) = true

/-- Mappings of one size are equal if every entry of the first is one of the second, as long as a key of the first
does not equal different keys of the second. -/
theorem map_beq_iff_of_distinct {a b : Mapping} (distinct : b.Distinct)
    (alone : ∀ x ∈ a, ∀ y ∈ b, ∀ z ∈ b, (x.1 == y.1) = true → (x.1 == z.1) = true → (y.1 == z.1) = true) :
    (Value.map a == .map b) = true ↔ a.length = b.length ∧ ∀ x ∈ a, ∃ y ∈ b, SameEntry x y := by
  rw [map_beq_iff]
  refine and_congr_right fun _ => forall₂_congr fun x member => ?_
  constructor
  · rintro ⟨v, found, equal⟩
    obtain ⟨y, among, sameKey, rfl⟩ := Mapping.exists_entry_of_get? found
    exact ⟨y, among, sameKey, equal⟩
  · rintro ⟨y, among, sameKey, equal⟩
    exact ⟨y.2, distinct.get?_of_mem among sameKey fun z other => alone x member y among z other sameKey, equal⟩

/-- If every entry of a mapping is one of another that is no longer, nothing in the other is left without: different
entries have different partners, as long as different keys of the first do not equal one of the second. -/
theorem exists_sameEntry {a b : Mapping} (distinct : a.Distinct)
    (alone : ∀ x ∈ a, ∀ y ∈ a, ∀ z ∈ b, (x.1 == z.1) = true → (y.1 == z.1) = true → (y.1 == x.1) = true)
    (size : b.length ≤ a.length) (covers : ∀ x ∈ a, ∃ y ∈ b, SameEntry x y) : ∀ y ∈ b, ∃ x ∈ a, SameEntry x y := by
  refine exists_partner size covers (distinct.imp_of_mem ?_)
  intro x y first second different z among one other
  have same := alone x first y second z among one.1 other.1
  rw [different] at same
  cases same

section Entries

variable {m : Mapping} (each : ∀ entry ∈ m, entry.1.Lawful ∧ entry.2.Lawful)
include each

theorem sameEntry_comm {x y : Value × Value} (member : x ∈ m) (distinct : y.1.KeysDistinct ∧ y.2.KeysDistinct) :
    SameEntry x y ↔ SameEntry y x := by
  obtain ⟨key, value⟩ := each x member
  unfold SameEntry
  rw [key.comm distinct.1, value.comm distinct.2]

theorem sameEntry_congr {x y z : Value × Value} (member : x ∈ m) (distinct : y.1.KeysDistinct ∧ y.2.KeysDistinct)
    (distinctLast : z.1.KeysDistinct ∧ z.2.KeysDistinct) (same : SameEntry x y) :
    SameEntry x z ↔ SameEntry y z := by
  obtain ⟨key, value⟩ := each x member
  unfold SameEntry
  rw [key.congr distinct.1 distinctLast.1 same.1, value.congr distinct.2 distinctLast.2 same.2]

/-- What stands for the same key in another mapping. -/
theorem sameKey {w : Mapping} (below : ∀ entry ∈ w, entry.1.KeysDistinct ∧ entry.2.KeysDistinct)
    {x y z : Value × Value} (member : x ∈ m) (among : y ∈ w) (other : z ∈ w) (one : (x.1 == y.1) = true)
    (two : (x.1 == z.1) = true) :
    (y.1 == z.1) = true :=
  ((each x member).1.congr (below y among).1 (below z other).1 one).symm.trans two

/-- Keys of a mapping that equal one of another are equal. -/
theorem keys_eq {w : Mapping} (below : ∀ entry ∈ w, entry.1.KeysDistinct ∧ entry.2.KeysDistinct)
    {x y z : Value × Value} (member : x ∈ m) (other : y ∈ m) (among : z ∈ w) (one : (x.1 == z.1) = true)
    (two : (y.1 == z.1) = true) :
    (y.1 == x.1) = true := by
  have back : (z.1 == x.1) = true := ((each x member).1.comm (below z among).1).symm.trans one
  exact ((each y other).1.congr (below z among).1 (each x member).1.distinct two).trans back

theorem map_beq_iff_front {w : Mapping} (distinct : (Value.map w).KeysDistinct) :
    (Value.map m == .map w) = true ↔ m.length = w.length ∧ ∀ x ∈ m, ∃ y ∈ w, SameEntry x y := by
  obtain ⟨here, below⟩ := everyMapping_map_iff.mp distinct
  exact map_beq_iff_of_distinct here fun _ member _ among _ other => sameKey each below member among other

theorem map_beq_iff_behind (here : m.Distinct) {w : Mapping} (distinct : (Value.map w).KeysDistinct) :
    (Value.map w == .map m) = true ↔ w.length = m.length ∧ ∀ y ∈ w, ∃ x ∈ m, SameEntry y x := by
  have below := (everyMapping_map_iff.mp distinct).2
  refine map_beq_iff_of_distinct here fun y among x member z other one two => ?_
  have first : (x.1 == y.1) = true := ((each x member).1.comm (below y among).1).trans one
  have second : (z.1 == y.1) = true := ((each z other).1.comm (below y among).1).trans two
  exact keys_eq each below other member among second first

/-- Every entry of a mapping that equals another is one of that. -/
theorem exists_of_map_beq (here : m.Distinct) {w : Mapping} (distinct : (Value.map w).KeysDistinct)
    (same : (Value.map m == .map w) = true) : ∀ y ∈ w, ∃ x ∈ m, SameEntry x y := by
  have below := (everyMapping_map_iff.mp distinct).2
  obtain ⟨size, covers⟩ := (map_beq_iff_front each distinct).mp same
  have alone (x) (member : x ∈ m) (y) (other : y ∈ m) (z) (among : z ∈ w) := keys_eq each below member other among
  exact exists_sameEntry here alone (Nat.le_of_eq size.symm) covers

theorem map_comm (here : m.Distinct) {w : Mapping} (distinct : (Value.map w).KeysDistinct) :
    (Value.map m == .map w) = (Value.map w == .map m) := by
  obtain ⟨there, below⟩ := everyMapping_map_iff.mp distinct
  rw [Bool.eq_iff_iff]
  constructor
  · intro same
    have size := ((map_beq_iff_front each distinct).mp same).1
    refine (map_beq_iff_behind each here distinct).mpr ⟨size.symm, fun y among => ?_⟩
    obtain ⟨x, member, equal⟩ := exists_of_map_beq each here distinct same y among
    exact ⟨x, member, (sameEntry_comm each member (below y among)).mp equal⟩
  · intro same
    obtain ⟨size, covers⟩ := (map_beq_iff_behind each here distinct).mp same
    -- Keys of the other mapping are not known to be lawful, but what they equal here is.
    have alone : ∀ y ∈ w, ∀ z ∈ w, ∀ x ∈ m, (y.1 == x.1) = true → (z.1 == x.1) = true → (z.1 == y.1) = true := by
      intro y among z other x member one two
      have first : (x.1 == y.1) = true := ((each x member).1.comm (below y among).1).trans one
      have second : (x.1 == z.1) = true := ((each x member).1.comm (below z other).1).trans two
      exact sameKey each below member other among second first
    refine (map_beq_iff_front each distinct).mpr ⟨size.symm, fun x member => ?_⟩
    obtain ⟨y, among, equal⟩ := exists_sameEntry there alone (Nat.le_of_eq size.symm) covers x member
    exact ⟨y, among, (sameEntry_comm each member (below y among)).mpr equal⟩

theorem map_congr (here : m.Distinct) {v w : Mapping} (distinct : (Value.map v).KeysDistinct)
    (distinctLast : (Value.map w).KeysDistinct) (same : (Value.map m == .map v) = true) :
    (Value.map m == .map w) = (Value.map v == .map w) := by
  obtain ⟨there, last⟩ := everyMapping_map_iff.mp distinctLast
  have below := (everyMapping_map_iff.mp distinct).2
  obtain ⟨size, covers⟩ := (map_beq_iff_front each distinct).mp same
  have covered := exists_of_map_beq each here distinct same
  have alone : ∀ y ∈ v, ∀ z ∈ w, ∀ u ∈ w, (y.1 == z.1) = true → (y.1 == u.1) = true → (z.1 == u.1) = true := by
    intro y among z other u another one two
    obtain ⟨x, member, equal⟩ := covered y among
    have first := ((each x member).1.congr (below y among).1 (last z other).1 equal.1).trans one
    have second := ((each x member).1.congr (below y among).1 (last u another).1 equal.1).trans two
    exact sameKey each last member other another first second
  rw [Bool.eq_iff_iff, map_beq_iff_front each distinctLast, map_beq_iff_of_distinct there alone, size]
  refine and_congr_right fun _ => ⟨fun matched y among => ?_, fun matched x member => ?_⟩
  · obtain ⟨x, member, equal⟩ := covered y among
    obtain ⟨z, other, found⟩ := matched x member
    exact ⟨z, other, (sameEntry_congr each member (below y among) (last z other) equal).mp found⟩
  · obtain ⟨y, among, equal⟩ := covers x member
    obtain ⟨z, other, found⟩ := matched y among
    exact ⟨z, other, (sameEntry_congr each member (below y among) (last z other) equal).mpr found⟩

theorem lawful_map (here : m.Distinct) : (Value.map m).Lawful := by
  have distinct : (Value.map m).KeysDistinct :=
    everyMapping_map_iff.mpr
      ⟨here, fun entry member => ⟨(each entry member).1.distinct, (each entry member).2.distinct⟩⟩
  refine ⟨distinct, ?_, fun {w} => ?_, fun {w z} => ?_⟩
  · refine (map_beq_iff_front each distinct).mpr ⟨rfl, fun x member => ⟨x, member, ?_⟩⟩
    exact ⟨(each x member).1.refl, (each x member).2.refl⟩
  · intro distinct
    cases w with
    | map w => exact map_comm each here distinct
    | _ => rfl
  · intro distinct distinctLast same
    cases w with
    | map w =>
      cases z with
      | map z => exact map_congr each here distinct distinctLast same
      | _ => rfl
    | _ => cases same

end Entries

/-- Among values whose mappings have distinct keys, equality is one. -/
theorem KeysDistinct.lawful {v : Value} (distinct : v.KeysDistinct) : v.Lawful :=
  KeysDistinct.induction IsScalar.lawful lawful_seq (fun here each => lawful_map each here)
    (fun lawful => lawful.tagged _ _) v distinct

end Value

namespace Mapping

/-- Whether keys are distinct does not depend on the order of the entries. -/
theorem Distinct.perm {a b : Mapping} (distinct : a.Distinct) (perm : a.Perm b)
    (keys : ∀ entry ∈ a, entry.1.KeysDistinct) : b.Distinct := by
  -- That keys differ is symmetric only together with what makes their equality lawful.
  let Apart (x y : Value × Value) : Prop := x.1.KeysDistinct ∧ y.1.KeysDistinct ∧ (y.1 == x.1) = false
  have symmetric : ∀ {x y : Value × Value}, Apart x y → Apart y x := fun ⟨first, second, different⟩ =>
    ⟨second, first, (first.lawful.comm second).trans different⟩
  have apart : a.Pairwise Apart := distinct.imp_of_mem fun first second different =>
    ⟨keys _ first, keys _ second, different⟩
  exact ((perm.pairwise_iff symmetric).mp apart).imp fun ⟨_, _, different⟩ => different

/-- Mappings of the same entries are equal. -/
theorem map_beq_of_perm {a b : Mapping} (perm : a.Perm b) (distinct : (Value.map a).KeysDistinct) :
    (Value.map a == .map b) = true := by
  obtain ⟨here, below⟩ := Value.everyMapping_map_iff.mp distinct
  have there : b.Distinct := here.perm perm fun entry member => (below entry member).1
  refine Value.map_beq_iff.mpr ⟨perm.length_eq, fun entry member => ?_⟩
  have key := Value.KeysDistinct.lawful (below entry member).1
  have value := Value.KeysDistinct.lawful (below entry member).2
  exact ⟨entry.2, there.get?_of_mem (perm.mem_iff.mp member) key.refl fun _ _ same => same, value.refl⟩

end Mapping

end ConfigWeave
