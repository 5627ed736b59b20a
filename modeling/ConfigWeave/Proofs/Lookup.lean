import ConfigWeave.Proofs.DistinctKeys
import ConfigWeave.Proofs.Equality

namespace ConfigWeave

namespace Value

theorem KeysDistinct.beq_comm {a b : Value} (distinct : a.KeysDistinct) (other : b.KeysDistinct) :
    (a == b) = (b == a) :=
  distinct.lawful.comm other

/-- Equal keys are equal to the same keys. -/
theorem KeysDistinct.beq_congr_right {a b c : Value} (distinct : a.KeysDistinct) (first : b.KeysDistinct)
    (second : c.KeysDistinct) (same : (b == c) = true) : (a == b) = (a == c) := by
  rw [distinct.beq_comm first, first.lawful.congr second distinct same, second.beq_comm distinct]

end Value

namespace Mapping

theorem any_keys (m : Mapping) (key : Value) : (m.map Prod.fst).any (key == ·) = contains m key := by
  rw [List.any_map]
  rfl

theorem keys_insert (m : Mapping) (key value : Value) :
    (insert m key value).map Prod.fst = if contains m key then m.map Prod.fst else m.map Prod.fst ++ [key] := by
  split
  · rename_i present
    exact keys_insert_of_contains present
  · rename_i absent
    rw [insert_of_not_contains (Bool.eq_false_iff.mpr absent), List.map_append, List.map_singleton]

/-- Whatever becomes of the values, keys that are inserted one after the other stand behind those that are there,
each where it comes first. -/
theorem keys_foldl {step : Mapping → Value × Value → Mapping}
    (keys : ∀ m entry, (step m entry).map Prod.fst = (insert m entry.1 entry.2).map Prod.fst) (m : Mapping)
    (entries : List (Value × Value)) : (entries.foldl step m).map Prod.fst =
      m.map Prod.fst ++ ((entries.map Prod.fst).filter fun key => !contains m key).eraseDups := by
  induction entries generalizing m with
  | nil => simp
  | cons entry rest ih =>
    have after (key : Value) : contains (step m entry) key =
        (contains m key || (!contains m entry.1 && key == entry.1)) := by
      rw [← any_keys, keys, keys_insert]
      split
      · rename_i present
        rw [any_keys, present, Bool.not_true, Bool.false_and, Bool.or_false]
      · rename_i absent
        rw [List.any_append, any_keys, Bool.eq_false_iff.mpr absent]
        simp
    rw [List.foldl_cons, ih, keys, keys_insert, List.map_cons, List.filter_cons]
    by_cases present : contains m entry.1 = true
    · simp only [present, after, if_true, Bool.not_true, Bool.false_and, Bool.or_false, Bool.false_eq_true,
        if_false]
    · rw [Bool.not_eq_true] at present
      simp only [present, after, Bool.false_eq_true, if_false, Bool.not_false, Bool.true_and, if_true, Bool.not_or,
        List.eraseDups_cons, List.filter_filter, Bool.and_comm, List.append_assoc, List.singleton_append]

theorem keys_insertAll (m : Mapping) (entries : List (Value × Value)) : (insertAll m entries).map Prod.fst =
    m.map Prod.fst ++ ((entries.map Prod.fst).filter fun key => !contains m key).eraseDups :=
  keys_foldl (fun _ _ => rfl) m entries

theorem keys_insertMissing (m : Mapping) (entries : List (Value × Value)) : (insertMissing m entries).map Prod.fst =
    m.map Prod.fst ++ ((entries.map Prod.fst).filter fun key => !contains m key).eraseDups := by
  refine keys_foldl (fun m entry => ?_) m entries
  rw [keys_insert]
  split
  · rfl
  · rename_i absent
    rw [keys_insert, if_neg absent]

theorem keys_ofList (entries : List (Value × Value)) :
    (ofList entries).map Prod.fst = (entries.map Prod.fst).eraseDups := by
  have kept : ((entries.map Prod.fst).filter fun key => !contains [] key) = entries.map Prod.fst :=
    List.filter_eq_self.mpr fun _ _ => rfl
  rw [ofList, keys_insertAll, kept]
  rfl

/-- Whether there is an entry under a key does not matter once it is taken out. -/
theorem erase_insert_of_same {key other : Value} (same : ∀ k : Value, (key == k) = (other == k))
    (here : (key == other) = true) (m : Mapping) (value : Value) :
    (insert m other value).erase key = erase m key := by
  induction m with
  | nil => exact if_pos here
  | cons entry rest ih =>
    obtain ⟨k, v⟩ := entry
    rw [insert, ← same k]
    split
    · rename_i found
      rw [erase, erase, if_pos found, if_pos found]
    · rename_i absent
      rw [erase, erase, if_neg absent, if_neg absent, ih]

theorem erase_insert_of_apart {key other : Value} (apart : (key == other) = false)
    (exclusive : ∀ k : Value, (key == k) = true → (other == k) = false) (m : Mapping) (value : Value) :
    (insert m other value).erase key = (erase m key).insert other value := by
  induction m with
  | nil => exact if_neg (Bool.eq_false_iff.mp apart)
  | cons entry rest ih =>
    obtain ⟨k, v⟩ := entry
    rw [insert, erase]
    by_cases found : (key == k) = true
    · rw [if_neg (Bool.eq_false_iff.mp (exclusive k found)), erase, if_pos found, if_pos found]
    · rw [if_neg found, insert]
      split
      · rw [erase, if_neg found]
      · rw [erase, if_neg found, ih]

section Keys

variable {m : Mapping} (keys : ∀ entry ∈ m, entry.1.KeysDistinct) {key other : Value} (distinct : key.KeysDistinct)
  (otherDistinct : other.KeysDistinct)
include keys distinct otherDistinct

theorem get?_of_beq (same : (key == other) = true) : get? m key = get? m other := by
  induction m with
  | nil => rfl
  | cons entry rest ih =>
    obtain ⟨k, v⟩ := entry
    obtain ⟨first, others⟩ := List.forall_mem_cons.mp keys
    rw [get?_cons, get?_cons, distinct.lawful.congr otherDistinct first same, ih others]

theorem get?_insert (value : Value) :
    get? (insert m other value) key = if key == other then some value else get? m key := by
  induction m with
  | nil => rw [insert, get?_cons]
  | cons entry rest ih =>
    obtain ⟨k, v⟩ := entry
    obtain ⟨first, others⟩ := List.forall_mem_cons.mp keys
    rw [insert]
    split
    · rename_i present
      rw [get?_cons, get?_cons, distinct.beq_congr_right otherDistinct first present]
      split <;> rfl
    · rename_i absent
      rw [get?_cons, get?_cons, ih others]
      by_cases here : (key == k) = true
      · have apart : (key == other) = false := by
          refine Bool.eq_false_iff.mpr fun equal => absent ?_
          rw [← distinct.lawful.congr otherDistinct first equal, here]
        simp only [here, apart, if_true, Bool.false_eq_true, if_false]
      · simp only [here, Bool.false_eq_true, if_false]

end Keys

section Entries

variable {m : Mapping} (keys : ∀ entry ∈ m, entry.1.KeysDistinct) {entries : List (Value × Value)}
  (inserted : ∀ entry ∈ entries, entry.1.KeysDistinct) {key : Value} (distinct : key.KeysDistinct)
include keys

omit keys in
theorem get?_append (a b : Mapping) (key : Value) : get? (a ++ b) key = (get? a key).or (get? b key) := by
  rw [get?, get?, get?, List.find?_append]
  cases a.find? (fun entry => key == entry.1) <;> rfl

theorem keysDistinct_insert {key : Value} (distinct : key.KeysDistinct) (value : Value) :
    ∀ entry ∈ insert m key value, entry.1.KeysDistinct := by
  intro entry member
  rcases (mem_insert member).1 with same | ⟨old, found, same⟩
  · rwa [same]
  · rw [same]
    exact keys old found

include inserted distinct

/-- Of entries that are inserted the last one of a key counts. -/
theorem get?_insertAll : get? (insertAll m entries) key = (get? entries.reverse key).or (get? m key) := by
  unfold insertAll
  induction entries generalizing m with
  | nil => rfl
  | cons entry rest ih =>
    obtain ⟨first, others⟩ := List.forall_mem_cons.mp inserted
    rw [List.foldl_cons, ih (keysDistinct_insert keys first entry.2) others, get?_insert keys distinct first,
      List.reverse_cons, get?_append, Option.or_assoc, get?_cons, get?_nil]
    split <;> simp

/-- Of entries that are added where they are missing the first one of a key counts. -/
theorem get?_insertMissing : get? (insertMissing m entries) key = (get? m key).or (get? entries key) := by
  unfold insertMissing
  induction entries generalizing m with
  | nil => exact Option.or_none.symm
  | cons entry rest ih =>
    obtain ⟨first, others⟩ := List.forall_mem_cons.mp inserted
    rw [List.foldl_cons, get?_cons]
    split
    · rename_i present
      rw [ih keys others]
      split
      · rename_i same
        rw [contains_eq_isSome_get?, ← get?_of_beq keys distinct first same, Option.isSome_iff_exists] at present
        obtain ⟨v, found⟩ := present
        rw [found]
        rfl
      · rfl
    · rename_i absent
      rw [ih (keysDistinct_insert keys first entry.2) others, get?_insert keys distinct first]
      split
      · rename_i same
        rw [contains_eq_isSome_get?, ← get?_of_beq keys distinct first same, Bool.not_eq_true,
          Option.isSome_eq_false_iff, Option.isNone_iff_eq_none] at absent
        rw [absent]
        rfl
      · rfl

end Entries

section Permutation

variable {a b : Mapping} {key : Value}

theorem contains_perm (perm : a.Perm b) (key : Value) : contains a key = contains b key :=
  perm.any_eq

/-- What is missing is added behind all that is there, in whichever order that is. -/
theorem insertMissing_perm (perm : a.Perm b) (entries : List (Value × Value)) :
    (a.insertMissing entries).Perm (b.insertMissing entries) := by
  unfold insertMissing
  induction entries generalizing a b with
  | nil => exact perm
  | cons entry rest ih =>
    rw [List.foldl_cons, List.foldl_cons, contains_perm perm entry.1]
    split
    · exact ih perm
    · rename_i absent
      rw [Bool.not_eq_true] at absent
      have absentThere : contains a entry.1 = false := (contains_perm perm entry.1).trans absent
      refine ih ?_
      rw [insert_of_not_contains absent, insert_of_not_contains absentThere]
      exact perm.append_right _

theorem contains_eq_false_iff : contains a key = false ↔ a.get? key = none := by
  rw [contains_eq_isSome_get?, Option.isSome_eq_false_iff, Option.isNone_iff_eq_none]

section Keys

variable (keys : ∀ entry ∈ a, entry.1.KeysDistinct) (keyDistinct : key.KeysDistinct)
include keys keyDistinct

/-- Distinct keys stand for the same values in any order. -/
theorem get?_perm (perm : a.Perm b) (distinct : a.Distinct) : a.get? key = b.get? key := by
  cases found : a.get? key with
  | none =>
    have absent : contains b key = false := (contains_perm perm key).symm.trans (contains_eq_false_iff.mpr found)
    exact (contains_eq_false_iff.mp absent).symm
  | some v =>
    obtain ⟨entry, member, equal, rfl⟩ := exists_entry_of_get? found
    refine ((distinct.perm perm keys).get?_of_mem (perm.mem_iff.mp member) equal fun other among also => ?_).symm
    have otherKey := keys other (perm.mem_iff.mpr among)
    exact (keyDistinct.lawful.congr (keys entry member) otherKey equal).symm.trans also

theorem erase_eq_filter (distinct : a.Distinct) : a.erase key = a.filter fun entry => !(key == entry.1) := by
  induction a with
  | nil => rfl
  | cons first rest ih =>
    obtain ⟨apart, distinctRest⟩ := List.pairwise_cons.mp distinct
    obtain ⟨keyFirst, keysRest⟩ := List.forall_mem_cons.mp keys
    rw [erase, List.filter_cons]
    split
    · rename_i found
      rw [found, Bool.not_true, if_neg Bool.false_ne_true]
      refine (List.filter_eq_self.mpr fun entry member => ?_).symm
      rw [Bool.not_eq_eq_eq_not, Bool.not_true, Bool.eq_false_iff]
      intro also
      have same : (entry.1 == first.1) = (key == first.1) :=
        ((keyDistinct.lawful.congr (keysRest entry member) keyFirst also)).symm
      rw [apart entry member, found] at same
      cases same
    · rename_i other
      rw [Bool.not_eq_true] at other
      rw [other, Bool.not_false, if_pos rfl, ih keysRest distinctRest]

theorem erase_perm (perm : a.Perm b) (distinct : a.Distinct) : (a.erase key).Perm (b.erase key) := by
  have keysThere : ∀ entry ∈ b, entry.1.KeysDistinct := fun entry member => keys entry (perm.mem_iff.mpr member)
  rw [erase_eq_filter keys keyDistinct distinct, erase_eq_filter keysThere keyDistinct (distinct.perm perm keys)]
  exact perm.filter _

end Keys

end Permutation

end Mapping

end ConfigWeave
