import ConfigWeave.Value.Override

namespace ConfigWeave

theorem Value.str_beq_iff {text : String} {v : Value} : (Value.str text == v) = true ↔ v = .str text := by
  show (Value.str text).beq v = true ↔ _
  cases v with
  | str other =>
    rw [beq, beq_iff_eq, Value.str.injEq]
    exact eq_comm
  | _ => simp [beq]

theorem Value.beq_str_iff {text : String} {v : Value} : (v == Value.str text) = true ↔ v = .str text := by
  show v.beq (.str text) = true ↔ _
  cases v with
  | str other => rw [beq, beq_iff_eq, Value.str.injEq]
  | _ => simp [beq]

namespace Mapping

/-- No key stands twice in a mapping. -/
def Distinct (m : Mapping) : Prop :=
  m.Pairwise fun earlier later => (later.1 == earlier.1) = false

/-- A new entry has the key and the value of entries that are inserted or there, not necessarily of the same one. -/
theorem mem_insert {m : Mapping} {key value : Value} {entry : Value × Value}
    (member : entry ∈ insert m key value) :
    (entry.1 = key ∨ ∃ old ∈ m, entry.1 = old.1) ∧ (entry.2 = value ∨ ∃ old ∈ m, entry.2 = old.2) := by
  induction m with
  | nil =>
    rw [List.mem_singleton.mp member]
    exact ⟨.inl rfl, .inl rfl⟩
  | cons first rest ih =>
    obtain ⟨k, v⟩ := first
    have kept {entry : Value × Value} (old : entry ∈ (k, v) :: rest) :
        (entry.1 = key ∨ ∃ old ∈ (k, v) :: rest, entry.1 = old.1) ∧
          (entry.2 = value ∨ ∃ old ∈ (k, v) :: rest, entry.2 = old.2) :=
      ⟨.inr ⟨entry, old, rfl⟩, .inr ⟨entry, old, rfl⟩⟩
    simp only [insert] at member
    split at member
    · rcases List.mem_cons.mp member with rfl | later
      · exact ⟨.inr ⟨(k, v), List.mem_cons_self, rfl⟩, .inl rfl⟩
      · exact kept (List.mem_cons_of_mem _ later)
    · rcases List.mem_cons.mp member with rfl | later
      · exact kept List.mem_cons_self
      · obtain ⟨keys, values⟩ := ih later
        refine ⟨keys.imp_right ?_, values.imp_right ?_⟩
        · rintro ⟨old, found, equal⟩
          exact ⟨old, List.mem_cons_of_mem _ found, equal⟩
        · rintro ⟨old, found, equal⟩
          exact ⟨old, List.mem_cons_of_mem _ found, equal⟩

/-- What holds of all keys and of all values that are inserted holds of those of the mapping. -/
theorem forall_mem_insertAll {P Q : Value → Prop} {m : Mapping} {entries : List (Value × Value)}
    (present : ∀ entry ∈ m, P entry.1 ∧ Q entry.2) (inserted : ∀ entry ∈ entries, P entry.1 ∧ Q entry.2) :
    ∀ entry ∈ insertAll m entries, P entry.1 ∧ Q entry.2 := by
  induction entries generalizing m with
  | nil => exact present
  | cons first rest ih =>
    refine ih ?_ fun entry member => inserted entry (List.mem_cons_of_mem _ member)
    obtain ⟨key, value⟩ := inserted first List.mem_cons_self
    intro entry member
    obtain ⟨keys, values⟩ := mem_insert member
    constructor
    · rcases keys with equal | ⟨old, found, equal⟩
      · rwa [equal]
      · rw [equal]
        exact (present old found).1
    · rcases values with equal | ⟨old, found, equal⟩
      · rwa [equal]
      · rw [equal]
        exact (present old found).2

/-- What a mapping has, and keeps whenever one of the entries is inserted, it has with those that were missing. -/
theorem insertMissing_induction {P : Mapping → Prop} {E : Value × Value → Prop} {m : Mapping} (start : P m)
    (step : ∀ {m entry}, P m → E entry → P (insert m entry.1 entry.2)) {entries : List (Value × Value)}
    (each : ∀ entry ∈ entries, E entry) : P (insertMissing m entries) := by
  unfold insertMissing
  induction entries generalizing m with
  | nil => exact start
  | cons entry rest ih =>
    obtain ⟨first, others⟩ := List.forall_mem_cons.mp each
    rw [List.foldl_cons]
    split
    · exact ih start others
    · exact ih (step start first) others

theorem erase_of_absent {m : Mapping} {key : Value} (absent : m.get? key = none) : m.erase key = m := by
  induction m with
  | nil => rfl
  | cons entry rest ih =>
    obtain ⟨k, v⟩ := entry
    rw [get?_cons] at absent
    split at absent
    · cases absent
    · rename_i other
      rw [erase, if_neg other, ih absent]

theorem get?_str_cons (text : String) (v : Value) (rest : Mapping) :
    get? ((.str text, v) :: rest) (.str text) = some v := by
  rw [get?_cons, if_pos (Value.str_beq_iff.mpr rfl)]

theorem get?_str_cons_of_ne {k : Value} {text : String} (other : k ≠ .str text) (v : Value) (rest : Mapping) :
    get? ((k, v) :: rest) (.str text) = get? rest (.str text) := by
  rw [get?_cons, if_neg (fun equal => other (Value.str_beq_iff.mp equal))]

theorem get?_str_insert (m : Mapping) (text : String) (value : Value) :
    get? (insert m (.str text) value) (.str text) = some value := by
  induction m with
  | nil => exact get?_str_cons text value []
  | cons entry rest ih =>
    obtain ⟨k, v⟩ := entry
    simp only [insert]
    split
    · rename_i same
      rw [Value.str_beq_iff.mp same, get?_str_cons]
    · rename_i other
      rw [get?_str_cons_of_ne (fun same => other (Value.str_beq_iff.mpr same)), ih]

theorem get?_str_insert_of_ne {key : Value} {text : String} (other : key ≠ .str text) (m : Mapping)
    (value : Value) :
    get? (insert m key value) (.str text) = get? m (.str text) := by
  induction m with
  | nil => exact get?_str_cons_of_ne other value []
  | cons entry rest ih =>
    obtain ⟨k, v⟩ := entry
    simp only [insert]
    split
    · rename_i equal
      have different : k ≠ .str text := by
        rintro rfl
        exact other (Value.beq_str_iff.mp equal)
      rw [get?_str_cons_of_ne different, get?_str_cons_of_ne different]
    · rw [get?_cons, get?_cons, ih]

/-- What stands under another text is what stood there. -/
theorem get?_str_insert_str_of_ne {text other : String} (different : other ≠ text) (m : Mapping) (value : Value) :
    get? (insert m (.str text) value) (.str other) = get? m (.str other) :=
  get?_str_insert_of_ne (fun same => different (Value.str.inj same).symm) m value

theorem Distinct.of_cons {k v : Value} {rest : Mapping} (distinct : Distinct ((k, v) :: rest)) : Distinct rest :=
  (List.pairwise_cons.mp distinct).2

theorem Distinct.get?_eq_none {text : String} {v : Value} {rest : Mapping}
    (distinct : Distinct ((.str text, v) :: rest)) : get? rest (.str text) = none := by
  have absent : ∀ entry ∈ rest, entry.1 ≠ .str text := by
    intro entry member same
    have different := (List.pairwise_cons.mp distinct).1 entry member
    dsimp only at different
    rw [same, Value.str_beq_iff.mpr rfl] at different
    cases different
  rw [get?, List.find?_eq_none.mpr, Option.map_none]
  intro entry member equal
  exact absent entry member (Value.str_beq_iff.mp equal)

/-- A new entry stands behind all others, so keys stay distinct. -/
theorem Distinct.insert {m : Mapping} (distinct : Distinct m) (key value : Value) :
    Distinct (insert m key value) := by
  by_cases present : contains m key = true
  · have keys : (Mapping.insert m key value).map Prod.fst = m.map Prod.fst := keys_insert_of_contains present
    unfold Distinct at distinct ⊢
    rw [← List.pairwise_map (f := Prod.fst) (R := fun earlier later => (later == earlier) = false)] at distinct ⊢
    rwa [keys]
  · rw [Bool.not_eq_true] at present
    rw [insert_of_not_contains present]
    refine List.pairwise_append.mpr ⟨distinct, List.pairwise_singleton _ _, fun entry member last atLast => ?_⟩
    rw [List.mem_singleton.mp atLast]
    simp only [contains, List.any_eq_false, Bool.not_eq_true] at present
    exact present entry member

/-- An entry that is merged into a mapping is inserted, with what was there before if there was anything. -/
theorem mergedEntries_cons (target : Mapping) (k v : Value) (rest : Mapping) :
    Value.mergedEntries target ((k, v) :: rest) = Value.mergedEntries
      (insert target k (match get? target k with | some existing => existing.mergedWith v | none => v)) rest := by
  rw [Value.mergedEntries]
  cases get? target k <;> rfl

/-- Under a text a merged mapping has what both have there, merged, or what one of them has. -/
theorem get?_str_mergedEntries (target : Mapping) {source : Mapping} (distinct : Distinct source) (text : String) :
    get? (Value.mergedEntries target source) (.str text) =
      match get? target (.str text), get? source (.str text) with
      | some existing, some incoming => some (existing.mergedWith incoming)
      | existing, incoming => existing.or incoming := by
  induction source generalizing target with
  | nil =>
    simp only [Value.mergedEntries, get?_nil]
    cases get? target (.str text) <;> rfl
  | cons entry rest ih =>
    obtain ⟨k, v⟩ := entry
    rw [mergedEntries_cons, ih _ distinct.of_cons]
    by_cases same : k = .str text
    · subst same
      rw [distinct.get?_eq_none, get?_str_insert, get?_str_cons]
      cases get? target (.str text) <;> rfl
    · rw [get?_str_insert_of_ne same, get?_str_cons_of_ne same]

end Mapping

end ConfigWeave
