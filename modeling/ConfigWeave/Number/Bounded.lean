namespace ConfigWeave.Number

/-- The least integer of 64 bits. -/
def leastInteger : Int := -9223372036854775808

/-- The greatest integer of 64 bits. -/
def greatestInteger : Int := 9223372036854775807

/-- The 64-bit integer with the value `i`, if there is one. -/
def bounded? (i : Int) : Option Int64 :=
  if leastInteger ≤ i ∧ i ≤ greatestInteger then some (Int64.ofInt i) else none

theorem toInt_of_bounded? {i : Int} {n : Int64} (h : bounded? i = some n) : n.toInt = i := by
  unfold bounded? at h
  split at h
  · rename_i range
    obtain ⟨lower, upper⟩ := range
    obtain rfl := Option.some.inj h
    unfold leastInteger at lower
    unfold greatestInteger at upper
    exact Int64.toInt_ofInt_of_le (by omega) (by omega)
  · cases h

theorem bounded?_toInt (n : Int64) : bounded? n.toInt = some n := by
  have lower := n.le_toInt
  have upper := n.toInt_lt
  simp only [bounded?, leastInteger, greatestInteger, Int64.ofInt_toInt]
  exact if_pos (by omega)

/-- A bounded integer is found exactly when the value lies in range. -/
theorem bounded?_eq_some_iff {i : Int} {n : Int64} : bounded? i = some n ↔ n.toInt = i :=
  ⟨toInt_of_bounded?, fun h => h ▸ bounded?_toInt n⟩

/-- The value of `i` moved to the nearest end of the range if it lies outside. -/
def saturate (i : Int) : Int64 :=
  Int64.ofInt (max leastInteger (min greatestInteger i))

end ConfigWeave.Number
