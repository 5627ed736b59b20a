import ConfigWeave.Value.Basic

namespace ConfigWeave

/-- Values by name, in the order in which the names were first set. -/
abbrev Bindings := List (String × Value)

namespace Bindings

def get? (bindings : Bindings) (name : String) : Option Value :=
  bindings.lookup name

def names (bindings : Bindings) : List String :=
  bindings.map (·.1)

/-- Gives a name a value. A name that has one keeps its place. -/
def set : Bindings → String → Value → Bindings
  | [], name, value => [(name, value)]
  | (n, v) :: rest, name, value =>
    if n = name then (n, value) :: rest else (n, v) :: set rest name value

theorem get?_set_self (bindings : Bindings) (name : String) (value : Value) :
    get? (set bindings name value) name = some value := by
  induction bindings with
  | nil => simp [set, get?]
  | cons entry rest ih =>
    obtain ⟨n, v⟩ := entry
    by_cases same : n = name
    · simp [set, get?, same]
    · have other : (name == n) = false := by simpa using Ne.symm same
      simpa [set, get?, same, List.lookup_cons, other] using ih

theorem get?_set_of_ne {name other : String} (different : other ≠ name) (bindings : Bindings) (value : Value) :
    get? (set bindings name value) other = get? bindings other := by
  induction bindings with
  | nil =>
    have absent : (other == name) = false := by simpa using different
    simp [set, get?, List.lookup_cons, absent]
  | cons entry rest ih =>
    obtain ⟨n, v⟩ := entry
    by_cases same : n = name
    · subst n
      have absent : (other == name) = false := by simpa using different
      simp [set, get?, List.lookup_cons, absent]
    · by_cases found : (other == n) = true
      · simp [set, get?, same, List.lookup_cons, found]
      · simpa [set, get?, same, List.lookup_cons, found] using ih

/-- Only a name that had no value makes a further entry. -/
theorem length_set (bindings : Bindings) (name : String) (value : Value) :
    (set bindings name value).length =
      if (get? bindings name).isSome then bindings.length else bindings.length + 1 := by
  induction bindings with
  | nil => rfl
  | cons entry rest ih =>
    obtain ⟨n, v⟩ := entry
    by_cases same : n = name
    · simp [set, get?, same]
    · have other : (name == n) = false := by simpa using Ne.symm same
      have apart : get? ((n, v) :: rest) name = get? rest name := by simp [get?, List.lookup_cons, other]
      rw [set, if_neg same, apart, List.length_cons, ih, List.length_cons]
      split <;> rfl

end Bindings

end ConfigWeave
