import ConfigWeave.Proofs.Hereditary.Operation

namespace ConfigWeave

/-- The entries that bindings are as a mapping. -/
def Bindings.toMapping (bindings : Bindings) : Mapping :=
  bindings.map fun (name, value) => (.str name, value)

namespace Bindings

theorem toMapping_set (bindings : Bindings) (name : String) (value : Value) :
    (bindings.set name value).toMapping = bindings.toMapping.insert (.str name) value := by
  induction bindings with
  | nil => rfl
  | cons entry rest ih =>
    obtain ⟨n, v⟩ := entry
    show toMapping (if n = name then (n, value) :: rest else (n, v) :: set rest name value) =
      if Value.str name == .str n then (.str n, value) :: toMapping rest
      else (.str n, v) :: (toMapping rest).insert (.str name) value
    by_cases same : n = name
    · subst same
      rw [if_pos rfl, if_pos (Value.str_beq_iff.mpr rfl)]
      rfl
    · rw [if_neg same, if_neg fun equal => same (Value.str.inj (Value.str_beq_iff.mp equal)), ← ih]
      rfl

theorem mem_toMapping {bindings : Bindings} {entry : String × Value} (member : entry ∈ bindings) :
    (.str entry.1, entry.2) ∈ bindings.toMapping :=
  List.mem_map_of_mem member

theorem distinct_toMapping {bindings : Bindings} (nodup : bindings.names.Nodup) : bindings.toMapping.Distinct := by
  refine List.pairwise_map.mpr ((List.pairwise_map.mp nodup).imp fun different => ?_)
  rw [Bool.eq_false_iff]
  exact fun equal => different (Value.str.inj (Value.str_beq_iff.mp equal))

end Bindings

theorem Scope.toValue_eq (scope : Scope) : scope.toValue = .map scope.entries.toMapping :=
  rfl

namespace Value.Hereditary

variable {C : Value → Prop} (hereditary : Hereditary C) {scope : Scope}
include hereditary

/-- The values in a scope that has a property as a mapping have it too. -/
theorem boundValues (known : C scope.toValue) : ∀ entry ∈ scope.entries, C entry.2 :=
  fun _ member => (hereditary.entries known _ (Bindings.mem_toMapping member)).2

theorem of_get? (known : C scope.toValue) {name : String} {v : Value} (found : scope.get? name = some v) : C v := by
  obtain ⟨before, after, same, _⟩ := List.lookup_eq_some_iff.mp found
  exact hereditary.boundValues known (name, v) (by rw [same]; simp)

theorem define (known : C scope.toValue) (name : String) {v : Value} (holds : C v) :
    C (scope.define name v).toValue := by
  unfold Scope.define
  split
  · exact known
  · rw [Scope.toValue_eq, Bindings.toMapping_set]
    exact hereditary.insert known (hereditary.scalar trivial) holds

theorem unprotected (known : C scope.toValue) :
    C (Scope.toValue ⟨scope.entries.filter fun entry => !Scope.isBuiltin entry.1⟩) :=
  hereditary.sublist known (List.filter_sublist.map _)

/-- What describes a document are texts, and the environment a mapping of texts. -/
theorem builtin (file root resolvedRoot : Path) (environment : List (String × String)) :
    C (Scope.builtin file root resolvedRoot environment).toValue := by
  have text (s : String) : C (.str s) := hereditary.scalar trivial
  have listed : ∀ entry ∈ (environment.mergeSort fun a b => decide (a.1 ≤ b.1)).map
      fun entry => (Value.str entry.1, Value.str entry.2), C entry.1 ∧ C entry.2 := by
    intro entry member
    obtain ⟨_, _, rfl⟩ := List.mem_map.mp member
    exact ⟨text _, text _⟩
  refine hereditary.map (Bindings.distinct_toMapping (show Scope.builtinNames.Nodup by decide)) ?_
  intro entry member
  obtain ⟨binding, here, rfl⟩ := List.mem_map.mp member
  refine ⟨text _, ?_⟩
  simp only [Scope.builtin, List.mem_cons, List.not_mem_nil, or_false] at here
  rcases here with rfl | rfl | rfl | rfl | rfl | rfl | rfl
  iterate 6 exact text _
  exact hereditary.insertAll hereditary.map_nil listed

end Value.Hereditary

end ConfigWeave
