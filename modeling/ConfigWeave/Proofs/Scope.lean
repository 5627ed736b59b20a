import ConfigWeave.Scope

namespace ConfigWeave

namespace Bindings

/-- The value that the last of some bindings gives a name. -/
def last? (bindings : Bindings) (name : String) : Option Value :=
  bindings.reverse.lookup name

theorem last?_cons (entry : String × Value) (rest : Bindings) (name : String) :
    last? (entry :: rest) name = (last? rest name).or (if name = entry.1 then some entry.2 else none) := by
  rw [last?, List.reverse_cons, List.lookup_append, ← last?, List.lookup_cons]
  by_cases same : name = entry.1
  · rw [if_pos same, beq_iff_eq.mpr same]
  · rw [if_neg same, beq_false_of_ne same]
    rfl

theorem isSome_last? (bindings : Bindings) (name : String) :
    (bindings.last? name).isSome = (bindings.get? name).isSome := by
  rw [Bool.eq_iff_iff, last?, get?, List.lookup_isSome_iff, List.lookup_isSome_iff]
  simp only [List.mem_reverse]

/-- If no name has two values, the last one is the only one. -/
theorem last?_of_nodup {bindings : Bindings} (distinct : bindings.names.Nodup) (name : String) :
    bindings.last? name = bindings.get? name := by
  induction bindings with
  | nil => rfl
  | cons entry rest ih =>
    obtain ⟨absent, distinctRest⟩ := List.nodup_cons.mp distinct
    rw [last?_cons, ih distinctRest]
    by_cases same : name = entry.1
    · have none : get? rest name = none := by
        refine List.lookup_eq_none_iff.mpr fun other member => bne_iff_ne.mpr fun equal => absent ?_
        exact List.mem_map.mpr ⟨other, member, equal.symm.trans same⟩
      rw [none, if_pos same, get?, List.lookup_cons, beq_iff_eq.mpr same]
      rfl
    · rw [if_neg same, Option.or_none, get?, get?, List.lookup_cons, beq_false_of_ne same]

theorem names_set (bindings : Bindings) (name : String) (value : Value) :
    (bindings.set name value).names =
      if name ∈ bindings.names then bindings.names else bindings.names ++ [name] := by
  induction bindings with
  | nil => rfl
  | cons entry rest ih =>
    obtain ⟨n, v⟩ := entry
    by_cases same : n = name
    · simp [set, names, same]
    · have apart : name ∈ names ((n, v) :: rest) ↔ name ∈ names rest := by simp [names, Ne.symm same]
      rw [set, if_neg same]
      simp only [apart]
      show n :: names (set rest name value) = _
      rw [ih]
      split <;> rfl

theorem nodup_set {bindings : Bindings} (distinct : bindings.names.Nodup) (name : String) (value : Value) :
    (bindings.set name value).names.Nodup := by
  rw [names_set]
  split
  · exact distinct
  · rename_i absent
    refine List.nodup_append.mpr ⟨distinct, by simp, fun other member last atLast => ?_⟩
    rw [List.mem_singleton.mp atLast]
    rintro rfl
    exact absent member

theorem get?_filter (keep : String → Bool) (bindings : Bindings) (name : String) :
    get? (bindings.filter fun entry => keep entry.1) name = if keep name then bindings.get? name else none := by
  unfold get?
  induction bindings with
  | nil => simp
  | cons entry rest ih =>
    obtain ⟨n, v⟩ := entry
    rw [List.filter_cons]
    by_cases same : name = n
    · subst same
      cases kept : keep name with
      | true => simp
      | false => simpa [kept] using ih
    · have apart : (name == n) = false := beq_false_of_ne same
      rw [List.lookup_cons, apart, ← ih]
      cases keep n with
      | true => rw [if_pos rfl, List.lookup_cons, apart]
      | false => rfl

/-- Variables that hold texts are known by these. -/
theorem eq_of_texts {bindings : Bindings} {texts : List (String × String)}
    (known : bindings.map (fun entry => (entry.1, entry.2.str?)) = texts.map fun text => (text.1, some text.2)) :
    bindings = texts.map fun text => (text.1, .str text.2) := by
  induction bindings generalizing texts with
  | nil => rw [List.map_eq_nil_iff.mp known.symm, List.map_nil]
  | cons entry rest ih =>
    obtain ⟨name, value⟩ := entry
    cases texts with
    | nil => cases known
    | cons text others =>
      obtain ⟨first, later⟩ := List.cons.inj known
      obtain ⟨rfl, isText⟩ := Prod.mk.inj first
      cases value <;> cases isText
      rw [ih later, List.map_cons]

end Bindings

namespace Scope

variable (scope : Scope) {name : String}

theorem get?_define (name : String) (value : Value) (other : String) :
    (scope.define name value).get? other =
      if isBuiltin name = false ∧ other = name then some value else scope.get? other := by
  unfold define get?
  cases isBuiltin name with
  | true => simp
  | false =>
    by_cases same : other = name
    · subst same
      simp [Bindings.get?_set_self]
    · simp [same, Bindings.get?_set_of_ne same]

theorem contains_define (name : String) (value : Value) (other : String) :
    (scope.define name value).contains other = ((!isBuiltin name && other == name) || scope.contains other) := by
  unfold contains
  rw [get?_define]
  split
  · rename_i here
    simp [here]
  · rename_i elsewhere
    cases builtin : isBuiltin name with
    | true => simp
    | false =>
      have apart : (other == name) = false := beq_false_of_ne fun same => elsewhere ⟨builtin, same⟩
      simp [apart]

/-- Of several values that are defined for a name the last one counts. A built-in variable keeps its own. -/
theorem get?_defineAll (vars : Bindings) (name : String) :
    (scope.defineAll vars).1.get? name =
      if isBuiltin name then scope.get? name else (vars.last? name).or (scope.get? name) := by
  induction vars generalizing scope with
  | nil => cases isBuiltin name <;> rfl
  | cons entry rest ih =>
    obtain ⟨n, value⟩ := entry
    rw [defineAll, ih, Bindings.last?_cons, get?_define]
    cases builtin : isBuiltin name with
    | true =>
      have apart : ¬ (isBuiltin n = false ∧ name = n) := fun ⟨free, same⟩ => by
        rw [same, free] at builtin
        cases builtin
      rw [if_neg apart]
      rfl
    | false =>
      by_cases same : name = n
      · subst same
        simp [builtin]
      · simp [same]

/-- Which variables are refused does not depend on those that are there. -/
theorem defineAll_refused (other : Scope) (vars : Bindings) :
    (scope.defineAll vars).2 = (other.defineAll vars).2 := by
  induction vars generalizing scope other with
  | nil => rfl
  | cons entry rest ih =>
    obtain ⟨n, value⟩ := entry
    simp only [defineAll, ih (scope.define n value) (other.define n value)]

theorem overlay_refused (other : Scope) (vars : Mapping) : (scope.overlay vars).2 = (other.overlay vars).2 :=
  congrArg (List.map refusal) (scope.defineAll_refused other (ofMapping vars))

theorem inherit_refused (other : Scope) (vars : Mapping) : (scope.inherit vars).2 = (other.inherit vars).2 :=
  overlay_refused _ _ vars

theorem get?_overlay (vars : Mapping) (free : isBuiltin name = false) :
    (scope.overlay vars).1.get? name = (Bindings.last? (ofMapping vars) name).or (scope.get? name) := by
  rw [show (scope.overlay vars).1 = (scope.defineAll (ofMapping vars)).1 from rfl, get?_defineAll, free]
  rfl

theorem get?_unprotected (name : String) :
    get? ⟨scope.entries.filter fun entry => !isBuiltin entry.1⟩ name =
      if isBuiltin name then none else scope.get? name := by
  rw [get?, Bindings.get?_filter (fun name => !isBuiltin name), ← get?]
  cases isBuiltin name <;> rfl

/-- What is given to a document on its way prevails over what holds where the document is included. -/
theorem get?_inherit (vars : Mapping) (free : isBuiltin name = false) :
    (scope.inherit vars).1.get? name = (Bindings.last? (ofMapping vars) name).or (scope.get? name) := by
  rw [inherit, get?_overlay _ vars free, get?_unprotected, free]
  rfl

theorem extend_eq_defineAll (other : Scope) : scope.extend other = (scope.defineAll other.entries).1 := by
  unfold extend
  generalize other.entries = entries
  induction entries generalizing scope with
  | nil => rfl
  | cons entry rest ih => exact ih (scope.define entry.1 entry.2)

theorem get?_extend (other : Scope) (name : String) :
    (scope.extend other).get? name =
      if isBuiltin name then scope.get? name else (other.entries.last? name).or (scope.get? name) := by
  rw [extend_eq_defineAll, get?_defineAll]

theorem nodup_define {scope : Scope} (distinct : scope.names.Nodup) (name : String) (value : Value) :
    (scope.define name value).names.Nodup := by
  unfold define
  split
  · exact distinct
  · exact Bindings.nodup_set distinct name value

theorem nodup_defineAll {scope : Scope} (distinct : scope.names.Nodup) (vars : Bindings) :
    (scope.defineAll vars).1.names.Nodup := by
  induction vars generalizing scope with
  | nil => exact distinct
  | cons entry rest ih => exact ih (nodup_define distinct entry.1 entry.2)

theorem nodup_inherit {scope : Scope} (distinct : scope.names.Nodup) (vars : Mapping) :
    (scope.inherit vars).1.names.Nodup :=
  nodup_defineAll (distinct.sublist (List.filter_sublist.map _)) _

theorem nodup_extend {scope : Scope} (distinct : scope.names.Nodup) (other : Scope) :
    (scope.extend other).names.Nodup := by
  rw [extend_eq_defineAll]
  exact nodup_defineAll distinct _

theorem names_builtin (file root resolvedRoot : Path) (environment : List (String × String)) :
    (builtin file root resolvedRoot environment).names = builtinNames :=
  rfl

theorem contains_eq_decide (name : String) : scope.contains name = decide (name ∈ scope.names) := by
  rw [Bool.eq_iff_iff, contains, get?, Bindings.get?, List.lookup_isSome_iff, decide_eq_true_iff, names,
    Bindings.names, List.mem_map]
  exact exists_congr fun entry => and_congr_right fun _ => beq_iff_eq.trans eq_comm

end Scope

end ConfigWeave
