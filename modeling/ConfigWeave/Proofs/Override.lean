import ConfigWeave.Proofs.CleanTree

namespace ConfigWeave

/-- Distinct keys that overrides leave as they are. -/
structure Mapping.Firm (m : Mapping) : Prop where
  distinct : m.Distinct
  plain : ∀ entry ∈ m, entry.1.TagFree

theorem Mapping.Firm.insert {m : Mapping} (firm : m.Firm) {key : Value} (plain : key.TagFree) (value : Value) :
    (m.insert key value).Firm := by
  refine ⟨firm.distinct.insert key value, fun entry member => ?_⟩
  rcases (mem_insert member).1 with new | ⟨old, found, same⟩
  · rwa [new]
  · rw [same]
    exact firm.plain old found

theorem Mapping.Firm.merged {target source : Mapping} (firm : target.Firm)
    (incoming : ∀ entry ∈ source, entry.1.TagFree) :
    Firm (Value.mergedEntries target source) := by
  induction source generalizing target with
  | nil => exact firm
  | cons entry rest ih =>
    obtain ⟨k, v⟩ := entry
    rw [mergedEntries_cons]
    exact ih (firm.insert (incoming (k, v) List.mem_cons_self) _) fun entry member =>
      incoming entry (List.mem_cons_of_mem _ member)

namespace Value

/-- All mappings that a tree is made of have a property, those in keys as well. -/
def EveryMapping (P : Mapping → Prop) (v : Value) : Prop :=
  ∀ entries, Part (.map entries) v → P entries

theorem everyMapping_map_iff {P : Mapping → Prop} {entries : Mapping} : (Value.map entries).EveryMapping P ↔
    P entries ∧ ∀ entry ∈ entries, entry.1.EveryMapping P ∧ entry.2.EveryMapping P := by
  constructor
  · intro every
    exact ⟨every _ (.self _), fun entry member =>
      ⟨fun inner part => every inner (.key member part), fun inner part => every inner (.value member part)⟩⟩
  · rintro ⟨here, below⟩ inner part
    cases part with
    | self => exact here
    | key member part => exact (below _ member).1 inner part
    | value member part => exact (below _ member).2 inner part

theorem everyMapping_tagged_iff {P : Mapping → Prop} {tag : Tag} {mark : Nat} {payload : Value} :
    (Value.tagged tag mark payload).EveryMapping P ↔ payload.EveryMapping P := by
  constructor
  · exact fun every inner part => every inner (.payload part)
  · intro every inner part
    cases part with
    | payload part => exact every inner part

theorem everyMapping_str (P : Mapping → Prop) (text : String) : (Value.str text).EveryMapping P := by
  intro inner part
  cases part

/-- A path that leads to a marker, through mappings whose keys are firm. -/
inductive Marked (marker : Value) : List String → Value → Prop
  | here : Marked marker [] marker
  | through {name : String} {rest : List String} {entries : Mapping} {v : Value} : entries.Firm →
      entries.get? (.str name) = some v → Marked marker rest v → Marked marker (name :: rest) (.map entries)

/-- A tree that has no other values than mappings in the way of a path. -/
inductive Clear : List String → Value → Prop
  | here (v : Value) : Clear [] v
  | absent {name : String} {rest : List String} {entries : Mapping} : entries.Firm →
      entries.get? (.str name) = none → Clear (name :: rest) (.map entries)
  | through {name : String} {rest : List String} {entries : Mapping} {v : Value} : entries.Firm →
      entries.get? (.str name) = some v → Clear rest v → Clear (name :: rest) (.map entries)

theorem mergedWith_of_isOverride {tag : Tag} (override : tag.isOverride = true) (mark : Nat)
    (payload incoming : Value) :
    (Value.tagged tag mark payload).mergedWith incoming = .tagged tag mark payload := by
  cases incoming <;> simp only [mergedWith, override, if_true]

theorem Clear.exists_map {name : String} {rest : List String} {v : Value} (clear : Clear (name :: rest) v) :
    ∃ entries : Mapping, v = .map entries ∧ entries.Firm := by
  cases clear with
  | absent firm _ => exact ⟨_, rfl, firm⟩
  | through firm _ _ => exact ⟨_, rfl, firm⟩

/-- One merge leaves a marker where it is. The induction is on the path: above its end both trees are mappings, at
its end the marker stays whatever comes in. -/
theorem Marked.mergedWith {tag : Tag} {mark : Nat} {payload : Value} (override : tag.isOverride = true)
    {path : List String} {existing incoming : Value} (marked : Marked (.tagged tag mark payload) path existing)
    (clear : Clear path incoming) : Marked (.tagged tag mark payload) path (existing.mergedWith incoming) := by
  induction marked generalizing incoming with
  | here =>
    rw [mergedWith_of_isOverride override]
    exact .here
  | @through name rest entries v firm found marked ih =>
    obtain ⟨source, rfl, other⟩ := clear.exists_map
    have merged : (Value.map entries).mergedWith (.map source) = .map (mergedEntries entries source) := rfl
    have lookup := Mapping.get?_str_mergedEntries entries other.distinct name
    rw [merged]
    cases clear with
    | absent _ none =>
      rw [found, none] at lookup
      exact .through (firm.merged other.plain) lookup marked
    | through _ some clear =>
      rw [found, some] at lookup
      exact .through (firm.merged other.plain) lookup (ih clear)

theorem Marked.foldl_deepMerge {tag : Tag} {mark : Nat} {payload : Value} (override : tag.isOverride = true)
    {path : List String} {root : Mapping} {packages : List Mapping}
    (marked : Marked (.tagged tag mark payload) path (.map root))
    (clear : ∀ package ∈ packages, Clear path (.map package)) :
    Marked (.tagged tag mark payload) path (.map (packages.foldl Mapping.deepMerge root)) := by
  induction packages generalizing root with
  | nil => exact marked
  | cons package rest ih =>
    refine ih ?_ fun other member => clear other (List.mem_cons_of_mem _ member)
    exact marked.mergedWith override (clear package List.mem_cons_self)

/-- A key without tags is none that overrides. -/
theorem TagFree.applyOverrides?_eq_str {key : Value} (plain : key.TagFree) {text : String} :
    key.applyOverrides? = some (.str text) ↔ key = .str text := by
  cases key with
  | tagged tag mark payload => exact absurd (.self _) (plain tag mark payload)
  | _ => simp [applyOverrides?]

theorem TagFree.isSome_applyOverrides? {key : Value} (plain : key.TagFree) : key.applyOverrides?.isSome = true := by
  cases key with
  | tagged tag mark payload => exact absurd (.self _) (plain tag mark payload)
  | _ => rfl

/-- Under a text stands what the overrides make of the value that stood there. The induction is on the entries, so
what was inserted before is in `m`. -/
theorem get?_str_overriddenEntries {entries : Mapping} (firm : entries.Firm) (m : Mapping) (text : String) :
    (m.insertAll (overriddenEntries entries)).get? (.str text) =
      ((entries.get? (.str text)).bind applyOverrides?).or (m.get? (.str text)) := by
  induction entries generalizing m with
  | nil => rfl
  | cons entry rest ih =>
    obtain ⟨k, v⟩ := entry
    have plain : k.TagFree := firm.plain (k, v) List.mem_cons_self
    have later : Mapping.Firm rest :=
      ⟨firm.distinct.of_cons, fun entry member => firm.plain entry (List.mem_cons_of_mem _ member)⟩
    obtain ⟨key, kept⟩ := Option.isSome_iff_exists.mp plain.isSome_applyOverrides?
    have same : key = .str text ↔ k = .str text := by
      rw [← plain.applyOverrides?_eq_str, kept, Option.some.injEq]
    by_cases here : k = .str text
    · -- No later entry has the same text, so what is inserted here is not overwritten.
      subst here
      have once := firm.distinct.get?_eq_none
      rw [same.mpr rfl] at kept
      rw [Mapping.get?_str_cons, Option.bind_some]
      cases changed : v.applyOverrides? with
      | none =>
        simp only [overriddenEntries, kept, changed]
        rw [ih later, once]
        rfl
      | some w =>
        simp only [overriddenEntries, kept, changed]
        show (Mapping.insertAll (m.insert (.str text) w) (overriddenEntries rest)).get? (.str text) = _
        rw [ih later, once, Mapping.get?_str_insert]
        rfl
    · have other : key ≠ .str text := fun equal => here (same.mp equal)
      rw [Mapping.get?_str_cons_of_ne here]
      cases changed : v.applyOverrides? with
      | none =>
        simp only [overriddenEntries, kept, changed]
        exact ih later m
      | some w =>
        simp only [overriddenEntries, kept, changed]
        show (Mapping.insertAll (m.insert key w) (overriddenEntries rest)).get? (.str text) = _
        rw [ih later, Mapping.get?_str_insert_of_ne other]

theorem pointer?_cons (entries : Mapping) (name : String) (rest : List String) :
    (Value.map entries).pointer? (name :: rest) = (entries.get? (.str name)).bind (·.pointer? rest) := rfl

/-- What overrides make of a mapping is one, and has under a text what they make of the value there. -/
theorem exists_applyOverrides?_map {entries : Mapping} (firm : entries.Firm) :
    ∃ overridden : Mapping, (Value.map entries).applyOverrides? = some (.map overridden) ∧
      ∀ text, overridden.get? (.str text) = (entries.get? (.str text)).bind applyOverrides? := by
  refine ⟨_, rfl, fun text => ?_⟩
  have lookup := get?_str_overriddenEntries firm [] text
  rwa [Mapping.get?_nil, Option.or_none] at lookup

theorem Marked.pointer?_applyOverrides? {marker : Value} {path : List String} {v : Value}
    (marked : Marked marker path v) : v.applyOverrides?.bind (·.pointer? path) = marker.applyOverrides? := by
  induction marked with
  | here => cases marker.applyOverrides? <;> rfl
  | @through name rest entries v firm found _ ih =>
    obtain ⟨overridden, applied, lookup⟩ := exists_applyOverrides?_map firm
    rw [applied, Option.bind_some, pointer?_cons, lookup, found, Option.bind_some, ih]

/-- The mappings on the way to a marker stay when it is applied. -/
theorem Marked.exists_map_above {marker : Value} {path : List String} {v : Value} (marked : Marked marker path v)
    {above : List String} (shorter : above <+: path) (proper : above ≠ path) :
    ∃ entries, v.applyOverrides?.bind (·.pointer? above) = some (.map entries) := by
  induction marked generalizing above with
  | here => exact absurd (List.prefix_nil.mp shorter) proper
  | @through name rest entries v firm found _ ih =>
    obtain ⟨overridden, applied, lookup⟩ := exists_applyOverrides?_map firm
    rw [applied, Option.bind_some]
    cases above with
    | nil => exact ⟨overridden, rfl⟩
    | cons first above =>
      obtain ⟨rfl, shorterRest⟩ := List.cons_prefix_cons.mp shorter
      rw [pointer?_cons, lookup, found, Option.bind_some]
      exact ih shorterRest fun same => proper (by rw [same])

theorem exists_mem_of_get? {entries : Mapping} {key v : Value} (found : entries.get? key = some v) :
    ∃ entry ∈ entries, entry.2 = v := by
  obtain ⟨entry, first, rfl⟩ := Option.map_eq_some_iff.mp found
  exact ⟨entry, List.mem_of_find?_eq_some first, rfl⟩

theorem anyItemOverrides_of_mem {items : List Value} {item : Value} (member : item ∈ items)
    (override : item.hasOverride = true) : anyItemOverrides items = true := by
  rw [anyItemOverrides_eq]
  exact List.any_eq_true.mpr ⟨item, member, override⟩

theorem anyEntryOverrides_of_mem {entries : List (Value × Value)} {entry : Value × Value} (member : entry ∈ entries)
    (override : entry.1.hasOverride = true ∨ entry.2.hasOverride = true) : anyEntryOverrides entries = true := by
  rw [anyEntryOverrides_eq]
  exact List.any_eq_true.mpr ⟨entry, member, (Bool.or_eq_true _ _).mpr override⟩

theorem Marked.hasOverride {marker : Value} {path : List String} {v : Value} (marked : Marked marker path v)
    (override : marker.hasOverride = true) : v.hasOverride = true := by
  induction marked with
  | here => exact override
  | through _ found _ ih =>
    obtain ⟨entry, member, rfl⟩ := exists_mem_of_get? found
    exact anyEntryOverrides_of_mem member (.inr ih)

theorem EveryMapping.of_get? {P : Mapping → Prop} {entries : Mapping} (every : (Value.map entries).EveryMapping P)
    {key v : Value} (found : entries.get? key = some v) : v.EveryMapping P := by
  obtain ⟨entry, member, rfl⟩ := exists_mem_of_get? found
  exact fun inner part => every inner (.value member part)

theorem marked_of_pointer? {marker : Value} {path : List String} {v : Value} (firm : v.EveryMapping Mapping.Firm)
    (found : v.pointer? path = some marker) : Marked marker path v := by
  induction path generalizing v with
  | nil =>
    cases found
    exact .here
  | cons name rest ih =>
    cases v with
    | map entries =>
      rw [pointer?_cons] at found
      obtain ⟨inner, here, below⟩ := Option.bind_eq_some_iff.mp found
      exact .through (firm entries (.self _)) here (ih (firm.of_get? here) below)
    | _ => cases found

theorem clear_of_pointer? {path : List String} {v : Value} (firm : v.EveryMapping Mapping.Firm)
    (maps : ∀ above, above <+: path → above ≠ path → ∀ inner, v.pointer? above = some inner →
      ∃ entries, inner = .map entries) : Clear path v := by
  induction path generalizing v with
  | nil => exact .here v
  | cons name rest ih =>
    obtain ⟨entries, rfl⟩ := maps [] List.nil_prefix (by simp) v rfl
    cases here : Mapping.get? entries (.str name) with
    | none => exact .absent (firm entries (.self _)) here
    | some inner =>
      refine .through (firm entries (.self _)) here (ih (firm.of_get? here) ?_)
      intro above shorter proper deeper found
      refine maps (name :: above) (List.cons_prefix_cons.mpr ⟨rfl, shorter⟩) (by simpa using proper) deeper ?_
      rw [pointer?_cons, here, Option.bind_some, found]

end Value

/-- Override markers of the root beat every package. However many packages are merged into a document and whatever
they have at the place of a marker or below it, what is left there after the overrides is nothing, or what they make
of the replacement. The mappings around it stay. -/
theorem Mapping.applyOverrides?_foldl_deepMerge {root : Mapping} {packages : List Mapping} {path : List String}
    {tag : Tag} {mark : Nat} {payload : Value} (override : tag = .removal ∨ tag = .replacement)
    (marked : (Value.map root).pointer? path = some (.tagged tag mark payload))
    (maps : ∀ package ∈ packages, ∀ above, above <+: path → above ≠ path → ∀ v,
      (Value.map package).pointer? above = some v → ∃ entries, v = .map entries)
    (distinct : ∀ m ∈ root :: packages, (Value.map m).EveryMapping Distinct)
    (plain : ∀ m ∈ root :: packages, (Value.map m).EveryMapping fun entries => ∀ entry ∈ entries, entry.1.TagFree) :
    (Value.map (packages.foldl deepMerge root)).hasOverride = true ∧
      ∃ overridden : Mapping, (Value.map (packages.foldl deepMerge root)).applyOverrides? = some (.map overridden) ∧
        (∀ above, above <+: path → above ≠ path →
          ∃ entries, (Value.map overridden).pointer? above = some (.map entries)) ∧
        (tag = .removal → (Value.map overridden).pointer? path = none) ∧
        (tag = .replacement → (Value.map overridden).pointer? path = payload.applyOverrides?) := by
  have overrides : tag.isOverride = true := by
    rcases override with rfl | rfl
    · rfl
    · rfl
  have firm : ∀ m ∈ root :: packages, (Value.map m).EveryMapping Firm := fun m member entries part =>
    ⟨distinct m member entries part, plain m member entries part⟩
  have inRoot : Value.Marked (.tagged tag mark payload) path (.map root) :=
    Value.marked_of_pointer? (firm root List.mem_cons_self) marked
  have clear : ∀ package ∈ packages, Value.Clear path (.map package) := fun package member =>
    Value.clear_of_pointer? (firm package (List.mem_cons_of_mem _ member)) (maps package member)
  have merged := inRoot.foldl_deepMerge overrides clear
  refine ⟨merged.hasOverride (by rw [Value.hasOverride, overrides, Bool.true_or]), _, rfl, ?_, ?_, ?_⟩
  · intro above shorter proper
    exact merged.exists_map_above shorter proper
  · rintro rfl
    exact merged.pointer?_applyOverrides?
  · rintro rfl
    exact merged.pointer?_applyOverrides?

theorem Mapping.applyOverrides?_replaced :
    let level (text : String) : Value := .map [(.str "level", .str text)]
    let root : Mapping := [(.str "server", .map [(.str "log", .tagged .replacement 0 (level "warn"))])]
    let packages : List Mapping :=
      [[(.str "server", .map [(.str "log", level "debug")])], [(.str "port", .str "80")]]
    ∃ overridden : Mapping, (Value.map (packages.foldl deepMerge root)).applyOverrides? = some (.map overridden) ∧
      (Value.map overridden).pointer? ["server", "log"] = some (level "warn") := by
  intro level root packages
  have plain (text : String) : (Value.str text).TagFree := Value.tagFree_untagged (.str text)
  have maps : ∀ package ∈ packages, ∀ above, above <+: ["server", "log"] → above ≠ ["server", "log"] → ∀ v,
      (Value.map package).pointer? above = some v → ∃ entries, v = .map entries := by
    intro package member above shorter proper v found
    rcases above with _ | ⟨first, _ | ⟨second, rest⟩⟩
    · cases found
      exact ⟨_, rfl⟩
    · obtain ⟨rfl, _⟩ := List.cons_prefix_cons.mp shorter
      rcases List.mem_cons.mp member with rfl | last
      · cases found
        exact ⟨_, rfl⟩
      · rw [List.mem_singleton.mp last] at found
        cases found
    · obtain ⟨rfl, shorterRest⟩ := List.cons_prefix_cons.mp shorter
      obtain ⟨rfl, nothing⟩ := List.cons_prefix_cons.mp shorterRest
      rw [List.prefix_nil.mp nothing] at proper
      exact absurd rfl proper
  have distinct : ∀ m ∈ root :: packages, (Value.map m).EveryMapping Distinct := by
    simp [root, packages, level, Value.everyMapping_map_iff, Value.everyMapping_tagged_iff, Distinct,
      Value.everyMapping_str]
  have plain : ∀ m ∈ root :: packages,
      (Value.map m).EveryMapping fun entries => ∀ entry ∈ entries, entry.1.TagFree := by
    simp [root, packages, level, Value.everyMapping_map_iff, Value.everyMapping_tagged_iff, plain,
      Value.everyMapping_str]
  obtain ⟨_, overridden, applied, _, _, replaced⟩ :=
    applyOverrides?_foldl_deepMerge (.inr rfl) rfl maps distinct plain
  exact ⟨overridden, applied, replaced rfl⟩

end ConfigWeave
