import ConfigWeave.Proofs.TemplateSection

namespace ConfigWeave

/-- A text has no placeholders of a pattern. -/
def Pattern.Absent (p : Pattern) (text : String) : Prop :=
  (p.segments text.toList).placeholders = []

instance (p : Pattern) (text : String) : Decidable (p.Absent text) :=
  inferInstanceAs (Decidable (_ = []))

theorem Pattern.Absent.transform {p : Pattern} {text : String} (absent : p.Absent text) (site : Site)
    (scope : Scope) :
    transform site scope (some p) (.str text) = pure (some (.str text)) := by
  have plain : interpolate p scope text = pure none := by
    have cut : p.segments text.toList = ⟨[], (p.segments text.toList).tail⟩ := congrArg (Segments.mk · _) absent
    rw [interpolate, cut]
  rw [ConfigWeave.transform, plain]
  rfl

namespace Value

/-- A tree, and the same one below a tag for substitution. -/
inductive Substituted : Value → Value → Prop
  | tagged (mark : Nat) (v : Value) : Substituted v (.tagged (.sub none) mark v)

/-- A key, and the same one below a tag for substitution. A merge key may be left as it is. -/
def SubstitutedKey (key other : Value) : Prop :=
  key.Substituted other ∨ key.isMergeKey = true ∧ other = key

variable {site : Site} {scope : Scope} {sub : Option Pattern} {v w : Value}

theorem Substituted.transform (tagged : v.Substituted w) :
    transform site scope sub w = ConfigWeave.transform site scope (some .default) v := by
  obtain ⟨mark, v⟩ := tagged
  rw [ConfigWeave.transform, Site.pattern, pure_bind]

theorem SubstitutedKey.transform (tagged : v.SubstitutedKey w) :
    transform site scope sub w = ConfigWeave.transform site scope (some .default) v := by
  rcases tagged with tagged | ⟨merging, rfl⟩
  · exact tagged.transform
  · obtain ⟨mark, payload, rfl⟩ : ∃ mark payload, w = .tagged .mergeKey mark payload := by
      unfold isMergeKey at merging
      split at merging
      · exact ⟨_, _, rfl⟩
      · cases merging
    rw [ConfigWeave.transform, ConfigWeave.transform]

end Value

section Collections

variable {site : Site} {scope : Scope} {sub : Option Pattern}

theorem transformItems_of_substituted {items others : List Value}
    (tagged : List.Forall₂ Value.Substituted items others) :
    transformItems site scope sub others = transformItems site scope (some .default) items := by
  induction tagged with
  | nil => rw [transformItems, transformItems]
  | cons first _ ih => rw [transformItems, transformItems, first.transform, ih]

/-- The entries of a mapping, and the same ones with the key and the value of each below a tag for substitution. -/
abbrev Mapping.Substituted : Mapping → Mapping → Prop :=
  List.Forall₂ fun entry other => entry.1.SubstitutedKey other.1 ∧ entry.2.Substituted other.2

theorem transformEntries_of_substituted {entries others : Mapping} (tagged : entries.Substituted others) :
    transformEntries site scope sub others = transformEntries site scope (some .default) entries := by
  induction tagged with
  | nil => rw [transformEntries, transformEntries]
  | @cons entry other rest more first _ ih =>
    obtain ⟨key, value⟩ := entry
    obtain ⟨taggedKey, taggedValue⟩ := other
    rw [transformEntries, transformEntries, first.1.transform, first.2.transform, ih]

end Collections

/-- The entries of a section, and the same ones with the value of each below a tag for substitution. -/
abbrev Mapping.ValuesSubstituted : Mapping → Mapping → Prop :=
  List.Forall₂ fun entry other => other.1 = entry.1 ∧ entry.2.Substituted other.2

section Sections

variable {m n : Mapping} (tagged : m.ValuesSubstituted n)
include tagged

/-- Variables below the tag are evaluated like those with tags of their own. -/
theorem Scope.evaluateAll_of_substituted (document : OpenDocument) (isProtected : String → Bool) (scope : Scope) :
    scope.evaluateAll document none isProtected n = scope.evaluateAll document (some .default) isProtected m := by
  induction tagged generalizing scope with
  | nil => rfl
  | @cons entry other rest more first _ ih =>
    obtain ⟨name, value⟩ := entry
    obtain ⟨_, taggedValue⟩ := other
    obtain ⟨rfl, substituted⟩ := first
    simp only [Scope.evaluateAll, substituted.transform, ih]

variable (named : ∀ entry ∈ m, ∃ name, entry.1 = .str name ∧ Pattern.default.Absent name)
include named

/-- So are packages. -/
theorem mergeEach_of_substituted (site : Site) (scope : Scope) (root : Mapping) :
    mergeEach site scope none root n = mergeEach site scope (some .default) root m := by
  induction tagged generalizing root with
  | nil => rfl
  | @cons entry other rest more first _ ih =>
    obtain ⟨name, body⟩ := entry
    obtain ⟨_, taggedBody⟩ := other
    obtain ⟨rfl, substituted⟩ := first
    obtain ⟨⟨text, isText, absent⟩, others⟩ := List.forall_mem_cons.mp named
    subst isText
    have key : transform site scope none (.str text) = pure (some (.str text)) := by rw [transform]
    simp only [mergeEach, key, absent.transform, pure_bind, substituted.transform, ih others]

namespace Templates

omit tagged in
/-- Templates below the tag have names that are not changed. -/
theorem defineTagged_of_absent (site : Site) (scope : Scope) (mark : Nat) (templates : Templates) :
    defineTagged site scope .default (.sub none) mark templates m = pure (m.foldl
      (fun templates entry => templates.define entry.1.keyText (.tagged (.sub none) mark entry.2)) templates) := by
  induction m generalizing templates with
  | nil => rfl
  | cons entry rest ih =>
    obtain ⟨name, body⟩ := entry
    obtain ⟨⟨text, isText, absent⟩, others⟩ := List.forall_mem_cons.mp named
    subst isText
    simp only [defineTagged, absent.transform, pure_bind, ih others, List.foldl_cons]

omit named in
/-- Their bodies are those of templates with tags of their own, but for where the tags are placed. -/
theorem alike_of_substituted (mark : Nat) {templates others : Templates} (alike : templates.Alike others) :
    Alike
      (m.foldl (fun templates entry => templates.define entry.1.keyText (.tagged (.sub none) mark entry.2))
        templates)
      (n.foldl (fun templates entry => templates.define entry.1.keyText entry.2) others) := by
  induction tagged generalizing templates others with
  | nil => exact alike
  | @cons entry other rest more first _ ih =>
    obtain ⟨name, body⟩ := entry
    obtain ⟨_, taggedBody⟩ := other
    obtain ⟨rfl, substituted⟩ := first
    refine ih (alike.define _ fun site scope => ?_)
    rw [substituted.transform, (Value.Substituted.tagged mark body).transform]

end Templates

end Sections

namespace OpenDocument

variable (document : OpenDocument) (scope inherited : Scope) (entries : Mapping) (declared : Value)

/-- Only the first stage looks at a section of variables. -/
theorem compose_insert_variables :
    document.compose scope inherited (.map (entries.insert (.str "variables") declared)) = (do
      let scope ← scope.ofSection document inherited.contains declared
      let templates ← document.ownTemplates scope entries
      document.composeAmong templates scope entries) := by
  have own : document.ownScope scope inherited (entries.insert (.str "variables") declared) =
      scope.ofSection document inherited.contains declared := by
    rw [ownScope, Mapping.get?_str_insert]
  have given (scope : Scope) :=
    document.ownTemplates_insert_of_ne scope entries declared (show "templates" ≠ "variables" by decide)
  have among (templates : Templates) (scope : Scope) :=
    document.composeAmong_insert_of_ne scope entries declared templates (show "variables" ∈ sectionKeys by decide)
      (by decide)
  simp only [compose_map_eq, own, given, among]

/-- Only the last stage looks at a section of packages, to merge it into the tree. -/
theorem compose_insert_packages {other : Value}
    (merged : ∀ site scope tree, mergePackages site scope tree declared = mergePackages site scope tree other) :
    document.compose scope inherited (.map (entries.insert (.str "packages") declared)) =
      document.compose scope inherited (.map (entries.insert (.str "packages") other)) := by
  have own (declared : Value) :=
    document.ownScope_insert_of_ne scope entries declared inherited (show "variables" ≠ "packages" by decide)
  have given (declared : Value) (scope : Scope) :=
    document.ownTemplates_insert_of_ne scope entries declared (show "templates" ≠ "packages" by decide)
  have among (templates : Templates) (scope : Scope) :
      document.composeAmong templates scope (entries.insert (.str "packages") declared) =
        document.composeAmong templates scope (entries.insert (.str "packages") other) := by
    simp only [composeAmong, Site.withPackages, Mapping.get?_str_insert,
      Mapping.withoutSections_insert (show "packages" ∈ sectionKeys by decide), merged]
  simp only [compose_map_eq, own, given, among]

end OpenDocument

/-- A tag for substitution on a section is a tag on each of its values. Whichever section of a document it is, with
names that have no placeholders, the document is composed to the same, with the same warnings and the same files
included, and fails in the same way. So it is with any collection in a tree: the tag on it is a tag on each of its
items, or on each of its keys and values, where merge keys may be left as they are. -/
theorem compose_substitutedSection :
    (∀ m n : Mapping, (∀ entry ∈ m, ∃ name, entry.1 = .str name ∧ Pattern.default.Absent name) →
    m.ValuesSubstituted n →
      ∀ name ∈ sectionKeys, ∀ (document : OpenDocument) (scope inherited : Scope) (entries : Mapping) (mark : Nat),
        document.compose scope inherited
            (.map (entries.insert (.str name) (.tagged (.sub none) mark (.map m)))) =
          document.compose scope inherited (.map (entries.insert (.str name) (.map n)))) ∧
    ∀ (site : Site) (scope : Scope) (sub : Option Pattern) (mark : Nat),
      (∀ items others, List.Forall₂ Value.Substituted items others →
        transform site scope sub (.tagged (.sub none) mark (.seq items)) = transform site scope sub (.seq others)) ∧
      ∀ entries others : Mapping, entries.Substituted others →
        transform site scope sub (.tagged (.sub none) mark (.map entries)) =
          transform site scope sub (.map others) := by
  refine ⟨fun m n named tagged name declares document scope inherited entries mark => ?_,
    fun site scope sub mark => ⟨?_, ?_⟩⟩
  · simp only [sectionKeys, List.mem_cons, List.not_mem_nil, or_false] at declares
    rcases declares with rfl | rfl | rfl
    · have evaluated : scope.ofSection document inherited.contains (.tagged (.sub none) mark (.map m)) =
          scope.ofSection document inherited.contains (.map n) :=
        (Scope.evaluateAll_of_substituted tagged document inherited.contains scope).symm
      rw [document.compose_insert_variables, document.compose_insert_variables, evaluated]
    · have given (own : Scope) : ∃ here there : Templates, here.Alike there ∧
          Templates.ofSection document own (.tagged (.sub none) mark (.map m)) = pure here ∧
          Templates.ofSection document own (.map n) = pure there :=
        ⟨_, _, Templates.alike_of_substituted tagged mark ⟨rfl, fun _ => .none⟩,
          Templates.defineTagged_of_absent named _ own mark .empty, rfl⟩
      simp only [document.compose_insert_templates]
      refine congrArg _ (funext fun own => ?_)
      obtain ⟨here, there, alike, below, each⟩ := given own
      have sites : here.site document = there.site document := alike.siteWithin document []
      rw [below, each, pure_bind, pure_bind, OpenDocument.composeAmong, OpenDocument.composeAmong, sites]
    · refine document.compose_insert_packages scope inherited entries _ fun site own tree => ?_
      exact (mergeEach_of_substituted tagged named site own tree).symm
  · intro items others tagged
    rw [(Value.Substituted.tagged mark _).transform, transform, transform, transformItems_of_substituted tagged]
  · intro entries others tagged
    rw [(Value.Substituted.tagged mark _).transform, transform, transform, transformEntries_of_substituted tagged]

/-- Sections with a placeholder, one that is not to be replaced, one behind an alias, and an opening that is not
closed. -/
theorem compose_substitutedSection_nested :
    let text : Value := .str "$\x7b v \x7d"
    let first : Value := .seq [text, .tagged .nosub 3 text]
    let second : Value := .map [(Value.mergeKey, .tagged .alias 5 (.map [(text, .tagged .insertion 6 (.str "a"))]))]
    let below (mark : Nat) (v : Value) : Value := .tagged (.sub none) mark v
    (∀ name ∈ sectionKeys, ∀ (document : OpenDocument) (scope inherited : Scope),
      document.compose scope inherited
          (.map [(.str "x", first), (.str name, below 1 (.map [(.str "a", first), (.str "$\x7b", second)]))]) =
        document.compose scope inherited
          (.map [(.str "x", first),
          (.str name, .map [(.str "a", below 2 first), (.str "$\x7b", below 4 second)])])) ∧
    ∀ site scope sub, transform site scope sub (below 1 second) = transform site scope sub
      (.map [(Value.mergeKey, below 5 (.tagged .alias 5 (.map [(text, .tagged .insertion 6 (.str "a"))])))]) := by
  intro text first second below
  obtain ⟨sections, collections⟩ := compose_substitutedSection
  let m : Mapping := [(.str "a", first), (.str "$\x7b", second)]
  let n : Mapping := [(.str "a", below 2 first), (.str "$\x7b", below 4 second)]
  have named : ∀ entry ∈ m, ∃ name, entry.1 = .str name ∧ Pattern.default.Absent name := by
    refine List.forall_mem_cons.mpr
      ⟨⟨"a", rfl, by decide +kernel⟩, List.forall_mem_singleton.mpr ⟨"$\x7b", rfl, ?_⟩⟩
    decide +kernel
  have tagged : m.ValuesSubstituted n := .cons ⟨rfl, .tagged 2 first⟩ (.cons ⟨rfl, .tagged 4 second⟩ .nil)
  refine ⟨fun name declares document scope inherited => ?_, fun site scope sub => ?_⟩
  · have placed (declared : Value) : Mapping.insert [(.str "x", first)] (.str name) declared =
        [(.str "x", first), (.str name, declared)] := by
      simp only [sectionKeys, List.mem_cons, List.not_mem_nil, or_false] at declares
      rcases declares with rfl | rfl | rfl <;> rfl
    have same := sections m n named tagged name declares document scope inherited [(.str "x", first)] 1
    rwa [placed, placed] at same
  · exact (collections site scope sub 1).2 _ _ (.cons ⟨.inr ⟨rfl, rfl⟩, .tagged 5 _⟩ .nil)

end ConfigWeave
