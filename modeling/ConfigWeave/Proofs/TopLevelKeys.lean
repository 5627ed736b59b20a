import ConfigWeave.Proofs.Lineage
import ConfigWeave.Proofs.Overriding

namespace ConfigWeave

namespace Value

def IsTagged (v : Value) : Prop :=
  ∃ tag mark payload, v = .tagged tag mark payload

variable {name : String}

theorem eq_str_of_bare {key : Value} (plain : ¬ key.IsTagged) (bare : key.bare = .str name) : key = .str name := by
  cases key with
  | tagged tag mark payload => exact absurd ⟨tag, mark, payload, rfl⟩ plain
  | _ => exact bare

theorem eq_str_of_str? {v : Value} (isText : v.str? = some name) : v = .str name := by
  cases v with
  | str text => exact congrArg Value.str (Option.some.inj isText)
  | _ => cases isText

/-- Below its tags a key is the text that overrides leave of it. -/
theorem bare_of_applyOverrides? {key kept : Value} (applied : key.applyOverrides? = some kept)
    (bare : kept.bare = .str name) : key.bare = .str name :=
  applyOverrides?_induction (C := fun key kept => kept.bare = .str name → key.bare = .str name)
    (fun _ => id) (fun _ => id) id (fun _ => nofun) (fun _ => nofun) key kept applied bare

theorem bare_of_untagged : (key : Value) → key.untagged = .str name → key.bare = .str name
  | .tagged _ _ payload, same => bare_of_untagged payload same
  | .str _, same => same
  | .null, same | .bool _, same | .int _, same | .float _, same | .seq _, same | .map _, same => by cases same

/-- The text keys of a mapping that is finished are those that it had before, below their tags. -/
theorem exists_finished_map (m : Mapping) : ∃ final : Mapping, (Value.map m).finished = .map final ∧
    ∀ entry ∈ final, ∀ name, entry.1 = .str name → ∃ old ∈ m, old.1.bare = .str name := by
  have untagging {between : Mapping}
      (keys : ∀ entry ∈ between, ∀ name, entry.1.bare = .str name → ∃ old ∈ m, old.1.bare = .str name) :
      ∃ final : Mapping, (Value.map between).untagged.withoutNullKeys = .map final ∧
        ∀ entry ∈ final, ∀ name, entry.1 = .str name → ∃ old ∈ m, old.1.bare = .str name := by
    refine ⟨_, rfl, fun entry member name isText => ?_⟩
    have named : ∀ entry ∈ entriesWithoutNullKeys (Mapping.ofList (untaggedEntries between)),
        ∃ also ∈ Mapping.ofList (untaggedEntries between), also.1 = entry.1 :=
      forall_mem_entriesWithoutNullKeys.mpr fun also among _ => ⟨also, among, rfl⟩
    obtain ⟨also, among, same⟩ := named entry member
    have stems := Mapping.forall_mem_insertAll (m := [])
      (P := fun key => ∃ old ∈ between, old.1.untagged = key) (Q := fun _ => True) (by simp)
      (forall_mem_untaggedEntries.mpr fun old inside => ⟨⟨old, inside, rfl⟩, trivial⟩) also among
    obtain ⟨old, inside, untagged⟩ := stems.1
    exact keys old inside name (bare_of_untagged _ (by rw [untagged, same, isText]))
  unfold finished
  split
  · refine untagging fun entry member name bare => ?_
    have stems := forall_mem_overriddenEntries (P := fun key => ∃ old ∈ m, old.1.applyOverrides? = some key)
      (Q := fun _ => True) (fun old among => ⟨fun _ left => ⟨old, among, left⟩, fun _ _ => trivial⟩) entry member
    obtain ⟨old, inside, applied⟩ := stems.1
    exact ⟨old, inside, bare_of_applyOverrides? applied bare⟩
  · exact untagging fun entry member name bare => ⟨entry, member, bare⟩

end Value

namespace Mapping

variable {P : Value → Prop}

theorem forall_key_insert {m : Mapping} (here : ∀ entry ∈ m, P entry.1) {key : Value} (new : P key)
    (value : Value) :
    ∀ entry ∈ m.insert key value, P entry.1 := by
  intro entry member
  rcases (mem_insert member).1 with same | ⟨old, among, same⟩
  · rwa [same]
  · rw [same]
    exact here old among

theorem forall_key_insertMissing {m : Mapping} {entries : List (Value × Value)} (here : ∀ entry ∈ m, P entry.1)
    (each : ∀ entry ∈ entries, P entry.1) : ∀ entry ∈ m.insertMissing entries, P entry.1 :=
  insertMissing_induction (P := fun m => ∀ entry ∈ m, P entry.1) here
    (fun before key => forall_key_insert before key _) each

theorem forall_key_deepMerge {target source : Mapping} (here : ∀ entry ∈ target, P entry.1)
    (comes : ∀ entry ∈ source, P entry.1) : ∀ entry ∈ target.deepMerge source, P entry.1 := by
  unfold deepMerge
  induction source generalizing target with
  | nil => exact here
  | cons first rest ih =>
    obtain ⟨key, others⟩ := List.forall_mem_cons.mp comes
    rw [mergedEntries_cons]
    exact ih (forall_key_insert here key _) others

/-- Of distinct keys none is left of a text that is erased. -/
theorem Distinct.ne_of_mem_erase {m : Mapping} (distinct : m.Distinct) {text : String} {entry : Value × Value}
    (member : entry ∈ m.erase (.str text)) : entry.1 ≠ .str text := by
  induction m with
  | nil => cases member
  | cons first rest ih =>
    obtain ⟨apart, distinctRest⟩ := List.pairwise_cons.mp distinct
    simp only [erase] at member
    split at member
    · rename_i found
      intro same
      have equal := apart entry member
      rw [same, Value.str_beq_iff.mp found, Value.str_beq_iff.mpr rfl] at equal
      cases equal
    · rename_i other
      rcases List.mem_cons.mp member with rfl | later
      · exact fun same => other (Value.str_beq_iff.mpr same)
      · exact ih distinctRest later

theorem Distinct.ne_of_mem_withoutSections {m : Mapping} (distinct : m.Distinct) {entry : Value × Value}
    (member : entry ∈ m.withoutSections) : ∀ name ∈ sectionKeys, entry.1 ≠ .str name := by
  unfold withoutSections at member
  generalize sectionKeys = names at member ⊢
  induction names generalizing m with
  | nil => exact fun _ absent => absurd absent List.not_mem_nil
  | cons name rest ih =>
    have inside := (foldl_erase_sublist rest (m.erase (.str name))).subset member
    exact List.forall_mem_cons.mpr
      ⟨distinct.ne_of_mem_erase inside, ih (distinct.sublist (erase_sublist m _)) member⟩

end Mapping

/-- A text that comes of a key without tags is that key. -/
theorem eq_str_of_transform {site : Site} {scope : Scope} {key out : Value} {name : String}
    (done : (transform site scope none key).result = .ok (some out)) (bare : out.bare = .str name)
    (plain : ¬ key.IsTagged) : key = .str name := by
  cases key with
  | tagged tag mark payload => exact absurd ⟨tag, mark, payload, rfl⟩ plain
  | null | bool | int | float | str =>
    cases done
    exact bare
  | seq items =>
    simp only [transform] at done
    obtain ⟨_, _, rest⟩ := Traced.exists_of_bind_ok done
    cases rest
    cases bare
  | map entries =>
    simp only [transform] at done
    obtain ⟨_, _, rest⟩ := Traced.exists_of_bind_ok done
    obtain ⟨_, _, rest⟩ := Traced.exists_of_bind_ok rest
    cases rest
    cases bare

theorem exists_of_mem_transformEntries {site : Site} {scope : Scope} {sub : Option Pattern}
    {entries transformed : List (Value × Value)}
    (done : (transformEntries site scope sub entries).result = .ok transformed) {entry : Value × Value}
    (member : entry ∈ transformed) :
    ∃ old ∈ entries, (transform site scope sub old.1).result = .ok (some entry.1) := by
  induction entries generalizing transformed with
  | nil =>
    cases done
    cases member
  | cons first rest ih =>
    obtain ⟨k, v⟩ := first
    have further {transformed : List (Value × Value)}
        (done : (transformEntries site scope sub rest).result = .ok transformed) (member : entry ∈ transformed) :
        ∃ old ∈ (k, v) :: rest, (transform site scope sub old.1).result = .ok (some entry.1) := by
      obtain ⟨old, among, same⟩ := ih done member
      exact ⟨old, List.mem_cons_of_mem _ among, same⟩
    simp only [transformEntries] at done
    obtain ⟨outKey, key, done⟩ := Traced.exists_of_bind_ok done
    cases outKey with
    | none => exact further done member
    | some outKey =>
      obtain ⟨outValue, _, done⟩ := Traced.exists_of_bind_ok done
      cases outValue with
      | none => exact further done member
      | some outValue =>
        obtain ⟨others, later, done⟩ := Traced.exists_of_bind_ok done
        cases done
        rcases List.mem_cons.mp member with rfl | inside
        · exact ⟨(k, v), List.mem_cons_self, key⟩
        · exact further later inside

namespace Site

variable (site : Site) (scope : Scope)

/-- Whether a key stands in a mapping that is merged into others under their merge key. -/
def Merges (entries : Mapping) (key : Value) : Prop :=
  ∃ transformed sources others, (transformEntries site scope none entries).result = .ok transformed ∧
    (Mapping.ofList transformed).get? Value.mergeKey = some sources ∧
    (site.mergeSources sources).result = .ok others ∧ ∃ entry ∈ others, entry.1 = key

/-- Whether a key stands at the top of one of the given packages. -/
def Packs (sub : Option Pattern) (packages : List (Value × Value)) (key : Value) : Prop :=
  ∃ declared ∈ packages, ∃ id package, (transform site scope sub declared.1).result = .ok (some id) ∧
    (transform site (scope.define packageVariable (.str id.keyText)) sub declared.2).result =
      .ok (some (.map package)) ∧
    ∃ entry ∈ package, entry.1 = key

/-- Whether a key comes from the packages that a document declares. -/
def Contributes (entries : Mapping) (key : Value) : Prop :=
  ∃ declared packages sub, entries.get? (.str "packages") = some declared ∧
    (declaredPackages site scope declared).result = .ok (.map packages, sub) ∧ site.Packs scope sub packages key

variable {site scope}

/-- The keys of a mapping are those of its own that are left, and those that are merged into it. -/
theorem exists_of_transform_map {entries : Mapping} {out : Option Value}
    (done : (transform site scope none (.map entries)).result = .ok out) :
    ∃ tree : Mapping, out = some (.map tree) ∧ ∀ entry ∈ tree,
      (∃ old ∈ entries, (transform site scope none old.1).result = .ok (some entry.1)) ∨
        site.Merges scope entries entry.1 := by
  simp only [transform] at done
  obtain ⟨transformed, collected, done⟩ := Traced.exists_of_bind_ok done
  obtain ⟨tree, merged, done⟩ := Traced.exists_of_bind_ok done
  cases done
  refine ⟨tree, rfl, ?_⟩
  have own := Mapping.forall_mem_insertAll (m := [])
    (P := fun key => ∃ old ∈ entries, (transform site scope none old.1).result = .ok (some key))
    (Q := fun _ => True) (by simp) fun entry member => ⟨exists_of_mem_transformEntries collected member, trivial⟩
  unfold resolveMergeKey at merged
  cases found : (Mapping.ofList transformed).get? Value.mergeKey with
  | none =>
    rw [found] at merged
    cases merged
    exact fun entry member => .inl (own entry member).1
  | some sources =>
    rw [found] at merged
    obtain ⟨others, gathered, merged⟩ := Traced.exists_of_bind_ok merged
    cases merged
    refine Mapping.forall_key_insertMissing (P := fun key => (∃ old ∈ entries,
      (transform site scope none old.1).result = .ok (some key)) ∨ site.Merges scope entries key) ?_ ?_
    · exact fun entry member => .inl (own entry ((Mapping.erase_sublist _ _).subset member)).1
    · exact fun entry member => .inr ⟨transformed, sources, others, collected, found, gathered, entry, member, rfl⟩

end Site

/-- The keys of a mapping with packages are its own ones and those of the packages. -/
theorem forall_key_mergeEach {site : Site} {scope : Scope} {sub : Option Pattern} {packages : List (Value × Value)}
    {P : Value → Prop} (each : ∀ key, site.Packs scope sub packages key → P key) {root merged : Mapping}
    (here : ∀ entry ∈ root, P entry.1) (done : (mergeEach site scope sub root packages).result = .ok merged) :
    ∀ entry ∈ merged, P entry.1 := by
  induction packages generalizing root with
  | nil =>
    cases done
    exact here
  | cons first rest ih =>
    have others (key : Value) : site.Packs scope sub rest key → P key :=
      fun ⟨declared, member, packed⟩ => each key ⟨declared, List.mem_cons_of_mem _ member, packed⟩
    simp only [mergeEach] at done
    obtain ⟨id, named, done⟩ := Traced.exists_of_bind_ok done
    cases id with
    | none => exact ih others here done
    | some id =>
      obtain ⟨package, composed, done⟩ := Traced.exists_of_bind_ok done
      split at done
      · rename_i package
        refine ih others (Mapping.forall_key_deepMerge here fun entry member => each entry.1 ?_) done
        exact ⟨first, List.mem_cons_self, id, package, named, composed, entry, member, rfl⟩
      · exact ih others here done
      · exact ih others here done
      · obtain ⟨_, _, done⟩ := Traced.exists_of_bind_ok done
        exact ih others here done

theorem Site.forall_key_withPackages {site : Site} {scope : Scope} {entries tree merged : Mapping}
    (done : (site.withPackages scope tree entries).result = .ok merged) :
    ∀ entry ∈ merged, (∃ old ∈ tree, old.1 = entry.1) ∨ site.Contributes scope entries entry.1 := by
  have own : ∀ entry ∈ tree, (∃ old ∈ tree, old.1 = entry.1) ∨ site.Contributes scope entries entry.1 :=
    fun entry member => .inl ⟨entry, member, rfl⟩
  unfold withPackages at done
  cases found : entries.get? (.str "packages") with
  | none =>
    rw [found] at done
    cases done
    exact own
  | some declared =>
    rw [found] at done
    simp only [mergePackages] at done
    obtain ⟨⟨packages, sub⟩, resolved, done⟩ := Traced.exists_of_bind_ok done
    cases packages with
    | null =>
      cases done
      exact own
    | map packages =>
      refine forall_key_mergeEach (P := fun key => (∃ old ∈ tree, old.1 = key) ∨ site.Contributes scope entries key)
        (fun key packed => ?_) own done
      exact .inr ⟨declared, packages, sub, found, resolved, packed⟩
    | bool | int | float | str | seq | tagged =>
      cases done
      exact own

/-- The keys at the top of a document that is composed are no hidden ones. Each comes from an entry of the document
that is not one of its sections, from a merge key, or from a package. -/
theorem OpenDocument.exists_of_composeTree {document : OpenDocument} {scope : Scope} {entries : Mapping}
    {out : Value} (distinct : entries.Distinct)
    (done : (document.composeTree scope (.map entries)).result = .ok out) :
    ∃ templates root, (document.ownTemplates scope entries).result = .ok templates ∧ out = .map root ∧
      let site := templates.site document
      ∀ entry ∈ root, (∀ name, entry.1 = .str name → name.toList.head? ≠ some '.') ∧
        ((∃ old ∈ entries, (∀ name ∈ sectionKeys, old.1 ≠ .str name) ∧
            (transform site scope none old.1).result = .ok (some entry.1)) ∨
          site.Merges scope entries.withoutSections entry.1 ∨ site.Contributes scope entries entry.1) := by
  simp only [composeTree] at done
  obtain ⟨templates, own, done⟩ := Traced.exists_of_bind_ok done
  obtain ⟨walked, standard, done⟩ := Traced.exists_of_bind_ok done
  obtain ⟨tree, rfl, ofTree⟩ := Site.exists_of_transform_map standard
  obtain ⟨merged, packaged, done⟩ := Traced.exists_of_bind_ok done
  cases done
  refine ⟨templates, _, own, rfl, fun entry member => ?_⟩
  obtain ⟨inside, shown⟩ := List.mem_filter.mp member
  constructor
  · rintro name isText dot
    rw [isText] at shown
    simp [Value.str?, dot] at shown
  · rcases Site.forall_key_withPackages packaged entry inside with ⟨old, among, same⟩ | contributes
    · rw [← same]
      rcases ofTree old among with ⟨written, kept, walked⟩ | merges
      · exact .inl ⟨written, (Mapping.withoutSections_sublist entries).subset kept,
          distinct.ne_of_mem_withoutSections kept, walked⟩
      · exact .inr (.inl merges)
    · exact .inr (.inr contributes)

namespace World

variable {world : World} {main file : Path}

theorem exists_composed_of_load (leads : world.files.canonical main = .ok file) {v : Value}
    (loaded : (world.load main).result = .ok v) :
    ∃ composed, (world.compose [file] file .empty).result = .ok composed ∧ v = composed.finished := by
  simp only [load, leads] at loaded
  obtain ⟨composed, done, finished⟩ := Traced.exists_of_bind_ok loaded
  cases finished
  exact ⟨composed, done, rfl⟩

/-- Sections and hidden keys are taken out of a main document before its overrides are applied. So a text key that
starts with a dot is loaded only if it still had a tag then, wherever it comes from, and one with the name of a
section is loaded only if it comes from a key with a tag, from a merge key or from a package. -/
theorem keys_of_load (leads : world.files.canonical main = .ok file) {text : String}
    (read : (world.readText file).result = .ok text) {entries : Mapping}
    (parsed : Yaml.parse? text = some (.map entries)) {v : Value} (loaded : (world.load main).result = .ok v) :
    let document := world.opened [file] file text
    ∃ (scope : Scope) (templates : Templates) (root final : Mapping),
      (document.treeScope ((world.builtins file).extend .empty) .empty (.map entries)).result = .ok scope ∧
      (document.ownTemplates scope entries).result = .ok templates ∧
      (world.compose [file] file .empty).result = .ok (.map root) ∧ v = (Value.map root).finished ∧ v = .map final ∧
      let site := templates.site document
      ∀ entry ∈ final, ∀ name, entry.1 = .str name → ∃ key ∈ root.map Prod.fst, key.bare = .str name ∧
        (name.toList.head? = some '.' → key.IsTagged) ∧
        ((∃ old ∈ entries, (transform site scope none old.1).result = .ok (some key) ∧
            (name ∈ sectionKeys → old.1.IsTagged)) ∨
          site.Merges scope entries.withoutSections key ∨ site.Contributes scope entries key) := by
  intro document
  obtain ⟨composed, done, rfl⟩ := exists_composed_of_load leads loaded
  have distinct : entries.Distinct := (Value.everyMapping_map_iff.mp (Yaml.keysDistinct_of_parse parsed)).1
  rw [compose_of_contains read parsed, OpenDocument.compose_eq] at done
  obtain ⟨scope, evaluated, walked⟩ := Traced.exists_of_bind_ok done
  obtain ⟨templates, root, own, rfl, ofRoot⟩ := OpenDocument.exists_of_composeTree distinct walked
  obtain ⟨final, finished, ofFinal⟩ := Value.exists_finished_map root
  refine ⟨scope, templates, root, final, evaluated, own, ?_, rfl, finished, fun entry member name isText => ?_⟩
  · rw [compose_of_contains read parsed, OpenDocument.compose_eq]
    exact done
  · obtain ⟨old, among, bare⟩ := ofFinal entry member name isText
    obtain ⟨shown, origin⟩ := ofRoot old among
    refine ⟨old.1, List.mem_map_of_mem among, bare, fun dot => ?_, ?_⟩
    · exact Classical.byContradiction fun plain => shown name (Value.eq_str_of_bare plain bare) dot
    · rcases origin with ⟨written, inside, noSection, walked⟩ | elsewhere
      · refine .inl ⟨written, inside, walked, fun isSection => ?_⟩
        exact Classical.byContradiction fun plain =>
          noSection name isSection (eq_str_of_transform walked bare plain)
      · exact .inr elsewhere

theorem exists_map_of_any {content : Option Value} (isMap : content.any (·.map?.isSome) = true) :
    ∃ entries : Mapping, content = some (.map entries) := by
  obtain ⟨v, rfl, isSome⟩ := (Option.any_eq_true _ _).mp isMap
  cases v with
  | map entries => exact ⟨entries, rfl⟩
  | _ => cases isSome

theorem keys_of_load_uncovered :
    let text := "variables:\n  a: 1\n.b: 2\n!replace .c: 3\n"
    let world : World := ⟨⟨[(["main"], .file text.toUTF8.toList (.change 0))], [], 1⟩, .empty, [], .ofRoot ⟨"/"⟩⟩
    ∃ entries root final : Mapping, world.files.canonical ⟨"/main"⟩ = .ok ⟨"/main"⟩ ∧
      (world.readText ⟨"/main"⟩).result = .ok text ∧ Yaml.parse? text = some (.map entries) ∧
      (world.compose [⟨"/main"⟩] ⟨"/main"⟩ .empty).result = .ok (.map root) ∧
      (world.load ⟨"/main"⟩).result = .ok (.map final) ∧ (∃ entry ∈ final, entry.1 = .str ".c") ∧
      ∃ key ∈ root.map Prod.fst, key.bare = .str ".c" ∧ key.IsTagged := by
  intro text world
  have leads : world.files.canonical ⟨"/main"⟩ = .ok ⟨"/main"⟩ := Path.ok_of_text (by decide +kernel)
  have read : (world.readText ⟨"/main"⟩).result = .ok text := ok_of_toOption (by decide +kernel)
  have loads : (world.load ⟨"/main"⟩).result.toOption.any (fun v =>
      v.map?.any fun final => final.any fun entry => entry.1.str? = some ".c") = true := by
    decide +kernel
  obtain ⟨entries, parsed⟩ :=
    exists_map_of_any (show (Yaml.parse? text).any (·.map?.isSome) = true by decide +kernel)
  obtain ⟨v, loaded, shown⟩ := exists_ok_of_any loads
  obtain ⟨scope, templates, root, final, _, _, composed, _, rfl, ofFinal⟩ := keys_of_load leads read parsed loaded
  obtain ⟨entry, member, named⟩ := List.any_eq_true.mp shown
  have isText : entry.1 = .str ".c" := Value.eq_str_of_str? (of_decide_eq_true named)
  obtain ⟨key, among, bare, tagged, _⟩ := ofFinal entry member ".c" isText
  exact ⟨entries, root, final, leads, read, parsed, composed, loaded, ⟨entry, member, isText⟩, key, among, bare,
    tagged rfl⟩

/-- Keys with the names of sections and hidden keys can be loaded. -/
theorem exists_section_keys_of_load :
    let text := "packages:\n  p:\n    packages: 3\n<<:\n  templates: 2\n" ++
      "!sub \"$\x7b 'variables' \x7d\": 1\n!replace .x: 4\n"
    let world : World := ⟨⟨[(["main"], .file text.toUTF8.toList (.change 0))], [], 1⟩, .empty, [], .ofRoot ⟨"/"⟩⟩
    ∃ entries final : Mapping, (world.readText ⟨"/main"⟩).result = .ok text ∧
      Yaml.parse? text = some (.map entries) ∧
      (world.load ⟨"/main"⟩).result = .ok (.map final) ∧
      ∀ name ∈ ".x" :: sectionKeys, final.contains (.str name) = true := by
  intro text world
  have loads : (world.load ⟨"/main"⟩).result.toOption.any (fun v =>
      v.map?.any fun final => (".x" :: sectionKeys).all fun name => Mapping.contains final (.str name)) = true := by
    decide +kernel
  obtain ⟨entries, parsed⟩ :=
    exists_map_of_any (show (Yaml.parse? text).any (·.map?.isSome) = true by decide +kernel)
  obtain ⟨v, loaded, shown⟩ := exists_ok_of_any loads
  cases v with
  | map final =>
    exact ⟨entries, final, ok_of_toOption (by decide +kernel), parsed, loaded, List.all_eq_true.mp shown⟩
  | _ => cases shown

end World

end ConfigWeave
