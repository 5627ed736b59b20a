import ConfigWeave.Proofs.IncludeChain
import ConfigWeave.Proofs.Lookup
import ConfigWeave.Proofs.Siblings
import ConfigWeave.Proofs.Termination

namespace ConfigWeave

namespace Mapping

theorem erase_insert_str (m : Mapping) (name : String) (v : Value) :
    erase (m.insert (.str name) v) (.str name) = erase m (.str name) :=
  erase_insert_of_same (fun _ => rfl) (Value.str_beq_iff.mpr rfl) m v

theorem erase_insert_str_of_ne {name other : String} (different : other ≠ name) (m : Mapping) (v : Value) :
    erase (m.insert (.str name) v) (.str other) = (erase m (.str other)).insert (.str name) v := by
  refine erase_insert_of_apart (Bool.eq_false_iff.mpr fun equal => ?_) (fun k found => ?_) m v
  · exact different (Value.str.inj (Value.str_beq_iff.mp equal)).symm
  · refine Bool.eq_false_iff.mpr fun equal => different ?_
    exact Value.str.inj ((Value.str_beq_iff.mp found).symm.trans (Value.str_beq_iff.mp equal))

/-- What a document declares under the name of a section is not seen once its sections are taken out. -/
theorem withoutSections_insert {name : String} (declares : name ∈ sectionKeys) (entries : Mapping)
    (declared : Value) :
    withoutSections (entries.insert (.str name) declared) = withoutSections entries := by
  unfold withoutSections
  generalize sectionKeys = names at declares
  induction names generalizing entries with
  | nil => cases declares
  | cons first rest ih =>
    rw [List.foldl_cons, List.foldl_cons]
    by_cases same : first = name
    · rw [same, erase_insert_str]
    · rw [erase_insert_str_of_ne same]
      exact ih _ ((List.mem_cons.mp declares).resolve_left fun equal => same equal.symm)

end Mapping

namespace OpenDocument

variable (document : OpenDocument)

/-- What is composed of a document once its variables and its templates are there. -/
def composeAmong (templates : Templates) (scope : Scope) (entries : Mapping) : Run Value := do
  let site := templates.site document
  match ← transform site scope none (.map (Mapping.withoutSections entries)) with
  | some (.map tree) => return .map (← site.withPackages scope tree entries).withoutHidden
  | other => return other.getD .null

theorem compose_map_eq (scope inherited : Scope) (entries : Mapping) :
    document.compose scope inherited (.map entries) = (do
      let scope ← document.ownScope scope inherited entries
      let templates ← document.ownTemplates scope entries
      document.composeAmong templates scope entries) :=
  rfl

section Insertion

variable (scope : Scope) (entries : Mapping) {name : String} (declared : Value)

theorem ownScope_insert_of_ne (inherited : Scope) (different : "variables" ≠ name) :
    document.ownScope scope inherited (entries.insert (.str name) declared) =
      document.ownScope scope inherited entries := by
  rw [ownScope, ownScope, Mapping.get?_str_insert_str_of_ne different]

theorem ownTemplates_insert_of_ne (different : "templates" ≠ name) :
    document.ownTemplates scope (entries.insert (.str name) declared) = document.ownTemplates scope entries := by
  rw [ownTemplates, ownTemplates, Mapping.get?_str_insert_str_of_ne different]

theorem composeAmong_insert_of_ne (templates : Templates) (known : name ∈ sectionKeys)
    (different : "packages" ≠ name) :
    document.composeAmong templates scope (entries.insert (.str name) declared) =
      document.composeAmong templates scope entries := by
  simp only [composeAmong, Site.withPackages, Mapping.get?_str_insert_str_of_ne different,
    Mapping.withoutSections_insert known]

end Insertion

/-- A document with a section of templates is composed in three stages, and only the second of them looks at the
section. -/
theorem compose_insert_templates (scope inherited : Scope) (entries : Mapping) (declared : Value) :
    document.compose scope inherited (.map (entries.insert (.str "templates") declared)) = (do
      let scope ← document.ownScope scope inherited entries
      let templates ← Templates.ofSection document scope declared
      document.composeAmong templates scope entries) := by
  have given (scope : Scope) : document.ownTemplates scope (entries.insert (.str "templates") declared) =
      Templates.ofSection document scope declared := by
    rw [ownTemplates, Mapping.get?_str_insert]
  have among (templates : Templates) (scope : Scope) :=
    document.composeAmong_insert_of_ne scope entries declared templates (show "templates" ∈ sectionKeys by decide)
      (by decide)
  have own := document.ownScope_insert_of_ne scope entries declared inherited
    (show "variables" ≠ "templates" by decide)
  simp only [compose_map_eq, own, given, among]

end OpenDocument

/-- Wherever it is transformed without a pattern, a tree becomes the same one, which stays as it is, and nothing is
reported. -/
def Value.AlwaysBecomes (body v : Value) : Prop :=
  ∀ (site : Site) (scope : Scope), transform site scope none body = pure (some v) ∧
    transform site scope none v = pure (some v)

section Composed

variable {bodies : Mapping} {value : Value → Value}

/-- The entries with other values under their keys. -/
def Mapping.mapValues (value : Value → Value) (m : Mapping) : Mapping :=
  m.map fun entry => (entry.1, value entry.2)

theorem transformEntries_of_alwaysBecomes (named : ∀ entry ∈ bodies, ∃ name, entry.1 = .str name)
    (becomes : ∀ entry ∈ bodies, entry.2.AlwaysBecomes (value entry.2)) (site : Site) (scope : Scope) :
    transformEntries site scope none bodies = pure (bodies.mapValues value) := by
  induction bodies with
  | nil => rfl
  | cons entry rest ih =>
    obtain ⟨⟨name, same⟩, othersNamed⟩ := List.forall_mem_cons.mp named
    obtain ⟨first, others⟩ := List.forall_mem_cons.mp becomes
    have key : transform site scope none entry.1 = pure (some entry.1) := by rw [same, transform]
    rw [transformEntries, key, pure_bind]
    simp only [(first site scope).1, ih othersNamed others, pure_bind]
    rfl

/-- A file with bodies that always become the same is composed to what they become. -/
theorem OpenDocument.compose_of_alwaysBecomes (document : OpenDocument) (scope inherited : Scope)
    (named : ∀ entry ∈ bodies, ∃ name, entry.1 = .str name) (distinct : bodies.Distinct)
    (undivided : bodies.Undivided) (becomes : ∀ entry ∈ bodies, entry.2.AlwaysBecomes (value entry.2)) :
    document.compose scope inherited (.map bodies) = pure (.map (bodies.mapValues value)) := by
  have apart : (bodies.mapValues value).Distinct := List.pairwise_map.mpr distinct
  have keys : ∀ entry ∈ bodies.mapValues value, ∃ old ∈ bodies, old.1 = entry.1 := by
    intro entry member
    obtain ⟨old, among, rfl⟩ := List.mem_map.mp member
    exact ⟨old, among, rfl⟩
  have resolved (site : Site) : site.resolveMergeKey (bodies.mapValues value) = pure (bodies.mapValues value) := by
    refine site.resolveMergeKey_of_tagFree fun entry member => ?_
    obtain ⟨old, among, same⟩ := keys entry member
    obtain ⟨name, isText⟩ := named old among
    rw [← same, isText]
    exact Value.tagFree_untagged (.str name)
  have kept : Mapping.withoutHidden (bodies.mapValues value) = bodies.mapValues value := by
    refine Mapping.withoutHidden_of_shown fun entry member name isText => ?_
    obtain ⟨old, among, same⟩ := keys entry member
    exact undivided.noHidden old among name (same.trans isText)
  have transformed : transform (Templates.empty.site document) scope none (.map bodies) = do
      return some (.map (← (pure (bodies.mapValues value) : Run Mapping))) := by
    rw [transform, transformEntries_of_alwaysBecomes named becomes, pure_bind, Mapping.ofList_of_distinct apart,
      resolved]
  rw [document.compose_of_noSection scope inherited undivided.noSection transformed, pure_bind, kept]

end Composed

namespace Templates

/-- The templates with other bodies. -/
def mapBodies (value : Value → Value) (templates : Templates) : Templates :=
  ⟨templates.bodies.map fun entry => (entry.1, value entry.2)⟩

section MapBodies

variable (value : Value → Value) {templates : Templates}

theorem get?_mapBodies (templates : Templates) (name : String) :
    (templates.mapBodies value).get? name = (templates.get? name).map value := by
  obtain ⟨bodies⟩ := templates
  show (bodies.map fun entry => (entry.1, value entry.2)).lookup name = (bodies.lookup name).map value
  induction bodies with
  | nil => rfl
  | cons entry rest ih =>
    rw [List.map_cons, List.lookup_cons, List.lookup_cons, ih]
    split <;> rfl

theorem define_mapBodies (templates : Templates) (name : String) (body : Value) :
    (templates.define name body).mapBodies value = (templates.mapBodies value).define name (value body) := by
  obtain ⟨bodies⟩ := templates
  refine congrArg Templates.mk ?_
  show (bodies.set name body).map _ = Bindings.set (bodies.map _) name (value body)
  induction bodies with
  | nil => rfl
  | cons entry rest ih =>
    simp only [Bindings.set, List.map_cons]
    split
    · rfl
    · rw [List.map_cons, ih]

theorem ofMapping_mapValues (bodies : Mapping) :
    ofMapping (bodies.mapValues value) = (ofMapping bodies).mapBodies value := by
  have each (templates : Templates) :
      (bodies.mapValues value).foldl (fun templates entry => templates.define entry.1.keyText entry.2)
          (templates.mapBodies value) =
        Templates.mapBodies value
          (bodies.foldl (fun templates entry => templates.define entry.1.keyText entry.2) templates) := by
    induction bodies generalizing templates with
    | nil => rfl
    | cons entry rest ih =>
      have later := ih (templates.define entry.1.keyText entry.2)
      rwa [define_mapBodies] at later
  exact each empty

end MapBodies

/-- Templates of the same names, with bodies that come to the same wherever they are transformed without a
pattern. -/
structure Alike (templates others : Templates) : Prop where
  size : templates.size = others.size
  bodies : ∀ name, Option.Rel (fun body other => ∀ site scope,
    transform site scope none body = transform site scope none other) (templates.get? name) (others.get? name)

namespace Alike

variable {templates others : Templates}

theorem instantiateWith (alike : templates.Alike others) (document : OpenDocument) (nested : Option Instantiation) :
    templates.instantiateWith document nested = others.instantiateWith document nested := by
  funext inserting mark arguments scope
  have bodies := alike.bodies arguments.target
  simp only [Templates.instantiateWith]
  generalize templates.get? arguments.target = here at bodies
  generalize others.get? arguments.target = there at bodies
  cases bodies with
  | none => rfl
  | some same => simp only [same]

/-- Bodies that come to the same everywhere make no difference where templates are inserted. -/
theorem siteWithin (alike : templates.Alike others) (document : OpenDocument) (inserting : List String) :
    templates.siteWithin document inserting = others.siteWithin document inserting := by
  have nested (budget : Nat) : templates.nested document budget = others.nested document budget := by
    induction budget with
    | zero => rfl
    | succ budget ih => rw [Templates.nested, Templates.nested, ih, alike.instantiateWith]
  rw [Templates.siteWithin, Templates.siteWithin, alike.size, nested, alike.instantiateWith]

/-- A further template of the same kind changes nothing about that. -/
theorem define (alike : templates.Alike others) (name : String) {body other : Value}
    (same : ∀ site scope, transform site scope none body = transform site scope none other) :
    (templates.define name body).Alike (others.define name other) := by
  refine ⟨?_, fun sought => ?_⟩
  · have known : (templates.get? name).isSome = (others.get? name).isSome := by
      have bodies := alike.bodies name
      generalize templates.get? name = here at bodies
      generalize others.get? name = there at bodies
      cases bodies <;> rfl
    have size (t : Templates) (body : Value) :
        (t.define name body).size = if (t.get? name).isSome then t.size else t.size + 1 :=
      t.bodies.length_set name body
    rw [size, size, known, alike.size]
  · by_cases here : sought = name
    · have found (t : Templates) (body : Value) : (t.define name body).get? sought = some body := by
        rw [here]
        exact t.bodies.get?_set_self name body
      rw [found, found]
      exact .some same
    · have elsewhere (t : Templates) (body : Value) : (t.define name body).get? sought = t.get? sought :=
        Bindings.get?_set_of_ne here t.bodies body
      rw [elsewhere, elsewhere]
      exact alike.bodies sought

theorem mapBodies {value : Value → Value} (same : ∀ name body, templates.get? name = some body → ∀ site scope,
    transform site scope none (value body) = transform site scope none body) :
    (templates.mapBodies value).Alike templates := by
  refine ⟨List.length_map _, fun name => ?_⟩
  rw [get?_mapBodies]
  cases found : templates.get? name with
  | none => exact .none
  | some body => exact .some (same name body found)

end Alike

theorem get?_foldl_define_of_absent {name : String} {entries : Mapping}
    (absent : ∀ entry ∈ entries, entry.1.keyText ≠ name) (templates : Templates) :
    (entries.foldl (fun templates entry => templates.define entry.1.keyText entry.2) templates).get? name =
      templates.get? name := by
  induction entries generalizing templates with
  | nil => rfl
  | cons entry rest ih =>
    obtain ⟨first, others⟩ := List.forall_mem_cons.mp absent
    rw [List.foldl_cons, ih others]
    exact Bindings.get?_set_of_ne first.symm _ _

theorem exists_of_get?_ofMapping {bodies : Mapping} {name : String} {body : Value}
    (known : (ofMapping bodies).get? name = some body) : ∃ entry ∈ bodies, entry.2 = body := by
  have each (templates : Templates)
      (found : Templates.get?
        (bodies.foldl (fun templates entry => templates.define entry.1.keyText entry.2) templates) name =
          some body) :
      templates.get? name = some body ∨ ∃ entry ∈ bodies, entry.2 = body := by
    clear known
    induction bodies generalizing templates with
    | nil => exact .inl found
    | cons entry rest ih =>
      rcases ih _ found with here | ⟨later, among, same⟩
      · by_cases defined : name = entry.1.keyText
        · rw [defined] at here
          have same := (Bindings.get?_set_self templates.bodies entry.1.keyText entry.2).symm.trans here
          exact .inr ⟨entry, List.mem_cons_self, Option.some.inj same⟩
        · exact .inl ((Bindings.get?_set_of_ne defined templates.bodies entry.2).symm.trans here)
      · exact .inr ⟨later, List.mem_cons_of_mem _ among, same⟩
  exact (each empty known).resolve_left nofun

/-- A template has the body that stands under its name. -/
theorem get?_ofMapping {bodies : Mapping} (named : ∀ entry ∈ bodies, ∃ name, entry.1 = .str name)
    (distinct : bodies.Distinct) {name : String} {body : Value} (member : (.str name, body) ∈ bodies) :
    (ofMapping bodies).get? name = some body := by
  obtain ⟨before, after, rfl⟩ := List.append_of_mem member
  have apart := (List.pairwise_cons.mp (List.pairwise_append.mp distinct).2.1).1
  have absent : ∀ entry ∈ after, entry.1.keyText ≠ name := by
    intro entry later
    obtain ⟨other, same⟩ := named entry (List.mem_append_right _ (List.mem_cons_of_mem _ later))
    have different := apart entry later
    rw [same] at different ⊢
    intro (equal : other = name)
    rw [equal, Value.str_beq_iff.mpr rfl] at different
    cases different
  rw [ofMapping, List.foldl_append, List.foldl_cons, get?_foldl_define_of_absent absent]
  exact Bindings.get?_set_self _ _ _

end Templates

namespace World

/-- Ways to give the bodies of templates in a file: as they are, by an alias, or by the inclusion of another file
that has them. There nothing may depend on where the bodies are transformed, for they are when the file is
composed. -/
inductive Declares (world : World) (stack : List Path) (file : Path) (bodies : Mapping) : Value → Prop
  | inline : Declares world stack file bodies (.map bodies)
  | aliased {mark : Nat} {declared : Value} : Declares world stack file bodies declared →
      Declares world stack file bodies (.tagged .alias mark declared)
  | included {mark : Nat} {payload : Value} {name : String} {target : Path} {value : Value → Value} :
      payload.TagFree → payload.KeysDistinct → Arguments.ofPayload? "file" payload = some ⟨name, []⟩ →
      world.files.canonical (world.settings.locate file name) = .ok target → stack.any (target == ·) = false →
      world.Contains target (.map bodies) → Mapping.Undivided bodies →
      (∀ entry ∈ bodies, entry.2.AlwaysBecomes (value entry.2)) →
      Declares world stack file bodies (.tagged .inclusion mark payload)

variable {world : World} {stack : List Path} {file : Path} {bodies : Mapping}

theorem inclusion_of_alwaysBecomes {target : Path} {name : String} {value : Value → Value}
    (leads : world.files.canonical (world.settings.locate file name) = .ok target)
    (outside : stack.any (target == ·) = false) (contains : world.Contains target (.map bodies))
    (named : ∀ entry ∈ bodies, ∃ name, entry.1 = .str name) (undivided : Mapping.Undivided bodies)
    (becomes : ∀ entry ∈ bodies, entry.2.AlwaysBecomes (value entry.2)) (budget : Nat) (lines : LineIndex)
    (mark : Nat) (scope : Scope) :
    world.inclusion (world.nested (budget + 1)) stack file lines mark ⟨name, []⟩ scope =
      ⟨[.included target, .opened target], .ok (.map (bodies.mapValues value))⟩ := by
  have distinct := (Value.everyMapping_map_iff.mp contains.keysDistinct).1
  obtain ⟨text, read, parsed⟩ := contains
  have composed (stack : List Path) (inherited : Scope) :
      world.composeWith (world.nested budget) stack target inherited =
        ⟨[.opened target], .ok (.map (bodies.mapValues value))⟩ := by
    rw [composeWith, Traced.bind_of_ok read, parsed, world.trace_readText]
    simp only [OpenDocument.compose_of_alwaysBecomes _ _ _ named distinct undivided becomes, Traced.pure_def,
      List.append_nil]
  simp only [inclusion, leads, outside, nested, composed]
  rfl

/-- However templates are given, an insertion of one of them is the same, and no warning comes of giving them. -/
theorem Declares.ofSection {declared : Value} (declares : world.Declares stack file bodies declared)
    (named : ∀ entry ∈ bodies, ∃ name, entry.1 = .str name) (budget : Nat) (text : String) (scope : Scope) :
    let document := world.document (world.nested (budget + 1)) stack file text
    ∃ (effects : List Effect) (templates : Templates), effects.filterMap Effect.warning? = [] ∧
      Templates.ofSection document scope declared = ⟨effects, .ok templates⟩ ∧
      (∀ name, (templates.get? name).isSome = ((Templates.ofMapping bodies).get? name).isSome) ∧
      ∀ inserting, templates.siteWithin document inserting =
        (Templates.ofMapping bodies).siteWithin document inserting := by
  intro document
  induction declares with
  | inline => exact ⟨[], Templates.ofMapping bodies, rfl, rfl, fun _ => rfl, fun _ => rfl⟩
  | aliased _ ih => exact ih
  | @included mark payload name target value free distinct asks leads outside contains undivided becomes =>
    refine ⟨[.included target, .opened target], (Templates.ofMapping bodies).mapBodies value, rfl, ?_, ?_, ?_⟩
    · have included : (Templates.empty.site document).inclusion mark ⟨name, []⟩ scope =
          ⟨[.included target, .opened target], .ok (.map (bodies.mapValues value))⟩ :=
        inclusion_of_alwaysBecomes leads outside contains named undivided becomes budget _ mark scope
      simp only [Templates.ofSection, Value.unaliased, transform, transform_of_tagFree _ _ free distinct, pure_bind,
        Option.getD_some, asks, included, ← Templates.ofMapping_mapValues]
      rfl
    · intro name
      rw [Templates.get?_mapBodies, Option.isSome_map]
    · refine (Templates.Alike.mapBodies fun name body found site scope => ?_).siteWithin document
      obtain ⟨entry, among, rfl⟩ := Templates.exists_of_get?_ofMapping found
      obtain ⟨once, again⟩ := becomes entry among site scope
      rw [once, again]

/-- Templates are bound late, whether they are given as they are, by an alias, or by the inclusion of a file in
which nothing depends on where it is transformed: any document is composed to the same value with the same
warnings, and to insert a template is to transform its body as it is written, in the scope of the place with
further variables. -/
theorem compose_of_declares {declared : Value} (declares : world.Declares stack file bodies declared)
    (named : ∀ entry ∈ bodies, ∃ name, entry.1 = .str name) (distinct : bodies.Distinct) (budget : Nat)
    (text : String) :
    let document := world.document (world.nested (budget + 1)) stack file text
    (∀ scope inherited (entries : Mapping),
      let run := document.compose scope inherited (.map (entries.insert (.str "templates") declared))
      let inline := document.compose scope inherited (.map (entries.insert (.str "templates") (.map bodies)))
      run.result = inline.result ∧ run.trace.filterMap Effect.warning? = inline.trace.filterMap Effect.warning?) ∧
    ∀ own, ∃ templates : Templates, (Templates.ofSection document own declared).result = .ok templates ∧
      ∀ name body, (Value.str name, body) ∈ bodies → ∀ inserting : List String, inserting.Nodup →
        (∀ other ∈ inserting, (templates.get? other).isSome) → name ∉ inserting → ∀ mark vars scope,
        (templates.siteWithin document inserting).insertion mark ⟨name, vars⟩ scope = (do
          document.warnAll (scope.overlay vars).2
          transform (templates.siteWithin document (inserting ++ [name])) (scope.overlay vars).1 none body) := by
  intro document
  refine ⟨fun scope inherited entries => ?_, fun own => ?_⟩
  · intro run inline
    cases own : (document.ownScope scope inherited entries).result with
    | error e =>
      simp only [run, inline, document.compose_insert_templates, Traced.bind_of_error own, and_self]
    | ok here =>
      obtain ⟨effects, templates, silent, given, _, sites⟩ := declares.ofSection named budget text here
      have direct : Templates.ofSection document here (.map bodies) = pure (Templates.ofMapping bodies) := rfl
      have among : document.composeAmong templates here entries =
          document.composeAmong (Templates.ofMapping bodies) here entries := by
        have site : templates.site document = (Templates.ofMapping bodies).site document := sites []
        rw [OpenDocument.composeAmong, OpenDocument.composeAmong, site]
      simp only [run, inline, document.compose_insert_templates, Traced.bind_of_ok own, direct, pure_bind]
      rw [given]
      simp only [Traced.bind_ok, List.filterMap_append, silent, List.nil_append, among, and_self]
  · obtain ⟨effects, templates, _, given, known, sites⟩ := declares.ofSection named budget text own
    refine ⟨templates, by rw [given], ?_⟩
    intro name body member inserting distinctNames inside fresh mark vars scope
    rw [sites, sites]
    refine Templates.insertion_siteWithin distinctNames (fun other among => ?_)
      (Templates.get?_ofMapping named distinct member) fresh mark vars scope
    rw [← known, inside other among]

/-- A template in a file of its own that is inserted with a variable, which nothing in it is to be replaced by. -/
theorem compose_of_declares_included :
    let world : World :=
      ⟨⟨[(["t"], .file "t: !nosub [\"${ v }\"]\n".toUTF8.toList (.change 0))], [], 1⟩, .empty, [], .ofRoot ⟨"/"⟩⟩
    let document := world.document (world.nested 1) [⟨"/main"⟩] ⟨"/main"⟩ ""
    let body : Value := .tagged .nosub 10 (.seq [.str "${ v }"])
    let insertion : Value := .tagged .insertion 0 (.str "t?v=1")
    let included : Mapping := [(.str "templates", .tagged .inclusion 0 (.str "t")), (.str "x", insertion)]
    let inline : Mapping := [(.str "templates", .map [(.str "t", body)]), (.str "x", insertion)]
    ∀ scope inherited, (document.compose scope inherited (.map included)).result =
      (document.compose scope inherited (.map inline)).result := by
  intro world document body insertion included inline scope inherited
  let bodies : Mapping := [(.str "t", body)]
  have contains : world.Contains ⟨"/t"⟩ (.map bodies) :=
    ⟨_, ok_of_toOption (show _ = some "t: !nosub [\"${ v }\"]\n" by decide +kernel),
      Yaml.parse?_of_isExactly (by decide +kernel)⟩
  let value (_ : Value) : Value := .seq [.str "${ v }"]
  have becomes : ∀ entry ∈ bodies, entry.2.AlwaysBecomes (value entry.2) := by
    refine List.forall_mem_singleton.mpr fun site scope => ?_
    simp only [body, value, transform, transformItems, pure_bind]
    exact ⟨rfl, rfl⟩
  have declares : world.Declares [⟨"/main"⟩] ⟨"/main"⟩ bodies (.tagged .inclusion 0 (.str "t")) :=
    .included (Value.tagFree_untagged (.str "t")) (Value.everyMapping_str _ "t") rfl
      (Path.ok_of_text (by decide +kernel)) (by decide +kernel) contains ⟨by decide, by simp [bodies]⟩
      becomes
  have distinct := (Value.everyMapping_map_iff.mp contains.keysDistinct).1
  exact ((compose_of_declares declares (by simp [bodies]) distinct 0 "").1 scope inherited
    [(.str "templates", .null), (.str "x", insertion)]).1

/-- A body in another file is evaluated when the templates are loaded, and not where it is inserted. -/
theorem load_includedBody :
    let world (main : String) : World :=
      ⟨⟨[(["main"], .file main.toUTF8.toList (.change 0)),
        (["t"], .file "t: !sub ${ v }\n".toUTF8.toList (.change 1))], [], 2⟩, .empty, [], .ofRoot ⟨"/"⟩⟩
    ((world "templates: !include t\nx: !insert t?v=1\n").load ⟨"/main"⟩).result = .ok (.map [(.str "x", .null)]) ∧
      ((world "templates:\n  t: !sub ${ v }\nx: !insert t?v=1\n").load ⟨"/main"⟩).result =
        .ok (.map [(.str "x", .int 1)]) := by
  intro world
  exact ⟨ok_of_isExactly (by decide +kernel), ok_of_isExactly (by decide +kernel)⟩

end World

end ConfigWeave
