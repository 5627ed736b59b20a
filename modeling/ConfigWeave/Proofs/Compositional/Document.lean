import ConfigWeave.Proofs.Compositional.Transform
import ConfigWeave.Proofs.DocumentStages

namespace ConfigWeave

theorem World.trace_readText (world : World) (file : Path) : (world.readText file).trace = [.opened file] := by
  unfold World.readText
  split
  · rfl
  · split <;> rfl

namespace Regime

variable {ι : Type} {R : Regime ι}

theorem Declares.defineAll (declares : R.Declares) {scopes : ι → Scope} (together : R.Together scopes)
    {vars : Bindings} (held : ∀ entry ∈ vars, R.Held entry.2) :
    R.Together fun i => ((scopes i).defineAll vars).1 := by
  induction vars generalizing scopes with
  | nil => exact together
  | cons entry rest ih =>
    obtain ⟨first, later⟩ := List.forall_mem_cons.mp held
    exact ih (declares entry.1 together first) later

end Regime

namespace RunLogic

variable {ι : Type} {L : RunLogic ι} {R : Regime ι} {document : ι → OpenDocument} {site : ι → Site}
  {scopes : ι → Scope}

/-- An instance of a template has the property if those have it that its body may ask for. They stand within
one more template, which is known and not yet around them. -/
theorem Documents.instantiateWith (documents : L.Documents R document) {templates : Templates}
    (bodies : R.Bodies templates) {nested : ι → Option Templates.Instantiation} (inserting : List String)
    (mark : Nat) {arguments : Arguments} (given : R.Given arguments) (together : R.Together scopes)
    (within : (templates.get? arguments.target).isSome → arguments.target ∉ inserting →
      (∀ i, nested i = none) ∨ ∃ instantiate : ι → Templates.Instantiation,
        (∀ i, nested i = some (instantiate i)) ∧ ∀ mark inner scopes, R.Given inner → R.Together scopes →
          L.Ensures R.Outcome fun i => instantiate i (inserting ++ [arguments.target]) mark inner (scopes i)) :
    L.Ensures R.Outcome fun i =>
      templates.instantiateWith (document i) (nested i) inserting mark arguments (scopes i) := by
  obtain ⟨location, same⟩ := documents.locate_eq mark
  simp only [Templates.instantiateWith, same]
  cases known : templates.get? arguments.target with
  | none => exact .bind (documents.warnAt _ _) fun _ _ => .pure .none
  | some body =>
    dsimp only
    split
    · exact .fail _
    · rename_i fresh
      rcases within (by rw [known]; rfl) fresh with absent | ⟨instantiate, present, ensures⟩
      · simp only [absent]
        exact .fail _
      · simp only [present, fun i => (scopes i).overlay_refused .empty arguments.vars]
        refine .bind (documents.warnAll _) fun _ _ => ?_
        exact Sites.transform ⟨documents, ensures⟩ (R.overlaid together given) (absurd rfl) body
          (bodies _ body known)

theorem Documents.instantiate (documents : L.Documents R document) {templates : Templates}
    (bodies : R.Bodies templates) (budget : Nat) (inserting : List String) (mark : Nat) {arguments : Arguments}
    (given : R.Given arguments) (together : R.Together scopes) :
    L.Ensures R.Outcome fun i => templates.instantiateWith (document i) (templates.nested (document i) budget)
      inserting mark arguments (scopes i) := by
  induction budget generalizing inserting mark arguments scopes with
  | zero => exact documents.instantiateWith bodies _ _ given together fun _ _ => .inl fun _ => rfl
  | succ budget ih =>
    exact documents.instantiateWith bodies _ _ given together fun _ _ =>
      .inr ⟨_, fun _ => rfl, fun _ _ _ given together => ih _ _ given together⟩

theorem Documents.sites (documents : L.Documents R document) {templates : Templates} (bodies : R.Bodies templates) :
    L.Sites R fun i => templates.site (document i) :=
  ⟨documents, fun _ _ _ given together => documents.instantiate bodies _ _ _ given together⟩

theorem Sites.defineTagged (sites : L.Sites R site) (together : R.Together scopes) (reads : R.Reads) (p : Pattern)
    (name : Option String) (mark : Nat) {templates : Templates} (bodies : R.Bodies templates)
    (entries : List (Value × Value)) (written : ∀ entry ∈ entries, R.WrittenKey entry.1 ∧ R.Written entry.2) :
    L.Ensures R.Bodies fun i =>
      Templates.defineTagged (site i) (scopes i) p (.sub name) mark templates entries := by
  induction entries generalizing templates with
  | nil => exact .pure bodies
  | cons entry rest ih =>
    obtain ⟨⟨writtenKey, writtenBody⟩, others⟩ := List.forall_mem_cons.mp written
    simp only [Templates.defineTagged]
    refine .bind (sites.transformKey together (fun _ => reads) entry.1 writtenKey) fun name _ => ?_
    cases name with
    | none => exact ih bodies others
    | some name => exact ih (bodies.define _ (R.below reads writtenBody)) others

/-- Whatever has a value of some kind only warns where it is none of that kind. -/
theorem Documents.templates (documents : L.Documents R document) (together : R.Together scopes)
    {declared : Value} (written : R.Written declared) :
    L.Ensures R.Bodies fun i => Templates.ofSection (document i) (scopes i) declared := by
  have sites := documents.sites Regime.bodies_empty
  have invalid (v : Value) : L.Ensures R.Bodies fun i => do
      (document i).warn s!"The 'templates' section must be a mapping, got {v.typeName}"
      return Templates.empty :=
    .bind (documents.warn _) fun _ _ => .pure Regime.bodies_empty
  have unaliased := Regime.unaliased written
  unfold Templates.ofSection
  split
  · exact .pure Regime.bodies_empty
  · rename_i entries same
    rw [same] at unaliased
    exact .pure (Regime.bodies_ofMapping fun entry member => (R.writtenEntries unaliased entry member).2)
  · rename_i name mark entries same
    rw [same] at unaliased
    have each := R.writtenEntries (R.payload unaliased (by simp) (by simp))
    have reads := R.substituted unaliased
    exact .bind (sites.pattern together reads _) fun p _ =>
      sites.defineTagged together reads p _ _ Regime.bodies_empty _ each
  · rename_i mark payload same
    rw [same] at unaliased
    refine .bind (sites.transform together (absurd rfl) _ unaliased) fun v outcome => ?_
    split
    · rename_i entries
      refine .pure (Regime.bodies_ofMapping fun entry member => ?_)
      exact R.written (R.entries (outcome _ rfl) entry member).2
    · exact .pure Regime.bodies_empty
    · exact .pure Regime.bodies_empty
    · exact invalid _
  · exact invalid _
  · exact invalid _

/-- The entries of a section may ask for variables only if they have a pattern for placeholders. -/
theorem Documents.sectionEntries (documents : L.Documents R document) (together : R.Together scopes)
    {declared : Value} (written : R.Written declared) :
    L.Ensures (fun section_ => (section_.1 ≠ none → R.Reads) ∧ ∀ entry ∈ section_.2, R.Written entry.2) fun i =>
      (scopes i).sectionEntries (document i) declared := by
  have sites := documents.sites Regime.bodies_empty
  have none : ((none : Option Pattern) ≠ none → R.Reads) ∧ ∀ entry ∈ ([] : List (Value × Value)),
    R.Written entry.2 :=
    ⟨absurd rfl, by simp⟩
  have invalid (v : Value) : L.Ensures
      (fun section_ : Option Pattern × List (Value × Value) =>
        (section_.1 ≠ Option.none → R.Reads) ∧ ∀ entry ∈ section_.2, R.Written entry.2) fun i => do
      (document i).warn s!"The 'variables' section must be a mapping, got {v.typeName}"
      return (Option.none, []) :=
    .bind (documents.warn _) fun _ _ => .pure none
  have unaliased := Regime.unaliased written
  unfold Scope.sectionEntries
  split
  · exact .pure none
  · rename_i entries same
    rw [same] at unaliased
    exact .pure ⟨absurd rfl, fun entry member => (R.writtenEntries unaliased entry member).2⟩
  · rename_i name mark entries same
    rw [same] at unaliased
    have each := R.writtenEntries (R.payload unaliased (by simp) (by simp))
    have reads := R.substituted unaliased
    exact .bind (sites.pattern together reads _) fun p _ =>
      .pure ⟨fun _ => reads, fun entry member => (each entry member).2⟩
  · rename_i mark payload same
    rw [same] at unaliased
    refine .bind (sites.transform together (absurd rfl) _ unaliased) fun v outcome => ?_
    split
    · exact .pure ⟨absurd rfl, fun entry member => R.written (R.entries (outcome _ rfl) entry member).2⟩
    · exact .pure none
    · exact .pure none
    · exact invalid _
  · exact invalid _
  · exact invalid _

theorem Documents.declarations (documents : L.Documents R document) (declares : R.Declares) {sub : Option Pattern}
    (reads : sub ≠ none → R.Reads) (isProtected : String → Bool) (together : R.Together scopes)
    (entries : List (Value × Value)) (written : ∀ entry ∈ entries, R.Written entry.2) :
    L.Ensures (fun declared => ∀ entry ∈ declared, R.Held entry.2) fun i =>
      (scopes i).declarations (document i) sub isProtected entries := by
  induction entries generalizing scopes with
  | nil => exact .pure (by simp)
  | cons entry rest ih =>
    obtain ⟨first, others⟩ := List.forall_mem_cons.mp written
    simp only [Scope.declarations]
    split
    · exact ih together others
    · have sites := documents.sites Regime.bodies_empty
      refine .bind (sites.transform together reads entry.2 first) fun value outcome => ?_
      have held := R.held outcome.orNull
      have later := ih (declares entry.1.keyText together held) others
      split
      · exact .bind (documents.warn _) fun _ _ => .bind later fun _ others =>
          .pure (List.forall_mem_cons.mpr ⟨held, others⟩)
      · exact .bind later fun _ others => .pure (List.forall_mem_cons.mpr ⟨held, others⟩)

theorem Sites.mergeEach (sites : L.Sites R site) (together : R.Together scopes) {sub : Option Pattern}
    (reads : sub ≠ none → R.Reads)
    {root : Mapping} (composed : R.Composed (.map root)) (packages : List (Value × Value))
    (written : ∀ entry ∈ packages, R.WrittenKey entry.1 ∧ R.Written entry.2) :
    L.Ensures (fun tree : Mapping => R.Composed (.map tree)) fun i =>
      ConfigWeave.mergeEach (site i) (scopes i) sub root packages := by
  induction packages generalizing root with
  | nil => exact .pure composed
  | cons entry rest ih =>
    obtain ⟨⟨writtenKey, writtenBody⟩, others⟩ := List.forall_mem_cons.mp written
    simp only [ConfigWeave.mergeEach]
    refine .bind (sites.transformKey together reads entry.1 writtenKey) fun key _ => ?_
    cases key with
    | none => exact ih composed others
    | some key =>
      refine .bind (sites.transform (R.packaged together) reads entry.2 writtenBody) fun package outcome => ?_
      split
      · exact ih (R.deepMerge composed (outcome _ rfl)) others
      · exact ih composed others
      · exact ih composed others
      · exact .bind (sites.documents.warn _) fun _ _ => ih composed others

theorem Sites.declaredPackages (sites : L.Sites R site) (together : R.Together scopes) {declared : Value}
    (written : R.Written declared) :
    L.Ensures (fun packages => R.Written packages.1 ∧ (packages.2 ≠ none → R.Reads)) fun i =>
      ConfigWeave.declaredPackages (site i) (scopes i) declared := by
  have unaliased := Regime.unaliased written
  unfold ConfigWeave.declaredPackages
  split
  · rename_i name mark entries same
    rw [same] at unaliased
    have reads := R.substituted unaliased
    exact .bind (sites.pattern together reads _) fun _ _ =>
      .pure ⟨R.payload unaliased (by simp) (by simp), fun _ => reads⟩
  · rename_i mark entries same
    rw [same] at unaliased
    exact .pure ⟨R.payload unaliased (by simp) (by simp), absurd rfl⟩
  · rename_i tag mark payload _ _ same
    rw [same] at unaliased
    exact .bind (sites.transform together (absurd rfl) _ unaliased) fun _ outcome =>
      .pure ⟨R.written outcome.orNull, absurd rfl⟩
  · exact .pure ⟨unaliased, absurd rfl⟩

theorem Sites.mergePackages (sites : L.Sites R site) (together : R.Together scopes) {root : Mapping}
    (composed : R.Composed (.map root)) {declared : Value} (written : R.Written declared) :
    L.Ensures (fun tree : Mapping => R.Composed (.map tree)) fun i =>
      ConfigWeave.mergePackages (site i) (scopes i) root declared := by
  unfold ConfigWeave.mergePackages
  refine .bind (sites.declaredPackages together written) ?_
  rintro ⟨packages, sub⟩ ⟨writtenPackages, reads⟩
  dsimp only at writtenPackages reads ⊢
  split
  · exact .pure composed
  · exact sites.mergeEach together reads composed _ (R.writtenEntries writtenPackages)
  · exact .bind (sites.documents.warn _) fun _ _ => .pure composed

theorem Sites.withPackages (sites : L.Sites R site) (together : R.Together scopes) {tree entries : Mapping}
    (composed : R.Composed (.map tree)) (written : R.Written (.map entries)) :
    L.Ensures (fun tree : Mapping => R.Composed (.map tree)) fun i =>
      (site i).withPackages (scopes i) tree entries := by
  unfold Site.withPackages
  split
  · rename_i declared found
    exact sites.mergePackages together composed (Regime.written_of_get? written found)
  · exact .pure composed

theorem Documents.ownEntries (documents : L.Documents R document) (together : R.Together scopes) {entries : Mapping}
    (written : R.Written (.map entries)) :
    L.Ensures (fun section_ => (section_.1 ≠ none → R.Reads) ∧ ∀ entry ∈ section_.2, R.Written entry.2) fun i =>
      (document i).ownEntries (scopes i) entries := by
  unfold OpenDocument.ownEntries
  split
  · rename_i declared found
    exact documents.sectionEntries together (Regime.written_of_get? written found)
  · exact .pure ⟨absurd rfl, by simp⟩

theorem Documents.ownTemplates (documents : L.Documents R document) (together : R.Together scopes)
    {entries : Mapping} (written : R.Written (.map entries)) :
    L.Ensures R.Bodies fun i => (document i).ownTemplates (scopes i) entries := by
  unfold OpenDocument.ownTemplates
  split
  · rename_i declared found
    exact documents.templates together (Regime.written_of_get? written found)
  · exact .pure Regime.bodies_empty

theorem Documents.composeTree (documents : L.Documents R document) (together : R.Together scopes) {content : Value}
    (written : R.Written content) : L.Ensures R.Composed fun i => (document i).composeTree (scopes i) content := by
  unfold OpenDocument.composeTree
  split
  · refine .bind (documents.ownTemplates together written) fun templates bodies => ?_
    have sites := documents.sites bodies
    refine .bind (sites.transform together (absurd rfl) _ (R.withoutSections written)) fun tree outcome => ?_
    split
    · exact .bind (sites.withPackages together (outcome _ rfl) written) fun _ composed =>
        .pure (R.withoutHidden composed)
    · exact .pure outcome.orNull
  · exact .bind ((documents.sites Regime.bodies_empty).transform together (absurd rfl) _ written) fun _ outcome =>
      .pure outcome.orNull

/-- The composition of a document follows from that of what it includes, if the same names are protected. -/
theorem Documents.compose (documents : L.Documents R document) (declares : R.Declares)
    (together : R.Together scopes) {inherited : ι → Scope} {isProtected : String → Bool}
    (protects : ∀ i, (inherited i).contains = isProtected) {content : Value} (written : R.Written content) :
    L.Ensures R.Composed fun i => (document i).compose (scopes i) (inherited i) content := by
  simp only [OpenDocument.compose_eq]
  unfold OpenDocument.treeScope
  split
  · simp only [OpenDocument.ownScope_eq, bind_assoc, pure_bind, protects]
    refine .bind (documents.ownEntries together written) fun section_ ⟨reads, own⟩ => ?_
    refine .bind (documents.declarations declares reads isProtected together _ own) fun declared held => ?_
    exact documents.composeTree (declares.defineAll together held) written
  · simp only [pure_bind]
    exact documents.composeTree together written

variable {world : ι → World}

/-- What is done about an included file, in worlds of the same settings in which paths lead to the same places,
follows from what is done when the file is reported and composed. -/
theorem inclusion (settings : ∃ settings, ∀ i, (world i).settings = settings)
    (canonical : ∀ path, ∃ found, ∀ i, (world i).files.canonical path = found) {nested : ι → Option Composition}
    (stack : List Path) (file : Path) (lines : LineIndex) (mark : Nat) {arguments : Arguments}
    (within : ∀ target, (∃ path, ∀ i, (world i).files.canonical path = .ok target) →
      (∀ around ∈ stack, (target == around) = false) →
      (∀ i, nested i = none) ∨ ∃ compose : ι → Composition, (∀ i, nested i = some (compose i)) ∧
        ∀ messages : List String, L.Ensures R.Composed fun i => do
          Traced.report (Effect.included target)
          Traced.reportAll (messages.map (.warned file))
          compose i (stack ++ [target]) target ((scopes i).inherit arguments.vars).1) :
    L.Ensures R.Composed fun i => (world i).inclusion (nested i) stack file lines mark arguments (scopes i) := by
  obtain ⟨settings, sameSettings⟩ := settings
  obtain ⟨found, sameFound⟩ := canonical (settings.locate file arguments.target)
  simp only [World.inclusion, sameSettings, sameFound]
  cases found with
  | error cause => exact .fail _
  | ok target =>
    dsimp only
    split
    · exact .fail _
    · rename_i absent
      have fresh : ∀ around ∈ stack, (target == around) = false := fun around member => by
        simpa using fun equal => absent (List.any_eq_true.mpr ⟨around, member, equal⟩)
      rcases within target ⟨_, sameFound⟩ fresh with none | ⟨compose, some, ensures⟩
      · simp only [none]
        exact .fail _
      · simp only [some, fun i => (scopes i).inherit_refused .empty arguments.vars]
        exact ensures _

/-- What is done about a file follows from how it is read and from what it includes. The stacks may differ. -/
theorem composeWith {nested : ι → Option Composition} {stack : ι → List Path} {file : Path} (declares : R.Declares)
    {given : ι → Scope} (together : R.Together fun i => ((world i).builtins file).extend (given i))
    {isProtected : String → Bool} (protects : ∀ i, (given i).contains = isProtected)
    (reading : L.Ensures (fun text => ∀ content, Yaml.parse? text = some content → R.Written content) fun i =>
      (world i).readText file)
    (including : ∀ lines mark arguments scopes, R.Given arguments → R.Together scopes →
      L.Ensures R.Composed fun i => (world i).inclusion (nested i) (stack i) file lines mark arguments (scopes i)) :
    L.Ensures R.Composed fun i => (world i).composeWith (nested i) (stack i) file (given i) := by
  simp only [World.composeWith]
  refine .bind reading fun text written => ?_
  split
  · exact .fail _
  · rename_i content parsed
    have documents : L.Documents R fun i => (world i).document (nested i) (stack i) file text :=
      ⟨⟨_, fun _ => rfl⟩, ⟨_, fun _ => rfl⟩, including _⟩
    exact documents.compose declares together protects (written content parsed)

end RunLogic

namespace Compositional

variable {ι : Type} {P : Compositional ι} {Q : Quality} {document : ι → OpenDocument} {site : ι → Site}

/-- An instance of a template has the property if those have it that its body may ask for. They stand within
one more template, which is known and not yet around them. -/
theorem Documents.instantiateWith (documents : P.Documents Q document) {templates : Templates}
    (bodies : Q.Bodies templates) {nested : ι → Option Templates.Instantiation} (inserting : List String)
    (mark : Nat) {arguments : Arguments} (given : Q.Given arguments) {scope : Scope} (sound : Q.Sound scope)
    (within : (templates.get? arguments.target).isSome → arguments.target ∉ inserting →
      (∀ i, nested i = none) ∨ ∃ instantiate : ι → Templates.Instantiation,
        (∀ i, nested i = some (instantiate i)) ∧ ∀ mark inner scope, Q.Given inner → Q.Sound scope →
          P.Ensures Q.Outcome fun i => instantiate i (inserting ++ [arguments.target]) mark inner scope) :
    P.Ensures Q.Outcome fun i =>
      templates.instantiateWith (document i) (nested i) inserting mark arguments scope := by
  refine documents.logic.instantiateWith bodies inserting mark given (Quality.together_regime sound) ?_
  intro found fresh
  refine (within found fresh).imp_right fun ⟨instantiate, same, ensures⟩ => ⟨instantiate, same, ?_⟩
  rintro mark inner scopes given ⟨scope, same, sound⟩
  simp only [same]
  exact ensures mark inner scope given sound

theorem Documents.instantiate (documents : P.Documents Q document) {templates : Templates}
    (bodies : Q.Bodies templates) (budget : Nat) (inserting : List String) (mark : Nat) {arguments : Arguments}
    (given : Q.Given arguments) {scope : Scope} (sound : Q.Sound scope) :
    P.Ensures Q.Outcome fun i => templates.instantiateWith (document i) (templates.nested (document i) budget)
      inserting mark arguments scope :=
  documents.logic.instantiate bodies budget inserting mark given (Quality.together_regime sound)

theorem Documents.sites (documents : P.Documents Q document) {templates : Templates} (bodies : Q.Bodies templates) :
    P.Sites Q fun i => templates.site (document i) :=
  ⟨documents, fun _ _ _ given sound => documents.instantiate bodies _ _ _ given sound⟩

theorem Documents.ownTemplates (documents : P.Documents Q document) {scope : Scope} (sound : Q.Sound scope)
    {entries : Mapping} (written : Q.Written (.map entries)) :
    P.Ensures Q.Bodies fun i => (document i).ownTemplates scope entries :=
  documents.logic.ownTemplates (Quality.together_regime sound) written

/-- The composition of a document has the property as soon as what it includes has it. -/
theorem Documents.compose (documents : P.Documents Q document) {scope : Scope} (sound : Q.Sound scope)
    (inherited : Scope) {content : Value} (written : Q.Written content) :
    P.Ensures Q.Composed fun i => (document i).compose scope inherited content :=
  documents.logic.compose (Quality.declares_regime ι) (Quality.together_regime sound) (fun _ => rfl) written

/-- Worlds of the same settings and environment in which paths lead to the same places. -/
structure Worlds (world : ι → World) : Prop where
  settings : ∃ settings, ∀ i, (world i).settings = settings
  environment : ∃ environment, ∀ i, (world i).environment = environment
  canonical : ∀ path, ∃ found, ∀ i, (world i).files.canonical path = found

theorem Worlds.same (world : World) : Worlds fun _ : ι => world :=
  ⟨⟨_, fun _ => rfl⟩, ⟨_, fun _ => rfl⟩, fun _ => ⟨_, fun _ => rfl⟩⟩

variable {world : ι → World}

theorem Worlds.builtins (worlds : Worlds world) (file : Path) : ∃ scope, ∀ i, (world i).builtins file = scope := by
  obtain ⟨settings, sameSettings⟩ := worlds.settings
  obtain ⟨environment, sameEnvironment⟩ := worlds.environment
  obtain ⟨found, sameFound⟩ := worlds.canonical settings.root
  exact ⟨Scope.builtin file settings.root (found.toOption.getD settings.root) environment, fun i => by
    simp only [World.builtins, sameSettings, sameEnvironment, sameFound]⟩

/-- What is done about an included file has the property, if it is so when the file is reported and composed. -/
theorem Worlds.ensures_inclusion (worlds : Worlds world) {nested : ι → Option Composition} (stack : List Path)
    (file : Path) (lines : LineIndex) (mark : Nat) {arguments : Arguments} (given : Q.Given arguments)
    {scope : Scope} (sound : Q.Sound scope)
    (within : ∀ target, (∃ path, ∀ i, (world i).files.canonical path = .ok target) →
      (∀ around ∈ stack, (target == around) = false) →
      (∀ i, nested i = none) ∨ ∃ compose : ι → Composition, (∀ i, nested i = some (compose i)) ∧
        ∀ (messages : List String) (inherited : Scope), Q.Sound inherited → P.Ensures Q.Composed fun i => do
          Traced.report (Effect.included target)
          Traced.reportAll (messages.map (.warned file))
          compose i (stack ++ [target]) target inherited) :
    P.Ensures Q.Composed fun i => (world i).inclusion (nested i) stack file lines mark arguments scope := by
  refine RunLogic.inclusion (L := P.logic) (R := Q.regime ι) worlds.settings worlds.canonical stack file lines mark
    fun target found fresh => ?_
  refine (within target found fresh).imp_right fun ⟨compose, same, ensures⟩ => ⟨compose, same, fun messages => ?_⟩
  exact ensures messages _ (Quality.inherit sound given)

theorem Worlds.inclusion (worlds : Worlds world) {nested : ι → Option Composition} (stack : List Path) (file : Path)
    (lines : LineIndex) (mark : Nat) (arguments : Arguments) (scope : Scope)
    (within : ∀ target, (∃ path, ∀ i, (world i).files.canonical path = .ok target) →
      (∀ around ∈ stack, (target == around) = false) →
      (∀ i, nested i = none) ∨ ∃ compose : ι → Composition, (∀ i, nested i = some (compose i)) ∧
        ∀ (messages : List String) (inherited : Scope), P.Holds fun i => do
          Traced.report (Effect.included target)
          Traced.reportAll (messages.map (.warned file))
          compose i (stack ++ [target]) target inherited) :
    P.Holds fun i => (world i).inclusion (nested i) stack file lines mark arguments scope :=
  (worlds.ensures_inclusion (Q := .any) stack file lines mark (fun _ _ => trivial) trivial fun target found fresh =>
    (within target found fresh).imp_right fun ⟨compose, same, holds⟩ =>
      ⟨compose, same, fun messages inherited _ => .of_holds (holds messages inherited)⟩).holds

/-- A composition has the property if its file is read with it and includes others with it. The stacks may
differ. -/
theorem ensures_composeWith {nested : ι → Option Composition} {stack : ι → List Path} {file : Path}
    (builtins : ∃ scope, Q.Sound scope ∧ ∀ i, (world i).builtins file = scope) {inherited : Scope}
    (sound : Q.Sound inherited)
    (reading : P.Ensures (fun text => ∀ content, Yaml.parse? text = some content → Q.Written content) fun i =>
      (world i).readText file)
    (including : ∀ lines mark arguments scope, Q.Given arguments → Q.Sound scope →
      P.Ensures Q.Composed fun i => (world i).inclusion (nested i) (stack i) file lines mark arguments scope) :
    P.Ensures Q.Composed fun i => (world i).composeWith (nested i) (stack i) file inherited := by
  obtain ⟨scope, soundBuiltins, same⟩ := builtins
  refine RunLogic.composeWith (L := P.logic) (R := Q.regime ι) (Quality.declares_regime ι) ?_ (fun _ => rfl)
    reading ?_
  · simp only [same]
    exact Quality.together_regime (Quality.extend soundBuiltins sound)
  · rintro lines mark arguments scopes given ⟨scope, same, sound⟩
    simp only [same]
    exact including lines mark arguments scope given sound

theorem composeWith {nested : ι → Option Composition} {stack : ι → List Path} {file : Path}
    (builtins : ∃ scope, ∀ i, (world i).builtins file = scope) (inherited : Scope)
    (reading : P.Holds fun i => (world i).readText file)
    (including : ∀ lines mark arguments scope,
      P.Holds fun i => (world i).inclusion (nested i) (stack i) file lines mark arguments scope) :
    P.Holds fun i => (world i).composeWith (nested i) (stack i) file inherited :=
  (ensures_composeWith (Q := .any) (builtins.imp fun _ same => ⟨trivial, same⟩) trivial
    ((Ensures.of_holds reading).mono fun _ _ _ _ => trivial)
    fun lines mark arguments scope _ _ => .of_holds (including lines mark arguments scope)).holds

/-- Compositions within any depth have a property if files are read with it, and reported with it. `Q` is what
is known of a stack and of the file on top of it. The induction is on the depth that is left. -/
theorem Worlds.nested (worlds : Worlds world) {Q : List Path → Path → Prop}
    (reading : ∀ stack file, Q stack file → P.Holds fun i => (world i).readText file)
    (reporting : ∀ stack file target (rest : ι → Run Value), Q stack file →
      (∃ path, ∀ i, (world i).files.canonical path = .ok target) → (∀ around ∈ stack, (target == around) = false) →
      (Q (stack ++ [target]) target → P.Holds rest) →
      P.Holds fun i => do Traced.report (Effect.included target); rest i)
    (budget : Nat) {stack : List Path} {file : Path} (inherited : Scope) (start : Q stack file) :
    P.Holds fun i => (world i).composeWith ((world i).nested budget) stack file inherited := by
  induction budget generalizing stack file inherited with
  | zero =>
    refine composeWith (worlds.builtins file) inherited (reading stack file start) ?_
    intro lines mark arguments scope
    exact worlds.inclusion stack file lines mark arguments scope fun _ _ _ => .inl fun _ => rfl
  | succ budget ih =>
    refine composeWith (worlds.builtins file) inherited (reading stack file start) ?_
    intro lines mark arguments scope
    refine worlds.inclusion stack file lines mark arguments scope fun target found fresh => ?_
    refine .inr ⟨_, fun _ => rfl, fun messages inherited => ?_⟩
    exact reporting stack file target _ start found fresh fun deeper => P.bind (P.warned _ _) fun _ =>
      ih inherited deeper

end Compositional

end ConfigWeave
