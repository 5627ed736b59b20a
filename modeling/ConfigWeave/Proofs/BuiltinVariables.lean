import ConfigWeave.Proofs.VariablePrecedence

namespace ConfigWeave

theorem Bindings.set_append {front : Bindings} {name : String} (absent : name ∉ front.names) (rest : Bindings)
    (value : Value) : Bindings.set (front ++ rest) name value = front ++ Bindings.set rest name value := by
  induction front with
  | nil => rfl
  | cons entry front ih =>
    obtain ⟨apart, others⟩ := not_or.mp (absent ∘ List.mem_cons.mpr)
    rw [List.cons_append, List.cons_append, set, if_neg (Ne.symm apart), ih others]

namespace Scope

/-- Whether a scope has all built-in variables of another one in front, in their order and with their values, and no
other variable of such a name. -/
structure Fronts (own scope : Scope) : Prop where
  names : own.names = builtinNames
  entries : ∃ rest : Bindings, scope.entries = own.entries ++ rest ∧ ∀ name ∈ rest.names, isBuiltin name = false

/-- The scopes that come of another one, whatever is defined in it, laid over it, taken over from other scopes or
loaded from sections of documents, in any order. -/
inductive Becomes (scope : Scope) : Scope → Prop
  | same : scope.Becomes scope
  | defined {next : Scope} (name : String) (value : Value) : scope.Becomes next →
      scope.Becomes (next.define name value)
  | overlaid {next : Scope} (vars : Mapping) : scope.Becomes next → scope.Becomes (next.overlay vars).1
  | extended {next : Scope} (other : Scope) : scope.Becomes next → scope.Becomes (next.extend other)
  | loaded {next loaded : Scope} {document : OpenDocument} {isProtected : String → Bool} {declared : Value} :
      scope.Becomes next → (next.ofSection document isProtected declared).result = .ok loaded → scope.Becomes loaded

variable {own scope next : Scope}

theorem Fronts.self (names : own.names = builtinNames) : own.Fronts own :=
  ⟨names, [], (List.append_nil _).symm, fun _ member => absurd member List.not_mem_nil⟩

/-- A definition of a built-in name changes nothing, any other one only what stands behind the built-in
variables. -/
theorem Fronts.define (fronts : own.Fronts scope) (name : String) (value : Value) :
    own.Fronts (scope.define name value) := by
  unfold Scope.define
  cases builtin : isBuiltin name with
  | true => exact fronts
  | false =>
    obtain ⟨names, rest, entries, free⟩ := fronts
    have absent : name ∉ own.entries.names := fun member => by
      rw [show own.entries.names = builtinNames from names] at member
      exact Bool.false_ne_true (builtin.symm.trans (decide_eq_true member))
    have behind : scope.entries.set name value = own.entries ++ rest.set name value := by
      rw [entries, Bindings.set_append absent]
    refine ⟨names, rest.set name value, behind, fun other member => ?_⟩
    rw [Bindings.names_set] at member
    split at member
    · exact free other member
    · rcases List.mem_append.mp member with known | new
      · exact free other known
      · rwa [List.mem_singleton.mp new]

theorem Fronts.defineAll (fronts : own.Fronts scope) (vars : Bindings) : own.Fronts (scope.defineAll vars).1 := by
  induction vars generalizing scope with
  | nil => exact fronts
  | cons entry rest ih => exact ih (fronts.define entry.1 entry.2)

theorem Fronts.evaluateAll (fronts : own.Fronts scope) {document : OpenDocument} {sub : Option Pattern}
    {isProtected : String → Bool} {entries : List (Value × Value)}
    (done : (scope.evaluateAll document sub isProtected entries).result = .ok next) : own.Fronts next := by
  rw [evaluateAll_eq] at done
  obtain ⟨vars, _, defined⟩ := Traced.exists_of_bind_ok done
  cases defined
  exact fronts.defineAll vars

theorem Fronts.becomes (fronts : own.Fronts scope) (becomes : scope.Becomes next) : own.Fronts next := by
  induction becomes with
  | same => exact fronts
  | defined name value _ ih => exact ih.define name value
  | overlaid vars _ ih => exact ih.defineAll (ofMapping vars)
  | extended other _ ih =>
    rw [extend_eq_defineAll]
    exact ih.defineAll other.entries
  | loaded _ done ih =>
    rw [ofSection_eq] at done
    obtain ⟨_, _, evaluated⟩ := Traced.exists_of_bind_ok done
    exact ih.evaluateAll evaluated

theorem Encloses.becomes {base : Scope} (encloses : base.Encloses scope) : base.Becomes scope := by
  induction encloses with
  | refl => exact .same
  | inserted vars _ ih => exact ih.overlaid vars
  | packaged id _ ih => exact ih.defined packageVariable (.str id)

/-- What is handed on has no built-in variable. -/
theorem free_inherit (scope : Scope) (vars : Mapping) :
    ∀ name ∈ (scope.inherit vars).1.names, isBuiltin name = false := by
  intro name member
  have known : (scope.inherit vars).1.contains name = true :=
    (contains_eq_decide _ name).trans (decide_eq_true member)
  cases builtin : isBuiltin name with
  | false => rfl
  | true =>
    rw [contains, inherit, overlay, get?_defineAll, builtin, if_pos rfl, get?_unprotected, builtin] at known
    cases known

end Scope

namespace World

variable {world : World} {main file : Path} {points : List IncludePoint} {stack : List Path} {given : Scope}

theorem fronts_start (world : World) (file : Path) (given : Scope) :
    (world.builtins file).Fronts ((world.builtins file).extend given) :=
  (Scope.Fronts.self (Scope.names_builtin ..)).becomes (Scope.Becomes.same.extended given)

theorem fronts_of_stage {document : OpenDocument} {content : Value} {base : Scope}
    (stage : document.Stage ((world.builtins file).extend given) given content base) :
    (world.builtins file).Fronts base := by
  cases stage with
  | start => exact fronts_start world file given
  | declared _ _ evaluated => exact (fronts_start world file given).evaluateAll evaluated

theorem Lineage.free_given (lineage : world.Lineage main points stack file given) :
    ∀ name ∈ given.names, Scope.isBuiltin name = false := by
  cases lineage with
  | main _ => exact fun _ member => absurd member List.not_mem_nil
  | included _ _ => exact Scope.free_inherit _ _

/-- Built-in variables cannot be changed. Whatever document is composed in a load, they stand in front of every
scope that it has, with the values that belong to its own file: of the scope that it starts with, of those with
some of the variables that it declares, of those within its insertions and packages, and of all that come of these
by any definitions. So they do where it includes another document, but are not handed on to that. -/
theorem builtins_in_front (lineage : world.Lineage main points stack file given) {text : String} {content : Value}
    (read : (world.readText file).result = .ok text) (parsed : Yaml.parse? text = some content) :
    let document := world.opened stack file text
    let own := world.builtins file
    let start := own.extend given
    (world.compose stack file given = do
      let _ ← world.readText file
      let tree ← document.treeScope start given content
      document.composeTree tree content) ∧
    (∀ tree, (document.treeScope start given content).result = .ok tree → own.Fronts tree) ∧
    (∀ base scope later, document.Stage start given content base → base.Encloses scope → scope.Becomes later →
      own.Fronts later) ∧
    (∀ point, document.ComesTo start given content point → own.Fronts point.scope) ∧
    (∀ name ∈ given.names, Scope.isBuiltin name = false) ∧
    ∀ (scope : Scope) vars, ∀ name ∈ (scope.inherit vars).1.names, Scope.isBuiltin name = false := by
  intro document own start
  have within (base scope : Scope) (stage : document.Stage start given content base)
    (encloses : base.Encloses scope) :
      own.Fronts scope :=
    (fronts_of_stage stage).becomes encloses.becomes
  refine ⟨?_, fun tree done => fronts_of_stage (.tree done), fun base scope later stage encloses becomes => ?_,
    fun point comesTo => ?_, lineage.free_given, Scope.free_inherit⟩
  · rw [compose_of_contains read parsed, Traced.bind_of_ok read, ← OpenDocument.compose_eq]
  · exact (within base scope stage encloses).becomes becomes
  · obtain ⟨base, stage, encloses⟩ := comesTo.exists_stage
    exact within base point.scope stage encloses

theorem builtins_in_front_included :
    let files : FileSystem := ⟨[
      (["main"], .file "variables:\n  ENV: x\n  y: y\na: !include other?CONFIG_ROOT=z&__FILE__\n".toUTF8.toList
        (.change 0)),
      (["other"], .file "variables:\n  __FILE__: own\n  !sub ENV: own\n  b: b\n".toUTF8.toList (.change 1))], [], 2⟩
    let world : World := ⟨files, .empty, [], .ofRoot ⟨"/"⟩⟩
    let stack : List Path := [⟨"/main"⟩, ⟨"/other"⟩]
    ∃ point text content tree, world.Lineage ⟨"/main"⟩ [point] stack ⟨"/other"⟩ point.inherited ∧
      (world.readText ⟨"/other"⟩).result = .ok text ∧ Yaml.parse? text = some content ∧
      ((world.opened stack ⟨"/other"⟩ text).treeScope ((world.builtins ⟨"/other"⟩).extend point.inherited)
        point.inherited content).result = .ok tree ∧
      (world.builtins ⟨"/other"⟩).Fronts tree ∧ tree.get? "__FILE__" = some (.str "/other") ∧
      ∀ name ∈ point.inherited.names, Scope.isBuiltin name = false := by
  intro files world stack
  let texts := [("y", "y")]
  let handed : Bindings := texts.map fun text => (text.1, .str text.2)
  let here (point : IncludePoint) : Bool :=
    point.arguments.target = "other" ∧
      point.inherited.entries.map (fun entry => (entry.1, entry.2.str?)) =
        texts.map (fun text => (text.1, some text.2))
  have fails : (world.readText ⟨"/main"⟩).result.toOption.any (fun text => (Yaml.parse? text).any fun content =>
      let document := world.opened [⟨"/main"⟩] ⟨"/main"⟩ text
      let composes (run : Run Value) : Bool := ((document.answering (document.answersAt here run).1).compose
        ((world.builtins ⟨"/main"⟩).extend .empty) .empty content).result.toOption.isSome
      composes (pure .null) && !composes (.fail (.encoding ⟨"/other"⟩))) = true := by
    decide +kernel
  obtain ⟨mainText, readMain, parses⟩ := exists_ok_of_any fails
  obtain ⟨mainContent, parsedMain, checked⟩ := (Option.any_eq_true _ _).mp parses
  obtain ⟨point, passes, comesTo⟩ := OpenDocument.exists_comesTo_of_fails checked
  obtain ⟨target, known⟩ := of_decide_eq_true passes
  have leads : world.files.canonical (world.settings.locate ⟨"/main"⟩ point.arguments.target) = .ok ⟨"/other"⟩ := by
    rw [target]
    exact Path.ok_of_text (by decide +kernel)
  have includes : world.Includes [⟨"/main"⟩] ⟨"/main"⟩ .empty point ⟨"/other"⟩ :=
    ⟨⟨mainText, mainContent, readMain, parsedMain, comesTo⟩, leads, by decide, by decide⟩
  have lineage : world.Lineage ⟨"/main"⟩ [point] [⟨"/main"⟩, ⟨"/other"⟩] ⟨"/other"⟩ point.inherited :=
    .included (.main (Path.ok_of_text (by decide +kernel))) includes
  have same : point.inherited = ⟨handed⟩ := congrArg Scope.mk (Bindings.eq_of_texts known)
  have evaluated : (world.readText ⟨"/other"⟩).result.toOption.any (fun text =>
    (Yaml.parse? text).any fun content =>
      let start := (world.builtins ⟨"/other"⟩).extend ⟨handed⟩
      ((world.opened stack ⟨"/other"⟩ text).treeScope start ⟨handed⟩ content).result.toOption.any fun tree =>
        tree.contains "b") = true := by
    decide +kernel
  obtain ⟨text, read, parses⟩ := exists_ok_of_any evaluated
  obtain ⟨content, parsed, composes⟩ := (Option.any_eq_true _ _).mp parses
  obtain ⟨tree, done, _⟩ := exists_ok_of_any composes
  rw [← same] at done
  obtain ⟨_, fronts, _, _, free, _⟩ := builtins_in_front lineage read parsed
  refine ⟨point, text, content, tree, lineage, read, parsed, done, fronts tree done, ?_, free⟩
  obtain ⟨_, rest, entries, _⟩ := fronts tree done
  rw [Scope.get?, entries]
  rfl

end World

end ConfigWeave
