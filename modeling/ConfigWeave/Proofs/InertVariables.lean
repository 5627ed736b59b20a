import ConfigWeave.Proofs.Composer
import ConfigWeave.Proofs.IncludeChain
import ConfigWeave.Proofs.Overriding

namespace ConfigWeave

/-- Whether what is done below a tag depends on the values of variables. -/
def Tag.readsVariables : Tag → Bool
  | .sub _ | .cond => true
  | _ => false

namespace Scope

/-- Scopes in which the same names are defined. -/
def SameNames (a b : Scope) : Prop :=
  ∀ name, a.contains name = b.contains name

namespace SameNames

variable {a b : Scope}

theorem define (same : SameNames a b) (name : String) (v w : Value) :
    SameNames (a.define name v) (b.define name w) := by
  intro other
  rw [contains_define, contains_define, same other]

theorem defineAll (same : SameNames a b) (vars : Bindings) :
    SameNames (a.defineAll vars).1 (b.defineAll vars).1 := by
  induction vars generalizing a b with
  | nil => exact same
  | cons entry rest ih => exact ih (same.define entry.1 entry.2 entry.2)

theorem inherit (same : SameNames a b) (vars : Mapping) : SameNames (a.inherit vars).1 (b.inherit vars).1 := by
  have unprotected : SameNames ⟨a.entries.filter fun entry => !isBuiltin entry.1⟩
      ⟨b.entries.filter fun entry => !isBuiltin entry.1⟩ := by
    intro name
    rw [contains, contains, get?_unprotected, get?_unprotected]
    split
    · rfl
    · exact same name
  exact unprotected.defineAll (ofMapping vars)

theorem extend (same : SameNames a b) {c d : Scope} (others : SameNames c d) :
    SameNames (a.extend c) (b.extend d) := by
  intro name
  have other : (c.entries.last? name).isSome = (d.entries.last? name).isSome := by
    rw [Bindings.isSome_last?, Bindings.isSome_last?]
    exact others name
  rw [contains, contains, get?_extend, get?_extend]
  split
  · exact same name
  · rw [Option.isSome_or, Option.isSome_or, other]
    exact congrArg _ (same name)

end SameNames

/-- Environments only differ in the value of one variable. -/
theorem sameNames_builtin (file root resolvedRoot : Path) (environment other : List (String × String)) :
    SameNames (builtin file root resolvedRoot environment) (builtin file root resolvedRoot other) := by
  intro name
  rw [contains_eq_decide, contains_eq_decide, names_builtin, names_builtin]

end Scope

namespace Value

/-- A tree in which nothing depends on the values of variables: no placeholder is replaced in it, and no condition
is decided. -/
def Inert (v : Value) : Prop :=
  ∀ tag mark payload, Part (.tagged tag mark payload) v → tag.readsVariables = false

instance (v : Value) : Decidable v.Inert :=
  decidable_of_iff (∀ node ∈ v.taggedNodes, node.1.readsVariables = false)
    ⟨fun each _ _ _ part => each _ (mem_taggedNodes.mpr part), fun inert _ member =>
      inert _ _ _ (mem_taggedNodes.mp member)⟩

/-- An inert tree in which all texts, those of keys too, are of one kind. -/
structure InertOf (T : String → Prop) (v : Value) : Prop where
  inert : v.Inert
  texts : ∀ text, Part (.str text) v → T text

namespace InertOf

variable {T : String → Prop}

theorem items {items : List Value} (inert : (Value.seq items).InertOf T) : ∀ item ∈ items, item.InertOf T :=
  fun _ member => ⟨fun _ _ _ part => inert.inert _ _ _ (.item member part),
    fun _ part => inert.texts _ (.item member part)⟩

theorem entries {m : Mapping} (inert : (Value.map m).InertOf T) :
    ∀ entry ∈ m, entry.1.InertOf T ∧ entry.2.InertOf T :=
  fun _ member =>
    ⟨⟨fun _ _ _ part => inert.inert _ _ _ (.key member part), fun _ part => inert.texts _ (.key member part)⟩,
      ⟨fun _ _ _ part => inert.inert _ _ _ (.value member part), fun _ part => inert.texts _ (.value member part)⟩⟩

theorem payload {tag : Tag} {mark : Nat} {payload : Value} (inert : (Value.tagged tag mark payload).InertOf T) :
    payload.InertOf T :=
  ⟨fun _ _ _ part => inert.inert _ _ _ (.payload part), fun _ part => inert.texts _ (.payload part)⟩

theorem seq {items : List Value} (each : ∀ item ∈ items, item.InertOf T) : (Value.seq items).InertOf T := by
  refine ⟨fun tag mark payload part => ?_, fun text part => ?_⟩
  · cases part with
    | item member inside => exact (each _ member).inert _ _ _ inside
  · cases part with
    | item member inside => exact (each _ member).texts _ inside

theorem map {m : Mapping} (each : ∀ entry ∈ m, entry.1.InertOf T ∧ entry.2.InertOf T) :
    (Value.map m).InertOf T := by
  refine ⟨fun tag mark payload part => ?_, fun text part => ?_⟩
  · cases part with
    | key member inside => exact (each _ member).1.inert _ _ _ inside
    | value member inside => exact (each _ member).2.inert _ _ _ inside
  · cases part with
    | key member inside => exact (each _ member).1.texts _ inside
    | value member inside => exact (each _ member).2.texts _ inside

theorem tagged {tag : Tag} {mark : Nat} {payload : Value} (unread : tag.readsVariables = false)
    (inert : payload.InertOf T) : (Value.tagged tag mark payload).InertOf T := by
  refine ⟨fun tag mark payload part => ?_, fun text part => ?_⟩
  · cases part with
    | self => exact unread
    | payload inside => exact inert.inert _ _ _ inside
  · cases part with
    | payload inside => exact inert.texts _ inside

theorem null : Value.null.InertOf T :=
  ⟨fun _ _ _ part => (by cases part), fun _ part => (by cases part)⟩

theorem sublist {m part : Mapping} (inert : (Value.map m).InertOf T) (within : part.Sublist m) :
    (Value.map part).InertOf T :=
  map fun entry member => inert.entries entry (within.subset member)

theorem assembled (T : String → Prop) : Assembled (InertOf T) where
  seq := seq
  items := items
  map _ := map
  entries := entries
  insert {m key value} here keyInert valueInert := by
    have new : ∀ entry ∈ [(key, value)], entry.1.InertOf T ∧ entry.2.InertOf T :=
      List.forall_mem_singleton.mpr ⟨keyInert, valueInert⟩
    exact map (Mapping.forall_mem_insertAll here.entries new)

theorem collected {entries : Mapping} (each : ∀ entry ∈ entries, entry.1.InertOf T ∧ entry.2.InertOf T) :
    (Value.map (Mapping.ofList entries)).InertOf T :=
  map (Mapping.forall_mem_insertAll (by simp) each)

theorem applyOverrides? {v w : Value} (inert : v.InertOf T) (applied : v.applyOverrides? = some w) :
    w.InertOf T := by
  refine applyOverrides?_induction (C := fun v w => v.InertOf T → w.InertOf T) (fun _ => id) (fun _ => id)
    (fun below inert => below inert.payload) (fun each inert => seq ?_) (fun each inert => map ?_) v w applied inert
  · exact forall_mem_overriddenItems fun item member w left => each item member w left (inert.items item member)
  · refine forall_mem_overriddenEntries fun entry member => ?_
    obtain ⟨key, value⟩ := inert.entries entry member
    exact ⟨fun w left => (each entry member).1 w left key, fun w left => (each entry member).2 w left value⟩

theorem untagged (v : Value) (inert : v.InertOf T) : v.untagged.InertOf T := by
  induction v with
  | scalar v isScalar => rwa [isScalar.untagged]
  | seq items ih =>
    exact seq (forall_mem_untaggedItems.mpr fun item member => ih item member (inert.items item member))
  | map entries ih =>
    refine collected (forall_mem_untaggedEntries.mpr fun entry member => ?_)
    obtain ⟨key, value⟩ := inert.entries entry member
    exact ⟨(ih entry member).1 key, (ih entry member).2 value⟩
  | tagged tag mark payload ih => exact ih inert.payload

theorem withoutNullKeys (v : Value) (inert : v.InertOf T) : v.withoutNullKeys.InertOf T := by
  induction v with
  | scalar v isScalar => rwa [isScalar.withoutNullKeys]
  | seq items ih =>
    exact seq (forall_mem_itemsWithoutNullKeys.mpr fun item member => ih item member (inert.items item member))
  | map entries ih =>
    refine map (forall_mem_entriesWithoutNullKeys.mpr fun entry member _ => ?_)
    obtain ⟨key, value⟩ := inert.entries entry member
    exact ⟨key, (ih entry member).2 value⟩
  | tagged => exact inert

theorem finished {v : Value} (inert : v.InertOf T) : v.finished.InertOf T := by
  refine withoutNullKeys _ (untagged _ ?_)
  split
  · exact IfAny.getD (fun w left => inert.applyOverrides? left) null
  · exact inert

end InertOf

end Value

/-- Inert trees are composed of inert trees with no other texts. Variables may hold anything, only their names have
to be the same. -/
def Regime.inert (T : String → Prop) : Regime Bool where
  Written := Value.InertOf T
  Composed := Value.InertOf T
  Held _ := True
  Together scopes := Scope.SameNames (scopes true) (scopes false)
  Reads := False
  written inert := inert
  held _ := trivial
  heldScalar _ := trivial
  writtenItems := Value.InertOf.items
  writtenEntries inert entry member := ⟨.inl (inert.entries entry member).1, (inert.entries entry member).2⟩
  withoutSections inert := inert.sublist (Mapping.withoutSections_sublist _)
  payload inert _ _ := inert.payload
  kept inert _ := inert
  substituted inert := nomatch inert.inert _ _ _ (.self _)
  conditional inert := nomatch inert.inert _ _ _ (.self _)
  below := False.elim
  null := .null
  scalar inert _ := inert
  seq := .seq
  items := Value.InertOf.items
  entries := Value.InertOf.entries
  replacement inert := .tagged rfl inert
  collected := (Value.InertOf.assembled T).collected
  merged := (Value.InertOf.assembled T).merged
  deepMerge := (Value.InertOf.assembled T).deepMerge
  withoutHidden inert := inert.sublist List.filter_sublist
  same := False.elim
  overlaid together _ := together.defineAll _
  packaged together := together.define _ _ _

theorem Regime.declares_inert (T : String → Prop) : (Regime.inert T).Declares :=
  fun name together _ => together.define name _ _

/-- Two runs that do the same, as long as no other files are opened than those that are admitted. -/
def agreeingWhile (admitted : Path → Prop) : RunLogic Bool where
  Ensures post x := (∀ file, .opened file ∈ (x true).trace → admitted file) →
    x true = x false ∧ ∀ a, (x true).result = .ok a → post a
  pure known _ := ⟨rfl, fun _ same => Except.ok.inj same ▸ known⟩
  warned _ _ _ := ⟨rfl, fun _ _ => trivial⟩
  fail _ _ := ⟨rfl, nofun⟩
  bind := by
    intro α β post more x f first later within
    have start := fun file opened => within file ((Traced.trace_sublist_bind (x true) (f true)).subset opened)
    obtain ⟨same, known⟩ := first start
    dsimp only at within later ⊢
    cases result : (x true).result with
    | error e =>
      rw [← same, Traced.bind_of_error result, Traced.bind_of_error result]
      exact ⟨rfl, nofun⟩
    | ok a =>
      rw [Traced.bind_of_ok result] at within
      obtain ⟨rest, ensured⟩ :=
        later a (known a result) fun file opened => within file (List.mem_append_right _ opened)
      rw [← same, Traced.bind_of_ok result, Traced.bind_of_ok result, rest]
      exact ⟨rfl, rest ▸ ensured⟩

namespace World

/-- The same world, with other environment variables. -/
def inEnvironment (world : World) (environment : List (String × String)) : World :=
  { world with environment }

variable {world : World}

/-- The induction is on the depth that is left. -/
theorem agreeing_composeWith {T : String → Prop} {admitted : Path → Prop}
    (inert : ∀ file, admitted file → ∀ content, world.Contains file content → content.InertOf T)
    (environment : Bool → List (String × String)) (budget : Nat) (stack : List Path) (file : Path)
    (given : Bool → Scope) (names : Scope.SameNames (given true) (given false)) :
    (agreeingWhile admitted).Ensures (Value.InertOf T) fun i => (world.inEnvironment (environment i)).composeWith
      ((world.inEnvironment (environment i)).nested budget) stack file (given i) := by
  have reading (file : Path) : (agreeingWhile admitted).Ensures
      (fun text => ∀ content, Yaml.parse? text = some content → content.InertOf T) fun i =>
        (world.inEnvironment (environment i)).readText file := by
    intro within
    have known := within file (by rw [World.trace_readText]; exact List.mem_singleton_self _)
    exact ⟨rfl, fun text read content parsed => inert file known content ⟨text, read, parsed⟩⟩
  have protects {given : Bool → Scope} (names : Scope.SameNames (given true) (given false)) (i : Bool) :
      (given i).contains = (given true).contains := by
    cases i with
    | true => rfl
    | false => exact funext fun name => (names name).symm
  have builtins (file : Path) {given : Bool → Scope} (names : Scope.SameNames (given true) (given false)) :
      Scope.SameNames (((world.inEnvironment (environment true)).builtins file).extend (given true))
        (((world.inEnvironment (environment false)).builtins file).extend (given false)) :=
    (Scope.sameNames_builtin _ _ _ _ _).extend names
  have settings : ∃ settings, ∀ i, (world.inEnvironment (environment i)).settings = settings := ⟨_, fun _ => rfl⟩
  have canonical (path : Path) : ∃ found, ∀ i, (world.inEnvironment (environment i)).files.canonical path = found :=
    ⟨world.files.canonical path, fun _ => rfl⟩
  induction budget generalizing stack file given with
  | zero =>
    refine RunLogic.composeWith (R := .inert T) (Regime.declares_inert T) (builtins file names) (protects names)
      (reading file) fun lines mark arguments scopes _ together => ?_
    exact RunLogic.inclusion settings canonical stack file lines mark fun _ _ _ => .inl fun _ => rfl
  | succ budget ih =>
    refine RunLogic.composeWith (R := .inert T) (Regime.declares_inert T) (builtins file names) (protects names)
      (reading file) fun lines mark arguments scopes _ together => ?_
    refine RunLogic.inclusion settings canonical stack file lines mark fun target _ _ => ?_
    refine .inr ⟨_, fun _ => rfl, fun messages => ?_⟩
    have reported : (agreeingWhile admitted).Ensures (fun _ => True) fun _ =>
      Traced.report (Effect.included target) :=
      fun _ => ⟨rfl, fun _ _ => trivial⟩
    refine reported.bind fun _ _ => ?_
    refine .bind ((agreeingWhile admitted).warned file messages) fun _ _ => ?_
    exact ih _ _ _ (Scope.SameNames.inherit together arguments.vars)

/-- A text stands in one of the documents that a run opens. -/
def OpensText (world : World) {α : Type} (run : Run α) (text : String) : Prop :=
  ∃ opened content, .opened opened ∈ run.trace ∧ world.Contains opened content ∧ Value.Part (.str text) content

/-- Nothing depends on the values of variables in any document that a run opens. -/
def OpensInert (world : World) {α : Type} (run : Run α) : Prop :=
  ∀ opened, .opened opened ∈ run.trace → ∀ content, world.Contains opened content → content.Inert

theorem compose_of_inert (environment other : List (String × String)) {stack : List Path} {file : Path}
    {given others : Scope} (names : given.SameNames others)
    (inert : world.OpensInert ((world.inEnvironment environment).compose stack file given)) :
    (world.inEnvironment environment).compose stack file given =
      (world.inEnvironment other).compose stack file others ∧
      ∀ v, ((world.inEnvironment environment).compose stack file given).result = .ok v →
        v.InertOf (world.OpensText ((world.inEnvironment environment).compose stack file given)) := by
  have admits (opened : Path)
      (here : .opened opened ∈ ((world.inEnvironment environment).compose stack file given).trace) (content : Value)
      (contains : world.Contains opened content) :
      content.InertOf (world.OpensText ((world.inEnvironment environment).compose stack file given)) :=
    ⟨inert opened here content contains, fun _ part => ⟨opened, content, here, contains, part⟩⟩
  have agreeing := agreeing_composeWith admits (fun first => bif first then environment else other)
    (world.settings.maxDepth + 1 - stack.length) stack file (fun first => bif first then given else others) names
  simp only [agreeingWhile, cond_true, cond_false] at agreeing
  exact agreeing fun _ here => here

/-- The main document is given no variables. -/
theorem load_of_inert (environment other : List (String × String)) {main : Path}
    (inert : world.OpensInert ((world.inEnvironment environment).load main)) :
    (world.inEnvironment environment).load main = (world.inEnvironment other).load main ∧
      ∀ v, ((world.inEnvironment environment).load main).result = .ok v →
        v.InertOf (world.OpensText ((world.inEnvironment environment).load main)) := by
  have leads (environment : List (String × String)) :
      (world.inEnvironment environment).files.canonical main = world.files.canonical main := rfl
  cases found : world.files.canonical main with
  | error cause => simp [load, leads, found, Traced.fail]
  | ok file =>
    have loads (environment : List (String × String)) : (world.inEnvironment environment).load main = (do
        return (← (world.inEnvironment environment).compose [file] file .empty).finished) := by
      simp only [load, leads, found]
      rfl
    have trace : ((world.inEnvironment environment).load main).trace =
        ((world.inEnvironment environment).compose [file] file .empty).trace := by
      rw [loads]
      cases result : ((world.inEnvironment environment).compose [file] file .empty).result with
      | error e => rw [Traced.bind_of_error result]
      | ok v => rw [Traced.bind_of_ok result, Traced.pure_def, List.append_nil]
    unfold OpensInert at inert
    rw [trace] at inert
    obtain ⟨same, composed⟩ := compose_of_inert environment other (fun _ => rfl) inert
    refine ⟨by rw [loads, loads, same], fun v loaded => ?_⟩
    rw [loads] at loaded
    obtain ⟨tree, done, finished⟩ := Traced.exists_of_bind_ok loaded
    cases finished
    unfold OpensText
    rw [trace]
    exact (composed tree done).finished

/-- Without placeholders to be replaced and without conditions, variables are inert. If no document that is opened
in a composition asks for the value of a variable, then a composition that is given the same names with other
values, under whatever environment, is the same run: it has the same value or error, and it gives the same
warnings, opens the same files and includes the same files in the same order. What is composed has no other texts,
in its keys as in its values, than the documents that are opened, so a placeholder stands there as it was written.
So it is with a load. -/
theorem inert_variables :
    (∀ (world : World) environment other stack file (given others : Scope),
      (∀ name, given.contains name = others.contains name) →
      world.OpensInert ((world.inEnvironment environment).compose stack file given) →
      (world.inEnvironment environment).compose stack file given =
        (world.inEnvironment other).compose stack file others ∧
        ∀ v, ((world.inEnvironment environment).compose stack file given).result = .ok v → ∀ text,
          Value.Part (.str text) v →
          world.OpensText ((world.inEnvironment environment).compose stack file given) text) ∧
    ∀ (world : World) environment other main, world.OpensInert ((world.inEnvironment environment).load main) →
      (world.inEnvironment environment).load main = (world.inEnvironment other).load main ∧
        ∀ v, ((world.inEnvironment environment).load main).result = .ok v → ∀ text,
          Value.Part (.str text) v → world.OpensText ((world.inEnvironment environment).load main) text := by
  refine ⟨fun world environment other stack file given others names inert => ?_,
    fun world environment other main inert => ?_⟩
  · obtain ⟨same, composed⟩ := compose_of_inert environment other names inert
    exact ⟨same, fun v done => (composed v done).texts⟩
  · obtain ⟨same, loaded⟩ := load_of_inert environment other inert
    exact ⟨same, fun v done => (loaded v done).texts⟩

theorem inert_variables_included :
    let files : FileSystem :=
      ⟨[(["main"], .file "variables:\n  x: ${ y }\na: !include other\nb: ${ x }\n".toUTF8.toList (.change 0)),
        (["other"], .file "c: ${ x }\n".toUTF8.toList (.change 1))], [], 2⟩
    let world : World := ⟨files, .empty, [], .ofRoot ⟨"/"⟩⟩
    let given : Scope := ⟨[("y", .int 1)]⟩
    let others : Scope := ⟨[("y", .str "z")]⟩
    let environment := [("HOME", "/")]
    (∀ name, given.contains name = others.contains name) ∧
      world.compose [⟨"/main"⟩] ⟨"/main"⟩ given =
        (world.inEnvironment environment).compose [⟨"/main"⟩] ⟨"/main"⟩ others ∧
      world.load ⟨"/main"⟩ = (world.inEnvironment environment).load ⟨"/main"⟩ ∧
      (world.load ⟨"/main"⟩).result.toOption.any
        (· == .map [(.str "a", .map [(.str "c", .str "${ x }")]), (.str "b", .str "${ x }")]) = true := by
  intro files world given others environment
  have inert {α : Type} (run : Run α) : world.OpensInert run := by
    intro opened _ content contains
    have each : ∀ node ∈ files.nodes, ∀ content ∈ node.2.content?, content.Inert := by decide +kernel
    obtain ⟨node, member, same⟩ := contains.exists_content? rfl
    exact each node member content same
  have names (name : String) : given.contains name = others.contains name := by
    rw [Scope.contains_eq_decide, Scope.contains_eq_decide]
    rfl
  exact ⟨names, (inert_variables.1 world [] environment _ _ _ _ names (inert _)).1,
    (inert_variables.2 world [] environment _ (inert _)).1, by decide +kernel⟩

end World

end ConfigWeave
