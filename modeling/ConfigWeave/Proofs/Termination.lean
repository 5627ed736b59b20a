import ConfigWeave.Proofs.Compositional.Document

namespace ConfigWeave

/-- Of the answers that it depends on a run uses finitely many, to questions that are permitted. Wherever those
answers are given it is the same run. -/
def finitelyAsking {ι Q A : Type} (ask : ι → Q → A) (permitted : Q → Prop) : Compositional ι where
  Holds x := ∀ i, ∃ questions : List Q, (∀ q ∈ questions, permitted q) ∧
    ∀ j, (∀ q ∈ questions, ask j q = ask i q) → x j = x i
  pure _ _ := ⟨[], by simp, fun _ _ => rfl⟩
  warned _ _ _ := ⟨[], by simp, fun _ _ => rfl⟩
  fail _ _ := ⟨[], by simp, fun _ _ => rfl⟩
  bind := by
    intro α β x f first later i
    dsimp only at later ⊢
    obtain ⟨questions, allowed, same⟩ := first i
    rcases result : (x i).result with e | a
    · refine ⟨questions, allowed, fun j agree => ?_⟩
      rw [same j agree, Traced.bind_of_error result, Traced.bind_of_error result]
    · obtain ⟨more, alsoAllowed, alsoSame⟩ := later a i
      refine ⟨questions ++ more, ?_, fun j agree => ?_⟩
      · intro q member
        exact (List.mem_append.mp member).elim (allowed q) (alsoAllowed q)
      · have start : x j = x i := same j fun q member => agree q (List.mem_append_left _ member)
        have rest : f j a = f i a := alsoSame j fun q member => agree q (List.mem_append_right _ member)
        rw [start, Traced.bind_of_ok result, Traced.bind_of_ok result, rest]

section Asking

variable {ι Q A : Type} {ask : ι → Q → A} {permitted : Q → Prop}

theorem finitelyAsking_const {α : Type} (x : Run α) : (finitelyAsking ask permitted).Holds fun _ => x :=
  fun _ => ⟨[], by simp, fun _ _ => rfl⟩

theorem finitelyAsking_question {α : Type} {ask : ι → Q → Run α} {q : Q} (allowed : permitted q) :
    (finitelyAsking ask permitted).Holds fun i => ask i q :=
  fun _ => ⟨[q], by simpa using allowed, fun _ agree => agree q (List.mem_singleton_self q)⟩

end Asking

/-- A call for an instance of a template, with what comes of it. -/
structure NestedInsertion where
  mark : Nat
  arguments : Arguments
  scope : Scope
  run : Run (Option Value)

/-- How templates are inserted into each other without a bound on their number. An instance is known from those
of finitely many further templates, which all stand within one template more. No template stands within itself,
and all of them are templates of the document. -/
inductive Templates.Instance (templates : Templates) (document : OpenDocument) :
    List String → Nat → Arguments → Scope → Run (Option Value) → Prop
  | intro {inserting mark arguments scope run} (distinct : inserting.Nodup)
      (known : ∀ name ∈ inserting, (templates.get? name).isSome) (calls : List NestedInsertion)
      (nested : ∀ call ∈ calls, templates.Instance document (inserting ++ [arguments.target])
        call.mark call.arguments call.scope call.run)
      (determined : ∀ instantiate : Instantiation,
        (∀ call ∈ calls, instantiate (inserting ++ [arguments.target]) call.mark call.arguments call.scope =
          call.run) →
          templates.instantiateWith document (some instantiate) inserting mark arguments scope = run) :
      templates.Instance document inserting mark arguments scope run

/-- A call for the composition of a file that is included, with what comes of it. -/
structure NestedComposition where
  file : Path
  inherited : Scope
  run : Run Value

/-- The composition of a document on top of others, as far as the files around it allow for further ones. -/
def World.composeOnce (world : World) (compose : Composition) : Composition := fun stack file inherited =>
  world.composeWith (if stack.length ≤ world.settings.maxDepth then some compose else none) stack file inherited

/-- How documents include each other without a bound on their number. A composition is known from those of
finitely many further files, each on a stack with one file more. No file stands twice on a stack, which has at
most one file more than documents may be nested. -/
inductive World.Composed (world : World) : List Path → Path → Scope → Run Value → Prop
  | intro {stack file inherited run} (distinct : stack.Pairwise fun a b => (b == a) = false)
      (bounded : stack.length ≤ world.settings.maxDepth + 1) (calls : List NestedComposition)
      (nested : ∀ call ∈ calls, world.Composed (stack ++ [call.file]) call.file call.inherited call.run)
      (determined : ∀ compose : Composition,
        (∀ call ∈ calls, compose (stack ++ [call.file]) call.file call.inherited = call.run) →
          world.composeOnce compose stack file inherited = run) :
      world.Composed stack file inherited run

/-- Loading without any bound: what comes of a main document. -/
inductive World.Loads (world : World) (main : Path) : Run Value → Prop
  | unreadable {cause} : world.files.canonical main = .error cause →
      world.Loads main (.fail (.unreadable main cause))
  | composed {file run} : world.files.canonical main = .ok file → world.Composed [file] file .empty run →
      world.Loads main (do return (← run).finished)

namespace Templates

variable {templates : Templates} {document : OpenDocument}

theorem length_le_size {inserting : List String} (distinct : inserting.Nodup)
    (known : ∀ name ∈ inserting, (templates.get? name).isSome) : inserting.length ≤ templates.size := by
  have subset : inserting ⊆ templates.names := by
    intro name member
    obtain ⟨entry, present, equal⟩ := List.lookup_isSome_iff.mp (known name member)
    exact List.mem_map.mpr ⟨entry, present, (eq_of_beq equal).symm⟩
  have bound := distinct.length_le_of_subset subset
  simpa only [names, Bindings.names, List.length_map, size] using bound

/-- One template more on top of others keeps them distinct and known. -/
theorem inserting_append {inserting : List String} {name : String} (distinct : inserting.Nodup)
    (known : ∀ other ∈ inserting, (templates.get? other).isSome) (found : (templates.get? name).isSome)
    (fresh : name ∉ inserting) :
    (inserting ++ [name]).Nodup ∧ ∀ other ∈ inserting ++ [name], (templates.get? other).isSome := by
  constructor
  · rw [List.nodup_append]
    refine ⟨distinct, by simp, ?_⟩
    intro other member last atLast equal
    rw [List.mem_singleton.mp atLast] at equal
    exact fresh (equal ▸ member)
  · intro other member
    rcases List.mem_append.mp member with old | last
    · exact known other old
    · rwa [List.mem_singleton.mp last]

/-- When as many templates stand around a place as there are, a further one is unknown or among them. -/
theorem instantiateWith_of_full {inserting : List String} (distinct : inserting.Nodup)
    (known : ∀ name ∈ inserting, (templates.get? name).isSome) (full : inserting.length = templates.size)
    (nested : Option Instantiation) (mark : Nat) (arguments : Arguments) (scope : Scope) :
    templates.instantiateWith document nested inserting mark arguments scope =
      templates.instantiateWith document none inserting mark arguments scope := by
  simp only [instantiateWith]
  cases found : templates.get? arguments.target with
  | none => rfl
  | some body =>
    by_cases inside : arguments.target ∈ inserting
    · simp only [inside, if_true]
    · obtain ⟨longer, alsoKnown⟩ := inserting_append distinct known (by rw [found]; rfl) inside
      have bound := length_le_size longer alsoKnown
      rw [List.length_append, List.length_singleton] at bound
      omega

/-- The document with its templates, inside some of them. -/
def siteWithin (templates : Templates) (document : OpenDocument) (inserting : List String) : Site :=
  ⟨document, templates.instantiateWith document (templates.nested document (templates.size - inserting.length))
    inserting⟩

/-- Wherever a template is inserted, inside others or not, its body is transformed there. -/
theorem insertion_siteWithin {inserting : List String} (distinct : inserting.Nodup)
    (known : ∀ other ∈ inserting, (templates.get? other).isSome) {name : String} {body : Value}
    (found : templates.get? name = some body) (fresh : name ∉ inserting) (mark : Nat) (vars : Mapping)
    (scope : Scope) :
    (templates.siteWithin document inserting).insertion mark ⟨name, vars⟩ scope = (do
      document.warnAll (scope.overlay vars).2
      transform (templates.siteWithin document (inserting ++ [name])) (scope.overlay vars).1 none body) := by
  obtain ⟨longer, alsoKnown⟩ := inserting_append distinct known (by rw [found]; rfl) fresh
  have room := length_le_size longer alsoKnown
  rw [List.length_append, List.length_singleton] at room
  simp only [siteWithin, List.length_append, List.length_singleton]
  rw [show templates.size - inserting.length = templates.size - (inserting.length + 1) + 1 by omega]
  simp only [nested, instantiateWith, found, if_neg fresh]

/-- Within the bound an instance is one of the recursion without a bound. -/
theorem instance_nested {budget : Nat} {inserting : List String} (distinct : inserting.Nodup)
    (known : ∀ name ∈ inserting, (templates.get? name).isSome) (room : inserting.length + budget = templates.size)
    (mark : Nat) (arguments : Arguments) (scope : Scope) :
    templates.Instance document inserting mark arguments scope
      (templates.instantiateWith document (templates.nested document budget) inserting mark arguments scope) := by
  induction budget generalizing inserting mark arguments scope with
  | zero =>
    refine .intro distinct known [] (by simp) fun instantiate _ => ?_
    exact instantiateWith_of_full distinct known room (some instantiate) mark arguments scope
  | succ budget ih =>
    let within := templates.instantiateWith document (templates.nested document budget)
    let ask (instantiate : Instantiation) (q : Nat × Arguments × Scope) :=
      instantiate (inserting ++ [arguments.target]) q.1 q.2.1 q.2.2
    let permitted (_ : Nat × Arguments × Scope) :=
      (templates.get? arguments.target).isSome ∧ arguments.target ∉ inserting
    have documents : (finitelyAsking ask permitted).Documents .any fun _ => document :=
      ⟨⟨_, fun _ => rfl⟩, ⟨_, fun _ => rfl⟩, fun _ _ _ _ _ => .of_holds (finitelyAsking_const _)⟩
    have bodies : Quality.any.Bodies templates := fun _ _ _ => trivial
    have given : Quality.any.Given arguments := fun _ _ => trivial
    have asking : (finitelyAsking ask permitted).Holds fun instantiate =>
        templates.instantiateWith document (some instantiate) inserting mark arguments scope :=
      (documents.instantiateWith bodies inserting mark given trivial fun found fresh =>
        .inr ⟨id, fun _ => rfl, fun mark inner scope _ _ =>
          ⟨finitelyAsking_question (q := (mark, inner, scope)) ⟨found, fresh⟩, fun _ _ _ _ _ => trivial⟩⟩).holds
    obtain ⟨questions, allowed, same⟩ := asking within
    refine .intro distinct known (questions.map fun q => ⟨q.1, q.2.1, q.2.2, ask within q⟩) ?_ ?_
    · intro call member
      obtain ⟨q, asked, rfl⟩ := List.mem_map.mp member
      obtain ⟨found, fresh⟩ := allowed q asked
      obtain ⟨longer, alsoKnown⟩ := inserting_append distinct known found fresh
      exact ih longer alsoKnown (by rw [List.length_append, List.length_singleton]; omega) _ _ _
    · intro instantiate answers
      exact same instantiate fun q asked => answers _ (List.mem_map.mpr ⟨q, asked, rfl⟩)

/-- The recursion without a bound has no other outcome. -/
theorem Instance.unique {inserting : List String} {mark : Nat} {arguments : Arguments} {scope : Scope}
    {run : Run (Option Value)} (instantiated : templates.Instance document inserting mark arguments scope run)
    {budget : Nat} (room : inserting.length + budget = templates.size) :
    templates.instantiateWith document (templates.nested document budget) inserting mark arguments scope = run := by
  induction instantiated generalizing budget with
  | @intro inserting mark arguments scope run distinct known calls nested determined ih =>
    cases budget with
    | zero =>
      -- Whatever is called stands within one template more than there are.
      have alone : calls = [] := by
        refine List.eq_nil_iff_forall_not_mem.mpr fun call member => ?_
        obtain ⟨longer, alsoKnown, _, _, _⟩ := nested call member
        have bound := length_le_size longer alsoKnown
        rw [List.length_append, List.length_singleton] at bound
        omega
      have once := determined (fun _ _ _ _ => pure none) (by simp [alone])
      rw [← once]
      exact (instantiateWith_of_full distinct known room _ mark arguments scope).symm
    | succ budget =>
      refine determined _ fun call member => ih call member ?_
      rw [List.length_append, List.length_singleton]
      omega

/-- What the site of a document inserts is the outcome of the recursion without a bound. -/
theorem instance_iff {mark : Nat} {arguments : Arguments} {scope : Scope} {run : Run (Option Value)} :
    templates.Instance document [] mark arguments scope run ↔
      (templates.site document).insertion mark arguments scope = run := by
  have room : ([] : List String).length + templates.size = templates.size := Nat.zero_add _
  constructor
  · intro instantiated
    exact instantiated.unique room
  · rintro rfl
    exact instance_nested List.nodup_nil (by simp) room mark arguments scope

end Templates

namespace World

variable {world : World}

/-- A composition only asks for files that are not yet being composed. -/
theorem composeWith_asking (world : World) (stack : List Path) (file : Path) (inherited : Scope) :
    (finitelyAsking (fun (compose : Composition) (q : Path × Scope) => compose (stack ++ [q.1]) q.1 q.2)
      fun q => ∀ around ∈ stack, (q.1 == around) = false).Holds fun compose =>
        world.composeWith (some compose) stack file inherited := by
  have worlds : Compositional.Worlds fun _ : Composition => world := .same world
  refine Compositional.composeWith (worlds.builtins file) inherited (finitelyAsking_const _) ?_
  intro lines mark arguments scope
  refine worlds.inclusion stack file lines mark arguments scope fun target _ fresh => ?_
  refine .inr ⟨id, fun _ => rfl, fun messages inherited => ?_⟩
  refine Compositional.bind _ (finitelyAsking_const _) fun _ => ?_
  refine Compositional.bind _ (finitelyAsking_const _) fun _ => ?_
  exact finitelyAsking_question (q := (target, inherited)) fresh

theorem stack_append {stack : List Path} {file : Path} (distinct : stack.Pairwise fun a b => (b == a) = false)
    (fresh : ∀ around ∈ stack, (file == around) = false) :
    (stack ++ [file]).Pairwise fun a b => (b == a) = false := by
  refine List.pairwise_append.mpr ⟨distinct, List.pairwise_singleton _ _, fun around member last atLast => ?_⟩
  rw [List.mem_singleton.mp atLast]
  exact fresh around member

/-- Within the depth that is left, a composition is one of the recursion without a bound. -/
theorem composed_nested {budget : Nat} {stack : List Path} (distinct : stack.Pairwise fun a b => (b == a) = false)
    (room : stack.length + budget = world.settings.maxDepth + 1) (file : Path) (inherited : Scope) :
    world.Composed stack file inherited (world.composeWith (world.nested budget) stack file inherited) := by
  induction budget generalizing stack file inherited with
  | zero =>
    refine .intro distinct (Nat.le_of_eq room) [] (by simp) fun compose _ => ?_
    rw [composeOnce, if_neg (by omega), nested]
  | succ budget ih =>
    let within := world.composeWith (world.nested budget)
    obtain ⟨questions, fresh, same⟩ := composeWith_asking world stack file inherited within
    refine .intro distinct (by omega) (questions.map fun q => ⟨q.1, q.2, within (stack ++ [q.1]) q.1 q.2⟩) ?_ ?_
    · intro call member
      obtain ⟨q, asked, rfl⟩ := List.mem_map.mp member
      exact ih (stack_append distinct (fresh q asked))
        (by rw [List.length_append, List.length_singleton]; omega) _ _
    · intro compose answers
      rw [composeOnce, if_pos (by omega)]
      exact same compose fun q asked => answers _ (List.mem_map.mpr ⟨q, asked, rfl⟩)

theorem Composed.unique {stack : List Path} {file : Path} {inherited : Scope} {run : Run Value}
    (composed : world.Composed stack file inherited run) {budget : Nat}
    (room : stack.length + budget = world.settings.maxDepth + 1) :
    world.composeWith (world.nested budget) stack file inherited = run := by
  induction composed generalizing budget with
  | @intro stack file inherited run distinct bounded calls nested determined ih =>
    cases budget with
    | zero =>
      -- Whatever is called stands on a stack with one file more, for which there is no room.
      have alone : calls = [] := by
        refine List.eq_nil_iff_forall_not_mem.mpr fun call member => ?_
        obtain ⟨_, bound, _, _, _⟩ := nested call member
        rw [List.length_append, List.length_singleton] at bound
        omega
      have once := determined (fun _ _ _ => pure .null) (by simp [alone])
      rwa [composeOnce, if_neg (by omega)] at once
    | succ budget =>
      have once := determined (world.composeWith (world.nested budget)) fun call member =>
        ih call member (by rw [List.length_append, List.length_singleton]; omega)
      rwa [composeOnce, if_pos (by omega)] at once

/-- Loading a main document always ends: with a value, with an error, or early, where a sort within an expression
panics. The bounds that the program works with, the number of the templates of a document and the depth to which
documents may be nested, are never what it ends by: it comes out as the recursion without them, in which every
composition and every instance rests on finitely many others that stand deeper, on stacks without repetition. -/
theorem loads_iff (world : World) (main : Path) :
    (∀ run, world.Loads main run ↔ world.load main = run) ∧
      ∀ (templates : Templates) (document : OpenDocument) mark arguments scope run,
        templates.Instance document [] mark arguments scope run ↔
          (templates.site document).insertion mark arguments scope = run := by
  refine ⟨fun run => ⟨?_, ?_⟩, fun _ _ _ _ _ _ => Templates.instance_iff⟩
  · rintro (⟨missing⟩ | ⟨found, composed⟩)
    · simp only [load, missing]
    · simp only [load, found]
      rw [composed.unique (by rw [List.length_singleton]; omega)]
  · rintro rfl
    cases found : world.files.canonical main with
    | error cause =>
      simp only [load, found]
      exact .unreadable found
    | ok file =>
      simp only [load, found]
      exact .composed found (composed_nested (List.pairwise_singleton _ _)
        (by rw [List.length_singleton]; omega) file .empty)

end World

end ConfigWeave
