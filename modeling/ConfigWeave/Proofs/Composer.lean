import ConfigWeave.Proofs.Termination

namespace ConfigWeave

/-- Composes a file on top of others, as deeply as the settings allow. -/
def World.compose (world : World) : Composition := fun stack file inherited =>
  world.composeWith (world.nested (world.settings.maxDepth + 1 - stack.length)) stack file inherited

/-- What a composition calls for on top of a stack: a file with the variables that it is given. -/
abbrev Call := Path × Scope

def Composition.answer (compose : Composition) (stack : List Path) (call : Call) : Run Value :=
  compose (stack ++ [call.1]) call.1 call.2

/-- The same composition but for what comes of one call. -/
noncomputable def Composition.answering (compose : Composition) (stack : List Path) (file : Path) (given : Scope)
    (run : Run Value) : Composition := by
  classical
  exact fun around other scope =>
    if (around, other, scope) = (stack, file, given) then run else compose around other scope

theorem Composition.answering_self (compose : Composition) (stack : List Path) (file : Path) (given : Scope)
    (run : Run Value) : compose.answering stack file given run stack file given = run :=
  if_pos rfl

theorem Composition.answering_of_ne (compose : Composition) {stack around : List Path} {file other : Path}
    {given scope : Scope} (apart : (around, other, scope) ≠ (stack, file, given)) (run : Run Value) :
    compose.answering stack file given run around other scope = compose around other scope :=
  if_neg apart

/-- Whether a composition comes to the given call: it is a different run if something else comes of that call
alone. -/
def World.Asks (world : World) (stack : List Path) (file : Path) (inherited : Scope) (deeper : List Path)
    (target : Path) (given : Scope) : Prop :=
  ∃ compose : Composition,
    (∀ stack file scope, (stack, file, scope) ≠ (deeper, target, given) →
      compose stack file scope = world.compose stack file scope) ∧
    world.composeOnce compose stack file inherited ≠ world.compose stack file inherited

/-- What is composed in the course of a load: the main document, and what a composition comes to. Each has a stack
of files that are being composed, and the variables that it is given. -/
inductive World.Composer (world : World) (main : Path) : List Path → Path → Scope → Prop
  | main {first} : world.files.canonical main = .ok first → world.Composer main [first] first .empty
  | asked {stack file inherited deeper target given} : world.Composer main stack file inherited →
      world.Asks stack file inherited deeper target given → world.Composer main deeper target given

/-- A run comes to finitely many calls on top of a stack, all of them permitted. If nothing else comes of them it
is the same run. Whatever comes of one of them if the others stay as they are, the run reports its file and all
that it does. It reports no other files than those. -/
def consulting (stack : List Path) (permitted : Path → Prop) : Compositional Composition where
  Holds x := ∀ compose, ∃ calls : List Call, (∀ call ∈ calls, permitted call.1) ∧
    (∀ other : Composition, (∀ call ∈ calls, other.answer stack call = compose.answer stack call) →
    x other = x compose) ∧
    (∀ call ∈ calls, ∀ other : Composition,
      (∀ also ∈ calls, also ≠ call → other.answer stack also = compose.answer stack also) →
        (.included call.1 :: (other.answer stack call).trace).Sublist (x other).trace) ∧
    ∀ file, .included file ∈ (x compose).trace →
      ∃ call ∈ calls, call.1 = file ∨ .included file ∈ (compose.answer stack call).trace
  pure _ _ := ⟨[], by simp, fun _ _ => rfl, by simp, nofun⟩
  warned file messages _ := ⟨[], by simp, fun _ _ => rfl, by simp, fun _ member => by
    obtain ⟨_, _, different⟩ := List.mem_map.mp member
    cases different⟩
  fail _ _ := ⟨[], by simp, fun _ _ => rfl, by simp, nofun⟩
  bind := by
    intro α β x f first later compose
    dsimp only at later ⊢
    obtain ⟨calls, allowed, same, part, reported⟩ := first compose
    rcases result : (x compose).result with e | a
    · refine ⟨calls, allowed, fun other agree => ?_, fun call member other agree => ?_, fun file member => ?_⟩
      · rw [same other agree, Traced.bind_of_error result, Traced.bind_of_error result]
      · exact (part call member other agree).trans (Traced.trace_sublist_bind _ _)
      · rw [Traced.bind_of_error result] at member
        exact reported file member
    · obtain ⟨more, alsoAllowed, alsoSame, alsoPart, alsoReported⟩ := later a compose
      have start {other : Composition}
          (agree : ∀ call ∈ calls, other.answer stack call = compose.answer stack call) :
            x other >>= f other = ⟨(x compose).trace ++ (f other a).trace, (f other a).result⟩ := by
        rw [same other agree, Traced.bind_of_ok result]
      refine ⟨calls ++ more, ?_, fun other agree => ?_, fun call member other agree => ?_, fun file member => ?_⟩
      · intro call member
        exact (List.mem_append.mp member).elim (allowed call) (alsoAllowed call)
      · rw [start fun call member => agree call (List.mem_append_left _ member),
          alsoSame other fun call member => agree call (List.mem_append_right _ member), Traced.bind_of_ok result]
      · by_cases early : call ∈ calls
        · have within := part call early other fun also among => agree also (List.mem_append_left _ among)
          exact within.trans (Traced.trace_sublist_bind _ _)
        · -- The run only comes to the call after those before it, which are answered as they were.
          have late := (List.mem_append.mp member).resolve_left early
          rw [start fun also among => agree also (List.mem_append_left _ among) fun same => early (same ▸ among)]
          have within := alsoPart call late other fun also among => agree also (List.mem_append_right _ among)
          exact within.trans (List.sublist_append_right _ _)
      · rw [Traced.bind_of_ok result] at member
        rcases List.mem_append.mp member with before | after
        · obtain ⟨call, among, found⟩ := reported file before
          exact ⟨call, List.mem_append_left _ among, found⟩
        · obtain ⟨call, among, found⟩ := alsoReported file after
          exact ⟨call, List.mem_append_right _ among, found⟩

theorem consulting_silent {stack : List Path} {permitted : Path → Prop} {α : Type} {x : Run α}
    (silent : ∀ file, .included file ∉ x.trace) : (consulting stack permitted).Holds fun _ => x :=
  fun _ => ⟨[], by simp, fun _ _ => rfl, by simp, fun file member => absurd member (silent file)⟩

/-- What an inclusion calls for is reported first. -/
theorem consulting_call {stack : List Path} {permitted : Path → Prop} {target : Path} (allowed : permitted target)
    (file : Path) (messages : List String) (inherited : Scope) :
    (consulting stack permitted).Holds fun compose => (do
      Traced.report (Effect.included target)
      Traced.reportAll (messages.map (.warned file))
      compose (stack ++ [target]) target inherited) := by
  let run (compose : Composition) : Run Value := do
    Traced.report (Effect.included target)
    Traced.reportAll (messages.map (.warned file))
    compose (stack ++ [target]) target inherited
  have trace (compose : Composition) : (run compose).trace =
      .included target :: (messages.map (.warned file) ++ (compose.answer stack (target, inherited)).trace) := rfl
  show (consulting stack permitted).Holds run
  refine fun compose => ⟨[(target, inherited)], by simpa using allowed, fun other agree => ?_, ?_, ?_⟩
  · have same : other (stack ++ [target]) target inherited = compose (stack ++ [target]) target inherited :=
      agree (target, inherited) (List.mem_singleton_self _)
    simp only [run, same]
  · intro call member other _
    cases List.mem_singleton.mp member
    rw [trace]
    exact (List.sublist_append_right _ _).cons_cons _
  · intro reported member
    rw [trace] at member
    refine ⟨(target, inherited), List.mem_singleton_self _, ?_⟩
    rcases List.mem_cons.mp member with first | later
    · exact .inl (Effect.included.inj first).symm
    · rcases List.mem_append.mp later with warned | nested
      · obtain ⟨_, _, different⟩ := List.mem_map.mp warned
        cases different
      · exact .inr nested

namespace World

variable {world : World} {main : Path}

/-- What can be called for on top of a stack. -/
structure Permits (world : World) (stack : List Path) (target : Path) : Prop where
  room : stack.length ≤ world.settings.maxDepth
  reached : ∃ path, world.files.canonical path = .ok target
  fresh : ∀ around ∈ stack, (target == around) = false

theorem consulting_composeOnce (world : World) (stack : List Path) (file : Path) (inherited : Scope) :
    (consulting stack (world.Permits stack)).Holds fun compose =>
      world.composeOnce compose stack file inherited := by
  have worlds : Compositional.Worlds fun _ : Composition => world := .same world
  unfold composeOnce
  refine Compositional.composeWith (worlds.builtins file) inherited
    (consulting_silent fun other => by simp [world.trace_readText file]) fun lines mark arguments scope => ?_
  refine worlds.inclusion stack file lines mark arguments scope fun target found fresh => ?_
  by_cases room : stack.length ≤ world.settings.maxDepth
  · refine .inr ⟨id, fun _ => if_pos room, fun messages inherited => ?_⟩
    obtain ⟨path, leads⟩ := found
    exact consulting_call ⟨room, ⟨path, leads world.compose⟩, fresh⟩ file messages inherited
  · exact .inl fun _ => if_neg room

/-- A composition is one step on top of those that it calls for. -/
theorem composeOnce_compose (world : World) (stack : List Path) (file : Path) (inherited : Scope) :
    world.composeOnce world.compose stack file inherited = world.compose stack file inherited := by
  rw [composeOnce]
  split
  · rename_i room
    obtain ⟨budget, left⟩ : ∃ budget, world.settings.maxDepth + 1 - stack.length = budget + 1 :=
      ⟨world.settings.maxDepth - stack.length, by omega⟩
    obtain ⟨_, _, same⟩ := composeWith_asking world stack file inherited (world.composeWith (world.nested budget))
    rw [compose, left]
    refine same world.compose fun question _ => ?_
    have below : world.settings.maxDepth + 1 - (stack ++ [question.1]).length = budget := by
      rw [List.length_append, List.length_singleton]
      omega
    simp only [compose, below]
  · rename_i full
    rw [compose, show world.settings.maxDepth + 1 - stack.length = 0 by omega, nested]

/-- The calls of a composition are what it asks for. What comes of them decides what the composition is, and all of
it is part of its run. -/
theorem exists_consulted (world : World) (stack : List Path) (file : Path) (inherited : Scope) :
    ∃ calls : List Call, (∀ call ∈ calls, world.Permits stack call.1) ∧
      (∀ deeper target given, world.Asks stack file inherited deeper target given ↔
        deeper = stack ++ [target] ∧ (target, given) ∈ calls) ∧
      (∀ other : Composition, (∀ call ∈ calls, other.answer stack call = world.compose.answer stack call) →
        world.composeOnce other stack file inherited = world.compose stack file inherited) ∧
      (∀ call ∈ calls, ∀ other : Composition,
        (∀ also ∈ calls, also ≠ call → other.answer stack also = world.compose.answer stack also) →
          (.included call.1 :: (other.answer stack call).trace).Sublist
            (world.composeOnce other stack file inherited).trace) ∧
      ∀ reported, .included reported ∈ (world.compose stack file inherited).trace →
        ∃ call ∈ calls, call.1 = reported ∨ .included reported ∈ (world.compose.answer stack call).trace := by
  obtain ⟨calls, allowed, same, part, reported⟩ := world.consulting_composeOnce stack file inherited world.compose
  simp only [composeOnce_compose] at same part reported
  refine ⟨calls, allowed, fun deeper target given => ⟨?_, ?_⟩, same, part, reported⟩
  · rintro ⟨compose, elsewhere, different⟩
    refine Classical.byContradiction fun uncalled => ?_
    refine different (same compose fun call member => elsewhere _ _ _ fun equal => uncalled ?_)
    cases equal
    exact ⟨rfl, member⟩
  · rintro ⟨rfl, member⟩
    -- If the call does all that the composition does, then that does more.
    let whole : Run Value := ⟨(world.compose stack file inherited).trace, .ok .null⟩
    refine ⟨world.compose.answering (stack ++ [target]) target given whole, fun _ _ _ apart =>
      Composition.answering_of_ne _ apart _, fun equal => ?_⟩
    have more := part (target, given) member (world.compose.answering (stack ++ [target]) target given whole)
      fun also _ other => Composition.answering_of_ne _ (fun equal => other (Prod.mk.inj equal).2) _
    rw [Composition.answer, Composition.answering_self, equal] at more
    exact absurd more.length_le (Nat.not_succ_le_self _)

theorem exists_calls (world : World) (stack : List Path) (file : Path) (inherited : Scope) :
    ∃ calls : List Call, (∀ call ∈ calls, world.Permits stack call.1) ∧
      (∀ deeper target given, world.Asks stack file inherited deeper target given ↔
        deeper = stack ++ [target] ∧ (target, given) ∈ calls) ∧
      (∀ call ∈ calls, (.included call.1 :: (world.compose.answer stack call).trace).Sublist
        (world.compose stack file inherited).trace) ∧
      ∀ reported, .included reported ∈ (world.compose stack file inherited).trace →
        ∃ call ∈ calls, call.1 = reported ∨ .included reported ∈ (world.compose.answer stack call).trace := by
  obtain ⟨calls, allowed, asked, _, part, reported⟩ := world.exists_consulted stack file inherited
  have within := fun call member => part call member world.compose fun _ _ _ => rfl
  simp only [composeOnce_compose] at within
  exact ⟨calls, allowed, asked, within, reported⟩

/-- If all that a composition asks for comes out the same, so does the composition. -/
theorem composeOnce_of_asked {stack : List Path} {file : Path} {inherited : Scope} {other : Composition}
    (same : ∀ deeper target given, world.Asks stack file inherited deeper target given →
      other deeper target given = world.compose deeper target given) :
    world.composeOnce other stack file inherited = world.compose stack file inherited := by
  obtain ⟨calls, _, asked, determined, _⟩ := world.exists_consulted stack file inherited
  exact determined other fun call member => same _ _ _ ((asked _ _ _).mpr ⟨rfl, member⟩)

/-- Whatever comes of a call that is asked for, if the others come out the same it is part of the composition. -/
theorem Asks.sublist {stack deeper : List Path} {file target : Path} {inherited given : Scope}
    (asks : world.Asks stack file inherited deeper target given) {other : Composition}
    (same : ∀ around also scope, world.Asks stack file inherited around also scope →
      (around, also, scope) ≠ (deeper, target, given) → other around also scope = world.compose around also scope) :
    (.included target :: (other deeper target given).trace).Sublist
      (world.composeOnce other stack file inherited).trace := by
  obtain ⟨calls, _, asked, _, part, _⟩ := world.exists_consulted stack file inherited
  obtain ⟨rfl, member⟩ := (asked _ _ _).mp asks
  refine part _ member other fun also among apart => same _ _ _ ((asked _ _ _).mpr ⟨rfl, among⟩) fun equal => ?_
  exact apart (Prod.mk.inj equal).2

theorem Asks.call {stack deeper : List Path} {file target : Path} {inherited given : Scope}
    (asks : world.Asks stack file inherited deeper target given) :
    deeper = stack ++ [target] ∧ world.Permits stack target ∧
      (.included target :: (world.compose deeper target given).trace).Sublist
        (world.compose stack file inherited).trace := by
  obtain ⟨calls, allowed, asked, part, _⟩ := world.exists_calls stack file inherited
  obtain ⟨rfl, member⟩ := (asked deeper target given).mp asks
  exact ⟨rfl, allowed _ member, part _ member⟩

/-- The stack of a composer leads from the main document to the file that is composed, without repetition. It holds
no more files than documents may be nested, besides the main document. -/
theorem Composer.stack {stack : List Path} {file : Path} {given : Scope}
    (composer : world.Composer main stack file given) :
    (∃ first, world.files.canonical main = .ok first ∧ stack.head? = some first) ∧ stack.getLast? = some file ∧
      (stack.Pairwise fun a b => (b == a) = false) ∧ stack.length ≤ world.settings.maxDepth + 1 := by
  induction composer with
  | main found => exact ⟨⟨_, found, rfl⟩, rfl, List.pairwise_singleton _ _, Nat.le_add_left _ _⟩
  | asked _ asks ih =>
    obtain ⟨⟨first, found, start⟩, _, distinct, _⟩ := ih
    obtain ⟨rfl, permits, _⟩ := asks.call
    refine ⟨⟨first, found, ?_⟩, List.getLast?_concat, stack_append distinct permits.fresh, ?_⟩
    · rw [List.head?_append, start, Option.some_or]
    · rw [List.length_append, List.length_singleton]
      exact Nat.succ_le_succ permits.room

theorem Composer.ne_main {stack : List Path} {file first : Path} {given : Scope}
    (composer : world.Composer main stack file given) (found : world.files.canonical main = .ok first)
    (longer : 1 < stack.length) : (file == first) = false := by
  cases composer with
  | main _ => exact absurd longer (Nat.lt_irrefl 1)
  | asked composer asks =>
    obtain ⟨⟨other, alsoFound, start⟩, _⟩ := composer.stack
    obtain rfl : first = other := Except.ok.inj (found.symm.trans alsoFound)
    exact asks.call.2.1.fresh first (List.mem_of_mem_head? start)

theorem trace_load {first : Path} (found : world.files.canonical main = .ok first) :
    (world.load main).trace = (world.compose [first] first .empty).trace := by
  simp only [load, found]
  rw [show world.composeWith (world.nested world.settings.maxDepth) [first] first .empty =
    world.compose [first] first .empty from rfl]
  cases result : (world.compose [first] first .empty).result with
  | error e => rw [Traced.bind_of_error result]
  | ok v => simp only [Traced.bind_of_ok result, Traced.pure_def, List.append_nil]

/-- All that a composer does is done in the load, after its file has been reported unless it is the main
document. -/
theorem Composer.sublist {stack : List Path} {file : Path} {given : Scope}
    (composer : world.Composer main stack file given) :
    (world.compose stack file given).trace.Sublist (world.load main).trace ∧
      (1 < stack.length → .included file ∈ (world.load main).trace) := by
  induction composer with
  | main found => exact ⟨trace_load found ▸ List.Sublist.refl _, fun longer => absurd longer (Nat.lt_irrefl _)⟩
  | asked _ asks ih =>
    have within := asks.call.2.2.trans ih.1
    exact ⟨(List.sublist_cons_self _ _).trans within, fun _ => within.subset List.mem_cons_self⟩

/-- What is reported in the course of a composition is composed on top of it. The induction is on the number of
files for which there is room on the stack. -/
theorem Composer.exists_of_included {stack : List Path} {file target : Path} {given : Scope}
    (composer : world.Composer main stack file given)
    (reported : .included target ∈ (world.compose stack file given).trace) :
    ∃ deeper inherited, world.Composer main deeper target inherited ∧ stack.length < deeper.length := by
  obtain ⟨room, left⟩ : ∃ room, stack.length + room = world.settings.maxDepth + 1 :=
    Nat.exists_eq_add_of_le composer.stack.2.2.2 |>.imp fun _ equal => equal.symm
  induction room generalizing stack file given with
  | zero =>
    obtain ⟨calls, allowed, _, _, origin⟩ := world.exists_calls stack file given
    obtain ⟨call, member, _⟩ := origin target reported
    have bound := (allowed call member).room
    omega
  | succ room ih =>
    obtain ⟨calls, _, asked, _, origin⟩ := world.exists_calls stack file given
    obtain ⟨⟨other, inherited⟩, member, known⟩ := origin target reported
    have nested := composer.asked ((asked _ other inherited).mpr ⟨rfl, member⟩)
    have longer : (stack ++ [other]).length = stack.length + 1 := by rw [List.length_append, List.length_singleton]
    rcases known with rfl | inside
    · exact ⟨_, _, nested, by omega⟩
    · obtain ⟨deeper, given, composer, above⟩ := ih nested inside (by omega)
      exact ⟨deeper, given, composer, by omega⟩

/-- The files that are reported are those for which there is a composer besides that of the main document. -/
theorem included_iff {file : Path} :
    .included file ∈ (world.load main).trace ↔
      ∃ stack given, world.Composer main stack file given ∧ 1 < stack.length := by
  constructor
  · intro reported
    cases found : world.files.canonical main with
    | error cause =>
      simp only [load, found] at reported
      cases reported
    | ok first =>
      rw [trace_load found] at reported
      exact Composer.exists_of_included (.main found) reported
  · rintro ⟨stack, given, composer, longer⟩
    exact composer.sublist.2 longer

end World

end ConfigWeave
