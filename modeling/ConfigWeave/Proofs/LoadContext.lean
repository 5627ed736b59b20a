import ConfigWeave.LoadContext
import ConfigWeave.Proofs.Composer
import ConfigWeave.Proofs.IncludeRegistry
import ConfigWeave.Proofs.SharedCache

namespace ConfigWeave

def Effect.included? : Effect → Option Path
  | .included file => some file
  | _ => none

theorem mem_filterMap_included? {trace : List Effect} {file : Path} :
    file ∈ trace.filterMap Effect.included? ↔ .included file ∈ trace :=
  mem_filterMap_of_eq_some_iff fun effect _ => by cases effect <;> simp [Effect.included?]

theorem includedFiles_eq_foldl (effects : List Effect) :
    includedFiles effects = (effects.filterMap Effect.included?).foldl PathIndex.addTo [] := by
  rw [includedFiles, List.foldl_filterMap]
  congr 1
  funext files effect
  cases effect <;> rfl

theorem includedFiles_eq_eraseDups (effects : List Effect) :
    includedFiles effects = (effects.filterMap Effect.included?).eraseDups := by
  rw [includedFiles_eq_foldl, PathIndex.foldl_addTo, List.nil_append, List.filter_eq_self.mpr (by simp)]

/-- Every file that is included is opened next, so that files are opened as they are included. -/
def openingIncluded : Compositional Unit where
  Holds x := (x ()).trace.filterMap Effect.opened? = (x ()).trace.filterMap Effect.included?
  pure _ := rfl
  warned file messages := by
    simp only [Traced.reportAll, List.filterMap_map]
    rfl
  fail _ := rfl
  bind := by
    intro α β x f first later
    dsimp only at later ⊢
    rcases result : (x ()).result with e | a
    · rw [Traced.bind_of_error result]
      exact first
    · rw [Traced.bind_of_ok result]
      simp only [List.filterMap_append, first, later a]

namespace World

open Compositional

/-- A file is opened before all that it includes. -/
theorem opened_composeWith {world : World} {nested : Option Composition} {stack : List Path} {file : Path}
    (including : ∀ lines mark arguments scope,
      openingIncluded.Holds fun _ => world.inclusion nested stack file lines mark arguments scope)
    (inherited : Scope) :
    (world.composeWith nested stack file inherited).trace.filterMap Effect.opened? =
      file :: (world.composeWith nested stack file inherited).trace.filterMap Effect.included? := by
  have start := world.trace_readText file
  rw [composeWith]
  cases read : (world.readText file).result with
  | error e =>
    rw [Traced.bind_of_error read, start]
    rfl
  | ok text =>
    rw [Traced.bind_of_ok read, start]
    refine congrArg (file :: ·) ?_
    cases Yaml.parse? text with
    | none => rfl
    | some content =>
      have documents : openingIncluded.Documents .any fun _ => world.document nested stack file text :=
        ⟨⟨_, fun _ => rfl⟩, ⟨_, fun _ => rfl⟩, fun _ _ _ _ _ => .of_holds (including _ _ _ _)⟩
      exact (documents.compose trivial inherited trivial).holds

/-- The files that a composition includes are opened in the order in which they are reported. The induction is on
the depth that is left. -/
theorem opened_nested (world : World) (budget : Nat) (stack : List Path) (file : Path) (inherited : Scope) :
    (world.composeWith (world.nested budget) stack file inherited).trace.filterMap Effect.opened? =
      file :: (world.composeWith (world.nested budget) stack file inherited).trace.filterMap Effect.included? := by
  have worlds : Worlds fun _ : Unit => world := .same world
  induction budget generalizing stack file inherited with
  | zero => exact opened_composeWith (fun lines mark arguments scope =>
      worlds.inclusion stack file lines mark arguments scope fun _ _ _ => .inl fun _ => rfl) inherited
  | succ budget ih =>
    refine opened_composeWith (fun lines mark arguments scope =>
      worlds.inclusion stack file lines mark arguments scope ?_) inherited
    refine fun target _ _ => .inr ⟨_, fun _ => rfl, fun messages given => ?_⟩
    have silent (f : Effect → Option Path) (none : ∀ message, f (.warned file message) = .none) :
        (messages.map (Effect.warned file)).filterMap f = [] := by
      simp [List.filterMap_map, none]
    show (Effect.included target :: (messages.map (.warned file) ++ _)).filterMap Effect.opened? =
      (Effect.included target :: (messages.map (.warned file) ++ _)).filterMap Effect.included?
    simp only [List.filterMap_cons, List.filterMap_append, Effect.opened?, Effect.included?,
      silent Effect.opened? fun _ => rfl, silent Effect.included? fun _ => rfl, List.nil_append]
    exact ih (stack ++ [target]) target given

end World

namespace LoadContext

theorem record_spec (context : LoadContext) (effect : Effect) :
    (context.record effect).2.toSession = context.toSession.record effect ∧
      (context.record effect).2.notified = context.notified ++ (context.record effect).1 ∧
      (context.record effect).2.notified = effect.included?.toList.foldl PathIndex.addTo context.notified := by
  cases effect with
  | warned file message => exact ⟨rfl, (List.append_nil _).symm, rfl⟩
  | opened file => exact ⟨rfl, (List.append_nil _).symm, rfl⟩
  | included file =>
    simp only [record, notify, Effect.included?, Option.toList_some, List.foldl_cons, List.foldl_nil,
      PathIndex.addTo]
    split
    · exact ⟨rfl, (List.append_nil _).symm, rfl⟩
    · exact ⟨rfl, rfl, rfl⟩

/-- The host is told of what becomes known, and it becomes known what is included. -/
theorem recordAll_spec (context : LoadContext) (effects : List Effect) :
    (context.recordAll effects).2.toSession = effects.foldl Session.record context.toSession ∧
      (context.recordAll effects).2.notified = context.notified ++ (context.recordAll effects).1 ∧
      (context.recordAll effects).2.notified =
        (effects.filterMap Effect.included?).foldl PathIndex.addTo context.notified := by
  induction effects generalizing context with
  | nil => exact ⟨rfl, (List.append_nil _).symm, rfl⟩
  | cons effect rest ih =>
    obtain ⟨session, told, known⟩ := context.record_spec effect
    obtain ⟨laterSession, laterTold, laterKnown⟩ := ih (context.record effect).2
    refine ⟨laterSession.trans (by rw [session, List.foldl_cons]), laterTold.trans ?_, laterKnown.trans ?_⟩
    · rw [told, List.append_assoc]
      rfl
    · rw [known, ← List.foldl_append]
      congr 1
      cases effect <;> rfl

/-- The host is told of the files that are included, each when it is included first, whatever it was told of
before. -/
theorem told_load (context : LoadContext) (main : Path) :
    (context.load main).2.1 = includedFiles (context.toWorld.load main).trace := by
  cases found : context.files.canonical main with
  | error cause => simp only [load, World.load, found, Traced.fail, includedFiles, List.foldl_nil]
  | ok first =>
    simp only [load, found]
    obtain ⟨_, told, known⟩ := recordAll_spec { context with notified := [] } (context.toWorld.load main).trace
    rw [told, List.nil_append, ← includedFiles_eq_foldl] at known
    exact known

/-- The bookkeeping of a load, whatever has been loaded before with the same context. Every composer has a stack
that leads from the main document to its own file, without repetition and with no more files than documents may be
nested besides the main document. The host is told of pairwise different files, never of the main document, and of
just those that are to be composed besides it, in the order in which they are opened first. -/
theorem load_bookkeeping (context : LoadContext) (main : Path) :
    (∀ stack file given, context.Composer main stack file given →
      (∃ first, context.files.canonical main = .ok first ∧ stack.head? = some first) ∧ stack.getLast? = some file ∧
        (stack.Pairwise fun a b => (b == a) = false) ∧ stack.length ≤ context.settings.maxDepth + 1) ∧
    ((context.load main).2.1.Pairwise fun a b => (b == a) = false) ∧
    (∀ first, context.files.canonical main = .ok first →
      ∀ file ∈ (context.load main).2.1, (file == first) = false) ∧
    (∀ file, file ∈ (context.load main).2.1 ↔
      ∃ stack given, context.Composer main stack file given ∧ 1 < stack.length) ∧
    (context.load main).2.1 = ((context.toWorld.load main).trace.filterMap Effect.opened?).tail.eraseDups := by
  have listed (file : Path) : file ∈ (context.load main).2.1 ↔
      ∃ stack given, context.Composer main stack file given ∧ 1 < stack.length := by
    rw [told_load, World.mem_includedFiles_load, World.included_iff]
  refine ⟨fun stack file given composer => composer.stack, ?_, ?_, listed, ?_⟩
  · rw [told_load, includedFiles_eq_foldl]
    exact PathIndex.pairwise_foldl_addTo List.Pairwise.nil _
  · intro first found file member
    obtain ⟨stack, given, composer, longer⟩ := (listed file).mp member
    exact composer.ne_main found longer
  · rw [told_load, includedFiles_eq_eraseDups]
    cases found : context.files.canonical main with
    | error cause => simp only [World.load, found, Traced.fail, List.filterMap_nil, List.tail_nil]
    | ok first =>
      rw [World.trace_load found]
      exact congrArg (fun opened : List Path => opened.tail.eraseDups)
        (context.toWorld.opened_nested context.settings.maxDepth [first] first .empty).symm

/-- One context for two loads. The second one tells of the same files again, each once. -/
theorem load_bookkeeping_again :
    let files : FileSystem :=
      ⟨[(["main"], .file "a: !include other\nb: !include other\n".toUTF8.toList (.change 0)),
        (["other"], .file "x: 1\n".toUTF8.toList (.change 1))], [], 2⟩
    let context : LoadContext := ⟨⟨⟨files, .empty, [], .ofRoot ⟨"/"⟩⟩, .empty⟩, []⟩
    let again := (context.load ⟨"/main"⟩).2.2
    (again.load ⟨"/main"⟩).2.1.map Path.text = ["/other"] ∧
      ∃ stack given, again.Composer ⟨"/main"⟩ stack ⟨"/other"⟩ given ∧ stack.getLast? = some ⟨"/other"⟩ := by
  intro files context again
  have told : (again.load ⟨"/main"⟩).2.1.map Path.text = ["/other"] := by decide +kernel
  obtain ⟨composers, _, _, listed, _⟩ := again.load_bookkeeping ⟨"/main"⟩
  refine ⟨told, ?_⟩
  obtain ⟨file, member, text⟩ := List.mem_map.mp (told ▸ List.mem_singleton_self "/other")
  obtain rfl : file = ⟨"/other"⟩ := by
    cases file
    cases text
    rfl
  obtain ⟨stack, given, composer, _⟩ := (listed _).mp member
  exact ⟨stack, given, composer, (composers _ _ _ composer).2.1⟩

end LoadContext

end ConfigWeave
