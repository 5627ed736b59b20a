import ConfigWeave.Proofs.Composer
import ConfigWeave.Proofs.Dependency
import ConfigWeave.Proofs.IncludeChain
import ConfigWeave.Proofs.Settled.Scoped
import ConfigWeave.Proofs.Settled.Override

namespace ConfigWeave

/-- Trees that come of settled scopes are settled. -/
def Composition.Settling (compose : Composition) : Prop :=
  ∀ stack file given v, given.Settled → (compose stack file given).result = .ok v → v.Settled

/-- A run is the same with all compositions that agree on settled scopes. -/
def unaffected : Compositional {compose : Composition // compose.Settling} where
  Holds x := ∀ compose other,
    (∀ stack file given, given.Settled → compose.1 stack file given = other.1 stack file given) →
    x compose = x other
  pure _ _ _ _ := rfl
  warned _ _ _ _ _ := rfl
  fail _ _ _ _ := rfl
  bind := by
    intro α β x f first later compose other agree
    dsimp only
    rw [first compose other agree]
    exact congrArg _ (funext fun a => later a compose other agree)

namespace World

variable {world : World} {main : Path}

theorem ensures_composeOnce (stack : List Path) {file : Path} {inherited : Scope} (settled : inherited.Settled)
    (orderly : ∀ content, world.Contains file content → content.Orderly) :
    unaffected.Ensures Value.Settled fun compose => world.composeOnce compose.1 stack file inherited := by
  have worlds : Compositional.Worlds fun _ : {compose : Composition // compose.Settling} => world := .same world
  unfold composeOnce
  refine Compositional.ensures_composeWith (Q := .settling) ⟨_, Scope.settled_builtin _ _ _ _, fun _ => rfl⟩ settled
    ⟨fun _ _ _ => rfl, fun _ text read content parsed => ?_⟩ fun lines mark arguments scope given sound => ?_
  · exact Yaml.proper_of_parse parsed (orderly content ⟨text, read, parsed⟩)
  · refine worlds.ensures_inclusion (Q := .settling) stack file lines mark given sound fun target _ _ => ?_
    by_cases room : stack.length ≤ world.settings.maxDepth
    · refine .inr ⟨Subtype.val, fun _ => if_pos room, fun messages inherited settled => ?_⟩
      refine ⟨fun compose other agree => ?_, fun compose v done => ?_⟩
      · rw [agree _ _ _ settled]
      · exact compose.2 _ _ _ v settled done
    · exact .inl fun _ => if_neg room

/-- What a load composes on top of so many files, and nothing else. -/
noncomputable def above (world : World) (main : Path) (height : Nat) : Composition := by
  classical
  exact fun stack file given =>
    if world.Composer main stack file given ∧ height < stack.length then world.compose stack file given
    else .fail (.encoding file)

theorem Composer.above {stack : List Path} {file : Path} {given : Scope}
    (composer : world.Composer main stack file given) {height : Nat} (higher : height < stack.length) :
    world.above main height stack file given = world.compose stack file given :=
  if_pos ⟨composer, higher⟩

theorem composer_of_above {height : Nat} {stack : List Path} {file : Path} {given : Scope} {v : Value}
    (done : (world.above main height stack file given).result = .ok v) :
    world.Composer main stack file given ∧ height < stack.length ∧
      (world.compose stack file given).result = .ok v := by
  unfold World.above at done
  split at done
  · rename_i known
    exact ⟨known.1, known.2, done⟩
  · cases done

theorem Asks.above {stack deeper : List Path} {file target : Path} {inherited given : Scope}
    (asks : world.Asks stack file inherited deeper target given)
    (composer : world.Composer main stack file inherited) {height : Nat} (below : height ≤ stack.length) :
    world.above main height deeper target given = world.compose deeper target given := by
  refine (composer.asked asks).above ?_
  obtain ⟨rfl, _⟩ := asks.call
  rw [List.length_append, List.length_singleton]
  omega

/-- A composition in the course of a load is one step on top of what the load composes. -/
theorem Composer.composeOnce_above {stack : List Path} {file : Path} {given : Scope}
    (composer : world.Composer main stack file given) {height : Nat} (below : height ≤ stack.length) :
    world.composeOnce (world.above main height) stack file given = world.compose stack file given :=
  composeOnce_of_asked fun _ _ _ asks => asks.above composer below

/-- All documents that are composed in a load are in order. -/
def Orderly (world : World) (main : Path) : Prop :=
  ∀ stack file given content, world.Composer main stack file given → world.Contains file content → content.Orderly

theorem Composer.ensures_composeOnce (orderly : world.Orderly main) {stack : List Path} {file : Path}
    {given : Scope} (composer : world.Composer main stack file given) (settled : given.Settled) :
    unaffected.Ensures Value.Settled fun compose => world.composeOnce compose.1 stack file given :=
  World.ensures_composeOnce stack settled fun content => orderly stack file given content composer

/-- A composer that is given what is settled asks for nothing with other variables. Anything could come of that
without a difference; but if it does all that the composition does, then that does more. -/
theorem Asks.settled (orderly : world.Orderly main) {stack deeper : List Path} {file target : Path}
    {inherited given : Scope} (asks : world.Asks stack file inherited deeper target given)
    (composer : world.Composer main stack file inherited) (settled : inherited.Settled)
    (settling : (world.above main stack.length).Settling) : given.Settled := by
  refine Classical.byContradiction fun unsettled => ?_
  let whole : Run Value := ⟨(world.compose stack file inherited).trace, .ok .null⟩
  let changed := (world.above main stack.length).answering deeper target given whole
  have agree (around : List Path) (other : Path) (scope : Scope) (settled : scope.Settled) :
      world.above main stack.length around other scope = changed around other scope := by
    refine (Composition.answering_of_ne _ ?_ _).symm
    rintro ⟨⟩
    exact unsettled settled
  have alsoSettling : changed.Settling := fun around other scope v settled done =>
    settling around other scope v settled (agree around other scope settled ▸ done)
  have unchanged := (composer.ensures_composeOnce orderly settled).holds ⟨_, settling⟩ ⟨changed, alsoSettling⟩ agree
  have more : (.included target :: (changed deeper target given).trace).Sublist
      (world.composeOnce changed stack file inherited).trace :=
    asks.sublist fun _ _ _ also apart =>
      (Composition.answering_of_ne _ apart _).trans (also.above composer (Nat.le_refl _))
  have there : changed deeper target given = whole := Composition.answering_self ..
  dsimp only at unchanged
  rw [there, ← unchanged, composer.composeOnce_above (Nat.le_refl _)] at more
  exact absurd more.length_le (Nat.not_succ_le_self _)

theorem Composer.settled_of_given (orderly : world.Orderly main) {stack : List Path} {file : Path} {given : Scope}
    (composer : world.Composer main stack file given) (settled : given.Settled)
    (settling : (world.above main stack.length).Settling) {v : Value}
    (done : (world.compose stack file given).result = .ok v) : v.Settled := by
  refine (composer.ensures_composeOnce orderly settled).result ⟨_, settling⟩ v ?_
  rw [composer.composeOnce_above (Nat.le_refl _)]
  exact done

/-- The induction is on the number of files for which there is room on top of so many. -/
theorem settling_above (orderly : world.Orderly main) (height : Nat) : (world.above main height).Settling := by
  obtain ⟨room, left⟩ : ∃ room, room = world.settings.maxDepth + 1 - height := ⟨_, rfl⟩
  induction room using Nat.strongRecOn generalizing height with
  | ind room ih =>
    intro stack file given v settled done
    obtain ⟨composer, higher, done⟩ := composer_of_above done
    have bound := composer.stack.2.2.2
    have settling := ih (world.settings.maxDepth + 1 - stack.length) (by omega) stack.length rfl
    exact composer.settled_of_given orderly settled settling done

theorem Composer.settled (orderly : world.Orderly main) {stack : List Path} {file : Path} {given : Scope}
    (composer : world.Composer main stack file given) :
    given.Settled ∧ ∀ v, (world.compose stack file given).result = .ok v → v.Settled := by
  have known : given.Settled := by
    induction composer with
    | main _ => exact Scope.settled_empty
    | asked composer asks ih => exact asks.settled orderly composer ih (settling_above orderly _)
  exact ⟨known, fun _ => composer.settled_of_given orderly known (settling_above orderly _)⟩

/-- The scopes of a load: what composers are given, and those of their documents, in which only what the load
composes is included. -/
inductive Scoped (world : World) (main : Path) : Scope → Prop
  | given {stack file given} : world.Composer main stack file given → world.Scoped main given
  | document {stack file given text content scope} : world.Composer main stack file given →
      (world.readText file).result = .ok text → Yaml.parse? text = some content →
      (world.document (some (world.above main 0)) stack file text).Scoped content
        ((world.builtins file).extend given) scope →
      world.Scoped main scope

theorem includesSettled_above (orderly : world.Orderly main) (stack : List Path) (file : Path) (text : String) :
    (world.document (some (world.above main 0)) stack file text).IncludesSettled := by
  intro mark arguments scope v done
  simp only [document, inclusion] at done
  split at done
  · cases done
  · split at done
    · cases done
    · obtain ⟨_, _, done⟩ := Traced.exists_of_bind_ok done
      obtain ⟨_, _, done⟩ := Traced.exists_of_bind_ok done
      obtain ⟨composer, _, done⟩ := composer_of_above done
      exact (composer.settled orderly).2 v done

theorem Scoped.settled (orderly : world.Orderly main) {scope : Scope} (arises : world.Scoped main scope) :
    scope.Settled := by
  cases arises with
  | given composer => exact (composer.settled orderly).1
  | @document stack file given text content scope composer read parsed arises =>
    have start : ((world.builtins file).extend given).Settled :=
      Quality.extend (Q := .settling) (Scope.settled_builtin _ _ _ _) (composer.settled orderly).1
    have proper := Yaml.proper_of_parse parsed (orderly stack file given content composer ⟨text, read, parsed⟩)
    exact OpenDocument.Scoped.settled (includesSettled_above orderly stack file text) proper start arises

/-- No tag is dropped silently in a load of documents in which there are no tags below what is to be removed and no
alias stands for a merge key. What comes of a document, of the main one as of those that are included, has no other
tags than those that override what packages contribute, also in its keys, and these are gone once the overrides are
applied; so it is with all values in all scopes. To finish the main document, only null keys are left to be taken
out of it. -/
theorem resolved_load (world : World) (main : Path) (orderly : world.Orderly main) :
    (∀ stack file given v, world.Composer main stack file given → (world.compose stack file given).result = .ok v →
      v.Resolved) ∧
    (∀ scope, world.Scoped main scope → ∀ entry ∈ scope.entries, entry.2.Resolved) ∧
    ∀ v, (world.load main).result = .ok v → ∃ first composed, world.files.canonical main = .ok first ∧
      (world.compose [first] first .empty).result = .ok composed ∧ composed.Resolved ∧ v = composed.finished ∧
      v = composed.overridden.withoutNullKeys := by
  have composed (stack file given v) (composer : world.Composer main stack file given)
      (done : (world.compose stack file given).result = .ok v) : v.Resolved :=
    ((composer.settled orderly).2 v done).resolved
  refine ⟨composed, fun scope arises entry member => ((arises.settled orderly).values entry member).resolved, ?_⟩
  intro v loaded
  cases found : world.files.canonical main with
  | error cause =>
    simp only [load, found] at loaded
    cases loaded
  | ok first =>
    simp only [load, found] at loaded
    obtain ⟨tree, done, finished⟩ := Traced.exists_of_bind_ok loaded
    obtain rfl : tree.finished = v := Except.ok.inj finished
    have resolved := composed [first] first .empty tree (.main found) done
    exact ⟨first, tree, rfl, done, resolved, rfl, by rw [Value.finished_eq, resolved.untagged]⟩

theorem resolved_load_overriding :
    let files : FileSystem :=
      ⟨[(["main"], .file
          "variables:\n  x: !replace 1\na: !sub ${ x }\nb: !remove 2\nc: !include other\n".toUTF8.toList
          (.change 0)),
        (["other"], .file "d: !unknown 3\n".toUTF8.toList (.change 1))], [], 2⟩
    let world : World := ⟨files, .empty, [], .ofRoot ⟨"/"⟩⟩
    world.Orderly ⟨"/main"⟩ ∧ ∃ v, (world.load ⟨"/main"⟩).result = .ok v ∧
      (v == .map [(.str "a", .int 1), (.str "c", .map [(.str "d", .int 3)])]) = true ∧
      ∃ composed : Value, composed.hasOverride = true ∧ composed.Resolved ∧
      v = composed.overridden.withoutNullKeys := by
  intro files world
  have orderly : world.Orderly ⟨"/main"⟩ := by
    intro stack file given content _ contains
    obtain ⟨place, bytes, modified, text, member, decoded, parsed⟩ := contains.exists_node rfl
    have both : ∀ node ∈ files.nodes, ∀ bytes modified, node.2 = .file bytes modified →
        ∀ text ∈ String.fromUTF8? ⟨bytes.toArray⟩, ∀ content ∈ Yaml.parse? text, content.Orderly := by
      simp only [files, List.forall_mem_cons]
      refine ⟨?_, ?_, by simp⟩
      · rintro _ _ ⟨⟩
        decide +kernel
      · rintro _ _ ⟨⟩
        decide +kernel
    exact both _ member bytes modified rfl text decoded content parsed
  refine ⟨orderly, ?_⟩
  have evaluated : (world.load ⟨"/main"⟩).result.toOption.any
      (· == .map [(.str "a", .int 1), (.str "c", .map [(.str "d", .int 3)])]) = true := by decide +kernel
  have overriding : ∀ first ∈ (world.files.canonical ⟨"/main"⟩).toOption,
      ∀ composed ∈ (world.compose [first] first .empty).result.toOption, composed.hasOverride =
        true := by decide +kernel
  cases loaded : (world.load ⟨"/main"⟩).result with
  | error e =>
    rw [loaded] at evaluated
    cases evaluated
  | ok v =>
    rw [loaded] at evaluated
    obtain ⟨first, composed, found, done, resolved, _, same⟩ := (world.resolved_load ⟨"/main"⟩ orderly).2.2 v loaded
    refine ⟨v, rfl, evaluated, composed, overriding first ?_ composed ?_, resolved, same⟩
    · rw [found]
      rfl
    · rw [done]
      rfl

end World

end ConfigWeave
