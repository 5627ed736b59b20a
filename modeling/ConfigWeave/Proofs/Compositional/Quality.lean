import ConfigWeave.Proofs.Compositional.Regime

namespace ConfigWeave

/-- A property of runs that depend on something outside of them, an index. It holds of a run that only warns
and of one that only fails, and of two runs one after the other if it holds of both. -/
structure Compositional (ι : Type) where
  Holds : {α : Type} → (ι → Run α) → Prop
  pure : ∀ {α : Type} (a : α), Holds fun _ => (Pure.pure a : Run α)
  warned : ∀ (file : Path) (messages : List String), Holds fun _ => .reportAll (messages.map (.warned file))
  fail : ∀ {α : Type} (e : ComposeError), Holds fun _ => (.fail e : Run α)
  bind : ∀ {α β : Type} {x : ι → Run α} {f : ι → α → Run β},
    Holds x → (∀ a, Holds fun i => f i a) → Holds fun i => x i >>= f i

namespace Compositional

variable {ι α β : Type} {P : Compositional ι}

/-- The property of a run, and another one of what it results in. -/
structure Ensures (P : Compositional ι) (post : α → Prop) (x : ι → Run α) : Prop where
  holds : P.Holds x
  result : ∀ i a, (x i).result = .ok a → post a

namespace Ensures

theorem of_holds {x : ι → Run α} (holds : P.Holds x) : P.Ensures (fun _ => True) x :=
  ⟨holds, fun _ _ _ => trivial⟩

theorem pure {post : α → Prop} {a : α} (known : post a) : P.Ensures post fun _ => (Pure.pure a : Run α) :=
  ⟨P.pure a, fun _ _ same => Except.ok.inj same ▸ known⟩

theorem fail {post : α → Prop} (e : ComposeError) : P.Ensures post fun _ => (.fail e : Run α) :=
  ⟨P.fail e, nofun⟩

theorem mono {post more : α → Prop} {x : ι → Run α} (ensures : P.Ensures post x) (weaker : ∀ a, post a → more a) :
    P.Ensures more x :=
  ⟨ensures.holds, fun i a same => weaker a (ensures.result i a same)⟩

/-- What follows a run only has to be as it should be for the results that the run can have. Behind any other it may
as well fail. -/
theorem bind {post : α → Prop} {more : β → Prop} {x : ι → Run α} {f : ι → α → Run β} (first : P.Ensures post x)
    (later : ∀ a, post a → P.Ensures more fun i => f i a) : P.Ensures more fun i => x i >>= f i := by
  classical
  let guarded (i : ι) (a : α) : Run β := if post a then f i a else .fail (.encoding ⟨""⟩)
  have same (i : ι) : x i >>= f i = x i >>= guarded i :=
    Traced.bind_congr_of_ok fun a result => (if_pos (first.result i a result)).symm
  refine ⟨?_, fun i b done => ?_⟩
  · simp only [same]
    refine P.bind first.holds fun a => ?_
    by_cases known : post a
    · simpa only [guarded, if_pos known] using (later a known).holds
    · simpa only [guarded, if_neg known] using P.fail _
  · obtain ⟨a, start, rest⟩ := Traced.exists_of_bind_ok done
    exact (later a (first.result i a start)).result i b rest

end Ensures

/-- What can be ensured with a property. -/
def logic (P : Compositional ι) : RunLogic ι where
  Ensures := P.Ensures
  pure := .pure
  warned file messages := .of_holds (P.warned file messages)
  fail := .fail
  bind := .bind

/-- The property that every run has. What is ensured with it is only said of results. -/
def always : Compositional Unit where
  Holds _ := True
  pure _ := trivial
  warned _ _ := trivial
  fail _ := trivial
  bind _ _ := trivial

/-- Two runs that do the same. -/
def agreeing : Compositional Bool where
  Holds x := x true = x false
  pure _ := rfl
  warned _ _ := rfl
  fail _ := rfl
  bind := by
    intro α β x f first later
    dsimp only at first later ⊢
    rw [first, funext later]

end Compositional

/-- A quality of trees as they are written in documents, of trees as they come out, and of the scopes between.
Whatever is made in a composition of what has it has it too. -/
structure Quality where
  Written : Value → Prop
  Composed : Value → Prop
  Sound : Scope → Prop
  written : ∀ {v}, Composed v → Written v
  writtenItems : ∀ {items}, Written (.seq items) → ∀ item ∈ items, Written item
  writtenEntries : ∀ {entries : Mapping}, Written (.map entries) →
    ∀ entry ∈ entries, (Written entry.1 ∨ entry.1.IsPlainMerge) ∧ Written entry.2
  withoutSections : ∀ {entries : Mapping}, Written (.map entries) → Written (.map (Mapping.withoutSections entries))
  below : ∀ {name mark v}, Written v → Written (.tagged (.sub name) mark v)
  payload : ∀ {tag mark v}, Written (.tagged tag mark v) → tag ≠ .removal → tag ≠ .mergeKey → Written v
  kept : ∀ {tag mark v}, Written (.tagged tag mark v) → tag = .removal ∨ tag = .mergeKey →
    Composed (.tagged tag mark v)
  scalar : ∀ {v : Value}, v.IsScalar → Composed v
  seq : ∀ {items}, (∀ item ∈ items, Composed item) → Composed (.seq items)
  items : ∀ {items}, Composed (.seq items) → ∀ item ∈ items, Composed item
  entries : ∀ {entries : Mapping}, Composed (.map entries) → ∀ entry ∈ entries, Composed entry.1 ∧ Composed entry.2
  replacement : ∀ {mark v}, Composed v → Composed (.tagged .replacement mark v)
  collected : ∀ {entries : Mapping},
    (∀ entry ∈ entries, (Composed entry.1 ∨ entry.1.IsPlainMerge) ∧ Composed entry.2) →
    (Mapping.ofList entries).get? Value.mergeKey = none → Composed (.map (Mapping.ofList entries))
  merged : ∀ {entries sources : Mapping},
    (∀ entry ∈ entries, (Composed entry.1 ∨ entry.1.IsPlainMerge) ∧ Composed entry.2) →
    (∀ entry ∈ sources, Composed entry.1 ∧ Composed entry.2) →
    Composed (.map (((Mapping.ofList entries).erase Value.mergeKey).insertMissing sources))
  deepMerge : ∀ {target source : Mapping}, Composed (.map target) → Composed (.map source) →
    Composed (.map (target.deepMerge source))
  withoutHidden : ∀ {m : Mapping}, Composed (.map m) → Composed (.map m.withoutHidden)
  values : ∀ {scope}, Sound scope → ∀ entry ∈ scope.entries, Composed entry.2
  define : ∀ {scope name v}, Sound scope → Composed v → Sound (scope.define name v)
  unprotected : ∀ {scope}, Sound scope → Sound ⟨scope.entries.filter fun entry => !Scope.isBuiltin entry.1⟩
  interpolated : ∀ {scope}, Sound scope → ∀ p text, ∀ v, (interpolate p scope text).result = .ok (some v) →
    Composed v

namespace Quality

/-- The quality that everything has. -/
def any : Quality where
  Written _ := True
  Composed _ := True
  Sound _ := True
  written _ := trivial
  writtenItems _ _ _ := trivial
  writtenEntries _ _ _ := ⟨.inl trivial, trivial⟩
  withoutSections _ := trivial
  below _ := trivial
  payload _ _ _ := trivial
  kept _ _ := trivial
  scalar _ := trivial
  seq _ := trivial
  items _ _ _ := trivial
  entries _ _ _ := ⟨trivial, trivial⟩
  replacement _ := trivial
  collected _ _ := trivial
  merged _ _ := trivial
  deepMerge _ _ := trivial
  withoutHidden _ := trivial
  values _ _ _ := trivial
  define _ _ := trivial
  unprotected _ := trivial
  interpolated _ _ _ _ _ := trivial

/-- What comes of a node that may be dropped. -/
abbrev Outcome (Q : Quality) (v : Option Value) : Prop :=
  IfAny Q.Composed v

def Given (Q : Quality) (arguments : Arguments) : Prop :=
  ∀ entry ∈ arguments.vars, Q.Composed entry.2

/-- The bodies of templates are as they were written. -/
def Bodies (Q : Quality) (templates : Templates) : Prop :=
  ∀ name body, templates.get? name = some body → Q.Written body

variable {Q : Quality}

theorem Outcome.orNull {v : Option Value} (outcome : Q.Outcome v) : Q.Composed (v.getD .null) :=
  outcome.getD (Q.scalar trivial)

theorem bodies_empty : Q.Bodies .empty :=
  nofun

theorem defineAll {scope : Scope} (sound : Q.Sound scope) {vars : List (String × Value)}
    (composed : ∀ entry ∈ vars, Q.Composed entry.2) : Q.Sound (scope.defineAll vars).1 := by
  induction vars generalizing scope with
  | nil => exact sound
  | cons entry rest ih =>
    obtain ⟨first, later⟩ := List.forall_mem_cons.mp composed
    exact ih (Q.define sound first) later

theorem overlay {scope : Scope} (sound : Q.Sound scope) {vars : Mapping}
    (composed : ∀ entry ∈ vars, Q.Composed entry.2) : Q.Sound (scope.overlay vars).1 := by
  refine defineAll sound fun entry member => ?_
  obtain ⟨source, found, rfl⟩ := List.mem_map.mp member
  exact composed source found

theorem inherit {scope : Scope} (sound : Q.Sound scope) {vars : Mapping}
    (composed : ∀ entry ∈ vars, Q.Composed entry.2) : Q.Sound (scope.inherit vars).1 :=
  overlay (Q.unprotected sound) composed

theorem extend {scope other : Scope} (sound : Q.Sound scope) (others : Q.Sound other) :
    Q.Sound (scope.extend other) := by
  have composed := Q.values others
  unfold Scope.extend
  generalize other.entries = entries at composed
  induction entries generalizing scope with
  | nil => exact sound
  | cons entry rest ih =>
    obtain ⟨first, later⟩ := List.forall_mem_cons.mp composed
    exact ih (Q.define sound first) later

/-- Variables hold what is composed, and scopes belong together if they are the same sound scope. -/
def regime (Q : Quality) (ι : Type) : Regime ι where
  Written := Q.Written
  Composed := Q.Composed
  Held := Q.Composed
  Together scopes := ∃ scope, (∀ i, scopes i = scope) ∧ Q.Sound scope
  Reads := True
  written := Q.written
  held composed := composed
  heldScalar := Q.scalar
  writtenItems := Q.writtenItems
  writtenEntries := Q.writtenEntries
  withoutSections := Q.withoutSections
  payload := Q.payload
  kept := Q.kept
  substituted _ := trivial
  conditional _ := trivial
  below _ := Q.below
  null := Q.scalar trivial
  scalar _ := Q.scalar
  seq := Q.seq
  items := Q.items
  entries := Q.entries
  replacement := Q.replacement
  collected := Q.collected
  merged := Q.merged
  deepMerge := Q.deepMerge
  withoutHidden := Q.withoutHidden
  same := fun _ _ ⟨scope, same, sound⟩ => ⟨scope, same, Q.interpolated sound⟩
  overlaid := fun ⟨_, same, sound⟩ composed =>
    ⟨_, fun i => congrArg (fun scope => (Scope.overlay scope _).1) (same i), overlay sound composed⟩
  packaged := fun {_ id} ⟨_, same, sound⟩ =>
    ⟨_, fun i => congrArg (Scope.define · packageVariable _) (same i),
      Q.define sound (Q.scalar (v := .str id) trivial)⟩

theorem declares_regime (ι : Type) : (Q.regime ι).Declares :=
  fun name ⟨_, same, sound⟩ composed =>
    ⟨_, fun i => congrArg (Scope.define · name _) (same i), Q.define sound composed⟩

theorem together_regime {ι : Type} {scope : Scope} (sound : Q.Sound scope) : (Q.regime ι).Together fun _ => scope :=
  ⟨scope, fun _ => rfl, sound⟩

theorem given_ofPayload? {key : String} {v : Value} {arguments : Arguments} (composed : Q.Composed v)
    (asked : Arguments.ofPayload? key v = some arguments) : Q.Given arguments :=
  Regime.given_ofPayload? (R := Q.regime Unit) composed asked

end Quality

end ConfigWeave
