import ConfigWeave.Proofs.MergedTree
import ConfigWeave.Proofs.Scope

namespace ConfigWeave

/-- What is ensured of runs that depend on something outside of them, an index, together with a property of what
they result in. It is ensured of a run that only warns and of one that only fails, and of two runs one after the
other if it is ensured of the second for what the first may result in. -/
structure RunLogic (ι : Type) where
  Ensures : {α : Type} → (α → Prop) → (ι → Run α) → Prop
  pure : ∀ {α : Type} {post : α → Prop} {a : α}, post a → Ensures post fun _ => (Pure.pure a : Run α)
  warned : ∀ (file : Path) (messages : List String),
    Ensures (fun _ => True) fun _ => .reportAll (messages.map (.warned file))
  fail : ∀ {α : Type} {post : α → Prop} (e : ComposeError), Ensures post fun _ => (.fail e : Run α)
  bind : ∀ {α β : Type} {post : α → Prop} {more : β → Prop} {x : ι → Run α} {f : ι → α → Run β},
    Ensures post x → (∀ a, post a → Ensures more fun i => f i a) → Ensures more fun i => x i >>= f i

namespace RunLogic.Ensures

variable {ι α β : Type} {L : RunLogic ι}

theorem pure {post : α → Prop} {a : α} (known : post a) : L.Ensures post fun _ => (Pure.pure a : Run α) :=
  L.pure known

theorem fail {post : α → Prop} (e : ComposeError) : L.Ensures post fun _ => (.fail e : Run α) :=
  L.fail e

theorem bind {post : α → Prop} {more : β → Prop} {x : ι → Run α} {f : ι → α → Run β} (first : L.Ensures post x)
    (later : ∀ a, post a → L.Ensures more fun i => f i a) : L.Ensures more fun i => x i >>= f i :=
  L.bind first later

theorem mono {post more : α → Prop} {x : ι → Run α} (ensures : L.Ensures post x) (weaker : ∀ a, post a → more a) :
    L.Ensures more x := by
  simpa only [bind_pure] using ensures.bind fun a known => L.pure (weaker a known)

end RunLogic.Ensures

/-- Which trees are written, what may come of them and what variables may hold, and for runs that depend on an
index, which scopes may belong together. Where trees ask for values of variables, by a placeholder or a condition,
such scopes must be the same. -/
structure Regime (ι : Type) where
  Written : Value → Prop
  Composed : Value → Prop
  Held : Value → Prop
  Together : (ι → Scope) → Prop
  Reads : Prop
  written : ∀ {v}, Composed v → Written v
  held : ∀ {v}, Composed v → Held v
  heldScalar : ∀ {v : Value}, v.IsScalar → Held v
  writtenItems : ∀ {items}, Written (.seq items) → ∀ item ∈ items, Written item
  writtenEntries : ∀ {entries : Mapping}, Written (.map entries) →
    ∀ entry ∈ entries, (Written entry.1 ∨ entry.1.IsPlainMerge) ∧ Written entry.2
  withoutSections : ∀ {entries : Mapping}, Written (.map entries) → Written (.map (Mapping.withoutSections entries))
  payload : ∀ {tag mark v}, Written (.tagged tag mark v) → tag ≠ .removal → tag ≠ .mergeKey → Written v
  kept : ∀ {tag mark v}, Written (.tagged tag mark v) → tag = .removal ∨ tag = .mergeKey →
    Composed (.tagged tag mark v)
  substituted : ∀ {name mark v}, Written (.tagged (.sub name) mark v) → Reads
  conditional : ∀ {mark v}, Written (.tagged .cond mark v) → Reads
  below : ∀ {name mark v}, Reads → Written v → Written (.tagged (.sub name) mark v)
  null : Composed .null
  scalar : ∀ {v : Value}, Written v → v.IsScalar → Composed v
  seq : ∀ {items}, (∀ item ∈ items, Composed item) → Composed (.seq items)
  items : ∀ {items}, Composed (.seq items) → ∀ item ∈ items, Composed item
  entries : ∀ {entries : Mapping}, Composed (.map entries) → ∀ entry ∈ entries, Composed entry.1 ∧ Composed entry.2
  replacement : ∀ {mark v}, Composed v → Composed (.tagged .replacement mark v)
  collected : ∀ {entries : Mapping},
    (∀ entry ∈ entries, (Composed entry.1 ∨ entry.1.IsPlainMerge) ∧ Composed entry.2) →
    (Mapping.ofList entries).get? Value.mergeKey = none → Composed (.map (Mapping.ofList entries))
  merged : ∀ {entries sources : Mapping},
    (∀ entry ∈ entries, (Composed entry.1 ∨ entry.1.IsPlainMerge) ∧ Composed entry.2) →
    (∀ entry ∈ sources, Composed entry.1 ∧ Composed entry.2) →
    Composed (.map (((Mapping.ofList entries).erase Value.mergeKey).insertMissing sources))
  deepMerge : ∀ {target source : Mapping}, Composed (.map target) → Composed (.map source) →
    Composed (.map (target.deepMerge source))
  withoutHidden : ∀ {m : Mapping}, Composed (.map m) → Composed (.map m.withoutHidden)
  same : Reads → ∀ {scopes}, Together scopes → ∃ scope, (∀ i, scopes i = scope) ∧
    ∀ p text, ∀ v, (interpolate p scope text).result = .ok (some v) → Composed v
  overlaid : ∀ {scopes} {vars : Mapping}, Together scopes → (∀ entry ∈ vars, Held entry.2) →
    Together fun i => ((scopes i).overlay vars).1
  packaged : ∀ {scopes id}, Together scopes → Together fun i => (scopes i).define packageVariable (.str id)

namespace Regime

variable {ι : Type} {R : Regime ι}

/-- What may stand as a key in a document. -/
def WrittenKey (R : Regime ι) (key : Value) : Prop :=
  R.Written key ∨ key.IsPlainMerge

/-- What may be a key before merge keys are resolved. -/
def ComposedKey (R : Regime ι) (key : Value) : Prop :=
  R.Composed key ∨ key.IsPlainMerge

/-- What comes of a node that may be dropped. -/
abbrev Outcome (R : Regime ι) (v : Option Value) : Prop :=
  IfAny R.Composed v

def Given (R : Regime ι) (arguments : Arguments) : Prop :=
  ∀ entry ∈ arguments.vars, R.Held entry.2

/-- The bodies of templates are as they were written. -/
def Bodies (R : Regime ι) (templates : Templates) : Prop :=
  ∀ name body, templates.get? name = some body → R.Written body

/-- Scopes stay together when a variable is declared. -/
def Declares (R : Regime ι) : Prop :=
  ∀ {scopes : ι → Scope} {v : Value} (name : String), R.Together scopes → R.Held v →
    R.Together fun i => (scopes i).define name v

theorem Outcome.orNull {v : Option Value} (outcome : R.Outcome v) : R.Composed (v.getD .null) :=
  outcome.getD R.null

theorem unaliased {v : Value} (written : R.Written v) : R.Written v.unaliased := by
  fun_induction Value.unaliased v with
  | case1 mark payload ih => exact ih (R.payload written nofun nofun)
  | case2 v _ => exact written

theorem written_of_get? {entries : Mapping} {key v : Value} (written : R.Written (.map entries))
    (found : entries.get? key = some v) : R.Written v := by
  obtain ⟨entry, member, rfl⟩ := Value.exists_mem_of_get? found
  exact (R.writtenEntries written entry member).2

theorem composed_of_get? {entries : Mapping} {key v : Value} (composed : R.Composed (.map entries))
    (found : entries.get? key = some v) : R.Composed v := by
  obtain ⟨entry, member, rfl⟩ := Value.exists_mem_of_get? found
  exact (R.entries composed entry member).2

theorem given_ofTarget? {target : List Char} {vars : Mapping} {arguments : Arguments}
    (held : ∀ entry ∈ vars, R.Held entry.2) (asked : Arguments.ofTarget? target vars = some arguments) :
    R.Given arguments := by
  unfold Arguments.ofTarget? at asked
  split at asked
  · cases asked
  · cases asked
    exact held

theorem held_ofQuery (text : List Char) : ∀ entry ∈ Arguments.ofQuery text, R.Held entry.2 := by
  have each : ∀ entry ∈ ((text.splitOnP (· == '&')).filter (!·.isEmpty)).map Arguments.queryEntry,
      True ∧ R.Held entry.2 := by
    intro entry member
    obtain ⟨part, _, rfl⟩ := List.mem_map.mp member
    refine ⟨trivial, R.heldScalar ?_⟩
    unfold Arguments.queryEntry
    split
    · exact Scalar.isScalar_plain _
    · trivial
  intro entry member
  exact (Mapping.forall_mem_insertAll (P := fun _ => True) (by simp) each entry member).2

theorem given_ofPayload? {key : String} {v : Value} {arguments : Arguments} (composed : R.Composed v)
    (asked : Arguments.ofPayload? key v = some arguments) : R.Given arguments := by
  unfold Arguments.ofPayload? at asked
  split at asked
  · cases asked
  · rename_i entries
    split at asked
    · cases asked
    · cases asked
    · refine given_ofTarget? ?_ asked
      cases found : (Mapping.get? entries (.str "vars")).bind Value.map? with
      | none => simp
      | some vars =>
        obtain ⟨v, under, isMap⟩ := Option.bind_eq_some_iff.mp found
        cases v <;> cases isMap
        exact fun entry member => R.held (R.entries (composed_of_get? composed under) entry member).2
  · split at asked
    · exact given_ofTarget? (held_ofQuery _) asked
    · exact given_ofTarget? (by simp) asked
  · exact given_ofTarget? (by simp) asked

theorem bodies_empty : R.Bodies .empty :=
  nofun

theorem Bodies.define {templates : Templates} (bodies : R.Bodies templates) (name : String) {body : Value}
    (written : R.Written body) : R.Bodies (templates.define name body) := by
  intro other found known
  by_cases same : other = name
  · subst same
    cases (Bindings.get?_set_self templates.bodies other body).symm.trans known
    exact written
  · exact bodies other found ((Bindings.get?_set_of_ne same templates.bodies body).symm.trans known)

theorem bodies_ofMapping {entries : Mapping} (written : ∀ entry ∈ entries, R.Written entry.2) :
    R.Bodies (.ofMapping entries) := by
  unfold Templates.ofMapping
  generalize start : Templates.empty = templates
  have bodies : R.Bodies templates := start ▸ bodies_empty
  clear start
  induction entries generalizing templates with
  | nil => exact bodies
  | cons entry rest ih =>
    obtain ⟨first, others⟩ := List.forall_mem_cons.mp written
    exact ih others _ (bodies.define _ first)

end Regime

end ConfigWeave
