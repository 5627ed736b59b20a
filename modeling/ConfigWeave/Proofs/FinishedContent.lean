import ConfigWeave.Proofs.Settled.Load

namespace ConfigWeave

namespace Value

theorem OverridesOnly.standing {inner v : Value} (only : v.OverridesOnly) (standing : Standing inner v) :
    inner.OverridesOnly :=
  fun _ _ _ inside => only _ _ _ (inside.trans standing)

theorem KeysDistinct.standing {inner v : Value} (distinct : v.KeysDistinct) (standing : Standing inner v) :
    inner.KeysDistinct := by
  induction standing with
  | self => exact distinct
  | item member _ ih => exact ih (everyMapping_seq_iff.mp distinct _ member)
  | key member _ ih => exact ih ((everyMapping_map_iff.mp distinct).2 _ member).1
  | value member _ ih => exact ih ((everyMapping_map_iff.mp distinct).2 _ member).2
  | payload _ _ ih => exact ih (everyMapping_tagged_iff.mp distinct)

/-- A walk leaves a tree as it is, as well as all that the tree is made of, below what is to be removed apart.
Nothing is carried out, and nothing is reported. -/
def Stays (v : Value) : Prop :=
  ∀ inner, Standing inner v → ∀ (site : Site) (scope : Scope), transform site scope none inner = pure (some inner)

theorem OverridesOnly.stays {v : Value} (only : v.OverridesOnly) (distinct : v.KeysDistinct) : v.Stays :=
  fun _ standing site scope =>
    transform_of_overridesOnly site scope (only.standing standing) (distinct.standing standing)

theorem Settled.stays {v : Value} (settled : v.Settled) : v.Stays :=
  settled.overridesOnly.stays settled.keysDistinct

end Value

namespace World

variable {world : World} {main file : Path}

theorem load_of_tagFree (leads : world.files.canonical main = .ok file) {content : Value}
    (contains : world.Contains file content) (free : content.TagFree)
    (undivided : ∀ entries, content = .map entries → Mapping.Undivided entries) :
    world.load main = ⟨[.opened file], .ok content.withoutNullKeys⟩ := by
  have distinct := contains.keysDistinct
  obtain ⟨text, read, parsed⟩ := contains
  have opened : world.readText file = ⟨[.opened file], .ok text⟩ := by rw [← world.trace_readText file, ← read]
  have composed : world.composeWith (world.nested world.settings.maxDepth) [file] file .empty =
      ⟨[.opened file], .ok content⟩ := by
    simp only [composeWith, opened, Traced.bind_ok, parsed,
      OpenDocument.compose_of_tagFree _ _ _ free undivided distinct, Traced.pure_def, List.append_nil]
  simp only [load, leads, composed, Traced.bind_ok, Traced.pure_def, List.append_nil,
    Value.finished_of_tagFree free distinct]

/-- Finished content is a fixed point of composition. A tree with no other tags than those that override, whatever
there is below what is to be removed, comes through a walk as it is, in every document, among all templates and in
every scope, and nothing is reported; a tree without tags comes through the overrides as well. So a main document
without tags, without sections and without hidden entries is loaded as it is but for null keys, and only its file
is opened. What is composed in a load of documents that are in order, and what variables hold there, is finished:
where it is walked again, as a whole or in parts, that changes nothing. -/
theorem finished_walk :
    (∀ v : Value, v.OverridesOnly → v.KeysDistinct →
      ∀ (site : Site) (scope : Scope), transform site scope none v = pure (some v)) ∧
    (∀ v : Value, v.TagFree → v.KeysDistinct → v.applyOverrides? = some v) ∧
    (∀ (world : World) main file content, world.files.canonical main = .ok file → world.Contains file content →
      content.TagFree → (∀ entries, content = .map entries → Mapping.Undivided entries) →
      world.load main = ⟨[.opened file], .ok content.withoutNullKeys⟩) ∧
    ∀ (world : World) main, world.Orderly main →
      (∀ stack file given v, world.Composer main stack file given →
      (world.compose stack file given).result = .ok v →
        v.Stays) ∧
      ∀ scope, world.Scoped main scope → ∀ entry ∈ scope.entries, entry.2.Stays := by
  refine ⟨fun v only distinct site scope => transform_of_overridesOnly site scope only distinct,
    fun v free distinct => free.applyOverrides? distinct,
    fun world main file content leads contains free undivided => load_of_tagFree leads contains free undivided,
    fun world main orderly => ⟨fun stack file given v composer done => ?_, fun scope arises entry member => ?_⟩⟩
  · exact ((composer.settled orderly).2 v done).stays
  · exact ((arises.settled orderly).values entry member).stays

theorem finished_walk_overriding :
    let alone (text : String) : World :=
      ⟨⟨[(["main"], .file text.toUTF8.toList (.change 0))], [], 1⟩, .empty, [], .ofRoot ⟨"/"⟩⟩
    let plain := alone "~: 1\na: [2]\n"
    let overriding := alone "variables:\n  x: !replace [1]\na: !remove 2\nb: !sub ${ x }\n"
    let kept : Value := .seq [.tagged .replacement 0 .null, .tagged .removal 0 (.tagged .cond 0 .null)]
    (∀ site scope, transform site scope none kept = pure (some kept)) ∧
      (Value.seq [.null]).applyOverrides? = some (.seq [.null]) ∧
      plain.load ⟨"/main"⟩ = ⟨[.opened ⟨"/main"⟩], .ok (.map [(.str "a", .seq [.int 2])])⟩ ∧
      overriding.Orderly ⟨"/main"⟩ ∧ ∃ v, (overriding.compose [⟨"/main"⟩] ⟨"/main"⟩ .empty).result = .ok v ∧
      v.Stays := by
  intro alone plain overriding kept
  obtain ⟨walked, overridden, loaded, again⟩ := finished_walk
  have null : Value.null.KeysDistinct := Value.keysDistinct_null
  have only : kept.OverridesOnly := by
    intro tag mark payload (standing : Value.Standing _ (.seq _))
    cases standing with
    | item member inside =>
      rcases List.mem_cons.mp member with rfl | last
      · cases inside with
        | self => rfl
        | payload _ below => cases below
      · cases List.mem_singleton.mp last
        cases inside with
        | self => rfl
        | payload standing => exact absurd rfl standing
  have distinct : kept.KeysDistinct := by
    refine Value.everyMapping_seq_iff.mpr (List.forall_mem_cons.mpr ⟨Value.everyMapping_tagged_iff.mpr null, ?_⟩)
    refine List.forall_mem_singleton.mpr (Value.everyMapping_tagged_iff.mpr ?_)
    exact Value.everyMapping_tagged_iff.mpr null
  have contains : plain.Contains ⟨"/main"⟩ (.map [(.null, .int 1), (.str "a", .seq [.int 2])]) :=
    ⟨"~: 1\na: [2]\n", ok_of_toOption (by decide +kernel), rfl⟩
  have orderly : overriding.Orderly ⟨"/main"⟩ := by
    intro stack file given content _ contains
    have each : ∀ node ∈ overriding.files.nodes, ∀ content ∈ node.2.content?, content.Orderly := by decide +kernel
    obtain ⟨node, member, same⟩ := contains.exists_content? rfl
    exact each node member content same
  have nulls : (Value.seq [.null]).TagFree ∧ (Value.seq [.null]).KeysDistinct :=
    ⟨by decide, Value.everyMapping_seq_iff.mpr (List.forall_mem_singleton.mpr null)⟩
  have undivided : ∀ entries, Value.map [(.null, .int 1), (.str "a", .seq [.int 2])] = .map entries →
      Mapping.Undivided entries := by
    rintro _ ⟨⟩
    exact ⟨by decide, by simp⟩
  obtain ⟨v, composed, -⟩ := exists_ok_of_any (p := fun _ => true)
    (show (overriding.compose [⟨"/main"⟩] ⟨"/main"⟩ .empty).result.toOption.any _ = true by decide +kernel)
  refine ⟨walked kept only distinct, overridden _ nulls.1 nulls.2,
    loaded plain ⟨"/main"⟩ ⟨"/main"⟩ _ (Path.ok_of_text (by decide +kernel)) contains (by decide) undivided,
    orderly, v, composed, ?_⟩
  exact (again overriding ⟨"/main"⟩ orderly).1 _ _ _ v (.main (Path.ok_of_text (by decide +kernel))) composed

/-- Expressions can refer to what stands below a node that is to be removed, and they can make a mapping with a
merge key that an alias refers to. What is left to be carried out there is carried out where the content is walked
again. -/
theorem finished_walk_exposed :
    let world (text : String) : World :=
      ⟨⟨[(["main"], .file "packages: !include packages\n".toUTF8.toList (.change 0)),
        (["packages"], .file text.toUTF8.toList (.change 1))], [], 2⟩, .empty, [], .ofRoot ⟨"/"⟩⟩
    let removed := "variables:\n  x: !remove\n    a: !if\n      - else: 5\np:\n  q: !sub ${ x.a }\n"
    let merged :=
      "variables:\n  k:\n    ? &a <<\n    : 1\n  x: *a\np:\n  q: !sub \"$\x7b \x7b (x): \x7by: 1\x7d \x7d \x7d\"\n"
    ∀ exposed ∈ [(removed, Value.int 5), (merged, Value.map [(.str "y", .int 1)])],
      (∃ v, ((world exposed.1).compose [⟨"/main"⟩, ⟨"/packages"⟩] ⟨"/packages"⟩ .empty).result = .ok v ∧
      ¬ v.Stays) ∧
        ∃ v, ((world exposed.1).load ⟨"/main"⟩).result = .ok v ∧ (v == .map [(.str "q", exposed.2)]) = true := by
  intro world removed merged exposed member
  let site := Templates.empty.site ((world "").document none [⟨"/main"⟩] ⟨"/main"⟩ "packages: !include packages\n")
  let evaluated (exposed : String × Value) : Value := .map [(.str "p", .map [(.str "q", exposed.2)])]
  have again : ∀ exposed ∈ [(removed, Value.int 5), (merged, Value.map [(.str "y", .int 1)])],
      ((world exposed.1).compose [⟨"/main"⟩, ⟨"/packages"⟩] ⟨"/packages"⟩ .empty).result.toOption.any (fun v =>
        !(v == evaluated exposed) &&
          (transform site .empty none v).result.toOption.any (·.any (· == evaluated exposed))) = true := by
    decide +kernel
  have loads : ∀ exposed ∈ [(removed, Value.int 5), (merged, Value.map [(.str "y", .int 1)])],
      ((world exposed.1).load ⟨"/main"⟩).result.toOption.any (· == .map [(.str "q", exposed.2)]) = true := by
    decide +kernel
  obtain ⟨v, composed, altered⟩ := exists_ok_of_any (again exposed member)
  refine ⟨⟨v, composed, fun stays => ?_⟩, exists_ok_of_any (loads exposed member)⟩
  simp only [Except.toOption, Option.any_some, stays v (.self v) site .empty, Traced.pure_def, Bool.and_eq_true,
    Bool.not_eq_true'] at altered
  cases altered.1.symm.trans altered.2

end World

end ConfigWeave
