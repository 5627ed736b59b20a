import ConfigWeave.Proofs.Lookup
import ConfigWeave.Proofs.PlainTree
import ConfigWeave.Proofs.Walk

namespace ConfigWeave

/-- What becomes of one entry of a mapping, if it is kept. -/
def transformEntry (site : Site) (scope : Scope) (sub : Option Pattern) (entry : Value × Value) :
    Run (Option (Value × Value)) := do
  match ← transform site scope sub entry.1 with
  | none => return none
  | some key => return (← transform site scope sub entry.2).map fun value => (key, value)

section Entries

variable {site : Site} {scope : Scope} {sub : Option Pattern}

theorem transformEntries_cons (entry : Value × Value) (rest : List (Value × Value)) :
    transformEntries site scope sub (entry :: rest) = do
      let first ← transformEntry site scope sub entry
      return first.toList ++ (← transformEntries site scope sub rest) := by
  obtain ⟨key, value⟩ := entry
  rw [transformEntries, transformEntry, bind_assoc]
  refine congrArg _ (funext fun transformed => ?_)
  cases transformed with
  | none => simp only [pure_bind, Option.toList_none, List.nil_append, bind_pure]
  | some key =>
    dsimp only
    rw [bind_assoc]
    refine congrArg _ (funext fun value => ?_)
    cases value with
    | none => simp only [pure_bind, Option.map_none, Option.toList_none, List.nil_append, bind_pure]
    | some value => simp only [pure_bind, Option.map_some, Option.toList_some, List.singleton_append]

theorem transformEntries_cons_iff {entry : Value × Value} {rest : List (Value × Value)} {trace : List Effect}
    {entries : List (Value × Value)} : transformEntries site scope sub (entry :: rest) = ⟨trace, .ok entries⟩ ↔
      ∃ before first after others, transformEntry site scope sub entry = ⟨before, .ok first⟩ ∧
        transformEntries site scope sub rest = ⟨after, .ok others⟩ ∧ trace = before ++ after ∧
          entries = first.toList ++ others := by
  rw [transformEntries_cons, Traced.bind_eq_ok_iff]
  constructor
  · rintro ⟨before, first, after, done, later, rfl⟩
    obtain ⟨between, others, last, doneRest, same, rfl⟩ := Traced.bind_eq_ok_iff.mp later
    cases same
    exact ⟨before, first, between, others, done, doneRest, by rw [List.append_nil], rfl⟩
  · rintro ⟨before, first, after, others, done, doneRest, rfl, rfl⟩
    exact ⟨before, first, after, done, Traced.bind_eq_ok_iff.mpr ⟨after, others, [], doneRest, rfl, by simp⟩, rfl⟩

/-- Each entry is transformed on its own, so that in another order the same comes out and the same is done, in
another order. The induction is on the permutation. -/
theorem transformEntries_perm {m other : List (Value × Value)} (perm : m.Perm other) {trace : List Effect}
    {entries : List (Value × Value)} (done : transformEntries site scope sub m = ⟨trace, .ok entries⟩) :
    ∃ alsoTrace alsoEntries, transformEntries site scope sub other = ⟨alsoTrace, .ok alsoEntries⟩ ∧
      trace.Perm alsoTrace ∧ entries.Perm alsoEntries := by
  induction perm generalizing trace entries with
  | nil => exact ⟨trace, entries, done, .refl _, .refl _⟩
  | cons entry _ ih =>
    obtain ⟨before, first, after, others, here, later, rfl, rfl⟩ := transformEntries_cons_iff.mp done
    obtain ⟨alsoAfter, alsoOthers, alsoLater, sameTrace, sameEntries⟩ := ih later
    refine ⟨before ++ alsoAfter, first.toList ++ alsoOthers, ?_, sameTrace.append_left _, sameEntries.append_left _⟩
    exact transformEntries_cons_iff.mpr ⟨before, first, alsoAfter, alsoOthers, here, alsoLater, rfl, rfl⟩
  | swap x y rest =>
    obtain ⟨before, first, _, _, here, later, rfl, rfl⟩ := transformEntries_cons_iff.mp done
    obtain ⟨between, second, after, others, there, last, rfl, rfl⟩ := transformEntries_cons_iff.mp later
    have rejoined := transformEntries_cons_iff.mpr ⟨before, first, after, others, here, last, rfl, rfl⟩
    have traces : (before ++ between).Perm (between ++ before) := List.perm_append_comm
    have results : (first.toList ++ second.toList).Perm (second.toList ++ first.toList) := List.perm_append_comm
    refine ⟨between ++ (before ++ after), second.toList ++ (first.toList ++ others), ?_, ?_, ?_⟩
    · exact transformEntries_cons_iff.mpr ⟨between, second, _, _, there, rejoined, rfl, rfl⟩
    · simpa only [List.append_assoc] using traces.append_right after
    · simpa only [List.append_assoc] using results.append_right others
  | trans _ _ ih ihNext =>
    obtain ⟨between, passing, reached, sameTrace, sameEntries⟩ := ih done
    obtain ⟨last, final, finished, laterTrace, laterEntries⟩ := ihNext reached
    exact ⟨last, final, finished, sameTrace.trans laterTrace, sameEntries.trans laterEntries⟩

/-- Merge keys are resolved once all entries are there, so that it does not matter where they stand. -/
theorem resolveMergeKey_perm {a b : Mapping} (perm : a.Perm b) (distinct : a.Distinct)
    (keys : ∀ entry ∈ a, entry.1.KeysDistinct) {trace : List Effect} {m : Mapping}
    (done : site.resolveMergeKey (Mapping.ofList a) = ⟨trace, .ok m⟩) :
    ∃ n, site.resolveMergeKey (Mapping.ofList b) = ⟨trace, .ok n⟩ ∧ m.Perm n := by
  have merge : Value.mergeKey.KeysDistinct := Value.everyMapping_tagged_iff.mpr (Value.everyMapping_str _ _)
  rw [Mapping.ofList_of_distinct distinct] at done
  rw [Mapping.ofList_of_distinct (distinct.perm perm keys)]
  unfold Site.resolveMergeKey at done ⊢
  rw [← Mapping.get?_perm keys merge perm distinct]
  cases found : a.get? Value.mergeKey with
  | none =>
    rw [found] at done
    cases done
    exact ⟨b, rfl, perm⟩
  | some sources =>
    rw [found] at done
    obtain ⟨before, entries, after, collected, same, rfl⟩ := Traced.bind_eq_ok_iff.mp done
    cases same
    refine ⟨_, Traced.bind_eq_ok_iff.mpr ⟨before, entries, [], collected, rfl, rfl⟩, ?_⟩
    exact Mapping.insertMissing_perm (Mapping.erase_perm keys merge perm distinct) entries

end Entries

/-- What an effect warns about, in which file. -/
def Effect.warning? : Effect → Option (Path × String)
  | .warned file message => some (file, message)
  | _ => none

theorem mem_eraseDups_of_isNormal {paths : List Path} (normal : ∀ path ∈ paths, path.IsNormal) {file : Path} :
    file ∈ paths.eraseDups ↔ file ∈ paths := by
  have listed : paths.eraseDups = includedFiles (paths.map Effect.included) := by
    rw [includedFiles_eq_eraseDups, List.filterMap_map]
    exact congrArg List.eraseDups List.filterMap_some.symm
  rw [listed]
  constructor
  · intro member
    obtain ⟨path, among, ⟨⟩⟩ := List.mem_map.mp (included_of_mem member)
    exact among
  · intro member
    obtain ⟨reported, found, equal⟩ := exists_mem_includedFiles (List.mem_map_of_mem (f := Effect.included) member)
    obtain ⟨path, among, ⟨⟩⟩ := List.mem_map.mp (included_of_mem found)
    rwa [(normal file member).eq_of_beq (normal reported among) equal]

/-- The host is told of the files that are included, but for those that it knows. -/
theorem LoadContext.mem_recordAll_fst (context : LoadContext) {effects : List Effect}
    (normal : ∀ file, .included file ∈ effects → file.IsNormal) {file : Path} :
    file ∈ (context.recordAll effects).1 ↔ .included file ∈ effects ∧ context.notified.any (file == ·) = false := by
  obtain ⟨_, told, known⟩ := context.recordAll_spec effects
  rw [told, PathIndex.foldl_addTo] at known
  rw [List.append_cancel_left known, mem_eraseDups_of_isNormal, List.mem_filter, mem_filterMap_included?,
    Bool.not_eq_eq_eq_not, Bool.not_true]
  exact fun path member => normal path (mem_filterMap_included?.mp (List.mem_filter.mp member).1)

theorem Yaml.keysDistinct_of_parse_map (text : String) :
    (Value.map (((parse? text).bind Value.map?).getD [])).KeysDistinct := by
  have empty : (Value.map []).KeysDistinct := Value.hereditary_keysDistinct.map_nil
  cases parsed : parse? text with
  | none => exact empty
  | some v =>
    cases v with
    | map entries => exact keysDistinct_of_parse parsed
    | _ => exact empty

namespace Walk

open Compositional

variable (walk : Walk) {m other : Mapping}

theorem sites_distinctKeys : always.Sites .distinctKeys fun _ => walk.site := by
  have within := walk.world.keysDistinct_nested walk.depth
  have documents := walk.world.documents_distinctKeys within walk.stack walk.file walk.text
  refine ⟨documents, fun _ _ _ known sound => ?_⟩
  exact documents.instantiate walk.templatesDistinct walk.budget walk.inserting _ known sound

/-- Keys are distinct within what entries become. -/
theorem keysDistinct_entries (written : (Value.map m).KeysDistinct) {trace : List Effect}
    {entries : List (Value × Value)} (done : walk.transformEntries m = ⟨trace, .ok entries⟩) :
    ∀ entry ∈ entries, entry.1.KeysDistinct := by
  have ensured : always.Ensures
      (fun entries => ∀ entry ∈ entries, (Quality.distinctKeys.regime Unit).ComposedKey entry.1 ∧
        entry.2.KeysDistinct)
      fun _ => walk.transformEntries m :=
    walk.sites_distinctKeys.logic.transformEntries (Quality.together_regime walk.scopeDistinct) (fun _ => trivial) m
      ((Quality.distinctKeys.regime Unit).writtenEntries written)
  intro entry member
  rcases (ensured.result () entries (by rw [done]) entry member).1 with composed | ⟨mark, merge⟩
  · exact composed
  · rw [merge]
    exact Value.everyMapping_tagged_iff.mpr (Value.everyMapping_str _ _)

theorem transform_map_iff {trace : List Effect} {v : Option Value} : walk.transform (.map m) = ⟨trace, .ok v⟩ ↔
    ∃ before entries after tree, walk.transformEntries m = ⟨before, .ok entries⟩ ∧
      walk.site.resolveMergeKey (Mapping.ofList entries) = ⟨after, .ok tree⟩ ∧ trace = before ++ after ∧
        v = some (.map tree) := by
  rw [transform, ConfigWeave.transform, Traced.bind_eq_ok_iff]
  constructor
  · rintro ⟨before, entries, after, here, later, rfl⟩
    obtain ⟨between, tree, last, resolved, same, rfl⟩ := Traced.bind_eq_ok_iff.mp later
    cases same
    exact ⟨before, entries, between, tree, here, resolved, by rw [List.append_nil], rfl⟩
  · rintro ⟨before, entries, after, tree, here, resolved, rfl, rfl⟩
    exact ⟨before, entries, after, here, Traced.bind_eq_ok_iff.mpr ⟨after, tree, [], resolved, rfl, by simp⟩, rfl⟩

/-- Siblings do not influence each other. If the keys that come out of the entries of a mapping are distinct, then
in any other order of the entries an equal mapping comes out, with the same warnings as often and the same files
reported, whatever the host has been told of before. And what some of the entries have left behind in the cache, in
the log and with the host makes no difference to what is transformed after them. -/
theorem transform_perm (written : (Value.map m).KeysDistinct) (perm : m.Perm other)
    (apart : ∀ entries, (walk.transformEntries m).result = .ok entries → Mapping.Distinct entries)
    {v : Option Value} (done : (walk.transform (.map m)).result = .ok v) :
    ∃ a b : Mapping, v = some (.map a) ∧ (walk.transform (.map other)).result = .ok (some (.map b)) ∧
      (Value.map a == .map b) = true ∧
      ((walk.transform (.map m)).trace.filterMap Effect.warning?).Perm
        ((walk.transform (.map other)).trace.filterMap Effect.warning?) ∧
      (∀ (context : LoadContext) (file : Path), file ∈ (context.recordAll (walk.transform (.map m)).trace).1 ↔
        file ∈ (context.recordAll (walk.transform (.map other)).trace).1) ∧
      ∀ context : LoadContext, context.toWorld = walk.world → ∀ effects ⊆ (walk.transform (.map m)).trace, ∀ u,
        (walk.within (context.recordAll effects).2.toWorld).transform u = walk.transform u := by
  have run : walk.transform (.map m) = ⟨(walk.transform (.map m)).trace, .ok v⟩ := by rw [← done]
  obtain ⟨before, entries, after, a, here, resolved, trace, rfl⟩ := walk.transform_map_iff.mp run
  have distinct := apart entries (by rw [here])
  have keys := walk.keysDistinct_entries written here
  have tree : (Value.map a).KeysDistinct :=
    (walk.sites_distinctKeys.transform walk.scopeDistinct walk.sub (.map m) written).result () _ done _ rfl
  obtain ⟨alsoBefore, alsoEntries, there, sameTrace, sameEntries⟩ := transformEntries_perm perm here
  obtain ⟨b, alsoResolved, sameTree⟩ := resolveMergeKey_perm sameEntries distinct keys resolved
  have alsoRun := walk.transform_map_iff.mpr ⟨alsoBefore, alsoEntries, after, b, there, alsoResolved, rfl, rfl⟩
  have effects : (walk.transform (.map m)).trace.Perm (walk.transform (.map other)).trace := by
    rw [trace, alsoRun]
    exact sameTrace.append_right after
  refine ⟨a, b, rfl, by rw [alsoRun], Mapping.map_beq_of_perm sameTree tree, effects.filterMap _, ?_, ?_⟩
  · intro context file
    have normal (walked : Value) : ∀ file, .included file ∈ (walk.transform walked).trace → file.IsNormal := by
      intro file member
      obtain ⟨place, located, rfl⟩ := walk.located_of_mem (.inr member)
      exact ⟨place, located.holds.1, rfl⟩
    rw [context.mem_recordAll_fst (normal _), context.mem_recordAll_fst (normal _), effects.mem_iff]
  · exact fun context start effects among u => walk.transform_after start among u

/-- One order of the entries and its reverse, with a file that is included twice and a merge key between. -/
theorem transform_perm_reversed :
    let files : FileSystem := ⟨[(["main"], .file [] (.change 0)),
      (["other"], .file "x: !nope 1\n".toUTF8.toList (.change 1))], [], 2⟩
    let walk : Walk := ⟨⟨files, .empty, [], .ofRoot ⟨"/"⟩⟩, 1, [⟨"/main"⟩], ⟨"/main"⟩, "", .empty, [], 0, .empty,
      none, nofun, Value.hereditary_keysDistinct.map_nil⟩
    let m : Mapping :=
      ((Yaml.parse? "b: !include other\n<<: {c: 2, a: 3}\na: !include other\n").bind Value.map?).getD []
    ∃ a b : Mapping, (walk.transform (.map m)).result = .ok (some (.map a)) ∧
      (walk.transform (.map m.reverse)).result = .ok (some (.map b)) ∧ (Value.map a == .map b) = true ∧
      a.map (·.1.keyText) = ["b", "a", "c"] ∧ b.map (·.1.keyText) = ["a", "b", "c"] ∧
      ((walk.transform (.map m)).trace.filterMap Effect.warning?).length = 2 := by
  intro files walk m
  have written : (Value.map m).KeysDistinct := Yaml.keysDistinct_of_parse_map _
  have known : ((walk.transformEntries m).result.toOption.all fun entries =>
      decide (Mapping.Distinct entries)) = true := by decide +kernel
  have apart : ∀ entries, (walk.transformEntries m).result = .ok entries → Mapping.Distinct entries := by
    intro entries done
    rw [done] at known
    exact of_decide_eq_true known
  let named (names : List String) (v : Option Value) : Bool :=
    (v.bind Value.map?).any fun tree => tree.map (·.1.keyText) == names
  obtain ⟨v, done, names⟩ := exists_ok_of_any (p := named ["b", "a", "c"]) (x := (walk.transform (.map m)).result)
    (by decide +kernel)
  obtain ⟨w, reversed, alsoNames⟩ := exists_ok_of_any (p := named ["a", "b", "c"])
    (x := (walk.transform (.map m.reverse)).result) (by decide +kernel)
  have warnings : ((walk.transform (.map m)).trace.filterMap Effect.warning?).length = 2 := by decide +kernel
  obtain ⟨a, b, rfl, also, equal, _⟩ := walk.transform_perm written (List.reverse_perm m).symm apart done
  cases reversed.symm.trans also
  exact ⟨a, b, done, also, equal, eq_of_beq names, eq_of_beq alsoNames, warnings⟩

end Walk

end ConfigWeave
