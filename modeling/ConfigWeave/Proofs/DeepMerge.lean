import ConfigWeave.Proofs.Lookup
import ConfigWeave.Proofs.PlainTree

namespace ConfigWeave

namespace Value

/-- Follows keys of any kind through nested mappings. -/
def descend? (v : Value) (path : List Value) : Option Value :=
  path.foldlM (fun v key => v.map?.bind fun entries => Mapping.get? entries key) v

theorem descend?_nil (v : Value) : v.descend? [] = some v := rfl

theorem descend?_cons (m : Mapping) (key : Value) (rest : List Value) :
    (Value.map m).descend? (key :: rest) = (m.get? key).bind (·.descend? rest) := rfl

/-- Only within a mapping a path leads to one. -/
theorem exists_map_of_descend? {v : Value} {path : List Value} {a : Mapping}
    (leads : v.descend? path = some (.map a)) :
    ∃ m, v = .map m := by
  cases path with
  | nil =>
    rw [descend?_nil, Option.some.injEq] at leads
    exact ⟨a, leads⟩
  | cons key rest =>
    cases v with
    | map m => exact ⟨m, rfl⟩
    | _ => cases leads

/-- Whether a node overrides whatever is merged into it. -/
def overrides : Value → Bool
  | .tagged tag _ _ => tag.isOverride
  | _ => false

/-- Whether two values are both mappings or both sequences. -/
def areAlike : Value → Value → Bool
  | .map _, .map _ | .seq _, .seq _ => true
  | _, _ => false

end Value

namespace Mapping

/-- What two mappings have under a key, if they have anything, and what is there when the second is merged into the
first. -/
inductive Meets : Option Value → Option Value → Option Value → Prop
  | nowhere : Meets none none none
  | incoming (v : Value) : Meets none (some v) (some v)
  | existing (v : Value) : Meets (some v) none (some v)
  | overriding {v w : Value} : v.overrides = true → Meets (some v) (some w) (some v)
  | mappings (a b : Mapping) : Meets (some (.map a)) (some (.map b)) (some (.map (a.deepMerge b)))
  | sequences (a b : List Value) : Meets (some (.seq a)) (some (.seq b)) (some (.seq (a ++ b)))
  | replaced {v w : Value} : v.overrides = false → v.areAlike w = false → Meets (some v) (some w) (some w)

theorem meets_mergedWith (v w : Value) : Meets (some v) (some w) (some (v.mergedWith w)) := by
  by_cases override : v.overrides = true
  · have stays : v.mergedWith w = v := by
      cases v with
      | tagged tag mark payload => exact Value.mergedWith_of_isOverride override mark payload w
      | _ => cases override
    rw [stays]
    exact .overriding override
  · rw [Bool.not_eq_true] at override
    by_cases alike : v.areAlike w = true
    · match v, w, alike with
      | .map a, .map b, _ => exact .mappings a b
      | .seq a, .seq b, _ => exact .sequences a b
    · rw [Bool.not_eq_true] at alike
      have goes : v.mergedWith w = w := by
        cases v <;> cases w <;> simp_all [Value.mergedWith, Value.overrides, Value.areAlike]
      rw [goes]
      exact .replaced override alike

/-- There is only one thing that can come of it. -/
theorem Meets.unique {v w out other : Option Value} (meets : Meets v w out) (also : Meets v w other) :
    out = other := by
  cases meets <;> cases also <;> simp_all [Value.overrides, Value.areAlike]

/-- What stands under the key of an entry once that is merged into a mapping. -/
def mergedValue (m : Mapping) (entry : Value × Value) : Value :=
  (m.get? entry.1).elim entry.2 (·.mergedWith entry.2)

theorem deepMerge_cons (target : Mapping) (entry : Value × Value) (rest : Mapping) :
    target.deepMerge (entry :: rest) = (target.insert entry.1 (target.mergedValue entry)).deepMerge rest := by
  rw [deepMerge, mergedEntries_cons, mergedValue]
  cases target.get? entry.1 <;> rfl

theorem deepMerge_eq_foldl (target source : Mapping) :
    target.deepMerge source = source.foldl (fun m entry => m.insert entry.1 (m.mergedValue entry)) target := by
  induction source generalizing target with
  | nil => rfl
  | cons entry rest ih => rw [deepMerge_cons, List.foldl_cons, ih]

theorem Distinct.eraseDups_keys {m : Mapping} (distinct : m.Distinct) :
    (m.map Prod.fst).eraseDups = m.map Prod.fst := by
  rw [← keys_ofList, ofList_of_distinct distinct]

/-- The new keys stand behind those that are there. -/
theorem keys_deepMerge (target : Mapping) {source : Mapping} (distinct : source.Distinct) :
    (target.deepMerge source).map Prod.fst =
      target.map Prod.fst ++ (source.map Prod.fst).filter fun key => !target.contains key := by
  have new : Distinct (source.filter fun entry => !target.contains entry.1) := distinct.filter _
  have keys : (source.filter fun entry => !target.contains entry.1).map Prod.fst =
      (source.map Prod.fst).filter fun key => !target.contains key := by
    rw [List.filter_map]
    rfl
  rw [deepMerge_eq_foldl, keys_foldl, ← keys, new.eraseDups_keys]
  intro m entry
  rw [keys_insert, keys_insert]

/-- What stands under a key comes of what stands there in both mappings. The induction is on the entries that are
merged: only one of them has the key. -/
theorem meets_deepMerge {target source : Mapping} (keys : ∀ entry ∈ target, entry.1.KeysDistinct)
    (incoming : ∀ entry ∈ source, entry.1.KeysDistinct) (distinct : source.Distinct) {key : Value}
    (keyDistinct : key.KeysDistinct) :
    Meets (target.get? key) (source.get? key) ((target.deepMerge source).get? key) := by
  induction source generalizing target with
  | nil =>
    rw [deepMerge_eq_foldl, List.foldl_nil, get?_nil]
    cases target.get? key with
    | none => exact .nowhere
    | some v => exact .existing v
  | cons entry rest ih =>
    obtain ⟨apart, distinctRest⟩ := List.pairwise_cons.mp distinct
    obtain ⟨first, others⟩ := List.forall_mem_cons.mp incoming
    have merged := ih (keysDistinct_insert keys first (target.mergedValue entry)) others distinctRest
    rw [get?_insert keys keyDistinct first] at merged
    rw [deepMerge_cons, get?_cons]
    split
    · rename_i same
      have once : get? rest key = none := by
        refine Option.map_eq_none_iff.mpr (List.find?_eq_none.mpr fun later member equal => ?_)
        have again : (later.1 == entry.1) = true := by
          rw [(others later member).beq_comm first,
            ← keyDistinct.lawful.congr first (others later member) same, equal]
        rw [apart later member] at again
        cases again
      rw [once, if_pos same] at merged
      rw [merged.unique (.existing _), get?_of_beq keys keyDistinct first same, mergedValue]
      cases target.get? entry.1 with
      | none => exact .incoming entry.2
      | some existing => exact meets_mergedWith existing entry.2
    · rename_i other
      rwa [if_neg other] at merged

/-- Where paths lead to mappings in two trees, the merged tree has them merged. -/
theorem descend?_deepMerge {target source : Mapping} (distinct : (Value.map target).KeysDistinct)
    (incoming : (Value.map source).KeysDistinct) {path : List Value} (keys : ∀ key ∈ path, key.KeysDistinct)
    {a b : Mapping} (there : (Value.map target).descend? path = some (.map a))
    (here : (Value.map source).descend? path = some (.map b)) :
    (Value.map (target.deepMerge source)).descend? path = some (.map (a.deepMerge b)) ∧
      (Value.map a).KeysDistinct ∧ (Value.map b).KeysDistinct := by
  induction path generalizing target source with
  | nil =>
    cases there
    cases here
    exact ⟨rfl, distinct, incoming⟩
  | cons key rest ih =>
    obtain ⟨first, others⟩ := List.forall_mem_cons.mp keys
    rw [Value.descend?_cons] at there here ⊢
    obtain ⟨v, inTarget, leads⟩ := Option.bind_eq_some_iff.mp there
    obtain ⟨w, inSource, alsoLeads⟩ := Option.bind_eq_some_iff.mp here
    obtain ⟨m, rfl⟩ := Value.exists_map_of_descend? leads
    obtain ⟨n, rfl⟩ := Value.exists_map_of_descend? alsoLeads
    obtain ⟨_, below⟩ := Value.everyMapping_map_iff.mp distinct
    obtain ⟨apart, alsoBelow⟩ := Value.everyMapping_map_iff.mp incoming
    have meets := meets_deepMerge (fun entry member => (below entry member).1)
      (fun entry member => (alsoBelow entry member).1) apart first
    rw [inTarget, inSource] at meets
    rw [Meets.unique meets (.mappings m n), Option.bind_some]
    exact ih (distinct.of_get? inTarget) (incoming.of_get? inSource) others leads alsoLeads

/-- A mapping is merged into another one as it should be at every path. Wherever keys of any kind lead to mappings
in both, the merged tree has there the keys of the first in their order and behind them those of the second that
are new, in theirs. Under each key there is what one of them has alone, and of what both have there what comes of
it: an overriding node stays, mappings are merged in turn, sequences are appended, and of all else the second wins.
No mapping in the merged tree has a key twice. -/
theorem deepMerge_at {target source : Mapping} (distinct : (Value.map target).KeysDistinct)
    (incoming : (Value.map source).KeysDistinct) {path : List Value} (keys : ∀ key ∈ path, key.KeysDistinct)
    {a b : Mapping} (there : (Value.map target).descend? path = some (.map a))
    (here : (Value.map source).descend? path = some (.map b)) :
    (Value.map (target.deepMerge source)).KeysDistinct ∧
      ∃ m : Mapping, (Value.map (target.deepMerge source)).descend? path = some (.map m) ∧
        m.map Prod.fst = a.map Prod.fst ++ (b.map Prod.fst).filter (fun key => !a.contains key) ∧
        ∀ key : Value, key.KeysDistinct → ∀ out, m.get? key = out ↔ Meets (a.get? key) (b.get? key) out := by
  obtain ⟨leads, inTarget, inSource⟩ := descend?_deepMerge distinct incoming keys there here
  obtain ⟨_, below⟩ := Value.everyMapping_map_iff.mp inTarget
  obtain ⟨apart, alsoBelow⟩ := Value.everyMapping_map_iff.mp inSource
  refine ⟨Value.hereditary_keysDistinct.deepMerge distinct incoming, a.deepMerge b, leads,
    keys_deepMerge a apart, ?_⟩
  intro key keyDistinct out
  have meets := meets_deepMerge (fun entry member => (below entry member).1)
    (fun entry member => (alsoBelow entry member).1) apart keyDistinct
  constructor
  · rintro rfl
    exact meets
  · exact meets.unique

/-- Keys that are mappings themselves, with their entries in another order. -/
theorem deepMerge_at_reordered :
    let key : Value := .map [(.str "a", .str "x"), (.str "b", .str "y")]
    let reordered : Value := .map [(.str "b", .str "y"), (.str "a", .str "x")]
    let target : Mapping := [(key, .map [(.str "log", .tagged .removal 0 .null), (.str "hosts", .seq [.str "u"])])]
    let source : Mapping :=
      [(reordered, .map [(.str "port", .str "80"), (.str "hosts", .seq [.str "v"]), (.str "log", .str "on")])]
    ∃ m : Mapping, (Value.map (target.deepMerge source)).descend? [reordered] = some (.map m) ∧
      m.map Prod.fst = [.str "log", .str "hosts", .str "port"] ∧
      m.get? (.str "log") = some (.tagged .removal 0 .null) ∧
      m.get? (.str "hosts") = some (.seq [.str "u", .str "v"]) ∧ m.get? (.str "port") = some (.str "80") := by
  intro key reordered target source
  have text (s : String) : (Value.str s).KeysDistinct := Value.everyMapping_str _ s
  have node : (Value.tagged .removal 0 .null).KeysDistinct :=
    Value.everyMapping_tagged_iff.mpr Value.keysDistinct_null
  have keyDistinct : key.KeysDistinct := Value.everyMapping_map_iff.mpr ⟨by decide, by simp [text]⟩
  have alsoDistinct : reordered.KeysDistinct := Value.everyMapping_map_iff.mpr ⟨by decide, by simp [text]⟩
  have inTarget : (Value.map
    [(.str "log", .tagged .removal 0 .null), (.str "hosts", .seq [.str "u"])]).KeysDistinct :=
    Value.everyMapping_map_iff.mpr ⟨by decide, by simp [text, node, Value.everyMapping_seq_iff]⟩
  have inSource : (Value.map
      [(.str "port", .str "80"), (.str "hosts", .seq [.str "v"]), (.str "log", .str "on")]).KeysDistinct :=
    Value.everyMapping_map_iff.mpr ⟨by decide, by simp [text, Value.everyMapping_seq_iff]⟩
  have distinct : (Value.map target).KeysDistinct :=
    Value.everyMapping_map_iff.mpr ⟨by decide, List.forall_mem_singleton.mpr ⟨keyDistinct, inTarget⟩⟩
  have incoming : (Value.map source).KeysDistinct :=
    Value.everyMapping_map_iff.mpr ⟨by decide, List.forall_mem_singleton.mpr ⟨alsoDistinct, inSource⟩⟩
  obtain ⟨_, m, leads, keys, meets⟩ :=
    deepMerge_at distinct incoming (List.forall_mem_singleton.mpr alsoDistinct) rfl rfl
  refine ⟨m, leads, keys, ?_, ?_, ?_⟩
  · exact (meets _ (text "log") _).mpr (.overriding rfl)
  · exact (meets _ (text "hosts") _).mpr (.sequences [.str "u"] [.str "v"])
  · exact (meets _ (text "port") _).mpr (.incoming (.str "80"))

end Mapping

end ConfigWeave
