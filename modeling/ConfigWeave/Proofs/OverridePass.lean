import ConfigWeave.Proofs.Composer
import ConfigWeave.Proofs.DistinctKeys
import ConfigWeave.Proofs.Overriding

namespace ConfigWeave

/-- What a tree is walked through for: to carry out what its tags ask for, or to apply what overrides the packages
that have been merged into it. -/
inductive Phase where
  | standard
  | overrides

mutual
/-- One walk through a tree in either phase, from the leaves up. What stands below a tag is left to the tag, and
most tags ask for nothing once packages are merged. -/
def walkThrough (phase : Phase) (site : Site) (scope : Scope) (sub : Option Pattern) : Value → Run (Option Value)
  | .seq items => do return some (.seq (← walkThroughItems phase site scope sub items))
  | .map entries => do
    let m := Mapping.ofList (← walkThroughEntries phase site scope sub entries)
    match phase with
    | .standard => return some (.map (← site.resolveMergeKey m))
    | .overrides => return some (.map m)
  | .tagged tag mark payload =>
    match phase, tag with
    | .standard, tag => transform site scope sub (.tagged tag mark payload)
    | .overrides, .replacement => walkThrough .overrides site scope sub payload
    | .overrides, .removal => return none
    | .overrides, tag => return some (.tagged tag mark payload)
  | scalar =>
    match phase with
    | .standard => transform site scope sub scalar
    | .overrides => return some scalar
def walkThroughItems (phase : Phase) (site : Site) (scope : Scope) (sub : Option Pattern) :
    List Value → Run (List Value)
  | [] => return []
  | item :: rest => do
    let item ← walkThrough phase site scope sub item
    return item.toList ++ (← walkThroughItems phase site scope sub rest)
def walkThroughEntries (phase : Phase) (site : Site) (scope : Scope) (sub : Option Pattern) :
    List (Value × Value) → Run (List (Value × Value))
  | [] => return []
  | (key, value) :: rest => do
    match ← walkThrough phase site scope sub key with
    | none => walkThroughEntries phase site scope sub rest
    | some key =>
      match ← walkThrough phase site scope sub value with
      | none => walkThroughEntries phase site scope sub rest
      | some value => return (key, value) :: (← walkThroughEntries phase site scope sub rest)
end

section Phases

variable (site : Site) (scope : Scope) (sub : Option Pattern)

mutual
theorem walkThrough_standard : (v : Value) → walkThrough .standard site scope sub v = transform site scope sub v
  | .seq items => by rw [walkThrough, transform, walkThroughItems_standard items]
  | .map entries => by rw [walkThrough, transform, walkThroughEntries_standard entries]
  | .tagged .. | .null | .bool _ | .int _ | .float _ | .str _ => by simp only [walkThrough]
theorem walkThroughItems_standard : (items : List Value) →
    walkThroughItems .standard site scope sub items = transformItems site scope sub items
  | [] => by rw [walkThroughItems, transformItems]
  | item :: rest => by
    rw [walkThroughItems, transformItems, walkThrough_standard item, walkThroughItems_standard rest]
theorem walkThroughEntries_standard : (entries : List (Value × Value)) →
    walkThroughEntries .standard site scope sub entries = transformEntries site scope sub entries
  | [] => by rw [walkThroughEntries, transformEntries]
  | (key, value) :: rest => by
    rewrite [walkThroughEntries, transformEntries, walkThrough_standard key, walkThrough_standard value,
      walkThroughEntries_standard rest]
    rfl
end

mutual
/-- Nothing is reported where overrides are applied, and nothing fails. -/
theorem walkThrough_overrides : (v : Value) → walkThrough .overrides site scope sub v = pure v.applyOverrides?
  | .seq items => by
    rw [walkThrough, walkThroughItems_overrides items]
    rfl
  | .map entries => by
    rw [walkThrough, walkThroughEntries_overrides entries]
    rfl
  | .tagged tag mark payload => by
    cases tag with
    | replacement => exact walkThrough_overrides payload
    | _ => rfl
  | .null | .bool _ | .int _ | .float _ | .str _ => rfl
theorem walkThroughItems_overrides : (items : List Value) →
    walkThroughItems .overrides site scope sub items = pure (Value.overriddenItems items)
  | [] => rfl
  | item :: rest => by
    rw [walkThroughItems, walkThrough_overrides item, walkThroughItems_overrides rest, Value.overriddenItems]
    cases item.applyOverrides? <;> rfl
theorem walkThroughEntries_overrides : (entries : List (Value × Value)) →
    walkThroughEntries .overrides site scope sub entries = pure (Value.overriddenEntries entries)
  | [] => rfl
  | (key, value) :: rest => by
    rw [walkThroughEntries, walkThrough_overrides key, walkThrough_overrides value,
      walkThroughEntries_overrides rest, Value.overriddenEntries]
    cases key.applyOverrides? <;> cases value.applyOverrides? <;> rfl
end

end Phases

/-- What is left to do once packages are merged: overrides are applied, and tags and null keys are dropped. -/
def Value.finishing (site : Site) (scope : Scope) (sub : Option Pattern) (composed : Value) : Run Value := do
  let overridden ← walkThrough .overrides site scope sub composed
  return (overridden.getD .null).untagged.withoutNullKeys

/-- Where no override is found, applying them would not change anything. -/
theorem Value.finishing_eq (site : Site) (scope : Scope) (sub : Option Pattern) {composed : Value}
    (distinct : composed.KeysDistinct) : composed.finishing site scope sub = pure composed.finished := by
  rw [finishing, walkThrough_overrides, pure_bind, finished]
  split
  · rfl
  · rename_i unmarked
    rw [applyOverrides?_of_not_hasOverride distinct (Bool.eq_false_iff.mpr unmarked)]
    rfl

theorem World.load_eq_finishing (world : World) {main file : Path} (leads : world.files.canonical main = .ok file)
    (site : Site) (scope : Scope) (sub : Option Pattern) :
    world.load main = world.compose [file] file .empty >>= Value.finishing site scope sub := by
  have composed : world.load main = world.compose [file] file .empty >>= fun v => pure v.finished := by
    rw [load, leads]
    rfl
  rw [composed]
  refine Traced.bind_congr_of_ok fun v done => (Value.finishing_eq site scope sub ?_).symm
  have nothing : Scope.KeysDistinct .empty := Value.hereditary_keysDistinct.map_nil
  exact world.keysDistinct_composeWith (world.keysDistinct_nested _) _ _ _ v nothing done

/-- The overrides of a tree are applied exactly. Where none is found, to apply them does nothing, so that whatever
is loaded is as if they were always applied. In a tree that has no other tags, a node is removed if it is marked
so, and else a tree without tags comes out. As long as keys do not become equal when they are unwrapped, there is
left in it, in the same order, what neither is removed itself, with an entry in its other half, nor stands in
something that is; and applying overrides again changes nothing. -/
theorem walkThrough_overrides_exact :
    (∀ v : Value, v.KeysDistinct → v.hasOverride = false →
      ∀ site scope sub, walkThrough .overrides site scope sub v = pure (some v)) ∧
    (∀ v : Value, v.KeysDistinct → ∀ site scope sub, v.finishing site scope sub = pure v.finished) ∧
    (∀ (world : World) main file, world.files.canonical main = .ok file → ∀ site scope sub,
      world.load main = world.compose [file] file .empty >>= Value.finishing site scope sub) ∧
    ∀ v : Value, v.OverridesOnly → ∀ site scope sub, ∃ left : Option Value,
      walkThrough .overrides site scope sub v = pure left ∧ (left = none ↔ v.isRemoved = true) ∧
      ∀ w ∈ left, w.TagFree ∧ w.typeName = v.typeName ∧ (v.bare.IsScalar → w = v.bare) ∧
        (v.UnwrapsApart → w.ways = Child.left v.ways) ∧
        walkThrough .overrides site scope sub w = pure (some w) := by
  refine ⟨fun v distinct unmarked site scope sub => ?_,
    fun v distinct site scope sub => v.finishing_eq site scope sub distinct,
    fun world main file leads site scope sub => world.load_eq_finishing leads site scope sub,
    fun v only site scope sub => ⟨v.applyOverrides?, walkThrough_overrides site scope sub v,
      v.applyOverrides?_eq_none_iff, fun w applied => ?_⟩⟩
  · rw [walkThrough_overrides, Value.applyOverrides?_of_not_hasOverride distinct unmarked]
  · obtain ⟨kind, scalar⟩ := only.kept applied
    refine ⟨only.tagFree applied, kind, scalar, fun apart => Value.ways_of_applyOverrides? only apart applied, ?_⟩
    rw [walkThrough_overrides, Value.applyOverrides?_idem applied]

theorem walkThrough_overrides_exact_unwrapped :
    let unmarked : Value := .tagged .cond 0 (.seq [.null])
    let v : Value := .map
      [(.tagged .replacement 0 (.str "a"), .seq [.tagged .removal 1 (.tagged .cond 2 .null), .int 3])]
    let world : World := ⟨⟨[(["main"], .file "a: !remove 1\nb: 2\n".toUTF8.toList (.change 0))], [], 1⟩, .empty, [],
      .ofRoot ⟨"/"⟩⟩
    ∀ site scope, walkThrough .overrides site scope none unmarked = pure (some unmarked) ∧
      unmarked.finishing site scope none = pure (.seq [.null]) ∧
      world.load ⟨"/main"⟩ = world.compose [⟨"/main"⟩] ⟨"/main"⟩ .empty >>= Value.finishing site scope none ∧
      ∃ w, walkThrough .overrides site scope none v = pure (some w) ∧ w.TagFree ∧ w.typeName = "mapping" ∧
        w.ways = [[.key (.str "a") (.seq [.int 3])], [.value (.str "a") (.seq [.int 3])],
          [.value (.str "a") (.seq [.int 3]), .item (.int 3)]] ∧
        walkThrough .overrides site scope none w = pure (some w) := by
  intro unmarked v world site scope
  obtain ⟨unchanged, agrees, loaded, exact⟩ := walkThrough_overrides_exact
  have distinct : unmarked.KeysDistinct := Value.everyMapping_tagged_iff.mpr
    (Value.everyMapping_seq_iff.mpr (List.forall_mem_singleton.mpr Value.keysDistinct_null))
  have parts {part : Value} (standing : Value.Standing part v) :
      part ∈ [v, .tagged .replacement 0 (.str "a"), .str "a",
        .seq [.tagged .removal 1 (.tagged .cond 2 .null), .int 3], .tagged .removal 1 (.tagged .cond 2 .null),
        .int 3] := by
    have standing : Value.Standing part (.map _) := standing
    cases standing with
    | self => simp [v]
    | key member inside =>
      cases List.mem_singleton.mp member
      cases inside with
      | self => simp
      | payload _ inside =>
        cases inside
        simp
    | value member inside =>
      cases List.mem_singleton.mp member
      cases inside with
      | self => simp
      | item member inside =>
        rcases List.mem_pair.mp member with rfl | rfl
        · cases inside with
          | self => simp
          | payload apart => exact absurd rfl apart
        · cases inside
          simp
  have only : v.OverridesOnly := by
    intro tag mark payload standing
    have among := parts standing
    simp [v] at among
    rcases among with ⟨rfl, _⟩ | ⟨rfl, _⟩ <;> rfl
  have apart : v.UnwrapsApart := by
    intro entries standing
    have among := parts standing
    simp [v] at among
    subst among
    exact List.pairwise_singleton _ _
  obtain ⟨left, walked, removed, each⟩ := exact v only site scope none
  cases left with
  | none => cases removed.mp rfl
  | some w =>
    obtain ⟨free, kind, _, ways, again⟩ := each w rfl
    exact ⟨unchanged unmarked distinct rfl site scope none, agrees unmarked distinct site scope none,
      loaded world ⟨"/main"⟩ ⟨"/main"⟩ (Path.ok_of_text (by decide +kernel)) site scope none, w, walked, free, kind,
      ways apart, again⟩

end ConfigWeave
