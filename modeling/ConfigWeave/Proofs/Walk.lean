import ConfigWeave.Proofs.DistinctKeys
import ConfigWeave.Proofs.LoadContext

namespace ConfigWeave

open Compositional

/-- Where trees are transformed in the course of a composition: the files that are being composed, with the text of
the last one and the depth that is left below it, its templates with those around the place, and what placeholders
are replaced by. As in all trees that are read or composed, no key stands twice in a mapping. -/
structure Walk where
  world : World
  depth : Nat
  stack : List Path
  file : Path
  text : String
  templates : Templates
  inserting : List String
  budget : Nat
  scope : Scope
  sub : Option Pattern
  templatesDistinct : templates.KeysDistinct
  scopeDistinct : scope.KeysDistinct

namespace Walk

def document (walk : Walk) : OpenDocument :=
  walk.world.document (walk.world.nested walk.depth) walk.stack walk.file walk.text

def site (walk : Walk) : Site :=
  ⟨walk.document, walk.templates.instantiateWith walk.document (walk.templates.nested walk.document walk.budget)
    walk.inserting⟩

def transform (walk : Walk) (v : Value) : Run (Option Value) :=
  ConfigWeave.transform walk.site walk.scope walk.sub v

def transformEntries (walk : Walk) (entries : List (Value × Value)) : Run (List (Value × Value)) :=
  ConfigWeave.transformEntries walk.site walk.scope walk.sub entries

/-- The same place in another world. -/
def within (walk : Walk) (world : World) : Walk :=
  { walk with world }

/-- What is done about a tree has a property if whatever is included is reported and composed with it. -/
theorem holds_transform {ι : Type} {P : Compositional ι} (walk : Walk) {world : ι → World} (worlds : Worlds world)
    (including : ∀ target depth (messages : List String) inherited,
      (∃ path, ∀ i, (world i).files.canonical path = .ok target) → P.Holds fun i => do
        Traced.report (Effect.included target)
        Traced.reportAll (messages.map (.warned walk.file))
        (world i).composeWith ((world i).nested depth) (walk.stack ++ [target]) target inherited)
    (v : Value) : P.Holds fun i => (walk.within (world i)).transform v := by
  have documents : P.Documents .any fun i => (walk.within (world i)).document := by
    refine ⟨⟨walk.file, fun _ => rfl⟩, ⟨.ofText walk.text, fun _ => rfl⟩, fun mark arguments scope _ _ =>
      .of_holds ?_⟩
    refine worlds.inclusion walk.stack walk.file (.ofText walk.text) mark arguments scope fun target found _ => ?_
    cases left : walk.depth with
    | zero =>
      refine .inl fun i => ?_
      show (world i).nested walk.depth = none
      rw [left]
      rfl
    | succ depth =>
      refine .inr ⟨fun i => (world i).composeWith ((world i).nested depth), fun i => ?_,
        fun messages inherited => ?_⟩
      · show (world i).nested walk.depth = _
        rw [left]
        rfl
      · exact including target depth messages inherited found
  have bodies : Quality.any.Bodies walk.templates := fun _ _ _ => trivial
  have sites : P.Sites .any fun i => (walk.within (world i)).site :=
    ⟨documents, fun _ _ _ _ _ =>
      documents.instantiate bodies walk.budget walk.inserting _ (fun _ _ => trivial) trivial⟩
  exact (sites.transform trivial walk.sub v trivial).holds

/-- Only files are opened and included that paths lead to. -/
theorem located_of_mem (walk : Walk) {v : Value} {file : Path}
    (member : .opened file ∈ (walk.transform v).trace ∨ .included file ∈ (walk.transform v).trace) :
    ∃ place, walk.world.files.Located place ∧ file = place.path := by
  let R : Effect → Prop
    | .opened file | .included file => ∃ place, walk.world.files.Located place ∧ file = place.path
    | .warned .. => True
  have warned (file : Path) (message : String) : R (.warned file message) := trivial
  have reached (path file : Path) (found : walk.world.files.canonical path = .ok file) :
      R (.opened file) ∧ R (.included file) :=
    ⟨FileSystem.exists_of_canonical found, FileSystem.exists_of_canonical found⟩
  have located : (everywhere R warned).Holds fun _ => walk.transform v := by
    refine walk.holds_transform (.same walk.world) (fun target depth messages inherited ⟨path, found⟩ => ?_) v
    obtain ⟨opened, included⟩ := reached path target (found ())
    have composed := walk.world.everywhere_composeWith warned reached depth
      (walk.stack ++ [target]) inherited opened
    intro effect member
    rcases List.mem_append.mp member with first | later
    · exact List.mem_singleton.mp first ▸ included
    · exact (everywhere R warned).bind ((everywhere R warned).warned walk.file messages) (fun _ => composed)
        effect later
  exact member.elim (located _) (located _)

/-- What is done about a tree depends on what is read, not on where that comes from. -/
theorem transform_of_sameReads (walk : Walk) (cache : FileCache)
    (same : ∀ place, walk.world.files.Located place →
      (walk.world.cache.fetch walk.world.files place.path).1 = (cache.fetch walk.world.files place.path).1)
    (v : Value) :
    (walk.within { walk.world with cache }).transform v = walk.transform v := by
  have agree : agreeing.Holds fun i => (walk.within (walk.world.either cache i)).transform v := by
    refine walk.holds_transform (walk.world.worlds_either cache) ?_ v
    intro target depth messages inherited ⟨path, found⟩
    have composed := walk.world.composeWith_of_sameReads cache same depth (walk.stack ++ [target]) inherited
      (FileSystem.exists_of_canonical (found true))
    exact congrArg (fun run : Run Value => do
      Traced.report (Effect.included target)
      Traced.reportAll (messages.map (.warned walk.file))
      run) composed
  exact agree.symm

/-- Whatever has been done in the course of a transformation, trees are transformed afterwards as they would have
been before: it makes no difference which files have been read by then, reported or warned about. -/
theorem transform_after (walk : Walk) {context : LoadContext} (start : context.toWorld = walk.world) {v : Value}
    {effects : List Effect} (done : effects ⊆ (walk.transform v).trace) (u : Value) :
    (walk.within (context.recordAll effects).2.toWorld).transform u = walk.transform u := by
  rw [(context.recordAll_spec effects).1, Session.toWorld_foldl_record, start]
  refine walk.transform_of_sameReads _ (fun place located => ?_) u
  refine (FileCache.fetch_fst_fetchAll located fun file member => ?_).symm
  exact walk.located_of_mem (.inl (done (mem_filterMap_opened?.mp member)))

end Walk

end ConfigWeave
