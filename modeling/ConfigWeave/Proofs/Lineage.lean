import ConfigWeave.Proofs.Composer
import ConfigWeave.Proofs.IncludeChain
import ConfigWeave.Proofs.IncludePoint

namespace ConfigWeave

/-- The variables that are handed on at a point. -/
def IncludePoint.inherited (point : IncludePoint) : Scope :=
  (point.scope.inherit point.arguments.vars).1

namespace World

/-- A file on top of a stack, open to be composed. -/
def opened (world : World) (stack : List Path) (file : Path) (text : String) : OpenDocument :=
  world.document (world.nested (world.settings.maxDepth + 1 - stack.length)) stack file text

/-- A document on top of a stack comes to a point when it is composed, and the file can be included there. -/
structure Includes (world : World) (stack : List Path) (file : Path) (given : Scope) (point : IncludePoint)
    (target : Path) : Prop where
  comesTo : ∃ text content, (world.readText file).result = .ok text ∧ Yaml.parse? text = some content ∧
    (world.opened stack file text).ComesTo ((world.builtins file).extend given) given content point
  leads : world.files.canonical (world.settings.locate file point.arguments.target) = .ok target
  fresh : ∀ around ∈ stack, (target == around) = false
  room : stack.length ≤ world.settings.maxDepth

/-- How a document is come by from a main document, with the points at which one document includes the next. -/
inductive Lineage (world : World) (main : Path) : List IncludePoint → List Path → Path → Scope → Prop
  | main {first} : world.files.canonical main = .ok first → world.Lineage main [] [first] first .empty
  | included {points stack file given point target} : world.Lineage main points stack file given →
      world.Includes stack file given point target →
      world.Lineage main (points ++ [point]) (stack ++ [target]) target point.inherited

variable {world : World} {main : Path}

/-- What comes of a point if files are composed as given. -/
def answers (world : World) (compose : Composition) (stack : List Path) (file : Path) (text : String)
    (point : IncludePoint) : Run Value :=
  world.inclusion (if stack.length ≤ world.settings.maxDepth then some compose else none) stack file (.ofText text)
    point.mark point.arguments point.scope

theorem answer_opened (stack : List Path) (file : Path) (text : String) :
    (world.opened stack file text).answer = world.answers world.compose stack file text := by
  funext point
  by_cases room : stack.length ≤ world.settings.maxDepth
  · obtain ⟨budget, left⟩ : ∃ budget, world.settings.maxDepth + 1 - stack.length = budget + 1 :=
      ⟨world.settings.maxDepth - stack.length, by omega⟩
    have below (target : Path) : world.settings.maxDepth + 1 - (stack ++ [target]).length = budget := by
      rw [List.length_append, List.length_singleton]
      omega
    simp only [OpenDocument.answer, opened, document, answers, left, if_pos room, nested, inclusion, compose, below]
  · have none : world.settings.maxDepth + 1 - stack.length = 0 := by omega
    simp only [OpenDocument.answer, opened, document, answers, none, if_neg room, nested]

/-- Answers only differ from those of a document where a file is called for in a way in which it is composed
differently. -/
theorem answers_of_apart {stack : List Path} {file target : Path} {inherited : Scope} {other : Composition}
    (elsewhere : ∀ around also scope, (around, also, scope) ≠ (stack ++ [target], target, inherited) →
      other around also scope = world.compose around also scope)
    {point : IncludePoint}
    (apart : ¬ (world.files.canonical (world.settings.locate file point.arguments.target) = .ok target ∧
      point.inherited = inherited)) (text : String) :
    world.answers other stack file text point = (world.opened stack file text).answer point := by
  rw [answer_opened]
  cases found : world.files.canonical (world.settings.locate file point.arguments.target) with
  | error cause => simp only [answers, inclusion, found]
  | ok reached =>
    have same : other (stack ++ [reached]) reached point.inherited =
        world.compose (stack ++ [reached]) reached point.inherited := by
      refine elsewhere _ _ _ fun equal => apart ?_
      obtain ⟨rfl, rfl⟩ := Prod.mk.inj (Prod.mk.inj equal).2
      exact ⟨found, rfl⟩
    rw [IncludePoint.inherited] at same
    by_cases room : stack.length ≤ world.settings.maxDepth
    · simp only [answers, inclusion, found, if_pos room, same]
    · simp only [answers, inclusion, found, if_neg room]

/-- A file that can be included is reported, and then it is composed. -/
theorem sublist_trace_answers {stack : List Path} {file target : Path} {point : IncludePoint}
    (leads : world.files.canonical (world.settings.locate file point.arguments.target) = .ok target)
    (permits : world.Permits stack target) (compose : Composition) (text : String) :
    (.included target :: (compose (stack ++ [target]) target point.inherited).trace).Sublist
      (world.answers compose stack file text point).trace := by
  have outside : stack.any (target == ·) = false :=
    List.any_eq_false.mpr fun around member => by simp [permits.fresh around member]
  simp only [answers, inclusion, leads, outside, if_pos permits.room]
  exact (List.sublist_append_right _ _).cons_cons _

theorem composeOnce_of_contains {stack : List Path} {file : Path} {given : Scope} {text : String} {content : Value}
    (read : (world.readText file).result = .ok text) (parsed : Yaml.parse? text = some content)
    (compose : Composition) :
    world.composeOnce compose stack file given =
      let run := ((world.opened stack file text).answering (world.answers compose stack file text)).compose
        ((world.builtins file).extend given) given content
      ⟨(world.readText file).trace ++ run.trace, run.result⟩ := by
  rw [composeOnce, composeWith, Traced.bind_of_ok read, parsed]
  rfl

theorem compose_of_contains {stack : List Path} {file : Path} {given : Scope} {text : String} {content : Value}
    (read : (world.readText file).result = .ok text) (parsed : Yaml.parse? text = some content) :
    world.compose stack file given =
      let run := (world.opened stack file text).compose ((world.builtins file).extend given) given content
      ⟨(world.readText file).trace ++ run.trace, run.result⟩ := by
  rw [← composeOnce_compose, composeOnce_of_contains read parsed, ← answer_opened]
  rfl

theorem Asks.exists_includes {stack deeper : List Path} {file target : Path} {given inherited : Scope}
    (asks : world.Asks stack file given deeper target inherited) :
    ∃ point, world.Includes stack file given point target ∧ point.inherited = inherited := by
  obtain ⟨rfl, permits, _⟩ := asks.call
  obtain ⟨compose, elsewhere, different⟩ := asks
  cases read : (world.readText file).result with
  | error e =>
    rw [← composeOnce_compose] at different
    simp only [composeOnce, composeWith, Traced.bind_of_error read, ne_eq, not_true] at different
  | ok text =>
    cases parsed : Yaml.parse? text with
    | none =>
      rw [← composeOnce_compose] at different
      simp only [composeOnce, composeWith, Traced.bind_of_ok read, parsed, ne_eq, not_true] at different
    | some content =>
      rw [composeOnce_of_contains read parsed, compose_of_contains read parsed] at different
      obtain ⟨point, ⟨leads, same⟩, comesTo⟩ := OpenDocument.exists_comesTo
        ⟨world.answers compose stack file text, fun point apart => answers_of_apart elsewhere apart text⟩
          (.none _ _)
        fun equal => different (by rw [equal]; rfl)
      exact ⟨point, ⟨⟨text, content, read, parsed, comesTo⟩, leads, permits.fresh, permits.room⟩, same⟩

theorem Includes.asks {stack : List Path} {file target : Path} {given : Scope} {point : IncludePoint}
    (includes : world.Includes stack file given point target) :
    world.Asks stack file given (stack ++ [target]) target point.inherited := by
  obtain ⟨⟨text, content, read, parsed, changed, elsewhere, different⟩, leads, fresh, room⟩ := includes
  -- A file may be called for in the same way at several points. The document comes to one of them.
  let here (other : IncludePoint) : Prop :=
    world.files.canonical (world.settings.locate file other.arguments.target) = .ok target ∧
      other.inherited = point.inherited
  have elsewhereAlso (other : IncludePoint) (apart : ¬ here other) :
      changed other = (world.opened stack file text).answer other := by
    refine elsewhere other ?_
    rintro rfl
    exact apart ⟨leads, rfl⟩
  obtain ⟨reached, ⟨alsoLeads, same⟩, part⟩ :=
    OpenDocument.exists_reached ⟨changed, elsewhereAlso⟩ (.none _ _) different
  let run := (world.opened stack file text).compose ((world.builtins file).extend given) given content
  let other := world.compose.answering (stack ++ [target]) target point.inherited ⟨run.trace, .ok .null⟩
  have unchanged (around : List Path) (also : Path) (scope : Scope)
      (apart : (around, also, scope) ≠ (stack ++ [target], target, point.inherited)) :
      other around also scope = world.compose around also scope :=
    Composition.answering_of_ne _ apart _
  refine ⟨other, unchanged, fun equal => ?_⟩
  have within := part ⟨world.answers other stack file text, fun also apart => answers_of_apart unchanged apart text⟩
  have longer := (sublist_trace_answers alsoLeads ⟨room, ⟨_, leads⟩, fresh⟩ other text).trans within
  rw [composeOnce_of_contains read parsed, compose_of_contains read parsed] at equal
  have sameTrace := List.append_cancel_left (congrArg Traced.trace equal)
  rw [sameTrace, same, show other (stack ++ [target]) target point.inherited = ⟨run.trace, .ok .null⟩ from
    Composition.answering_self _ _ _ _ _] at longer
  exact absurd longer.length_le (Nat.not_succ_le_self _)

/-- What is composed in the course of a load is what has a lineage. -/
theorem composer_iff {stack : List Path} {file : Path} {given : Scope} :
    world.Composer main stack file given ↔ ∃ points, world.Lineage main points stack file given := by
  constructor
  · intro composer
    induction composer with
    | main found => exact ⟨[], .main found⟩
    | asked _ asks ih =>
      obtain ⟨points, lineage⟩ := ih
      obtain ⟨rfl, _⟩ := asks.call
      obtain ⟨point, includes, rfl⟩ := asks.exists_includes
      exact ⟨points ++ [point], .included lineage includes⟩
  · rintro ⟨points, lineage⟩
    induction lineage with
    | main found => exact .main found
    | included _ includes ih => exact .asked ih includes.asks

end World

end ConfigWeave
