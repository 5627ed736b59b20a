import ConfigWeave.Proofs.Compositional.Document

namespace ConfigWeave

/-- A point at which a document asks for another one, with the scope there. -/
structure IncludePoint where
  mark : Nat
  arguments : Arguments
  scope : Scope

namespace OpenDocument

/-- What comes of a point. -/
def answer (document : OpenDocument) (point : IncludePoint) : Run Value :=
  document.inclusion point.mark point.arguments point.scope

/-- The same document, with other answers. -/
def answering (document : OpenDocument) (answers : IncludePoint → Run Value) : OpenDocument :=
  { document with inclusion := fun mark arguments scope => answers ⟨mark, arguments, scope⟩ }

/-- Whether a document comes to the given point when it is composed: it is a different run if something else comes
of that point alone. -/
def ComesTo (document : OpenDocument) (start inherited : Scope) (content : Value) (point : IncludePoint) : Prop :=
  ∃ answers : IncludePoint → Run Value, (∀ other, other ≠ point → answers other = document.answer other) ∧
    (document.answering answers).compose start inherited content ≠ document.compose start inherited content

end OpenDocument

/-- Answers that are the given ones everywhere but at some points. -/
abbrev AnswersBut (here : IncludePoint → Prop) (answers : IncludePoint → Run Value) : Type :=
  {others : IncludePoint → Run Value // ∀ point, ¬ here point → others point = answers point}

/-- The given answers themselves. -/
def AnswersBut.none (here : IncludePoint → Prop) (answers : IncludePoint → Run Value) : AnswersBut here answers :=
  ⟨answers, fun _ _ => rfl⟩

/-- Either a run is the same whatever is answered at some points, or whatever is answered at one of them is part of
it. -/
def reaching (here : IncludePoint → Prop) (answers : IncludePoint → Run Value) :
    Compositional (AnswersBut here answers) where
  Holds x := (∀ i j, x i = x j) ∨ ∃ point, here point ∧
    ∀ i : AnswersBut here answers, (i.1 point).trace.Sublist (x i).trace
  pure _ := .inl fun _ _ => rfl
  warned _ _ := .inl fun _ _ => rfl
  fail _ := .inl fun _ _ => rfl
  bind := by
    intro α β x f first later
    dsimp only at later ⊢
    rcases first with same | ⟨point, among, part⟩
    · -- The first run is always the same, so it leads to the same place, if to any.
      cases result : (x (.none here answers)).result with
      | error e =>
        refine .inl fun i j => ?_
        rw [same i (.none _ _), same j (.none _ _), Traced.bind_of_error result, Traced.bind_of_error result]
      | ok a =>
        refine (later a).imp (fun sameRest i j => ?_) fun ⟨point, among, part⟩ => ⟨point, among, fun i => ?_⟩
        · rw [same i (.none _ _), same j (.none _ _), Traced.bind_of_ok result, Traced.bind_of_ok result,
            sameRest i j]
        · rw [same i (.none _ _), Traced.bind_of_ok result]
          exact (part i).trans (List.sublist_append_right _ _)
    · exact .inr ⟨point, among, fun i => (part i).trans (Traced.trace_sublist_bind _ _)⟩

namespace OpenDocument

variable {document : OpenDocument} {start inherited : Scope} {content : Value}

/-- Where answers make a difference the document comes to one of them, and the answer is part of the composition. -/
theorem exists_reached {here : IncludePoint → Prop} {answers : IncludePoint → Run Value}
    (i j : AnswersBut here answers)
    (different : (document.answering i.1).compose start inherited content ≠
      (document.answering j.1).compose start inherited content) :
    ∃ point, here point ∧ ∀ others : AnswersBut here answers,
      (others.1 point).trace.Sublist ((document.answering others.1).compose start inherited content).trace := by
  have documents : (reaching here answers).Documents .any fun i => document.answering i.1 := by
    refine ⟨⟨_, fun _ => rfl⟩, ⟨_, fun _ => rfl⟩, fun mark arguments scope _ _ => .of_holds ?_⟩
    by_cases among : here ⟨mark, arguments, scope⟩
    · exact Or.inr ⟨_, among, fun _ => List.Sublist.refl _⟩
    · exact Or.inl fun i j => (i.2 _ among).trans (j.2 _ among).symm
  have composed : (reaching here answers).Holds fun i => (document.answering i.1).compose start inherited content :=
    (documents.compose trivial inherited trivial).holds
  rcases composed with same | reached
  · exact absurd (same i j) different
  · exact reached

/-- An answer that is longer than the whole composition tells that the document comes to it. -/
theorem exists_comesTo {here : IncludePoint → Prop} (i j : AnswersBut here document.answer)
    (different : (document.answering i.1).compose start inherited content ≠
      (document.answering j.1).compose start inherited content) :
    ∃ point, here point ∧ document.ComesTo start inherited content point := by
  classical
  obtain ⟨point, among, part⟩ := exists_reached i j different
  let long : Run Value := ⟨.opened ⟨""⟩ :: (document.compose start inherited content).trace, .ok .null⟩
  let others (other : IncludePoint) : Run Value := if other = point then long else document.answer other
  have unchanged (other : IncludePoint) (apart : other ≠ point) : others other = document.answer other :=
    if_neg apart
  refine ⟨point, among, others, unchanged, fun same => ?_⟩
  have longer := part ⟨others, fun other outside => unchanged other fun equal => outside (equal ▸ among)⟩
  have changed : others point = long := if_pos rfl
  simp only [changed, same] at longer
  exact absurd longer.length_le (Nat.not_succ_le_self _)

/-- The answers of a document, with another one at some points. -/
def answersAt (document : OpenDocument) (here : IncludePoint → Bool) (run : Run Value) :
    AnswersBut (here · = true) document.answer :=
  ⟨fun point => if here point then run else document.answer point, fun _ apart => if_neg apart⟩

/-- If it depends on an answer whether a document can be composed, the document comes to a point with this
answer. -/
theorem exists_comesTo_of_fails {here : IncludePoint → Bool} {run other : Run Value}
    (checked : (let composes (run : Run Value) : Bool :=
        ((document.answering (document.answersAt here run).1).compose start inherited
          content).result.toOption.isSome
      composes run && !composes other) = true) :
    ∃ point, here point = true ∧ document.ComesTo start inherited content point := by
  refine exists_comesTo (document.answersAt here run) (document.answersAt here other) fun equal => ?_
  simp only [equal, Bool.and_not_self, Bool.false_eq_true] at checked

end OpenDocument

/-- The scopes within another one: it is extended by each insertion and by each package that stands around them. -/
inductive Scope.Encloses (base : Scope) : Scope → Prop
  | refl : base.Encloses base
  | inserted {scope : Scope} (vars : Mapping) : base.Encloses scope → base.Encloses (scope.overlay vars).1
  | packaged {scope : Scope} (id : String) :
      base.Encloses scope → base.Encloses (scope.define packageVariable (.str id))

/-- Trees may be anything. Scopes belong together if they are the same scope, within the given one. -/
def Regime.within (base : Scope) : Regime Bool :=
  { Quality.any.regime Bool with
    Together := fun scopes => ∃ scope, (∀ i, scopes i = scope) ∧ base.Encloses scope
    same := fun _ _ ⟨scope, same, _⟩ => ⟨scope, same, fun _ _ _ _ => trivial⟩
    overlaid := fun ⟨_, same, encloses⟩ _ =>
      ⟨_, fun i => congrArg (fun scope => (Scope.overlay scope _).1) (same i), encloses.inserted _⟩
    packaged := fun ⟨_, same, encloses⟩ =>
      ⟨_, fun i => congrArg (Scope.define · packageVariable _) (same i), encloses.packaged _⟩ }

namespace OpenDocument

variable {document : OpenDocument} {start inherited : Scope} {content : Value}

/-- The scopes of a document outside of all insertions and packages: that with which its composition starts, and
those with the variables that some of the first entries of its section declare. -/
inductive Stage (document : OpenDocument) (start inherited : Scope) (content : Value) : Scope → Prop
  | start : document.Stage start inherited content start
  | declared {entries sub before after scope} : content = .map entries →
      (document.ownEntries start entries).result = .ok (sub, before ++ after) →
      (start.evaluateAll document sub inherited.contains before).result = .ok scope →
      document.Stage start inherited content scope

theorem Stage.tree {tree : Scope} (done : (document.treeScope start inherited content).result = .ok tree) :
    document.Stage start inherited content tree := by
  cases content with
  | map entries =>
    rw [treeScope, ownScope_eq_evaluateAll] at done
    obtain ⟨⟨sub, own⟩, found, evaluated⟩ := Traced.exists_of_bind_ok done
    have whole : (document.ownEntries start entries).result = .ok (sub, own ++ []) := by rw [found, List.append_nil]
    exact .declared rfl whole evaluated
  | _ =>
    cases done
    exact .start

/-- Whether answers are those of a document wherever it can come to from a scope. -/
def Agrees (document : OpenDocument) (answers : IncludePoint → Run Value) (base : Scope) : Prop :=
  ∀ point, base.Encloses point.scope → answers point = document.answer point

variable {answers : IncludePoint → Run Value}

theorem Agrees.documents {base : Scope} (agrees : document.Agrees answers base) :
    Compositional.agreeing.logic.Documents (.within base) fun i =>
      bif i then document.answering answers else document := by
  refine ⟨⟨document.file, fun i => by cases i <;> rfl⟩, ⟨document.lines, fun i => by cases i <;> rfl⟩, ?_⟩
  rintro mark arguments scopes _ ⟨scope, together, encloses⟩
  simp only [together]
  exact .of_holds (agrees ⟨mark, arguments, scope⟩ encloses)

theorem together_within (base : Scope) : (Regime.within base).Together fun _ => base :=
  ⟨base, fun _ => rfl, .refl⟩

/-- The induction is on the entries that are left. They are evaluated on a stage that those before them lead to. -/
theorem evaluateAll_answering
    (agrees : ∀ base, document.Stage start inherited content base → document.Agrees answers base)
    {entries : Mapping} (isMap : content = .map entries) {sub : Option Pattern}
    (before after : List (Value × Value)) {scope : Scope}
    (own : (document.ownEntries start entries).result = .ok (sub, before ++ after))
    (done : (start.evaluateAll document sub inherited.contains before).result = .ok scope) :
    scope.evaluateAll (document.answering answers) sub inherited.contains after =
      scope.evaluateAll document sub inherited.contains after := by
  induction after generalizing before scope with
  | nil => rfl
  | cons entry rest ih =>
    have sites := (agrees scope (.declared isMap own done)).documents.sites Regime.bodies_empty
    have transformed : transform (Templates.empty.site (document.answering answers)) scope sub entry.2 =
        transform (Templates.empty.site document) scope sub entry.2 :=
      (sites.transform (together_within scope) (fun _ => trivial) entry.2 trivial).holds
    have first : scope.evaluateAll (document.answering answers) sub inherited.contains [entry] =
        scope.evaluateAll document sub inherited.contains [entry] := by
      simp only [Scope.evaluateAll, transformed]
      rfl
    rw [Scope.evaluateAll_cons, Scope.evaluateAll_cons document, first]
    refine Traced.bind_congr_of_ok fun next step => ih (before ++ [entry]) (by simpa using own) ?_
    rw [Scope.evaluateAll_append, Traced.bind_of_ok done]
    exact step

theorem treeScope_answering
    (agrees : ∀ base, document.Stage start inherited content base → document.Agrees answers base) :
    (document.answering answers).treeScope start inherited content =
      document.treeScope start inherited content := by
  cases content with
  | map entries =>
    have own : (document.answering answers).ownEntries start entries = document.ownEntries start entries :=
      ((agrees start .start).documents.ownEntries (together_within start) trivial).holds
    simp only [treeScope, ownScope_eq_evaluateAll, own]
    exact Traced.bind_congr_of_ok fun section_ found => evaluateAll_answering agrees rfl [] section_.2 found rfl
  | _ => rfl

/-- Documents are composed in the same way if they have the same answers wherever they can come to. -/
theorem compose_answering
    (agrees : ∀ base, document.Stage start inherited content base → document.Agrees answers base) :
    (document.answering answers).compose start inherited content = document.compose start inherited content := by
  rw [compose_eq, compose_eq, treeScope_answering agrees]
  refine Traced.bind_congr_of_ok fun tree done => ?_
  exact ((agrees tree (.tree done)).documents.composeTree (together_within tree) trivial).holds

/-- The scope at a point to which a document comes is one of the document outside of insertions and packages, with
what those around the point define on top of it. -/
theorem ComesTo.exists_stage {point : IncludePoint} (comesTo : document.ComesTo start inherited content point) :
    ∃ base, document.Stage start inherited content base ∧ base.Encloses point.scope := by
  obtain ⟨answers, elsewhere, different⟩ := comesTo
  refine Classical.byContradiction fun none => different (compose_answering fun base stage other encloses => ?_)
  refine elsewhere other ?_
  rintro rfl
  exact none ⟨base, stage, encloses⟩

end OpenDocument

end ConfigWeave
