import ConfigWeave.Proofs.Placeholder
import ConfigWeave.Proofs.PlainTree

namespace ConfigWeave

theorem interpolate_of_not_infix {p : Pattern} {text : String} (plain : ¬ p.opening <:+: text.toList)
    (scope : Scope) :
    interpolate p scope text = pure none := by
  rw [interpolate, Pattern.segments_of_not_infix plain]

namespace Value

/-- The parts of a tree that a walk comes to with the pattern it starts with, unless a tag changes it: those
outside of what aliases stand for, and those of a clause of a condition even where the clause is an alias. -/
inductive Exposed : Value → Value → Prop
  | outside {part v : Value} : Outside .alias part v → Exposed part v
  | clause {part clause v : Value} {mark : Nat} {clauses : List Value} :
      Outside .alias (.tagged .cond mark (.seq clauses)) v → clause ∈ clauses → Exposed part clause.unaliased →
      Exposed part v

theorem Exposed.trans {part middle v : Value} (exposed : Exposed part middle) (outside : Outside .alias middle v) :
    Exposed part v := by
  cases exposed with
  | outside inside => exact .outside (inside.trans outside)
  | clause inside member below => exact .clause (inside.trans outside) member below

/-- Nothing opens a placeholder in the texts that a walk comes to with the pattern it starts with. -/
def PlainFor (p : Pattern) (v : Value) : Prop :=
  ∀ text, Exposed (.str text) v → ¬ p.opening <:+: text.toList

variable {p : Pattern}

theorem PlainFor.outside {middle v : Value} (plain : v.PlainFor p) (outside : Outside .alias middle v) :
    middle.PlainFor p :=
  fun text exposed => plain text (exposed.trans outside)

theorem PlainFor.payload {tag : Tag} {mark : Nat} {payload : Value}
    (plain : (Value.tagged tag mark payload).PlainFor p) (apart : tag ≠ .alias) : payload.PlainFor p :=
  plain.outside (.payload apart (.self _))

theorem PlainFor.items {items : List Value} (plain : (Value.seq items).PlainFor p) :
    ∀ item ∈ items, item.PlainFor p :=
  fun _ member => plain.outside (.item member (.self _))

theorem PlainFor.entries {entries : List (Value × Value)} (plain : (Value.map entries).PlainFor p) :
    ∀ entry ∈ entries, entry.1.PlainFor p ∧ entry.2.PlainFor p :=
  fun _ member => ⟨plain.outside (.key member (.self _)), plain.outside (.value member (.self _))⟩

theorem PlainFor.clauses {mark : Nat} {clauses : List Value}
    (plain : (Value.tagged .cond mark (.seq clauses)).PlainFor p) :
    ∀ clause ∈ clauses, clause.unaliased.PlainFor p :=
  fun _ member text exposed => plain text (.clause (.self _) member exposed)

/-- No clause of a condition is an alias. -/
def ClausesInPlace (v : Value) : Prop :=
  ∀ mark clauses, Outside .alias (.tagged .cond mark (.seq clauses)) v →
    ∀ clause ∈ clauses, clause.unaliased = clause

theorem Exposed.of_clausesInPlace {part v : Value} (exposed : Exposed part v) (inPlace : v.ClausesInPlace) :
    Outside .alias part v := by
  induction exposed with
  | outside outside => exact outside
  | @clause clause v mark clauses outside member _ ih =>
    have inside : Outside .alias clause (.tagged .cond mark (.seq clauses)) :=
      .payload nofun (.item member (.self _))
    have here := inside.trans outside
    rw [inPlace _ _ outside _ member] at ih
    exact (ih fun _ _ inside => inPlace _ _ (inside.trans here)).trans here

end Value

variable {p : Pattern} (site : Site) (scope : Scope)

mutual
theorem transform_of_plainFor : (v : Value) → v.PlainFor p →
    transform site scope (some p) v = transform site scope none v
  | .null, _ | .bool _, _ | .int _, _ | .float _, _ => by simp only [transform]
  | .str text, plain => by
    have literal := interpolate_of_not_infix (plain text (.outside (.self _))) scope
    simp only [transform, literal]
    rfl
  | .seq items, plain => by
    simp only [transform, transformItems_of_plainFor items plain.items]
  | .map entries, plain => by
    simp only [transform, transformEntries_of_plainFor entries plain.entries]
  | .tagged tag mark payload, plain => by
    match tag, plain with
    | .sub _, _ | .nosub, _ | .alias, _ | .removal, _ | .mergeKey, _ => simp only [transform]
    | .cond, plain => simp only [transform, transformCondition_of_plainFor mark payload plain]
    | .inclusion, plain | .insertion, plain | .replacement, plain | .unknown _, plain =>
      simp only [transform, transform_of_plainFor payload (plain.payload nofun)]
theorem transformItems_of_plainFor : (items : List Value) → (∀ item ∈ items, item.PlainFor p) →
    transformItems site scope (some p) items = transformItems site scope none items
  | [], _ => by simp only [transformItems]
  | item :: rest, plain => by
    obtain ⟨first, others⟩ := List.forall_mem_cons.mp plain
    simp only [transformItems, transform_of_plainFor item first, transformItems_of_plainFor rest others]
theorem transformEntries_of_plainFor : (entries : List (Value × Value)) →
    (∀ entry ∈ entries, entry.1.PlainFor p ∧ entry.2.PlainFor p) →
    transformEntries site scope (some p) entries = transformEntries site scope none entries
  | [], _ => by simp only [transformEntries]
  | (key, value) :: rest, plain => by
    obtain ⟨⟨plainKey, plainValue⟩, others⟩ := List.forall_mem_cons.mp plain
    simp only [transformEntries, transform_of_plainFor key plainKey, transform_of_plainFor value plainValue,
      transformEntries_of_plainFor rest others]
theorem transformAt_of_plainFor (key : String) : (entries : List (Value × Value)) →
    (∀ entry ∈ entries, entry.1.PlainFor p ∧ entry.2.PlainFor p) →
    transformAt site scope (some p) key entries = transformAt site scope none key entries
  | [], _ => by simp only [transformAt]
  | (k, value) :: rest, plain => by
    obtain ⟨first, others⟩ := List.forall_mem_cons.mp plain
    simp only [transformAt, transform_of_plainFor value first.2, transformAt_of_plainFor key rest others]
theorem transformCondition_of_plainFor (mark : Nat) : (v : Value) → (Value.tagged .cond mark v).PlainFor p →
    transformCondition site scope (some p) mark v = transformCondition site scope none mark v
  | .map clause, plain => by
    have entries := (plain.payload nofun).entries
    simp only [transformCondition, transformAt_of_plainFor _ clause entries]
  | .seq clauses, plain => by
    simp only [transformCondition, transformClauses_of_plainFor 1 clauses plain.clauses]
  | .null, _ | .bool _, _ | .int _, _ | .float _, _ | .str _, _ | .tagged .., _ => by simp only [transformCondition]
theorem transformClauses_of_plainFor (position : Nat) : (clauses : List Value) →
    (∀ clause ∈ clauses, clause.unaliased.PlainFor p) →
    transformClauses site scope (some p) position clauses = transformClauses site scope none position clauses
  | [], _ => by simp only [transformClauses]
  | clause :: rest, plain => by
    obtain ⟨first, others⟩ := List.forall_mem_cons.mp plain
    simp only [transformClauses, transformClause_of_plainFor position clause first,
      transformClauses_of_plainFor (position + 1) rest others]
theorem transformClause_of_plainFor (position : Nat) : (clause : Value) → clause.unaliased.PlainFor p →
    transformClause site scope (some p) position clause = transformClause site scope none position clause
  | .map clause, plain => by
    have entries := Value.PlainFor.entries (show (Value.map clause).PlainFor p from plain)
    simp only [transformClause, transformAt_of_plainFor _ clause entries]
  | .tagged tag mark payload, plain => by
    match tag, plain with
    | .alias, plain =>
      rw [Value.unaliased] at plain
      simp only [transformClause, transformClause_of_plainFor position payload plain]
    | .sub _, _ | .nosub, _ | .cond, _ | .inclusion, _ | .insertion, _ | .removal, _ | .replacement, _
    | .mergeKey, _
    | .unknown _, _ => simp only [transformClause]
  | .null, _ | .bool _, _ | .int _, _ | .float _, _ | .str _, _ | .seq _, _ => by simp only [transformClause]
end

/-- Aliases are closed to substitution, but for clauses of conditions. If nothing opens a placeholder but in texts
behind aliases, it does not matter in any document, among any templates and in any scope whether placeholders are
to be replaced in the tree: what comes of it, what is reported and how it fails is the same. A clause is looked for
behind aliases with the pattern that holds around it; where clauses are aliases, placeholders must not be opened in
them either. -/
theorem transform_aliases (p : Pattern) (v : Value) :
    ((∀ text, Value.Outside .alias (.str text) v → ¬ p.opening <:+: text.toList) → v.ClausesInPlace →
      ∀ site scope, transform site scope (some p) v = transform site scope none v) ∧
    (v.PlainFor p → ∀ site scope, transform site scope (some p) v = transform site scope none v) :=
  ⟨fun plain inPlace site scope =>
    transform_of_plainFor site scope v fun text exposed => plain text (exposed.of_clausesInPlace inPlace),
    fun plain site scope => transform_of_plainFor site scope v plain⟩

theorem transform_aliases_opened :
    let text : Value := .tagged .alias 0 (.str "${ x }")
    let item : Value := .seq [text]
    let clause : Value := .tagged .cond 0 (.seq [.tagged .alias 0 (.seq [text])])
    ∀ v ∈ [item, clause], ∀ site scope, transform site scope (some .default) v = transform site scope none v := by
  intro text item clause
  have closed {part payload : Value} (outside : Value.Outside .alias part (.tagged .alias 0 payload)) :
      part = .tagged .alias 0 payload := by
    cases outside with
    | self => rfl
    | payload apart => exact absurd rfl apart
  have within {part payload : Value} (outside : Value.Outside .alias part (.seq [.tagged .alias 0 payload])) :
      part = .seq [.tagged .alias 0 payload] ∨ part = .tagged .alias 0 payload := by
    cases outside with
    | self => exact .inl rfl
    | item member inside =>
      cases List.mem_singleton.mp member
      exact .inr (closed inside)
  refine List.forall_mem_cons.mpr
    ⟨(transform_aliases .default item).1 ?_ ?_,
      List.forall_mem_singleton.mpr ((transform_aliases .default clause).2 ?_)⟩
  · intro _ (outside : Value.Outside .alias _ (.seq [.tagged .alias 0 _]))
    rcases within outside with same | same <;> cases same
  · intro _ _ (outside : Value.Outside .alias _ (.seq [.tagged .alias 0 _]))
    rcases within outside with same | same <;> cases same
  · intro _ (exposed : Value.Exposed _ (.tagged .cond 0 (.seq [.tagged .alias 0 (.seq [.tagged .alias 0 _])])))
    cases exposed with
    | outside outside =>
      cases outside with
      | payload _ inside => rcases within inside with same | same <;> cases same
    | clause outside member below =>
      cases outside with
      | self =>
        cases List.mem_singleton.mp member
        cases below with
        | outside outside => rcases within outside with same | same <;> cases same
        | clause outside => rcases within outside with same | same <;> cases same
      | payload _ inside => rcases within inside with same | same <;> cases same

/-- A clause that is an alias is looked into with the pattern that holds around the condition. -/
theorem transform_aliasedClause :
    ¬ ∀ (p : Pattern) (v : Value), (∀ name mark payload, ¬ Value.Part (.tagged (.sub name) mark payload) v) →
      (∀ text, Value.Outside .alias (.str text) v → ¬ p.opening <:+: text.toList) →
      ∀ site scope, transform site scope (some p) v = transform site scope none v := by
  intro closed
  let clause : Value := .tagged .alias 0 (.map [(.str "else", .str "${ 1 }")])
  let v : Value := .tagged .cond 0 (.seq [clause])
  let site := Templates.empty.site ⟨⟨"/main"⟩, .ofText "", fun _ _ _ => pure .null⟩
  have opened : (transform site .empty (some .default) v).result.toOption.join.any (· == .int 1) =
    true := by decide +kernel
  have literal : (transform site .empty none v).result.toOption.join.any (· == .int 1) = false := by decide +kernel
  have unsubstituted : ∀ node ∈ v.taggedNodes, (node.1 matches .sub _) = false := by decide
  have same := closed .default v
    (fun name mark payload part => nomatch unsubstituted _ (Value.mem_taggedNodes.mpr part)) ?_ site .empty
  · rw [same, literal] at opened
    cases opened
  · intro _ (outside : Value.Outside .alias _ (.tagged .cond 0 (.seq [.tagged .alias 0 _])))
    cases outside with
    | payload _ inside =>
      cases inside with
      | item member inside =>
        cases List.mem_singleton.mp member
        cases inside with
        | payload apart => exact absurd rfl apart

end ConfigWeave
