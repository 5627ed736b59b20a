import ConfigWeave.Proofs.Condition

namespace ConfigWeave

/-- Sequences of clauses that agree in whatever is looked at. The branch of a clause is looked at if its condition
holds, and the clauses behind it if it does not; behind what there is for all other cases nothing is. -/
inductive SameClauses (site : Site) (scope : Scope) (sub : Option Pattern) : List Value → List Value → Prop
  | nil : SameClauses site scope sub [] []
  | same (clause : Value) {rest others : List Value} : SameClauses site scope sub rest others →
      SameClauses site scope sub (clause :: rest) (clause :: others)
  | otherwise {a b : Value} {m n : Mapping} {v : Value} {rest others : List Value} :
      a.unaliased = .map m → b.unaliased = .map n → m.get? (.str "else") = some v → n.get? (.str "else") = some v →
      SameClauses site scope sub (a :: rest) (b :: others)
  | condition {a b : Value} {m n : Mapping} {c : Value} {rest others : List Value} :
      a.unaliased = .map m → b.unaliased = .map n → m.get? (.str "else") = none → n.get? (.str "else") = none →
      m.condition? = some c → n.condition? = some c →
      ((site.meets scope sub c).result = .ok true → m.get? (.str "then") = n.get? (.str "then")) →
      ((site.meets scope sub c).result = .ok false → SameClauses site scope sub rest others) →
      SameClauses site scope sub (a :: rest) (b :: others)

/-- Payloads of conditions that have one form and agree in whatever is looked at. -/
inductive SamePayload (site : Site) (scope : Scope) (sub : Option Pattern) : Value → Value → Prop
  | mapping {m n : Mapping} {c : Value} : m.get? (.str "if") = some c → n.get? (.str "if") = some c →
      ((site.meets scope sub c).result = .ok true → m.get? (.str "then") = n.get? (.str "then")) →
      ((site.meets scope sub c).result = .ok false → m.get? (.str "else") = n.get? (.str "else")) →
      SamePayload site scope sub (.map m) (.map n)
  | sequence {clauses others : List Value} : SameClauses site scope sub clauses others →
      SamePayload site scope sub (.seq clauses) (.seq others)

section Payload

variable {site : Site} {scope : Scope} {sub : Option Pattern}

theorem SameClauses.transformClauses_eq {clauses others : List Value}
    (same : SameClauses site scope sub clauses others) (position : Nat) :
    transformClauses site scope sub position clauses = transformClauses site scope sub position others := by
  induction same generalizing position with
  | nil => rfl
  | same clause _ ih => rw [transformClauses, transformClauses, ih (position + 1)]
  | otherwise first second here there =>
    rw [transformClauses_otherwise site scope sub first position _ here,
      transformClauses_otherwise site scope sub second position _ there]
  | condition first second here there condition alsoCondition branch _ ih =>
    rw [transformClauses_condition site scope sub first position _ here condition,
      transformClauses_condition site scope sub second position _ there alsoCondition]
    refine Traced.bind_congr_of_ok fun holds met => ?_
    cases holds with
    | true => rw [if_pos rfl, if_pos rfl, branch met]
    | false => rw [if_neg Bool.false_ne_true, if_neg Bool.false_ne_true, ih met (position + 1)]

theorem SamePayload.transform_eq {payload other : Value} (same : SamePayload site scope sub payload other)
    (mark : Nat) :
    transform site scope sub (.tagged .cond mark payload) =
      transform site scope sub (.tagged .cond mark other) := by
  cases same with
  | mapping here there branch otherwise =>
    rw [transform_cond_map site scope sub mark here, transform_cond_map site scope sub mark there]
    refine Traced.bind_congr_of_ok fun holds met => ?_
    cases holds with
    | true => rw [if_pos rfl, if_pos rfl, branch met]
    | false => rw [if_neg Bool.false_ne_true, if_neg Bool.false_ne_true, otherwise met]
  | sequence same => rw [transform_cond_seq, transform_cond_seq, same.transformClauses_eq]

end Payload

/-- The pattern of placeholders below a tag. -/
def Site.patternBelow (site : Site) (scope : Scope) (sub : Option Pattern) : Tag → Run (Option Pattern)
  | .sub name => do return some (← site.pattern scope name)
  | .nosub | .alias => return none
  | _ => return sub

/-- Trees that are the same but for branches that are not selected, wherever in them: in items, keys and values,
below tags, and within what a condition looks at. -/
inductive Alike (site : Site) (scope : Scope) : Option Pattern → Value → Value → Prop
  | refl (sub : Option Pattern) (v : Value) : Alike site scope sub v v
  | trans {sub : Option Pattern} {u v w : Value} : Alike site scope sub u v → Alike site scope sub v w →
      Alike site scope sub u w
  | unselected {sub : Option Pattern} {payload other : Value} (mark : Nat) :
      SamePayload site scope sub payload other →
      Alike site scope sub (.tagged .cond mark payload) (.tagged .cond mark other)
  | item {sub : Option Pattern} {v w : Value} (before after : List Value) : Alike site scope sub v w →
      Alike site scope sub (.seq (before ++ v :: after)) (.seq (before ++ w :: after))
  | key {sub : Option Pattern} {v w : Value} (before : Mapping) (value : Value) (after : Mapping) :
      Alike site scope sub v w →
      Alike site scope sub (.map (before ++ (v, value) :: after)) (.map (before ++ (w, value) :: after))
  | value {sub : Option Pattern} {v w : Value} (before : Mapping) (key : Value) (after : Mapping) :
      Alike site scope sub v w →
      Alike site scope sub (.map (before ++ (key, v) :: after)) (.map (before ++ (key, w) :: after))
  | payload {sub : Option Pattern} {v w : Value} {tag : Tag} (mark : Nat) :
      tag ≠ .cond → tag ≠ .removal → tag ≠ .mergeKey →
      (∀ below, (site.patternBelow scope sub tag).result = .ok below → Alike site scope below v w) →
      Alike site scope sub (.tagged tag mark v) (.tagged tag mark w)
  | within {sub : Option Pattern} {v w : Value} (mark : Nat) (before : Mapping) (key : Value) (after : Mapping) :
      Alike site scope sub v w →
      Alike site scope sub (.tagged .cond mark (.map (before ++ (key, v) :: after)))
        (.tagged .cond mark (.map (before ++ (key, w) :: after)))
  | withinClause {sub : Option Pattern} {v w a b : Value} (mark : Nat) (front : List Value) (before : Mapping)
      (key : Value) (after : Mapping) (back : List Value) : a.unaliased = .map (before ++ (key, v) :: after) →
      b.unaliased = .map (before ++ (key, w) :: after) → Alike site scope sub v w →
      Alike site scope sub (.tagged .cond mark (.seq (front ++ a :: back)))
        (.tagged .cond mark (.seq (front ++ b :: back)))

section Within

variable {site : Site} {scope : Scope} {sub : Option Pattern} {v w : Value}
  (same : transform site scope sub v = transform site scope sub w)
include same

theorem transformItems_congr (before after : List Value) :
    transformItems site scope sub (before ++ v :: after) =
      transformItems site scope sub (before ++ w :: after) := by
  induction before with
  | nil => rw [List.nil_append, List.nil_append, transformItems, transformItems, same]
  | cons item rest ih => rw [List.cons_append, List.cons_append, transformItems, transformItems, ih]

omit same in
theorem transformEntries_congr {key other : Value}
    (keys : transform site scope sub key = transform site scope sub other)
    (values : transform site scope sub v = transform site scope sub w) (before after : Mapping) :
    transformEntries site scope sub (before ++ (key, v) :: after) =
      transformEntries site scope sub (before ++ (other, w) :: after) := by
  induction before with
  | nil => rw [List.nil_append, List.nil_append, transformEntries, transformEntries, keys, values]
  | cons entry rest ih =>
    obtain ⟨name, old⟩ := entry
    rw [List.cons_append, List.cons_append, transformEntries, transformEntries, ih]

theorem transformAt_congr (name : String) (before : Mapping) (key : Value) (after : Mapping) :
    transformAt site scope sub name (before ++ (key, v) :: after) =
      transformAt site scope sub name (before ++ (key, w) :: after) := by
  induction before with
  | nil => rw [List.nil_append, List.nil_append, transformAt, transformAt, same]
  | cons entry rest ih =>
    obtain ⟨key, old⟩ := entry
    rw [List.cons_append, List.cons_append, transformAt, transformAt, ih]

omit same in
theorem Mapping.contains_congr (before : Mapping) (key : Value) (after : Mapping) (name : Value) :
    contains (before ++ (key, v) :: after) name = contains (before ++ (key, w) :: after) name := by
  simp only [contains, List.any_append, List.any_cons]

theorem transformCondition_congr (mark : Nat) (before : Mapping) (key : Value) (after : Mapping) :
    transformCondition site scope sub mark (.map (before ++ (key, v) :: after)) =
      transformCondition site scope sub mark (.map (before ++ (key, w) :: after)) := by
  rw [transformCondition, transformCondition, Mapping.contains_congr (v := v) (w := w)]
  simp only [transformAt_congr same]

theorem transformClause_congr (position : Nat) (before : Mapping) (key : Value) (after : Mapping) :
    transformClause site scope sub position (.map (before ++ (key, v) :: after)) =
      transformClause site scope sub position (.map (before ++ (key, w) :: after)) := by
  have keys : conditionKey? (before ++ (key, v) :: after) = conditionKey? (before ++ (key, w) :: after) := by
    simp only [conditionKey?, Mapping.contains_congr (v := v) (w := w)]
  rw [transformClause, transformClause, Mapping.contains_congr (v := v) (w := w), keys]
  simp only [transformAt_congr same]

end Within

theorem transformClauses_congr {site : Site} {scope : Scope} {sub : Option Pattern} {a b : Value}
    (same : ∀ position, transformClause site scope sub position a = transformClause site scope sub position b)
    (front back : List Value) (position : Nat) :
    transformClauses site scope sub position (front ++ a :: back) =
      transformClauses site scope sub position (front ++ b :: back) := by
  induction front generalizing position with
  | nil => rw [List.nil_append, List.nil_append, transformClauses, transformClauses, same]
  | cons clause rest ih =>
    rw [List.cons_append, List.cons_append, transformClauses, transformClauses, ih (position + 1)]

theorem Alike.transform_eq {site : Site} {scope : Scope} {sub : Option Pattern} {v w : Value}
    (alike : Alike site scope sub v w) : transform site scope sub v = transform site scope sub w := by
  induction alike with
  | refl => rfl
  | trans _ _ first second => exact first.trans second
  | unselected mark same => exact same.transform_eq mark
  | item before after _ ih => rw [transform, transform, transformItems_congr ih]
  | key before value after _ ih => rw [transform, transform, transformEntries_congr ih rfl]
  | value before key after _ ih => rw [transform, transform, transformEntries_congr rfl ih]
  | @payload sub v w tag mark selecting removing merging _ ih =>
    cases tag with
    | sub name =>
      rw [transform, transform]
      refine Traced.bind_congr_of_ok fun p found => ih (some p) ?_
      rw [Site.patternBelow, Traced.bind_of_ok found]
      rfl
    | nosub | «alias» => rw [transform, transform, ih none rfl]
    | cond => exact absurd rfl selecting
    | removal => exact absurd rfl removing
    | mergeKey => exact absurd rfl merging
    | inclusion | insertion | replacement | unknown => rw [transform, transform, ih sub rfl]
  | within mark before key after _ ih => rw [transform, transform, transformCondition_congr ih]
  | withinClause mark front before key after back first second _ ih =>
    rw [transform_cond_seq, transform_cond_seq]
    refine transformClauses_congr (fun position => ?_) front back 1
    rw [← transformClause_unaliased, first, transformClause_congr ih, ← second, transformClause_unaliased]

/-- Branches that are not selected have no influence. If the payloads of a condition agree in the conditions that
are looked at and in the branch that is selected, then whatever else stands in them, the same comes of both, with
the same warnings and the same files included, and if it fails, with the same error. This holds in every document,
in every scope and with whatever placeholders are replaced, and so wherever in a tree such conditions stand. -/
theorem transform_unselected (site : Site) (scope : Scope) :
    (∀ sub mark payload other, SamePayload site scope sub payload other →
      transform site scope sub (.tagged .cond mark payload) = transform site scope sub (.tagged .cond mark other)) ∧
    ∀ sub v w, Alike site scope sub v w → transform site scope sub v = transform site scope sub w :=
  ⟨fun _ mark _ _ same => same.transform_eq mark, fun _ _ _ alike => alike.transform_eq⟩

theorem transform_unselected_circular :
    let circular : Value := .tagged .inclusion 0 (.str "main")
    let mapping (dead : Value) : Value := .map [(.str "if", .bool true), (.str "else", dead), (.str "then", .int 1)]
    let clauses (dead : Value) (rest : List Value) : List Value :=
      .map [(.str "if", .int 0), (.str "then", dead)] :: .tagged .alias 1 (.map [(.str "else", .str "x")]) :: rest
    let around (v : Value) : Value := .seq [.null, .tagged (.sub none) 2 (.map [(Value.mergeKey, v)])]
    ∀ site scope, transform site scope none (.tagged .cond 3 (mapping circular)) =
        transform site scope none (.tagged .cond 3 (mapping .null)) ∧
      transform site scope none (around (.tagged .cond 3 (.seq (clauses circular [circular])))) =
        transform site scope none (around (.tagged .cond 3 (.seq (clauses .null [])))) := by
  intro circular mapping clauses around site scope
  obtain ⟨payload, anywhere⟩ := transform_unselected site scope
  have met : (site.meets scope none (.bool true)).result = .ok true := rfl
  have unmet : (site.meets scope (some .default) (.int 0)).result = .ok false := rfl
  have mappings : SamePayload site scope none (mapping circular) (mapping .null) :=
    .mapping rfl rfl (fun _ => rfl) fun fails => by
      rw [met] at fails
      cases fails
  have sequences : SameClauses site scope (some .default) (clauses circular [circular]) (clauses .null []) := by
    refine .condition rfl rfl rfl rfl rfl rfl (fun holds => ?_) fun _ => .otherwise rfl rfl rfl rfl
    rw [unmet] at holds
    cases holds
  refine ⟨payload none 3 _ _ mappings, anywhere none _ _ ?_⟩
  refine .item [.null] [] (.payload 2 nofun nofun nofun fun below found => ?_)
  cases found
  exact .value [] Value.mergeKey [] (.unselected 3 (.sequence sequences))

end ConfigWeave
