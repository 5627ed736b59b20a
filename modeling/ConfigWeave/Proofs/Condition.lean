import ConfigWeave.Compose.Document
import ConfigWeave.Proofs.Mapping

namespace ConfigWeave

namespace Mapping

/-- The condition of a clause, under the first of its keys that is there. -/
def condition? (clause : Mapping) : Option Value :=
  conditionKeys.findSome? fun key => clause.get? (.str key)

theorem bind_conditionKey? (clause : Mapping) :
    (conditionKey? clause).bind (fun key => clause.get? (.str key)) = clause.condition? := by
  unfold conditionKey? condition?
  induction conditionKeys with
  | nil => rfl
  | cons key rest ih =>
    rw [List.find?_cons, List.findSome?_cons, contains_eq_isSome_get?]
    cases found : clause.get? (.str key) with
    | none => exact ih
    | some c => exact found

end Mapping

/-- What there is in a place of a tree, if there is anything, transformed. -/
def transformIfAny (site : Site) (scope : Scope) (sub : Option Pattern) : Option Value → Run (Option Value)
  | none => return none
  | some v => transform site scope sub v

namespace Site

variable (site : Site) (scope : Scope) (sub : Option Pattern)

/-- Whether what stands for a condition in a tree comes out as one that holds. -/
def meets (condition : Value) : Run Bool := do
  site.holds scope (← transform site scope sub condition)

/-- What a condition chooses. -/
def select (condition : Value) (branch otherwise : Option Value) : Run (Option Value) := do
  if ← site.meets scope sub condition then transformIfAny site scope sub branch
  else transformIfAny site scope sub otherwise

end Site

section Payload

variable (site : Site) (scope : Scope) (sub : Option Pattern)

theorem transformAt_eq (key : String) (m : Mapping) :
    transformAt site scope sub key m = transformIfAny site scope sub (m.get? (.str key)) := by
  induction m with
  | nil => rw [transformAt, Mapping.get?_nil, transformIfAny]
  | cons entry rest ih =>
    obtain ⟨k, v⟩ := entry
    rw [transformAt, Mapping.get?_cons, ih]
    split <;> rfl

theorem transform_cond_map (mark : Nat) {clause : Mapping} {c : Value}
    (condition : clause.get? (.str "if") = some c) :
    transform site scope sub (.tagged .cond mark (.map clause)) =
      site.select scope sub c (clause.get? (.str "then")) (clause.get? (.str "else")) := by
  rw [transform, transformCondition, Mapping.contains_eq_isSome_get?, condition, Option.isSome_some, if_pos rfl,
    transformAt_eq, transformAt_eq, transformAt_eq, condition, Site.select, Site.meets, bind_assoc, transformIfAny]

theorem transform_cond_seq (mark : Nat) (clauses : List Value) :
    transform site scope sub (.tagged .cond mark (.seq clauses)) = transformClauses site scope sub 1 clauses := by
  rw [transform, transformCondition]

/-- A clause is looked for behind aliases. -/
theorem transformClause_unaliased (position : Nat) : (clause : Value) →
    transformClause site scope sub position clause.unaliased = transformClause site scope sub position clause
  | .tagged tag _ payload => by
    cases tag with
    | «alias» => rw [Value.unaliased, transformClause_unaliased position payload, transformClause]
    | _ => rw [Value.unaliased]; nofun
  | .null | .bool _ | .int _ | .float _ | .str _ | .seq _ | .map _ => by rw [Value.unaliased]; nofun

variable {clause : Value} {m : Mapping} (stated : clause.unaliased = .map m) (position : Nat) (rest : List Value)
include stated

/-- What a clause has for all other cases is chosen without regard to a condition. -/
theorem transformClauses_otherwise {b : Value} (otherwise : m.get? (.str "else") = some b) :
    transformClauses site scope sub position (clause :: rest) = transform site scope sub b := by
  rw [transformClauses, ← transformClause_unaliased, stated, transformClause, Mapping.contains_eq_isSome_get?,
    otherwise, Option.isSome_some, if_pos rfl, transformAt_eq, otherwise, transformIfAny]
  simp only [bind_assoc, pure_bind, bind_pure]

variable (conditional : m.get? (.str "else") = none)
include conditional

theorem transformClauses_condition {c : Value} (condition : m.condition? = some c) :
    transformClauses site scope sub position (clause :: rest) = (do
      if ← site.meets scope sub c then transformIfAny site scope sub (m.get? (.str "then"))
      else transformClauses site scope sub (position + 1) rest) := by
  have atKey := Mapping.bind_conditionKey? m
  rw [condition] at atKey
  obtain ⟨key, found, held⟩ := Option.bind_eq_some_iff.mp atKey
  rw [transformClauses, ← transformClause_unaliased, stated, transformClause, Mapping.contains_eq_isSome_get?,
    conditional, Option.isSome_none, if_neg Bool.false_ne_true, found]
  simp only [transformAt_eq, held, transformIfAny, Site.meets, bind_assoc]
  refine congrArg _ (funext fun v => congrArg _ (funext fun holds => ?_))
  cases holds with
  | true => simp only [if_true, bind_assoc, pure_bind, bind_pure]
  | false => simp only [Bool.false_eq_true, if_false, pure_bind]

end Payload

/-- A condition, with what is put in place where it is the first one that holds. -/
structure Clause where
  condition : Value
  branch : Option Value

namespace Clause

/-- Clauses as the mappings of a sequence, with a last one for all other cases if there is something for these.
Their keys may stand in any order and among others. -/
inductive InSequence : List Clause → Option Value → List Value → Prop
  | nothing : InSequence [] none []
  | otherwise {m : Mapping} {b : Value} : m.condition? = none → m.get? (.str "else") = some b →
      InSequence [] (some b) [.map m]
  | clause {m : Mapping} {clause : Clause} {rest : List Clause} {otherwise : Option Value} {items : List Value} :
      m.condition? = some clause.condition → m.get? (.str "then") = clause.branch → m.get? (.str "else") = none →
      InSequence rest otherwise items → InSequence (clause :: rest) otherwise (.map m :: items)

/-- Clauses as nodes with a condition, each under the key for the other case of the one before, and the last one
with what there is for all other cases. -/
inductive Nested : List Clause → Option Value → Value → Prop
  | last {mark : Nat} {m : Mapping} {clause : Clause} {otherwise : Option Value} :
      m.get? (.str "if") = some clause.condition → m.get? (.str "then") = clause.branch →
      m.get? (.str "else") = otherwise → Nested [clause] otherwise (.tagged .cond mark (.map m))
  | further {mark : Nat} {m : Mapping} {clause next : Clause} {rest : List Clause} {otherwise : Option Value}
      {v : Value} :
      m.get? (.str "if") = some clause.condition → m.get? (.str "then") = clause.branch →
      m.get? (.str "else") = some v → Nested (next :: rest) otherwise v →
      Nested (clause :: next :: rest) otherwise (.tagged .cond mark (.map m))

/-- The entries that state a clause, with its condition under the given key. -/
def entries (clause : Clause) (key : String) (otherwise : Option Value) : Mapping :=
  (.str key, clause.condition) :: ((clause.branch.map fun v => (.str "then", v)).toList ++
    (otherwise.map fun v => (.str "else", v)).toList)

/-- The sequence that states clauses, the first one with a condition under the given key. -/
def sequence (otherwise : Option Value) : String → List Clause → List Value
  | _, [] => (otherwise.map fun v => .map [(.str "else", v)]).toList
  | key, clause :: rest => .map (clause.entries key none) :: sequence otherwise "elseif" rest

/-- The node that states clauses with the others nested in it, at the given marks. -/
def nest (otherwise : Option Value) : (marks : Nat → Nat) → Clause → List Clause → Value
  | marks, clause, [] => .tagged .cond (marks 0) (.map (clause.entries "if" otherwise))
  | marks, clause, next :: rest =>
    .tagged .cond (marks 0) (.map (clause.entries "if" (some (nest otherwise (fun n => marks (n + 1)) next rest))))

theorem get?_entries (clause : Clause) {key : String} (conditional : key ∈ conditionKeys)
    (otherwise : Option Value) :
    (clause.entries key otherwise).get? (.str key) = some clause.condition ∧
      (clause.entries key otherwise).get? (.str "then") = clause.branch ∧
      (clause.entries key otherwise).get? (.str "else") = otherwise ∧
      (clause.entries key otherwise).condition? = some clause.condition := by
  obtain ⟨condition, branch⟩ := clause
  simp only [conditionKeys, List.mem_cons, List.not_mem_nil, or_false] at conditional
  rcases conditional with rfl | rfl | rfl <;> cases branch <;> cases otherwise <;>
    simp [entries, Mapping.condition?, conditionKeys, Mapping.get?_cons, Mapping.get?_nil, Value.str_beq_iff]

theorem inSequence_sequence (otherwise : Option Value) {key : String} (conditional : key ∈ conditionKeys) :
    (clauses : List Clause) → InSequence clauses otherwise (sequence otherwise key clauses)
  | [] => by
    cases otherwise with
    | none => exact .nothing
    | some b => exact .otherwise (by simp [Mapping.condition?, conditionKeys, Mapping.get?_cons, Mapping.get?_nil,
        Value.str_beq_iff]) (Mapping.get?_str_cons _ _ _)
  | clause :: rest => by
    obtain ⟨_, branch, last, condition⟩ := clause.get?_entries conditional none
    exact .clause condition branch last (inSequence_sequence otherwise (by decide) rest)

theorem nested_nest (otherwise : Option Value) : (marks : Nat → Nat) → (clause : Clause) → (rest : List Clause) →
    Nested (clause :: rest) otherwise (nest otherwise marks clause rest)
  | marks, clause, [] => by
    have conditional : "if" ∈ conditionKeys := by decide
    obtain ⟨condition, branch, last, _⟩ := clause.get?_entries conditional otherwise
    exact .last condition branch last
  | marks, clause, next :: rest => by
    have inner := nested_nest otherwise (fun n => marks (n + 1)) next rest
    have conditional : "if" ∈ conditionKeys := by decide
    obtain ⟨condition, branch, last, _⟩ := clause.get?_entries conditional (some _)
    exact .further condition branch last inner

end Clause

/-- What the first of some clauses chooses whose condition holds, or else what there is for all other cases. -/
def Site.selectFirst (site : Site) (scope : Scope) (sub : Option Pattern) (otherwise : Option Value) :
    List Clause → Run (Option Value)
  | [] => transformIfAny site scope sub otherwise
  | clause :: rest => do
    if ← site.meets scope sub clause.condition then transformIfAny site scope sub clause.branch
    else site.selectFirst scope sub otherwise rest

section Forms

variable {clauses : List Clause} {otherwise : Option Value} (site : Site) (scope : Scope) (sub : Option Pattern)

theorem Clause.InSequence.transformClauses_eq {items : List Value} (stated : InSequence clauses otherwise items)
    (position : Nat) : transformClauses site scope sub position items =
      site.selectFirst scope sub otherwise clauses := by
  induction stated generalizing position with
  | nothing => rw [transformClauses, Site.selectFirst, transformIfAny]
  | otherwise _ last =>
    rw [transformClauses_otherwise site scope sub (by rw [Value.unaliased]; nofun) position [] last,
      Site.selectFirst, transformIfAny]
  | clause condition branch conditional _ ih =>
    rw [transformClauses_condition site scope sub (by rw [Value.unaliased]; nofun) position _ conditional condition,
      Site.selectFirst, branch, ih (position + 1)]

theorem Clause.Nested.transform_eq {v : Value} (stated : Nested clauses otherwise v) :
    transform site scope sub v = site.selectFirst scope sub otherwise clauses := by
  induction stated with
  | last condition branch last =>
    rw [transform_cond_map site scope sub _ condition, branch, last]
    rfl
  | further condition branch next _ ih =>
    rw [transform_cond_map site scope sub _ condition, branch, next, Site.select, transformIfAny, ih]
    rfl

end Forms

/-- The two forms of a condition agree. Whichever clauses there are and in whichever order their keys stand, a
sequence of them and one of them in the other come to the same in every document, in every scope and with whatever
placeholders are replaced, be it nothing; they come to it with the same warnings and the same files included, and
fail in the same way. -/
theorem transform_sequence_eq_nested (clause : Clause) (rest : List Clause) (otherwise : Option Value) (site : Site)
    (scope : Scope) (sub : Option Pattern) (mark : Nat) :
    (∀ marks, transform site scope sub
      (.tagged .cond mark (.seq (Clause.sequence otherwise "if" (clause :: rest)))) =
      transform site scope sub (Clause.nest otherwise marks clause rest)) ∧
    ∀ items v, Clause.InSequence (clause :: rest) otherwise items → Clause.Nested (clause :: rest) otherwise v →
      transform site scope sub (.tagged .cond mark (.seq items)) = transform site scope sub v := by
  have agree {items : List Value} {v : Value} (sequence : Clause.InSequence (clause :: rest) otherwise items)
      (nested : Clause.Nested (clause :: rest) otherwise v) :
      transform site scope sub (.tagged .cond mark (.seq items)) = transform site scope sub v := by
    rw [transform_cond_seq, sequence.transformClauses_eq, nested.transform_eq]
  refine ⟨fun marks => ?_, fun items v => agree⟩
  exact agree (Clause.inSequence_sequence otherwise (by decide) _) (Clause.nested_nest otherwise marks clause rest)

theorem transform_sequence_eq_nested_reordered :
    let unknown (name : String) : Value := .tagged (.unknown name) 0 (.bool false)
    let items : List Value := [.map [(.str "then", .int 1), (.str "if", unknown "x")],
      .map [(.str "elif", .str "v")], .map [(.str "else", unknown "y")]]
    let v : Value := .tagged .cond 1 (.map [(.str "if", unknown "x"), (.str "else", .tagged .cond 2 (.map
      [(.str "note", .null), (.str "else", unknown "y"), (.str "if", .str "v")])), (.str "then", .int 1)])
    ∀ site scope sub, transform site scope sub (.tagged .cond 0 (.seq items)) = transform site scope sub v := by
  intro unknown items v site scope sub
  refine (transform_sequence_eq_nested ⟨unknown "x", some (.int 1)⟩ [⟨.str "v", none⟩] (some (unknown "y"))
    site scope sub 0).2 items v ?_ ?_
  · exact .clause rfl rfl rfl (.clause rfl rfl rfl (.otherwise rfl rfl))
  · exact .further rfl rfl rfl (.last rfl rfl rfl)

/-- A clause on its own composes like the mapping that it is, as long as it has nothing for all other cases in it:
the mapping is decided by its condition, and so is the clause. With something for all other cases, the clause comes
to that alone, so it only comes to what the mapping comes to where the condition does not hold, and without what is
reported on the way to that. -/
theorem transform_clauseAlone {m : Mapping} {c : Value} (condition : m.get? (.str "if") = some c) (site : Site)
    (scope : Scope) (sub : Option Pattern) (mark : Nat) :
    transform site scope sub (.tagged .cond mark (.map m)) =
      site.select scope sub c (m.get? (.str "then")) (m.get? (.str "else")) ∧
    (m.get? (.str "else") = none →
      transform site scope sub (.tagged .cond mark (.seq [.map m])) =
        transform site scope sub (.tagged .cond mark (.map m))) ∧
    ∀ trace, site.meets scope sub c = ⟨trace, .ok false⟩ → (m.get? (.str "else")).isSome = true →
      transform site scope sub (.tagged .cond mark (.map m)) =
        ⟨trace ++ (transform site scope sub (.tagged .cond mark (.seq [.map m]))).trace,
          (transform site scope sub (.tagged .cond mark (.seq [.map m]))).result⟩ := by
  have mapping := transform_cond_map site scope sub mark condition
  have alone : (Value.map m).unaliased = .map m := by
    rw [Value.unaliased]
    nofun
  refine ⟨mapping, fun conditional => ?_, fun trace fails some => ?_⟩
  · have first : m.condition? = some c := by rw [Mapping.condition?, conditionKeys, List.findSome?_cons, condition]
    rw [mapping, transform_cond_seq, transformClauses_condition site scope sub alone 1 [] conditional first,
      conditional, transformClauses]
    rfl
  · obtain ⟨b, otherwise⟩ := Option.isSome_iff_exists.mp some
    rw [mapping, transform_cond_seq, transformClauses_otherwise site scope sub alone 1 [] otherwise,
      Site.select, fails, Traced.bind_ok, otherwise]
    rfl

theorem transform_clauseAlone_unmet :
    let clause (key : String) : Mapping := [(.str "if", .int 0), (.str key, .tagged (.unknown "x") 1 (.int 2))]
    ∀ site scope,
      transform site scope none (.tagged .cond 0 (.seq [.map (clause "then")])) =
        transform site scope none (.tagged .cond 0 (.map (clause "then"))) ∧
      transform site scope none (.tagged .cond 0 (.seq [.map (clause "else")])) =
        transform site scope none (.tagged .cond 0 (.map (clause "else"))) := by
  intro clause site scope
  have unmet : site.meets scope none (.int 0) = ⟨[], .ok false⟩ := rfl
  obtain ⟨_, same, _⟩ := transform_clauseAlone (m := clause "then") rfl site scope none 0
  obtain ⟨_, _, fails⟩ := transform_clauseAlone (m := clause "else") rfl site scope none 0
  exact ⟨same rfl, (fails [] unmet rfl).symm⟩

/-- The condition of a clause is not looked at if the clause has something for all other cases in it. -/
theorem transform_clauseWithElse :
    ¬ ∀ (site : Site) (scope : Scope) (sub : Option Pattern) (mark : Nat) (c a b : Value),
      transform site scope sub
        (.tagged .cond mark (.seq [.map [(.str "if", c), (.str "then", a), (.str "else", b)]])) =
        transform site scope sub
          (.tagged .cond mark (.map [(.str "if", c), (.str "then", a), (.str "else", b)])) := by
  intro same
  let site := Templates.empty.site ⟨⟨"/main"⟩, .ofText "", fun _ _ _ => pure .null⟩
  have agree := same site .empty none 0 (.bool true) (.int 1) (.int 2)
  have chosen : transform site .empty none (.tagged .cond 0 (.map
      [(.str "if", .bool true), (.str "then", .int 1), (.str "else", .int 2)])) = pure (some (.int 1)) := rfl
  have ignored : transform site .empty none (.tagged .cond 0 (.seq [.map
      [(.str "if", .bool true), (.str "then", .int 1), (.str "else", .int 2)]])) = pure (some (.int 2)) := rfl
  rw [chosen, ignored] at agree
  cases agree

end ConfigWeave
