import ConfigWeave.Proofs.Lineage

namespace ConfigWeave

namespace Scope

variable {document : OpenDocument} {sub : Option Pattern} {isProtected : String → Bool} {scope next : Scope}
  {name : String}

/-- Entries for protected names are neither used nor evaluated. -/
theorem evaluateAll_unprotected (document : OpenDocument) (sub : Option Pattern) (isProtected : String → Bool)
    (scope : Scope) (entries : List (Value × Value)) :
    scope.evaluateAll document sub isProtected (entries.filter fun entry => !isProtected entry.1.keyText) =
      scope.evaluateAll document sub isProtected entries := by
  induction entries generalizing scope with
  | nil => rfl
  | cons entry rest ih =>
    obtain ⟨key, written⟩ := entry
    rw [List.filter_cons]
    cases kept : isProtected key.keyText with
    | true => simpa [evaluateAll, kept] using ih scope
    | false =>
      rw [if_pos (by simp), evaluateAll_cons, evaluateAll_cons _ _ _ _ _ rest]
      exact congrArg _ (funext ih)

/-- An entry is left alone, or its value is defined. -/
theorem evaluate_cases {entry : Value × Value}
    (done : (scope.evaluateAll document sub isProtected [entry]).result = .ok next) :
    (isProtected entry.1.keyText = true ∧ next = scope) ∨ (isProtected entry.1.keyText = false ∧ ∃ outcome,
      (transform (Templates.empty.site document) scope sub entry.2).result = .ok outcome ∧
        next = scope.define entry.1.keyText (outcome.getD .null)) := by
  obtain ⟨key, written⟩ := entry
  simp only [evaluateAll] at done
  split at done
  · rename_i kept
    cases done
    exact .inl ⟨kept, rfl⟩
  · rename_i kept
    obtain ⟨outcome, transformed, rest⟩ := Traced.exists_of_bind_ok done
    refine .inr ⟨Bool.eq_false_iff.mpr kept, outcome, transformed, ?_⟩
    split at rest
    · cases rest
      rfl
    · cases rest
      rfl

/-- A variable that no entry is evaluated for stays as it is. -/
theorem get?_evaluateAll_of_absent {entries : List (Value × Value)}
    (absent : ∀ entry ∈ entries, entry.1.keyText = name → isProtected name = true)
    (done : (scope.evaluateAll document sub isProtected entries).result = .ok next) :
    next.get? name = scope.get? name := by
  induction entries generalizing scope with
  | nil =>
    cases done
    rfl
  | cons entry rest ih =>
    obtain ⟨first, others⟩ := List.forall_mem_cons.mp absent
    rw [evaluateAll_cons] at done
    obtain ⟨between, evaluated, done⟩ := Traced.exists_of_bind_ok done
    rw [ih others done]
    rcases evaluate_cases evaluated with ⟨_, rfl⟩ | ⟨unprotected, outcome, _, rfl⟩
    · rfl
    · rw [get?_define, if_neg]
      rintro ⟨_, rfl⟩
      rw [first rfl] at unprotected
      cases unprotected

/-- The value that the last entry of a name has, evaluated with those before it in scope. -/
def Assigns (scope : Scope) (document : OpenDocument) (sub : Option Pattern) (isProtected : String → Bool)
    (entries : List (Value × Value)) (name : String) (value : Value) : Prop :=
  ∃ before key written after base outcome, entries = before ++ (key, written) :: after ∧ key.keyText = name ∧
    (∀ entry ∈ after, entry.1.keyText ≠ name) ∧
    (scope.evaluateAll document sub isProtected before).result = .ok base ∧
    (transform (Templates.empty.site document) base sub written).result = .ok outcome ∧ value = outcome.getD .null

theorem Assigns.get? {entries : List (Value × Value)} {value : Value}
    (assigns : scope.Assigns document sub isProtected entries name value) (free : isBuiltin name = false)
    (unprotected : isProtected name = false)
    (done : (scope.evaluateAll document sub isProtected entries).result = .ok next) :
    next.get? name = some value := by
  obtain ⟨before, key, written, after, base, outcome, rfl, rfl, last, reached, transformed, rfl⟩ := assigns
  rw [evaluateAll_append, Traced.bind_of_ok reached, evaluateAll_cons] at done
  obtain ⟨between, evaluated, done⟩ := Traced.exists_of_bind_ok done
  rw [get?_evaluateAll_of_absent (fun entry member same => absurd same (last entry member)) done]
  rcases evaluate_cases evaluated with ⟨kept, _⟩ | ⟨_, also, alsoTransformed, rfl⟩
  · cases unprotected.symm.trans kept
  · cases transformed.symm.trans alsoTransformed
    rw [get?_define, if_pos ⟨free, rfl⟩]

theorem exists_assigns {entries : List (Value × Value)} (unprotected : isProtected name = false)
    (declared : ∃ entry ∈ entries, entry.1.keyText = name)
    (done : (scope.evaluateAll document sub isProtected entries).result = .ok next) :
    ∃ value, scope.Assigns document sub isProtected entries name value := by
  obtain ⟨entry, member, same⟩ := declared
  -- The last entry of the name is the first one from the end.
  have some : (entries.reverse.find? fun entry => entry.1.keyText == name).isSome :=
    List.find?_isSome.mpr ⟨entry, List.mem_reverse.mpr member, beq_iff_eq.mpr same⟩
  obtain ⟨⟨key, written⟩, found⟩ := Option.isSome_iff_exists.mp some
  obtain ⟨named, after, before, split, last⟩ := List.find?_eq_some_iff_append.mp found
  have parts : entries = before.reverse ++ (key, written) :: after.reverse := by
    rw [← List.reverse_reverse entries, split]
    simp
  subst parts
  rw [evaluateAll_append] at done
  obtain ⟨base, reached, done⟩ := Traced.exists_of_bind_ok done
  rw [evaluateAll_cons] at done
  obtain ⟨between, evaluated, _⟩ := Traced.exists_of_bind_ok done
  rcases evaluate_cases evaluated with ⟨kept, _⟩ | ⟨_, outcome, transformed, _⟩
  · rw [show key.keyText = name from eq_of_beq named, unprotected] at kept
    cases kept
  · have others : ∀ entry ∈ after.reverse, entry.1.keyText ≠ name := fun entry member => by
      simpa using last entry (List.mem_reverse.mp member)
    exact ⟨_, before.reverse, key, written, after.reverse, base, outcome, rfl, eq_of_beq named, others, reached,
      transformed, rfl⟩

end Scope

namespace OpenDocument

variable {document : OpenDocument} {start inherited tree : Scope} {content : Value} {name : String}

/-- The value that the section of a document gives a name. -/
def Declares (document : OpenDocument) (start inherited : Scope) (content : Value) (name : String)
    (value : Value) : Prop :=
  ∃ entries sub own, content = .map entries ∧ (document.ownEntries start entries).result = .ok (sub, own) ∧
    start.Assigns document sub inherited.contains own name value

/-- What is inherited prevails over what the document declares. -/
theorem get?_treeScope (free : Scope.isBuiltin name = false) (same : start.get? name = inherited.get? name)
    (done : (document.treeScope start inherited content).result = .ok tree) (value : Value) :
    tree.get? name = some value ↔ inherited.get? name = some value ∨
      inherited.get? name = none ∧ document.Declares start inherited content name value := by
  cases content with
  | map entries =>
    rw [treeScope, ownScope_eq_evaluateAll] at done
    obtain ⟨⟨sub, own⟩, found, evaluated⟩ := Traced.exists_of_bind_ok done
    cases given : inherited.get? name with
    | some v =>
      have kept : inherited.contains name = true := by rw [Scope.contains, given]; rfl
      rw [Scope.get?_evaluateAll_of_absent (fun _ _ _ => kept) evaluated, same, given]
      simp
    | none =>
      have unprotected : inherited.contains name = false := by rw [Scope.contains, given]; rfl
      constructor
      · intro known
        by_cases declared : ∃ entry ∈ own, entry.1.keyText = name
        · obtain ⟨other, assigns⟩ := Scope.exists_assigns unprotected declared evaluated
          obtain rfl : value = other := Option.some.inj (known.symm.trans (assigns.get? free unprotected evaluated))
          exact .inr ⟨rfl, entries, sub, own, rfl, found, assigns⟩
        · have absent : ∀ entry ∈ own, entry.1.keyText = name → inherited.contains name = true :=
            fun entry member named => absurd ⟨entry, member, named⟩ declared
          rw [Scope.get?_evaluateAll_of_absent absent evaluated, same, given] at known
          cases known
      · rintro (impossible | ⟨_, _, _, _, ⟨⟩, also, assigns⟩)
        · cases impossible
        · cases found.symm.trans also
          exact assigns.get? free unprotected evaluated
  | _ =>
    cases done
    rw [same]
    refine ⟨.inl, ?_⟩
    rintro (known | ⟨_, _, _, _, isMap, _⟩)
    · exact known
    · cases isMap

theorem Stage.nodup {scope : Scope} (stage : document.Stage start inherited content scope)
    (distinct : start.names.Nodup) :
    scope.names.Nodup := by
  cases stage with
  | start => exact distinct
  | declared _ _ evaluated =>
    rw [Scope.evaluateAll_eq] at evaluated
    obtain ⟨vars, _, done⟩ := Traced.exists_of_bind_ok evaluated
    cases done
    exact Scope.nodup_defineAll distinct vars

end OpenDocument

theorem Scope.Encloses.nodup {base scope : Scope} (encloses : base.Encloses scope) (distinct : base.names.Nodup) :
    scope.names.Nodup := by
  induction encloses with
  | refl => exact distinct
  | inserted vars _ ih => exact nodup_defineAll ih _
  | packaged id _ ih => exact nodup_define ih _ _

namespace World

variable {world : World} {main file : Path} {points : List IncludePoint} {stack : List Path} {given : Scope}
  {name : String}

theorem nodup_start (world : World) (file : Path) (given : Scope) :
    ((world.builtins file).extend given).names.Nodup :=
  Scope.nodup_extend (by simp only [builtins, Scope.names_builtin]; decide) given

/-- Each name is handed on once. -/
theorem Lineage.nodup (lineage : world.Lineage main points stack file given) : given.names.Nodup := by
  cases lineage with
  | main _ => exact List.nodup_nil
  | included _ includes =>
    obtain ⟨_, _, _, _, comesTo⟩ := includes.comesTo
    obtain ⟨base, stage, encloses⟩ := comesTo.exists_stage
    exact Scope.nodup_inherit (encloses.nodup (stage.nodup (nodup_start world _ _))) _

/-- A document starts with what it is given, besides what describes itself. -/
theorem Lineage.get?_start (lineage : world.Lineage main points stack file given)
    (free : Scope.isBuiltin name = false) :
    ((world.builtins file).extend given).get? name = given.get? name := by
  have undescribed : (world.builtins file).contains name = false := by
    rw [Scope.contains_eq_decide, builtins, Scope.names_builtin]
    exact free
  have absent : (world.builtins file).get? name = none := by
    simpa only [Scope.contains, Option.isSome_eq_false_iff, Option.isNone_iff_eq_none] using undescribed
  rw [Scope.get?_extend, free, Bindings.last?_of_nodup lineage.nodup, absent]
  exact Option.or_none

theorem Lineage.given_eq (lineage : world.Lineage main points stack file given) :
    given = (points.getLast?.map IncludePoint.inherited).getD .empty := by
  cases lineage with
  | main _ => rfl
  | included _ _ => rw [List.getLast?_concat]; rfl

/-- In the scope in which the tree of a document is transformed, a name that is not built in has the value that it
is given where the document is included, else the value that it has there, else the one that the document declares
itself. What the document declares of inherited names might as well not be there: the run is the same without. The
scope at a point where the document includes another one is one of its own, with what insertions and packages
around the point define. So it is for every document that is composed, since each has a lineage. -/
theorem variable_precedence (lineage : world.Lineage main points stack file given) {text : String} {content : Value}
    (read : (world.readText file).result = .ok text) (parsed : Yaml.parse? text = some content) :
    let document := world.opened stack file text
    let start := (world.builtins file).extend given
    (world.compose stack file given = do
      let _ ← world.readText file
      let tree ← document.treeScope start given content
      document.composeTree tree content) ∧
    (∀ tree, (document.treeScope start given content).result = .ok tree →
      ∀ name, Scope.isBuiltin name = false → ∀ value, tree.get? name = some value ↔
        match points.getLast? with
        | none => document.Declares start given content name value
        | some point =>
          let vars := Scope.ofMapping point.arguments.vars
          Bindings.last? vars name = some value ∨ Bindings.last? vars name = none ∧
            (point.scope.get? name = some value ∨ point.scope.get? name = none ∧
              document.Declares start given content name value)) ∧
    (∀ entries, content = .map entries → document.treeScope start given content = do
      let (sub, own) ← document.ownEntries start entries
      start.evaluateAll document sub given.contains (own.filter fun entry => !given.contains entry.1.keyText)) ∧
    ∀ point, document.ComesTo start given content point →
      ∃ base, document.Stage start given content base ∧ base.Encloses point.scope := by
  intro document start
  refine ⟨?_, fun tree done name free value => ?_, ?_, fun point comesTo => comesTo.exists_stage⟩
  · rw [compose_of_contains read parsed, Traced.bind_of_ok read, ← OpenDocument.compose_eq]
  · rw [OpenDocument.get?_treeScope free (lineage.get?_start free) done]
    cases last : points.getLast? with
    | none =>
      have nothing : given.get? name = none := by
        rw [lineage.given_eq, last]
        rfl
      simp only [nothing, reduceCtorEq, false_or, true_and, document, start]
    | some point =>
      have handed : given.get? name =
          (Bindings.last? (Scope.ofMapping point.arguments.vars) name).or (point.scope.get? name) := by
        rw [lineage.given_eq, last]
        exact Scope.get?_inherit _ _ free
      cases vars : Bindings.last? (Scope.ofMapping point.arguments.vars) name with
      | none => simp only [handed, vars, Option.none_or, reduceCtorEq, false_or, true_and, document, start]
      | some v => simp only [handed, vars, Option.some_or, reduceCtorEq, false_and, or_false]
  · rintro entries rfl
    simp only [OpenDocument.treeScope, OpenDocument.ownScope_eq_evaluateAll, Scope.evaluateAll_unprotected]

theorem variable_precedence_inserted :
    let files : FileSystem := ⟨[
      (["main"], .file ("variables:\n  x: outer\n  y: outer\ntemplates:\n  t: !include other?x=given\n" ++
        "a: !insert t?w=inserted\n").toUTF8.toList (.change 0)),
      (["other"], .file "variables:\n  w: own\n  x: !include nowhere\n  y: own\n  z: own\n".toUTF8.toList
        (.change 1))],
      [], 2⟩
    let world : World := ⟨files, .empty, [], .ofRoot ⟨"/"⟩⟩
    let stack : List Path := [⟨"/main"⟩, ⟨"/other"⟩]
    ∃ point text content tree, world.Lineage ⟨"/main"⟩ [point] stack ⟨"/other"⟩ point.inherited ∧
      (world.readText ⟨"/other"⟩).result = .ok text ∧ Yaml.parse? text = some content ∧
      let document := world.opened stack ⟨"/other"⟩ text
      let start := (world.builtins ⟨"/other"⟩).extend point.inherited
      (document.treeScope start point.inherited content).result = .ok tree ∧
        tree.get? "x" = some (.str "given") ∧ tree.get? "y" = some (.str "outer") ∧
        tree.get? "w" = some (.str "inserted") ∧
        document.Declares start point.inherited content "z" (.str "own") := by
  intro files world stack
  let texts := [("x", "given"), ("y", "outer"), ("w", "inserted")]
  let handed : Bindings := texts.map fun text => (text.1, .str text.2)
  let given (point : IncludePoint) (name : String) : Option Value :=
    Bindings.last? (Scope.ofMapping point.arguments.vars) name
  let here (point : IncludePoint) : Bool :=
    point.arguments.target = "other" ∧
      point.inherited.entries.map (fun entry => (entry.1, entry.2.str?)) =
        texts.map (fun text => (text.1, some text.2)) ∧
      (given point "x").bind Value.str? = some "given" ∧
      (given point "y").isNone ∧ (point.scope.get? "y").bind Value.str? = some "outer" ∧
      (given point "w").isNone ∧ (point.scope.get? "w").bind Value.str? = some "inserted" ∧
      (given point "z").isNone ∧ (point.scope.get? "z").isNone
  have fails : (world.readText ⟨"/main"⟩).result.toOption.any (fun text => (Yaml.parse? text).any fun content =>
      let document := world.opened [⟨"/main"⟩] ⟨"/main"⟩ text
      let composes (run : Run Value) : Bool := ((document.answering (document.answersAt here run).1).compose
        ((world.builtins ⟨"/main"⟩).extend .empty) .empty content).result.toOption.isSome
      composes (pure .null) && !composes (.fail (.encoding ⟨"/other"⟩))) = true := by
    decide +kernel
  obtain ⟨mainText, readMain, parses⟩ := exists_ok_of_any fails
  obtain ⟨mainContent, parsedMain, checked⟩ := (Option.any_eq_true _ _).mp parses
  obtain ⟨point, passes, comesTo⟩ := OpenDocument.exists_comesTo_of_fails checked
  obtain ⟨target, known, givenX, givenY, outerY, givenW, insertedW, givenZ, outerZ⟩ := of_decide_eq_true passes
  have leads : world.files.canonical (world.settings.locate ⟨"/main"⟩ point.arguments.target) = .ok ⟨"/other"⟩ := by
    rw [target]
    exact Path.ok_of_text (by decide +kernel)
  have includes : world.Includes [⟨"/main"⟩] ⟨"/main"⟩ .empty point ⟨"/other"⟩ :=
    ⟨⟨mainText, mainContent, readMain, parsedMain, comesTo⟩, leads, by decide, by decide⟩
  have lineage : world.Lineage ⟨"/main"⟩ [point] [⟨"/main"⟩, ⟨"/other"⟩] ⟨"/other"⟩ point.inherited :=
    .included (.main (Path.ok_of_text (by decide +kernel))) includes
  have isText {v : Option Value} {s : String} (known : v.bind Value.str? = some s) : v = some (.str s) := by
    obtain ⟨v, rfl, same⟩ := Option.bind_eq_some_iff.mp known
    cases v <;> cases same
    rfl
  have same : point.inherited = ⟨handed⟩ := congrArg Scope.mk (Bindings.eq_of_texts known)
  have evaluated : (world.readText ⟨"/other"⟩).result.toOption.any
      (fun text => (Yaml.parse? text).any fun content =>
        let start := (world.builtins ⟨"/other"⟩).extend ⟨handed⟩
        ((world.opened stack ⟨"/other"⟩ text).treeScope start ⟨handed⟩ content).result.toOption.any fun tree =>
          (tree.get? "z").bind Value.str? = some "own") = true := by
    decide +kernel
  obtain ⟨text, read, parses⟩ := exists_ok_of_any evaluated
  obtain ⟨content, parsed, composes⟩ := (Option.any_eq_true _ _).mp parses
  obtain ⟨tree, done, own⟩ := exists_ok_of_any composes
  rw [← same] at done
  have precedence := (variable_precedence lineage read parsed).2.1 tree done
  refine ⟨point, text, content, tree, lineage, read, parsed, done, ?_, ?_, ?_, ?_⟩
  · exact (precedence "x" rfl _).mpr (.inl (isText givenX))
  · exact (precedence "y" rfl _).mpr (.inr ⟨Option.isNone_iff_eq_none.mp givenY, .inl (isText outerY)⟩)
  · exact (precedence "w" rfl _).mpr (.inr ⟨Option.isNone_iff_eq_none.mp givenW, .inl (isText insertedW)⟩)
  · rcases (precedence "z" rfl (.str "own")).mp
      (isText (of_decide_eq_true own)) with handed | ⟨_, outer | ⟨_, declares⟩⟩
    · cases (Option.isNone_iff_eq_none.mp givenZ).symm.trans handed
    · cases (Option.isNone_iff_eq_none.mp outerZ).symm.trans outer
    · exact declares

end World

end ConfigWeave
