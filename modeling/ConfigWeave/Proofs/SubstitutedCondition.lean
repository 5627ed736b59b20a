import ConfigWeave.Proofs.Condition
import ConfigWeave.Proofs.ParsedTree
import ConfigWeave.Proofs.Placeholder

namespace ConfigWeave

/-- A text that is nothing but a placeholder comes to the value of its expression, and is evaluated once. -/
theorem interpolate_placeholder {source : String} {e : Expr} (accepted : Expr.parse source = .ok e)
    (scope : Scope) :
    interpolate .default scope ("$\x7b" ++ source ++ "\x7d") = (do
      return some ((← evaluateLogged scope source).getD .null)) := by
  have absent : ¬Pattern.default.opening <:+: [] := by decide
  have proper : Segments.Proper ⟨[⟨[], source.toList⟩], []⟩ := by
    refine ⟨List.forall_mem_singleton.mpr ⟨e, ?_⟩, List.forall_mem_singleton.mpr absent, absent⟩
    rw [String.ofList_toList, accepted]
  have text : ("$\x7b" ++ source ++ "\x7d").toList = Segments.text .default ⟨[⟨[], source.toList⟩], []⟩ := by
    simp [Segments.text, Placeholder.text, Pattern.default]
  rw [interpolate, text, Pattern.segments_text proper]
  simp only [String.ofList_toList]

namespace Site

variable (site : Site) (scope : Scope)

/-- A text stands for itself as a condition. -/
theorem meets_str (text : String) : site.meets scope none (.str text) = site.holds scope (some (.str text)) := by
  rw [meets, transform, pure_bind]

theorem holds_str (text : String) : site.holds scope (some (.str text)) = (do
    return (← site.logged (evaluateLogged scope text)).any Value.truthy) :=
  rfl

/-- The value that takes the place of a placeholder is a condition in turn. -/
theorem meets_substituted {source : String} {e : Expr} (accepted : Expr.parse source = .ok e) (sub : Option Pattern)
    (mark : Nat) : site.meets scope sub (.tagged (.sub none) mark (.str ("$\x7b" ++ source ++ "\x7d"))) = (do
      let v ← site.logged (evaluateLogged scope source)
      site.holds scope (some (v.getD .null))) := by
  rw [meets, transform, pattern, pure_bind, transform, interpolate_placeholder accepted, OpenDocument.logged_bind]
  simp only [bind_assoc, pure_bind, OpenDocument.logged_pure, Option.getD_some]

theorem holds_of_not_str {v : Value} (proper : ∀ text, v ≠ .str text) :
    site.holds scope (some v) = pure v.truthy := by
  cases v with
  | str text => exact absurd rfl (proper text)
  | _ => rfl

end Site

/-- A substituted condition is decided by its value, unless that is a text. A condition that is written as a text
is evaluated as an expression, and what its value is decides. The same expression in a placeholder chooses the
same, with the same warnings, if its value is no text or if there is none. If the value is a text, that text is a
condition like any other: it is evaluated as an expression in turn, once the warnings about the placeholder are
given. -/
theorem transform_cond_substituted {source : String} {e : Expr} (accepted : Expr.parse source = .ok e) (site : Site)
    (scope : Scope) (mark place : Nat) (clause : Mapping) :
    let conditional (c : Value) : Run (Option Value) :=
      transform site scope none (.tagged .cond mark (.map (clause.insert (.str "if") c)))
    let substituted : Value := .tagged (.sub none) place (.str ("$\x7b" ++ source ++ "\x7d"))
    (∀ text, conditional (.str text) = do
      let _ ← site.logged (evaluateLogged scope text)
      transformIfAny site scope none (clause.get? (.str
        (if (valueOf? scope text.toList).any Value.truthy then "then" else "else")))) ∧
    ((∀ text, valueOf? scope source.toList ≠ some (.str text)) →
      conditional substituted = conditional (.str source)) ∧
    ∀ text, valueOf? scope source.toList = some (.str text) → conditional substituted = (do
      let _ ← site.logged (evaluateLogged scope source)
      conditional (.str text)) := by
  intro conditional substituted
  -- What is done with the value that is logged may as well be done with the one that the expression has.
  have known {α : Type} (text : String) (f : Option Value → Run α) :
      (site.logged (evaluateLogged scope text) >>= f) = (do
        let _ ← site.logged (evaluateLogged scope text)
        f (valueOf? scope text.toList)) := by
    refine Traced.bind_congr_of_ok fun v logged => ?_
    have given := OpenDocument.result_logged logged
    rw [← String.ofList_toList (s := text), result_evaluateLogged] at given
    rw [valueOf?_of_ok given]
  have chosen (c : Value) :
      conditional c = site.select scope none c (clause.get? (.str "then")) (clause.get? (.str "else")) := by
    rw [← clause.get?_str_insert_str_of_ne (show "then" ≠ "if" by decide) c,
      ← clause.get?_str_insert_str_of_ne (show "else" ≠ "if" by decide) c]
    exact transform_cond_map site scope none mark (clause.get?_str_insert "if" c)
  refine ⟨fun text => ?_, fun proper => ?_, fun text found => ?_⟩
  · rw [chosen, Site.select, site.meets_str, site.holds_str, bind_assoc, known]
    simp only [pure_bind]
    split <;> rfl
  · have decided : site.holds scope (some ((valueOf? scope source.toList).getD .null)) =
        pure ((valueOf? scope source.toList).any Value.truthy) := by
      cases found : valueOf? scope source.toList with
      | none => rfl
      | some v =>
        refine site.holds_of_not_str scope fun text same => proper text ?_
        rw [found]
        exact congrArg some same
    rw [chosen, chosen, Site.select, Site.select, site.meets_substituted scope accepted, site.meets_str,
      site.holds_str, known, decided, ← known source fun v => pure (v.any Value.truthy)]
  · rw [chosen, chosen, Site.select, Site.select, site.meets_substituted scope accepted, site.meets_str,
      known, found, bind_assoc, Option.getD_some]

/-- A variable that is a number, and one that is the text of a comparison with it. -/
theorem transform_cond_substituted_comparing :
    let scope : Scope := ⟨[("n", .int 0), ("t", .str "n == 0")]⟩
    let conditional (c : Value) : Value := .tagged .cond 0 (.map
      [(.str "then", .tagged (.unknown "x") 1 .null), (.str "if", c), (.str "else", .int 2)])
    let substituted (source : String) : Value := .tagged (.sub none) 2 (.str ("$\x7b" ++ source ++ "\x7d"))
    ∀ site, transform site scope none (conditional (substituted "n")) =
      transform site scope none (conditional (.str "n")) ∧
      transform site scope none (conditional (substituted "t")) =
        transform site scope none (conditional (.str "n == 0")) := by
  intro scope conditional substituted site
  let clause : Mapping := [(.str "then", .tagged (.unknown "x") 1 .null), (.str "if", .null), (.str "else", .int 2)]
  obtain ⟨number, acceptsNumber, _⟩ :=
    exists_ok_of_any (x := Expr.parse "n") (p := fun _ => true) (by decide +kernel)
  obtain ⟨text, acceptsText, _⟩ := exists_ok_of_any (x := Expr.parse "t") (p := fun _ => true) (by decide +kernel)
  have isNumber : valueOf? scope "n".toList = some (.int 0) := some_of_isExactly (by decide +kernel)
  have isText : valueOf? scope "t".toList = some (.str "n == 0") := some_of_isExactly (by decide +kernel)
  obtain ⟨_, apart, _⟩ := transform_cond_substituted acceptsNumber site scope 0 2 clause
  obtain ⟨_, _, again⟩ := transform_cond_substituted acceptsText site scope 0 2 clause
  refine ⟨apart fun text same => ?_, ?_⟩
  · rw [isNumber] at same
    cases same
  · have silent : (evaluateLogged scope "t").trace = [] := by decide +kernel
    obtain ⟨v, given, _⟩ := exists_ok_of_any (x := (evaluateLogged scope "t").result) (p := fun _ => true)
      (by decide +kernel)
    have twice := again "n == 0" isText
    rw [OpenDocument.logged, given, silent] at twice
    exact twice

/-- A text that names something else comes out of a variable, where the name is taken for an expression. -/
theorem transform_cond_namingText :
    ¬∀ (source : String) (e : Expr), Expr.parse source = .ok e →
      ∀ (site : Site) (scope : Scope) (mark place : Nat) (a b : Value),
      let conditional (c : Value) : Run (Option Value) :=
        transform site scope none (.tagged .cond mark (.map [(.str "if", c), (.str "then", a), (.str "else", b)]))
      conditional (.tagged (.sub none) place (.str ("$\x7b" ++ source ++ "\x7d"))) = conditional (.str source) := by
  intro same
  let site := Templates.empty.site ⟨⟨"/main"⟩, .ofText "", fun _ _ _ => pure .null⟩
  let scope : Scope := ⟨[("v", .str "x")]⟩
  let conditional (c : Value) : Value :=
    .tagged .cond 0 (.map [(.str "if", c), (.str "then", .int 1), (.str "else", .int 2)])
  obtain ⟨e, accepted, _⟩ := exists_ok_of_any (x := Expr.parse "v") (p := fun _ => true) (by decide +kernel)
  let substituted : Value := .tagged (.sub none) 1 (.str ("$\x7b" ++ "v" ++ "\x7d"))
  have agree : transform site scope none (conditional substituted) =
    transform site scope none (conditional (.str "v")) :=
    same "v" e accepted site scope 0 1 (.int 1) (.int 2)
  have written : (transform site scope none (conditional (.str "v"))).result.toOption.join.any (· == .int 1) =
      true := by
    decide +kernel
  have replaced : (transform site scope none (conditional substituted)).result.toOption.join.any (· == .int 1) =
      false := by
    decide +kernel
  rw [agree, written] at replaced
  cases replaced

end ConfigWeave
