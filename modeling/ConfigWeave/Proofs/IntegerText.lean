import ConfigWeave.Proofs.Arguments
import ConfigWeave.Proofs.CoreSchema
import ConfigWeave.Proofs.Expr.Arithmetic
import ConfigWeave.Proofs.Placeholder
import ConfigWeave.Proofs.PlainDocument

namespace ConfigWeave

namespace Numeral

/-- The numeral of an integer in decimal digits. -/
def ofInt (i : Int) : Numeral where
  sign := if i < 0 then .minus else .absent
  radix := .decimal
  inner := .absent
  digits := Nat.toDigits 10 i.natAbs
  digits_ne_nil := Nat.toDigits_ne_nil
  digitValue_lt _ member := isDigit_iff.mp (Nat.isDigit_of_mem_toDigits (by decide) (by decide) member)
  inner_of_decimal _ := rfl

theorem spelling_ofInt (i : Int) : (ofInt i).spelling = (toString i).toList := by
  cases i with
  | ofNat n =>
    have natural : ¬Int.ofNat n < 0 := Int.not_lt.mpr (Int.natCast_nonneg n)
    rw [spelling, ofInt, if_neg natural]
    exact Nat.toList_repr.symm
  | negSucc n =>
    rw [spelling, ofInt, if_pos (Int.negSucc_lt_zero n)]
    change '-' :: Nat.toDigits 10 (n + 1) = ("-" ++ (n + 1).repr).toList
    rw [String.toList_append, Nat.toList_repr]
    rfl

theorem digitsValue_toDigits (n : Nat) : digitsValue 10 (Nat.toDigits 10 n) = n := by
  have read := Number.digitsFrom?_toDigits (Nat.le_refl n)
  rw [Number.digitsFrom?_eq_some_iff (by decide) (by decide) (Nat.zero_le n)] at read
  omega

theorem unsigned_ofInt (i : Int) : (ofInt i).unsigned = i.natAbs := by
  have magnitude : (ofInt i).magnitude = i.natAbs := digitsValue_toDigits i.natAbs
  rw [unsigned, magnitude]
  exact Int.one_mul _

theorem value_ofInt (i : Int) : (ofInt i).value = i := by
  rw [value, unsigned_ofInt]
  simp only [ofInt]
  split
  · rename_i negative
    rw [Sign.factor]
    omega
  · rename_i natural
    rw [Sign.factor]
    omega

end Numeral

/-- The text of an integer is its numeral. -/
theorem Value.toList_display_int (i : Int64) : (Value.int i).display.toList = (Numeral.ofInt i.toInt).spelling := by
  rw [Numeral.spelling_ofInt, Value.display]

namespace Expr

theorem isSpelled_token {token : Token} (proper : token.IsProper) :
    IsSpelled (String.ofList token.spelling) [token] := by
  refine Spells.isSpelled ?_
  rw [String.toList_ofList]
  exact .single proper

theorem isSpelled_number {digits : List Char} (proper : (Token.number digits).IsProper) :
    IsSpelled (String.ofList digits) [.number digits] := by
  have spelled := isSpelled_token proper
  exact spelled

theorem isSpelled_minus {digits : List Char} (proper : (Token.number digits).IsProper) :
    IsSpelled (String.ofList ('-' :: digits)) [.symbol .minus, .number digits] := by
  have mark : (Token.symbol .minus).IsProper := trivial
  have stops : (Token.symbol .minus).Stops digits := nofun
  refine Spells.isSpelled ?_
  rw [String.toList_ofList]
  exact .spelling mark stops (.single proper)

/-- A term whose value needs nothing is evaluated to the integer that has it. -/
theorem evaluate_of_stands {scope : Scope} {source : String} {t : Term} {i : Int64}
    (spelling : IsSpelled source t.tokens) (stands : t.Stands scope) (met : ∀ demand ∈ t.demands, demand.Met)
    (value : t.value = i.toInt) :
    evaluate scope source = pure (some (.int i)) := by
  obtain ⟨j, is, given⟩ := (Term.exact_eval stands).ok_of_met met
  rw [evaluate_eq, parse_of_readsAs spelling (Term.readsAs stands), ← Int64.toInt_inj.mp (is.trans value)]
  exact given

end Expr

/-- A query of a single variable. -/
theorem Arguments.ofPayload?_query {target name text : List Char} (noQuery : '?' ∉ target)
    (given : Text.trim target ≠ []) (noAssign : '=' ∉ name) (single : '&' ∉ name ++ text) (key : String) :
    ofPayload? key (.str (String.ofList (target ++ '?' :: (name ++ '=' :: text)))) =
      some ⟨String.ofList (Text.trim target),
      [(.str (String.ofList name), Scalar.plain (String.ofList text))]⟩ := by
  obtain ⟨nameClosed, closed⟩ : '&' ∉ name ∧ '&' ∉ text := by simpa using single
  let part : QueryPart := .assign ⟨String.ofList name, by simpa, by simpa⟩ (String.ofList text) (by simpa)
  have spelled : String.ofList (target ++ '?' :: (name ++ '=' :: text)) =
      String.ofList target ++ "?" ++ QueryPart.query [part] :=
    String.toList_inj.mp (by simp [QueryPart.query, QueryPart.text, part])
  obtain ⟨c, more, trimmed⟩ := List.exists_cons_of_ne_nil given
  rw [spelled, ofPayload?_str (by simpa), String.toList_ofList, ofTarget?, trimmed]
  rfl

theorem exists_parse_of_valueOf? {scope : Scope} {source : List Char} {v : Value}
    (valued : valueOf? scope source = some v) : ∃ e, Expr.parse (String.ofList source) = .ok e := by
  cases parsed : Expr.parse (String.ofList source) with
  | ok e => exact ⟨e, rfl⟩
  | error e =>
    rw [valueOf?, valueOf, Expr.evaluate_eq, parsed] at valued
    cases e <;> cases valued

theorem valueOf_of_some {scope : Scope} {source : List Char} {v : Value} (valued : valueOf? scope source = some v) :
    valueOf scope source = .ok (some v) := by
  unfold valueOf? at valued
  cases given : valueOf scope source with
  | error cause =>
    rw [given] at valued
    cases valued
  | ok found =>
    rw [given] at valued
    exact congrArg Except.ok valued

/-- A placeholder at the end of a text is replaced by the text of its value. -/
theorem interpolate_behind {scope : Scope} {lead source : List Char} {v : Value} (nonempty : lead ≠ [])
    (plain : ¬Pattern.default.opening <:+: lead) (valued : valueOf? scope source = some v) :
    (interpolate .default scope (String.ofList (Placeholder.text .default ⟨lead, source⟩))).result =
      .ok (some (.str (String.ofList (lead ++ v.display.toList)))) := by
  have proper : Segments.Proper ⟨[⟨lead, source⟩], []⟩ :=
    ⟨List.forall_mem_singleton.mpr (exists_parse_of_valueOf? valued), List.forall_mem_singleton.mpr plain,
      show ¬Pattern.default.opening <:+: [] by decide⟩
  have cut := Pattern.segments_text proper
  simp only [Segments.text, List.flatMap_singleton, List.append_nil] at cut
  obtain ⟨c, more, rfl⟩ := List.exists_cons_of_ne_nil nonempty
  have spliced : [⟨c :: more, source⟩].mapM (Placeholder.spliced scope) = .ok [c :: more ++ v.display.toList] := by
    rw [List.mapM_cons, Placeholder.spliced, valueOf_of_some valued]
    rfl
  simp only [interpolate, String.toList_ofList, cut, Traced.result_bind, result_spliceValues, spliced]
  simp [Except.map, Except.bind]

section Inner

variable {i : Int64} (inner : i ≠ Int64.minValue)
include inner

/-- All integers but the least one have a magnitude that is one. -/
theorem natAbs_lt : i.toInt.natAbs < 2 ^ 63 := by
  have lower := i.le_toInt
  have upper := i.toInt_lt
  have other : i.toInt ≠ -2 ^ 63 := fun least => inner (Int64.toInt_inj.mp (least.trans (by decide)))
  omega

theorem Scalar.plain?_display : plain? (Value.int i).display = some (.int i) := by
  have small := natAbs_lt inner
  rw [plain?_eq_int_iff, Value.toList_display_int, Numeral.integer?_spelling, Numeral.value_ofInt,
    Int64.ofInt_toInt]
  refine ⟨?_, rfl⟩
  rw [Numeral.Fits, Numeral.unsigned_ofInt]
  omega

theorem Yaml.parse?_display : parse? (Value.int i).display = some (.int i) := by
  have read := parse?_of_isWord (Numeral.ofInt i.toInt).isWord
  rw [← Value.toList_display_int, String.ofList_toList, Scalar.plain, Scalar.plain?_display inner] at read
  exact read

namespace Expr

theorem evaluate_display (scope : Scope) : evaluate scope (Value.int i).display = pure (some (.int i)) := by
  have small := natAbs_lt inner
  have proper := isProper_digits i.toInt.natAbs
  obtain ⟨m, magnitude⟩ : ∃ m : Int64, m.toInt = i.toInt.natAbs :=
    ⟨Int64.ofInt i.toInt.natAbs, Int64.toInt_ofInt_of_le (by omega) (by omega)⟩
  have read : number? (Nat.toDigits 10 i.toInt.natAbs) = some (.int m) := by
    have number := number?_toDigits (i := m) (by omega)
    rwa [magnitude, Int.toNat_natCast] at number
  rw [← String.ofList_toList (s := (Value.int i).display), Value.toList_display_int, Numeral.spelling]
  by_cases negative : i.toInt < 0
  · rw [Numeral.ofInt, if_pos negative]
    refine evaluate_of_stands (t := .minus (.number _ m)) (isSpelled_minus proper) read ?_ ?_
    · simp only [Term.demands, Term.value, List.nil_append, List.forall_mem_singleton, Demand.Met,
        Number.leastInteger, Number.greatestInteger]
      omega
    · simp only [Term.value]
      omega
  · rw [Numeral.ofInt, if_neg negative]
    refine evaluate_of_stands (t := .number _ m) (isSpelled_number proper) read (List.forall_mem_nil _) ?_
    simp only [Term.value]
    omega

end Expr

end Inner

/-- The text of an integer, unless it is the least one, is read as the integer wherever text is read: as a plain
scalar, as a document, as an expression and as a variable in a query. It is the text that takes the place of a
placeholder. -/
theorem Value.int_of_display {i : Int64} (inner : i ≠ Int64.minValue) :
    let text := (Value.int i).display
    Scalar.plain? text = some (.int i) ∧ Yaml.parse? text = some (.int i) ∧
      (∀ scope, Expr.evaluate scope text = pure (some (.int i))) ∧
      (∀ (scope : Scope) (lead source : String), lead ≠ "" → ¬Pattern.default.opening <:+: lead.toList →
        valueOf? scope source.toList = some (.int i) →
        (interpolate .default scope (lead ++ "$\x7b" ++ source ++ "\x7d")).result =
          .ok (some (.str (lead ++ text)))) ∧
      ∀ key target name : String, '?' ∉ target.toList → target.trimBlank ≠ "" → '=' ∉ name.toList →
      '&' ∉ name.toList →
        Arguments.ofPayload? key (.str (target ++ "?" ++ name ++ "=" ++ text)) =
          some ⟨target.trimBlank, [(.str name, .int i)]⟩ := by
  intro text
  refine ⟨Scalar.plain?_display inner, Yaml.parse?_display inner, Expr.evaluate_display inner, ?_, ?_⟩
  · intro scope lead source nonempty plain valued
    have spliced := interpolate_behind (fun none => nonempty (String.toList_eq_nil_iff.mp none)) plain valued
    have before : String.ofList (Placeholder.text .default ⟨lead.toList, source.toList⟩) =
        lead ++ "$\x7b" ++ source ++ "\x7d" :=
      String.toList_inj.mp (by simp [Placeholder.text, Pattern.default])
    have behind : String.ofList (lead.toList ++ text.toList) = lead ++ text := String.toList_inj.mp (by simp)
    rw [before] at spliced
    rw [spliced, behind]
  · intro key target name noQuery given noAssign single
    have proper : Text.trim target.toList ≠ [] := by
      intro blank
      rw [String.trimBlank, blank] at given
      exact given rfl
    have alone : '&' ∉ name.toList ++ text.toList := by
      rw [List.mem_append, not_or, Value.toList_display_int]
      exact ⟨single, fun member => absurd (Numeral.mem_characters member) (by decide)⟩
    have payload : String.ofList (target.toList ++ '?' :: (name.toList ++ '=' :: text.toList)) =
        target ++ "?" ++ name ++ "=" ++ text :=
      String.toList_inj.mp (by simp)
    have read := Arguments.ofPayload?_query noQuery proper noAssign alone key
    rwa [payload, String.ofList_toList, String.ofList_toList, Scalar.plain, Scalar.plain?_display inner] at read

theorem Value.int_of_display_negative :
    let scope : Scope := ⟨[("n", .int (-12))]⟩
    (-12 : Int64) ≠ Int64.minValue ∧ Scalar.plain? "-12" = some (.int (-12)) ∧
      Yaml.parse? "-12" = some (.int (-12)) ∧
      Expr.evaluate scope "-12" = pure (some (.int (-12))) ∧
      (interpolate .default scope "a.yaml?v=$\x7bn\x7d").result = .ok (some (.str "a.yaml?v=-12")) ∧
      Arguments.ofPayload? "file" (.str "a.yaml?v=-12") = some ⟨"a.yaml", [(.str "v", .int (-12))]⟩ := by
  intro scope
  have inner : (-12 : Int64) ≠ Int64.minValue := by decide
  have valued : valueOf? scope "n".toList = some (.int (-12)) := by
    have proper : (Expr.Token.name "n".toList).IsProper := by decide
    have spelling : Expr.IsSpelled "n" [.name "n".toList] := by
      have spelled := Expr.isSpelled_token proper
      rwa [Expr.Token.spelling, String.ofList_toList] at spelled
    have stands : (Expr.Term.var "n" (-12)).Stands scope := ⟨by decide, by decide, rfl⟩
    rw [valueOf?, valueOf, String.ofList_toList,
      Expr.evaluate_of_stands spelling stands (List.forall_mem_nil _) rfl]
    rfl
  obtain ⟨plain, document, expression, spliced, query⟩ := Value.int_of_display inner
  exact ⟨inner, plain, document, expression scope, spliced scope "a.yaml?v=" "n" (by decide) (by decide) valued,
    query "file" "a.yaml" "v" (by decide) (by decide) (by decide) (by decide)⟩

/-- The magnitude of the least integer is not an integer, so its text is read as a float and is no expression. -/
theorem Value.display_minValue :
    let text := (Value.int Int64.minValue).display
    text = "-9223372036854775808" ∧ (∃ x, Scalar.plain? text = some (.float x)) ∧
      ∀ scope, (Expr.evaluate scope text).result.toOption = none := by
  intro text
  have written : text = "-9223372036854775808" := by decide
  rw [written]
  refine ⟨rfl, ?_, fun scope => ?_⟩
  · have noInteger : Scalar.integer? "-9223372036854775808".toList = none := by decide
    refine CoreSchema.exists_float_iff.mpr ⟨by decide, fun inRange => ?_⟩
    obtain ⟨i, read⟩ := CoreSchema.inRange_iff.mp inRange
    exact nomatch noInteger.symm.trans read
  · have unread : (Expr.parse "-9223372036854775808").toOption.isNone = true := by decide +kernel
    rw [Expr.evaluate_eq]
    cases parsed : Expr.parse "-9223372036854775808" with
    | ok e =>
      rw [parsed] at unread
      cases unread
    | error e => rfl

end ConfigWeave
