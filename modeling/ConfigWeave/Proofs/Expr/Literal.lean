import ConfigWeave.Proofs.Expr.Completion
import ConfigWeave.Proofs.Expr.Layout

namespace ConfigWeave

theorem Number.digitsFrom?_append (base limit lead : Nat) (text more : List Char) :
    digitsFrom? base limit lead (text ++ more) =
      (digitsFrom? base limit lead text).bind fun value => digitsFrom? base limit value more := by
  induction text generalizing lead with
  | nil => rfl
  | cons c rest ih =>
    simp only [List.cons_append, digitsFrom?]
    cases digit? base c with
    | none => rfl
    | some d =>
      simp only
      split
      · exact ih _
      · rfl

theorem Number.digit?_digitChar {d : Nat} (small : d < 10) : digit? 10 d.digitChar = some d := by
  have all : ∀ d < 10, digit? 10 d.digitChar = some d := by decide
  exact all d small

theorem Number.digitsFrom?_toDigits {n limit : Nat} (bounded : n ≤ limit) :
    digitsFrom? 10 limit 0 (Nat.toDigits 10 n) = some n := by
  induction n using Nat.strongRecOn with
  | ind n ih =>
    rw [Nat.toDigits_eq_if (by decide)]
    split
    · rename_i small
      simp only [digitsFrom?, digit?_digitChar small, Nat.zero_mul, Nat.zero_add, if_pos bounded]
    · rename_i large
      have split : n / 10 * 10 + n % 10 = n := by omega
      rw [digitsFrom?_append, ih (n / 10) (by omega) (by omega)]
      simp only [Option.bind_some, digitsFrom?, digit?_digitChar (Nat.mod_lt n (by decide)), split, if_pos bounded]

namespace Expr

section Digits

variable {digits : List Char} (digit : ∀ c ∈ digits, c.isDigit = true)
include digit

theorem not_mem_of_isDigit {c : Char} (other : c.isDigit = false) : c ∉ digits := by
  intro member
  rw [digit c member] at other
  cases other

theorem filter_underscore : digits.filter (· != '_') = digits := by
  rw [List.filter_eq_self]
  intro c member
  rw [bne_iff_ne]
  rintro rfl
  exact not_mem_of_isDigit digit (by decide) member

/-- Digits alone are read as an integer. -/
theorem number?_digits {i : Int64} (integer : Number.integer? 10 digits = some i) :
    number? digits = some (.int i) := by
  have noPoint : (digits.any fun c => c == '.' || c == 'e' || c == 'E') = false := by
    rw [List.any_eq_false]
    rintro c member
    simp only [Bool.or_eq_true, beq_iff_eq, not_or]
    refine ⟨⟨?_, ?_⟩, ?_⟩ <;> rintro rfl <;> exact not_mem_of_isDigit digit (by decide) member
  rw [number?, filter_underscore digit, noPoint, integer]
  rfl

end Digits

theorem number?_toDigits {i : Int64} (natural : 0 ≤ i.toInt) :
    number? (Nat.toDigits 10 i.toInt.toNat) = some (.int i) := by
  generalize digitsAre : Nat.toDigits 10 i.toInt.toNat = digits
  have digit : ∀ c ∈ digits, c.isDigit = true := fun c member =>
    Nat.isDigit_of_mem_toDigits (by decide) (by decide) (digitsAre ▸ member)
  refine number?_digits digit ?_
  have bounded : i.toInt.toNat ≤ Number.greatestMagnitude := by
    have upper := i.toInt_lt
    unfold Number.greatestMagnitude
    omega
  have read : Number.natural? 10 Number.greatestMagnitude digits = some i.toInt.toNat := by
    rw [← digitsAre, Number.natural?]
    · exact Number.digitsFrom?_toDigits bounded
    · exact Nat.toDigits_ne_nil
  unfold Number.integer?
  split
  · exact absurd List.mem_cons_self (not_mem_of_isDigit digit (c := '-') (by decide))
  · exact absurd List.mem_cons_self (not_mem_of_isDigit digit (c := '+') (by decide))
  · rw [read]
    exact Number.bounded?_eq_some_iff.mpr (Int.toNat_of_nonneg natural).symm

theorem readsAs_literal {token : Token} {v : Value}
    (read : ∀ stack, startOperand stack token = .ok (.after stack (.lit v) true)) :
    ReadsAs [token] (.lit v) .access := by
  intro stack _
  have other : token ≠ .symbol .bracketClose := by
    rintro rfl
    cases read []
  exact ⟨_, .single ((step_start other stack).trans (read stack)),
    .of_rests (rests_after stack (.lit v) true) fun _ => rfl⟩

theorem readsAs_int {i : Int64} (natural : 0 ≤ i.toInt) :
    ReadsAs (literalTokens (.int i)) (.lit (.int i)) .access := by
  refine readsAs_literal fun stack => ?_
  rw [startOperand, number?_toDigits natural]

theorem readsAs_str (s : String) : ReadsAs (literalTokens (.str s)) (.lit (.str s)) .access := by
  refine readsAs_literal fun stack => ?_
  rw [startOperand, String.ofList_toList]

theorem readsAs_var {name : String} (noKeyword : isKeyword name = false) (noLiteral : name ∉ literalNames) :
    ReadsAs [.name name.toList] (.var name) .access := by
  intro stack _
  have starts : startName stack name = some (.after stack (.var name) true) := by
    unfold startName
    split
    case h_9 => rw [if_neg (by simp [noKeyword])]
    case h_8 => cases noKeyword
    all_goals exact absurd (by decide) noLiteral
  refine ⟨_, .single ?_, .of_rests (rests_after stack (.var name) true) fun _ => rfl⟩
  rw [step_start (by simp), startOperand, String.ofList_toList, starts]

theorem isProper_digits (n : Nat) : (Token.number (Nat.toDigits 10 n)).IsProper :=
  ⟨Nat.toDigits_ne_nil, fun _ member => Nat.isDigit_of_mem_toDigits (by decide) (by decide) member⟩

end Expr

end ConfigWeave
