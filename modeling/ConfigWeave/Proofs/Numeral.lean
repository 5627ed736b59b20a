import ConfigWeave.Scalar
import Mathlib.Data.Nat.Digits.Defs
import Mathlib.Tactic.Ring

namespace ConfigWeave

/-- A sign that may be left out. -/
inductive Sign
  | plus
  | minus
  | absent
deriving DecidableEq

namespace Sign

def spelling : Sign → List Char
  | plus => ['+']
  | minus => ['-']
  | absent => []

def factor : Sign → Int
  | minus => -1
  | plus | absent => 1

/-- A text behind the sign that cannot be taken for one. -/
def Leads (sign : Sign) (rest : List Char) : Prop :=
  sign = absent → ∀ c ∈ rest.head?, c ≠ '-' ∧ c ≠ '+'

theorem exists_leads (text : List Char) :
    ∃ (sign : Sign) (rest : List Char), text = sign.spelling ++ rest ∧ sign.Leads rest := by
  match text with
  | '-' :: rest => exact ⟨minus, rest, rfl, nofun⟩
  | '+' :: rest => exact ⟨plus, rest, rfl, nofun⟩
  | [] => exact ⟨absent, [], rfl, fun _ => nofun⟩
  | c :: rest =>
    by_cases isMinus : c = '-'
    · exact ⟨minus, rest, by rw [isMinus, spelling, List.singleton_append], nofun⟩
    by_cases isPlus : c = '+'
    · exact ⟨plus, rest, by rw [isPlus, spelling, List.singleton_append], nofun⟩
    refine ⟨absent, c :: rest, rfl, fun _ d first => ?_⟩
    cases first
    exact ⟨isMinus, isPlus⟩

end Sign

/-- The notations of an integer. -/
inductive Radix
  | decimal
  | octal
  | hexadecimal
deriving DecidableEq

namespace Radix

def base : Radix → Nat
  | decimal => 10
  | octal => 8
  | hexadecimal => 16

/-- What announces the digits. -/
def lead : Radix → List Char
  | decimal => []
  | octal => ['0', 'o']
  | hexadecimal => ['0', 'x']

theorem base_pos (radix : Radix) : 0 < radix.base := by
  cases radix <;> decide

theorem base_le (radix : Radix) : radix.base ≤ 16 := by
  cases radix <;> decide

end Radix

/-- The value of a digit, by its place among all. No other character has a value below sixteen. -/
def digitValue (c : Char) : Nat :=
  "0123456789abcdef".toList.idxOf c.toLower

/-- The number written by digits, the last of which counts least. -/
def digitsValue (base : Nat) (digits : List Char) : Nat :=
  Nat.ofDigits base (digits.reverse.map digitValue)

/-- An integer as it may be written: a sign, what announces the digits, and the digits. Behind an announcement
there may be a second sign. -/
structure Numeral where
  sign : Sign
  radix : Radix
  inner : Sign
  digits : List Char
  digits_ne_nil : digits ≠ []
  digitValue_lt : ∀ c ∈ digits, digitValue c < radix.base
  inner_of_decimal : radix = .decimal → inner = .absent

namespace Numeral

/-- The text behind the sign. -/
def body (n : Numeral) : List Char :=
  n.radix.lead ++ (n.inner.spelling ++ n.digits)

def spelling (n : Numeral) : List Char :=
  n.sign.spelling ++ n.body

def magnitude (n : Numeral) : Nat :=
  digitsValue n.radix.base n.digits

/-- The integer written behind the sign. -/
def unsigned (n : Numeral) : Int :=
  n.inner.factor * n.magnitude

/-- The integer that a numeral denotes: the product of its signs and its magnitude. -/
def value (n : Numeral) : Int :=
  n.sign.factor * n.unsigned

/-- What is written behind the sign is an integer of 64 bits. -/
def Fits (n : Numeral) : Prop :=
  -2 ^ 63 ≤ n.unsigned ∧ n.unsigned < 2 ^ 63

instance (n : Numeral) : Decidable n.Fits :=
  inferInstanceAs (Decidable (_ ∧ _))

end Numeral

/-- What is decided for each character of a text holds of all of them. -/
theorem forall_mem_of_all {p : Char → Prop} [DecidablePred p] {text : List Char}
    (all : text.all (decide <| p ·) = true) :
    ∀ c ∈ text, p c :=
  fun c member => of_decide_eq_true (List.all_eq_true.mp all c member)

theorem digitValue_of_not_ascii {c : Char} (beyond : ¬c.toNat < 128) : digitValue c = 16 := by
  have same : c.toLower = c :=
    dif_neg fun upper => beyond (Nat.lt_of_le_of_lt upper.2 (by decide : 'Z'.toNat < 128))
  have other : c ∉ "0123456789abcdef".toList := fun member => by
    have low : ∀ d ∈ "0123456789abcdef".toList, d.toNat < 128 := forall_mem_of_all (by decide)
    exact beyond (low c member)
  rw [digitValue, same, List.idxOf_eq_length other]
  rfl

theorem digits_of_ascii {c : Char} (ascii : c.toNat < 128) :
    (c.isDigit = true ↔ digitValue c < 10) ∧ (digitValue c < 16 → c ∈ "0123456789abcdefABCDEF".toList) ∧
      Number.digit? 16 c = if digitValue c < 16 then some (digitValue c) else none := by
  rw [← Char.ofNat_toNat c]
  generalize c.toNat = code at ascii
  revert code
  decide +kernel

theorem isDigit_iff {c : Char} : c.isDigit = true ↔ digitValue c < 10 := by
  by_cases ascii : c.toNat < 128
  · exact (digits_of_ascii ascii).1
  · rw [digitValue_of_not_ascii ascii]
    refine ⟨fun digit => absurd ?_ ascii, fun less => absurd less (by decide)⟩
    rw [Char.isDigit_iff_toNat] at digit
    exact Nat.lt_of_le_of_lt digit.2 (by decide)

theorem ne_sign_of_digitValue_lt {c : Char} (digit : digitValue c < 16) : c ≠ '-' ∧ c ≠ '+' := by
  constructor
  · rintro rfl
    exact absurd digit (by decide)
  · rintro rfl
    exact absurd digit (by decide)

theorem Sign.leads_of_digits (sign : Sign) {rest : List Char} (digits : ∀ c ∈ rest, digitValue c < 16) :
    sign.Leads rest :=
  fun _ c first => ne_sign_of_digitValue_lt (digits c (List.mem_of_mem_head? first))

theorem digitsValue_cons (base : Nat) (c : Char) (digits : List Char) :
    digitsValue base (c :: digits) = digitValue c * base ^ digits.length + digitsValue base digits := by
  simp only [digitsValue, List.reverse_cons, List.map_append, Nat.ofDigits_append, List.length_map,
    List.length_reverse, List.map_cons, List.map_nil, Nat.ofDigits_singleton]
  ring

namespace Number

theorem digit?_sixteen (c : Char) : digit? 16 c = if digitValue c < 16 then some (digitValue c) else none := by
  by_cases ascii : c.toNat < 128
  · exact (digits_of_ascii ascii).2.2
  · have above (d : Char) (low : d.toNat < 128) : ¬c ≤ d := fun le => ascii (Nat.lt_of_le_of_lt le low)
    rw [digitValue_of_not_ascii ascii, if_neg (by decide), digit?,
      if_neg fun range => above '9' (by decide) range.2, if_neg fun range => above 'f' (by decide) range.2,
      if_neg fun range => above 'F' (by decide) range.2]
    rfl

theorem digit?_eq {base : Nat} (small : base ≤ 16) (c : Char) :
    digit? base c = if digitValue c < base then some (digitValue c) else none := by
  have narrowed : digit? base c = (digit? 16 c).filter (· < base) := by
    simp only [digit?, Option.filter_filter]
    congr 1
    funext d
    simp only [← Bool.decide_and, decide_eq_decide]
    omega
  rw [narrowed, digit?_sixteen]
  split
  · rw [Option.filter_some]
    simp only [decide_eq_true_eq]
  · rw [if_neg (by omega), Option.filter_none]

variable {base limit : Nat} (pos : 0 < base) (small : base ≤ 16)
include pos small

theorem digitsFrom?_eq_some_iff {lead value : Nat} {text : List Char} (bounded : lead ≤ limit) :
    digitsFrom? base limit lead text = some value ↔
      (∀ c ∈ text, digitValue c < base) ∧ value = lead * base ^ text.length + digitsValue base text ∧
      value ≤ limit := by
  induction text generalizing lead with
  | nil =>
    simp only [digitsFrom?, Option.some.injEq, digitsValue, List.not_mem_nil, List.length_nil]
    simp
    omega
  | cons c rest ih =>
    have leads : lead * base ^ (c :: rest).length + digitsValue base (c :: rest) =
        (lead * base + digitValue c) * base ^ rest.length + digitsValue base rest := by
      rw [digitsValue_cons, List.length_cons]
      ring
    rw [digitsFrom?, digit?_eq small, List.forall_mem_cons, leads]
    by_cases digit : digitValue c < base
    · simp only [digit, if_true, true_and]
      split
      · rename_i within
        exact ih within
      · rename_i beyond
        have least := Nat.le_mul_of_pos_right (lead * base + digitValue c) (Nat.pow_pos (n := rest.length) pos)
        refine ⟨nofun, fun ⟨_, is, within⟩ => ?_⟩
        omega
    · simp only [digit, if_false, false_and, reduceCtorEq]

theorem natural?_eq_some_iff {value : Nat} {text : List Char} :
    natural? base limit text = some value ↔
      text ≠ [] ∧ (∀ c ∈ text, digitValue c < base) ∧ value = digitsValue base text ∧ value ≤ limit := by
  cases text with
  | nil => simp [natural?]
  | cons c rest =>
    rw [natural?, digitsFrom?_eq_some_iff pos small (Nat.zero_le limit), Nat.zero_mul, Nat.zero_add]
    · simp
    · nofun

theorem integer?_eq_some_iff {sign : Sign} {rest : List Char} (leads : sign.Leads rest) {i : Int64} :
    integer? base (sign.spelling ++ rest) = some i ↔
      rest ≠ [] ∧ (∀ c ∈ rest, digitValue c < base) ∧ i.toInt = sign.factor * digitsValue base rest := by
  have reads : integer? base (sign.spelling ++ rest) =
      (natural? base greatestMagnitude rest).bind fun value => bounded? (sign.factor * value) := by
    cases sign with
    | minus => simp [Sign.spelling, Sign.factor, integer?]
    | plus => simp [Sign.spelling, Sign.factor, integer?]
    | absent =>
      rw [Sign.spelling, List.nil_append]
      unfold integer?
      split
      · exact absurd rfl (leads rfl _ rfl).1
      · exact absurd rfl (leads rfl _ rfl).2
      · simp [Sign.factor]
  rw [reads, Option.bind_eq_some_iff]
  constructor
  · rintro ⟨value, natural, bounded⟩
    obtain ⟨nonempty, digits, rfl, _⟩ := (natural?_eq_some_iff pos small).mp natural
    exact ⟨nonempty, digits, toInt_of_bounded? bounded⟩
  · rintro ⟨nonempty, digits, value⟩
    refine ⟨digitsValue base rest, (natural?_eq_some_iff pos small).mpr ⟨nonempty, digits, rfl, ?_⟩,
      bounded?_eq_some_iff.mpr value⟩
    have lower := i.le_toInt
    have upper := i.toInt_lt
    unfold greatestMagnitude
    cases sign <;> simp only [Sign.factor] at value <;> omega

end Number

namespace Numeral

theorem leads_digits (n : Numeral) : n.inner.Leads n.digits :=
  n.inner.leads_of_digits fun c member => (n.digitValue_lt c member).trans_le n.radix.base_le

theorem leads_body (n : Numeral) : n.sign.Leads n.body := by
  intro _ c first
  cases radixIs : n.radix with
  | decimal =>
    refine n.leads_digits (n.inner_of_decimal radixIs) c ?_
    rwa [body, radixIs, n.inner_of_decimal radixIs] at first
  | octal | hexadecimal =>
    rw [body, radixIs] at first
    cases first
    decide

theorem unsigned?_body (n : Numeral) {i : Int64} : Scalar.unsigned? n.body = some i ↔ i.toInt = n.unsigned := by
  have reads : Scalar.unsigned? n.body = Number.integer? n.radix.base (n.inner.spelling ++ n.digits) := by
    cases radixIs : n.radix with
    | octal | hexadecimal =>
      rw [body, radixIs]
      rfl
    | decimal =>
      have digits : ∀ c ∈ n.digits, c.isDigit = true := fun c member =>
        isDigit_iff.mpr ((n.digitValue_lt c member).trans_eq (congrArg Radix.base radixIs))
      rw [body, radixIs, n.inner_of_decimal radixIs]
      change Scalar.unsigned? n.digits = Number.integer? 10 n.digits
      unfold Scalar.unsigned?
      split
      · rename_i is
        exact absurd (digits 'x' (by simp [is])) (by decide)
      · rename_i is
        exact absurd (digits 'o' (by simp [is])) (by decide)
      · rw [if_pos (List.all_eq_true.mpr digits)]
  rw [reads, Number.integer?_eq_some_iff n.radix.base_pos n.radix.base_le n.leads_digits]
  exact ⟨fun read => read.2.2, fun value => ⟨n.digits_ne_nil, n.digitValue_lt, value⟩⟩

theorem exists_digits {base : Nat} (pos : 0 < base) (small : base ≤ 16) {text : List Char} {i : Int64}
    (read : Number.integer? base text = some i) :
    ∃ (inner : Sign) (digits : List Char), text = inner.spelling ++ digits ∧ digits ≠ [] ∧
      ∀ c ∈ digits, digitValue c < base := by
  obtain ⟨inner, digits, rfl, leads⟩ := Sign.exists_leads text
  obtain ⟨nonempty, valid, _⟩ := (Number.integer?_eq_some_iff pos small leads).mp read
  exact ⟨inner, digits, rfl, nonempty, valid⟩

theorem exists_body {text : List Char} {i : Int64} (read : Scalar.unsigned? text = some i) (sign : Sign) :
    ∃ n : Numeral, n.sign = sign ∧ n.body = text := by
  unfold Scalar.unsigned? at read
  split at read
  · obtain ⟨inner, digits, rfl, nonempty, valid⟩ := exists_digits (by decide) (by decide) read
    exact ⟨⟨sign, .hexadecimal, inner, digits, nonempty, valid, nofun⟩, rfl, rfl⟩
  · obtain ⟨inner, digits, rfl, nonempty, valid⟩ := exists_digits (by decide) (by decide) read
    exact ⟨⟨sign, .octal, inner, digits, nonempty, valid, nofun⟩, rfl, rfl⟩
  · split at read
    · rename_i digits
      rw [List.all_eq_true] at digits
      cases text with
      | nil => cases read
      | cons c rest =>
        exact ⟨⟨sign, .decimal, .absent, c :: rest, nofun, fun d member => isDigit_iff.mp (digits d member),
          fun _ => rfl⟩, rfl, rfl⟩
    · cases read

theorem integer?_append {sign : Sign} {rest : List Char} (leads : sign.Leads rest) :
    Scalar.integer? (sign.spelling ++ rest) =
      (Scalar.unsigned? rest).map fun m => if sign = .minus then -m else m := by
  cases sign with
  | minus => rfl
  | plus => exact Option.map_id'.symm
  | absent =>
    rw [Sign.spelling, List.nil_append]
    unfold Scalar.integer?
    split
    · exact absurd rfl (leads rfl _ rfl).1
    · exact absurd rfl (leads rfl _ rfl).2
    · exact Option.map_id'.symm

theorem ofInt_value {n : Numeral} {m : Int64} (is : m.toInt = n.unsigned) :
    Int64.ofInt n.value = if n.sign = .minus then -m else m := by
  rw [value, ← is]
  cases n.sign with
  | minus => rw [Sign.factor, Int.neg_one_mul, Int64.ofInt_neg, Int64.ofInt_toInt, if_pos rfl]
  | plus | absent => rw [Sign.factor, Int.one_mul, Int64.ofInt_toInt, if_neg nofun]

/-- A numeral is read as the 64-bit integer next to what it denotes, if the integer behind the sign is one. -/
theorem integer?_spelling (n : Numeral) {i : Int64} :
    Scalar.integer? n.spelling = some i ↔ n.Fits ∧ i = Int64.ofInt n.value := by
  rw [spelling, integer?_append n.leads_body, Option.map_eq_some_iff]
  constructor
  · rintro ⟨m, read, rfl⟩
    have is := n.unsigned?_body.mp read
    exact ⟨⟨is ▸ m.le_toInt, is ▸ m.toInt_lt⟩, (ofInt_value is).symm⟩
  · rintro ⟨⟨lower, upper⟩, rfl⟩
    have is : (Int64.ofInt n.unsigned).toInt = n.unsigned := Int64.toInt_ofInt_of_le lower upper
    exact ⟨_, n.unsigned?_body.mpr is, (ofInt_value is).symm⟩

theorem exists_spelling {text : List Char} {i : Int64} (read : Scalar.integer? text = some i) :
    ∃ n : Numeral, n.spelling = text := by
  obtain ⟨sign, rest, rfl, leads⟩ := Sign.exists_leads text
  rw [integer?_append leads, Option.map_eq_some_iff] at read
  obtain ⟨_, unsigned, _⟩ := read
  obtain ⟨n, rfl, rfl⟩ := exists_body unsigned sign
  exact ⟨n, rfl⟩

theorem toInt_value {n : Numeral} (fits : n.Fits) :
    (Int64.ofInt n.value).toInt = n.value ∨ n.value = 2 ^ 63 ∧ Int64.ofInt n.value = Int64.minValue := by
  obtain ⟨lower, upper⟩ := fits
  by_cases greatest : n.value = 2 ^ 63
  · rw [greatest]
    exact .inr ⟨rfl, by decide⟩
  · refine .inl (Int64.toInt_ofInt_of_le ?_ ?_)
    all_goals
      unfold value at greatest ⊢
      cases signIs : n.sign <;> simp only [signIs, Sign.factor] at greatest ⊢ <;> omega

end Numeral

namespace Scalar

/-- The texts of the null value. -/
def nulls : List String :=
  ["", "~", "null", "Null", "NULL"]

def booleans : Bool → List String
  | true => ["true", "True", "TRUE"]
  | false => ["false", "False", "FALSE"]

theorem plain?_eq (text : String) :
    plain? text =
      if text ∈ nulls then some .null
      else if text ∈ booleans true then some (.bool true)
      else if text ∈ booleans false then some (.bool false)
      else (integer? text.toList).map .int <|> (float? text).map .float := by
  unfold plain?
  split
  case h_12 =>
    have noNull : text ∉ nulls := by
      simp only [nulls, List.mem_cons, List.not_mem_nil, or_false, not_or]
      tauto
    have noBoolean (b : Bool) : text ∉ booleans b := by
      cases b <;> simp only [booleans, List.mem_cons, List.not_mem_nil, or_false, not_or] <;> tauto
    rw [if_neg noNull, if_neg (noBoolean true), if_neg (noBoolean false)]
  all_goals rfl

theorem integer?_eq_none_of_named {text : String} (named : text ∈ nulls ++ booleans true ++ booleans false) :
    integer? text.toList = none := by
  have each : ∀ t ∈ nulls ++ booleans true ++ booleans false, integer? t.toList = none := by decide
  exact each text named

theorem plain?_eq_int_iff {text : String} {i : Int64} :
    plain? text = some (.int i) ↔ integer? text.toList = some i := by
  rw [plain?_eq]
  split_ifs with isNull isTrue isFalse
  · rw [integer?_eq_none_of_named (by simp [isNull])]
    exact iff_of_false nofun nofun
  · rw [integer?_eq_none_of_named (by simp [isTrue])]
    exact iff_of_false nofun nofun
  · rw [integer?_eq_none_of_named (by simp [isFalse])]
    exact iff_of_false nofun nofun
  · cases integer? text.toList <;> cases float? text <;> simp

/-- Whenever a plain scalar is read as an integer, its text is a numeral and the integer is the one that it
denotes. The exception are the texts of the number next above all integers, with a minus sign on both sides of the
announcement: they are read as the least integer. Nowhere else does the negation of what is read behind a sign
overflow. -/
theorem plain?_denotes (text : String) :
    (∀ i, plain? text = some (.int i) →
      (∃ n : Numeral, n.spelling = text.toList) ∧
      ∀ n : Numeral, n.spelling = text.toList → i.toInt = n.value ∨ n.value = 2 ^ 63 ∧ i = Int64.minValue) ∧
    ∀ digits m, text.toList = '-' :: digits → unsigned? digits = some m →
      (-m).toInt = -m.toInt ∨ ∃ n : Numeral, n.spelling = text.toList ∧ n.value = 2 ^ 63 := by
  have denotes {i : Int64} {n : Numeral} (read : integer? n.spelling = some i) :
      i.toInt = n.value ∨ n.value = 2 ^ 63 ∧ i = Int64.minValue := by
    obtain ⟨fits, rfl⟩ := n.integer?_spelling.mp read
    exact n.toInt_value fits
  constructor
  · intro i read
    rw [plain?_eq_int_iff] at read
    refine ⟨Numeral.exists_spelling read, fun n is => ?_⟩
    rw [← is] at read
    exact denotes read
  · intro digits m is read
    obtain ⟨n, signIs, rfl⟩ := Numeral.exists_body read .minus
    have spelled : n.spelling = text.toList := by
      rw [is, Numeral.spelling, signIs]
      rfl
    have negated : integer? n.spelling = some (-m) := by
      rw [spelled, is, integer?, read]
      rfl
    obtain denoted | ⟨greatest, _⟩ := denotes negated
    · rw [denoted, Numeral.value, signIs, n.unsigned?_body.mp read]
      exact .inl (Int.neg_one_mul _)
    · exact .inr ⟨n, spelled, greatest⟩

theorem plain?_doubleMinus :
    plain? "-0x-8000000000000000" = some (.int Int64.minValue) ∧ Int64.minValue.toInt = -2 ^ 63 ∧
      ∃ n : Numeral, n.spelling = "-0x-8000000000000000".toList ∧ n.value = 2 ^ 63 := by
  refine ⟨plain?_eq_int_iff.mpr (by decide), by decide, ?_⟩
  exact ⟨⟨.minus, .hexadecimal, .minus, "8000000000000000".toList, by decide, forall_mem_of_all (by decide),
    nofun⟩, by decide, by decide⟩

end Scalar

end ConfigWeave
