import ConfigWeave.Proofs.Expr.Layout
import ConfigWeave.Proofs.Numeral
import Mathlib.Computability.RegularExpressions

namespace ConfigWeave

namespace CoreSchema

open RegularExpression

/-- One of the characters. -/
def among (characters : String) : RegularExpression Char :=
  characters.toList.foldr (fun c rest => char c + rest) 0

def word (text : String) : RegularExpression Char :=
  text.toList.foldr (fun c rest => char c * rest) 1

/-- One of the words. -/
def oneOf (words : List String) : RegularExpression Char :=
  words.foldr (fun text rest => word text + rest) 0

def optional (e : RegularExpression Char) : RegularExpression Char :=
  1 + e

def oneOrMore (e : RegularExpression Char) : RegularExpression Char :=
  e * e.star

def null : RegularExpression Char :=
  oneOf ["", "~", "null", "Null", "NULL"]

def boolean : Bool → RegularExpression Char
  | true => oneOf ["true", "True", "TRUE"]
  | false => oneOf ["false", "False", "FALSE"]

def sign : RegularExpression Char :=
  optional (among "-+")

def digitCharacters : Radix → String
  | .decimal => "0123456789"
  | .octal => "01234567"
  | .hexadecimal => "0123456789abcdefABCDEF"

def digit (radix : Radix) : RegularExpression Char :=
  among (digitCharacters radix)

def digits (radix : Radix) : RegularExpression Char :=
  oneOrMore (digit radix)

def integer : RegularExpression Char :=
  sign * digits .decimal + word "0o" * digits .octal + word "0x" * digits .hexadecimal

def mantissa : RegularExpression Char :=
  char '.' * digits .decimal + digits .decimal * optional (char '.' * (digit .decimal).star)

def exponent : RegularExpression Char :=
  among "eE" * (sign * digits .decimal)

def float : RegularExpression Char :=
  sign * (mantissa * optional exponent)

def infinity : RegularExpression Char :=
  sign * oneOf [".inf", ".Inf", ".INF"]

def notANumber : RegularExpression Char :=
  oneOf [".nan", ".NaN", ".NAN"]

/-- Not of the schema: signs around the announcement of octal or hexadecimal digits. -/
def signedRadix : RegularExpression Char :=
  sign * (word "0o" * (sign * digits .octal) + word "0x" * (sign * digits .hexadecimal))

theorem mem_char {c : Char} {text : List Char} : text ∈ (char c).matches' ↔ text = [c] :=
  Iff.rfl

theorem mem_add {e f : RegularExpression Char} {text : List Char} :
    text ∈ (e + f).matches' ↔ text ∈ e.matches' ∨ text ∈ f.matches' :=
  Iff.rfl

theorem mem_mul {e f : RegularExpression Char} {text : List Char} :
    text ∈ (e * f).matches' ↔ ∃ first ∈ e.matches', ∃ second ∈ f.matches', first ++ second = text := by
  rw [matches'_mul, Language.mem_mul]

theorem mem_optional {e : RegularExpression Char} {text : List Char} :
    text ∈ (optional e).matches' ↔ text = [] ∨ text ∈ e.matches' :=
  Iff.rfl

theorem mem_among {characters : String} {text : List Char} :
    text ∈ (among characters).matches' ↔ ∃ c ∈ characters.toList, text = [c] := by
  unfold among
  induction characters.toList with
  | nil => simp
  | cons c rest ih => rw [List.foldr_cons, mem_add, mem_char, ih, List.exists_mem_cons_iff]

theorem mem_word {expected : String} {text : List Char} :
    text ∈ (word expected).matches' ↔ text = expected.toList := by
  unfold word
  induction expected.toList generalizing text with
  | nil => rfl
  | cons c rest ih =>
    simp only [List.foldr_cons, mem_mul, mem_char, ih, exists_eq_left, List.singleton_append]
    exact eq_comm

theorem mem_oneOf {words : List String} {text : List Char} :
    text ∈ (oneOf words).matches' ↔ ∃ w ∈ words, text = w.toList := by
  unfold oneOf
  induction words with
  | nil => simp
  | cons w rest ih => rw [List.foldr_cons, mem_add, mem_word, ih, List.exists_mem_cons_iff]

theorem toList_mem_oneOf {words : List String} {text : String} :
    text.toList ∈ (oneOf words).matches' ↔ text ∈ words := by
  rw [mem_oneOf]
  constructor
  · rintro ⟨w, member, same⟩
    rwa [String.toList_inj.mp same]
  · exact fun member => ⟨text, member, rfl⟩

theorem mem_star_among {characters : String} {text : List Char} :
    text ∈ (among characters).star.matches' ↔ ∀ c ∈ text, c ∈ characters.toList := by
  rw [matches'_star, Language.mem_kstar]
  constructor
  · rintro ⟨pieces, rfl, each⟩ c member
    obtain ⟨piece, isPiece, within⟩ := List.mem_flatten.mp member
    obtain ⟨d, known, rfl⟩ := mem_among.mp (each piece isPiece)
    rwa [List.mem_singleton.mp within]
  · intro known
    refine ⟨text.map ([·]), (List.flatMap_singleton' text).symm, fun piece isPiece => ?_⟩
    obtain ⟨c, member, rfl⟩ := List.mem_map.mp isPiece
    exact mem_among.mpr ⟨c, known c member, rfl⟩

theorem mem_oneOrMore_among {characters : String} {text : List Char} :
    text ∈ (oneOrMore (among characters)).matches' ↔ text ≠ [] ∧ ∀ c ∈ text, c ∈ characters.toList := by
  simp only [oneOrMore, mem_mul, mem_star_among]
  constructor
  · rintro ⟨_, one, more, known, rfl⟩
    obtain ⟨c, first, rfl⟩ := mem_among.mp one
    exact ⟨nofun, List.forall_mem_cons.mpr ⟨first, known⟩⟩
  · rintro ⟨nonempty, known⟩
    obtain ⟨c, more, rfl⟩ := List.exists_cons_of_ne_nil nonempty
    rw [List.forall_mem_cons] at known
    exact ⟨[c], mem_among.mpr ⟨c, known.1, rfl⟩, more, known.2, rfl⟩

theorem mem_sign {text : List Char} : text ∈ sign.matches' ↔ ∃ s : Sign, text = s.spelling := by
  rw [sign, mem_optional, mem_among]
  constructor
  · rintro (rfl | ⟨c, member, rfl⟩)
    · exact ⟨.absent, rfl⟩
    · rw [show "-+".toList = ['-', '+'] from rfl, List.mem_pair] at member
      obtain rfl | rfl := member
      · exact ⟨.minus, rfl⟩
      · exact ⟨.plus, rfl⟩
  · rintro ⟨s, rfl⟩
    cases s with
    | plus => exact .inr ⟨'+', by decide, rfl⟩
    | minus => exact .inr ⟨'-', by decide, rfl⟩
    | absent => exact .inl rfl

theorem mem_digitCharacters {radix : Radix} {c : Char} :
    c ∈ (digitCharacters radix).toList ↔ digitValue c < radix.base := by
  have valued : ∀ d ∈ (digitCharacters radix).toList, digitValue d < radix.base :=
    forall_mem_of_all (by cases radix <;> decide)
  have known : ∀ d ∈ "0123456789abcdefABCDEF".toList, digitValue d < radix.base →
    d ∈ (digitCharacters radix).toList :=
    forall_mem_of_all (by cases radix <;> decide)
  refine ⟨valued c, fun less => ?_⟩
  have hexadecimal : digitValue c < 16 := less.trans_le radix.base_le
  by_cases ascii : c.toNat < 128
  · exact known c ((digits_of_ascii ascii).2.1 hexadecimal) less
  · rw [digitValue_of_not_ascii ascii] at hexadecimal
    exact absurd hexadecimal (by decide)

theorem mem_star_digit {radix : Radix} {text : List Char} :
    text ∈ (digit radix).star.matches' ↔ ∀ c ∈ text, digitValue c < radix.base := by
  simp only [digit, mem_star_among, mem_digitCharacters]

theorem mem_digits {radix : Radix} {text : List Char} :
    text ∈ (digits radix).matches' ↔ text ≠ [] ∧ ∀ c ∈ text, digitValue c < radix.base := by
  simp only [digits, digit, mem_oneOrMore_among, mem_digitCharacters]

theorem mem_star_decimal {text : List Char} :
    text ∈ (digit .decimal).star.matches' ↔ ∀ c ∈ text, c.isDigit = true := by
  simp only [mem_star_digit, isDigit_iff, Radix.base]

theorem mem_decimals {text : List Char} :
    text ∈ (digits .decimal).matches' ↔ text ≠ [] ∧ ∀ c ∈ text, c.isDigit = true := by
  simp only [mem_digits, isDigit_iff, Radix.base]

/-- Together with the deviation, the integers of the schema are the numerals. -/
theorem mem_integer {text : List Char} :
    text ∈ (integer + signedRadix).matches' ↔ ∃ n : Numeral, n.spelling = text := by
  simp only [integer, signedRadix, mem_add, mem_mul, mem_word, mem_digits, mem_sign]
  constructor
  · rintro (((⟨_, ⟨s, rfl⟩, ds, ⟨nonempty, valid⟩, rfl⟩ | ⟨_, rfl, ds, ⟨nonempty, valid⟩, rfl⟩) |
      ⟨_, rfl, ds, ⟨nonempty, valid⟩, rfl⟩) |
      ⟨_, ⟨s, rfl⟩, _, (⟨_, rfl, _, ⟨_, ⟨inner, rfl⟩, ds, ⟨nonempty, valid⟩, rfl⟩, rfl⟩ |
        ⟨_, rfl, _, ⟨_, ⟨inner, rfl⟩, ds, ⟨nonempty, valid⟩, rfl⟩, rfl⟩), rfl⟩)
    · exact ⟨⟨s, .decimal, .absent, ds, nonempty, valid, fun _ => rfl⟩, rfl⟩
    · exact ⟨⟨.absent, .octal, .absent, ds, nonempty, valid, nofun⟩, rfl⟩
    · exact ⟨⟨.absent, .hexadecimal, .absent, ds, nonempty, valid, nofun⟩, rfl⟩
    · exact ⟨⟨s, .octal, inner, ds, nonempty, valid, nofun⟩, rfl⟩
    · exact ⟨⟨s, .hexadecimal, inner, ds, nonempty, valid, nofun⟩, rfl⟩
  · rintro ⟨⟨s, radix, inner, ds, nonempty, valid, plain⟩, rfl⟩
    cases radix with
    | decimal =>
      obtain rfl := plain rfl
      exact .inl (.inl (.inl ⟨_, ⟨s, rfl⟩, ds, ⟨nonempty, valid⟩, rfl⟩))
    | octal =>
      exact .inr ⟨_, ⟨s, rfl⟩, _, .inl ⟨_, rfl, _, ⟨_, ⟨inner, rfl⟩, ds, ⟨nonempty, valid⟩, rfl⟩, rfl⟩, rfl⟩
    | hexadecimal =>
      exact .inr ⟨_, ⟨s, rfl⟩, _, .inr ⟨_, rfl, _, ⟨_, ⟨inner, rfl⟩, ds, ⟨nonempty, valid⟩, rfl⟩, rfl⟩, rfl⟩

theorem leads_of_decimals (s : Sign) {text : List Char} (decimals : text ∈ (digits .decimal).matches') :
    s.Leads text :=
  s.leads_of_digits fun c member => (isDigit_iff.mp ((mem_decimals.mp decimals).2 c member)).trans (by decide)

theorem exponentFrom?_isSome {lead : Nat} {text : List Char} :
    (Number.exponentFrom? lead text).isSome = true ↔ ∀ c ∈ text, c.isDigit = true := by
  induction text generalizing lead with
  | nil => simp [Number.exponentFrom?]
  | cons c rest ih =>
    rw [Number.exponentFrom?, Number.digit?_eq (by decide), List.forall_mem_cons, isDigit_iff]
    by_cases digit : digitValue c < 10
    · simp only [digit, if_true, true_and]
      exact ih
    · simp [digit]

theorem exponentDigits?_isSome {text : List Char} :
    (Number.exponentDigits? text).isSome = true ↔ text ∈ (digits .decimal).matches' := by
  rw [mem_decimals]
  cases text with
  | nil => simp [Number.exponentDigits?]
  | cons c rest =>
    rw [Number.exponentDigits?]
    · exact exponentFrom?_isSome.trans (and_iff_right nofun).symm
    · nofun

theorem exponent?_append {e : Char} {s : Sign} {rest : List Char} (leads : s.Leads rest) :
    (Number.exponent? (e :: (s.spelling ++ rest))).isSome = true ↔
      (e = 'e' ∨ e = 'E') ∧ (Number.exponentDigits? rest).isSome = true := by
  simp only [Number.exponent?, Bool.or_eq_true, decide_eq_true_eq]
  by_cases letter : e = 'e' ∨ e = 'E'
  · rw [if_pos letter, and_iff_right letter]
    cases s with
    | plus | minus =>
      simp only [Sign.spelling, List.singleton_append]
      cases Number.exponentDigits? rest <;> rfl
    | absent =>
      rw [Sign.spelling, List.nil_append]
      split
      · exact absurd rfl (leads rfl _ rfl).1
      · exact absurd rfl (leads rfl _ rfl).2
      · cases Number.exponentDigits? rest <;> rfl
  · simp [letter]

theorem exponent?_isSome {rest : List Char} :
    (Number.exponent? rest).isSome = true ↔ rest ∈ (optional exponent).matches' := by
  simp only [mem_optional, exponent, mem_mul, mem_among, mem_sign]
  constructor
  · intro read
    cases rest with
    | nil => exact .inl rfl
    | cons e tail =>
      obtain ⟨s, ds, rfl, leads⟩ := Sign.exists_leads tail
      obtain ⟨letter, decimals⟩ := (exponent?_append leads).mp read
      refine .inr ⟨[e], ⟨e, ?_, rfl⟩, _, ⟨_, ⟨s, rfl⟩, ds, exponentDigits?_isSome.mp decimals, rfl⟩, rfl⟩
      obtain rfl | rfl := letter <;> decide
  · rintro (rfl | ⟨_, ⟨e, letter, rfl⟩, _, ⟨_, ⟨s, rfl⟩, ds, decimals, rfl⟩, rfl⟩)
    · rfl
    · rw [show "eE".toList = ['e', 'E'] from rfl, List.mem_pair] at letter
      exact (exponent?_append (leads_of_decimals s decimals)).mpr ⟨letter, exponentDigits?_isSome.mpr decimals⟩

/-- The text is empty or goes on with something else than a digit. -/
def Stops (rest : List Char) : Prop :=
  ∀ c ∈ rest.head?, c.isDigit = false

theorem stops_of_exponent {rest : List Char} (expo : rest ∈ (optional exponent).matches') :
    Stops rest ∧ rest.head? ≠ some '.' := by
  simp only [mem_optional, exponent, mem_mul, mem_among] at expo
  obtain rfl | ⟨_, ⟨e, letter, rfl⟩, _, _, rfl⟩ := expo
  · exact ⟨nofun, nofun⟩
  · rw [show "eE".toList = ['e', 'E'] from rfl, List.mem_pair] at letter
    obtain rfl | rfl := letter
    · exact ⟨by rintro _ ⟨⟩; rfl, nofun⟩
    · exact ⟨by rintro _ ⟨⟩; rfl, nofun⟩

theorem exists_stops (text : List Char) :
    ∃ ds rest : List Char, text = ds ++ rest ∧ (∀ c ∈ ds, c.isDigit = true) ∧ Stops rest := by
  refine ⟨text.takeWhile Char.isDigit, text.dropWhile Char.isDigit, List.takeWhile_append_dropWhile.symm,
    List.all_eq_true.mp List.all_takeWhile, fun c first => ?_⟩
  have stop := List.head?_dropWhile_not Char.isDigit text
  rwa [first] at stop

theorem span_digits {ds rest : List Char} (decimals : ∀ c ∈ ds, c.isDigit = true) (stops : Stops rest) :
    (ds ++ rest).takeWhile Char.isDigit = ds ∧ (ds ++ rest).dropWhile Char.isDigit = rest := by
  refine ⟨Expr.takeWhile_append_of_stop decimals stops, ?_⟩
  rw [List.dropWhile_append_of_pos decimals]
  cases rest with
  | nil => rfl
  | cons c more => rw [List.dropWhile_cons_of_neg (by rw [stops c rfl]; decide)]

section Magnitude

variable {whole rest : List Char} (wholeDigits : ∀ c ∈ whole, c.isDigit = true)
include wholeDigits

theorem magnitude?_of_point {fraction : List Char} (fractionDigits : ∀ c ∈ fraction, c.isDigit = true)
    (stops : Stops rest) :
    (Number.magnitude? (whole ++ '.' :: (fraction ++ rest))).isSome = true ↔
      (whole ≠ [] ∨ fraction ≠ []) ∧ (Number.exponent? rest).isSome = true := by
  have pointStops : Stops ('.' :: (fraction ++ rest)) := by
    rintro _ ⟨⟩
    rfl
  obtain ⟨first, afterWhole⟩ := span_digits wholeDigits pointStops
  obtain ⟨second, afterFraction⟩ := span_digits fractionDigits stops
  unfold Number.magnitude?
  simp only [first, afterWhole, second, afterFraction]
  cases whole <;> cases fraction <;> cases Number.exponent? rest <;> simp

theorem magnitude?_of_noPoint (stops : Stops rest) (noPoint : rest.head? ≠ some '.') :
    (Number.magnitude? (whole ++ rest)).isSome = true ↔ whole ≠ [] ∧ (Number.exponent? rest).isSome = true := by
  obtain ⟨first, afterWhole⟩ := span_digits wholeDigits stops
  unfold Number.magnitude?
  simp only [first, afterWhole]
  -- By this `simp` knows that what follows the digits is not taken for a fraction.
  have noTail (tail : List Char) : rest ≠ '.' :: tail := by
    rintro rfl
    exact noPoint rfl
  cases whole <;> cases expo : Number.exponent? rest <;> simp [expo]

end Magnitude

theorem mem_mantissa {text : List Char} :
    text ∈ mantissa.matches' ↔ ∃ whole fraction : List Char, (∀ c ∈ whole, c.isDigit = true) ∧
      (∀ c ∈ fraction, c.isDigit = true) ∧
      (text = whole ++ '.' :: fraction ∧ (whole ≠ [] ∨ fraction ≠ []) ∨ text = whole ∧ whole ≠ []) := by
  simp only [mantissa, mem_add, mem_mul, mem_optional, mem_char, mem_decimals, mem_star_decimal]
  constructor
  · rintro (⟨_, rfl, fraction, ⟨some, digits⟩, rfl⟩ | ⟨whole, ⟨some, digits⟩, _,
      rfl | ⟨_, rfl, fraction, more, rfl⟩, rfl⟩)
    · exact ⟨[], fraction, nofun, digits, .inl ⟨rfl, .inr some⟩⟩
    · exact ⟨whole, [], digits, nofun, .inr ⟨List.append_nil whole, some⟩⟩
    · exact ⟨whole, fraction, digits, more, .inl ⟨rfl, .inl some⟩⟩
  · rintro ⟨whole, fraction, wholeDigits, fractionDigits, ⟨rfl, some⟩ | ⟨rfl, some⟩⟩
    · by_cases none : whole = []
      · exact .inl ⟨_, rfl, fraction, ⟨some.resolve_left (not_not.mpr none), fractionDigits⟩, by rw [none]; rfl⟩
      · exact .inr ⟨whole, ⟨none, wholeDigits⟩, _, .inr ⟨_, rfl, fraction, fractionDigits, rfl⟩, rfl⟩
    · exact .inr ⟨_, ⟨some, wholeDigits⟩, [], .inl rfl, List.append_nil _⟩

theorem magnitude?_isSome {text : List Char} :
    (Number.magnitude? text).isSome = true ↔ text ∈ (mantissa * optional exponent).matches' := by
  rw [mem_mul]
  constructor
  · intro read
    obtain ⟨whole, rest, rfl, wholeDigits, stops⟩ := exists_stops text
    by_cases point : rest.head? = some '.'
    · obtain ⟨tail, rfl⟩ := List.head?_eq_some_iff.mp point
      obtain ⟨fraction, more, rfl, fractionDigits, stops⟩ := exists_stops tail
      obtain ⟨some, expo⟩ := (magnitude?_of_point wholeDigits fractionDigits stops).mp read
      refine ⟨whole ++ '.' :: fraction, ?_, more, exponent?_isSome.mp expo, by simp⟩
      exact mem_mantissa.mpr ⟨whole, fraction, wholeDigits, fractionDigits, .inl ⟨rfl, some⟩⟩
    · obtain ⟨some, expo⟩ := (magnitude?_of_noPoint wholeDigits stops point).mp read
      refine ⟨whole, ?_, rest, exponent?_isSome.mp expo, rfl⟩
      exact mem_mantissa.mpr ⟨whole, [], wholeDigits, nofun, .inr ⟨rfl, some⟩⟩
  · rintro ⟨_, front, rest, expo, rfl⟩
    obtain ⟨stops, noPoint⟩ := stops_of_exponent expo
    obtain ⟨whole, fraction, wholeDigits, fractionDigits, ⟨rfl, some⟩ | ⟨rfl, some⟩⟩ := mem_mantissa.mp front
    · rw [List.append_assoc, List.cons_append]
      exact (magnitude?_of_point wholeDigits fractionDigits stops).mpr ⟨some, exponent?_isSome.mpr expo⟩
    · exact (magnitude?_of_noPoint wholeDigits stops noPoint).mpr ⟨some, exponent?_isSome.mpr expo⟩

theorem mem_float {text : List Char} :
    text ∈ float.matches' ↔
      ∃ (s : Sign) (rest : List Char), text = s.spelling ++ rest ∧
      rest ∈ (mantissa * optional exponent).matches' := by
  rw [float, mem_mul]
  constructor
  · rintro ⟨_, front, rest, decimal, rfl⟩
    obtain ⟨s, rfl⟩ := mem_sign.mp front
    exact ⟨s, rest, rfl, decimal⟩
  · rintro ⟨s, rest, rfl, decimal⟩
    exact ⟨_, mem_sign.mpr ⟨s, rfl⟩, rest, decimal, rfl⟩

theorem inFloat_of_isDigit {c : Char} (digit : c.isDigit = true) : Scalar.inFloat c = true := by
  simp [Scalar.inFloat, digit]

theorem inFloat_of_sign (s : Sign) : ∀ c ∈ s.spelling, Scalar.inFloat c = true :=
  List.all_eq_true.mp (by cases s <;> decide)

theorem inFloat_of_exponent {rest : List Char} (expo : rest ∈ (optional exponent).matches') :
    ∀ c ∈ rest, Scalar.inFloat c = true := by
  simp only [mem_optional, exponent, mem_mul, mem_among, mem_sign, mem_decimals] at expo
  obtain rfl | ⟨_, ⟨e, letter, rfl⟩, _, ⟨_, ⟨s, rfl⟩, ds, ⟨_, decimals⟩, rfl⟩, rfl⟩ := expo
  · nofun
  · have letters : ∀ e ∈ "eE".toList, Scalar.inFloat e = true := List.all_eq_true.mp (by decide)
    simp only [List.forall_mem_append, List.forall_mem_singleton]
    exact ⟨letters e letter, inFloat_of_sign s, fun c member => inFloat_of_isDigit (decimals c member)⟩

theorem inFloat_of_decimal {text : List Char} (decimal : text ∈ (mantissa * optional exponent).matches') :
    (∀ c ∈ text, Scalar.inFloat c = true) ∧ ∃ c ∈ text, c.isDigit = true := by
  obtain ⟨_, front, rest, expo, rfl⟩ := mem_mul.mp decimal
  obtain ⟨whole, fraction, wholeDigits, fractionDigits, parts⟩ := mem_mantissa.mp front
  have wholeIn : ∀ c ∈ whole, Scalar.inFloat c = true := fun c member => inFloat_of_isDigit (wholeDigits c member)
  have fractionIn : ∀ c ∈ fraction, Scalar.inFloat c = true := fun c member =>
    inFloat_of_isDigit (fractionDigits c member)
  have exists_digit {ds : List Char} (digits : ∀ c ∈ ds, c.isDigit = true) (some : ds ≠ []) :
      ∃ c ∈ ds, c.isDigit = true := by
    obtain ⟨c, more, rfl⟩ := List.exists_cons_of_ne_nil some
    exact ⟨c, List.mem_cons_self, digits c List.mem_cons_self⟩
  obtain ⟨rfl, some⟩ | ⟨rfl, some⟩ := parts
  · constructor
    · simp only [List.forall_mem_append, List.forall_mem_cons]
      exact ⟨⟨wholeIn, rfl, fractionIn⟩, inFloat_of_exponent expo⟩
    · obtain some | some := some
      · obtain ⟨c, member, digit⟩ := exists_digit wholeDigits some
        exact ⟨c, by simp [member], digit⟩
      · obtain ⟨c, member, digit⟩ := exists_digit fractionDigits some
        exact ⟨c, by simp [member], digit⟩
  · obtain ⟨c, member, digit⟩ := exists_digit wholeDigits some
    exact ⟨List.forall_mem_append.mpr ⟨wholeIn, inFloat_of_exponent expo⟩, c, List.mem_append_left _ member, digit⟩

theorem toLower_of_isDigit {c : Char} (digit : c.isDigit = true) : c.toLower = c := by
  rw [Char.isDigit_iff_toNat] at digit
  exact dif_neg fun upper => absurd (upper.1.trans digit.2) (by decide)

/-- A text of the characters of decimals does not name infinity or NaN. -/
theorem special?_eq_none {text : List Char} (within : ∀ c ∈ text, Scalar.inFloat c = true) :
    Number.special? text = none := by
  have letters {c : Char} (member : c ∈ text) : c.toLower ≠ 'i' ∧ c.toLower ≠ 'n' := by
    have here := within c member
    simp only [Scalar.inFloat, Bool.or_eq_true, beq_iff_eq] at here
    obtain ((((digit | rfl) | rfl) | rfl) | rfl) | rfl := here
    · rw [toLower_of_isDigit digit]
      constructor
      · rintro rfl
        cases digit
      · rintro rfl
        cases digit
    all_goals decide
  have first {w : String} (is : String.ofList ((text.take 9).map Char.toLower) = w) :
      w.toList.head? ≠ some 'i' ∧ w.toList.head? ≠ some 'n' := by
    rw [← is, String.toList_ofList]
    cases text with
    | nil => exact ⟨nofun, nofun⟩
    | cons c rest =>
      have other := letters (c := c) List.mem_cons_self
      exact ⟨fun same => other.1 (Option.some.inj same), fun same => other.2 (Option.some.inj same)⟩
  unfold Number.special?
  split
  · rename_i is
    exact absurd rfl (first is).1
  · rename_i is
    exact absurd rfl (first is).1
  · rename_i is
    exact absurd rfl (first is).2
  · rfl

theorem leads_of_decimal (s : Sign) {text : List Char} (decimal : text ∈ (mantissa * optional exponent).matches') :
    s.Leads text := by
  intro _ c first
  obtain ⟨more, rfl⟩ := List.head?_eq_some_iff.mp first
  have read := magnitude?_isSome.mpr decimal
  constructor
  · rintro rfl
    simp [Number.magnitude?] at read
  · rintro rfl
    simp [Number.magnitude?] at read

theorem number_float?_append {s : Sign} {rest : List Char} (leads : s.Leads rest)
    (within : ∀ c ∈ rest, Scalar.inFloat c = true) :
    (Number.float? (s.spelling ++ rest)).isSome = (Number.magnitude? rest).isSome := by
  have unnamed := special?_eq_none within
  cases s with
  | plus | minus => simp [Sign.spelling, Number.float?, unnamed]
  | absent =>
    rw [Sign.spelling, List.nil_append]
    unfold Number.float?
    split
    · exact absurd rfl (leads rfl _ rfl).1
    · exact absurd rfl (leads rfl _ rfl).2
    · simp [unnamed]

theorem mem_float_iff {text : List Char} :
    text ∈ float.matches' ↔
      (text.all Scalar.inFloat = true ∧ text.any Char.isDigit = true) ∧ (Number.float? text).isSome = true := by
  rw [mem_float]
  constructor
  · rintro ⟨s, rest, rfl, decimal⟩
    obtain ⟨within, c, member, digit⟩ := inFloat_of_decimal decimal
    rw [number_float?_append (leads_of_decimal s decimal) within, magnitude?_isSome]
    simp only [List.all_append, Bool.and_eq_true, List.all_eq_true, List.any_eq_true]
    exact ⟨⟨⟨inFloat_of_sign s, within⟩, c, List.mem_append_right _ member, digit⟩, decimal⟩
  · rintro ⟨⟨within, _⟩, read⟩
    obtain ⟨s, rest, rfl, leads⟩ := Sign.exists_leads text
    rw [List.all_append, Bool.and_eq_true, List.all_eq_true, List.all_eq_true] at within
    rw [number_float?_append leads within.2] at read
    exact ⟨s, rest, rfl, magnitude?_isSome.mp read⟩

theorem mem_infinity {text : List Char} :
    text ∈ infinity.matches' ↔ ∃ s : Sign, ∃ w ∈ [".inf", ".Inf", ".INF"], text = s.spelling ++ w.toList := by
  rw [infinity, mem_mul]
  constructor
  · rintro ⟨_, front, _, named, rfl⟩
    obtain ⟨s, rfl⟩ := mem_sign.mp front
    obtain ⟨w, known, rfl⟩ := mem_oneOf.mp named
    exact ⟨s, w, known, rfl⟩
  · rintro ⟨s, w, known, rfl⟩
    exact ⟨_, mem_sign.mpr ⟨s, rfl⟩, _, mem_oneOf.mpr ⟨w, known, rfl⟩, rfl⟩

/-- The texts that name infinity or NaN. -/
def floatNames : List String :=
  [".inf", ".Inf", ".INF", "+.inf", "+.Inf", "+.INF", "-.inf", "-.Inf", "-.INF", ".nan", ".NaN", ".NAN"]

theorem mem_floatNames {text : String} :
    text.toList ∈ infinity.matches' ∨ text.toList ∈ notANumber.matches' ↔ text ∈ floatNames := by
  constructor
  · rintro (infinite | undefined)
    · obtain ⟨s, w, known, is⟩ := mem_infinity.mp infinite
      have all : ∀ w ∈ [".inf", ".Inf", ".INF"], String.ofList (s.spelling ++ w.toList) ∈ floatNames := by
        cases s <;> decide
      rw [← String.ofList_toList (s := text), is]
      exact all w known
    · obtain ⟨w, known, is⟩ := mem_oneOf.mp undefined
      have all : ∀ w ∈ [".nan", ".NaN", ".NAN"], w ∈ floatNames := by decide
      rw [String.toList_inj.mp is]
      exact all w known
  · intro named
    have all : ∀ w ∈ floatNames, (∃ s ∈ [Sign.plus, .minus, .absent], ∃ name ∈ [".inf", ".Inf", ".INF"],
        w.toList = s.spelling ++ name.toList) ∨ w ∈ [".nan", ".NaN", ".NAN"] := by decide
    obtain ⟨s, _, name, known, is⟩ | undefined := all text named
    · exact .inl (mem_infinity.mpr ⟨s, name, known, is⟩)
    · exact .inr (toList_mem_oneOf.mpr undefined)

theorem float?_isSome {text : String} :
    (Scalar.float? text).isSome = true ↔ text.toList ∈ (float + infinity + notANumber).matches' := by
  rw [mem_add, mem_add, or_assoc, mem_floatNames]
  unfold Scalar.float?
  split
  case h_13 =>
    have unnamed : text ∉ floatNames := by
      simp only [floatNames, List.mem_cons, List.not_mem_nil, or_false, not_or]
      tauto
    rw [or_iff_left unnamed, mem_float_iff, ← Bool.and_eq_true]
    dsimp only
    split
    · rename_i within
      exact (and_iff_right within).symm
    · rename_i without
      exact iff_of_false nofun fun both => without both.1
  all_goals exact iff_of_true rfl (.inr (by decide))

theorem plain?_eq_null_iff {text : String} : Scalar.plain? text = some .null ↔ text.toList ∈ null.matches' := by
  rw [null, toList_mem_oneOf, ← Scalar.nulls, Scalar.plain?_eq]
  split_ifs with isNull isTrue isFalse
  · exact iff_of_true rfl isNull
  · exact iff_of_false (by simp) isNull
  · exact iff_of_false (by simp) isNull
  · refine iff_of_false ?_ isNull
    cases Scalar.integer? text.toList <;> cases Scalar.float? text <;> simp

/-- No text is that of two values. -/
theorem booleans_apart (b : Bool) : ∀ text ∈ Scalar.booleans b, text ∉ Scalar.nulls ∧
    text ∉ Scalar.booleans !b := by
  cases b <;> decide

theorem plain?_eq_bool_iff {text : String} {b : Bool} :
    Scalar.plain? text = some (.bool b) ↔ text.toList ∈ (boolean b).matches' := by
  have member : text.toList ∈ (boolean b).matches' ↔ text ∈ Scalar.booleans b := by
    cases b <;> exact toList_mem_oneOf
  have apart := booleans_apart b text
  rw [member, Scalar.plain?_eq]
  split_ifs with isNull isTrue isFalse
  · exact iff_of_false nofun fun isBoolean => (apart isBoolean).1 isNull
  · cases b with
    | true => exact iff_of_true rfl isTrue
    | false => exact iff_of_false nofun fun isBoolean => (apart isBoolean).2 isTrue
  · cases b with
    | true => exact iff_of_false nofun isTrue
    | false => exact iff_of_true rfl isFalse
  · refine iff_of_false ?_ (by cases b <;> assumption)
    cases Scalar.integer? text.toList <;> cases Scalar.float? text <;> simp

theorem plain?_eq_float_iff {text : String} {x : Double} :
    Scalar.plain? text = some (.float x) ↔ Scalar.integer? text.toList = none ∧ Scalar.float? text = some x := by
  have unread {names : List String} (each : ∀ t ∈ names, (Scalar.float? t).isNone = true) (named : text ∈ names) :
      ¬(Scalar.integer? text.toList = none ∧ Scalar.float? text = some x) := by
    rintro ⟨_, read⟩
    have none := each text named
    rw [read] at none
    cases none
  rw [Scalar.plain?_eq]
  split_ifs with isNull isTrue isFalse
  · exact iff_of_false nofun (unread (by decide) isNull)
  · exact iff_of_false nofun (unread (by decide) isTrue)
  · exact iff_of_false nofun (unread (by decide) isFalse)
  · cases Scalar.integer? text.toList <;> cases Scalar.float? text <;> simp

theorem plain?_kind {text : String} {v : Value} (read : Scalar.plain? text = some v) :
    v = .null ∨ (∃ b, v = .bool b) ∨ (∃ i, v = .int i) ∨ ∃ x, v = .float x := by
  rw [Scalar.plain?_eq] at read
  split_ifs at read
  · cases read
    exact .inl rfl
  · cases read
    exact .inr (.inl ⟨true, rfl⟩)
  · cases read
    exact .inr (.inl ⟨false, rfl⟩)
  · revert read
    cases Scalar.integer? text.toList <;> cases Scalar.float? text <;> rintro ⟨⟩ <;> simp

theorem plain_eq_str_iff {text : String} : Scalar.plain text = .str text ↔ Scalar.plain? text = none := by
  unfold Scalar.plain
  cases read : Scalar.plain? text with
  | none => simp
  | some v =>
    obtain rfl | ⟨b, rfl⟩ | ⟨i, rfl⟩ | ⟨x, rfl⟩ := plain?_kind read
    all_goals exact iff_of_false nofun nofun

/-- The text is that of an integer, and what it writes behind its sign has 64 bits. -/
def InRange (text : String) : Prop :=
  ∃ n : Numeral, n.spelling = text.toList ∧ n.Fits

theorem inRange_iff {text : String} : InRange text ↔ ∃ i, Scalar.integer? text.toList = some i := by
  constructor
  · rintro ⟨n, is, fits⟩
    exact ⟨_, is ▸ n.integer?_spelling.mpr ⟨fits, rfl⟩⟩
  · rintro ⟨i, read⟩
    obtain ⟨n, is⟩ := Numeral.exists_spelling read
    rw [← is] at read
    exact ⟨n, is, (n.integer?_spelling.mp read).1⟩

theorem exists_int_iff {text : String} : (∃ i, Scalar.plain? text = some (.int i)) ↔ InRange text := by
  simp only [Scalar.plain?_eq_int_iff, inRange_iff]

theorem exists_float_iff {text : String} :
    (∃ x, Scalar.plain? text = some (.float x)) ↔
      text.toList ∈ (float + infinity + notANumber).matches' ∧ ¬InRange text := by
  simp only [plain?_eq_float_iff, exists_and_left, ← float?_isSome, inRange_iff, Option.isSome_iff_exists,
    not_exists, Option.eq_none_iff_forall_ne_some]
  exact and_comm

theorem plain?_eq_none_iff {text : String} :
    Scalar.plain? text = none ↔
      text.toList ∉ (null + boolean true + boolean false + (float + infinity + notANumber)).matches' ∧
      ¬InRange text := by
  constructor
  · intro unread
    have outOfRange : ¬InRange text := fun inRange => by
      obtain ⟨i, read⟩ := exists_int_iff.mpr inRange
      exact nomatch unread.symm.trans read
    refine ⟨?_, outOfRange⟩
    rintro (((matched | matched) | matched) | matched)
    · exact nomatch unread.symm.trans (plain?_eq_null_iff.mpr matched)
    · exact nomatch unread.symm.trans (plain?_eq_bool_iff.mpr matched)
    · exact nomatch unread.symm.trans (plain?_eq_bool_iff.mpr matched)
    · obtain ⟨x, read⟩ := exists_float_iff.mpr ⟨matched, outOfRange⟩
      exact nomatch unread.symm.trans read
  · rintro ⟨unmatched, outOfRange⟩
    by_contra some
    obtain ⟨v, read⟩ := Option.ne_none_iff_exists'.mp some
    obtain rfl | ⟨_ | _, rfl⟩ | ⟨i, rfl⟩ | ⟨x, rfl⟩ := plain?_kind read
    · exact unmatched (.inl (.inl (.inl (plain?_eq_null_iff.mp read))))
    · exact unmatched (.inl (.inr (plain?_eq_bool_iff.mp read)))
    · exact unmatched (.inl (.inl (.inr (plain?_eq_bool_iff.mp read))))
    · exact outOfRange (exists_int_iff.mp ⟨i, read⟩)
    · exact unmatched (.inr (exists_float_iff.mp ⟨x, read⟩).1)

/-- What a plain scalar stands for goes by the core schema, but for the integers: octal and hexadecimal ones may
have signs on either side of their announcement, and what is behind the first sign has to be in range by itself.
Decimal integers that are not in range are floats, and all else that matches none of the expressions stays a
string. -/
theorem plain?_coreSchema (text : String) :
    (Scalar.plain? text = some .null ↔ text.toList ∈ null.matches') ∧
    (∀ b, Scalar.plain? text = some (.bool b) ↔ text.toList ∈ (boolean b).matches') ∧
    ((∃ i, Scalar.plain? text = some (.int i)) ↔ text.toList ∈ (integer + signedRadix).matches' ∧ InRange text) ∧
    ((∃ x, Scalar.plain? text = some (.float x)) ↔
      text.toList ∈ (float + infinity + notANumber).matches' ∧ ¬InRange text) ∧
    (Scalar.plain text = .str text ↔
      text.toList ∉ (null + boolean true + boolean false + (float + infinity + notANumber)).matches' ∧
      ¬InRange text) := by
  refine ⟨plain?_eq_null_iff, fun b => plain?_eq_bool_iff, exists_int_iff.trans (and_iff_right_of_imp ?_).symm,
    exists_float_iff, plain_eq_str_iff.trans plain?_eq_none_iff⟩
  rintro ⟨n, is, _⟩
  exact mem_integer.mpr ⟨n, is⟩

theorem plain?_signedRadix :
    Scalar.plain? "0x-1f" = some (.int (-31)) ∧
      "0x-1f".toList ∉ (null + boolean true + boolean false + integer + (float + infinity + notANumber)).matches' :=
  ⟨Scalar.plain?_eq_int_iff.mpr (by decide), by decide⟩

end CoreSchema

end ConfigWeave
