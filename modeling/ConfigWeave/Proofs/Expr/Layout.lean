import ConfigWeave.Expr.Print

namespace ConfigWeave.Expr

/-- Tokens whose spelling is that of their kind. -/
def Token.IsProper : Token → Prop
  | .number spelling => spelling ≠ [] ∧ ∀ c ∈ spelling, c.isDigit = true
  | .name spelling => isIdentifier spelling = true
  | .text _ | .symbol _ => True

instance : DecidablePred Token.IsProper
  | .number spelling => inferInstanceAs (Decidable (spelling ≠ [] ∧ ∀ c ∈ spelling, c.isDigit = true))
  | .name spelling => inferInstanceAs (Decidable (isIdentifier spelling = true))
  | .text _ | .symbol _ => .isTrue trivial

/-- The character that makes another symbol of a symbol when it follows. -/
def Symbol.extension? : Symbol → Option Char
  | .slash => some '/'
  | .bar => some '|'
  | .less | .greater | .bang | .assign => some '='
  | _ => none

/-- What follows a token does not belong to it. -/
def Token.Stops (token : Token) (rest : List Char) : Prop :=
  ∀ c ∈ rest.head?, match token with
    | .number _ => isNumeral c = false ∧ c ≠ '.' ∧ c ≠ 'e' ∧ c ≠ 'E'
    | .name _ => continuesName c = false
    | .text _ => True
    | .symbol s => s.extension? ≠ some c

/-- The code points of the characters that are blank. -/
def blankCodes : List Nat :=
  [0x09, 0x0a, 0x0b, 0x0c, 0x0d, 0x20, 0x85, 0xa0, 0x1680, 0x2000, 0x2001, 0x2002, 0x2003, 0x2004, 0x2005, 0x2006,
    0x2007, 0x2008, 0x2009, 0x200a, 0x2028, 0x2029, 0x202f, 0x205f, 0x3000]

/-- What no blank character has is a matter of their code points. -/
theorem isBlank_eq_false {p : Char → Bool} (never : ∀ code ∈ blankCodes, p (Char.ofNat code) = false) {c : Char}
    (holds : p c = true) : Text.isBlank c = false := by
  rw [Bool.eq_false_iff]
  intro blank
  have listed : c.toNat ∈ blankCodes := by
    simp only [Text.isBlank, Bool.or_eq_true, Bool.and_eq_true, decide_eq_true_eq, beq_iff_eq] at blank
    simp only [blankCodes, List.mem_cons, List.not_mem_nil, or_false]
    omega
  have here := never _ listed
  rw [Char.ofNat_toNat, holds] at here
  cases here

theorem isDigit_of_startsName {c : Char} (starts : startsName c = true) : c.isDigit = false := by
  rw [Bool.eq_false_iff]
  intro digit
  have listed : c.toNat ∈ List.range' 48 10 := by
    simp only [Char.isDigit, Bool.and_eq_true, decide_eq_true_eq, ge_iff_le, UInt32.le_iff_toNat_le] at digit
    simp only [List.mem_range'_1]
    exact ⟨digit.1, Nat.lt_succ_of_le digit.2⟩
  have never : ∀ code ∈ List.range' 48 10, startsName (Char.ofNat code) = false := by decide
  have here := never _ listed
  rw [Char.ofNat_toNat, starts] at here
  cases here

theorem takeWhile_append_of_stop {p : Char → Bool} {text rest : List Char} (all : ∀ c ∈ text, p c = true)
    (stop : ∀ c ∈ rest.head?, p c = false) : (text ++ rest).takeWhile p = text := by
  rw [List.takeWhile_append_of_pos all]
  cases rest with
  | nil => simp
  | cons c more => simp [stop c rfl]

theorem numberLength_append {digits rest : List Char} (all : ∀ c ∈ digits, c.isDigit = true)
    (stop : ∀ c ∈ rest.head?, isNumeral c = false) : numberLength (digits ++ rest) =
      digits.length + fractionLength rest + exponentLength (rest.drop (fractionLength rest)) := by
  have whole : (digits ++ rest).takeWhile isNumeral = digits :=
    takeWhile_append_of_stop (fun c member => by simp [isNumeral, all c member]) stop
  have behind (n : Nat) : (digits ++ rest).drop (digits.length + n) = rest.drop n := by
    rw [← List.drop_drop, List.drop_left]
  simp only [numberLength, whole, List.drop_left, behind]

theorem fractionLength_eq_zero {rest : List Char} (noPoint : ∀ c ∈ rest.head?, c ≠ '.') :
    fractionLength rest = 0 := by
  unfold fractionLength
  split
  · exact absurd rfl (noPoint '.' rfl)
  · rfl

theorem exponentLength_eq_zero {rest : List Char} (noExponent : ∀ c ∈ rest.head?, c ≠ 'e' ∧ c ≠ 'E') :
    exponentLength rest = 0 := by
  cases rest with
  | nil => rfl
  | cons c more =>
    obtain ⟨lower, upper⟩ := noExponent c rfl
    simp [exponentLength, lower, upper]

theorem numberLength_of_stops {digits rest : List Char} (all : ∀ c ∈ digits, c.isDigit = true)
    (stops : (Token.number digits).Stops rest) : numberLength (digits ++ rest) = digits.length := by
  rw [numberLength_append all fun c first => (stops c first).1, fractionLength_eq_zero fun c first =>
    (stops c first).2.1, List.drop_zero, exponentLength_eq_zero fun c first => (stops c first).2.2]
  rfl

theorem quoted?_escape (c : Char) (tail : List Char) : quoted? '\'' (escape c ++ tail) =
    (quoted? '\'' tail).map fun (content, n) => (c :: content, n + (escape c).length) := by
  unfold escape
  split
  case h_7 =>
    rename_i noQuote noBackslash _ _ _ _
    rw [List.cons_append, List.nil_append, quoted?, if_neg noQuote]
    · rfl
    · exact fun backslash _ => absurd backslash noBackslash
    · exact fun _ _ backslash => absurd backslash noBackslash
  all_goals rfl

theorem quoted?_flatMap_escape (content rest : List Char) :
    quoted? '\'' (content.flatMap escape ++ '\'' :: rest) =
      some (content, (content.flatMap escape).length + 1) := by
  induction content with
  | nil => rfl
  | cons c more ih =>
    rw [List.flatMap_cons, List.append_assoc, quoted?_escape, ih]
    simp
    omega

theorem symbolAt?_spelling {s : Symbol} {rest : List Char} (stops : (Token.symbol s).Stops rest) :
    ∃ c cs, s.spelling = c :: cs ∧ symbolAt? c (cs ++ rest) = some (s, cs.length) := by
  have apart (c : Char) (member : c ∈ rest.head?) : s.extension? ≠ some c := stops c member
  cases s <;> refine ⟨_, _, rfl, ?_⟩
  all_goals first
    | rfl
    | cases rest with
      | nil => rfl
      | cons d more =>
        have other := apart d rfl
        simp only [Symbol.extension?, ne_eq, Option.some.injEq] at other
        unfold symbolAt?
        split <;> simp_all

/-- A token is read back if what follows does not belong to it. -/
theorem tokenAt?_spelling {token : Token} {rest : List Char} (proper : token.IsProper) (stops : token.Stops rest) :
    ∃ c cs, token.spelling = c :: cs ∧ Text.isBlank c = false ∧
      tokenAt? c (cs ++ rest) = some (token, cs.length) := by
  cases token with
  | number spelling =>
    obtain ⟨some, digits⟩ := proper
    obtain ⟨c, cs, rfl⟩ := List.exists_cons_of_ne_nil some
    have digit := digits c List.mem_cons_self
    refine ⟨c, cs, rfl, isBlank_eq_false (by decide) digit, ?_⟩
    · have length := numberLength_of_stops (fun other member => digits other (List.mem_cons_of_mem _ member)) stops
      simp only [tokenAt?, if_pos digit, length, List.take_left]
  | text content =>
    refine ⟨'\'', content.flatMap escape ++ ['\''], rfl, by decide, ?_⟩
    rw [tokenAt?, if_neg (by decide), if_pos (by decide), List.append_assoc, List.singleton_append,
      quoted?_flatMap_escape]
    simp
  | name spelling =>
    cases spelling with
    | nil => cases proper
    | cons c cs =>
      obtain ⟨starts, continues⟩ := Bool.and_eq_true_iff.mp proper
      have noDigit := isDigit_of_startsName starts
      have noQuote : (decide (c = '\'') || decide (c = '"')) = false := by
        rw [Bool.or_eq_false_iff, decide_eq_false_iff_not, decide_eq_false_iff_not]
        refine ⟨?_, ?_⟩ <;> rintro rfl <;> revert starts <;> decide
      have taken := takeWhile_append_of_stop (List.all_eq_true.mp continues) stops
      refine ⟨c, cs, rfl, isBlank_eq_false (by decide +kernel) starts, ?_⟩
      simp [tokenAt?, noDigit, noQuote, starts, taken]
  | symbol s =>
    obtain ⟨c, cs, spelling, found⟩ := symbolAt?_spelling stops
    refine ⟨c, cs, spelling, ?_, ?_⟩
    · cases s <;> cases spelling <;> decide
    · have plain : c.isDigit = false ∧ (decide (c = '\'') || decide (c = '"')) = false ∧ startsName c = false := by
        cases s <;> cases spelling <;> decide
      simp [tokenAt?, plain, found]

theorem stops_nil (token : Token) : token.Stops [] := by
  intro c member
  cases member

/-- No token goes on with a blank or with most of the brackets and separators. -/
theorem stops_cons {c : Char} (numeral : isNumeral c = false) (name : continuesName c = false)
    (other : c ∉ ['.', 'e', 'E', '/', '|', '=']) (token : Token) (rest : List Char) : token.Stops (c :: rest) := by
  intro first member
  cases member
  simp only [List.mem_cons, List.not_mem_nil, or_false, not_or] at other
  obtain ⟨point, lower, upper, slash, bar, equal⟩ := other
  cases token with
  | number _ => exact ⟨numeral, point, lower, upper⟩
  | name _ => exact name
  | text _ => trivial
  | symbol s => cases s <;> simp [Symbol.extension?, Ne.symm slash, Ne.symm bar, Ne.symm equal]

/-- Neighbours without a blank in between are told apart. -/
theorem stops_of_adjoins {token next : Token} (adjoins : token.adjoins next = true) (rest : List Char) :
    token.Stops (next.spelling ++ rest) := by
  unfold Token.adjoins at adjoins
  split at adjoins
  case h_1 | h_2 | h_3 | h_4 => exact fun _ _ => nofun
  case h_5 | h_6 | h_7 | h_8 | h_9 => exact stops_cons (by decide) (by decide) (by decide) _ _
  case h_10 => cases adjoins
  case h_11 noNumber =>
    intro first member
    cases member
    cases token with
    | number spelling => exact absurd rfl (noNumber spelling)
    | name _ => exact (by decide : continuesName '.' = false)
    | text _ => trivial
    | symbol s => cases s <;> decide
  case h_12 | h_13 | h_14 | h_15 => exact stops_cons (by decide) (by decide) (by decide) _ _
  case h_16 => cases adjoins

/-- Wherever it starts, the text is read as the tokens. -/
def Spells (text : List Char) (spelled : List Token) : Prop :=
  ∀ offset, ∃ placed, tokensFrom offset text = .ok placed ∧ placed.map Prod.fst = spelled

namespace Spells

variable {rest : List Char} {token : Token} {spelled : List Token}

theorem nil : Spells [] [] :=
  fun offset => ⟨[], tokensFrom_nil offset, rfl⟩

theorem blank {c : Char} (isBlank : Text.isBlank c = true) (later : Spells rest spelled) :
    Spells (c :: rest) spelled := by
  intro offset
  rw [tokensFrom_of_isBlank isBlank]
  exact later _

theorem cons {c : Char} {cs : List Char} (solid : Text.isBlank c = false)
    (found : tokenAt? c (cs ++ rest) = some (token, cs.length)) (later : Spells rest spelled) :
    Spells (c :: cs ++ rest) (token :: spelled) := by
  intro offset
  obtain ⟨placed, read, same⟩ := later (offset + Text.byteLength (c :: cs))
  refine ⟨(token, offset) :: placed, ?_, by rw [List.map_cons, same]⟩
  rw [List.cons_append, tokensFrom_of_tokenAt? solid found, List.take_left, List.drop_left, read]
  rfl

/-- A token at the front of a text is read, and then what follows. -/
theorem spelling (proper : token.IsProper) (stops : token.Stops rest) (later : Spells rest spelled) :
    Spells (token.spelling ++ rest) (token :: spelled) := by
  obtain ⟨c, cs, written, solid, found⟩ := tokenAt?_spelling proper stops
  rw [written]
  exact cons solid found later

theorem single (proper : token.IsProper) : Spells token.spelling [token] := by
  have whole := spelling proper (stops_nil token) nil
  rwa [List.append_nil] at whole

end Spells

theorem layout_cons (token : Token) (rest : List Token) :
    ∃ more, layout (token :: rest) = token.spelling ++ more := by
  cases rest with
  | nil => exact ⟨[], (List.append_nil _).symm⟩
  | cons next rest => exact ⟨_, List.append_assoc _ _ _⟩

/-- Tokens are read back from their layout. -/
theorem spells_layout {written : List Token} (proper : ∀ token ∈ written, token.IsProper) :
    Spells (layout written) written := by
  fun_induction layout written with
  | case1 => exact .nil
  | case2 token => exact .single (proper token List.mem_cons_self)
  | case3 token next rest ih =>
    obtain ⟨first, others⟩ := List.forall_mem_cons.mp proper
    by_cases adjoins : token.adjoins next = true
    · obtain ⟨behindNext, begins⟩ := layout_cons next rest
      have stops := stops_of_adjoins adjoins behindNext
      rw [← begins] at stops
      rw [if_pos adjoins, List.append_nil]
      exact .spelling first stops (ih others)
    · rw [if_neg adjoins, List.append_assoc, List.singleton_append]
      exact .spelling first (stops_cons (by decide) (by decide) (by decide) token _)
        (.blank (by decide) (ih others))

end ConfigWeave.Expr
