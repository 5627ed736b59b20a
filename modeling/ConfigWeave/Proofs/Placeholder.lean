import ConfigWeave.Interpolation
import ConfigWeave.Proofs.Expr.Balance
import ConfigWeave.Proofs.Expr.Warnings

namespace ConfigWeave

/-- A scan gets from one state to another over a part of a text without meeting the closing delimiter. -/
def Pattern.Passes (p : Pattern) (start : Nesting) (part : List Char) (stop : Nesting) : Prop :=
  ∀ rest, p.closeFrom? start (part ++ rest) =
    (p.closeFrom? stop rest).map fun (source, after) => (part ++ source, after)

/-- A character that means nothing to a scan outside of quotes. -/
def IsInert (c : Char) : Prop :=
  c ≠ '\'' ∧ c ≠ '"' ∧ c ≠ '\x7b' ∧ c ≠ '\x7d'

namespace Pattern

theorem Passes.nil (p : Pattern) (nesting : Nesting) : p.Passes nesting [] nesting := by
  intro rest
  rw [List.nil_append]
  cases p.closeFrom? nesting rest <;> rfl

theorem Passes.append {p : Pattern} {start middle stop : Nesting} {part more : List Char}
    (first : p.Passes start part middle) (second : p.Passes middle more stop) :
    p.Passes start (part ++ more) stop := by
  intro rest
  rw [List.append_assoc, first, second, Option.map_map]
  congr 1
  funext ⟨source, after⟩
  simp

theorem Passes.cons {c : Char} {start stop : Nesting} {part : List Char} (goesOn : start ≠ .open 0 ∨ c ≠ '\x7d')
    (passes : Pattern.default.Passes (start.step .default c) part stop) :
    Pattern.default.Passes start (c :: part) stop := by
  intro rest
  have noEnd : ¬(start = .open 0 ∧ Pattern.default.closing.isPrefixOf (c :: (part ++ rest)) = true) := by
    rintro ⟨outside, closes⟩
    rcases goesOn with inside | other
    · exact inside outside
    · have last : '\x7d' = c := by simpa [Pattern.default] using closes
      exact other last.symm
  rw [List.cons_append, closeFrom?, if_neg noEnd, passes, Option.map_map]
  rfl

theorem Passes.inert {part : List Char} (inert : ∀ c ∈ part, IsInert c) (depth : Nat) :
    Pattern.default.Passes (.open depth) part (.open depth) := by
  induction part with
  | nil => exact .nil _ _
  | cons c rest ih =>
    obtain ⟨noSingle, noDouble, noOpen, noClose⟩ := inert c List.mem_cons_self
    have stays : Nesting.step .default c (.open depth) = .open depth := by
      simp [Nesting.step, Pattern.closer, Pattern.opener, Pattern.default, noSingle, noDouble, noOpen, noClose]
    refine .cons (.inr noClose) ?_
    rw [stays]
    exact ih fun other member => inert other (List.mem_cons_of_mem _ member)

/-- The scan leaves a string where the lexer does. -/
theorem Passes.quoted {quote : Char} {rest content : List Char} {n : Nat}
    (found : Expr.quoted? quote rest = some (content, n)) (proper : quote ≠ '\\') (depth : Nat) :
    Pattern.default.Passes (.quoted quote depth) (rest.take n) (.open depth) := by
  fun_induction Expr.quoted? quote rest generalizing content n with
  | case1 => cases found
  | case2 => cases found
  | case3 escaped rest ih =>
    obtain ⟨⟨inner, m⟩, later, eq⟩ := Option.map_eq_some_iff.mp found
    cases eq
    exact .cons (.inl (by simp)) (.cons (.inl (by simp [Nesting.step])) (ih later))
  | case4 rest _ _ =>
    cases found
    refine .cons (.inl (by simp)) ?_
    simp only [Nesting.step, proper, if_true, if_false]
    exact .nil _ _
  | case5 c rest atEnd within other ih =>
    obtain ⟨⟨inner, m⟩, later, eq⟩ := Option.map_eq_some_iff.mp found
    cases eq
    -- A backslash would have been read as an escape, with or without a character behind it.
    have plain : c ≠ '\\' := by
      rintro rfl
      cases rest with
      | nil => exact atEnd rfl rfl
      | cons escaped rest => exact within escaped rest rfl rfl
    refine .cons (.inl (by simp)) ?_
    simp only [Nesting.step, plain, other, if_false]
    exact ih later

end Pattern

namespace Expr

theorem isInert_of_isNumeral {c : Char} (numeral : isNumeral c = true) : IsInert c := by
  refine ⟨?_, ?_, ?_, ?_⟩ <;> rintro rfl <;> cases numeral

theorem isInert_of_continuesName {c : Char} (continues : continuesName c = true) : IsInert c := by
  refine ⟨?_, ?_, ?_, ?_⟩ <;> rintro rfl <;> revert continues <;> decide

theorem inert_take_numerals (text : List Char) :
    ∀ c ∈ text.take (text.takeWhile isNumeral).length, IsInert c := by
  intro c member
  rw [← List.prefix_iff_eq_take.mp (List.takeWhile_prefix isNumeral)] at member
  exact isInert_of_isNumeral (List.all_eq_true.mp List.all_takeWhile c member)

theorem inert_take_numeralLength (text : List Char) : ∀ c ∈ text.take (numeralLength text), IsInert c := by
  intro c member
  cases text with
  | nil => cases member
  | cons first rest =>
    simp only [numeralLength] at member
    split at member
    · rename_i digit
      rcases List.mem_cons.mp member with rfl | later
      · exact isInert_of_isNumeral (by simp [isNumeral, digit])
      · exact inert_take_numerals rest c later
    · cases member

theorem inert_take_fractionLength (text : List Char) : ∀ c ∈ text.take (fractionLength text), IsInert c := by
  intro c member
  unfold fractionLength at member
  split at member
  · rename_i rest
    split at member
    · cases member
    · rename_i n length
      rcases List.mem_cons.mp member with rfl | later
      · exact ⟨by decide, by decide, by decide, by decide⟩
      · rw [show n + 1 = numeralLength rest from length.symm] at later
        exact inert_take_numeralLength rest c later
  · cases member

theorem inert_take_exponentLength (text : List Char) : ∀ c ∈ text.take (exponentLength text), IsInert c := by
  intro c member
  unfold exponentLength at member
  split at member
  · rename_i e rest
    split at member
    · rename_i mark
      have inertMark : IsInert e := by
        rcases (by simpa using mark : e = 'e' ∨ e = 'E') with rfl | rfl <;>
          exact ⟨by decide, by decide, by decide, by decide⟩
      split at member
      all_goals
        split at member
        · cases member
        · rcases List.mem_cons.mp member with rfl | later
          · exact inertMark
          · first
              | exact inert_take_numeralLength _ c later
              | rcases List.mem_cons.mp later with rfl | digit
                · exact ⟨by decide, by decide, by decide, by decide⟩
                · exact inert_take_numeralLength _ c digit
    · cases member
  · cases member

theorem inert_take_numberLength (text : List Char) : ∀ c ∈ text.take (numberLength text), IsInert c := by
  intro c member
  simp only [numberLength, List.take_add, List.mem_append] at member
  rcases member with (whole | fraction) | exponent
  · exact inert_take_numerals text c whole
  · exact inert_take_fractionLength _ c fraction
  · exact inert_take_exponentLength _ c exponent

/-- The scan counts the braces that are symbols. -/
theorem passes_symbolAt? {c : Char} {rest : List Char} {symbol : Symbol} {n depth behind : Nat}
    (found : symbolAt? c rest = some (symbol, n)) (braces : (Token.symbol symbol).braces? depth = some behind) :
    Pattern.default.Passes (.open depth) (c :: rest.take n) (.open behind) := by
  have inertPair {a b : Char} (first : IsInert a) (second : IsInert b) (d : Nat) (tail : List Char) :
      Pattern.default.Passes (.open d) (a :: (b :: tail).take 1) (.open d) :=
    .inert (by simp [first, second]) d
  have inertSingle {a : Char} (single : IsInert a) (d : Nat) (tail : List Char) :
      Pattern.default.Passes (.open d) (a :: tail.take 0) (.open d) :=
    .inert (by simp [single]) d
  unfold symbolAt? at found
  split at found
  all_goals cases found
  case h_12 =>
    cases braces
    exact .cons (.inr (by decide)) (.nil _ _)
  case h_13 =>
    simp only [Token.braces?] at braces
    split at braces
    · cases braces
    · rename_i positive
      cases braces
      exact .cons (.inl (by simpa using positive)) (.nil _ _)
  all_goals
    cases braces
    first
      | exact inertPair (by simp [IsInert]) (by simp [IsInert]) depth _
      | exact inertSingle (by simp [IsInert]) depth rest

theorem passes_tokenAt? {c : Char} {rest : List Char} {token : Token} {n depth behind : Nat}
    (found : tokenAt? c rest = some (token, n)) (braces : token.braces? depth = some behind) :
    Pattern.default.Passes (.open depth) (c :: rest.take n) (.open behind) := by
  unfold tokenAt? at found
  split at found
  · rename_i digit
    cases found
    cases braces
    refine .inert (List.forall_mem_cons.mpr ⟨?_, inert_take_numberLength rest⟩) depth
    exact isInert_of_isNumeral (by simp [isNumeral, digit])
  · split at found
    · rename_i quote
      obtain ⟨⟨content, m⟩, closed, eq⟩ := Option.map_eq_some_iff.mp found
      cases eq
      cases braces
      have isQuote : c = '\'' ∨ c = '"' := by simpa using quote
      have proper : c ≠ '\\' := by rcases isQuote with rfl | rfl <;> decide
      refine .cons (.inr (by rcases isQuote with rfl | rfl <;> decide)) ?_
      simp only [Nesting.step, if_pos isQuote]
      exact .quoted closed proper depth
    · split at found
      · rename_i starts
        cases found
        cases braces
        have taken := List.prefix_iff_eq_take.mp (List.takeWhile_prefix (l := rest) continuesName)
        rw [← taken]
        refine .inert (List.forall_mem_cons.mpr ⟨?_, fun other member => ?_⟩) depth
        · refine isInert_of_continuesName ?_
          simp only [startsName, Bool.or_eq_true] at starts
          simp only [continuesName, Text.isAlphanumeric, Bool.or_eq_true]
          exact starts.imp_left .inl
        · exact isInert_of_continuesName (List.all_eq_true.mp List.all_takeWhile other member)
      · obtain ⟨⟨symbol, m⟩, read, eq⟩ := Option.map_eq_some_iff.mp found
        cases eq
        exact passes_symbolAt? read braces

/-- The scan gets over all that the lexer reads, and comes to stand below as many braces as the tokens leave
open. -/
theorem passes_tokensFrom {offset depth behind : Nat} {text : List Char} {read : List (Token × Nat)}
    (scanned : tokensFrom offset text = .ok read) (braces : bracesBehind? depth read = some behind) :
    Pattern.default.Passes (.open depth) text (.open behind) := by
  fun_induction tokensFrom offset text generalizing depth read with
  | case1 offset =>
    cases scanned
    cases braces
    exact .nil _ _
  | case2 offset c rest blank ih =>
    have inert : IsInert c := by
      refine ⟨?_, ?_, ?_, ?_⟩ <;> rintro rfl <;> revert blank <;> decide
    have passes := Pattern.Passes.inert (List.forall_mem_singleton.mpr inert) depth
    exact passes.append (ih scanned braces)
  | case3 offset c rest notBlank token n found next =>
    rename_i ih
    cases later : tokensFrom next (rest.drop n) with
    | error e =>
      rw [later] at scanned
      cases scanned
    | ok more =>
      rw [later] at scanned
      cases scanned
      rw [bracesBehind?, List.foldlM_cons] at braces
      obtain ⟨middle, here, behindRest⟩ := Option.bind_eq_some_iff.mp braces
      have whole := (passes_tokenAt? found here).append (ih later behindRest)
      rwa [List.cons_append, List.take_append_drop] at whole
  | case4 => cases scanned
  | case5 => cases scanned
  | case6 => cases scanned

end Expr

/-- An expression that is accepted ends where the scan finds the closing delimiter behind it. -/
theorem Pattern.close?_of_parse {source : List Char} {e : Expr}
    (accepted : Expr.parse (String.ofList source) = .ok e) (after : List Char) :
    Pattern.default.close? (source ++ '\x7d' :: after) = some (source, after) := by
  obtain ⟨read, scanned, balanced⟩ := Expr.bracesBehind?_of_parse accepted
  rw [String.toList_ofList] at scanned
  have passes := Expr.passes_tokensFrom scanned balanced ('\x7d' :: after)
  have ends : Pattern.default.closeFrom? (.open 0) ('\x7d' :: after) = some ([], after) := by
    simp [closeFrom?, Pattern.default]
  rw [close?, passes, ends]
  simp

/-- A placeholder as it is written, with the text in front of it. -/
def Placeholder.text (p : Pattern) (placeholder : Placeholder) : List Char :=
  placeholder.lead ++ p.opening ++ placeholder.source ++ p.closing

/-- The text that is cut into segments. -/
def Segments.text (p : Pattern) (s : Segments) : List Char :=
  s.placeholders.flatMap (Placeholder.text p) ++ s.tail

/-- Placeholders with expressions that are accepted, and in between texts in which no placeholder starts. -/
structure Segments.Proper (s : Segments) : Prop where
  accepted : ∀ placeholder ∈ s.placeholders, ∃ e, Expr.parse (String.ofList placeholder.source) = .ok e
  leads : ∀ placeholder ∈ s.placeholders, ¬Pattern.default.opening <:+: placeholder.lead
  tail : ¬Pattern.default.opening <:+: s.tail

/-- The value of an expression, none if it is undefined or fails, unless its evaluation panics. -/
def valueOf (scope : Scope) (source : List Char) : Except Panic (Option Value) :=
  match (Expr.evaluate scope (String.ofList source)).result with
  | .ok v => .ok v
  | .error (.panicked cause) => .error cause
  | .error _ => .ok none

/-- The value of an expression, if there is one. -/
def valueOf? (scope : Scope) (source : List Char) : Option Value :=
  (valueOf scope source).toOption.join

theorem valueOf?_of_ok {scope : Scope} {source : List Char} {v : Option Value}
    (given : valueOf scope source = .ok v) :
    valueOf? scope source = v := by
  rw [valueOf?, given]
  rfl

/-- What a placeholder amounts to in a text. -/
def Placeholder.spliced (scope : Scope) (placeholder : Placeholder) : Except Panic (List Char) := do
  return placeholder.lead ++ (((← valueOf scope placeholder.source).map Value.display).getD "").toList

namespace Pattern

/-- The start of a placeholder is found behind a text that has none. It cannot overlap with that text. -/
theorem splitFirst_opening {lead : List Char} (plain : ¬Pattern.default.opening <:+: lead) (rest : List Char) :
    Text.splitFirst Pattern.default.opening (lead ++ Pattern.default.opening ++ rest) = some (lead, rest) := by
  induction lead with
  | nil => simp [Text.splitFirst, Pattern.default]
  | cons c more ih =>
    have later := ih fun inside => plain (List.infix_cons inside)
    have noStart : Pattern.default.opening.isPrefixOf (c :: (more ++ Pattern.default.opening ++ rest)) = false := by
      rw [Bool.eq_false_iff]
      intro starts
      cases more with
      | nil => simp [Pattern.default] at starts
      | cons next others =>
        obtain ⟨rfl, rfl⟩ : '$' = c ∧ '\x7b' = next := by simpa [Pattern.default] using starts
        exact plain ⟨[], others, rfl⟩
    rw [List.cons_append, List.cons_append, Text.splitFirst, if_neg (by rw [noStart]; decide), later]
    rfl

theorem segments_of_not_infix {p : Pattern} {text : List Char} (plain : ¬p.opening <:+: text) :
    p.segments text = ⟨[], text⟩ := by
  unfold segments
  split
  · rfl
  · rename_i found
    rw [Text.splitFirst_eq_none plain] at found
    cases found

theorem segments_placeholder {placeholder : Placeholder} (plain : ¬Pattern.default.opening <:+: placeholder.lead)
    (accepted : ∃ e, Expr.parse (String.ofList placeholder.source) = .ok e) (after : List Char) :
    Pattern.default.segments (placeholder.text .default ++ after) =
      ⟨placeholder :: (Pattern.default.segments after).placeholders, (Pattern.default.segments after).tail⟩ := by
  obtain ⟨e, accepted⟩ := accepted
  have closed := close?_of_parse accepted after
  have text : placeholder.text .default ++ after =
      placeholder.lead ++ Pattern.default.opening ++ (placeholder.source ++ '\x7d' :: after) := by
    simp [Placeholder.text, Pattern.default]
  have opened := splitFirst_opening plain (placeholder.source ++ '\x7d' :: after)
  rw [← text] at opened
  rw [segments]
  split
  · rename_i none
    rw [opened] at none
    cases none
  · rename_i lead inner found
    rw [opened] at found
    cases found
    split
    · rename_i none
      rw [closed] at none
      cases none
    · rename_i source behind found
      rw [closed] at found
      cases found
      rfl

/-- The scan finds the placeholders of a text where they were put. -/
theorem segments_text {s : Segments} (proper : s.Proper) : Pattern.default.segments (s.text .default) = s := by
  obtain ⟨placeholders, tail⟩ := s
  obtain ⟨accepted, leads, noTail⟩ := proper
  induction placeholders with
  | nil => exact segments_of_not_infix noTail
  | cons first rest ih =>
    have later := ih (fun other member => accepted other (List.mem_cons_of_mem _ member))
      (fun other member => leads other (List.mem_cons_of_mem _ member)) noTail
    have whole := segments_placeholder (leads first List.mem_cons_self) (accepted first List.mem_cons_self)
      (Segments.text .default ⟨rest, tail⟩)
    rw [later] at whole
    simpa only [Segments.text, List.flatMap_cons, List.append_assoc] using whole

end Pattern

/-- A placeholder starts behind all that is written in front of it, and ends behind its closing delimiter. -/
theorem Segments.getElem?_spansFrom (p : Pattern) (offset : Nat) (placeholders : List Placeholder) (i : Nat) :
    (spansFrom p offset placeholders)[i]? = placeholders[i]?.map fun placeholder =>
      let start := offset + Text.byteLength (Segments.text p ⟨placeholders.take i, placeholder.lead⟩)
      (start, start + Text.byteLength (p.opening ++ placeholder.source ++ p.closing), placeholder.source) := by
  induction placeholders generalizing offset i with
  | nil => rfl
  | cons first rest ih =>
    cases i with
    | zero => simp [spansFrom, Segments.text]
    | succ i =>
      simp only [spansFrom, List.getElem?_cons_succ, ih, Segments.text, List.take_succ_cons, List.flatMap_cons,
        Placeholder.text, Text.byteLength_append]
      congr 1
      funext placeholder
      simp only [Prod.mk.injEq, and_true]
      omega

theorem Expr.tokensFrom_of_blank {text : List Char} (blank : ∀ c ∈ text, Text.isBlank c = true) (offset : Nat) :
    tokensFrom offset text = .ok [] := by
  induction text generalizing offset with
  | nil => exact tokensFrom_nil offset
  | cons c rest ih =>
    rw [tokensFrom_of_isBlank (blank c List.mem_cons_self)]
    exact ih (fun other member => blank other (List.mem_cons_of_mem _ member)) _

theorem result_evaluateLogged (scope : Scope) (source : List Char) :
    (evaluateLogged scope (String.ofList source)).result = valueOf scope source := by
  unfold evaluateLogged valueOf
  split
  · rename_i blank
    have none : Expr.parse (String.ofList source) = .error (.malformed (String.ofList source).utf8ByteSize) := by
      have empty : Expr.tokensFrom 0 source = .ok [] :=
        Expr.tokensFrom_of_blank (by simpa [String.isBlank] using blank) 0
      simp [Expr.parse, Expr.tokens, empty, Expr.run, bind, Except.bind, Expr.State.finish?]
    simp only [Expr.evaluate_eq, none, Traced.lift, Traced.bind_error]
    rfl
  · dsimp only
    cases (Expr.evaluate scope (String.ofList source)).result with
    | ok v => rfl
    | error e => cases e <;> rfl

theorem result_spliceValues (scope : Scope) (tail : List Char) (placeholders : List Placeholder) :
    (spliceValues scope tail placeholders).result =
      (placeholders.mapM (Placeholder.spliced scope)).map fun parts => parts.flatten ++ tail := by
  induction placeholders with
  | nil => rfl
  | cons first rest ih =>
    simp only [List.mapM_cons, spliceValues, Traced.result_bind, result_evaluateLogged, ih, Placeholder.spliced,
      bind_assoc]
    cases valueOf scope first.source with
    | error cause => rfl
    | ok v =>
      cases rest.mapM (Placeholder.spliced scope) with
      | error cause => rfl
      | ok parts => exact congrArg Except.ok (List.append_assoc _ _ _).symm

/-- The scan for placeholders agrees with the language of expressions. Whatever expressions are put into a text, it
finds them at their places and nothing else. So the text comes out as the value of its one placeholder if there is
nothing beside it, and else as the texts with the values in between, unless one of the expressions panics. -/
theorem interpolate_text {s : Segments} (proper : s.Proper) :
    let text := String.ofList (s.text .default)
    Pattern.default.segments text.toList = s ∧
      (∀ i, ((Pattern.default.segments text.toList).spans .default)[i]? = s.placeholders[i]?.map fun placeholder =>
        let start := Text.byteLength (Segments.text .default ⟨s.placeholders.take i, placeholder.lead⟩)
        (start, start + Text.byteLength (['$', '\x7b'] ++ placeholder.source ++ ['\x7d']), placeholder.source)) ∧
      ∀ scope,
        (s.placeholders = [] → (interpolate .default scope text).result = .ok none) ∧
        (∀ source, s = ⟨[⟨[], source⟩], []⟩ →
          (interpolate .default scope text).result = (valueOf scope source).map fun v => some (v.getD .null)) ∧
        (s.placeholders ≠ [] → (∀ source, s ≠ ⟨[⟨[], source⟩], []⟩) → (interpolate .default scope text).result =
          (s.placeholders.mapM (Placeholder.spliced scope)).map fun parts =>
            some (.str (String.ofList (parts.flatten ++ s.tail)))) := by
  intro text
  have cut : Pattern.default.segments text.toList = s := by
    rw [String.toList_ofList]
    exact Pattern.segments_text proper
  refine ⟨cut, fun i => ?_, fun scope => ⟨fun none => ?_, fun source single => ?_, fun some other => ?_⟩⟩
  · rw [cut, Segments.spans, Segments.getElem?_spansFrom]
    simp only [Nat.zero_add, Pattern.default]
  · obtain ⟨placeholders, tail⟩ := s
    cases none
    simp only [interpolate, cut]
    rfl
  · subst single
    simp only [interpolate, cut, Traced.result_bind, result_evaluateLogged]
    cases valueOf scope source <;> rfl
  · simp only [interpolate, cut]
    split
    · exact absurd rfl some
    · exact absurd rfl (other _)
    · rename_i placeholders tail _ _
      rw [Traced.result_bind, result_spliceValues]
      cases placeholders.mapM (Placeholder.spliced scope) <;> rfl

theorem interpolate_quotedBraces :
    let source := "\x7b'\x7d': \"'\"\x7d['\x7d'] | default('\\'\x7d')".toList
    let s : Segments := ⟨[⟨"$".toList, source⟩, ⟨"\x7d ".toList, "1 + 1".toList⟩], "$".toList⟩
    s.Proper ∧ Pattern.default.segments (String.ofList (s.text .default)).toList = s ∧
      (interpolate .default .empty (String.ofList (s.text .default))).result = .ok (some (.str "$'\x7d 2$")) := by
  intro source s
  have accepts {text : List Char} (accepted : (Expr.parse (String.ofList text)).isOk = true) :
      ∃ e, Expr.parse (String.ofList text) = .ok e := by
    cases result : Expr.parse (String.ofList text) with
    | ok e => exact ⟨e, rfl⟩
    | error e => simp [result, Except.isOk, Except.toBool] at accepted
  have proper : s.Proper := by
    refine ⟨?_, ?_, ?_⟩
    · simp only [s, List.forall_mem_cons]
      exact ⟨accepts (by decide +kernel), accepts (by decide +kernel), by simp⟩
    · decide
    · decide
  obtain ⟨cut, _, values⟩ := interpolate_text proper
  refine ⟨proper, cut, ?_⟩
  obtain ⟨parts, given, spliced⟩ := exists_ok_of_any (x := s.placeholders.mapM (Placeholder.spliced .empty))
    (p := fun parts => parts.flatten ++ s.tail == "$'\x7d 2$".toList) (by decide +kernel)
  rw [(values .empty).2.2 (by simp [s]) (by simp [s]), given, Except.map, eq_of_beq spliced, String.ofList_toList]

end ConfigWeave
