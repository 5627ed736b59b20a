import ConfigWeave.Proofs.Placeholder

namespace ConfigWeave

namespace Text

/-- A text cut behind a number of bytes. It cannot be cut within a character, nor behind its end. -/
def cutAt? : Nat → List Char → Option (List Char × List Char)
  | 0, text => some ([], text)
  | _ + 1, [] => none
  | n + 1, c :: rest =>
    if c.utf8Size ≤ n + 1 then
      (cutAt? (n + 1 - c.utf8Size) rest).map fun (before, after) => (c :: before, after)
    else none

/-- The text from a place on. -/
def from? (text : List Char) (start : Nat) : Option (List Char) :=
  (cutAt? start text).map (·.2)

/-- The text between two places. -/
def slice? (text : List Char) (start stop : Nat) : Option (List Char) := do
  let rest ← from? text start
  if start ≤ stop then (cutAt? (stop - start) rest).map (·.1) else none

/-- The place at which a text first contains another. -/
def find? (needle text : List Char) : Option Nat :=
  (splitFirst needle text).map fun (before, _) => byteLength before

theorem byteLength_pos {text : List Char} (proper : text ≠ []) : 0 < byteLength text := by
  obtain ⟨c, rest, rfl⟩ := List.exists_cons_of_ne_nil proper
  exact Nat.add_pos_left c.utf8Size_pos _

/-- A text can be cut behind each of its beginnings. -/
theorem cutAt?_append (front rest : List Char) :
    cutAt? (byteLength front) (front ++ rest) = some (front, rest) := by
  induction front with
  | nil =>
    rw [byteLength, List.nil_append]
    cases rest <;> rfl
  | cons c more ih =>
    obtain ⟨n, size⟩ := Nat.exists_eq_add_one.mpr (byteLength_pos (List.cons_ne_nil c more))
    have left : n + 1 - c.utf8Size = byteLength more := by
      rw [← size, byteLength]
      omega
    have fits : c.utf8Size ≤ n + 1 := by
      rw [← size, byteLength]
      omega
    rw [size, List.cons_append, cutAt?, if_pos fits, left, ih]
    rfl

theorem byteLength_of_cutAt? {n : Nat} {text before after : List Char}
    (cut : cutAt? n text = some (before, after)) :
    byteLength before = n ∧ before ++ after = text := by
  fun_induction cutAt? n text generalizing before with
  | case1 =>
    cases cut
    exact ⟨rfl, rfl⟩
  | case2 => cases cut
  | case3 n c rest fits ih =>
    obtain ⟨⟨inner, last⟩, found, same⟩ := Option.map_eq_some_iff.mp cut
    cases same
    obtain ⟨size, whole⟩ := ih found
    refine ⟨?_, congrArg (c :: ·) whole⟩
    rw [byteLength, size]
    omega
  | case4 => cases cut

/-- Where a text can be cut, it has not ended yet. -/
theorem le_byteLength_of_from? {text rest : List Char} {start : Nat} (cut : from? text start = some rest) :
    start ≤ byteLength text := by
  obtain ⟨⟨before, after⟩, found, _⟩ := Option.map_eq_some_iff.mp cut
  obtain ⟨size, whole⟩ := byteLength_of_cutAt? found
  rw [← size, ← whole, byteLength_append]
  exact Nat.le_add_right _ _

theorem from?_append (front rest : List Char) : from? (front ++ rest) (byteLength front) = some rest := by
  rw [from?, cutAt?_append]
  rfl

theorem slice?_append (front part rest : List Char) :
    slice? (front ++ part ++ rest) (byteLength front) (byteLength front + byteLength part) = some part := by
  rw [slice?, List.append_assoc, from?_append]
  simp only [Option.bind_eq_bind, Option.bind_some, Nat.le_add_right, if_true, Nat.add_sub_cancel_left,
    cutAt?_append, Option.map_some]

variable {needle text before after : List Char}

/-- Whatever contains a text is split at it. -/
theorem not_infix_of_splitFirst_none (missing : splitFirst needle text = none) : ¬needle <:+: text := by
  rintro ⟨a, b, rfl⟩
  induction a with
  | nil =>
    cases needle with
    | nil => cases b <;> simp [splitFirst] at missing
    | cons c rest => simp [splitFirst] at missing
  | cons c rest ih =>
    simp only [List.cons_append, splitFirst] at missing
    split at missing
    · cases missing
    · exact ih (Option.map_eq_none_iff.mp missing)

/-- A text is split where it first contains another. -/
theorem length_le_of_splitFirst (found : splitFirst needle text = some (before, after)) {a b : List Char}
    (occurs : text = a ++ needle ++ b) : before.length ≤ a.length := by
  induction text generalizing before a with
  | nil =>
    have whole := splitFirst_eq_append found
    have empty : before =
      [] := by simpa using (List.append_eq_nil_iff.mp (List.append_eq_nil_iff.mp whole.symm).1).1
    rw [empty]
    exact Nat.zero_le _
  | cons c rest ih =>
    simp only [splitFirst] at found
    split at found
    · cases found
      exact Nat.zero_le _
    · rename_i noStart
      obtain ⟨⟨inner, last⟩, later, same⟩ := Option.map_eq_some_iff.mp found
      cases same
      cases a with
      | nil =>
        refine absurd ?_ noStart
        rw [occurs]
        simp
      | cons d more =>
        obtain ⟨rfl, tail⟩ := List.cons.inj occurs
        have bound := ih later tail
        simpa using bound

theorem not_infix_of_splitFirst (found : splitFirst needle text = some (before, after)) (proper : needle ≠ []) :
    ¬needle <:+: before := by
  rintro ⟨a, b, inside⟩
  have whole := splitFirst_eq_append found
  have bound := length_le_of_splitFirst found (a := a) (b := b ++ needle ++ after) (by
    rw [whole, ← inside]
    simp only [List.append_assoc])
  have size := congrArg List.length inside
  have positive := List.length_pos_iff.mpr proper
  simp only [List.length_append] at size
  omega

end Text

namespace Pattern

/-- Whether the closing delimiter stands at a place. Within quotes and brackets the text is not looked at. -/
def closesAt? (p : Pattern) (text : List Char) (nesting : Nesting) (index : Nat) : Option Bool :=
  if nesting = .open 0 then (Text.from? text index).map p.closing.isPrefixOf else some false

/-- The place of the closing delimiter that stands outside of quotes and brackets. What is left of the text starts
at `index`. -/
def closingFrom? (p : Pattern) (text : List Char) (nesting : Nesting) (index : Nat) :
    List Char → Option (Option Nat)
  | [] => some none
  | c :: rest => do
    if ← p.closesAt? text nesting index then return some index
    else closingFrom? p text (nesting.step p c) (index + c.utf8Size) rest

/-- As `closingFrom?`. Where quotes or brackets stay open, the first closing delimiter counts. -/
def closing? (p : Pattern) (text : List Char) (start : Nat) : Option (Option Nat) := do
  let content ← Text.from? text start
  match ← p.closingFrom? text (.open 0) start content with
  | some stop => return some stop
  | none => return (Text.find? p.closing content).map (start + ·)

/-- The closing delimiter stands behind what opened. -/
theorem le_of_closingFrom? {p : Pattern} {text rest : List Char} {nesting : Nesting} {index stop : Nat}
    (closes : p.closingFrom? text nesting index rest = some (some stop)) : index ≤ stop := by
  induction rest generalizing nesting index with
  | nil => cases closes
  | cons c rest ih =>
    obtain ⟨ends, _, closes⟩ := Option.bind_eq_some_iff.mp closes
    cases ends with
    | true =>
      cases closes
      exact Nat.le_refl _
    | false => exact Nat.le_trans (Nat.le_add_right _ _) (ih closes)

theorem le_of_closing? {p : Pattern} {text : List Char} {start stop : Nat}
    (closes : p.closing? text start = some (some stop)) : start ≤ stop := by
  obtain ⟨content, _, closes⟩ := Option.bind_eq_some_iff.mp closes
  obtain ⟨nested, found, closes⟩ := Option.bind_eq_some_iff.mp closes
  cases nested with
  | some place =>
    cases closes
    exact le_of_closingFrom? found
  | none =>
    obtain ⟨relative, _, rfl⟩ := Option.map_eq_some_iff.mp (Option.some.inj closes)
    exact Nat.le_add_right _ _

/-- Looks for placeholders from a place on, by places in bytes. This comes to nothing if the text is cut where it
cannot be. -/
def scanFrom? (p : Pattern) (text : List Char) (position : Nat) : Option (List (Nat × Nat × List Char)) :=
  match _ : Text.from? text position with
  | none => none
  | some rest =>
    match Text.find? p.opening rest with
    | none => some []
    | some relative =>
      let start := position + relative
      let contentStart := start + Text.byteLength p.opening
      match _ : p.closing? text contentStart with
      | none => none
      | some none => some []
      | some (some contentStop) =>
        let stop := contentStop + Text.byteLength p.closing
        match Text.slice? text contentStart contentStop with
        | none => none
        | some source => (p.scanFrom? text stop).map ((start, stop, source) :: ·)
termination_by Text.byteLength text + 1 - position
decreasing_by
  have inside := Text.le_byteLength_of_from? (by assumption)
  have behind := le_of_closing? (by assumption)
  have positive := Text.byteLength_pos p.closing_ne_nil
  omega

variable (p : Pattern)

/-- What the cut finds, the search finds at its place. The text is never cut within a character, as the place goes
along with the characters. -/
theorem closingFrom?_append (front rest : List Char) (nesting : Nesting) :
    p.closingFrom? (front ++ rest) nesting (Text.byteLength front) rest =
      some ((p.closeFrom? nesting rest).map fun parts => Text.byteLength front + Text.byteLength parts.1) := by
  induction rest generalizing front nesting with
  | nil => rfl
  | cons c rest ih =>
    have closes : p.closesAt? (front ++ c :: rest) nesting (Text.byteLength front) =
        some (decide (nesting = .open 0) && p.closing.isPrefixOf (c :: rest)) := by
      rw [closesAt?, Text.from?_append]
      split <;> simp [*]
    have further := ih (front ++ [c]) (nesting.step p c)
    have place : Text.byteLength (front ++ [c]) = Text.byteLength front + c.utf8Size := by
      rw [Text.byteLength_append, Text.byteLength, Text.byteLength, Nat.add_zero]
    rw [List.append_assoc, List.singleton_append, place] at further
    rw [closingFrom?, closes, closeFrom?]
    by_cases here : nesting = .open 0 ∧ p.closing.isPrefixOf (c :: rest) = true
    · simp [here, Text.byteLength]
    · have goesOn : (decide (nesting = .open 0) && p.closing.isPrefixOf (c :: rest)) = false := by
        rw [Bool.eq_false_iff]
        intro ends
        exact here (by simpa using ends)
      rw [if_neg here, goesOn]
      simp only [Option.bind_eq_bind, Option.bind_some, Bool.false_eq_true, if_false, further, Option.map_map]
      congr 2
      funext parts
      simp only [Function.comp_apply, Text.byteLength]
      omega

theorem closing?_append (front rest : List Char) : p.closing? (front ++ rest) (Text.byteLength front) =
    some ((p.close? rest).map fun parts => Text.byteLength front + Text.byteLength parts.1) := by
  rw [closing?, Text.from?_append, close?]
  simp only [Option.bind_eq_bind, Option.bind_some, closingFrom?_append]
  cases p.closeFrom? (.open 0) rest with
  | some parts => rfl
  | none =>
    simp only [Option.map_none, Text.find?, Option.map_map, Option.orElse_eq_orElse, Option.orElse_eq_or,
      Option.none_or]
    rfl

/-- The search step by step, where what comes to nothing ends it. -/
theorem scanFrom?_eq (text : List Char) (position : Nat) : p.scanFrom? text position = (do
    let rest ← Text.from? text position
    match Text.find? p.opening rest with
    | none => return []
    | some relative =>
      let start := position + relative
      let contentStart := start + Text.byteLength p.opening
      match ← p.closing? text contentStart with
      | none => return []
      | some contentStop =>
        let source ← Text.slice? text contentStart contentStop
        let stop := contentStop + Text.byteLength p.closing
        return (start, stop, source) :: (← p.scanFrom? text stop)) := by
  rw [scanFrom?]
  split
  · rename_i cut
    rw [cut]
    rfl
  · rename_i rest cut
    rw [cut]
    simp only [Option.bind_eq_bind, Option.bind_some]
    split
    · rfl
    · split
      · rename_i closes
        rw [closes]
        rfl
      · rename_i closes
        rw [closes]
        rfl
      · rename_i closes
        rw [closes]
        simp only [Option.bind_some]
        split
        · rename_i missing
          rw [missing]
          rfl
        · rename_i found
          rw [found]
          exact Option.map_eq_bind

/-- The search by places comes to the places at which the text is cut. So there is a character at every place at
which it cuts the text. -/
theorem scanFrom?_append (front rest : List Char) : p.scanFrom? (front ++ rest) (Text.byteLength front) =
    some (Segments.spansFrom p (Text.byteLength front) (p.segments rest).placeholders) := by
  fun_induction p.segments rest generalizing front with
  | case1 rest missing =>
    have found : Text.find? p.opening rest = none := by rw [Text.find?, missing, Option.map_none]
    rw [scanFrom?_eq, Text.from?_append]
    simp only [Option.bind_eq_bind, Option.bind_some, found]
    rfl
  | case2 rest lead inner opens unclosed =>
    have found : Text.find? p.opening rest = some (Text.byteLength lead) := by
      rw [Text.find?, opens, Option.map_some]
    have closed := p.closing?_append (front ++ lead ++ p.opening) inner
    rw [unclosed, Option.map_none, List.append_assoc, List.append_assoc, ← List.append_assoc lead,
      ← Text.splitFirst_eq_append opens, Text.byteLength_append, Text.byteLength_append] at closed
    rw [scanFrom?_eq, Text.from?_append]
    simp only [Option.bind_eq_bind, Option.bind_some, found, closed]
    rfl
  | case3 rest lead inner opens source after closes others ih =>
    have content : source ++ (p.closing ++ after) = inner := by rw [close?_eq_append closes, List.append_assoc]
    have whole : lead ++ (p.opening ++ inner) = rest := by rw [Text.splitFirst_eq_append opens, List.append_assoc]
    have found : Text.find? p.opening rest = some (Text.byteLength lead) := by
      rw [Text.find?, opens, Option.map_some]
    have closed := p.closing?_append (front ++ lead ++ p.opening) inner
    have cut := Text.slice?_append (front ++ lead ++ p.opening) source (p.closing ++ after)
    have later := ih (front ++ lead ++ p.opening ++ source ++ p.closing)
    rw [closes, Option.map_some] at closed
    simp only [List.append_assoc, content, whole, Text.byteLength_append, Nat.add_assoc] at closed cut later
    rw [scanFrom?_eq, Text.from?_append]
    simp only [Option.bind_eq_bind, Option.bind_some, found, Nat.add_assoc, closed, cut, later]
    simp only [Segments.spansFrom, Text.byteLength_append, Nat.add_assoc]
    rfl

/-- The segments make up the text. -/
theorem text_segments (text : List Char) : (p.segments text).text p = text := by
  fun_induction p.segments text with
  | case1 => rfl
  | case2 => rfl
  | case3 text lead inner opens source after closes rest ih =>
    rw [Text.splitFirst_eq_append opens, close?_eq_append closes]
    simp only [Segments.text, List.flatMap_cons, Placeholder.text, List.append_assoc, List.append_cancel_left_eq]
    exact ih

/-- Nothing opens a placeholder in front of the first one. -/
theorem not_infix_lead (text : List Char) :
    ∀ placeholder ∈ (p.segments text).placeholders, ¬p.opening <:+: placeholder.lead := by
  fun_induction p.segments text with
  | case1 => exact nofun
  | case2 => exact nofun
  | case3 text lead inner opens source after closes rest ih =>
    exact List.forall_mem_cons.mpr ⟨Text.not_infix_of_splitFirst opens p.opening_ne_nil, ih⟩

/-- The search only ends where nothing more can be closed. A later start of a placeholder could not be closed
either, as what follows it also follows the first one. -/
theorem not_infix_tail (text : List Char) {before after : List Char}
    (opens : (p.segments text).tail = before ++ p.opening ++ after) : ¬p.closing <:+: after := by
  fun_induction p.segments text with
  | case1 text missing =>
    exact absurd ⟨before, after, opens.symm⟩ (Text.not_infix_of_splitFirst_none missing)
  | case2 text lead inner found unclosed =>
    have whole := Text.splitFirst_eq_append found
    have first := Text.length_le_of_splitFirst found opens
    have behind : after <:+ inner := by
      have sizes := congrArg List.length (whole.symm.trans opens)
      simp only [List.length_append] at sizes
      exact List.suffix_of_suffix_length_le ⟨_, opens.symm⟩ ⟨_, whole.symm⟩ (by omega)
    have missing : Text.splitFirst p.closing inner = none := by
      rw [close?, Option.orElse_eq_orElse, Option.orElse_eq_or] at unclosed
      exact (Option.or_eq_none_iff.mp unclosed).2
    exact fun closes => Text.not_infix_of_splitFirst_none missing (closes.trans behind.isInfix)
  | case3 text lead inner found source later closes rest ih => exact ih opens

end Pattern

namespace Segments

variable (p : Pattern)

/-- A placeholder stands at its place in the text, whatever is in front of it. -/
theorem exists_of_mem_spansFrom {offset : Nat} {placeholders : List Placeholder} {span : Nat × Nat × List Char}
    (member : span ∈ spansFrom p offset placeholders) (tail : List Char) : ∃ before after,
      text p ⟨placeholders, tail⟩ = before ++ (p.opening ++ span.2.2 ++ p.closing) ++ after ∧
      span.1 = offset + Text.byteLength before ∧
      span.2.1 = span.1 + Text.byteLength (p.opening ++ span.2.2 ++ p.closing) := by
  induction placeholders generalizing offset with
  | nil => cases member
  | cons first rest ih =>
    obtain ⟨lead, source⟩ := first
    rcases List.mem_cons.mp member with rfl | later
    · exact ⟨lead, text p ⟨rest, tail⟩, by simp [text, Placeholder.text], rfl, rfl⟩
    · obtain ⟨before, after, whole, start, stop⟩ := ih later
      refine ⟨Placeholder.text p ⟨lead, source⟩ ++ before, after, ?_, ?_, stop⟩
      · rw [List.append_assoc, List.append_assoc, ← List.append_assoc before, ← whole]
        simp [text]
      · rw [start]
        simp only [Placeholder.text, Text.byteLength_append]
        omega

/-- Each placeholder starts where the one before it ends, or later. -/
theorem pairwise_spansFrom (offset : Nat) (placeholders : List Placeholder) :
    (spansFrom p offset placeholders).Pairwise fun earlier later => earlier.2.1 ≤ later.1 := by
  induction placeholders generalizing offset with
  | nil => exact .nil
  | cons first rest ih =>
    refine List.pairwise_cons.mpr ⟨fun later member => ?_, ih _⟩
    obtain ⟨before, _, _, start, _⟩ := exists_of_mem_spansFrom p member []
    rw [start]
    exact Nat.le_add_right _ _

end Segments

/-- Placeholders partition a text, whatever delimiters they have. The search by places in bytes, which always ends,
never cuts the text within a character or behind its end, and finds them at their places: each one is the
delimiters with its expression in between, and none starts before the end of an earlier one. Together with the
texts between them they are the whole text. Nothing opens a placeholder in a text in front of one, and behind the
last nothing that opens one is followed by what would close it. -/
theorem segments_partition (p : Pattern) (text : List Char) :
    let s := p.segments text
    p.scanFrom? text 0 = some (s.spans p) ∧
      s.text p = text ∧
      (∀ i, (s.spans p)[i]? = s.placeholders[i]?.map fun placeholder =>
        let start := Text.byteLength (Segments.text p ⟨s.placeholders.take i, placeholder.lead⟩)
        (start, start + Text.byteLength (p.opening ++ placeholder.source ++ p.closing), placeholder.source)) ∧
      (∀ start stop source, (start, stop, source) ∈ s.spans p → start < stop ∧ stop ≤ Text.byteLength text ∧
        Text.slice? text start stop = some (p.opening ++ source ++ p.closing)) ∧
      ((s.spans p).Pairwise fun earlier later => earlier.2.1 ≤ later.1) ∧
      (∀ placeholder ∈ s.placeholders, ¬p.opening <:+: placeholder.lead) ∧
      ∀ before after, s.tail = before ++ p.opening ++ after → ¬p.closing <:+: after := by
  intro s
  have whole : s.text p = text := p.text_segments text
  refine ⟨p.scanFrom?_append [] text, whole, fun i => ?_, fun start stop source member => ?_,
    Segments.pairwise_spansFrom p 0 s.placeholders, p.not_infix_lead text, fun _ _ => p.not_infix_tail text⟩
  · rw [Segments.spans, Segments.getElem?_spansFrom]
    simp only [Nat.zero_add]
  · obtain ⟨before, after, here, starts, stops⟩ := Segments.exists_of_mem_spansFrom p member s.tail
    have cut : text = before ++ (p.opening ++ source ++ p.closing) ++ after := whole.symm.trans here
    have size := congrArg Text.byteLength cut
    have positive := Text.byteLength_pos p.opening_ne_nil
    simp only [Nat.zero_add] at starts stops
    refine ⟨?_, ?_, ?_⟩
    · simp only [Text.byteLength_append] at stops
      omega
    · simp only [Text.byteLength_append] at stops size
      omega
    · rw [stops, starts, cut]
      exact Text.slice?_append before _ after

end ConfigWeave
