import ConfigWeave.Position
import Mathlib.Data.Prod.Lex
import Mathlib.Order.Monotone.Basic

namespace ConfigWeave

/-- A line starts right behind each newline. -/
theorem mem_lineStartsFrom {offset start : Nat} {text : List Char} :
    start ∈ lineStartsFrom offset text ↔ ∃ i : Nat, text[i]? = some '\n' ∧ start = offset + i + 1 := by
  induction text generalizing offset with
  | nil => simp [lineStartsFrom]
  | cons c rest ih =>
    have cases : (∃ i : Nat, (c :: rest)[i]? = some '\n' ∧ start = offset + i + 1) ↔
        (c = '\n' ∧ start = offset + 1) ∨ ∃ i : Nat, rest[i]? = some '\n' ∧ start = offset + 1 + i + 1 := by
      constructor
      · rintro ⟨_ | i, found, is⟩
        · exact .inl ⟨Option.some.inj found, is⟩
        · exact .inr ⟨i, found, by omega⟩
      · rintro (⟨rfl, is⟩ | ⟨i, found, is⟩)
        · exact ⟨0, rfl, is⟩
        · exact ⟨i + 1, found, by omega⟩
    rw [cases, ← ih, lineStartsFrom]
    split
    · rename_i newline
      simp [newline]
    · rename_i other
      simp [other]

/-- As many lines start up to an offset as there are newlines in front of it. -/
theorem countP_lineStartsFrom (offset distance : Nat) (text : List Char) :
    (lineStartsFrom offset text).countP (· ≤ offset + distance) = (text.take distance).count '\n' := by
  induction text generalizing offset distance with
  | nil => simp [lineStartsFrom]
  | cons c rest ih =>
    cases distance with
    | zero =>
      rw [List.take_zero, List.count_nil, List.countP_eq_zero]
      intro start member
      have behind := (List.pairwise_cons.mp (pairwise_lineStartsFrom offset (c :: rest))).1 start member
      simpa using behind
    | succ distance =>
      have later := ih (offset + 1) distance
      rw [Nat.add_assoc, Nat.add_comm 1 distance] at later
      rw [lineStartsFrom, List.take_succ_cons, List.count_cons, ← later]
      split
      · rename_i newline
        simp [newline]
      · rename_i other
        simp [other]

/-- What a search may answer about an ascending array. -/
def Sought.Answers (entries : Array Nat) (sought : Nat) : Sought → Prop
  | .found place => entries[place]? = some sought
  | .missing next => next ≤ entries.size ∧ (∀ i < next, ∀ entry ∈ entries[i]?, entry < sought) ∧
      ∀ i, next ≤ i → ∀ entry ∈ entries[i]?, sought < entry

section Ascending

variable {entries : Array Nat} (ascending : entries.toList.Pairwise (· < ·))
include ascending

theorem lt_of_ascending {i j a b : Nat} (before : i < j) (first : entries[i]? = some a)
    (second : entries[j]? = some b) :
    a < b := by
  obtain ⟨inner, rfl⟩ := Array.getElem?_eq_some_iff.mp first
  obtain ⟨within, rfl⟩ := Array.getElem?_eq_some_iff.mp second
  exact List.pairwise_iff_getElem.mp ascending i j inner within before

/-- All entries in front of the part that is searched are smaller than what is sought, all behind it are greater. -/
theorem answers_searchFrom {sought base size : Nat} (within : base + size ≤ entries.size)
    (before : ∀ i < base, ∀ entry ∈ entries[i]?, entry < sought)
    (behind : ∀ i, base + size ≤ i → ∀ entry ∈ entries[i]?, sought < entry) :
    (searchFrom entries sought base size).Answers entries sought := by
  have exists_entry {i : Nat} (inside : i < entries.size) : ∃ entry, entries[i]? = some entry :=
    ⟨_, Array.getElem?_eq_getElem inside⟩
  fun_induction searchFrom entries sought base size with
  | case1 base size more half greater ih =>
    obtain ⟨middle, atMiddle⟩ := exists_entry (i := base + half) (by omega)
    rw [atMiddle, Option.any_some, decide_eq_true_eq] at greater
    refine ih (by omega) before fun i reached entry here => ?_
    obtain rfl | later := Nat.eq_or_lt_of_le (show base + half ≤ i by omega)
    · cases atMiddle.symm.trans here
      exact greater
    · exact greater.trans (lt_of_ascending ascending later atMiddle here)
  | case2 base size more half notGreater ih =>
    obtain ⟨middle, atMiddle⟩ := exists_entry (i := base + half) (by omega)
    rw [atMiddle, Option.any_some, decide_eq_true_eq, Nat.not_lt] at notGreater
    refine ih (by omega) (fun i earlier entry here => ?_) fun i reached => behind i (by omega)
    exact (lt_of_ascending ascending earlier here atMiddle).trans_le notGreater
  | case3 base size last atBase => exact atBase
  | case4 base size last entry atBase other less =>
    refine ⟨(Array.getElem?_eq_some_iff.mp atBase).1, fun i reached e here => ?_, fun i passed =>
      behind i (by omega)⟩
    obtain rfl | earlier := Nat.eq_or_lt_of_le (Nat.le_of_lt_succ reached)
    · cases atBase.symm.trans here
      exact less
    · exact before i earlier e here
  | case5 base size last entry atBase other notLess =>
    refine ⟨by omega, before, fun i reached e here => ?_⟩
    obtain rfl | later := Nat.eq_or_lt_of_le reached
    · cases atBase.symm.trans here
      omega
    · exact behind i (by omega) e here
  | case6 base size last beyond =>
    refine ⟨by omega, before, fun i reached e here => ?_⟩
    obtain rfl | later := Nat.eq_or_lt_of_le reached
    · cases beyond.symm.trans here
    · exact behind i (by omega) e here

end Ascending

namespace LineIndex

variable (index : LineIndex) (offset : Nat)

theorem answers_search : (index.search offset).Answers index.starts offset := by
  refine answers_searchFrom index.ascending (Nat.le_of_eq (Nat.zero_add _)) nofun fun i beyond start here => ?_
  rw [Array.getElem?_eq_none (by omega)] at here
  cases here

/-- Some line starts at an offset or in front of it, so the place behind which it belongs is never the first. -/
theorem pos_of_missing {next : Nat} (missing : index.search offset = .missing next) : 0 < next := by
  have answers := index.answers_search offset
  rw [missing] at answers
  refine Nat.pos_of_ne_zero fun isFirst => ?_
  have behind := answers.2.2 0 (Nat.le_of_eq isFirst) 0 index.front
  omega

/-- The line of an offset is the last one that starts there or before. -/
theorem exists_start : ∃ start, index.starts[index.line offset]? = some start ∧ start ≤ offset ∧
    ∀ i, index.line offset < i → ∀ later ∈ index.starts[i]?, offset < later := by
  have answers := index.answers_search offset
  unfold line
  cases sought : index.search offset with
  | found place =>
    rw [sought] at answers
    exact ⟨offset, answers, Nat.le_refl offset, fun i after later here =>
      lt_of_ascending index.ascending after answers here⟩
  | missing next =>
    have pos := index.pos_of_missing offset sought
    rw [sought] at answers
    obtain ⟨within, before, behind⟩ := answers
    obtain ⟨start, last⟩ : ∃ start, index.starts[next - 1]? = some start :=
      ⟨_, Array.getElem?_eq_getElem (by omega)⟩
    exact ⟨start, last, Nat.le_of_lt (before _ (by omega) _ last), fun i (after : next - 1 < i) =>
      behind i (by omega)⟩

theorem startOf_line {start : Nat} (here : index.starts[index.line offset]? = some start) :
    index.startOf (index.line offset) = start := by
  rw [startOf, here, Option.getD_some]

/-- Of the lines all up to that of an offset start there or before, and no others. -/
theorem countP_starts : index.starts.toList.countP (· ≤ offset) = index.line offset + 1 := by
  obtain ⟨start, here, reached, later⟩ := index.exists_start offset
  have inside := (Array.getElem?_eq_some_iff.mp here).1
  have size : (index.starts.toList.take (index.line offset + 1)).length = index.line offset + 1 := by
    rw [List.length_take, Array.length_toList]
    omega
  have front : ∀ other ∈ index.starts.toList.take (index.line offset + 1), decide (other ≤ offset) = true := by
    intro other member
    obtain ⟨i, bound, is⟩ := List.mem_take_iff_getElem.mp member
    have found : index.starts[i]? = some other := by
      rw [← Array.getElem?_toList, ← is]
      exact List.getElem?_eq_getElem _
    obtain rfl | earlier := Nat.eq_or_lt_of_le (show i ≤ index.line offset by omega)
    · cases here.symm.trans found
      exact decide_eq_true reached
    · exact decide_eq_true (Nat.le_of_lt ((lt_of_ascending index.ascending earlier found here).trans_le reached))
  have behind : ∀ other ∈ index.starts.toList.drop (index.line offset + 1), ¬decide (other ≤ offset) = true := by
    intro other member
    obtain ⟨i, bound, is⟩ := List.mem_drop_iff_getElem.mp member
    have found : index.starts[index.line offset + 1 + i]? = some other := by
      rw [← Array.getElem?_toList, ← is]
      exact List.getElem?_eq_getElem _
    have beyond := later _ (by omega) other found
    simpa using beyond
  rw [← List.take_append_drop (index.line offset + 1) index.starts.toList, List.countP_append,
    List.countP_eq_length.mpr front, List.countP_eq_zero.mpr behind, size, Nat.add_zero]

variable (text : String)

theorem mem_starts_ofText {start : Nat} :
    start ∈ (ofText text).starts ↔ start = 0 ∨ ∃ i : Nat, text.toList[i]? = some '\n' ∧ start = i + 1 := by
  rw [ofText, List.mem_toArray, List.mem_cons, mem_lineStartsFrom]
  simp

/-- The line of an offset is as many lines behind the first as there are newlines in front of the offset. -/
theorem line_ofText : (ofText text).line offset = (text.toList.take offset).count '\n' := by
  have counted := (ofText text).countP_starts offset
  have newlines := countP_lineStartsFrom 0 offset text.toList
  rw [Nat.zero_add] at newlines
  rw [ofText, List.toList_toArray, List.countP_cons_of_pos (by simp), newlines] at counted
  exact (Nat.succ.inj counted).symm

theorem line_mono {offset later : Nat} (le : offset ≤ later) :
    (ofText text).line offset ≤ (ofText text).line later := by
  rw [line_ofText, line_ofText]
  exact (List.take_prefix_take_left le).sublist.count_le '\n'

/-- Positions are ascending, and so different, for different offsets. -/
theorem position_strictMono : StrictMono fun offset => toLex ((ofText text).position offset) := by
  intro offset later lt
  obtain ⟨start, here, reached, _⟩ := (ofText text).exists_start offset
  rw [Prod.Lex.toLex_lt_toLex]
  obtain sameLine | laterLine := Nat.eq_or_lt_of_le (line_mono text (Nat.le_of_lt lt))
  · refine .inr ⟨congrArg (· + 1) sameLine, ?_⟩
    have startsAt := (ofText text).startOf_line offset here
    simp only [position, ← sameLine, startsAt]
    omega
  · exact .inl (Nat.succ_lt_succ laterLine)

/-- The position of an offset is exact, also behind the end of the text. Its line is one more than the newlines in
front of it, its column one more than the distance from where the line starts: in front of the text, or right
behind the last newline before the offset. The start of the line is never behind the offset, nor is the first line
one that an offset would have to precede, so that no subtraction is cut off. Positions of later offsets are
later. -/
theorem position_ofText :
    (∀ offset,
      let start := (ofText text).startOf ((ofText text).line offset)
      (start = 0 ∨ text.toList[start - 1]? = some '\n') ∧ start ≤ offset ∧
      (∀ i, start ≤ i → i < offset → text.toList[i]? ≠ some '\n') ∧
      (ofText text).position offset = ((text.toList.take offset).count '\n' + 1, offset - start + 1)) ∧
    (∀ offset next, (ofText text).search offset = .missing next → 0 < next) ∧
    (StrictMono fun offset => toLex ((ofText text).position offset)) ∧
    Function.Injective (ofText text).position := by
  have ascending := position_strictMono text
  refine ⟨fun offset => ?_, fun offset next => (ofText text).pos_of_missing offset, ascending, fun a b same =>
    ascending.injective (congrArg toLex same)⟩
  intro start
  obtain ⟨first, here, reached, later⟩ := (ofText text).exists_start offset
  have startIs : start = first := (ofText text).startOf_line offset here
  clear_value start
  subst startIs
  refine ⟨?_, reached, fun i behind before newline => ?_, ?_⟩
  · obtain rfl | ⟨i, newline, rfl⟩ := (mem_starts_ofText text).mp (Array.mem_of_getElem? here)
    · exact .inl rfl
    · exact .inr newline
  · -- A newline between them would start a line behind that of the offset, and yet not behind the offset.
    obtain ⟨j, starts⟩ := Array.mem_iff_getElem?.mp ((mem_starts_ofText text).mpr (.inr ⟨i, newline, rfl⟩))
    obtain earlier | rfl | after := Nat.lt_trichotomy j ((ofText text).line offset)
    · have ordered := lt_of_ascending (ofText text).ascending earlier starts here
      omega
    · cases here.symm.trans starts
      omega
    · have beyond := later j after _ starts
      omega
  · rw [position, (ofText text).startOf_line offset here, line_ofText]

end LineIndex

end ConfigWeave
