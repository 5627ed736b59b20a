import ConfigWeave.Proofs.CoreSchema
import ConfigWeave.Yaml.Document

namespace ConfigWeave

namespace Yaml

/-- A character that does not end a plain scalar, whatever follows. -/
def staysPlain (c : Char) : Bool :=
  !(isBlankOrStop c || c == '\r' || c == ':')

/-- A character by which the next token is not taken for anything but a plain scalar, unless a blank follows. -/
def startsPlain (c : Char) : Bool :=
  !(isFlow c || ['*', '&', '!', '\'', '"', '%', '@', '\x60', '|', '>', '#'].contains c)

/-- A text that is a single word, and not only the mark of an entry, of a key or of a document. -/
structure IsWord (text : List Char) : Prop where
  stays : ∀ c ∈ text, staysPlain c = true
  starts : ∀ c ∈ text.head?, startsPlain c = true
  marked : ∃ c ∈ text, c ∉ ['-', '?', '.']

/-- What stands behind a text of one line. -/
def endGlyph (offset line column : Nat) : Glyph :=
  ⟨'\x00', offset, line, column, false⟩

theorem staysPlain_iff {c : Char} :
    staysPlain c = true ↔ isBlank c = false ∧ c ≠ '\n' ∧ c ≠ '\x00' ∧ c ≠ '\r' ∧ c ≠ ':' := by
  simp [staysPlain, isBlankOrStop, isStop, and_assoc]

theorem glyphsFrom_cons {c : Char} (stays : staysPlain c = true) (offset line column : Nat) (leading : Bool)
    (rest : List Char) :
    glyphsFrom offset line column leading (c :: rest) =
      ⟨c, offset, line, column, leading⟩ :: glyphsFrom (offset + 1) line (column + 1) false rest := by
  obtain ⟨noBlank, noBreak, noEnd, noReturn, _⟩ := staysPlain_iff.mp stays
  simp [glyphsFrom, noEnd, noReturn, noBreak, noBlank]

theorem continuesPlain_of_staysPlain {c : Char} (stays : staysPlain c = true) (next : Char) :
    continuesPlain false c next = true := by
  obtain ⟨_, _, _, _, noColon⟩ := staysPlain_iff.mp stays
  simp [continuesPlain, noColon]

/-- The rest of a word is read up to the end of the text. -/
theorem plainFrom_word {text : List Char} (stays : ∀ c ∈ text, staysPlain c = true) (indent : Int) (f : Folding)
    (offset line column : Nat) :
    plainFrom false indent .word f (glyphsFrom offset line column false text) =
      some (f.text.reverse ++ text, [endGlyph (offset + text.length) line (column + text.length)]) := by
  induction text generalizing f offset column with
  | nil => simp [glyphsFrom, plainFrom, Folding.taken, endGlyph]
  | cons c rest ih =>
    have here := stays c List.mem_cons_self
    obtain ⟨noBlank, noBreak, noEnd, _⟩ := staysPlain_iff.mp here
    rw [glyphsFrom_cons here, plainFrom]
    simp only [noEnd, isBreak, noBreak, noBlank, continuesPlain_of_staysPlain here, beq_iff_eq, if_false, if_true,
      reduceCtorEq, Bool.false_eq_true]
    rw [ih fun d member => stays d (List.mem_cons_of_mem _ member)]
    simp only [Folding.push, List.reverse_cons, List.append_assoc, List.singleton_append, List.length_cons,
      Nat.add_right_comm, Nat.add_assoc]

theorem not_isBlankOrStop {c : Char} (stays : staysPlain c = true) : isBlankOrStop c = false := by
  obtain ⟨noBlank, noBreak, noEnd, _⟩ := staysPlain_iff.mp stays
  simp [isBlankOrStop, isStop, noBlank, noBreak, noEnd]

/-- A word is not the mark that a document starts or ends. -/
theorem IsWord.isRule_eq_false {text : List Char} (word : IsWord text) (mark : Char)
    (known : mark ∈ ['-', '?', '.']) (offset line column : Nat) (leading : Bool) :
    Source.isRule mark (glyphsFrom offset line column leading text) = false := by
  obtain ⟨stays, _, marked⟩ := word
  rw [Bool.eq_false_iff]
  intro rule
  match text with
  | [] => cases rule
  | [a] =>
    simp only [List.forall_mem_cons] at stays
    rw [glyphsFrom_cons stays.1] at rule
    cases rule
  | [a, b] =>
    simp only [List.forall_mem_cons] at stays
    rw [glyphsFrom_cons stays.1, glyphsFrom_cons stays.2.1] at rule
    simp only [glyphsFrom, Source.isRule, Bool.and_eq_true, beq_iff_eq] at rule
    rw [← rule.1.2] at known
    exact absurd known (by decide)
  | [a, b, d] =>
    simp only [List.forall_mem_cons] at stays
    rw [glyphsFrom_cons stays.1, glyphsFrom_cons stays.2.1, glyphsFrom_cons stays.2.2.1] at rule
    simp only [Source.isRule, Bool.and_eq_true, beq_iff_eq] at rule
    obtain ⟨⟨⟨rfl, rfl⟩, rfl⟩, _⟩ := rule
    obtain ⟨c, member, other⟩ := marked
    simp only [List.mem_cons, List.not_mem_nil, or_false, or_self] at member
    exact other (member ▸ known)
  | a :: b :: d :: e :: more =>
    simp only [List.forall_mem_cons] at stays
    rw [glyphsFrom_cons stays.1, glyphsFrom_cons stays.2.1, glyphsFrom_cons stays.2.2.1,
      glyphsFrom_cons stays.2.2.2.1] at rule
    simp only [Source.isRule, Source.char, not_isBlankOrStop stays.2.2.2.1, Bool.and_false,
      Bool.false_eq_true] at rule

theorem IsWord.ne_of_reserved {c reserved : Char} {rest : List Char} (word : IsWord (c :: rest))
    (refused : startsPlain reserved = false) : c ≠ reserved := by
  rintro rfl
  exact Bool.false_ne_true (refused.symm.trans (word.starts c rfl))

theorem plainFrom_start {c : Char} {rest : List Char} (word : IsWord (c :: rest)) (indent : Int)
    (offset line column : Nat) :
    plainFrom false indent .start .start (glyphsFrom offset line column true (c :: rest)) =
      some (c :: rest, [endGlyph (offset + rest.length + 1) line (column + rest.length + 1)]) := by
  have here := word.stays c List.mem_cons_self
  have noDashes := word.isRule_eq_false '-' (by decide) offset line column true
  have noPoints := word.isRule_eq_false '.' (by decide) offset line column true
  obtain ⟨noBlank, noBreak, noEnd, _⟩ := staysPlain_iff.mp here
  have noComment : c ≠ '#' := word.ne_of_reserved (by decide)
  rw [glyphsFrom_cons here] at noDashes noPoints ⊢
  rw [plainFrom]
  simp only [noEnd, isBreak, noBreak, noBlank, noComment, continuesPlain_of_staysPlain here, Source.isDocumentMark,
    noDashes, noPoints, beq_iff_eq, if_false, if_true, reduceCtorEq, Bool.false_eq_true, Bool.or_self, and_false,
    false_and]
  rw [plainFrom_word fun d member => word.stays d (List.mem_cons_of_mem _ member)]
  simp [Folding.joined, Folding.push, Folding.start, Nat.add_right_comm]

namespace Tokenizer

theorem skip_eq_self {t : Tokenizer} {g : Glyph} {rest : Source} (here : t.rest = g :: rest)
    (noBlank : isBlank g.char = false) (noBreak : g.char ≠ '\n') (noComment : g.char ≠ '#') : t.skip = some t := by
  have noTab : g.char ≠ '\t' := by
    intro tab
    rw [tab] at noBlank
    cases noBlank
  obtain ⟨_, reversed, count, keyAllowed, candidates, indent, indents, flowDepth⟩ := t
  cases here
  simp [skip, skipToToken, noBlank, noTab, noBreak, noComment]

/-- A token outside of all collections does not end any. -/
theorem endBlocks_eq_self {t : Tokenizer} (none : t.indents = []) (target : Int) : t.endBlocks target = t := by
  obtain ⟨rest, reversed, count, keyAllowed, candidates, indent, _, flowDepth⟩ := t
  cases none
  simp [endBlocks, leaveLevels]

/-- Where the tokenizer stands behind the word of a document. The word might be a key. -/
def behindWord (first : Glyph) (text : List Char) : Tokenizer where
  rest := [endGlyph text.length 0 text.length]
  reversed := [⟨0, .scalar .plain (String.ofList text)⟩]
  count := 1
  keyAllowed := false
  candidates := [some ⟨0, first, false⟩]
  indent := -1
  indents := []
  flowDepth := 0
  adjacentValueAt := 0
  flowMappingStarted := false
  implicitMapping := false
  finished := false

theorem readPlain_word {c : Char} {rest : List Char} (word : IsWord (c :: rest)) :
    (start (glyphsFrom 0 0 0 true (c :: rest))).readPlain = some (behindWord ⟨c, 0, 0, 0, true⟩ (c :: rest)) := by
  have read := plainFrom_start word 0 0 0 0
  rw [glyphsFrom_cons (word.stays c List.mem_cons_self)] at read ⊢
  simp [readPlain, start, addCandidate, dropLooseIndents, leaveLoose, plainScalar, read, push, inFlow, guard,
    behindWord, endGlyph, Source.column, Source.offset, Source.place]

/-- What else a word may start with is told from a word by the blank behind it. -/
theorem second_word {c : Char} {rest : List Char} (word : IsWord (c :: rest)) (known : c ∈ ['-', '?', '.'])
    (offset line column : Nat) (leading : Bool) :
    isBlankOrStop (Source.second (glyphsFrom offset line column leading (c :: rest))) = false := by
  obtain ⟨stays, _, marked⟩ := word
  simp only [List.forall_mem_cons] at stays
  cases rest with
  | nil =>
    obtain ⟨d, member, other⟩ := marked
    rw [List.mem_singleton.mp member] at other
    exact absurd known other
  | cons d more =>
    simp only [List.forall_mem_cons] at stays
    rw [glyphsFrom_cons stays.1, glyphsFrom_cons stays.2.1]
    exact not_isBlankOrStop stays.2.1

theorem readToken_word {c : Char} {rest : List Char} (word : IsWord (c :: rest)) :
    (start (glyphsFrom 0 0 0 true (c :: rest))).readToken =
      (start (glyphsFrom 0 0 0 true (c :: rest))).readPlain := by
  have starts := word.starts c rfl
  have stays := word.stays c List.mem_cons_self
  have first : (start (glyphsFrom 0 0 0 true (c :: rest))).rest.char = c := by
    rw [start, glyphsFrom_cons stays]
    rfl
  unfold readToken
  rw [first]
  split
  case h_16 | h_17 => exact if_neg (by rw [start, second_word word (by decide)]; decide)
  case h_18 => exact absurd stays (by decide)
  case h_19 => rfl
  all_goals exact absurd starts (by decide)

theorem step_word {c : Char} {rest : List Char} (word : IsWord (c :: rest)) :
    (start (glyphsFrom 0 0 0 true (c :: rest))).step = some (behindWord ⟨c, 0, 0, 0, true⟩ (c :: rest)) := by
  have stays := word.stays c List.mem_cons_self
  obtain ⟨noBlank, noBreak, noEnd, _⟩ := staysPlain_iff.mp stays
  have noComment : c ≠ '#' := word.ne_of_reserved (by decide)
  have noDirective : c ≠ '%' := word.ne_of_reserved (by decide)
  have read := (readToken_word word).trans (readPlain_word word)
  have noDashes := word.isRule_eq_false '-' (by decide) 0 0 0 true
  have noPoints := word.isRule_eq_false '.' (by decide) 0 0 0 true
  rw [glyphsFrom_cons stays] at read noDashes noPoints ⊢
  have skipped := skip_eq_self (t := start (⟨c, 0, 0, 0, true⟩ :: glyphsFrom 1 0 1 false rest)) rfl noBlank
    noBreak noComment
  rw [step, skipped]
  simp only [Option.bind_eq_bind, Option.bind_some]
  have kept := endBlocks_eq_self (t := start (⟨c, 0, 0, 0, true⟩ :: glyphsFrom 1 0 1 false rest)) rfl
  simp only [start] at kept read noDashes noPoints ⊢
  simp [dropStale, kept, Source.char, Source.column, Source.place, noEnd, noDirective, noDashes, noPoints, read]

/-- A candidate that does not have to be a key may be given up. -/
theorem dropStale_of_optional {t : Tokenizer} {key : KeyCandidate} (candidate : t.candidates = [some key])
    (optional : key.required = false) :
    t.dropStale = some t ∨ t.dropStale = some { t with candidates := [none] } := by
  unfold dropStale
  rw [candidate]
  by_cases near : (t.inFlow || !t.isStale key) = true
  · exact .inl (if_pos near)
  · exact .inr ((if_neg near).trans (if_neg (by rw [optional]; decide)))

theorem step_end (first : Glyph) (text : List Char) :
    ∃ t, (behindWord first text).step = some t ∧ t.finished = true ∧
      t.reversed = [⟨text.length, .streamEnd⟩, ⟨0, .scalar .plain (String.ofList text)⟩] := by
  have skipped := skip_eq_self (t := behindWord first text) rfl (by rfl) (by simp [endGlyph]) (by simp [endGlyph])
  rw [step, skipped]
  simp only [Option.bind_eq_bind, Option.bind_some]
  obtain kept | dropped := dropStale_of_optional (t := behindWord first text) rfl rfl
  · rw [kept]
    simp [behindWord, endBlocks_eq_self, Source.char, endGlyph, readEnd, guard, push, Source.offset, Source.place]
  · rw [dropped]
    simp [behindWord, endBlocks_eq_self, Source.char, endGlyph, readEnd, guard, push, Source.offset, Source.place]

end Tokenizer

theorem length_glyphsFrom {text : List Char} (stays : ∀ c ∈ text, staysPlain c = true) (offset line column : Nat)
    (leading : Bool) : (glyphsFrom offset line column leading text).length = text.length + 1 := by
  induction text generalizing offset column leading with
  | nil => rfl
  | cons c rest ih =>
    rw [glyphsFrom_cons (stays c List.mem_cons_self), List.length_cons,
      ih fun d member => stays d (List.mem_cons_of_mem _ member), List.length_cons]

theorem tokens_of_isWord {text : List Char} (word : IsWord text) :
    tokens (String.ofList text) = [⟨0, .scalar .plain (String.ofList text)⟩, ⟨text.length, .streamEnd⟩] := by
  obtain ⟨c, member, _⟩ := word.marked
  obtain ⟨first, rest, rfl⟩ := List.exists_cons_of_ne_nil (List.ne_nil_of_mem member)
  obtain ⟨t, ended, finished, reversed⟩ := Tokenizer.step_end ⟨first, 0, 0, 0, true⟩ (first :: rest)
  have started := Tokenizer.step_word word
  rw [tokens, glyphs, String.toList_ofList, length_glyphsFrom word.stays, List.length_cons]
  unfold Tokenizer.run
  rw [started]
  simp only [Tokenizer.start, Bool.false_eq_true, if_false]
  unfold Tokenizer.run
  rw [ended]
  simp only [Tokenizer.behindWord, Bool.false_eq_true, if_false]
  unfold Tokenizer.run
  rw [finished, reversed]
  rfl

theorem events?_scalar (s : String) (offset : Nat) :
    events? [⟨0, .scalar .plain s⟩, ⟨offset, .streamEnd⟩] = some [⟨0, .scalar s .plain 0 none⟩] := by
  have begins : (Token.scalar .plain s == Token.documentEnd) = false := beq_eq_false_iff_ne.mpr nofun
  have first : Reader.firstNode [⟨0, .scalar .plain s⟩, ⟨offset, .streamEnd⟩] =
      some (some (⟨[⟨offset, .streamEnd⟩], [], [], 0, []⟩, ⟨0, .scalar s .plain 0 none⟩)) := by
    simp [Reader.firstNode, begins, Reader.isDirective, Reader.node, Reader.properties]
  rw [events?, first]
  simp [Reader.run, Reader.mayEnd, Reader.isDirective]

theorem documentOf_scalar (s : String) : documentOf [⟨0, .scalar s .plain 0 none⟩] = Scalar.plain s := by
  simp [documentOf, Builder.step, Builder.isMergeKey, Builder.start, Builder.complete, scalarValue]

/-- A document that is a single word is what the word stands for as a plain scalar. -/
theorem parse?_of_isWord {text : List Char} (word : IsWord text) :
    parse? (String.ofList text) = some (Scalar.plain (String.ofList text)) := by
  rw [parse?, tokens_of_isWord word, events?_scalar, Option.map_some, documentOf_scalar]

end Yaml

namespace Numeral

/-- The characters of numerals. -/
def characters : List Char :=
  ['+', '-', 'x', 'o'] ++ (CoreSchema.digitCharacters .hexadecimal).toList

theorem mem_characters {n : Numeral} {c : Char} (member : c ∈ n.spelling) : c ∈ characters := by
  have signs (s : Sign) : ∀ d ∈ s.spelling, d ∈ characters := forall_mem_of_all (by cases s <;> decide)
  have leads (r : Radix) : ∀ d ∈ r.lead, d ∈ characters := forall_mem_of_all (by cases r <;> decide)
  simp only [spelling, body, List.mem_append] at member
  obtain outer | lead | inner | digit := member
  · exact signs n.sign c outer
  · exact leads n.radix c lead
  · exact signs n.inner c inner
  · have hexadecimal : digitValue c < 16 := (n.digitValue_lt c digit).trans_le n.radix.base_le
    exact List.mem_append_right _ (CoreSchema.mem_digitCharacters.mpr hexadecimal)

theorem isWord (n : Numeral) : Yaml.IsWord n.spelling where
  stays c member := by
    have all : ∀ d ∈ characters, Yaml.staysPlain d = true := List.all_eq_true.mp (by decide)
    exact all c (mem_characters member)
  starts c first := by
    have all : ∀ d ∈ characters, Yaml.startsPlain d = true := List.all_eq_true.mp (by decide)
    exact all c (mem_characters (List.mem_of_mem_head? first))
  marked := by
    obtain ⟨c, more, digits⟩ := List.exists_cons_of_ne_nil n.digits_ne_nil
    have member : c ∈ n.digits := digits ▸ List.mem_cons_self
    have hexadecimal : digitValue c < 16 := (n.digitValue_lt c member).trans_le n.radix.base_le
    have all : ∀ d ∈ (CoreSchema.digitCharacters .hexadecimal).toList, d ∉ ['-', '?', '.'] :=
      forall_mem_of_all (by decide)
    exact ⟨c, by simp [spelling, body, member], all c (CoreSchema.mem_digitCharacters.mpr hexadecimal)⟩

end Numeral

end ConfigWeave
