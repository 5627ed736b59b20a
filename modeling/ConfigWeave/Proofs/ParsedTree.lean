import ConfigWeave.Proofs.Override

namespace ConfigWeave

namespace Value

/-- In none of the mappings that a tree is made of a key stands twice. -/
abbrev KeysDistinct (v : Value) : Prop :=
  v.EveryMapping Mapping.Distinct

theorem everyMapping_seq_iff {P : Mapping → Prop} {items : List Value} :
    (Value.seq items).EveryMapping P ↔ ∀ item ∈ items, item.EveryMapping P := by
  constructor
  · exact fun every item member inner part => every inner (.item member part)
  · intro every inner part
    cases part with
    | item member part => exact every _ member inner part

theorem IsScalar.everyMapping {v : Value} (scalar : v.IsScalar) (P : Mapping → Prop) : v.EveryMapping P := by
  intro inner part
  cases part with
  | self | item | key | value | payload => exact scalar.elim

theorem keysDistinct_null : Value.null.KeysDistinct := by
  intro inner part
  cases part

theorem KeysDistinct.insert {m : Mapping} (distinct : (Value.map m).KeysDistinct) {key value : Value}
    (keyDistinct : key.KeysDistinct) (valueDistinct : value.KeysDistinct) :
    (Value.map (m.insert key value)).KeysDistinct := by
  obtain ⟨here, below⟩ := everyMapping_map_iff.mp distinct
  have new : ∀ entry ∈ [(key, value)], entry.1.KeysDistinct ∧ entry.2.KeysDistinct :=
    List.forall_mem_singleton.mpr ⟨keyDistinct, valueDistinct⟩
  exact everyMapping_map_iff.mpr ⟨here.insert key value, Mapping.forall_mem_insertAll below new⟩

end Value

/-- What there is, if there is anything, has a property. -/
def IfAny {α : Type} (P : α → Prop) (v : Option α) : Prop :=
  ∀ w ∈ v, P w

namespace IfAny

variable {α β : Type} {P : α → Prop} {Q : β → Prop}

theorem none : IfAny P none :=
  nofun

theorem some {v : α} (holds : P v) : IfAny P (some v) := by
  rintro _ ⟨⟩
  exact holds

theorem map {f : α → β} (holds : ∀ a, Q (f a)) (x : Option α) : IfAny Q (x.map f) := by
  intro w member
  obtain ⟨a, _, rfl⟩ := Option.map_eq_some_iff.mp member
  exact holds a

theorem orElse {v w : Option α} (first : IfAny P v) (second : IfAny P w) : IfAny P (v <|> w) := by
  cases v with
  | none => exact second
  | some v => exact first

theorem getD {v : Option α} (holds : IfAny P v) {otherwise : α} (missing : P otherwise) : P (v.getD otherwise) := by
  cases v with
  | none => exact missing
  | some v => exact holds v rfl

theorem of_mem {items : List α} (each : ∀ item ∈ items, P item) {v : Option α} (among : ∀ w ∈ v, w ∈ items) :
    IfAny P v :=
  fun w here => each w (among w here)

end IfAny

namespace Scalar

theorem isScalar_plain (text : String) : (plain text).IsScalar := by
  refine IfAny.getD (P := Value.IsScalar) ?_ trivial
  unfold plain?
  split
  case h_12 =>
    exact .orElse (.map (f := Value.int) (fun _ => trivial) _) (.map (f := Value.float) (fun _ => trivial) _)
  all_goals exact .some trivial

theorem isScalar_ofType (name text : String) : (ofType name text).IsScalar := by
  refine IfAny.getD (P := Value.IsScalar) ?_ trivial
  split
  · exact .some trivial
  · split
    case h_7 => nofun
    all_goals exact .some trivial
  · exact .map (f := Value.int) (fun _ => trivial) _
  · exact .map (f := Value.float) (fun _ => trivial) _
  · nofun

end Scalar

namespace Yaml

theorem keysDistinct_addEntry {m : Mapping} (distinct : (Value.map m).KeysDistinct) {key value : Value}
    (keyDistinct : key.KeysDistinct) (valueDistinct : value.KeysDistinct) :
    (Value.map (addEntry m key value)).KeysDistinct := by
  unfold addEntry
  split
  · split
    · rename_i sources found
      have before := Value.everyMapping_seq_iff.mp (distinct.of_get? found)
      refine distinct.insert keyDistinct (Value.everyMapping_seq_iff.mpr ?_)
      exact List.forall_mem_append.mpr ⟨before, List.forall_mem_singleton.mpr valueDistinct⟩
    · rename_i source _ found
      refine distinct.insert keyDistinct (Value.everyMapping_seq_iff.mpr ?_)
      exact List.forall_mem_cons.mpr ⟨distinct.of_get? found, List.forall_mem_singleton.mpr valueDistinct⟩
    · exact distinct.insert keyDistinct valueDistinct
  · exact distinct.insert keyDistinct valueDistinct

/-- What holds of the empty mapping and is kept whenever an entry is added holds of a mapping of entries. -/
theorem mappingOfEntries_induction {P : Mapping → Prop} {E : Value × Value → Prop} (start : P [])
    (step : ∀ {m entry}, P m → E entry → P (addEntry m entry.1 entry.2)) {entries : List (Value × Value)}
    (each : ∀ entry ∈ entries, E entry) : P (mappingOfEntries entries) := by
  unfold mappingOfEntries
  generalize ([] : Mapping) = m at start
  induction entries generalizing m with
  | nil => exact start
  | cons entry rest ih =>
    obtain ⟨first, others⟩ := List.forall_mem_cons.mp each
    exact ih others _ (step start first)

theorem keysDistinct_mappingOfEntries {entries : List (Value × Value)}
    (each : ∀ entry ∈ entries, entry.1.KeysDistinct ∧ entry.2.KeysDistinct) :
    (Value.map (mappingOfEntries entries)).KeysDistinct :=
  mappingOfEntries_induction (P := fun m => (Value.map m).KeysDistinct)
    (Value.everyMapping_map_iff.mpr ⟨List.Pairwise.nil, nofun⟩)
    (fun distinct entry => keysDistinct_addEntry distinct entry.1 entry.2) each

/-- What documents are built of keeps a property. A weaker one is enough for what stands as a key and for what is
kept for aliases: there merge keys may be as well. -/
structure Grows (P K : Value → Prop) : Prop where
  scalar : ∀ {v : Value}, v.IsScalar → P v
  key : ∀ {v}, P v → K v
  mergeKey : ∀ mark, K (.tagged .mergeKey mark (.str "<<"))
  aliased : ∀ {mark v}, K v → P (.tagged .alias mark v)
  seq : ∀ {items}, (∀ item ∈ items, P item) → P (.seq items)
  map : ∀ {entries}, (∀ entry ∈ entries, K entry.1 ∧ P entry.2) → P (.map (mappingOfEntries entries))
  kept : ∀ {tag : NodeTag} {kept mark v}, tag.meaning = .kept kept → P v → P (.tagged kept mark v)

/-- All values that a collection holds while it is open. -/
def Content.Every (P K : Value → Prop) : Content → Prop
  | .sequence items => ∀ item ∈ items, P item
  | .mapping entries key => (∀ entry ∈ entries, K entry.1 ∧ P entry.2) ∧ ∀ waiting ∈ key, K waiting

/-- All values that a document holds while it is built. -/
structure Builder.Every (P K : Value → Prop) (b : Builder) : Prop where
  frames : ∀ frame ∈ b.frames, frame.content.Every P K
  anchors : ∀ anchor ∈ b.anchors, K anchor.2
  root : ∀ v ∈ b.root, P v

namespace Grows

variable {P K : Value → Prop}

theorem scalarValue (grows : Grows P K) (text : String) (style : ScalarStyle) (tag : Option NodeTag) (mark : Nat) :
    P (scalarValue text style tag mark) := by
  have untyped : (if style = .plain then Scalar.plain text else .str text : Value).IsScalar := by
    split
    · exact Scalar.isScalar_plain text
    · trivial
  dsimp only [Yaml.scalarValue]
  split
  · exact grows.scalar untyped
  · exact grows.scalar (Scalar.isScalar_ofType _ _)
  · rename_i kept meaning
    obtain ⟨tag, _, same⟩ := Option.map_eq_some_iff.mp meaning
    exact grows.kept same (grows.scalar untyped)

/-- What is only good for a key is added where a key is expected. -/
theorem add (grows : Grows P K) {content : Content} (every : content.Every P K) {v : Value}
    (fits : P v ∨ content.expectsKey ∧ K v) : (content.add v).Every P K := by
  match content, every with
  | .sequence items, every => exact List.forall_mem_cons.mpr ⟨fits.resolve_right nofun, every⟩
  | .mapping entries none, every =>
    refine ⟨every.1, ?_⟩
    rintro _ ⟨⟩
    exact fits.elim grows.key (·.2)
  | .mapping entries (some key), every =>
    exact ⟨List.forall_mem_cons.mpr ⟨⟨every.2 key rfl, fits.resolve_right nofun⟩, every.1⟩, nofun⟩

theorem value (grows : Grows P K) {content : Content} (every : content.Every P K) : P content.value := by
  match content, every with
  | .sequence items, every => exact grows.seq fun item member => every item (List.mem_reverse.mp member)
  | .mapping entries none, every => exact grows.map fun entry member => every.1 entry (List.mem_reverse.mp member)
  | .mapping entries (some key), every =>
    have all : ∀ entry ∈ (key, .null) :: entries, K entry.1 ∧ P entry.2 :=
      List.forall_mem_cons.mpr ⟨⟨every.2 key rfl, grows.scalar trivial⟩, every.1⟩
    exact grows.map fun entry member => all entry (List.mem_reverse.mp member)

theorem frameValue (grows : Grows P K) {frame : Frame} (every : frame.content.Every P K) : P frame.value := by
  unfold Frame.value
  split
  · rename_i kept
    obtain ⟨tag, _, same⟩ := Option.map_eq_some_iff.mp kept
    exact grows.kept same (grows.value every)
  · exact grows.value every

theorem complete (grows : Grows P K) {b : Builder} (every : b.Every P K) {v : Value}
    (fits : P v ∨ (b.frames.head?.any fun frame => frame.content.expectsKey) ∧ K v) (anchor : Nat) :
    (b.complete v anchor).Every P K := by
  have kept : (if anchor = 0 then b else { b with anchors := (anchor, v) :: b.anchors }).Every P K := by
    split
    · exact every
    · exact ⟨every.frames, List.forall_mem_cons.mpr ⟨fits.elim grows.key (·.2), every.anchors⟩, every.root⟩
  have same : (if anchor = 0 then b else { b with anchors := (anchor, v) :: b.anchors }).frames = b.frames := by
    split <;> rfl
  rw [← same] at fits
  unfold Builder.complete
  generalize (if anchor = 0 then b else { b with anchors := (anchor, v) :: b.anchors }) = b at kept fits
  dsimp only
  split
  · rename_i outside
    rw [outside] at fits
    refine ⟨kept.frames, kept.anchors, ?_⟩
    rintro _ ⟨⟩
    exact fits.resolve_right nofun
  · rename_i frame frames innermost
    obtain ⟨top, below⟩ := List.forall_mem_cons.mp (innermost ▸ kept.frames)
    rw [innermost] at fits
    exact ⟨List.forall_mem_cons.mpr ⟨grows.add top fits, below⟩, kept.anchors, kept.root⟩

theorem lookup (grows : Grows P K) {b : Builder} (every : b.Every P K) (anchor : Nat) :
    K ((b.anchors.lookup anchor).getD .null) := by
  cases found : b.anchors.lookup anchor with
  | none => exact grows.key (grows.scalar trivial)
  | some v =>
    obtain ⟨before, after, same, _⟩ := List.lookup_eq_some_iff.mp found
    exact every.anchors (anchor, v) (by rw [same]; simp)

/-- The innermost collection is closed and becomes a value of the one around it. -/
theorem close (grows : Grows P K) {b : Builder} (every : b.Every P K) {frame : Frame} {frames : List Frame}
    (innermost : b.frames = frame :: frames) :
    ({ b with frames }.complete frame.value frame.anchor).Every P K := by
  obtain ⟨top, below⟩ := List.forall_mem_cons.mp (innermost ▸ every.frames)
  have outer : ({ b with frames } : Builder).Every P K := ⟨below, every.anchors, every.root⟩
  exact grows.complete outer (.inl (grows.frameValue top)) frame.anchor

theorem step (grows : Grows P K) {b : Builder} (every : b.Every P K) (e : PlacedEvent) : (b.step e).Every P K := by
  have opened (content : Content) (anchor : Nat) (tag : Option NodeTag) (empty : content.Every P K) :
      ({ b with frames := ⟨content, anchor, tag, e.offset⟩ :: b.frames } : Builder).Every P K :=
    ⟨List.forall_mem_cons.mpr ⟨empty, every.frames⟩, every.anchors, every.root⟩
  unfold Builder.step
  split
  · exact grows.complete every (.inl (grows.aliased (grows.lookup every _))) 0
  · refine grows.complete every ?_ _
    split
    · rename_i merge
      simp only [Builder.isMergeKey, Bool.and_eq_true, beq_iff_eq] at merge
      exact .inr ⟨merge.2, merge.1.2 ▸ grows.mergeKey _⟩
    · exact .inl (grows.scalarValue _ _ _ _)
  · exact opened _ _ _ nofun
  · exact opened _ _ _ ⟨nofun, nofun⟩
  all_goals
    split
    · exact every
    · rename_i innermost
      exact grows.close every innermost

theorem run (grows : Grows P K) {b : Builder} (every : b.Every P K) (events : List PlacedEvent) :
    (events.foldl Builder.step b).Every P K := by
  induction events generalizing b with
  | nil => exact every
  | cons e rest ih => exact ih (grows.step every e)

theorem parse (grows : Grows P K) {text : String} {v : Value} (parsed : parse? text = some v) : P v := by
  obtain ⟨events, _, rfl⟩ := Option.map_eq_some_iff.mp parsed
  have start : Builder.start.Every P K := ⟨nofun, nofun, nofun⟩
  unfold documentOf
  cases root : (events.foldl Builder.step .start).root with
  | none => exact grows.scalar trivial
  | some v => exact (grows.run start events).root v root

end Grows

/-- The keys of the mappings in a document are distinct. -/
theorem keysDistinct_of_parse {text : String} {v : Value} (parsed : parse? text = some v) : v.KeysDistinct := by
  have grows : Grows Value.KeysDistinct Value.KeysDistinct := {
    scalar := fun scalar => scalar.everyMapping _
    key := id
    mergeKey := fun _ => Value.everyMapping_tagged_iff.mpr (Value.everyMapping_str _ _)
    aliased := Value.everyMapping_tagged_iff.mpr
    seq := Value.everyMapping_seq_iff.mpr
    map := keysDistinct_mappingOfEntries
    kept := fun _ => Value.everyMapping_tagged_iff.mpr }
  exact grows.parse parsed

end Yaml

namespace Value

mutual
/-- Whether two trees are the same with all that equality of values leaves open: the order of entries, and marks.
There are no floating-point numbers in them. -/
def isExactly : Value → Value → Bool
  | .null, .null => true
  | .bool a, .bool b => a = b
  | .int a, .int b => a = b
  | .str a, .str b => a = b
  | .seq a, .seq b => areExactly a b
  | .map a, .map b => entriesAreExactly a b
  | .tagged tag mark payload, .tagged otherTag otherMark other =>
    tag = otherTag && mark = otherMark && payload.isExactly other
  | _, _ => false
def areExactly : List Value → List Value → Bool
  | [], [] => true
  | a :: as, b :: bs => a.isExactly b && areExactly as bs
  | _, _ => false
def entriesAreExactly : List (Value × Value) → List (Value × Value) → Bool
  | [], [] => true
  | (k, v) :: as, (l, w) :: bs => k.isExactly l && v.isExactly w && entriesAreExactly as bs
  | _, _ => false
end

mutual
theorem eq_of_isExactly : {a b : Value} → a.isExactly b = true → a = b
  | .null, b, same => by cases b <;> first | rfl | cases same
  | .bool _, b, same => by cases b <;> first | exact congrArg _ (of_decide_eq_true same) | cases same
  | .int _, b, same => by cases b <;> first | exact congrArg _ (of_decide_eq_true same) | cases same
  | .str _, b, same => by cases b <;> first | exact congrArg _ (of_decide_eq_true same) | cases same
  | .float _, b, same => by cases b <;> cases same
  | .seq _, b, same => by cases b <;> first | exact congrArg _ (eq_of_areExactly same) | cases same
  | .map _, b, same => by cases b <;> first | exact congrArg _ (eq_of_entriesAreExactly same) | cases same
  | .tagged .., b, same => by
    cases b with
    | tagged =>
      simp only [isExactly, Bool.and_eq_true, decide_eq_true_eq] at same
      obtain ⟨⟨rfl, rfl⟩, same⟩ := same
      rw [eq_of_isExactly same]
    | _ => cases same
theorem eq_of_areExactly : {as bs : List Value} → areExactly as bs = true → as = bs
  | [], [], _ => rfl
  | _ :: _, _ :: _, same => by
    rw [areExactly, Bool.and_eq_true] at same
    rw [eq_of_isExactly same.1, eq_of_areExactly same.2]
theorem eq_of_entriesAreExactly : {as bs : List (Value × Value)} → entriesAreExactly as bs = true → as = bs
  | [], [], _ => rfl
  | (_, _) :: _, (_, _) :: _, same => by
    rw [entriesAreExactly, Bool.and_eq_true, Bool.and_eq_true] at same
    rw [eq_of_isExactly same.1.1, eq_of_isExactly same.1.2, eq_of_entriesAreExactly same.2]
end

end Value

theorem some_of_isExactly {x : Option Value} {v : Value} (found : x.any (·.isExactly v) = true) : x = some v := by
  obtain ⟨w, rfl, same⟩ := (Option.any_eq_true _ _).mp found
  rw [Value.eq_of_isExactly same]

/-- What a text is read as, by evaluation. -/
theorem Yaml.parse?_of_isExactly {text : String} {v : Value} (read : (parse? text).any (·.isExactly v) = true) :
    parse? text = some v :=
  some_of_isExactly read

theorem ok_of_isExactly {ε : Type} {x : Except ε Value} {v : Value}
    (found : x.toOption.any (·.isExactly v) = true) :
    x = .ok v := by
  obtain ⟨w, rfl, same⟩ := exists_ok_of_any found
  rw [Value.eq_of_isExactly same]

end ConfigWeave
