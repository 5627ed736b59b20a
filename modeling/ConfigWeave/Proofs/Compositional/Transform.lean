import ConfigWeave.Proofs.Compositional.Quality

namespace ConfigWeave

namespace RunLogic

variable {ι : Type}

/-- Documents of one file, with inclusions of which it is ensured that what is given to them and the scopes that
belong together at their places lead to what may be composed. -/
structure Documents (L : RunLogic ι) (R : Regime ι) (document : ι → OpenDocument) : Prop where
  file : ∃ file, ∀ i, (document i).file = file
  lines : ∃ lines, ∀ i, (document i).lines = lines
  inclusion : ∀ mark arguments scopes, R.Given arguments → R.Together scopes →
    L.Ensures R.Composed fun i => (document i).inclusion mark arguments (scopes i)

/-- Sites in such documents, with insertions of which the same is ensured. -/
structure Sites (L : RunLogic ι) (R : Regime ι) (site : ι → Site) : Prop where
  documents : L.Documents R fun i => (site i).toOpenDocument
  insertion : ∀ mark arguments scopes, R.Given arguments → R.Together scopes →
    L.Ensures R.Outcome fun i => (site i).insertion mark arguments (scopes i)

variable {L : RunLogic ι} {R : Regime ι} {document : ι → OpenDocument} {site : ι → Site} {scopes : ι → Scope}

theorem Documents.warnAll (documents : L.Documents R document) (messages : List String) :
    L.Ensures (fun _ => True) fun i => (document i).warnAll messages := by
  obtain ⟨file, same⟩ := documents.file
  simpa only [OpenDocument.warnAll, same] using L.warned file messages

theorem Documents.warn (documents : L.Documents R document) (message : String) :
    L.Ensures (fun _ => True) fun i => (document i).warn message :=
  documents.warnAll [message]

/-- What is logged is logged of any document in the same way. -/
theorem Documents.logged {α : Type} (documents : L.Documents R document) (x : Traced String Panic α) :
    L.Ensures (fun a => x.result = .ok a) fun i => (document i).logged x := by
  unfold OpenDocument.logged
  refine .bind (documents.warnAll _) fun _ _ => ?_
  cases x.result with
  | error cause => exact .fail _
  | ok a => exact .pure rfl

theorem Documents.locate_eq (documents : L.Documents R document) (mark : Nat) :
    ∃ location, ∀ i, (document i).locate mark = location := by
  obtain ⟨file, sameFile⟩ := documents.file
  obtain ⟨lines, sameLines⟩ := documents.lines
  exact ⟨lines.locate file.text mark, fun i => by rw [OpenDocument.locate, sameFile, sameLines]⟩

theorem Documents.warnAt (documents : L.Documents R document) (mark : Nat) (message : String) :
    L.Ensures (fun _ => True) fun i => (document i).warnAt mark message := by
  obtain ⟨location, same⟩ := documents.locate_eq mark
  simpa only [OpenDocument.warnAt, same] using documents.warn _

theorem Sites.pattern (sites : L.Sites R site) (together : R.Together scopes) (reads : R.Reads)
    (name : Option String) :
    L.Ensures (fun _ => True) fun i => (site i).pattern (scopes i) name := by
  obtain ⟨scope, same, _⟩ := R.same reads together
  simp only [same]
  unfold Site.pattern
  cases name with
  | none => exact .pure trivial
  | some name =>
    dsimp only
    split
    · split
      · exact .pure trivial
      · exact .bind (sites.documents.warn _) fun _ _ => .pure trivial
    · exact .bind (sites.documents.warn _) fun _ _ => .pure trivial

theorem Sites.holds (sites : L.Sites R site) (together : R.Together scopes) (reads : R.Reads)
    (condition : Option Value) :
    L.Ensures (fun _ => True) fun i => (site i).holds (scopes i) condition := by
  obtain ⟨scope, same, _⟩ := R.same reads together
  simp only [same]
  unfold Site.holds
  split
  · exact .bind (sites.documents.logged _) fun _ _ => .pure trivial
  · exact .pure trivial
  · exact .pure trivial

/-- All entries of a list are composed. -/
abbrev EntriesComposed (R : Regime ι) (entries : List (Value × Value)) : Prop :=
  ∀ entry ∈ entries, R.Composed entry.1 ∧ R.Composed entry.2

mutual
theorem Sites.mergeSources (sites : L.Sites R site) :
    (v : Value) → R.Composed v → L.Ensures (EntriesComposed R) fun i => (site i).mergeSources v
  | .null, _ => .pure (by simp)
  | .map _, composed => .pure (R.entries composed)
  | .seq items, composed => sites.mergeSourceItems items (R.items composed)
  | .bool _, _ | .int _, _ | .float _, _ | .str _, _ | .tagged .., _ =>
    .bind (sites.documents.warn _) fun _ _ => .pure (by simp)
theorem Sites.mergeSourceItems (sites : L.Sites R site) : (items : List Value) → (∀ item ∈ items, R.Composed item) →
    L.Ensures (EntriesComposed R) fun i => (site i).mergeSourceItems items
  | [], _ => .pure (by simp)
  | item :: rest, composed => by
    obtain ⟨first, others⟩ := List.forall_mem_cons.mp composed
    simp only [Site.mergeSourceItems]
    refine .bind (sites.mergeSources item first) fun entries here => ?_
    refine .bind (sites.mergeSourceItems rest others) fun more later => .pure ?_
    exact List.forall_mem_append.mpr ⟨here, later⟩
end

theorem Sites.resolveMergeKey (sites : L.Sites R site) {entries : Mapping}
    (composed : ∀ entry ∈ entries, R.ComposedKey entry.1 ∧ R.Composed entry.2) :
    L.Ensures (fun m => R.Composed (.map m)) fun i => (site i).resolveMergeKey (Mapping.ofList entries) := by
  unfold Site.resolveMergeKey
  split
  · rename_i absent
    exact .pure (R.collected composed absent)
  · rename_i sources present
    obtain ⟨entry, member, rfl⟩ := Value.exists_mem_of_get? present
    have here : R.Composed entry.2 :=
      (Mapping.forall_mem_insertAll (P := R.ComposedKey) (by simp) composed entry member).2
    exact .bind (sites.mergeSources _ here) fun _ sources => .pure (R.merged composed sources)

/-- A merge key stays as it is until all entries of its mapping are there. -/
theorem ensures_transformKey {sub : Option Pattern} {key : Value} (written : R.WrittenKey key)
    (plain : R.Written key → L.Ensures R.Outcome fun i => ConfigWeave.transform (site i) (scopes i) sub key) :
    L.Ensures (fun key => ∀ k ∈ key, R.ComposedKey k) fun i =>
      ConfigWeave.transform (site i) (scopes i) sub key := by
  rcases written with ordinary | ⟨mark, rfl⟩
  · exact (plain ordinary).mono fun _ outcome k member => .inl (outcome k member)
  · refine .pure ?_
    rintro _ ⟨⟩
    exact .inr ⟨mark, rfl⟩

mutual
/-- What is done about a tree has the property, as what is included and inserted has it, and what comes out has the
quality that the tree has. The induction is on the tree: other documents and the bodies of templates only stand
behind the two handlers. -/
theorem Sites.transform (sites : L.Sites R site) (together : R.Together scopes) {sub : Option Pattern}
    (reads : sub ≠ none → R.Reads) :
    (v : Value) → R.Written v → L.Ensures R.Outcome fun i => ConfigWeave.transform (site i) (scopes i) sub v
  | .null, written | .bool _, written | .int _, written
  | .float _, written => .pure (.some (R.scalar written trivial))
  | .str text, written => by
    cases sub with
    | none => exact .pure (.some (R.scalar written trivial))
    | some p =>
      obtain ⟨scope, same, interpolated⟩ := R.same (reads nofun) together
      simp only [ConfigWeave.transform, same]
      refine .bind (sites.documents.logged _) fun v found => .pure (.some ?_)
      cases v with
      | none => exact R.scalar written trivial
      | some v => exact interpolated p text v found
  | .seq items, written => by
    simp only [ConfigWeave.transform]
    exact .bind (sites.transformItems together reads items (R.writtenItems written)) fun _ composed =>
      .pure (.some (R.seq composed))
  | .map entries, written => by
    simp only [ConfigWeave.transform]
    refine .bind (sites.transformEntries together reads entries (R.writtenEntries written)) fun _ composed => ?_
    exact .bind (sites.resolveMergeKey composed) fun _ composed => .pure (.some composed)
  | .tagged tag mark payload, written => by
    simp only [ConfigWeave.transform]
    match tag, written with
    | .sub name, written =>
      exact .bind (sites.pattern together (R.substituted written) name) fun p _ =>
        sites.transform together (fun _ => R.substituted written) payload (R.payload written nofun nofun)
    | .nosub, written => exact sites.transform together (absurd rfl) payload (R.payload written nofun nofun)
    | .alias, written => exact sites.transform together (absurd rfl) payload (R.payload written nofun nofun)
    | .cond, written =>
      exact sites.transformCondition together reads (R.conditional written) mark payload
        (R.payload written nofun nofun)
    | .inclusion, written =>
      refine .bind (sites.transform together reads payload (R.payload written nofun nofun)) fun v outcome => ?_
      cases asked : Arguments.ofPayload? "file" (v.getD .null) with
      | some arguments =>
        have given := Regime.given_ofPayload? outcome.orNull asked
        exact .bind (sites.documents.inclusion mark arguments scopes given together) fun _ composed =>
          .pure (.some composed)
      | none => exact .bind (sites.documents.warnAt _ _) fun _ _ => .pure .none
    | .insertion, written =>
      refine .bind (sites.transform together reads payload (R.payload written nofun nofun)) fun v outcome => ?_
      cases asked : Arguments.ofPayload? "template" (v.getD .null) with
      | some arguments =>
        exact sites.insertion mark arguments scopes (Regime.given_ofPayload? outcome.orNull asked) together
      | none => exact .bind (sites.documents.warnAt _ _) fun _ _ => .pure .none
    | .replacement, written =>
      exact .bind (sites.transform together reads payload (R.payload written nofun nofun)) fun _ outcome =>
        .pure (.some (R.replacement outcome.orNull))
    | .removal, written => exact .pure (.some (R.kept written (.inl rfl)))
    | .mergeKey, written => exact .pure (.some (R.kept written (.inr rfl)))
    | .unknown name, written =>
      exact .bind (sites.documents.warnAt _ _) fun _ _ =>
        sites.transform together reads payload (R.payload written nofun nofun)
theorem Sites.transformItems (sites : L.Sites R site) (together : R.Together scopes) {sub : Option Pattern}
    (reads : sub ≠ none → R.Reads) :
    (items : List Value) → (∀ item ∈ items, R.Written item) →
      L.Ensures (fun items => ∀ item ∈ items, R.Composed item) fun i =>
        ConfigWeave.transformItems (site i) (scopes i) sub items
  | [], _ => .pure (by simp)
  | item :: rest, written => by
    obtain ⟨first, others⟩ := List.forall_mem_cons.mp written
    simp only [ConfigWeave.transformItems]
    refine .bind (sites.transform together reads item first) fun v outcome => ?_
    refine .bind (sites.transformItems together reads rest others) fun items composed => .pure ?_
    exact List.forall_mem_append.mpr ⟨fun w member => outcome w (Option.mem_toList.mp member), composed⟩
theorem Sites.transformEntries (sites : L.Sites R site) (together : R.Together scopes) {sub : Option Pattern}
    (reads : sub ≠ none → R.Reads) :
    (entries : List (Value × Value)) → (∀ entry ∈ entries, R.WrittenKey entry.1 ∧ R.Written entry.2) →
      L.Ensures (fun entries => ∀ entry ∈ entries, R.ComposedKey entry.1 ∧ R.Composed entry.2) fun i =>
        ConfigWeave.transformEntries (site i) (scopes i) sub entries
  | [], _ => .pure (by simp)
  | (key, value) :: rest, written => by
    obtain ⟨⟨writtenKey, writtenValue⟩, others⟩ := List.forall_mem_cons.mp written
    simp only [ConfigWeave.transformEntries]
    refine .bind (ensures_transformKey writtenKey (sites.transform together reads key)) fun key composedKey => ?_
    cases key with
    | none => exact sites.transformEntries together reads rest others
    | some key =>
      refine .bind (sites.transform together reads value writtenValue) fun value outcome => ?_
      cases value with
      | none => exact sites.transformEntries together reads rest others
      | some value =>
        refine .bind (sites.transformEntries together reads rest others) fun entries composed => .pure ?_
        exact List.forall_mem_cons.mpr ⟨⟨composedKey key rfl, outcome value rfl⟩, composed⟩
theorem Sites.transformAt (sites : L.Sites R site) (together : R.Together scopes) {sub : Option Pattern}
    (reads : sub ≠ none → R.Reads)
    (key : String) : (entries : List (Value × Value)) →
    (∀ entry ∈ entries, R.WrittenKey entry.1 ∧ R.Written entry.2) →
      L.Ensures R.Outcome fun i => ConfigWeave.transformAt (site i) (scopes i) sub key entries
  | [], _ => .pure .none
  | (k, value) :: rest, written => by
    obtain ⟨⟨_, writtenValue⟩, others⟩ := List.forall_mem_cons.mp written
    simp only [ConfigWeave.transformAt]
    split
    · exact sites.transform together reads value writtenValue
    · exact sites.transformAt together reads key rest others
theorem Sites.transformCondition (sites : L.Sites R site) (together : R.Together scopes) {sub : Option Pattern}
    (reads : sub ≠ none → R.Reads) (asks : R.Reads)
    (mark : Nat) : (v : Value) → R.Written v →
      L.Ensures R.Outcome fun i => ConfigWeave.transformCondition (site i) (scopes i) sub mark v
  | .map clause, written => by
    have each := R.writtenEntries written
    simp only [ConfigWeave.transformCondition]
    split
    · refine .bind (sites.transformAt together reads "if" clause each) fun condition _ => ?_
      refine .bind (sites.holds together asks condition) fun chosen _ => ?_
      cases chosen with
      | true => exact sites.transformAt together reads "then" clause each
      | false => exact sites.transformAt together reads "else" clause each
    · exact .bind (sites.documents.warnAt _ _) fun _ _ => .pure .none
  | .seq clauses, written => by
    simp only [ConfigWeave.transformCondition]
    exact sites.transformClauses together reads asks 1 clauses (R.writtenItems written)
  | .null, _ | .bool _, _ | .int _, _ | .float _, _ | .str _, _ | .tagged .., _ => by
    simp only [ConfigWeave.transformCondition]
    exact .bind (sites.documents.warnAt _ _) fun _ _ => .pure .none
theorem Sites.transformClauses (sites : L.Sites R site) (together : R.Together scopes) {sub : Option Pattern}
    (reads : sub ≠ none → R.Reads) (asks : R.Reads)
    (position : Nat) : (clauses : List Value) → (∀ clause ∈ clauses, R.Written clause) →
      L.Ensures R.Outcome fun i => ConfigWeave.transformClauses (site i) (scopes i) sub position clauses
  | [], _ => .pure .none
  | clause :: rest, written => by
    obtain ⟨first, others⟩ := List.forall_mem_cons.mp written
    simp only [ConfigWeave.transformClauses]
    refine .bind (sites.transformClause together reads asks position clause first) fun branch outcome => ?_
    cases branch with
    | some branch => exact .pure (outcome branch rfl)
    | none => exact sites.transformClauses together reads asks (position + 1) rest others
theorem Sites.transformClause (sites : L.Sites R site) (together : R.Together scopes) {sub : Option Pattern}
    (reads : sub ≠ none → R.Reads) (asks : R.Reads)
    (position : Nat) : (v : Value) → R.Written v → L.Ensures (fun branch => ∀ v ∈ branch, R.Outcome v) fun i =>
      ConfigWeave.transformClause (site i) (scopes i) sub position v
  | .map clause, written => by
    have each := R.writtenEntries written
    have branch (key : String) : L.Ensures (fun branch => ∀ v ∈ branch, R.Outcome v) fun i => do
        return some (← ConfigWeave.transformAt (site i) (scopes i) sub key clause) := by
      refine .bind (sites.transformAt together reads key clause each) fun v outcome => .pure ?_
      rintro _ ⟨⟩
      exact outcome
    simp only [ConfigWeave.transformClause]
    split
    · exact branch "else"
    · cases conditionKey? clause with
      | none => exact .bind (sites.documents.warn _) fun _ _ => .pure nofun
      | some key =>
        refine .bind (sites.transformAt together reads key clause each) fun condition _ => ?_
        refine .bind (sites.holds together asks condition) fun chosen _ => ?_
        cases chosen with
        | true => exact branch "then"
        | false => exact .pure nofun
  | .tagged tag mark payload, written => by
    match tag, written with
    | .alias, written =>
      simp only [ConfigWeave.transformClause]
      exact sites.transformClause together reads asks position payload (R.payload written nofun nofun)
    | .sub _, _ | .nosub, _ | .cond, _ | .inclusion, _ | .insertion, _ | .removal, _ | .replacement, _
    | .mergeKey, _
    | .unknown _, _ =>
      simp only [ConfigWeave.transformClause]
      exact .bind (sites.documents.warn _) fun _ _ => .pure nofun
  | .null, _ | .bool _, _ | .int _, _ | .float _, _ | .str _, _ | .seq _, _ => by
    simp only [ConfigWeave.transformClause]
    exact .bind (sites.documents.warn _) fun _ _ => .pure nofun
end

theorem Sites.transformKey (sites : L.Sites R site) (together : R.Together scopes) {sub : Option Pattern}
    (reads : sub ≠ none → R.Reads) (key : Value) (written : R.WrittenKey key) :
    L.Ensures (fun key => ∀ k ∈ key, R.ComposedKey k) fun i => ConfigWeave.transform (site i) (scopes i) sub key :=
  ensures_transformKey written (sites.transform together reads key)

end RunLogic

namespace Compositional

/-- Documents of one file, with inclusions that have a property. What they are given and what comes of them has a
quality. -/
structure Documents {ι : Type} (P : Compositional ι) (Q : Quality) (document : ι → OpenDocument) : Prop where
  file : ∃ file, ∀ i, (document i).file = file
  lines : ∃ lines, ∀ i, (document i).lines = lines
  inclusion : ∀ mark arguments scope, Q.Given arguments → Q.Sound scope →
    P.Ensures Q.Composed fun i => (document i).inclusion mark arguments scope

/-- Sites in such documents, with insertions that have the property as well. -/
structure Sites {ι : Type} (P : Compositional ι) (Q : Quality) (site : ι → Site) : Prop where
  documents : P.Documents Q fun i => (site i).toOpenDocument
  insertion : ∀ mark arguments scope, Q.Given arguments → Q.Sound scope →
    P.Ensures Q.Outcome fun i => (site i).insertion mark arguments scope

variable {ι : Type} {P : Compositional ι} {Q : Quality} {document : ι → OpenDocument} {site : ι → Site}

/-- Scopes that are the same everywhere are one scope. -/
theorem Documents.logic (documents : P.Documents Q document) : P.logic.Documents (Q.regime ι) document where
  file := documents.file
  lines := documents.lines
  inclusion mark arguments scopes given together := by
    obtain ⟨scope, same, sound⟩ := together
    simp only [same]
    exact documents.inclusion mark arguments scope given sound

theorem Sites.logic (sites : P.Sites Q site) : P.logic.Sites (Q.regime ι) site where
  documents := sites.documents.logic
  insertion mark arguments scopes given together := by
    obtain ⟨scope, same, sound⟩ := together
    simp only [same]
    exact sites.insertion mark arguments scope given sound

theorem Sites.transform (sites : P.Sites Q site) {scope : Scope} (sound : Q.Sound scope) (sub : Option Pattern)
    (v : Value) (written : Q.Written v) : P.Ensures Q.Outcome fun i => ConfigWeave.transform (site i) scope sub v :=
  sites.logic.transform (Quality.together_regime sound) (fun _ => trivial) v written

end Compositional

end ConfigWeave
