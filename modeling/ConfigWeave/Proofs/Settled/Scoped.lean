import ConfigWeave.Proofs.Settled.Document

namespace ConfigWeave

namespace OpenDocument

/-- The trees at hand in a document: its content, what is included in it, and all parts of these. -/
inductive Offers (document : OpenDocument) (content : Value) : Value → Prop
  | content : document.Offers content content
  | included {mark arguments scope v} : (document.inclusion mark arguments scope).result = .ok v →
      document.Offers content v
  | part {v inner} : document.Offers content v → Value.Part inner v → document.Offers content inner

/-- The scopes that there may be in a document which begins with the given one: with variables that have been
transformed, with the name of a package, and within the templates that are inserted, with their arguments. -/
inductive Scoped (document : OpenDocument) (content : Value) (start : Scope) : Scope → Prop
  | start : document.Scoped content start start
  | declared {scope : Scope} {entries : Mapping} {entry sub v} : document.Scoped content start scope →
      document.Offers content (.map entries) → entry ∈ entries →
      (transform (Templates.empty.site document) scope sub entry.2).result = .ok v →
      document.Scoped content start (scope.define entry.1.keyText (v.getD .null))
  | package {scope : Scope} {id} : document.Scoped content start scope →
      document.Scoped content start (scope.define packageVariable (.str id))
  | inserted {own scope : Scope} {entries : Mapping} {templates budget inserting sub mark payload v arguments} :
      document.Scoped content start own → content = .map entries →
      (document.ownTemplates own entries).result = .ok templates → document.Scoped content start scope →
      document.Offers content (.tagged .insertion mark payload) →
      (transform ⟨document, templates.instantiateWith document (templates.nested document budget) inserting⟩
        scope sub payload).result = .ok v →
      Arguments.ofPayload? "template" (v.getD .null) = some arguments →
      document.Scoped content start (scope.overlay arguments.vars).1

variable {document : OpenDocument} {content : Value} {start : Scope}

theorem Scoped.evaluateAll {tree : Mapping} (offered : document.Offers content (.map tree)) {sub : Option Pattern}
    {isProtected : String → Bool} {scope final : Scope} (arises : document.Scoped content start scope)
    {entries : List (Value × Value)} (among : ∀ entry ∈ entries, entry ∈ tree)
    (done : (Scope.evaluateAll document sub isProtected scope entries).result = .ok final) :
    document.Scoped content start final := by
  induction entries generalizing scope with
  | nil => exact Except.ok.inj done ▸ arises
  | cons entry rest ih =>
    obtain ⟨first, others⟩ := List.forall_mem_cons.mp among
    simp only [Scope.evaluateAll] at done
    split at done
    · exact ih arises others done
    · obtain ⟨v, transformed, done⟩ := Traced.exists_of_bind_ok done
      split at done
      · obtain ⟨_, _, done⟩ := Traced.exists_of_bind_ok done
        exact ih (arises.declared offered first transformed) others done
      · exact ih (arises.declared offered first transformed) others done

theorem Offers.of_transform_inclusion {site : Site} (same : site.toOpenDocument = document) {scope : Scope}
    {sub : Option Pattern} {mark : Nat} {payload v : Value}
    (done : (transform site scope sub (.tagged .inclusion mark payload)).result = .ok (some v)) :
    document.Offers content v := by
  simp only [transform] at done
  obtain ⟨arguments, _, done⟩ := Traced.exists_of_bind_ok done
  split at done
  · obtain ⟨tree, included, done⟩ := Traced.exists_of_bind_ok done
    cases done
    exact .included (same ▸ included)
  · obtain ⟨_, _, done⟩ := Traced.exists_of_bind_ok done
    cases done

theorem Offers.unaliased {v : Value} (offered : document.Offers content v) :
    document.Offers content v.unaliased := by
  fun_induction Value.unaliased v with
  | case1 mark payload ih => exact ih (offered.part (.payload (.self _)))
  | case2 v _ => exact offered

/-- The scope in which a document is composed is one of its scopes: that with all variables that it declares. -/
theorem Scoped.ownScope {scope final inherited : Scope} (arises : document.Scoped content start scope)
    {entries : Mapping} (offered : document.Offers content (.map entries))
    (done : (document.ownScope scope inherited entries).result = .ok final) :
    document.Scoped content start final := by
  have unchanged {v : Value} (done : (do
      document.warn s!"The 'variables' section must be a mapping, got {v.typeName}"
      return scope : Run Scope).result = .ok final) : document.Scoped content start final :=
    Except.ok.inj done ▸ arises
  unfold OpenDocument.ownScope at done
  split at done
  · rename_i declared found
    obtain ⟨entry, member, rfl⟩ := Value.exists_mem_of_get? found
    have unaliased := (offered.part (.value member (.self _))).unaliased
    unfold Scope.ofSection at done
    split at done
    · exact Except.ok.inj done ▸ arises
    · rename_i same
      exact .evaluateAll (same ▸ unaliased) arises (fun _ among => among) done
    · rename_i name mark entries same
      have below := (same ▸ unaliased).part (.payload (.self (.map entries)))
      obtain ⟨_, _, done⟩ := Traced.exists_of_bind_ok done
      exact .evaluateAll below arises (fun _ among => among) done
    · obtain ⟨v, transformed, done⟩ := Traced.exists_of_bind_ok done
      split at done
      · exact .evaluateAll (.of_transform_inclusion rfl transformed) arises (fun _ among => among) done
      · exact Except.ok.inj done ▸ arises
      · exact Except.ok.inj done ▸ arises
      · exact unchanged done
    · exact unchanged done
    · exact unchanged done
  · exact Except.ok.inj done ▸ arises

/-- All that is included in a document is settled. -/
def IncludesSettled (document : OpenDocument) : Prop :=
  ∀ mark arguments scope v, (document.inclusion mark arguments scope).result = .ok v → v.Settled

theorem IncludesSettled.documents (included : document.IncludesSettled) :
    Compositional.always.Documents .settling fun _ => document :=
  ⟨⟨_, fun _ => rfl⟩, ⟨_, fun _ => rfl⟩, fun mark arguments scope _ _ =>
    ⟨trivial, fun _ v done => included mark arguments scope v done⟩⟩

theorem Offers.proper (included : document.IncludesSettled) (proper : content.Proper) {v : Value}
    (offered : document.Offers content v) : v.Proper ∨ v.IsPlainMerge := by
  induction offered with
  | content => exact .inl proper
  | included done => exact .inl (included _ _ _ _ done).proper
  | part _ part ih =>
    rcases ih with proper | ⟨mark, rfl⟩
    · exact proper.part part
    · cases part with
      | self => exact .inr ⟨mark, rfl⟩
      | payload below =>
        cases below with
        | self => exact .inl (.scalar trivial)

/-- A tag other than that of a merge key tells that a tree is no merge key. -/
theorem Offers.proper_tagged (included : document.IncludesSettled) (proper : content.Proper) {tag : Tag}
    {mark : Nat} {payload : Value} (offered : document.Offers content (.tagged tag mark payload))
    (other : tag ≠ .mergeKey) :
    (Value.tagged tag mark payload).Proper :=
  (offered.proper included proper).resolve_right fun ⟨_, same⟩ => other (Value.tagged.inj same).1

theorem Offers.proper_map (included : document.IncludesSettled) (proper : content.Proper) {entries : Mapping}
    (offered : document.Offers content (.map entries)) : (Value.map entries).Proper :=
  (offered.proper included proper).resolve_right fun ⟨_, same⟩ => by cases same

theorem Scoped.settled (included : document.IncludesSettled) (proper : content.Proper) (settled : start.Settled)
    {scope : Scope} (arises : document.Scoped content start scope) : scope.Settled := by
  have documents := included.documents
  induction arises with
  | start => exact settled
  | @declared scope entries entry sub v _ offered member done ih =>
    have written := ((offered.proper_map included proper).entries entry member).2
    have transformed := (documents.sites Quality.bodies_empty).transform ih sub entry.2 written
    exact ih.define _ (transformed.result () v done).orNull
  | package _ ih => exact ih.define _ (.scalar trivial)
  | @inserted own scope entries templates budget inserting sub mark payload v arguments _ mapping known _
      offered done asked ihOwn ih =>
    subst mapping
    have bodies := (documents.ownTemplates ihOwn proper).result () templates known
    have sites : Compositional.always.Sites .settling fun _ =>
        ⟨document, templates.instantiateWith document (templates.nested document budget) inserting⟩ :=
      ⟨documents, fun _ _ _ given sound => documents.instantiate bodies _ _ _ given sound⟩
    have written := (offered.proper_tagged included proper (by decide)).payload (by decide)
    have outcome := (sites.transform ih sub payload written).result () v done
    exact Quality.overlay (Q := .settling) ih (Quality.given_ofPayload? outcome.orNull asked)

end OpenDocument

end ConfigWeave
