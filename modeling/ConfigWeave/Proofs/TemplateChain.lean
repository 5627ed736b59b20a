import ConfigWeave.Proofs.IncludeChain
import ConfigWeave.Proofs.Termination
import Mathlib.Data.Nat.Find

namespace ConfigWeave

/-- The tree that is left of nested mappings when what would stand in the innermost one is dropped with its key. -/
def Value.emptiedUnder (name : String) : (depth : Nat) → Option Value
  | 0 => none
  | depth + 1 => some (nestedUnder name depth (.map []))

/-- A value below so many mappings if there is one, and otherwise the mappings without it. -/
def Value.keptUnder (name : String) (depth : Nat) (v : Option Value) : Option Value :=
  v.elim (emptiedUnder name depth) fun v => some (nestedUnder name depth v)

/-- A value in a mapping of its own, which is empty if there is none. -/
def Value.childOf (name : String) (v : Option Value) : Value :=
  .map (v.toList.map fun v => (.str name, v))

theorem Value.keptUnder_zero (name : String) (v : Option Value) : keptUnder name 0 v = v := by
  cases v <;> rfl

theorem Value.keptUnder_succ (name : String) (depth : Nat) (v : Option Value) :
    keptUnder name (depth + 1) v = keptUnder name depth (some (childOf name v)) := by
  cases v <;> rfl

theorem Site.transform_insertion_under (site : Site) (scope : Scope) (name : String) (mark : Nat) {payload : Value}
    {arguments : Arguments} (free : payload.TagFree) (distinct : payload.KeysDistinct)
    (asks : Arguments.ofPayload? "template" payload = some arguments) :
    transform site scope none (.map [(.str name, .tagged .insertion mark payload)]) = do
      return some (Value.childOf name (← site.insertion mark arguments scope)) := by
  have key : (Value.str name).TagFree := Value.tagFree_untagged (.str name)
  have resolved (v : Value) : site.resolveMergeKey (Mapping.ofList [(.str name, v)]) = pure [(.str name, v)] :=
    site.resolveMergeKey_of_tagFree (List.forall_mem_singleton.mpr key)
  simp only [transform, transformEntries, transform_of_tagFree _ _ free distinct, pure_bind, bind_assoc,
    Option.getD_some, asks]
  refine congrArg (site.insertion mark arguments scope >>= ·) (funext fun out => ?_)
  cases out with
  | none => rfl
  | some v =>
    simp only [pure_bind, resolved]
    rfl

namespace Templates

/-- The template has nothing but the insertion of another one, under `child`. -/
def LinksTo (templates : Templates) (name : String) (mark : Nat) (target : String) : Prop :=
  ∃ payload, templates.get? name = some (.map [(.str "child", .tagged .insertion mark payload)]) ∧ payload.TagFree ∧
    payload.KeysDistinct ∧ Arguments.ofPayload? "template" payload = some ⟨target, []⟩

/-- Every template is a link to another one or has nothing to carry out. -/
def Linear (templates : Templates) : Prop :=
  ∀ name body, templates.get? name = some body →
    (body.TagFree ∧ body.KeysDistinct) ∨ ∃ mark target, templates.LinksTo name mark target

/-- The templates that an insertion leads to so many times, each inserted at a mark in the one before it. -/
structure Chain (templates : Templates) (start : String) (first : Nat) (name : Nat → String) (mark : Nat → Nat)
    (n : Nat) : Prop where
  name_zero : name 0 = start
  mark_zero : mark 0 = first
  links : ∀ i < n, templates.LinksTo (name i) (mark (i + 1)) (name (i + 1))

/-- What comes of an insertion that leads from one template to the next, so many times, each inserted at a mark in
the one before it. -/
inductive Ends (templates : Templates) (document : OpenDocument) (name : Nat → String) (mark : Nat → Nat)
    (n : Nat) :
    Run (Option Value) → Prop
  | tagFree {body : Value} : templates.get? (name n) = some body → body.TagFree → body.KeysDistinct →
      Ends templates document name mark n (return some (Value.nestedUnder "child" n body))
  | undefined : templates.get? (name n) = none →
      Ends templates document name mark n (do
        document.warnAt (mark n) s!"Failed to process !insert: template not found: '{name n}'"
        return Value.emptiedUnder "child" n)
  | repeated : (∃ j < n, name j = name n) → (∀ i < n, ∀ j < i, name j ≠ name i) →
      Ends templates document name mark n
        (.fail (.circularInsertion (document.locate (mark n)) ((List.range (n + 1)).map name)))

variable {templates : Templates} {document : OpenDocument} {name : Nat → String} {mark : Nat → Nat} {n : Nat}

theorem LinksTo.unique {here target other : String} {m k : Nat} (links : templates.LinksTo here m target)
    (also : templates.LinksTo here k other) : target = other := by
  obtain ⟨payload, body, _, _, asks⟩ := links
  obtain ⟨same, alsoBody, _, _, alsoAsks⟩ := also
  cases body.symm.trans alsoBody
  cases asks.symm.trans alsoAsks
  rfl

theorem LinksTo.isSome {here target : String} {m : Nat} (links : templates.LinksTo here m target) :
    (templates.get? here).isSome := by
  obtain ⟨_, body, _⟩ := links
  rw [body]
  rfl

/-- A link comes down to an insertion of the template that it leads to. -/
theorem insertion_of_linksTo {here target : String} {m : Nat} (links : templates.LinksTo here m target)
    {inserting : List String} (distinct : inserting.Nodup)
    (known : ∀ other ∈ inserting, (templates.get? other).isSome) (fresh : here ∉ inserting) (k : Nat)
    (scope : Scope) :
    (templates.siteWithin document inserting).insertion k ⟨here, []⟩ scope = do
      return some (Value.childOf "child"
        (← (templates.siteWithin document (inserting ++ [here])).insertion m ⟨target, []⟩ scope)) := by
  obtain ⟨payload, body, free, payloadDistinct, asks⟩ := links
  rw [insertion_siteWithin distinct known body fresh]
  exact Site.transform_insertion_under _ scope "child" m free payloadDistinct asks

theorem not_mem_of_fresh {i : Nat} (fresh : ∀ j < i, name j ≠ name i) : name i ∉ (List.range i).map name := by
  intro member
  obtain ⟨j, early, same⟩ := List.mem_map.mp member
  exact fresh j (List.mem_range.mp early) same

section Chain

variable (links : ∀ i < n, templates.LinksTo (name i) (mark (i + 1)) (name (i + 1)))
include links

theorem distinct_known (fresh : ∀ i < n, ∀ j < i, name j ≠ name i) {k : Nat} (within : k ≤ n) :
    ((List.range k).map name).Nodup ∧ ∀ other ∈ (List.range k).map name, (templates.get? other).isSome := by
  constructor
  · refine List.pairwise_map.mpr (List.pairwise_lt_range.imp_of_mem fun _ late early => ?_)
    exact fresh _ (Nat.lt_of_lt_of_le (List.mem_range.mp late) within) _ early
  · intro other member
    obtain ⟨i, early, rfl⟩ := List.mem_map.mp member
    exact (links i (Nat.lt_of_lt_of_le (List.mem_range.mp early) within)).isSome

/-- What follows a template that repeats goes round in circles, so where links end nothing has repeated. -/
theorem fresh_of_ended (ended : ∀ m target, ¬ templates.LinksTo (name n) m target) :
    ∀ i ≤ n, ∀ j < i, name j ≠ name i := by
  intro i within j early same
  have onward : ∀ k, i + k ≤ n → name (j + k) = name (i + k) := by
    intro k
    induction k with
    | zero => exact fun _ => same
    | succ k ih =>
      intro further
      have reached := ih (Nat.le_of_succ_le further)
      exact (reached ▸ links (j + k) (by omega)).unique (links (i + k) further)
  have last := onward (n - i) (by omega)
  rw [show i + (n - i) = n by omega] at last
  exact ended _ _ (last ▸ links (j + (n - i)) (by omega))

/-- As long as no template repeats, the first insertion comes down to a later one. -/
theorem insertion_of_links (fresh : ∀ i < n, ∀ j < i, name j ≠ name i) (scope : Scope) {i : Nat} (within : i ≤ n) :
    (templates.site document).insertion (mark 0) ⟨name 0, []⟩ scope = do
      return Value.keptUnder "child" i
        (← (templates.siteWithin document ((List.range i).map name)).insertion (mark i) ⟨name i, []⟩
          scope) := by
  induction i with
  | zero =>
    simp only [Value.keptUnder_zero, bind_pure]
    rfl
  | succ i ih =>
    obtain ⟨distinct, known⟩ := distinct_known links fresh (Nat.le_of_succ_le within)
    rw [ih (Nat.le_of_succ_le within),
      insertion_of_linksTo (links i within) distinct known (not_mem_of_fresh (fresh i within)), List.range_succ,
      List.map_append, List.map_singleton]
    simp only [bind_assoc, pure_bind, Value.keptUnder_succ]

theorem insertion_of_ends {run : Run (Option Value)} (ends : templates.Ends document name mark n run)
    (scope : Scope) :
    (templates.site document).insertion (mark 0) ⟨name 0, []⟩ scope = run := by
  cases ends with
  | @tagFree body found free distinct =>
    have ended : ∀ m target, ¬ templates.LinksTo (name n) m target := by
      rintro m target ⟨payload, also, _⟩
      cases found.symm.trans also
      exact (free.of_mem_map List.mem_cons_self).2.not_tagged
    have fresh := fresh_of_ended links ended
    have before := fun i (early : i < n) => fresh i (Nat.le_of_lt early)
    obtain ⟨apart, known⟩ := distinct_known links before (Nat.le_refl n)
    rw [insertion_of_links links before scope (Nat.le_refl n),
      insertion_siteWithin apart known found (not_mem_of_fresh (fresh n (Nat.le_refl n)))]
    simp only [transform_of_tagFree _ _ free distinct]
    rfl
  | undefined absent =>
    have ended : ∀ m target, ¬ templates.LinksTo (name n) m target := by
      rintro m target ⟨payload, also, _⟩
      cases absent.symm.trans also
    have fresh := fresh_of_ended links ended
    rw [insertion_of_links links (fun i early => fresh i (Nat.le_of_lt early)) scope (Nat.le_refl n)]
    simp only [siteWithin, instantiateWith, absent, bind_assoc, pure_bind]
    rfl
  | repeated again fresh =>
    obtain ⟨j, early, same⟩ := again
    have member : name n ∈ (List.range n).map name := List.mem_map.mpr ⟨j, List.mem_range.mpr early, same⟩
    obtain ⟨body, found⟩ := Option.isSome_iff_exists.mp (same ▸ (links j early).isSome)
    rw [insertion_of_links links fresh scope (Nat.le_refl n), List.range_succ, List.map_append, List.map_singleton]
    simp only [siteWithin, instantiateWith, found, if_pos member]
    rfl

end Chain

/-- Wherever one starts, links between templates come to an end or come back. -/
theorem Linear.exists_ends (linear : templates.Linear) (start : String) (first : Nat) :
    ∃ (n : Nat) (name : Nat → String) (mark : Nat → Nat), templates.Chain start first name mark n ∧
      ∀ document : OpenDocument, ∃ run, templates.Ends document name mark n run := by
  classical
  have onward (here : String) : ∃ there : String × Nat,
      (∃ m target, templates.LinksTo here m target) → templates.LinksTo here there.2 there.1 := by
    by_cases leads : ∃ m target, templates.LinksTo here m target
    · obtain ⟨m, target, links⟩ := leads
      exact ⟨(target, m), fun _ => links⟩
    · exact ⟨(here, 0), fun known => absurd known leads⟩
  let state : Nat → String × Nat := Nat.rec (start, first) fun _ here => (onward here.1).choose
  let name (i : Nat) := (state i).1
  let mark (i : Nat) := (state i).2
  let Last (n : Nat) := (¬ ∃ m target, templates.LinksTo (name n) m target) ∨ ∃ j < n, name j = name n
  have links {n : Nat} (before : ∀ i < n, ¬ Last i) (i : Nat) (early : i < n) :
      templates.LinksTo (name i) (mark (i + 1)) (name (i + 1)) :=
    (onward (name i)).choose_spec (Classical.not_not.mp (not_or.mp (before i early)).1)
  have fresh {n : Nat} (before : ∀ i < n, ¬ Last i) (i : Nat) (early : i < n) (j : Nat) (earlier : j < i) :
      name j ≠ name i :=
    fun same => (not_or.mp (before i early)).2 ⟨j, earlier, same⟩
  have last : ∃ n, Last n := by
    refine Classical.byContradiction fun none => ?_
    have before : ∀ i < templates.size + 1, ¬ Last i := fun i _ here => none ⟨i, here⟩
    obtain ⟨distinct, known⟩ := distinct_known (links before) (fresh before) (Nat.le_refl _)
    have room := length_le_size distinct known
    rw [List.length_map, List.length_range] at room
    omega
  refine ⟨Nat.find last, name, mark, ⟨rfl, rfl, links fun _ => Nat.find_min last⟩, fun document => ?_⟩
  by_cases again : ∃ j < Nat.find last, name j = name (Nat.find last)
  · exact ⟨_, .repeated again (fresh fun _ => Nat.find_min last)⟩
  · have ended := (Nat.find_spec last).resolve_right again
    cases found : templates.get? (name (Nat.find last)) with
    | none => exact ⟨_, .undefined found⟩
    | some body =>
      obtain ⟨free, distinct⟩ | leads := linear _ body found
      · exact ⟨_, .tagFree found free distinct⟩
      · exact absurd leads ended

end Templates

/-- A document with nothing but templates and an insertion under a key is composed by inserting. -/
theorem OpenDocument.compose_of_insertion (document : OpenDocument) (scope inherited : Scope) (declared : Mapping)
    {key : String} (noSection : key ∉ sectionKeys) (shown : key.toList.head? ≠ some '.') (m : Nat) {payload : Value}
    {arguments : Arguments} (free : payload.TagFree) (distinct : payload.KeysDistinct)
    (asks : Arguments.ofPayload? "template" payload = some arguments) :
    document.compose scope inherited
        (.map [(.str "templates", .map declared), (.str key, .tagged .insertion m payload)]) = do
      return Value.childOf key
        (← ((Templates.ofMapping declared).site document).insertion m arguments scope) := by
  have others {name : String} (member : name ∈ sectionKeys) : Value.str key ≠ .str name := by
    rintro ⟨⟩
    exact noSection member
  have only (v : Value) {name : String} (member : name ∈ sectionKeys) :
      Mapping.get? [(.str key, v)] (.str name) = none :=
    Mapping.get?_str_cons_of_ne (others member) _ _
  have absent (name : String) (member : name ∈ sectionKeys) (other : name ≠ "templates") :
      Mapping.get? [(.str "templates", .map declared), (.str key, .tagged .insertion m payload)] (.str name) =
        none := by
    rw [Mapping.get?_str_cons_of_ne (fun same => other (Value.str.inj same).symm), only _ member]
  have stripped :
      Mapping.withoutSections [(.str "templates", .map declared), (.str key, .tagged .insertion m payload)] =
        [(.str key, .tagged .insertion m payload)] := by
    simp only [Mapping.withoutSections, sectionKeys, List.foldl_cons, List.foldl_nil]
    rw [Mapping.erase_of_absent (absent _ (by decide) (by decide)), Mapping.erase, if_pos (by rfl),
      Mapping.erase_of_absent (only _ (by decide))]
  have kept (out : Option Value) : Mapping.withoutHidden (out.toList.map fun v => (.str key, v)) =
      out.toList.map fun v => (.str key, v) := by
    refine Mapping.withoutHidden_of_shown fun entry member name isText => ?_
    obtain ⟨v, _, rfl⟩ := List.mem_map.mp member
    cases isText
    exact shown
  have noVariables := absent "variables" (by decide) (by decide)
  have noPackages := absent "packages" (by decide) (by decide)
  simp only [compose, ownScope, noVariables, ownTemplates, Mapping.get?_str_cons, Templates.ofSection,
    Value.unaliased, stripped, Site.withPackages, noPackages, pure_bind, bind_assoc,
    Site.transform_insertion_under _ scope key m free distinct asks, Value.childOf, kept]

/-- The main document has nothing but templates and the insertion of one of them, under a key. -/
structure World.Inserts (world : World) (main file : Path) (text : String) (templates : Templates) (key : String)
    (mark : Nat) (target : String) : Prop where
  leads : world.files.canonical main = .ok file
  read : (world.readText file).result = .ok text
  noSection : key ∉ sectionKeys
  shown : key.toList.head? ≠ some '.'
  parsed : ∃ declared payload, Templates.ofMapping declared = templates ∧ payload.TagFree ∧
    Arguments.ofPayload? "template" payload = some ⟨target, []⟩ ∧
    Yaml.parse? text = some (.map [(.str "templates", .map declared), (.str key, .tagged .insertion mark payload)])

theorem World.Inserts.load {world : World} {main file : Path} {text : String} {templates : Templates} {key : String}
    {mark : Nat} {target : String} (inserts : world.Inserts main file text templates key mark target) :
    ∃ scope, world.load main = do
      .report (.opened file)
      let site := templates.site (world.document (world.nested world.settings.maxDepth) [file] file text)
      return (Value.childOf key (← site.insertion mark ⟨target, []⟩ scope)).finished := by
  obtain ⟨leads, read, noSection, shown, declared, payload, rfl, free, asks, parsed⟩ := inserts
  have distinct : payload.KeysDistinct := fun inner part =>
    Yaml.keysDistinct_of_parse parsed inner (.value (List.mem_cons_of_mem _ List.mem_cons_self) (.payload part))
  let document := world.document (world.nested world.settings.maxDepth) [file] file text
  have composed : world.composeWith (world.nested world.settings.maxDepth) [file] file .empty =
      Traced.report (.opened file) >>= fun _ => document.compose ((world.builtins file).extend .empty) .empty
        (.map [(.str "templates", .map declared), (.str key, .tagged .insertion mark payload)]) := by
    rw [World.composeWith, Traced.bind_of_ok read, parsed, world.trace_readText]
    rfl
  refine ⟨(world.builtins file).extend .empty, ?_⟩
  simp only [World.load, leads, composed,
    OpenDocument.compose_of_insertion _ _ _ declared noSection shown mark free distinct asks, bind_assoc, pure_bind]
  rfl

/-- Where every template is a link to another one or has nothing to carry out, insertions end in one of three ways,
in every document and scope: with the body that the links lead to, below as many mappings as there are links; with
the mappings around a template that is not defined, whose key is dropped, and one warning; or, at the first
template that comes up again, with an error that has all templates up to that one. If there is nothing else in a
main document, its load ends like that. -/
theorem Templates.Linear.insertion_ends {templates : Templates} (linear : templates.Linear) (start : String)
    (first : Nat) :
    (∃ (n : Nat) (name : Nat → String) (mark : Nat → Nat), templates.Chain start first name mark n ∧
      ∀ document : OpenDocument, ∃ run, templates.Ends document name mark n run) ∧
    ∀ (n : Nat) (name : Nat → String) (mark : Nat → Nat), templates.Chain start first name mark n →
      ∀ (document : OpenDocument) (run : Run (Option Value)), templates.Ends document name mark n run →
        (∀ scope, (templates.site document).insertion first ⟨start, []⟩ scope = run) ∧
        ∀ (world : World) (main file : Path) (text key : String),
        world.Inserts main file text templates key first start →
          document = world.document (world.nested world.settings.maxDepth) [file] file text →
          world.load main = do
            .report (.opened file)
            return (Value.childOf key (← run)).finished := by
  refine ⟨linear.exists_ends start first, ?_⟩
  rintro n name mark ⟨rfl, rfl, links⟩ document run ends
  have inserted := insertion_of_ends links ends
  refine ⟨inserted, ?_⟩
  rintro world main file text key inserts rfl
  obtain ⟨scope, loads⟩ := inserts.load
  rw [loads]
  simp only [inserted]

/-- A template that inserts itself, reached through another one. -/
theorem Templates.Linear.insertion_ends_repeated :
    let text := "templates:\n a:\n  child: !insert b\n b:\n  child: !insert b\nroot: !insert a\n"
    let files : FileSystem := ⟨[(["main"], .file text.toUTF8.toList (.change 0))], [], 1⟩
    let world : World := ⟨files, .empty, [], Settings.ofRoot ⟨"/"⟩⟩
    ∃ location, (world.load ⟨"/main"⟩).result = .error (.circularInsertion location ["a", "b", "b"]) := by
  intro text files world
  let link (mark : Nat) : Value := .map [(.str "child", .tagged .insertion mark (.str "b"))]
  let declared : Mapping := [(.str "a", link 32), (.str "b", link 55)]
  let templates := Templates.ofMapping declared
  have plain (text : String) : (Value.str text).TagFree := Value.tagFree_untagged (.str text)
  have distinct (text : String) : (Value.str text).KeysDistinct := Value.everyMapping_str _ text
  have fromA : templates.LinksTo "a" 32 "b" := ⟨_, rfl, plain _, distinct _, rfl⟩
  have fromB : templates.LinksTo "b" 55 "b" := ⟨_, rfl, plain _, distinct _, rfl⟩
  have linear : templates.Linear := by
    intro name body found
    obtain ⟨before, after, same, _⟩ := List.lookup_eq_some_iff.mp found
    have member : (name, body) ∈ [("a", link 32), ("b", link 55)] := by
      rw [show [("a", link 32), ("b", link 55)] = before ++ (name, body) :: after from same]
      exact List.mem_append_right _ List.mem_cons_self
    simp only [List.mem_cons, Prod.mk.injEq, List.not_mem_nil, or_false] at member
    obtain ⟨rfl, _⟩ | ⟨rfl, _⟩ := member
    · exact .inr ⟨_, _, fromA⟩
    · exact .inr ⟨_, _, fromB⟩
  let name (i : Nat) := if i = 0 then "a" else "b"
  let mark (i : Nat) := if i = 0 then 71 else if i = 1 then 32 else 55
  have chain : templates.Chain "a" 71 name mark 2 := by
    refine ⟨rfl, rfl, ?_⟩
    rintro (_ | _ | i) early
    · exact fromA
    · exact fromB
    · omega
  have parsed : Yaml.parse? text =
      some (.map [(.str "templates", .map declared), (.str "root", .tagged .insertion 71 (.str "a"))]) :=
    Yaml.parse?_of_isExactly (by decide +kernel)
  have leads : world.files.canonical ⟨"/main"⟩ = .ok ⟨"/main"⟩ := Path.ok_of_text (by decide +kernel)
  have inserts : world.Inserts ⟨"/main"⟩ ⟨"/main"⟩ text templates "root" 71 "a" :=
    ⟨leads, ok_of_toOption (by decide +kernel), by decide, by decide, declared, _, rfl, plain _, rfl, parsed⟩
  have again : ∃ j < 2, name j = name 2 := ⟨1, by decide, rfl⟩
  have fresh : ∀ i < 2, ∀ j < i, name j ≠ name i := by decide
  have loads := ((linear.insertion_ends "a" 71).2 2 name mark chain _ _ (.repeated again fresh)).2 world _ _
    text "root" inserts rfl
  rw [loads]
  exact ⟨_, rfl⟩

end ConfigWeave
