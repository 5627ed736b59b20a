import ConfigWeave.Proofs.PlainTree
import ConfigWeave.Proofs.Resolution

namespace ConfigWeave

/-- A value at the end of so many mappings, each the only entry of the one around it. -/
def Value.nestedUnder (name : String) : (depth : Nat) → Value → Value
  | 0, v => v
  | depth + 1, v => nestedUnder name depth (.map [(.str name, v)])

theorem Value.finished_nestedUnder (name : String) (depth : Nat) {v : Value} (tagFree : v.TagFree)
    (nullKeyFree : v.NullKeyFree) (distinct : v.KeysDistinct) :
    (nestedUnder name depth v).finished = nestedUnder name depth v := by
  induction depth generalizing v with
  | zero => exact finished_of_clean tagFree nullKeyFree distinct
  | succ depth ih =>
    have key : (Value.str name).TagFree := tagFree_untagged (.str name)
    refine ih (tagFree_map (List.forall_mem_singleton.mpr ⟨key, tagFree⟩))
      (nullKeyFree_map (List.forall_mem_singleton.mpr ⟨nofun, nullKeyFree⟩)) (everyMapping_map_iff.mpr ?_)
    exact ⟨List.pairwise_singleton _ _, List.forall_mem_singleton.mpr ⟨everyMapping_str _ _, distinct⟩⟩

/-- Entries with nothing to carry out, to take out or to leave out. -/
structure Mapping.Plain (m : Mapping) : Prop where
  tagFree : (Value.map m).TagFree
  nullKeyFree : (Value.map m).NullKeyFree
  noSection : ∀ name ∈ sectionKeys, m.get? (.str name) = none
  noHidden : ∀ entry ∈ m, ∀ name, entry.1 = .str name → name.toList.head? ≠ some '.'

/-- The document that a node holds, if it holds any. -/
def FileNode.content? : FileNode → Option Value
  | .file bytes _ => (String.fromUTF8? ⟨bytes.toArray⟩).bind Yaml.parse?
  | _ => none

namespace World

/-- The file can be read, and this is the document in it. -/
def Contains (world : World) (file : Path) (content : Value) : Prop :=
  ∃ text, (world.readText file).result = .ok text ∧ Yaml.parse? text = some content

variable {world : World}

theorem exists_node_of_read {files : FileSystem} {path : Path} {bytes : List UInt8}
    (read : files.read path = .ok bytes) :
    ∃ place modified, (place, .file bytes modified) ∈ files.nodes := by
  unfold FileSystem.read at read
  cases reached : files.resolve path with
  | error e =>
    rw [reached] at read
    cases read
  | ok place =>
    rw [reached] at read
    dsimp only [bind, Except.bind] at read
    split at read
    · rename_i modified found
      cases read
      unfold FileSystem.at? at found
      split at found
      · cases found
      · obtain ⟨before, after, same, _⟩ := List.lookup_eq_some_iff.mp found
        exact ⟨place, modified, by rw [same]; simp⟩
    · cases read

/-- What a file contains stands in a node of the file system, unless contents are kept in the cache. -/
theorem Contains.exists_node {file : Path} {content : Value} (contains : world.Contains file content)
    (uncached : world.cache = .empty) : ∃ place bytes modified text,
    (place, .file bytes modified) ∈ world.files.nodes ∧
      String.fromUTF8? ⟨bytes.toArray⟩ = some text ∧ Yaml.parse? text = some content := by
  obtain ⟨text, read, parsed⟩ := contains
  simp only [readText, uncached, FileCache.fetch_empty] at read
  obtain ⟨_, _, read⟩ := Traced.exists_of_bind_ok read
  split at read
  · cases read
  · rename_i bytes known
    split at read
    · rename_i text decoded
      cases read
      obtain ⟨place, modified, member⟩ := exists_node_of_read known
      exact ⟨place, bytes, modified, text, member, decoded, parsed⟩
    · cases read

theorem Contains.exists_content? {file : Path} {content : Value} (contains : world.Contains file content)
    (uncached : world.cache = .empty) : ∃ node ∈ world.files.nodes, node.2.content? = some content := by
  obtain ⟨place, bytes, modified, text, member, decoded, parsed⟩ := contains.exists_node uncached
  exact ⟨_, member, Option.bind_eq_some_iff.mpr ⟨text, decoded, parsed⟩⟩

/-- The file has nothing but the inclusion of the other one, under `next`. -/
def LinksTo (world : World) (file target : Path) : Prop :=
  ∃ mark payload arguments, world.Contains file (.map [(.str "next", .tagged .inclusion mark payload)]) ∧
    payload.TagFree ∧ Arguments.ofPayload? "file" payload = some arguments ∧
    world.files.canonical (world.settings.locate file arguments.target) = .ok target

/-- The files from a main document on, each included by the one before it, up to one that is plain if there is
one. -/
structure Chain (world : World) (main : Path) (file : Nat → Option Path) : Prop where
  start : ∃ first, world.files.canonical main = .ok first ∧ file 0 = some first
  step : ∀ n here, file n = some here →
    (∃ there, world.LinksTo here there ∧ file (n + 1) = some there) ∨
      ∃ entries : Mapping, world.Contains here (.map entries) ∧ entries.Plain ∧ file (n + 1) = none
  ended : ∀ n, file n = none → file (n + 1) = none

end World

/-- The step to a file that occurs before it, or that lies beyond the limit. -/
def Stops (file : Nat → Option Path) (limit i : Nat) : Prop :=
  ∃ target, file i = some target ∧ ((∃ j < i, file j = some target) ∨ limit < i)

/-- The files of a chain up to one of them. -/
def chainTo (file : Nat → Option Path) (n : Nat) : List Path :=
  (List.range (n + 1)).filterMap file

theorem chainTo_succ {file : Nat → Option Path} {n : Nat} {here : Path} (found : file (n + 1) = some here) :
    chainTo file (n + 1) = chainTo file n ++ [here] := by
  rw [chainTo, List.range_succ, List.filterMap_append, chainTo]
  simp [found]

theorem mem_chainTo {file : Nat → Option Path} {n : Nat} {here : Path} :
    here ∈ chainTo file n ↔ ∃ j < n + 1, file j = some here := by
  simp only [chainTo, List.mem_filterMap, List.mem_range]

theorem Mapping.withoutSections_of_absent {m : Mapping} (absent : ∀ name ∈ sectionKeys, m.get? (.str name) = none) :
    m.withoutSections = m := by
  simp only [sectionKeys, List.forall_mem_cons] at absent
  obtain ⟨noVariables, noTemplates, noPackages, _⟩ := absent
  simp only [withoutSections, sectionKeys, List.foldl_cons, List.foldl_nil, erase_of_absent noVariables,
    erase_of_absent noTemplates, erase_of_absent noPackages]

theorem Mapping.withoutHidden_of_shown {m : Mapping}
    (shown : ∀ entry ∈ m, ∀ name, entry.1 = .str name → name.toList.head? ≠ some '.') : m.withoutHidden = m := by
  refine List.filter_eq_self.mpr fun entry member => ?_
  cases key : entry.1 with
  | str name => simpa [Value.str?] using shown entry member name key
  | _ => rfl

/-- A document without sections is composed by its transformation alone. -/
theorem OpenDocument.compose_of_noSection (document : OpenDocument) (scope inherited : Scope) {entries : Mapping}
    (absent : ∀ name ∈ sectionKeys, entries.get? (.str name) = none) {run : Run Mapping}
    (transformed : transform (Templates.empty.site document) scope none (.map entries) =
      do return some (.map (← run))) :
    document.compose scope inherited (.map entries) = do return .map (← run).withoutHidden := by
  have sections := absent
  simp only [sectionKeys, List.forall_mem_cons] at sections
  obtain ⟨noVariables, noTemplates, noPackages, _⟩ := sections
  simp only [compose, ownScope, noVariables, ownTemplates, noTemplates, Site.withPackages, noPackages,
    Mapping.withoutSections_of_absent absent, transformed, bind_assoc, pure_bind]

/-- Entries without sections, none of them hidden. -/
structure Mapping.Undivided (m : Mapping) : Prop where
  noSection : ∀ name ∈ sectionKeys, m.get? (.str name) = none
  noHidden : ∀ entry ∈ m, ∀ name, entry.1 = .str name → name.toList.head? ≠ some '.'

theorem OpenDocument.compose_of_tagFree (document : OpenDocument) (scope inherited : Scope) {content : Value}
    (free : content.TagFree) (undivided : ∀ entries, content = .map entries → Mapping.Undivided entries)
    (distinct : content.KeysDistinct) : document.compose scope inherited content = pure content := by
  cases content with
  | map entries =>
    obtain ⟨noSection, noHidden⟩ := undivided entries rfl
    have transformed : transform (Templates.empty.site document) scope none (.map entries) = do
        return some (.map (← (pure entries : Run Mapping))) := by
      rw [transform_of_tagFree _ _ free distinct, pure_bind]
    rw [document.compose_of_noSection scope inherited noSection transformed, pure_bind,
      Mapping.withoutHidden_of_shown noHidden]
  | _ =>
    rw [compose, transform_of_tagFree _ _ free distinct, pure_bind, Option.getD_some]
    nofun

theorem OpenDocument.compose_of_plain (document : OpenDocument) (scope inherited : Scope) {entries : Mapping}
    (plain : entries.Plain) (distinct : (Value.map entries).KeysDistinct) :
    document.compose scope inherited (.map entries) = pure (.map entries) := by
  refine document.compose_of_tagFree scope inherited plain.tagFree ?_ distinct
  rintro _ ⟨⟩
  exact ⟨plain.noSection, plain.noHidden⟩

theorem OpenDocument.result_compose_of_link (document : OpenDocument) (scope inherited : Scope) (mark : Nat)
    {payload : Value} {arguments : Arguments} (free : payload.TagFree) (distinct : payload.KeysDistinct)
    (asks : Arguments.ofPayload? "file" payload = some arguments) :
    (document.compose scope inherited (.map [(.str "next", .tagged .inclusion mark payload)])).result =
      (document.inclusion mark arguments scope).result.map fun v => .map [(.str "next", v)] := by
  have absent : ∀ name ∈ sectionKeys,
      Mapping.get? [(.str "next", .tagged .inclusion mark payload)] (.str name) = none := by
    intro name member
    refine Mapping.get?_str_cons_of_ne ?_ _ _
    rintro ⟨⟩
    exact absurd member (by decide)
  have resolved (v : Value) : (Templates.empty.site document).resolveMergeKey (Mapping.ofList [(.str "next", v)]) =
      pure [(.str "next", v)] := by
    refine Site.resolveMergeKey_of_tagFree _ (List.forall_mem_singleton.mpr ?_)
    exact Value.tagFree_untagged (.str "next")
  let run : Run Mapping := do return [(.str "next", ← document.inclusion mark arguments scope)]
  have transformed : transform (Templates.empty.site document) scope none
      (.map [(.str "next", .tagged .inclusion mark payload)]) = do return some (.map (← run)) := by
    simp only [run, transform, transformEntries, pure_bind, bind_assoc, transform_of_tagFree _ _ free distinct,
      Option.getD_some, asks, resolved]
    rfl
  rw [document.compose_of_noSection scope inherited absent transformed]
  simp only [run, Traced.result_bind]
  cases (document.inclusion mark arguments scope).result with
  | error e => rfl
  | ok v => rfl

namespace World

variable {world : World} {main : Path} {file : Nat → Option Path}

theorem result_composeWith {here : Path} {content : Value} (contains : world.Contains here content)
    (nested : Option Composition) (stack : List Path) (inherited : Scope) :
    ∃ text scope, (world.composeWith nested stack here inherited).result =
      ((world.document nested stack here text).compose scope inherited content).result := by
  obtain ⟨text, read, parsed⟩ := contains
  refine ⟨text, (world.builtins here).extend inherited, ?_⟩
  rw [composeWith, Traced.result_bind, read]
  simp only [Except.bind, parsed]

theorem Contains.keysDistinct {here : Path} {content : Value} (contains : world.Contains here content) :
    content.KeysDistinct := by
  obtain ⟨text, _, parsed⟩ := contains
  exact Yaml.keysDistinct_of_parse parsed

/-- What comes of a link: an error if the target cannot be included, or what comes of the target. -/
theorem result_composeWith_of_links {here target : Path} (links : world.LinksTo here target)
    (nested : Option Composition) (stack : List Path) (inherited : Scope) :
    ∃ location inner, (world.composeWith nested stack here inherited).result =
      if stack.any (target == ·) then .error (.circularInclusion location (stack ++ [target]))
      else match nested with
        | none => .error (.tooDeep location world.settings.maxDepth target)
        | some compose =>
          (compose (stack ++ [target]) target inner).result.map fun v => .map [(.str "next", v)] := by
  obtain ⟨mark, payload, arguments, contains, free, asks, leads⟩ := links
  have distinct : payload.KeysDistinct := fun inner part =>
    contains.keysDistinct inner (.value List.mem_cons_self (.payload part))
  obtain ⟨text, scope, composed⟩ := result_composeWith contains nested stack inherited
  refine ⟨(LineIndex.ofText text).locate here.text mark, (scope.inherit arguments.vars).1, ?_⟩
  rw [composed, OpenDocument.result_compose_of_link _ _ _ _ free distinct asks]
  simp only [document, inclusion, leads]
  split
  · rfl
  · cases nested with
    | none => rfl
    | some compose =>
      simp only [Traced.result_bind]
      rfl

theorem result_composeWith_of_plain {here : Path} {entries : Mapping}
    (contains : world.Contains here (.map entries)) (plain : entries.Plain) (nested : Option Composition)
    (stack : List Path) (inherited : Scope) :
    (world.composeWith nested stack here inherited).result = .ok (.map entries) := by
  obtain ⟨text, scope, composed⟩ := result_composeWith contains nested stack inherited
  rw [composed, OpenDocument.compose_of_plain _ _ _ plain contains.keysDistinct]
  rfl

namespace Chain

theorem isNormal (chain : world.Chain main file) {n : Nat} {here : Path} (found : file n = some here) :
    here.IsNormal := by
  cases n with
  | zero =>
    obtain ⟨first, leads, same⟩ := chain.start
    cases same.symm.trans found
    exact FileSystem.isNormal_of_canonical leads
  | succ n =>
    cases before : file n with
    | none => cases (chain.ended n before).symm.trans found
    | some last =>
      obtain ⟨there, links, same⟩ | ⟨_, _, _, none⟩ := chain.step n last before
      · cases same.symm.trans found
        obtain ⟨_, _, _, _, _, _, leads⟩ := links
        exact FileSystem.isNormal_of_canonical leads
      · cases none.symm.trans found

/-- A file that is reached was included by the one before it. -/
theorem exists_links (chain : world.Chain main file) {n : Nat} {target : Path}
    (found : file (n + 1) = some target) :
    ∃ here, file n = some here ∧ world.LinksTo here target := by
  cases before : file n with
  | none => cases (chain.ended n before).symm.trans found
  | some here =>
    obtain ⟨there, links, same⟩ | ⟨_, _, _, none⟩ := chain.step n here before
    · cases same.symm.trans found
      exact ⟨here, rfl, links⟩
    · cases none.symm.trans found

/-- Whether a file is being composed already is whether it occurs in the chain before. -/
theorem any_chainTo (chain : world.Chain main file) {n : Nat} {target : Path} (found : file (n + 1) = some target) :
    (chainTo file n).any (target == ·) = true ↔ ∃ j < n + 1, file j = some target := by
  rw [List.any_eq_true]
  constructor
  · rintro ⟨other, member, equal⟩
    obtain ⟨j, early, at_⟩ := mem_chainTo.mp member
    have same := (chain.isNormal found).eq_of_beq (chain.isNormal at_) equal
    exact ⟨j, early, same ▸ at_⟩
  · rintro ⟨j, early, at_⟩
    exact ⟨target, mem_chainTo.mpr ⟨j, early, at_⟩, Path.beq_iff.mpr ⟨rfl, rfl⟩⟩

/-- As long as no step stops it, the composition of the first file comes down to that of a later one. -/
theorem result_composeWith (chain : world.Chain main file) {first : Path} (start : file 0 = some first) {n : Nat}
    {here : Path} (found : file n = some here) (free : ∀ i ≤ n, ¬ Stops file world.settings.maxDepth i) :
    ∃ inherited, (world.composeWith (world.nested world.settings.maxDepth) [first] first .empty).result =
      (world.composeWith (world.nested (world.settings.maxDepth - n)) (chainTo file n) here inherited).result.map
        (Value.nestedUnder "next" n) := by
  induction n generalizing here with
  | zero =>
    cases start.symm.trans found
    refine ⟨.empty, ?_⟩
    rw [show chainTo file 0 = [first] by simp [chainTo, start], Nat.sub_zero]
    cases (world.composeWith (world.nested world.settings.maxDepth) [first] first .empty).result <;> rfl
  | succ n ih =>
    obtain ⟨before, earlier, links⟩ := chain.exists_links found
    obtain ⟨inherited, composed⟩ := ih earlier fun i early => free i (Nat.le_succ_of_le early)
    have fresh : ¬ (chainTo file n).any (here == ·) = true := fun known =>
      free (n + 1) (Nat.le_refl _) ⟨here, found, .inl ((chain.any_chainTo found).mp known)⟩
    have room : n < world.settings.maxDepth := Nat.lt_of_not_ge fun full =>
      free (n + 1) (Nat.le_refl _) ⟨here, found, .inr (Nat.lt_succ_of_le full)⟩
    obtain ⟨location, inner, linked⟩ :=
      result_composeWith_of_links links (world.nested (world.settings.maxDepth - n)) (chainTo file n) inherited
    refine ⟨inner, ?_⟩
    rw [composed, linked, if_neg fresh, chainTo_succ found]
    rw [show world.settings.maxDepth - n = world.settings.maxDepth - (n + 1) + 1 by omega]
    dsimp only [nested]
    generalize (world.composeWith _ (chainTo file n ++ [here]) here inner).result = result
    cases result <;> rfl

/-- The main document is loaded by the composition of the first file. -/
theorem result_load (chain : world.Chain main file) {n : Nat} {here : Path} (found : file n = some here)
    (free : ∀ i ≤ n, ¬ Stops file world.settings.maxDepth i) :
    ∃ inherited, (world.load main).result =
      (world.composeWith (world.nested (world.settings.maxDepth - n)) (chainTo file n) here inherited).result.map
        fun v => (Value.nestedUnder "next" n v).finished := by
  obtain ⟨first, leads, start⟩ := chain.start
  obtain ⟨inherited, composed⟩ := chain.result_composeWith start found free
  refine ⟨inherited, ?_⟩
  simp only [load, leads, Traced.result_bind, composed]
  generalize (world.composeWith _ (chainTo file n) here inherited).result = result
  cases result <;> rfl

/-- A chain that no step stops comes to an end within the limit. -/
theorem exists_last (chain : world.Chain main file) (free : ∀ i, ¬ Stops file world.settings.maxDepth i) :
    ∃ n ≤ world.settings.maxDepth, ∃ last, file n = some last ∧ file (n + 1) = none := by
  have beyond : file (world.settings.maxDepth + 1) = none := by
    cases found : file (world.settings.maxDepth + 1) with
    | none => rfl
    | some target => exact absurd ⟨target, found, .inr (Nat.lt_succ_self _)⟩ (free _)
  generalize world.settings.maxDepth = limit at beyond
  induction limit with
  | zero =>
    obtain ⟨first, _, start⟩ := chain.start
    exact ⟨0, Nat.le_refl 0, first, start, beyond⟩
  | succ limit ih =>
    cases found : file (limit + 1) with
    | none =>
      obtain ⟨n, within, ends⟩ := ih found
      exact ⟨n, Nat.le_succ_of_le within, ends⟩
    | some last => exact ⟨limit + 1, Nat.le_refl _, last, found, beyond⟩

end Chain

/-- Chains of inclusions end in the right way. If no step repeats a file or goes beyond the limit, the chain gets
to a plain file within the limit, and its mapping comes out below as many others as files include each other.
Otherwise the first such step is what the load fails with: with the chain up to the repeated file if it is a
repetition, also beyond the limit, and with the limit and the file if it is not. -/
theorem load_of_chain (chain : world.Chain main file) :
    ((∀ i, ¬ Stops file world.settings.maxDepth i) → ∃ n ≤ world.settings.maxDepth, ∃ last, ∃ entries : Mapping,
      file n = some last ∧ world.Contains last (.map entries) ∧ entries.Plain ∧
      (world.load main).result = .ok (Value.nestedUnder "next" n (.map entries))) ∧
    ∀ i target, file i = some target → Stops file world.settings.maxDepth i →
      (∀ j < i, ¬ Stops file world.settings.maxDepth j) →
      ((∃ j < i, file j = some target) →
        ∃ location, (world.load main).result = .error (.circularInclusion location (chainTo file i))) ∧
      ((¬ ∃ j < i, file j = some target) →
        ∃ location, (world.load main).result = .error (.tooDeep location world.settings.maxDepth target)) := by
  constructor
  · intro free
    obtain ⟨n, within, last, found, ends⟩ := chain.exists_last free
    obtain ⟨_, _, goesOn⟩ | ⟨entries, contains, plain, _⟩ := chain.step n last found
    · cases ends.symm.trans goesOn
    · refine ⟨n, within, last, entries, found, contains, plain, ?_⟩
      obtain ⟨inherited, loaded⟩ := chain.result_load found fun i _ => free i
      rw [loaded, result_composeWith_of_plain contains plain]
      exact congrArg Except.ok
        (Value.finished_nestedUnder "next" n plain.tagFree plain.nullKeyFree contains.keysDistinct)
  · intro i target found stops free
    cases i with
    | zero =>
      obtain ⟨_, _, ⟨_, early, _⟩ | beyond⟩ := stops
      · exact absurd early (Nat.not_lt_zero _)
      · exact absurd beyond (Nat.not_lt_zero _)
    | succ n =>
      obtain ⟨here, before, links⟩ := chain.exists_links found
      obtain ⟨inherited, loaded⟩ := chain.result_load before fun i early => free i (Nat.lt_succ_of_le early)
      obtain ⟨location, inner, linked⟩ :=
        result_composeWith_of_links links (world.nested (world.settings.maxDepth - n)) (chainTo file n) inherited
      rw [loaded, linked, chainTo_succ found]
      refine ⟨fun known => ⟨location, ?_⟩, fun fresh => ⟨location, ?_⟩⟩
      · rw [if_pos ((chain.any_chainTo found).mpr known)]
        rfl
      · rw [if_neg (mt (chain.any_chainTo found).mp fresh)]
        obtain ⟨_, same, known | beyond⟩ := stops
        · cases same.symm.trans found
          exact absurd known fresh
        · rw [Nat.sub_eq_zero_of_le (Nat.le_of_lt_succ beyond)]
          rfl

/-- The name by which a document that is nothing but an inclusion asks for a file. -/
def linkedName? : Value → Option String
  | .map [(.str "next", .tagged .inclusion _ (.str name))] => some name
  | _ => none

theorem exists_of_linkedName? {v : Value} {name : String} (linked : linkedName? v = some name) :
    ∃ mark, v = .map [(.str "next", .tagged .inclusion mark (.str name))] := by
  unfold linkedName? at linked
  split at linked
  · cases linked
    exact ⟨_, rfl⟩
  · cases linked

theorem load_of_chain_cycleAtLimit :
    let files : FileSystem := ⟨[(["main"], .file "next: !include other\n".toUTF8.toList (.change 0)),
      (["other"], .file "next: !include main\n".toUTF8.toList (.change 1))], [], 2⟩
    let world : World := ⟨files, .empty, [], { Settings.ofRoot ⟨"/"⟩ with maxDepth := 1 }⟩
    ∃ location, (world.load ⟨"/main"⟩).result =
      .error (.circularInclusion location [⟨"/main"⟩, ⟨"/other"⟩, ⟨"/main"⟩]) := by
  intro files world
  let file (n : Nat) : Option Path := some (if n % 2 = 0 then ⟨"/main"⟩ else ⟨"/other"⟩)
  have reads {path : Path} {text : String} (found : (world.readText path).result.toOption = some text) :
      (world.readText path).result = .ok text := by
    cases result : (world.readText path).result with
    | error e => simp [result, Except.toOption] at found
    | ok other => simpa [result, Except.toOption] using found
  have leads {path : Path} {text : String}
      (found : (world.files.canonical path).toOption.map Path.text = some text) :
        world.files.canonical path = .ok ⟨text⟩ := by
    cases result : world.files.canonical path with
    | error e => simp [result, Except.toOption] at found
    | ok there =>
      simp only [result, Except.toOption, Option.map_some, Option.some.injEq] at found
      rw [← found]
  have linked {text name : String} (seen : (Yaml.parse? text).bind linkedName? = some name) :
      ∃ mark, Yaml.parse? text = some (.map [(.str "next", .tagged .inclusion mark (.str name))]) := by
    obtain ⟨v, parsed, linked⟩ := Option.bind_eq_some_iff.mp seen
    obtain ⟨mark, rfl⟩ := exists_of_linkedName? linked
    exact ⟨mark, parsed⟩
  have plain (text : String) : (Value.str text).TagFree := Value.tagFree_untagged (.str text)
  have forth : world.LinksTo ⟨"/main"⟩ ⟨"/other"⟩ := by
    obtain ⟨mark, parsed⟩ :=
      linked (show (Yaml.parse? "next: !include other\n").bind linkedName? = some "other" by decide +kernel)
    exact ⟨mark, _, ⟨"other", []⟩, ⟨_, reads (by decide +kernel), parsed⟩, plain _, rfl, leads (by decide +kernel)⟩
  have back : world.LinksTo ⟨"/other"⟩ ⟨"/main"⟩ := by
    obtain ⟨mark, parsed⟩ :=
      linked (show (Yaml.parse? "next: !include main\n").bind linkedName? = some "main" by decide +kernel)
    exact ⟨mark, _, ⟨"main", []⟩, ⟨_, reads (by decide +kernel), parsed⟩, plain _, rfl, leads (by decide +kernel)⟩
  have chain : world.Chain ⟨"/main"⟩ file := by
    refine ⟨⟨⟨"/main"⟩, leads (by decide +kernel), rfl⟩, fun n here found => .inl ?_, nofun⟩
    by_cases even : n % 2 = 0
    · have odd : (n + 1) % 2 ≠ 0 := by omega
      simp only [file, even, if_true, Option.some.injEq] at found
      exact found ▸ ⟨⟨"/other"⟩, forth, by simp only [file, odd, if_false]⟩
    · have next : (n + 1) % 2 = 0 := by omega
      simp only [file, even, if_false, Option.some.injEq] at found
      exact found ▸ ⟨⟨"/main"⟩, back, by simp only [file, next, if_true]⟩
  have fresh : ∀ j < 2, ¬ Stops file 1 j := by
    rintro j early ⟨target, found, ⟨k, before, same⟩ | beyond⟩
    · obtain rfl : k = 0 := by omega
      obtain rfl : j = 1 := by omega
      exact absurd (congrArg (Option.map Path.text) (found.trans same.symm)) (by decide)
    · omega
  have ends := (world.load_of_chain chain).2 2 ⟨"/main"⟩ rfl ⟨_, rfl, .inl ⟨0, by decide, rfl⟩⟩ fresh
  exact ends.1 ⟨0, by decide, rfl⟩

end World

end ConfigWeave
