import ConfigWeave.Yaml.Document

namespace ConfigWeave.Yaml

/-- A node as it stands in a text, with its offset and, if it is a collection, that of its end. Anchors are numbered
from one, zero stands for none. -/
inductive Node where
  | alias (offset anchor : Nat)
  | scalar (offset : Nat) (text : String) (style : ScalarStyle) (anchor : Nat) (tag : Option NodeTag)
  | sequence (offset anchor : Nat) (tag : Option NodeTag) (items : List Node) (close : Nat)
  | mapping (offset anchor : Nat) (tag : Option NodeTag) (entries : List (Node × Node)) (close : Nat)

namespace Node

mutual
/-- The events of a node from left to right. -/
def events : Node → List PlacedEvent
  | .alias offset anchor => [⟨offset, .alias anchor⟩]
  | .scalar offset text style anchor tag => [⟨offset, .scalar text style anchor tag⟩]
  | .sequence offset anchor tag items close =>
    ⟨offset, .sequenceStart anchor tag⟩ :: (itemEvents items ++ [⟨close, .sequenceEnd⟩])
  | .mapping offset anchor tag entries close =>
    ⟨offset, .mappingStart anchor tag⟩ :: (entryEvents entries ++ [⟨close, .mappingEnd⟩])
def itemEvents : List Node → List PlacedEvent
  | [] => []
  | item :: rest => item.events ++ itemEvents rest
def entryEvents : List (Node × Node) → List PlacedEvent
  | [] => []
  | (key, value) :: rest => key.events ++ (value.events ++ entryEvents rest)
end

/-- The anchor of a node, if it has one. -/
def own (anchor : Nat) : List Nat :=
  if anchor = 0 then [] else [anchor]

mutual
/-- The anchors of a node and of all nodes below it, that of the node that ends last first. -/
def anchors : Node → List Nat
  | .alias .. => []
  | .scalar _ _ _ anchor _ => own anchor
  | .sequence _ anchor _ items _ => own anchor ++ itemAnchors items
  | .mapping _ anchor _ entries _ => own anchor ++ entryAnchors entries
def itemAnchors : List Node → List Nat
  | [] => []
  | item :: rest => itemAnchors rest ++ item.anchors
def entryAnchors : List (Node × Node) → List Nat
  | [] => []
  | (key, value) :: rest => entryAnchors rest ++ (value.anchors ++ key.anchors)
end

/-- A collection below its tag. Types of the core schema are dropped. -/
def collection (tag : Option NodeTag) (offset : Nat) (content : Value) : Value :=
  match tag.map NodeTag.meaning with
  | some (.kept tag) => .tagged tag offset content
  | _ => content

mutual
/-- The value that a node denotes where the nodes of some anchors have ended. An alias holds what the node of its
anchor denotes, or null if that has not ended. A plain `<<` without a tag is a merge key, but only as a key. -/
def denote (meaning : Nat → Value) (ended : List Nat) (isKey : Bool) : Node → Value
  | .alias offset anchor => .tagged .alias offset (if anchor ∈ ended then meaning anchor else .null)
  | .scalar offset text style _ tag =>
    if isKey ∧ tag = none ∧ style = .plain ∧ text = "<<" then .tagged .mergeKey offset (.str text)
    else scalarValue text style tag offset
  | .sequence offset _ tag items _ => collection tag offset (.seq (denoteItems meaning ended items))
  | .mapping offset _ tag entries _ =>
    collection tag offset (.map (mappingOfEntries (denoteEntries meaning ended entries)))
def denoteItems (meaning : Nat → Value) (ended : List Nat) : List Node → List Value
  | [] => []
  | item :: rest => item.denote meaning ended false :: denoteItems meaning (item.anchors ++ ended) rest
def denoteEntries (meaning : Nat → Value) (ended : List Nat) : List (Node × Node) → List (Value × Value)
  | [] => []
  | (key, value) :: rest =>
    (key.denote meaning ended true, value.denote meaning (key.anchors ++ ended) false) ::
      denoteEntries meaning (value.anchors ++ (key.anchors ++ ended)) rest
end

mutual
/-- Whether all anchors of a node and below it have the meanings of the nodes that they stand at. -/
def Named (meaning : Nat → Value) (ended : List Nat) (isKey : Bool) : Node → Prop
  | .alias .. => True
  | .scalar offset text style anchor tag =>
    anchor ≠ 0 → meaning anchor = (scalar offset text style anchor tag).denote meaning ended isKey
  | .sequence offset anchor tag items close => ItemsNamed meaning ended items ∧
    (anchor ≠ 0 → meaning anchor = (sequence offset anchor tag items close).denote meaning ended isKey)
  | .mapping offset anchor tag entries close => EntriesNamed meaning ended entries ∧
    (anchor ≠ 0 → meaning anchor = (mapping offset anchor tag entries close).denote meaning ended isKey)
def ItemsNamed (meaning : Nat → Value) (ended : List Nat) : List Node → Prop
  | [] => True
  | item :: rest => item.Named meaning ended false ∧ ItemsNamed meaning (item.anchors ++ ended) rest
def EntriesNamed (meaning : Nat → Value) (ended : List Nat) : List (Node × Node) → Prop
  | [] => True
  | (key, value) :: rest => key.Named meaning ended true ∧ value.Named meaning (key.anchors ++ ended) false ∧
    EntriesNamed meaning (value.anchors ++ (key.anchors ++ ended)) rest
end

end Node

namespace Builder

/-- The anchors whose nodes have ended. -/
def ended (b : Builder) : List Nat :=
  b.anchors.map Prod.fst

/-- Whether the next node is a key. -/
def expectsKey (b : Builder) : Bool :=
  b.frames.head?.any fun frame => frame.content.expectsKey

theorem isMergeKey_iff {b : Builder} {text : String} {style : ScalarStyle} {tag : Option NodeTag} :
    b.isMergeKey text style tag = true ↔ b.expectsKey ∧ tag = none ∧ style = .plain ∧ text = "<<" := by
  simp only [isMergeKey, expectsKey, Bool.and_eq_true, Option.isNone_iff_eq_none, beq_iff_eq]
  rw [and_comm]
  simp only [and_assoc]

/-- Adds one value to the innermost open collection. If none is open, it is the root. -/
def receive (b : Builder) (v : Value) : Builder :=
  match b.frames with
  | [] => { b with root := some v }
  | frame :: outer => { b with frames := { frame with content := frame.content.add v } :: outer }

/-- Whether some anchors have come to those whose nodes have ended. -/
def Names (b built : Builder) (anchors : List Nat) : Prop :=
  ∃ entries, built.anchors = entries ++ b.anchors ∧ entries.map Prod.fst = anchors

/-- Whether the anchors whose nodes have ended have the given meanings. -/
def Gives (b : Builder) (meaning : Nat → Value) : Prop :=
  ∀ anchor v, b.anchors.lookup anchor = some v → meaning anchor = v

theorem exists_gives (b : Builder) : ∃ meaning, b.Gives meaning :=
  ⟨fun anchor => (b.anchors.lookup anchor).getD .null, fun anchor v found => by simp only [found, Option.getD_some]⟩

theorem mem_ended_iff {b : Builder} {anchor : Nat} : anchor ∈ b.ended ↔ (b.anchors.lookup anchor).isSome := by
  simp only [ended, List.lookup_isSome_iff, List.mem_map, beq_iff_eq]
  exact exists_congr fun entry => and_congr_right fun _ => eq_comm

theorem Gives.getD_lookup {b : Builder} {meaning : Nat → Value} (given : b.Gives meaning) (anchor : Nat) :
    (b.anchors.lookup anchor).getD .null = if anchor ∈ b.ended then meaning anchor else .null := by
  cases found : b.anchors.lookup anchor with
  | none => simp [mem_ended_iff, found]
  | some v => simp [mem_ended_iff, found, given anchor v found]

theorem Names.refl (b : Builder) : b.Names b [] :=
  ⟨[], rfl, rfl⟩

theorem Names.trans {b between built : Builder} {anchors more : List Nat} (first : b.Names between anchors)
    (second : between.Names built more) : b.Names built (more ++ anchors) := by
  obtain ⟨entries, eq, named⟩ := first
  obtain ⟨others, eq', named'⟩ := second
  exact ⟨others ++ entries, by rw [eq', eq, List.append_assoc], by rw [List.map_append, named, named']⟩

theorem Names.ended_eq {b built : Builder} {anchors : List Nat} (names : b.Names built anchors) :
    built.ended = anchors ++ b.ended := by
  obtain ⟨entries, eq, named⟩ := names
  rw [ended, eq, List.map_append, named, ended]

/-- Anchors that come later are still new behind those that come first. -/
theorem Names.fresh {b between : Builder} {anchors more : List Nat} (names : b.Names between anchors)
    (nodup : (more ++ anchors).Nodup) (fresh : ∀ anchor ∈ more ++ anchors, anchor ∉ b.ended) :
    ∀ anchor ∈ more, anchor ∉ between.ended := by
  intro anchor member known
  rcases List.mem_append.mp (names.ended_eq ▸ known) with among | before
  · exact (List.nodup_append.mp nodup).2.2 anchor member anchor among rfl
  · exact fresh anchor (List.mem_append_left _ member) before

/-- Meanings hold before as they do afterwards if no anchor is used again. -/
theorem Names.gives {b built : Builder} {anchors : List Nat} (names : b.Names built anchors)
    (fresh : ∀ anchor ∈ anchors, anchor ∉ b.ended) {meaning : Nat → Value} (given : built.Gives meaning) :
    b.Gives meaning := by
  obtain ⟨entries, eq, rfl⟩ := names
  intro anchor v found
  have known : anchor ∈ b.ended := by
    rw [mem_ended_iff, found]
    rfl
  have absent : entries.lookup anchor = none := List.lookup_eq_none_iff.mpr fun entry member =>
    bne_iff_ne.mpr fun same => fresh anchor (List.mem_map.mpr ⟨entry, member, same.symm⟩) known
  exact given anchor v (by rw [eq, List.lookup_append, absent, Option.none_or, found])

/-- A node that ends is received, and its anchor has it as its meaning. -/
theorem complete_eq (b : Builder) (v : Value) (anchor : Nat) :
    b.complete v anchor =
      { b.receive v with anchors := (Node.own anchor).map (fun anchor => (anchor, v)) ++ b.anchors } := by
  obtain ⟨frames, anchors, root⟩ := b
  by_cases none : anchor = 0 <;> cases frames <;> simp [complete, receive, Node.own, none]

/-- What some nodes do to a builder: their anchors come to those that have ended, and for the meanings that these
then have, the nodes are well named and leave the given builder. -/
structure Reads (b built : Builder) (anchors : List Nat) (named : (Nat → Value) → Prop)
    (received : (Nat → Value) → Builder) : Prop where
  names : b.Names built anchors
  named : ∀ meaning, built.Gives meaning → named meaning
  frames : ∀ meaning, built.Gives meaning → built.frames = (received meaning).frames
  root : ∀ meaning, built.Gives meaning → built.root = (received meaning).root

theorem Reads.refl (b : Builder) : b.Reads b [] (fun _ => True) fun _ => b :=
  ⟨.refl b, fun _ _ => trivial, fun _ _ => rfl, fun _ _ => rfl⟩

/-- What comes next is read where the first nodes stand with the meanings that hold then. -/
theorem Reads.trans {b between built : Builder} {anchors more : List Nat} {named : (Nat → Value) → Prop}
    {named' : (Nat → Value) → (Nat → Value) → Prop} {received : (Nat → Value) → Builder}
    {received' : (Nat → Value) → (Nat → Value) → Builder} (first : b.Reads between anchors named received)
    (fresh : ∀ anchor ∈ more, anchor ∉ between.ended)
    (next : ∀ given, between.Gives given → between.Reads built more (named' given) (received' given)) :
    b.Reads built (more ++ anchors) (fun meaning => named meaning ∧ named' meaning meaning)
      (fun meaning => received' meaning meaning) := by
  obtain ⟨some, gives⟩ := between.exists_gives
  have back {meaning : Nat → Value} (given : built.Gives meaning) : between.Gives meaning :=
    (next some gives).names.gives fresh given
  exact ⟨first.names.trans (next some gives).names,
    fun meaning given => ⟨first.named meaning (back given), (next meaning (back given)).named meaning given⟩,
    fun meaning given => (next meaning (back given)).frames meaning given,
    fun meaning given => (next meaning (back given)).root meaning given⟩

/-- A node that ends is received, and its anchor stands for it. -/
theorem reads_complete (b : Builder) (v : Value) (anchor : Nat) :
    b.Reads (b.complete v anchor) (Node.own anchor) (fun meaning => anchor ≠ 0 → meaning anchor = v)
      (fun _ => b.receive v) where
  names := ⟨_, by rw [complete_eq], by simp [Function.comp_def]⟩
  named meaning given anchored := given anchor v (by simp [complete_eq, Node.own, anchored])
  frames meaning _ := by rw [complete_eq]
  root meaning _ := by rw [complete_eq]

/-- A collection ends behind the nodes in it. -/
theorem Reads.close {b between : Builder} {frame : Frame} {anchors : List Nat} {named : (Nat → Value) → Prop}
    {content : (Nat → Value) → Content}
    (inner : Reads { b with frames := frame :: b.frames } between anchors named
      fun meaning => ⟨{ frame with content := content meaning } :: b.frames, [], b.root⟩)
    (fresh : ∀ anchor ∈ Node.own frame.anchor, anchor ∉ between.ended) {e : PlacedEvent}
    (last : e.event = .sequenceEnd ∨ e.event = .mappingEnd) :
    b.Reads (between.step e) (Node.own frame.anchor ++ anchors)
      (fun meaning => named meaning ∧
        (frame.anchor ≠ 0 → meaning frame.anchor = { frame with content := content meaning }.value))
      (fun meaning => b.receive { frame with content := content meaning }.value) := by
  have inside : b.Reads between anchors named fun meaning =>
      ⟨{ frame with content := content meaning } :: b.frames, [], b.root⟩ :=
    ⟨inner.names, inner.named, inner.frames, inner.root⟩
  have ending (given : Nat → Value) (gives : between.Gives given) :
      between.Reads (between.step e) (Node.own frame.anchor)
        (fun meaning => frame.anchor ≠ 0 → meaning frame.anchor = { frame with content := content given }.value)
        (fun _ => b.receive { frame with content := content given }.value) := by
    have closed : between.step e =
        { between with frames := b.frames }.complete { frame with content := content given }.value
          frame.anchor := by
      obtain ⟨offset, event⟩ := e
      rcases last with rfl | rfl <;> simp only [step, inner.frames given gives]
    have ended := reads_complete { between with frames := b.frames } { frame with content := content given }.value
      frame.anchor
    rw [closed]
    refine ⟨ended.names, ended.named, fun meaning gives' => ?_, fun meaning gives' => ?_⟩
    · rw [ended.frames meaning gives', receive, receive]
      cases b.frames <;> rfl
    · rw [ended.root meaning gives', receive, receive]
      cases b.frames <;> simp [inner.root given gives]
  exact inside.trans fresh ending

end Builder

namespace Node

open Builder

theorem value_sequence (anchor : Nat) (tag : Option NodeTag) (offset : Nat) (items : List Value) :
    Frame.value ⟨.sequence (items.reverse ++ []), anchor, tag, offset⟩ = collection tag offset (.seq items) := by
  show collection tag offset (Content.value (.sequence (items.reverse ++ []))) = _
  rw [Content.value, List.append_nil, List.reverse_reverse]

theorem value_mapping (anchor : Nat) (tag : Option NodeTag) (offset : Nat) (entries : List (Value × Value)) :
    Frame.value ⟨.mapping (entries.reverse ++ []) none, anchor, tag, offset⟩ =
      collection tag offset (.map (mappingOfEntries entries)) := by
  show collection tag offset (Content.value (.mapping (entries.reverse ++ []) none)) = _
  rw [Content.value, List.append_nil, List.reverse_reverse]

-- By induction on the node. What an anchor means is only known where its node ends, so each part is read for all
-- meanings that hold behind it, and `Reads.trans` takes these back to where the part begins.
mutual
theorem reads (n : Node) (b : Builder) (nodup : n.anchors.Nodup)
    (fresh : ∀ anchor ∈ n.anchors, anchor ∉ b.ended) :
    b.Reads (n.events.foldl step b) n.anchors (fun meaning => n.Named meaning b.ended b.expectsKey)
      (fun meaning => b.receive (n.denote meaning b.ended b.expectsKey)) := by
  match n with
  | .alias offset anchor =>
    have aliased (given : Nat → Value) (gives : b.Gives given) : b.Reads (b.step ⟨offset, .alias anchor⟩) []
        (fun _ => True) (fun _ => b.receive (denote given b.ended b.expectsKey (.alias offset anchor))) := by
      rw [denote, ← gives.getD_lookup anchor]
      exact { reads_complete b _ 0 with named := fun _ _ => trivial }
    have whole := (Reads.refl b).trans (fun _ member => absurd member List.not_mem_nil) aliased
    exact { whole with named := fun _ _ => trivial }
  | .scalar offset text style anchor tag =>
    have read : b.step ⟨offset, .scalar text style anchor tag⟩ =
        b.complete ((scalar offset text style anchor tag).denote (fun _ => .null) b.ended b.expectsKey) anchor := by
      simp only [step, denote, isMergeKey_iff]
    simp only [events, List.foldl_cons, List.foldl_nil, read]
    exact reads_complete b _ anchor
  | .sequence offset anchor tag items close =>
    have inner := reads_items items { b with frames := ⟨.sequence [], anchor, tag, offset⟩ :: b.frames }
      ⟨.sequence [], anchor, tag, offset⟩ [] b.frames b.root rfl rfl (List.nodup_append.mp nodup).2.1
      fun anchor member => fresh anchor (List.mem_append_right _ member)
    have whole := inner.close (e := ⟨close, .sequenceEnd⟩) (inner.names.fresh nodup fresh) (.inl rfl)
    simp only [events, List.foldl_cons, List.foldl_append, Named, denote, ← value_sequence anchor]
    exact whole
  | .mapping offset anchor tag entries close =>
    have inner := reads_entries entries { b with frames := ⟨.mapping [] none, anchor, tag, offset⟩ :: b.frames }
      ⟨.mapping [] none, anchor, tag, offset⟩ [] b.frames b.root rfl rfl (List.nodup_append.mp nodup).2.1
      fun anchor member => fresh anchor (List.mem_append_right _ member)
    have whole := inner.close (e := ⟨close, .mappingEnd⟩) (inner.names.fresh nodup fresh) (.inr rfl)
    simp only [events, List.foldl_cons, List.foldl_append, Named, denote, ← value_mapping anchor]
    exact whole

theorem reads_items (items : List Node) (b : Builder) (frame : Frame) (done : List Value) (outer : List Frame)
    (root : Option Value) (frames : b.frames = { frame with content := .sequence done } :: outer)
    (rooted : b.root = root)
    (nodup : (itemAnchors items).Nodup) (fresh : ∀ anchor ∈ itemAnchors items, anchor ∉ b.ended) :
    b.Reads ((itemEvents items).foldl step b) (itemAnchors items) (fun meaning => ItemsNamed meaning b.ended items)
      (fun meaning =>
        ⟨{ frame with content := .sequence ((denoteItems meaning b.ended items).reverse ++ done) } :: outer, [],
          root⟩) := by
  match items with
  | [] =>
    exact ⟨.refl b, fun _ _ => trivial, fun meaning _ => by simp [itemEvents, denoteItems, ← frames],
      fun _ _ => rooted⟩
  | item :: rest =>
    obtain ⟨nodupRest, nodupItem, _⟩ := List.nodup_append.mp nodup
    have first := item.reads b nodupItem fun anchor member => fresh anchor (List.mem_append_right _ member)
    have freshRest := first.names.fresh nodup fresh
    have position : b.expectsKey = false := by rw [expectsKey, frames]; rfl
    rw [position] at first
    rw [itemEvents, List.foldl_append]
    generalize item.events.foldl step b = between at first freshRest
    have next (meaning : Nat → Value) (given : between.Gives meaning) :=
      reads_items rest between frame (item.denote meaning b.ended false :: done) outer root
        (by rw [first.frames meaning given, receive, frames]; rfl)
        (by rw [first.root meaning given, receive, frames, ← rooted])
        nodupRest freshRest
    have whole := first.trans freshRest next
    rw [first.names.ended_eq] at whole
    refine { whole with frames := fun meaning given => ?_ }
    rw [whole.frames meaning given]
    simp [denoteItems]

theorem reads_entries (entries : List (Node × Node)) (b : Builder) (frame : Frame) (done : List (Value × Value))
    (outer : List Frame) (root : Option Value)
    (frames : b.frames = { frame with content := .mapping done none } :: outer) (rooted : b.root = root)
    (nodup : (entryAnchors entries).Nodup) (fresh : ∀ anchor ∈ entryAnchors entries, anchor ∉ b.ended) :
    b.Reads ((entryEvents entries).foldl step b) (entryAnchors entries)
      (fun meaning => EntriesNamed meaning b.ended entries)
      (fun meaning =>
        ⟨{ frame with content := .mapping ((denoteEntries meaning b.ended entries).reverse ++ done) none } :: outer,
          [], root⟩) := by
  match entries with
  | [] =>
    exact ⟨.refl b, fun _ _ => trivial, fun meaning _ => by simp [entryEvents, denoteEntries, ← frames],
      fun _ _ => rooted⟩
  | (key, value) :: rest =>
    obtain ⟨nodupRest, nodupEntry, _⟩ := List.nodup_append.mp nodup
    obtain ⟨nodupValue, nodupKey, _⟩ := List.nodup_append.mp nodupEntry
    have freshEntry : ∀ anchor ∈ value.anchors ++ key.anchors, anchor ∉ b.ended :=
      fun anchor member => fresh anchor (List.mem_append_right _ member)
    have first := key.reads b nodupKey fun anchor member => freshEntry anchor (List.mem_append_right _ member)
    have freshValue := first.names.fresh nodupEntry freshEntry
    have position : b.expectsKey = true := by rw [expectsKey, frames]; rfl
    rw [position] at first
    rw [entryEvents, List.foldl_append, List.foldl_append]
    generalize key.events.foldl step b = between at first freshValue
    have waiting (meaning : Nat → Value) (given : between.Gives meaning) : between.frames =
        { frame with content := .mapping done (some (key.denote meaning b.ended true)) } :: outer := by
      rw [first.frames meaning given, receive, frames]; rfl
    have position : between.expectsKey = false := by
      obtain ⟨meaning, given⟩ := between.exists_gives
      rw [expectsKey, waiting meaning given]; rfl
    have second := value.reads between nodupValue freshValue
    rw [position] at second
    generalize value.events.foldl step between = behind at second
    have entry := first.trans freshValue fun _ _ => second
    have freshRest := entry.names.fresh nodup fresh
    have next (meaning : Nat → Value) (given : behind.Gives meaning) :=
      have before := second.names.gives freshValue given
      reads_entries rest behind frame
        ((key.denote meaning b.ended true, value.denote meaning between.ended false) :: done) outer root
        (by rw [entry.frames meaning given, receive, waiting meaning before]; rfl)
        (by rw [entry.root meaning given, receive, waiting meaning before, first.root meaning before,
          receive, frames, ← rooted])
        nodupRest freshRest
    have whole := entry.trans freshRest next
    rw [second.names.ended_eq, first.names.ended_eq] at whole
    refine { whole with
      named := fun meaning given => and_assoc.mp (whole.named meaning given), frames := fun meaning given => ?_ }
    rw [whole.frames meaning given]
    simp [denoteEntries]
end

end Node

/-- What distinct anchors that have ended stand for is listed. -/
theorem Builder.Names.anchors_eq {b built : Builder} {anchors : List Nat} (names : b.Names built anchors)
    (nodup : anchors.Nodup) {meaning : Nat → Value} (given : built.Gives meaning) :
    built.anchors = anchors.map (fun anchor => (anchor, meaning anchor)) ++ b.anchors := by
  obtain ⟨entries, eq, rfl⟩ := names
  rw [eq, List.map_map]
  congr 1
  have stands : entries.map id = entries.map ((fun anchor => (anchor, meaning anchor)) ∘ Prod.fst) :=
    List.map_congr_left fun (anchor, v) member => by
      obtain ⟨before, after, rfl⟩ := List.append_of_mem member
      rw [List.map_append, List.map_cons, List.nodup_append] at nodup
      have absent : ∀ entry ∈ before, anchor != entry.1 := fun entry earlier =>
        bne_iff_ne.mpr fun same =>
          nodup.2.2 entry.1 (List.mem_map_of_mem earlier) anchor List.mem_cons_self same.symm
      have known : built.anchors.lookup anchor = some v := by
        rw [eq, List.lookup_append, List.lookup_eq_some_iff.mpr ⟨before, after, rfl, absent⟩, Option.some_or]
      exact congrArg (anchor, ·) (given anchor v known).symm
  rw [← stands, List.map_id]

/-- Reading a node tree adds exactly one value to a builder, which is what the node denotes, at the place where the
next node belongs: behind the items of the innermost open sequence, as the next key of the innermost open mapping
or as the value of the key that waits there, or as the root. The anchors of the tree then stand for what their own
nodes denote, all others for the same as before. A whole document leaves nothing open. -/
theorem foldl_step_events (n : Node) (b : Builder) (nodup : n.anchors.Nodup)
    (fresh : ∀ anchor ∈ n.anchors, anchor ∉ b.ended) :
    ∃ meaning : Nat → Value, b.Gives meaning ∧ n.Named meaning b.ended b.expectsKey ∧
      n.events.foldl Builder.step b =
        { b.receive (n.denote meaning b.ended b.expectsKey) with
          anchors := n.anchors.map (fun anchor => (anchor, meaning anchor)) ++ b.anchors } ∧
      (b = .start →
        (n.events.foldl Builder.step b).frames = [] ∧ documentOf n.events = n.denote meaning [] false) := by
  have read := n.reads b nodup fresh
  obtain ⟨meaning, given⟩ := (n.events.foldl Builder.step b).exists_gives
  have built : n.events.foldl Builder.step b =
      { b.receive (n.denote meaning b.ended b.expectsKey) with
        anchors := n.anchors.map (fun anchor => (anchor, meaning anchor)) ++ b.anchors } := by
    rw [← read.names.anchors_eq nodup given]
    simp only [← read.frames meaning given, ← read.root meaning given]
  refine ⟨meaning, read.names.gives fresh given, read.named meaning given, built, ?_⟩
  rintro rfl
  rw [documentOf, built]
  exact ⟨rfl, rfl⟩

theorem foldl_step_events_self :
    let name (text : String) (anchor : Nat) : Node := .scalar 0 text .plain anchor none
    let node : Node := .mapping 0 1 none [
      (name "self" 0, .alias 1 1),
      (name "<<" 0, .sequence 2 2 none [.alias 3 4, name "<<" 0] 4),
      (.alias 5 2, .scalar 6 "${ x }" .plain 0 (some ⟨"!", "sub"⟩)),
      (.sequence 7 0 (some ⟨"!!", "seq"⟩) [name "item" 3] 8, .alias 9 3)] 10
    let outer : Frame := ⟨.mapping [] (some (.str "key")), 0, none, 0⟩
    let b : Builder := ⟨[outer], [(4, .str "four")], none⟩
    node.anchors.Nodup ∧ (∀ anchor ∈ node.anchors, anchor ∉ b.ended) ∧
      ∃ meaning : Nat → Value, meaning 4 = .str "four" ∧ node.Named meaning b.ended false ∧
        (node.events.foldl Builder.step b).frames =
          [{ outer with content := .mapping [(.str "key", node.denote meaning b.ended false)] none }] ∧
        node.denote meaning b.ended false = .map [
          (.str "self", .tagged .alias 1 .null),
          (.tagged .mergeKey 0 (.str "<<"), .seq [.tagged .alias 3 (.str "four"), .str "<<"]),
          (.tagged .alias 5 (.seq [.tagged .alias 3 (.str "four"), .str "<<"]),
          .tagged (.sub none) 6 (.str "${ x }")), (.seq [.str "item"], .tagged .alias 9 (.str "item"))] := by
  intro name node outer b
  have nodup : node.anchors.Nodup := by decide
  have fresh : ∀ anchor ∈ node.anchors, anchor ∉ b.ended := by decide
  obtain ⟨meaning, given, named, built, _⟩ := foldl_step_events node b nodup fresh
  have frames := congrArg Builder.frames built
  refine ⟨nodup, fresh, meaning, given 4 _ rfl, named, frames, ?_⟩
  have top := (List.cons.inj frames).1
  have entry := (List.cons.inj (Content.mapping.inj (Frame.mk.inj top).1).1).1
  exact (Prod.mk.inj entry).2.symm.trans rfl

end ConfigWeave.Yaml
