import ConfigWeave.Yaml.Tokenizer

namespace ConfigWeave.Yaml

/-- A tag with its handle replaced by what that stands for. -/
structure NodeTag where
  handle : String
  suffix : String
deriving DecidableEq, Repr, Inhabited

/-- The structure of a document as it is read from left to right. Anchors are numbered from one, zero
stands for none. -/
inductive Event where
  | alias (anchor : Nat)
  | scalar (text : String) (style : ScalarStyle) (anchor : Nat) (tag : Option NodeTag)
  | sequenceStart (anchor : Nat) (tag : Option NodeTag)
  | sequenceEnd
  | mappingStart (anchor : Nat) (tag : Option NodeTag)
  | mappingEnd
deriving DecidableEq, Repr, Inhabited

structure PlacedEvent where
  offset : Nat
  event : Event
deriving DecidableEq, Repr, Inhabited

/-- A scalar that is not written. -/
def absentScalar : Event :=
  .scalar "~" .plain 0 none

/-- What is expected within an open collection. A pair is a mapping of a single entry within a flow
sequence. -/
inductive Expectation where
  | blockKey
  | blockValue
  | blockItem
  | indentlessItem
  | flowKey (first : Bool)
  | flowValue
  | flowAbsentValue
  | flowItem (first : Bool)
  | pairKey
  | pairValue
  | pairEnd
deriving DecidableEq, Repr

/-- A document while it is read. `expected` belongs to the open collections, the innermost first. -/
structure Reader where
  tokens : List PlacedToken
  expected : List Expectation
  anchors : List (String × Nat)
  anchorCount : Nat
  handles : List (String × String)

namespace Reader

/-- The tag that a handle and a suffix stand for. Handles with a name have to be declared. -/
def tag? (r : Reader) (handle suffix : String) : Option NodeTag :=
  if handle = "!!" then some ⟨(r.handles.lookup handle).getD "tag:yaml.org,2002:", suffix⟩
  else if handle = "" ∧ suffix = "!" then some ⟨(r.handles.lookup "").getD "", suffix⟩
  else
    match r.handles.lookup handle with
    | some replacement => some ⟨replacement, suffix⟩
    | none => if isNamedHandle handle.toList then none else some ⟨handle, suffix⟩

/-- Gives an anchor the next number. It hides an earlier one of the same name. -/
def bind (r : Reader) (name : String) : Reader :=
  { r with anchors := (name, r.anchorCount + 1) :: r.anchors, anchorCount := r.anchorCount + 1 }

/-- Reads the anchor and the tag in front of a node, in any order. -/
def properties (r : Reader) : Option (Nat × Option NodeTag × Reader) :=
  match r.tokens with
  | ⟨_, .anchor name⟩ :: ⟨_, .tag handle suffix⟩ :: rest =>
    let r := { r with tokens := rest }.bind name
    (r.tag? handle suffix).map fun tag => (r.anchorCount, some tag, r)
  | ⟨_, .anchor name⟩ :: rest =>
    let r := { r with tokens := rest }.bind name
    some (r.anchorCount, none, r)
  | ⟨_, .tag handle suffix⟩ :: ⟨_, .anchor name⟩ :: rest =>
    (r.tag? handle suffix).map fun tag =>
      let r := { r with tokens := rest }.bind name
      (r.anchorCount, some tag, r)
  | ⟨_, .tag handle suffix⟩ :: rest =>
    (r.tag? handle suffix).map fun tag => (0, some tag, { r with tokens := rest })
  | _ => some (0, none, r)

/-- Reads a node, of a collection only its start. Block collections are read where `block` allows them,
sequences at the indentation of their parent where `indentless` does. A node may be empty if it has an
anchor or a tag. -/
def node (r : Reader) (block indentless : Bool) : Option (Reader × PlacedEvent) := do
  if let ⟨offset, .alias name⟩ :: rest := r.tokens then
    let anchor ← r.anchors.lookup name
    return ({ r with tokens := rest }, ⟨offset, .alias anchor⟩)
  let (anchor, tag, r) ← r.properties
  let enter (rest : List PlacedToken) (expected : Expectation) : Reader :=
    { r with tokens := rest, expected := expected :: r.expected }
  match r.tokens with
  | [] => none
  | ⟨offset, token⟩ :: rest =>
    match token, block, indentless with
    | .blockEntry, _, true => return (enter r.tokens .indentlessItem, ⟨offset, .sequenceStart anchor tag⟩)
    | .scalar style text, _, _ => return ({ r with tokens := rest }, ⟨offset, .scalar text style anchor tag⟩)
    | .flowSequenceStart, _, _ => return (enter rest (.flowItem true), ⟨offset, .sequenceStart anchor tag⟩)
    | .flowMappingStart, _, _ => return (enter rest (.flowKey true), ⟨offset, .mappingStart anchor tag⟩)
    | .blockSequenceStart, true, _ => return (enter rest .blockItem, ⟨offset, .sequenceStart anchor tag⟩)
    | .blockMappingStart, true, _ => return (enter rest .blockKey, ⟨offset, .mappingStart anchor tag⟩)
    | _, _, _ =>
      if tag.isSome ∨ 0 < anchor then return (r, ⟨offset, .scalar "" .plain anchor tag⟩) else none

/-- Reads a node unless one of the given tokens shows that it is absent. -/
def nodeUnless (r : Reader) (absent : Token → Bool) (block indentless : Bool) : Option (Reader × PlacedEvent) :=
  match r.tokens with
  | [] => none
  | ⟨offset, token⟩ :: _ => if absent token then some (r, ⟨offset, absentScalar⟩) else r.node block indentless

def endsBlockKey : Token → Bool
  | .key | .value | .blockEnd => true
  | _ => false

def endsBlockItem : Token → Bool
  | .blockEntry | .blockEnd => true
  | _ => false

def endsIndentlessItem (token : Token) : Bool :=
  endsBlockKey token || endsBlockItem token

def endsFlowKey : Token → Bool
  | .value | .flowEntry | .flowMappingEnd => true
  | _ => false

def endsFlowValue : Token → Bool
  | .flowEntry | .flowMappingEnd => true
  | _ => false

def endsPairKey : Token → Bool
  | .value | .flowEntry | .flowSequenceEnd => true
  | _ => false

def endsPairValue : Token → Bool
  | .flowEntry | .flowSequenceEnd => true
  | _ => false

/-- Reads the separator in front of an entry that is not the first. The end of the collection needs
none. -/
def separator (first : Bool) (close : Token) : List PlacedToken → Option (List PlacedToken)
  | [] => none
  | ⟨offset, token⟩ :: rest =>
    if first ∨ token = close then some (⟨offset, token⟩ :: rest)
    else if token = .flowEntry then some rest
    else none

/-- The next event within the innermost collection, whose expectation has been taken from `r` already. -/
def stepWithin (r : Reader) (expected : Expectation) : Option (Reader × PlacedEvent) :=
  let next (rest : List PlacedToken) (expected : Expectation) : Reader :=
    { r with tokens := rest, expected := expected :: r.expected }
  let close (rest : List PlacedToken) (offset : Nat) (event : Event) : Option (Reader × PlacedEvent) :=
    some ({ r with tokens := rest }, ⟨offset, event⟩)
  match expected, r.tokens with
  | _, [] => none
  | .blockKey, ⟨offset, token⟩ :: rest =>
    match token with
    | .key => (next rest .blockValue).nodeUnless endsBlockKey true true
    | .value => some (next r.tokens .blockValue, ⟨offset, absentScalar⟩)
    | .blockEnd => close rest offset .mappingEnd
    | _ => none
  | .blockValue, ⟨offset, token⟩ :: rest =>
    match token with
    | .value => (next rest .blockKey).nodeUnless endsBlockKey true true
    | _ => some (next r.tokens .blockKey, ⟨offset, absentScalar⟩)
  | .blockItem, ⟨offset, token⟩ :: rest =>
    match token with
    | .blockEntry => (next rest .blockItem).nodeUnless endsBlockItem true false
    | .blockEnd => close rest offset .sequenceEnd
    | _ => none
  | .indentlessItem, ⟨offset, token⟩ :: rest =>
    match token with
    | .blockEntry => (next rest .indentlessItem).nodeUnless endsIndentlessItem true false
    | _ => close r.tokens offset .sequenceEnd
  | .flowKey first, tokens =>
    match separator first .flowMappingEnd tokens with
    | none | some [] => none
    | some (⟨offset, token⟩ :: rest) =>
      match token with
      | .flowMappingEnd => close rest offset .mappingEnd
      | .key => (next rest .flowValue).nodeUnless endsFlowKey false false
      | .value => some (next (⟨offset, token⟩ :: rest) .flowValue, ⟨offset, absentScalar⟩)
      | _ => (next (⟨offset, token⟩ :: rest) .flowAbsentValue).node false false
  | .flowValue, ⟨offset, token⟩ :: rest =>
    match token with
    | .value => (next rest (.flowKey false)).nodeUnless endsFlowValue false false
    | _ => some (next r.tokens (.flowKey false), ⟨offset, absentScalar⟩)
  | .flowAbsentValue, ⟨offset, _⟩ :: _ => some (next r.tokens (.flowKey false), ⟨offset, absentScalar⟩)
  | .flowItem first, tokens =>
    match separator first .flowSequenceEnd tokens with
    | none | some [] => none
    | some (⟨offset, token⟩ :: rest) =>
      match token with
      | .flowSequenceEnd => close rest offset .sequenceEnd
      | .key => some (next rest .pairKey, ⟨offset, .mappingStart 0 none⟩)
      | _ => (next (⟨offset, token⟩ :: rest) (.flowItem false)).node false false
  | .pairKey, ⟨offset, token⟩ :: rest =>
    if endsPairKey token then some (next rest .pairValue, ⟨offset, absentScalar⟩)
    else (next r.tokens .pairValue).node false false
  | .pairValue, ⟨offset, token⟩ :: rest =>
    match token with
    | .value => (next rest .pairEnd).nodeUnless endsPairValue false false
    | _ => some (next r.tokens .pairEnd, ⟨offset, absentScalar⟩)
  | .pairEnd, ⟨offset, _⟩ :: _ => some (next r.tokens (.flowItem false), ⟨offset, .mappingEnd⟩)

/-- The next event of a document whose collections are not all closed. -/
def step (r : Reader) : Option (Reader × PlacedEvent) :=
  match r.expected with
  | [] => none
  | expected :: outer => { r with expected := outer }.stepWithin expected

def isDirective : Token → Bool
  | .versionDirective | .tagDirective .. => true
  | _ => false

/-- Whether the document may end here: behind its end mark, or where no directive follows. -/
def mayEnd (r : Reader) : Bool :=
  match r.tokens with
  | [] => false
  | ⟨_, token⟩ :: _ => !isDirective token

/-- The events up to the end of the document. There are at most three per token. -/
def run : (fuel : Nat) → Reader → Option (List PlacedEvent)
  | 0, _ => none
  | fuel + 1, r =>
    if r.expected.isEmpty then if r.mayEnd then some [] else none
    else
      match r.step with
      | none => none
      | some (r, event) => (run fuel r).map (event :: ·)

/-- Reads the directives in front of a document. The last one decides which handles are known. -/
def directives (versioned : Bool) (handles : List (String × String)) :
    List PlacedToken → Option (List (String × String) × List PlacedToken)
  | ⟨_, .versionDirective⟩ :: rest => if versioned then none else directives true [] rest
  | ⟨_, .tagDirective handle replacement⟩ :: rest => directives versioned [(handle, replacement)] rest
  | tokens => some (handles, tokens)

def endsContent : Token → Bool
  | .versionDirective | .tagDirective .. | .documentStart | .documentEnd | .streamEnd => true
  | _ => false

/-- The first event of the first document, `none` within if there is no document. -/
def firstNode (tokens : List PlacedToken) : Option (Option (Reader × PlacedEvent)) :=
  match tokens.dropWhile fun token => token.token == .documentEnd with
  | [] => none
  | ⟨offset, token⟩ :: rest =>
    if token = .streamEnd then some none
    else if isDirective token ∨ token = .documentStart then
      match directives false [] (⟨offset, token⟩ :: rest) with
      | some (handles, ⟨_, .documentStart⟩ :: rest) =>
        let r : Reader := ⟨rest, [], [], 0, handles⟩
        (r.nodeUnless endsContent true false).map some
      | _ => none
    else
      let r : Reader := ⟨⟨offset, token⟩ :: rest, [], [], 0, []⟩
      (r.node true false).map some

end Reader

/-- The events of the first document among the tokens, none if there is no document. A document that is
not well-formed has none to give. -/
def events? (tokens : List PlacedToken) : Option (List PlacedEvent) :=
  match Reader.firstNode tokens with
  | none => none
  | some none => some []
  | some (some (r, event)) => (r.run (4 * tokens.length + 4)).map (event :: ·)

end ConfigWeave.Yaml
