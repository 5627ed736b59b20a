import ConfigWeave.Scalar
import ConfigWeave.Value.Mapping
import ConfigWeave.Yaml.Event

namespace ConfigWeave.Yaml

/-- What a tag on a node means: a type of the core schema, or a tag that stays on the node. -/
inductive TagMeaning where
  | core (name : String)
  | kept (tag : Tag)
deriving DecidableEq, Repr

/-- What the handles of the tags of the core schema stand for. -/
def coreHandle : String :=
  "tag:yaml.org,2002:"

private def dropMarks (text : String) : List Char :=
  text.toList.dropWhile (· == '!')

def NodeTag.meaning (tag : NodeTag) : TagMeaning :=
  if tag.handle = "!!" ∨ tag.handle = coreHandle then .core tag.suffix
  else if tag.handle = "!" then .kept (Tag.ofSuffix tag.suffix)
  else if tag.handle = "" then
    if coreHandle.toList.isPrefixOf tag.suffix.toList then
      .core (String.ofList (tag.suffix.toList.drop coreHandle.length))
    else .kept (Tag.ofSuffix (String.ofList (dropMarks tag.suffix)))
  else .kept (.unknown (String.ofList (dropMarks tag.handle ++ tag.suffix.toList)))

/-- The value of a scalar. Only plain scalars without a type of their own are read as null, booleans and
numbers. -/
def scalarValue (text : String) (style : ScalarStyle) (tag : Option NodeTag) (mark : Nat) : Value :=
  let untyped : Value := if style = .plain then Scalar.plain text else .str text
  match tag.map NodeTag.meaning with
  | none => untyped
  | some (.core name) => Scalar.ofType name text
  | some (.kept tag) => .tagged tag mark untyped

/-- The content of an open collection. Items and entries are in reverse; a key waits for its value. -/
inductive Content where
  | sequence (items : List Value)
  | mapping (entries : List (Value × Value)) (key : Option Value)

/-- An open collection. -/
structure Frame where
  content : Content
  anchor : Nat
  tag : Option NodeTag
  mark : Nat

/-- A document while it is built. The innermost collection comes first. -/
structure Builder where
  frames : List Frame
  anchors : List (Nat × Value)
  root : Option Value

/-- Adds an entry to a mapping. The values of repeated merge keys are collected in a sequence, other keys
take the last value. -/
def addEntry (m : Mapping) (key value : Value) : Mapping :=
  if key.isMergeKey then
    match m.get? key with
    | some (.seq sources) => m.insert key (.seq (sources ++ [value]))
    | some source => m.insert key (.seq [source, value])
    | none => m.insert key value
  else m.insert key value

def mappingOfEntries (entries : List (Value × Value)) : Mapping :=
  entries.foldl (fun m entry => addEntry m entry.1 entry.2) []

namespace Content

def add : Content → Value → Content
  | .sequence items, v => .sequence (v :: items)
  | .mapping entries none, v => .mapping entries (some v)
  | .mapping entries (some key), v => .mapping ((key, v) :: entries) none

/-- Whether the next node is a key. -/
def expectsKey : Content → Bool
  | .mapping _ none => true
  | _ => false

/-- The collection. A key that still waits has no value. -/
def value : Content → Value
  | .sequence items => .seq items.reverse
  | .mapping entries none => .map (mappingOfEntries entries.reverse)
  | .mapping entries (some key) => .map (mappingOfEntries ((key, .null) :: entries).reverse)

end Content

/-- The value of a closed collection. Types of the core schema do not change collections. -/
def Frame.value (frame : Frame) : Value :=
  match frame.tag.map NodeTag.meaning with
  | some (.kept tag) => .tagged tag frame.mark frame.content.value
  | _ => frame.content.value

namespace Builder

def start : Builder := ⟨[], [], none⟩

/-- Puts a finished node in its place, and keeps it for aliases if it has an anchor. -/
def complete (b : Builder) (v : Value) (anchor : Nat) : Builder :=
  let b := if anchor = 0 then b else { b with anchors := (anchor, v) :: b.anchors }
  match b.frames with
  | [] => { b with root := some v }
  | frame :: frames => { b with frames := { frame with content := frame.content.add v } :: frames }

/-- A plain `<<` without a tag is a merge key where a key is expected. -/
def isMergeKey (b : Builder) (text : String) (style : ScalarStyle) (tag : Option NodeTag) : Bool :=
  tag.isNone && style == .plain && text == "<<" && b.frames.head?.any fun frame => frame.content.expectsKey

/-- An alias within its own anchor is null. -/
def step (b : Builder) (e : PlacedEvent) : Builder :=
  match e.event with
  | .alias anchor => b.complete (.tagged .alias e.offset ((b.anchors.lookup anchor).getD .null)) 0
  | .scalar text style anchor tag =>
    let v :=
      if b.isMergeKey text style tag then .tagged .mergeKey e.offset (.str text)
      else scalarValue text style tag e.offset
    b.complete v anchor
  | .sequenceStart anchor tag => { b with frames := ⟨.sequence [], anchor, tag, e.offset⟩ :: b.frames }
  | .mappingStart anchor tag => { b with frames := ⟨.mapping [] none, anchor, tag, e.offset⟩ :: b.frames }
  | .sequenceEnd | .mappingEnd =>
    match b.frames with
    | [] => b
    | frame :: frames => { b with frames := frames }.complete frame.value frame.anchor

end Builder

/-- The document that a sequence of events describes, null if it has no node. -/
def documentOf (events : List PlacedEvent) : Value :=
  (events.foldl Builder.step .start).root.getD .null

/-- The first document of a text, `none` if the text is not well-formed. -/
def parse? (text : String) : Option Value :=
  (events? (tokens text)).map documentOf

end ConfigWeave.Yaml
