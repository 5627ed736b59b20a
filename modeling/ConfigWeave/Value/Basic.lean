import ConfigWeave.Number.Binary64
import ConfigWeave.Text.Basic

namespace ConfigWeave

/-- What a tag on a node asks for. `mergeKey` marks a plain `<<` in key position and `alias` a node that
was spliced in by its anchor; neither can be written as a tag. -/
inductive Tag where
  | sub (patternName : Option String)
  | nosub
  | cond
  | inclusion
  | insertion
  | removal
  | replacement
  | mergeKey
  | alias
  | unknown (name : String)
deriving DecidableEq, Repr, Inhabited

/-- The tag written `!suffix`. -/
def Tag.ofSuffix : String → Tag
  | "sub" => .sub none
  | "nosub" => .nosub
  | "if" => .cond
  | "include" => .inclusion
  | "insert" => .insertion
  | "remove" => .removal
  | "replace" => .replacement
  | suffix =>
    match suffix.toList with
    | 's' :: 'u' :: 'b' :: ':' :: c :: name => .sub (some (String.ofList (c :: name)))
    | _ => .unknown suffix

def Tag.text : Tag → String
  | .sub none => "!sub"
  | .sub (some name) => "!sub:" ++ name
  | .nosub => "!nosub"
  | .cond => "!if"
  | .inclusion => "!include"
  | .insertion => "!insert"
  | .removal => "!remove"
  | .replacement => "!replace"
  | .mergeKey => "<<"
  | .alias => "*alias"
  | .unknown name => "!" ++ name

/-- Tags by which a document overrides what its packages contribute. -/
def Tag.isOverride : Tag → Bool
  | .removal | .replacement => true
  | _ => false

/-- A document tree. Mappings list their entries in the order in which the keys first appeared; keys are
values of any kind. A tagged node keeps the offset in its document at which it starts. -/
inductive Value where
  | null
  | bool (b : Bool)
  | int (i : Int64)
  | float (x : Double)
  | str (s : String)
  | seq (items : List Value)
  | map (entries : List (Value × Value))
  | tagged (tag : Tag) (mark : Nat) (payload : Value)
deriving Inhabited

namespace Value

mutual
/-- Equality of values: floats by their bits, mappings without regard to order, tagged nodes without
regard to their position. Mappings of equal size are equal when every entry of the first has an
equal one in the second, for keys are distinct. -/
def beq : Value → Value → Bool
  | .null, .null => true
  | .bool a, .bool b => a == b
  | .int a, .int b => a == b
  | .float a, .float b => a == b
  | .str a, .str b => a == b
  | .seq a, .seq b => beqItems a b
  | .map a, .map b => a.length == b.length && within a b
  | .tagged s _ a, .tagged t _ b => s == t && a.beq b
  | _, _ => false
def beqItems : List Value → List Value → Bool
  | [], [] => true
  | a :: as, b :: bs => a.beq b && beqItems as bs
  | _, _ => false
/-- Whether every entry has an equal one among the others. -/
def within : List (Value × Value) → List (Value × Value) → Bool
  | [], _ => true
  | (k, v) :: rest, others =>
    (match others.find? (fun entry => k.beq entry.1) with
      | some entry => v.beq entry.2
      | none => false) && within rest others
end

instance : BEq Value := ⟨beq⟩

instance : Coe String Value := ⟨.str⟩

/-- The key that a plain `<<` is read as. -/
def mergeKey : Value :=
  .tagged .mergeKey 0 (.str "<<")

def isMergeKey : Value → Bool
  | .tagged .mergeKey _ _ => true
  | _ => false

def isNull : Value → Bool
  | .null => true
  | _ => false

def str? : Value → Option String
  | .str s => some s
  | _ => none

def seq? : Value → Option (List Value)
  | .seq items => some items
  | _ => none

def map? : Value → Option (List (Value × Value))
  | .map entries => some entries
  | _ => none

/-- The node that an alias points at. -/
def unaliased : Value → Value
  | .tagged .alias _ payload => payload.unaliased
  | v => v

/-- The value below all tags on the node itself. -/
def bare : Value → Value
  | .tagged _ _ payload => payload.bare
  | v => v

def typeName : Value → String
  | .null => "null"
  | .bool _ => "boolean"
  | .int _ => "integer"
  | .float _ => "float"
  | .str _ => "string"
  | .seq _ => "sequence"
  | .map _ => "mapping"
  | .tagged _ _ payload => payload.typeName

/-- Whether two texts agree but for the case of ASCII letters. -/
private def sameIgnoringCase (a b : List Char) : Bool :=
  a.map Char.toLower == b.map Char.toLower

/-- Values that count as true: all but null, false, zero and NaN, blank text, the text `false` in any
case, and empty collections. -/
def truthy : Value → Bool
  | .null => false
  | .bool b => b
  | .int i => i != 0
  | .float x => !x.isZero && x.sameNumber x
  | .str s =>
    let text := Text.trim s.toList
    !text.isEmpty && !sameIgnoringCase text ['f', 'a', 'l', 's', 'e']
  | .seq items => !items.isEmpty
  | .map entries => !entries.isEmpty
  | .tagged _ _ payload => payload.truthy

end Value

end ConfigWeave
