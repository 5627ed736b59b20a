import ConfigWeave.Value.Mapping

namespace ConfigWeave

/-- A piece of the data that a hash is computed from; `form` tells the forms of a value or tag apart. -/
inductive HashInput where
  | form (index : Nat)
  | bool (b : Bool)
  | int (i : Int64)
  | bits (bits : UInt64)
  | text (s : String)
  | size (n : Nat)
deriving DecidableEq, Repr

def Tag.hashInput : Tag → List HashInput
  | .sub none => [.form 0, .form 0]
  | .sub (some name) => [.form 0, .form 1, .text name]
  | .nosub => [.form 1]
  | .cond => [.form 2]
  | .inclusion => [.form 3]
  | .insertion => [.form 4]
  | .removal => [.form 5]
  | .replacement => [.form 6]
  | .mergeKey => [.form 7]
  | .alias => [.form 8]
  | .unknown name => [.form 9, .text name]

namespace Value

mutual
/-- What of a value goes into its hash: of a mapping only the size, as its order does not count, and of a tagged
node not the position. -/
def hashInput : Value → List HashInput
  | .null => [.form 0]
  | .bool b => [.form 1, .bool b]
  | .int i => [.form 2, .int i]
  | .float x => [.form 3, .bits x.bits]
  | .str s => [.form 4, .text s]
  | .seq items => .form 5 :: .size items.length :: hashInputs items
  | .map entries => [.form 6, .size entries.length]
  | .tagged tag _ payload => .form 7 :: (tag.hashInput ++ payload.hashInput)
def hashInputs : List Value → List HashInput
  | [] => []
  | v :: rest => v.hashInput ++ hashInputs rest
end

mutual
/-- Equality where the keys of mappings are looked up by their hash: only keys with the same hash are compared. -/
def hashedBeq (hash : List HashInput → UInt64) : Value → Value → Bool
  | .null, .null => true
  | .bool a, .bool b => a == b
  | .int a, .int b => a == b
  | .float a, .float b => a == b
  | .str a, .str b => a == b
  | .seq a, .seq b => hashedBeqItems hash a b
  | .map a, .map b => a.length == b.length && hashedWithin hash a b
  | .tagged s _ a, .tagged t _ b => s == t && a.hashedBeq hash b
  | _, _ => false
def hashedBeqItems (hash : List HashInput → UInt64) : List Value → List Value → Bool
  | [], [] => true
  | a :: as, b :: bs => a.hashedBeq hash b && hashedBeqItems hash as bs
  | _, _ => false
def hashedWithin (hash : List HashInput → UInt64) : List (Value × Value) → List (Value × Value) → Bool
  | [], _ => true
  | (k, v) :: rest, others =>
    (match others.find? fun entry => hash k.hashInput == hash entry.1.hashInput && k.hashedBeq hash entry.1 with
      | some entry => v.hashedBeq hash entry.2
      | none => false) && hashedWithin hash rest others
end

end Value

/-- The place of the entry that a hash table finds for a key. -/
def Mapping.place? (hash : List HashInput → UInt64) (m : Mapping) (key : Value) : Option Nat :=
  m.findIdx? fun entry => hash key.hashInput == hash entry.1.hashInput && key.hashedBeq hash entry.1

end ConfigWeave
