import ConfigWeave.Expr.Operation
import ConfigWeave.Number.Read
import ConfigWeave.Text.Basic
import ConfigWeave.Text.CaseMapping

namespace ConfigWeave.Expr

/-- The functions that serve as filters and methods. -/
inductive Function where
  | default | label | dig
  | upper | lower | capitalize | title | trim | strip | replace | repeat | split
  | startswith | endswith | contains | length
  | int | float | string | bool
  | join | first | last | keys | values | reverse | sort | unique | min | max
  | abs | round | tojson
deriving DecidableEq, Repr

/-- How many arguments a function takes and which of them may be named. -/
structure Signature where
  function : Function
  name : String
  least : Nat
  most : Option Nat
  keywords : List String

def signatures : List Signature :=
  [⟨.default, "default", 0, some 2, ["value", "boolean"]⟩,
   ⟨.label, "label", 0, some 0, []⟩,
   ⟨.dig, "dig", 1, none, []⟩,
   ⟨.upper, "upper", 0, some 0, []⟩,
   ⟨.lower, "lower", 0, some 0, []⟩,
   ⟨.capitalize, "capitalize", 0, some 0, []⟩,
   ⟨.title, "title", 0, some 0, []⟩,
   ⟨.trim, "trim", 0, some 1, []⟩,
   ⟨.strip, "strip", 0, some 1, []⟩,
   ⟨.replace, "replace", 2, some 3, []⟩,
   ⟨.repeat, "repeat", 1, some 1, []⟩,
   ⟨.split, "split", 0, some 1, []⟩,
   ⟨.startswith, "startswith", 1, some 1, []⟩,
   ⟨.endswith, "endswith", 1, some 1, []⟩,
   ⟨.contains, "contains", 1, some 1, []⟩,
   ⟨.length, "length", 0, some 0, []⟩,
   ⟨.int, "int", 0, some 1, ["default"]⟩,
   ⟨.float, "float", 0, some 1, ["default"]⟩,
   ⟨.string, "string", 0, some 0, []⟩,
   ⟨.bool, "bool", 0, some 0, []⟩,
   ⟨.join, "join", 0, some 1, ["separator"]⟩,
   ⟨.first, "first", 0, some 0, []⟩,
   ⟨.last, "last", 0, some 0, []⟩,
   ⟨.keys, "keys", 0, some 0, []⟩,
   ⟨.values, "values", 0, some 0, []⟩,
   ⟨.reverse, "reverse", 0, some 0, []⟩,
   ⟨.sort, "sort", 0, some 0, []⟩,
   ⟨.unique, "unique", 0, some 0, []⟩,
   ⟨.min, "min", 0, some 0, []⟩,
   ⟨.max, "max", 0, some 0, []⟩,
   ⟨.abs, "abs", 0, some 0, []⟩,
   ⟨.round, "round", 0, some 1, ["digits"]⟩,
   ⟨.tojson, "tojson", 0, some 0, []⟩]

/-- The arguments of a call. A keyword that is repeated keeps its last value. -/
structure Arguments where
  positional : List Value
  named : List (String × Value)

def Arguments.empty : Arguments := ⟨[], []⟩

def setKeyword (keyword : String) (value : Value) : List (String × Value) → List (String × Value)
  | [] => [(keyword, value)]
  | (k, v) :: rest => if k = keyword then (k, value) :: rest else (k, v) :: setKeyword keyword value rest

def Arguments.add (args : Arguments) (keyword : Option String) (value : Value) : Arguments :=
  match keyword with
  | some keyword => { args with named := setKeyword keyword value args.named }
  | none => { args with positional := args.positional ++ [value] }

/-- An argument by its keyword, or by its position. -/
def Arguments.get? (args : Arguments) (position : Nat) (keyword : String) : Option Value :=
  (args.named.lookup keyword) <|> args.positional[position]?

/-- The function of a call, once its keywords and the number of its arguments are found right. -/
def resolveCall (name : String) (args : Arguments) : Except ExprError Signature :=
  match signatures.find? (·.name == name) with
  | none => .error (.unknownFunction name)
  | some signature =>
    match args.named.find? fun entry => entry.1 ∉ signature.keywords with
    | some (keyword, _) => .error (.unexpectedKeyword name keyword)
    | none =>
      let got := args.positional.length + args.named.length
      if got < signature.least || signature.most.any (· < got) then
        .error (.wrongArity name signature.least signature.most got)
      else .ok signature

/-- The fallback for a value that is undefined or null, and on request for one that is not true. -/
def applyDefault (input : Option Value) (args : Arguments) : Value :=
  let fallback := (args.get? 0 "value").getD (.str "")
  let boolean := (args.get? 1 "boolean").any Value.truthy
  match input with
  | none | some .null => fallback
  | some v => if boolean && !v.truthy then fallback else v

/-- Follows a path of keys and indexes, a text names several of them separated by dots. A step that leads
nowhere ends in null. -/
def dig (input : Value) (path : List Value) : Value :=
  let steps := path.flatMap fun step => match step with
    | .str s => (s.toList.splitOnP (· == '.')).map fun part => Value.str (String.ofList part)
    | other => [other]
  let follow (current : Value) (step : Value) : Option Value :=
    match current, step with
    | .seq _, .str s => (Number.integer? 10 s.toList).bind fun i => lookup? current (.int i)
    | _, _ => lookup? current step
  (steps.foldlM follow input).getD .null

private def isSeparator (c : Char) : Bool :=
  c == '_' || c == '-' || Text.isBlank c

/-- Whether a capital letter starts a word: behind a small letter or a digit, and behind a capital one if
a small letter follows. -/
private def startsWord (previous : Option Char) (c : Char) (next : Option Char) : Bool :=
  Text.isUppercase c && previous.any fun p =>
    Text.isLowercase p || p.isDigit || (Text.isUppercase p && next.any Text.isLowercase)

/-- Cuts an identifier into words. `word` holds the word being read in reverse. -/
private def labelWords (previous : Option Char) (word : List Char) : List Char → List (List Char)
  | [] => if word.isEmpty then [] else [word.reverse]
  | c :: rest =>
    if isSeparator c then
      if word.isEmpty then labelWords (some c) [] rest else word.reverse :: labelWords (some c) [] rest
    else if startsWord previous c rest.head? && !word.isEmpty then word.reverse :: labelWords (some c) [c] rest
    else labelWords (some c) (c :: word) rest

/-- The words of an identifier with a capital letter each, separated by spaces. -/
def label (text : String) : String :=
  " ".intercalate ((labelWords none [] text.toList).map fun word => String.ofList (Text.capitalizeFirst word))

/-- The integer that a value stands for. Fractions are dropped. -/
def readInteger? : Value → Option Int64
  | .int i => some i
  | .float x => (Number.truncate? x).map Number.saturate
  | .bool b => some (if b then 1 else 0)
  | .str s =>
    let text := Text.trim s.toList
    (Number.integer? 10 text) <|> ((Number.float? text).bind Number.truncate?).map Number.saturate
  | _ => none

/-- The float that a value stands for. -/
def readFloat? : Value → Option Double
  | .int i => some (Double.ofInt i.toInt)
  | .float x => some x
  | .bool b => some (Double.ofNat b.toNat)
  | .str s => Number.float? (Text.trim s.toList)
  | _ => none

/-- The truth of a value where words such as `no` and `off` count as false. -/
def toBool : Value → Bool
  | .str s => String.ofList ((Text.trim s.toList).map Char.toLower) ∉ ["false", "no", "off", "0", ""]
  | v => v.truthy

/-- Whether a value stands in front of another. -/
def precedes (a b : Value) : Bool :=
  match order a b with
  | .ok .lt => true
  | _ => false

/-- The error of a comparison. -/
def orderError? (a b : Value) : Option ExprError :=
  match order a b with
  | .ok _ => none
  | .error e => some e

/-- What becomes of a sort in which comparisons may have failed: the error of the first that did is that of the
sort, unless the sort gave up on the way. -/
def settle {ι : Type} (failure? : ι → ι → Option ExprError) (sorting : Traced (ι × ι) Panic (List ι)) :
    Except ExprError (List ι) :=
  match sorting.result with
  | .error cause => .error (.panicked cause)
  | .ok sorted =>
    match sorting.trace.findSome? fun pair => failure? pair.1 pair.2 with
    | some e => .error e
    | none => .ok sorted

/-- Sorts values, which have to be comparable with each other. The sort takes those that are not for equal, and may
find on the way that there is no order. -/
def sort (items : List Value) : Except ExprError (List Value) :=
  let values := items.toArray
  let sorting := (Sorting.stableSort (List.finRange values.size)).run fun i j => precedes values[i] values[j]
  (settle (fun i j => orderError? values[i] values[j]) sorting).map fun sorted => sorted.map fun i => values[i]

/-- The values without those that equal an earlier one. -/
def unique (items : List Value) : List Value :=
  (items.foldl (fun seen v => if seen.any (·.looseEq v) then seen else v :: seen) []).reverse

private def absolute (i : Int64) : Int64 :=
  Number.saturate i.toInt.natAbs

def strings (parts : List String) : Value :=
  .seq (parts.map .str)

/-- The value of a function for an input that is defined. -/
def Signature.apply (signature : Signature) (input : Value) (args : Arguments) : Except ExprError (Option Value) :=
  let argText (position : Nat) : String := (args.positional[position]?.map Value.display).getD ""
  let wrongType {α : Type} (expected : String) : Except ExprError α :=
    .error (.wrongType signature.name expected input.typeName)
  match signature.function with
  | .default => .ok (some (applyDefault (some input) args))
  | .label => .ok (some (.str (label input.display)))
  | .dig => .ok (some (dig input args.positional))
  | .upper => .ok (some (.str (Text.upper input.display)))
  | .lower => .ok (some (.str (Text.lower input.display)))
  | .capitalize => .ok (some (.str (Text.capitalize input.display)))
  | .title => .ok (some (.str (Text.title input.display)))
  | .trim | .strip =>
    let dropped := if args.positional.isEmpty then Text.isBlank else (argText 0).toList.contains
    .ok (some (.str (String.ofList (Text.trimWhere dropped input.display.toList))))
  | .replace =>
    match args.positional.drop 2 with
    | [] => .ok (some (.str (Text.replace (argText 0) (argText 1) input.display)))
    | .int n :: _ => .ok (some (.str (Text.replaceUpTo n.toInt.toNat (argText 0) (argText 1) input.display)))
    | other :: _ => .error (.countNotInteger other.typeName)
  | .repeat =>
    match args.positional with
    | .int n :: _ => (repeatText input.display n).map fun s => some (.str s)
    | _ => .error .repeatNotInteger
  | .split =>
    if (argText 0).isEmpty then .ok (some (strings ((Text.words input.display.toList).map String.ofList)))
    else .ok (some (strings (Text.pieces (argText 0) input.display)))
  | .startswith => .ok (some (.bool (input.display.startsWith (argText 0))))
  | .endswith => .ok (some (.bool (input.display.endsWith (argText 0))))
  | .contains =>
    let needle := args.positional.head?.getD .null
    .ok (some (.bool (match input with
      | .seq items => items.any (·.looseEq needle)
      | .map entries => Mapping.contains entries needle
      | other => other.display.contains needle.display)))
  | .length =>
    match input with
    | .str s => .ok (some (.int (Int64.ofNat s.length)))
    | .seq items => .ok (some (.int (Int64.ofNat items.length)))
    | .map entries => .ok (some (.int (Int64.ofNat entries.length)))
    | _ => wrongType "a string or collection"
  | .int =>
    .ok (some (match readInteger? input with
      | some i => .int i
      | none => (args.get? 0 "default").getD (.int 0)))
  | .float =>
    .ok (some (match readFloat? input with
      | some x => .float x
      | none => (args.get? 0 "default").getD (.float (Double.ofNat 0))))
  | .string => .ok (some (.str input.display))
  | .bool => .ok (some (.bool (toBool input)))
  | .join =>
    match input with
    | .seq items =>
      let separator := ((args.get? 0 "separator").map Value.display).getD ""
      .ok (some (.str (separator.intercalate (items.map Value.display))))
    | _ => wrongType "a sequence"
  | .first =>
    match input with
    | .seq items => .ok items.head?
    | .str s => .ok (s.toList.head?.map fun c => .str (String.singleton c))
    | _ => wrongType "a sequence or string"
  | .last =>
    match input with
    | .seq items => .ok items.getLast?
    | .str s => .ok (s.toList.getLast?.map fun c => .str (String.singleton c))
    | _ => wrongType "a sequence or string"
  | .keys =>
    match input with
    | .map entries => .ok (some (.seq (entries.map (·.1))))
    | _ => wrongType "a mapping"
  | .values =>
    match input with
    | .map entries => .ok (some (.seq (entries.map (·.2))))
    | _ => wrongType "a mapping"
  | .reverse =>
    match input with
    | .seq items => .ok (some (.seq items.reverse))
    | .str s => .ok (some (.str (String.ofList s.toList.reverse)))
    | _ => wrongType "a sequence or string"
  | .sort =>
    match input with
    | .seq items => (sort items).map fun sorted => some (.seq sorted)
    | _ => wrongType "a sequence"
  | .unique =>
    match input with
    | .seq items => .ok (some (.seq (unique items)))
    | _ => wrongType "a sequence"
  | .min =>
    match input with
    | .seq items => (sort items).map List.head?
    | _ => wrongType "a sequence"
  | .max =>
    match input with
    | .seq items => (sort items).map List.getLast?
    | _ => wrongType "a sequence"
  | .abs =>
    match input with
    | .int i => .ok (some (.int (absolute i)))
    | .float x => .ok (some (.float x.abs))
    | _ => wrongType "a number"
  | .round =>
    match args.get? 0 "digits" with
    | none => round 0 input
    | some (.int places) => round places.toInt input
    | some other => .error (.wrongType signature.name "integer digits" other.typeName)
  | .tojson => .ok (some (.str input.json))
where
  round (places : Int) (v : Value) : Except ExprError (Option Value) :=
    match v with
    | .int i => .ok (some (.int i))
    | .float x => .ok (some (.float (Number.roundTo (max (-15) (min 15 places)) x)))
    | _ => .error (.wrongType signature.name "a number" v.typeName)

/-- The tag on a node does not matter to a function, unless another tag stands below it. -/
def untag : Value → Value
  | .tagged _ _ payload => payload
  | v => v

/-- Calls a function by name. An undefined input stays undefined, unless a default is asked for. -/
def callFunction (name : String) (input : Option Value) (args : Arguments) : Except ExprError (Option Value) := do
  let signature ← resolveCall name args
  if signature.function = .default then return some (applyDefault input args)
  match input with
  | none => return none
  | some v => signature.apply (untag v) args

end ConfigWeave.Expr
