import ConfigWeave.Value.Mapping

namespace ConfigWeave

namespace Value

mutual
/-- Whether a tree holds a node that is to be removed or replaced. -/
def hasOverride : Value → Bool
  | .tagged tag _ payload => tag.isOverride || payload.hasOverride
  | .seq items => anyItemOverrides items
  | .map entries => anyEntryOverrides entries
  | _ => false
def anyItemOverrides : List Value → Bool
  | [] => false
  | v :: rest => v.hasOverride || anyItemOverrides rest
def anyEntryOverrides : List (Value × Value) → Bool
  | [] => false
  | (k, v) :: rest => k.hasOverride || v.hasOverride || anyEntryOverrides rest
end

mutual
/-- Removes the nodes that are to be removed, with their entries, and unwraps those that replace others.
Nothing remains of a node that is removed itself. -/
def applyOverrides? : Value → Option Value
  | .tagged .replacement _ payload => payload.applyOverrides?
  | .tagged .removal _ _ => none
  | .seq items => some (.seq (overriddenItems items))
  | .map entries => some (.map (Mapping.ofList (overriddenEntries entries)))
  | v => some v
def overriddenItems : List Value → List Value
  | [] => []
  | v :: rest =>
    match v.applyOverrides? with
    | some w => w :: overriddenItems rest
    | none => overriddenItems rest
def overriddenEntries : List (Value × Value) → List (Value × Value)
  | [] => []
  | (k, v) :: rest =>
    match k.applyOverrides?, v.applyOverrides? with
    | some k, some v => (k, v) :: overriddenEntries rest
    | _, _ => overriddenEntries rest
end

mutual
/-- What becomes of a value when another is merged into it. A node that overrides stays, mappings merge
entry by entry, sequences are appended, and of all else the incoming value wins. -/
def mergedWith (existing : Value) : Value → Value
  | .seq incoming =>
    match existing with
    | .tagged tag _ _ => if tag.isOverride then existing else .seq incoming
    | .seq items => .seq (items ++ incoming)
    | _ => .seq incoming
  | .map incoming =>
    match existing with
    | .tagged tag _ _ => if tag.isOverride then existing else .map incoming
    | .map entries => .map (mergedEntries entries incoming)
    | _ => .map incoming
  | incoming =>
    match existing with
    | .tagged tag _ _ => if tag.isOverride then existing else incoming
    | _ => incoming
def mergedEntries (target : List (Value × Value)) : List (Value × Value) → List (Value × Value)
  | [] => target
  | (k, v) :: rest =>
    match Mapping.get? target k with
    | none => mergedEntries (Mapping.insert target k v) rest
    | some existing => mergedEntries (Mapping.insert target k (existing.mergedWith v)) rest
end

end Value

/-- Merges a mapping deeply into another. -/
def Mapping.deepMerge (target source : Mapping) : Mapping :=
  Value.mergedEntries target source

end ConfigWeave
