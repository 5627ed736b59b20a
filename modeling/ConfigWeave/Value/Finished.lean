import ConfigWeave.Value.Override

namespace ConfigWeave

/-- A mapping without its hidden entries, those with a text key that starts with a dot. -/
def Mapping.withoutHidden (m : Mapping) : Mapping :=
  m.filter fun entry => !(entry.1.str?.any fun key => key.toList.head? == some '.')

namespace Value

mutual
/-- The value without the entries whose key is null, in all mappings that are not part of a key. -/
def withoutNullKeys : Value → Value
  | .seq items => .seq (itemsWithoutNullKeys items)
  | .map entries => .map (entriesWithoutNullKeys entries)
  | v => v
def itemsWithoutNullKeys : List Value → List Value
  | [] => []
  | v :: rest => v.withoutNullKeys :: itemsWithoutNullKeys rest
def entriesWithoutNullKeys : List (Value × Value) → List (Value × Value)
  | [] => []
  | (k, v) :: rest =>
    if k.isNull then entriesWithoutNullKeys rest else (k, v.withoutNullKeys) :: entriesWithoutNullKeys rest
end

/-- What a document finally amounts to: its overrides are applied, and neither tags nor null keys are left. -/
def finished (v : Value) : Value :=
  let overridden := if v.hasOverride then v.applyOverrides?.getD .null else v
  overridden.untagged.withoutNullKeys

end Value

end ConfigWeave
