import ConfigWeave.Compose.Transform
import ConfigWeave.Value.Override

namespace ConfigWeave

/-- The variable that names a package within it. -/
def packageVariable : String := "package_id"

/-- Merges packages into a document one after the other. -/
def mergeEach (site : Site) (scope : Scope) (sub : Option Pattern) (root : Mapping) :
    List (Value × Value) → Run Mapping
  | [] => return root
  | (key, body) :: rest => do
    match ← transform site scope sub key with
    | none => mergeEach site scope sub root rest
    | some key =>
      let id := key.keyText
      match ← transform site (scope.define packageVariable (.str id)) sub body with
      | some (.map package) => mergeEach site scope sub (root.deepMerge package) rest
      | some .null | none => mergeEach site scope sub root rest
      | some other =>
        let got := other.typeName
        site.warn s!"Package '{id}' must be a mapping, got {got}"
        mergeEach site scope sub root rest

/-- The packages that a document declares, and the pattern that holds for each of them if the declaration has a
tag for substitution. Whatever else is tagged is resolved first. -/
def declaredPackages (site : Site) (scope : Scope) (declared : Value) : Run (Value × Option Pattern) :=
  match declared.unaliased with
  | .tagged (.sub name) _ (.map entries) => do return (.map entries, some (← site.pattern scope name))
  | .tagged .nosub _ (.map entries) => return (.map entries, none)
  | .tagged tag mark payload => do
    let resolved ← transform site scope none (.tagged tag mark payload)
    return (resolved.getD .null, none)
  | other => return (other, none)

/-- Merges the packages that a document declares into it. -/
def mergePackages (site : Site) (scope : Scope) (root : Mapping) (declared : Value) : Run Mapping := do
  let (packages, sub) ← declaredPackages site scope declared
  match packages with
  | .null => return root
  | .map entries => mergeEach site scope sub root entries
  | other => do
    let got := other.typeName
    site.warn s!"The 'packages' section must be a mapping, got {got}"
    return root

end ConfigWeave
