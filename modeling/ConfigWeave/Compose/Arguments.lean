import ConfigWeave.Scalar
import ConfigWeave.Text.Basic
import ConfigWeave.Text.Search
import ConfigWeave.Value.Mapping
import ConfigWeave.Value.Written

namespace ConfigWeave

/-- What a node asks to have put in its place, a file or a template, and the variables for it. -/
structure Arguments where
  target : String
  vars : Mapping

namespace Arguments

/-- The arguments for a target, without the blanks around it. It must not be blank. -/
def ofTarget? (target : List Char) (vars : Mapping) : Option Arguments :=
  match Text.trim target with
  | [] => none
  | c :: cs => some ⟨String.ofList (c :: cs), vars⟩

/-- A variable written as `name=value`. A name alone stands for a flag that is set. -/
def queryEntry (text : List Char) : Value × Value :=
  match Text.splitFirst ['='] text with
  | some (name, value) => (.str (String.ofList name), Scalar.plain (String.ofList value))
  | none => (.str (String.ofList text), .bool true)

/-- The variables written behind a target, separated by ampersands. -/
def ofQuery (text : List Char) : Mapping :=
  Mapping.ofList (((text.splitOnP (· == '&')).filter (!·.isEmpty)).map queryEntry)

/-- The arguments that a payload gives: as a text with a query, or as a mapping with the target under the
given key and variables under `vars`. -/
def ofPayload? (targetKey : String) : Value → Option Arguments
  | .null => none
  | .map entries =>
    match Mapping.get? entries (.str targetKey) with
    | none | some .null => none
    | some target =>
      let vars := ((Mapping.get? entries (.str "vars")).bind Value.map?).getD []
      ofTarget? target.keyText.toList vars
  | .str text =>
    match Text.splitFirst ['?'] text.toList with
    | some (target, query) => ofTarget? target (ofQuery query)
    | none => ofTarget? text.toList []
  | other => ofTarget? other.keyText.toList []

end Arguments

end ConfigWeave
