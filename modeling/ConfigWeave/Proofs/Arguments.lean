import ConfigWeave.Compose.Arguments
import ConfigWeave.Proofs.Lookup
import Mathlib.Data.List.Infix
import Mathlib.Data.List.TakeWhile

namespace ConfigWeave

namespace Text

theorem trim_eq_nil_iff {text : List Char} : trim text = [] ↔ text.all isBlank = true := by
  have parts : text.all isBlank = (text.dropWhile isBlank).all isBlank := calc
    text.all isBlank = (text.takeWhile isBlank ++ text.dropWhile isBlank).all isBlank := by
      rw [List.takeWhile_append_dropWhile]
    _ = (text.dropWhile isBlank).all isBlank := by rw [List.all_append, List.all_takeWhile, Bool.true_and]
  rw [parts, trim, trimWhere, List.reverse_eq_nil_iff, List.dropWhile_eq_nil_iff, ← List.all_eq_true,
    List.all_reverse]

end Text

/-- A name that can stand in a query. -/
structure QueryName where
  text : String
  no_ampersand : '&' ∉ text.toList
  no_equals : '=' ∉ text.toList

/-- What stands between two ampersands of a query: a variable with the text of its value, a flag, or nothing. -/
inductive QueryPart where
  | assign (name : QueryName) (value : String) (closed : '&' ∉ value.toList)
  | flag (name : QueryName) (named : name.text ≠ "")
  | blank

namespace QueryPart

def text : QueryPart → String
  | .assign name value _ => name.text ++ "=" ++ value
  | .flag name _ => name.text
  | .blank => ""

/-- The variable that a part gives. -/
def given? : QueryPart → Option (Value × Value)
  | .assign name value _ => some (.str name.text, Scalar.plain value)
  | .flag name _ => some (.str name.text, .bool true)
  | .blank => none

def query (parts : List QueryPart) : String :=
  "&".intercalate (parts.map text)

theorem no_ampersand (part : QueryPart) : '&' ∉ part.text.toList := by
  cases part with
  | assign name value closed => simp [text, name.no_ampersand, closed]
  | flag name _ => exact name.no_ampersand
  | blank => decide

theorem given?_eq_queryEntry (part : QueryPart) :
    part.given? = if part.text.toList.isEmpty then none else some (Arguments.queryEntry part.text.toList) := by
  cases part with
  | assign name value closed =>
    have spelled : (QueryPart.assign name value closed).text.toList = name.text.toList ++ '=' :: value.toList := by
      simp [text]
    have inked : (name.text.toList ++ '=' :: value.toList).isEmpty = false := by simp
    rw [spelled, inked, Arguments.queryEntry, Text.splitFirst_singleton name.no_equals]
    simp [given?]
  | flag name named =>
    have inked : name.text.toList.isEmpty = false := by simp [named]
    have noEquals : ¬['='] <:+: name.text.toList :=
      fun inside => name.no_equals ((List.singleton_infix_iff _ _).mp inside)
    rw [text, inked, Arguments.queryEntry, Text.splitFirst_eq_none noEquals]
    simp [given?]
  | blank => rfl

theorem get?_ofList (parts : List QueryPart) (name : String) :
    Mapping.get? (Mapping.ofList (parts.filterMap given?)) (.str name) =
      Mapping.get? (parts.filterMap given?).reverse (.str name) := by
  have named : ∀ entry ∈ parts.filterMap given?, entry.1.KeysDistinct := by
    intro entry member
    obtain ⟨part, -, gives⟩ := List.mem_filterMap.mp member
    cases part with
    | assign =>
      cases gives
      exact Value.everyMapping_str _ _
    | flag =>
      cases gives
      exact Value.everyMapping_str _ _
    | blank => cases gives
  rw [Mapping.ofList, Mapping.get?_insertAll (List.forall_mem_nil _) named (Value.everyMapping_str _ name),
    Mapping.get?_nil, Option.or_none]

end QueryPart

namespace Arguments

/-- Reading a query undoes writing it, except that parts with nothing in them leave nothing behind. -/
theorem ofQuery_query (parts : List QueryPart) :
    ofQuery (QueryPart.query parts).toList = Mapping.ofList (parts.filterMap QueryPart.given?) := by
  have read : ∀ parts : List QueryPart,
      ((parts.map (·.text.toList)).filter (!·.isEmpty)).map queryEntry = parts.filterMap QueryPart.given? := by
    intro parts
    induction parts with
    | nil => rfl
    | cons part rest ih =>
      rw [List.map_cons, List.filter_cons, List.filterMap_cons, part.given?_eq_queryEntry, ← ih]
      cases part.text.toList.isEmpty <;> rfl
  rw [ofQuery, ← read]
  by_cases empty : parts = []
  · subst empty
    rfl
  · have closed : ∀ text ∈ parts.map (·.text.toList), '&' ∉ text :=
      List.forall_mem_map.mpr fun part _ => part.no_ampersand
    have cut := List.splitOn_intercalate '&' closed (by simpa using empty)
    have written : (QueryPart.query parts).toList = ['&'].intercalate (parts.map (·.text.toList)) := by
      rw [QueryPart.query, String.toList_intercalate, List.map_map]
      rfl
    rw [List.splitOn, ← written] at cut
    rw [cut]

theorem ofTarget?_toList (target : String) (vars : Mapping) :
    ofTarget? target.toList vars = if target.isBlank then none else some ⟨target.trimBlank, vars⟩ := by
  rw [ofTarget?, String.isBlank, String.trimBlank]
  split
  · rename_i blank
    rw [if_pos (Text.trim_eq_nil_iff.mp blank)]
  · rename_i c rest inked
    rw [if_neg fun blank => List.cons_ne_nil c rest (inked.symm.trans (Text.trim_eq_nil_iff.mpr blank)), inked]

theorem ofPayload?_str {target : String} (noQuery : '?' ∉ target.toList) (key : String) (parts : List QueryPart) :
    ofPayload? key (.str (target ++ "?" ++ QueryPart.query parts)) =
      ofTarget? target.toList (Mapping.ofList (parts.filterMap QueryPart.given?)) := by
  have spelled : (target ++ "?" ++ QueryPart.query parts).toList =
      target.toList ++ '?' :: (QueryPart.query parts).toList := by simp
  simp only [ofPayload?, spelled, Text.splitFirst_singleton noQuery, ofQuery_query]

theorem ofPayload?_map {key : String} (other : key ≠ "vars") (target : String) (vars : Mapping) :
    ofPayload? key (.map [(.str key, .str target), (.str "vars", .map vars)]) = ofTarget? target.toList vars := by
  have different : Value.str key ≠ .str "vars" := fun same => other (Value.str.inj same)
  simp only [ofPayload?, Mapping.get?_str_cons, Mapping.get?_str_cons_of_ne different, Option.bind_some, Value.map?,
    Option.getD_some]
  rfl

theorem ofPayload?_map_null (key : String) (rest : Mapping) :
    ofPayload? key (.map ((.str key, .null) :: rest)) = none := by
  rw [ofPayload?, Mapping.get?_str_cons]

/-- A target with a query and a mapping with the target and the variables ask for the same. Of a variable that is
given more than once the first place and the last value count. Without a target, or with a blank one, nothing is
asked for. -/
theorem ofPayload?_forms {key target : String} (other : key ≠ "vars") (noQuery : '?' ∉ target.toList)
    (parts : List QueryPart) :
    let entries := parts.filterMap QueryPart.given?
    let vars := Mapping.ofList entries
    let text := Value.str (target ++ "?" ++ QueryPart.query parts)
    let mapping (given : Value) := Value.map [(.str key, given), (.str "vars", .map vars)]
    ofPayload? key text = ofPayload? key (mapping (.str target)) ∧
      ofPayload? key text = (if target.isBlank then none else some ⟨target.trimBlank, vars⟩) ∧
      vars.map Prod.fst = (entries.map Prod.fst).eraseDups ∧
      (∀ name : String, Mapping.get? vars (.str name) = Mapping.get? entries.reverse (.str name)) ∧
      ofPayload? key .null = none ∧ ofPayload? key (mapping .null) = none := by
  intro entries vars text mapping
  have written : ofPayload? key text = ofTarget? target.toList vars := ofPayload?_str noQuery key parts
  refine ⟨?_, ?_, Mapping.keys_ofList entries, QueryPart.get?_ofList parts, rfl, ofPayload?_map_null key _⟩
  · rw [written, ofPayload?_map other]
  · rw [written, ofTarget?_toList]

theorem ofPayload?_forms_repeated :
    let vars : Mapping := [(.str "port", .int 81), (.str "debug", .bool true), (.str "host", .str "a=b?c")]
    "file" ≠ "vars" ∧ '?' ∉ " db.yaml ".toList ∧
      ofPayload? "file" (.str " db.yaml ?port=80&debug&&host=a=b?c&port=81") = some ⟨"db.yaml", vars⟩ ∧
      ofPayload? "file" (.map [(.str "file", .str " db.yaml "), (.str "vars", .map vars)]) =
        some ⟨"db.yaml", vars⟩ := by
  intro vars
  have other : "file" ≠ "vars" := by decide
  have noQuery : '?' ∉ " db.yaml ".toList := by decide
  let port : QueryName := ⟨"port", by decide, by decide⟩
  let parts : List QueryPart :=
    [.assign port "80" (by decide), .flag ⟨"debug", by decide, by decide⟩ (by decide), .blank,
      .assign ⟨"host", by decide, by decide⟩ "a=b?c" (by decide), .assign port "81" (by decide)]
  have read : Mapping.ofList (parts.filterMap QueryPart.given?) = vars := by rfl
  have text : " db.yaml " ++ "?" ++ QueryPart.query parts = " db.yaml ?port=80&debug&&host=a=b?c&port=81" := by rfl
  obtain ⟨agree, given, -⟩ := ofPayload?_forms other noQuery parts
  rw [read, text] at agree
  rw [read, text] at given
  exact ⟨other, noQuery, given, agree.symm.trans given⟩

end Arguments

end ConfigWeave
