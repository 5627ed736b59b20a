import ConfigWeave.Text.Basic
import ConfigWeave.Text.Search

namespace ConfigWeave

/-- What opens and what closes a placeholder. Neither is empty. -/
structure Pattern where
  opening : List Char
  closing : List Char
  opening_ne_nil : opening ≠ [] := by decide
  closing_ne_nil : closing ≠ [] := by decide
deriving DecidableEq

namespace Pattern

/-- Placeholders in braces behind a dollar sign. -/
protected def default : Pattern where
  opening := ['$', '{']
  closing := ['}']

/-- The pattern written as both delimiters with two dots between them. -/
def parse? (text : String) : Option Pattern :=
  match Text.splitFirst ['.', '.'] text.toList with
  | some (o :: opening, c :: closing) => some ⟨o :: opening, c :: closing, by simp, by simp⟩
  | _ => none

def text (p : Pattern) : String :=
  String.ofList (p.opening ++ ['.', '.'] ++ p.closing)

/-- The bracket at the end of what opens a placeholder; within one it opens a nested pair. -/
def opener (p : Pattern) : Char :=
  p.opening.getLast p.opening_ne_nil

/-- The bracket at the front of what closes a placeholder; within one it closes a nested pair. -/
def closer (p : Pattern) : Char :=
  p.closing.head p.closing_ne_nil

end Pattern

/-- Where a scan stands within a placeholder: outside of quotes below a number of open brackets, within
quotes, or behind a backslash within quotes. -/
inductive Nesting where
  | open (depth : Nat)
  | quoted (quote : Char) (depth : Nat)
  | escaped (quote : Char) (depth : Nat)
deriving DecidableEq, Repr

def Nesting.step (p : Pattern) (c : Char) : Nesting → Nesting
  | .open depth =>
    if c = '\'' ∨ c = '"' then .quoted c depth
    else if c = p.closer then .open (depth - 1)
    else if c = p.opener then .open (depth + 1)
    else .open depth
  | .quoted quote depth =>
    if c = '\\' then .escaped quote depth else if c = quote then .open depth else .quoted quote depth
  | .escaped quote depth => .quoted quote depth

namespace Pattern

/-- What precedes and what follows the closing delimiter that stands outside of quotes and brackets. -/
def closeFrom? (p : Pattern) (nesting : Nesting) : List Char → Option (List Char × List Char)
  | [] => none
  | c :: rest =>
    if nesting = .open 0 ∧ p.closing.isPrefixOf (c :: rest) then some ([], (c :: rest).drop p.closing.length)
    else (p.closeFrom? (nesting.step p c) rest).map fun (source, after) => (c :: source, after)

/-- As `closeFrom?`. Where quotes or brackets stay open, the first closing delimiter counts. -/
def close? (p : Pattern) (text : List Char) : Option (List Char × List Char) :=
  (p.closeFrom? (.open 0) text) <|> Text.splitFirst p.closing text

theorem closeFrom?_eq_append {p : Pattern} {nesting : Nesting} {text source after : List Char}
    (h : p.closeFrom? nesting text = some (source, after)) : text = source ++ p.closing ++ after := by
  induction text generalizing nesting source with
  | nil => simp [closeFrom?] at h
  | cons c rest ih =>
    simp only [closeFrom?] at h
    split at h
    · rename_i found
      obtain ⟨tail, eq⟩ := List.isPrefixOf_iff_prefix.mp found.2
      obtain ⟨rfl, rfl⟩ : [] = source ∧ (c :: rest).drop p.closing.length = after := by simpa using h
      simp [← eq]
    · obtain ⟨⟨s, a⟩, found, eq⟩ := Option.map_eq_some_iff.mp h
      obtain ⟨rfl, rfl⟩ : c :: s = source ∧ a = after := by simpa using eq
      simp [ih found]

theorem close?_eq_append {p : Pattern} {text source after : List Char}
    (h : p.close? text = some (source, after)) : text = source ++ p.closing ++ after := by
  rcases found : p.closeFrom? (.open 0) text with _ | ⟨s, a⟩
  · exact Text.splitFirst_eq_append (by simpa [close?, found] using h)
  · obtain ⟨rfl, rfl⟩ : s = source ∧ a = after := by simpa [close?, found] using h
    exact closeFrom?_eq_append found

end Pattern

/-- An expression within a text and the text in front of it, back to the previous one. -/
structure Placeholder where
  lead : List Char
  source : List Char
deriving DecidableEq, Repr

/-- A text cut at its placeholders; `tail` follows the last of them. -/
structure Segments where
  placeholders : List Placeholder
  tail : List Char
deriving DecidableEq, Repr

/-- Cuts a text at its placeholders from left to right. One that is not closed ends the search. -/
def Pattern.segments (p : Pattern) (text : List Char) : Segments :=
  match _ : Text.splitFirst p.opening text with
  | none => ⟨[], text⟩
  | some (lead, inner) =>
    match _ : p.close? inner with
    | none => ⟨[], text⟩
    | some (source, after) =>
      let rest := p.segments after
      ⟨⟨lead, source⟩ :: rest.placeholders, rest.tail⟩
termination_by text.length
decreasing_by
  have outer := congrArg List.length (Text.splitFirst_eq_append (by assumption))
  have inner := congrArg List.length (p.close?_eq_append (by assumption))
  have positive := List.length_pos_iff.mpr p.opening_ne_nil
  simp only [List.length_append] at outer inner
  omega

namespace Segments

/-- Start and end of the placeholders in bytes, the first one's text in front starting at `offset`. -/
def spansFrom (p : Pattern) (offset : Nat) : List Placeholder → List (Nat × Nat × List Char)
  | [] => []
  | ⟨lead, source⟩ :: rest =>
    let start := offset + Text.byteLength lead
    let stop := start + Text.byteLength (p.opening ++ source ++ p.closing)
    (start, stop, source) :: spansFrom p stop rest

/-- The places of the placeholders in the text, in bytes, with their expressions. -/
def spans (p : Pattern) (s : Segments) : List (Nat × Nat × List Char) :=
  spansFrom p 0 s.placeholders

end Segments

end ConfigWeave
