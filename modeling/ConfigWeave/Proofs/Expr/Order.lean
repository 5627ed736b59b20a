import ConfigWeave.Expr.Function
import Mathlib.Data.List.Lex
import Mathlib.Data.String.Basic
import Mathlib.Order.Basic

namespace ConfigWeave

/-- A type whose values are ordered among themselves. -/
inductive OrderedType where
  | integer
  | string
  | boolean
deriving DecidableEq, Repr

namespace Value

/-- The ordered type of a value. Floats are left out, for they are compared with integers. -/
def orderedType? : Value → Option OrderedType
  | int _ => some .integer
  | str _ => some .string
  | bool _ => some .boolean
  | _ => none

/-- The order of the values of an ordered type: of integers by value, of strings by the code points of their
characters, of booleans with false first. -/
inductive AtMost : Value → Value → Prop
  | int {i j : Int64} : i.toInt ≤ j.toInt → AtMost (.int i) (.int j)
  | str {s t : String} : s.toList.map Char.toNat ≤ t.toList.map Char.toNat → AtMost (.str s) (.str t)
  | bool {p q : Bool} : p.toNat ≤ q.toNat → AtMost (.bool p) (.bool q)

/-- Two values are of the same ordered type. -/
def Comparable (v w : Value) : Prop :=
  ∃ t, v.orderedType? = some t ∧ w.orderedType? = some t

theorem Comparable.symm {v w : Value} (comparable : Comparable v w) : Comparable w v := by
  obtain ⟨t, first, second⟩ := comparable
  exact ⟨t, second, first⟩

theorem Comparable.trans {u v w : Value} (left : Comparable u v) (right : Comparable v w) : Comparable u w := by
  obtain ⟨t, first, second⟩ := left
  obtain ⟨_, same, third⟩ := right
  rw [second] at same
  exact ⟨t, first, Option.some.inj same ▸ third⟩

namespace AtMost

variable {u v w : Value}

theorem comparable (below : AtMost v w) : Comparable v w := by
  cases below with
  | int _ => exact ⟨.integer, rfl, rfl⟩
  | str _ => exact ⟨.string, rfl, rfl⟩
  | bool _ => exact ⟨.boolean, rfl, rfl⟩

theorem trans (left : AtMost u v) (right : AtMost v w) : AtMost u w := by
  cases left with
  | int below =>
    cases right with
    | int above => exact .int (below.trans above)
  | str below =>
    cases right with
    | str above => exact .str (below.trans above)
  | bool below =>
    cases right with
    | bool above => exact .bool (below.trans above)

end AtMost

end Value

theorem Text.lt_iff_codes_lt (s t : String) : s < t ↔ s.toList.map Char.toNat < t.toList.map Char.toNat := by
  have grows {s t : String} (less : s < t) : s.toList.map Char.toNat < t.toList.map Char.toNat :=
    List.map_lt (fun _ _ below => below) (String.lt_iff_toList_lt.mp less)
  refine ⟨grows, fun codes => ?_⟩
  obtain less | rfl | greater := lt_trichotomy s t
  · exact less
  · exact absurd codes (lt_irrefl _)
  · exact absurd codes (lt_asymm (grows greater))

namespace Expr

open Value

/-- Values of the same ordered type have the order of the type. -/
theorem exists_order {v w : Value} (comparable : Comparable v w) :
    ∃ o, order v w = .ok o ∧ (o = .lt ↔ ¬AtMost w v) ∧ (o = .gt ↔ ¬AtMost v w) := by
  obtain ⟨t, left, right⟩ := comparable
  cases v with
  | int i =>
    cases w with
    | int j =>
      have below (i j : Int64) : AtMost (.int i) (.int j) ↔ i.toInt ≤ j.toInt := ⟨fun | .int most => most, .int⟩
      refine ⟨_, rfl, ?_, ?_⟩
      · rw [below, compare_lt_iff_lt, not_le]
      · rw [below, compare_gt_iff_gt, not_le]
    | _ => cases left; cases right
  | str s =>
    cases w with
    | str u =>
      have below (s u : String) : AtMost (.str s) (.str u) ↔ ¬u < s := by
        rw [Text.lt_iff_codes_lt, not_lt]
        exact ⟨fun | .str most => most, .str⟩
      refine ⟨compare s u, congrArg Except.ok (LinearOrder.compare_eq_compareOfLessAndEq s u).symm, ?_, ?_⟩
      · rw [below, compare_lt_iff_lt, not_not]
      · rw [below, compare_gt_iff_gt, not_not]
    | _ => cases left; cases right
  | bool p =>
    cases w with
    | bool q =>
      have below (p q : Bool) : AtMost (.bool p) (.bool q) ↔ p.toNat ≤ q.toNat := ⟨fun | .bool most => most, .bool⟩
      refine ⟨_, rfl, ?_, ?_⟩
      · rw [below, compare_lt_iff_lt, not_le]
      · rw [below, compare_gt_iff_gt, not_le]
    | _ => cases left; cases right
  | _ => cases left

/-- Other values have none, floats apart. -/
theorem order_eq_error {v w : Value} (left : ∀ x, v ≠ .float x) (right : ∀ x, w ≠ .float x)
    (apart : ¬Comparable v w) :
    order v w = .error (.cannotCompare v.typeName w.typeName) := by
  cases v with
  | float x => exact absurd rfl (left x)
  | int i =>
    cases w with
    | int j => exact absurd ⟨.integer, rfl, rfl⟩ apart
    | float y => exact absurd rfl (right y)
    | _ => rfl
  | str s =>
    cases w with
    | str u => exact absurd ⟨.string, rfl, rfl⟩ apart
    | float y => exact absurd rfl (right y)
    | _ => rfl
  | bool p =>
    cases w with
    | bool q => exact absurd ⟨.boolean, rfl, rfl⟩ apart
    | float y => exact absurd rfl (right y)
    | _ => rfl
  | _ =>
    cases w with
    | float y => exact absurd rfl (right y)
    | _ => rfl

theorem atMost_total {v w : Value} (comparable : Comparable v w) : AtMost v w ∨ AtMost w v := by
  obtain ⟨o, _, less, greater⟩ := exists_order comparable
  by_contra neither
  rw [not_or] at neither
  exact absurd ((less.mpr neither.2).symm.trans (greater.mpr neither.1)) nofun

theorem precedes_eq_true_iff {v w : Value} (comparable : Comparable v w) : precedes v w = true ↔ ¬AtMost w v := by
  obtain ⟨o, compared, less, _⟩ := exists_order comparable
  rw [← less, precedes, compared]
  cases o <;> decide

end Expr

end ConfigWeave
