import ConfigWeave.Proofs.Expr.Order
import ConfigWeave.Proofs.Sorting.Quick
import Mathlib.Data.Fintype.Card
import Mathlib.Data.List.FinRange
import Mathlib.Data.List.Pairwise

namespace ConfigWeave.Expr

open Value

/-- A list whose items can all be compared with each other: it has at most one, or they are of one ordered type. -/
def Sortable (items : List Value) : Prop :=
  items.length ≤ 1 ∨ ∃ t, ∀ v ∈ items, v.orderedType? = some t

theorem sortable_cons {v : Value} {rest : List Value} :
    Sortable (v :: rest) ↔ ∀ w ∈ rest, Comparable v w := by
  constructor
  · rintro (few | ⟨t, alike⟩) w member
    · rw [List.length_cons] at few
      rw [List.length_eq_zero_iff.mp (by omega : rest.length = 0)] at member
      cases member
    · exact ⟨t, alike v List.mem_cons_self, alike w (List.mem_cons_of_mem _ member)⟩
  · intro each
    cases rest with
    | nil => exact .inl (Nat.le_refl 1)
    | cons w others =>
      obtain ⟨t, first, _⟩ := each w List.mem_cons_self
      refine .inr ⟨t, List.forall_mem_cons.mpr ⟨first, fun u member => ?_⟩⟩
      obtain ⟨_, same, there⟩ := each u member
      rw [there, ← same]
      exact first

theorem exists_apart {items : List Value} (mixed : ¬Sortable items) :
    ∃ i j : Fin items.length, i ≠ j ∧ ¬Comparable (items.get i) (items.get j) := by
  cases items with
  | nil => exact absurd (.inl (Nat.zero_le 1)) mixed
  | cons v rest =>
    rw [sortable_cons] at mixed
    push Not at mixed
    obtain ⟨w, member, apart⟩ := mixed
    obtain ⟨k, rfl⟩ := List.get_of_mem member
    exact ⟨0, k.succ, (Fin.succ_ne_zero k).symm, apart⟩

section Rank

variable {items : List Value}

/-- The items that stand in front of one. -/
def front (items : List Value) (i : Fin items.length) : Finset (Fin items.length) :=
  Finset.univ.filter fun k => precedes (items.get k) (items.get i) = true

/-- How many there are. -/
def rank (items : List Value) (i : Fin items.length) : Nat :=
  (front items i).card

theorem mem_front {i k : Fin items.length} : k ∈ front items i ↔ precedes (items.get k) (items.get i) = true := by
  simp [front]

theorem rank_le_length (i : Fin items.length) : rank items i ≤ items.length :=
  (Finset.card_le_univ _).trans_eq (Fintype.card_fin _)

variable (floatless : ∀ v ∈ items, ∀ x, v ≠ .float x)
include floatless

theorem mem_front_iff {i k : Fin items.length} :
    k ∈ front items i ↔ Comparable (items.get k) (items.get i) ∧ ¬AtMost (items.get i) (items.get k) := by
  rw [mem_front]
  by_cases comparable : Comparable (items.get k) (items.get i)
  · rw [precedes_eq_true_iff comparable, and_iff_right comparable]
  · rw [precedes, order_eq_error (floatless _ (List.get_mem items k)) (floatless _ (List.get_mem items i))
      comparable]
    exact iff_of_false Bool.false_ne_true fun close => comparable close.1

theorem rank_le_iff {i j : Fin items.length} (comparable : Comparable (items.get i) (items.get j)) :
    rank items i ≤ rank items j ↔ AtMost (items.get i) (items.get j) := by
  have fronts {i j : Fin items.length} (most : AtMost (items.get i) (items.get j)) :
      front items i ⊆ front items j := by
    intro k member
    rw [mem_front_iff floatless] at member ⊢
    exact ⟨member.1.trans most.comparable, fun above => member.2 (most.trans above)⟩
  refine ⟨fun least => ?_, fun most => Finset.card_le_card (fronts most)⟩
  by_contra greater
  -- The item at `j` stands in front of the one at `i`, but not in front of itself.
  have proper : front items j ⊂ front items i := by
    rw [Finset.ssubset_iff_of_subset (fronts ((atMost_total comparable).resolve_left greater))]
    refine ⟨j, (mem_front_iff floatless).mpr ⟨comparable.symm, greater⟩, fun itself => ?_⟩
    rw [mem_front_iff floatless] at itself
    exact itself.2 ((atMost_total itself.1).elim id id)
  exact absurd (Finset.card_lt_card proper) (not_lt.mpr least)

end Rank

section Run

variable (items : List Value)

/-- How the items are compared, those that cannot be compared being taken for equal. -/
def isBefore (i j : Fin items.length) : Bool :=
  precedes (items.get i) (items.get j)

/-- The sort of the places of the items. -/
def sorting : Traced (Fin items.length × Fin items.length) Panic (List (Fin items.length)) :=
  (Sorting.stableSort (List.finRange items.length)).run (isBefore items)

/-- The comparisons that are made on the way. -/
def asked : List (Fin items.length × Fin items.length) :=
  (sorting items).trace

theorem sort_eq : sort items =
    (settle (fun i j => orderError? (items.get i) (items.get j)) (sorting items)).map (List.map items.get) :=
  rfl

end Run

variable {items : List Value}

/-- Two numberings by which a list is in order do not put two of its members in different orders. -/
theorem agree {α : Type} {key other : α → Nat} {l : List α} (first : l.Pairwise fun a b => key a ≤ key b)
    (second : l.Pairwise fun a b => other a ≤ other b) {a b : α} (left : a ∈ l) (right : b ∈ l) :
    (key a ≤ key b ∧ other a ≤ other b) ∨ (key b ≤ key a ∧ other b ≤ other a) := by
  have symm : Std.Symm fun a b => (key a ≤ key b ∧ other a ≤ other b) ∨ (key b ≤ key a ∧ other b ≤ other a) :=
    ⟨fun _ _ => Or.symm⟩
  have each := (first.and second).imp fun {a b} both =>
    (.inl both : (key a ≤ key b ∧ other a ≤ other b) ∨ (key b ≤ key a ∧ other b ≤ other a))
  exact each.forall_of_forall (fun a _ => .inl ⟨le_rfl, le_rfl⟩) left right

theorem orderError?_of_comparable {v w : Value} (comparable : Comparable v w) : orderError? v w = none := by
  obtain ⟨o, compared, _, _⟩ := exists_order comparable
  rw [orderError?, compared]

section Floatless

variable (floatless : ∀ v ∈ items, ∀ x, v ≠ .float x)
include floatless

theorem orderError?_of_apart {i j : Fin items.length} (apart : ¬Comparable (items.get i) (items.get j)) :
    orderError? (items.get i) (items.get j) =
      some (.cannotCompare (items.get i).typeName (items.get j).typeName) := by
  rw [orderError?, order_eq_error (floatless _ (List.get_mem items i)) (floatless _ (List.get_mem items j)) apart]

theorem isBefore_eq {i j : Fin items.length} (comparable : Comparable (items.get i) (items.get j)) (shift : Nat) :
    isBefore items i j = decide (shift + rank items i < shift + rank items j) := by
  rw [Bool.eq_iff_iff, isBefore, precedes_eq_true_iff comparable, ← rank_le_iff floatless comparable.symm,
    decide_eq_true_iff]
  omega

/-- If all comparisons on the way succeed, the items end up in the order of their ranks, also when those of some
types are moved behind the others. -/
theorem sorting_of_comparable
    (comparable : ∀ pair ∈ asked items, Comparable (items.get pair.1) (items.get pair.2)) :
    ∃ places, (sorting items).result = .ok places ∧ places.Perm (List.finRange items.length) ∧
      ∀ shift : Fin items.length → Nat, (∀ pair ∈ asked items, shift pair.1 = shift pair.2) →
        places.Pairwise fun i j => shift i + rank items i ≤ shift j + rank items j := by
  have ranked (shift : Fin items.length → Nat) (kept : ∀ pair ∈ asked items, shift pair.1 = shift pair.2) :
      ∃ places, (sorting items).result = .ok places ∧ places.Perm (List.finRange items.length) ∧
        places.Pairwise fun i j => shift i + rank items i ≤ shift j + rank items j := by
    have same : sorting items = (Sorting.stableSort (List.finRange items.length)).run fun i j =>
        decide (shift i + rank items i < shift j + rank items j) := by
      refine Comparing.run_congr _ fun pair member => ?_
      rw [← kept pair member]
      exact isBefore_eq floatless (comparable pair member) _
    rw [same]
    exact Sorting.stableSort_sorts (fun _ _ => rfl) _
  obtain ⟨places, done, perm, _⟩ := ranked (fun _ => 0) fun _ _ => rfl
  refine ⟨places, done, perm, fun shift kept => ?_⟩
  obtain ⟨_, same, _, inOrder⟩ := ranked shift kept
  rw [done] at same
  cases same
  exact inOrder

/-- The sort comes upon two items that cannot be compared, if there are such. Otherwise it could not tell in which
order the items of two types are to stand. -/
theorem exists_failure (mixed : ¬Sortable items) :
    ∃ pair ∈ asked items, ¬Comparable (items.get pair.1) (items.get pair.2) := by
  by_contra all
  push Not at all
  obtain ⟨i, j, apart, noOrder⟩ := exists_apart mixed
  classical
  let alike (k : Fin items.length) : Prop := k = i ∨ Comparable (items.get k) (items.get i)
  have kept : ∀ pair ∈ asked items, alike pair.1 ↔ alike pair.2 := by
    intro pair member
    have close := all pair member
    constructor
    · rintro (same | like)
      · exact .inr (same ▸ close.symm)
      · exact .inr (close.symm.trans like)
    · rintro (same | like)
      · exact .inr (same ▸ close)
      · exact .inr (close.trans like)
  have other : ¬alike j := by
    rintro (same | like)
    · exact apart same.symm
    · exact noOrder like.symm
  obtain ⟨places, _, perm, inOrder⟩ := sorting_of_comparable floatless all
  -- The items like the one at `i` may as well stand in front of all others as behind them.
  have first := inOrder (fun k => if alike k then 0 else items.length + 1) fun pair member => by
    simp only [kept pair member]
  have last := inOrder (fun k => if alike k then items.length + 1 else 0) fun pair member => by
    simp only [kept pair member]
  have oneWay := agree first last (perm.mem_iff.mpr (List.mem_finRange i)) (perm.mem_iff.mpr (List.mem_finRange j))
  have itself : alike i := .inl rfl
  simp only [if_pos itself, if_neg other] at oneWay
  have bound := rank_le_length i
  have bound' := rank_le_length j
  omega

theorem sort_of_sortable (sortable : Sortable items) :
    ∃ sorted, sort items = .ok sorted ∧ sorted.Perm items ∧ sorted.Pairwise AtMost := by
  obtain few | ⟨t, alike⟩ := sortable
  · match items, few with
    | [], _ => exact ⟨[], rfl, .refl _, .nil⟩
    | [v], _ => exact ⟨[v], rfl, .refl _, List.pairwise_singleton _ v⟩
  · have comparable (i j : Fin items.length) : Comparable (items.get i) (items.get j) :=
      ⟨t, alike _ (List.get_mem items i), alike _ (List.get_mem items j)⟩
    obtain ⟨places, done, perm, inOrder⟩ := sorting_of_comparable floatless fun pair _ => comparable pair.1 pair.2
    have passed : (asked items).findSome? (fun pair => orderError? (items.get pair.1) (items.get pair.2)) = none :=
      List.findSome?_eq_none_iff.mpr fun pair _ => orderError?_of_comparable (comparable pair.1 pair.2)
    refine ⟨places.map items.get, ?_, ?_, ?_⟩
    · rw [sort_eq, settle, done]
      dsimp only
      rw [← asked, passed]
      rfl
    · refine (perm.map items.get).trans ?_
      rw [List.map_get_finRange]
    · rw [List.pairwise_map]
      refine (inOrder (fun _ => 0) fun _ _ => rfl).imp fun {i j} ranked => ?_
      rw [Nat.zero_add, Nat.zero_add] at ranked
      exact (rank_le_iff floatless (comparable i j)).mp ranked

theorem sort_of_mixed (mixed : ¬Sortable items) :
    (20 < items.length ∧ sort items = .error (.panicked .noOrder)) ∨
      ∃ v ∈ items, ∃ w ∈ items, ¬Comparable v w ∧ sort items = .error (.cannotCompare v.typeName w.typeName) := by
  rw [sort_eq, settle]
  cases result : (sorting items).result with
  | error cause =>
    refine .inl ⟨Nat.not_le.mp fun few => ?_, by cases cause; rfl⟩
    obtain ⟨sorted, done, _⟩ := Sorting.stableSort_reaches (v := List.finRange items.length)
      (by rwa [List.length_finRange]) (isBefore items)
    rw [← sorting, result] at done
    cases done
  | ok sorted =>
    right
    obtain ⟨pair, member, apart⟩ := exists_failure floatless mixed
    dsimp only
    rw [← asked]
    cases first : (asked items).findSome? fun pair => orderError? (items.get pair.1) (items.get pair.2) with
    | none =>
      have none := List.findSome?_eq_none_iff.mp first pair member
      rw [orderError?_of_apart floatless apart] at none
      cases none
    | some e =>
      obtain ⟨⟨i, j⟩, _, failed⟩ := List.exists_of_findSome?_eq_some first
      dsimp only at failed
      by_cases comparable : Comparable (items.get i) (items.get j)
      · rw [orderError?_of_comparable comparable] at failed
        cases failed
      · rw [orderError?_of_apart floatless comparable] at failed
        cases failed
        exact ⟨_, List.get_mem items i, _, List.get_mem items j, comparable, rfl⟩

end Floatless

theorem callFunction_of_sort (items : List Value) :
    callFunction "sort" (some (.seq items)) .empty = (sort items).map (fun sorted => some (.seq sorted)) ∧
      callFunction "min" (some (.seq items)) .empty = (sort items).map List.head? ∧
      callFunction "max" (some (.seq items)) .empty = (sort items).map List.getLast? :=
  ⟨rfl, rfl, rfl⟩

/-- A list without floats can be sorted if it has at most one item, or all are integers, all strings or all
booleans. Then it comes out in order, with the least and the greatest at its ends. Otherwise `sort`, `min` and
`max` fail with a type error that names two of the items which cannot be compared, or find that there is no order
and give up, but never on a list of up to twenty items. -/
theorem callFunction_sort {items : List Value} (floatless : ∀ v ∈ items, ∀ x, v ≠ .float x) :
    (Sortable items ∧ ∃ sorted : List Value, sorted.Perm items ∧ sorted.Pairwise AtMost ∧
      callFunction "sort" (some (.seq items)) .empty = .ok (some (.seq sorted)) ∧
      callFunction "min" (some (.seq items)) .empty = .ok sorted.head? ∧
      callFunction "max" (some (.seq items)) .empty = .ok sorted.getLast?) ∨
    ¬Sortable items ∧ ∃ e,
    (∀ name ∈ ["sort", "min", "max"], callFunction name (some (.seq items)) .empty = .error e) ∧
      ((20 < items.length ∧ e = .panicked .noOrder) ∨
        ∃ v ∈ items, ∃ w ∈ items, ¬Comparable v w ∧ e = .cannotCompare v.typeName w.typeName) := by
  obtain ⟨sorting, least, greatest⟩ := callFunction_of_sort items
  have failing {e : ExprError} (failed : sort items = .error e) :
      ∀ name ∈ ["sort", "min", "max"], callFunction name (some (.seq items)) .empty = .error e := by
    rw [failed] at sorting least greatest
    simp only [List.forall_mem_cons]
    exact ⟨sorting, least, greatest, nofun⟩
  by_cases sortable : Sortable items
  · obtain ⟨sorted, done, perm, inOrder⟩ := sort_of_sortable floatless sortable
    rw [done] at sorting least greatest
    exact .inl ⟨sortable, sorted, perm, inOrder, sorting, least, greatest⟩
  · refine .inr ⟨sortable, ?_⟩
    obtain ⟨long, failed⟩ | ⟨v, left, w, right, apart, failed⟩ := sort_of_mixed floatless sortable
    · exact ⟨_, failing failed, .inl ⟨long, rfl⟩⟩
    · exact ⟨_, failing failed, .inr ⟨v, left, w, right, apart, rfl⟩⟩

theorem callFunction_sort_two :
    let words : List Value := [.str "é", .str "z"]
    (∀ v ∈ words, ∀ x, v ≠ .float x) ∧ ∃ sorted, sorted.Perm words ∧ sorted.Pairwise AtMost ∧
      callFunction "sort" (some (.seq words)) .empty = .ok (some (.seq sorted)) ∧
      callFunction "min" (some (.seq words)) .empty = .ok sorted.head? ∧
      callFunction "max" (some (.seq words)) .empty = .ok sorted.getLast? := by
  intro words
  have floatless : ∀ v ∈ words, ∀ x, v ≠ .float x := by
    simp [words]
  have sortable : Sortable words := .inr ⟨.string, by simp [words, orderedType?]⟩
  obtain ⟨_, found⟩ | ⟨mixed, _⟩ := callFunction_sort floatless
  · exact ⟨floatless, found⟩
  · exact absurd sortable mixed

/-- A string among integers that otherwise fall. The halves of the list are sorted by themselves, and their merge
from both ends does not meet. -/
theorem callFunction_sort_panics :
    let falling (greatest : Int) : List Value := (List.range 10).map fun i => .int (Int64.ofInt (greatest - i))
    let items : List Value := falling 20 ++ .str "x" :: falling 10
    ∀ name ∈ ["sort", "min", "max"], callFunction name (some (.seq items)) .empty =
      .error (.panicked .noOrder) := by
  simp only [List.forall_mem_cons]
  exact ⟨rfl, rfl, rfl, nofun⟩

end ConfigWeave.Expr
