import ConfigWeave.Sorting
import Mathlib.Data.List.Basic
import Mathlib.Tactic.Ring

namespace ConfigWeave

namespace Comparing

variable {ι α β : Type} {less : ι → ι → Bool}

theorem run_bind (x : Comparing ι α) (f : α → Comparing ι β) :
    (x >>= f).run less = x.run less >>= fun a => (f a).run less := by
  induction x with
  | done a => rfl
  | panic cause => rfl
  | ask first second next ih =>
    have rest := ih (less first second)
    change Comparing.run less (.ask first second fun answer => next answer >>= f) = _
    rw [run, run, rest]
    cases (next (less first second)).run less with
    | mk trace result => cases result <;> rfl

/-- Only the answers that are asked for matter. -/
theorem run_congr {other : ι → ι → Bool} (x : Comparing ι α)
    (same : ∀ pair ∈ (x.run less).trace, less pair.1 pair.2 = other pair.1 pair.2) : x.run less = x.run other := by
  induction x with
  | done a => rfl
  | panic cause => rfl
  | ask first second next ih =>
    obtain ⟨here, later⟩ := List.forall_mem_cons.mp same
    rw [run, run, ← here, ih _ later]

/-- A computation comes to an end, with a result as it should be. -/
def Reaches (less : ι → ι → Bool) (x : Comparing ι α) (post : α → Prop) : Prop :=
  ∃ a, (x.run less).result = .ok a ∧ post a

namespace Reaches

theorem pure {post : α → Prop} {a : α} (known : post a) : Reaches less (Pure.pure a) post :=
  ⟨a, rfl, known⟩

theorem bind {post : α → Prop} {more : β → Prop} {x : Comparing ι α} {f : α → Comparing ι β}
    (first : Reaches less x post) (later : ∀ a, post a → Reaches less (f a) more) :
    Reaches less (x >>= f) more := by
  obtain ⟨a, done, known⟩ := first
  obtain ⟨b, result, final⟩ := later a known
  refine ⟨b, ?_, final⟩
  rw [run_bind, Traced.bind_of_ok done]
  exact result

theorem mono {post more : α → Prop} {x : Comparing ι α} (reaches : Reaches less x post)
    (weaker : ∀ a, post a → more a) : Reaches less x more := by
  obtain ⟨a, done, known⟩ := reaches
  exact ⟨a, done, weaker a known⟩

theorem isLess (first second : ι) : Reaches less (Comparing.isLess first second) (· = less first second) :=
  ⟨_, rfl, rfl⟩

/-- What follows a comparison is looked at for both answers. -/
theorem ask {post : α → Prop} {first second : ι} {f : Bool → Comparing ι α}
    (yes : less first second = true → Reaches less (f true) post)
    (no : less first second = false → Reaches less (f false) post) :
    Reaches less (Comparing.isLess first second >>= f) post := by
  refine (isLess first second).bind fun answer given => ?_
  cases answer with
  | true => exact yes given.symm
  | false => exact no given.symm

end Reaches

end Comparing

namespace Sorting

open Comparing

variable {ι : Type}

/-- No sort by insertion gives up, whatever the answers are. -/
theorem reaches_insertTail (less : ι → ι → Bool) (item : ι) (passed sorted : List ι) :
    Reaches less (insertTail item passed sorted) fun _ => True := by
  induction sorted generalizing passed with
  | nil => exact .pure trivial
  | cons last rest ih => exact .ask (fun _ => ih (last :: passed)) fun _ => .pure trivial

theorem reaches_insertAll (less : ι → ι → Bool) (sorted items : List ι) :
    Reaches less (insertAll sorted items) fun _ => True := by
  induction items generalizing sorted with
  | nil => exact .pure trivial
  | cons item rest ih => exact (reaches_insertTail less item [] sorted).bind fun _ _ => ih _

/-- The items have numbers that do not fall. -/
def Rising (key : ι → Nat) (items : List ι) : Prop :=
  items.Pairwise fun a b => key a ≤ key b

/-- The items have numbers that do not rise. -/
def Falling (key : ι → Nat) (items : List ι) : Prop :=
  items.Pairwise fun a b => key b ≤ key a

variable {key : ι → Nat}

theorem Falling.reverse {items : List ι} (falling : Falling key items) : Rising key items.reverse :=
  List.pairwise_reverse.mpr falling

theorem Rising.reverse {items : List ι} (rising : Rising key items) : Falling key items.reverse :=
  List.pairwise_reverse.mpr rising

/-- The items end up in order, whatever their numbers are. -/
def Sorts (less : ι → ι → Bool) (key : ι → Nat) (x : Comparing ι (List ι)) (items : List ι) : Prop :=
  Reaches less x fun sorted => sorted.Perm items ∧ Rising key sorted

section Ordered

/-! From here on items are compared by their numbers. -/

variable {less : ι → ι → Bool} (byKey : ∀ a b, less a b = decide (key a < key b))
include byKey

theorem less_eq_true_iff {a b : ι} : less a b = true ↔ key a < key b := by
  rw [byKey, decide_eq_true_iff]

theorem less_eq_false_iff {a b : ι} : less a b = false ↔ key b ≤ key a := by
  rw [byKey, decide_eq_false_iff_not, Nat.not_lt]

theorem reaches_ask {α : Type} {post : α → Prop} {first second : ι} {f : Bool → Comparing ι α}
    (yes : key first < key second → Reaches less (f true) post)
    (no : key second ≤ key first → Reaches less (f false) post) : Reaches less (isLess first second >>= f) post :=
  .ask (fun answer => yes ((less_eq_true_iff byKey).mp answer)) fun answer =>
    no ((less_eq_false_iff byKey).mp answer)

theorem insertTail_falling (item : ι) {passed sorted : List ι} (above : ∀ a ∈ passed, key item ≤ key a)
    (falling : Falling key (passed.reverse ++ sorted)) :
    Reaches less (insertTail item passed sorted) fun inserted =>
      inserted.Perm (item :: (passed.reverse ++ sorted)) ∧ Falling key inserted := by
  -- The item goes behind those passed, and in front of the rest if none of these is greater.
  have placed {passed rest : List ι} (above : ∀ a ∈ passed, key item ≤ key a) (below : ∀ b ∈ rest, key b ≤ key item)
      (falling : Falling key (passed.reverse ++ rest)) :
      (passed.reverseAux (item :: rest)).Perm (item :: (passed.reverse ++ rest)) ∧
        Falling key (passed.reverseAux (item :: rest)) := by
    rw [List.reverseAux_eq]
    refine ⟨List.perm_middle, ?_⟩
    obtain ⟨first, last, between⟩ := List.pairwise_append.mp falling
    refine List.pairwise_append.mpr ⟨first, List.pairwise_cons.mpr ⟨below, last⟩, fun a left => ?_⟩
    exact List.forall_mem_cons.mpr ⟨above a (List.mem_reverse.mp left), between a left⟩
  induction sorted generalizing passed with
  | nil => exact .pure (placed above nofun falling)
  | cons last rest ih =>
    refine reaches_ask byKey (fun before => ?_) fun behind => ?_
    · have further := @ih (last :: passed) (List.forall_mem_cons.mpr ⟨before.le, above⟩)
      simp only [List.reverse_cons, List.append_assoc, List.singleton_append] at further
      exact further falling
    · obtain ⟨_, later, _⟩ := List.pairwise_append.mp falling
      refine .pure (placed above (List.forall_mem_cons.mpr ⟨behind, fun b member => ?_⟩) falling)
      exact ((List.pairwise_cons.mp later).1 b member).trans behind

theorem insertAll_falling {sorted items : List ι} (falling : Falling key sorted) :
    Reaches less (insertAll sorted items) fun inserted => inserted.Perm (sorted ++ items) ∧
    Falling key inserted := by
  induction items generalizing sorted with
  | nil => exact .pure ⟨by rw [List.append_nil], falling⟩
  | cons item rest ih =>
    have start : Falling key ([].reverse ++ sorted) := falling
    refine (insertTail_falling byKey item (List.forall_mem_nil _) start).bind fun inserted ⟨perm, falling⟩ => ?_
    refine (ih falling).mono fun _ ⟨further, falling⟩ => ⟨further.trans ?_, falling⟩
    exact (perm.append_right rest).trans List.perm_middle.symm

/-- Two items, the lesser one first. -/
theorem exists_ordered (a b : ι) : ∃ low high, (if less b a = true then (b, a) else (a, b)) = (low, high) ∧
    [low, high].Perm [a, b] ∧ key low ≤ key high := by
  by_cases swapped : key b < key a
  · exact ⟨b, a, by simp [byKey, swapped], .swap a b [], swapped.le⟩
  · exact ⟨a, b, by simp [byKey, swapped], .refl _, Nat.not_lt.mp swapped⟩

theorem sortFour_falling (a b c d : ι) :
    Reaches less (sortFour a b c d) fun sorted => sorted.Perm [a, b, c, d] ∧ Falling key sorted := by
  obtain ⟨a', b', first, permFirst, orderFirst⟩ := exists_ordered byKey a b
  obtain ⟨c', d', second, permSecond, orderSecond⟩ := exists_ordered byKey c d
  unfold sortFour
  refine (Reaches.isLess b a).bind fun _ given => ?_
  subst given
  refine (Reaches.isLess d c).bind fun _ given => ?_
  subst given
  simp only [first, second]
  have whole := permFirst.append permSecond
  -- The least and the greatest of all are found by one comparison each, and one more orders those between.
  have between {least left right greatest : ι} (perm : [greatest, left, right, least].Perm ([a', b'] ++ [c', d']))
      (low : key least ≤ key left ∧ key least ≤ key right)
      (high : key left ≤ key greatest ∧ key right ≤ key greatest) :
      Reaches less (do
        if ← isLess right left then return [greatest, left, right, least]
        else return [greatest, right, left, least])
        fun sorted => sorted.Perm [a, b, c, d] ∧ Falling key sorted := by
    refine reaches_ask byKey (fun middle => .pure ⟨perm.trans whole, ?_⟩) fun middle =>
      .pure ⟨(List.Perm.cons _ (.swap left right [least])).trans (perm.trans whole), ?_⟩ <;>
    · simp [Falling]
      omega
  refine reaches_ask byKey (fun low => ?_) fun low => ?_ <;>
    refine reaches_ask byKey (fun high => ?_) fun high => ?_ <;>
    refine between ?_ (by constructor <;> simp <;> omega) (by constructor <;> simp <;> omega)
  all_goals
    classical
    refine List.perm_iff_count.mpr fun x => ?_
    simp only [if_true, if_false, Bool.false_eq_true, List.cons_append, List.nil_append, List.count_cons,
      List.count_nil]
    ring

theorem presort_falling (long : Bool) (half : List ι) :
    Reaches less (presort long half) fun (sorted, rest) => (sorted ++ rest).Perm half ∧ Falling key sorted := by
  unfold presort
  split
  · rename_i a b c d rest
    refine (sortFour_falling byKey a b c d).bind fun sorted ⟨perm, falling⟩ => .pure ⟨?_, falling⟩
    exact perm.append_right rest
  · exact .pure ⟨.refl half, .nil⟩

end Ordered

/-- The first `i` items of one sorted list and the first `j` of another stand in front of all other items of the
two, equal ones of the first list in front of those of the second. -/
structure Cut (key : ι → Nat) (left right : List ι) (i j : Nat) : Prop where
  boundLeft : i ≤ left.length
  boundRight : j ≤ right.length
  before : ∀ a ∈ left.take i, ∀ b ∈ right.drop j, key a ≤ key b
  behind : ∀ b ∈ right.take j, ∀ a ∈ left.drop i, key b < key a

theorem getElem_mem_drop {items : List ι} {i : Nat} (within : i < items.length) : items[i] ∈ items.drop i :=
  List.mem_drop_iff_getElem.mpr ⟨0, by omega, by simp⟩

theorem getElem_mem_take {items : List ι} {i n : Nat} (within : i < items.length) (inside : i < n) :
    items[i] ∈ items.take n :=
  List.mem_take_iff_getElem.mpr ⟨i, by omega, rfl⟩

theorem Rising.across {items : List ι} (rising : Rising key items) (i : Nat) :
    ∀ a ∈ items.take i, ∀ b ∈ items.drop i, key a ≤ key b := by
  have whole : Rising key (items.take i ++ items.drop i) := by
    rwa [List.take_append_drop]
  exact (List.pairwise_append.mp whole).2.2

theorem Rising.getElem_le {items : List ι} (rising : Rising key items) {i : Nat} (within : i < items.length) :
    ∀ b ∈ items.drop i, key items[i] ≤ key b := by
  rw [List.drop_eq_getElem_cons within]
  exact List.forall_mem_cons.mpr ⟨le_rfl, rising.across (i + 1) _ (getElem_mem_take within (Nat.lt_succ_self i))⟩

theorem Rising.le_getElem {items : List ι} (rising : Rising key items) {i : Nat} (within : i < items.length) :
    ∀ a ∈ items.take (i + 1), key a ≤ key items[i] := by
  rw [List.take_succ_eq_append_getElem within]
  exact List.forall_mem_append.mpr ⟨fun a front => rising.across i a front _ (getElem_mem_drop within), by simp⟩

namespace Cut

variable {left right : List ι} {i j i' j' : Nat}

/-- Of two cuts neither has less of one list and more of the other in front. -/
theorem no_crossing (first : Cut key left right i j) (second : Cut key left right i' j') : ¬(i' < i ∧ j < j') := by
  rintro ⟨fewer, more⟩
  have boundLeft := first.boundLeft
  have boundRight := second.boundRight
  have before := first.before left[i'] (getElem_mem_take (by omega) fewer) right[j] (getElem_mem_drop (by omega))
  have behind := second.behind right[j] (getElem_mem_take (by omega) more) left[i'] (getElem_mem_drop (by omega))
  omega

/-- A cut with more items in front has more of either list in front. -/
theorem nested (first : Cut key left right i j) (second : Cut key left right i' j') (fewer : i + j ≤ i' + j') :
    i ≤ i' ∧ j ≤ j' := by
  have crossing := first.no_crossing second
  have crossing' := second.no_crossing first
  omega

variable (withinLeft : i < left.length) (withinRight : j < right.length)

theorem forwardLeft (cut : Cut key left right i j) (rising : Rising key right)
    (notGreater : key left[i] ≤ key right[j]) : Cut key left right (i + 1) j where
  boundLeft := withinLeft
  boundRight := cut.boundRight
  before := by
    rw [List.take_succ_eq_append_getElem withinLeft]
    refine List.forall_mem_append.mpr ⟨cut.before, List.forall_mem_singleton.mpr fun b later => ?_⟩
    exact notGreater.trans (rising.getElem_le withinRight b later)
  behind b front a later := cut.behind b front a (List.drop_subset_drop_left _ (Nat.le_succ i) later)

theorem forwardRight (cut : Cut key left right i j) (rising : Rising key left)
    (less : key right[j] < key left[i]) : Cut key left right i (j + 1) where
  boundLeft := cut.boundLeft
  boundRight := withinRight
  before a front b later := cut.before a front b (List.drop_subset_drop_left _ (Nat.le_succ j) later)
  behind := by
    rw [List.take_succ_eq_append_getElem withinRight]
    refine List.forall_mem_append.mpr ⟨cut.behind, List.forall_mem_singleton.mpr fun a later => ?_⟩
    exact less.trans_le (rising.getElem_le withinLeft a later)

theorem backwardLeft (cut : Cut key left right (i + 1) (j + 1)) (rising : Rising key right)
    (less : key right[j] < key left[i]) : Cut key left right i (j + 1) where
  boundLeft := withinLeft.le
  boundRight := cut.boundRight
  before a front := cut.before a (List.take_subset_take_left _ (Nat.le_succ i) front)
  behind b front := by
    rw [List.drop_eq_getElem_cons withinLeft]
    exact List.forall_mem_cons.mpr ⟨(rising.le_getElem withinRight b front).trans_lt less, cut.behind b front⟩

theorem backwardRight (cut : Cut key left right (i + 1) (j + 1)) (rising : Rising key left)
    (notGreater : key left[i] ≤ key right[j]) : Cut key left right (i + 1) j where
  boundLeft := withinLeft
  boundRight := withinRight.le
  before a front := by
    rw [List.drop_eq_getElem_cons withinRight]
    exact List.forall_mem_cons.mpr ⟨(rising.le_getElem withinLeft a front).trans notGreater, cut.before a front⟩
  behind b front := cut.behind b (List.take_subset_take_left _ (Nat.le_succ j) front)

theorem across (cut : Cut key left right i j) (risingLeft : Rising key left) (risingRight : Rising key right) :
    ∀ a ∈ left.take i ++ right.take j, ∀ b ∈ left.drop i ++ right.drop j, key a ≤ key b := by
  simp only [List.forall_mem_append]
  exact ⟨fun a first => ⟨risingLeft.across i a first, cut.before a first⟩,
    fun a first => ⟨fun b last => (cut.behind a first b last).le, risingRight.across j a first⟩⟩

end Cut

/-- Two lists are merged from the front up to a cut. -/
structure Front (key : ι → Nat) (left right : List ι) (i j : Nat) (m : Merging ι) : Prop where
  cut : Cut key left right i j
  restLeft : m.left = left.drop i
  restRight : m.right = right.drop j
  perm : m.taken.Perm (left.take i ++ right.take j)
  falling : Falling key m.taken

/-- Two lists are merged from the end down to a cut. -/
structure Back (key : ι → Nat) (left right : List ι) (i j : Nat) (m : Merging ι) : Prop where
  cut : Cut key left right i j
  restLeft : m.left = (left.take i).reverse
  restRight : m.right = (right.take j).reverse
  perm : m.taken.Perm (left.drop i ++ right.drop j)
  rising : Rising key m.taken

section Merging

variable {left right : List ι} {i j : Nat} {m : Merging ι}

/-- Where the cuts are the same, what is left on the one way has been taken on the other. -/
theorem Front.lengths {front back : Merging ι} (isFront : Front key left right i j front)
    (isBack : Back key left right i j back) : front.left.length + back.left.length = left.length ∧
      front.right.length + back.right.length = right.length := by
  rw [isFront.restLeft, isFront.restRight, isBack.restLeft, isBack.restRight, List.length_drop, List.length_drop,
    List.length_reverse, List.length_reverse, List.length_take_of_le isFront.cut.boundLeft,
    List.length_take_of_le isFront.cut.boundRight]
  exact ⟨Nat.sub_add_cancel isFront.cut.boundLeft, Nat.sub_add_cancel isFront.cut.boundRight⟩

variable (risingLeft : Rising key left) (risingRight : Rising key right)
include risingLeft risingRight

theorem Front.falling_cons (front : Front key left right i j m) {next : ι}
    (waits : next ∈ left.drop i ++ right.drop j) :
    Falling key (next :: m.taken) :=
  List.pairwise_cons.mpr ⟨fun a member =>
    front.cut.across risingLeft risingRight a (front.perm.mem_iff.mp member) next waits, front.falling⟩

theorem Front.takeLeft (front : Front key left right i j m) (cut : Cut key left right (i + 1) j) :
    Front key left right (i + 1) j m.takeLeft := by
  have rest := front.restLeft
  rw [List.drop_eq_getElem_cons cut.boundLeft] at rest
  rw [Merging.takeLeft, rest]
  refine ⟨cut, rfl, front.restRight, ?_, front.falling_cons risingLeft risingRight ?_⟩
  · rw [List.take_succ_eq_append_getElem cut.boundLeft, List.append_assoc]
    exact (front.perm.cons _).trans List.perm_middle.symm
  · exact List.mem_append_left _ (getElem_mem_drop cut.boundLeft)

theorem Front.takeRight (front : Front key left right i j m) (cut : Cut key left right i (j + 1)) :
    Front key left right i (j + 1) m.takeRight := by
  have rest := front.restRight
  rw [List.drop_eq_getElem_cons cut.boundRight] at rest
  rw [Merging.takeRight, rest]
  refine ⟨cut, front.restLeft, rfl, ?_, front.falling_cons risingLeft risingRight ?_⟩
  · rw [List.take_succ_eq_append_getElem cut.boundRight, ← List.append_assoc]
    exact (front.perm.cons _).trans (List.perm_append_singleton _ _).symm
  · exact List.mem_append_right _ (getElem_mem_drop cut.boundRight)

theorem Back.rising_cons (back : Back key left right i j m) {next : ι}
    (waits : next ∈ left.take i ++ right.take j) :
    Rising key (next :: m.taken) :=
  List.pairwise_cons.mpr ⟨fun b member =>
    back.cut.across risingLeft risingRight next waits b (back.perm.mem_iff.mp member), back.rising⟩

theorem Back.takeLeft (back : Back key left right (i + 1) j m) (cut : Cut key left right i j) :
    Back key left right i j m.takeLeft := by
  have within := back.cut.boundLeft
  have rest := back.restLeft
  rw [List.take_succ_eq_append_getElem within, List.reverse_append, List.reverse_singleton,
    List.singleton_append] at rest
  rw [Merging.takeLeft, rest]
  refine ⟨cut, rfl, back.restRight, ?_, back.rising_cons risingLeft risingRight ?_⟩
  · rw [List.drop_eq_getElem_cons within]
    exact back.perm.cons _
  · exact List.mem_append_left _ (getElem_mem_take within (Nat.lt_succ_self i))

theorem Back.takeRight (back : Back key left right i (j + 1) m) (cut : Cut key left right i j) :
    Back key left right i j m.takeRight := by
  have within := back.cut.boundRight
  have rest := back.restRight
  rw [List.take_succ_eq_append_getElem within, List.reverse_append, List.reverse_singleton,
    List.singleton_append] at rest
  rw [Merging.takeRight, rest]
  refine ⟨cut, back.restLeft, rfl, ?_, back.rising_cons risingLeft risingRight ?_⟩
  · rw [List.drop_eq_getElem_cons within]
    exact (back.perm.cons _).trans List.perm_middle.symm
  · exact List.mem_append_right _ (getElem_mem_take within (Nat.lt_succ_self j))

/-- Where the cuts are the same, what is taken makes up the lists in order. -/
theorem Front.meets {front back : Merging ι} (isFront : Front key left right i j front)
    (isBack : Back key left right i j back) :
    (front.taken.reverse ++ back.taken).Perm (left ++ right) ∧ Rising key (front.taken.reverse ++ back.taken) := by
  constructor
  · have parts := ((List.reverse_perm _).trans isFront.perm).append isBack.perm
    refine parts.trans ?_
    conv_rhs => rw [← List.take_append_drop i left, ← List.take_append_drop j right]
    simp only [List.append_assoc]
    exact (List.perm_append_comm_assoc _ _ _).append_left _
  · refine List.pairwise_append.mpr ⟨isFront.falling.reverse, isBack.rising, fun a first b last => ?_⟩
    rw [List.mem_reverse] at first
    exact isFront.cut.across risingLeft risingRight a (isFront.perm.mem_iff.mp first) b
      (isBack.perm.mem_iff.mp last)

/-- If the cuts are a single item apart, that is taken from the list in which it is missing. -/
theorem Front.reach {i' j' : Nat} (size : Nat) {front back : Merging ι} (isFront : Front key left right i j front)
    (isBack : Back key left right i' j' back) (near : i' + j' = i + j + size % 2) : Front key left right i' j'
      (if size % 2 = 0 then front
        else if left.length < front.left.length + back.left.length then front.takeLeft else front.takeRight) := by
  have nested := isFront.cut.nested isBack.cut (by omega)
  have bound := isBack.cut.boundLeft
  split
  · obtain ⟨rfl, rfl⟩ : i = i' ∧ j = j' := by omega
    exact isFront
  · rw [isFront.restLeft, isBack.restLeft, List.length_drop, List.length_reverse, List.length_take_of_le bound]
    split
    · obtain ⟨rfl, rfl⟩ : i' = i + 1 ∧ j' = j := by omega
      exact isFront.takeLeft risingLeft risingRight isBack.cut
    · obtain ⟨rfl, rfl⟩ : i' = i ∧ j' = j + 1 := by omega
      exact isFront.takeRight risingLeft risingRight isBack.cut

variable {less : ι → ι → Bool} (byKey : ∀ a b, less a b = decide (key a < key b))
include byKey

theorem Front.takeFirst (front : Front key left right i j m) (withinLeft : i < left.length)
    (withinRight : j < right.length) : Reaches less m.takeFirst fun m =>
      ∃ i' j', i' + j' = i + j + 1 ∧ Front key left right i' j' m := by
  have restLeft := front.restLeft
  have restRight := front.restRight
  rw [List.drop_eq_getElem_cons withinLeft] at restLeft
  rw [List.drop_eq_getElem_cons withinRight] at restRight
  unfold Merging.takeFirst
  rw [restLeft, restRight]
  refine reaches_ask byKey (fun isLess => .pure ⟨i, j + 1, rfl, ?_⟩) fun notGreater =>
    .pure ⟨i + 1, j, by omega, ?_⟩
  · exact front.takeRight risingLeft risingRight (front.cut.forwardRight withinLeft withinRight risingLeft isLess)
  · exact front.takeLeft risingLeft risingRight
      (front.cut.forwardLeft withinLeft withinRight risingRight notGreater)

theorem Back.takeLast (back : Back key left right (i + 1) (j + 1) m) : Reaches less m.takeLast fun m =>
      ∃ i' j', i' + j' = i + j + 1 ∧ Back key left right i' j' m := by
  have withinLeft : i < left.length := back.cut.boundLeft
  have withinRight : j < right.length := back.cut.boundRight
  have restLeft := back.restLeft
  have restRight := back.restRight
  rw [List.take_succ_eq_append_getElem withinLeft, List.reverse_append, List.reverse_singleton,
    List.singleton_append] at restLeft
  rw [List.take_succ_eq_append_getElem withinRight, List.reverse_append, List.reverse_singleton,
    List.singleton_append] at restRight
  unfold Merging.takeLast
  rw [restLeft, restRight]
  refine reaches_ask byKey (fun isLess => .pure ⟨i, j + 1, rfl, ?_⟩) fun notGreater =>
    .pure ⟨i + 1, j, by omega, ?_⟩
  · exact back.takeLeft risingLeft risingRight (back.cut.backwardLeft withinLeft withinRight risingRight isLess)
  · exact back.takeRight risingLeft risingRight
      (back.cut.backwardRight withinLeft withinRight risingLeft notGreater)

/-- As long as neither list can be used up, each step moves the one cut up by an item and the other one down. -/
theorem fromBothEnds_reaches {steps i' j' : Nat} {front back : Merging ι} (isFront : Front key left right i j front)
    (isBack : Back key left right i' j' back) (startLeft : i + j + steps ≤ left.length)
    (startRight : i + j + steps ≤ right.length) (endLeft : left.length + steps ≤ i' + j')
    (endRight : right.length + steps ≤ i' + j') :
    Reaches less (Merging.fromBothEnds steps front back) fun (front, back) =>
      (∃ i'' j'', i'' + j'' = i + j + steps ∧ Front key left right i'' j'' front) ∧
        ∃ i'' j'', i'' + j'' + steps = i' + j' ∧ Back key left right i'' j'' back := by
  induction steps generalizing i j i' j' front back with
  | zero => exact .pure ⟨⟨i, j, rfl, isFront⟩, i', j', rfl, isBack⟩
  | succ steps ih =>
    have boundLeft := isBack.cut.boundLeft
    have boundRight := isBack.cut.boundRight
    obtain ⟨i', rfl⟩ : ∃ n, i' = n + 1 := Nat.exists_eq_succ_of_ne_zero (by omega)
    obtain ⟨j', rfl⟩ : ∃ n, j' = n + 1 := Nat.exists_eq_succ_of_ne_zero (by omega)
    refine (isFront.takeFirst risingLeft risingRight byKey (by omega) (by omega)).bind ?_
    rintro front ⟨i₁, j₁, moved, isFront⟩
    refine (isBack.takeLast risingLeft risingRight byKey).bind ?_
    rintro back ⟨i₂, j₂, moved', isBack⟩
    refine (ih isFront isBack (by omega) (by omega) (by omega) (by omega)).mono ?_
    rintro ⟨front, back⟩ ⟨⟨i₃, j₃, sum, isFront⟩, i₄, j₄, sum', isBack⟩
    exact ⟨⟨i₃, j₃, by omega, isFront⟩, i₄, j₄, by omega, isBack⟩

end Merging

section Ordered

variable {less : ι → ι → Bool} (byKey : ∀ a b, less a b = decide (key a < key b))
include byKey

/-- The two halves of a list are merged. From both ends the merge comes to the same cut, or to two with one item
between them if the list is of odd length. -/
theorem mergeHalves_sorts {left right : List ι} (fallingLeft : Falling key left) (fallingRight : Falling key right)
    (least : left.length ≤ right.length) (most : right.length ≤ left.length + 1) :
    Sorts less key (mergeHalves left right) (left ++ right) := by
  have start : Front key left.reverse right.reverse 0 0 ⟨left.reverse, right.reverse, []⟩ :=
    ⟨⟨Nat.zero_le _, Nat.zero_le _, by simp, by simp⟩, rfl, rfl, .nil, .nil⟩
  have stop : Back key left.reverse right.reverse left.reverse.length right.reverse.length ⟨left, right, []⟩ :=
    ⟨⟨le_rfl, le_rfl, by rw [List.drop_length]; exact fun _ _ => nofun,
        by rw [List.drop_length]; exact fun _ _ => nofun⟩,
      by rw [List.take_length, List.reverse_reverse], by rw [List.take_length, List.reverse_reverse],
      by rw [List.drop_length, List.drop_length, List.append_nil], .nil⟩
  have risingLeft := fallingLeft.reverse
  have risingRight := fallingRight.reverse
  have lengthLeft := left.length_reverse
  have lengthRight := right.length_reverse
  unfold mergeHalves
  refine (fromBothEnds_reaches risingLeft risingRight byKey start stop (by omega) (by omega) (by omega)
    (by omega)).bind ?_
  rintro ⟨front, back⟩ ⟨⟨i, j, sum, isFront⟩, i', j', sum', isBack⟩
  have closed := isFront.reach risingLeft risingRight (left.length + right.length) isBack (by omega)
  rw [lengthLeft] at closed
  have complete := closed.lengths isBack
  rw [lengthLeft, lengthRight] at complete
  dsimp only
  rw [if_pos complete]
  obtain ⟨perm, rising⟩ := closed.meets risingLeft risingRight isBack
  exact .pure ⟨perm.trans (left.reverse_perm.append right.reverse_perm), rising⟩

/-- One half of a list is sorted by insertion behind what it begins with. -/
theorem sortHalf_falling {sorted rest half : List ι} (perm : (sorted ++ rest).Perm half)
    (falling : Falling key sorted) :
    Reaches less (insertAll sorted rest) fun inserted => inserted.Perm half ∧ Falling key inserted :=
  (insertAll_falling byKey falling).mono fun _ ⟨same, falling⟩ => ⟨same.trans perm, falling⟩

theorem smallSort_sorts (v : List ι) : Sorts less key (smallSort v) v := by
  unfold smallSort
  split
  · rename_i few
    refine .pure ⟨.refl v, ?_⟩
    match v, few with
    | [], _ => exact .nil
    | [a], _ => exact List.pairwise_singleton _ a
  · refine (presort_falling byKey _ (v.take (v.length / 2))).bind ?_
    rintro ⟨left, leftRest⟩ ⟨permLeft, fallingLeft⟩
    refine (presort_falling byKey _ (v.drop (v.length / 2))).bind ?_
    rintro ⟨right, rightRest⟩ ⟨permRight, fallingRight⟩
    refine (sortHalf_falling byKey permLeft fallingLeft).bind fun left ⟨permLeft, fallingLeft⟩ => ?_
    refine (sortHalf_falling byKey permRight fallingRight).bind fun right ⟨permRight, fallingRight⟩ => ?_
    have lengthLeft := permLeft.length_eq
    have lengthRight := permRight.length_eq
    rw [List.length_take] at lengthLeft
    rw [List.length_drop] at lengthRight
    refine (mergeHalves_sorts byKey fallingLeft fallingRight (by omega) (by omega)).mono ?_
    rintro sorted ⟨perm, rising⟩
    refine ⟨perm.trans ((permLeft.append permRight).trans ?_), rising⟩
    rw [List.take_append_drop]

end Ordered

end Sorting

end ConfigWeave
