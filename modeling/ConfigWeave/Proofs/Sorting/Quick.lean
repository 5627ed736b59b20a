import ConfigWeave.Proofs.Sorting.Runs

namespace ConfigWeave.Sorting

open Comparing

variable {ι : Type} {key : ι → Nat} {less : ι → ι → Bool}

/-- A place in a list, given by what stands from there on. -/
def Place (v place : List ι) : Prop :=
  place <:+ v ∧ place ≠ []

theorem Place.drop {v place : List ι} (isPlace : Place v place) {n : Nat} (within : n < place.length) :
    Place v (place.drop n) := by
  refine ⟨(List.drop_suffix n place).trans isPlace.1, fun none => ?_⟩
  rw [List.drop_eq_nil_iff] at none
  omega

theorem median_reaches {v a b c : List ι} (first : Place v a) (second : Place v b) (third : Place v c) :
    Reaches less (median a b c) (Place v) := by
  unfold median
  split
  · refine (Reaches.isLess _ _).bind fun _ _ => (Reaches.isLess _ _).bind fun _ _ => ?_
    split
    · refine (Reaches.isLess _ _).bind fun _ _ => .pure ?_
      split
      · exact second
      · exact third
    · exact .pure first
  · exact .pure first

/-- The regions are large enough for those that their medians are taken from. -/
theorem medianOfRegions_reaches {v : List ι} {n : Nat} {a b c : List ι} (positive : 0 < n)
    (first : Place v a) (second : Place v b) (third : Place v c)
    (large : n ≤ a.length ∧ n ≤ b.length ∧ n ≤ c.length) : Reaches less (medianOfRegions n a b c) (Place v) := by
  induction n using Nat.strongRecOn generalizing a b c with
  | ind n ih =>
    unfold medianOfRegions
    split
    · rename_i long
      have region {r : List ι} (isPlace : Place v r) (large : n ≤ r.length) :
          Reaches less (medianOfRegions (n / 8) r (r.drop (n / 8 * 4)) (r.drop (n / 8 * 7))) (Place v) := by
        refine ih (n / 8) (by omega) (by omega) isPlace (isPlace.drop (by omega)) (isPlace.drop (by omega)) ?_
        simp only [List.length_drop]
        omega
      refine (region first large.1).bind fun a first => ?_
      refine (region second large.2.1).bind fun b second => ?_
      refine (region third large.2.2).bind fun c third => ?_
      exact median_reaches first second third
    · exact median_reaches first second third

theorem choosePivot_reaches {v : List ι} (long : smallSize < v.length) :
    Reaches less (choosePivot v) (Place v) := by
  have whole : Place v v := ⟨List.suffix_rfl, List.ne_nil_of_length_pos (by omega)⟩
  rw [smallSize] at long
  unfold choosePivot
  dsimp only
  split
  · exact median_reaches whole (whole.drop (by omega)) (whole.drop (by omega))
  · refine medianOfRegions_reaches (by omega) whole (whole.drop (by omega)) (whole.drop (by omega)) ?_
    simp only [List.length_drop]
    omega

/-- Each item is parted by the answer about it. -/
theorem part_reaches {belongs : ι → Comparing ι Bool} {p : ι → Bool}
    (answers : ∀ a, Reaches less (belongs a) (· = p a)) (left right items : List ι) :
    Reaches less (part belongs left right items) fun (left', right') =>
      left' = (items.filter p).reverse ++ left ∧ right' = (items.filter (!p ·)).reverse ++ right := by
  induction items generalizing left right with
  | nil => exact .pure ⟨rfl, rfl⟩
  | cons item rest ih =>
    refine (answers item).bind fun answer given => ?_
    subst given
    split
    · rename_i inside
      simpa [List.filter_cons, inside] using ih (item :: left) right
    · rename_i outside
      simpa [List.filter_cons, outside] using ih left (item :: right)

/-- The pivot itself is put where an answer about it would put it. -/
theorem partAround_reaches {belongs : ι → Comparing ι Bool} {p : ι → Bool}
    (answers : ∀ a, Reaches less (belongs a) (· = p a)) (before : List ι) (pivot : ι) (after : List ι) :
    Reaches less (partAround belongs (p pivot) before pivot after)
      (· = ((before ++ pivot :: after).filter p, (before ++ pivot :: after).filter (!p ·))) := by
  unfold partAround
  refine (part_reaches answers [] [] before).bind ?_
  rintro ⟨left, right⟩ ⟨rfl, rfl⟩
  cases side : p pivot with
  | true =>
    refine (part_reaches answers _ _ after).bind ?_
    rintro ⟨left, right⟩ ⟨rfl, rfl⟩
    exact .pure (by simp [side])
  | false =>
    refine (part_reaches answers _ _ after).bind ?_
    rintro ⟨left, right⟩ ⟨rfl, rfl⟩
    exact .pure (by simp [side])

/-- Two sorted parts of a list make up a sorted list, if what is in the one is not greater than a number that
nothing in the other is less than. -/
theorem sorted_append {v left right : List ι} (p : ι → Bool) (pivot : ι)
    (sortedLeft : left.Perm (v.filter p) ∧ Rising key left)
    (sortedRight : right.Perm (v.filter (!p ·)) ∧ Rising key right)
    (low : ∀ a ∈ v, p a = true → key a ≤ key pivot) (high : ∀ b ∈ v, p b = false → key pivot ≤ key b) :
    (left ++ right).Perm v ∧ Rising key (left ++ right) := by
  obtain ⟨permLeft, risingLeft⟩ := sortedLeft
  obtain ⟨permRight, risingRight⟩ := sortedRight
  refine ⟨(permLeft.append permRight).trans (List.filter_append_perm p v), ?_⟩
  refine List.pairwise_append.mpr ⟨risingLeft, risingRight, fun a left b right => ?_⟩
  obtain ⟨member, inside⟩ := List.mem_filter.mp (permLeft.mem_iff.mp left)
  obtain ⟨member', outside⟩ := List.mem_filter.mp (permRight.mem_iff.mp right)
  rw [Bool.not_eq_true'] at outside
  exact (low a member inside).trans (high b member' outside)

section Ordered

variable (byKey : ∀ a b, less a b = decide (key a < key b))
include byKey

/-- A pivot that is not greater than a least item has nothing in front of it. -/
theorem partLess_reaches {ancestor : Option ι} {before after : List ι} {pivot : ι}
    (least : ∀ a ∈ ancestor, ∀ b ∈ before ++ pivot :: after, key a ≤ key b) :
    Reaches less (partLess ancestor before pivot after) (· =
      ((before ++ pivot :: after).filter (less · pivot), (before ++ pivot :: after).filter (!less · pivot))) := by
  have parted : Reaches less (partAround (isLess · pivot) false before pivot after) (· =
      ((before ++ pivot :: after).filter (less · pivot), (before ++ pivot :: after).filter (!less · pivot))) := by
    have own : less pivot pivot = false := (less_eq_false_iff byKey).mpr le_rfl
    have around := partAround_reaches (p := fun a => less a pivot) (fun a => Reaches.isLess a pivot) before
      pivot after
    rwa [own] at around
  unfold partLess
  cases ancestor with
  | none => exact parted
  | some ancestor =>
    refine reaches_ask byKey (fun _ => parted) fun notGreater => .pure ?_
    have noneLess : ∀ b ∈ before ++ pivot :: after, less b pivot = false :=
      fun b member => (less_eq_false_iff byKey).mpr (notGreater.trans (least ancestor rfl b member))
    rw [Prod.mk.injEq, eq_comm, List.filter_eq_nil_iff, eq_comm, List.filter_eq_self]
    constructor
    · intro b member
      rw [noneLess b member]
      exact Bool.false_ne_true
    · intro b member
      rw [noneLess b member]
      rfl

/-- Around a least item those that equal it come first. -/
theorem partEqual_reaches (before : List ι) (pivot : ι) (after : List ι) :
    Reaches less (partAround (fun item => do return !(← isLess pivot item)) true before pivot after) (· =
      ((before ++ pivot :: after).filter (!less pivot ·), (before ++ pivot :: after).filter (!!less pivot ·))) := by
  have answers (a : ι) : Reaches less (do return !(← isLess pivot a)) (· = !less pivot a) :=
    (Reaches.isLess pivot a).bind fun _ given => .pure (by rw [given])
  have own : (!less pivot pivot) = true := by
    rw [(less_eq_false_iff byKey).mpr le_rfl]
    rfl
  have around := partAround_reaches (p := fun a => !less pivot a) answers before pivot after
  rwa [own] at around

/-- What equals a least item comes first as it stands. -/
theorem sorted_behindLeast {v rest : List ι} {pivot : ι} (lowest : ∀ b ∈ v, key pivot ≤ key b)
    (sortedRest : rest.Perm (v.filter (!!less pivot ·)) ∧ Rising key rest) :
    (v.filter (!less pivot ·) ++ rest).Perm v ∧ Rising key (v.filter (!less pivot ·) ++ rest) := by
  have same : ∀ a ∈ v, (!less pivot a) = true → key a ≤ key pivot := by
    intro a _ equal
    rwa [Bool.not_eq_true', less_eq_false_iff byKey] at equal
  have first : Rising key (v.filter (!less pivot ·)) := by
    refine List.pairwise_of_forall_mem_list fun a first b second => ?_
    obtain ⟨member, equal⟩ := List.mem_filter.mp first
    exact (same a member equal).trans (lowest b (List.mem_of_mem_filter second))
  exact sorted_append (fun a => !less pivot a) pivot ⟨.refl _, first⟩ sortedRest same fun b member _ =>
    lowest b member

theorem drift_sorts_eagerly {v : List ι} (nonempty : v ≠ []) : Sorts less key (drift none v) v :=
  have noQuick : ∀ sort ∈ (none : Option (List ι → Comparing ι (List ι))), ∀ v, Sorts less key (sort v) v := nofun
  drift_sorts byKey noQuick nonempty

/-- The induction is on how many pivots may still be tried. -/
theorem quicksort_sorts (limit : Nat) {ancestor : Option ι} {v : List ι}
    (least : ∀ a ∈ ancestor, ∀ b ∈ v, key a ≤ key b) :
    Sorts less key (quicksort limit ancestor v) v := by
  induction limit generalizing ancestor v with
  | zero =>
    unfold quicksort
    split
    · exact smallSort_sorts byKey v
    · rename_i long
      exact drift_sorts_eagerly byKey (List.ne_nil_of_length_pos (by omega))
  | succ limit ih =>
    unfold quicksort
    split
    · exact smallSort_sorts byKey v
    rename_i long
    refine (choosePivot_reaches (Nat.not_le.mp long)).bind fun place ⟨suffix, nonempty⟩ => ?_
    obtain ⟨pivot, after, rfl⟩ := List.exists_cons_of_ne_nil nonempty
    obtain ⟨before, whole⟩ := suffix
    have front : v.take (v.length - (after.length + 1)) = before := by
      simp [← whole]
    simp only [front]
    refine (partLess_reaches byKey (by rwa [whole])).bind ?_
    rintro _ rfl
    rw [whole]
    split
    · -- Nothing is less than the pivot, and what equals it is done with.
      rename_i empty
      have lowest : ∀ b ∈ v, key pivot ≤ key b := by
        rw [List.isEmpty_iff, List.filter_eq_nil_iff] at empty
        exact fun b member => Nat.not_lt.mp fun below => empty b member ((less_eq_true_iff byKey).mpr below)
      refine (partEqual_reaches byKey before pivot after).bind ?_
      rintro _ rfl
      rw [whole]
      refine (@ih none _ nofun).bind fun rest sortedRest => .pure ?_
      exact sorted_behindLeast byKey lowest sortedRest
    · have lower : ∀ a ∈ ancestor, ∀ b ∈ v.filter (less · pivot), key a ≤ key b :=
        fun a isAncestor b member => least a isAncestor b (List.mem_of_mem_filter member)
      have upper : ∀ a ∈ some pivot, ∀ b ∈ v.filter (!less · pivot), key a ≤ key b := by
        rintro _ ⟨⟩ b member
        have outside := (List.mem_filter.mp member).2
        rwa [Bool.not_eq_true', less_eq_false_iff byKey] at outside
      refine (ih upper).bind fun right sortedRight => (ih lower).bind fun left sortedLeft => .pure ?_
      exact sorted_append (fun a => less a pivot) pivot sortedLeft sortedRight
        (fun a _ inside => ((less_eq_true_iff byKey).mp inside).le) fun b _ outside =>
          (less_eq_false_iff byKey).mp outside

/-- The sort comes to an end with the items in order, whatever their numbers are. -/
theorem stableSort_sorts (v : List ι) : Sorts less key (stableSort v) v := by
  unfold stableSort
  split
  · refine (insertAll_falling byKey .nil).bind fun sorted ⟨perm, falling⟩ => .pure ⟨?_, falling.reverse⟩
    exact sorted.reverse_perm.trans perm
  · have nonempty : v ≠ [] := List.ne_nil_of_length_pos (by omega)
    split
    · exact drift_sorts_eagerly byKey nonempty
    · refine drift_sorts byKey ?_ nonempty
      rintro _ ⟨⟩ stretch
      exact quicksort_sorts byKey _ (fun _ => nofun)

end Ordered

/-- A list of up to twenty items is sorted by insertion, which does not give up whatever the answers are. -/
theorem stableSort_reaches {v : List ι} (few : v.length ≤ 20) (less : ι → ι → Bool) :
    Reaches less (stableSort v) fun _ => True := by
  rw [stableSort, if_pos few]
  exact (reaches_insertAll less [] v).bind fun _ _ => .pure trivial

end ConfigWeave.Sorting
