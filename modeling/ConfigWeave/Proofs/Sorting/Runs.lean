import ConfigWeave.Proofs.Sorting.Small

namespace ConfigWeave.Sorting

open Comparing

variable {ι : Type} {key : ι → Nat} {less : ι → ι → Bool}

/-- An item that stands in front of the next one of another list fits in there. -/
theorem pairwise_insert {r : ι → ι → Prop} (trans : ∀ {a b c}, r a b → r b c → r a c) {taken left right : List ι}
    {a b : ι} (first : (taken ++ a :: left).Pairwise r) (second : (taken ++ b :: right).Pairwise r)
    (inFront : r b a) :
    (taken ++ b :: a :: left).Pairwise r := by
  obtain ⟨before, behind, across⟩ := List.pairwise_append.mp first
  obtain ⟨_, _, across'⟩ := List.pairwise_append.mp second
  refine List.pairwise_append.mpr ⟨before, List.pairwise_cons.mpr ⟨?_, behind⟩, fun c member => ?_⟩
  · exact List.forall_mem_cons.mpr
      ⟨inFront, fun c later => trans inFront ((List.pairwise_cons.mp behind).1 c later)⟩
  · exact List.forall_mem_cons.mpr ⟨across' c member b List.mem_cons_self, across c member⟩

theorem Rising.insert {taken left right : List ι} {a b : ι} (first : Rising key (taken ++ a :: left))
    (second : Rising key (taken ++ b :: right)) (inFront : key b ≤ key a) : Rising key (taken ++ b :: a :: left) :=
  pairwise_insert (r := fun a b => key a ≤ key b) Nat.le_trans first second inFront

theorem Falling.insert {taken left right : List ι} {a b : ι} (first : Falling key (taken ++ a :: left))
    (second : Falling key (taken ++ b :: right)) (inFront : key a ≤ key b) :
    Falling key (taken ++ b :: a :: left) :=
  pairwise_insert (r := fun a b => key b ≤ key a) (fun near far => Nat.le_trans far near) first second inFront

section Ordered

variable (byKey : ∀ a b, less a b = decide (key a < key b))
include byKey

theorem mergeUp_sorts {taken left right : List ι} (risingLeft : Rising key (taken.reverse ++ left))
    (risingRight : Rising key (taken.reverse ++ right)) :
    Sorts less key (mergeUp taken left right) (taken.reverse ++ (left ++ right)) := by
  fun_induction mergeUp taken left right with
  | case1 taken right =>
    rw [List.reverseAux_eq]
    exact .pure ⟨.refl _, risingRight⟩
  | case2 taken left _ =>
    rw [List.reverseAux_eq, List.append_nil]
    exact .pure ⟨.refl _, risingLeft⟩
  | case3 taken a left b right ihRight ihLeft =>
    simp only [List.reverse_cons, List.append_assoc, List.cons_append, List.nil_append] at ihLeft ihRight
    refine reaches_ask byKey (fun isLess => ?_) fun notGreater => ?_
    · have moved : (b :: (a :: left ++ right)).Perm (a :: left ++ b :: right) := List.perm_middle.symm
      refine (ihRight (risingLeft.insert risingRight isLess.le) risingRight).mono ?_
      rintro sorted ⟨perm, rising⟩
      exact ⟨perm.trans (moved.append_left _), rising⟩
    · exact ihLeft risingLeft (risingRight.insert risingLeft notGreater)

theorem mergeDown_sorts {taken left right : List ι} (fallingLeft : Falling key (taken.reverse ++ left))
    (fallingRight : Falling key (taken.reverse ++ right)) :
    Sorts less key (mergeDown taken left right) (taken ++ (left ++ right)) := by
  -- The list that comes out is the one that falls, from its end.
  have done {taken rest : List ι} (falling : Falling key (taken.reverse ++ rest)) :
      (rest.reverseAux taken).Perm (taken ++ rest) ∧ Rising key (rest.reverseAux taken) := by
    have whole := falling.reverse
    rw [List.reverse_append, List.reverse_reverse] at whole
    rw [List.reverseAux_eq]
    exact ⟨(rest.reverse_perm.append_right taken).trans List.perm_append_comm, whole⟩
  fun_induction mergeDown taken left right with
  | case1 taken right => exact .pure (done fallingRight)
  | case2 taken left _ =>
    rw [List.append_nil]
    exact .pure (done fallingLeft)
  | case3 taken a left b right ihLeft ihRight =>
    simp only [List.reverse_cons, List.append_assoc, List.cons_append, List.nil_append] at ihLeft ihRight
    refine reaches_ask byKey (fun isLess => ?_) fun notGreater => ?_
    · refine (ihLeft fallingLeft (fallingRight.insert fallingLeft isLess.le)).mono ?_
      rintro sorted ⟨perm, rising⟩
      exact ⟨perm.trans List.perm_middle.symm, rising⟩
    · have moved : (b :: (a :: left ++ right)).Perm (a :: left ++ b :: right) := List.perm_middle.symm
      refine (ihRight (fallingLeft.insert fallingRight notGreater) fallingRight).mono ?_
      rintro sorted ⟨perm, rising⟩
      exact ⟨perm.trans (List.perm_middle.symm.trans (moved.append_left _)), rising⟩

theorem merge_sorts {left right : List ι} (risingLeft : Rising key left) (risingRight : Rising key right) :
    Sorts less key (merge left right) (left ++ right) := by
  unfold merge
  split
  · have start : Rising key ([].reverse ++ left) := risingLeft
    exact mergeUp_sorts byKey start risingRight
  · have start : Falling key ([].reverse ++ left.reverse) := risingLeft.reverse
    refine (mergeDown_sorts byKey start risingRight.reverse).mono ?_
    rintro sorted ⟨perm, rising⟩
    exact ⟨perm.trans (left.reverse_perm.append right.reverse_perm), rising⟩

end Ordered

/-- The order in which the items of a run stand. -/
def InRun (key : ι → Nat) (descending : Bool) (a b : ι) : Prop :=
  decide (key b < key a) = descending

theorem InRun.trans {descending : Bool} {a b c : ι} (near : InRun key descending a b)
    (far : InRun key descending b c) :
    InRun key descending a c := by
  unfold InRun at *
  cases descending with
  | true =>
    rw [decide_eq_true_iff] at *
    omega
  | false =>
    rw [decide_eq_false_iff_not] at *
    omega

section Ordered

variable (byKey : ∀ a b, less a b = decide (key a < key b))
include byKey

theorem runLength_reaches (descending : Bool) (length : Nat) (last : ι) (rest : List ι) :
    Reaches less (runLength descending length last rest) fun n => ∃ more ≤ rest.length, n = length + more ∧
      (last :: rest.take more).Pairwise (InRun key descending) := by
  induction rest generalizing length last with
  | nil => exact .pure ⟨0, le_rfl, rfl, List.pairwise_singleton _ _⟩
  | cons item rest ih =>
    refine (Reaches.isLess item last).bind fun answer given => ?_
    rw [byKey] at given
    split
    · rename_i goesOn
      have next : InRun key descending last item := given.symm.trans goesOn
      refine (ih (length + 1) item).mono ?_
      rintro n ⟨more, bound, rfl, run⟩
      refine ⟨more + 1, Nat.succ_le_succ bound, by omega, ?_⟩
      rw [List.take_succ_cons]
      refine List.pairwise_cons.mpr ⟨List.forall_mem_cons.mpr ⟨next, fun c member => ?_⟩, run⟩
      exact next.trans ((List.pairwise_cons.mp run).1 c member)
    · exact .pure ⟨0, Nat.zero_le _, rfl, List.pairwise_singleton _ _⟩

theorem existingRun_reaches (v : List ι) : Reaches less (existingRun v) fun (n, descending) =>
    n ≤ v.length ∧ (v.take n).Pairwise (InRun key descending) := by
  match v with
  | [] => exact .pure ⟨le_rfl, .nil⟩
  | [a] => exact .pure ⟨le_rfl, List.pairwise_singleton _ a⟩
  | first :: second :: rest =>
    refine (Reaches.isLess second first).bind fun descending given => ?_
    rw [byKey] at given
    refine (runLength_reaches byKey descending 2 second rest).bind ?_
    rintro n ⟨more, bound, rfl, run⟩
    have start : InRun key descending first second := given.symm
    refine .pure ⟨by simp only [List.length_cons]; omega, ?_⟩
    rw [Nat.add_comm 2 more, List.take_succ_cons, List.take_succ_cons]
    refine List.pairwise_cons.mpr ⟨List.forall_mem_cons.mpr ⟨start, fun c member => ?_⟩, run⟩
    exact start.trans ((List.pairwise_cons.mp run).1 c member)

theorem nextRun_reaches (plan : Plan) (v : List ι) : Reaches less (nextRun plan v) fun (n, descending) =>
    n ≤ v.length ∧ (v.take n).Pairwise (InRun key descending) := by
  unfold nextRun
  split
  · exact existingRun_reaches byKey v
  · exact .pure ⟨Nat.zero_le _, by rw [List.take_zero]; exact .nil⟩

end Ordered

/-- A run that is taken as it is rises, once it is turned around if it falls. -/
theorem InRun.rising {v : List ι} {descending : Bool} (run : v.Pairwise (InRun key descending)) :
    Rising key (if descending then v.reverse else v) := by
  cases descending with
  | true =>
    refine List.pairwise_reverse.mpr (run.imp fun {a b} falls => ?_)
    exact (of_decide_eq_true falls).le
  | false => exact run.imp fun {a b} rises => Nat.not_lt.mp (of_decide_eq_false rises)

/-- What is taken for sorted is, and without a way to sort a stretch later all stretches are. -/
structure Stretch.Proper (key : ι → Nat) (quick : Option (List ι → Comparing ι (List ι))) (s : Stretch ι) :
    Prop where
  rising : s.sorted = true → Rising key s.items
  sorted : quick = none → s.sorted = true

theorem Plan.leastRun_pos {plan : Plan} (nonempty : 0 < plan.size) : 0 < plan.leastRun := by
  unfold leastRun
  split
  · omega
  · rename_i long
    have root : 2 ≤ 2 ^ ((1 + plan.size.log2) / 2) := by
      have large : 12 ≤ plan.size.log2 := (Nat.le_log2 (by omega)).mpr (by omega)
      calc 2 = 2 ^ 1 := rfl
        _ ≤ _ := Nat.pow_le_pow_right (by omega) (by omega)
    exact Nat.div_pos (root.trans (Nat.le_add_right _ _)) Nat.two_pos

section Ordered

variable (byKey : ∀ a b, less a b = decide (key a < key b))
include byKey

/-- A stretch is made of the items that come next. -/
theorem nextStretch_reaches (quick : Option (List ι → Comparing ι (List ι))) {plan : Plan}
    (nonempty : 0 < plan.size) {v : List ι} (more : v ≠ []) :
    Reaches less (nextStretch quick.isNone plan v) fun s =>
      s.Proper key quick ∧ ∃ n, 0 < n ∧ n ≤ v.length ∧ s.items.Perm (v.take n) := by
  have least := Plan.leastRun_pos nonempty
  have length := List.length_pos_iff.mpr more
  unfold nextStretch
  refine (nextRun_reaches byKey plan v).bind ?_
  rintro ⟨n, descending⟩ ⟨bound, run⟩
  dsimp only
  split
  · rename_i long
    refine .pure ⟨⟨fun _ => InRun.rising run, fun _ => rfl⟩, n, by omega, bound, ?_⟩
    cases descending with
    | true => exact List.reverse_perm _
    | false => exact .refl _
  · split
    · refine (smallSort_sorts byKey (v.take smallSize)).bind ?_
      rintro sorted ⟨perm, rising⟩
      refine .pure ⟨⟨fun _ => rising, fun _ => rfl⟩, min smallSize v.length, ?_, Nat.min_le_right _ _, ?_⟩
      · exact lt_min (by decide) length
      · rwa [← List.take_eq_take_min]
    · rename_i noQuick
      refine .pure ⟨⟨nofun, fun eager => absurd (eager ▸ rfl) noQuick⟩, min plan.leastRun v.length, ?_,
        Nat.min_le_right _ _, ?_⟩
      · exact lt_min least length
      · rw [← List.take_eq_take_min]

end Ordered

section Drift

variable {quick : Option (List ι → Comparing ι (List ι))}

theorem Stretch.Proper.sort {s : Stretch ι} (proper : s.Proper key quick)
    (sorts : ∀ sort ∈ quick, ∀ v, Sorts less key (sort v) v) : Sorts less key (s.sort quick) s.items := by
  obtain ⟨items, sorted⟩ := s
  cases sorted with
  | true => exact .pure ⟨.refl _, proper.rising rfl⟩
  | false =>
    cases quick with
    | none => cases proper.sorted rfl
    | some sort => exact sorts sort rfl items

variable (byKey : ∀ a b, less a b = decide (key a < key b)) (sorts : ∀ sort ∈ quick, ∀ v, Sorts less key (sort v) v)
include byKey sorts

theorem join_reaches (plan : Plan) {left right : Stretch ι} (properLeft : left.Proper key quick)
    (properRight : right.Proper key quick) : Reaches less (join quick plan left right) fun s =>
      s.Proper key quick ∧ s.items.Perm (left.items ++ right.items) := by
  unfold join
  split
  · refine (properLeft.sort sorts).bind fun first ⟨permLeft, risingLeft⟩ => ?_
    refine (properRight.sort sorts).bind fun second ⟨permRight, risingRight⟩ => ?_
    refine (merge_sorts byKey risingLeft risingRight).bind fun merged ⟨perm, rising⟩ => ?_
    exact .pure ⟨⟨fun _ => rising, fun _ => rfl⟩, perm.trans (permLeft.append permRight)⟩
  · rename_i unsorted
    refine .pure ⟨⟨nofun, fun none => absurd ?_ unsorted⟩, .refl _⟩
    rw [properLeft.sorted none]
    rfl

/-- The items of stretches that stand with the last in front. -/
def itemsOf (before : List (Stretch ι × Nat)) : List ι :=
  before.reverse.flatMap fun entry => entry.1.items

omit byKey sorts in
theorem itemsOf_cons (last : Stretch ι) (depth : Nat) (before : List (Stretch ι × Nat)) :
    itemsOf ((last, depth) :: before) = itemsOf before ++ last.items := by
  simp [itemsOf]

/-- Joining stretches keeps their items. At depth zero a single stretch remains. -/
theorem collapse_reaches (plan : Plan) (depth : Nat) {last : Stretch ι} {before : List (Stretch ι × Nat)}
    (properLast : last.Proper key quick) (proper : ∀ entry ∈ before, entry.1.Proper key quick) :
    Reaches less (collapse quick plan depth last before) fun (remaining, joined) =>
      (∀ entry ∈ (joined, depth) :: remaining, entry.1.Proper key quick) ∧ (depth = 0 → remaining = []) ∧
        (itemsOf remaining ++ joined.items).Perm (itemsOf before ++ last.items) := by
  fun_induction collapse quick plan depth last before with
  | case1 last => exact .pure ⟨List.forall_mem_cons.mpr ⟨properLast, proper⟩, fun _ => rfl, .refl _⟩
  | case2 last left level before shallow ih =>
    obtain ⟨properLeft, others⟩ := List.forall_mem_cons.mp proper
    refine (join_reaches byKey sorts plan properLeft properLast).bind fun joined ⟨proper, perm⟩ => ?_
    refine (ih joined proper others).mono ?_
    rintro ⟨remaining, whole⟩ ⟨kept, alone, same⟩
    refine ⟨kept, alone, same.trans ?_⟩
    rw [itemsOf_cons, List.append_assoc]
    exact perm.append_left _
  | case3 last left level before deep =>
    exact .pure ⟨List.forall_mem_cons.mpr ⟨properLast, proper⟩, fun zero => absurd (zero ▸ Nat.zero_le _) deep,
      .refl _⟩

/-- All stretches end up in one. The induction is on the rest of the list, of which some items may belong to the
last stretch already. -/
theorem gather_reaches {plan : Plan} (nonempty : 0 < plan.size) {before : List (Stretch ι × Nat)} {last : Stretch ι}
    {place skip : Nat} {rest : List ι} (properLast : last.Proper key quick)
    (proper : ∀ entry ∈ before, entry.1.Proper key quick) :
    Reaches less (gather quick plan before last place skip rest) fun s =>
      s.Proper key quick ∧ s.items.Perm (itemsOf before ++ last.items ++ rest.drop skip) := by
  induction rest generalizing before last place skip with
  | nil =>
    refine (collapse_reaches byKey sorts plan 0 properLast proper).bind ?_
    rintro ⟨remaining, whole⟩ ⟨kept, alone, perm⟩
    obtain rfl := alone rfl
    refine .pure ⟨kept _ List.mem_cons_self, ?_⟩
    rw [List.drop_nil, List.append_nil]
    exact perm
  | cons item rest ih =>
    cases skip with
    | succ skip => exact ih properLast proper
    | zero =>
      refine (nextStretch_reaches byKey quick nonempty (List.cons_ne_nil item rest)).bind ?_
      rintro next ⟨properNext, n, positive, bound, permNext⟩
      refine (collapse_reaches byKey sorts plan _ properLast proper).bind ?_
      rintro ⟨remaining, joined⟩ ⟨kept, _, perm⟩
      refine (ih properNext kept).mono ?_
      rintro whole ⟨properWhole, same⟩
      refine ⟨properWhole, same.trans ?_⟩
      obtain ⟨n, rfl⟩ := Nat.exists_eq_succ_of_ne_zero positive.ne'
      have length := permNext.length_eq
      rw [List.length_take_of_le bound] at length
      rw [itemsOf_cons, length, Nat.succ_sub_one, List.drop_zero, List.append_assoc _ _ (rest.drop n)]
      refine perm.append ((permNext.append_right _).trans ?_)
      rw [List.take_succ_cons, List.cons_append, List.take_append_drop]

/-- A list is sorted by its runs. -/
theorem drift_sorts {v : List ι} (nonempty : v ≠ []) : Sorts less key (drift quick v) v := by
  have size := List.length_pos_iff.mpr nonempty
  unfold drift
  refine (nextStretch_reaches byKey quick size nonempty).bind ?_
  rintro first ⟨proper, n, _, bound, permFirst⟩
  refine (gather_reaches byKey sorts size proper (List.forall_mem_nil _)).bind ?_
  rintro whole ⟨properWhole, perm⟩
  refine (properWhole.sort sorts).mono ?_
  rintro sorted ⟨same, rising⟩
  refine ⟨same.trans (perm.trans ?_), rising⟩
  have length := permFirst.length_eq
  rw [List.length_take_of_le bound] at length
  rw [length]
  refine (permFirst.append_right _).trans ?_
  rw [List.take_append_drop]

end Drift

end ConfigWeave.Sorting
