import ConfigWeave.IncludeRegistry
import ConfigWeave.Proofs.Resolution

namespace ConfigWeave

/-- Pairs of a main document and a file that it includes, in the order in which they were added. -/
abbrev IncludePairs := List (Path × Path)

namespace IncludePairs

def register (pairs : IncludePairs) (main included : Path) : IncludePairs :=
  if pairs.any fun pair => main == pair.1 && included == pair.2 then pairs else pairs ++ [(main, included)]

def removeMain (pairs : IncludePairs) (main : Path) : IncludePairs :=
  pairs.filter fun pair => !(main == pair.1)

def replace (pairs : IncludePairs) (main : Path) (includes : List Path) : IncludePairs :=
  pairs.removeMain main ++ includes.eraseDups.map fun included => (main, included)

/-- What stands second in the pairs with the given path in front. -/
def under (pairs : IncludePairs) (key : Path) : List Path :=
  (pairs.filter fun pair => key == pair.1).map (·.2)

def flipped (pairs : IncludePairs) : IncludePairs :=
  pairs.map Prod.swap

end IncludePairs

/-- What a host may do to a registry. -/
inductive RegistryChange where
  | register (main included : Path)
  | removeMain (main : Path)
  | replace (main : Path) (includes : List Path)

def IncludeRegistry.change (r : IncludeRegistry) : RegistryChange → IncludeRegistry
  | .register main included => r.register main included
  | .removeMain main => r.removeMain main
  | .replace main includes => r.replace main includes

def IncludePairs.change (pairs : IncludePairs) : RegistryChange → IncludePairs
  | .register main included => pairs.register main included
  | .removeMain main => pairs.removeMain main
  | .replace main includes => pairs.replace main includes

namespace PathIndex

/-- Of paths that are added one after the other the first of equal ones stays, unless it was there before. -/
theorem foldl_addTo (set paths : List Path) :
    paths.foldl addTo set = set ++ (paths.filter fun path => !set.any (path == ·)).eraseDups := by
  induction paths generalizing set with
  | nil => simp
  | cons path rest ih =>
    rw [List.foldl_cons, ih, List.filter_cons, addTo]
    by_cases known : set.any (path == ·) = true
    · simp only [known, if_true, Bool.not_true, Bool.false_eq_true, if_false]
    · rw [Bool.not_eq_true] at known
      simp only [known, Bool.false_eq_true, if_false, Bool.not_false, if_true, List.eraseDups_cons,
        List.filter_filter, List.any_append, List.any_cons, List.any_nil, Bool.or_false, Bool.not_or,
        Bool.and_comm, List.append_assoc, List.cons_append, List.nil_append]

theorem pairwise_addTo {set : List Path} (distinct : set.Pairwise fun earlier later => (later == earlier) = false)
    (path : Path) : (addTo set path).Pairwise fun earlier later => (later == earlier) = false := by
  unfold addTo
  split
  · exact distinct
  · rename_i fresh
    refine List.pairwise_append.mpr ⟨distinct, List.pairwise_singleton _ _, fun other member last atLast => ?_⟩
    rw [List.mem_singleton.mp atLast]
    exact Bool.eq_false_iff.mpr fun same => fresh (List.any_eq_true.mpr ⟨other, member, same⟩)

theorem pairwise_foldl_addTo {set : List Path}
    (distinct : set.Pairwise fun earlier later => (later == earlier) = false) (paths : List Path) :
    (paths.foldl addTo set).Pairwise fun earlier later => (later == earlier) = false := by
  induction paths generalizing set with
  | nil => exact distinct
  | cons path rest ih => exact ih (pairwise_addTo distinct path)

/-- No key stands twice in an index. -/
def Distinct (index : PathIndex) : Prop :=
  index.Pairwise fun earlier later => (later.1 == earlier.1) = false

theorem get?_cons (k : Path) (set : List Path) (rest : PathIndex) (key : Path) :
    get? ((k, set) :: rest) key = if key == k then some set else get? rest key := by
  by_cases same : (key == k) = true <;> simp [get?, same]

theorem get?_insert (index : PathIndex) (key : Path) (set : List Path) (other : Path) :
    get? (insert key set index) other = if other == key then some set else get? index other := by
  induction index with
  | nil => exact get?_cons key set [] other
  | cons entry rest ih =>
    obtain ⟨k, old⟩ := entry
    simp only [insert]
    split
    · rename_i same
      rw [get?_cons, get?_cons, BEq.congr_right same]
      split <;> rfl
    · rename_i apart
      rw [get?_cons, get?_cons, ih]
      by_cases here : (other == k) = true
      · have elsewhere : ¬ (other == key) = true := fun equal => apart (PartialEquivBEq.trans (BEq.symm equal) here)
        rw [if_pos here, if_pos here, if_neg elsewhere]
      · rw [if_neg here, if_neg here]

theorem get?_erase (index : PathIndex) (key other : Path) :
    get? (erase index key) other = if other == key then none else get? index other := by
  induction index with
  | nil => simp [erase, get?]
  | cons entry rest ih =>
    obtain ⟨k, set⟩ := entry
    have step : erase ((k, set) :: rest) key = if key == k then erase rest key else (k, set) :: erase rest key := by
      by_cases same : (key == k) = true <;> simp [erase, same]
    rw [step, get?_cons]
    split
    · rename_i same
      rw [ih, BEq.congr_right same]
      split <;> rfl
    · rename_i apart
      rw [get?_cons, ih]
      by_cases here : (other == k) = true
      · have elsewhere : ¬ (other == key) = true := fun equal => apart (PartialEquivBEq.trans (BEq.symm equal) here)
        rw [if_pos here, if_pos here, if_neg elsewhere]
      · rw [if_neg here, if_neg here]

theorem key_of_mem_insert {index : PathIndex} {key : Path} {set : List Path} {entry : Path × List Path}
    (member : entry ∈ insert key set index) : entry.1 = key ∨ ∃ old ∈ index, entry.1 = old.1 := by
  induction index with
  | nil =>
    rw [List.mem_singleton.mp member]
    exact .inl rfl
  | cons first rest ih =>
    obtain ⟨k, old⟩ := first
    simp only [insert] at member
    split at member
    · rcases List.mem_cons.mp member with rfl | later
      · exact .inr ⟨(k, old), List.mem_cons_self, rfl⟩
      · exact .inr ⟨entry, List.mem_cons_of_mem _ later, rfl⟩
    · rcases List.mem_cons.mp member with rfl | later
      · exact .inr ⟨(k, old), List.mem_cons_self, rfl⟩
      · refine (ih later).imp_right ?_
        rintro ⟨other, found, same⟩
        exact ⟨other, List.mem_cons_of_mem _ found, same⟩

theorem Distinct.insert {index : PathIndex} (distinct : index.Distinct) (key : Path) (set : List Path) :
    Distinct (insert key set index) := by
  induction index with
  | nil => exact List.pairwise_singleton _ _
  | cons entry rest ih =>
    obtain ⟨k, old⟩ := entry
    obtain ⟨apart, distinctRest⟩ := List.pairwise_cons.mp distinct
    simp only [PathIndex.insert]
    split
    · exact List.pairwise_cons.mpr ⟨apart, distinctRest⟩
    · rename_i different
      refine List.pairwise_cons.mpr ⟨fun later member => ?_, ih distinctRest⟩
      rcases key_of_mem_insert member with new | ⟨other, found, same⟩
      · rw [new]
        exact Bool.eq_false_iff.mpr different
      · rw [same]
        exact apart other found

theorem Distinct.erase {index : PathIndex} (distinct : index.Distinct) (key : Path) : Distinct (index.erase key) :=
  List.Pairwise.filter _ distinct

theorem Distinct.get?_of_mem {index : PathIndex} (distinct : index.Distinct) {entry : Path × List Path}
    (member : entry ∈ index) : index.get? entry.1 = some entry.2 := by
  induction index with
  | nil => cases member
  | cons first rest ih =>
    obtain ⟨apart, distinctRest⟩ := List.pairwise_cons.mp distinct
    rw [get?_cons]
    rcases List.mem_cons.mp member with rfl | later
    · rw [if_pos BEq.rfl]
    · rw [apart entry later, if_neg Bool.false_ne_true]
      exact ih distinctRest later

theorem add_eq_insert (index : PathIndex) (key path : Path) :
    add key path index = insert key (addTo ((get? index key).getD []) path) index := by
  induction index with
  | nil => rfl
  | cons entry rest ih =>
    obtain ⟨k, set⟩ := entry
    rw [get?_cons]
    by_cases same : (key == k) = true
    · simp only [add, insert, same, if_true, Option.getD_some]
    · simp only [add, insert, same, if_false, ih, Bool.false_eq_true]

theorem removeFrom_eq {index : PathIndex} (distinct : index.Distinct) (key path : Path) :
    removeFrom key path index =
      match ((get? index key).getD []).filter fun other => !(path == other) with
      | [] => index.erase key
      | set => insert key set index := by
  induction index with
  | nil => rfl
  | cons entry rest ih =>
    obtain ⟨k, set⟩ := entry
    obtain ⟨apart, distinctRest⟩ := List.pairwise_cons.mp distinct
    rw [get?_cons]
    by_cases same : (key == k) = true
    · have absent : erase rest key = rest := by
        refine List.filter_eq_self.mpr fun other member => ?_
        rw [BEq.congr_left same, BEq.comm, apart other member, Bool.not_false]
      simp only [removeFrom, same, if_true, Option.getD_some]
      cases set.filter fun other => !(path == other) with
      | nil =>
        have dropped : erase ((k, set) :: rest) key = erase rest key := by simp [erase, same]
        exact (dropped.trans absent).symm
      | cons first others => simp only [insert, same, if_true]
    · rw [if_neg same]
      simp only [removeFrom, same, if_false, Bool.false_eq_true]
      rw [ih distinctRest]
      cases ((get? rest key).getD []).filter fun other => !(path == other) with
      | nil => simp [erase, same]
      | cons first others => simp only [insert, same, if_false, Bool.false_eq_true]

/-- An index that has for every path what stands second to it in a list of pairs, and no path without any. -/
structure Represents (index : PathIndex) (pairs : IncludePairs) : Prop where
  distinct : index.Distinct
  get? : ∀ key, index.get? key = if pairs.under key = [] then none else some (pairs.under key)

end PathIndex

namespace IncludePairs

theorem under_congr (pairs : IncludePairs) {key other : Path} (same : (key == other) = true) :
    pairs.under key = pairs.under other := by
  have alike : (fun pair : Path × Path => key == pair.1) = fun pair => other == pair.1 :=
    funext fun _ => BEq.congr_left same
  rw [under, under, alike]

theorem any_under (pairs : IncludePairs) (key path : Path) :
    (pairs.under key).any (path == ·) = pairs.any fun pair => key == pair.1 && path == pair.2 := by
  simp only [under, List.any_map, List.any_filter, Function.comp_def]

theorem under_append (pairs more : IncludePairs) (key : Path) :
    under (pairs ++ more) key = pairs.under key ++ under more key := by
  rw [under, under, under, List.filter_append, List.map_append]

theorem under_register (pairs : IncludePairs) (key path other : Path) :
    (pairs.register key path).under other =
      if other == key then PathIndex.addTo (pairs.under key) path else pairs.under other := by
  have known := pairs.any_under key path
  unfold register PathIndex.addTo
  rw [known]
  by_cases same : (other == key) = true
  · rw [if_pos same]
    split
    · exact pairs.under_congr same
    · rw [under_append, pairs.under_congr same]
      simp [under, same]
  · rw [if_neg same]
    split
    · rfl
    · rw [under_append]
      simp [under, same]

/-- A path that is not the key is none that stands in front together with it. -/
theorem front_of_ne {key other : Path} (apart : ¬ (other == key) = true) {pair : Path × Path}
    (front : (other == pair.1) = true) : (key == pair.1) = false :=
  Bool.eq_false_iff.mpr fun same => apart (PartialEquivBEq.trans front (BEq.symm same))

theorem under_filter (pairs : IncludePairs) (key path other : Path) :
    under (pairs.filter fun pair => !(key == pair.1 && path == pair.2)) other =
      if other == key then (pairs.under key).filter fun second => !(path == second) else pairs.under other := by
  simp only [under, List.filter_filter, List.filter_map, Function.comp_def]
  split
  · rename_i same
    refine congrArg (List.map Prod.snd) (List.filter_congr fun pair _ => ?_)
    rw [BEq.congr_left same]
    cases key == pair.1 <;> cases path == pair.2 <;> rfl
  · rename_i apart
    refine congrArg (List.map Prod.snd) (List.filter_congr fun pair _ => ?_)
    by_cases front : (other == pair.1) = true
    · rw [front_of_ne apart front, Bool.false_and, Bool.not_false, Bool.and_true]
    · rw [Bool.eq_false_iff.mpr front, Bool.false_and]

theorem under_removeMain (pairs : IncludePairs) (main other : Path) :
    (pairs.removeMain main).under other = if other == main then [] else pairs.under other := by
  simp only [under, removeMain, List.filter_filter]
  split
  · rename_i same
    rw [List.filter_eq_nil_iff.mpr, List.map_nil]
    intro pair _
    rw [BEq.congr_left same]
    cases main == pair.1 <;> decide
  · rename_i apart
    refine congrArg (List.map Prod.snd) (List.filter_congr fun pair _ => ?_)
    by_cases front : (other == pair.1) = true
    · rw [front, front_of_ne apart front, Bool.not_false, Bool.and_true]
    · rw [Bool.eq_false_iff.mpr front, Bool.false_and]

theorem under_eq_nil_iff {pairs : IncludePairs} {key : Path} :
    pairs.under key = [] ↔ ∀ pair ∈ pairs, (key == pair.1) = false := by
  rw [under, List.map_eq_nil_iff, List.filter_eq_nil_iff]
  exact forall₂_congr fun _ _ => iff_of_eq (Bool.not_eq_true _)

theorem flipped_register (pairs : IncludePairs) (main included : Path) :
    (pairs.register main included).flipped = pairs.flipped.register included main := by
  have known : (pairs.flipped.any fun pair => included == pair.1 && main == pair.2) =
      pairs.any fun pair => main == pair.1 && included == pair.2 := by
    simp only [flipped, List.any_map, Function.comp_def, Prod.fst_swap, Prod.snd_swap, Bool.and_comm]
  unfold register
  rw [known]
  split
  · rfl
  · exact List.map_append

/-- Files that a main document does not have yet are added behind all others. -/
theorem foldl_register {pairs : IncludePairs} {main : Path} {includes : List Path}
    (fresh : ∀ included ∈ includes, ∀ other ∈ pairs.under main, (included == other) = false)
    (distinct : includes.Pairwise fun earlier later => (later == earlier) = false) :
    includes.foldl (fun pairs included => pairs.register main included) pairs =
      pairs ++ includes.map fun included => (main, included) := by
  induction includes generalizing pairs with
  | nil => simp
  | cons first rest ih =>
    obtain ⟨apart, distinctRest⟩ := List.pairwise_cons.mp distinct
    obtain ⟨freshFirst, freshRest⟩ := List.forall_mem_cons.mp fresh
    have unknown : (pairs.under main).any (first == ·) = false := by simpa using freshFirst
    have appended : pairs.register main first = pairs ++ [(main, first)] := by
      rw [register, ← any_under, unknown, if_neg Bool.false_ne_true]
    have grown : under (pairs ++ [(main, first)]) main = pairs.under main ++ [first] := by
      rw [under_append]
      simp [under]
    rw [List.foldl_cons, appended, ih ?_ distinctRest, List.append_assoc]
    · rfl
    · rw [grown]
      intro included member other among
      rcases List.mem_append.mp among with before | last
      · exact freshRest included member other before
      · rw [List.mem_singleton.mp last]
        exact apart included member

end IncludePairs

namespace PathIndex.Represents

variable {index : PathIndex} {pairs : IncludePairs}

theorem empty : Represents [] [] :=
  ⟨List.Pairwise.nil, fun _ => rfl⟩

theorem getD (represents : index.Represents pairs) (key : Path) : (index.get? key).getD [] = pairs.under key := by
  rw [represents.get?]
  split
  · rename_i none
    rw [none, Option.getD_none]
  · rw [Option.getD_some]

theorem insert (represents : index.Represents pairs) {after : IncludePairs} {key : Path} {set : List Path}
    (filled : set ≠ []) (changed : ∀ other, after.under other = if other == key then set else pairs.under other) :
    Represents (PathIndex.insert key set index) after := by
  refine ⟨represents.distinct.insert key set, fun other => ?_⟩
  rw [get?_insert, changed, represents.get?]
  split
  · rfl
  · rfl

theorem erase (represents : index.Represents pairs) {after : IncludePairs} {key : Path}
    (changed : ∀ other, after.under other = if other == key then [] else pairs.under other) :
    Represents (index.erase key) after := by
  refine ⟨represents.distinct.erase key, fun other => ?_⟩
  rw [get?_erase, changed, represents.get?]
  split
  · rfl
  · rfl

theorem add (represents : index.Represents pairs) (key path : Path) :
    Represents (PathIndex.add key path index) (pairs.register key path) := by
  rw [add_eq_insert, represents.getD]
  refine represents.insert ?_ (pairs.under_register key path)
  unfold addTo
  split
  · rename_i known
    rintro none
    rw [none] at known
    cases known
  · simp

theorem removeFrom (represents : index.Represents pairs) (key path : Path) :
    Represents (PathIndex.removeFrom key path index)
      (pairs.filter fun pair => !(key == pair.1 && path == pair.2)) := by
  have changed := pairs.under_filter key path
  rw [removeFrom_eq represents.distinct, represents.getD]
  cases left : (pairs.under key).filter fun second => !(path == second) with
  | nil =>
    simp only [left] at changed
    exact represents.erase changed
  | cons first rest =>
    simp only [left] at changed
    exact represents.insert (List.cons_ne_nil first rest) changed

theorem isSome_get? (represents : index.Represents pairs)
    (key : Path) : (index.get? key).isSome = pairs.any fun pair => key == pair.1 := by
  rw [represents.get?]
  split
  · rename_i none
    rw [Option.isSome_none, eq_comm, List.any_eq_false]
    exact fun pair member => Bool.not_eq_true _ ▸ IncludePairs.under_eq_nil_iff.mp none pair member
  · rename_i some
    rw [Option.isSome_some, eq_comm, ← Bool.not_eq_false]
    refine mt (fun absent => ?_) some
    rw [List.any_eq_false] at absent
    exact IncludePairs.under_eq_nil_iff.mpr fun pair member => Bool.not_eq_true _ ▸ absent pair member

theorem ne_nil_of_mem (represents : index.Represents pairs) {entry : Path × List Path} (member : entry ∈ index) :
    entry.2 ≠ [] := by
  have found := represents.get? entry.1
  rw [represents.distinct.get?_of_mem member] at found
  split at found
  · cases found
  · rename_i filled
    exact Option.some.inj found ▸ filled

end PathIndex.Represents

namespace IncludeRegistry

/-- A registry that has a list of pairs in both directions. -/
structure Represents (r : IncludeRegistry) (pairs : IncludePairs) : Prop where
  distinct : pairs.Pairwise fun earlier later => (later.1 == earlier.1 && later.2 == earlier.2) = false
  includes : r.includesByMain.Represents pairs
  mains : r.mainsByInclude.Represents pairs.flipped

variable {r : IncludeRegistry} {pairs : IncludePairs}

theorem Represents.register (represents : r.Represents pairs) (main included : Path) :
    (r.register main included).Represents (pairs.register main included) := by
  refine ⟨?_, represents.includes.add main included, ?_⟩
  · unfold IncludePairs.register
    split
    · exact represents.distinct
    · rename_i fresh
      refine List.pairwise_append.mpr
        ⟨represents.distinct, List.pairwise_singleton _ _, fun pair member last atLast => ?_⟩
      rw [List.mem_singleton.mp atLast]
      exact Bool.eq_false_iff.mpr fun same => fresh (List.any_eq_true.mpr ⟨pair, member, same⟩)
  · rw [IncludePairs.flipped_register]
    exact represents.mains.add included main

/-- Removing a main document from the sets of some files removes the pairs of these. -/
theorem foldl_removeFrom {index : PathIndex} {flipped : IncludePairs} (represents : index.Represents flipped)
    (main : Path) (includes : List Path) :
    (includes.foldl (fun index included => PathIndex.removeFrom included main index) index).Represents
      (flipped.filter fun pair => !(includes.any (· == pair.1) && main == pair.2)) := by
  induction includes generalizing index flipped with
  | nil =>
    have all : (flipped.filter fun pair => !(([] : List Path).any (· == pair.1) && main == pair.2)) = flipped :=
      List.filter_eq_self.mpr fun _ _ => rfl
    rw [all]
    exact represents
  | cons first rest ih =>
    have step := ih (represents.removeFrom first main)
    have same : ((flipped.filter fun pair => !(first == pair.1 && main == pair.2)).filter fun pair =>
        !(rest.any (· == pair.1) && main == pair.2)) =
        flipped.filter fun pair => !((first :: rest).any (· == pair.1) && main == pair.2) := by
      rw [List.filter_filter]
      refine List.filter_congr fun pair _ => ?_
      rw [List.any_cons]
      cases first == pair.1 <;> cases rest.any (· == pair.1) <;> cases main == pair.2 <;> rfl
    exact same ▸ step

/-- The files that a main document includes are all those in whose sets it is, so it is in none behind this. -/
theorem Represents.removeMain (represents : r.Represents pairs) (main : Path) :
    (r.removeMain main).Represents (pairs.removeMain main) := by
  refine ⟨represents.distinct.filter _, represents.includes.erase (pairs.under_removeMain main), ?_⟩
  have removed := foldl_removeFrom represents.mains main (r.includesFor main)
  have same : (pairs.flipped.filter fun pair => !((r.includesFor main).any (· == pair.1) && main == pair.2)) =
      (pairs.removeMain main).flipped := by
    rw [IncludePairs.removeMain, IncludePairs.flipped, IncludePairs.flipped, List.filter_map]
    refine congrArg (List.map Prod.swap) (List.filter_congr fun pair member => ?_)
    simp only [Function.comp_apply, Prod.fst_swap, Prod.snd_swap]
    by_cases own : (main == pair.1) = true
    · have listed : (r.includesFor main).any (· == pair.2) = true := by
        rw [includesFor, represents.includes.getD, IncludePairs.under]
        exact List.any_eq_true.mpr ⟨pair.2, List.mem_map.mpr ⟨pair, List.mem_filter.mpr ⟨member, own⟩, rfl⟩,
          BEq.rfl⟩
      rw [listed, own]
      rfl
    · rw [Bool.eq_false_iff.mpr own, Bool.and_false]
  exact same ▸ removed

/-- The main document comes into the sets of files one after the other. -/
theorem foldl_add {index : PathIndex} {pairs : IncludePairs} (represents : index.Represents pairs.flipped)
    (main : Path) (includes : List Path) :
    (includes.foldl (fun index included => PathIndex.add included main index) index).Represents
      (includes.foldl (fun pairs included => pairs.register main included) pairs).flipped := by
  induction includes generalizing index pairs with
  | nil => exact represents
  | cons first rest ih =>
    refine ih ?_
    rw [IncludePairs.flipped_register]
    exact represents.add first main

theorem Represents.replace (represents : r.Represents pairs) (main : Path) (includes : List Path) :
    (r.replace main includes).Represents (pairs.replace main includes) := by
  have removed := represents.removeMain main
  have set : includes.foldl PathIndex.addTo [] = includes.eraseDups := by
    rw [PathIndex.foldl_addTo, List.nil_append, List.filter_eq_self.mpr (by simp)]
  have apart : includes.eraseDups.Pairwise fun earlier later => (later == earlier) = false :=
    set ▸ PathIndex.pairwise_foldl_addTo List.Pairwise.nil includes
  have nothing : (pairs.removeMain main).under main = [] := by rw [IncludePairs.under_removeMain, if_pos BEq.rfl]
  unfold IncludeRegistry.replace IncludePairs.replace
  simp only [set]
  split
  · rename_i none
    rw [List.isEmpty_iff.mp none, List.map_nil, List.append_nil]
    exact removed
  · rename_i filled
    refine ⟨?_, removed.includes.insert (mt List.isEmpty_iff.mpr filled) fun other => ?_, ?_⟩
    · refine List.pairwise_append.mpr ⟨removed.distinct, List.pairwise_map.mpr (apart.imp fun fresh => ?_), ?_⟩
      · rw [fresh, Bool.and_false]
      · intro pair member added among
        obtain ⟨included, _, rfl⟩ := List.mem_map.mp among
        have other : (main == pair.1) = false := by simpa using (List.mem_filter.mp member).2
        rw [other, Bool.false_and]
    · rw [IncludePairs.under_append, IncludePairs.under_removeMain]
      by_cases same : (other == main) = true
      · simp [IncludePairs.under, List.filter_map, same, Function.comp_def]
      · simp [IncludePairs.under, List.filter_map, same, Function.comp_def]
    · have added := foldl_add removed.mains main includes.eraseDups
      rwa [IncludePairs.foldl_register (by simp [nothing]) apart] at added

theorem Represents.change (represents : r.Represents pairs) (change : RegistryChange) :
    (r.change change).Represents (pairs.change change) := by
  cases change with
  | register main included => exact represents.register main included
  | removeMain main => exact represents.removeMain main
  | replace main includes => exact represents.replace main includes

theorem Represents.run (represents : r.Represents pairs) (changes : List RegistryChange) :
    (changes.foldl IncludeRegistry.change r).Represents (changes.foldl IncludePairs.change pairs) := by
  induction changes generalizing r pairs with
  | nil => exact represents
  | cons first rest ih => exact ih (represents.change first)

end IncludeRegistry

/-- A registry answers as a list does of the pairs that it was given and not told to forget, without repetition and
in the order in which they came. It has the same pairs from either side, and keeps nothing for a path without
any. -/
theorem IncludeRegistry.answers_after (changes : List RegistryChange) :
    let r := changes.foldl change empty
    let pairs := changes.foldl IncludePairs.change []
    (pairs.Pairwise fun earlier later => (later.1 == earlier.1 && later.2 == earlier.2) = false) ∧
      (∀ included, r.mainsFor included = (pairs.filter fun pair => included == pair.2).map (·.1)) ∧
      (∀ main, r.includesFor main = (pairs.filter fun pair => main == pair.1).map (·.2)) ∧
      (∀ included, r.hasInclude included = pairs.any fun pair => included == pair.2) ∧
      (r.mains.Pairwise fun earlier later => (later == earlier) = false) ∧
      (∀ main, r.mains.any (main == ·) = pairs.any fun pair => main == pair.1) ∧
      (∀ main included, (r.includesFor main).any (included == ·) = (r.mainsFor included).any (main == ·)) ∧
      ((r.includesByMain ++ r.mainsByInclude).all fun entry => !entry.2.isEmpty) = true := by
  intro r pairs
  have represents : r.Represents pairs :=
    Represents.run ⟨List.Pairwise.nil, .empty, .empty⟩ changes
  have mainsFor (included : Path) : r.mainsFor included =
      (pairs.filter fun pair => included == pair.2).map (·.1) := by
    rw [IncludeRegistry.mainsFor, represents.mains.getD, IncludePairs.under, IncludePairs.flipped,
      List.filter_map, List.map_map]
    rfl
  have includesFor (main : Path) : r.includesFor main = (pairs.filter fun pair => main == pair.1).map (·.2) :=
    represents.includes.getD main
  refine ⟨represents.distinct, mainsFor, includesFor, fun included => ?_, ?_, fun main => ?_,
    fun main included => ?_, ?_⟩
  · rw [hasInclude, represents.mains.isSome_get?, IncludePairs.flipped, List.any_map]
    rfl
  · exact List.pairwise_map.mpr represents.includes.distinct
  · rw [mains, List.any_map, ← represents.includes.isSome_get?, PathIndex.get?, Option.isSome_map,
      List.isSome_find?]
    rfl
  · rw [mainsFor, includesFor]
    simp only [List.any_map, List.any_filter, Function.comp_def, Bool.and_comm]
  · refine List.all_eq_true.mpr fun entry member => ?_
    have filled : entry.2 ≠ [] :=
      (List.mem_append.mp member).elim represents.includes.ne_nil_of_mem represents.mains.ne_nil_of_mem
    simpa using filled

end ConfigWeave
