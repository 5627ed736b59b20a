import ConfigWeave.Expr.Operation
import ConfigWeave.Proofs.MergedTree
import ConfigWeave.Traced

namespace ConfigWeave

/-- What a computation results in has a property, unless it fails. -/
def Gives {ε α : Type} (post : α → Prop) (x : Except ε α) : Prop :=
  ∀ a, x = .ok a → post a

namespace Gives

variable {ω ε α β : Type} {post : α → Prop} {more : β → Prop}

theorem ok {a : α} (known : post a) : Gives (ε := ε) post (.ok a) :=
  fun _ same => Except.ok.inj same ▸ known

theorem error {e : ε} : Gives post (.error e) :=
  nofun

theorem map {x : Except ε α} {f : α → β} (gives : Gives post x) (known : ∀ a, post a → more (f a)) :
    Gives more (x.map f) := by
  cases x with
  | error e => exact error
  | ok a => exact ok (known a (gives a rfl))

theorem trivially {x : Except ε α} : Gives (fun _ => True) x :=
  fun _ _ => trivial

theorem bind {x : Except ε α} {f : α → Except ε β} (gives : Gives post x) (later : ∀ a, post a → Gives more (f a)) :
    Gives more (x >>= f) := by
  cases x with
  | error e => exact error
  | ok a => exact later a (gives a rfl)

theorem traced {x : Traced ω ε α} {f : α → Traced ω ε β} (gives : Gives post x.result)
    (later : ∀ a, post a → Gives more (f a).result) : Gives more (x >>= f).result := by
  intro b done
  obtain ⟨a, start, rest⟩ := Traced.exists_of_bind_ok done
  exact later a (gives a start) b rest

end Gives

namespace Value

/-- A property of trees that scalars have, that trees keep which are put together from others, and that passes to
the parts of trees. Keys are distinct where it holds. -/
structure Hereditary (C : Value → Prop) : Prop extends Assembled C where
  scalar : ∀ {v : Value}, v.IsScalar → C v
  payload : ∀ {tag mark payload}, C (.tagged tag mark payload) → C payload
  distinct : ∀ {m : Mapping}, C (.map m) → m.Distinct

namespace Hereditary

variable {C : Value → Prop} (hereditary : Hereditary C)
include hereditary

theorem bare {v : Value} (holds : C v) : C v.bare := by
  fun_induction Value.bare v with
  | case1 tag mark payload ih => exact ih (hereditary.payload holds)
  | case2 v _ => exact holds

theorem get? {entries : Mapping} (holds : C (.map entries)) (key : Value) : IfAny C (entries.get? key) := by
  intro v found
  obtain ⟨entry, member, rfl⟩ := exists_mem_of_get? found
  exact (hereditary.entries holds entry member).2

theorem keys {entries : Mapping} (holds : C (.map entries)) : C (.seq (entries.map (·.1))) := by
  refine hereditary.seq fun key member => ?_
  obtain ⟨entry, here, rfl⟩ := List.mem_map.mp member
  exact (hereditary.entries holds entry here).1

theorem values {entries : Mapping} (holds : C (.map entries)) : C (.seq (entries.map (·.2))) := by
  refine hereditary.seq fun value member => ?_
  obtain ⟨entry, here, rfl⟩ := List.mem_map.mp member
  exact (hereditary.entries holds entry here).2

theorem map_nil : C (.map []) :=
  hereditary.map List.Pairwise.nil (by simp)

theorem insertAll {m : Mapping} (holds : C (.map m)) {entries : List (Value × Value)}
    (each : ∀ entry ∈ entries, C entry.1 ∧ C entry.2) : C (.map (m.insertAll entries)) :=
  hereditary.map ((hereditary.distinct holds).insertAll entries)
    (Mapping.forall_mem_insertAll (hereditary.entries holds) each)

theorem sublist {m part : Mapping} (holds : C (.map m)) (within : part.Sublist m) : C (.map part) :=
  hereditary.map ((hereditary.distinct holds).sublist within) fun entry member =>
    hereditary.entries holds entry (within.subset member)

theorem inRange (i : Int) : Gives C (Expr.inRange i) := by
  unfold Expr.inRange
  split
  · exact .ok (hereditary.scalar trivial)
  · exact .error

theorem negate (v : Value) : Gives C (Expr.negate v) := by
  unfold Expr.negate
  split
  · exact hereditary.inRange _
  · exact .ok (hereditary.scalar trivial)
  · exact .error

theorem integerArithmetic (op : BinaryOp) (a b : Int) : Gives C (Expr.integerArithmetic op a b) := by
  unfold Expr.integerArithmetic
  split
  · exact hereditary.inRange _
  · exact hereditary.inRange _
  · exact hereditary.inRange _
  · exact hereditary.inRange _
  · exact .bind .trivially fun _ _ => hereditary.inRange _

theorem arithmetic (op : BinaryOp) {a b : Value} (left : C a) (right : C b) : Gives C (Expr.arithmetic op a b) := by
  unfold Expr.arithmetic
  split
  · split
    · exact .error
    · split
      · split
        · exact .ok (hereditary.scalar trivial)
        · exact hereditary.integerArithmetic op _ _
      · exact .ok (hereditary.scalar trivial)
  · split
    · exact .ok (hereditary.scalar trivial)
    · exact .ok (hereditary.seq (List.forall_mem_append.mpr ⟨hereditary.items left, hereditary.items right⟩))
    · exact .ok (hereditary.insertAll left (hereditary.entries right))
    · exact .map .trivially fun _ _ => hereditary.scalar trivial
    · exact .map .trivially fun _ _ => hereditary.scalar trivial
    · exact .error

theorem applyBinary (op : BinaryOp) {a b : Option Value} (left : IfAny C a) (right : IfAny C b) :
    Gives (IfAny C) (Expr.applyBinary op a b) := by
  have truth (p : Bool) : IfAny C (some (.bool p)) := .some (hereditary.scalar trivial)
  unfold Expr.applyBinary
  split
  · exact .ok (truth _)
  · exact .ok (truth _)
  · exact .ok (.some (hereditary.scalar trivial))
  · split
    · rename_i a b
      split
      iterate 4 exact .map .trivially fun _ _ => truth _
      · exact .map .trivially fun _ _ => truth _
      · exact .map .trivially fun _ _ => truth _
      · exact .map (hereditary.arithmetic op (left a rfl) (right b rfl)) fun _ holds => .some holds
    · exact .ok .none

theorem lookup? {target : Value} (holds : C target) (index : Value) : IfAny C (Expr.lookup? target index) := by
  fun_induction Expr.lookup? target index with
  | case1 tag mark payload ih => exact ih (hereditary.payload holds)
  | case2 entries => exact .orElse (hereditary.get? holds _) (hereditary.get? holds _)
  | case3 items i =>
    refine .of_mem (hereditary.items holds) fun v found => ?_
    obtain ⟨place, _, here⟩ := Option.bind_eq_some_iff.mp found
    exact List.mem_of_getElem? here
  | case4 => exact .none
  | case5 s i => exact .map (f := fun c => Value.str (String.singleton c)) (fun _ => hereditary.scalar trivial) _
  | case6 => exact .none
  | case7 => exact .none

theorem attribute? {target : Value} (holds : C target) (name : String) : IfAny C (Expr.attribute? target name) := by
  unfold Expr.attribute?
  split
  · rename_i entries same
    exact hereditary.get? (same ▸ hereditary.bare holds) _
  · exact .none

end Hereditary

end Value

end ConfigWeave
