namespace ConfigWeave

theorem ok_of_toOption {ε α : Type} {x : Except ε α} {a : α} (found : x.toOption = some a) : x = .ok a := by
  cases x with
  | error e => cases found
  | ok b =>
    cases found
    rfl

theorem exists_ok_of_any {ε α : Type} {x : Except ε α} {p : α → Bool} (found : x.toOption.any p = true) :
    ∃ a, x = .ok a ∧ p a = true := by
  cases x with
  | error e => cases found
  | ok a => exact ⟨a, rfl, found⟩

/-- A computation that reports as it goes and may fail. What it has reported stays, whether it fails or
not. -/
structure Traced (ω ε α : Type) where
  trace : List ω
  result : Except ε α

namespace Traced

variable {ω ε α β : Type}

protected def pure (a : α) : Traced ω ε α :=
  ⟨[], .ok a⟩

/-- Runs `f` on the result. After a failure nothing more is reported. -/
protected def bind (x : Traced ω ε α) (f : α → Traced ω ε β) : Traced ω ε β :=
  match x.result with
  | .error e => ⟨x.trace, .error e⟩
  | .ok a => ⟨x.trace ++ (f a).trace, (f a).result⟩

instance : Monad (Traced ω ε) where
  pure := Traced.pure
  bind := Traced.bind

def report (event : ω) : Traced ω ε Unit :=
  ⟨[event], .ok ()⟩

def reportAll (events : List ω) : Traced ω ε Unit :=
  ⟨events, .ok ()⟩

def fail (e : ε) : Traced ω ε α :=
  ⟨[], .error e⟩

def lift (x : Except ε α) : Traced ω ε α :=
  ⟨[], x⟩

@[simp] theorem pure_def (a : α) : (pure a : Traced ω ε α) = ⟨[], .ok a⟩ := rfl

@[simp] theorem bind_ok (trace : List ω) (a : α) (f : α → Traced ω ε β) :
    (⟨trace, .ok a⟩ : Traced ω ε α) >>= f = ⟨trace ++ (f a).trace, (f a).result⟩ := rfl

@[simp] theorem bind_error (trace : List ω) (e : ε) (f : α → Traced ω ε β) :
    (⟨trace, .error e⟩ : Traced ω ε α) >>= f = ⟨trace, .error e⟩ := rfl

theorem bind_of_error {x : Traced ω ε α} {e : ε} (failed : x.result = .error e) (f : α → Traced ω ε β) :
    x >>= f = ⟨x.trace, .error e⟩ := by
  obtain ⟨trace, result⟩ := x
  subst failed
  rfl

theorem bind_of_ok {x : Traced ω ε α} {a : α} (done : x.result = .ok a) (f : α → Traced ω ε β) :
    x >>= f = ⟨x.trace ++ (f a).trace, (f a).result⟩ := by
  obtain ⟨trace, result⟩ := x
  subst done
  rfl

/-- What succeeds has succeeded at its first step and then at the rest. -/
theorem exists_of_bind_ok {x : Traced ω ε α} {f : α → Traced ω ε β} {b : β} (done : (x >>= f).result = .ok b) :
    ∃ a, x.result = .ok a ∧ (f a).result = .ok b := by
  obtain ⟨trace, _ | a⟩ := x
  · cases done
  · exact ⟨a, rfl, done⟩

theorem result_bind (x : Traced ω ε α) (f : α → Traced ω ε β) :
    (x >>= f).result = x.result.bind fun a => (f a).result := by
  obtain ⟨trace, result⟩ := x
  cases result <;> rfl

/-- What is done in a sequence has been done one after the other. -/
theorem bind_eq_ok_iff {x : Traced ω ε α} {f : α → Traced ω ε β} {trace : List ω} {b : β} :
    x >>= f = ⟨trace, .ok b⟩ ↔
      ∃ before a after, x = ⟨before, .ok a⟩ ∧ f a = ⟨after, .ok b⟩ ∧ trace = before ++ after := by
  obtain ⟨before, e | a⟩ := x
  · simp [bind_error]
  · rw [bind_ok]
    constructor
    · intro same
      obtain ⟨rfl, done⟩ := mk.inj same
      refine ⟨before, a, (f a).trace, rfl, ?_, rfl⟩
      rw [← done]
    · rintro ⟨_, _, after, ⟨⟩, done, rfl⟩
      rw [done]

/-- What follows only matters where it is come to. -/
theorem bind_congr_of_ok {x : Traced ω ε α} {f g : α → Traced ω ε β} (same : ∀ a, x.result = .ok a → f a = g a) :
    x >>= f = x >>= g := by
  cases result : x.result with
  | error e => rw [bind_of_error result, bind_of_error result]
  | ok a => rw [bind_of_ok result, bind_of_ok result, same a result]

/-- What has been reported stays reported. -/
theorem trace_sublist_bind (x : Traced ω ε α) (f : α → Traced ω ε β) : x.trace.Sublist (x >>= f).trace := by
  obtain ⟨trace, _ | a⟩ := x
  · exact List.Sublist.refl _
  · exact List.sublist_append_left _ _

instance : LawfulMonad (Traced ω ε) := by
  refine LawfulMonad.mk' _ ?_ ?_ ?_
  · rintro α ⟨trace, _ | a⟩ <;> simp [Functor.map, Traced.bind, Traced.pure]
  · intro α β a f
    simp
  · rintro α β γ ⟨trace, _ | a⟩ f g
    · simp
    · rcases h : f a with ⟨more, _ | b⟩ <;> simp [h]

end Traced

end ConfigWeave
