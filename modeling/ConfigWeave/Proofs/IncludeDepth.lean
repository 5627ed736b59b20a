import ConfigWeave.Proofs.Composer
import ConfigWeave.Proofs.Dependency

namespace ConfigWeave

/-- Two runs that are the same if both succeed. -/
def agreeingOnSuccess : Compositional Bool where
  Holds {α} x := ∀ a b : α, (x true).result = .ok a → (x false).result = .ok b → x true = x false
  pure _ _ _ _ _ := rfl
  warned _ _ _ _ _ _ := rfl
  fail _ _ _ _ _ := rfl
  bind := by
    intro α β x f first later a b doneTrue doneFalse
    dsimp only at later doneTrue doneFalse ⊢
    obtain ⟨c, startTrue, restTrue⟩ := Traced.exists_of_bind_ok doneTrue
    obtain ⟨d, startFalse, restFalse⟩ := Traced.exists_of_bind_ok doneFalse
    have start : x true = x false := first c d startTrue startFalse
    obtain rfl : c = d := by simpa [startTrue, startFalse] using congrArg Traced.result start
    have rest : f true c = f false c := later c a b restTrue restFalse
    rw [start, Traced.bind_of_ok startFalse, Traced.bind_of_ok startFalse, rest]

/-- Whether a run fails because documents are nested too deeply. -/
def Traced.IsTooDeep {α : Type} (run : Run α) : Prop :=
  ∃ location limit path, run.result = .error (.tooDeep location limit path)

/-- Two runs that are the same unless the second one fails because documents are nested too deeply. -/
def agreeingWithinDepth : Compositional Bool where
  Holds x := ¬ (x false).IsTooDeep → x true = x false
  pure _ _ := rfl
  warned _ _ _ := rfl
  fail _ _ := rfl
  bind := by
    intro α β x f first later within
    dsimp only at later within ⊢
    rcases result : (x false).result with e | a
    · rw [Traced.bind_of_error result] at within ⊢
      have start : x true = x false := first fun ⟨location, limit, path, deep⟩ => by
        cases result.symm.trans deep
        exact within ⟨location, limit, path, rfl⟩
      rw [start, Traced.bind_of_error result]
    · rw [Traced.bind_of_ok result] at within ⊢
      have start : x true = x false := first fun ⟨_, _, _, deep⟩ => nomatch result.symm.trans deep
      rw [start, Traced.bind_of_ok result, later a within]

namespace World

open Compositional

/-- The same surroundings with another limit for the depth to which documents include each other. -/
def withDepth (world : World) (depth : Nat) : World :=
  { world with settings := { world.settings with maxDepth := depth } }

theorem withDepth_builtins (world : World) (depth : Bool → Nat) (file : Path) :
    ∃ scope, ∀ i, (world.withDepth (depth i)).builtins file = scope :=
  ⟨world.builtins file, fun _ => rfl⟩

/-- What is included if that does not fail: the file that the path leads to, with the variables that are handed
down. -/
theorem exists_of_inclusion_ok {world : World} {nested : Option Composition} {stack : List Path} {file : Path}
    {lines : LineIndex} {mark : Nat} {arguments : Arguments} {scope : Scope} {v : Value}
    (done : (world.inclusion nested stack file lines mark arguments scope).result = .ok v) :
    ∃ target compose, world.files.canonical (world.settings.locate file arguments.target) = .ok target ∧
      nested = some compose ∧
      world.inclusion nested stack file lines mark arguments scope = (do
        Traced.report (Effect.included target)
        Traced.reportAll ((scope.inherit arguments.vars).2.map (.warned file))
        compose (stack ++ [target]) target (scope.inherit arguments.vars).1) := by
  unfold inclusion at done ⊢
  cases found : world.files.canonical (world.settings.locate file arguments.target) with
  | error cause => simp [found, Traced.fail] at done
  | ok target =>
    simp only [found] at done ⊢
    split at done
    · cases done
    · rename_i fresh
      cases nested with
      | none => cases done
      | some compose => exact ⟨target, compose, rfl, rfl, by rw [if_neg fresh]⟩

/-- What comes of a file that is included rests neither on the files around it nor on the limit, if it succeeds. The
induction is on the depth that is left to the first of the two runs. -/
theorem agreeingOnSuccess_nested (world : World) (depth : Bool → Nat) (budget other : Nat)
    (stack : Bool → List Path) (file : Path) (inherited : Scope) :
    agreeingOnSuccess.Holds fun i => (world.withDepth (depth i)).composeWith
      ((world.withDepth (depth i)).nested (bif i then budget else other)) (stack i) file inherited := by
  induction budget generalizing other stack file inherited with
  | zero =>
    refine Compositional.composeWith (P := agreeingOnSuccess) (world.withDepth_builtins depth file) inherited
      (fun _ _ _ _ => rfl) ?_
    intro lines mark arguments scope a b doneTrue
    obtain ⟨_, _, _, absent, _⟩ := exists_of_inclusion_ok doneTrue
    cases absent
  | succ budget ih =>
    refine Compositional.composeWith (P := agreeingOnSuccess) (world.withDepth_builtins depth file) inherited
      (fun _ _ _ _ => rfl) ?_
    intro lines mark arguments scope a b doneTrue doneFalse
    obtain ⟨target, _, foundTrue, presentTrue, asTrue⟩ := exists_of_inclusion_ok doneTrue
    obtain ⟨same, _, foundFalse, presentFalse, asFalse⟩ := exists_of_inclusion_ok doneFalse
    obtain rfl : target = same := Except.ok.inj (foundTrue.symm.trans foundFalse)
    cases other with
    | zero => cases presentFalse
    | succ other =>
      cases presentTrue
      cases presentFalse
      dsimp only at doneTrue doneFalse ⊢
      rw [asTrue] at doneTrue ⊢
      rw [asFalse] at doneFalse ⊢
      have composed := ih other (fun i => stack i ++ [target]) target (scope.inherit arguments.vars).1
      have run := agreeingOnSuccess.bind (agreeingOnSuccess.warned file (scope.inherit arguments.vars).2) fun _ =>
        composed
      exact agreeingOnSuccess.bind (x := fun _ => Traced.report (Effect.included target)) (fun _ _ _ _ => rfl)
        (fun _ => run) a b doneTrue doneFalse

theorem agreeingWithinDepth_inclusion (world : World) (depth : Bool → Nat) {nested : Bool → Option Composition}
    (stack : List Path) (file : Path) (lines : LineIndex) (mark : Nat) (arguments : Arguments) (scope : Scope)
    (deeper : nested false = none ∨ ∃ compose : Bool → Composition, (∀ i, nested i = some (compose i)) ∧
      ∀ target inherited, agreeingWithinDepth.Holds fun i => compose i (stack ++ [target]) target inherited) :
    agreeingWithinDepth.Holds fun i =>
      (world.withDepth (depth i)).inclusion (nested i) stack file lines mark arguments scope := by
  have located (i : Bool) : (world.withDepth (depth i)).settings.locate file arguments.target =
      world.settings.locate file arguments.target := rfl
  have sameFiles (i : Bool) : (world.withDepth (depth i)).files = world.files := rfl
  intro shallow
  simp only [inclusion, located, sameFiles] at shallow ⊢
  cases found : world.files.canonical (world.settings.locate file arguments.target) with
  | error cause => rfl
  | ok target =>
    simp only [found] at shallow ⊢
    split
    · rfl
    · rename_i fresh
      rw [if_neg fresh] at shallow
      obtain absent | ⟨compose, present, composed⟩ := deeper
      · rw [absent] at shallow
        exact absurd ⟨_, _, _, rfl⟩ shallow
      · simp only [present] at shallow ⊢
        have warned := agreeingWithinDepth.warned file (scope.inherit arguments.vars).2
        have run := agreeingWithinDepth.bind warned fun _ => composed target (scope.inherit arguments.vars).1
        exact agreeingWithinDepth.bind (x := fun _ => Traced.report (Effect.included target)) (fun _ => rfl)
          (fun _ => run) shallow

/-- A larger limit changes nothing, unless documents are nested too deeply for the smaller one. -/
theorem agreeingWithinDepth_nested (world : World) (depth : Bool → Nat) {budget larger : Nat}
    (within : budget ≤ larger) (stack : List Path) (file : Path) (inherited : Scope) :
    agreeingWithinDepth.Holds fun i => (world.withDepth (depth i)).composeWith
      ((world.withDepth (depth i)).nested (bif i then larger else budget)) stack file inherited := by
  induction budget generalizing larger stack file inherited with
  | zero =>
    refine Compositional.composeWith (P := agreeingWithinDepth) (world.withDepth_builtins depth file) inherited
      (fun _ => rfl) fun lines mark arguments scope => ?_
    exact agreeingWithinDepth_inclusion world depth stack file lines mark arguments scope (.inl rfl)
  | succ budget ih =>
    obtain ⟨larger, rfl⟩ := Nat.exists_eq_add_of_le' within
    refine Compositional.composeWith (P := agreeingWithinDepth) (world.withDepth_builtins depth file) inherited
      (fun _ => rfl) fun lines mark arguments scope => ?_
    refine agreeingWithinDepth_inclusion world depth stack file lines mark arguments scope (.inr ?_)
    refine ⟨fun i => (world.withDepth (depth i)).composeWith
      ((world.withDepth (depth i)).nested (bif i then larger + budget else budget)), ?_, ?_⟩
    · rintro (_ | _) <;> rfl
    · intro target inherited
      exact ih (Nat.le_add_left _ _) (stack ++ [target]) target inherited

/-- The files around a document and the limit for their number only decide whether it is composed, not what comes
of it. If it is composed below two stacks of files and under two limits, its value is the same, and so are its
warnings and all that it opens and includes. A load under a larger limit comes out as under a smaller one, unless
documents are nested too deeply for that. -/
theorem compose_withDepth (world : World) :
    (∀ depth other stack around file inherited v w,
      ((world.withDepth depth).compose stack file inherited).result = .ok v →
      ((world.withDepth other).compose around file inherited).result = .ok w →
      v = w ∧ ((world.withDepth depth).compose stack file inherited).trace =
        ((world.withDepth other).compose around file inherited).trace) ∧
    ∀ depth larger main, depth ≤ larger → ¬ ((world.withDepth depth).load main).IsTooDeep →
      (world.withDepth larger).load main = (world.withDepth depth).load main ∧
        (world.withDepth larger).loaded main = (world.withDepth depth).loaded main := by
  constructor
  · intro depth other stack around file inherited v w done doneToo
    have same : (world.withDepth depth).compose stack file inherited =
        (world.withDepth other).compose around file inherited :=
      agreeingOnSuccess_nested world (fun i => bif i then depth else other) _ _
        (fun i => bif i then stack else around)
        file inherited v w done doneToo
    exact ⟨Except.ok.inj (done.symm.trans ((congrArg Traced.result same).trans doneToo)),
      congrArg Traced.trace same⟩
  · intro depth larger main within shallow
    have sameRun : (world.withDepth larger).load main = (world.withDepth depth).load main := by
      simp only [load] at shallow ⊢
      rw [show (world.withDepth larger).files = (world.withDepth depth).files from rfl]
      cases found : (world.withDepth depth).files.canonical main with
      | error cause => rfl
      | ok file =>
        simp only [found] at shallow
        have composed := agreeingWithinDepth_nested world (fun i => bif i then larger else depth) within
          [file] file .empty
        exact agreeingWithinDepth.bind composed (fun _ => agreeingWithinDepth.pure _) shallow
    refine ⟨sameRun, ?_⟩
    have sameLog := Session.log_foldl_record (a := Session.ofWorld (world.withDepth larger))
      (b := Session.ofWorld (world.withDepth depth)) rfl ((world.withDepth depth).load main).trace
    simp only [loaded, Session.load]
    rw [show (Session.ofWorld (world.withDepth larger)).toWorld.load main =
      (world.withDepth depth).load main from sameRun]
    exact congrArg (Loaded.mk _ _) sameLog

theorem compose_withDepth_aroundTwo :
    let files : FileSystem := ⟨[(["main"], .file "a: !include other\n".toUTF8.toList (.change 0)),
      (["other"], .file "b: !unknown 1\n".toUTF8.toList (.change 1))], [], 2⟩
    let world : World := ⟨files, .empty, [], .ofRoot ⟨"/"⟩⟩
    ((world.withDepth 2).compose [⟨"/first"⟩, ⟨"/main"⟩] ⟨"/main"⟩ .empty).trace =
        ((world.withDepth 3).compose [⟨"/first"⟩, ⟨"/second"⟩, ⟨"/main"⟩] ⟨"/main"⟩ .empty).trace ∧
      (world.withDepth 3).load ⟨"/main"⟩ = (world.withDepth 1).load ⟨"/main"⟩ := by
  intro files world
  have succeeds {run : Run Value} (done : run.result.toOption.isSome = true) : ∃ v, run.result = .ok v := by
    cases result : run.result with
    | error e => rw [result] at done; cases done
    | ok v => exact ⟨v, rfl⟩
  obtain ⟨v, below⟩ : ∃ v, ((world.withDepth 2).compose [⟨"/first"⟩, ⟨"/main"⟩] ⟨"/main"⟩ .empty).result = .ok v :=
    succeeds (by decide +kernel)
  obtain ⟨w, deeper⟩ : ∃ w,
    ((world.withDepth 3).compose [⟨"/first"⟩, ⟨"/second"⟩, ⟨"/main"⟩] ⟨"/main"⟩ .empty).result =
    .ok w := succeeds (by decide +kernel)
  obtain ⟨u, loads⟩ : ∃ u, ((world.withDepth 1).load ⟨"/main"⟩).result = .ok u := succeeds (by decide +kernel)
  refine ⟨(world.compose_withDepth.1 _ _ _ _ _ _ _ _ below deeper).2, ?_⟩
  exact (world.compose_withDepth.2 1 3 ⟨"/main"⟩ (by decide) fun ⟨_, _, _, deep⟩ => nomatch loads.symm.trans deep).1

end World

end ConfigWeave
