import ConfigWeave.Proofs.Compositional.Document
import ConfigWeave.Proofs.Resolution
import ConfigWeave.Session
import Mathlib.Data.List.Induction

namespace ConfigWeave

/-- The same surroundings with other files, none of which has been read before. -/
def World.over (world : World) (files : FileSystem) : World :=
  { world with files, cache := .empty }

/-- What is known of a main document that has been loaded. -/
structure Loaded where
  outcome : Except ComposeError Value
  includes : List Path
  log : WarningLog

def World.loaded (world : World) (main : Path) : Loaded :=
  let (outcome, includes, session) := (Session.ofWorld world).load main
  ⟨outcome, includes, session.log⟩

/-- The documents that a host may have while its files change. It loads the main document at some time, and
keeps what it has while neither that nor a reported file changes. -/
inductive World.Keeps (world : World) (main : Path) : FileSystem → Loaded → Prop
  | loaded (files : FileSystem) : world.Keeps main files ((world.over files).loaded main)
  | kept {before after document} : world.Keeps main before document →
      (∀ path, after.canonical path = before.canonical path) →
      (∀ file, before.canonical main = .ok file → after.read file = before.read file) →
      (∀ file ∈ document.includes, after.read file = before.read file) → world.Keeps main after document

theorem includedFiles_concat (effects : List Effect) (effect : Effect) :
    includedFiles (effects ++ [effect]) =
      match effect with
      | .included file =>
        if (includedFiles effects).any (file == ·) then includedFiles effects else includedFiles effects ++ [file]
      | _ => includedFiles effects := by
  rw [includedFiles, List.foldl_append]
  cases effect <;> rfl

theorem mem_includedFiles_concat {effects : List Effect} {file : Path} (listed : file ∈ includedFiles effects)
    (effect : Effect) : file ∈ includedFiles (effects ++ [effect]) := by
  rw [includedFiles_concat]
  split
  · split
    · exact listed
    · exact List.mem_append_left _ listed
  · exact listed

theorem included_of_mem {effects : List Effect} {file : Path} (listed : file ∈ includedFiles effects) :
    .included file ∈ effects := by
  induction effects using List.reverseRecOn with
  | nil => cases listed
  | append_singleton effects effect ih =>
    rw [includedFiles_concat] at listed
    split at listed
    · split at listed
      · exact List.mem_append_left _ (ih listed)
      · rcases List.mem_append.mp listed with old | last
        · exact List.mem_append_left _ (ih old)
        · rw [List.mem_singleton.mp last]
          exact List.mem_append_right _ (List.mem_singleton_self _)
    · exact List.mem_append_left _ (ih listed)

/-- Of the files that are included under equal paths one is reported. -/
theorem exists_mem_includedFiles {effects : List Effect} {file : Path} (member : .included file ∈ effects) :
    ∃ reported ∈ includedFiles effects, (file == reported) = true := by
  induction effects using List.reverseRecOn with
  | nil => cases member
  | append_singleton effects effect ih =>
    rcases List.mem_append.mp member with earlier | last
    · obtain ⟨reported, listed, equal⟩ := ih earlier
      exact ⟨reported, mem_includedFiles_concat listed effect, equal⟩
    · cases List.mem_singleton.mp last
      by_cases known : (includedFiles effects).any (file == ·) = true
      · obtain ⟨reported, listed, equal⟩ := List.any_eq_true.mp known
        exact ⟨reported, mem_includedFiles_concat listed _, equal⟩
      · refine ⟨file, ?_, Path.beq_iff.mpr ⟨rfl, rfl⟩⟩
        simp only [includedFiles_concat, if_neg known]
        exact List.mem_append_right _ (List.mem_singleton_self file)

/-- The log depends on what has been warned about alone. -/
theorem Session.log_foldl_record {a b : Session} (same : a.log = b.log) (effects : List Effect) :
    (effects.foldl record a).log = (effects.foldl record b).log := by
  induction effects generalizing a b with
  | nil => exact same
  | cons effect rest ih =>
    refine ih ?_
    cases effect with
    | warned file message => simp only [record, same]
    | opened path => exact same
    | included path => exact same

/-- Whatever a run does has a property, as warnings have it. -/
def everywhere (R : Effect → Prop) (warned : ∀ file message, R (.warned file message)) : Compositional Unit where
  Holds x := ∀ effect ∈ (x ()).trace, R effect
  pure _ _ member := by cases member
  warned file messages effect member := by
    obtain ⟨message, _, rfl⟩ := List.mem_map.mp member
    exact warned file message
  fail _ _ member := by cases member
  bind := by
    intro α β x f first later effect member
    dsimp only at later member
    rcases result : (x ()).result with e | a
    · rw [Traced.bind_of_error result] at member
      exact first effect member
    · rw [Traced.bind_of_ok result] at member
      exact (List.mem_append.mp member).elim (first effect) (later a effect)

/-- Runs that come out the same on the files of later, if those are as before that the first run includes. -/
def tracked (files : Bool → FileSystem) : Compositional Bool where
  Holds x := (∀ file, .included file ∈ (x false).trace → (files true).read file = (files false).read file) →
    x true = x false
  pure _ _ := rfl
  warned _ _ _ := rfl
  fail _ _ := rfl
  bind := by
    intro α β x f first later same
    dsimp only at later same ⊢
    rcases result : (x false).result with e | a
    · rw [Traced.bind_of_error result] at same ⊢
      rw [first same, Traced.bind_of_error result]
    · rw [Traced.bind_of_ok result] at same ⊢
      have start : x true = x false := first fun file member => same file (List.mem_append_left _ member)
      have rest : f true a = f false a := later a fun file member => same file (List.mem_append_right _ member)
      rw [start, Traced.bind_of_ok result, rest]

namespace World

open Compositional

/-- A composition only opens and includes files that paths lead to. -/
theorem everywhere_composeWith (world : World) {R : Effect → Prop}
    (warned : ∀ file message, R (.warned file message))
    (reached : ∀ path file, world.files.canonical path = .ok file → R (.opened file) ∧ R (.included file))
    (budget : Nat) (stack : List Path) {file : Path} (inherited : Scope) (opened : R (.opened file)) :
    (everywhere R warned).Holds fun _ => world.composeWith (world.nested budget) stack file inherited := by
  have worlds : Worlds fun _ : Unit => world := .same world
  refine worlds.nested (Q := fun _ file => R (.opened file)) ?_ ?_ budget inherited opened
  · intro stack file opened effect member
    rw [world.trace_readText file] at member
    exact List.mem_singleton.mp member ▸ opened
  · intro stack file target rest _ ⟨path, found⟩ _ holds effect member
    obtain ⟨opened, included⟩ := reached path target (found ())
    rcases List.mem_append.mp member with first | later
    · exact List.mem_singleton.mp first ▸ included
    · exact holds opened effect later

theorem forall_mem_trace (world : World) (main : Path) {R : Effect → Prop}
    (warned : ∀ file message, R (.warned file message))
    (reached : ∀ path file, world.files.canonical path = .ok file → R (.opened file) ∧ R (.included file)) :
    ∀ effect ∈ (world.load main).trace, R effect := by
  intro effect member
  unfold load at member
  split at member
  · cases member
  · rename_i file found
    have opened := (reached main file found).1
    have composed := world.everywhere_composeWith warned reached world.settings.maxDepth [file] .empty opened
    exact ((everywhere R warned).bind composed fun _ => (everywhere R warned).pure _) effect member

theorem isNormal_of_included (world : World) {main file : Path}
    (member : .included file ∈ (world.load main).trace) :
    file.IsNormal := by
  let R : Effect → Prop
    | .included file => file.IsNormal
    | _ => True
  have normal := world.forall_mem_trace main (R := R) (fun _ _ => trivial) fun path file found =>
    ⟨trivial, FileSystem.isNormal_of_canonical found⟩
  exact normal _ member

/-- Of equal paths only the first is reported. Included paths are normal, and of these no two are equal. -/
theorem mem_includedFiles_load {world : World} {main file : Path} :
    file ∈ includedFiles (world.load main).trace ↔ .included file ∈ (world.load main).trace := by
  refine ⟨included_of_mem, fun member => ?_⟩
  obtain ⟨reported, listed, equal⟩ := exists_mem_includedFiles member
  have normal := world.isNormal_of_included (included_of_mem listed)
  obtain rfl : file = reported := (world.isNormal_of_included member).eq_of_beq normal equal
  exact listed

theorem over_readText (world : World) {files : Bool → FileSystem} {file : Path}
    (same : (files true).read file = (files false).read file) :
    (world.over (files true)).readText file = (world.over (files false)).readText file := by
  simp only [readText, World.over, FileCache.fetch_empty, same]

/-- What a file includes is reported before it is read, so it is the same if all is that is reported. -/
theorem tracked_nested (world : World) (files : Bool → FileSystem)
    (alike : ∀ path, (files true).canonical path = (files false).canonical path) (budget : Nat) (stack : List Path)
    {file : Path} (inherited : Scope) (same : (files true).read file = (files false).read file) :
    (tracked files).Holds fun i => (world.over (files i)).composeWith ((world.over (files i)).nested budget)
      stack file inherited := by
  have worlds : Worlds fun i => world.over (files i) := by
    refine ⟨⟨_, fun _ => rfl⟩, ⟨_, fun _ => rfl⟩, fun path => ⟨(files false).canonical path, fun i => ?_⟩⟩
    cases i with
    | false => rfl
    | true => exact alike path
  refine worlds.nested (Q := fun _ file => (files true).read file = (files false).read file) ?_ ?_ budget
    inherited same
  · intro stack file same _
    exact world.over_readText same
  · intro stack file target rest _ _ _ holds reported
    -- The report comes before the read, so the trace of the first run settles what the second one reads.
    have sameTarget := reported target (by simp [Traced.report])
    have sameRest : rest true = rest false := holds sameTarget fun other member => reported other (by
      exact List.mem_append_right _ member)
    simp only [sameRest]

/-- The run of a main document depends on the file itself and on those that it includes. -/
theorem load_over {world : World} {main : Path} {before after : FileSystem}
    (alike : ∀ path, after.canonical path = before.canonical path)
    (sameMain : ∀ file, before.canonical main = .ok file → after.read file = before.read file)
    (same : ∀ file ∈ ((world.over before).loaded main).includes, after.read file = before.read file) :
    (world.over after).load main = (world.over before).load main := by
  let files : Bool → FileSystem := fun i => bif i then after else before
  have sameIncluded (file : Path) (member : .included file ∈ ((world.over before).load main).trace) :
      after.read file = before.read file :=
    same file (mem_includedFiles_load.mpr member)
  simp only [load] at sameIncluded ⊢
  rw [show (world.over after).files.canonical main = (world.over before).files.canonical main from alike main]
  cases found : (world.over before).files.canonical main with
  | error cause => rfl
  | ok file =>
    simp only [found] at sameIncluded ⊢
    have composed := world.tracked_nested files alike world.settings.maxDepth [file] .empty (sameMain file found)
    exact ((tracked files).bind composed fun _ => (tracked files).pure _) sameIncluded

/-- Dependency tracking is sound. A main document comes out the same on other files in which paths lead to the same
places, if it is the same itself and all that it reports are. A host that loads it anew only when one of these
changes has at any time what it would have if it loaded it then. -/
theorem loaded_over (world : World) (main : Path) :
    (∀ before after : FileSystem, (∀ path, after.canonical path = before.canonical path) →
      (∀ file, before.canonical main = .ok file → after.read file = before.read file) →
      (∀ file ∈ ((world.over before).loaded main).includes, after.read file = before.read file) →
      (world.over after).load main = (world.over before).load main ∧
        (world.over after).loaded main = (world.over before).loaded main) ∧
    ∀ files document, world.Keeps main files document → document = (world.over files).loaded main := by
  have again (before after : FileSystem) (alike : ∀ path, after.canonical path = before.canonical path)
      (sameMain : ∀ file, before.canonical main = .ok file → after.read file = before.read file)
      (same : ∀ file ∈ ((world.over before).loaded main).includes, after.read file = before.read file) :
      (world.over after).load main = (world.over before).load main ∧
        (world.over after).loaded main = (world.over before).loaded main := by
    have sameRun := load_over alike sameMain same
    refine ⟨sameRun, ?_⟩
    have sameLog := Session.log_foldl_record (a := Session.ofWorld (world.over after))
      (b := Session.ofWorld (world.over before)) rfl ((world.over before).load main).trace
    simp only [loaded, Session.load]
    rw [show (Session.ofWorld (world.over after)).toWorld.load main = (world.over before).load main from sameRun]
    exact congrArg (Loaded.mk _ _) sameLog
  refine ⟨again, fun files document keeps => ?_⟩
  induction keeps with
  | loaded files => rfl
  | @kept before after document _ alike sameMain same ih =>
    subst ih
    exact ((again before after alike sameMain same).2).symm

end World

/-- A document that includes one of the two files beside it. -/
def besideUnused (text : String) : FileSystem where
  nodes := [(["main"], .file "a: !include used\n".toUTF8.toList (.change 0)),
    (["used"], .file "x: 1\n".toUTF8.toList (.change 1)), (["unused"], .file text.toUTF8.toList (.change 2))]
  working := []
  changes := 3

theorem besideUnused_sameLayout (a b : String) : FileSystem.SameLayout (besideUnused a) (besideUnused b) := by
  refine ⟨rfl, fun place => ?_⟩
  simp only [FileSystem.at?, besideUnused, List.lookup_cons, List.lookup_nil]
  repeat' split
  all_goals rfl

theorem loaded_besideUnused :
    let world : World := ⟨.empty, .empty, [], .ofRoot ⟨"/"⟩⟩
    (world.over (besideUnused "y: 2")).loaded ⟨"/main"⟩ = (world.over (besideUnused "y: 1")).loaded ⟨"/main"⟩ := by
  intro world
  have layout := besideUnused_sameLayout "y: 2" "y: 1"
  refine ((world.loaded_over ⟨"/main"⟩).1 _ _ (FileSystem.canonical_of_sameLayout layout) ?_ ?_).2
  · intro file found
    have known : (besideUnused "y: 1").canonical ⟨"/main"⟩ = .ok ⟨"/main"⟩ := rfl
    cases known.symm.trans found
    rfl
  · decide +kernel

end ConfigWeave
