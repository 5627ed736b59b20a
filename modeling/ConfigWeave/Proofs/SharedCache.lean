import ConfigWeave.Proofs.Dependency

namespace ConfigWeave

/-- Loads and changes of files in turn, with one cache for all loads. Of the file systems before the current one the
latest comes first. -/
inductive Interleaved (permits : List FileSystem → FileSystem → Prop) :
    List FileSystem → FileSystem → FileCache → Prop
  | start (files : FileSystem) : Interleaved permits [] files .empty
  | changed {past current after cache} : Interleaved permits past current cache → permits (current :: past) after →
      Interleaved permits (current :: past) after cache
  | loaded {past} (session : Session) (main : Path) : Interleaved permits past session.files session.cache →
      Interleaved permits past session.files (session.load main).2.2.cache

/-- A file with contents that it did not have just before has a time that it never had before. -/
def RenewsTimes (earlier : List FileSystem) (after : FileSystem) : Prop :=
  ∀ place bytes modified, after.at? place = some (.file bytes modified) →
    (∀ current ∈ earlier.head?, ∀ time, current.at? place ≠ some (.file bytes time)) →
    ∀ before ∈ earlier, ∀ old, before.at? place ≠ some (.file old modified)

/-- No place gets a time that a file with other contents had there. -/
def KeepsTimes (earlier : List FileSystem) (after : FileSystem) : Prop :=
  ∀ place, ∀ before ∈ earlier, ∀ old modified, before.at? place = some (.file old modified) →
    (∀ bytes, after.at? place = some (.file bytes modified) → bytes = old) ∧
      after.at? place ≠ some (.directory modified)

namespace FileCache

/-- What is kept was read from the file at its place, at some time in the past. -/
def Faithful (cache : FileCache) (history : List FileSystem) : Prop :=
  ∀ entry ∈ cache.entries, ∃ place : Place, place.IsNormal ∧ entry.1 = place.path ∧
    ∃ files ∈ history, files.at? place = some (.file entry.2.bytes entry.2.modified)

/-- A file that can be read, but whose contents at its last change are not kept. -/
def Misses (cache : FileCache) (files : FileSystem) (file : Path) : Prop :=
  (∃ bytes, files.read file = .ok bytes) ∧ ∀ modified, files.modified file = .ok modified →
    cache.get? file modified = none

theorem exists_of_get? {cache : FileCache} {path : Path} {modified : Moment} {bytes : List UInt8}
    (found : cache.get? path modified = some bytes) :
    ∃ entry ∈ cache.entries, (path == entry.1) = true ∧ entry.2 = ⟨bytes, modified⟩ := by
  unfold get? at found
  split at found
  · rename_i key entry first
    split at found
    · rename_i same
      cases found
      exact ⟨_, List.mem_of_find?_eq_some first, by simpa using List.find?_some first, by rw [← same]⟩
    · cases found
  · cases found

theorem get?_insert {cache : FileCache} {path other : Path} {entry : CacheEntry} (modified : Moment) :
    (cache.insert path entry).get? other modified =
      if other == path then if entry.modified = modified then some entry.bytes else none
      else cache.get? other modified := by
  by_cases same : (other == path) = true
  · simp only [get?, insert, List.find?_cons, same, if_true]
  · have kept (key : Path) : (!(path == key) && (other == key)) = (other == key) := by
      by_cases found : (other == key) = true
      · have differs : (path == key) = false :=
          Bool.eq_false_iff.mpr fun equal => same (PartialEquivBEq.trans found (BEq.symm equal))
        rw [differs, Bool.not_false, Bool.true_and]
      · rw [Bool.not_eq_true] at found
        rw [found, Bool.and_false]
    rw [Bool.not_eq_true] at same
    simp only [get?, insert, List.find?_cons, same, List.find?_filter, Bool.decide_and, Bool.decide_eq_true, kept]
    rfl

theorem fetch_snd_of_error {cache : FileCache} {files : FileSystem} {path : Path} {cause : FileError}
    (failed : (cache.fetch files path).1 = .error cause) : (cache.fetch files path).2 = cache := by
  unfold fetch at failed ⊢
  cases time : files.modified path with
  | error e => rfl
  | ok modified =>
    simp only [time] at failed ⊢
    cases kept : cache.get? path modified with
    | some bytes => rfl
    | none =>
      simp only [kept] at failed ⊢
      cases found : files.read path with
      | error e => rfl
      | ok bytes =>
        simp only [found] at failed
        cases failed

theorem fetch_snd_of_not_misses {cache : FileCache} {files : FileSystem} {path : Path}
    (has : ¬ cache.Misses files path) : (cache.fetch files path).2 = cache := by
  unfold fetch
  cases time : files.modified path with
  | error e => rfl
  | ok modified =>
    cases kept : cache.get? path modified with
    | some bytes => simp only [kept]
    | none =>
      cases found : files.read path with
      | error e => simp only [kept]
      | ok bytes =>
        refine absurd ⟨⟨bytes, found⟩, fun other same => ?_⟩ has
        cases time.symm.trans same
        exact kept

end FileCache

namespace FileSystem

variable {files : FileSystem} {place : Place}

theorem read_path (located : files.Located place) : files.read place.path =
    match files.at? place with
    | some (.file bytes _) => .ok bytes
    | _ => .error .isDirectory := by
  rw [read, resolve_path_of_located located]
  rfl

theorem modified_path (located : files.Located place) : files.modified place.path =
    match files.at? place with
    | some (.file _ modified) | some (.directory modified) => .ok modified
    | _ => .error .notFound := by
  rw [modified, resolve_path_of_located located]
  rfl

theorem exists_of_canonical {path file : Path} (leads : files.canonical path = .ok file) :
    ∃ place, files.Located place ∧ file = place.path := by
  unfold canonical at leads
  cases resolved : files.resolve path with
  | error e => simp [resolved, Except.map] at leads
  | ok place =>
    simp only [resolved, Except.map, Except.ok.injEq] at leads
    exact ⟨place, located_of_resolve resolved, leads.symm⟩

end FileSystem

theorem Place.eq_of_path_beq {place other : Place} (normal : place.IsNormal) (otherNormal : other.IsNormal)
    (equal : (place.path == other.path) = true) : place = other := by
  rw [← Place.names_path normal, ← Place.names_path otherNormal]
  exact (Path.beq_iff.mp equal).2

namespace FileCache

variable {cache : FileCache} {files : FileSystem} {past : List FileSystem} {place : Place}

/-- A file that is missed is read from disk and kept. -/
theorem fetch_snd_of_misses (located : files.Located place) (misses : cache.Misses files place.path) :
    ∃ bytes modified, files.at? place = some (.file bytes modified) ∧ (cache.fetch files place.path).2 =
      { cache.insert place.path ⟨bytes, modified⟩ with diskReads := cache.diskReads + 1 } := by
  obtain ⟨⟨bytes, found⟩, absent⟩ := misses
  have reads := FileSystem.read_path located
  have time := FileSystem.modified_path located
  split at reads
  · rename_i bytes modified here
    rw [here] at time
    refine ⟨bytes, modified, here, ?_⟩
    simp only [fetch, time, absent modified time, reads]
  · cases found.symm.trans reads

theorem Faithful.fetch (faithful : cache.Faithful (files :: past)) (located : files.Located place) :
    (cache.fetch files place.path).2.Faithful (files :: past) := by
  by_cases misses : cache.Misses files place.path
  · obtain ⟨bytes, modified, here, fetched⟩ := fetch_snd_of_misses located misses
    rw [fetched]
    refine List.forall_mem_cons.mpr ⟨?_, fun entry member => faithful entry (List.mem_filter.mp member).1⟩
    exact ⟨place, located.holds.1, rfl, files, List.mem_cons_self, here⟩
  · rw [fetch_snd_of_not_misses misses]
    exact faithful

/-- What is kept for a file at its last change is what the file contains. -/
theorem Faithful.fetch_fst (faithful : cache.Faithful (files :: past)) (keeps : KeepsTimes past files)
    (located : files.Located place) : (cache.fetch files place.path).1 = files.read place.path := by
  have kept {bytes : List UInt8} {modified : Moment} (found : cache.get? place.path modified = some bytes) :
      ∃ before ∈ files :: past, before.at? place = some (.file bytes modified) := by
    obtain ⟨⟨key, entry⟩, member, same, rfl⟩ := exists_of_get? found
    obtain ⟨other, normal, rfl, before, among, there⟩ := faithful _ member
    exact ⟨before, among, Place.eq_of_path_beq located.holds.1 normal same ▸ there⟩
  have reads := FileSystem.read_path located
  have time := FileSystem.modified_path located
  unfold FileCache.fetch
  obtain ⟨bytes, modified, here⟩ | ⟨modified, here⟩ := located.holds.2
  · rw [here] at reads time
    simp only [time]
    cases found : cache.get? place.path modified with
    | none => simp only [reads]
    | some old =>
      obtain ⟨before, among, there⟩ := kept found
      rcases List.mem_cons.mp among with rfl | earlier
      · cases here.symm.trans there
        exact reads.symm
      · rw [reads, (keeps place before earlier old modified there).1 bytes here]
  · rw [here] at reads time
    simp only [time]
    cases found : cache.get? place.path modified with
    | none => simp only [reads]
    | some old =>
      obtain ⟨before, among, there⟩ := kept found
      rcases List.mem_cons.mp among with rfl | earlier
      · cases here.symm.trans there
      · exact absurd here (keeps place before earlier old modified there).2

/-- A file that has been read is missed no more, and what is missed besides stays the same. -/
theorem misses_insert {bytes : List UInt8} {modified : Moment} (located : files.Located place)
    (here : files.at? place = some (.file bytes modified)) {other : Place} (otherLocated : files.Located other)
    (diskReads : Nat) :
    Misses { cache.insert place.path ⟨bytes, modified⟩ with diskReads } files other.path ↔
      other.path ≠ place.path ∧ cache.Misses files other.path := by
  by_cases same : (other.path == place.path) = true
  · obtain rfl := Place.eq_of_path_beq otherLocated.holds.1 located.holds.1 same
    have time := FileSystem.modified_path located
    rw [here] at time
    refine ⟨fun misses => ?_, fun misses => absurd rfl misses.1⟩
    have kept : (cache.insert other.path ⟨bytes, modified⟩).get? other.path modified = none :=
      misses.2 modified time
    rw [get?_insert, if_pos same, if_pos rfl] at kept
    cases kept
  · have apart : other.path ≠ place.path := fun equal => same (equal ▸ Path.beq_iff.mpr ⟨rfl, rfl⟩)
    have unchanged (time : Moment) : (cache.insert place.path ⟨bytes, modified⟩).get? other.path time =
        cache.get? other.path time := by
      rw [get?_insert, if_neg same]
    constructor
    · rintro ⟨reads, absent⟩
      exact ⟨apart, reads, fun time found => (unchanged time).symm.trans (absent time found)⟩
    · rintro ⟨_, reads, absent⟩
      exact ⟨reads, fun time found => (unchanged time).trans (absent time found)⟩

/-- The cache behind the reads of files one after the other. -/
def fetchAll (cache : FileCache) (files : FileSystem) (opened : List Path) : FileCache :=
  opened.foldl (fun cache file => (cache.fetch files file).2) cache

/-- What a file is read as depends on what is kept for it, and on nothing else in the cache. -/
theorem fetch_fst_congr {other : FileCache} {path : Path}
    (same : ∀ modified, other.get? path modified = cache.get? path modified) :
    (other.fetch files path).1 = (cache.fetch files path).1 := by
  unfold fetch
  cases files.modified path with
  | error e => rfl
  | ok modified =>
    simp only [same modified]
    cases cache.get? path modified with
    | some bytes => rfl
    | none => cases files.read path <;> rfl

/-- No file is read differently because another one has been read, or it itself. -/
theorem fetch_fst_fetch (located : files.Located place) {other : Place} (otherLocated : files.Located other) :
    ((cache.fetch files other.path).2.fetch files place.path).1 = (cache.fetch files place.path).1 := by
  by_cases misses : cache.Misses files other.path
  · obtain ⟨bytes, modified, here, fetched⟩ := fetch_snd_of_misses otherLocated misses
    rw [fetched]
    by_cases same : (place.path == other.path) = true
    · obtain rfl := Place.eq_of_path_beq located.holds.1 otherLocated.holds.1 same
      have time := FileSystem.modified_path located
      have reads := FileSystem.read_path located
      rw [here] at time reads
      -- It was read from disk then, and is kept as it was read now.
      have absent := misses.2 modified time
      have kept (diskReads : Nat) :
          FileCache.get? { cache.insert place.path ⟨bytes, modified⟩ with diskReads } place.path modified =
            some bytes := by
        refine (get?_insert modified).trans ?_
        rw [if_pos same, if_pos rfl]
      simp only [FileCache.fetch, time, absent, reads, kept]
    · refine fetch_fst_congr fun time => ?_
      exact (get?_insert time).trans (if_neg same)
  · rw [fetch_snd_of_not_misses misses]

theorem fetch_fst_fetchAll (located : files.Located place) {opened : List Path}
    (each : ∀ file ∈ opened, ∃ other, files.Located other ∧ file = other.path) :
    ((cache.fetchAll files opened).fetch files place.path).1 = (cache.fetch files place.path).1 := by
  induction opened generalizing cache with
  | nil => rfl
  | cons file rest ih =>
    obtain ⟨⟨other, here, rfl⟩, later⟩ := List.forall_mem_cons.mp each
    exact (ih later).trans (fetch_fst_fetch located here)

theorem Faithful.fetchAll {opened : List Path} (faithful : cache.Faithful (files :: past))
    (located : ∀ file ∈ opened, ∃ place, files.Located place ∧ file = place.path) :
    (cache.fetchAll files opened).Faithful (files :: past) := by
  induction opened generalizing cache with
  | nil => exact faithful
  | cons file rest ih =>
    obtain ⟨⟨place, here, rfl⟩, later⟩ := List.forall_mem_cons.mp located
    exact ih (faithful.fetch here) later

/-- The counter grows by the number of files that were missed when they were first opened. -/
theorem exists_reads (cache : FileCache) {opened : List Path}
    (located : ∀ file ∈ opened, ∃ place, files.Located place ∧ file = place.path) :
    ∃ reads : List Path, reads.Nodup ∧ (∀ file, file ∈ reads ↔ file ∈ opened ∧ cache.Misses files file) ∧
      (cache.fetchAll files opened).diskReads = cache.diskReads + reads.length := by
  induction opened generalizing cache with
  | nil => exact ⟨[], List.nodup_nil, by simp, rfl⟩
  | cons file rest ih =>
    obtain ⟨⟨place, here, rfl⟩, later⟩ := List.forall_mem_cons.mp located
    by_cases misses : cache.Misses files place.path
    · obtain ⟨bytes, modified, contents, fetched⟩ := fetch_snd_of_misses here misses
      obtain ⟨reads, distinct, listed, counted⟩ := ih (cache.fetch files place.path).2 later
      have listedBefore (other : Path) : other ∈ reads ↔
          other ∈ rest ∧ other ≠ place.path ∧ cache.Misses files other := by
        rw [listed other]
        refine and_congr_right fun member => ?_
        obtain ⟨there, otherLocated, rfl⟩ := later other member
        rw [fetched]
        exact misses_insert here contents otherLocated _
      refine ⟨place.path :: reads, List.nodup_cons.mpr ⟨fun member => ?_, distinct⟩, fun other => ?_, ?_⟩
      · exact ((listedBefore place.path).mp member).2.1 rfl
      · rw [List.mem_cons, List.mem_cons, listedBefore other]
        by_cases same : other = place.path
        · simp [same, misses]
        · simp [same]
      · have grown : (cache.fetch files place.path).2.diskReads = cache.diskReads + 1 := by rw [fetched]
        rw [fetchAll, List.foldl_cons, ← fetchAll, counted, grown, List.length_cons]
        omega
    · obtain ⟨reads, distinct, listed, counted⟩ := ih cache later
      have unchanged := fetch_snd_of_not_misses misses
      refine ⟨reads, distinct, fun other => ?_, by rw [fetchAll, List.foldl_cons, unchanged, ← fetchAll, counted]⟩
      rw [listed other, List.mem_cons]
      by_cases same : other = place.path
      · simp [same, misses]
      · simp [same]

end FileCache

/-- The file that an effect opens. -/
def Effect.opened? : Effect → Option Path
  | .opened file => some file
  | _ => none

/-- What is found in elements of one kind stands in those that are of that kind with it. -/
theorem mem_filterMap_of_eq_some_iff {α β : Type} {f : α → Option β} {g : β → α}
    (kind : ∀ a b, f a = some b ↔ a = g b) {items : List α} {b : β} : b ∈ items.filterMap f ↔ g b ∈ items := by
  rw [List.mem_filterMap]
  constructor
  · rintro ⟨a, member, found⟩
    exact (kind a b).mp found ▸ member
  · exact fun member => ⟨g b, member, (kind (g b) b).mpr rfl⟩

theorem mem_filterMap_opened? {trace : List Effect} {file : Path} :
    file ∈ trace.filterMap Effect.opened? ↔ .opened file ∈ trace :=
  mem_filterMap_of_eq_some_iff fun effect _ => by cases effect <;> simp [Effect.opened?]

/-- Effects leave the world as it is, apart from the cache. -/
theorem Session.toWorld_foldl_record (session : Session) (effects : List Effect) :
    (effects.foldl record session).toWorld =
      { session.toWorld with cache :=
        session.cache.fetchAll session.files (effects.filterMap Effect.opened?) } := by
  induction effects generalizing session with
  | nil => rfl
  | cons effect rest ih =>
    rw [List.foldl_cons, ih]
    cases effect <;> rfl

theorem Session.cache_foldl_record (session : Session) (trace : List Effect) :
    (trace.foldl record session).cache = session.cache.fetchAll session.files (trace.filterMap Effect.opened?) :=
  congrArg World.cache (session.toWorld_foldl_record trace)

namespace World

open Compositional

/-- The same surroundings with one of two caches. -/
def either (world : World) (cache : FileCache) (i : Bool) : World :=
  { world with cache := bif i then world.cache else cache }

theorem worlds_either (world : World) (cache : FileCache) : Worlds (world.either cache) :=
  ⟨⟨_, fun _ => rfl⟩, ⟨_, fun _ => rfl⟩, fun path => ⟨world.files.canonical path, fun _ => rfl⟩⟩

/-- A composition depends on what it reads, not on where that comes from. -/
theorem composeWith_of_sameReads (world : World) (cache : FileCache)
    (same : ∀ place, world.files.Located place →
      (world.cache.fetch world.files place.path).1 = (cache.fetch world.files place.path).1)
    (budget : Nat) (stack : List Path) {file : Path} (inherited : Scope)
    (start : ∃ place, world.files.Located place ∧ file = place.path) :
    agreeing.Holds fun i =>
      (world.either cache i).composeWith ((world.either cache i).nested budget) stack file inherited := by
  refine (world.worlds_either cache).nested
    (Q := fun _ file => ∃ place, world.files.Located place ∧ file = place.path) ?_ ?_ budget inherited start
  · rintro stack _ ⟨place, located, rfl⟩
    show (world.either cache true).readText place.path = (world.either cache false).readText place.path
    have fetched : ((world.either cache true).cache.fetch (world.either cache true).files place.path).1 =
        ((world.either cache false).cache.fetch (world.either cache false).files place.path).1 := same place located
    simp only [readText, fetched]
  · rintro stack file target rest _ ⟨path, found⟩ _ holds
    have sameRest : rest true = rest false := holds (FileSystem.exists_of_canonical (found true))
    show (do Traced.report (Effect.included target); rest true) =
      (do Traced.report (Effect.included target); rest false)
    rw [sameRest]

theorem load_of_sameReads (world : World) (cache : FileCache) (main : Path)
    (same : ∀ place, world.files.Located place →
      (world.cache.fetch world.files place.path).1 = (cache.fetch world.files place.path).1) :
    world.load main = { world with cache }.load main := by
  unfold load
  cases found : world.files.canonical main with
  | error cause => rfl
  | ok file =>
    have run := world.composeWith_of_sameReads cache same world.settings.maxDepth [file] .empty
      (FileSystem.exists_of_canonical found)
    exact congrArg (fun composed : Run Value => do return (← composed).finished) run

theorem located_of_opened {world : World} {main file : Path} (member : .opened file ∈ (world.load main).trace) :
    ∃ place, world.files.Located place ∧ file = place.path := by
  let R : Effect → Prop
    | .opened file => ∃ place, world.files.Located place ∧ file = place.path
    | _ => True
  have located := world.forall_mem_trace main (R := R) (fun _ _ => trivial) fun path file found =>
    ⟨FileSystem.exists_of_canonical found, trivial⟩
  exact located _ member

end World

namespace Session

theorem located_of_mem (session : Session) (main : Path) :
    ∀ file ∈ (session.toWorld.load main).trace.filterMap Effect.opened?,
      ∃ place, session.files.Located place ∧ file = place.path :=
  fun _ member => World.located_of_opened (mem_filterMap_opened?.mp member)

end Session

/-- All that the cache holds at any time was read at some time, and can still be told from what has changed. -/
theorem Interleaved.faithful {past : List FileSystem} {current : FileSystem} {cache : FileCache}
    (run : Interleaved KeepsTimes past current cache) :
    KeepsTimes past current ∧ cache.Faithful (current :: past) := by
  induction run with
  | start files => exact ⟨fun _ _ member => absurd member List.not_mem_nil, nofun⟩
  | @changed past current after cache _ permitted ih =>
    refine ⟨permitted, fun entry member => ?_⟩
    obtain ⟨place, normal, same, before, among, there⟩ := ih.2 entry member
    exact ⟨place, normal, same, before, List.mem_cons_of_mem _ among, there⟩
  | loaded session main _ ih =>
    refine ⟨ih.1, ?_⟩
    simp only [Session.load, Session.cache_foldl_record]
    exact ih.2.fetchAll (session.located_of_mem main)

/-- A shared cache cannot be told from an empty one, as long as no change gives a place a time that a file with
other contents had there. Every load comes out as it would with an empty cache, with the same warnings and reports,
and reads from disk the files that can be read and are not kept with their current time, each once. What cannot be
read changes nothing. -/
theorem Session.load_interleaved {past : List FileSystem} {session : Session}
    (run : Interleaved KeepsTimes past session.files session.cache) (main : Path) :
    ((session.load main).1 = ({ session with cache := .empty }.load main).1 ∧
      (session.load main).2.1 = ({ session with cache := .empty }.load main).2.1 ∧
      (session.load main).2.2.log = ({ session with cache := .empty }.load main).2.2.log) ∧
    (∃ reads : List Path, reads.Nodup ∧
      (∀ file, file ∈ reads ↔
        .opened file ∈ (session.toWorld.load main).trace ∧ session.cache.Misses session.files file) ∧
      (session.load main).2.2.cache.diskReads = session.cache.diskReads + reads.length) ∧
    ∀ (cache : FileCache) (file : Path) (cause : FileError),
      (cache.fetch session.files file).1 = .error cause → (cache.fetch session.files file).2 = cache := by
  obtain ⟨keeps, faithful⟩ := run.faithful
  refine ⟨?_, ?_, fun _ _ _ => FileCache.fetch_snd_of_error⟩
  · let alone : Session := { session with cache := .empty }
    have sameRun : session.toWorld.load main = alone.toWorld.load main := by
      refine session.toWorld.load_of_sameReads .empty main fun place located => ?_
      rw [faithful.fetch_fst keeps located, FileCache.fetch_empty]
    have sameLog := log_foldl_record (a := session) (b := alone) rfl (alone.toWorld.load main).trace
    simp only [load, sameRun]
    exact ⟨rfl, rfl, sameLog⟩
  · obtain ⟨reads, distinct, listed, counted⟩ := session.cache.exists_reads (session.located_of_mem main)
    refine ⟨reads, distinct, fun file => (listed file).trans (and_congr_left' mem_filterMap_opened?), ?_⟩
    simp only [load, cache_foldl_record]
    exact counted

/-- A file system with a main document alone, last changed at the given time. -/
def FileSystem.single (text : String) (seconds : Nat) : FileSystem :=
  ⟨[(["main"], .file text.toUTF8.toList (.stated seconds))], [], 1⟩

theorem FileSystem.at?_single {text : String} {seconds : Nat} {place : Place} {bytes : List UInt8}
    {modified : Moment} (found : (single text seconds).at? place = some (.file bytes modified)) :
    place = ["main"] ∧ bytes = text.toUTF8.toList ∧ modified = .stated seconds := by
  cases place with
  | nil => cases found
  | cons name rest =>
    simp only [at?, List.isEmpty_cons, Bool.false_eq_true, if_false, single, List.lookup_cons,
      List.lookup_nil] at found
    split at found
    · rename_i same
      cases found
      exact ⟨eq_of_beq same, rfl, rfl⟩
    · cases found

theorem Session.load_interleaved_renewed :
    let session (text : String) (seconds : Nat) (cache : FileCache) : Session :=
      ⟨⟨.single text seconds, cache, [], .ofRoot ⟨"/"⟩⟩, .empty⟩
    let first := session "a: old\n" 1 .empty
    let second := session "a: new\n" 2 (first.load ⟨"/main"⟩).2.2.cache
    (second.load ⟨"/main"⟩).1 = ({ second with cache := .empty }.load ⟨"/main"⟩).1 ∧
      (second.load ⟨"/main"⟩).2.2.cache.diskReads = 2 := by
  intro session first second
  have keeps : KeepsTimes [first.files] second.files := by
    intro place before among old modified found
    cases List.mem_singleton.mp among
    obtain ⟨rfl, rfl, rfl⟩ := FileSystem.at?_single found
    refine ⟨fun bytes again => ?_, nofun⟩
    obtain ⟨_, _, sameTime⟩ := FileSystem.at?_single again
    cases sameTime
  have run : Interleaved KeepsTimes [first.files] second.files second.cache :=
    .changed (.loaded first ⟨"/main"⟩ (.start first.files)) keeps
  exact ⟨(load_interleaved run ⟨"/main"⟩).1.1, by decide +kernel⟩

/-- A change that gives contents a new time is not enough. If the file is then touched, so that it has the time
again at which it was read with other contents, these come out. -/
theorem Session.load_touchedBack :
    let session (text : String) (seconds : Nat) (cache : FileCache) : Session :=
      ⟨⟨.single text seconds, cache, [], .ofRoot ⟨"/"⟩⟩, .empty⟩
    let first := session "a: old\n" 1 .empty
    let second := session "a: new\n" 1 (first.load ⟨"/main"⟩).2.2.cache
    Interleaved RenewsTimes [.single "a: new\n" 2, first.files] second.files second.cache ∧
      (∃ stale, (second.load ⟨"/main"⟩).1 = .ok stale ∧ stale.get? "a" = some (.str "old")) ∧
      ∃ fresh, ({ second with cache := .empty }.load ⟨"/main"⟩).1 = .ok fresh ∧
        fresh.get? "a" = some (.str "new") := by
  intro session first second
  have renewed : RenewsTimes [first.files] (.single "a: new\n" 2) := by
    intro place bytes modified found _ before among old earlier
    cases List.mem_singleton.mp among
    obtain ⟨_, _, rfl⟩ := FileSystem.at?_single found
    obtain ⟨_, _, sameTime⟩ := FileSystem.at?_single earlier
    cases sameTime
  have touched : RenewsTimes [.single "a: new\n" 2, first.files] second.files := by
    intro place bytes modified found changed
    obtain ⟨rfl, rfl, rfl⟩ := FileSystem.at?_single found
    exact absurd rfl (changed (.single "a: new\n" 2) rfl (.stated 2))
  have has {outcome : Except ComposeError Value} {text : String}
      (seen : (outcome.toOption.bind (·.get? "a")).bind Value.str? = some text) :
      ∃ v, outcome = .ok v ∧ v.get? "a" = some (.str text) := by
    obtain ⟨entry, found, same⟩ := Option.bind_eq_some_iff.mp seen
    obtain ⟨v, loads, under⟩ := Option.bind_eq_some_iff.mp found
    cases outcome with
    | error e => cases loads
    | ok loaded =>
      cases loads
      cases entry with
      | str entry =>
        cases same
        exact ⟨v, rfl, under⟩
      | _ => cases same
  exact ⟨.changed (.changed (.loaded first ⟨"/main"⟩ (.start first.files)) renewed) touched,
    has (by decide +kernel), has (by decide +kernel)⟩

end ConfigWeave
