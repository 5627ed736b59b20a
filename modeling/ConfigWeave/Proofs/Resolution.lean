import ConfigWeave.FileCache

namespace ConfigWeave

theorem Path.beq_iff {a b : Path} : (a == b) = true ↔ a.isAbsolute = b.isAbsolute ∧ a.names = b.names := by
  show (a.isAbsolute == b.isAbsolute && a.names == b.names) = true ↔ _
  rw [Bool.and_eq_true, beq_iff_eq, beq_iff_eq]

instance : EquivBEq Path where
  rfl := Path.beq_iff.mpr ⟨rfl, rfl⟩
  symm equal := by
    obtain ⟨absolute, names⟩ := Path.beq_iff.mp equal
    exact Path.beq_iff.mpr ⟨absolute.symm, names.symm⟩
  trans first second := by
    obtain ⟨absolute, names⟩ := Path.beq_iff.mp first
    obtain ⟨otherAbsolute, otherNames⟩ := Path.beq_iff.mp second
    exact Path.beq_iff.mpr ⟨absolute.trans otherAbsolute, names.trans otherNames⟩

theorem separator_not_mem_splitOn {text piece : List Char} (member : piece ∈ text.splitOn '/') : '/' ∉ piece := by
  induction text generalizing piece with
  | nil =>
    rw [List.splitOn_nil, List.mem_singleton] at member
    simp [member]
  | cons c rest ih =>
    rw [List.splitOn_cons_eq_if_modifyHead] at member
    split at member
    · rcases List.mem_cons.mp member with rfl | later
      · simp
      · exact ih later
    · rename_i other
      cases pieces : rest.splitOn '/' with
      | nil => exact absurd pieces (List.splitOn_ne_nil _ _)
      | cons first others =>
        rw [pieces, List.modifyHead_cons] at member
        rcases List.mem_cons.mp member with rfl | later
        · have free := ih (pieces ▸ List.mem_cons_self)
          rw [List.mem_cons, not_or]
          exact ⟨fun equal => other (beq_iff_eq.mpr equal.symm), free⟩
        · exact ih (pieces ▸ List.mem_cons_of_mem _ later)

theorem Path.separator_not_mem {path : Path} {segment : String} (member : segment ∈ path.segments) :
    '/' ∉ segment.toList := by
  obtain ⟨piece, found, rfl⟩ := List.mem_map.mp member
  rw [String.toList_ofList]
  exact separator_not_mem_splitOn found

/-- Names as the entries of directories have them. -/
def Place.IsNormal (place : Place) : Prop :=
  ∀ name ∈ place, name ≠ "" ∧ name ≠ "." ∧ name ≠ ".." ∧ '/' ∉ name.toList

theorem Place.segments_path {place : Place} (normal : place.IsNormal) :
    place.path.segments = "" :: if place.isEmpty then [""] else place := by
  have text : place.path.text.toList = '/' :: ['/'].intercalate (place.map String.toList) := by
    simp [Place.path, String.toList_intercalate]
  rw [Path.segments, text, List.splitOn_cons_eq_if_modifyHead, if_pos (by simp)]
  cases place with
  | nil => rfl
  | cons name rest =>
    rw [List.splitOn_intercalate]
    · simp
    · intro piece member
      obtain ⟨other, found, rfl⟩ := List.mem_map.mp member
      exact (normal other found).2.2.2
    · simp

theorem Place.names_path {place : Place} (normal : place.IsNormal) : place.path.names = place := by
  simp only [Path.names, segments_path normal]
  cases place with
  | nil => rfl
  | cons name rest =>
    have kept : (name :: rest).filter (Path.isName false) = name :: rest := by
      refine List.filter_eq_self.mpr fun other member => ?_
      obtain ⟨present, noDot, _⟩ := normal other member
      simp [Path.isName, present, noDot]
    simpa [Path.isName] using kept

/-- A path that is written without dots and needless separators. -/
def Path.IsNormal (path : Path) : Prop :=
  ∃ place : Place, place.IsNormal ∧ path = place.path

theorem Path.IsNormal.eq_of_beq {a b : Path} (first : a.IsNormal) (second : b.IsNormal) (equal : (a == b) = true) :
    a = b := by
  obtain ⟨place, normal, rfl⟩ := first
  obtain ⟨other, otherNormal, rfl⟩ := second
  have names := (beq_iff.mp equal).2
  rw [Place.names_path normal, Place.names_path otherNormal] at names
  rw [names]

/-- What kind of node it is, and where it leads to if it is a link. -/
def FileNode.kind : FileNode → FileNode
  | .file .. => .file [] (.change 0)
  | .directory _ => .directory (.change 0)
  | .link target => .link target

namespace FileSystem

/-- A place whose way down from the root leads through directories alone, to a directory. -/
def IsDirectory (fs : FileSystem) (place : Place) : Prop :=
  place.IsNormal ∧ ∀ up, up <+: place → ∃ modified, fs.at? up = some (.directory modified)

/-- A place where there is a file or a directory. -/
def Holds (fs : FileSystem) (place : Place) : Prop :=
  place.IsNormal ∧ ((∃ bytes modified, fs.at? place = some (.file bytes modified)) ∨
    ∃ modified, fs.at? place = some (.directory modified))

theorem isDirectory_root (fs : FileSystem) : fs.IsDirectory [] := by
  refine ⟨by simp [Place.IsNormal], fun up above => ?_⟩
  rw [List.prefix_nil.mp above]
  exact ⟨_, rfl⟩

theorem IsDirectory.holds {fs : FileSystem} {place : Place} (directory : fs.IsDirectory place) : fs.Holds place :=
  ⟨directory.1, .inr (directory.2 place (List.prefix_refl place))⟩

theorem IsDirectory.up {fs : FileSystem} {place : Place} (directory : fs.IsDirectory place) :
    fs.IsDirectory place.dropLast :=
  ⟨fun name member => directory.1 name ((List.dropLast_subset place) member),
    fun up above => directory.2 up (above.trans (List.dropLast_prefix place))⟩

theorem IsDirectory.normal_append {fs : FileSystem} {place : Place} (directory : fs.IsDirectory place)
    {name : String} (proper : name ≠ "" ∧ name ≠ "." ∧ name ≠ ".." ∧ '/' ∉ name.toList) :
    Place.IsNormal (place ++ [name]) := by
  intro other member
  rcases List.mem_append.mp member with old | last
  · exact directory.1 other old
  · rwa [List.mem_singleton.mp last]

theorem IsDirectory.down {fs : FileSystem} {place : Place} (directory : fs.IsDirectory place) {name : String}
    (proper : name ≠ "" ∧ name ≠ "." ∧ name ≠ ".." ∧ '/' ∉ name.toList) {modified : Moment}
    (found : fs.at? (place ++ [name]) = some (.directory modified)) : fs.IsDirectory (place ++ [name]) := by
  refine ⟨directory.normal_append proper, fun up above => ?_⟩
  rcases List.prefix_concat_iff.mp above with rfl | shorter
  · exact ⟨modified, found⟩
  · exact directory.2 up shorter

/-- A place that is had by going down from the root through directories, to a directory or a file. -/
def Located (fs : FileSystem) (place : Place) : Prop :=
  fs.IsDirectory place ∨ ∃ here name, place = here ++ [name] ∧ fs.IsDirectory here ∧
    Place.IsNormal (here ++ [name]) ∧
    ∃ bytes modified, fs.at? (here ++ [name]) = some (.file bytes modified)

theorem Located.holds {fs : FileSystem} {place : Place} (located : fs.Located place) : fs.Holds place := by
  rcases located with directory | ⟨here, name, rfl, _, normal, contents⟩
  · exact directory.holds
  · exact ⟨normal, .inl contents⟩

/-- The walk through directories that are there ends at a file or a directory, as far as links lead to them. -/
theorem walk_located {fs after : FileSystem} {follow : FileSystem → Place → List String → Reached}
    {missing : OnMissing} (never : ∀ place last, missing fs place last = .error .notFound)
    (linked : ∀ {here segments place after}, fs.IsDirectory here → (∀ segment ∈ segments, '/' ∉ segment.toList) →
      follow fs here segments = .ok (place, after) → fs.Located place)
    {segments : List String} {here place : Place} (start : fs.IsDirectory here)
    (single : ∀ segment ∈ segments, '/' ∉ segment.toList)
    (reached : walk missing follow fs here segments = .ok (place, after)) : fs.Located place := by
  induction segments generalizing here with
  | nil =>
    simp only [walk, Except.ok.injEq, Prod.mk.injEq] at reached
    exact .inl (reached.1 ▸ start)
  | cons segment rest ih =>
    have restSingle : ∀ other ∈ rest, '/' ∉ other.toList := fun other member =>
      single other (List.mem_cons_of_mem _ member)
    simp only [walk, Bool.or_eq_true, beq_iff_eq] at reached
    by_cases stays : segment = "" ∨ segment = "."
    · rw [if_pos stays] at reached
      exact ih start restSingle reached
    · rw [if_neg stays] at reached
      by_cases rises : segment = ".."
      · rw [if_pos rises] at reached
        exact ih start.up restSingle reached
      · rw [if_neg rises] at reached
        have proper : segment ≠ "" ∧ segment ≠ "." ∧ segment ≠ ".." ∧ '/' ∉ segment.toList :=
          ⟨fun empty => stays (.inl empty), fun dot => stays (.inr dot), rises, single segment List.mem_cons_self⟩
        cases found : fs.at? (here ++ [segment]) with
        | none => simp [found, never] at reached
        | some node =>
          cases node with
          | directory modified =>
            simp only [found] at reached
            exact ih (start.down proper found) restSingle reached
          | file bytes modified =>
            simp only [found] at reached
            split at reached
            · cases reached
              exact .inr ⟨here, segment, rfl, start, start.normal_append proper, bytes, modified, found⟩
            · cases reached
          | link target =>
            -- The target is followed from the directory of the link, or from the root if it is absolute.
            simp only [found] at reached
            refine linked ?_ ?_ reached
            · split
              · exact fs.isDirectory_root
              · exact start
            · intro other member
              exact (List.mem_append.mp member).elim Path.separator_not_mem (restSingle other)

theorem walkWithin_located {fs after : FileSystem} {missing : OnMissing}
    (never : ∀ place last, missing fs place last = .error .notFound) {links : Nat} {segments : List String}
    {here place : Place} (start : fs.IsDirectory here) (single : ∀ segment ∈ segments, '/' ∉ segment.toList)
    (reached : walkWithin missing links fs here segments = .ok (place, after)) : fs.Located place := by
  induction links generalizing here segments place after with
  | zero => exact walk_located never (by simp) start single reached
  | succ links ih =>
    exact walk_located never (fun start single reached => ih start single reached) start single reached

/-- A path that leads anywhere leads to a file or a directory. -/
theorem located_of_resolve {fs : FileSystem} {path : Path} {place : Place}
    (resolved : fs.resolve path = .ok place) :
    fs.Located place := by
  simp only [resolve, reach] at resolved
  split at resolved
  · cases resolved
  · cases reached : walkWithin (fun _ _ _ => .error .notFound) 40 fs [] (fs.working.path.join path).segments with
    | error e => simp [reached, Except.map] at resolved
    | ok found =>
      simp only [reached, Except.map, Except.ok.injEq] at resolved
      exact resolved ▸ walkWithin_located (fun _ _ => rfl) fs.isDirectory_root
        (fun _ => Path.separator_not_mem) reached

/-- Where a path leads to is written in the one normal way. -/
theorem isNormal_of_canonical {fs : FileSystem} {path found : Path} (led : fs.canonical path = .ok found) :
    found.IsNormal := by
  unfold canonical at led
  cases resolved : fs.resolve path with
  | error e => simp [resolved, Except.map] at led
  | ok place =>
    simp only [resolved, Except.map, Except.ok.injEq] at led
    exact ⟨place, (located_of_resolve resolved).holds.1, led.symm⟩

section Walk

variable (missing : OnMissing) (follow : FileSystem → Place → List String → Reached) {fs : FileSystem}

theorem walk_of_isDirectory {here names : Place} (directory : fs.IsDirectory (here ++ names)) (rest : List String) :
    walk missing follow fs here (names ++ rest) = walk missing follow fs (here ++ names) rest := by
  induction names generalizing here with
  | nil => rw [List.append_nil, List.nil_append]
  | cons name others ih =>
    have deeper : here ++ name :: others = here ++ [name] ++ others := List.append_cons here name others
    obtain ⟨present, noDot, noRise, _⟩ := directory.1 name (List.mem_append_right _ List.mem_cons_self)
    obtain ⟨modified, found⟩ := directory.2 (here ++ [name]) (deeper ▸ List.prefix_append _ _)
    rw [deeper] at directory ⊢
    simp only [List.cons_append, walk, present, noDot, noRise, beq_iff_eq, Bool.or_eq_true, or_self,
      if_false, found]
    exact ih directory

theorem walk_of_located {place : Place} (located : fs.Located place) :
    walk missing follow fs [] place = .ok (place, fs) := by
  rcases located with directory | ⟨here, name, rfl, directory, normal, bytes, modified, found⟩
  · have top : fs.IsDirectory ([] ++ place) := directory
    have reached := walk_of_isDirectory missing follow top []
    rwa [List.append_nil] at reached
  · have top : fs.IsDirectory ([] ++ here) := directory
    obtain ⟨present, noDot, noRise, _⟩ := normal name (List.mem_append_right _ List.mem_cons_self)
    rw [walk_of_isDirectory missing follow top [name], List.nil_append]
    simp only [walk, present, noDot, noRise, beq_iff_eq, Bool.or_eq_true, or_self, if_false, found,
      List.isEmpty_nil, if_true]

/-- Where a path leads to is where the normal path of that place leads to. -/
theorem resolve_path_of_located {place : Place} (located : fs.Located place) :
    fs.resolve place.path = .ok place := by
  have absolute : fs.working.path.join place.path = place.path := by
    simp [Path.join, Path.isAbsolute, Place.path]
  have present : place.path.text.isEmpty = false := by
    simp [Place.path]
  have reached (missing : OnMissing) (follow : FileSystem → Place → List String → Reached) :
      walk missing follow fs [] place.path.segments = .ok (place, fs) := by
    rw [Place.segments_path located.holds.1, walk, if_pos (by simp)]
    cases place with
    | nil => rfl
    | cons name rest => exact walk_of_located missing follow located
  rw [resolve, reach, present, absolute]
  exact congrArg (Except.map Prod.fst) (reached _ _)

end Walk

/-- File systems with the same directories, links and files, whatever these contain and when they were changed. -/
structure SameLayout (a b : FileSystem) : Prop where
  working : a.working = b.working
  kind : ∀ place, (a.at? place).map FileNode.kind = (b.at? place).map FileNode.kind

theorem walk_of_sameLayout {a b : FileSystem} (layout : SameLayout a b) {missing : OnMissing}
    {follow : FileSystem → Place → List String → Reached}
    (never : ∀ fs place last, missing fs place last = .error .notFound)
    (linked : ∀ here segments, (follow a here segments).map (·.1) = (follow b here segments).map (·.1))
    (here : Place) (segments : List String) :
    (walk missing follow a here segments).map (·.1) = (walk missing follow b here segments).map (·.1) := by
  induction segments generalizing here with
  | nil => rfl
  | cons segment rest ih =>
    simp only [walk]
    have kind := layout.kind (here ++ [segment])
    split
    · exact ih here
    · split
      · exact ih _
      · cases first : a.at? (here ++ [segment]) with
        | none =>
          cases second : b.at? (here ++ [segment]) with
          | none => simp only [never]
          | some node => simp [first, second] at kind
        | some node =>
          cases second : b.at? (here ++ [segment]) with
          | none => simp [first, second] at kind
          | some other =>
            simp only [first, second, Option.map_some, Option.some.injEq] at kind
            cases node <;> cases other <;> simp only [FileNode.kind, reduceCtorEq] at kind
            · dsimp only
              split <;> rfl
            · exact ih _
            · cases kind
              exact linked _ _

theorem walkWithin_of_sameLayout {a b : FileSystem} (layout : SameLayout a b) {missing : OnMissing}
    (never : ∀ fs place last, missing fs place last = .error .notFound) (links : Nat) (here : Place)
    (segments : List String) :
    (walkWithin missing links a here segments).map (·.1) =
      (walkWithin missing links b here segments).map (·.1) := by
  induction links generalizing here segments with
  | zero => exact walk_of_sameLayout layout never (fun _ _ => rfl) here segments
  | succ links ih => exact walk_of_sameLayout layout never ih here segments

/-- Where paths lead to does not depend on what files contain. -/
theorem canonical_of_sameLayout {a b : FileSystem} (layout : SameLayout a b) (path : Path) :
    a.canonical path = b.canonical path := by
  have resolved : a.resolve path = b.resolve path := by
    simp only [resolve, reach, layout.working]
    split
    · rfl
    · exact walkWithin_of_sameLayout layout (fun _ _ _ => rfl) 40 [] _
  rw [canonical, canonical, resolved]

end FileSystem

/-- Without anything kept, a file is read from disk. -/
theorem FileCache.fetch_empty (fs : FileSystem) (path : Path) : (empty.fetch fs path).1 = fs.read path := by
  unfold fetch FileSystem.modified FileSystem.read
  cases resolved : fs.resolve path with
  | error e => rfl
  | ok place =>
    obtain ⟨_, ⟨bytes, modified, found⟩ | ⟨modified, found⟩⟩ := (FileSystem.located_of_resolve resolved).holds
    · simp [bind, Except.bind, found, get?, empty]
    · simp [bind, Except.bind, found, get?, empty]

end ConfigWeave
