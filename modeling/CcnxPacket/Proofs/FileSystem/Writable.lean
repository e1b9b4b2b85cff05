import CcnxPacket.Proofs.FileSystem.Path

/-!
# Where a file can be written

A file can be written at a path that ends in a name when the directory that is left without the name
is there and no directory stands at the path itself (`checkWritable_iff`).
-/

namespace CcnxPacket

namespace Path

/-- The components of a path. -/
def components (path : String) : List String := (path.toList.splitOn '/').map String.ofList

/-- The last component of a path. -/
def fileName (path : String) : String := (components path).getLastD ""

/-- The path ends in a name and not in a slash or in a component that is none. -/
def NamesFile (path : String) : Prop :=
  fileName path ≠ "" ∧ fileName path ≠ "." ∧ fileName path ≠ ".."

/-- A text that can be walked as a path. -/
structure IsWalkable (path : String) : Prop where
  nul : '\x00' ∉ path.toList
  ne_empty : path ≠ ""
  size_le : path.utf8ByteSize ≤ FileSystem.maxPath

/-- A path that is not too long for a file to be made at it. -/
structure IsUsable (path : String) : Prop extends IsWalkable path where
  name_le : (fileName path).utf8ByteSize ≤ FileSystem.maxName

/-- The directory of a file at the path: the working directory when the path says none. -/
def directory (path : String) : String :=
  ((parent? path).filter fun directory => !directory.isEmpty).getD "."

/-- The components of a path are those of its directory and the file name. -/
theorem components_eq (path : String) :
    components path = (components path).dropLast ++ [fileName path] := by
  rcases List.eq_nil_or_concat (components path) with h | ⟨front, name, h⟩
  · simp [components, List.splitOn_ne_nil] at h
  · simp [fileName, h]

/-- The start of a path can be walked. -/
theorem IsWalkable.of_append {front back : List Char}
    (h : IsWalkable (String.ofList (front ++ back))) (hne : front ≠ []) :
    IsWalkable (String.ofList front) := by
  have hsize :
      (String.ofList front).utf8ByteSize ≤ (String.ofList (front ++ back)).utf8ByteSize := by
    rw [String.ofList_append, String.utf8ByteSize_append]
    exact Nat.le_add_right _ _
  refine ⟨fun hnul => h.nul ?_, by simpa using hne, hsize.trans h.size_le⟩
  rw [String.toList_ofList] at hnul ⊢
  exact List.mem_append_left back hnul

/-- The components of a path before a slash, then the name behind it. -/
theorem components_append {name : List Char} (hslash : '/' ∉ name) (front : List Char) :
    components (String.ofList (front ++ '/' :: name)) =
      components (String.ofList front) ++ [String.ofList name] := by
  simp [components, List.splitOn_append_cons_self, List.splitOn_eq_singleton hslash]

/-- A name without a slash is the one component of its path. -/
theorem components_name {name : List Char} (hslash : '/' ∉ name) :
    components (String.ofList name) = [String.ofList name] := by
  simp [components, List.splitOn_eq_singleton hslash]

/-- A path that ends in a name is the name or has components before it. -/
theorem NamesFile.cases {path : String} (h : NamesFile path) :
    ∃ name, '/' ∉ name ∧ counts name = true ∧
      (path = String.ofList name ∨ ∃ front, path = String.ofList (front ++ '/' :: name)) := by
  obtain ⟨chars, rfl⟩ : ∃ chars, path = String.ofList chars := ⟨path.toList, by simp⟩
  obtain ⟨name, hslash, hpath⟩ := lastComponent chars
  have hfile : fileName (String.ofList chars) = String.ofList name := by
    rcases hpath with rfl | ⟨front, rfl⟩
    · rw [fileName, components_name hslash]
      rfl
    · rw [fileName, components_append hslash]
      simp
  have hcounts : counts name = true := by
    rw [← Bool.not_eq_false, counts_eq_false]
    rintro (rfl | rfl)
    · exact h.1 hfile
    · exact h.2.1 hfile
  refine ⟨name, hslash, hcounts, ?_⟩
  rcases hpath with rfl | ⟨front, rfl⟩
  · exact .inl rfl
  · exact .inr ⟨front, rfl⟩

end Path

namespace FileSystem

/-- A directory stands at the path. -/
def IsDirectory (fs : FileSystem) (path : String) : Prop :=
  ∃ entries, fs.find path = .ok (.directory entries)

/-- Where a path starts. -/
def start (fs : FileSystem) (path : String) : List String :=
  if path.toList.head? = some '/' then [] else fs.workingDirectory

/-- A directory stands at the end of a way from the root. -/
def DirectoryAt (fs : FileSystem) (place : List String) : Prop :=
  ∃ entries, nodeAt? fs.root place = some (.directory entries)

/-- A directory stands where the components lead. -/
def Reaches (fs : FileSystem) (place : List String) (components : List String) : Prop :=
  ∃ target, components.foldlM fs.enter place = .ok target ∧ fs.DirectoryAt target

variable {fs : FileSystem} {path : String} {place : List String}

/-- A walkable path is split where it starts. -/
theorem split_of_isWalkable (h : Path.IsWalkable path) :
    fs.split path = .ok (Path.components path, fs.start path) := by
  simp [split, h.nul, h.ne_empty, Nat.not_lt.2 h.size_le, Path.components, start]

/-- A path that is not walkable cannot be split. -/
theorem split_of_not_isWalkable (fs : FileSystem) (h : ¬ Path.IsWalkable path) :
    ∃ flaw, fs.split path = .error flaw := by
  rw [split]
  split_ifs with hnul hempty hsize
  · exact ⟨_, rfl⟩
  · exact ⟨_, rfl⟩
  · exact ⟨_, rfl⟩
  · exact absurd ⟨by simpa using hnul, by simpa using hempty, Nat.not_lt.1 hsize⟩ h

/-- Walks a path to its end. -/
theorem find_of_isWalkable (h : Path.IsWalkable path) :
    fs.find path = (Path.components path).foldlM fs.enter (fs.start path) >>= fun place =>
      match nodeAt? fs.root place with
      | some node => .ok node
      | none => .error .notFound := by
  rw [find, split_of_isWalkable h]
  rfl

/-- A path names a directory when all its components can be entered. -/
theorem isDirectory_iff : fs.IsDirectory path ↔
    Path.IsWalkable path ∧ fs.Reaches (fs.start path) (Path.components path) := by
  by_cases h : Path.IsWalkable path
  · simp only [IsDirectory, find_of_isWalkable h, Reaches, DirectoryAt]
    cases hwalk : (Path.components path).foldlM fs.enter (fs.start path) with
    | error flaw => simp [bind, Except.bind]
    | ok target =>
        cases hnode : nodeAt? fs.root target with
        | none => simp [bind, Except.bind, hnode]
        | some node => simp [bind, Except.bind, hnode, h]
  · obtain ⟨flaw, hflaw⟩ := split_of_not_isWalkable fs h
    simp [IsDirectory, find, hflaw, h, bind, Except.bind]

/-! ### Walking -/

/-- A directory is reached from itself. -/
theorem reaches_nil : fs.Reaches place [] ↔ fs.DirectoryAt place := by
  simp [Reaches, pure, Except.pure]

/-- Reaching a directory is entering its first component and going on from there. -/
theorem reaches_cons {component : String} {components : List String} :
    fs.Reaches place (component :: components) ↔
      ∃ next, fs.enter place component = .ok next ∧ fs.Reaches next components := by
  rw [Reaches, List.foldlM_cons]
  cases h : fs.enter place component with
  | error flaw => simp [bind, Except.bind]
  | ok next => simp [bind, Except.bind, Reaches]

/-- Only a directory can be entered. -/
theorem directoryAt_of_enter {component : String} {next : List String}
    (h : fs.enter place component = .ok next) : fs.DirectoryAt place := by
  rw [enter] at h
  cases hnode : nodeAt? fs.root place with
  | none => simp [hnode] at h
  | some node =>
      cases node with
      | file contents => simp [hnode] at h
      | directory entries => exact ⟨entries, hnode⟩

/-- Only from directories anything is reached. -/
theorem directoryAt_of_reaches {components : List String} (h : fs.Reaches place components) :
    fs.DirectoryAt place := by
  cases components with
  | nil => exact reaches_nil.1 h
  | cons component components =>
      obtain ⟨next, hnext, -⟩ := reaches_cons.1 h
      exact directoryAt_of_enter hnext

/-- Components that do not count lead nowhere else. -/
theorem enter_of_not_counts {component : List Char} (h : Path.counts component = false)
    (hplace : fs.DirectoryAt place) : fs.enter place (String.ofList component) = .ok place := by
  obtain ⟨entries, hnode⟩ := hplace
  have hskip : String.ofList component = "" ∨ String.ofList component = "." := by
    rcases Path.counts_eq_false.1 h with rfl | rfl
    · exact .inl rfl
    · exact .inr rfl
  simp only [enter, hnode, if_pos hskip]

/-- Components that are empty or a dot make no difference. -/
theorem reaches_filter (components : List (List Char)) (place : List String) :
    fs.Reaches place ((components.filter Path.counts).map String.ofList) ↔
      fs.Reaches place (components.map String.ofList) := by
  induction components generalizing place with
  | nil => rfl
  | cons component components ih =>
      cases hcounts : Path.counts component with
      | true =>
          rw [List.filter_cons_of_pos hcounts, List.map_cons, List.map_cons, reaches_cons,
            reaches_cons]
          exact exists_congr fun next => and_congr_right fun _ => ih next
      | false =>
          rw [List.filter_cons_of_neg (by simp [hcounts]), List.map_cons, reaches_cons, ih]
          constructor
          · intro h
            exact ⟨place, enter_of_not_counts hcounts (directoryAt_of_reaches h), h⟩
          · rintro ⟨next, hnext, h⟩
            rw [enter_of_not_counts hcounts (directoryAt_of_enter hnext)] at hnext
            cases hnext
            exact h

/-- Components that do not count can be left out of the way to a directory. -/
theorem reaches_route (path : String) (place : List String) :
    fs.Reaches place ((Path.route path.toList).map String.ofList) ↔
      fs.Reaches place (Path.components path) :=
  reaches_filter _ _

/-- The last step of a walk goes to an entry of the directory before it. -/
theorem nodeAt?_append (entries : List (String × Node)) (place : List String) (name : String) :
    nodeAt? entries (place ++ [name]) =
      match nodeAt? entries place with
      | some (.directory inner) => inner.lookup name
      | _ => none := by
  fun_induction nodeAt? entries place with
  | case1 entries =>
      simp only [List.nil_append, nodeAt?]
      cases entries.lookup name with
      | none => rfl
      | some node => cases node <;> rfl
  | case2 entries first rest hfirst => simp [nodeAt?, hfirst]
  | case3 entries first rest contents hfirst hrest => simp [nodeAt?, hfirst]
  | case4 entries first rest contents hfirst hrest => simp [nodeAt?, hfirst]
  | case5 entries first rest inner hfirst ih => simp [nodeAt?, hfirst, ih]

/-! ### Writing -/

/-- Whether a file of the name can be written in the directory at a place. -/
def checkEntry (fs : FileSystem) (place : List String) (name : String) : Except FileFlaw Unit :=
  match nodeAt? fs.root place with
  | some (.directory entries) =>
    if name = "." ∨ name = ".." then .error .isDirectory
    else if maxName < name.utf8ByteSize then .error .nameTooLong
    else
      match entries.lookup name with
      | some (.directory _) => .error .isDirectory
      | _ => .ok ()
  | some (.file _) => .error .notDirectory
  | none => .error .notFound

/-- An entry can be written in a directory unless its name is unfit or one of a directory. -/
theorem checkEntry_eq_ok {name : String} : fs.checkEntry place name = .ok () ↔
    name ≠ "." ∧ name ≠ ".." ∧ name.utf8ByteSize ≤ maxName ∧
      ∃ entries, nodeAt? fs.root place = some (.directory entries) ∧
        ∀ inner, entries.lookup name ≠ some (.directory inner) := by
  rw [checkEntry]
  cases hnode : nodeAt? fs.root place with
  | none => simp
  | some node =>
      cases node with
      | file contents => simp
      | directory entries =>
          by_cases hdots : name = "." ∨ name = ".."
          · have hnot : ¬ (name ≠ "." ∧ name ≠ "..") := fun h => hdots.elim h.1 h.2
            simp only [if_pos hdots, reduceCtorEq, false_iff]
            exact fun h => hnot ⟨h.1, h.2.1⟩
          · obtain ⟨hdot, hdotdot⟩ := not_or.1 hdots
            by_cases hsize : maxName < name.utf8ByteSize
            · simp [hdot, hdotdot, hsize, Nat.not_le.2 hsize]
            · cases hentry : entries.lookup name with
              | none => simp [hdot, hdotdot, hsize, Nat.not_lt.1 hsize, hentry]
              | some node =>
                  cases node <;> simp [hdot, hdotdot, hsize, Nat.not_lt.1 hsize, hentry]

/-- Checking a path is going to its directory and checking the entry there. -/
theorem checkWritable_eq (h : Path.IsWalkable path) (hname : Path.fileName path ≠ "") :
    fs.checkWritable path = (Path.components path).dropLast.foldlM fs.enter (fs.start path) >>=
      fun place => fs.checkEntry place (Path.fileName path) := by
  have hnamed : ((Path.components path).reverse.dropWhile (· == "")).reverse =
      Path.components path := by
    rw [Path.components_eq, List.reverse_append, List.reverse_singleton, List.singleton_append,
      List.dropWhile_cons_of_neg (by simpa using hname)]
    simp
  have hlast : (Path.components path).getLastD "" = Path.fileName path := rfl
  rw [checkWritable, split_of_isWalkable h]
  simp only [bind, Except.bind, hnamed, hlast, Nat.lt_irrefl, false_or]
  cases (Path.components path).dropLast.foldlM fs.enter (fs.start path) with
  | error flaw => rfl
  | ok place => rfl

/-- A path without a file name cannot be written. -/
theorem checkWritable_of_fileName_eq_empty (hname : Path.fileName path = "") :
    fs.checkWritable path ≠ .ok () := by
  have hshort : ((Path.components path).reverse.dropWhile (· == "")).length <
      (Path.components path).length := by
    rw [Path.components_eq, hname, List.reverse_append, List.reverse_singleton,
      List.singleton_append, List.dropWhile_cons_of_pos (by simp), List.length_append,
      List.length_singleton, Nat.lt_succ_iff]
    exact (List.length_dropWhile_le _ _).trans_eq List.length_reverse
  by_cases hwalk : Path.IsWalkable path
  · rw [checkWritable, split_of_isWalkable hwalk]
    simp only [bind, Except.bind, List.length_reverse, hshort, true_or, if_true]
    cases List.foldlM fs.enter (fs.start path)
        ((Path.components path).reverse.dropWhile (· == "")).reverse.dropLast with
    | error flaw => exact nofun
    | ok place =>
        dsimp only
        cases nodeAt? fs.root place with
        | none => exact nofun
        | some node => cases node <;> exact nofun
  · obtain ⟨flaw, hflaw⟩ := split_of_not_isWalkable fs hwalk
    simp [checkWritable, hflaw, bind, Except.bind]

/-- The name of a file is the last step of a walk. -/
theorem reaches_fileName {entries : List (String × Node)}
    (hplace : (Path.components path).dropLast.foldlM fs.enter (fs.start path) = .ok place)
    (hnode : nodeAt? fs.root place = some (.directory entries)) (hnames : Path.NamesFile path)
    (hsize : (Path.fileName path).utf8ByteSize ≤ maxName) :
    fs.Reaches (fs.start path) (Path.components path) ↔
      ∃ inner, entries.lookup (Path.fileName path) = some (.directory inner) := by
  have henter : fs.enter place (Path.fileName path) =
      if (entries.lookup (Path.fileName path)).isSome then .ok (place ++ [Path.fileName path])
      else .error .notFound := by
    simp [enter, hnode, hnames.1, hnames.2.1, hnames.2.2, Nat.not_lt.2 hsize]
  have hsteps : (Path.components path).foldlM fs.enter (fs.start path) =
      fs.enter place (Path.fileName path) := by
    rw [Path.components_eq, List.foldlM_append, hplace]
    show [Path.fileName path].foldlM fs.enter place = fs.enter place (Path.fileName path)
    rw [List.foldlM_cons]
    exact bind_pure _
  rw [Reaches, hsteps, henter]
  cases hentry : entries.lookup (Path.fileName path) with
  | none => simp
  | some node => simp [DirectoryAt, nodeAt?_append, hnode, hentry]

/-- The directory of a path that names a file is the one that its components lead to. -/
theorem reaches_dropLast (hwalk : Path.IsWalkable path) (hnames : Path.NamesFile path) :
    fs.Reaches (fs.start path) (Path.components path).dropLast ↔
      fs.IsDirectory (Path.directory path) := by
  obtain ⟨name, hslash, hcounts, rfl | ⟨front, rfl⟩⟩ := hnames.cases
  -- A name alone is looked for where a path starts, and any other name in its parent.
  · have hdirectory : Path.directory (String.ofList name) = "." := by
      simp [Path.directory, Path.parent?, Path.parentChars?_name hslash hcounts, Option.filter]
    have hstart : fs.start (String.ofList name) = fs.start "." := by
      have hhead : name.head? ≠ some '/' := fun h => hslash (List.mem_of_head? h)
      simp [start, hhead]
    have hdot : Path.IsWalkable "." := ⟨by decide, by decide, by decide⟩
    rw [Path.components_name hslash, hdirectory, isDirectory_iff, hstart, ← reaches_route ".",
      and_iff_right hdot]
    rfl
  · obtain ⟨parent, hparent, hne, hprefix, hroute⟩ :=
      Path.parentChars?_append_name hslash hcounts front
    have hdirectory :
        Path.directory (String.ofList (front ++ '/' :: name)) = String.ofList parent := by
      simp [Path.directory, Path.parent?, hparent, hne, Option.filter]
    have hstart :
        fs.start (String.ofList parent) = fs.start (String.ofList (front ++ '/' :: name)) := by
      obtain ⟨cut, hcut⟩ := hprefix
      have hhead : (front ++ '/' :: name).head? = parent.head? := by
        rw [← hcut, List.head?_append_of_ne_nil _ hne]
      rw [start, start, String.toList_ofList, String.toList_ofList, hhead]
    have hparentWalk : Path.IsWalkable (String.ofList parent) := by
      obtain ⟨cut, hcut⟩ := hprefix
      exact Path.IsWalkable.of_append (hcut ▸ hwalk) hne
    rw [Path.components_append hslash, List.dropLast_concat, hdirectory, isDirectory_iff, hstart,
      and_iff_right hparentWalk, ← reaches_route, ← reaches_route, String.toList_ofList,
      String.toList_ofList, hroute]

/-- A file can be written at a path that ends in a name when the directory of the path is there and
the path itself is none. -/
theorem checkWritable_iff : fs.checkWritable path = .ok () ↔
    Path.IsUsable path ∧ Path.NamesFile path ∧ fs.IsDirectory (Path.directory path) ∧
      ¬ fs.IsDirectory path := by
  constructor
  · intro h
    -- The checks that succeeded, in their order: the path, its directory, the entry there.
    have hwalk : Path.IsWalkable path := by
      by_contra hwalk
      obtain ⟨flaw, hflaw⟩ := split_of_not_isWalkable fs hwalk
      rw [checkWritable, hflaw] at h
      cases h
    have hname : Path.fileName path ≠ "" := fun hname =>
      checkWritable_of_fileName_eq_empty hname h
    rw [checkWritable_eq hwalk hname] at h
    cases hplace : (Path.components path).dropLast.foldlM fs.enter (fs.start path) with
    | error flaw =>
        rw [hplace] at h
        cases h
    | ok place =>
        rw [hplace] at h
        obtain ⟨hdot, hdotdot, hsize, entries, hnode, hentry⟩ := checkEntry_eq_ok.1 h
        have hnames : Path.NamesFile path := ⟨hname, hdot, hdotdot⟩
        refine ⟨⟨hwalk, hsize⟩, hnames, ?_, ?_⟩
        · exact (reaches_dropLast hwalk hnames).1 ⟨place, hplace, entries, hnode⟩
        · intro hself
          obtain ⟨inner, hinner⟩ :=
            (reaches_fileName hplace hnode hnames hsize).1 (isDirectory_iff.1 hself).2
          exact hentry inner hinner
  · rintro ⟨husable, hnames, hdirectory, hnot⟩
    obtain ⟨place, hplace, entries, hnode⟩ :=
      (reaches_dropLast husable.toIsWalkable hnames).2 hdirectory
    rw [checkWritable_eq husable.toIsWalkable hnames.1, hplace]
    refine checkEntry_eq_ok.2 ⟨hnames.2.1, hnames.2.2, husable.name_le, entries, hnode, ?_⟩
    intro inner hinner
    exact hnot (isDirectory_iff.2 ⟨husable.toIsWalkable,
      (reaches_fileName hplace hnode hnames husable.name_le).2 ⟨inner, hinner⟩⟩)

end FileSystem

end CcnxPacket
