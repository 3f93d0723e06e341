import P5136.Lib.Grown
import P5136.Rho5.LegacyData
import P5136.Rho5.LegacyIndices

/-!
# All block indices of a legacy archive

The writer goes over its tree twice: first every directory gets the index of its block, then every file, and a file with a
continuation the index behind its own as well. While a tree has no more blocks than an archive may have, every search finds an
index, and no two blocks of the archive get the same one.
-/

namespace P5136

open Act List LegacyRhoLimits

/-- How a file is stored. -/
inductive LegacyRhoFileProperty where
  | none
  | compressed
  | encrypted
  | partialEncrypted
  | compressedEncrypted
deriving DecidableEq

/-- A file to write. -/
structure WriteFile where
  stem : String
  extension : String
  extensionWord : UInt32
  data : List UInt8
  property : LegacyRhoFileProperty
  blockIndex : UInt32
deriving DecidableEq

/-- A directory to write: its index, its subdirectories by name in the UTF-16 order in which they are visited, and its files. -/
inductive WriteDirectory where
  | mk (index : UInt32) (directories : List (String × WriteDirectory)) (files : List WriteFile)

/-- The subdirectories of a directory. -/
def WriteDirectory.directories : WriteDirectory → List (String × WriteDirectory)
  | mk _ directories _ => directories

namespace Legacy

/-- `unicode_adler`: the checksum of the UTF-16 bytes of a string. -/
def unicodeAdler (value : String) : UInt32 := adler32 ((Utf16.encode value.toList).flatMap LittleEndian.ofU16)

/-- `ROOT_INDEX`. -/
def rootIndex : UInt32 := 0xffffffff

/-- The index that `assign_directory_indices` gives a directory: the root has its own. -/
def directoryIndex (fullPath : String) : Act (Finset UInt32) LegacyIndexError UInt32 :=
  if fullPath = "" then modify (insert rootIndex) >>= fun _ => pure rootIndex
  else reserveIndex (unicodeAdler fullPath) false directoryCollisionStep

/-- The path of a subdirectory. -/
def childPath (fullPath name : String) : String := if fullPath = "" then name else fullPath ++ "/" ++ name

mutual

def assignDirectoryIndices (fullPath : String) : WriteDirectory → Act (Finset UInt32) LegacyIndexError WriteDirectory
  | .mk _ directories files => do
    let index ← directoryIndex fullPath
    let directories ← assignSubdirectoryIndices fullPath directories
    pure (.mk index directories files)

/-- The loop of `assign_directory_indices` over the subdirectories. -/
def assignSubdirectoryIndices (fullPath : String) :
    List (String × WriteDirectory) → Act (Finset UInt32) LegacyIndexError (List (String × WriteDirectory))
  | [] => pure []
  | (name, child) :: rest => do
    let child ← assignDirectoryIndices (childPath fullPath name) child
    let rest ← assignSubdirectoryIndices fullPath rest
    pure ((name, child) :: rest)

end

/-- Whether a file has a continuation in the block behind its own. -/
def WriteFile.HasContinuation (file : WriteFile) : Prop :=
  file.property = .partialEncrypted ∧ file.data.length > 0x100

instance (file : WriteFile) : Decidable (WriteFile.HasContinuation file) := inferInstanceAs (Decidable (_ ∧ _))

/-- The loop of `assign_file_indices` over the files of a directory. -/
def assignIndices (folderIndex : UInt32) : List WriteFile → Act (Finset UInt32) LegacyIndexError (List WriteFile)
  | [] => pure []
  | file :: files => do
    let raw := unicodeAdler file.stem + file.extensionWord + folderIndex
    let blockIndex ← reserveIndex raw true fileCollisionStep
    modify (fun used => if WriteFile.HasContinuation file then insert (blockIndex + 1) used else used)
    let files ← assignIndices folderIndex files
    pure ({ file with blockIndex } :: files)

mutual

def assignFileIndices : WriteDirectory → Act (Finset UInt32) LegacyIndexError WriteDirectory
  | .mk index directories files => do
    let files ← assignIndices (if index = rootIndex then 0 else index) files
    let directories ← assignSubfileIndices directories
    pure (.mk index directories files)

/-- The loop of `assign_file_indices` over the subdirectories. -/
def assignSubfileIndices :
    List (String × WriteDirectory) → Act (Finset UInt32) LegacyIndexError (List (String × WriteDirectory))
  | [] => pure []
  | (name, child) :: rest => do
    let child ← assignFileIndices child
    let rest ← assignSubfileIndices rest
    pure ((name, child) :: rest)

end

/-- The two passes of `encode_with_metadata` over its tree. -/
def assignAllIndices (root : WriteDirectory) : Act (Finset UInt32) LegacyIndexError WriteDirectory := do
  let root ← assignDirectoryIndices "" root
  assignFileIndices root

/-! ## The indices of a tree -/

mutual

/-- The indices of the directories of a tree. -/
def directoryIndices : WriteDirectory → List UInt32
  | .mk index directories _ => index :: subdirectoryIndices directories

/-- The indices of the directories below one. -/
def subdirectoryIndices : List (String × WriteDirectory) → List UInt32
  | [] => []
  | (_, child) :: rest => directoryIndices child ++ subdirectoryIndices rest

end

/-- The indices of a file: two when it has a continuation. -/
def WriteFile.indices (file : WriteFile) : List UInt32 :=
  if WriteFile.HasContinuation file then [file.blockIndex, file.blockIndex + 1] else [file.blockIndex]

mutual

/-- The indices of the files of a tree. -/
def fileIndices : WriteDirectory → List UInt32
  | .mk _ directories files => files.flatMap WriteFile.indices ++ subfileIndices directories

/-- The indices of the files below a directory. -/
def subfileIndices : List (String × WriteDirectory) → List UInt32
  | [] => []
  | (_, child) :: rest => fileIndices child ++ subfileIndices rest

end

/-- The indices of all blocks of a tree. -/
def blockIndices (root : WriteDirectory) : List UInt32 := directoryIndices root ++ fileIndices root

mutual

/-- A tree without its indices. -/
def unindexed : WriteDirectory → WriteDirectory
  | .mk _ directories files => .mk 0 (unindexedAll directories) (files.map (fun file => { file with blockIndex := 0 }))

/-- Trees without their indices. -/
def unindexedAll : List (String × WriteDirectory) → List (String × WriteDirectory)
  | [] => []
  | (name, child) :: rest => (name, unindexed child) :: unindexedAll rest

end

/-! ## Directories -/

theorem childPath_ne {fullPath : String} (h : fullPath ≠ "") (name : String) : childPath fullPath name ≠ "" := by
  unfold childPath
  rw [if_neg h]
  intro hempty
  have hlength := congrArg String.length hempty
  simp [String.length_append] at hlength

mutual

/-- While there is room, the directories of a tree get indices of their own. -/
theorem assignDirectoryIndices_grows (fullPath : String) (directory : WriteDirectory) (used : Finset UInt32)
    (hpath : fullPath ≠ "") (hroom : used.card + (directoryIndices directory).length ≤ default.maxBlocks) :
    ∃ directory' used', assignDirectoryIndices fullPath directory used = (.ok directory', used') ∧
      Grown (directoryIndices directory') used used' ∧
      (directoryIndices directory').length = (directoryIndices directory).length ∧
      fileIndices directory' = fileIndices directory ∧ unindexed directory' = unindexed directory := by
  cases directory with
  | mk index directories files =>
    rw [directoryIndices, length_cons] at hroom
    obtain ⟨own, hown, hfresh, -⟩ := reserveIndex_of_farReaching farReaching_directory (unicodeAdler fullPath) false
      (show used.card ≤ _ by omega)
    have hgrown := Grown.single hfresh
    have hcard := hgrown.card
    rw [length_singleton] at hcard
    obtain ⟨directories', used', hrest, hgrown', hlength, hfiles, hsame⟩ :=
      assignSubdirectoryIndices_grows fullPath directories (insert own used) (fun name _ => childPath_ne hpath name.1) (by omega)
    refine ⟨.mk own directories' files, used', ?_, ?_, ?_, ?_, ?_⟩
    · have hdirectory : directoryIndex fullPath used = (.ok own, insert own used) := by
        unfold directoryIndex
        rw [if_neg hpath, hown]
      rw [assignDirectoryIndices, bind_of_ok hdirectory, bind_of_ok hrest]
      rfl
    · rw [directoryIndices]
      exact hgrown.append hgrown'
    · rw [directoryIndices, directoryIndices, length_cons, length_cons, hlength]
    · rw [fileIndices, fileIndices, hfiles]
    · rw [unindexed, unindexed, hsame]

/-- So do those below a directory. -/
theorem assignSubdirectoryIndices_grows (fullPath : String) (directories : List (String × WriteDirectory)) (used : Finset UInt32)
    (hpaths : ∀ entry ∈ directories, childPath fullPath entry.1 ≠ "")
    (hroom : used.card + (subdirectoryIndices directories).length ≤ default.maxBlocks) :
    ∃ directories' used', assignSubdirectoryIndices fullPath directories used = (.ok directories', used') ∧
      Grown (subdirectoryIndices directories') used used' ∧
      (subdirectoryIndices directories').length = (subdirectoryIndices directories).length ∧
      subfileIndices directories' = subfileIndices directories ∧ unindexedAll directories' = unindexedAll directories := by
  match directories with
  | [] => exact ⟨[], used, rfl, Grown.refl used, rfl, rfl, rfl⟩
  | (name, child) :: rest =>
    rw [subdirectoryIndices, length_append] at hroom
    obtain ⟨child', used₁, hchild, hgrown, hlength, hfiles, hsame⟩ :=
      assignDirectoryIndices_grows (childPath fullPath name) child used (hpaths (name, child) mem_cons_self) (by omega)
    have hcard := hgrown.card
    obtain ⟨rest', used', hrest, hgrown', hlength', hfiles', hsame'⟩ := assignSubdirectoryIndices_grows fullPath rest used₁
      (fun entry hentry => hpaths entry (mem_cons_of_mem _ hentry)) (by omega)
    refine ⟨(name, child') :: rest', used', ?_, ?_, ?_, ?_, ?_⟩
    · rw [assignSubdirectoryIndices, bind_of_ok hchild, bind_of_ok hrest]
      rfl
    · rw [subdirectoryIndices]
      exact hgrown.append hgrown'
    · rw [subdirectoryIndices, subdirectoryIndices, length_append, length_append, hlength, hlength']
    · rw [subfileIndices, subfileIndices, hfiles, hfiles']
    · rw [unindexedAll, unindexedAll, hsame, hsame']

end

/-! ## Files -/

theorem ne_add_one (index : UInt32) : index ≠ index + 1 := by
  intro h
  have hnat := congrArg UInt32.toNat h
  rw [UInt32.toNat_add, UInt32.toNat_one] at hnat
  have hlt := index.toNat_lt
  omega

/-- The indices of a file that got one. -/
theorem indices_at (file : WriteFile) (index : UInt32) : WriteFile.indices { file with blockIndex := index } =
    if WriteFile.HasContinuation file then [index, index + 1] else [index] := rfl

theorem length_indices (file : WriteFile) (index : UInt32) :
    (WriteFile.indices { file with blockIndex := index }).length = (WriteFile.indices file).length := by
  rw [indices_at, WriteFile.indices]
  split
  · rfl
  · rfl

/-- While there is room, a file gets an index of its own, and its continuation the one behind it. -/
theorem reserveIndex_grows (file : WriteFile) (candidate : UInt32) {used : Finset UInt32}
    (hroom : used.card ≤ default.maxBlocks) :
    ∃ index, reserveIndex candidate true fileCollisionStep used = (.ok index, insert index used) ∧
      Grown (WriteFile.indices { file with blockIndex := index }) used
        (if WriteFile.HasContinuation file then insert (index + 1) (insert index used) else insert index used) := by
  obtain ⟨index, hindex, hfresh, hnext, -⟩ := reserveIndex_of_farReaching farReaching_file candidate true hroom
  refine ⟨index, hindex, ?_⟩
  have hown := Grown.single hfresh
  rw [indices_at]
  split
  · have hbehind : index + 1 ∉ insert index used := by
      rw [Finset.mem_insert, not_or]
      exact ⟨(ne_add_one index).symm, hnext rfl⟩
    exact hown.append (Grown.single hbehind)
  · exact hown

/-- While there is room, the files of a directory get indices of their own. -/
theorem assignIndices_grows (folderIndex : UInt32) (files : List WriteFile) (used : Finset UInt32)
    (hroom : used.card + (files.flatMap WriteFile.indices).length ≤ default.maxBlocks) :
    ∃ files' used', assignIndices folderIndex files used = (.ok files', used') ∧
      Grown (files'.flatMap WriteFile.indices) used used' ∧
      (files'.flatMap WriteFile.indices).length = (files.flatMap WriteFile.indices).length ∧
      files'.map (fun file => { file with blockIndex := 0 }) = files.map (fun file => { file with blockIndex := 0 }) := by
  induction files generalizing used with
  | nil => exact ⟨[], used, rfl, Grown.refl used, rfl, rfl⟩
  | cons file files ih =>
    rw [flatMap_cons, length_append] at hroom
    obtain ⟨index, hindex, hgrown⟩ := reserveIndex_grows file (unicodeAdler file.stem + file.extensionWord + folderIndex)
      (show used.card ≤ _ by omega)
    have hcard := hgrown.card
    rw [length_indices] at hcard
    generalize hused₁ : (if WriteFile.HasContinuation file then insert (index + 1) (insert index used)
      else insert index used) = used₁ at hgrown hcard
    have hmark : (modify (fun used => if WriteFile.HasContinuation file then insert (index + 1) used else used) :
        Act (Finset UInt32) LegacyIndexError PUnit) (insert index used) = (.ok ⟨⟩, used₁) := by
      rw [← hused₁]
      rfl
    obtain ⟨files', used', hrest, hgrown', hlength, hsame⟩ := ih used₁ (by omega)
    refine ⟨{ file with blockIndex := index } :: files', used', ?_, ?_, ?_, ?_⟩
    · rw [assignIndices, bind_of_ok hindex, bind_of_ok hmark, bind_of_ok hrest]
      rfl
    · rw [flatMap_cons]
      exact hgrown.append hgrown'
    · rw [flatMap_cons, flatMap_cons, length_append, length_append, length_indices, hlength]
    · rw [map_cons, map_cons, hsame]

mutual

/-- So do all files of a tree. -/
theorem assignFileIndices_grows (directory : WriteDirectory) (used : Finset UInt32)
    (hroom : used.card + (fileIndices directory).length ≤ default.maxBlocks) :
    ∃ directory' used', assignFileIndices directory used = (.ok directory', used') ∧
      Grown (fileIndices directory') used used' ∧ (fileIndices directory').length = (fileIndices directory).length ∧
      directoryIndices directory' = directoryIndices directory ∧ unindexed directory' = unindexed directory := by
  cases directory with
  | mk index directories files =>
    rw [fileIndices, length_append] at hroom
    obtain ⟨files', used₁, hfiles, hgrown, hlength, hsame⟩ :=
      assignIndices_grows (if index = rootIndex then 0 else index) files used (by omega)
    have hcard := hgrown.card
    obtain ⟨directories', used', hrest, hgrown', hlength', hindices, hsame'⟩ :=
      assignSubfileIndices_grows directories used₁ (by omega)
    refine ⟨.mk index directories' files', used', ?_, ?_, ?_, ?_, ?_⟩
    · rw [assignFileIndices, bind_of_ok hfiles, bind_of_ok hrest]
      rfl
    · rw [fileIndices]
      exact hgrown.append hgrown'
    · rw [fileIndices, fileIndices, length_append, length_append, hlength, hlength']
    · rw [directoryIndices, directoryIndices, hindices]
    · rw [unindexed, unindexed, hsame, hsame']

/-- So do those below a directory. -/
theorem assignSubfileIndices_grows (directories : List (String × WriteDirectory)) (used : Finset UInt32)
    (hroom : used.card + (subfileIndices directories).length ≤ default.maxBlocks) :
    ∃ directories' used', assignSubfileIndices directories used = (.ok directories', used') ∧
      Grown (subfileIndices directories') used used' ∧
      (subfileIndices directories').length = (subfileIndices directories).length ∧
      subdirectoryIndices directories' = subdirectoryIndices directories ∧
      unindexedAll directories' = unindexedAll directories := by
  match directories with
  | [] => exact ⟨[], used, rfl, Grown.refl used, rfl, rfl, rfl⟩
  | (name, child) :: rest =>
    rw [subfileIndices, length_append] at hroom
    obtain ⟨child', used₁, hchild, hgrown, hlength, hindices, hsame⟩ := assignFileIndices_grows child used (by omega)
    have hcard := hgrown.card
    obtain ⟨rest', used', hrest, hgrown', hlength', hindices', hsame'⟩ := assignSubfileIndices_grows rest used₁ (by omega)
    refine ⟨(name, child') :: rest', used', ?_, ?_, ?_, ?_, ?_⟩
    · rw [assignSubfileIndices, bind_of_ok hchild, bind_of_ok hrest]
      rfl
    · rw [subfileIndices]
      exact hgrown.append hgrown'
    · rw [subfileIndices, subfileIndices, length_append, length_append, hlength, hlength']
    · rw [subdirectoryIndices, subdirectoryIndices, hindices, hindices']
    · rw [unindexedAll, unindexedAll, hsame, hsame']

end

/-! ## Both passes -/

/-- A tree with no more blocks than the limit gets all its indices. Nothing else of it changes, no two of its blocks have the same
index, and exactly these indices are used. -/
theorem assignAllIndices_distinct (root : WriteDirectory) (hnames : ∀ entry ∈ root.directories, entry.1 ≠ "")
    (hroom : (blockIndices root).length ≤ default.maxBlocks) :
    ∃ root' used, assignAllIndices root ∅ = (.ok root', used) ∧ unindexed root' = unindexed root ∧
      (blockIndices root').Nodup ∧ ∀ index, index ∈ used ↔ index ∈ blockIndices root' := by
  cases root with
  | mk index directories files =>
    rw [blockIndices, directoryIndices, cons_append, length_cons, length_append, fileIndices] at hroom
    have hown : Grown [rootIndex] ∅ (insert rootIndex ∅) := Grown.single (Finset.notMem_empty rootIndex)
    have hroot := hown.card
    rw [length_singleton, Finset.card_empty] at hroot
    have hpaths : ∀ entry ∈ directories, childPath "" entry.1 ≠ "" := hnames
    obtain ⟨directories', used₁, hfirst, hgrown, hlength, hfiles, hsame⟩ :=
      assignSubdirectoryIndices_grows "" directories (insert rootIndex ∅) hpaths (by omega)
    have hcard := hgrown.card
    have hdirectories : assignDirectoryIndices "" (.mk index directories files) ∅ =
        (.ok (.mk rootIndex directories' files), used₁) := by
      have hindex : directoryIndex "" ∅ = (.ok rootIndex, insert rootIndex ∅) := rfl
      rw [assignDirectoryIndices, bind_of_ok hindex, bind_of_ok hfirst]
      rfl
    have hcount : (fileIndices (.mk rootIndex directories' files)).length =
        (files.flatMap WriteFile.indices ++ subfileIndices directories).length := by
      rw [fileIndices, hfiles]
    obtain ⟨root', used, hsecond, hgrown', -, hindices, hsame'⟩ :=
      assignFileIndices_grows (.mk rootIndex directories' files) used₁ (by omega)
    have hall := (hown.append hgrown).append hgrown'
    have hblocks : blockIndices root' = [rootIndex] ++ subdirectoryIndices directories' ++ fileIndices root' := by
      rw [blockIndices, hindices, directoryIndices]
      rfl
    refine ⟨root', used, ?_, ?_, ?_, ?_⟩
    · rw [assignAllIndices, bind_of_ok hdirectories, hsecond]
    · rw [hsame', unindexed, unindexed, hsame]
    · rw [hblocks]
      exact hall.nodup
    · intro other
      rw [hblocks, hall.mem]
      simp

/-- Two files of one name: one at the top, and one in a subdirectory that has a continuation. -/
def sampleTree : WriteDirectory :=
  .mk 0 [("a", .mk 0 [] [⟨"b", "", 0, replicate 300 0, .partialEncrypted, 0⟩])]
    [⟨"b", "", 0, [], .none, 0⟩]

theorem assignAllIndices_distinct_sample : ∃ root' used, assignAllIndices sampleTree ∅ = (.ok root', used) ∧
    unindexed root' = unindexed sampleTree ∧ (blockIndices root').Nodup ∧
      ∀ index, index ∈ used ↔ index ∈ blockIndices root' :=
  assignAllIndices_distinct sampleTree (by decide) (by decide +kernel)

end Legacy

end P5136
