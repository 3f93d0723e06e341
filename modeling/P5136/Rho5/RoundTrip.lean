import P5136.Rho5.Layout
import P5136.Rho5.Paths
import P5136.Rho5.Reading

/-!
# Reading back a written archive

The reader finds in a written archive the header, the table and the data where the layout has them. It reads the whole archive
back exactly when no normalised path has more UTF-16 units than the reader accepts, which the writer does not check.
-/

namespace P5136

namespace Rho5

open DecryptReader Checks WordCipher Checked List

variable {library : Rho5Library} {limits : Rho5Limits}

/-! ## The header -/

/-- A stream that stands at a position, perhaps with its padding written over, is what a reader from there hands out first. -/
theorem pending_ofArchive {bytes data : List UInt8} {words : Nat → UInt32} {position : Nat}
    (hfits : position + (pad data).length ≤ bytes.length)
    (h : Window.window position data.length bytes = (encryptStream words data).take data.length) :
    ∃ rest, (ofArchive bytes words position).pending = data ++ rest := by
  have hfirst : (decryptWords words 0 (bytes.drop position)).take data.length = data := by
    refine take_decryptWords_pad words ?_ h
    rw [length_drop]
    omega
  refine ⟨(decryptWords words 0 (bytes.drop position)).drop data.length, ?_⟩
  rw [pending, ofArchive, nil_append]
  conv_rhs => enter [1]; rw [← hfirst]
  rw [take_append_drop]

/-- From its position on, a reader presents what it hands out. -/
theorem presents_ofArchive {bytes data rest : List UInt8} {words : Nat → UInt32} {position : Nat}
    (hlt : position + data.length < 2 ^ 64) (h : (ofArchive bytes words position).pending = data ++ rest) :
    Presents position (position + data.length) (ofArchive bytes words position) (data ++ []) := by
  rw [append_nil]
  exact ⟨hlt, Nat.le_refl _, rfl, rest, h⟩

/-- A row has at least its fixed bytes. -/
theorem le_sum_rowSize (entries : List PreparedEntry) : entries.length * tableFixedEntryBytes ≤ (entries.map rowSize).sum := by
  induction entries with
  | nil => simp
  | cons p entries ih =>
    simp only [tableFixedEntryBytes, length_cons, map_cons, sum_cons, rowSize, metadataBytes] at ih ⊢
    omega

section

variable {entries : List Rho5WriteEntry} {name : String} {region : Rho5Region} {bytes : List UInt8}

/-- Every placed entry is that of an entry. -/
theorem Layout.prepared_of_mem (layout : Layout library entries name region limits bytes) {p : PreparedEntry}
    (hp : p ∈ layout.placed) : ∃ entry ∈ entries, PreparedOf library limits entry p := by
  obtain ⟨entry, he, hof⟩ := Elementwise.exists_left layout.prepared hp
  exact ⟨entry, layout.sorted_perm.mem_iff.1 he, hof⟩

/-- The length of the table. -/
theorem Layout.length_rows (layout : Layout library entries name region limits bytes) :
    layout.rows.flatten.length = (layout.placed.map rowSize).sum := by
  refine length_flatten_rows (fun p hp => ?_) layout.rows_eq
  obtain ⟨_, -, hof⟩ := layout.prepared_of_mem hp
  exact hof.units

/-- The table has at least the fixed bytes of every entry, and there is an entry. -/
theorem Layout.fixed_le (layout : Layout library entries name region limits bytes) :
    layout.placed.length * tableFixedEntryBytes ≤ layout.rows.flatten.length ∧ 0 < layout.placed.length := by
  rw [layout.length_rows]
  exact ⟨le_sum_rowSize _, length_pos_iff.2 layout.nonempty⟩

/-- A range of an archive that lies inside it. -/
theorem ensureFileRange_eq_ok {path : String} {archiveLength offset size : Nat} (hle : offset + size ≤ archiveLength)
    (hlt : archiveLength < 2 ^ 64) : ensureFileRange path archiveLength offset size = .ok () := by
  unfold ensureFileRange
  simp only [bind_eq_ok, orElse_eq_ok, add_eq_some, ensure_eq_ok]
  exact ⟨_, ⟨rfl, by omega⟩, by omega⟩

/-- The header of a written archive is read. -/
theorem Layout.readArchiveDescriptor (layout : Layout library entries name region limits bytes) :
    readArchiveDescriptor library ⟨name, true, bytes⟩ region limits =
      .ok ⟨name, bytes.length, layout.offsets, layout.placed.length⟩ := by
  have hapart := archiveOffsets_apart layout.offsets_eq
  have hfits := layout.table_fits
  have hlt := layout.bytes_lt
  obtain ⟨hfixed, hpos⟩ := layout.fixed_le
  obtain ⟨n, hn, hpad, -⟩ := length_pad layout.rows.flatten
  have hcount := (toInt32_eq_some.1 layout.count_eq).2
  have hcountLe := layout.count_le
  have hrowsLe := layout.rows_le
  have hname : ¬name.utf8ByteSize > limits.maxArchiveNameBytes := by
    have h := layout.name_ok
    unfold validateArchiveName at h
    simp only [bind_eq_ok, ensure_eq_ok] at h
    obtain ⟨-, -, h⟩ := h
    exact h
  have hheaderLength : (headerBytes layout.fileCount).length = 9 := by simp [headerBytes]
  have hpadLength : (pad (headerBytes layout.fileCount)).length = 12 := by simp [pad, hheaderLength]
  -- the header is the first thing the reader hands out
  obtain ⟨rest, hpending⟩ : ∃ rest, (ofArchive bytes (library.keyWords (library.headerKey name region.mixingString))
      layout.offsets.header).pending = headerBytes layout.fileCount ++ rest := by
    refine pending_ofArchive (by omega) ?_
    rw [← layout.header_eq, hheaderLength, Window.take_window (by omega)]
  obtain ⟨reader, hread, -⟩ := takes_readHeader name layout.fileCount _ [] (presents_ofArchive (by omega) hpending)
  have hrows : 0 < layout.rows.flatten.length := by
    simp only [tableFixedEntryBytes] at hfixed
    omega
  have hminimum : layout.placed.length * tableFixedEntryBytes < 2 ^ 64 := by
    simp only [tableFixedEntryBytes]
    omega
  unfold Rho5.readArchiveDescriptor
  simp only [bind_eq_ok, ensure_eq_ok, orElse_eq_ok]
  refine ⟨(), Nat.not_lt.2 layout.bytes_le, (), hname, layout.offsets, layout.offsets_eq, (),
    ensureFileRange_eq_ok (by omega) hlt, (), ensureFileRange_eq_ok (by omega) hlt, _, congrArg Prod.fst hread, (), rfl, (), rfl,
    layout.placed.length, ofInt32_of_toInt32 layout.count_eq, (), by omega, layout.placed.length * tableFixedEntryBytes,
    mul_eq_some.2 ⟨rfl, hminimum⟩, (), by omega, (), ensureFileRange_eq_ok (by omega) hlt, rfl⟩

/-! ## The table -/

/-- The table entry that is read for a placed entry. -/
def pendingOf (p : PreparedEntry) : PendingEntry where
  normalizedPath := p.path
  rawPath := p.path
  flags := p.flags
  blockOffset := p.blockOffset
  compressedSize := p.compressed.length
  plaintextSize := p.plaintextSize
  plaintextMd5 := p.plaintextMd5

/-- A text that is not empty has UTF-16 units. -/
theorem length_pathUnits_ne_zero {path : String} (h : path.toList ≠ []) : (pathUnits path).length ≠ 0 := by
  obtain ⟨c, cs, hc⟩ := exists_cons_of_ne_nil h
  have hchar : (Utf16.encodeChar c).length ≠ 0 := by
    unfold Utf16.encodeChar
    split <;> simp
  rw [pathUnits, hc, Utf16.encode, flatMap_cons, length_append]
  omega

/-- The row of an entry is read, when its path is not too long. -/
theorem takes_readPendingEntry {start stop : Nat} (hn : Composes library.nfc) {entry : Rho5WriteEntry} {p : PreparedEntry} {row : List UInt8}
    (hof : PreparedOf library limits entry p) (hrow : tableEntryBytes p = .ok row) (path : String) (entryIndex : Nat)
    (hle : (pathUnits p.path).length ≤ limits.maxPathUtf16Units) :
    Takes (Presents start stop) (readPendingEntry library path entryIndex limits) row (pendingOf p) := by
  obtain ⟨r⟩ := tableEntryBytes_eq_ok hrow
  obtain ⟨hnormal, hne⟩ := normalizePath_normalized hn hof.path
  have hsize : p.plaintextSize ≤ limits.maxPlaintextBytes := by
    rw [hof.size]
    exact hof.size_le
  have hpending : pendingEntry path limits p.path p.path ⟨entryChecksum p.flags r.blockOffset r.plaintextSize r.compressedSize
      p.plaintextMd5, p.flags, r.blockOffset, r.plaintextSize, r.compressedSize, p.plaintextMd5⟩ = .ok (pendingOf p) := by
    unfold pendingEntry verifyEntryChecksum
    simp only [bind_eq_ok, ensure_eq_ok, orElse_eq_ok]
    exact ⟨(), trivial, p.blockOffset, ofInt32_of_toInt32 r.blockOffset_eq, p.compressed.length,
      ofInt32_of_toInt32 r.compressedSize_eq, p.plaintextSize, ofInt32_of_toInt32 r.plaintextSize_eq, (),
      Nat.not_lt.2 hof.stream_le, (), Nat.not_lt.2 hsize, rfl⟩
  rw [r.row_eq]
  exact (takes_readEntryPath path entryIndex r.units_eq (length_pathUnits_ne_zero hne) hle).bind
    ((Takes.ofExcept hnormal).bind_nil ((takes_readEntryMetadata path ⟨entryChecksum p.flags r.blockOffset r.plaintextSize
      r.compressedSize p.plaintextMd5, p.flags, r.blockOffset, r.plaintextSize, r.compressedSize, p.plaintextMd5⟩).bind_end
      (Takes.ofExcept hpending)))

/-- The row of an entry is rejected, when its path is too long. -/
theorem rejects_readPendingEntry {start stop : Nat} (hn : Composes library.nfc) {entry : Rho5WriteEntry} {p : PreparedEntry} {row : List UInt8}
    (hof : PreparedOf library limits entry p) (hrow : tableEntryBytes p = .ok row) (path : String) (entryIndex : Nat)
    (hgt : (pathUnits p.path).length > limits.maxPathUtf16Units) :
    Rejects (Presents start stop) (readPendingEntry library path entryIndex limits) row
      (.pathTooLong path entryIndex (pathUnits p.path).length limits.maxPathUtf16Units) := by
  obtain ⟨r⟩ := tableEntryBytes_eq_ok hrow
  obtain ⟨-, hne⟩ := normalizePath_normalized hn hof.path
  rw [r.row_eq, append_assoc]
  exact (rejects_readEntryPath path entryIndex r.units_eq (length_pathUnits_ne_zero hne) hgt _).bind

section

variable {tableOffset stop : Nat} (path : String)

/-- The check of the table's size, when the table ends within it. -/
theorem checkTable_eq_ok (hmax : stop ≤ tableOffset + limits.maxTableBytes) {reader : DecryptReader} {left : List UInt8}
    (h : Presents tableOffset stop reader left) {α : Type} (call : Act DecryptReader Rho5Error α) :
    (do
      let reader ← Act.get
      let tableBytes ← Act.ofExcept (orElse (sub reader.logicalPosition tableOffset)
        (.arithmeticOverflow "RHO5 table length"))
      Act.require (¬tableBytes > limits.maxTableBytes) (.tableTooLarge path limits.maxTableBytes)
      call : Act DecryptReader Rho5Error α) reader = call reader := by
  obtain ⟨-, hstart, hstop, -⟩ := h
  have hsub : sub reader.logicalPosition tableOffset = some (reader.logicalPosition - tableOffset) :=
    sub_eq_some.2 ⟨hstart, rfl⟩
  have hle : ¬reader.logicalPosition - tableOffset > limits.maxTableBytes := by omega
  rw [Act.bind_of_ok (Act.get_eq_ok.2 ⟨rfl, rfl⟩), Act.bind_of_ok (Act.ofExcept_eq_ok.2 ⟨orElse_eq_ok.2 hsub, rfl⟩),
    Act.bind_of_ok (Act.require_eq_ok (x := ⟨⟩).2 ⟨hle, rfl⟩)]

/-- The rows are read one by one, when no path is too long. -/
theorem takes_readEntries (hn : Composes library.nfc) {placed : List PreparedEntry} {rows : List (List UInt8)}
    (hof : ∀ p ∈ placed, ∃ entry, PreparedOf library limits entry p)
    (hrows : Forall₂ (fun p row => tableEntryBytes p = .ok row) placed rows)
    (hle : ∀ p ∈ placed, (pathUnits p.path).length ≤ limits.maxPathUtf16Units)
    (hmax : stop ≤ tableOffset + limits.maxTableBytes) (entryIndex : Nat) :
    Takes (Presents tableOffset stop) (readEntries library path tableOffset limits placed.length entryIndex) rows.flatten
      (placed.map pendingOf) := by
  induction hrows generalizing entryIndex with
  | nil => exact Takes.pure _
  | @cons p row placed rows hrow hrows ih =>
    obtain ⟨entry, he⟩ := hof p mem_cons_self
    have hrest := (ih (fun q hq => hof q (mem_cons_of_mem _ hq)) (fun q hq => hle q (mem_cons_of_mem _ hq))
      (entryIndex + 1)).map (f := fun entries => pendingOf p :: entries)
    refine (takes_readPendingEntry hn he hrow path entryIndex (hle p mem_cons_self)).bind ?_
    intro reader rest hp
    rw [checkTable_eq_ok path hmax hp]
    exact hrest reader rest hp

/-- The rows are rejected, when a path is too long. -/
theorem rejects_readEntries (hn : Composes library.nfc) {placed : List PreparedEntry} {rows : List (List UInt8)}
    (hof : ∀ p ∈ placed, ∃ entry, PreparedOf library limits entry p)
    (hrows : Forall₂ (fun p row => tableEntryBytes p = .ok row) placed rows)
    (hgt : ∃ p ∈ placed, (pathUnits p.path).length > limits.maxPathUtf16Units)
    (hmax : stop ≤ tableOffset + limits.maxTableBytes) (entryIndex : Nat) :
    ∃ index units, Rejects (Presents tableOffset stop) (readEntries library path tableOffset limits placed.length entryIndex)
      rows.flatten (.pathTooLong path index units limits.maxPathUtf16Units) := by
  induction hrows generalizing entryIndex with
  | nil =>
    obtain ⟨p, hmem, -⟩ := hgt
    cases hmem
  | @cons p row placed rows hrow hrows ih =>
    obtain ⟨entry, he⟩ := hof p mem_cons_self
    by_cases hle : (pathUnits p.path).length ≤ limits.maxPathUtf16Units
    · -- this row is read, and a later one is rejected
      have hrest : ∃ q ∈ placed, (pathUnits q.path).length > limits.maxPathUtf16Units := by
        obtain ⟨q, hq, hq'⟩ := hgt
        rcases mem_cons.1 hq with rfl | hq
        · omega
        · exact ⟨q, hq, hq'⟩
      obtain ⟨index, units, hrejects⟩ := ih (fun q hq => hof q (mem_cons_of_mem _ hq)) hrest (entryIndex + 1)
      refine ⟨index, units, (takes_readPendingEntry hn he hrow path entryIndex hle).bind_rejects ?_⟩
      intro reader rest hp
      rw [checkTable_eq_ok path hmax hp]
      exact hrejects.bind reader rest hp
    · refine ⟨entryIndex, (pathUnits p.path).length, ?_⟩
      intro reader rest hp
      rw [flatten_cons, append_assoc] at hp
      exact (rejects_readPendingEntry hn he hrow path entryIndex (Nat.not_le.1 hle)).bind reader _ hp

end

/-- The table of a written archive begins what a reader from there hands out. -/
theorem Layout.pending_table (layout : Layout library entries name region limits bytes) :
    ∃ rest, (ofArchive bytes (library.keyWords (library.tableKey name region.mixingString)) layout.offsets.table).pending =
      layout.rows.flatten ++ rest := pending_ofArchive layout.table_fits layout.table_eq

/-- The table of a written archive is read, when no path is too long. -/
theorem Layout.readArchiveTable_eq_ok (layout : Layout library entries name region limits bytes) (hn : Composes library.nfc)
    (hle : ∀ p ∈ layout.placed, (pathUnits p.path).length ≤ limits.maxPathUtf16Units) :
    readArchiveTable library ⟨name, true, bytes⟩ ⟨name, bytes.length, layout.offsets, layout.placed.length⟩ region limits =
      .ok ⟨layout.placed.map pendingOf, layout.dataBase⟩ := by
  obtain ⟨rest, hpending⟩ := layout.pending_table
  obtain ⟨n, hn', hpad, -⟩ := length_pad layout.rows.flatten
  have hfits := layout.table_fits
  have hlt := layout.bytes_lt
  have hof : ∀ p ∈ layout.placed, ∃ entry, PreparedOf library limits entry p := by
    intro p hp
    obtain ⟨entry, -, he⟩ := layout.prepared_of_mem hp
    exact ⟨entry, he⟩
  obtain ⟨reader, hread, -, -, hl, -⟩ := takes_readEntries name hn hof layout.rows_eq hle
    (Nat.add_le_add_left layout.rows_le layout.offsets.table) 0 _ [] (presents_ofArchive (by omega) hpending)
  rw [length_nil, Nat.add_zero] at hl
  unfold readArchiveTable
  simp only [bind_eq_ok, ensure_eq_ok, hread, hl]
  exact ⟨_, rfl, layout.dataBase, layout.base_eq, (), Nat.not_lt.2 layout.base_le, rfl⟩

/-- The table of a written archive is rejected, when a path is too long. -/
theorem Layout.readArchiveTable_eq_error (layout : Layout library entries name region limits bytes) (hn : Composes library.nfc)
    (hgt : ∃ p ∈ layout.placed, (pathUnits p.path).length > limits.maxPathUtf16Units) :
    ∃ index units, readArchiveTable library ⟨name, true, bytes⟩
      ⟨name, bytes.length, layout.offsets, layout.placed.length⟩ region limits =
        .error (.pathTooLong name index units limits.maxPathUtf16Units) := by
  obtain ⟨rest, hpending⟩ := layout.pending_table
  obtain ⟨n, hn', hpad, -⟩ := length_pad layout.rows.flatten
  have hfits := layout.table_fits
  have hlt := layout.bytes_lt
  have hof : ∀ p ∈ layout.placed, ∃ entry, PreparedOf library limits entry p := by
    intro p hp
    obtain ⟨entry, -, he⟩ := layout.prepared_of_mem hp
    exact ⟨entry, he⟩
  obtain ⟨index, units, hrejects⟩ := rejects_readEntries name hn hof layout.rows_eq hgt
    (Nat.add_le_add_left layout.rows_le layout.offsets.table) 0
  have herr := hrejects _ [] (presents_ofArchive (by omega) hpending)
  refine ⟨index, units, ?_⟩
  unfold readArchiveTable
  simp only [bind_eq_error]
  exact .inl herr

/-! ## The index -/

/-- The index entry of a placed entry. -/
def entryOf (library : Rho5Library) (name : String) (region : Rho5Region) (archiveLength : Nat) (p : PreparedEntry) : Rho5Entry where
  normalizedPath := p.path
  rawPath := p.path
  archivePath := name
  archiveName := name
  archiveLength := archiveLength
  physicalDataOffset := p.physicalOffset
  compressedSize := p.compressed.length
  plaintextSize := p.plaintextSize
  plaintextMd5 := p.plaintextMd5
  flags := p.flags
  key := library.packedFileKey p.plaintextMd5 p.path region.mixingString

/-- The entries of a written archive are indexed where they were placed. -/
theorem Layout.finalizeEntries (layout : Layout library entries name region limits bytes) :
    finalizeEntries library ⟨name, true, bytes⟩ ⟨name, bytes.length, layout.offsets, layout.placed.length⟩
      ⟨layout.placed.map pendingOf, layout.dataBase⟩ region =
        .ok (layout.placed.map (entryOf library name region bytes.length)) := by
  unfold Rho5.finalizeEntries
  rw [traverse_eq_ok, forall₂_map_left_iff, forall₂_map_right_iff, forall₂_same]
  intro p hp
  have hat := layout.data_at p hp
  have hfits := (layout.data_eq p hp).1
  have hlt := layout.bytes_lt
  unfold finalizeEntry
  simp only [bind_eq_ok, orElse_eq_ok, mul_eq_some, add_eq_some, ensure_eq_ok, pendingOf]
  exact ⟨p.blockOffset * dataAlignment, ⟨rfl, by omega⟩, p.physicalOffset, ⟨by omega, by omega⟩,
    p.physicalOffset + p.compressed.length, ⟨rfl, by omega⟩, (), by omega, rfl⟩

/-- A written archive is parsed, when no path is too long. -/
theorem Layout.parseArchive_eq_ok (layout : Layout library entries name region limits bytes) (hn : Composes library.nfc)
    (hle : ∀ p ∈ layout.placed, (pathUnits p.path).length ≤ limits.maxPathUtf16Units) :
    parseArchive library ⟨name, true, bytes⟩ region limits =
      .ok (layout.placed.map (entryOf library name region bytes.length)) := by
  unfold parseArchive
  simp only [bind_eq_ok]
  exact ⟨_, layout.readArchiveDescriptor, _, layout.readArchiveTable_eq_ok hn hle, layout.finalizeEntries⟩

/-- A written archive is rejected, when a path is too long. -/
theorem Layout.parseArchive_eq_error (layout : Layout library entries name region limits bytes) (hn : Composes library.nfc)
    (hgt : ∃ p ∈ layout.placed, (pathUnits p.path).length > limits.maxPathUtf16Units) :
    ∃ index units, parseArchive library ⟨name, true, bytes⟩ region limits =
      .error (.pathTooLong name index units limits.maxPathUtf16Units) := by
  obtain ⟨index, units, herr⟩ := layout.readArchiveTable_eq_error hn hgt
  refine ⟨index, units, ?_⟩
  unfold parseArchive
  simp only [bind_eq_error]
  exact .inr ⟨_, layout.readArchiveDescriptor, .inl herr⟩

/-! ## Extraction -/

/-- The beginning that was encrypted twice is decrypted twice. -/
theorem decrypt_encrypt_beginning (words : Nat → UInt32) (n : Nat) (data : List UInt8) :
    decrypt words ((encrypt words (data.take n) ++ data.drop n).take n) ++
      (encrypt words (data.take n) ++ data.drop n).drop n = data := by
  by_cases hle : n ≤ data.length
  · have hlen : (encrypt words (data.take n)).length = n := by
      rw [length_encrypt, length_take]
      omega
    rw [take_left' hlen, drop_left' hlen, decrypt_encrypt, take_append_drop]
  · have hdrop : data.drop n = [] := drop_eq_nil_of_le (by omega)
    have htake : data.take n = data := take_of_length_le (by omega)
    have hlen : (encrypt words data).length ≤ n := by
      rw [length_encrypt]
      omega
    rw [hdrop, htake, append_nil, take_of_length_le hlen, drop_eq_nil_of_le hlen, decrypt_encrypt,
      append_nil]

/-- The data of a placed entry is decrypted to what was compressed. -/
theorem Layout.readDecryptedCompressed (layout : Layout library entries name region limits bytes) {files : List Rho5File}
    (hopen : openArchive files name = .ok bytes) {p : PreparedEntry} (hp : p ∈ layout.placed) :
    readDecryptedCompressed library files (entryOf library name region bytes.length p) = .ok p.compressed := by
  obtain ⟨hfits, hdata⟩ := layout.data_eq p hp
  have hlt := layout.bytes_lt
  have hend : p.physicalOffset + p.compressed.length < 2 ^ 64 := by omega
  unfold Rho5.readDecryptedCompressed
  simp only [bind_eq_ok, ensure_eq_ok, orElse_eq_ok, add_eq_some]
  refine ⟨bytes, hopen, (), rfl, p.physicalOffset + p.compressed.length, ⟨rfl, hend⟩, (), Nat.not_lt.2 hfits, ?_⟩
  simp only [entryOf]
  rw [hdata, encryptEntry, decrypt_encrypt_beginning, decrypt_encrypt]
  rfl

/-- A placed entry is extracted. -/
theorem Layout.extractEntry (layout : Layout library entries name region limits bytes) (hz : library.zlib.Inverts)
    {files : List Rho5File} (hopen : openArchive files name = .ok bytes) {entry : Rho5WriteEntry} {p : PreparedEntry}
    (hp : p ∈ layout.placed) (hof : PreparedOf library limits entry p) :
    extractEntry library files (entryOf library name region bytes.length p) limits = .ok entry.data := by
  have hinflate := hz entry.data p.compressed (p.plaintextSize + 1) hof.stream (by rw [hof.size]; omega)
  have hsize : ¬p.plaintextSize > limits.maxPlaintextBytes := by
    rw [hof.size]
    exact Nat.not_lt.2 hof.size_le
  have hcompressed := layout.readDecryptedCompressed hopen hp
  unfold Rho5.extractEntry extractEntryWithTrailingLimit
  simp only [bind_eq_ok, ensure_eq_ok]
  refine ⟨(), Nat.not_lt.2 hof.stream_le, (), hsize, p.compressed, hcompressed, ?_⟩
  unfold decompressAndAuthenticate
  simp only [bind_eq_ok, ensure_eq_ok, orElse_eq_ok, mapError_eq_ok, sub_eq_some]
  exact ⟨_, hinflate, (), Nat.not_lt.2 (Nat.le_of_eq hof.size.symm), 0, ⟨Nat.le_refl _, Nat.sub_self _⟩, (), Nat.lt_irrefl _,
    (), hof.size.symm, (), hof.md5.symm, rfl⟩

end

end Rho5

end P5136
