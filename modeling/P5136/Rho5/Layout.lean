import P5136.Lib.Elementwise
import P5136.Rho5.Writer
import Mathlib.Data.List.Perm.Basic

/-!
# The layout of a written archive

What a written archive holds, and where: the header and the table at the offsets of its name, the padding of the table perhaps
written over by the first data, and the data of each entry at its own offset, apart from all others.
-/

namespace P5136

namespace Rho5

open Checks LittleEndian WordCipher List Window

/-! ## Offsets -/

/-- An aligned value is the next multiple of the alignment. -/
theorem alignUp_eq_ok {value aligned : Nat} (h : alignUp value dataAlignment = .ok aligned) :
    value ≤ aligned ∧ aligned % dataAlignment = 0 := by
  unfold alignUp at h
  simp only [bind_eq_ok, orElse_eq_ok, Checked.sub_eq_some, Checked.add_eq_some] at h
  obtain ⟨mask, ⟨-, rfl⟩, sum, ⟨rfl, -⟩, h⟩ := h
  cases h
  have hand : (value + (dataAlignment - 1)) &&& (dataAlignment - 1) = (value + (dataAlignment - 1)) % dataAlignment :=
    Nat.and_two_pow_sub_one_eq_mod _ 10
  rw [hand]
  simp only [dataAlignment]
  omega

/-- The table begins behind the header. -/
theorem archiveOffsets_apart {name : String} {offsets : Rho5Offsets} (h : archiveOffsets name = .ok offsets) :
    offsets.header + 0x2a ≤ offsets.table := by
  unfold archiveOffsets at h
  simp only [bind_eq_ok, ensure_eq_ok, orElse_eq_ok, Checked.add_eq_some] at h
  obtain ⟨_, _, sum, _, header, ⟨rfl, _⟩, tripled, _, table, ⟨rfl, _⟩, h⟩ := h
  cases h
  simp only
  omega

/-! ## Prepared entries -/

/-- What an entry is prepared to. -/
structure PreparedOf (library : Rho5Library) (limits : Rho5Limits) (entry : Rho5WriteEntry) (prepared : PreparedEntry) :
    Prop where
  path : normalizePath library entry.path limits = .ok prepared.path
  units : prepared.pathUnits = (pathUnits prepared.path).length
  flags : prepared.flags = entry.flags
  size : prepared.plaintextSize = entry.data.length
  size_le : entry.data.length ≤ limits.maxPlaintextBytes
  md5 : prepared.plaintextMd5 = library.md5 entry.data
  stream : library.zlib.compress entry.data = .ok prepared.compressed
  stream_le : prepared.compressed.length ≤ limits.maxCompressedBytes

section

variable {library : Rho5Library} {limits : Rho5Limits}

/-- An entry that is prepared repeats no path that was seen. -/
theorem prepareEntry_spec {seen : List String} {entry : Rho5WriteEntry} {prepared : PreparedEntry}
    (h : prepareEntry library limits seen entry = .ok prepared) :
    PreparedOf library limits entry prepared ∧ toAsciiLowercase prepared.path ∉ seen := by
  unfold prepareEntry at h
  simp only [bind_eq_ok, ensure_eq_ok, mapError_eq_ok] at h
  obtain ⟨path, hpath, _, _, _, hseen, _, hsize, compressed, hstream, _, hcompressed, h⟩ := h
  cases h
  exact ⟨⟨hpath, rfl, rfl, rfl, Nat.not_lt.1 hsize, rfl, hstream, Nat.not_lt.1 hcompressed⟩, hseen⟩

/-- The entries are prepared in order, and no two have one path. -/
theorem prepareEntries_spec {seen : List String} {entries : List Rho5WriteEntry} {prepared : List PreparedEntry}
    (h : prepareEntries library limits seen entries = .ok prepared) :
    Forall₂ (PreparedOf library limits) entries prepared ∧
      (prepared.map (fun p => toAsciiLowercase p.path)).Nodup ∧ ∀ p ∈ prepared, toAsciiLowercase p.path ∉ seen := by
  induction entries generalizing seen prepared with
  | nil =>
    cases h
    exact ⟨.nil, nodup_nil, by simp⟩
  | cons entry entries ih =>
    unfold prepareEntries at h
    simp only [bind_eq_ok] at h
    obtain ⟨p, hp, rest, hrest, h⟩ := h
    cases h
    obtain ⟨hof, hseen⟩ := prepareEntry_spec hp
    obtain ⟨hall, hnodup, hnew⟩ := ih hrest
    refine ⟨.cons hof hall, ?_, ?_⟩
    · rw [map_cons, nodup_cons]
      refine ⟨fun hmem => ?_, hnodup⟩
      obtain ⟨q, hq, heq⟩ := mem_map.1 hmem
      exact hnew q hq (heq ▸ mem_cons_self)
    · intro q hq
      rcases mem_cons.1 hq with rfl | hq
      · exact hseen
      · exact fun hmem => hnew q hq (mem_cons_of_mem _ hmem)

end

/-! ## The table -/

/-- The size of the table bytes of an entry. -/
def rowSize (entry : PreparedEntry) : Nat := 4 + entry.pathUnits * 2 + metadataBytes

/-- The size of the table is that of its rows. -/
theorem tableSize_eq_some {total size : Nat} {entries : List PreparedEntry} (h : tableSize total entries = some size) :
    size = total + (entries.map rowSize).sum := by
  induction entries generalizing total with
  | nil =>
    cases h
    simp
  | cons entry entries ih =>
    unfold tableSize at h
    simp only [Option.bind_eq_some_iff, Checked.mul_eq_some, Checked.add_eq_some] at h
    obtain ⟨_, ⟨rfl, -⟩, _, ⟨rfl, -⟩, _, ⟨rfl, -⟩, _, ⟨rfl, -⟩, h⟩ := h
    rw [ih h, map_cons, sum_cons, rowSize]
    omega

/-- The numbers in the row of an entry. -/
structure Row (entry : PreparedEntry) (row : List UInt8) where
  units : Int32
  blockOffset : Int32
  plaintextSize : Int32
  compressedSize : Int32
  units_eq : Checked.toInt32 (pathUnits entry.path).length = some units
  blockOffset_eq : Checked.toInt32 entry.blockOffset = some blockOffset
  plaintextSize_eq : Checked.toInt32 entry.plaintextSize = some plaintextSize
  compressedSize_eq : Checked.toInt32 entry.compressed.length = some compressedSize
  row_eq : row = (ofInt32 units ++ (pathUnits entry.path).flatMap ofU16) ++
    (ofInt32 (entryChecksum entry.flags blockOffset plaintextSize compressedSize entry.plaintextMd5) ++
    (ofInt32 entry.flags ++ (ofInt32 blockOffset ++ (ofInt32 plaintextSize ++
    (ofInt32 compressedSize ++ entry.plaintextMd5.toList)))))

/-- The row that is written is that of the numbers, which all fit. -/
theorem tableEntryBytes_eq_ok {entry : PreparedEntry} {row : List UInt8} (h : tableEntryBytes entry = .ok row) :
    Nonempty (Row entry row) := by
  unfold tableEntryBytes at h
  simp only [bind_eq_ok, orElse_eq_ok] at h
  obtain ⟨units, hu, blockOffset, hb, plaintextSize, hp, compressedSize, hc, h⟩ := h
  cases h
  exact ⟨⟨units, blockOffset, plaintextSize, compressedSize, hu, hb, hp, hc, by simp only [append_assoc]⟩⟩

/-- The size of a row. -/
theorem Row.length_eq {entry : PreparedEntry} {row : List UInt8} (r : Row entry row)
    (hu : entry.pathUnits = (pathUnits entry.path).length) : row.length = rowSize entry := by
  rw [r.row_eq, rowSize, hu]
  simp only [length_append, length_ofInt32, length_flatMap_ofU16, Vector.length_toList,
    metadataBytes]

/-! ## The data -/

/-- The data of one entry ends before that of another begins. -/
def DataBefore (left right : PreparedEntry) : Prop := left.physicalOffset + left.compressed.length ≤ right.physicalOffset

/-- An entry with its offsets, which name one place. -/
structure PlacedAt (dataBase : Nat) (entry placed : PreparedEntry) : Prop where
  eq : placed = { entry with physicalOffset := placed.physicalOffset, blockOffset := placed.blockOffset }
  offset : placed.physicalOffset = dataBase + placed.blockOffset * dataAlignment

/-- The entries are placed one behind the other, from the cursor to the end. -/
theorem placeEntries_spec {dataBase cursor stop : Nat} {entries placed : List PreparedEntry}
    (hb : dataBase % dataAlignment = 0) (hle : dataBase ≤ cursor)
    (h : placeEntries dataBase cursor entries = .ok (placed, stop)) :
    Forall₂ (PlacedAt dataBase) entries placed ∧ placed.Pairwise DataBefore ∧ cursor ≤ stop ∧
      (∀ p ∈ placed, cursor ≤ p.physicalOffset ∧ p.physicalOffset + p.compressed.length ≤ stop) ∧
      (entries ≠ [] → stop < 2 ^ 64) := by
  induction entries generalizing cursor placed with
  | nil =>
    cases h
    exact ⟨.nil, .nil, Nat.le_refl _, by simp, by simp⟩
  | cons entry entries ih =>
    unfold placeEntries at h
    simp only [bind_eq_ok, mapError_eq_ok, orElse_eq_ok, Checked.sub_eq_some, Checked.add_eq_some] at h
    obtain ⟨aligned, halign, relative, ⟨hbase, rfl⟩, next, ⟨rfl, hlt⟩, ⟨rest, stop'⟩, hrest, h⟩ := h
    cases h
    obtain ⟨hup, hmod⟩ := alignUp_eq_ok halign
    obtain ⟨hall, hpair, hstop, hin, hfin⟩ := ih (by omega) hrest
    refine ⟨.cons ⟨rfl, ?_⟩ hall, ?_, by omega, ?_, ?_⟩
    · simp only [dataAlignment] at hb hmod ⊢
      omega
    · rw [pairwise_cons]
      exact ⟨fun p hp => (hin p hp).1, hpair⟩
    · intro p hp
      rcases mem_cons.1 hp with rfl | hp
      · exact ⟨hup, hstop⟩
      · have hp' := hin p hp
        exact ⟨by omega, hp'.2⟩
    · intro _
      cases entries with
      | nil =>
        cases hrest
        exact hlt
      | cons e es => exact hfin (by simp)

/-- The encrypted data is as long as the compressed data. -/
@[simp] theorem length_encryptEntry (library : Rho5Library) (region : Rho5Region) (entry : PreparedEntry) :
    (encryptEntry library region entry).length = entry.compressed.length := by
  simp only [encryptEntry, length_append, length_encrypt, length_take, length_drop]
  omega

/-- The data of each entry stands where it was placed, and what lies before all of it stays. -/
theorem writeData_spec {library : Rho5Library} {region : Rho5Region} {output out : List UInt8} {entries : List PreparedEntry}
    (hpair : entries.Pairwise DataBefore) (h : writeData library region output entries = .ok out) :
    out.length = output.length ∧
      (∀ p ∈ entries, p.physicalOffset + p.compressed.length ≤ out.length ∧
        window p.physicalOffset p.compressed.length out = encryptEntry library region p) ∧
      ∀ start length, (∀ p ∈ entries, start + length ≤ p.physicalOffset) →
        window start length out = window start length output := by
  induction entries generalizing output with
  | nil =>
    cases h
    exact ⟨rfl, by simp, fun _ _ _ => rfl⟩
  | cons entry entries ih =>
    unfold writeData at h
    simp only [bind_eq_ok, copyAt, orElse_eq_ok] at h
    obtain ⟨output', hput, h⟩ := h
    rw [pairwise_cons] at hpair
    obtain ⟨hlen, hin, hstay⟩ := ih hpair.2 h
    have hlen' := length_of_patch hput
    have hfits := (patch_eq_some.1 hput).1
    rw [length_encryptEntry] at hfits
    refine ⟨by rw [hlen, hlen'], ?_, ?_⟩
    · intro p hp
      rcases mem_cons.1 hp with rfl | hp
      · refine ⟨by omega, ?_⟩
        have hshow := window_of_patch hput
        rw [length_encryptEntry] at hshow
        rw [hstay _ _ hpair.1, hshow]
      · exact hin p hp
    · intro start length hbefore
      rw [hstay start length (fun p hp => hbefore p (mem_cons_of_mem _ hp))]
      exact window_of_patch_apart hput (.inl (hbefore entry mem_cons_self))

/-! ## The whole archive -/

/-- What is prepared does not depend on where it is placed. -/
theorem PreparedOf.placed {library : Rho5Library} {limits : Rho5Limits} {entry : Rho5WriteEntry}
    {prepared placed : PreparedEntry} {dataBase : Nat} (h : PreparedOf library limits entry prepared)
    (hp : PlacedAt dataBase prepared placed) : PreparedOf library limits entry placed := by
  rw [hp.eq]
  exact ⟨h.path, h.units, h.flags, h.size, h.size_le, h.md5, h.stream, h.stream_le⟩

/-- The layout of a written archive: its entries in the order of the table, where they are placed, and what stands where. -/
structure Layout (library : Rho5Library) (entries : List Rho5WriteEntry) (name : String) (region : Rho5Region)
    (limits : Rho5Limits) (bytes : List UInt8) where
  sorted : List Rho5WriteEntry
  placed : List PreparedEntry
  rows : List (List UInt8)
  offsets : Rho5Offsets
  dataBase : Nat
  fileCount : Int32
  limits_ok : validateLimits limits = .ok ()
  name_ok : validateArchiveName name limits = .ok ()
  sorted_perm : sorted.Perm entries
  prepared : Forall₂ (PreparedOf library limits) sorted placed
  nodup : (placed.map (fun p => toAsciiLowercase p.path)).Nodup
  nonempty : placed ≠ []
  count_le : placed.length ≤ limits.maxFilesPerArchive
  count_eq : Checked.toInt32 placed.length = some fileCount
  rows_eq : Forall₂ (fun p row => tableEntryBytes p = .ok row) placed rows
  rows_le : rows.flatten.length ≤ limits.maxTableBytes
  offsets_eq : archiveOffsets name = .ok offsets
  base_eq : alignUp (offsets.table + rows.flatten.length) dataAlignment = .ok dataBase
  base_le : dataBase ≤ bytes.length
  bytes_le : bytes.length ≤ limits.maxArchiveBytes
  bytes_lt : bytes.length < 2 ^ 64
  header_eq : window offsets.header 12 bytes =
    encryptStream (library.keyWords (library.headerKey name region.mixingString)) (headerBytes fileCount)
  table_fits : offsets.table + (pad rows.flatten).length ≤ bytes.length
  table_eq : window offsets.table rows.flatten.length bytes =
    (encryptStream (library.keyWords (library.tableKey name region.mixingString)) rows.flatten).take rows.flatten.length
  data_at : ∀ p ∈ placed, p.physicalOffset = dataBase + p.blockOffset * dataAlignment
  data_eq : ∀ p ∈ placed, p.physicalOffset + p.compressed.length ≤ bytes.length ∧
    window p.physicalOffset p.compressed.length bytes = encryptEntry library region p

/-- The length of all rows. -/
theorem length_flatten_rows {placed : List PreparedEntry} {rows : List (List UInt8)}
    (hu : ∀ p ∈ placed, p.pathUnits = (pathUnits p.path).length)
    (h : Forall₂ (fun p row => tableEntryBytes p = .ok row) placed rows) :
    rows.flatten.length = (placed.map rowSize).sum := by
  induction h with
  | nil => rfl
  | @cons p row placed rows hrow _ ih =>
    obtain ⟨r⟩ := tableEntryBytes_eq_ok hrow
    rw [flatten_cons, length_append, r.length_eq (hu p mem_cons_self),
      ih (fun q hq => hu q (mem_cons_of_mem _ hq)), map_cons, sum_cons]

/-- The header takes three words. -/
@[simp] theorem length_encryptStream_header (words : Nat → UInt32) (fileCount : Int32) :
    (encryptStream words (headerBytes fileCount)).length = 12 := by
  simp [encryptStream, headerBytes, pad]

/-- What the encoder returns has a layout. -/
theorem encode_layout {library : Rho5Library} {writer : Rho5Writer} {name : String} {region : Rho5Region}
    {limits : Rho5Limits} {encoded : Rho5Encoded} (h : writer.encode library name region limits = .ok encoded) :
    Nonempty (Layout library writer.entries name region limits encoded.bytes) := by
  unfold Rho5Writer.encode at h
  simp only [bind_eq_ok, ensure_eq_ok, mapError_eq_ok, orElse_eq_ok, Checked.add_eq_some, copyAt,
    traverse_eq_ok] at h
  obtain ⟨⟨⟩, hlimits, ⟨⟩, hname, _, hentries, _, hcount, collected, hcollected, offsets, hoffsets, size, hsize, _, hsizeLe,
    tableEnd, ⟨rfl, -⟩, dataBase, hbase, ⟨placed, stop⟩, hplaced, _, hstopLe, fileCount, hfileCount, output₁, hput₁, rows,
    hrows, output₂, hput₂, output₃, hdata, h⟩ := h
  cases h
  simp only at *
  obtain ⟨hprepared, hnodup, -⟩ := prepareEntries_spec hcollected
  -- the entries in the order of the table
  have hperm : collected.Perm (collected.mergeSort tableOrder) := (mergeSort_perm _ _).symm
  obtain ⟨sorted, hsorted, hpreparedSorted⟩ : ∃ sorted, writer.entries.Perm sorted ∧
      Forall₂ (PreparedOf library limits) sorted (collected.mergeSort tableOrder) := by
    have hcomp : Relation.Comp (Forall₂ (PreparedOf library limits)) Perm writer.entries
        (collected.mergeSort tableOrder) := ⟨collected, hprepared, hperm⟩
    rwa [forall₂_comp_perm_eq_perm_comp_forall₂] at hcomp
  obtain ⟨hbaseLe, hbaseMod⟩ := alignUp_eq_ok hbase
  obtain ⟨hall, hpair, hstop, hin, hfin⟩ := placeEntries_spec hbaseMod (Nat.le_refl _) hplaced
  obtain ⟨hlen, hshow, hstay⟩ := writeData_spec hpair hdata
  have hof : Forall₂ (PreparedOf library limits) sorted placed :=
    Elementwise.comp (fun _ _ _ h hp => h.placed hp) hpreparedSorted hall
  have hunits : ∀ p ∈ placed, p.pathUnits = (pathUnits p.path).length := by
    intro p hp
    obtain ⟨entry, -, he⟩ := Elementwise.exists_left hof hp
    exact he.units
  have hpaths : (collected.mergeSort tableOrder).map (fun p => toAsciiLowercase p.path) =
      placed.map (fun p => toAsciiLowercase p.path) :=
    Elementwise.map_eq (fun _ _ hp => by rw [hp.eq]) hall
  have hsizes : (collected.mergeSort tableOrder).map rowSize = placed.map rowSize :=
    Elementwise.map_eq (fun _ _ hp => by rw [hp.eq]; rfl) hall
  have hrowsSize : size = rows.flatten.length := by
    rw [length_flatten_rows hunits hrows, ← hsizes, tableSize_eq_some hsize, Nat.zero_add]
  subst hrowsSize
  have hne : collected.mergeSort tableOrder ≠ [] := by
    intro hnil
    rw [hnil] at hpreparedSorted
    cases hpreparedSorted
    exact hentries (perm_nil.1 hsorted)
  have hlen₁ := length_of_patch hput₁
  have hlen₂ := length_of_patch hput₂
  have hfits₁ := (patch_eq_some.1 hput₁).1
  have hfits₂ := (patch_eq_some.1 hput₂).1
  have htotal : output₃.length = stop := by
    rw [hlen, hlen₂, hlen₁, length_replicate]
  have hapart := archiveOffsets_apart hoffsets
  obtain ⟨n, hpad, hpadLe, -⟩ := length_pad rows.flatten
  refine ⟨⟨sorted, placed, rows, offsets, dataBase, fileCount, hlimits, hname, hsorted.symm, hof, ?_, ?_, ?_, hfileCount,
    hrows, by omega, hoffsets, hbase, by omega, by omega, ?_, ?_, ?_, ?_, ?_, ?_⟩⟩
  · rw [← hpaths]
    exact (hperm.map _).nodup_iff.1 hnodup
  · rintro rfl
    exact hne (forall₂_nil_right_iff.1 hall)
  · rw [← hof.length_eq, ← hsorted.length_eq]
    omega
  · rw [htotal]
    exact hfin hne
  · -- the header stands before the table and before all data
    have hheader := window_of_patch hput₁
    rw [length_encryptStream_header] at hheader
    rw [hstay offsets.header 12 (fun p hp => by have := (hin p hp).1; omega),
      window_of_patch_apart hput₂ (.inl (by omega)), hheader]
  · rw [encryptStream, length_encrypt] at hfits₂
    omega
  · -- the table stands before all data, which may begin in its padding
    have htable := window_of_patch hput₂
    rw [encryptStream, length_encrypt] at htable
    rw [hstay offsets.table _ (fun p hp => by have := (hin p hp).1; omega), encryptStream, ← htable, take_window (by omega)]
  · intro p hp
    obtain ⟨q, -, hq⟩ := Elementwise.exists_left hall hp
    exact hq.offset
  · exact hshow

end Rho5

end P5136
