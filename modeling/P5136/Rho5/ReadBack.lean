import P5136.Rho5.RoundTrip

/-!
# Written archives are read back, when they are

When a written archive can be read under its own name, region and limits: by the parser of archives exactly when no normalised
path has too many UTF-16 units, and by a scan of a directory exactly when the limits on totals hold besides and the name has an
extension. The writer checks neither. Whatever is read back lists exactly the entries, and each of them is extracted.
-/

namespace P5136

namespace Rho5

/-- How long the data of an entry is when it is compressed. -/
def compressedLength (library : Rho5Library) (entry : Rho5WriteEntry) : Nat :=
  match library.zlib.compress entry.data with
  | .ok stream => stream.length
  | .error _ => 0

/-- Entries are read back as an index: it lists exactly their normalised paths with their flags and sizes, and from it the data
of each is extracted. -/
structure ReadBack (library : Rho5Library) (files : List Rho5File) (limits : Rho5Limits) (entries : List Rho5WriteEntry)
    (index : List Rho5Entry) : Prop where
  listed : (index.map (fun found =>
      (Except.ok found.normalizedPath, found.flags, found.plaintextSize, found.compressedSize))).Perm
    (entries.map (fun entry =>
      (normalizePath library entry.path limits, entry.flags, entry.data.length, compressedLength library entry)))
  extracted : ∀ entry ∈ entries, ∃ found ∈ index, normalizePath library entry.path limits = .ok found.normalizedPath ∧
    extractEntry library files found limits = .ok entry.data

end Rho5

open Rho5

/-- No normalised path has more UTF-16 units than the reader accepts. -/
def Rho5Writer.PathsFit (library : Rho5Library) (writer : Rho5Writer) (limits : Rho5Limits) : Prop :=
  ∀ entry ∈ writer.entries, ∀ path, normalizePath library entry.path limits = .ok path →
    (pathUnits path).length ≤ limits.maxPathUtf16Units

/-- The entries are within the limits on all the archives of a directory. -/
structure Rho5Writer.TotalsFit (library : Rho5Library) (writer : Rho5Writer) (limits : Rho5Limits) : Prop where
  files : writer.entries.length ≤ limits.maxTotalFiles
  compressed : (writer.entries.map (compressedLength library)).sum ≤ limits.maxTotalDeclaredCompressedBytes
  plaintext : (writer.entries.map (fun entry => entry.data.length)).sum ≤ limits.maxTotalDeclaredPlaintextBytes

namespace Rho5

variable {library : Rho5Library} {limits : Rho5Limits} {entries : List Rho5WriteEntry} {name : String} {region : Rho5Region}
  {bytes : List UInt8}

/-! ## The index of a layout -/

/-- The index of a layout. -/
def Layout.index (layout : Layout library entries name region limits bytes) : List Rho5Entry :=
  layout.placed.map (entryOf library name region bytes.length)

/-- A prepared entry has the compressed length of its entry. -/
theorem PreparedOf.compressedLength_eq {entry : Rho5WriteEntry} {p : PreparedEntry}
    (h : PreparedOf library limits entry p) : compressedLength library entry = p.compressed.length := by
  rw [compressedLength, h.stream]

/-- The index of a layout reads the entries back. -/
theorem Layout.readBack (layout : Layout library entries name region limits bytes) (hz : library.zlib.Inverts)
    {files : List Rho5File} (hopen : openArchive files name = .ok bytes) :
    ReadBack library files limits entries layout.index where
  listed := by
    have hmap : layout.sorted.map (fun entry => (normalizePath library entry.path limits, entry.flags, entry.data.length,
        compressedLength library entry)) = layout.placed.map (fun p => (Except.ok p.path, p.flags, p.plaintextSize,
        p.compressed.length)) :=
      Elementwise.map_eq (fun entry p h => by rw [h.path, h.flags, h.size, h.compressedLength_eq]) layout.prepared
    have hindex : layout.index.map (fun found => ((Except.ok found.normalizedPath : Except Rho5Error String), found.flags,
        found.plaintextSize, found.compressedSize)) = layout.placed.map (fun p => (Except.ok p.path, p.flags, p.plaintextSize,
        p.compressed.length)) := by
      rw [Layout.index, List.map_map]
      rfl
    rw [hindex, ← hmap]
    exact layout.sorted_perm.map _
  extracted := by
    intro entry he
    obtain ⟨p, hp, hof⟩ := Elementwise.exists_right layout.prepared (layout.sorted_perm.mem_iff.2 he)
    exact ⟨_, List.mem_map_of_mem hp, hof.path, layout.extractEntry hz hopen hp hof⟩

/-- The paths of a layout are those of the entries. -/
theorem Layout.pathsFit_iff {writer : Rho5Writer} (layout : Layout library writer.entries name region limits bytes) :
    writer.PathsFit library limits ↔ ∀ p ∈ layout.placed, (pathUnits p.path).length ≤ limits.maxPathUtf16Units := by
  constructor
  · intro h p hp
    obtain ⟨entry, he, hof⟩ := layout.prepared_of_mem hp
    exact h entry he p.path hof.path
  · intro h entry he path hpath
    obtain ⟨p, hp, hof⟩ := Elementwise.exists_right layout.prepared (layout.sorted_perm.mem_iff.2 he)
    rw [hof.path, Except.ok.injEq] at hpath
    exact hpath ▸ h p hp

/-- A written archive is parsed exactly when no path is too long, and then to the index of its layout. -/
theorem Layout.parseArchive_eq_ok_iff {writer : Rho5Writer} (layout : Layout library writer.entries name region limits bytes)
    (hn : Composes library.nfc) {index : List Rho5Entry} :
    parseArchive library ⟨name, true, bytes⟩ region limits = .ok index ↔
      writer.PathsFit library limits ∧ index = layout.index := by
  rw [layout.pathsFit_iff]
  by_cases hle : ∀ p ∈ layout.placed, (pathUnits p.path).length ≤ limits.maxPathUtf16Units
  · rw [layout.parseArchive_eq_ok hn hle, Except.ok.injEq, eq_comm]
    exact ⟨fun h => ⟨hle, h⟩, And.right⟩
  · have hgt : ∃ p ∈ layout.placed, (pathUnits p.path).length > limits.maxPathUtf16Units := by
      simpa only [not_forall, Nat.not_le, exists_prop] using hle
    obtain ⟨i, u, herr⟩ := layout.parseArchive_eq_error hn hgt
    rw [herr]
    constructor
    · rintro ⟨⟩
    · rintro ⟨h, -⟩
      exact absurd h hle

/-! ## Totals -/

/-- The sizes of entries are added up exactly when the sums stay within the limits. -/
theorem addDeclaredSizes_eq_ok {compressed plaintext : Nat} {index : List Rho5Entry}
    (hc : compressed ≤ limits.maxTotalDeclaredCompressedBytes) (hp : plaintext ≤ limits.maxTotalDeclaredPlaintextBytes)
    (hcLt : compressed + (index.map Rho5Entry.compressedSize).sum < 2 ^ 64)
    (hpLt : plaintext + (index.map Rho5Entry.plaintextSize).sum < 2 ^ 64) :
    (∃ totals, addDeclaredSizes limits compressed plaintext index = .ok totals) ↔
      compressed + (index.map Rho5Entry.compressedSize).sum ≤ limits.maxTotalDeclaredCompressedBytes ∧
      plaintext + (index.map Rho5Entry.plaintextSize).sum ≤ limits.maxTotalDeclaredPlaintextBytes := by
  induction index generalizing compressed plaintext with
  | nil =>
    refine ⟨fun _ => ⟨hc, hp⟩, fun _ => ⟨_, rfl⟩⟩
  | cons found index ih =>
    rw [List.map_cons, List.sum_cons] at hcLt hpLt
    rw [List.map_cons, List.map_cons, List.sum_cons, List.sum_cons]
    unfold addDeclaredSizes addDeclaredSize
    simp only [Checks.bind_eq_ok, Checks.orElse_eq_ok, Checked.add_eq_some, Checks.ensure_eq_ok]
    constructor
    · rintro ⟨totals, _, ⟨_, ⟨rfl, -⟩, _, hcLe, hret⟩, _, ⟨_, ⟨rfl, -⟩, _, hpLe, hret'⟩, hrest⟩
      cases hret
      cases hret'
      have hsums := (ih (Nat.not_lt.1 hcLe) (Nat.not_lt.1 hpLe) (by omega) (by omega)).1 ⟨totals, hrest⟩
      omega
    · rintro ⟨hcLe, hpLe⟩
      obtain ⟨totals, hrest⟩ : ∃ totals, addDeclaredSizes limits (compressed + found.compressedSize)
          (plaintext + found.plaintextSize) index = .ok totals :=
        (ih (by omega) (by omega) (by omega) (by omega)).2 ⟨by omega, by omega⟩
      exact ⟨totals, _, ⟨_, ⟨rfl, by omega⟩, (), by omega, rfl⟩, _, ⟨_, ⟨rfl, by omega⟩, (), by omega, rfl⟩, hrest⟩

/-- Numbers below a bound add up to less than that many times the bound. -/
theorem sum_lt_of_lt {l : List Nat} (hl : l.length < 2 ^ 31) (h : ∀ n ∈ l, n < 2 ^ 31) : l.sum < 2 ^ 64 := by
  have hle : l.sum ≤ l.length * 2 ^ 31 := by
    clear hl
    induction l with
    | nil => simp
    | cons n l ih =>
      have hn := h n List.mem_cons_self
      have hsum := ih (fun m hm => h m (List.mem_cons_of_mem _ hm))
      rw [List.sum_cons, List.length_cons]
      omega
  omega

/-- The sizes in the index of a layout do not overflow when they are added up. -/
theorem Layout.sums_lt (layout : Layout library entries name region limits bytes) :
    (layout.index.map Rho5Entry.compressedSize).sum < 2 ^ 64 ∧ (layout.index.map Rho5Entry.plaintextSize).sum < 2 ^ 64 := by
  have hcount := (Checked.toInt32_eq_some.1 layout.count_eq).2
  have hrow : ∀ p ∈ layout.placed, p.compressed.length < 2 ^ 31 ∧ p.plaintextSize < 2 ^ 31 := by
    intro p hp
    obtain ⟨row, -, hrow⟩ := Elementwise.exists_right layout.rows_eq hp
    obtain ⟨r⟩ := tableEntryBytes_eq_ok hrow
    exact ⟨(Checked.toInt32_eq_some.1 r.compressedSize_eq).2, (Checked.toInt32_eq_some.1 r.plaintextSize_eq).2⟩
  constructor
  · refine sum_lt_of_lt (by simpa [Layout.index] using hcount) (fun n hn => ?_)
    rw [Layout.index, List.map_map] at hn
    obtain ⟨p, hp, rfl⟩ := List.mem_map.1 hn
    exact (hrow p hp).1
  · refine sum_lt_of_lt (by simpa [Layout.index] using hcount) (fun n hn => ?_)
    rw [Layout.index, List.map_map] at hn
    obtain ⟨p, hp, rfl⟩ := List.mem_map.1 hn
    exact (hrow p hp).2

/-- The sums over the index of a layout are those over the entries. -/
theorem Layout.sums_eq (layout : Layout library entries name region limits bytes) :
    layout.index.length = entries.length ∧
      (layout.index.map Rho5Entry.compressedSize).sum = (entries.map (compressedLength library)).sum ∧
      (layout.index.map Rho5Entry.plaintextSize).sum = (entries.map (fun entry => entry.data.length)).sum := by
  have hcompressed : layout.sorted.map (compressedLength library) = layout.index.map Rho5Entry.compressedSize := by
    rw [Layout.index, List.map_map]
    exact Elementwise.map_eq (fun _ _ h => h.compressedLength_eq) layout.prepared
  have hplaintext : layout.sorted.map (fun entry => entry.data.length) = layout.index.map Rho5Entry.plaintextSize := by
    rw [Layout.index, List.map_map]
    exact Elementwise.map_eq (fun _ _ h => h.size.symm) layout.prepared
  refine ⟨?_, ?_, ?_⟩
  · rw [Layout.index, List.length_map, ← layout.prepared.length_eq, layout.sorted_perm.length_eq]
  · rw [← hcompressed]
    exact (layout.sorted_perm.map _).sum_nat
  · rw [← hplaintext]
    exact (layout.sorted_perm.map _).sum_nat

/-! ## Scanning a directory -/

/-- Only the dot is the dot in lower case. -/
theorem eq_dot_of_toLower {c : Char} (h : c.toLower = '.') : c = '.' := by
  unfold Char.toLower at h
  split at h
  · rename_i hupper
    have hval := congrArg Char.val h
    have hn := congrArg UInt32.toNat hval
    obtain ⟨hge, hle⟩ := hupper
    have h1 : 65 ≤ c.val.toNat := UInt32.le_iff_toNat_le.1 hge
    have h2 : c.val.toNat ≤ 90 := UInt32.le_iff_toNat_le.1 hle
    simp only [UInt32.toNat_add] at hn
    have hd : (46 : Nat) = ('.' : Char).val.toNat := rfl
    have hs : (('a'.val - 'A'.val : UInt32)).toNat = 32 := rfl
    rw [← hd] at hn
    omega
  · exact h

/-- A name that the writer accepts has an extension exactly when it is more than the extension. -/
theorem hasRho5Extension_iff {name : String} (h : validateArchiveName name limits = .ok ()) :
    hasRho5Extension name = true ↔ toAsciiLowercase name ≠ ".rho5" := by
  unfold validateArchiveName at h
  simp only [Checks.bind_eq_ok, Checks.ensure_eq_ok] at h
  obtain ⟨_, ⟨-, -, hsuffix⟩, -⟩ := h
  have hrho5 : ".rho5".toList = ['.', 'r', 'h', 'o', '5'] := by decide
  obtain ⟨lower, hlower⟩ := List.isSuffixOf_iff_suffix.1 hsuffix
  rw [hrho5, toAsciiLowercase, String.toList_ofList] at hlower
  -- the name ends in a dot and four letters
  obtain ⟨stem, tail, hname, rfl, htail⟩ := List.append_eq_map_iff.1 hlower
  obtain ⟨dot, t₁, rfl, hdot, ht₁⟩ := List.map_eq_cons_iff.1 htail
  obtain ⟨r, t₂, rfl, hr, ht₂⟩ := List.map_eq_cons_iff.1 ht₁
  obtain ⟨h', t₃, rfl, hh, ht₃⟩ := List.map_eq_cons_iff.1 ht₂
  obtain ⟨o, t₄, rfl, ho, ht₄⟩ := List.map_eq_cons_iff.1 ht₃
  obtain ⟨five, t₅, rfl, hfive, ht₅⟩ := List.map_eq_cons_iff.1 ht₄
  obtain rfl := List.map_eq_nil_iff.1 ht₅
  obtain rfl := eq_dot_of_toLower hdot
  have hletter : ∀ c d : Char, c.toLower = d → d ≠ '.' → c ≠ '.' := by
    rintro c d rfl hd rfl
    exact hd rfl
  have hreverse : name.toList.reverse = five :: o :: h' :: r :: '.' :: stem.reverse := by
    rw [hname]
    simp
  have h5 := hletter five '5' hfive (by decide)
  have hO := hletter o 'o' ho (by decide)
  have hH := hletter h' 'h' hh (by decide)
  have hR := hletter r 'r' hr (by decide)
  have hdrop : name.toList.reverse.dropWhile (· ≠ '.') = '.' :: stem.reverse := by
    simp [hreverse, h5, hO, hH, hR]
  have htake : (name.toList.reverse.takeWhile (· ≠ '.')).reverse = [r, h', o, five] := by
    simp [hreverse, h5, hO, hH, hR]
  have hparent : name ≠ ".." := by
    rintro rfl
    have hlen := congrArg List.length hname
    simp at hlen
  have hstem : toAsciiLowercase name = ".rho5" ↔ stem.reverse = [] := by
    rw [toAsciiLowercase, ← String.toList_inj, String.toList_ofList, hname, List.map_append, htail, hrho5]
    simp
  have hlowered : [r, h', o, five].map Char.toLower = "rho5".toList := by
    simp only [List.map_cons, List.map_nil, hr, hh, ho, hfive]
    decide
  unfold hasRho5Extension extension
  rw [hdrop, htake, Ne, hstem]
  by_cases hnil : stem.reverse = []
  · simp [hnil]
  · simp only [hparent, hnil, or_self, if_false, hlowered, not_false_eq_true, decide_true]
/-- The only element of a list with its image, when no two share one. -/
theorem filter_eq_singleton {α β : Type} [DecidableEq β] {f : α → β} {l : List α} (hl : (l.map f).Nodup) {a : α} (ha : a ∈ l) :
    l.filter (fun b => f b = f a) = [a] := by
  induction l with
  | nil => cases ha
  | cons b l ih =>
    rw [List.map_cons, List.nodup_cons] at hl
    rcases List.mem_cons.1 ha with rfl | ha
    · have hrest : l.filter (fun b => f b = f a) = [] := by
        rw [List.filter_eq_nil_iff]
        intro b hb heq
        exact hl.1 (List.mem_map.2 ⟨b, hb, of_decide_eq_true heq⟩)
      rw [List.filter_cons_of_pos (by simp), hrest]
    · have hne : f b ≠ f a := fun heq => hl.1 (List.mem_map.2 ⟨a, ha, heq.symm⟩)
      rw [List.filter_cons_of_neg (by simpa using hne), ih hl.2 ha]

/-- No two entries of the index of a layout have one path. -/
theorem Layout.nodup_index (layout : Layout library entries name region limits bytes) :
    (layout.index.map Rho5Entry.normalizedPath).Nodup := by
  have hlower : ((layout.index.map Rho5Entry.normalizedPath).map toAsciiLowercase).Nodup := by
    rw [Layout.index, List.map_map, List.map_map]
    exact layout.nodup
  exact List.Nodup.of_map _ hlower

/-- Each entry is extracted by its path from a directory with the index of a layout. -/
theorem Layout.extractExact (layout : Layout library entries name region limits bytes) (hz : library.zlib.Inverts)
    {files : List Rho5File} (hopen : openArchive files name = .ok bytes) {count : Nat} {entry : Rho5WriteEntry}
    (he : entry ∈ entries) :
    Rho5Directory.extractExact library files ⟨count, layout.index, limits⟩ entry.path = .ok entry.data := by
  obtain ⟨found, hfound, hpath, hextract⟩ := (layout.readBack hz hopen).extracted entry he
  unfold Rho5Directory.extractExact Rho5Directory.uniqueEntry
  simp only [Checks.bind_eq_ok]
  refine ⟨found, ⟨found.normalizedPath, hpath, ?_⟩, hextract⟩
  rw [filter_eq_singleton layout.nodup_index hfound]
  rfl

/-- The limits on directories are not zero. -/
theorem pos_of_validateLimits (h : validateLimits limits = .ok ()) : 0 < limits.maxDirectoryEntries ∧ 0 < limits.maxArchives := by
  unfold validateLimits at h
  obtain ⟨_, hall, -⟩ := Checks.bind_eq_ok.1 h
  rw [Checks.all_eq_ok] at hall
  have hfield : ∀ field ∈ [("max_directory_entries", limits.maxDirectoryEntries), ("max_archives", limits.maxArchives)],
      field.2 ≠ 0 := by
    intro field hf hzero
    have hok := hall field (by
      simp only [List.mem_cons, List.not_mem_nil, or_false] at hf ⊢
      rcases hf with rfl | rfl
      · exact .inl rfl
      · exact .inr (.inl rfl))
    rw [if_pos hzero] at hok
    cases hok
  exact ⟨Nat.pos_of_ne_zero (hfield (_, _) List.mem_cons_self),
    Nat.pos_of_ne_zero (hfield (_, _) (List.mem_cons_of_mem _ List.mem_cons_self))⟩

/-- Of a directory that holds only one file, that file is collected when it is named as an archive. -/
theorem collectArchives_singleton (h : validateLimits limits = .ok ()) :
    collectArchives [⟨name, true, bytes⟩] limits =
      .ok (if hasRho5Extension name = true then [⟨name, true, bytes⟩] else []) := by
  obtain ⟨hentries, harchives⟩ := pos_of_validateLimits h
  unfold collectArchives collectFrom collectFrom
  simp only [Checks.bind_eq_ok, Checks.orElse_eq_ok, Checked.add_eq_some, Checks.ensure_eq_ok]
  by_cases hext : hasRho5Extension name = true
  · rw [if_pos hext, if_pos ⟨trivial, hext⟩]
    exact ⟨_, ⟨1, ⟨rfl, by omega⟩, (), by omega, (), Nat.not_lt.2 harchives, rfl⟩, by simp [List.mergeSort_singleton]; rfl⟩
  · rw [if_neg hext, if_neg (fun h => hext h.2)]
    exact ⟨_, ⟨1, ⟨rfl, by omega⟩, (), by omega, (), Nat.not_lt.2 (Nat.zero_le _), rfl⟩, by simp; rfl⟩

/-- The index of a directory that holds only a written archive. -/
theorem Layout.indexArchives_eq_ok {writer : Rho5Writer} (layout : Layout library writer.entries name region limits bytes)
    (hn : Composes library.nfc) {index : List Rho5Entry} :
    indexArchives library region limits [] 0 0 [⟨name, true, bytes⟩] = .ok index ↔
      writer.PathsFit library limits ∧ writer.TotalsFit library limits ∧ index = layout.index := by
  obtain ⟨hlength, hcompressed, hplaintext⟩ := layout.sums_eq
  obtain ⟨hcompressedLt, hplaintextLt⟩ := layout.sums_lt
  have hcount := (Checked.toInt32_eq_some.1 layout.count_eq).2
  have hplaced : layout.index.length = layout.placed.length := by rw [Layout.index, List.length_map]
  have htotals : (∃ totals, addDeclaredSizes limits 0 0 layout.index = .ok totals) ↔ _ :=
    addDeclaredSizes_eq_ok (Nat.zero_le _) (Nat.zero_le _) (by omega) (by omega)
  rw [Nat.zero_add, Nat.zero_add, hcompressed, hplaintext] at htotals
  unfold indexArchives indexArchives
  simp only [Checks.bind_eq_ok, Checks.orElse_eq_ok, Checked.add_eq_some, Checks.ensure_eq_ok]
  constructor
  · rintro ⟨archiveEntries, hparse, _, ⟨rfl, -⟩, _, hfiles, totals, hadd, hret⟩
    obtain ⟨hpaths, rfl⟩ := (layout.parseArchive_eq_ok_iff hn).1 hparse
    cases hret
    obtain ⟨hc, hp⟩ := htotals.1 ⟨totals, hadd⟩
    rw [List.length_nil, Nat.zero_add, hlength] at hfiles
    exact ⟨hpaths, ⟨Nat.not_lt.1 hfiles, hc, hp⟩, rfl⟩
  · rintro ⟨hpaths, hfit, rfl⟩
    obtain ⟨totals, hadd⟩ := htotals.2 ⟨hfit.compressed, hfit.plaintext⟩
    have hfiles : ¬([] : List Rho5Entry).length + layout.index.length > limits.maxTotalFiles := by
      rw [List.length_nil, Nat.zero_add, hlength]
      exact Nat.not_lt.2 hfit.files
    exact ⟨_, (layout.parseArchive_eq_ok_iff hn).2 ⟨hpaths, rfl⟩, _, ⟨rfl, by simp only [List.length_nil]; omega⟩, (), hfiles,
      totals, hadd, rfl⟩

/-- A scan of a directory that holds only a written archive. -/
theorem Layout.scan_eq_ok {writer : Rho5Writer} (layout : Layout library writer.entries name region limits bytes)
    (hn : Composes library.nfc) {directory : Rho5Directory} :
    Rho5Directory.scan library [⟨name, true, bytes⟩] region limits = .ok directory ↔
      if toAsciiLowercase name = ".rho5" then directory = ⟨0, [], limits⟩
      else writer.PathsFit library limits ∧ writer.TotalsFit library limits ∧ directory = ⟨1, layout.index, limits⟩ := by
  unfold Rho5Directory.scan
  rw [Checks.bind_eq_ok]
  simp only [layout.limits_ok, collectArchives_singleton layout.limits_ok, Checks.bind_eq_ok]
  by_cases hext : hasRho5Extension name = true
  · rw [if_neg ((hasRho5Extension_iff layout.name_ok).1 hext), if_pos hext]
    constructor
    · rintro ⟨_, -, archives, ⟨⟩, index, hindex, ⟨⟩⟩
      obtain ⟨hpaths, hfit, rfl⟩ := (layout.indexArchives_eq_ok hn).1 hindex
      exact ⟨hpaths, hfit, rfl⟩
    · rintro ⟨hpaths, hfit, rfl⟩
      exact ⟨(), trivial, _, rfl, _, (layout.indexArchives_eq_ok hn).2 ⟨hpaths, hfit, rfl⟩, rfl⟩
  · have hname : toAsciiLowercase name = ".rho5" :=
      Classical.not_not.1 (fun hne => hext ((hasRho5Extension_iff layout.name_ok).2 hne))
    rw [if_pos hname, if_neg hext]
    constructor
    · rintro ⟨_, -, archives, ⟨⟩, index, ⟨⟩, ⟨⟩⟩
      rfl
    · rintro rfl
      exact ⟨(), trivial, _, rfl, _, rfl, rfl⟩

end Rho5

namespace Rho5Writer

/-- A written archive is read back by the parser of archives exactly when no normalised path has more UTF-16 units than the reader
accepts; by a scan of a directory that holds only the archive, and from there path by path, exactly when moreover the entries are
within the limits on totals and the name is more than the extension. -/
theorem readBack_iff {library : Rho5Library} (hn : Composes library.nfc) (hz : library.zlib.Inverts) {writer : Rho5Writer}
    {name : String} {region : Rho5Region} {limits : Rho5Limits} {encoded : Rho5Encoded}
    (h : writer.encode library name region limits = .ok encoded) :
    ((∃ index, parseArchive library ⟨name, true, encoded.bytes⟩ region limits = .ok index ∧
        ReadBack library [⟨name, true, encoded.bytes⟩] limits writer.entries index) ↔ writer.PathsFit library limits) ∧
    ((∃ directory, Rho5Directory.scan library [⟨name, true, encoded.bytes⟩] region limits = .ok directory ∧
        ReadBack library [⟨name, true, encoded.bytes⟩] limits writer.entries directory.entries ∧
        ∀ entry ∈ writer.entries,
          directory.extractExact library [⟨name, true, encoded.bytes⟩] entry.path = .ok entry.data) ↔
      writer.PathsFit library limits ∧ writer.TotalsFit library limits ∧ toAsciiLowercase name ≠ ".rho5") := by
  obtain ⟨layout⟩ := encode_layout h
  have hopen : openArchive [⟨name, true, encoded.bytes⟩] name = .ok encoded.bytes := by simp [openArchive, Checks.orElse]
  constructor
  · constructor
    · rintro ⟨index, hparse, -⟩
      exact ((layout.parseArchive_eq_ok_iff hn).1 hparse).1
    · intro hpaths
      exact ⟨layout.index, (layout.parseArchive_eq_ok_iff hn).2 ⟨hpaths, rfl⟩, layout.readBack hz hopen⟩
  · constructor
    · rintro ⟨directory, hscan, hback, -⟩
      have hdirectory := (layout.scan_eq_ok hn).1 hscan
      split at hdirectory
      · -- an archive without an extension is not found, and there is an entry
        subst hdirectory
        have hlength := hback.listed.length_eq
        have hindex := layout.sums_eq.1
        have hplaced := List.length_pos_iff.2 layout.nonempty
        simp only [List.map_nil, List.length_nil, List.length_map, Layout.index] at hlength hindex
        omega
      · rename_i hname
        exact ⟨hdirectory.1, hdirectory.2.1, hname⟩
    · rintro ⟨hpaths, hfit, hname⟩
      refine ⟨⟨1, layout.index, limits⟩, (layout.scan_eq_ok hn).2 ?_, layout.readBack hz hopen,
        fun entry he => layout.extractExact hz hopen he⟩
      rw [if_neg hname]
      exact ⟨hpaths, hfit, rfl⟩

namespace ReadBackAux

/-- The compression library and the digest as far as the data of one byte goes, no composition and a key schedule. -/
def sampleLibrary : Rho5Library where
  zlib := .ofTable [([97], [120, 156, 75, 4, 0, 0, 98, 0, 98])]
  nfc := id
  md5 := fun _ => #v[0x0c, 0xc1, 0x75, 0xb9, 0xc0, 0xf1, 0xb6, 0xa8, 0x31, 0xc3, 0x99, 0xe2, 0x69, 0x77, 0x26, 0x61]
  headerKey := fun _ _ => Vector.replicate 16 1
  tableKey := fun _ _ => Vector.replicate 16 2
  packedFileKey := fun checksum _ _ => checksum
  keyWords := fun key index => (key.toList.headD 0).toUInt32 + UInt32.ofNat index

/-- One entry at a path of two units. -/
def sampleWriter : Rho5Writer := ⟨[⟨"ab", [97], packedEntryFlags⟩]⟩

/-- The limits of a reader that accepts paths of one unit only. -/
def shortPaths : Rho5Limits := { Rho5Limits.default with maxPathUtf16Units := 1 }

theorem composes_id : Composes id where
  idem _ := rfl
  eq_nil _ h := h
  append _ _ _ _ := rfl
  mem _ _ _ h := h

theorem sampleLibrary_inverts : sampleLibrary.zlib.Inverts := Zlib.inverts_ofTable (by decide)

/-- The sample is encoded, within the limits of either reader. -/
theorem encode_isOk : (sampleWriter.encode sampleLibrary "a.rho5" .korea .default).isOk = true ∧
    (sampleWriter.encode sampleLibrary "a.rho5" .korea shortPaths).isOk = true := by
  decide +kernel

/-- The path of the sample is normal. -/
theorem normalizePath_sample : normalizePath sampleLibrary "ab" .default = .ok "ab" := by decide +kernel

theorem normalizePath_sample_short : normalizePath sampleLibrary "ab" shortPaths = .ok "ab" := by decide +kernel

end ReadBackAux

/-- An archive of one entry is read back both ways. -/
theorem readBack_sample : ∃ encoded,
    ReadBackAux.sampleWriter.encode ReadBackAux.sampleLibrary "a.rho5" .korea .default = .ok encoded ∧
    (∃ index, parseArchive ReadBackAux.sampleLibrary ⟨"a.rho5", true, encoded.bytes⟩ .korea .default = .ok index ∧
      ReadBack ReadBackAux.sampleLibrary [⟨"a.rho5", true, encoded.bytes⟩] .default ReadBackAux.sampleWriter.entries index) ∧
    ∃ directory, Rho5Directory.scan ReadBackAux.sampleLibrary [⟨"a.rho5", true, encoded.bytes⟩] .korea .default =
      .ok directory ∧
      ReadBack ReadBackAux.sampleLibrary [⟨"a.rho5", true, encoded.bytes⟩] .default ReadBackAux.sampleWriter.entries
        directory.entries ∧
      ∀ entry ∈ ReadBackAux.sampleWriter.entries, directory.extractExact ReadBackAux.sampleLibrary
        [⟨"a.rho5", true, encoded.bytes⟩] entry.path = .ok entry.data := by
  obtain ⟨encoded, h⟩ : ∃ encoded,
      ReadBackAux.sampleWriter.encode ReadBackAux.sampleLibrary "a.rho5" .korea .default = .ok encoded := by
    cases hencode : ReadBackAux.sampleWriter.encode ReadBackAux.sampleLibrary "a.rho5" .korea .default with
    | ok encoded => exact ⟨encoded, rfl⟩
    | error e =>
      have hok := ReadBackAux.encode_isOk.1
      rw [hencode] at hok
      cases hok
  have hpaths : ReadBackAux.sampleWriter.PathsFit ReadBackAux.sampleLibrary .default := by
    intro entry he path hpath
    rw [List.mem_singleton.1 he, ReadBackAux.normalizePath_sample, Except.ok.injEq] at hpath
    subst hpath
    decide +kernel
  have hfit : ReadBackAux.sampleWriter.TotalsFit ReadBackAux.sampleLibrary .default :=
    ⟨by decide, by decide +kernel, by decide⟩
  obtain ⟨hparse, hscan⟩ := readBack_iff ReadBackAux.composes_id ReadBackAux.sampleLibrary_inverts h
  exact ⟨encoded, h, hparse.2 hpaths, hscan.2 ⟨hpaths, hfit, by decide +kernel⟩⟩

/-- Under limits on paths that only the reader checks, the archive that the writer returns is not read. -/
theorem readBack_false : Composes ReadBackAux.sampleLibrary.nfc ∧ ReadBackAux.sampleLibrary.zlib.Inverts ∧ ∃ encoded,
    ReadBackAux.sampleWriter.encode ReadBackAux.sampleLibrary "a.rho5" .korea ReadBackAux.shortPaths = .ok encoded ∧
    ¬∃ index, parseArchive ReadBackAux.sampleLibrary ⟨"a.rho5", true, encoded.bytes⟩ .korea ReadBackAux.shortPaths =
      .ok index := by
  refine ⟨ReadBackAux.composes_id, ReadBackAux.sampleLibrary_inverts, ?_⟩
  cases hencode : ReadBackAux.sampleWriter.encode ReadBackAux.sampleLibrary "a.rho5" .korea ReadBackAux.shortPaths with
  | error e =>
    have hok := ReadBackAux.encode_isOk.2
    rw [hencode] at hok
    cases hok
  | ok encoded =>
    refine ⟨encoded, rfl, ?_⟩
    rintro ⟨index, hparse⟩
    obtain ⟨layout⟩ := encode_layout hencode
    have hpaths := ((layout.parseArchive_eq_ok_iff ReadBackAux.composes_id).1 hparse).1
    have hle := hpaths _ List.mem_cons_self "ab" ReadBackAux.normalizePath_sample_short
    exact absurd hle (by decide +kernel)

end Rho5Writer

end P5136
