import P5136.Lib.Act

/-!
# Formats, readers and writers

A format says which symbols spell which value. A reader follows a format when it returns a value exactly where its input goes
on with a spelling of that value, and stops behind that spelling; a writer follows a format when what it appends is a spelling.
Readers and writers of parts compose to readers and writers of the whole, so that a reader and a writer that follow one format
undo each other, with any suffix and in both directions.
-/

universe u

/-- A format: the symbols that spell a value. -/
abbrev Format (α β : Type u) := α → List β → Prop

/-- A position in a list of symbols. -/
structure Cursor (β : Type u) where
  bytes : List β
  offset : Nat

namespace Cursor

variable {β ε : Type u}

/-- The cursor behind what was read and before what is left. -/
def between (read left : List β) : Cursor β := ⟨read ++ left, read.length⟩

/-- What is left to read. -/
def remaining (c : Cursor β) : List β := c.bytes.drop c.offset

@[simp] theorem remaining_between (read left : List β) : (between read left).remaining = left := by
  simp [between, remaining]

/-- The next `length` symbols, when they are there. -/
def takeOr (length : Nat) (e : Cursor β → ε) : Act (Cursor β) ε (List β) := fun c =>
  if c.offset + length ≤ c.bytes.length then
    (.ok ((c.bytes.drop c.offset).take length), { c with offset := c.offset + length })
  else (.error (e c), c)

end Cursor

namespace Format

variable {α β γ δ ε ε' κ : Type u}

/-- The spellings of one value are the empty one only. -/
def pure (a : α) : Format α β := fun b out => b = a ∧ out = []

/-- A spelling of one part, then a spelling of what depends on it. -/
def bind (F : Format α β) (G : α → Format γ β) : Format γ β :=
  fun c out => ∃ a, ∃ out₁ out₂, F a out₁ ∧ G a c out₂ ∧ out = out₁ ++ out₂

/-- The values of a kind, each with one spelling. -/
def spelled (ok : α → Prop) (spell : α → List β) : Format α β := fun a out => ok a ∧ out = spell a

/-! ## Readers -/

/-- A reader follows a format: it returns a value exactly where its input goes on with a spelling of that value, and stops
behind that spelling. -/
def Reads (dec : Act (Cursor β) ε α) (F : Format α β) : Prop :=
  ∀ before input a c, dec (.between before input) = (.ok a, c) ↔
    ∃ out rest, input = out ++ rest ∧ F a out ∧ c = .between (before ++ out) rest

/-- A format may be replaced by one with the same spellings. -/
theorem Reads.congr {dec : Act (Cursor β) ε α} {F G : Format α β} (h : Reads dec F) (hFG : ∀ a out, F a out ↔ G a out) :
    Reads dec G := by
  intro before input a c
  rw [h before input a c]
  simp only [hFG]

/-- Returning a value reads nothing. -/
theorem reads_pure (a : α) : Reads (Pure.pure a : Act (Cursor β) ε α) (Format.pure a) := by
  intro before input b c
  rw [Act.pure_eq_ok]
  constructor
  · rintro ⟨rfl, rfl⟩
    exact ⟨[], input, rfl, ⟨rfl, rfl⟩, by rw [List.append_nil]⟩
  · rintro ⟨out, rest, rfl, ⟨rfl, rfl⟩, rfl⟩
    exact ⟨rfl, by rw [List.append_nil, List.nil_append]⟩

/-- A failing reader follows the format without spellings. -/
theorem reads_fail (e : ε) : Reads (Act.fail e : Act (Cursor β) ε α) (fun _ _ => False) := by
  intro before input b c
  simp

/-- One reader after another. -/
theorem Reads.bind {dec : Act (Cursor β) ε α} {k : α → Act (Cursor β) ε γ} {F : Format α β} {G : α → Format γ β}
    (hd : Reads dec F) (hk : ∀ a, Reads (k a) (G a)) : Reads (dec >>= k) (Format.bind F G) := by
  intro before input b c
  rw [Act.bind_eq_ok]
  constructor
  · rintro ⟨a, s, hs, hb⟩
    obtain ⟨out, rest, rfl, hF, rfl⟩ := (hd before input a s).1 hs
    obtain ⟨out', rest', rfl, hG, rfl⟩ := (hk a _ rest b c).1 hb
    exact ⟨out ++ out', rest', by rw [List.append_assoc], ⟨a, out, out', hF, hG, rfl⟩, by rw [List.append_assoc]⟩
  · rintro ⟨out, rest, rfl, ⟨a, out₁, out₂, hF, hG, rfl⟩, rfl⟩
    refine ⟨a, .between (before ++ out₁) (out₂ ++ rest), (hd before _ a _).2 ?_, (hk a _ _ b _).2 ?_⟩
    · exact ⟨out₁, out₂ ++ rest, by rw [List.append_assoc], hF, rfl⟩
    · exact ⟨out₂, rest, rfl, hG, by rw [List.append_assoc]⟩

/-- A guard reads nothing and holds. -/
theorem reads_require (p : Prop) [Decidable p] (e : ε) :
    Reads (Act.require p e : Act (Cursor β) ε PUnit) (fun _ out => p ∧ out = []) := by
  intro before input x c
  rw [Act.require_eq_ok]
  constructor
  · rintro ⟨hp, rfl⟩
    exact ⟨[], input, rfl, ⟨hp, rfl⟩, by rw [List.append_nil]⟩
  · rintro ⟨out, rest, rfl, ⟨hp, rfl⟩, rfl⟩
    exact ⟨hp, by rw [List.append_nil, List.nil_append]⟩

/-- A lifted result reads nothing. -/
theorem reads_ofExcept (r : Except ε α) :
    Reads (Act.ofExcept r : Act (Cursor β) ε α) (fun a out => r = .ok a ∧ out = []) := by
  intro before input a c
  rw [Act.ofExcept_eq_ok]
  constructor
  · rintro ⟨hp, rfl⟩
    exact ⟨[], input, rfl, ⟨hp, rfl⟩, by rw [List.append_nil]⟩
  · rintro ⟨out, rest, rfl, ⟨hp, rfl⟩, rfl⟩
    exact ⟨hp, by rw [List.append_nil, List.nil_append]⟩

/-- Changing the failure of a reader keeps its format. -/
theorem Reads.mapError {dec : Act (Cursor β) ε α} {F : Format α β} (h : Reads dec F) (f : ε → ε') :
    Reads (Act.mapError f dec) F := by
  intro before input a c
  rw [Act.mapError_eq_ok]
  exact h before input a c

/-- Taking a number of symbols reads exactly that many. -/
theorem reads_takeOr (length : Nat) (e : Cursor β → ε) :
    Reads (Cursor.takeOr length e) (fun l out => l.length = length ∧ out = l) := by
  intro before input a c
  unfold Cursor.takeOr Cursor.between
  constructor
  · intro h
    split at h
    · rename_i hle
      simp only [List.length_append] at hle
      cases h
      refine ⟨input.take length, input.drop length, (List.take_append_drop ..).symm, ⟨?_, ?_⟩, ?_⟩
      · simp
        omega
      · simp
      · have hlen : min length input.length = length := by omega
        simp [hlen]
    · cases h
  · rintro ⟨out, rest, rfl, ⟨rfl, rfl⟩, rfl⟩
    simp

/-! ## Readers in a loop -/

/-- `count` readings in a row, with a state carried from one to the next. -/
def times (step : κ → Act (Cursor β) ε (α × κ)) : Nat → κ → Act (Cursor β) ε (List α × κ)
  | 0, k => Pure.pure ([], k)
  | count + 1, k => do
    let (a, k) ← step k
    let (as, k) ← times step count k
    Pure.pure (a :: as, k)

/-- `count` readings in a row. -/
def collect (dec : Act (Cursor β) ε α) : Nat → Act (Cursor β) ε (List α)
  | 0 => Pure.pure []
  | count + 1 => do
    let a ← dec
    let as ← collect dec count
    Pure.pure (a :: as)

/-- Every element of a list is of its kind in the state carried to it. -/
def AllFrom (ok : κ → α → Prop) (next : κ → α → κ) : κ → List α → Prop
  | _, [] => True
  | k, a :: as => ok k a ∧ AllFrom ok next (next k a) as

/-- Readings in a row spell their values in a row. -/
theorem reads_times {step : κ → Act (Cursor β) ε (α × κ)} {ok : κ → α → Prop} {next : κ → α → κ} {spell : α → List β}
    (h : ∀ k, Reads (step k) (fun p out => ok k p.1 ∧ p.2 = next k p.1 ∧ out = spell p.1)) (count : Nat) (k : κ) :
    Reads (times step count k) (fun p out =>
      p.1.length = count ∧ AllFrom ok next k p.1 ∧ p.2 = p.1.foldl next k ∧ out = p.1.flatMap spell) := by
  induction count generalizing k with
  | zero =>
    refine (reads_pure _).congr ?_
    rintro ⟨as, k'⟩ out
    constructor
    · rintro ⟨h1, rfl⟩
      cases h1
      exact ⟨rfl, trivial, rfl, rfl⟩
    · rintro ⟨hl, -, hk, ho⟩
      obtain rfl : as = [] := List.length_eq_zero_iff.1 hl
      exact ⟨congrArg (Prod.mk []) hk, ho⟩
  | succ count ih =>
    refine ((h k).bind fun p => (ih p.2).bind fun q => reads_pure (p.1 :: q.1, q.2)).congr ?_
    rintro ⟨as, k'⟩ out
    constructor
    · rintro ⟨⟨a, k₁⟩, o₁, o₂, ⟨ha, hk₁, rfl⟩, ⟨⟨bs, k₂⟩, o₃, o₄, ⟨hl, hok, hk₂, rfl⟩, ⟨hp, rfl⟩, rfl⟩, rfl⟩
      simp only at hk₁ hl hok hk₂
      subst hk₁
      subst hk₂
      cases hp
      exact ⟨by simp [hl], ⟨ha, hok⟩, rfl, by simp⟩
    · rintro ⟨hl, hok, hk, ho⟩
      cases as with
      | nil => nomatch hl
      | cons a as =>
        refine ⟨(a, next k a), spell a, as.flatMap spell, ⟨hok.1, rfl, rfl⟩,
          ⟨(as, as.foldl next (next k a)), as.flatMap spell, [], ⟨by simpa using hl, hok.2, rfl, rfl⟩, ⟨?_, rfl⟩, by simp⟩,
          by simpa using ho⟩
        rw [show k' = as.foldl next (next k a) from hk]

/-- Readings in a row spell their values in a row. -/
theorem reads_collect {dec : Act (Cursor β) ε α} {ok : α → Prop} {spell : α → List β} (h : Reads dec (spelled ok spell))
    (count : Nat) :
    Reads (collect dec count) (fun as out => as.length = count ∧ (∀ a ∈ as, ok a) ∧ out = as.flatMap spell) := by
  induction count with
  | zero =>
    refine (reads_pure _).congr ?_
    intro as out
    constructor
    · rintro ⟨rfl, rfl⟩
      exact ⟨rfl, by simp, rfl⟩
    · rintro ⟨hl, -, ho⟩
      obtain rfl : as = [] := List.length_eq_zero_iff.1 hl
      exact ⟨rfl, ho⟩
  | succ count ih =>
    refine (h.bind fun a => ih.bind fun as => reads_pure (a :: as)).congr ?_
    intro as out
    constructor
    · rintro ⟨a, o₁, o₂, ⟨ha, rfl⟩, ⟨bs, o₃, o₄, ⟨hl, hok, rfl⟩, ⟨rfl, rfl⟩, rfl⟩, rfl⟩
      refine ⟨by simp [hl], ?_, by simp⟩
      intro x hx
      rcases List.mem_cons.1 hx with rfl | hx
      · exact ha
      · exact hok x hx
    · rintro ⟨hl, hok, ho⟩
      cases as with
      | nil => nomatch hl
      | cons a as =>
        exact ⟨a, spell a, as.flatMap spell, ⟨hok a List.mem_cons_self, rfl⟩,
          ⟨as, as.flatMap spell, [], ⟨by simpa using hl, fun x hx => hok x (List.mem_cons_of_mem _ hx), rfl⟩, ⟨rfl, rfl⟩,
            by simp⟩, by simpa using ho⟩

/-! ## Writers -/

/-- A writer follows a format: it returns a value exactly when it has appended a spelling of that value. -/
def Writes (enc : Act (List β) ε δ) (F : Format δ β) : Prop :=
  ∀ acc d acc', enc acc = (.ok d, acc') ↔ ∃ out, F d out ∧ acc' = acc ++ out

/-- A format may be replaced by one with the same spellings. -/
theorem Writes.congr {enc : Act (List β) ε δ} {F G : Format δ β} (h : Writes enc F) (hFG : ∀ a out, F a out ↔ G a out) :
    Writes enc G := by
  intro acc d acc'
  rw [h acc d acc']
  simp only [hFG]

/-- Returning a value writes nothing. -/
theorem writes_pure (d : δ) : Writes (Pure.pure d : Act (List β) ε δ) (Format.pure d) := by
  intro acc d' acc'
  rw [Act.pure_eq_ok]
  constructor
  · rintro ⟨rfl, rfl⟩
    exact ⟨[], ⟨rfl, rfl⟩, (List.append_nil _).symm⟩
  · rintro ⟨out, ⟨rfl, rfl⟩, rfl⟩
    exact ⟨rfl, (List.append_nil _).symm⟩

/-- Appending symbols writes them. -/
theorem writes_append (out : List β) : Writes (Act.modify (· ++ out) : Act (List β) ε PUnit) (fun _ o => o = out) := by
  intro acc d acc'
  simp

/-- A guard writes nothing and holds. -/
theorem writes_require (p : Prop) [Decidable p] (e : ε) :
    Writes (Act.require p e : Act (List β) ε PUnit) (fun _ out => p ∧ out = []) := by
  intro acc d acc'
  rw [Act.require_eq_ok]
  constructor
  · rintro ⟨hp, rfl⟩
    exact ⟨[], ⟨hp, rfl⟩, (List.append_nil _).symm⟩
  · rintro ⟨out, ⟨hp, rfl⟩, rfl⟩
    exact ⟨hp, (List.append_nil _).symm⟩

/-- A lifted result writes nothing. -/
theorem writes_ofExcept (r : Except ε δ) :
    Writes (Act.ofExcept r : Act (List β) ε δ) (fun d out => r = .ok d ∧ out = []) := by
  intro acc d acc'
  rw [Act.ofExcept_eq_ok]
  constructor
  · rintro ⟨hp, rfl⟩
    exact ⟨[], ⟨hp, rfl⟩, (List.append_nil _).symm⟩
  · rintro ⟨out, ⟨hp, rfl⟩, rfl⟩
    exact ⟨hp, (List.append_nil _).symm⟩

/-- One writer after another. -/
theorem Writes.bind {enc : Act (List β) ε δ} {k : δ → Act (List β) ε γ} {F : Format δ β} {G : δ → Format γ β}
    (hd : Writes enc F) (hk : ∀ a, Writes (k a) (G a)) : Writes (enc >>= k) (Format.bind F G) := by
  intro acc b acc'
  rw [Act.bind_eq_ok]
  constructor
  · rintro ⟨a, s, hs, hb⟩
    obtain ⟨out, hF, rfl⟩ := (hd acc a s).1 hs
    obtain ⟨out', hG, rfl⟩ := (hk a _ b acc').1 hb
    exact ⟨out ++ out', ⟨a, out, out', hF, hG, rfl⟩, by rw [List.append_assoc]⟩
  · rintro ⟨out, ⟨a, out₁, out₂, hF, hG, rfl⟩, rfl⟩
    exact ⟨a, acc ++ out₁, (hd acc a _).2 ⟨out₁, hF, rfl⟩, (hk a _ b _).2 ⟨out₂, hG, by rw [List.append_assoc]⟩⟩

/-- Changing the failure of a writer keeps its format. -/
theorem Writes.mapError {enc : Act (List β) ε δ} {F : Format δ β} (h : Writes enc F) (f : ε → ε') :
    Writes (Act.mapError f enc) F := by
  intro acc d acc'
  rw [Act.mapError_eq_ok]
  exact h acc d acc'

/-- Write every element of a list, in order. -/
def writeAll (f : α → Act (List β) ε PUnit) : List α → Act (List β) ε PUnit
  | [] => Pure.pure ⟨⟩
  | a :: as => do
    f a
    writeAll f as

/-- Writing every element writes their spellings in a row. -/
theorem writes_writeAll {f : α → Act (List β) ε PUnit} {ok : α → Prop} {spell : α → List β}
    (h : ∀ a, Writes (f a) (fun _ out => ok a ∧ out = spell a)) (as : List α) :
    Writes (writeAll f as) (fun _ out => (∀ a ∈ as, ok a) ∧ out = as.flatMap spell) := by
  induction as with
  | nil =>
    refine (writes_pure _).congr ?_
    intro x out
    simp [Format.pure]
  | cons a as ih =>
    refine ((h a).bind fun _ => ih).congr ?_
    intro x out
    constructor
    · rintro ⟨-, o₁, o₂, ⟨ha, rfl⟩, ⟨hok, rfl⟩, rfl⟩
      exact ⟨List.forall_mem_cons.2 ⟨ha, hok⟩, by simp⟩
    · rintro ⟨hok, ho⟩
      obtain ⟨ha, hok⟩ := List.forall_mem_cons.1 hok
      exact ⟨⟨⟩, spell a, as.flatMap spell, ⟨ha, rfl⟩, ⟨hok, rfl⟩, by simpa using ho⟩

/-! ## What writers append

A writer that also minds how much it has written fails on some lists that another accepts. Then only one direction is left:
where it returns, what it has appended is a spelling. -/

/-- Where a writer returns, it has appended a spelling. -/
def Appends (enc : Act (List β) ε δ) (F : Format δ β) : Prop :=
  ∀ acc d acc', enc acc = (.ok d, acc') → ∃ out, F d out ∧ acc' = acc ++ out

/-- A spelling may be replaced by what follows from it. -/
theorem Appends.mono {enc : Act (List β) ε δ} {F G : Format δ β} (h : Appends enc F) (hFG : ∀ d out, F d out → G d out) :
    Appends enc G := by
  intro acc d acc' he
  obtain ⟨out, hF, rfl⟩ := h acc d acc' he
  exact ⟨out, hFG d out hF, rfl⟩

/-- A writer that follows a format appends its spellings. -/
theorem Writes.appends {enc : Act (List β) ε δ} {F : Format δ β} (h : Writes enc F) : Appends enc F :=
  fun acc d acc' => (h acc d acc').1

/-- A call that leaves what was written appends nothing. -/
theorem appends_readOnly {enc : Act (List β) ε δ} (h : Act.ReadOnly enc) :
    Appends enc (fun d out => (∃ acc, (enc acc).1 = .ok d) ∧ out = []) := by
  intro acc d acc' he
  refine ⟨[], ⟨⟨acc, by rw [he]⟩, rfl⟩, ?_⟩
  have hs := h acc
  rw [he] at hs
  rw [List.append_nil]
  exact hs

/-- One writer after another. -/
theorem Appends.bind {enc : Act (List β) ε δ} {k : δ → Act (List β) ε γ} {F : Format δ β} {G : δ → Format γ β}
    (hd : Appends enc F) (hk : ∀ a, Appends (k a) (G a)) : Appends (enc >>= k) (Format.bind F G) := by
  intro acc b acc' h
  obtain ⟨a, s, hs, hb⟩ := Act.bind_eq_ok.1 h
  obtain ⟨out, hF, rfl⟩ := hd acc a s hs
  obtain ⟨out', hG, rfl⟩ := hk a _ b acc' hb
  exact ⟨out ++ out', ⟨a, out, out', hF, hG, rfl⟩, by rw [List.append_assoc]⟩

/-- Write every element of a list, in order, with a state carried from one to the next. -/
def writeFrom (f : α → κ → Act (List β) ε κ) : List α → κ → Act (List β) ε κ
  | [], k => Pure.pure k
  | a :: as, k => do
    let k ← f a k
    writeFrom f as k

/-! ## Readers and writers of one format -/

/-- A reader returns what a writer of its format has written, whatever follows, and stops behind it. -/
theorem Reads.of_writes {dec : Act (Cursor β) ε α} {enc : Act (List β) ε' δ} {F : Format α β} {G : Format δ β} {a : α} {d : δ}
    (hd : Reads dec F) (he : Writes enc G) (hGF : ∀ out, G d out → F a out) {acc acc' : List β}
    (h : enc acc = (.ok d, acc')) :
    ∃ out, acc' = acc ++ out ∧ ∀ before rest,
      dec (.between before (out ++ rest)) = (.ok a, .between (before ++ out) rest) := by
  obtain ⟨out, hG, rfl⟩ := (he acc d acc').1 h
  exact ⟨out, rfl, fun before rest => (hd before _ a _).2 ⟨out, rest, rfl, hGF out hG, rfl⟩⟩

/-- A writer reproduces what a reader of its format has read. -/
theorem Writes.of_reads {dec : Act (Cursor β) ε α} {enc : Act (List β) ε' δ} {F : Format α β} {G : Format δ β} {a : α} {d : δ}
    (he : Writes enc G) (hd : Reads dec F) (hFG : ∀ out, F a out → G d out) {before input : List β} {c : Cursor β}
    (h : dec (.between before input) = (.ok a, c)) :
    ∃ out rest, input = out ++ rest ∧ c = .between (before ++ out) rest ∧ ∀ acc, enc acc = (.ok d, acc ++ out) := by
  obtain ⟨out, rest, rfl, hF, rfl⟩ := (hd before input a c).1 h
  exact ⟨out, rest, rfl, rfl, fun acc => (he acc d _).2 ⟨out, hFG out hF, rfl⟩⟩

end Format
