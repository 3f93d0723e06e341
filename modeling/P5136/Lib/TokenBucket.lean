import Mathlib.Algebra.Order.Group.Nat
import Mathlib.Data.List.Basic

/-!
# Token buckets

A bucket holds tokens up to a capacity, and earns one each interval since it was last refilled; what is taken pays one. A refill may
carry a part of an interval over, but not when the bucket is full. Whenever tokens are asked for, no window of time has more takes
than the capacity and the intervals that fit in it.
-/

namespace TokenBucket

/-- A bucket: its tokens, and the time up to which they were earned. -/
structure Bucket where
  tokens : Nat
  last : Nat
deriving DecidableEq

variable {capacity interval : Nat}

/-- What a bucket is worth at a time. -/
def level (interval : Nat) (b : Bucket) (now : Nat) : Nat := b.tokens * interval + (now - b.last)

/-- A bucket that was refilled: it is worth no more than before, carries less than an interval over, and nothing when full. -/
structure Refilled (capacity interval : Nat) (b : Bucket) (now : Nat) (b' : Bucket) : Prop where
  tokens_le : b'.tokens ≤ capacity
  last_le : b'.last ≤ now
  level_le : level interval b' now ≤ level interval b now
  full : b'.tokens = capacity → b'.last = now
  carried : now < b'.last + interval

/-! ## Refills -/

section Refills

variable {b : Bucket} {now last : Nat}

/-- Before an interval has passed, nothing is earned. -/
theorem Refilled.keep (htokens : b.tokens ≤ capacity) (hlast : b.last ≤ now) (hfull : b.tokens = capacity → b.last = now)
    (hsoon : now - b.last < interval) : Refilled capacity interval b now b :=
  ⟨htokens, hlast, Nat.le_refl _, hfull, by omega⟩

/-- When enough intervals have passed, the bucket is full, and the rest is forgotten. -/
theorem Refilled.fill (hinterval : 0 < interval)
    (hlong : capacity - b.tokens ≤ (now - b.last) / interval) : Refilled capacity interval b now ⟨capacity, now⟩ := by
  refine ⟨Nat.le_refl _, Nat.le_refl _, ?_, fun _ => rfl, by simp only []; omega⟩
  have hdiv := Nat.div_mul_le_self (now - b.last) interval
  have hmul := Nat.mul_le_mul_right interval hlong
  rw [Nat.sub_mul] at hmul
  simp only [level]
  omega

/-- Else the intervals that have passed are earned, and at most the rest is carried over. -/
theorem Refilled.earn (hinterval : 0 < interval) (hshort : (now - b.last) / interval < capacity - b.tokens)
    (hfrom : b.last + (now - b.last) / interval * interval ≤ last) (hto : last ≤ now) :
    Refilled capacity interval b now ⟨b.tokens + (now - b.last) / interval, last⟩ := by
  have hdiv := Nat.div_mul_le_self (now - b.last) interval
  have hmod := Nat.lt_div_mul_add hinterval (a := now - b.last)
  generalize (now - b.last) / interval = k at *
  refine ⟨by simp only []; omega, hto, ?_, ?_, by simp only []; omega⟩
  · simp only [level, Nat.add_mul]
    omega
  · intro hfull
    simp only [] at hfull
    omega

end Refills

/-! ## Takes -/

/-- A bucket after a token was taken. -/
def Bucket.taken (b : Bucket) : Bucket := ⟨b.tokens - 1, b.last⟩

/-- Takes at times in order. There is no bucket before the first, which finds a full one. -/
inductive Takes (capacity interval : Nat) : Option Bucket → Nat → List Nat → Option Bucket → Prop where
  | nil (b : Option Bucket) (t : Nat) : Takes capacity interval b t [] b
  | cons {b last : Option Bucket} {b' : Bucket} {t now : Nat} {rest : List Nat} : t ≤ now →
      Refilled capacity interval (b.getD ⟨capacity, now⟩) now b' → b'.tokens ≠ 0 →
      Takes capacity interval (some b'.taken) now rest last → Takes capacity interval b t (now :: rest) last

/-- A bucket from which a token was taken: it is worth a token less than a full one. -/
structure Charged (capacity interval : Nat) (b : Bucket) (now : Nat) : Prop where
  last_le : b.last ≤ now
  level_le : level interval b now + interval ≤ capacity * interval

/-- A take pays one token. -/
theorem Refilled.level_taken {b b' : Bucket} {now : Nat} (h : Refilled capacity interval b now b') (hsome : b'.tokens ≠ 0) :
    level interval b'.taken now + interval ≤ level interval b now := by
  have hlevel := h.level_le
  obtain ⟨n, hn⟩ := Nat.exists_eq_succ_of_ne_zero hsome
  unfold level at hlevel ⊢
  rw [hn, Nat.succ_mul] at hlevel
  simp only [Bucket.taken, hn, Nat.succ_eq_add_one, Nat.add_sub_cancel]
  omega

/-- After a take a bucket is charged. -/
theorem Refilled.charged {b b' : Bucket} {now : Nat} (h : Refilled capacity interval b now b') (hsome : b'.tokens ≠ 0) :
    Charged capacity interval b'.taken now := by
  refine ⟨h.last_le, ?_⟩
  obtain ⟨n, hn⟩ := Nat.exists_eq_succ_of_ne_zero hsome
  have htokens := h.tokens_le
  rw [hn] at htokens
  have hcapacity : (n + 1) * interval ≤ capacity * interval := Nat.mul_le_mul_right interval htokens
  rw [Nat.succ_mul] at hcapacity
  unfold level
  simp only [Bucket.taken, hn, Nat.succ_eq_add_one, Nat.add_sub_cancel]
  by_cases hfull : b'.tokens = capacity
  · have hlast := h.full hfull
    omega
  · have hless : n + 1 + 1 ≤ capacity := by omega
    have hroom : (n + 1 + 1) * interval ≤ capacity * interval := Nat.mul_le_mul_right interval hless
    rw [Nat.succ_mul, Nat.succ_mul] at hroom
    have hcarried := h.carried
    omega

/-- Takes go forward in time. -/
theorem Takes.le {b last : Option Bucket} {t : Nat} {times : List Nat} (h : Takes capacity interval b t times last) :
    ∀ now ∈ times, t ≤ now := by
  induction h with
  | nil b t =>
    intro now hnow
    exact absurd hnow (by simp)
  | cons hle _ _ _ ih =>
    intro time htime
    rcases List.mem_cons.1 htime with rfl | hrest
    · exact hle
    · exact Nat.le_trans hle (ih time hrest)

/-- No take is earlier than their start. -/
theorem Takes.filter_eq_nil {b last : Option Bucket} {t e : Nat} {times : List Nat} (h : Takes capacity interval b t times last)
    (he : e < t) : times.filter (fun now => decide (now ≤ e)) = [] := by
  refine List.filter_eq_nil_iff.2 ?_
  intro time htime
  have hlater := h.le time htime
  simp only [decide_eq_true_eq]
  omega

/-- The takes up to a time pay with what the bucket is worth, and the time. -/
theorem Takes.until {b : Bucket} {last : Option Bucket} {t : Nat} {times : List Nat}
    (h : Takes capacity interval (some b) t times last) (hlast : b.last ≤ t) (e : Nat) :
    (times.filter (fun now => decide (now ≤ e))).length * interval ≤ level interval b t + (e - t) := by
  generalize hstart : some b = start at h
  induction h generalizing b with
  | nil _ _ => simp
  | @cons _ _ b' t now rest hle hrefill hsome hrest ih =>
    subst hstart
    have hpaid := hrefill.level_taken hsome
    have hafter := ih (b := b'.taken) hrefill.last_le rfl
    by_cases hnow : now ≤ e
    · rw [List.filter_cons_of_pos (by simpa using hnow), List.length_cons, Nat.succ_mul]
      have hage : level interval b now = level interval b t + (now - t) := by
        unfold level
        omega
      simp only [Option.getD_some] at hpaid
      omega
    · rw [List.filter_cons_of_neg (by simpa using hnow), hrest.filter_eq_nil (Nat.lt_of_not_le hnow)]
      simp

/-- A window of time has no more takes than the capacity and the intervals that fit in it. -/
theorem Takes.window {b last : Option Bucket} {t : Nat} {times : List Nat} (h : Takes capacity interval b t times last)
    (hinterval : 0 < interval) (a length : Nat) :
    (times.filter (fun now => decide (a ≤ now ∧ now ≤ a + length))).length ≤ capacity + length / interval := by
  induction h with
  | nil _ _ => simp
  | @cons b last b' t now rest hle hrefill hsome hrest ih =>
    by_cases hfrom : a ≤ now
    · have hsame : (now :: rest).filter (fun now => decide (a ≤ now ∧ now ≤ a + length)) =
          (now :: rest).filter (fun now => decide (now ≤ a + length)) := by
        refine List.filter_congr ?_
        intro time htime
        have hlater : a ≤ time := by
          rcases List.mem_cons.1 htime with rfl | hmem
          · exact hfrom
          · exact Nat.le_trans hfrom (hrest.le time hmem)
        simp [hlater]
      rw [hsame]
      by_cases hto : now ≤ a + length
      · have hcharged := hrefill.charged hsome
        have huntil := hrest.until hcharged.last_le (a + length)
        have hlevel := hcharged.level_le
        rw [List.filter_cons_of_pos (by simpa using hto), List.length_cons]
        have hall : ((rest.filter (fun now => decide (now ≤ a + length))).length + 1) * interval ≤
            capacity * interval + length := by
          rw [Nat.succ_mul]
          omega
        have hquotient := (Nat.le_div_iff_mul_le hinterval).2 hall
        rwa [Nat.mul_comm, Nat.mul_add_div hinterval] at hquotient
      · rw [List.filter_cons_of_neg (by simpa using hto), hrest.filter_eq_nil (Nat.lt_of_not_le hto)]
        simp
    · rw [List.filter_cons_of_neg (by simp [hfrom])]
      exact ih

end TokenBucket
