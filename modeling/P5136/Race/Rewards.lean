import P5136.Net

/-!
# Time rewards

The reward of a race: two rolls and a bonus for the rank, bounded, and what applying it to a profile yields.
-/

namespace P5136

/-- `MAX_TIME_REWARD_RP_ROLL`. -/
def maxTimeRewardRpRoll : Nat := 50

/-- `MAX_TIME_REWARD_LUCCI_ROLL`. -/
def maxTimeRewardLucciRoll : Nat := 500

/-- `TIME_REWARD_BASELINE_RANK`. -/
def timeRewardBaselineRank : Nat := 8

/-- A process-global race epoch: a 64-bit number that is not zero. -/
structure GlobalRaceEpoch where
  get : Nat
  ne_zero : get ≠ 0
  lt : get < 2 ^ 64

/-- Epochs with the same value are the same. -/
theorem GlobalRaceEpoch.ext_get {e f : GlobalRaceEpoch} (h : e.get = f.get) : e = f := by
  cases e
  cases f
  simp only at h
  subst h
  rfl

instance : DecidableEq GlobalRaceEpoch := fun e f =>
  if h : e.get = f.get then isTrue (GlobalRaceEpoch.ext_get h) else isFalse (mt (congrArg GlobalRaceEpoch.get) h)

def GlobalRaceEpoch.new (value : Nat) : Option GlobalRaceEpoch :=
  if h : value ≠ 0 ∧ value < 2 ^ 64 then some ⟨value, h.1, h.2⟩ else none

/-- The epoch after this one, when there is one. -/
def GlobalRaceEpoch.following (epoch : GlobalRaceEpoch) : Option GlobalRaceEpoch :=
  (checkedAdd 64 epoch.get 1).bind GlobalRaceEpoch.new

/-- The following epoch is one more. -/
theorem GlobalRaceEpoch.get_following {epoch next : GlobalRaceEpoch} (h : epoch.following = some next) :
    next.get = epoch.get + 1 := by
  unfold following at h
  obtain ⟨n, hn, hnew⟩ := Option.bind_eq_some_iff.1 h
  obtain ⟨rfl, -⟩ := checkedAdd_eq_some.1 hn
  unfold GlobalRaceEpoch.new at hnew
  split at hnew
  · cases hnew
    rfl
  · cases hnew

/-- A reward within its bounds. -/
structure TimeReward where
  earnedRp : Nat
  earnedLucci : Nat
  rp_le : earnedRp ≤ maxTimeRewardRpRoll
  lucci_le : earnedLucci ≤ maxTimeRewardLucciRoll
deriving DecidableEq

/-- `AppliedTimeReward`: the economy values after a reward was applied. -/
structure AppliedTimeReward where
  currentRp : Nat
  earnedRp : Nat
  earnedLucci : Nat
  currentLucci : Nat
deriving DecidableEq

inductive RewardRollError where
  | rp (actual maximum : Nat)
  | lucci (actual maximum : Nat)
deriving DecidableEq

/-- `time_reward_from_rolls`: the ranks zero to seven get a decreasing bonus, and the sums are clamped. -/
def timeRewardFromRolls (playerRanking rpRoll lucciRoll : Nat) : Except RewardRollError TimeReward :=
  if maxTimeRewardRpRoll < rpRoll then .error (.rp rpRoll maxTimeRewardRpRoll)
  else if maxTimeRewardLucciRoll < lucciRoll then .error (.lucci lucciRoll maxTimeRewardLucciRoll)
  else
    let bonus := timeRewardBaselineRank - playerRanking
    .ok { earnedRp := min (rpRoll + bonus / 3) maxTimeRewardRpRoll
          earnedLucci := min (lucciRoll + bonus * 3) maxTimeRewardLucciRoll
          rp_le := Nat.min_le_right _ _
          lucci_le := Nat.min_le_right _ _ }

end P5136
