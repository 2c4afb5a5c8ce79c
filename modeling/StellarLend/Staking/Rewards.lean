import StellarLend.Staking.VotingPower

/-!
# Staking/Rewards — what delegations do to rewards

Rewards accrue lazily: a position is dated, and what has accrued since is added whenever its owner
stakes, unstakes or claims.

    updatedAt ──────────── now ──────────── t
      earned   + accrued           + …               a stake, an unstaking, a claim
      earned     lost              + …               a delegation

A delegation, a re-delegation and a revocation date the positions they write anew (`Redated`) and
add nothing, so what had accrued is lost: to be rid of it at once nothing may have accrued
(`Idle`), and to leave every later reading alone the position must have no stake or that very
date (`Dated`).
-/

namespace StellarLend.Staking

open Foundations

variable {s s' t : Positions} {r : Request} {p q : StakingPosition} {now later : ℤ}
  {user v : String} {users : List String} {requests : List Request}

/-! ## Accrual -/

/-- The rewards that `getPosition` reports of a user who has a position. -/
def reported (now : ℤ) (s : Positions) (user : String) : Option ℤ :=
  (getPosition now s user).toOption.map StakingPosition.earnedRewards

/-- What the stake is multiplied by after some milliseconds, before it is scaled down. -/
def scaledEpochs (lockupDays : ℕ) (elapsed : ℤ) : ℤ :=
  let seconds := toDouble (toDouble elapsed / 1000)
  let epochs := toDouble (seconds / epochDurationSeconds)
  ⌊toDouble (toDouble (epochs *
    (baseAprBps + (lockupDays / 30 : ℕ) * lockupBonusBps : ℤ)) * 100) + 1 / 2⌋

/-- Before its rounding to an integer this is less than a half, though exactly it would be one. -/
example : scaledEpochs 0 864 = 0 := by decide +kernel

/-- What accrues to a position in some milliseconds. -/
def accrual (p : StakingPosition) (elapsed : ℤ) : ℤ :=
  (p.stakedAmount * scaledEpochs p.lockupDays elapsed).tdiv (365 * 10000 * 100)

theorem accrueRewards_eq (now : ℤ) (p : StakingPosition) :
    accrueRewards now p = p.earnedRewards + accrual p (now - p.updatedAt) := by
  by_cases h : p.stakedAmount = 0
  · rw [accrueRewards, if_pos h, accrual, h, zero_mul, Int.zero_tdiv, add_zero]
  · rw [accrueRewards, if_neg h]
    rfl

theorem reported_eq (now : ℤ) (s : Positions) (user : String) :
    reported now s user = (s user).map (accrueRewards now) := by
  rw [reported, getPosition]
  cases s user with
  | none => rfl
  | some p => rfl

@[simp] theorem scaledEpochs_zero (lockupDays : ℕ) : scaledEpochs lockupDays 0 = 0 := by
  simp only [scaledEpochs, Int.cast_zero, toDouble_zero, zero_div, zero_mul, zero_add]
  norm_num

@[simp] theorem accrual_zero (p : StakingPosition) : accrual p 0 = 0 := by
  rw [accrual, scaledEpochs_zero, mul_zero, Int.zero_tdiv]

theorem tdiv_eq_zero_iff {x d : ℤ} (hd : 0 < d) : x.tdiv d = 0 ↔ |x| < d := by
  rw [← Int.natAbs_eq_zero, Int.natAbs_tdiv, Int.abs_eq_natAbs]
  change x.natAbs / d.natAbs = 0 ↔ _
  rw [Nat.div_eq_zero_iff_lt (Int.natAbs_pos.mpr hd.ne')]
  omega

/-- Each double on the way is at least the power of two that its exact value is at least. -/
theorem le_scaledEpochs (lockupDays : ℕ) {elapsed : ℤ} (h : 2 ^ 42 ≤ elapsed) :
    2 ^ 29 ≤ scaledEpochs lockupDays elapsed := by
  have hrate : (2 ^ 8 : ℚ) ≤ (baseAprBps + (lockupDays / 30 : ℕ) * lockupBonusBps : ℤ) := by
    have hbonus : 0 ≤ ((lockupDays / 30 : ℕ) : ℤ) * lockupBonusBps :=
      mul_nonneg (Int.natCast_nonneg _) (by decide)
    have : (2 ^ 8 : ℤ) ≤ baseAprBps + (lockupDays / 30 : ℕ) * lockupBonusBps := by
      rw [baseAprBps]
      omega
    exact_mod_cast this
  have hmillis : (2 ^ 42 : ℚ) ≤ toDouble elapsed := le_toDouble (by exact_mod_cast h)
  have hseconds : (2 ^ 32 : ℚ) ≤ toDouble (toDouble elapsed / 1000) :=
    le_toDouble (by linarith only [hmillis])
  have hepochs : (2 ^ 15 : ℚ) ≤
      toDouble (toDouble (toDouble elapsed / 1000) / epochDurationSeconds) := by
    refine le_toDouble ?_
    rw [epochDurationSeconds]
    linarith only [hseconds]
  have hyield : (2 ^ 23 : ℚ) ≤ toDouble
      (toDouble (toDouble (toDouble elapsed / 1000) / epochDurationSeconds) *
        (baseAprBps + (lockupDays / 30 : ℕ) * lockupBonusBps : ℤ)) := by
    refine le_toDouble ?_
    calc (2 ^ 23 : ℚ) = 2 ^ 15 * 2 ^ 8 := by norm_num
      _ ≤ _ := mul_le_mul hepochs hrate (by positivity) (le_trans (by positivity) hepochs)
  have hscaled : (2 ^ 29 : ℚ) ≤ toDouble (toDouble
      (toDouble (toDouble (toDouble elapsed / 1000) / epochDurationSeconds) *
        (baseAprBps + (lockupDays / 30 : ℕ) * lockupBonusBps : ℤ)) * 100) :=
    le_toDouble (by linarith only [hyield])
  rw [scaledEpochs, Int.le_floor, Int.cast_pow, Int.cast_ofNat]
  exact hscaled.trans (le_add_of_nonneg_right (by norm_num))

/-- **After long enough something has accrued to any stake.** -/
theorem accrual_ne_zero {elapsed : ℤ} (hp : p.stakedAmount ≠ 0) (h : 2 ^ 42 ≤ elapsed) :
    accrual p elapsed ≠ 0 := by
  have hepochs := le_scaledEpochs p.lockupDays h
  rw [accrual, Ne, tdiv_eq_zero_iff (by decide), abs_mul, not_lt]
  have hstake : 1 ≤ |p.stakedAmount| := Int.one_le_abs hp
  calc (365 * 10000 * 100 : ℤ) ≤ 2 ^ 29 := by decide
    _ ≤ |scaledEpochs p.lockupDays elapsed| := hepochs.trans (le_abs_self _)
    _ ≤ |p.stakedAmount| * |scaledEpochs p.lockupDays elapsed| :=
        le_mul_of_one_le_left (abs_nonneg _) hstake

/-! ## Redated positions -/

/-- The position as far as rewards go, dated anew. -/
structure Redated (now : ℤ) (p q : StakingPosition) : Prop where
  staked : q.stakedAmount = p.stakedAmount
  lockup : q.lockupDays = p.lockupDays
  earned : q.earnedRewards = p.earnedRewards
  dated : q.updatedAt = now

/-- Nothing has accrued since the position was dated. -/
def Idle (now : ℤ) (p : StakingPosition) : Prop :=
  |p.stakedAmount * scaledEpochs p.lockupDays (now - p.updatedAt)| < 365 * 10000 * 100

/-- The position has no stake, or it is dated now. -/
def Dated (now : ℤ) (p : StakingPosition) : Prop := p.stakedAmount = 0 ∨ p.updatedAt = now

theorem Redated.accrual_eq (h : Redated now p q) (elapsed : ℤ) :
    accrual q elapsed = accrual p elapsed := by
  rw [accrual, accrual, h.staked, h.lockup]

theorem Redated.accrueRewards_eq (h : Redated now p q) (later : ℤ) :
    accrueRewards later q = p.earnedRewards + accrual p (later - now) := by
  rw [Staking.accrueRewards_eq, h.accrual_eq, h.earned, h.dated]

/-- **Dating a position anew loses nothing at once exactly if nothing has accrued.** -/
theorem Redated.undisturbed_iff (h : Redated now p q) :
    accrueRewards now q = accrueRewards now p ↔ Idle now p := by
  rw [h.accrueRewards_eq, sub_self, accrual_zero, Staking.accrueRewards_eq, add_right_inj, eq_comm]
  exact tdiv_eq_zero_iff (by decide)

/-- An accrual that repeats after a shift is nothing at all its multiples. -/
theorem accrual_multiples {δ : ℤ} (hshift : ∀ x, 0 ≤ x → accrual p (x + δ) = accrual p x) (k : ℕ) :
    accrual p (k * |δ|) = 0 := by
  induction k with
  | zero => rw [Nat.cast_zero, zero_mul, accrual_zero]
  | succ k ih =>
    have hk : 0 ≤ (k : ℤ) * |δ| := by positivity
    have hsucc : ((k + 1 : ℕ) : ℤ) * |δ| = k * |δ| + |δ| := by
      rw [Nat.cast_succ, add_mul, one_mul]
    rcases abs_choice δ with hδ | hδ
    · rw [hsucc, ← ih, ← hshift _ hk]
      rw [hδ]
    · rw [← ih, ← hshift _ (by positivity), hsucc]
      congr 1
      omega

/-- **Dating a position anew changes no later reading exactly if it has no stake or this date.** -/
theorem Redated.undisturbed_later_iff (h : Redated now p q) :
    (∀ later, now ≤ later → accrueRewards later q = accrueRewards later p) ↔ Dated now p := by
  constructor
  · intro hlater
    by_contra hnot
    obtain ⟨hstaked, hdate⟩ := not_or.mp hnot
    have hshift : ∀ x, 0 ≤ x → accrual p (x + (now - p.updatedAt)) = accrual p x := by
      intro x hx
      have hat := hlater (now + x) (by omega)
      rw [h.accrueRewards_eq, Staking.accrueRewards_eq, add_right_inj] at hat
      rw [← add_sub_assoc, add_comm x, ← hat]
      congr 1
      omega
    refine accrual_ne_zero hstaked ?_ (accrual_multiples hshift (2 ^ 42))
    have hone : 1 ≤ |now - p.updatedAt| := Int.one_le_abs (by omega)
    push_cast
    omega
  · rintro (hstaked | hdate) later -
    · rw [h.accrueRewards_eq, Staking.accrueRewards_eq, accrual, accrual, hstaked, zero_mul,
        zero_mul]
    · rw [h.accrueRewards_eq, Staking.accrueRewards_eq, hdate]

/-! ## What delegations write -/

/-- A delegation, a re-delegation or a revocation. -/
def Op.isDelegation : Op → Bool
  | .delegate _ | .revokeDelegation => true
  | _ => false

/-- Those whose positions a delegation or a revocation writes: the new delegate, the user and the
former delegate. -/
def written (s : Positions) (r : Request) : List String :=
  let former := ((s r.userAddress).bind StakingPosition.delegate).toList
  match r.op with
  | .delegate delegateTo => delegateTo :: r.userAddress :: former
  | .revokeDelegation => r.userAddress :: former
  | _ => []

/-- Some users' positions are dated anew, and nobody else's is changed. -/
def Redates (now : ℤ) (s s' : Positions) (users : List String) : Prop :=
  ∀ v, (v ∈ users → Option.Rel (Redated now) (s v) (s' v)) ∧ (v ∉ users → s' v = s v)

theorem Redates.refl (now : ℤ) (s : Positions) : Redates now s s [] :=
  fun _ => ⟨fun h => absurd h List.not_mem_nil, fun _ => rfl⟩

theorem Redates.update (h : Redates now s t users) (hp : s user = some p) (hq : Redated now p q) :
    Redates now s (Function.update t user (some q)) (user :: users) := by
  intro v
  by_cases hv : v = user
  · subst hv
    rw [Function.update_self, hp]
    exact ⟨fun _ => .some hq, fun hnot => absurd (List.mem_cons_self ..) hnot⟩
  · rw [Function.update_of_ne hv, List.mem_cons, or_iff_right hv]
    exact h v

/-- A user without a position has nothing to write. -/
theorem Redates.absent (h : Redates now s s users) (hp : s user = none) :
    Redates now s s (user :: users) := by
  intro v
  refine ⟨fun hv => ?_, fun _ => rfl⟩
  rcases List.mem_cons.mp hv with rfl | hv
  · rw [hp]
    exact .none
  · exact (h v).1 hv

theorem removeFromPrevious_redates (now : ℤ) (s : Positions) (user : String)
    (p : StakingPosition) : Redates now s (removeFromPrevious now s user p) p.delegate.toList := by
  rw [removeFromPrevious]
  cases p.delegate with
  | none => exact .refl now s
  | some previous =>
    dsimp only [Option.toList_some]
    cases hprevious : s previous with
    | none => exact (Redates.refl now s).absent hprevious
    | some c => exact (Redates.refl now s).update hprevious ⟨rfl, rfl, rfl, rfl⟩

theorem reclaim_redates (now : ℤ) (s : Positions) (user : String) (p : StakingPosition)
    (d : String) : Redates now s (reclaim now s user p d) [d] := by
  rw [reclaim]
  cases hd : s d with
  | none => exact (Redates.refl now s).absent hd
  | some c => exact (Redates.refl now s).update hd ⟨rfl, rfl, rfl, rfl⟩

theorem delegate_redates {target : String} {a : StakingPosition × StakingPosition}
    (h : delegate now s user target = .ok (a, s')) :
    Redates now s s' (written s ⟨now, user, .delegate target⟩) := by
  simp only [delegate] at h
  split at h
  · cases h
  rename_i p hp
  split at h
  · cases h
  split at h
  · cases h
  rename_i c hc
  cases h
  have hformer := removeFromPrevious_redates now s user p
  rw [written, hp]
  refine Redates.update (Redates.update hformer hp ?_) hc ?_
  · exact ⟨rfl, rfl, rfl, rfl⟩
  · exact ⟨rfl, rfl, rfl, rfl⟩

theorem revokeDelegation_redates (h : revokeDelegation now s user = .ok (q, s')) :
    Redates now s s' (written s ⟨now, user, .revokeDelegation⟩) := by
  simp only [revokeDelegation] at h
  split at h
  · cases h
  rename_i p hp
  split at h
  · cases h
  rename_i d hd
  cases h
  have hreclaimed := reclaim_redates now s user p d
  rw [written, hp, Option.bind_some, hd]
  exact hreclaimed.update hp ⟨rfl, rfl, rfl, rfl⟩

/-- **A delegation or a revocation dates the positions it writes anew.** -/
theorem step_redates (hop : r.op.isDelegation) (hstep : step r s = some s') :
    Redates r.now s s' (written s r) := by
  obtain ⟨now, user, op⟩ := r
  cases op with
  | stake amount lockupDays => cases hop
  | unstake amount => cases hop
  | delegate target =>
    obtain ⟨a, hok⟩ := ok_of_toOption hstep
    exact delegate_redates hok
  | revokeDelegation =>
    obtain ⟨q, hok⟩ := ok_of_toOption hstep
    exact revokeDelegation_redates hok
  | claimRewards => cases hop

/-! ## One call -/

/-- The positions of some users meet a condition. -/
def AllOf (C : StakingPosition → Prop) (s : Positions) (users : List String) : Prop :=
  ∀ v ∈ users, ∀ p, s v = some p → C p

/-- What dating anew does to one reading, said of all. -/
theorem Redates.forall_iff {C : StakingPosition → Prop}
    {f : StakingPosition → StakingPosition → Prop} (h : Redates now s s' users) (hrefl : ∀ p, f p p)
    (hC : ∀ p q, Redated now p q → (f p q ↔ C p)) :
    (∀ v p q, s v = some p → s' v = some q → f p q) ↔ AllOf C s users := by
  constructor
  · intro hall v hv p hp
    have hrel := (h v).1 hv
    rw [hp] at hrel
    generalize hq : s' v = o at hrel
    cases hrel with
    | some hpq => exact (hC _ _ hpq).mp (hall v _ _ hp hq)
  · intro hall v p q hp hq
    by_cases hv : v ∈ users
    · have hrel := (h v).1 hv
      rw [hp, hq] at hrel
      cases hrel with
      | some hpq => exact (hC _ _ hpq).mpr (hall v hv p hp)
    · have hsame := (h v).2 hv
      rw [hp, hq] at hsame
      cases hsame
      exact hrefl p

/-- Nobody's position comes or goes. -/
theorem Redates.isSome_eq (h : Redates now s s' users) (v : String) :
    (s' v).isSome = (s v).isSome := by
  by_cases hv : v ∈ users
  · have hrel := (h v).1 hv
    generalize s v = o at hrel
    generalize s' v = o' at hrel
    cases hrel with
    | none => rfl
    | some => rfl
  · rw [(h v).2 hv]

theorem Redates.reported_eq_iff (h : Redates now s s' users) (later : ℤ) (v : String) :
    reported later s' v = reported later s v ↔ ∀ p q, s v = some p → s' v = some q →
      accrueRewards later q = accrueRewards later p := by
  rw [reported_eq, reported_eq]
  have hsome := h.isSome_eq v
  cases hp : s v with
  | none =>
    rw [hp, Option.isSome_none, Option.isSome_eq_false_iff, Option.isNone_iff_eq_none] at hsome
    rw [hsome]
    exact iff_of_true rfl fun p q hnone => by cases hnone
  | some p =>
    rw [hp, Option.isSome_some, Option.isSome_iff_exists] at hsome
    obtain ⟨q, hq⟩ := hsome
    rw [hq]
    simp

/-- **Everybody's rewards are the same just after as just before exactly if nothing has accrued to
the positions written.** -/
theorem reported_now_iff (hop : r.op.isDelegation) (hstep : step r s = some s') :
    (∀ user, reported r.now s' user = reported r.now s user) ↔
      AllOf (Idle r.now) s (written s r) := by
  have h := step_redates hop hstep
  rw [forall_congr' (h.reported_eq_iff r.now)]
  exact h.forall_iff (f := fun p q => accrueRewards r.now q = accrueRewards r.now p)
    (fun _ => rfl) fun _ _ hpq => hpq.undisturbed_iff

/-- **They are the same at all later instants exactly if the positions written have no stake or are
dated now.** -/
theorem reported_later_iff (hop : r.op.isDelegation) (hstep : step r s = some s') :
    (∀ user later, r.now ≤ later → reported later s' user = reported later s user) ↔
      AllOf (Dated r.now) s (written s r) := by
  have h := step_redates hop hstep
  rw [← h.forall_iff (f := fun p q => ∀ later, r.now ≤ later →
    accrueRewards later q = accrueRewards later p) (fun _ _ _ => rfl)
    fun _ _ hpq => hpq.undisturbed_later_iff]
  constructor
  · intro hall v p q hp hq later hlater
    exact (h.reported_eq_iff later v).mp (hall v later hlater) p q hp hq
  · intro hall v later hlater
    exact (h.reported_eq_iff later v).mpr fun p q hp hq => hall v p q hp hq later hlater

/-! ## Whole runs -/

/-- Positions that accrue alike. -/
structure Alike (p q : StakingPosition) : Prop where
  staked : p.stakedAmount = q.stakedAmount
  lockup : p.lockupDays = q.lockupDays
  earned : p.earnedRewards = q.earnedRewards
  dated : p.stakedAmount = 0 ∨ p.updatedAt = q.updatedAt

theorem Alike.accrueRewards_eq (h : Alike p q) (later : ℤ) :
    accrueRewards later p = accrueRewards later q := by
  obtain ⟨hstaked, hlockup, hearned, hnone | hdated⟩ := h
  · rw [accrueRewards, accrueRewards, if_pos hnone, if_pos (hstaked ▸ hnone), hearned]
  · rw [accrueRewards, accrueRewards, hstaked, hlockup, hearned, hdated]

/-- A user's positions in two states accrue alike. -/
def AlikeFor (user : String) (s t : Positions) : Prop := Option.Rel Alike (s user) (t user)

theorem AlikeFor.refl (user : String) (s : Positions) : AlikeFor user s s := by
  rw [AlikeFor]
  cases s user with
  | none => exact .none
  | some p => exact .some ⟨rfl, rfl, rfl, .inr rfl⟩

theorem AlikeFor.reported_eq (h : AlikeFor user s t) (later : ℤ) :
    reported later s user = reported later t user := by
  rw [Staking.reported_eq, Staking.reported_eq]
  rw [AlikeFor] at h
  generalize s user = o at h
  generalize t user = o' at h
  cases h with
  | none => rfl
  | some hpq => exact congrArg some (hpq.accrueRewards_eq later)

/-- A stake, an unstaking or a claim of the user. -/
def ownRequest (user : String) (r : Request) : Bool :=
  r.userAddress = user && !r.op.isDelegation

theorem AlikeFor.update (s t : Positions) (user : String) (h : Alike p q) :
    AlikeFor user (Function.update s user (some p)) (Function.update t user (some q)) := by
  rw [AlikeFor, Function.update_self, Function.update_self]
  exact .some h

/-- What is written by the code from positions that accrue alike accrues alike: it is dated now, and
what has accrued is settled. -/
theorem Alike.settled (h : Alike p q) (now amount : ℤ) {p' q' : StakingPosition}
    (hp : p'.stakedAmount = p.stakedAmount + amount ∧ p'.earnedRewards = accrueRewards now p ∧
      p'.updatedAt = now)
    (hq : q'.stakedAmount = q.stakedAmount + amount ∧ q'.earnedRewards = accrueRewards now q ∧
      q'.updatedAt = now) (hlockup : p'.lockupDays = q'.lockupDays) : Alike p' q' where
  staked := by rw [hp.1, hq.1, h.staked]
  lockup := hlockup
  earned := by rw [hp.2.1, hq.2.1, h.accrueRewards_eq]
  dated := .inr (hp.2.2.trans hq.2.2.symm)

theorem AlikeFor.stake (h : AlikeFor user s t) (now amount : ℤ) (lockupDays : Option ℕ) :
    Option.Rel (AlikeFor user) (step ⟨now, user, .stake amount lockupDays⟩ s)
      (step ⟨now, user, .stake amount lockupDays⟩ t) := by
  simp only [step, Staking.stake]
  by_cases hmin : amount < MIN_STAKE_AMOUNT
  · rw [if_pos hmin, if_pos hmin]
    exact .none
  rw [if_neg hmin, if_neg hmin]
  by_cases hlockup : lockupDays.getD 0 ∉ LOCKUP_OPTIONS
  · rw [if_pos hlockup, if_pos hlockup]
    exact .none
  rw [if_neg hlockup, if_neg hlockup]
  rw [AlikeFor] at h
  cases hs : s user <;> cases ht : t user <;> rw [hs, ht] at h <;> cases h
  · exact .some (.update s t user ⟨rfl, rfl, rfl, .inr rfl⟩)
  · rename_i p q hpq
    refine .some (.update s t user (hpq.settled now amount ⟨rfl, rfl, rfl⟩ ⟨rfl, rfl, rfl⟩ ?_))
    exact congrArg (max · _) hpq.lockup

theorem AlikeFor.unstake (h : AlikeFor user s t) (now amount : ℤ) :
    Option.Rel (AlikeFor user) (step ⟨now, user, .unstake amount⟩ s)
      (step ⟨now, user, .unstake amount⟩ t) := by
  simp only [step, Staking.unstake]
  rw [AlikeFor] at h
  cases hs : s user <;> cases ht : t user <;> rw [hs, ht] at h <;> cases h
  · exact .none
  · rename_i p q hpq
    dsimp only
    by_cases hamount : p.stakedAmount < amount
    · rw [if_pos hamount, if_pos (hpq.staked ▸ hamount)]
      exact .none
    · rw [if_neg hamount, if_neg (hpq.staked ▸ hamount)]
      exact .some (.update s t user
        (hpq.settled now (-amount) ⟨rfl, rfl, rfl⟩ ⟨rfl, rfl, rfl⟩ hpq.lockup))

theorem AlikeFor.claimRewards (h : AlikeFor user s t) (now : ℤ) :
    Option.Rel (AlikeFor user) (step ⟨now, user, .claimRewards⟩ s)
      (step ⟨now, user, .claimRewards⟩ t) := by
  simp only [step, Staking.claimRewards]
  rw [AlikeFor] at h
  cases hs : s user <;> cases ht : t user <;> rw [hs, ht] at h <;> cases h
  · exact .none
  · rename_i p q hpq
    exact .some (.update s t user ⟨hpq.staked, hpq.lockup, rfl, .inr rfl⟩)

/-- The user's own requests do the same to positions that accrue alike. -/
theorem AlikeFor.exec_own (h : AlikeFor user s t) (hown : ownRequest user r = true) :
    AlikeFor user (exec step s r) (exec step t r) := by
  obtain ⟨now, owner, op⟩ := r
  obtain ⟨howner, hop⟩ := Bool.and_eq_true_iff.mp hown
  obtain rfl : owner = user := of_decide_eq_true howner
  have hboth : Option.Rel (AlikeFor owner) (step ⟨now, owner, op⟩ s) (step ⟨now, owner, op⟩ t) := by
    cases op with
    | stake amount lockupDays => exact h.stake now amount lockupDays
    | unstake amount => exact h.unstake now amount
    | delegate target => cases hop
    | revokeDelegation => cases hop
    | claimRewards => exact h.claimRewards now
  rw [exec, exec]
  generalize step ⟨now, owner, op⟩ s = o at hboth ⊢
  generalize step ⟨now, owner, op⟩ t = o' at hboth ⊢
  cases hboth with
  | none => exact h
  | some hst => exact hst

/-- Other users' stakes, unstakings and claims write no position of the user. -/
theorem step_of_ne (hne : r.userAddress ≠ user) (hop : r.op.isDelegation = false)
    (hstep : step r s = some s') : s' user = s user := by
  obtain ⟨now, owner, op⟩ := r
  cases op with
  | stake amount lockupDays =>
    obtain ⟨q, hok⟩ := ok_of_toOption hstep
    obtain ⟨rfl, -⟩ := stake_ok hok
    exact Function.update_of_ne (Ne.symm hne) ..
  | unstake amount =>
    obtain ⟨q, hok⟩ := ok_of_toOption hstep
    obtain ⟨rfl, -⟩ := unstake_ok hok
    exact Function.update_of_ne (Ne.symm hne) ..
  | delegate target => cases hop
  | revokeDelegation => cases hop
  | claimRewards =>
    obtain ⟨⟨q, rewards⟩, hok⟩ := ok_of_toOption hstep
    obtain ⟨rfl, -⟩ := claimRewards_ok hok
    exact Function.update_of_ne (Ne.symm hne) ..

/-- The delegation, if it is one, is of positions that have no stake or are dated now. -/
def Undisturbing (s : Positions) (r : Request) : Prop := AllOf (Dated r.now) s (written s r)

/-- A position dated anew accrues as before, if it had no stake or that date. -/
theorem Redated.alike {c : StakingPosition} (h : Redated now p q) (hp : Dated now p)
    (hpc : Alike p c) : Alike q c := by
  refine ⟨h.staked.trans hpc.staked, h.lockup.trans hpc.lockup, h.earned.trans hpc.earned, ?_⟩
  rw [h.staked, h.dated]
  rcases hp with hnone | hdated
  · exact .inl hnone
  · rw [← hdated]
    exact hpc.dated

/-- Everything else leaves the user's position accruing as before. -/
theorem AlikeFor.step_other (h : AlikeFor user s t) (hother : ownRequest user r = false)
    (hstep : step r s = some s') (hC : Undisturbing s r) : AlikeFor user s' t := by
  cases hop : r.op.isDelegation with
  | true =>
    have hredates := step_redates hop hstep user
    by_cases hv : user ∈ written s r
    · have hrel := hredates.1 hv
      have hdated := hC user hv
      rw [AlikeFor] at h ⊢
      generalize s user = o at h hrel hdated
      generalize s' user = o' at hrel ⊢
      generalize t user = o'' at h ⊢
      cases hrel with
      | none => exact h
      | some hpq =>
        cases h with
        | some hpc => exact .some (hpq.alike (hdated _ rfl) hpc)
    · rwa [AlikeFor, hredates.2 hv]
  | false =>
    have hne : r.userAddress ≠ user := by
      intro heq
      rw [ownRequest, heq, hop, decide_eq_true rfl] at hother
      cases hother
    rwa [AlikeFor, step_of_ne hne hop hstep]

/-- **Along a run whose delegations disturb nothing, a user's rewards are those of the user's own
stakes, unstakings and claims.** -/
theorem run_reported (h : Meets step Undisturbing s requests) (user : String) (later : ℤ) :
    reported later (run step s requests) user =
      reported later (run step s (requests.filter (ownRequest user))) user := by
  have halike : AlikeFor user (run step s requests)
      (run step s (requests.filter (ownRequest user))) := by
    refine h.run_filter (R := AlikeFor user) (fun _ _ _ hown hst => hst.exec_own hown)
      (fun _ _ _ _ hother hstep hC hst => hst.step_other hother hstep hC) (.refl user s)
  exact halike.reported_eq later

/-- **A delegation disturbs nobody's rewards at that moment exactly if nothing had accrued to the
positions it writes; it disturbs no later reading exactly if these have no stake or are dated then;
and along a run whose delegations are all so, rewards depend on their owner's stakes, unstakings and
claims only.** -/
theorem rewards_undisturbed_iff (s : Positions) :
    (∀ r s', r.op.isDelegation = true → step r s = some s' →
      ((∀ user, reported r.now s' user = reported r.now s user) ↔
        AllOf (Idle r.now) s (written s r)) ∧
      ((∀ user later, r.now ≤ later → reported later s' user = reported later s user) ↔
        AllOf (Dated r.now) s (written s r))) ∧
    ∀ requests, Meets step Undisturbing s requests → ∀ user later,
      reported later (run step s requests) user =
        reported later (run step s (requests.filter (ownRequest user))) user :=
  ⟨fun _ _ hop hstep => ⟨reported_now_iff hop hstep, reported_later_iff hop hstep⟩,
    fun _ h => run_reported h⟩

namespace Sample

/-- Alice and Bob stake. -/
def staked : List Request :=
  [⟨0, "alice", .stake 1000000 none⟩, ⟨0, "bob", .stake 1000000 none⟩]

/-- A year later Alice delegates to Bob. -/
def delegatesLate : Request := ⟨31536000000, "alice", .delegate "bob"⟩

/-- **The year's rewards of both are gone.** -/
theorem delegation_takes_rewards :
    reported delegatesLate.now (positionsAfter staked) "alice" = some 50000 ∧
      reported delegatesLate.now (positionsAfter staked) "bob" = some 50000 ∧
      reported delegatesLate.now (positionsAfter (staked ++ [delegatesLate])) "alice" = some 0 ∧
      reported delegatesLate.now (positionsAfter (staked ++ [delegatesLate])) "bob" = some 0 := by
  decide +kernel

end Sample

end StellarLend.Staking
