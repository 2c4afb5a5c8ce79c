import StellarLend.Foundations.Total
import StellarLend.Staking.Service

/-!
# Staking/VotingPower — which orders of requests count every stake once

Every position has a power of its own, and the voting powers should be these, moved about.  What the
voting powers exceed the own ones by (`Exceeds`) changes by an amount that the state before the
request tells (`step_exceeds`): a stake or an unstaking writes the own power over whatever was
delegated, a new delegation resets the former delegate, and a revocation gives back the stake and
not what was delegated.  So the powers agree along exactly the runs where none of these is one.
-/

namespace StellarLend.Staking

open Foundations

variable {s s' : Positions} {r : Request} {x : ℤ} {user : String} {q : StakingPosition}

/-! ## Powers -/

/-- The voting power that a position's own stake gives. -/
def ownPower (p : StakingPosition) : ℤ := computeVotingPower p.stakedAmount p.lockupDays

/-- A number of a user's position, zero for a user without one. -/
def reading (f : StakingPosition → ℤ) (s : Positions) (user : String) : ℤ := (s user).elim 0 f

/-- Each user's voting power. -/
def votingPower : Positions → String → ℤ := reading StakingPosition.votingPower

/-- Each user's own computed voting power. -/
def computedPower : Positions → String → ℤ := reading ownPower

/-- What a position's voting power exceeds its own by. -/
def excess (p : StakingPosition) : ℤ := p.votingPower - ownPower p

theorem reading_some {f : StakingPosition → ℤ} {p : StakingPosition} (h : s user = some p) :
    reading f s user = f p := by
  rw [reading, h]
  rfl

theorem reading_none {f : StakingPosition → ℤ} (h : s user = none) :
    reading f s user = 0 := by
  rw [reading, h]
  rfl

theorem reading_update (f : StakingPosition → ℤ) (s : Positions) (user : String)
    (q : StakingPosition) : reading f (Function.update s user (some q)) user = f q := by
  rw [reading_some (Function.update_self ..)]

theorem reading_update_of_ne (f : StakingPosition → ℤ) (s : Positions) {v : String}
    (q : StakingPosition) (h : v ≠ user) :
    reading f (Function.update s user (some q)) v = reading f s v := by
  rw [reading, Function.update_of_ne h, reading]

theorem computeVotingPower_nonneg {stakedAmount : ℤ} (h : 0 ≤ stakedAmount) (lockupDays : ℕ) :
    0 ≤ computeVotingPower stakedAmount lockupDays :=
  Int.tdiv_nonneg (mul_nonneg h (Int.natCast_nonneg _)) (by decide)

/-! ## Sums -/

/-- The voting powers sum to this much more than the own powers. -/
def Exceeds (s : Positions) (x : ℤ) : Prop :=
  ∃ t u, TotalsTo (votingPower s) t ∧ TotalsTo (computedPower s) u ∧ t - u = x

theorem Exceeds.empty : Exceeds (fun _ => none) 0 := ⟨0, 0, .zero, .zero, rfl⟩

theorem Exceeds.unique {y : ℤ} (hx : Exceeds s x) (hy : Exceeds s y) : x = y := by
  obtain ⟨t, u, ht, hu, rfl⟩ := hx
  obtain ⟨t', u', ht', hu', rfl⟩ := hy
  rw [ht.unique ht', hu.unique hu']

/-- The sums agree exactly if the one exceeds the other by nothing. -/
theorem exceeds_zero_iff :
    Exceeds s 0 ↔ ∃ t, TotalsTo (votingPower s) t ∧ TotalsTo (computedPower s) t := by
  constructor
  · rintro ⟨t, u, ht, hu, h⟩
    exact ⟨t, ht, sub_eq_zero.mp h ▸ hu⟩
  · rintro ⟨t, ht, hu⟩
    exact ⟨t, t, ht, hu, sub_self t⟩

/-- **One position is written, and the excess moves by what its excess does.** -/
theorem Exceeds.update (h : Exceeds s x) (user : String) (q : StakingPosition) :
    Exceeds (Function.update s user (some q)) (x + (excess q - reading excess s user)) := by
  obtain ⟨t, u, ht, hu, rfl⟩ := h
  refine ⟨_, _, ht.change user fun v hv => reading_update_of_ne _ s q hv,
    hu.change user fun v hv => reading_update_of_ne _ s q hv, ?_⟩
  have hread : reading excess s user = votingPower s user - computedPower s user := by
    rw [votingPower, computedPower, reading, reading, reading]
    cases s user with
    | none => rfl
    | some p => rfl
  rw [hread, votingPower, computedPower, reading_update, reading_update, excess]
  omega

/-! ## What every request keeps -/

/-- No stake and no power is negative, and a delegate is another user, who has a position. -/
structure Regular (s : Positions) : Prop where
  staked : ∀ user p, s user = some p → 0 ≤ p.stakedAmount
  power : ∀ user p, s user = some p → 0 ≤ p.votingPower
  delegate : ∀ user p, s user = some p → ∀ d, p.delegate = some d → d ≠ user ∧ (s d).isSome

theorem Regular.empty : Regular (fun _ => none) :=
  ⟨by simp, by simp, by simp⟩

/-- Who has a position keeps one. -/
theorem isSome_update (user : String) (q : StakingPosition) {v : String} (h : (s v).isSome) :
    (Function.update s user (some q) v).isSome := by
  by_cases hv : v = user
  · rw [hv, Function.update_self]
    rfl
  · rwa [Function.update_of_ne hv]

theorem Regular.update (h : Regular s) (hstaked : 0 ≤ q.stakedAmount) (hpower : 0 ≤ q.votingPower)
    (hdelegate : ∀ d, q.delegate = some d → d ≠ user ∧ (s d).isSome) :
    Regular (Function.update s user (some q)) := by
  refine ⟨fun v p hp => ?_, fun v p hp => ?_, fun v p hp d hd => ?_⟩ <;>
    by_cases hv : v = user
  · rw [hv, Function.update_self] at hp
    cases hp
    exact hstaked
  · rw [Function.update_of_ne hv] at hp
    exact h.staked v p hp
  · rw [hv, Function.update_self] at hp
    cases hp
    exact hpower
  · rw [Function.update_of_ne hv] at hp
    exact h.power v p hp
  · rw [hv, Function.update_self] at hp
    cases hp
    rw [hv]
    exact (hdelegate d hd).imp_right (isSome_update user q)
  · rw [Function.update_of_ne hv] at hp
    exact (h.delegate v p hp d hd).imp_right (isSome_update user q)

/-- A position that gets the power of a stake which is not negative, for the same delegate. -/
theorem Regular.restake (h : Regular s) {p : StakingPosition} (hp : s user = some p)
    (hstaked : 0 ≤ q.stakedAmount) (hpower : q.votingPower = ownPower q)
    (hto : q.delegatedTo = p.delegatedTo) : Regular (Function.update s user (some q)) := by
  refine h.update hstaked (hpower ▸ computeVotingPower_nonneg hstaked _) fun d hd => ?_
  rw [StakingPosition.delegate, hto] at hd
  exact h.delegate user p hp d hd

/-! ## What a request does -/

/-- A stake adds to the user's position, or opens one. -/
theorem stake_ok {now amount : ℤ} {lockupDays : Option ℕ}
    (h : stake now s user amount lockupDays = .ok (q, s')) :
    s' = Function.update s user (some q) ∧ 0 < amount ∧ q.votingPower = ownPower q ∧
      ((∃ p, s user = some p ∧ q.stakedAmount = p.stakedAmount + amount ∧
          q.delegatedTo = p.delegatedTo) ∨
        (s user = none ∧ q.stakedAmount = amount ∧ q.delegatedTo = none)) := by
  simp only [stake] at h
  split at h
  · cases h
  rename_i hmin
  have hpos : 0 < amount := lt_of_lt_of_le (by decide) (not_lt.mp hmin)
  split at h
  · cases h
  split at h
  · rename_i p hp
    cases h
    exact ⟨rfl, hpos, rfl, .inl ⟨p, hp, rfl, rfl⟩⟩
  · rename_i hp
    cases h
    exact ⟨rfl, hpos, rfl, .inr ⟨hp, rfl, rfl⟩⟩

/-- An unstaking takes at most the stake. -/
theorem unstake_ok {now amount : ℤ} (h : unstake now s user amount = .ok (q, s')) :
    s' = Function.update s user (some q) ∧ q.votingPower = ownPower q ∧
      ∃ p, s user = some p ∧ 0 ≤ q.stakedAmount ∧ q.delegatedTo = p.delegatedTo := by
  simp only [unstake] at h
  split at h
  · cases h
  rename_i p hp
  split at h
  · cases h
  rename_i hamount
  cases h
  exact ⟨rfl, rfl, p, hp, sub_nonneg.mpr (not_lt.mp hamount), rfl⟩

/-- A claim of rewards leaves stake, power and delegate alone. -/
theorem claimRewards_ok {now rewards : ℤ} (h : claimRewards now s user = .ok ((q, rewards), s')) :
    s' = Function.update s user (some q) ∧ ∃ p, s user = some p ∧
      q.stakedAmount = p.stakedAmount ∧ q.votingPower = p.votingPower ∧ excess q = excess p ∧
      q.delegatedTo = p.delegatedTo := by
  simp only [claimRewards] at h
  split at h
  · cases h
  rename_i p hp
  cases h
  exact ⟨rfl, p, hp, rfl, rfl, rfl, rfl⟩

/-- A delegation resets the former delegate, empties the delegator's power and adds it to what the
new delegate had before. -/
theorem delegate_ok {now : ℤ} {target : String} {d : StakingPosition}
    (h : delegate now s user target = .ok ((q, d), s')) :
    user ≠ target ∧ ∃ p c, s user = some p ∧ s target = some c ∧
      s' = Function.update (Function.update (removeFromPrevious now s user p) user (some q)) target
        (some d) ∧
      q.stakedAmount = p.stakedAmount ∧ q.votingPower = 0 ∧ ownPower q = ownPower p ∧
      q.delegatedTo = some target ∧ d.stakedAmount = c.stakedAmount ∧
      d.votingPower = c.votingPower + p.votingPower ∧ ownPower d = ownPower c ∧
      d.delegatedTo = c.delegatedTo := by
  simp only [delegate] at h
  split at h
  · cases h
  rename_i p hp
  split at h
  · cases h
  rename_i hself
  split at h
  · cases h
  rename_i c hc
  cases h
  exact ⟨hself, p, c, hp, hc, rfl, rfl, rfl, rfl, rfl, rfl, rfl, rfl, rfl⟩

/-- A revocation takes the stake from the delegate and gives the user the own power. -/
theorem revokeDelegation_ok {now : ℤ} (h : revokeDelegation now s user = .ok (q, s')) :
    ∃ p d, s user = some p ∧ p.delegate = some d ∧
      s' = Function.update (reclaim now s user p d) user (some q) ∧
      q.stakedAmount = p.stakedAmount ∧ q.votingPower = ownPower p ∧ ownPower q = ownPower p ∧
      q.delegatedTo = none := by
  simp only [revokeDelegation] at h
  split at h
  · cases h
  rename_i p hp
  split at h
  · cases h
  rename_i d hd
  cases h
  exact ⟨p, d, hp, hd, rfl, rfl, rfl, rfl, rfl⟩

/-- The former delegate, if there is one, is the one position that its removal writes. -/
theorem removeFromPrevious_eq (h : Regular s) (now : ℤ) {p : StakingPosition}
    (hp : s user = some p) :
    (p.delegate = none ∧ removeFromPrevious now s user p = s) ∨
    ∃ previous c q, p.delegate = some previous ∧ previous ≠ user ∧ s previous = some c ∧
      removeFromPrevious now s user p = Function.update s previous (some q) ∧
      q.stakedAmount = c.stakedAmount ∧ q.votingPower = ownPower q ∧ ownPower q = ownPower c ∧
      q.delegatedTo = c.delegatedTo := by
  rcases hd : p.delegate with _ | previous
  · refine .inl ⟨rfl, ?_⟩
    rw [removeFromPrevious, hd]
  · obtain ⟨hne, hsome⟩ := h.delegate user p hp previous hd
    obtain ⟨c, hc⟩ := Option.isSome_iff_exists.mp hsome
    simp only [removeFromPrevious, hd, hc]
    exact .inr ⟨previous, c, _, rfl, hne, hc, rfl, rfl, rfl, rfl, rfl⟩

/-- What the delegate gives back is the stake, as far as there is power. -/
theorem reclaim_eq (now : ℤ) (user : String) (p : StakingPosition) {d : String}
    {c : StakingPosition} (hc : s d = some c) :
    ∃ q, reclaim now s user p d = Function.update s d (some q) ∧
      q.stakedAmount = c.stakedAmount ∧
      q.votingPower = max (c.votingPower - p.stakedAmount) 0 ∧ ownPower q = ownPower c ∧
      q.delegatedTo = c.delegatedTo := by
  simp only [reclaim, hc]
  exact ⟨_, rfl, rfl, rfl, rfl, rfl⟩

/-! ## One request -/

/-- The request moves powers about and neither makes nor loses any: a stake and an unstaking are of
a position with its own power, a delegation resets no former delegate but one with its own power,
and a revocation takes from the delegate what it gives the user. -/
def Counts (s : Positions) (r : Request) : Prop :=
  match r.op with
  | .stake .. | .unstake _ => ∀ p ∈ s r.userAddress, p.votingPower = ownPower p
  | .delegate target =>
    ∀ p ∈ s r.userAddress, ∀ previous ∈ p.delegate, previous ≠ target →
      ∀ c ∈ s previous, c.votingPower = ownPower c
  | .revokeDelegation =>
    ∀ p ∈ s r.userAddress, ∀ d ∈ p.delegate, ∀ c ∈ s d,
      ownPower p = p.votingPower + min p.stakedAmount c.votingPower
  | .claimRewards => True

/-- What an operation that was not refused answers with. -/
theorem ok_of_toOption {α : Type} {o : Except ServiceError (α × Positions)}
    (h : (o.map Prod.snd).toOption = some s') : ∃ a, o = .ok (a, s') := by
  rcases o with _ | ⟨a, t⟩
  · cases h
  · cases h
    exact ⟨a, rfl⟩

theorem Regular.stake {now amount : ℤ} {lockupDays : Option ℕ} (h : Regular s)
    (hok : Staking.stake now s user amount lockupDays = .ok (q, s')) : Regular s' := by
  obtain ⟨rfl, hpos, hpower, ⟨p, hp, hstaked, hto⟩ | ⟨-, hstaked, hto⟩⟩ := stake_ok hok
  · have := h.staked user p hp
    exact h.restake hp (by omega) hpower hto
  · refine h.update (by omega) (hpower ▸ computeVotingPower_nonneg (by omega) _) fun d hd => ?_
    rw [StakingPosition.delegate, hto] at hd
    cases hd

theorem Regular.removed (h : Regular s) (now : ℤ) {p : StakingPosition} (hp : s user = some p) :
    Regular (removeFromPrevious now s user p) := by
  obtain ⟨-, heq⟩ | ⟨previous, c, q, -, -, hc, heq, hstaked, hpower, -, hto⟩ :=
    removeFromPrevious_eq h now hp
  · rwa [heq]
  · rw [heq]
    exact h.restake hc (hstaked ▸ h.staked previous c hc) hpower hto

theorem Regular.delegation {now : ℤ} {target : String} {d : StakingPosition} (h : Regular s)
    (hok : Staking.delegate now s user target = .ok ((q, d), s')) :
    Regular s' := by
  obtain ⟨hself, p, c, hp, hc, rfl, hqs, hqv, -, hqto, hds, hdv, -, hdto⟩ := delegate_ok hok
  have hkept : ∀ v, (s v).isSome → (removeFromPrevious now s user p v).isSome := by
    obtain ⟨-, heq⟩ | ⟨previous, _, _, -, -, _, heq, -⟩ := removeFromPrevious_eq h now hp <;>
      intro v hv <;> rw [heq]
    · exact hv
    · exact isSome_update previous _ hv
  have huser : Regular (Function.update (removeFromPrevious now s user p) user (some q)) := by
    refine (h.removed now hp).update (hqs ▸ h.staked user p hp) hqv.ge fun v hv => ?_
    obtain rfl : target = v := by
      rw [StakingPosition.delegate, hqto, Option.filter_some] at hv
      split at hv <;> cases hv
      rfl
    exact ⟨Ne.symm hself, hkept _ (by rw [hc]; rfl)⟩
  refine huser.update (hds ▸ h.staked target c hc) ?_ fun v hv => ?_
  · have h1 := h.power target c hc
    have h2 := h.power user p hp
    omega
  · rw [StakingPosition.delegate, hdto] at hv
    obtain ⟨hne, hsome⟩ := h.delegate target c hc v hv
    exact ⟨hne, isSome_update user q (hkept v hsome)⟩

theorem Regular.revocation {now : ℤ} (h : Regular s)
    (hok : Staking.revokeDelegation now s user = .ok (q, s')) : Regular s' := by
  obtain ⟨p, d, hp, hd, rfl, hqs, hqv, hqo, hqto⟩ := revokeDelegation_ok hok
  obtain ⟨hne, hsome⟩ := h.delegate user p hp d hd
  obtain ⟨c, hc⟩ := Option.isSome_iff_exists.mp hsome
  obtain ⟨c', heq, hcs, hcv, -, hcto⟩ := reclaim_eq now user p hc
  rw [heq]
  have hdelegate : Regular (Function.update s d (some c')) := by
    refine h.update (hcs ▸ h.staked d c hc) (hcv ▸ le_max_right _ _) fun v hv => ?_
    rw [StakingPosition.delegate, hcto] at hv
    exact h.delegate d c hc v hv
  refine hdelegate.update (hqs ▸ h.staked user p hp) ?_ fun v hv => ?_
  · rw [hqv]
    exact computeVotingPower_nonneg (h.staked user p hp) _
  · rw [StakingPosition.delegate, hqto] at hv
    cases hv

/-- **Every request keeps stakes and powers from going negative.** -/
theorem Regular.step (h : Regular s) (hstep : Staking.step r s = some s') : Regular s' := by
  obtain ⟨now, user, op⟩ := r
  cases op with
  | stake amount lockupDays =>
    obtain ⟨q, hok⟩ := ok_of_toOption hstep
    exact h.stake hok
  | unstake amount =>
    obtain ⟨q, hok⟩ := ok_of_toOption hstep
    obtain ⟨rfl, hpower, p, hp, hstaked, hto⟩ := unstake_ok hok
    exact h.restake hp hstaked hpower hto
  | delegate target =>
    obtain ⟨⟨q, d⟩, hok⟩ := ok_of_toOption hstep
    exact h.delegation hok
  | revokeDelegation =>
    obtain ⟨q, hok⟩ := ok_of_toOption hstep
    exact h.revocation hok
  | claimRewards =>
    obtain ⟨⟨q, rewards⟩, hok⟩ := ok_of_toOption hstep
    obtain ⟨rfl, p, hp, hstaked, hpower, -, hto⟩ := claimRewards_ok hok
    refine h.update (hstaked ▸ h.staked user p hp) (hpower ▸ h.power user p hp) fun d hd => ?_
    rw [StakingPosition.delegate, hto] at hd
    exact h.delegate user p hp d hd

theorem regular_after (requests : List Request) : Regular (positionsAfter requests) :=
  run_invariant (fun _ _ _ hstep h => h.step hstep) requests .empty

/-! ## What a request makes of the excess -/

theorem excess_eq_zero_iff {p : StakingPosition} : excess p = 0 ↔ p.votingPower = ownPower p :=
  sub_eq_zero

/-- The user's position gets its own power. -/
theorem Exceeds.restake (h : Exceeds s x) (hpower : q.votingPower = ownPower q) :
    ∃ y, Exceeds (Function.update s user (some q)) (x + y) ∧
      (y = 0 ↔ ∀ p ∈ s user, p.votingPower = ownPower p) := by
  refine ⟨_, h.update user q, ?_⟩
  rw [excess_eq_zero_iff.mpr hpower, zero_sub, neg_eq_zero]
  cases hp : s user with
  | none => simp [reading_none hp]
  | some p => simp [reading_some hp, excess_eq_zero_iff]

/-- A delegation changes the excess by what it resets, unless it writes over the reset. -/
theorem Exceeds.delegation {now : ℤ} {target : String} {d : StakingPosition} (h : Exceeds s x)
    (hs : Regular s) (hok : Staking.delegate now s user target = .ok ((q, d), s')) :
    ∃ y, Exceeds s' (x + y) ∧ (y = 0 ↔ Counts s ⟨now, user, .delegate target⟩) := by
  obtain ⟨hself, p, c, hp, hc, rfl, -, hqv, hqo, -, -, hdv, hdo, -⟩ := delegate_ok hok
  have hq : excess q = - ownPower p := by
    rw [excess, hqv, hqo, zero_sub]
  have hd : excess d = excess c + p.votingPower := by
    rw [excess, excess, hdv, hdo]
    omega
  have hp' : excess p = p.votingPower - ownPower p := rfl
  obtain ⟨hnone, heq⟩ | ⟨previous, b, b', hprev, hne, hb, heq, -, hpower, -, -⟩ :=
    removeFromPrevious_eq hs now hp
  · -- no former delegate: the two writes cancel
    refine ⟨0, ?_, by simp [Counts, hp, hnone]⟩
    have hx := (h.update user q).update target d
    rw [reading_update_of_ne _ _ _ (Ne.symm hself), reading_some hp, reading_some hc] at hx
    rw [heq]
    convert hx using 1
    omega
  have hx := ((h.update previous b').update user q).update target d
  rw [reading_update_of_ne _ _ _ (Ne.symm hself), reading_update_of_ne _ _ _ (Ne.symm hne),
    reading_some hp, reading_some hb] at hx
  have hb' : excess b' = 0 := excess_eq_zero_iff.mpr hpower
  rw [heq]
  by_cases htarget : previous = target
  · -- the new delegate is the former one, whose reset is written over
    obtain rfl := htarget
    obtain rfl : b = c := Option.some.inj (hb.symm.trans hc)
    rw [reading_update] at hx
    refine ⟨0, ?_, ?_⟩
    · convert hx using 1
      omega
    · simp [Counts, hp, hprev]
  · rw [reading_update_of_ne _ _ _ (Ne.symm htarget), reading_some hc] at hx
    refine ⟨- excess b, ?_, ?_⟩
    · convert hx using 1
      omega
    · rw [neg_eq_zero, excess_eq_zero_iff]
      simp [Counts, hp, hprev, hb, htarget]

/-- A revocation changes the excess by the difference of what is given back and what is taken. -/
theorem Exceeds.revocation {now : ℤ} (h : Exceeds s x) (hs : Regular s)
    (hok : Staking.revokeDelegation now s user = .ok (q, s')) :
    ∃ y, Exceeds s' (x + y) ∧ (y = 0 ↔ Counts s ⟨now, user, .revokeDelegation⟩) := by
  obtain ⟨p, d, hp, hd, rfl, -, hqv, hqo, -⟩ := revokeDelegation_ok hok
  obtain ⟨hne, hsome⟩ := hs.delegate user p hp d hd
  obtain ⟨c, hc⟩ := Option.isSome_iff_exists.mp hsome
  obtain ⟨c', heq, -, hcv, hco, -⟩ := reclaim_eq now user p hc
  have hq : excess q = 0 := by
    rw [excess, hqv, hqo, sub_self]
  have hc' : excess c' = excess c - min p.stakedAmount c.votingPower := by
    rw [excess, excess, hcv, hco]
    omega
  have hx := (h.update d c').update user q
  rw [reading_update_of_ne _ _ _ (Ne.symm hne), reading_some hp, reading_some hc] at hx
  rw [heq]
  refine ⟨ownPower p - p.votingPower - min p.stakedAmount c.votingPower, ?_, ?_⟩
  · convert hx using 1
    have hp' : excess p = p.votingPower - ownPower p := rfl
    omega
  · simp only [Counts, hp, hd, hc, Option.mem_def, Option.some.injEq, forall_eq']
    omega

/-- **A request leaves the excess as it is exactly if it counts every stake once.** -/
theorem step_exceeds (h : Exceeds s x) (hs : Regular s) (hstep : step r s = some s') :
    ∃ y, Exceeds s' (x + y) ∧ (y = 0 ↔ Counts s r) := by
  obtain ⟨now, user, op⟩ := r
  cases op with
  | stake amount lockupDays =>
    obtain ⟨q, hok⟩ := ok_of_toOption hstep
    obtain ⟨rfl, -, hpower, -⟩ := stake_ok hok
    exact h.restake hpower
  | unstake amount =>
    obtain ⟨q, hok⟩ := ok_of_toOption hstep
    obtain ⟨rfl, hpower, -⟩ := unstake_ok hok
    exact h.restake hpower
  | delegate target =>
    obtain ⟨⟨q, d⟩, hok⟩ := ok_of_toOption hstep
    exact h.delegation hs hok
  | revokeDelegation =>
    obtain ⟨q, hok⟩ := ok_of_toOption hstep
    exact h.revocation hs hok
  | claimRewards =>
    obtain ⟨⟨q, rewards⟩, hok⟩ := ok_of_toOption hstep
    obtain ⟨rfl, p, hp, -, -, hexcess, -⟩ := claimRewards_ok hok
    refine ⟨0, ?_, by simp [Counts]⟩
    have hx := h.update user q
    rwa [reading_some hp, hexcess, sub_self] at hx

/-! ## Runs -/

/-- No voting power is negative, and they sum to the own powers. -/
def Counted (s : Positions) : Prop :=
  (∀ user, 0 ≤ votingPower s user) ∧
    ∃ t, TotalsTo (votingPower s) t ∧ TotalsTo (computedPower s) t

theorem Regular.votingPower_nonneg (h : Regular s) (user : String) : 0 ≤ votingPower s user := by
  rw [votingPower]
  cases hp : s user with
  | none => rw [reading_none hp]
  | some p =>
    rw [reading_some hp]
    exact h.power user p hp

theorem Regular.counted_iff (h : Regular s) : Counted s ↔ Exceeds s 0 := by
  rw [exceeds_zero_iff]
  exact and_iff_right h.votingPower_nonneg

/-- **A request keeps the powers counted exactly if it counts every stake once.** -/
theorem Regular.step_counted_iff (h : Regular s) (hc : Counted s)
    (hstep : Staking.step r s = some s') : Counted s' ↔ Counts s r := by
  obtain ⟨y, hy, hcounts⟩ := step_exceeds (h.counted_iff.mp hc) h hstep
  rw [zero_add] at hy
  rw [(h.step hstep).counted_iff, ← hcounts]
  constructor
  · exact hy.unique
  · rintro rfl
    exact hy

/-- **The powers are counted in every state of a run exactly if every request of it counts every
stake once.** -/
theorem voting_power_counted_iff (requests : List Request) :
    Meets step Counts (fun _ => none) requests ↔
      ∀ past, past <+: requests → Counted (positionsAfter past) := by
  have hempty : Counted fun _ => none := Regular.empty.counted_iff.mpr .empty
  have hruns : Meets step Counts (fun _ => none) requests ↔ ∀ past, past <+: requests →
      Regular (positionsAfter past) ∧ Counted (positionsAfter past) := by
    refine meets_iff_throughout (I := fun t => Regular t ∧ Counted t) (fun t r t' hstep ht => ?_)
      ⟨.empty, hempty⟩
    rw [← ht.1.step_counted_iff ht.2 hstep, and_iff_right (ht.1.step hstep)]
  rw [hruns]
  exact forall₂_congr fun past _ => and_iff_right (regular_after past)

namespace Sample

/-- Alice delegates what she staked to Bob. -/
def delegated : List Request :=
  [⟨0, "alice", .stake 1000000 none⟩, ⟨0, "bob", .stake 1000000 none⟩,
    ⟨0, "alice", .delegate "bob"⟩]

/-- Then she stakes as much again, and holds the power of both herself. -/
def stakesMore : Request := ⟨0, "alice", .stake 1000000 none⟩

/-- **A stake is counted for two holders.** -/
theorem delegated_stake_counted_twice : ¬ ∀ requests, Counted (positionsAfter requests) := by
  intro h
  have hsome : (step stakesMore (positionsAfter delegated)).isSome := by decide
  obtain ⟨s, hs⟩ := Option.isSome_iff_exists.mp hsome
  have hafter : positionsAfter (delegated ++ [stakesMore]) = s := by
    rw [positionsAfter, run_snoc]
    exact exec_of_some hs
  have hcounts := ((regular_after delegated).step_counted_iff (h delegated) hs).mp
    (hafter ▸ h (delegated ++ [stakesMore]))
  have hfalse : ¬ ∀ p ∈ positionsAfter delegated "alice", p.votingPower = ownPower p := by
    decide
  exact hfalse hcounts

end Sample

end StellarLend.Staking
