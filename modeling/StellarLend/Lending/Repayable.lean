import StellarLend.Lending.Settlement

/-!
# Lending/Repayable — when a debt can be paid back in full

A repayment accrues interest first, and accruing multiplies what the setters leave unbounded: the
slopes of the rate model, the total debt, the fee of a stablecoin.  Computed without bounds, the
rate (`exactRate`), the interest (`pending`) and the amount owed are numbers of the store before the
call; the checked computation agrees with them exactly where nothing overflows (`RateFits`,
`AccruesNow`), and a repayment of the amount owed succeeds exactly there
(`repays_in_full_iff`).
-/

namespace StellarLend.Lending

open Foundations Call

variable {e : Env} {s t s' : Storage} {p : DebtPosition}

/-! ## The borrow rate without overflow -/

/-- The utilization, computed without bounds. -/
def exactUtilization (s : Storage) : ℤ :=
  if getDebtCeiling s ≤ 0 ∨ getTotalDebt s ≤ 0 then 0
  else min ((getTotalDebt s * BPS_SCALE).tdiv (getDebtCeiling s)) BPS_SCALE

theorem exactUtilization_bounds (s : Storage) :
    0 ≤ exactUtilization s ∧ exactUtilization s ≤ BPS_SCALE := by
  unfold exactUtilization
  split
  · exact ⟨le_rfl, by decide⟩
  · rename_i h
    obtain ⟨hceiling, hdebt⟩ := not_or.mp h
    have hquot : 0 ≤ (getTotalDebt s * BPS_SCALE).tdiv (getDebtCeiling s) :=
      Int.tdiv_nonneg (mul_nonneg (not_le.mp hdebt).le (by decide)) (not_le.mp hceiling).le
    exact ⟨le_min hquot (by decide), min_le_right _ _⟩

/-- The total debt in basis points is a 128-bit number, where it is computed. -/
def UtilizationFits (s : Storage) : Prop :=
  0 < getDebtCeiling s → getTotalDebt s * BPS_SCALE ≤ I128.MAX

instance (s : Storage) : Decidable (UtilizationFits s) := inferInstanceAs (Decidable (_ → _))

theorem utilizationBps_ok {u : ℤ} :
    utilizationBps s = .ok u ↔ UtilizationFits s ∧ u = exactUtilization s := by
  simp only [utilizationBps, UtilizationFits, exactUtilization]
  by_cases hceiling : getDebtCeiling s ≤ 0
  · simp [hceiling, not_lt.mpr hceiling, eq_comm]
  by_cases hdebt : getTotalDebt s ≤ 0
  · have hle : getTotalDebt s * BPS_SCALE ≤ I128.MAX :=
      (mul_nonpos_of_nonpos_of_nonneg hdebt (by decide)).trans (by decide)
    simp [hceiling, hdebt, hle, eq_comm]
  have hscaled : 0 ≤ getTotalDebt s * BPS_SCALE :=
    mul_nonneg (not_le.mp hdebt).le (by decide)
  have hquot : 0 ≤ (getTotalDebt s * BPS_SCALE).tdiv (getDebtCeiling s) :=
    Int.tdiv_nonneg hscaled (not_le.mp hceiling).le
  have hmax : max (min ((getTotalDebt s * BPS_SCALE).tdiv (getDebtCeiling s)) BPS_SCALE) 0 =
      min ((getTotalDebt s * BPS_SCALE).tdiv (getDebtCeiling s)) BPS_SCALE :=
    max_eq_left (le_min hquot (by decide))
  simp only [hceiling, hdebt, if_false, or_self, except_bind_ok, orErr_ok, I128.checkedMul_eq_some,
    I128.checkedDiv_eq_some, except_pure_ok, I128.holds_of_nonneg hscaled]
  constructor
  · rintro ⟨_, ⟨hle, rfl⟩, _, ⟨-, -, rfl⟩, rfl⟩
    exact ⟨fun _ => hle, hmax⟩
  · rintro ⟨hle, rfl⟩
    have hholds := (I128.holds_of_nonneg hscaled).mpr (hle (not_le.mp hceiling))
    exact ⟨_, ⟨hle (not_le.mp hceiling), rfl⟩, _, ⟨fun h => hceiling h.le,
      I128.holds_tdiv hholds (not_le.mp hceiling), rfl⟩, hmax⟩

/-- The rate before it is clamped, computed without bounds. -/
def exactRate (cfg : InterestRateConfig) (util : ℤ) : ℤ :=
  if util ≤ cfg.kinkUtilizationBps then
    cfg.baseRateBps + (util * cfg.slopeBps).tdiv cfg.kinkUtilizationBps
  else
    cfg.baseRateBps + cfg.slopeBps +
      ((util - cfg.kinkUtilizationBps) * cfg.jumpSlopeBps).tdiv (BPS_SCALE - cfg.kinkUtilizationBps)

/-- The products and sums of the rate are 128-bit numbers. -/
def RateFits (cfg : InterestRateConfig) (util : ℤ) : Prop :=
  if util ≤ cfg.kinkUtilizationBps then
    util * cfg.slopeBps ≤ I128.MAX ∧ exactRate cfg util ≤ I128.MAX
  else
    cfg.baseRateBps + cfg.slopeBps ≤ I128.MAX ∧
      (util - cfg.kinkUtilizationBps) * cfg.jumpSlopeBps ≤ I128.MAX ∧ exactRate cfg util ≤ I128.MAX

instance (cfg : InterestRateConfig) (util : ℤ) : Decidable (RateFits cfg util) :=
  inferInstanceAs (Decidable (ite _ _ _))

/-- What is added to a base, a share of a product, is checked in three operations. -/
theorem checkedShare_ok {base x y d r : ℤ} (hbase : 0 ≤ base) (hprod : 0 ≤ x * y) (hd : 0 < d) :
    (∃ p, I128.checkedMul x y = some p ∧ ∃ q, I128.checkedDiv p d = some q ∧
      I128.checkedAdd base q = some r) ↔
    (x * y ≤ I128.MAX ∧ base + (x * y).tdiv d ≤ I128.MAX) ∧ r = base + (x * y).tdiv d := by
  have hsum : 0 ≤ base + (x * y).tdiv d := add_nonneg hbase (Int.tdiv_nonneg hprod hd.le)
  simp only [I128.checkedMul_eq_some, I128.checkedDiv_eq_some, I128.checkedAdd_eq_some]
  constructor
  · rintro ⟨_, ⟨hp, rfl⟩, _, ⟨-, -, rfl⟩, hr, rfl⟩
    exact ⟨⟨hp.2, hr.2⟩, rfl⟩
  · rintro ⟨⟨hp, hr⟩, rfl⟩
    have hholds := (I128.holds_of_nonneg hprod).mpr hp
    exact ⟨_, ⟨hholds, rfl⟩, _, ⟨hd.ne', I128.holds_tdiv hholds hd, rfl⟩,
      (I128.holds_of_nonneg hsum).mpr hr, rfl⟩

theorem unclampedRateBps_ok {cfg : InterestRateConfig} (hc : cfg.Valid) {util r : ℤ}
    (hu : 0 ≤ util ∧ util ≤ BPS_SCALE) :
    unclampedRateBps cfg util = .ok r ↔ RateFits cfg util ∧ r = exactRate cfg util := by
  obtain ⟨hbase, -⟩ := hc.base
  obtain ⟨hkink, hkinkMax⟩ := hc.kink
  unfold unclampedRateBps RateFits exactRate
  by_cases hle : util ≤ cfg.kinkUtilizationBps
  · simp only [hle, hkink, if_true, except_bind_ok, orErr_ok]
    exact checkedShare_ok hbase (mul_nonneg hu.1 hc.slope) hkink
  · have habove : 0 ≤ util - cfg.kinkUtilizationBps := sub_nonneg.mpr (not_le.mp hle).le
    have hmax : 0 < BPS_SCALE - cfg.kinkUtilizationBps := sub_pos.mpr hkinkMax
    have hkinkRate : 0 ≤ cfg.baseRateBps + cfg.slopeBps := add_nonneg hbase hc.slope
    have hshare := fun r => checkedShare_ok (r := r) hkinkRate (mul_nonneg habove hc.jump) hmax
    have hsmall : ∀ x, 0 ≤ x → x ≤ BPS_SCALE → I128.Holds x := fun x h0 hx =>
      (I128.holds_of_nonneg h0).mpr (hx.trans (by decide))
    simp only [hle, if_false, except_bind_ok, orErr_ok, I128.checkedAdd_eq_some,
      I128.checkedSub_eq_some]
    constructor
    · rintro ⟨_, ⟨hk, rfl⟩, _, ⟨-, rfl⟩, _, ⟨-, rfl⟩, h⟩
      rw [if_pos hmax] at h
      simp only [except_bind_ok, orErr_ok] at h
      obtain ⟨⟨hs, hr⟩, rfl⟩ := (hshare r).mp h
      exact ⟨⟨hk.2, hs, hr⟩, rfl⟩
    · rintro ⟨⟨hk, hs, hr⟩, rfl⟩
      refine ⟨_, ⟨(I128.holds_of_nonneg hkinkRate).mpr hk, rfl⟩, _, ⟨?_, rfl⟩, _, ⟨?_, rfl⟩, ?_⟩
      · exact hsmall _ habove (by omega)
      · exact hsmall _ hmax.le (by omega)
      · rw [if_pos hmax]
        simp only [except_bind_ok, orErr_ok]
        exact (hshare _).mpr ⟨⟨hs, hr⟩, rfl⟩

/-- The variable rate, computed without bounds. -/
def exactVariableRate (e : Env) (s : Storage) : ℤ :=
  min (max (exactRate (getConfig e s) (exactUtilization s)) (getConfig e s).rateFloorBps)
    (getConfig e s).rateCeilingBps

/-- Nothing in the variable rate overflows. -/
def VariableRateFits (e : Env) (s : Storage) : Prop :=
  UtilizationFits s ∧ RateFits (getConfig e s) (exactUtilization s)

/-- **The variable rate is computed exactly where nothing in it overflows.** -/
theorem RatesValid.getCurrentVariableRateBps_ok (h : RatesValid s) {r : ℤ} :
    getCurrentVariableRateBps e s = .ok r ↔ VariableRateFits e s ∧ r = exactVariableRate e s := by
  have hc := getConfig_valid (e := e) h.config
  have hok : getCurrentVariableRateBps e s = .ok r ↔ borrowRateBps e s = .ok r := by
    rw [getCurrentVariableRateBps]
    cases borrowRateBps e s <;> simp [Except.mapError]
  simp only [hok, borrowRateBps, except_bind_ok, except_pure_ok, utilizationBps_ok]
  constructor
  · rintro ⟨_, ⟨hutil, rfl⟩, rate, hrate, rfl⟩
    obtain ⟨hfits, rfl⟩ := (unclampedRateBps_ok hc (exactUtilization_bounds s)).mp hrate
    exact ⟨⟨hutil, hfits⟩, rfl⟩
  · rintro ⟨⟨hutil, hfits⟩, rfl⟩
    exact ⟨_, ⟨hutil, rfl⟩, _,
      (unclampedRateBps_ok hc (exactUtilization_bounds s)).mpr ⟨hfits, rfl⟩, rfl⟩

/-! ## The interest without overflow -/

/-- The rate of a position, computed without bounds. -/
def exactPositionRate (e : Env) (s : Storage) (p : DebtPosition) : ℤ :=
  match p.rateType with
  | .variable => exactVariableRate e s
  | .stable =>
    if 0 < p.stableRateBps then p.stableRateBps
    else (stableStateNow e s).avgRateBps + getStableRatePremiumBps s

/-- **Only the variable rate can fail to be computed.** -/
theorem RatesValid.positionRate_ok (h : RatesValid s) {r : ℤ} :
    Lending.positionRate e s p = .ok r ↔
      (p.rateType = .variable → VariableRateFits e s) ∧ r = exactPositionRate e s p := by
  unfold Lending.positionRate exactPositionRate
  rcases p.rateType with _ | _
  · simpa using h.getCurrentVariableRateBps_ok
  · by_cases hlocked : 0 < p.stableRateBps
    · simp [hlocked, eq_comm]
    · simp only [hlocked, if_false, h.currentStableRate_eq]
      simp [eq_comm]

/-- `principal * bps * elapsed / 10000 / SECONDS_PER_YEAR`, computed without bounds. -/
def exactInterest (principal bps elapsed : ℤ) : ℤ :=
  ((principal * bps * elapsed).tdiv 10000).tdiv SECONDS_PER_YEAR

/-- The products of an interest are 256-bit numbers. -/
def InterestFits (principal bps elapsed : ℤ) : Prop :=
  I256.Holds (principal * bps) ∧ I256.Holds (principal * bps * elapsed)

instance (principal bps elapsed : ℤ) : Decidable (InterestFits principal bps elapsed) :=
  inferInstanceAs (Decidable (_ ∧ _))

theorem simpleInterest_eq_some {principal bps elapsed x : ℤ} :
    simpleInterest principal bps elapsed = some x ↔
      InterestFits principal bps elapsed ∧ x = exactInterest principal bps elapsed := by
  simp only [simpleInterest, Option.bind_eq_some_iff, I256.mul_eq_some, I256.div_eq_some]
  constructor
  · rintro ⟨_, ⟨_, ⟨_, ⟨h1, rfl⟩, h2, rfl⟩, _, _, rfl⟩, _, _, rfl⟩
    exact ⟨⟨h1, h2⟩, rfl⟩
  · rintro ⟨⟨h1, h2⟩, rfl⟩
    have h3 := I256.holds_tdiv h2 (b := 10000) (by decide)
    exact ⟨_, ⟨_, ⟨_, ⟨h1, rfl⟩, h2, rfl⟩, by decide, h3, rfl⟩, by decide,
      I256.holds_tdiv h3 (by decide), rfl⟩

theorem InterestFits.holds {principal bps elapsed : ℤ} (h : InterestFits principal bps elapsed) :
    I256.Holds (exactInterest principal bps elapsed) :=
  I256.holds_tdiv (I256.holds_tdiv h.2 (by decide)) (by decide)

theorem exactInterest_zero_principal (bps elapsed : ℤ) : exactInterest 0 bps elapsed = 0 := by
  simp [exactInterest]

theorem exactInterest_zero_bps (principal elapsed : ℤ) : exactInterest principal 0 elapsed = 0 := by
  simp [exactInterest]

/-- The oracle, where it is asked for the asset's price, answers. -/
def OracleAnswers (e : Env) (s : Storage) (asset : Address) : Prop :=
  ∀ config ∈ getStablecoinConfig s asset, ∀ oracle ∈ getOracle s, (e.price oracle asset).isSome

instance (e : Env) (s : Storage) (asset : Address) : Decidable (OracleAnswers e s asset) :=
  inferInstanceAs (Decidable (∀ config ∈ getStablecoinConfig s asset, ∀ oracle ∈ getOracle s,
    (e.price oracle asset).isSome))

/-- The stability fee at the oracle's price: that of the asset's configuration, off its peg. -/
def feeDueBps (e : Env) (s : Storage) (asset : Address) : ℤ :=
  match getStablecoinConfig s asset, (getOracle s).bind fun oracle => e.price oracle asset with
  | some config, some price =>
    if config.pegThresholdBps < deviationBps config price then config.stabilityFeeBps else 0
  | _, _ => 0

/-- The fee is known exactly where the oracle answers. -/
theorem stabilityFeeBps_eq_some {asset : Address} {fee : Option ℤ}
    (h : stabilityFeeBps e s asset = some fee) :
    OracleAnswers e s asset ∧ fee.getD 0 = feeDueBps e s asset := by
  unfold stabilityFeeBps at h
  unfold OracleAnswers feeDueBps
  split at h
  · rename_i config oracle hconfig horacle
    obtain ⟨price, hprice, rfl⟩ := Option.map_eq_some_iff.mp h
    simp only [hconfig, horacle, Option.bind_some, hprice]
    refine ⟨by simp [hprice], ?_⟩
    split <;> rfl
  · rename_i hnone
    cases h
    cases hconfig : getStablecoinConfig s asset with
    | none => simp
    | some config =>
      cases horacle : getOracle s with
      | none => simp
      | some oracle => exact absurd horacle (hnone config oracle hconfig)

theorem OracleAnswers.stabilityFeeBps {asset : Address} (h : OracleAnswers e s asset) :
    ∃ fee, stabilityFeeBps e s asset = some fee := by
  unfold Lending.stabilityFeeBps
  split
  · rename_i config oracle hconfig horacle
    obtain ⟨price, hprice⟩ := Option.isSome_iff_exists.mp (h config hconfig oracle horacle)
    rw [hprice]
    exact ⟨_, rfl⟩
  · exact ⟨_, rfl⟩

/-- The interest with the stability fee, computed without bounds. -/
def pending (e : Env) (s : Storage) (p : DebtPosition) : ℤ :=
  exactInterest p.borrowedAmount (exactPositionRate e s p) (p.elapsed e) +
    exactInterest p.borrowedAmount (feeDueBps e s p.asset) (p.elapsed e)

/-- Nothing in the rate and in the two interests overflows, and the oracle answers. -/
structure AccruesNow (e : Env) (s : Storage) (p : DebtPosition) : Prop where
  rate : p.rateType = .variable → VariableRateFits e s
  interest : InterestFits p.borrowedAmount (exactPositionRate e s p) (p.elapsed e)
  oracle : OracleAnswers e s p.asset
  fee : InterestFits p.borrowedAmount (feeDueBps e s p.asset) (p.elapsed e)

theorem addStabilityFee_eq_some {principal elapsed interest a : ℤ} {fee : Option ℤ}
    (hi : I256.Holds interest) :
    addStabilityFee principal elapsed interest fee = some a ↔
      InterestFits principal (fee.getD 0) elapsed ∧
        I256.Holds (interest + exactInterest principal (fee.getD 0) elapsed) ∧
        a = interest + exactInterest principal (fee.getD 0) elapsed := by
  cases fee with
  | none =>
    have hfits : InterestFits principal 0 elapsed := by
      simp only [InterestFits, mul_zero, zero_mul]
      decide
    simp [addStabilityFee, exactInterest_zero_bps, hi, hfits, eq_comm]
  | some bps =>
    simp only [addStabilityFee, Option.bind_eq_some_iff, simpleInterest_eq_some, I256.add_eq_some,
      Option.getD_some]
    constructor
    · rintro ⟨_, ⟨hfits, rfl⟩, hsum, rfl⟩
      exact ⟨hfits, hsum, rfl⟩
    · rintro ⟨hfits, hsum, rfl⟩
      exact ⟨_, ⟨hfits, rfl⟩, hsum, rfl⟩

/-- **The interest at the position's rate is the unbounded one**, where nothing leaves the 256 bits
and the oracle answers. -/
theorem interestAt_exact {a : ℤ} :
    interestAt e s p (exactPositionRate e s p) = some a ↔
      InterestFits p.borrowedAmount (exactPositionRate e s p) (p.elapsed e) ∧
        OracleAnswers e s p.asset ∧
        InterestFits p.borrowedAmount (feeDueBps e s p.asset) (p.elapsed e) ∧
        I256.Holds (pending e s p) ∧ a = pending e s p := by
  simp only [interestAt, Option.bind_eq_some_iff, simpleInterest_eq_some]
  constructor
  · rintro ⟨_, ⟨hinterest, rfl⟩, fee, hfee, hadd⟩
    obtain ⟨horacle, hdue⟩ := stabilityFeeBps_eq_some hfee
    obtain ⟨hfits, hwide, rfl⟩ := (addStabilityFee_eq_some hinterest.holds).mp hadd
    rw [hdue] at hfits hwide ⊢
    exact ⟨hinterest, horacle, hfits, hwide, rfl⟩
  · rintro ⟨hinterest, horacle, hfits, hwide, rfl⟩
    obtain ⟨fee, hfee⟩ := horacle.stabilityFeeBps
    obtain ⟨-, hdue⟩ := stabilityFeeBps_eq_some hfee
    refine ⟨_, ⟨hinterest, rfl⟩, fee, hfee, ?_⟩
    rw [addStabilityFee_eq_some hinterest.holds, hdue]
    exact ⟨hfits, hwide, rfl⟩

/-- What it takes to compute the interest on a principal. -/
theorem interestOf_eq_ok (hp : p.borrowedAmount ≠ 0) {a : ℤ} :
    interestOf e s p = some (.ok a) ↔
      ∃ rate, positionRate e s p = .ok rate ∧ interestAt e s p rate = some a ∧ I128.Holds a := by
  rw [interestOf, if_neg hp]
  cases hrate : positionRate e s p with
  | error err => simp
  | ok rate =>
    simp only [Option.map_eq_some_iff, orErr_ok, I256.toI128_eq_some, Except.ok.injEq]
    constructor
    · rintro ⟨_, hat, hholds, rfl⟩
      exact ⟨rate, rfl, hat, hholds⟩
    · rintro ⟨_, rfl, hat, hholds⟩
      exact ⟨a, hat, hholds, rfl⟩

/-- **The interest is computed, and is not negative, exactly where nothing in it overflows and the
unbounded interest is not negative and a 128-bit number.** -/
theorem RatesValid.interestOf_nonneg_iff (h : RatesValid s) {a : ℤ} :
    (interestOf e s p = some (.ok a) ∧ 0 ≤ a) ↔
      (p.borrowedAmount ≠ 0 → AccruesNow e s p) ∧ 0 ≤ pending e s p ∧
        pending e s p ≤ I128.MAX ∧ a = pending e s p := by
  by_cases hp : p.borrowedAmount = 0
  · have hpending : pending e s p = 0 := by
      rw [pending, hp, exactInterest_zero_principal, exactInterest_zero_principal, add_zero]
    have hmax : (0 : ℤ) ≤ I128.MAX := by decide
    simp only [interestOf, hp, if_true, hpending, ne_eq, not_true_eq_false, false_implies, hmax,
      le_refl, true_and, Option.some.injEq, Except.ok.injEq]
    constructor
    · exact fun h => h.1.symm
    · rintro rfl
      exact ⟨rfl, le_rfl⟩
  simp only [interestOf_eq_ok hp, h.positionRate_ok]
  constructor
  · rintro ⟨⟨_, ⟨hrate, rfl⟩, hat, hholds⟩, h0⟩
    obtain ⟨hinterest, horacle, hfits, -, rfl⟩ := interestAt_exact.mp hat
    exact ⟨fun _ => ⟨hrate, hinterest, horacle, hfits⟩, h0, hholds.2, rfl⟩
  · rintro ⟨haccrues, h0, hmax, rfl⟩
    obtain ⟨hrate, hinterest, horacle, hfits⟩ := haccrues hp
    have hwide : I256.Holds (pending e s p) :=
      ⟨le_trans (by decide) h0, hmax.trans (by decide)⟩
    exact ⟨⟨_, ⟨hrate, rfl⟩, interestAt_exact.mpr ⟨hinterest, horacle, hfits, hwide, rfl⟩,
      (I128.holds_of_nonneg h0).mpr hmax⟩, h0⟩

/-! ## Principals are 128-bit numbers that are not negative -/

/-- The principal of a record is not negative and a 128-bit number. -/
def DebtPosition.PrincipalFits (p : DebtPosition) : Prop :=
  0 ≤ p.borrowedAmount ∧ p.borrowedAmount ≤ I128.MAX

/-- Every record's principal is not negative and a 128-bit number. -/
structure PrincipalsFit (s : Storage) : Prop where
  bucket : ∀ r u, ∀ p ∈ debtRecord s r u, p.PrincipalFits
  legacy : ∀ u, ∀ p ∈ s.borrowUserDebt u, p.PrincipalFits

theorem PrincipalsFit.empty : PrincipalsFit Storage.empty := by
  refine ⟨fun r u p hp => ?_, fun u p hp => ?_⟩
  · rcases r with _ | _ <;> cases hp
  · cases hp

theorem emptyPosition_principalFits (now : ℕ) (asset : Address) (r : RateType) :
    (emptyPosition now asset r).PrincipalFits := ⟨le_rfl, by simp [emptyPosition]; decide⟩

theorem PrincipalsFit.congr (h : PrincipalsFit s) (hd : SameDebts s t) : PrincipalsFit t := by
  refine ⟨fun r u p hp => h.bucket r u p ?_, fun u p hp => h.legacy u p ?_⟩
  · rwa [hd.debtRecord] at hp
  · rwa [hd.legacyDebt] at hp

/-- **Every bucket reads as one of the records, or as empty.** -/
theorem PrincipalsFit.reading (h : PrincipalsFit s) (e : Env) (user : Address) (d : Option Address)
    (r : RateType) : (getDebtPosition e s user d r).PrincipalFits := by
  unfold getDebtPosition
  cases hrecord : debtRecord s r user with
  | some q => cases r <;> exact h.bucket _ user q hrecord
  | none =>
    rcases r with _ | _
    · cases hlegacy : s.borrowUserDebt user with
      | none => exact emptyPosition_principalFits ..
      | some legacy => exact h.legacy user legacy hlegacy
    · exact emptyPosition_principalFits ..

theorem PrincipalsFit.bucketOf (h : PrincipalsFit s) (e : Env) (user asset : Address)
    (r : RateType) : (bucketOf e s user asset r).PrincipalFits :=
  h.reading e user (some asset) r

theorem PrincipalsFit.save (h : PrincipalsFit s) (now : ℕ) {user : Address} {p : DebtPosition}
    (hp : p.PrincipalFits) : PrincipalsFit (savedDebt now user p s) := by
  have hbucket : ∀ r u, ∀ q ∈ debtRecord (savedDebt now user p s) r u, q.PrincipalFits := by
    intro r u q hq
    rw [debtRecord_savedDebt] at hq
    split at hq
    · cases hq
      exact hp
    · exact h.bucket r u q hq
  refine ⟨hbucket, fun u q hq => ?_⟩
  rw [borrowUserDebt_savedDebt] at hq
  split at hq
  · cases hq
    unfold compatUserDebt
    cases hv : (savedDebt now user p s).borrowUserVariableDebt user with
    | none =>
      cases hst : (savedDebt now user p s).borrowUserStableDebt user with
      | none => exact emptyPosition_principalFits ..
      | some q => exact hbucket .stable user q hst
    | some v =>
      by_cases howing : v.Owing
      · simp only [howing, if_true]
        exact hbucket .variable user v hv
      · simp only [howing, if_false]
        cases hst : (savedDebt now user p s).borrowUserStableDebt user with
        | none => exact emptyPosition_principalFits ..
        | some q => exact hbucket .stable user q hst
  · exact h.legacy u q hq

/-- What a borrow adds up is a 128-bit number. -/
theorem borrowInner_principal {user asset casset : Address} {amount camount : ℤ}
    {rateType : RateType} {auth : BorrowAuth} {r : Unit}
    (h : borrowInner user asset amount casset camount rateType auth e s = .ok r s') :
    I128.Holds ((bucketOf e s user asset rateType).borrowedAmount + amount) := by
  exact (borrowInner_steps h).2.2.2.2.2.1

/-- **Every act keeps the principals in range.** -/
theorem PrincipalsFit.act {a : Act} (h : PrincipalsFit s) (ha : actStep e a s = some s') :
    PrincipalsFit s' := by
  have he := actStep_effect ha
  rcases a with ⟨user, asset, amount, casset, camount, rate⟩ | ⟨user, asset, amount, rate⟩ |
    ⟨user, asset, rate⟩ | _ | _ | _
  · obtain ⟨_, _, _, _, _, _, _, hd⟩ := he.debts
    obtain ⟨_, hb⟩ := commit_eq_some.mp ha
    have hbucket := h.bucketOf e user asset rate
    refine (h.save _ ⟨?_, (borrowInner_principal hb).2⟩).congr hd
    exact add_nonneg hbucket.1 he.amount_pos.le
  · obtain ⟨_, paid, _, _, _, hpaid, hle, _, hd⟩ := he.debts
    have hbucket := h.bucketOf e user asset (rate.getD (repayBucket e s user asset))
    have h0 : 0 ≤ paid := hpaid ▸ le_max_left _ _
    refine (h.save _ ⟨?_, (sub_le_self _ h0).trans hbucket.2⟩).congr hd
    by_cases hp : 0 < paid
    · exact sub_nonneg.mpr (hle hp)
    · exact sub_nonneg.mpr ((not_lt.mp hp).trans hbucket.1)
  · obtain ⟨_, _, _, _, _, _, _, hd⟩ := he.debts
    have hbucket := h.bucketOf e user asset rate.other
    refine .congr (.save (h.save _ ?_) _ ?_) hd
    · exact emptyPosition_principalFits e.timestamp asset rate
    · exact hbucket
  · exact h.congr (CollateralAdded.debts he).1
  · exact h.congr (VaultDeposited.debts he).1
  · exact h.congr (VaultWithdrawn.debts he).1

theorem PrincipalsFit.call {tx : Tx} (h : PrincipalsFit s) (hstep : step tx s = some s') :
    PrincipalsFit s' :=
  step_invariant (C := fun _ _ _ => True) (fun _ _ _ ha _ hs => hs.act ha)
    (fun _ _ hset hs => hs.congr hset.positions.debts) hstep
    (meets_of_forall fun _ _ _ => trivial) h

/-- **In every reachable state the principals are in range, and the rates are valid.** -/
theorem Reachable.principalsFit (h : Reachable s) : PrincipalsFit s :=
  h.invariant .empty fun _ _ _ hstep hs => hs.call hstep

theorem Reachable.ratesValid (h : Reachable s) : RatesValid s :=
  h.invariant .empty fun _ _ _ hstep hs => hs.call hstep

/-! ## Repaying in full -/

/-- What is owed in a bucket, with the interest that accrued. -/
def owedWith (p : DebtPosition) (accrued : ℤ) : ℤ := p.borrowedAmount + p.interestAccrued + accrued

/-- The interest is computed and not negative, and a repayment of exactly what is owed succeeds. -/
def RepaysInFull (e : Env) (s : Storage) (user asset : Address) (rateType : RateType) : Prop :=
  ∃ accrued t, calculateInterest (bucketOf e s user asset rateType) e s = .ok accrued t ∧
    0 ≤ accrued ∧ I128.Holds (owedWith (bucketOf e s user asset rateType) accrued) ∧
    (step ⟨e, .repayWithRate user asset (owedWith (bucketOf e s user asset rateType) accrued)
      rateType⟩ s).isSome

/-- Nothing overflows on the way of a repayment in full: the interest is computed, it and what is
owed are 128-bit numbers, the one not negative and the other positive, and the principal can be
taken off the total debt. -/
structure Repayable (e : Env) (s : Storage) (p : DebtPosition) : Prop where
  accrues : p.borrowedAmount ≠ 0 → AccruesNow e s p
  pending : 0 ≤ pending e s p ∧ pending e s p ≤ I128.MAX
  owed : 0 < owedWith p (Lending.pending e s p) ∧ owedWith p (Lending.pending e s p) ≤ I128.MAX
  total : p.borrowedAmount ≠ 0 → I128.Holds (getTotalDebt s - p.borrowedAmount)

/-- A payment of what is owed leaves the principal once the interest is paid. -/
theorem payInterest_owed {p : DebtPosition} (hp : p.PrincipalFits) (accrued : ℤ) :
    payInterest (owedWith p accrued) (p.interestAccrued + accrued) =
      some (p.borrowedAmount, 0) := by
  have hle : p.interestAccrued + accrued ≤ owedWith p accrued := by
    have := hp.1
    unfold owedWith
    omega
  have hrest : owedWith p accrued - (p.interestAccrued + accrued) = p.borrowedAmount := by
    unfold owedWith
    omega
  have hholds : I128.Holds p.borrowedAmount := (I128.holds_of_nonneg hp.1).mpr hp.2
  simp [payInterest, hle, I128.checkedSub, hrest, Range.check, hholds]

/-- Where what is owed is in range, so is the interest in it. -/
theorem interest_holds {p : DebtPosition} (hp : p.PrincipalFits) {accrued : ℤ}
    (hpos : 0 < owedWith p accrued) (hmax : owedWith p accrued ≤ I128.MAX) :
    I128.Holds (p.interestAccrued + accrued) := by
  have hMAX : I128.MAX = 2 ^ 127 - 1 := rfl
  obtain ⟨hb, hbmax⟩ := hp
  unfold owedWith at hpos hmax
  rw [I128.holds_iff]
  exact ⟨by omega, by omega⟩

/-- The principal is paid where it can be taken off the total debt. -/
theorem payPrincipal_whole {borrowed : ℤ} (h0 : 0 ≤ borrowed) :
    (∃ left t, payPrincipal borrowed borrowed e s = .ok left t) ↔
      (borrowed ≠ 0 → I128.Holds (getTotalDebt s - borrowed)) := by
  unfold payPrincipal
  by_cases hpos : 0 < borrowed
  · simp [hpos, hpos.ne', setTotalDebt]
  · obtain rfl : borrowed = 0 := by omega
    simp

/-- **A repayment of what is owed succeeds exactly if the sums it forms stay in range.** -/
theorem repay_owed_iff {user asset : Address} {rateType : RateType} {accrued : ℤ}
    (hsigned : user ∈ e.auths) (hunpaused : isPaused s .repay = false)
    (howing : (bucketOf e s user asset rateType).Owing)
    (hasset : (bucketOf e s user asset rateType).asset = asset)
    (hfits : (bucketOf e s user asset rateType).PrincipalFits)
    (hcalc : calculateInterest (bucketOf e s user asset rateType) e s = .ok accrued t) :
    (step ⟨e, .repayWithRate user asset (owedWith (bucketOf e s user asset rateType) accrued)
        rateType⟩ s).isSome ↔
      0 < owedWith (bucketOf e s user asset rateType) accrued ∧
        I128.Holds ((bucketOf e s user asset rateType).interestAccrued + accrued) ∧
        ((bucketOf e s user asset rateType).borrowedAmount ≠ 0 →
          I128.Holds (getTotalDebt s - (bucketOf e s user asset rateType).borrowedAmount)) := by
  have htotal : getTotalDebt t = getTotalDebt s := by
    obtain ⟨_, rfl⟩ := (calculateInterest_refreshes hcalc).store
    rfl
  rw [Option.isSome_iff_exists]
  simp only [step, Op.apply, commit_eq_some]
  simp only [LendingContract.repayWithRate, Borrow.repayWithRate, ne_eq, saveDebtPosition, bind_ok,
    requireAuth_ok, hsigned, true_and, ↓view_seq, ↓failIf_seq, Bool.not_eq_true, not_le, ↓look_seq,
    not_and, Decidable.not_not, ↓okOr_seq, I128.checkedAdd_eq_some, ↓asks_seq, ↓orTrap_seq,
    store_ok, ↓existsAndEq, and_true, exists_eq_left', Prod.exists, exists_const, hunpaused,
    exists_and_left, exists_and_right, and_congr_right_iff]
  generalize bucketOf e s user asset rateType = p at *
  intro _
  constructor
  · rintro ⟨-, -, a, u, hcalc', hholds, remaining, ⟨left, hpay⟩, hprin⟩
    obtain ⟨rfl, rfl⟩ : a = accrued ∧ u = t := by
      rw [hcalc] at hcalc'
      cases hcalc'
      exact ⟨rfl, rfl⟩
    rw [payInterest_owed hfits] at hpay
    cases hpay
    refine ⟨hholds, ?_⟩
    rw [← htotal]
    exact (payPrincipal_whole hfits.1).mp hprin
  · rintro ⟨hholds, hprin⟩
    rw [← htotal] at hprin
    refine ⟨fun h0 => ?_, hasset, accrued, t, hcalc, hholds, _, ⟨_, payInterest_owed hfits _⟩,
      (payPrincipal_whole hfits.1).mpr hprin⟩
    rcases howing with hb | hi
    · exact absurd h0 hb.ne'
    · exact hi.ne'

/-- **In every reachable state, whoever owes in a bucket can pay exactly what is owed there, with
interest that is computed and not negative, if and only if nothing on the way overflows.** -/
theorem repays_in_full_iff (txs : List Tx) (e : Env) (user asset : Address) (rateType : RateType)
    (hsigned : user ∈ e.auths) (hunpaused : isPaused (ledger txs) .repay = false)
    (howing : (bucketOf e (ledger txs) user asset rateType).Owing)
    (hasset : (bucketOf e (ledger txs) user asset rateType).asset = asset) :
    RepaysInFull e (ledger txs) user asset rateType ↔
      Repayable e (ledger txs) (bucketOf e (ledger txs) user asset rateType) := by
  have hreach : Reachable (ledger txs) := ⟨txs, rfl⟩
  have hfits := hreach.principalsFit.bucketOf e user asset rateType
  have hrates := hreach.ratesValid
  constructor
  · rintro ⟨accrued, t, hcalc, h0, howed, hsome⟩
    obtain ⟨haccrues, hpending, hmax, rfl⟩ :=
      hrates.interestOf_nonneg_iff.mp ⟨(calculateInterest_ok hcalc).1, h0⟩
    obtain ⟨hpos, -, htotal⟩ :=
      (repay_owed_iff hsigned hunpaused howing hasset hfits hcalc).mp hsome
    exact ⟨haccrues, ⟨hpending, hmax⟩, ⟨hpos, howed.2⟩, htotal⟩
  · rintro ⟨haccrues, ⟨hpending, hmax⟩, ⟨hpos, howed⟩, htotal⟩
    obtain ⟨hint, h0⟩ := hrates.interestOf_nonneg_iff.mpr ⟨haccrues, hpending, hmax, rfl⟩
    obtain ⟨t, -, hcalc⟩ := calculateInterest_eq (bucketOf e (ledger txs) user asset rateType) e
      (ledger txs)
    rw [hint] at hcalc
    have hinterest := interest_holds hfits hpos howed
    exact ⟨_, t, hcalc, h0, (I128.holds_of_nonneg hpos.le).mpr howed,
      (repay_owed_iff hsigned hunpaused howing hasset hfits hcalc).mpr ⟨hpos, hinterest, htotal⟩⟩

namespace Sample

/-- Alice owes ten thousand, at the variable rate. -/
def indebted : List Tx := [deploy, ⟨envAt 5 [alice], .borrow alice usdc 10000 xlm 15000⟩]

/-- The admin makes the rate rise as steeply as a 128-bit number says. -/
def steepest : Tx :=
  ⟨envAt 6 [admin], .updateInterestRateModel admin ⟨none, none, some I128.MAX, none, none, none,
    none⟩⟩

/-- Alice signs a year after she borrowed. -/
def nextYear : Env := envAt (5 + 31536000) [alice]

theorem repays_in_full_indebted : RepaysInFull nextYear (ledger indebted) alice usdc .variable := by
  refine (repays_in_full_iff indebted nextYear alice usdc .variable ?_ ?_ ?_ ?_).mpr
    ⟨fun _ => ⟨fun _ => ⟨?_, ?_⟩, ?_, ?_, ?_⟩, ?_, ?_, fun _ => ?_⟩
  all_goals decide

/-- **One slope that the setter accepts, and no repayment goes through.** -/
theorem steepest_locks_repayment : ¬ ∀ txs e user asset rateType, user ∈ e.auths →
    isPaused (ledger txs) .repay = false →
    (bucketOf e (ledger txs) user asset rateType).Owing →
    (bucketOf e (ledger txs) user asset rateType).asset = asset →
    owedWith (bucketOf e (ledger txs) user asset rateType) 0 < 2 ^ 126 →
    (bucketOf e (ledger txs) user asset rateType).elapsed e ≤ 100 * SECONDS_PER_YEAR →
    RepaysInFull e (ledger txs) user asset rateType := by
  intro h
  have hpays : RepaysInFull nextYear (ledger (indebted ++ [steepest])) alice usdc .variable := by
    refine h _ _ _ _ _ ?_ ?_ ?_ ?_ ?_ ?_
    all_goals decide
  have herror : interestOf nextYear (ledger (indebted ++ [steepest]))
      (bucketOf nextYear (ledger (indebted ++ [steepest])) alice usdc .variable) =
        some (.error .overflow) := by decide
  obtain ⟨_, _, hcalc, -⟩ := hpays
  have hok := (calculateInterest_ok hcalc).1
  rw [herror] at hok
  cases hok

end Sample

end StellarLend.Lending
