import StellarLend.Lending.Repayable
import StellarLend.Lending.Separation

/-!
# Lending/Reporting — what the views say of a debtor

The view of the debt looks at one bucket, adds its interest up to the largest 128-bit number, and
then adds the principal *checked*: a sum out of range reads `0`, and the health factor takes a
balance of `0` for no debt at all.  Computed without an upper bound (`owedNow`), what a bucket owes
is a number of the store before the call, and `debt_reported_iff` says where the views report it.
-/

namespace StellarLend.Lending

open Foundations Call

variable {e : Env} {s : Storage} {p : DebtPosition} {user : Address}

/-! ## Debtors and what they owe -/

/-- The user owes in the variable or in the stable bucket. -/
def Debtor (e : Env) (s : Storage) (user : Address) : Prop :=
  (getDebtPosition e s user none .variable).Owing ∨ (getDebtPosition e s user none .stable).Owing

/-- The bucket `getUserDebt` passes over. -/
def passedOver (e : Env) (s : Storage) (user : Address) : DebtPosition :=
  if (getDebtPosition e s user none .variable).Owing then getDebtPosition e s user none .stable
  else getDebtPosition e s user none .variable

/-- Principal and interest of a position as of now, without an upper bound.  An interest is stored
in 128 bits, so it is no less than the least of these numbers. -/
def owedNow (e : Env) (s : Storage) (p : DebtPosition) : ℤ :=
  p.borrowedAmount + max I128.lo (p.interestAccrued + pending e s p)

/-- What the user owes in both buckets. -/
def totalOwed (e : Env) (s : Storage) (user : Address) : ℤ :=
  owedNow e s (getDebtPosition e s user none .variable) +
    owedNow e s (getDebtPosition e s user none .stable)

theorem totalOwed_eq (e : Env) (s : Storage) (user : Address) :
    totalOwed e s user = owedNow e s (chosenDebt e s user) + owedNow e s (passedOver e s user) := by
  unfold totalOwed chosenDebt passedOver
  split
  · rfl
  · exact add_comm _ _

theorem not_owing_of_not_debtor (h : ¬ Debtor e s user) :
    ¬ (chosenDebt e s user).Owing ∧ ¬ (passedOver e s user).Owing := by
  obtain ⟨hvariable, hstable⟩ := not_or.mp h
  rw [chosenDebt, passedOver, if_neg hvariable, if_neg hvariable]
  exact ⟨hstable, hvariable⟩

/-- On no principal there is no interest. -/
theorem pending_of_no_principal (hp : p.borrowedAmount = 0) : pending e s p = 0 := by
  rw [pending, hp, exactInterest_zero_principal, exactInterest_zero_principal, add_zero]

theorem owedNow_nonpos (hp : p.PrincipalFits) (howing : ¬ p.Owing) : owedNow e s p ≤ 0 := by
  obtain ⟨hprincipal, hinterest⟩ := not_or.mp howing
  have hzero : p.borrowedAmount = 0 := le_antisymm (not_lt.mp hprincipal) hp.1
  have hlo : I128.lo ≤ 0 := by decide
  rw [owedNow, hzero, pending_of_no_principal hzero]
  omega

/-! ## The interest of a position, or an overflow -/

/-- The rate the position accrues at is computed. -/
def RateComputed (e : Env) (s : Storage) (p : DebtPosition) : Prop :=
  p.rateType = .variable → VariableRateFits e s

/-- The views answer: nothing in the interest leaves the 256 bits, and the oracle answers where it
is asked. -/
def Answers (e : Env) (s : Storage) (p : DebtPosition) : Prop :=
  p.borrowedAmount ≠ 0 → RateComputed e s p → AccruesNow e s p ∧ I256.Holds (pending e s p)

/-- The rate, the interest and the debt of a position are 128-bit numbers. -/
structure DebtFits (e : Env) (s : Storage) (p : DebtPosition) : Prop where
  rate : RateComputed e s p
  interest : I128.Holds (pending e s p)
  owed : owedNow e s p ≤ I128.MAX

/-- Where a principal is owed, nothing overflows. -/
def InRange (e : Env) (s : Storage) (p : DebtPosition) : Prop :=
  p.borrowedAmount ≠ 0 → DebtFits e s p

theorem utilizationBps_error {err : InterestRateError} (h : utilizationBps s = .error err) :
    err.toBorrowError = .overflow := by
  simp only [utilizationBps] at h
  split at h
  · cases h
  · split at h
    · cases h
    · simp only [except_bind_error, orErr_error] at h
      obtain ⟨-, rfl⟩ | ⟨_, -, ⟨-, rfl⟩ | ⟨_, -, h⟩⟩ := h
      · rfl
      · rfl
      · cases h

theorem unclampedRateBps_error {cfg : InterestRateConfig} {util : ℤ} {err : InterestRateError}
    (h : unclampedRateBps cfg util = .error err) : err.toBorrowError = .overflow := by
  unfold unclampedRateBps at h
  split at h
  · split at h
    · simp only [except_bind_error, orErr_error] at h
      obtain ⟨-, rfl⟩ | ⟨_, -, ⟨-, rfl⟩ | ⟨_, -, -, rfl⟩⟩ := h <;> rfl
    · cases h
  · simp only [except_bind_error, orErr_error] at h
    obtain ⟨-, rfl⟩ | ⟨_, -, ⟨-, rfl⟩ | ⟨_, -, ⟨-, rfl⟩ | ⟨_, -, h⟩⟩⟩ := h
    · rfl
    · rfl
    · rfl
    · split at h
      · simp only [except_bind_error, orErr_error] at h
        obtain ⟨-, rfl⟩ | ⟨_, -, ⟨-, rfl⟩ | ⟨_, -, -, rfl⟩⟩ := h <;> rfl
      · cases h

/-- **The borrow module calls every failure to compute the variable rate an overflow.** -/
theorem getCurrentVariableRateBps_error {err : BorrowError}
    (h : getCurrentVariableRateBps e s = .error err) : err = .overflow := by
  rw [getCurrentVariableRateBps] at h
  cases hrate : borrowRateBps e s with
  | ok r =>
    rw [hrate] at h
    cases h
  | error cause =>
    rw [hrate] at h
    cases h
    simp only [borrowRateBps, except_bind_error] at hrate
    obtain hutil | ⟨_, -, hunclamped | ⟨_, -, hclamp⟩⟩ := hrate
    · exact utilizationBps_error hutil
    · exact unclampedRateBps_error hunclamped
    · cases hclamp

theorem RatesValid.positionRate_error (h : RatesValid s) (hr : ¬ RateComputed e s p) :
    Lending.positionRate e s p = .error .overflow := by
  obtain ⟨hvariable, hfits⟩ := Classical.not_imp.mp hr
  cases hrate : Lending.positionRate e s p with
  | ok r => exact absurd (h.positionRate_ok.mp hrate).1 hr
  | error err =>
    rw [Lending.positionRate, hvariable] at hrate
    rw [getCurrentVariableRateBps_error hrate]

/-- **Where the views answer, an overflow is an interest of the largest number.** -/
theorem RatesValid.withInterest_overflow (h : RatesValid s) (ha : Answers e s p)
    (hp : p.borrowedAmount ≠ 0) (hover : ¬ (RateComputed e s p ∧ I128.Holds (pending e s p))) :
    withInterest e s p = some { p with interestAccrued := I128.MAX } := by
  have hint : interestOf e s p = some (.error .overflow) := by
    rw [interestOf, if_neg hp]
    by_cases hr : RateComputed e s p
    · obtain ⟨haccrues, hwide⟩ := ha hp hr
      have hat : interestAt e s p (exactPositionRate e s p) = some (pending e s p) :=
        interestAt_exact.mpr ⟨haccrues.interest, haccrues.oracle, haccrues.fee, hwide, rfl⟩
      rw [h.positionRate_ok.mpr ⟨hr, rfl⟩]
      simp only [hat, Option.map_some]
      rw [I256.toI128, Range.check_eq_none.mpr fun hholds => hover ⟨hr, hholds⟩]
      rfl
    · rw [h.positionRate_error hr]
  rw [withInterest, hint]
  rfl

/-- Where the views answer and nothing overflows, the pending interest is added to the stored. -/
theorem RatesValid.withInterest_ok (h : RatesValid s) (ha : Answers e s p)
    (hfits : p.borrowedAmount ≠ 0 → RateComputed e s p ∧ I128.Holds (pending e s p)) :
    withInterest e s p = some { p with
      interestAccrued := I128.saturatingAdd p.interestAccrued (pending e s p) } := by
  have hint : interestOf e s p = some (.ok (pending e s p)) := by
    by_cases hp : p.borrowedAmount = 0
    · rw [interestOf, if_pos hp, pending_of_no_principal hp]
    · obtain ⟨hr, hholds⟩ := hfits hp
      obtain ⟨haccrues, hwide⟩ := ha hp hr
      exact (interestOf_eq_ok hp).mpr ⟨_, h.positionRate_ok.mpr ⟨hr, rfl⟩, interestAt_exact.mpr
        ⟨haccrues.interest, haccrues.oracle, haccrues.fee, hwide, rfl⟩, hholds⟩
  rw [withInterest, hint]
  rfl

/-- **Where they do not answer, the views trap.** -/
theorem RatesValid.withInterest_trap (h : RatesValid s) (ha : ¬ Answers e s p) :
    withInterest e s p = none := by
  obtain ⟨hp, ha⟩ := Classical.not_imp.mp ha
  obtain ⟨hr, hat⟩ := Classical.not_imp.mp ha
  have hnone : interestAt e s p (exactPositionRate e s p) = none := by
    rw [Option.eq_none_iff_forall_ne_some]
    intro a hsome
    obtain ⟨hinterest, horacle, hfee, hwide, -⟩ := interestAt_exact.mp hsome
    exact hat ⟨⟨hr, hinterest, horacle, hfee⟩, hwide⟩
  rw [withInterest, interestOf, if_neg hp, h.positionRate_ok.mpr ⟨hr, rfl⟩]
  simp only [hnone, Option.map_none]

/-! ## The balance that is reported -/

/-- The balance of a saturated interest, in range. -/
theorem debtBalance_saturated (hp : p.PrincipalFits) {accrued : ℤ}
    (hmax : p.borrowedAmount ≠ 0 →
      p.borrowedAmount + max I128.lo (p.interestAccrued + accrued) ≤ I128.MAX) :
    debtBalance { p with interestAccrued := I128.saturatingAdd p.interestAccrued accrued } =
      min I128.MAX (p.borrowedAmount + max I128.lo (p.interestAccrued + accrued)) := by
  have hlo : I128.lo = -2 ^ 127 := rfl
  have hhi : I128.hi = 2 ^ 127 - 1 := rfl
  have hMAX : I128.MAX = I128.hi := rfl
  obtain ⟨h0, hle⟩ := hp
  simp only [debtBalance, I128.checkedAdd, I128.saturatingAdd, Range.clamp]
  have hsum : p.borrowedAmount + max I128.lo (min I128.hi (p.interestAccrued + accrued)) =
      min I128.MAX (p.borrowedAmount + max I128.lo (p.interestAccrued + accrued)) := by
    by_cases hzero : p.borrowedAmount = 0
    · omega
    · have := hmax hzero
      omega
  have hholds : I128.Holds
      (min I128.MAX (p.borrowedAmount + max I128.lo (p.interestAccrued + accrued))) :=
    ⟨by omega, min_le_left _ _⟩
  rw [hsum, Range.check, if_pos hholds, Option.getD_some]

/-- **A sum out of range reads zero.** -/
theorem debtBalance_overflow {interest : ℤ} (hmax : I128.MAX < p.borrowedAmount + interest) :
    debtBalance { p with interestAccrued := interest } = 0 := by
  have hover : ¬ I128.Holds (p.borrowedAmount + interest) := fun h => absurd h.2 (not_le.mpr hmax)
  rw [debtBalance, I128.checkedAdd, Range.check, if_neg hover, Option.getD_none]

/-- **What is reported of a position**: in range, what is owed, and else nothing. -/
theorem RatesValid.withInterest_balance (h : RatesValid s) (hp : p.PrincipalFits)
    (ha : Answers e s p) : ∃ q, withInterest e s p = some q ∧ q.asset = p.asset ∧
      (InRange e s p → debtBalance q = min I128.MAX (owedNow e s p)) ∧
      (¬ InRange e s p → debtBalance q = 0) := by
  by_cases hin : InRange e s p
  · refine ⟨_, h.withInterest_ok ha fun hne => ⟨(hin hne).rate, (hin hne).interest⟩, rfl,
      fun _ => debtBalance_saturated hp fun hne => (hin hne).owed, fun hout => absurd hin hout⟩
  obtain ⟨hne, hout⟩ := Classical.not_imp.mp hin
  have hpos : 0 < p.borrowedAmount := lt_of_le_of_ne hp.1 (Ne.symm hne)
  by_cases hfits : RateComputed e s p ∧ I128.Holds (pending e s p)
  · refine ⟨_, h.withInterest_ok ha fun _ => hfits, rfl, fun hin' => absurd hin' hin,
      fun _ => debtBalance_overflow ?_⟩
    have howed : I128.MAX < owedNow e s p := not_le.mp fun hle => hout ⟨hfits.1, hfits.2, hle⟩
    have hMAX : I128.MAX = I128.hi := rfl
    simp only [owedNow] at howed
    simp only [I128.saturatingAdd, Range.clamp]
    omega
  · exact ⟨_, h.withInterest_overflow ha hne hfits, rfl, fun hin' => absurd hin' hin,
      fun _ => debtBalance_overflow (by omega)⟩

/-! ## The health factor that is reported -/

/-- What the oracle asks for an asset, if there is an oracle and it answers. -/
def priceOf (e : Env) (s : Storage) (asset : Address) : Option ℤ :=
  (getOracle s).bind fun oracle => e.price oracle asset

/-- The worth of an amount: nothing where there is no price, or where the worth is out of range. -/
def worth (e : Env) (s : Storage) (amount : ℤ) (asset : Address) : ℤ :=
  let price := (priceOf e s asset).getD 0
  if 0 < amount ∧ 0 < price ∧ amount * price / PRICE_SCALE ≤ I128.MAX then
    amount * price / PRICE_SCALE
  else 0

/-- The worth is computed: the oracle answers where it is asked, with a price that does not take the
product out of the 256 bits. -/
def Priced (e : Env) (s : Storage) (amount : ℤ) (asset : Address) : Prop :=
  0 < amount → ∀ oracle ∈ getOracle s, ∃ price ∈ e.price oracle asset,
    0 < price → I256.Holds (amount * price)

theorem worth_of_nonpos {amount : ℤ} (h : amount ≤ 0) (asset : Address) :
    worth e s amount asset = 0 := by
  simp only [worth]
  exact if_neg fun hworth => absurd hworth.1 (not_lt.mpr h)

/-- **The views value an amount at its worth.** -/
theorem valueOf_eq_some {amount v : ℤ} {asset : Address} :
    valueOf e s amount asset = some v ↔ Priced e s amount asset ∧ v = worth e s amount asset := by
  by_cases hpos : 0 < amount
  · rw [valueOf, if_neg (not_le.mpr hpos)]
    cases horacle : getOracle s with
    | none => simp [Priced, horacle, worth, priceOf, eq_comm]
    | some oracle =>
      cases hprice : e.price oracle asset with
      | none => simp [Priced, horacle, hprice, hpos]
      | some price =>
        have hworth : worth e s amount asset = if 0 < price then
            if amount * price / PRICE_SCALE ≤ I128.MAX then amount * price / PRICE_SCALE else 0
            else 0 := by
          simp only [worth, priceOf, horacle, Option.bind_some, hprice, Option.getD_some, hpos,
            true_and]
          split <;> split <;> simp_all
        have hpriced : Priced e s amount asset ↔ (0 < price → I256.Holds (amount * price)) := by
          simp [Priced, horacle, hprice, hpos]
        rw [hworth, hpriced]
        simp only [hprice, Option.bind_some]
        by_cases hp : 0 < price
        · have hscaled := @scaled_eq_some amount price PRICE_SCALE v (mul_nonneg hpos.le hp.le)
            (by decide)
          rw [if_neg (not_le.mpr hp), if_pos hp, hscaled]
          simp [hp]
        · rw [if_pos (not_lt.mp hp), if_neg hp]
          simp [hp, eq_comm]
  · have hpriced : Priced e s amount asset := fun h => absurd h hpos
    rw [valueOf, if_pos (not_lt.mp hpos), worth_of_nonpos (not_lt.mp hpos)]
    simp [hpriced, eq_comm]

/-- The worth of the user's collateral, at the liquidation threshold. -/
def weightedCollateral (e : Env) (s : Storage) (user : Address) : ℤ :=
  (worth e s (getCollateralPosition s user).amount (getCollateralPosition s user).asset *
    getLiquidationThresholdBps s).tdiv 10000

/-- The collateral weighs ten thousand times the worth of the debt, to the last place: the number of
the health factor is the one that stands for no debt. -/
structure OnSentinel (e : Env) (s : Storage) (user : Address) (amount : ℤ) (asset : Address) :
    Prop where
  priced : Priced e s amount asset
  valued : 0 < worth e s amount asset
  fits : I256.Holds (worth e s (getCollateralPosition s user).amount
      (getCollateralPosition s user).asset * getLiquidationThresholdBps s) ∧
    I256.Holds (weightedCollateral e s user * HEALTH_FACTOR_SCALE)
  ratio : HEALTH_FACTOR_NO_DEBT * worth e s amount asset ≤
      weightedCollateral e s user * HEALTH_FACTOR_SCALE ∧
    weightedCollateral e s user * HEALTH_FACTOR_SCALE <
      (HEALTH_FACTOR_NO_DEBT + 1) * worth e s amount asset

/-- A quotient is the number that stands for no debt. -/
theorem scaled_eq_noDebt {weighted value : ℤ} (hv : 0 < value) :
    scaled weighted HEALTH_FACTOR_SCALE value = some HEALTH_FACTOR_NO_DEBT ↔
      I256.Holds (weighted * HEALTH_FACTOR_SCALE) ∧
        HEALTH_FACTOR_NO_DEBT * value ≤ weighted * HEALTH_FACTOR_SCALE ∧
        weighted * HEALTH_FACTOR_SCALE < (HEALTH_FACTOR_NO_DEBT + 1) * value := by
  have hratio : (weighted * HEALTH_FACTOR_SCALE).tdiv value = HEALTH_FACTOR_NO_DEBT ↔
      HEALTH_FACTOR_NO_DEBT * value ≤ weighted * HEALTH_FACTOR_SCALE ∧
        weighted * HEALTH_FACTOR_SCALE < (HEALTH_FACTOR_NO_DEBT + 1) * value := by
    rw [← le_tdiv_iff (by decide) hv, ← not_le, ← le_tdiv_iff (by decide) hv]
    omega
  have hnarrow : ∀ x, (I256.toI128 x).getD 0 = HEALTH_FACTOR_NO_DEBT ↔
      x = HEALTH_FACTOR_NO_DEBT := by
    intro x
    constructor
    · intro h
      cases hx : I256.toI128 x with
      | none =>
        rw [hx] at h
        exact absurd h (by decide)
      | some y =>
        obtain ⟨-, rfl⟩ := I256.toI128_eq_some.mp hx
        rwa [hx] at h
    · rintro rfl
      decide
  simp only [scaled, Option.map_eq_some_iff, Option.bind_eq_some_iff, I256.mul_eq_some,
    I256.div_eq_some]
  constructor
  · rintro ⟨_, ⟨_, ⟨hwide, rfl⟩, -, -, rfl⟩, hx⟩
    exact ⟨hwide, hratio.mp ((hnarrow _).mp hx)⟩
  · rintro ⟨hwide, hr⟩
    exact ⟨_, ⟨_, ⟨hwide, rfl⟩, hv.ne', I256.holds_tdiv hwide hv, rfl⟩,
      (hnarrow _).mpr (hratio.mpr hr)⟩

/-- **The health factor of a balance stands for no debt exactly if the balance is not positive or
the collateral weighs as much as that number says.** -/
theorem health_eq_noDebt {amount : ℤ} {asset : Address} :
    ((valueOf e s amount asset).bind fun value => computeHealthFactor s
      (worth e s (getCollateralPosition s user).amount (getCollateralPosition s user).asset) value
      (0 < amount)) = some HEALTH_FACTOR_NO_DEBT ↔
      amount ≤ 0 ∨ OnSentinel e s user amount asset := by
  simp only [Option.bind_eq_some_iff, valueOf_eq_some]
  by_cases hpos : amount ≤ 0
  · have hpriced : Priced e s amount asset := fun h => absurd h (not_lt.mpr hpos)
    refine iff_of_true ⟨_, ⟨hpriced, rfl⟩, ?_⟩ (.inl hpos)
    rw [worth_of_nonpos hpos, computeHealthFactor, if_pos le_rfl]
    simp [not_lt.mpr hpos]
  constructor
  · rintro ⟨_, ⟨hpriced, rfl⟩, hhealth⟩
    refine .inr ?_
    unfold computeHealthFactor at hhealth
    split at hhealth
    · simp only [not_le.mp hpos, decide_true, if_true] at hhealth
      exact absurd hhealth (by decide)
    · rename_i hvalue
      split at hhealth
      · exact absurd hhealth (by decide)
      · obtain ⟨weighted, hweighted, hscaled⟩ := Option.bind_eq_some_iff.mp hhealth
        obtain ⟨x, hx, hw⟩ := Option.bind_eq_some_iff.mp hweighted
        obtain ⟨hwide, rfl⟩ := I256.mul_eq_some.mp hx
        obtain ⟨-, -, rfl⟩ := I256.div_eq_some.mp hw
        obtain ⟨hfits, hratio⟩ := (scaled_eq_noDebt (not_le.mp hvalue)).mp hscaled
        exact ⟨hpriced, not_le.mp hvalue, ⟨hwide, hfits⟩, hratio⟩
  · rintro (hneg | hon)
    · exact absurd hneg hpos
    · refine ⟨_, ⟨hon.priced, rfl⟩, ?_⟩
      have horacle : getOracle s ≠ none := by
        intro hnone
        have hvalued := hon.valued
        simp [worth, priceOf, hnone] at hvalued
      obtain ⟨oracle, horacle⟩ := Option.ne_none_iff_exists'.mp horacle
      rw [computeHealthFactor, if_neg (not_le.mpr hon.valued), horacle]
      refine Option.bind_eq_some_iff.mpr ⟨weightedCollateral e s user, ?_, ?_⟩
      · exact Option.bind_eq_some_iff.mpr ⟨_, I256.mul_eq_some.mpr ⟨hon.fits.1, rfl⟩,
          I256.div_eq_some.mpr ⟨by decide, I256.holds_tdiv hon.fits.1 (by decide), rfl⟩⟩
      · exact (scaled_eq_noDebt hon.valued).mpr ⟨hon.fits.2, hon.ratio⟩

/-! ## Debtors are reported as debtors -/

/-- The value of a view that is read from the store. -/
theorem reading_value {ε α : Type} {x : Invocation ε α} {o : Option α}
    (hx : ∃ t, MayRefresh e s t ∧ x e s = orTrap o e t) : (x e s).value = o := by
  obtain ⟨t, -, heq⟩ := hx
  rw [heq]
  cases o <;> rfl

/-- A debtor reads neither a balance of nothing nor the health factor of no debt, and a balance that
is read covers both buckets, up to the largest number. -/
structure DebtReported (e : Env) (s : Storage) (user : Address) : Prop where
  balance : Debtor e s user →
    ((Views.getDebtBalance user : Invocation BorrowError ℤ) e s).value ≠ some 0
  health : Debtor e s user →
    ((Views.getHealthFactor user : Invocation BorrowError ℤ) e s).value ≠
      some HEALTH_FACTOR_NO_DEBT
  covers : ∀ b, ((Views.getDebtBalance user : Invocation BorrowError ℤ) e s).value = some b →
    min I128.MAX (totalOwed e s user) ≤ b

/-- Nothing overflows in the bucket that is looked at, what is owed there is not zero, and nothing
is owed in the other, unless the first alone reaches the largest number.  Where the collateral can
be priced, the debt is positive and its health factor is not the number of no debt. -/
structure Reportable (e : Env) (s : Storage) (user : Address) : Prop where
  inRange : InRange e s (chosenDebt e s user)
  nonzero : owedNow e s (chosenDebt e s user) ≠ 0
  covers : owedNow e s (passedOver e s user) ≤ 0 ∨ I128.MAX ≤ owedNow e s (chosenDebt e s user)
  health : Priced e s (getCollateralPosition s user).amount (getCollateralPosition s user).asset →
    0 < owedNow e s (chosenDebt e s user) ∧
      ¬ OnSentinel e s user (min I128.MAX (owedNow e s (chosenDebt e s user)))
        (chosenDebt e s user).asset

/-- **The health factor is that of no debt** where the collateral is priced and the balance is not
positive, or the collateral weighs as much as that number says. -/
theorem reportedHealth_noDebt {q : DebtPosition}
    (hq : withInterest e s (chosenDebt e s user) = some q)
    (hasset : q.asset = (chosenDebt e s user).asset) :
    reportedHealth e s user = some HEALTH_FACTOR_NO_DEBT ↔
      Priced e s (getCollateralPosition s user).amount (getCollateralPosition s user).asset ∧
        (debtBalance q ≤ 0 ∨ OnSentinel e s user (debtBalance q) (chosenDebt e s user).asset) := by
  rw [reportedHealth, hq, Option.bind_some, Option.bind_eq_some_iff]
  simp only [collateralValue, valueOf_eq_some, debtValue, hasset]
  constructor
  · rintro ⟨_, ⟨hpriced, rfl⟩, hhealth⟩
    exact ⟨hpriced, health_eq_noDebt.mp hhealth⟩
  · rintro ⟨hpriced, hnone⟩
    exact ⟨_, ⟨hpriced, rfl⟩, health_eq_noDebt.mpr hnone⟩

theorem PrincipalsFit.chosen (h : PrincipalsFit s) (e : Env) (user : Address) :
    (chosenDebt e s user).PrincipalFits ∧ (passedOver e s user).PrincipalFits := by
  unfold chosenDebt passedOver
  split <;> exact ⟨h.reading .., h.reading ..⟩

/-- Who owes nothing is in range, and owes nothing in the bucket that is passed over. -/
theorem PrincipalsFit.not_debtor (h : PrincipalsFit s) (hd : ¬ Debtor e s user) :
    InRange e s (chosenDebt e s user) ∧ owedNow e s (passedOver e s user) ≤ 0 := by
  obtain ⟨hchosen, hover⟩ := h.chosen e user
  obtain ⟨hnone, hnoneOver⟩ := not_owing_of_not_debtor hd
  refine ⟨fun hne => absurd ?_ hne, owedNow_nonpos hover hnoneOver⟩
  exact le_antisymm (not_lt.mp (not_or.mp hnone).1) hchosen.1

/-- Where the views trap, they report nothing. -/
theorem debtReported_of_trap (hq : withInterest e s (chosenDebt e s user) = none) :
    DebtReported e s user := by
  have hbalance : ((Views.getDebtBalance user : Invocation BorrowError ℤ) e s).value = none := by
    rw [reading_value (getDebtBalance_eq user e s), reportedBalance, hq, Option.map_none]
  have hhealth : ((Views.getHealthFactor user : Invocation BorrowError ℤ) e s).value = none := by
    rw [reading_value (getHealthFactor_eq user e s), reportedHealth, hq, Option.bind_none]
  refine ⟨fun _ => ?_, fun _ => ?_, fun b hb => ?_⟩
  · rw [hbalance]
    exact (Option.some_ne_none _).symm
  · rw [hhealth]
    exact (Option.some_ne_none _).symm
  · rw [hbalance] at hb
    cases hb

/-- Where the views answer, what is to be shown of their answers. -/
theorem debtReported_of_answer {q : DebtPosition}
    (hq : withInterest e s (chosenDebt e s user) = some q)
    (hasset : q.asset = (chosenDebt e s user).asset) :
    DebtReported e s user ↔ (Debtor e s user → debtBalance q ≠ 0 ∧
        (Priced e s (getCollateralPosition s user).amount (getCollateralPosition s user).asset →
          0 < debtBalance q ∧
            ¬ OnSentinel e s user (debtBalance q) (chosenDebt e s user).asset)) ∧
      min I128.MAX (totalOwed e s user) ≤ debtBalance q := by
  have hbalance := reading_value (getDebtBalance_eq (ε := BorrowError) user e s)
  have hhealth := reading_value (getHealthFactor_eq (ε := BorrowError) user e s)
  have hnoDebt := reportedHealth_noDebt hq hasset
  rw [← hhealth] at hnoDebt
  rw [reportedBalance, hq, Option.map_some] at hbalance
  constructor
  · rintro ⟨hb, hh, hc⟩
    refine ⟨fun hdebtor => ⟨fun h0 => ?_, fun hpriced => ?_⟩, hc _ hbalance⟩
    · exact hb hdebtor (by rw [hbalance, h0])
    · obtain ⟨hpos, hoff⟩ := not_or.mp fun h => hh hdebtor (hnoDebt.mpr ⟨hpriced, h⟩)
      exact ⟨not_le.mp hpos, hoff⟩
  · rintro ⟨hdebt, hc⟩
    refine ⟨fun hdebtor h0 => ?_, fun hdebtor h0 => ?_, fun b hb => ?_⟩
    · rw [hbalance] at h0
      exact (hdebt hdebtor).1 (Option.some.inj h0)
    · obtain ⟨hpriced, hle | hon⟩ := hnoDebt.mp h0
      · exact absurd ((hdebt hdebtor).2 hpriced).1 (not_lt.mpr hle)
      · exact ((hdebt hdebtor).2 hpriced).2 hon
    · rw [hbalance] at hb
      cases hb
      exact hc

/-- **In every reachable state and whatever the oracle answers, a debtor is reported as one, with
all that is owed in both buckets, if and only if the views trap or nothing overflows, nothing is
owed in the bucket that is passed over, and the numbers that stand for no debt do not come up.** -/
theorem debt_reported_iff (txs : List Tx) (e : Env) (user : Address) :
    DebtReported e (ledger txs) user ↔ (Debtor e (ledger txs) user →
      Answers e (ledger txs) (chosenDebt e (ledger txs) user) →
        Reportable e (ledger txs) user) := by
  have hreach : Reachable (ledger txs) := ⟨txs, rfl⟩
  have hprincipals := hreach.principalsFit
  by_cases ha : Answers e (ledger txs) (chosenDebt e (ledger txs) user)
  · obtain ⟨q, hq, hasset, hin, hout⟩ :=
      hreach.ratesValid.withInterest_balance (hprincipals.chosen e user).1 ha
    have hMAX : I128.MAX = 2 ^ 127 - 1 := rfl
    rw [debtReported_of_answer hq hasset, totalOwed_eq]
    constructor
    · rintro ⟨hdebt, hc⟩ hdebtor -
      obtain ⟨hne, hhealth⟩ := hdebt hdebtor
      have hrange : InRange e (ledger txs) (chosenDebt e (ledger txs) user) :=
        not_not.mp fun h => hne (hout h)
      rw [hin hrange] at hne hc hhealth
      refine ⟨hrange, by omega, by omega, fun hpriced => ⟨?_, (hhealth hpriced).2⟩⟩
      have hpos := (hhealth hpriced).1
      omega
    · intro hcond
      refine ⟨fun hdebtor => ?_, ?_⟩
      · obtain ⟨hrange, hne, -, hhealth⟩ := hcond hdebtor ha
        rw [hin hrange]
        exact ⟨by omega, fun hpriced => ⟨by have := (hhealth hpriced).1; omega,
          (hhealth hpriced).2⟩⟩
      · by_cases hdebtor : Debtor e (ledger txs) user
        · obtain ⟨hrange, -, hcovers, -⟩ := hcond hdebtor ha
          rw [hin hrange]
          omega
        · obtain ⟨hrange, hover⟩ := hprincipals.not_debtor hdebtor
          rw [hin hrange]
          omega
  · exact iff_of_true (debtReported_of_trap (hreach.ratesValid.withInterest_trap ha))
      fun _ h => absurd h ha

namespace Sample

/-- A year on, Alice's debt is reported with its interest. -/
theorem debt_reported_indebted : DebtReported nextYear (ledger indebted) alice := by
  refine (debt_reported_iff indebted nextYear alice).mpr fun _ _ =>
    ⟨fun _ => ⟨fun _ => ⟨?_, ?_⟩, ?_, ?_⟩, ?_, .inl ?_,
      fun _ => ⟨?_, fun hon => absurd hon.valued ?_⟩⟩
  all_goals decide

/-- **One slope that the setter accepts, and Alice's debt reads as none**; and of what she owes at
both rates, half is reported. -/
theorem debt_misreported :
    ¬ DebtReported nextYear (ledger (indebted ++ [steepest])) alice ∧
      ¬ DebtReported (envAt 7 [alice]) (ledger atBothRates) alice := by
  have howing : Debtor nextYear (ledger (indebted ++ [steepest])) alice := by
    refine .inl (.inl ?_)
    decide
  have hzero : ((Views.getDebtBalance alice : Invocation BorrowError ℤ) nextYear
      (ledger (indebted ++ [steepest]))).value = some 0 := by decide
  have hhalf : ((Views.getDebtBalance alice : Invocation BorrowError ℤ) (envAt 7 [alice])
      (ledger atBothRates)).value = some 10000 := by decide
  have htotal : totalOwed (envAt 7 [alice]) (ledger atBothRates) alice = 20000 := by
    decide
  refine ⟨fun h => h.balance howing hzero, fun h => ?_⟩
  have hcovers := h.covers 10000 hhalf
  rw [htotal] at hcovers
  exact absurd hcovers (by decide)

/-- The health factor of that debt is the one that stands for no debt. -/
example : ((Views.getHealthFactor alice : Invocation BorrowError ℤ) nextYear
    (ledger (indebted ++ [steepest]))).value = some HEALTH_FACTOR_NO_DEBT := by
  decide

end Sample

end StellarLend.Lending
