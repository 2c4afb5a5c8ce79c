import StellarLend.HelloWorld.Risk

/-!
# HelloWorld/InterestRate — the kinked rate, the lending index, accrual on a position

A position is charged by the growth of the global borrow index since the user's own copy of it.
Borrowing, repaying and liquidating each carry their own `accrue_interest` in the source; the three
differ in their error type only.
-/

namespace StellarLend.HelloWorld

open Foundations Call
open Lending (Address)

inductive InterestRateError where
  | unauthorized
  | invalidParameter
  | parameterChangeTooLarge
  | overflow
  | divisionByZero
  | alreadyInitialized
  deriving DecidableEq, Repr

def InterestRateError.toLendingError : InterestRateError → LendingError
  | .unauthorized => .unauthorized
  | .invalidParameter => .invalidParameter
  | .parameterChangeTooLarge => .limitExceeded
  | .overflow => .overflow
  | .divisionByZero => .divisionByZero
  | .alreadyInitialized => .alreadyInitialized

def INDEX_SCALE : ℤ := 1000000000000
def SECONDS_PER_YEAR : ℤ := 31536000

/-! ## Configuration -/

/-- The source's `get_default_config`. -/
def InterestRateConfig.default : InterestRateConfig :=
  ⟨100, 8000, 2000, 10000, 50, 10000, 200, 0, 0⟩

def getInterestRateConfig (s : Storage) : Option InterestRateConfig := s.interest.interestRateConfig

/-- The store with another rate configuration. -/
def withInterestRateConfig (config : InterestRateConfig) (s : Storage) : Storage :=
  { s with interest := { s.interest with interestRateConfig := some config } }

def initializeInterestRateConfig : Invocation InterestRateError Unit := do
  let config ← view getInterestRateConfig
  failIf (config.isSome = true) .alreadyInitialized
  store (withInterestRateConfig .default)

/-- A parameter that is set only inside its bounds. -/
def setBounded (ok : ℤ → Prop) [DecidablePred ok] (current : ℤ) (value : Option ℤ) :
    Except InterestRateError ℤ :=
  match value with
  | some v => if ok v then .ok v else .error .invalidParameter
  | none => .ok current

/-- The update, parameter by parameter in the order of the source: the floor is compared with the
ceiling in force before the update, the ceiling with the floor after it. -/
def updatedRateConfig (config : InterestRateConfig)
    (baseRate kink multiplier jumpMultiplier rateFloor rateCeiling spread : Option ℤ) :
    Except InterestRateError InterestRateConfig := do
  let baseRateBps ← setBounded (fun v => 0 ≤ v ∧ v ≤ BASIS_POINTS_SCALE) config.baseRateBps baseRate
  let kinkUtilizationBps ← setBounded (fun v => 0 < v ∧ v < BASIS_POINTS_SCALE)
    config.kinkUtilizationBps kink
  let multiplierBps ← setBounded (fun v => 0 ≤ v) config.multiplierBps multiplier
  let jumpMultiplierBps ← setBounded (fun v => 0 ≤ v) config.jumpMultiplierBps jumpMultiplier
  let rateFloorBps ← setBounded
    (fun v => (0 ≤ v ∧ v ≤ BASIS_POINTS_SCALE) ∧ v ≤ config.rateCeilingBps) config.rateFloorBps
    rateFloor
  let rateCeilingBps ← setBounded
    (fun v => (0 ≤ v ∧ v ≤ BASIS_POINTS_SCALE) ∧ rateFloorBps ≤ v) config.rateCeilingBps rateCeiling
  let spreadBps ← setBounded (fun v => 0 ≤ v ∧ v ≤ BASIS_POINTS_SCALE) config.spreadBps spread
  .ok ⟨baseRateBps, kinkUtilizationBps, multiplierBps, jumpMultiplierBps, rateFloorBps,
    rateCeilingBps, spreadBps, config.emergencyAdjustmentBps, config.lastUpdate⟩

def updateInterestRateConfig (caller : Address)
    (baseRate kink multiplier jumpMultiplier rateFloor rateCeiling spread : Option ℤ) :
    Invocation InterestRateError Unit := do
  mapErr (fun _ => .unauthorized) (requireAdmin caller)
  let config ← view getInterestRateConfig
  let config ← okOr config .invalidParameter
  let config ← ofExcept
    (updatedRateConfig config baseRate kink multiplier jumpMultiplier rateFloor rateCeiling spread)
  let now ← asks Env.timestamp
  store (withInterestRateConfig { config with lastUpdate := now })

/-- The absolute value is unchecked. -/
def setEmergencyRateAdjustment (caller : Address) (adjustmentBps : ℤ) :
    Invocation InterestRateError Unit := do
  mapErr (fun _ => .unauthorized) (requireAdmin caller)
  let magnitude ← orTrap (I128.check |adjustmentBps|)
  failIf (BASIS_POINTS_SCALE < magnitude) .invalidParameter
  let config ← view getInterestRateConfig
  let config ← okOr config .invalidParameter
  let now ← asks Env.timestamp
  store (withInterestRateConfig
    { config with emergencyAdjustmentBps := adjustmentBps, lastUpdate := now })

/-! ## Valid configurations -/

/-- What the setters enforce of a stored configuration. -/
structure InterestRateConfig.Valid (c : InterestRateConfig) : Prop where
  base : 0 ≤ c.baseRateBps ∧ c.baseRateBps ≤ BASIS_POINTS_SCALE
  kink : 0 < c.kinkUtilizationBps ∧ c.kinkUtilizationBps < BASIS_POINTS_SCALE
  multiplier : 0 ≤ c.multiplierBps
  jump : 0 ≤ c.jumpMultiplierBps
  floor : 0 ≤ c.rateFloorBps
  ordered : c.rateFloorBps ≤ c.rateCeilingBps
  ceiling : c.rateCeilingBps ≤ BASIS_POINTS_SCALE
  spread : 0 ≤ c.spreadBps ∧ c.spreadBps ≤ BASIS_POINTS_SCALE
  emergency : |c.emergencyAdjustmentBps| ≤ BASIS_POINTS_SCALE

theorem InterestRateConfig.default_valid : InterestRateConfig.default.Valid := by
  constructor <;> decide

/-- A parameter that was accepted is the old one or inside its bounds. -/
theorem setBounded_ok {ok : ℤ → Prop} [DecidablePred ok] {current v : ℤ} {value : Option ℤ}
    (h : setBounded ok current value = .ok v) : v = current ∨ ok v := by
  unfold setBounded at h
  split at h
  · split at h
    · cases h
      exact .inr ‹_›
    · cases h
  · cases h
    exact .inl rfl

/-- **An update keeps the configuration valid.**  The floor is compared with the ceiling before the
update, and the ceiling, if there is a new one, with the floor after it. -/
theorem updatedRateConfig_valid {config next : InterestRateConfig}
    {baseRate kink multiplier jumpMultiplier rateFloor rateCeiling spread : Option ℤ}
    (hc : config.Valid) (h : updatedRateConfig config baseRate kink multiplier jumpMultiplier
      rateFloor rateCeiling spread = .ok next) : next.Valid := by
  simp only [updatedRateConfig, except_bind_ok, Except.ok.injEq] at h
  obtain ⟨base, hbase, kink, hkink, slope, hslope, jump, hjump, floor, hfloor, ceiling, hceiling,
    spread, hspread, rfl⟩ := h
  have hf : 0 ≤ floor ∧ floor ≤ config.rateCeilingBps :=
    (setBounded_ok hfloor).elim (fun h => h ▸ ⟨hc.floor, hc.ordered⟩) fun h => ⟨h.1.1, h.2⟩
  have hl : floor ≤ ceiling ∧ ceiling ≤ BASIS_POINTS_SCALE :=
    (setBounded_ok hceiling).elim (fun h => h ▸ ⟨hf.2, hc.ceiling⟩) fun h => ⟨h.2, h.1.2⟩
  exact ⟨(setBounded_ok hbase).elim (fun h => h ▸ hc.base) id,
    (setBounded_ok hkink).elim (fun h => h ▸ hc.kink) id,
    (setBounded_ok hslope).elim (fun h => h ▸ hc.multiplier) id,
    (setBounded_ok hjump).elim (fun h => h ▸ hc.jump) id, hf.1, hl.1, hl.2,
    (setBounded_ok hspread).elim (fun h => h ▸ hc.spread) id, hc.emergency⟩

/-- The stored configuration is valid. -/
def RateValid (s : Storage) : Prop := ∀ config, getInterestRateConfig s = some config → config.Valid

theorem RateValid.with {config : InterestRateConfig} (h : config.Valid) (s : Storage) :
    RateValid (withInterestRateConfig config s) := by
  rintro _ ⟨⟩
  exact h

theorem updateInterestRateConfig_rates {e : Env} {s t : Storage} {caller : Address}
    {baseRate kink multiplier jumpMultiplier rateFloor rateCeiling spread : Option ℤ} {u : Unit}
    (h : updateInterestRateConfig caller baseRate kink multiplier jumpMultiplier rateFloor
      rateCeiling spread e s = .ok u t) (hs : RateValid s) : RateValid t := by
  simp only [updateInterestRateConfig, mapErr_requireAdmin_seq, view_seq, okOr_seq, ofExcept_seq,
    asks_seq, store_ok] at h
  obtain ⟨-, config, hconfig, next, hnext, rfl⟩ := h
  obtain ⟨h1, h2, h3, h4, h5, h6, h7, h8, h9⟩ := updatedRateConfig_valid (hs config hconfig) hnext
  refine RateValid.with ?_ s
  exact ⟨h1, h2, h3, h4, h5, h6, h7, h8, h9⟩

theorem setEmergencyRateAdjustment_rates {e : Env} {s t : Storage} {caller : Address}
    {adjustment : ℤ} {u : Unit}
    (h : setEmergencyRateAdjustment caller adjustment e s = .ok u t) (hs : RateValid s) :
    RateValid t := by
  simp only [setEmergencyRateAdjustment, mapErr_requireAdmin_seq, view_seq, okOr_seq, failIf_seq,
    orTrap_seq, Range.check_eq_some, not_lt, asks_seq, store_ok] at h
  obtain ⟨-, _, ⟨-, rfl⟩, hmagnitude, config, hconfig, rfl⟩ := h
  obtain ⟨h1, h2, h3, h4, h5, h6, h7, h8, -⟩ := hs config hconfig
  refine RateValid.with ?_ s
  exact ⟨h1, h2, h3, h4, h5, h6, h7, h8, hmagnitude⟩

/-! ## Rates -/

def getProtocolAnalytics (s : Storage) : ProtocolAnalytics :=
  s.stats.protocolAnalytics.getD ⟨0, 0, 0⟩

/-- Borrows over deposits in basis points, capped at 100%. -/
def calculateUtilization (s : Storage) : Except InterestRateError ℤ :=
  let analytics := getProtocolAnalytics s
  if analytics.totalDeposits = 0 then .ok 0
  else do
    let scaled ← orErr (I128.checkedMul analytics.totalBorrows BASIS_POINTS_SCALE) .overflow
    let utilization ← orErr (I128.checkedDiv scaled analytics.totalDeposits) .divisionByZero
    .ok (min utilization BASIS_POINTS_SCALE)

/-- The two pieces of the curve, before the adjustment and the limits. -/
def kinkedRate (config : InterestRateConfig) (utilization : ℤ) : Except InterestRateError ℤ :=
  if utilization ≤ config.kinkUtilizationBps then
    if 0 < config.kinkUtilizationBps then do
      let scaled ← orErr (I128.checkedMul utilization config.multiplierBps) .overflow
      let increase ← orErr (I128.checkedDiv scaled config.kinkUtilizationBps) .divisionByZero
      orErr (I128.checkedAdd config.baseRateBps increase) .overflow
    else .ok config.baseRateBps
  else do
    let rateAtKink ← orErr (I128.checkedAdd config.baseRateBps config.multiplierBps) .overflow
    let above ← orErr (I128.checkedSub utilization config.kinkUtilizationBps) .overflow
    let maxAbove ← orErr (I128.checkedSub BASIS_POINTS_SCALE config.kinkUtilizationBps) .overflow
    if 0 < maxAbove then do
      let scaled ← orErr (I128.checkedMul above config.jumpMultiplierBps) .overflow
      let additional ← orErr (I128.checkedDiv scaled maxAbove) .divisionByZero
      orErr (I128.checkedAdd rateAtKink additional) .overflow
    else .ok rateAtKink

def calculateBorrowRate (s : Storage) : Except InterestRateError ℤ := do
  let config ← orErr (getInterestRateConfig s) .invalidParameter
  let utilization ← calculateUtilization s
  let rate ← kinkedRate config utilization
  let rate ← orErr (I128.checkedAdd rate config.emergencyAdjustmentBps) .overflow
  .ok (min (max rate config.rateFloorBps) config.rateCeilingBps)

def calculateSupplyRate (s : Storage) : Except InterestRateError ℤ := do
  let config ← orErr (getInterestRateConfig s) .invalidParameter
  let borrowRate ← calculateBorrowRate s
  let supplyRate ← orErr (I128.checkedSub borrowRate config.spreadBps) .overflow
  .ok (max supplyRate config.rateFloorBps)

/-- A rate, or nothing where it cannot be computed. -/
def rateOrZero (rate : Except InterestRateError ℤ) : ℤ :=
  match rate with
  | .ok rate => rate
  | .error _ => 0

/-! ## The lending index -/

/-- Without a stored index, one that starts now. -/
def getLendingIndex (e : Env) (s : Storage) : LendingIndex :=
  s.interest.lendingIndex.getD ⟨INDEX_SCALE, INDEX_SCALE, e.timestamp⟩

/-- `index + index * rate * elapsed / (10000 * SECONDS_PER_YEAR)`, each step checked. -/
def grownIndex (index rate : ℤ) (elapsed : ℕ) : Except InterestRateError ℤ := do
  let scaled ← orErr (I128.checkedMul index rate) .overflow
  let scaled ← orErr (I128.checkedMul scaled elapsed) .overflow
  orErr (I128.checkedAdd index (scaled.tdiv (BASIS_POINTS_SCALE * SECONDS_PER_YEAR))) .overflow

/-- The store with another lending index. -/
def withLendingIndex (idx : LendingIndex) (s : Storage) : Storage :=
  { s with interest := { s.interest with lendingIndex := some idx } }

/-- An index that is not behind the ledger time is returned as it is, and not stored. -/
def updateLendingIndex : Invocation InterestRateError LendingIndex := do
  let idx ← look getLendingIndex
  let now ← asks Env.timestamp
  if now ≤ idx.lastUpdate then pure idx
  else do
    let borrowRate ← view fun s => rateOrZero (calculateBorrowRate s)
    let supplyRate ← view fun s => rateOrZero (calculateSupplyRate s)
    let borrowIndex ← ofExcept (grownIndex idx.borrowIndex borrowRate (now - idx.lastUpdate))
    let supplyIndex ← ofExcept (grownIndex idx.supplyIndex supplyRate (now - idx.lastUpdate))
    store (withLendingIndex ⟨borrowIndex, supplyIndex, now⟩)
    pure ⟨borrowIndex, supplyIndex, now⟩

/-- What a principal owes for the growth of the index since the user's copy of it. -/
def computeIndexInterest (principal userIndex currentIndex : ℤ) : Except InterestRateError ℤ :=
  if principal = 0 ∨ userIndex = 0 ∨ currentIndex ≤ userIndex then .ok 0
  else do
    let delta ← orErr (I128.checkedSub currentIndex userIndex) .overflow
    let scaled ← orErr (I128.checkedMul principal delta) .overflow
    orErr (I128.checkedDiv scaled userIndex) .divisionByZero

/-! ## Accrual -/

/-- The store with another borrow index of a user. -/
def withUserBorrowIndex (user : Address) (index : ℤ) (s : Storage) : Storage :=
  { s with books := { s.books with
      userBorrowIndex := Function.update s.books.userBorrowIndex user (some index) } }

/-- `accrue_interest` with the error its module overflows with.  The position is returned, not
stored; without principal the recorded interest is dropped. -/
def accrueInterest {ε : Type} (overflow : ε) (user : Address) (position : Position) :
    Invocation ε Position := do
  let now ← asks Env.timestamp
  let current ← mapErr (fun _ => overflow) updateLendingIndex
  if position.debt = 0 then do
    store (withUserBorrowIndex user current.borrowIndex)
    pure { position with borrowInterest := 0, lastAccrualTime := now }
  else do
    let userIndex ← view fun s => (s.books.userBorrowIndex user).getD current.borrowIndex
    let newInterest ← mapErr (fun _ => overflow)
      (ofExcept (computeIndexInterest position.debt userIndex current.borrowIndex))
    let interest ← okOr (I128.checkedAdd position.borrowInterest newInterest) overflow
    store (withUserBorrowIndex user current.borrowIndex)
    pure { position with borrowInterest := interest, lastAccrualTime := now }

end StellarLend.HelloWorld
