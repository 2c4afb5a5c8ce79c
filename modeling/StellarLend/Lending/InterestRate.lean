import StellarLend.Lending.Storage
import Mathlib.Tactic.Linarith

/-!
# Lending/InterestRate — the kinked borrow rate

The borrow rate is a piecewise linear function of utilization (total debt over debt ceiling),
clamped to a configured floor and ceiling.  `ConfigValid` is what the setter enforces of every
stored configuration; under it the rate lies between floor and ceiling (`borrowRateBps_bounds`).
-/

namespace StellarLend.Lending

open Foundations Call

def BPS_SCALE : ℤ := 10000

/-! ## Readers of the store the rate depends on -/

def getAdmin (s : Storage) : Option Address := s.protocolAdmin
def getTotalDebt (s : Storage) : ℤ := s.borrowTotalDebt.getD 0
def getDebtCeiling (s : Storage) : ℤ := s.borrowDebtCeiling.getD I128.MAX

def defaultConfig (e : Env) : InterestRateConfig where
  baseRateBps := 100
  kinkUtilizationBps := 8000
  slopeBps := 2000
  jumpSlopeBps := 10000
  rateFloorBps := 0
  rateCeilingBps := 10000
  spreadBps := 200
  lastUpdate := e.timestamp

def getConfig (e : Env) (s : Storage) : InterestRateConfig :=
  s.borrowInterestRate.getD (defaultConfig e)

def setDefaultIfMissing {ε : Type} : Invocation ε Unit := do
  let cfg ← asks defaultConfig
  store fun s => { s with borrowInterestRate := s.borrowInterestRate.or (some cfg) }

/-! ## The rate -/

/-- Utilization in basis points, between 0 and 10000. -/
def utilizationBps (s : Storage) : Except InterestRateError ℤ :=
  let ceiling := getDebtCeiling s
  if ceiling ≤ 0 then .ok 0
  else
    let debt := getTotalDebt s
    if debt ≤ 0 then .ok 0
    else do
      let scaled ← orErr (I128.checkedMul debt BPS_SCALE) .overflow
      let util ← orErr (I128.checkedDiv scaled ceiling) .divisionByZero
      pure (max (min util BPS_SCALE) 0)

/-- The rate before it is clamped: one slope up to the kink, another beyond it. -/
def unclampedRateBps (cfg : InterestRateConfig) (util : ℤ) : Except InterestRateError ℤ :=
  if util ≤ cfg.kinkUtilizationBps then
    if 0 < cfg.kinkUtilizationBps then do
      let scaled ← orErr (I128.checkedMul util cfg.slopeBps) .overflow
      let inc ← orErr (I128.checkedDiv scaled cfg.kinkUtilizationBps) .divisionByZero
      orErr (I128.checkedAdd cfg.baseRateBps inc) .overflow
    else pure cfg.baseRateBps
  else do
    let rateAtKink ← orErr (I128.checkedAdd cfg.baseRateBps cfg.slopeBps) .overflow
    let utilAbove ← orErr (I128.checkedSub util cfg.kinkUtilizationBps) .overflow
    let maxAbove ← orErr (I128.checkedSub BPS_SCALE cfg.kinkUtilizationBps) .overflow
    if 0 < maxAbove then do
      let scaled ← orErr (I128.checkedMul utilAbove cfg.jumpSlopeBps) .overflow
      let addl ← orErr (I128.checkedDiv scaled maxAbove) .divisionByZero
      orErr (I128.checkedAdd rateAtKink addl) .overflow
    else pure rateAtKink

def borrowRateBps (e : Env) (s : Storage) : Except InterestRateError ℤ := do
  let cfg := getConfig e s
  let util ← utilizationBps s
  let rate ← unclampedRateBps cfg util
  pure (min (max rate cfg.rateFloorBps) cfg.rateCeilingBps)

def supplyRateBps (e : Env) (s : Storage) : Except InterestRateError ℤ := do
  let cfg := getConfig e s
  let borrow ← borrowRateBps e s
  let supply ← orErr (I128.checkedSub borrow cfg.spreadBps) .overflow
  pure (max supply cfg.rateFloorBps)

/-! ## Updating the configuration -/

/-- A configuration field after an optional update, rejected where `bad` holds. -/
def setField (bad : ℤ → Bool) (v : Option ℤ) (old : ℤ) : Except InterestRateError ℤ :=
  match v with
  | none => .ok old
  | some v => if bad v then .error .invalidParameter else .ok v

/-- A field in basis points. -/
def outsideBps (v : ℤ) : Bool := v < 0 ∨ BPS_SCALE < v

/-- The configuration after an update, if the update is accepted. -/
def nextConfig (prev : InterestRateConfig) (update : InterestRateConfigUpdate) (now : ℕ) :
    Except InterestRateError InterestRateConfig := do
  let base ← setField outsideBps update.baseRateBps prev.baseRateBps
  let kink ← setField (fun v => v ≤ 0 ∨ BPS_SCALE ≤ v) update.kinkUtilizationBps
    prev.kinkUtilizationBps
  let slope ← setField (fun v => v < 0) update.slopeBps prev.slopeBps
  let jump ← setField (fun v => v < 0) update.jumpSlopeBps prev.jumpSlopeBps
  let floor ← setField outsideBps update.rateFloorBps prev.rateFloorBps
  let ceiling ← setField outsideBps update.rateCeilingBps prev.rateCeilingBps
  if ceiling < floor then .error .invalidParameter
  else do
    let spread ← setField outsideBps update.spreadBps prev.spreadBps
    pure ⟨base, kink, slope, jump, floor, ceiling, spread, now⟩

def updateConfig (caller : Address) (update : InterestRateConfigUpdate) :
    Invocation InterestRateError (InterestRateConfig × InterestRateConfig) := do
  requireAuth caller
  let admin ← view getAdmin
  let admin ← okOr admin .unauthorized
  failIf (caller ≠ admin) .unauthorized
  let prev ← look getConfig
  let now ← asks Env.timestamp
  let next ← ofExcept (nextConfig prev update now)
  store fun s => { s with borrowInterestRate := some next }
  pure (prev, next)

/-- How a rate error surfaces in the borrow module. -/
def InterestRateError.toBorrowError : InterestRateError → BorrowError
  | .unauthorized => .unauthorized
  | .invalidParameter => .invalidAmount
  | .overflow => .overflow
  | .divisionByZero => .overflow

/-! ## Valid configurations -/

/-- What the setter enforces of a stored configuration. -/
structure InterestRateConfig.Valid (c : InterestRateConfig) : Prop where
  base : 0 ≤ c.baseRateBps ∧ c.baseRateBps ≤ BPS_SCALE
  kink : 0 < c.kinkUtilizationBps ∧ c.kinkUtilizationBps < BPS_SCALE
  slope : 0 ≤ c.slopeBps
  jump : 0 ≤ c.jumpSlopeBps
  floor : 0 ≤ c.rateFloorBps
  ceiling : c.rateFloorBps ≤ c.rateCeilingBps
  ceiling_le : c.rateCeilingBps ≤ BPS_SCALE
  spread : 0 ≤ c.spreadBps ∧ c.spreadBps ≤ BPS_SCALE

theorem defaultConfig_valid (e : Env) : (defaultConfig e).Valid := by
  constructor <;> simp [defaultConfig, BPS_SCALE]

/-- An accepted field is the old one or passed its check. -/
theorem setField_ok {bad : ℤ → Bool} {v : Option ℤ} {old x : ℤ} (h : setField bad v old = .ok x) :
    x = old ∨ bad x = false := by
  unfold setField at h
  split at h
  · exact .inl (by simpa using h.symm)
  · split at h
    · cases h
    · rename_i hbad
      cases h
      exact .inr (by simpa using hbad)

/-- **The setter keeps the configuration valid.** -/
theorem nextConfig_valid {prev next : InterestRateConfig} {update : InterestRateConfigUpdate}
    {now : ℕ} (h : nextConfig prev update now = .ok next) (hp : prev.Valid) : next.Valid := by
  simp only [nextConfig, except_bind_ok] at h
  obtain ⟨base, hbase, kink, hkink, slope, hslope, jump, hjump, floor, hfloor, ceiling, hceiling,
    h⟩ := h
  split at h
  · cases h
  · rename_i hle
    simp only [except_bind_ok, except_pure_ok] at h
    obtain ⟨spread, hspread, rfl⟩ := h
    have inBps : ∀ {v : ℤ}, outsideBps v = false → 0 ≤ v ∧ v ≤ BPS_SCALE := by
      intro v hv
      simpa [outsideBps] using hv
    have hb := (setField_ok hbase).elim (fun h => h ▸ hp.base) inBps
    have hf := (setField_ok hfloor).elim (fun h => h ▸ hp.floor) fun h => (inBps h).1
    have hc := (setField_ok hceiling).elim (fun h => h ▸ hp.ceiling_le) fun h => (inBps h).2
    have hs := (setField_ok hspread).elim (fun h => h ▸ hp.spread) inBps
    have hk := (setField_ok hkink).elim (fun h => h ▸ hp.kink) (by simp)
    have hsl := (setField_ok hslope).elim (fun h => h ▸ hp.slope) (by simp)
    have hj := (setField_ok hjump).elim (fun h => h ▸ hp.jump) (by simp)
    exact ⟨hb, hk, hsl, hj, hf, not_lt.mp hle, hc, hs⟩

theorem getConfig_valid {e : Env} {s : Storage}
    (h : ∀ c, s.borrowInterestRate = some c → c.Valid) : (getConfig e s).Valid := by
  unfold getConfig
  cases hs : s.borrowInterestRate with
  | none => exact defaultConfig_valid e
  | some c => exact h c hs

/-- **Under a valid configuration the borrow rate lies between floor and ceiling.** -/
theorem borrowRateBps_bounds {e : Env} {s : Storage} {r : ℤ} (hc : (getConfig e s).Valid)
    (h : borrowRateBps e s = .ok r) :
    (getConfig e s).rateFloorBps ≤ r ∧ r ≤ (getConfig e s).rateCeilingBps := by
  simp only [borrowRateBps, except_bind_ok, except_pure_ok] at h
  obtain ⟨_, _, _, _, rfl⟩ := h
  exact ⟨le_min (le_max_right _ _) hc.ceiling, min_le_right _ _⟩

theorem borrowRateBps_nonneg {e : Env} {s : Storage} {r : ℤ} (hc : (getConfig e s).Valid)
    (h : borrowRateBps e s = .ok r) : 0 ≤ r :=
  hc.floor.trans (borrowRateBps_bounds hc h).1

end StellarLend.Lending
