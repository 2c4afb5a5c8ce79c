import StellarLend.Foundations.Run
import StellarLend.HelloWorld.Storage

/-!
# HelloWorld/ReserveFunds — the reserves that interest is split into

    interest ──┬──▸ reserve of the asset ──┬──▸ treasury
               └──▸ lenders                └──▸ AMM pools

The reserves of `reserve.rs` are none of those that the fees go to.  What is left of one is what it
was credited with, less what was taken out or written off (`reserve_kept`).  No entry point of the
contract credits any, so that there is nothing to take out (`pays_nothing`).
-/

namespace StellarLend.ReserveFunds

open Foundations Call Function
open Lending (Address)
open HelloWorld (Transfer)

/-! ## Data -/

def MAX_RESERVE_FACTOR_BPS : ℤ := 5000
def DEFAULT_RESERVE_FACTOR_BPS : ℤ := 1000
def BASIS_POINTS_SCALE : ℤ := 10000

inductive ReserveError where
  | unauthorized
  | invalidReserveFactor
  | insufficientReserve
  | invalidAsset
  | invalidTreasury
  | invalidAmount
  | overflow
  | treasuryNotSet
  deriving DecidableEq, Repr

/-- The keys of `reserve.rs`, and the movements that its calls asked tokens for. -/
structure Storage where
  reserveBalance : Option Address → Option ℤ
  reserveFactor : Option Address → Option ℤ
  treasuryAddress : Option Address
  reserveAmmTarget : Option Address → Option Address
  reserveAmmLpBalance : Option Address → Option ℤ
  transfers : List Transfer

/-- A freshly deployed contract. -/
def Storage.empty : Storage where
  reserveBalance := fun _ => none
  reserveFactor := fun _ => none
  treasuryAddress := none
  reserveAmmTarget := fun _ => none
  reserveAmmLpBalance := fun _ => none
  transfers := []

/-- What an invocation finds around it: the addresses that signed it, the admin of the protocol, and
whether a token accepts a movement. -/
structure Env where
  auths : List Address
  admin : Option Address
  currentContractAddress : Address
  accepts : List Transfer → Transfer → Bool

/-- An invocation of the contract, or a part of one. -/
abbrev Invocation (α : Type) : Type := Call Env Storage ReserveError α

/-- `address.require_auth()`. -/
abbrev requireAuth (a : Address) : Invocation Unit := Call.requireAuth Env.auths a

/-! ## Reading and writing -/

def getReserveBalance (s : Storage) (asset : Option Address) : ℤ := (s.reserveBalance asset).getD 0

def getReserveFactor (s : Storage) (asset : Option Address) : ℤ :=
  (s.reserveFactor asset).getD DEFAULT_RESERVE_FACTOR_BPS

def getTreasuryAddress (s : Storage) : Option Address := s.treasuryAddress

def getReserveAmmLpBalance (s : Storage) (asset : Option Address) : ℤ :=
  (s.reserveAmmLpBalance asset).getD 0

/-- `persistent().set(ReserveBalance(asset), balance)`. -/
def withBalance (asset : Option Address) (balance : ℤ) (s : Storage) : Storage :=
  { s with reserveBalance := update s.reserveBalance asset (some balance) }

/-- `persistent().set(ReserveFactor(asset), bps)`. -/
def withFactor (asset : Option Address) (bps : ℤ) (s : Storage) : Storage :=
  { s with reserveFactor := update s.reserveFactor asset (some bps) }

/-- `persistent().set(ReserveAmmLpBalance(asset), balance)`. -/
def withLpBalance (asset : Option Address) (balance : ℤ) (s : Storage) : Storage :=
  { s with reserveAmmLpBalance := update s.reserveAmmLpBalance asset (some balance) }

/-- `0..=MAX_RESERVE_FACTOR_BPS`. -/
def InBounds (bps : ℤ) : Prop := 0 ≤ bps ∧ bps ≤ MAX_RESERVE_FACTOR_BPS

instance (bps : ℤ) : Decidable (InBounds bps) := inferInstanceAs (Decidable (_ ∧ _))

/-! ## Calls -/

def requireAdmin (caller : Address) : Invocation Unit := do
  let stored ← asks Env.admin
  let admin ← okOr stored .unauthorized
  failIf (caller ≠ admin) .unauthorized

def initializeReserveConfig (asset : Option Address) (reserveFactorBps : ℤ) :
    Invocation Unit := do
  failIf (¬ InBounds reserveFactorBps) .invalidReserveFactor
  store (withFactor asset reserveFactorBps)
  store (withBalance asset 0)

def setReserveFactor (caller : Address) (asset : Option Address) (reserveFactorBps : ℤ) :
    Invocation Unit := do
  requireAuth caller
  requireAdmin caller
  failIf (¬ InBounds reserveFactorBps) .invalidReserveFactor
  store (withFactor asset reserveFactorBps)

def setReserveAmmTarget (caller : Address) (asset : Option Address) (ammContract : Address) :
    Invocation Unit := do
  requireAuth caller
  requireAdmin caller
  store fun s => { s with reserveAmmTarget := update s.reserveAmmTarget asset (some ammContract) }

/-- Nothing is moved: the pool is left to whoever calls. -/
def recordReserveDeployToAmm (caller : Address) (asset : Option Address)
    (reserveAmount lpTokensReceived : ℤ) : Invocation Unit := do
  requireAuth caller
  requireAdmin caller
  failIf (reserveAmount ≤ 0 ∨ lpTokensReceived ≤ 0) .invalidAmount
  let currentReserve ← view fun s => getReserveBalance s asset
  failIf (currentReserve < reserveAmount) .insufficientReserve
  let remaining ← orTrap (I128.checkedSub currentReserve reserveAmount)
  store (withBalance asset remaining)
  let currentLp ← view fun s => getReserveAmmLpBalance s asset
  let newLp ← okOr (I128.checkedAdd currentLp lpTokensReceived) .overflow
  store (withLpBalance asset newLp)

/-- The parts of the reserve and of the lenders. -/
def accrueReserve (asset : Option Address) (interestAmount : ℤ) : Invocation (ℤ × ℤ) :=
  if interestAmount ≤ 0 then pure (0, 0)
  else do
    let reserveFactor ← view fun s => getReserveFactor s asset
    let reserveAmount ← okOr
      ((I128.checkedMul interestAmount reserveFactor).bind fun scaled =>
        I128.checkedDiv scaled BASIS_POINTS_SCALE)
      .overflow
    let lenderAmount ← okOr (I128.checkedSub interestAmount reserveAmount) .overflow
    let currentBalance ← view fun s => getReserveBalance s asset
    let newBalance ← okOr (I128.checkedAdd currentBalance reserveAmount) .overflow
    store (withBalance asset newBalance)
    pure (reserveAmount, lenderAmount)

def setTreasuryAddress (caller treasury : Address) : Invocation Unit := do
  requireAuth caller
  requireAdmin caller
  let self ← asks Env.currentContractAddress
  failIf (treasury = self) .invalidTreasury
  store fun s => { s with treasuryAddress := some treasury }

/-- `treasury.rs` keeps its treasury under the same key, and takes any address. -/
def setTreasury (caller treasury : Address) : Invocation Unit := do
  requireAuth caller
  requireAdmin caller
  store fun s => { s with treasuryAddress := some treasury }

/-- `token.transfer(contract, treasury, amount)`; of the native asset nothing is moved. -/
def transferOut (asset : Option Address) (treasury : Address) (amount : ℤ) : Invocation Unit :=
  match asset with
  | none => pure ()
  | some token => do
    let self ← asks Env.currentContractAddress
    let accepted ← look fun e s => e.accepts s.transfers ⟨token, none, self, treasury, amount⟩
    require fun _ => accepted
    store fun s => { s with transfers := s.transfers ++ [⟨token, none, self, treasury, amount⟩] }

def withdrawReserveFunds (caller : Address) (asset : Option Address) (amount : ℤ) :
    Invocation ℤ := do
  requireAuth caller
  requireAdmin caller
  failIf (amount ≤ 0) .invalidAmount
  let stored ← view getTreasuryAddress
  let treasury ← okOr stored .treasuryNotSet
  let currentBalance ← view fun s => getReserveBalance s asset
  failIf (currentBalance < amount) .insufficientReserve
  let newBalance ← okOr (I128.checkedSub currentBalance amount) .overflow
  store (withBalance asset newBalance)
  transferOut asset treasury amount
  pure amount

/-! ## The machine -/

/-- A call: of an entry point, or one of the two that are left to the rest of the contract. -/
inductive Op where
  | initializeReserveConfig (asset : Option Address) (reserveFactorBps : ℤ)
  | accrueReserve (asset : Option Address) (interestAmount : ℤ)
  | setReserveFactor (caller : Address) (asset : Option Address) (reserveFactorBps : ℤ)
  | setReserveAmmTarget (caller : Address) (asset : Option Address) (ammContract : Address)
  | recordReserveDeployToAmm (caller : Address) (asset : Option Address)
      (reserveAmount lpTokensReceived : ℤ)
  | setTreasuryAddress (caller treasury : Address)
  | setTreasury (caller treasury : Address)
  | withdrawReserveFunds (caller : Address) (asset : Option Address) (amount : ℤ)
  deriving DecidableEq

/-- A transaction: a call and what it finds around it. -/
structure Tx where
  env : Env
  op : Op

/-- The store after a call that succeeded. -/
def Op.apply (op : Op) (e : Env) (s : Storage) : Option Storage :=
  match op with
  | .initializeReserveConfig asset bps =>
    commit (ReserveFunds.initializeReserveConfig asset bps) e s
  | .accrueReserve asset interest => commit (ReserveFunds.accrueReserve asset interest) e s
  | .setReserveFactor caller asset bps =>
    commit (ReserveFunds.setReserveFactor caller asset bps) e s
  | .setReserveAmmTarget caller asset ammContract =>
    commit (ReserveFunds.setReserveAmmTarget caller asset ammContract) e s
  | .recordReserveDeployToAmm caller asset amount lp =>
    commit (ReserveFunds.recordReserveDeployToAmm caller asset amount lp) e s
  | .setTreasuryAddress caller treasury =>
    commit (ReserveFunds.setTreasuryAddress caller treasury) e s
  | .setTreasury caller treasury => commit (ReserveFunds.setTreasury caller treasury) e s
  | .withdrawReserveFunds caller asset amount =>
    commit (ReserveFunds.withdrawReserveFunds caller asset amount) e s

/-- The store after a transaction that succeeded. -/
def step (tx : Tx) (s : Storage) : Option Storage := tx.op.apply tx.env s

/-- **The state of the contract after a sequence of transactions on a fresh deployment.** -/
def ledger (txs : List Tx) : Storage := run step Storage.empty txs

/-! ## What a call does -/

variable {e : Env} {s s' : Storage} {tx : Tx} {op : Op} {txs : List Tx} {asset a : Option Address}
  {amount interest bps : ℤ}

@[simp] theorem getReserveBalance_withBalance :
    getReserveBalance (withBalance a amount s) asset =
      if asset = a then amount else getReserveBalance s asset := by
  by_cases h : asset = a <;> simp [getReserveBalance, withBalance, h]

@[simp] theorem getReserveFactor_withFactor :
    getReserveFactor (withFactor a bps s) asset =
      if asset = a then bps else getReserveFactor s asset := by
  by_cases h : asset = a <;> simp [getReserveFactor, withFactor, h]

@[simp] theorem getReserveAmmLpBalance_withLpBalance :
    getReserveAmmLpBalance (withLpBalance a amount s) asset =
      if asset = a then amount else getReserveAmmLpBalance s asset := by
  by_cases h : asset = a <;> simp [getReserveAmmLpBalance, withLpBalance, h]

@[simp] theorem getReserveBalance_withFactor :
    getReserveBalance (withFactor a bps s) asset = getReserveBalance s asset := rfl

@[simp] theorem getReserveBalance_withLpBalance :
    getReserveBalance (withLpBalance a amount s) asset = getReserveBalance s asset := rfl

@[simp] theorem getReserveAmmLpBalance_withBalance :
    getReserveAmmLpBalance (withBalance a amount s) asset = getReserveAmmLpBalance s asset := rfl

@[simp] theorem requireAdmin_ok {caller : Address} {u : Unit} :
    requireAdmin caller e s = .ok u s' ↔ e.admin = some caller ∧ s = s' := by
  simp [requireAdmin]

/-- The part of the reserve in an interest that is paid. -/
def share (s : Storage) (asset : Option Address) (interest : ℤ) : ℤ :=
  (interest * getReserveFactor s asset).tdiv BASIS_POINTS_SCALE

/-- The movement that a withdrawal asks for. -/
def payment (e : Env) (asset : Option Address) (treasury : Address) (amount : ℤ) : List Transfer :=
  match asset with
  | none => []
  | some token => [⟨token, none, e.currentContractAddress, treasury, amount⟩]

theorem transferOut_ok {treasury : Address} {u : Unit}
    (h : transferOut asset treasury amount e s = .ok u s') :
    s' = { s with transfers := s.transfers ++ payment e asset treasury amount } := by
  cases asset with
  | none =>
    obtain ⟨-, rfl⟩ := pure_ok.mp h
    rw [payment, List.append_nil]
  | some token =>
    simp only [transferOut, asks_seq, look_seq, require_seq, store_ok] at h
    exact h.2.symm

/-- What becomes of the store. -/
inductive Change (e : Env) (s : Storage) : Op → Storage → Prop
  | initialized (a : Option Address) {bps : ℤ} (hbps : InBounds bps) :
    Change e s (.initializeReserveConfig a bps) (withBalance a 0 (withFactor a bps s))
  | unpaid (a : Option Address) {interest : ℤ} (hinterest : interest ≤ 0) :
    Change e s (.accrueReserve a interest) s
  | accrued (a : Option Address) {interest : ℤ} (hinterest : 0 < interest) :
    Change e s (.accrueReserve a interest)
      (withBalance a (getReserveBalance s a + share s a interest) s)
  | factor (caller : Address) (a : Option Address) {bps : ℤ} (hbps : InBounds bps) :
    Change e s (.setReserveFactor caller a bps) (withFactor a bps s)
  | target (caller : Address) (a : Option Address) (ammContract : Address) :
    Change e s (.setReserveAmmTarget caller a ammContract)
      { s with reserveAmmTarget := update s.reserveAmmTarget a (some ammContract) }
  | treasuryAddress (caller treasury : Address) :
    Change e s (.setTreasuryAddress caller treasury) { s with treasuryAddress := some treasury }
  | treasury (caller treasury : Address) :
    Change e s (.setTreasury caller treasury) { s with treasuryAddress := some treasury }
  | deployed (caller : Address) (a : Option Address) {amount lp : ℤ} (hamount : 0 < amount)
    (hlp : 0 < lp) (hle : amount ≤ getReserveBalance s a) :
    Change e s (.recordReserveDeployToAmm caller a amount lp)
      (withLpBalance a (getReserveAmmLpBalance s a + lp)
        (withBalance a (getReserveBalance s a - amount) s))
  | withdrawn (caller : Address) (a : Option Address) {treasury : Address} {amount : ℤ}
    (htreasury : s.treasuryAddress = some treasury) (hamount : 0 < amount)
    (hle : amount ≤ getReserveBalance s a) :
    Change e s (.withdrawReserveFunds caller a amount)
      { withBalance a (getReserveBalance s a - amount) s with
        transfers := s.transfers ++ payment e a treasury amount }

theorem accrueReserve_ok {r : ℤ × ℤ} (h : accrueReserve a interest e s = .ok r s') :
    Change e s (.accrueReserve a interest) s' := by
  unfold accrueReserve at h
  split at h
  next hinterest =>
    obtain ⟨-, rfl⟩ := pure_ok.mp h
    exact .unpaid a hinterest
  next hinterest =>
    simp only [view_seq, okOr_seq, store_seq, pure_ok, Option.bind_eq_some_iff,
      I128.checkedAdd_eq_some, I128.checkedSub_eq_some, I128.checkedMul_eq_some,
      I128.checkedDiv_eq_some, and_assoc, exists_and_left, exists_eq_left'] at h
    obtain ⟨-, -, -, -, -, -, rfl⟩ := h
    exact .accrued a (by omega)

theorem recordReserveDeployToAmm_ok {caller : Address} {lp : ℤ} {u : Unit}
    (h : recordReserveDeployToAmm caller a amount lp e s = .ok u s') :
    Change e s (.recordReserveDeployToAmm caller a amount lp) s' := by
  simp only [recordReserveDeployToAmm, bind_ok, requireAuth_ok, requireAdmin_ok, ↓failIf_seq,
    ↓view_seq, ↓orTrap_seq, ↓okOr_seq, ↓store_seq, store_ok, I128.checkedAdd_eq_some,
    I128.checkedSub_eq_some, not_or, not_lt, not_le, and_assoc, exists_and_left, exists_eq_left',
    exists_const] at h
  obtain ⟨-, -, hamount, hlp, hle, -, -, rfl⟩ := h
  exact .deployed caller a hamount hlp hle

theorem withdrawReserveFunds_ok {caller : Address} {r : ℤ}
    (h : withdrawReserveFunds caller a amount e s = .ok r s') :
    Change e s (.withdrawReserveFunds caller a amount) s' := by
  simp only [withdrawReserveFunds, bind_ok, requireAuth_ok, requireAdmin_ok, ↓failIf_seq, ↓view_seq,
    ↓okOr_seq, ↓store_seq, pure_ok, I128.checkedSub_eq_some, not_lt, not_le, and_assoc,
    exists_and_left, exists_eq_left', exists_const] at h
  obtain ⟨-, -, hamount, treasury, htreasury, hle, -, _, t, hsent, -, rfl⟩ := h
  rw [transferOut_ok hsent]
  exact .withdrawn caller a htreasury hamount hle

/-- **Every call makes one of these changes.** -/
theorem step_change (h : step tx s = some s') : Change tx.env s tx.op s' := by
  obtain ⟨e, op⟩ := tx
  cases op
  all_goals
    simp only [step, Op.apply, commit_eq_some] at h
    obtain ⟨r, h⟩ := h
  case initializeReserveConfig =>
    simp only [initializeReserveConfig, failIf_seq, store_seq, store_ok, not_not] at h
    obtain ⟨hbps, rfl⟩ := h
    exact .initialized _ hbps
  case accrueReserve => exact accrueReserve_ok h
  case setReserveFactor =>
    simp only [setReserveFactor, bind_ok, requireAuth_ok, requireAdmin_ok, ↓failIf_seq, store_ok,
      not_not, and_assoc, exists_and_left, exists_eq_left', exists_const] at h
    obtain ⟨-, -, hbps, rfl⟩ := h
    exact .factor _ _ hbps
  case setReserveAmmTarget =>
    simp only [setReserveAmmTarget, bind_ok, requireAuth_ok, requireAdmin_ok, store_ok, and_assoc,
      exists_and_left, exists_eq_left', exists_const] at h
    obtain ⟨-, -, rfl⟩ := h
    exact .target ..
  case recordReserveDeployToAmm => exact recordReserveDeployToAmm_ok h
  case setTreasuryAddress =>
    simp only [setTreasuryAddress, bind_ok, requireAuth_ok, requireAdmin_ok, ↓asks_seq, ↓failIf_seq,
      store_ok, and_assoc, exists_and_left, exists_eq_left', exists_const] at h
    obtain ⟨-, -, -, rfl⟩ := h
    exact .treasuryAddress ..
  case setTreasury =>
    simp only [setTreasury, bind_ok, requireAuth_ok, requireAdmin_ok, store_ok, and_assoc,
      exists_and_left, exists_eq_left', exists_const] at h
    obtain ⟨-, -, rfl⟩ := h
    exact .treasury ..
  case withdrawReserveFunds => exact withdrawReserveFunds_ok h

/-! ## The books of an asset -/

/-- What is entered in the books of an asset. -/
inductive Entry where
  | interest
  | accrued
  | withdrawn
  | deployed
  | received
  | writtenOff
  | paid (treasury : Address)
  deriving DecidableEq

/-- What a call enters in the books of an asset. -/
def entries (asset : Option Address) (s : Storage) (tx : Tx) : Entry → ℤ :=
  match tx.op with
  | .initializeReserveConfig a _ =>
    if a = asset then fun
      | .writtenOff => getReserveBalance s a
      | _ => 0
    else 0
  | .accrueReserve a interest =>
    if a = asset then fun
      | .interest => max interest 0
      | .accrued => if 0 < interest then share s a interest else 0
      | _ => 0
    else 0
  | .recordReserveDeployToAmm _ a amount lp =>
    if a = asset then fun
      | .deployed => amount
      | .received => lp
      | _ => 0
    else 0
  | .withdrawReserveFunds _ a amount =>
    if a = asset then fun
      | .withdrawn => amount
      | .paid r => if s.treasuryAddress = some r then amount else 0
      | _ => 0
    else 0
  | _ => 0

/-- The books of an asset after a sequence of transactions. -/
def books (txs : List Tx) (asset : Option Address) : Entry → ℤ :=
  tally step (entries asset) Storage.empty txs

/-- The movements of a token. -/
def paymentsIn (s : Storage) (token : Address) : List Transfer :=
  s.transfers.filter fun t => t.token = token

/-- What was paid out in a token. -/
def paidIn (s : Storage) (token : Address) : ℤ := ((paymentsIn s token).map Transfer.amount).sum

/-- What was paid in a token to an address. -/
def paidTo (s : Storage) (token r : Address) : ℤ :=
  (((paymentsIn s token).filter fun t => t.recipient = r).map Transfer.amount).sum

theorem paymentsIn_payment (token : Address) {treasury : Address} {t : Storage}
    (ht : t.transfers = s.transfers ++ payment e a treasury amount) :
    paymentsIn t token = paymentsIn s token ++
      if a = some token then payment e a treasury amount else [] := by
  rw [paymentsIn, ht, List.filter_append, ← paymentsIn]
  cases a with
  | none => simp [payment]
  | some token' => by_cases h : token' = token <;> simp [payment, h]

/-- A payment of the token adds to what was paid in it, and to what the treasury was paid. -/
theorem paid_payment {token treasury : Address} {t : Storage}
    (ht : t.transfers = s.transfers ++ payment e (some token) treasury amount) :
    paidIn t token = paidIn s token + amount ∧ ∀ r, paidTo t token r =
      paidTo s token r + if some treasury = some r then amount else 0 := by
  have hpayments := paymentsIn_payment token ht
  rw [if_pos rfl] at hpayments
  refine ⟨by simp [paidIn, hpayments, payment], fun r => ?_⟩
  by_cases hr : treasury = r <;> simp [paidTo, hpayments, payment, hr]

/-- **The balance is what was credited, less what was taken out or written off.**  At most half of
the interest is credited.  What withdrawals take out of a token's reserve is paid in the token, to
whoever is the treasury at the time. -/
structure Kept (asset : Option Address) (m : Entry → ℤ) (s : Storage) : Prop where
  balance : getReserveBalance s asset =
    m .accrued - (m .withdrawn + m .deployed + m .writtenOff)
  covered : 0 ≤ getReserveBalance s asset
  withdrawn : 0 ≤ m .withdrawn
  deployed : 0 ≤ m .deployed
  writtenOff : 0 ≤ m .writtenOff
  half : 2 * m .accrued ≤ m .interest
  pools : getReserveAmmLpBalance s asset = m .received
  total : ∀ token, asset = some token → paidIn s token = m .withdrawn
  paid : ∀ token r, asset = some token → paidTo s token r = m (.paid r)
  factor : InBounds (getReserveFactor s asset)

theorem Kept.empty : Kept asset 0 Storage.empty where
  balance := rfl
  covered := le_rfl
  withdrawn := le_rfl
  deployed := le_rfl
  writtenOff := le_rfl
  half := le_rfl
  pools := rfl
  total _ _ := rfl
  paid _ _ _ := rfl
  factor := (by decide : InBounds DEFAULT_RESERVE_FACTOR_BPS)

/-- The share is no more than half. -/
theorem share_bounds (h : InBounds (getReserveFactor s asset)) (hinterest : 0 < interest) :
    0 ≤ share s asset interest ∧ 2 * share s asset interest ≤ interest := by
  have hlow : 0 ≤ interest * getReserveFactor s asset := mul_nonneg hinterest.le h.1
  have hhigh : interest * getReserveFactor s asset ≤ interest * 5000 :=
    mul_le_mul_of_nonneg_left h.2 hinterest.le
  rw [share, BASIS_POINTS_SCALE, Int.tdiv_eq_ediv_of_nonneg hlow]
  omega

/-- What is entered in the books of an asset is what becomes of its records. -/
structure Posted (asset : Option Address) (s : Storage) (f : Entry → ℤ) (s' : Storage) : Prop where
  balance : getReserveBalance s' asset =
    getReserveBalance s asset + f .accrued - (f .withdrawn + f .deployed + f .writtenOff)
  covered : 0 ≤ getReserveBalance s' asset
  withdrawn : 0 ≤ f .withdrawn
  deployed : 0 ≤ f .deployed
  writtenOff : 0 ≤ f .writtenOff
  half : 2 * f .accrued ≤ f .interest
  pools : getReserveAmmLpBalance s' asset = getReserveAmmLpBalance s asset + f .received
  total : ∀ token, asset = some token → paidIn s' token = paidIn s token + f .withdrawn
  paid : ∀ token r, asset = some token → paidTo s' token r = paidTo s token r + f (.paid r)
  factor : InBounds (getReserveFactor s' asset)

theorem Kept.posted {m f : Entry → ℤ} (h : Kept asset m s) (hposted : Posted asset s f s') :
    Kept asset (m + f) s' where
  balance := by
    rw [hposted.balance, h.balance]
    simp only [Pi.add_apply]
    omega
  covered := hposted.covered
  withdrawn := add_nonneg h.withdrawn hposted.withdrawn
  deployed := add_nonneg h.deployed hposted.deployed
  writtenOff := add_nonneg h.writtenOff hposted.writtenOff
  half := (mul_add ..).trans_le (add_le_add h.half hposted.half)
  pools := hposted.pools.trans (congrArg (· + f .received) h.pools)
  total token htoken := (hposted.total token htoken).trans
    (congrArg (· + f .withdrawn) (h.total token htoken))
  paid token r htoken := (hposted.paid token r htoken).trans
    (congrArg (· + f (.paid r)) (h.paid token r htoken))
  factor := hposted.factor

/-- Nothing is entered where the records of the asset stay as they are. -/
theorem Posted.zero (hcovered : 0 ≤ getReserveBalance s asset)
    (hbalance : getReserveBalance s' asset = getReserveBalance s asset)
    (hpools : getReserveAmmLpBalance s' asset = getReserveAmmLpBalance s asset)
    (hpayments : ∀ token, asset = some token → paymentsIn s' token = paymentsIn s token)
    (hfactor : InBounds (getReserveFactor s' asset)) : Posted asset s 0 s' where
  balance := by simp [hbalance]
  covered := hbalance.symm ▸ hcovered
  withdrawn := le_rfl
  deployed := le_rfl
  writtenOff := le_rfl
  half := le_rfl
  pools := by simp [hpools]
  total token htoken := by simp [paidIn, hpayments token htoken]
  paid token r htoken := by simp [paidTo, hpayments token htoken]
  factor := hfactor

/-- The factor of one asset is set. -/
theorem inBounds_withFactor (hbps : InBounds bps) (hfactor : InBounds (getReserveFactor s asset)) :
    InBounds (getReserveFactor (withFactor a bps s) asset) := by
  rw [getReserveFactor_withFactor]
  split
  · exact hbps
  · exact hfactor

theorem Change.posted (h : Change e s op s') (hcovered : 0 ≤ getReserveBalance s asset)
    (hfactor : InBounds (getReserveFactor s asset)) :
    Posted asset s (entries asset s ⟨e, op⟩) s' := by
  cases h with
  | @initialized a bps hbps =>
    have hset := inBounds_withFactor (a := a) hbps hfactor
    by_cases ha : a = asset
    · subst ha
      have hentries : entries a s ⟨e, .initializeReserveConfig a bps⟩ = fun
        | .writtenOff => getReserveBalance s a
        | _ => 0 := if_pos rfl
      rw [hentries]
      exact ⟨by simp, by simp, le_rfl, le_rfl, hcovered, le_rfl, (add_zero _).symm,
        fun _ _ => (add_zero _).symm, fun _ _ _ => (add_zero _).symm, hset⟩
    · have hentries : entries asset s ⟨e, .initializeReserveConfig a bps⟩ = 0 := if_neg ha
      rw [hentries]
      exact .zero hcovered (by simp [Ne.symm ha]) rfl (fun _ _ => rfl) hset
  | @unpaid a interest hinterest =>
    have hentries : entries asset s ⟨e, .accrueReserve a interest⟩ = 0 := by
      refine ite_eq_right_iff.mpr fun _ => funext fun x => ?_
      cases x with
      | interest => exact max_eq_right hinterest
      | accrued => exact if_neg (not_lt.mpr hinterest)
      | _ => rfl
    rw [hentries]
    exact .zero hcovered rfl rfl (fun _ _ => rfl) hfactor
  | @accrued a interest hinterest =>
    by_cases ha : a = asset
    · subst ha
      obtain ⟨hshare, hhalf⟩ := share_bounds hfactor hinterest
      have hentries : entries a s ⟨e, .accrueReserve a interest⟩ = fun
        | .interest => max interest 0
        | .accrued => if 0 < interest then share s a interest else 0
        | _ => 0 := if_pos rfl
      rw [hentries]
      refine ⟨by simp [hinterest], ?_, le_rfl, le_rfl, le_rfl, ?_, (add_zero _).symm,
        fun _ _ => (add_zero _).symm, fun _ _ _ => (add_zero _).symm, hfactor⟩
      · rw [getReserveBalance_withBalance, if_pos rfl]
        exact add_nonneg hcovered hshare
      · change 2 * (if 0 < interest then share s a interest else 0) ≤ max interest 0
        rw [if_pos hinterest]
        exact hhalf.trans (le_max_left ..)
    · have hentries : entries asset s ⟨e, .accrueReserve a interest⟩ = 0 := if_neg ha
      rw [hentries]
      exact .zero hcovered (by simp [Ne.symm ha]) rfl (fun _ _ => rfl) hfactor
  | factor caller a hbps =>
    exact .zero hcovered rfl rfl (fun _ _ => rfl) (inBounds_withFactor hbps hfactor)
  | target => exact .zero hcovered rfl rfl (fun _ _ => rfl) hfactor
  | treasuryAddress => exact .zero hcovered rfl rfl (fun _ _ => rfl) hfactor
  | treasury => exact .zero hcovered rfl rfl (fun _ _ => rfl) hfactor
  | @deployed caller a amount lp hamount hlp hle =>
    by_cases ha : a = asset
    · subst ha
      have hentries : entries a s ⟨e, .recordReserveDeployToAmm caller a amount lp⟩ = fun
        | .deployed => amount
        | .received => lp
        | _ => 0 := if_pos rfl
      rw [hentries]
      exact ⟨by simp, by simpa using hle, le_rfl, hamount.le, le_rfl, le_rfl, by simp,
        fun _ _ => (add_zero _).symm, fun _ _ _ => (add_zero _).symm, hfactor⟩
    · have hentries : entries asset s ⟨e, .recordReserveDeployToAmm caller a amount lp⟩ = 0 :=
        if_neg ha
      rw [hentries]
      exact .zero hcovered (by simp [Ne.symm ha]) (by simp [Ne.symm ha]) (fun _ _ => rfl) hfactor
  | @withdrawn caller a treasury amount htreasury hamount hle =>
    generalize ht : ({ withBalance a (getReserveBalance s a - amount) s with
      transfers := s.transfers ++ payment e a treasury amount } : Storage) = t
    have htransfers : t.transfers = s.transfers ++ payment e a treasury amount := by rw [← ht]
    have hbalance : getReserveBalance t asset =
        getReserveBalance (withBalance a (getReserveBalance s a - amount) s) asset := by
      rw [← ht]
      rfl
    by_cases ha : a = asset
    · subst ha
      have hentries : entries a s ⟨e, .withdrawReserveFunds caller a amount⟩ = fun
        | .withdrawn => amount
        | .paid r => if s.treasuryAddress = some r then amount else 0
        | _ => 0 := if_pos rfl
      rw [hentries]
      refine ⟨by simp [hbalance], by simpa [hbalance] using hle, hamount.le, le_rfl, le_rfl, le_rfl,
        by rw [← ht]; exact (add_zero _).symm, fun token htoken => ?_, fun token r htoken => ?_,
        by rw [← ht]; exact hfactor⟩
      · rw [htoken] at htransfers
        exact (paid_payment htransfers).1
      · rw [htoken] at htransfers
        dsimp only
        rw [htreasury]
        exact (paid_payment htransfers).2 r
    · have hentries : entries asset s ⟨e, .withdrawReserveFunds caller a amount⟩ = 0 := if_neg ha
      rw [hentries]
      refine .zero hcovered (by simp [hbalance, Ne.symm ha]) (by rw [← ht]; rfl)
        (fun token htoken => ?_) (by rw [← ht]; exact hfactor)
      rw [paymentsIn_payment token htransfers, if_neg fun heq => ha (heq.trans htoken.symm),
        List.append_nil]

/-- **The books of an asset are kept along every run.** -/
theorem reserve_kept (txs : List Tx) (asset : Option Address) :
    Kept asset (books txs asset) (ledger txs) := by
  have hmeets : Meets step (fun _ _ => True) Storage.empty txs := meets_of_forall (by simp)
  have hkept := hmeets.tally_invariant (f := entries asset) (I := Kept asset) (m := 0)
    (fun m s tx s' hs _ h => h.posted ((step_change hs).posted h.covered h.factor)) .empty
  rwa [zero_add] at hkept

/-! ## The entry points alone -/

/-- Calls that no entry point makes. -/
def Op.Internal : Op → Prop
  | .initializeReserveConfig .. | .accrueReserve .. => True
  | _ => False

/-- Calls that take something out of a reserve. -/
def Op.TakesOut : Op → Prop
  | .recordReserveDeployToAmm .. | .withdrawReserveFunds .. => True
  | _ => False

/-- Nothing comes into a reserve from an entry point. -/
theorem Change.balance_le (h : Change e s op s') (hop : ¬ op.Internal) (asset : Option Address) :
    getReserveBalance s' asset ≤ getReserveBalance s asset := by
  cases h with
  | initialized => exact absurd trivial hop
  | unpaid => exact le_rfl
  | accrued => exact absurd trivial hop
  | factor => exact le_rfl
  | target => exact le_rfl
  | treasuryAddress => exact le_rfl
  | treasury => exact le_rfl
  | @deployed caller a amount lp hamount =>
    rw [getReserveBalance_withLpBalance, getReserveBalance_withBalance]
    split_ifs with ha
    · exact ha ▸ sub_le_self _ hamount.le
    · exact le_rfl
  | @withdrawn caller a treasury amount htreasury hamount =>
    change getReserveBalance (withBalance a _ s) asset ≤ _
    rw [getReserveBalance_withBalance]
    split_ifs with ha
    · exact ha ▸ sub_le_self _ hamount.le
    · exact le_rfl

/-- **Where only the entry points are called nothing is taken out.** -/
theorem pays_nothing (h : ∀ tx ∈ txs, ¬ tx.op.Internal) (hop : tx.op.TakesOut) :
    step tx (ledger txs) = none := by
  have hmeets : Meets step (fun _ tx => ¬ tx.op.Internal) Storage.empty txs :=
    meets_of_forall fun x hx _ => h x hx
  have hempty : ∀ asset, getReserveBalance (ledger txs) asset ≤ 0 := by
    refine hmeets.invariant (I := fun s => ∀ asset, getReserveBalance s asset ≤ 0)
      (fun s x s' hs hx hle asset => ?_) fun _ => le_rfl
    exact ((step_change hs).balance_le hx asset).trans (hle asset)
  rw [Option.eq_none_iff_forall_ne_some]
  intro s' hs
  obtain ⟨e, op⟩ := tx
  cases step_change hs with
  | @deployed caller a amount lp hamount hlp hle =>
    exact absurd (hle.trans (hempty a)) hamount.not_ge
  | @withdrawn caller a treasury amount htreasury hamount hle =>
    exact absurd (hle.trans (hempty a)) hamount.not_ge
  | _ => cases hop

namespace Sample

def admin : Address := ⟨1⟩
def treasury : Address := ⟨2⟩

/-- The admin signed. -/
def env : Env := ⟨[admin], some admin, ⟨3⟩, fun _ _ => true⟩

/-- The admin sets what a withdrawal needs. -/
def configured : List Tx :=
  [⟨env, .setReserveFactor admin none 5000⟩, ⟨env, .setTreasuryAddress admin treasury⟩]

end Sample

theorem pays_nothing_configured :
    step ⟨Sample.env, .withdrawReserveFunds Sample.admin none 1⟩ (ledger Sample.configured) =
      none := by
  refine pays_nothing (fun tx htx => ?_) trivial
  obtain rfl | rfl : tx = _ ∨ tx = _ := by simpa [Sample.configured] using htx
  all_goals exact not_false

end StellarLend.ReserveFunds
