import StellarLend.HelloWorld.InterestRate

/-!
# HelloWorld/Stats — analytics, activity log, credit score

What an operation records about itself once it has moved the position.  The five operations read
and write the same two analytics records, each with its own change; `touchUserAnalytics` and
`touchProtocolAnalytics` are what they share.
-/

namespace StellarLend.HelloWorld

open Foundations Call
open Lending (Address)

/-! ## Analytics -/

/-- A user nothing is recorded about. -/
def UserAnalytics.new (now : ℕ) : UserAnalytics := ⟨0, 0, 0, 0, 0, 0, 0, 0, 0, now, now, 0, 0⟩

/-- The store with other analytics of a user. -/
def withUserAnalytics (user : Address) (analytics : UserAnalytics) (s : Storage) : Storage :=
  { s with stats := { s.stats with
      userAnalytics := Function.update s.stats.userAnalytics user (some analytics) } }

/-- The store with other protocol analytics. -/
def withProtocolAnalytics (analytics : ProtocolAnalytics) (s : Storage) : Storage :=
  { s with stats := { s.stats with protocolAnalytics := some analytics } }

/-- Change a user's analytics and count the transaction. -/
def touchUserAnalytics {ε : Type} (user : Address)
    (change : UserAnalytics → Except ε UserAnalytics) : Invocation ε Unit := do
  let now ← asks Env.timestamp
  let analytics ← view fun s => (s.stats.userAnalytics user).getD (.new now)
  let analytics ← ofExcept (change analytics)
  store (withUserAnalytics user
    { analytics with
      transactionCount := U64.saturatingAdd analytics.transactionCount 1, lastActivity := now })

/-- Change the protocol analytics. -/
def touchProtocolAnalytics {ε : Type} (change : ProtocolAnalytics → Except ε ProtocolAnalytics) :
    Invocation ε Unit := do
  let analytics ← view getProtocolAnalytics
  let analytics ← ofExcept (change analytics)
  store (withProtocolAnalytics analytics)

/-- A difference that falls back to nothing when it overflows. -/
def subOrZero (a b : ℤ) : ℤ := (I128.checkedSub a b).getD 0

/-- `collateral * 10000 / debt`, or nothing when it overflows. -/
def ratioOrZero (collateral debt : ℤ) : ℤ :=
  ((I128.checkedMul collateral 10000).bind fun scaled => I128.checkedDiv scaled debt).getD 0

/-- Borrow, repay and liquidate record no ratio without both sides. -/
def withRatio (analytics : UserAnalytics) : UserAnalytics :=
  { analytics with
    collateralizationRatio :=
      if 0 < analytics.debtValue ∧ 0 < analytics.collateralValue then
        ratioOrZero analytics.collateralValue analytics.debtValue
      else 0 }

def depositedAnalytics {ε : Type} (overflow : ε) (amount : ℤ) (analytics : UserAnalytics) :
    Except ε UserAnalytics := do
  let totalDeposits ← orErr (I128.checkedAdd analytics.totalDeposits amount) overflow
  let collateralValue ← orErr (I128.checkedAdd analytics.collateralValue amount) overflow
  .ok { analytics with totalDeposits, collateralValue }

/-- A withdrawal records a ratio also when no collateral is left. -/
def withdrawnAnalytics {ε : Type} (overflow : ε) (amount : ℤ) (analytics : UserAnalytics) :
    Except ε UserAnalytics := do
  let totalWithdrawals ← orErr (I128.checkedAdd analytics.totalWithdrawals amount) overflow
  let collateralValue := subOrZero analytics.collateralValue amount
  .ok { analytics with
    totalWithdrawals, collateralValue
    collateralizationRatio :=
      if 0 < analytics.debtValue then ratioOrZero collateralValue analytics.debtValue else 0 }

def borrowedAnalytics {ε : Type} (overflow : ε) (amount : ℤ) (analytics : UserAnalytics) :
    Except ε UserAnalytics := do
  let totalBorrows ← orErr (I128.checkedAdd analytics.totalBorrows amount) overflow
  let debtValue ← orErr (I128.checkedAdd analytics.debtValue amount) overflow
  .ok (withRatio { analytics with totalBorrows, debtValue })

def repaidAnalytics {ε : Type} (overflow : ε) (amount : ℤ) (analytics : UserAnalytics) :
    Except ε UserAnalytics := do
  let totalRepayments ← orErr (I128.checkedAdd analytics.totalRepayments amount) overflow
  .ok (withRatio
    { analytics with totalRepayments, debtValue := subOrZero analytics.debtValue amount })

def liquidatedAnalytics {ε : Type} (debtLiquidated collateralSeized : ℤ)
    (analytics : UserAnalytics) : Except ε UserAnalytics :=
  .ok (withRatio
    { analytics with
      debtValue := subOrZero analytics.debtValue debtLiquidated
      collateralValue := subOrZero analytics.collateralValue collateralSeized })

def depositedTotals {ε : Type} (overflow : ε) (amount : ℤ) (totals : ProtocolAnalytics) :
    Except ε ProtocolAnalytics := do
  let totalDeposits ← orErr (I128.checkedAdd totals.totalDeposits amount) overflow
  let totalValueLocked ← orErr (I128.checkedAdd totals.totalValueLocked amount) overflow
  .ok { totals with totalDeposits, totalValueLocked }

/-- What a withdrawal and a liquidation take out of the value locked. -/
def unlockedTotals {ε : Type} (amount : ℤ) (totals : ProtocolAnalytics) :
    Except ε ProtocolAnalytics :=
  .ok { totals with totalValueLocked := subOrZero totals.totalValueLocked amount }

def borrowedTotals {ε : Type} (overflow : ε) (amount : ℤ) (totals : ProtocolAnalytics) :
    Except ε ProtocolAnalytics := do
  let totalBorrows ← orErr (I128.checkedAdd totals.totalBorrows amount) overflow
  .ok { totals with totalBorrows }

def repaidTotals {ε : Type} (amount : ℤ) (totals : ProtocolAnalytics) :
    Except ε ProtocolAnalytics :=
  .ok { totals with totalBorrows := subOrZero totals.totalBorrows amount }

/-! ## Activity log -/

/-- The last thousand activities are kept. -/
def addActivityLog {ε : Type} (user : Address) (activityType : String) (amount : ℤ)
    (asset : Option Address) : Invocation ε Unit := do
  let now ← asks Env.timestamp
  let log ← view fun s => s.stats.activityLog.getD [] ++ [⟨user, activityType, amount, asset, now⟩]
  store fun s => { s with stats := { s.stats with
    activityLog := some (if 1000 < log.length then log.tail else log) } }

/-! ## Credit score -/

def MIN_CREDIT_SCORE : ℤ := 0
def MAX_CREDIT_SCORE : ℤ := 1000
def DEFAULT_CREDIT_SCORE : ℤ := 500
def ON_TIME_REPAYMENT_BONUS : ℤ := 10
def LATE_REPAYMENT_PENALTY : ℤ := 50
def LIQUIDATION_PENALTY : ℤ := 100

/-- The store with another credit score of a user. -/
def withCreditScore (user : Address) (score : CreditScore) (s : Storage) : Storage :=
  { s with stats := { s.stats with
      creditScore := Function.update s.stats.creditScore user (some score) } }

/-- A user's credit score before anything is recorded. -/
def CreditScore.new (user : Address) (now : ℕ) : CreditScore :=
  ⟨user, DEFAULT_CREDIT_SCORE, 0, 0, 0, 0, 0, now, [⟨DEFAULT_CREDIT_SCORE, now, .newUser⟩]⟩

def initializeCreditScore (user : Address) : Invocation LendingError Unit := do
  let score ← view fun s => s.stats.creditScore user
  let now ← asks Env.timestamp
  onlyIf (score = none) (store (withCreditScore user (.new user now)))

def getCreditScore (user : Address) : Invocation LendingError CreditScore := do
  let score ← view fun s => s.stats.creditScore user
  okOr score .notFound

/-- An unsigned 32-bit counter; it traps at its end. -/
def countUp {ε : Type} (n : ℕ) : Invocation ε ℕ :=
  orTrap (if n + 1 ≤ 2 ^ 32 - 1 then some (n + 1) else none)

/-- The score moved within its bounds, and the move remembered. -/
def CreditScore.moved (score : CreditScore) (change : ℤ) (now : ℕ)
    (reason : CreditScoreChangeReason) : CreditScore :=
  let next := min (max (score.score + change) MIN_CREDIT_SCORE) MAX_CREDIT_SCORE
  { score with
    score := next, lastUpdated := now, history := score.history ++ [⟨next, now, reason⟩] }

def updateScoreOnRepayment (user : Address) (amount : ℤ) (isOnTime : Bool) :
    Invocation LendingError Unit := do
  initializeCreditScore user
  let score ← getCreditScore user
  let now ← asks Env.timestamp
  let totalRepaid ← orTrap (I128.checkedAdd score.totalRepaid amount)
  if isOnTime then do
    let onTimeRepayments ← countUp score.onTimeRepayments
    store (withCreditScore user
      (CreditScore.moved { score with totalRepaid, onTimeRepayments } ON_TIME_REPAYMENT_BONUS now
        .onTimeRepayment))
  else do
    let lateRepayments ← countUp score.lateRepayments
    store (withCreditScore user
      (CreditScore.moved { score with totalRepaid, lateRepayments } (-LATE_REPAYMENT_PENALTY) now
        .lateRepayment))

/-- The source bounds this move from below only; a penalty cannot pass the upper bound. -/
def updateScoreOnLiquidation (user : Address) : Invocation LendingError Unit := do
  initializeCreditScore user
  let score ← getCreditScore user
  let now ← asks Env.timestamp
  let liquidations ← countUp score.liquidations
  let next := max (score.score - LIQUIDATION_PENALTY) MIN_CREDIT_SCORE
  store (withCreditScore user
    { score with
      liquidations, score := next, lastUpdated := now
      history := score.history ++ [⟨next, now, .liquidation⟩] })

def recordBorrow (user : Address) (amount : ℤ) : Invocation LendingError Unit := do
  initializeCreditScore user
  let score ← getCreditScore user
  let totalBorrowed ← orTrap (I128.checkedAdd score.totalBorrowed amount)
  store (withCreditScore user { score with totalBorrowed })

end StellarLend.HelloWorld
