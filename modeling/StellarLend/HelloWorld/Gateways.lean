import StellarLend.HelloWorld.Liquidate

/-!
# HelloWorld/Gateways — rate limits, intents, commit and reveal

What stands between an entry point and the operation it delegates to.  Only two of the three
gateways ask the owner of the funds for anything: an intent asks for the typed payload, a reveal for
the owner's signature.
-/

namespace StellarLend.HelloWorld

open Foundations Call
open Lending (Address)

/-! ## Rate limiter -/

inductive RateLimitError where
  | rateLimited
  | invalidConfig
  | unauthorized
  | overflow
  deriving DecidableEq, Repr

def TOKEN_SCALE : ℤ := 1000000

/-- The source's `rate_limiter::default_config`. -/
def RateLimitConfig.default (op : String) : RateLimitConfig :=
  if op = "borrow" then ⟨60, 5, 3, 10⟩
  else if op = "liquidate" then ⟨60, 10, 5, 20⟩
  else ⟨60, 30, 10, 0⟩

def getOpConfig (s : Storage) (op : String) : RateLimitConfig :=
  (s.rateLimits.opConfig op).getD (.default op)

def getPoolConfig (s : Storage) (op : String) (pool : Address) : RateLimitConfig :=
  (s.rateLimits.opPoolConfig op pool).getD (getOpConfig s op)

def isGraceEnabled (s : Storage) (user : Address) (op : String) : Bool :=
  (s.rateLimits.userGrace user op).getD false

/-- The three summands are 32-bit, so the sum and the scaled sum are in range. -/
def capacityTokens (cfg : RateLimitConfig) (grace : Bool) : ℤ :=
  (cfg.maxCallsPerWindow + cfg.burstCalls + if grace then cfg.graceBurstCalls else 0) * TOKEN_SCALE

def refillPerSecond (cfg : RateLimitConfig) : Except RateLimitError ℤ :=
  if cfg.windowSeconds = 0 ∨ cfg.maxCallsPerWindow = 0 then .error .invalidConfig
  else do
    let perWindow ← orErr (I128.checkedMul cfg.maxCallsPerWindow TOKEN_SCALE) .overflow
    orErr (I128.checkedDiv perWindow cfg.windowSeconds) .overflow

def refillBucket (now : ℕ) (bucket : BucketState) (cfg : RateLimitConfig) (capTokens : ℤ) :
    Except RateLimitError BucketState :=
  if now ≤ bucket.lastRefill then .ok bucket
  else do
    let rate ← refillPerSecond cfg
    let added ← orErr (I128.checkedMul rate ((now - bucket.lastRefill : ℕ) : ℤ)) .overflow
    let tokens ← orErr (I128.checkedAdd bucket.tokens added) .overflow
    .ok ⟨min tokens capTokens, now⟩

/-- A bucket with one unit taken out.  A bucket that does not exist yet is full. -/
def takeUnit (now : ℕ) (bucket : Option BucketState) (cfg : RateLimitConfig) (capTokens : ℤ) :
    Except RateLimitError BucketState := do
  let bucket ← refillBucket now (bucket.getD ⟨capTokens, now⟩) cfg capTokens
  if bucket.tokens < TOKEN_SCALE then .error .rateLimited
  else do
    let tokens ← orErr (I128.checkedSub bucket.tokens TOKEN_SCALE) .overflow
    .ok { bucket with tokens }

/-- The store with another bucket of a user. -/
def withUserBucket (user : Address) (op : String) (pool : Address) (bucket : BucketState)
    (s : Storage) : Storage :=
  let buckets := s.rateLimits.userBucket
  { s with rateLimits := { s.rateLimits with
      userBucket := Function.update buckets user
        (Function.update (buckets user) op
          (Function.update (buckets user op) pool (some bucket))) } }

/-- The store with another bucket of a pool. -/
def withGlobalBucket (op : String) (pool : Address) (bucket : BucketState) (s : Storage) :
    Storage :=
  let buckets := s.rateLimits.globalBucket
  { s with rateLimits := { s.rateLimits with
      globalBucket := Function.update buckets op
        (Function.update (buckets op) pool (some bucket)) } }

def isBypassed (s : Storage) (caller : Address) : Bool :=
  getAdmin s = some caller || hasRole s "rate_limit_bypass" caller

/-- Take one unit from the user's bucket and one from the pool's. -/
def consume (caller user : Address) (op : String) (pool : Address) :
    Invocation RateLimitError Unit := do
  let bypassed ← view fun s => isBypassed s caller
  if bypassed then pure ()
  else do
    let now ← asks Env.timestamp
    let cfg ← view fun s => getPoolConfig s op pool
    let cap ← view fun s => capacityTokens cfg (isGraceEnabled s user op)
    let bucket ← view fun s => takeUnit now (s.rateLimits.userBucket user op pool) cfg cap
    let bucket ← ofExcept bucket
    store (withUserBucket user op pool bucket)
    let bucket ← view fun s => takeUnit now (s.rateLimits.globalBucket op pool) cfg cap
    let bucket ← ofExcept bucket
    store (withGlobalBucket op pool bucket)

/-- The pool of an asset: the contract itself stands for native assets. -/
def poolOf (e : Env) (asset : Option Address) : Address := asset.getD e.currentContractAddress

/-- `consume` as the entry points call it. -/
def limited (caller user : Address) (op : String) (asset : Option Address) :
    Invocation LendingError Unit := do
  let pool ← asks fun e => poolOf e asset
  mapErr (fun _ => .limitExceeded) (consume caller user op pool)

/-! ## Intents -/

inductive IntentError where
  | badNonce
  | expired
  deriving DecidableEq, Repr

def nextNonce (s : Storage) (user : Address) (op : String) : ℕ := (s.nextNonce user op).getD 0

/-- The store with another next nonce. -/
def withNextNonce (user : Address) (op : String) (nonce : ℕ) (s : Storage) : Storage :=
  { s with
    nextNonce := Function.update s.nextNonce user
      (Function.update (s.nextNonce user) op (some nonce)) }

/-- `user.require_auth_for_args(payload)`. -/
def requireAuthForArgs {ε : Type} (user : Address) (payload : IntentPayload) :
    Invocation ε Unit :=
  Call.require fun e => (user, payload) ∈ e.intentAuths

def requireIntentAuth (user : Address) (op : String) (nonce expiresAt : ℕ) (args : IntentArgs) :
    Invocation IntentError Unit := do
  let now ← asks Env.timestamp
  failIf (expiresAt < now) .expired
  let expected ← view fun s => nextNonce s user op
  failIf (nonce ≠ expected) .badNonce
  let self ← asks Env.currentContractAddress
  requireAuthForArgs user ⟨self, op, nonce, expiresAt, args⟩
  store (withNextNonce user op (U64.saturatingAdd expected 1))

/-! ## Commit and reveal -/

inductive MevProtectionError where
  | invalidConfig
  | commitNotFound
  | commitNotReady
  | commitExpired
  | unauthorized
  | feeCapExceeded
  | invalidAmount
  | invalidOperation
  deriving DecidableEq, Repr

def MevProtectionError.toLendingError : MevProtectionError → LendingError
  | .invalidConfig => .invalidParameter
  | .commitNotFound => .commitNotFound
  | .commitNotReady => .commitNotReady
  | .commitExpired => .commitExpired
  | .unauthorized => .unauthorized
  | .feeCapExceeded => .feeCapExceeded
  | .invalidAmount => .invalidAmount
  | .invalidOperation => .invalidState

def MAX_BPS : ℤ := 10000

/-- The source's `mev_protection::default_config`. -/
def MevProtectionConfig.default : MevProtectionConfig :=
  ⟨30, 300, 45, 2500, 10, 60, 500, true, true⟩

def getMevConfig (s : Storage) : MevProtectionConfig := s.mev.config.getD .default

def operationSymbol : SensitiveOperation → String
  | .borrow => "borrow"
  | .withdraw => "withdraw"
  | .liquidate => "liquidate"

/-- Committed amounts are positive, so neither the difference nor the magnitudes leave the range. -/
def amountsClose (a b thresholdBps : ℤ) : Bool :=
  let largest := max |a| |b|
  largest = 0 || I128.saturatingMul |a - b| MAX_BPS ≤ I128.saturatingMul largest thresholdBps

def previewFeeBps (now : ℕ) (s : Storage) (operation : SensitiveOperation) (asset : Option Address)
    (amount : ℤ) : ℤ :=
  let cfg := getMevConfig s
  let prior := (s.mev.smoothedFee (operationSymbol operation) asset).getD cfg.baseProtectionFeeBps
  let target :=
    match s.mev.latestObservation (operationSymbol operation) asset with
    | some last =>
      if now - last.timestamp ≤ cfg.suspiciousWindowSecs then
        if amountsClose last.amount amount cfg.sandwichThresholdBps then
          I128.saturatingAdd cfg.surgeProtectionFeeBps cfg.baseProtectionFeeBps
        else cfg.surgeProtectionFeeBps
      else cfg.baseProtectionFeeBps
    | none => cfg.baseProtectionFeeBps
  let smoothed := I128.saturatingDiv
    (I128.saturatingAdd
      (I128.saturatingMul prior (I128.saturatingSub MAX_BPS cfg.feeSmoothingBps))
      (I128.saturatingMul target cfg.feeSmoothingBps)) MAX_BPS
  max 0 (min smoothed MAX_BPS)

def nextCommitId {ε : Type} : Invocation ε ℕ := do
  let id ← view fun s => s.mev.nextCommitId.getD 1
  store fun s => { s with mev := { s.mev with nextCommitId := some (U64.saturatingAdd id 1) } }
  pure id

/-- The store with another commit under an id. -/
def withCommit (id : ℕ) (commit : Option PendingCommit) (s : Storage) : Storage :=
  { s with mev := { s.mev with commit := Function.update s.mev.commit id commit } }

def createCommit (owner : Address) (operation : SensitiveOperation)
    (asset secondaryAsset borrower : Option Address) (amount maxFeeBps : ℤ)
    (hint : TxOrderingHint) : Invocation MevProtectionError ℕ := do
  requireAuth owner
  failIf (amount ≤ 0) .invalidAmount
  failIf (¬ (0 ≤ maxFeeBps ∧ maxFeeBps ≤ MAX_BPS)) .invalidConfig
  let cfg ← view getMevConfig
  let id ← nextCommitId
  let now ← asks Env.timestamp
  let ledger ← asks Env.sequence
  store (withCommit id (some
    ⟨id, owner, operation, asset, secondaryAsset, borrower, amount, maxFeeBps, hint, now,
      U64.saturatingAdd now cfg.commitDelaySecs, U64.saturatingAdd now cfg.commitExpirySecs,
      ledger⟩))
  pure id

def loadCommit (id : ℕ) : Invocation MevProtectionError PendingCommit := do
  let commit ← view fun s => s.mev.commit id
  okOr commit .commitNotFound

def cancelCommit (owner : Address) (id : ℕ) : Invocation MevProtectionError Unit := do
  requireAuth owner
  let commit ← loadCommit id
  failIf (commit.owner ≠ owner) .unauthorized
  store (withCommit id none)

def validateReveal (owner : Address) (id : ℕ) (expected : SensitiveOperation) :
    Invocation MevProtectionError PendingCommit := do
  let commit ← loadCommit id
  failIf (commit.owner ≠ owner) .unauthorized
  failIf (commit.operation ≠ expected) .invalidOperation
  let now ← asks Env.timestamp
  failIf (now < commit.revealAfter) .commitNotReady
  failIf (commit.expiresAt < now) .commitExpired
  pure commit

def getOrderingStats (s : Storage) : OrderingStats := s.mev.orderingStats.getD ⟨0, 0, 0, 0⟩

/-- The statistics after an ordering signal, from the last two observations. -/
def signalledStats (cfg : MevProtectionConfig) (now : ℕ) (actor : Address) (amount : ℤ)
    (latest previous : Option OrderingObservation) (stats : OrderingStats) : OrderingStats :=
  let recent (o : OrderingObservation) : Bool := now - o.timestamp ≤ cfg.suspiciousWindowSecs
  let suspicious := latest.any fun last => recent last && last.actor ≠ actor
  let sandwich := latest.any fun last => previous.any fun prev =>
    recent prev && recent last && prev.actor = actor && last.actor ≠ actor &&
      amountsClose prev.amount amount cfg.sandwichThresholdBps
  { stats with
    suspiciousSequences :=
      if suspicious then U64.saturatingAdd stats.suspiciousSequences 1
      else stats.suspiciousSequences
    sandwichAlerts :=
      if sandwich then U64.saturatingAdd stats.sandwichAlerts 1 else stats.sandwichAlerts
    lastAlertTimestamp := if sandwich then now else stats.lastAlertTimestamp }

/-- The store after an ordering signal is recorded. -/
def withOrderingSignal (now : ℕ) (actor : Address) (operation : SensitiveOperation)
    (asset : Option Address) (amount effectiveFeeBps : ℤ) (s : Storage) : Storage :=
  let op := operationSymbol operation
  let latest := s.mev.latestObservation op asset
  let previous := s.mev.previousObservation op asset
  let put {α : Type} (f : String → Option Address → Option α) (a : α) :=
    Function.update f op (Function.update (f op) asset (some a))
  { s with mev := { s.mev with
      orderingStats := some
        { signalledStats (getMevConfig s) now actor amount latest previous (getOrderingStats s) with
          lastEffectiveFeeBps := effectiveFeeBps }
      previousObservation :=
        match latest with
        | some last => put s.mev.previousObservation last
        | none => s.mev.previousObservation
      latestObservation := put s.mev.latestObservation ⟨actor, amount, now⟩
      smoothedFee := put s.mev.smoothedFee effectiveFeeBps } }

/-- A reveal: the commit validated, its fee capped, the signal recorded and the commit removed.  A
liquidation names its borrower before the signal is recorded. -/
def reveal {α : Type} (owner : Address) (id : ℕ) (operation : SensitiveOperation)
    (result : PendingCommit → Option α) : Invocation MevProtectionError α := do
  requireAuth owner
  let commit ← validateReveal owner id operation
  let now ← asks Env.timestamp
  let fee ← view fun s => previewFeeBps now s operation commit.asset commit.amount
  failIf (commit.maxFeeBps < fee) .feeCapExceeded
  let revealed ← okOr (result commit) .invalidOperation
  store (withOrderingSignal now owner operation commit.asset commit.amount fee)
  store (withCommit id none)
  pure revealed

/-- The effective fee the source also returns is dropped by its only caller. -/
def revealBorrow (owner : Address) (id : ℕ) :
    Invocation MevProtectionError (Option Address × ℤ) :=
  reveal owner id .borrow fun commit => some (commit.asset, commit.amount)

def revealWithdraw (owner : Address) (id : ℕ) :
    Invocation MevProtectionError (Option Address × ℤ) :=
  reveal owner id .withdraw fun commit => some (commit.asset, commit.amount)

def revealLiquidation (owner : Address) (id : ℕ) :
    Invocation MevProtectionError (Address × Option Address × Option Address × ℤ) :=
  reveal owner id .liquidate fun commit => commit.borrower.map fun borrower =>
    (borrower, commit.asset, commit.secondaryAsset, commit.amount)

end StellarLend.HelloWorld
