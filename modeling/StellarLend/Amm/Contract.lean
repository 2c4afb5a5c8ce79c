import StellarLend.Foundations.Run
import StellarLend.Foundations.Numbering
import StellarLend.Lending.Storage

/-!
# Amm/Contract — a router to AMM protocols, and the callbacks it expects

    operation ──generate_callback_nonce──▸ protocol ──validate_amm_callback──▸ operation

An operation of a user takes a number for its callback from the user's counter and hands it to the
protocol, which calls back with it.  The protocols are mock-ups inside the contract; the callback is
an entry point of its own as well.
-/

namespace StellarLend.Amm

open Foundations Call
open Lending (Address)

/-! ## Data -/

/-- The errors of the contract. -/
inductive AmmError where
  | invalidSwapParams
  | insufficientLiquidity
  | slippageExceeded
  | invalidAmmProtocol
  | invalidCallback
  | swapPaused
  | liquidityPaused
  | unauthorized
  | overflow
  | unsupportedProtocol
  | invalidTokenPair
  | minOutputNotMet
  | maxInputExceeded
  | alreadyInitialized
  deriving DecidableEq, Repr

/-- A token is an address, or none for the native one. -/
structure TokenPair where
  tokenA : Option Address
  tokenB : Option Address
  poolAddress : Address
  deriving DecidableEq, Repr

/-- A registered protocol. -/
structure AmmProtocolConfig where
  protocolAddress : Address
  protocolName : String
  enabled : Bool
  /-- In basis points. -/
  feeTier : ℤ
  minSwapAmount : ℤ
  maxSwapAmount : ℤ
  supportedPairs : List TokenPair
  deriving DecidableEq, Repr

/-- The settings of the contract. -/
structure AmmSettings where
  /-- In basis points, as is the next. -/
  defaultSlippage : ℤ
  maxSlippage : ℤ
  swapEnabled : Bool
  liquidityEnabled : Bool
  autoSwapThreshold : ℤ
  deriving DecidableEq, Repr

/-- What a swap is asked for with. -/
structure SwapParams where
  protocol : Address
  tokenIn : Option Address
  tokenOut : Option Address
  amountIn : ℤ
  minAmountOut : ℤ
  /-- In basis points. -/
  slippageTolerance : ℤ
  deadline : ℕ
  deriving DecidableEq, Repr

/-- A swap in the history. -/
structure SwapRecord where
  user : Address
  protocol : Address
  tokenIn : Option Address
  tokenOut : Option Address
  amountIn : ℤ
  amountOut : ℤ
  /-- `amountOut / amountIn`, in units of `10 ^ -18`. -/
  effectivePrice : ℤ
  feesPaid : ℤ
  timestamp : ℕ
  txHash : String
  deriving DecidableEq, Repr

/-- What adding liquidity is asked for with. -/
structure LiquidityParams where
  protocol : Address
  tokenA : Option Address
  tokenB : Option Address
  amountA : ℤ
  amountB : ℤ
  minAmountA : ℤ
  minAmountB : ℤ
  deadline : ℕ
  tickLower : Option ℤ
  tickUpper : Option ℤ
  feeTier : Option ℕ
  deriving DecidableEq, Repr

/-- An addition or removal in the history. -/
structure LiquidityRecord where
  user : Address
  operationType : String
  protocol : Address
  tokenA : Option Address
  tokenB : Option Address
  amountA : ℤ
  amountB : ℤ
  lpTokens : ℤ
  tickLower : Option ℤ
  tickUpper : Option ℤ
  timestamp : ℕ
  deriving DecidableEq, Repr

/-- What a protocol hands back. -/
structure AmmCallbackData where
  nonce : ℕ
  operation : String
  user : Address
  expectedAmounts : List ℤ
  deadline : ℕ
  deriving DecidableEq, Repr

/-- The keys of the contract.  The protocols are a map, in the order of its keys.  `callbacks` is no
key: it is what numbers were issued and what numbers came back accepted, in order. -/
structure Storage where
  ammProtocols : Option (List (Address × AmmProtocolConfig))
  ammSettings : Option AmmSettings
  swapHistory : Option (List SwapRecord)
  liquidityHistory : Option (List LiquidityRecord)
  callbackNonces : Address → Option ℕ
  admin : Option Address
  callbacks : List (Ticket Address)

/-- A freshly deployed contract. -/
def Storage.empty : Storage where
  ammProtocols := none
  ammSettings := none
  swapHistory := none
  liquidityHistory := none
  callbackNonces := fun _ => none
  admin := none
  callbacks := []

/-- What an invocation finds around it. -/
structure Env where
  timestamp : ℕ
  /-- The addresses that stand behind the invocation.  The contract asks for none of them. -/
  auths : List Address

/-- An invocation of the contract, or a part of one. -/
abbrev Invocation (α : Type) : Type := Call Env Storage AmmError α

/-! ## Settings and protocols -/

/-- `Map::set`: the entries stay in the order of their keys. -/
def setEntry {α : Type} (key : Address) (value : α) : List (Address × α) → List (Address × α)
  | [] => [(key, value)]
  | (k, v) :: entries =>
    if k = key then (key, value) :: entries
    else if key.id < k.id then (key, value) :: (k, v) :: entries
    else (k, v) :: setEntry key value entries

/-- The registered protocols. -/
def getAmmProtocols : Invocation (List (Address × AmmProtocolConfig)) := do
  let protocols ← view Storage.ammProtocols
  okOr protocols .unsupportedProtocol

def getAmmSettings : Invocation AmmSettings := do
  let settings ← view Storage.ammSettings
  okOr settings .invalidSwapParams

/-- A registered protocol by its address. -/
def getAmmProtocolConfig (protocol : Address) : Invocation AmmProtocolConfig := do
  let protocols ← getAmmProtocols
  okOr (protocols.lookup protocol) .unsupportedProtocol

/-- Swaps are switched on. -/
def checkSwapEnabled : Invocation Unit := do
  let settings ← getAmmSettings
  failIf (settings.swapEnabled = false) .swapPaused

/-- Liquidity operations are switched on. -/
def checkLiquidityEnabled : Invocation Unit := do
  let settings ← getAmmSettings
  failIf (settings.liquidityEnabled = false) .liquidityPaused

/-- A pair is supported in either order. -/
def supportsPair (config : AmmProtocolConfig) (tokenA tokenB : Option Address) : Bool :=
  config.supportedPairs.any fun pair =>
    pair.tokenA = tokenA ∧ pair.tokenB = tokenB ∨ pair.tokenA = tokenB ∧ pair.tokenB = tokenA

/-- The protocol supports the pair. -/
def validateTokenPair (config : AmmProtocolConfig) (tokenA tokenB : Option Address) :
    Invocation Unit :=
  failIf (supportsPair config tokenA tokenB = false) .invalidTokenPair

/-- Positive amounts, two tokens, and a slippage within the maximum. -/
def validateSwapParams (params : SwapParams) : Invocation Unit := do
  failIf (params.amountIn ≤ 0) .invalidSwapParams
  failIf (params.minAmountOut ≤ 0) .invalidSwapParams
  failIf (params.tokenIn = params.tokenOut) .invalidTokenPair
  let settings ← getAmmSettings
  failIf (settings.maxSlippage < params.slippageTolerance) .slippageExceeded

/-- Positive amounts, minima not below zero, and two tokens. -/
def validateLiquidityParams (params : LiquidityParams) : Invocation Unit := do
  failIf (params.amountA ≤ 0 ∨ params.amountB ≤ 0) .invalidSwapParams
  failIf (params.minAmountA < 0 ∨ params.minAmountB < 0) .invalidSwapParams
  failIf (params.tokenA = params.tokenB) .invalidTokenPair

/-- The operation is still in time. -/
def checkDeadline (deadline : ℕ) : Invocation Unit := do
  let now ← asks Env.timestamp
  failIf (deadline < now) .slippageExceeded

/-! ## Callbacks -/

/-- The number a user's counter stands at. -/
def nonceOf (s : Storage) (user : Address) : ℕ := (s.callbackNonces user).getD 0

/-- A user's counter is set. -/
def saveNonce (user : Address) (nonce : ℕ) (s : Storage) : Storage :=
  { s with callbackNonces := Function.update s.callbackNonces user (some nonce) }

/-- A number issued or accepted is put down. -/
def logCallback (ticket : Ticket Address) (s : Storage) : Storage :=
  { s with callbacks := s.callbacks ++ [ticket] }

/-- The counter goes up, and the number it then stands at is the one issued. -/
def generateCallbackNonce (user : Address) : Invocation ℕ := do
  let currentNonce ← view fun s => nonceOf s user
  let newNonce ← orTrap (U64.checkedAdd currentNonce 1)
  store (saveNonce user newNonce)
  store (logCallback (.issued user newNonce))
  pure newNonce

/-- The number the counter stands at is accepted, and the counter goes up to one that nobody was
given.  `caller` is data: nobody is asked to stand behind it. -/
def validateAmmCallback (caller : Address) (callbackData : AmmCallbackData) : Invocation Unit := do
  let protocols ← getAmmProtocols
  failIf (protocols.lookup caller = none) .invalidCallback
  let now ← asks Env.timestamp
  failIf (callbackData.deadline < now) .invalidCallback
  let expectedNonce ← view fun s => nonceOf s callbackData.user
  failIf (callbackData.nonce ≠ expectedNonce) .invalidCallback
  let nextNonce ← orTrap (U64.checkedAdd expectedNonce 1)
  store (saveNonce callbackData.user nextNonce)
  store (logCallback (.redeemed callbackData.user callbackData.nonce))

/-! ## Protocols, as mock-ups -/

/-- `amount * factor / 10_000`, checked. -/
def bpsOf (amount factor : ℤ) : Option ℤ :=
  (I128.checkedMul amount factor).bind fun v => I128.checkedDiv v 10000

/-- The amount less the slippage is paid out. -/
def executeAmmSwap (params : SwapParams) (callbackData : AmmCallbackData) : Invocation ℤ := do
  let slippageFactor ← okOr (I128.checkedSub 10000 params.slippageTolerance) .overflow
  let amountOut ← okOr (bpsOf params.amountIn slippageFactor) .overflow
  validateAmmCallback params.protocol callbackData
  pure amountOut

/-- Half of the amounts' sum is minted. -/
def executeAmmAddLiquidity (params : LiquidityParams) (callbackData : AmmCallbackData) :
    Invocation ℤ := do
  let lpTokens ← okOr ((I128.checkedAdd params.amountA params.amountB).bind
    fun v => I128.checkedDiv v 2) .overflow
  validateAmmCallback params.protocol callbackData
  pure lpTokens

/-- As much of either token as there were LP tokens. -/
def executeAmmRemoveLiquidity (protocol : Address) (lpTokens : ℤ)
    (callbackData : AmmCallbackData) : Invocation (ℤ × ℤ) := do
  validateAmmCallback protocol callbackData
  pure (lpTokens, lpTokens)

/-! ## Histories -/

/-- The last 1000 records are kept. -/
def pushRecord {α : Type} (history : List α) (record : α) : List α :=
  let history := history ++ [record]
  if 1000 < history.length then history.tail else history

/-- Amount out by amount in, in units of `10 ^ -18`. -/
def calculateEffectivePrice (amountIn amountOut : ℤ) : Invocation ℤ := do
  failIf (amountIn = 0) .invalidSwapParams
  okOr ((I128.checkedMul amountOut (10 ^ 18)).bind fun v => I128.checkedDiv v amountIn) .overflow

/-- The protocol's fee tier of the amount. -/
def calculateSwapFees (config : AmmProtocolConfig) (amountIn : ℤ) : Invocation ℤ :=
  okOr (bpsOf amountIn config.feeTier) .overflow

/-- A swap goes into the history. -/
def recordSwap (user : Address) (params : SwapParams) (amountOut effectivePrice feesPaid : ℤ) :
    Invocation Unit := do
  let now ← asks Env.timestamp
  store fun s =>
    { s with swapHistory := some (pushRecord (s.swapHistory.getD [])
        { user := user
          protocol := params.protocol
          tokenIn := params.tokenIn
          tokenOut := params.tokenOut
          amountIn := params.amountIn
          amountOut := amountOut
          effectivePrice := effectivePrice
          feesPaid := feesPaid
          timestamp := now
          txHash := "mock_tx_hash" }) }

/-- An addition or removal goes into the history. -/
def recordLiquidityOperation (user : Address) (operationType : String) (params : LiquidityParams)
    (lpTokens : ℤ) : Invocation Unit := do
  let now ← asks Env.timestamp
  store fun s =>
    { s with liquidityHistory := some (pushRecord (s.liquidityHistory.getD [])
        { user := user
          operationType := operationType
          protocol := params.protocol
          tokenA := params.tokenA
          tokenB := params.tokenB
          amountA := params.amountA
          amountB := params.amountB
          lpTokens := lpTokens
          tickLower := params.tickLower
          tickUpper := params.tickUpper
          timestamp := now }) }

/-! ## Operations -/

/-- A swap, with a callback inside. -/
def executeSwap (user : Address) (params : SwapParams) : Invocation ℤ := do
  validateSwapParams params
  checkSwapEnabled
  checkDeadline params.deadline
  let config ← getAmmProtocolConfig params.protocol
  failIf (params.amountIn < config.minSwapAmount) .invalidSwapParams
  failIf (config.maxSwapAmount < params.amountIn) .maxInputExceeded
  validateTokenPair config params.tokenIn params.tokenOut
  let nonce ← generateCallbackNonce user
  let amountOut ← executeAmmSwap params
    ⟨nonce, "swap", user, [params.amountIn, params.minAmountOut], params.deadline⟩
  failIf (amountOut < params.minAmountOut) .minOutputNotMet
  let effectivePrice ← calculateEffectivePrice params.amountIn amountOut
  let feesPaid ← calculateSwapFees config params.amountIn
  recordSwap user params amountOut effectivePrice feesPaid
  pure amountOut

/-- An addition, with a callback inside. -/
def addLiquidity (user : Address) (params : LiquidityParams) : Invocation ℤ := do
  validateLiquidityParams params
  checkLiquidityEnabled
  checkDeadline params.deadline
  let config ← getAmmProtocolConfig params.protocol
  validateTokenPair config params.tokenA params.tokenB
  let nonce ← generateCallbackNonce user
  let lpTokens ← executeAmmAddLiquidity params
    ⟨nonce, "add_liquidity", user, [params.amountA, params.amountB], params.deadline⟩
  recordLiquidityOperation user "add" params lpTokens
  pure lpTokens

/-- A removal, with a callback inside. -/
def removeLiquidity (user protocol : Address) (tokenA tokenB : Option Address)
    (lpTokens minAmountA minAmountB : ℤ) (deadline : ℕ) : Invocation (ℤ × ℤ) := do
  checkLiquidityEnabled
  checkDeadline deadline
  failIf (lpTokens ≤ 0) .invalidSwapParams
  let config ← getAmmProtocolConfig protocol
  validateTokenPair config tokenA tokenB
  let nonce ← generateCallbackNonce user
  let (amountA, amountB) ← executeAmmRemoveLiquidity protocol lpTokens
    ⟨nonce, "remove_liquidity", user, [minAmountA, minAmountB], deadline⟩
  failIf (amountA < minAmountA ∨ amountB < minAmountB) .minOutputNotMet
  recordLiquidityOperation user "remove"
    { protocol := protocol
      tokenA := tokenA
      tokenB := tokenB
      amountA := amountA
      amountB := amountB
      minAmountA := minAmountA
      minAmountB := minAmountB
      deadline := deadline
      tickLower := none
      tickUpper := none
      feeTier := none } lpTokens
  pure (amountA, amountB)

/-- The first protocol that is enabled and supports the pair. -/
def findBestAmmProtocol (tokenIn tokenOut : Option Address) : Invocation Address := do
  let protocols ← getAmmProtocols
  let best := protocols.find? fun entry =>
    entry.2.enabled ∧ supportsPair entry.2 tokenIn tokenOut = true
  okOr (best.map Prod.fst) .unsupportedProtocol

/-- The amount less the slippage. -/
def calculateMinOutputWithSlippage (amount slippageBps : ℤ) : Invocation ℤ := do
  failIf (10000 < slippageBps) .invalidSwapParams
  let slippageFactor ← okOr (I128.checkedSub 10000 slippageBps) .overflow
  okOr (bpsOf amount slippageFactor) .overflow

/-- The native token is swapped with the best protocol. -/
def autoSwapForCollateral (user : Address) (targetToken : Option Address) (amount : ℤ) :
    Invocation ℤ := do
  let settings ← getAmmSettings
  failIf (settings.swapEnabled = false) .swapPaused
  failIf (amount < settings.autoSwapThreshold) .invalidSwapParams
  let bestProtocol ← findBestAmmProtocol none targetToken
  let minAmountOut ← calculateMinOutputWithSlippage amount settings.defaultSlippage
  let now ← asks Env.timestamp
  let deadline ← okOr (U64.checkedAdd now 300) .slippageExceeded
  executeSwap user
    { protocol := bestProtocol
      tokenIn := none
      tokenOut := targetToken
      amountIn := amount
      minAmountOut := minAmountOut
      slippageTolerance := settings.defaultSlippage
      deadline := deadline }

/-! ## Administration -/

/-- The address is compared and not asked to stand behind the call. -/
def requireAdmin (caller : Address) : Invocation Unit := do
  let admin ← view Storage.admin
  let admin ← okOr admin .unauthorized
  failIf (admin ≠ caller) .unauthorized

/-- The first caller names the admin. -/
def initializeAmmSettings (admin : Address) (defaultSlippage maxSlippage autoSwapThreshold : ℤ) :
    Invocation Unit := do
  let current ← view Storage.admin
  failIf (current.isSome = true) .alreadyInitialized
  store fun s =>
    { s with
      admin := some admin
      ammSettings := some ⟨defaultSlippage, maxSlippage, true, true, autoSwapThreshold⟩
      ammProtocols := some [] }

/-- A protocol registered again is replaced. -/
def addAmmProtocol (admin : Address) (config : AmmProtocolConfig) : Invocation Unit := do
  requireAdmin admin
  let protocols ← view fun s => s.ammProtocols.getD []
  let protocols := setEntry config.protocolAddress config protocols
  store fun s => { s with ammProtocols := some protocols }

def updateAmmSettings (admin : Address) (settings : AmmSettings) : Invocation Unit := do
  requireAdmin admin
  store fun s => { s with ammSettings := some settings }

/-! ## Transactions -/

/-- A call of the contract. -/
inductive Op where
  | initializeAmmSettings (admin : Address) (defaultSlippage maxSlippage autoSwapThreshold : ℤ)
  | addAmmProtocol (admin : Address) (config : AmmProtocolConfig)
  | updateAmmSettings (admin : Address) (settings : AmmSettings)
  | executeSwap (user : Address) (params : SwapParams)
  | addLiquidity (user : Address) (params : LiquidityParams)
  | removeLiquidity (user protocol : Address) (tokenA tokenB : Option Address)
      (lpTokens minAmountA minAmountB : ℤ) (deadline : ℕ)
  | validateAmmCallback (caller : Address) (callbackData : AmmCallbackData)
  | autoSwapForCollateral (user : Address) (targetToken : Option Address) (amount : ℤ)
  deriving DecidableEq

/-- A transaction: a call and what it finds around it. -/
structure Tx where
  env : Env
  op : Op

/-- The store after a transaction that succeeded. -/
def step (tx : Tx) (s : Storage) : Option Storage :=
  match tx.op with
  | .initializeAmmSettings admin defaultSlippage maxSlippage autoSwapThreshold =>
    commit (Amm.initializeAmmSettings admin defaultSlippage maxSlippage autoSwapThreshold) tx.env s
  | .addAmmProtocol admin config => commit (Amm.addAmmProtocol admin config) tx.env s
  | .updateAmmSettings admin settings => commit (Amm.updateAmmSettings admin settings) tx.env s
  | .executeSwap user params => commit (Amm.executeSwap user params) tx.env s
  | .addLiquidity user params => commit (Amm.addLiquidity user params) tx.env s
  | .removeLiquidity user protocol tokenA tokenB lpTokens minAmountA minAmountB deadline =>
    commit (Amm.removeLiquidity user protocol tokenA tokenB lpTokens minAmountA minAmountB deadline)
      tx.env s
  | .validateAmmCallback caller callbackData =>
    commit (Amm.validateAmmCallback caller callbackData) tx.env s
  | .autoSwapForCollateral user targetToken amount =>
    commit (Amm.autoSwapForCollateral user targetToken amount) tx.env s

/-- **The state of the contract after a sequence of transactions on a fresh deployment.** -/
def ledger (txs : List Tx) : Storage := run step Storage.empty txs

end StellarLend.Amm
