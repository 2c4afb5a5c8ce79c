import StellarLend.Amm.Contract

/-!
# Amm/Callbacks — a callback with a number that nobody was given

    operation:  issued n + 1, redeemed n + 1     counter: n ──▸ n + 2
    callback:                 redeemed n         counter: n ──▸ n + 1

An operation has its callback within itself, so it leaves the counter past the number it issued.
Between two transactions no number is out: the one a counter stands at was never issued.  The entry
point for callbacks accepts just that one, from anyone who names a registered protocol.  So the
callbacks of a run are those of its operations exactly if nobody calls the entry point with what it
expects (`callbacks_sound_iff`); a number comes back at most once in any case (`redeemed_once`).
-/

namespace StellarLend.Amm

open Foundations Call Ticket
open Lending (Address)

variable {e : Env} {s s' : Storage} {tx : Tx} {txs : List Tx} {user caller : Address}
  {callbackData : AmmCallbackData} {u : Unit}

/-! ## Calls that only look -/

@[simp] theorem getAmmProtocols_ok {protocols : List (Address × AmmProtocolConfig)} :
    getAmmProtocols e s = .ok protocols s' ↔ s.ammProtocols = some protocols ∧ s = s' := by
  simp [getAmmProtocols]

@[simp] theorem getAmmSettings_ok {settings : AmmSettings} :
    getAmmSettings e s = .ok settings s' ↔ s.ammSettings = some settings ∧ s = s' := by
  simp [getAmmSettings]

/-- Looking a protocol up changes nothing. -/
theorem getAmmProtocolConfig_ok {protocol : Address} {config : AmmProtocolConfig}
    (h : getAmmProtocolConfig protocol e s = .ok config s') : s = s' := by
  simp only [getAmmProtocolConfig, bind_ok, getAmmProtocols_ok, okOr_ok] at h
  obtain ⟨_, _, ⟨-, rfl⟩, -, rfl⟩ := h
  rfl

theorem checkSwapEnabled_ok (h : checkSwapEnabled e s = .ok u s') : s = s' := by
  simp only [checkSwapEnabled, bind_ok, getAmmSettings_ok, failIf_ok] at h
  obtain ⟨_, _, ⟨-, rfl⟩, -, rfl⟩ := h
  rfl

theorem checkLiquidityEnabled_ok (h : checkLiquidityEnabled e s = .ok u s') :
    s = s' := by
  simp only [checkLiquidityEnabled, bind_ok, getAmmSettings_ok, failIf_ok] at h
  obtain ⟨_, _, ⟨-, rfl⟩, -, rfl⟩ := h
  rfl

theorem checkDeadline_ok {deadline : ℕ} (h : checkDeadline deadline e s = .ok u s') :
    s = s' := by
  simp only [checkDeadline, asks_seq, failIf_ok] at h
  obtain ⟨_, _, ⟨-, rfl⟩, -, rfl⟩ := h
  rfl

theorem validateSwapParams_ok {params : SwapParams} (h : validateSwapParams params e s = .ok u s') :
    s = s' := by
  simp only [validateSwapParams, bind_ok, getAmmSettings_ok, failIf_ok] at h
  obtain ⟨_, _, ⟨-, rfl⟩, _, _, ⟨-, rfl⟩, _, _, ⟨-, rfl⟩, _, _, ⟨-, rfl⟩, -, rfl⟩ := h
  rfl

theorem validateLiquidityParams_ok {params : LiquidityParams}
    (h : validateLiquidityParams params e s = .ok u s') : s = s' := by
  simp only [validateLiquidityParams, failIf_seq, failIf_ok] at h
  obtain ⟨-, -, -, rfl⟩ := h
  rfl

/-! ## One callback -/

/-- Neither a counter moves nor a number goes out or comes back. -/
structure SameCallbacks (s s' : Storage) : Prop where
  nonces : s'.callbackNonces = s.callbackNonces
  callbacks : s'.callbacks = s.callbacks

/-- A user's number goes out. -/
structure Issued (s : Storage) (user : Address) (nonce : ℕ) (s' : Storage) : Prop where
  nonce_eq : nonce = nonceOf s user + 1
  after : s' = logCallback (.issued user nonce) (saveNonce user nonce s)

/-- **A number goes out.** -/
theorem generateCallbackNonce_effect {nonce : ℕ}
    (h : generateCallbackNonce user e s = .ok nonce s') : Issued s user nonce s' := by
  simp only [generateCallbackNonce, bind_ok, view_ok, orTrap_ok, store_ok, pure_ok,
    U64.checkedAdd_eq_some] at h
  obtain ⟨_, _, ⟨rfl, rfl⟩, _, _, ⟨⟨-, rfl⟩, rfl⟩, _, _, rfl, _, _, rfl, rfl, rfl⟩ := h
  exact ⟨rfl, rfl⟩

/-- What the entry point for callbacks looks at: a registered protocol is named, in time, with the
number the user's counter stands at. -/
structure Expected (e : Env) (s : Storage) (caller : Address) (callbackData : AmmCallbackData) :
    Prop where
  registered : ∃ protocols, s.ammProtocols = some protocols ∧ protocols.lookup caller ≠ none
  timely : e.timestamp ≤ callbackData.deadline
  nonce : callbackData.nonce = nonceOf s callbackData.user

/-- A callback is accepted. -/
structure Accepted (e : Env) (s : Storage) (caller : Address) (callbackData : AmmCallbackData)
    (s' : Storage) : Prop extends Expected e s caller callbackData where
  after : s' = logCallback (.redeemed callbackData.user callbackData.nonce)
    (saveNonce callbackData.user (nonceOf s callbackData.user + 1) s)

/-- **A number comes back.** -/
theorem validateAmmCallback_effect (h : validateAmmCallback caller callbackData e s = .ok u s') :
    Accepted e s caller callbackData s' := by
  simp only [validateAmmCallback, bind_ok, getAmmProtocols_ok, failIf_ok, asks_ok, view_ok,
    orTrap_ok, store_ok, U64.checkedAdd_eq_some] at h
  obtain ⟨protocols, _, ⟨hprotocols, rfl⟩, _, _, ⟨hcaller, rfl⟩, _, _, ⟨rfl, rfl⟩, _, _,
    ⟨htimely, rfl⟩, _, _, ⟨rfl, rfl⟩, _, _, ⟨hnonce, rfl⟩, _, _, ⟨⟨-, rfl⟩, rfl⟩, _, _, rfl,
    rfl⟩ := h
  exact ⟨⟨⟨protocols, hprotocols, hcaller⟩, not_lt.mp htimely, not_not.mp hnonce⟩, rfl⟩

/-- An operation: a number of the user goes out and comes back, and the counter goes past it. -/
structure Operated (s : Storage) (user : Address) (s' : Storage) : Prop where
  nonces : nonceOf s' = Function.update (nonceOf s) user (nonceOf s user + 2)
  callbacks : s'.callbacks = s.callbacks ++
    [.issued user (nonceOf s user + 1), .redeemed user (nonceOf s user + 1)]

@[simp] theorem nonceOf_saveNonce (user : Address) (nonce : ℕ) (s : Storage) :
    nonceOf (saveNonce user nonce s) = Function.update (nonceOf s) user nonce := by
  funext u
  change (Function.update s.callbackNonces user (some nonce) u).getD 0 = _
  rw [Function.update_apply, Function.update_apply]
  split <;> rfl

@[simp] theorem nonceOf_logCallback (ticket : Ticket Address) (s : Storage) :
    nonceOf (logCallback ticket s) = nonceOf s := rfl

/-- The counters stand where they stood. -/
theorem SameCallbacks.nonceOf_eq (h : SameCallbacks s s') : nonceOf s' = nonceOf s := by
  funext u
  rw [nonceOf, h.nonces, nonceOf]

/-- **The number that went out comes back at once.** -/
theorem Issued.accepted {t t' : Storage} {nonce : ℕ} (h : Issued s user nonce t)
    (h' : Accepted e t caller callbackData t') (hsame : SameCallbacks t' s')
    (huser : callbackData.user = user) : Operated s user s' := by
  obtain ⟨rfl, rfl⟩ := h
  have hnonce := h'.nonce
  have hafter := h'.after
  rw [nonceOf_logCallback, nonceOf_saveNonce, huser, Function.update_self] at hnonce
  rw [nonceOf_logCallback, nonceOf_saveNonce, huser, Function.update_self, hnonce] at hafter
  refine ⟨?_, ?_⟩
  · rw [hsame.nonceOf_eq, hafter, nonceOf_logCallback, nonceOf_saveNonce, nonceOf_logCallback,
      nonceOf_saveNonce, Function.update_idem]
  · rw [hsame.callbacks, hafter]
    exact List.append_assoc ..

/-! ## Operations -/

/-- A protocol that swaps hands the callback back. -/
theorem executeAmmSwap_effect {params : SwapParams} {amountOut : ℤ}
    (h : executeAmmSwap params callbackData e s = .ok amountOut s') :
    Accepted e s params.protocol callbackData s' := by
  simp only [executeAmmSwap, bind_ok, okOr_ok, pure_ok] at h
  obtain ⟨_, _, ⟨-, rfl⟩, _, _, ⟨-, rfl⟩, _, _, hcallback, -, rfl⟩ := h
  exact validateAmmCallback_effect hcallback

/-- So does one that takes liquidity. -/
theorem executeAmmAddLiquidity_effect {params : LiquidityParams} {lpTokens : ℤ}
    (h : executeAmmAddLiquidity params callbackData e s = .ok lpTokens s') :
    Accepted e s params.protocol callbackData s' := by
  simp only [executeAmmAddLiquidity, bind_ok, okOr_ok, pure_ok] at h
  obtain ⟨_, _, ⟨-, rfl⟩, _, _, hcallback, -, rfl⟩ := h
  exact validateAmmCallback_effect hcallback

/-- So does one that gives liquidity back. -/
theorem executeAmmRemoveLiquidity_effect {protocol : Address} {lpTokens : ℤ} {amounts : ℤ × ℤ}
    (h : executeAmmRemoveLiquidity protocol lpTokens callbackData e s = .ok amounts s') :
    Accepted e s protocol callbackData s' := by
  simp only [executeAmmRemoveLiquidity, bind_ok, pure_ok] at h
  obtain ⟨_, _, hcallback, -, rfl⟩ := h
  exact validateAmmCallback_effect hcallback

/-- Putting a swap down moves no counter. -/
theorem recordSwap_effect {params : SwapParams} {amountOut effectivePrice feesPaid : ℤ}
    (h : recordSwap user params amountOut effectivePrice feesPaid e s = .ok u s') :
    SameCallbacks s s' := by
  simp only [recordSwap, asks_seq, store_ok] at h
  obtain ⟨_, _, ⟨-, rfl⟩, rfl⟩ := h
  exact ⟨rfl, rfl⟩

/-- Nor does putting an addition or a removal down. -/
theorem recordLiquidityOperation_effect {operationType : String} {params : LiquidityParams}
    {lpTokens : ℤ}
    (h : recordLiquidityOperation user operationType params lpTokens e s = .ok u s') :
    SameCallbacks s s' := by
  simp only [recordLiquidityOperation, asks_seq, store_ok] at h
  obtain ⟨_, _, ⟨-, rfl⟩, rfl⟩ := h
  exact ⟨rfl, rfl⟩

/-- **A swap issues a number and takes it back.** -/
theorem executeSwap_effect {params : SwapParams} {amountOut : ℤ}
    (h : executeSwap user params e s = .ok amountOut s') : Operated s user s' := by
  simp only [executeSwap, calculateEffectivePrice, calculateSwapFees, validateTokenPair, bind_ok,
    ↓failIf_seq, ↓okOr_seq, pure_ok, ↓seq_assoc] at h
  obtain ⟨_, _, hparams, _, _, henabled, _, _, htime, config, _, hconfig, -, -, -, nonce, _,
    hissued, _, _, hcallback, -, -, _, -, _, -, _, _, hrecord, -, rfl⟩ := h
  obtain rfl := validateSwapParams_ok hparams
  obtain rfl := checkSwapEnabled_ok henabled
  obtain rfl := checkDeadline_ok htime
  obtain rfl := getAmmProtocolConfig_ok hconfig
  exact (generateCallbackNonce_effect hissued).accepted (executeAmmSwap_effect hcallback)
    (recordSwap_effect hrecord) rfl

/-- **So does adding liquidity.** -/
theorem addLiquidity_effect {params : LiquidityParams} {lpTokens : ℤ}
    (h : addLiquidity user params e s = .ok lpTokens s') : Operated s user s' := by
  simp only [addLiquidity, validateTokenPair, bind_ok, ↓failIf_seq, pure_ok] at h
  obtain ⟨_, _, hparams, _, _, henabled, _, _, htime, config, _, hconfig, -, nonce, _, hissued, _,
    _, hcallback, _, _, hrecord, -, rfl⟩ := h
  obtain rfl := validateLiquidityParams_ok hparams
  obtain rfl := checkLiquidityEnabled_ok henabled
  obtain rfl := checkDeadline_ok htime
  obtain rfl := getAmmProtocolConfig_ok hconfig
  exact (generateCallbackNonce_effect hissued).accepted (executeAmmAddLiquidity_effect hcallback)
    (recordLiquidityOperation_effect hrecord) rfl

/-- **So does removing it.** -/
theorem removeLiquidity_effect {protocol : Address} {tokenA tokenB : Option Address}
    {lpTokens minAmountA minAmountB : ℤ} {deadline : ℕ} {amounts : ℤ × ℤ}
    (h : removeLiquidity user protocol tokenA tokenB lpTokens minAmountA minAmountB deadline e s =
      .ok amounts s') : Operated s user s' := by
  simp only [removeLiquidity, validateTokenPair, bind_ok, ↓failIf_seq, pure_ok] at h
  obtain ⟨_, _, henabled, _, _, htime, -, config, _, hconfig, -, nonce, _, hissued, _, _, hcallback,
    -, _, _, hrecord, -, rfl⟩ := h
  obtain rfl := checkLiquidityEnabled_ok henabled
  obtain rfl := checkDeadline_ok htime
  obtain rfl := getAmmProtocolConfig_ok hconfig
  exact (generateCallbackNonce_effect hissued).accepted
    (executeAmmRemoveLiquidity_effect hcallback) (recordLiquidityOperation_effect hrecord) rfl

/-- **So does swapping for collateral.** -/
theorem autoSwapForCollateral_effect {targetToken : Option Address} {amount amountOut : ℤ}
    (h : autoSwapForCollateral user targetToken amount e s = .ok amountOut s') :
    Operated s user s' := by
  simp only [autoSwapForCollateral, findBestAmmProtocol, calculateMinOutputWithSlippage, bind_ok,
    getAmmSettings_ok, getAmmProtocols_ok, failIf_ok, okOr_ok, asks_ok, and_assoc, exists_and_left,
    exists_eq_left', exists_const] at h
  obtain ⟨_, -, -, -, _, _, ⟨_, -, -, rfl⟩, -, _, _, ⟨_, -, -, rfl⟩, _, -, h⟩ := h
  exact executeSwap_effect h

/-! ## Every call -/

/-- What a transaction does to the counters. -/
def Op.Effect (e : Env) (s s' : Storage) : Op → Prop
  | .executeSwap user _ => Operated s user s'
  | .addLiquidity user _ => Operated s user s'
  | .removeLiquidity user .. => Operated s user s'
  | .autoSwapForCollateral user .. => Operated s user s'
  | .validateAmmCallback caller callbackData => Accepted e s caller callbackData s'
  | _ => SameCallbacks s s'

theorem requireAdmin_ok (h : requireAdmin caller e s = .ok u s') : s = s' := by
  simp only [requireAdmin, view_seq, okOr_seq, failIf_ok] at h
  obtain ⟨_, -, -, rfl⟩ := h
  rfl

/-- **Every transaction does to the counters what its operation says.** -/
theorem step_effect (h : step tx s = some s') : tx.op.Effect tx.env s s' := by
  obtain ⟨e, op⟩ := tx
  cases op <;> simp only [step, commit_eq_some] at h <;> obtain ⟨a, h⟩ := h
  case executeSwap => exact executeSwap_effect h
  case addLiquidity => exact addLiquidity_effect h
  case removeLiquidity => exact removeLiquidity_effect h
  case autoSwapForCollateral => exact autoSwapForCollateral_effect h
  case validateAmmCallback => exact validateAmmCallback_effect h
  case initializeAmmSettings =>
    simp only [initializeAmmSettings, view_seq, failIf_seq, store_ok] at h
    obtain ⟨_, _, ⟨-, rfl⟩, _, _, ⟨-, rfl⟩, rfl⟩ := h
    exact ⟨rfl, rfl⟩
  case addAmmProtocol =>
    simp only [addAmmProtocol, bind_ok, ↓view_seq, store_ok] at h
    obtain ⟨_, _, hadmin, rfl⟩ := h
    obtain rfl := requireAdmin_ok hadmin
    exact ⟨rfl, rfl⟩
  case updateAmmSettings =>
    simp only [updateAmmSettings, bind_ok, store_ok] at h
    obtain ⟨_, _, hadmin, rfl⟩ := h
    obtain rfl := requireAdmin_ok hadmin
    exact ⟨rfl, rfl⟩

/-! ## What callbacks should be -/

/-- Whoever calls back in a protocol's name is that protocol. -/
def Authentic (_ : Storage) (tx : Tx) : Prop := ∀ caller callbackData,
  tx.op = .validateAmmCallback caller callbackData → caller ∈ tx.env.auths

/-- A callback that is accepted carries a number issued to its user before, no number is accepted
twice, and no outsider's call is accepted. -/
structure CallbacksSound (txs : List Tx) : Prop where
  genuine : Genuine (ledger txs).callbacks
  once : ∀ user nonce, (ledger txs).callbacks.count (.redeemed user nonce) ≤ 1
  authentic : Meets step Authentic Storage.empty txs

/-- Nobody calls the entry point with what it expects. -/
def Undisturbed (s : Storage) (tx : Tx) : Prop := ∀ caller callbackData,
  tx.op = .validateAmmCallback caller callbackData → ¬ Expected tx.env s caller callbackData

/-! ## Every number comes back at most once -/

/-- The counters have passed what is in the journal, and nothing is in it twice. -/
structure Passed (s : Storage) : Prop where
  spent : Spent (nonceOf s) s.callbacks
  nodup : s.callbacks.Nodup

theorem Passed.empty : Passed Storage.empty := ⟨Spent.nil, List.nodup_nil⟩

theorem Passed.same (hs : Passed s) (h : SameCallbacks s s') : Passed s' := by
  refine ⟨?_, ?_⟩
  · rw [h.nonceOf_eq, h.callbacks]
    exact hs.spent
  · rw [h.callbacks]
    exact hs.nodup

/-- A counter that goes up passes what it passed before. -/
theorem Passed.append {entries : List (Ticket Address)} {n : ℕ} (hs : Passed s)
    (hnonces : nonceOf s' = Function.update (nonceOf s) user n)
    (hcallbacks : s'.callbacks = s.callbacks ++ entries) (hnodup : entries.Nodup)
    (hentries : ∀ ticket ∈ entries, ticket.holder = user ∧ nonceOf s user ≤ ticket.number ∧
      ticket.number < n) (hn : nonceOf s user ≤ n) : Passed s' := by
  refine ⟨?_, ?_⟩
  · rw [hcallbacks]
    refine (hs.spent.mono fun k => ?_).append fun ticket hticket => ?_
    · rw [hnonces, Function.update_apply]
      split
      case isTrue hk => rwa [hk]
      case isFalse => exact le_rfl
    · obtain ⟨hholder, -, hlt⟩ := hentries ticket hticket
      rwa [hnonces, hholder, Function.update_self]
  · rw [hcallbacks]
    refine hs.spent.nodup_append hs.nodup hnodup fun ticket hticket => ?_
    obtain ⟨hholder, hle, -⟩ := hentries ticket hticket
    rwa [hholder]

/-- An operation accepts a number that was not accepted before. -/
theorem Passed.operated (hs : Passed s) (h : Operated s user s') : Passed s' := by
  refine hs.append h.nonces h.callbacks (by simp) (fun ticket hticket => ?_) (Nat.le_add_right _ _)
  simp only [List.mem_cons, List.not_mem_nil, or_false] at hticket
  obtain rfl | rfl := hticket
  · exact ⟨rfl, Nat.le_succ _, Nat.lt_succ_self _⟩
  · exact ⟨rfl, Nat.le_succ _, Nat.lt_succ_self _⟩

/-- So does a callback from outside. -/
theorem Passed.accepted {callbackData : AmmCallbackData} (hs : Passed s)
    (h : Accepted e s caller callbackData s') : Passed s' := by
  have hnonces : nonceOf s' = Function.update (nonceOf s) callbackData.user
      (nonceOf s callbackData.user + 1) := by
    rw [h.after, nonceOf_logCallback, nonceOf_saveNonce]
  refine hs.append hnonces (by rw [h.after]; rfl) (List.nodup_singleton _)
    (fun ticket hticket => ?_) (Nat.le_succ _)
  obtain rfl := List.mem_singleton.mp hticket
  exact ⟨rfl, h.nonce.ge, h.nonce ▸ Nat.lt_succ_self _⟩

/-- **Every step takes the counters past the journal.** -/
theorem Passed.step (hs : Passed s) (hstep : step tx s = some s') : Passed s' := by
  have heffect := step_effect hstep
  obtain ⟨e, op⟩ := tx
  cases op
  case executeSwap => exact hs.operated heffect
  case addLiquidity => exact hs.operated heffect
  case removeLiquidity => exact hs.operated heffect
  case autoSwapForCollateral => exact hs.operated heffect
  case validateAmmCallback => exact hs.accepted heffect
  all_goals exact hs.same heffect

theorem passed_ledger (txs : List Tx) : Passed (ledger txs) :=
  run_invariant (fun _ _ _ hstep hs => hs.step hstep) txs Passed.empty

/-- **No number is accepted twice in any run.** -/
theorem redeemed_once (txs : List Tx) (user : Address) (nonce : ℕ) :
    (ledger txs).callbacks.count (.redeemed user nonce) ≤ 1 :=
  List.nodup_iff_count_le_one.mp (passed_ledger txs).nodup _

/-! ## Whose callbacks they are -/

/-- A step that is no such call keeps the journal genuine. -/
theorem genuine_step (h : Genuine s.callbacks) (hstep : step tx s = some s')
    (hC : Undisturbed s tx) : Genuine s'.callbacks := by
  have heffect := step_effect hstep
  have hoperated : ∀ user, Operated s user s' → Genuine s'.callbacks := fun user hop => by
    rw [hop.callbacks]
    exact h.exchange _ _
  obtain ⟨e, op⟩ := tx
  cases op
  case executeSwap => exact hoperated _ heffect
  case addLiquidity => exact hoperated _ heffect
  case removeLiquidity => exact hoperated _ heffect
  case autoSwapForCollateral => exact hoperated _ heffect
  case validateAmmCallback caller callbackData =>
    exact absurd (Accepted.toExpected heffect) (hC caller callbackData rfl)
  all_goals
    rw [SameCallbacks.callbacks heffect]
    exact h

/-- **The callbacks are sound in every state of a run if and only if nobody calls the entry point
with what it expects.** -/
theorem callbacks_sound_iff (txs : List Tx) :
    (∀ past, past <+: txs → CallbacksSound past) ↔ Meets step Undisturbed Storage.empty txs := by
  constructor
  · intro h
    refine meets_iff.mpr fun past tx rest s' htxs hstep caller callbackData hop hexpected => ?_
    have hgenuine := (h (past ++ [tx]) ⟨rest, by rw [htxs, List.append_assoc]; rfl⟩).genuine
    have heffect := step_effect hstep
    rw [hop] at heffect
    rw [ledger, run_snoc, exec_of_some hstep, Accepted.after heffect] at hgenuine
    refine Genuine.not_redeemed (passed_ledger past).spent callbackData.user ?_
    have hnumber : callbackData.nonce = nonceOf (ledger past) callbackData.user := hexpected.nonce
    rw [hnumber] at hgenuine
    exact hgenuine
  · rintro h past ⟨rest, rfl⟩
    have hpast := (meets_append.mp h).1
    refine ⟨?_, redeemed_once past, meets_iff.mpr fun before tx after s' hsplit hstep caller
      callbackData hop => ?_⟩
    · exact hpast.invariant (I := fun s => Genuine s.callbacks)
        (fun s tx s' hstep hC hI => genuine_step hI hstep hC) Genuine.nil
    · have heffect := step_effect hstep
      rw [hop] at heffect
      have hC := meets_iff.mp hpast before tx after s' hsplit hstep caller callbackData hop
      exact absurd (Accepted.toExpected heffect) hC

namespace Sample

def admin : Address := ⟨0⟩
def alice : Address := ⟨1⟩
def mallory : Address := ⟨2⟩
def protocol : Address := ⟨10⟩
def usd : Address := ⟨20⟩

def envFor (signer : Address) : Env := ⟨5, [signer]⟩

/-- A protocol for one pair. -/
def config : AmmProtocolConfig :=
  ⟨protocol, "mock", true, 30, 1, 1000000, [⟨none, some usd, ⟨30⟩⟩]⟩

def swap (user : Address) : Tx :=
  ⟨envFor user, .executeSwap user ⟨protocol, none, some usd, 1000, 900, 100, 10⟩⟩

/-- A callback in the protocol's name. -/
def callback (signer : Address) (nonce : ℕ) : Tx :=
  ⟨envFor signer, .validateAmmCallback protocol ⟨nonce, "swap", alice, [], 10⟩⟩

/-- Alice swaps, and her callback is number 1. -/
def swapOnce : List Tx :=
  [⟨envFor admin, .initializeAmmSettings admin 100 500 0⟩,
    ⟨envFor admin, .addAmmProtocol admin config⟩, swap alice]

/-- Mallory calls back with number 2. -/
def forged : List Tx := swapOnce ++ [callback mallory 2]

/-- **A number that was never issued comes back accepted from an outsider.** -/
theorem callback_forged : ¬ CallbacksSound forged := by
  intro h
  have hjournal : (ledger forged).callbacks =
      [.issued alice 1, .redeemed alice 1] ++ [.redeemed alice 2] := by decide
  have hissued := h.genuine _ _ _ _ hjournal
  exact absurd hissued (by decide)

end Sample

end StellarLend.Amm
