import Mathlib.Data.List.Induction
import StellarLend.HelloWorld.Quiet

/-!
# HelloWorld/Pricing — what `getPrice` answers with

    submission ────────────────────────────────────────────▸ cache ──▸ answer
    feeds ──aggregate──▸ spot ──average──▸ twap ──breaker──▸ cache, last safe price, answer

A price is in the cache because a fresh reading left it there or because somebody submitted it, and
a live cache entry is the answer, no questions asked.  As long as the entries found are the last
safe prices, every answer has been through the aggregation and is within the breaker's band
(`price_vouched`).
-/

namespace StellarLend.HelloWorld

open Foundations Call
open Lending (Address)

variable {now : ℕ} {o o' : OracleStore} {asset : Address} {price : ℤ} {txs : List Tx}

/-- The last safe price of an asset; zero where none is recorded. -/
def lastSafePrice (o : OracleStore) (asset : Address) : ℤ := (getBreakerState o asset).lastSafePrice

/-- The price is within the breaker's deviation of another, in the basis points the breaker
counts. -/
def InBand (o : OracleStore) (price safe : ℤ) : Prop :=
  ∃ d, deviationBps price safe = some d ∧ d ≤ (getOracleConfig o).breakerDeviationBps

/-- The price that the feeds aggregate to, outliers filtered, averaged with earlier ones. -/
def Vetted (now : ℕ) (o : OracleStore) (asset : Address) (price : ℤ) : Prop :=
  ∃ spot, aggregateSpotPrice now o asset = .ok spot ∧
    computeTwap now (appendObservation now asset spot o) asset spot = .ok price

theorem deviationBps_self {p : ℤ} (h : 0 < p) : deviationBps p p = some 0 := by
  simp [deviationBps, I128.checkedSub, I128.checkedMul, I128.checkedDiv, Range.check, h.ne']

/-! ## The breaker's record of an asset -/

/-- The stores differ in the breaker's record of the asset only. -/
def BreakerOnly (asset : Address) (o o' : OracleStore) : Prop :=
  ∃ c, o' = { o with circuitBreaker := Function.update o.circuitBreaker asset c }

theorem BreakerOnly.refl (asset : Address) (o : OracleStore) : BreakerOnly asset o o :=
  ⟨o.circuitBreaker asset, by rw [Function.update_eq_self]⟩

theorem withBreaker_only (asset : Address) (state : PriceBreaker) (o : OracleStore) :
    BreakerOnly asset o (withBreaker asset state o) := ⟨some state, rfl⟩

theorem BreakerOnly.trans {u : OracleStore} (h : BreakerOnly asset o o')
    (h' : BreakerOnly asset o' u) : BreakerOnly asset o u := by
  obtain ⟨c, rfl⟩ := h
  obtain ⟨d, rfl⟩ := h'
  exact ⟨d, by rw [Function.update_idem]⟩

/-- An observation leaves the breakers alone, and does not look at them. -/
theorem appendObservation_with (now : ℕ) (asset : Address) (price : ℤ) (o : OracleStore)
    (c : Address → Option PriceBreaker) :
    appendObservation now asset price { o with circuitBreaker := c } =
      { appendObservation now asset price o with circuitBreaker := c } := by
  by_cases hzero : (o.oracleConfig.getD .default).maxObservations = 0 <;>
    simp only [appendObservation, getOracleConfig, loadHistory, hzero, if_true, if_false]

theorem appendObservation_breaker (now : ℕ) (asset : Address) (price : ℤ) (o : OracleStore) :
    (appendObservation now asset price o).circuitBreaker = o.circuitBreaker := by
  unfold appendObservation
  split <;> rfl

theorem appendObservation_config (now : ℕ) (asset : Address) (price : ℤ) (o : OracleStore) :
    getOracleConfig (appendObservation now asset price o) = getOracleConfig o := by
  unfold appendObservation
  split <;> rfl

theorem BreakerOnly.appendObservation (h : BreakerOnly asset o o') (now : ℕ) (price : ℤ) :
    BreakerOnly asset (appendObservation now asset price o)
      (HelloWorld.appendObservation now asset price o') := by
  obtain ⟨c, rfl⟩ := h
  exact ⟨c, by rw [appendObservation_with, appendObservation_breaker]⟩

theorem BreakerOnly.cachePrice (h : BreakerOnly asset o o') (now : ℕ) (price : ℤ) :
    BreakerOnly asset (cachePrice now asset price o)
      (HelloWorld.cachePrice now asset price o') := by
  obtain ⟨c, rfl⟩ := h
  exact ⟨c, rfl⟩

theorem BreakerOnly.computeTwap (h : BreakerOnly asset o o') (now : ℕ) (spot : ℤ) :
    computeTwap now o' asset spot = HelloWorld.computeTwap now o asset spot := by
  obtain ⟨c, rfl⟩ := h
  rfl

theorem BreakerOnly.config (h : BreakerOnly asset o o') :
    getOracleConfig o' = getOracleConfig o := by
  obtain ⟨c, rfl⟩ := h
  rfl

/-- Writing the record of the asset makes up for the difference. -/
theorem BreakerOnly.withBreaker (h : BreakerOnly asset o o') (state : PriceBreaker) :
    withBreaker asset state o' = HelloWorld.withBreaker asset state o := by
  obtain ⟨c, rfl⟩ := h
  rw [HelloWorld.withBreaker, HelloWorld.withBreaker, Function.update_idem]

/-! ## A fresh reading -/

/-- A candidate that passes is within the band of the last safe price, or becomes the first one. -/
theorem maybeTripBreaker_ok {candidate : ℤ} {r : Unit}
    (hon : 0 < (getOracleConfig o).breakerDeviationBps)
    (h : maybeTripBreaker asset candidate now o = .ok r o') :
    BreakerOnly asset o o' ∧
      (0 < lastSafePrice o asset → InBand o candidate (lastSafePrice o asset) ∧ o' = o) := by
  simp only [maybeTripBreaker, view_seq, if_neg (not_le.mpr hon)] at h
  by_cases hfirst : (getBreakerState o asset).lastSafePrice ≤ 0
  · rw [if_pos hfirst, store_ok] at h
    rw [← h]
    exact ⟨withBreaker_only .., fun hpos => absurd hpos (not_lt.mpr hfirst)⟩
  · simp only [if_neg hfirst, okOr_seq] at h
    obtain ⟨deviation, hdeviation, h⟩ := h
    by_cases hfar : (getOracleConfig o).breakerDeviationBps < deviation
    · simp [if_pos hfar] at h
    · rw [if_neg hfar] at h
      obtain ⟨-, rfl⟩ := pure_ok.mp h
      exact ⟨.refl .., fun _ => ⟨⟨deviation, hdeviation, not_lt.mp hfar⟩, rfl⟩⟩

/-- **What a fresh reading has checked and what it writes.** -/
structure ReadAfresh (now : ℕ) (o : OracleStore) (asset : Address) (price : ℤ)
    (o' : OracleStore) : Prop where
  vetted : Vetted now o asset price
  inBand : 0 < lastSafePrice o asset → InBand o price (lastSafePrice o asset)
  store : ∃ spot state, aggregateSpotPrice now o asset = .ok spot ∧ state.lastSafePrice = price ∧
    o' = withBreaker asset state (cachePrice now asset price (appendObservation now asset spot o))

theorem freshPrice_ok (hon : 0 < (getOracleConfig o).breakerDeviationBps)
    (h : freshPrice asset now o = .ok price o') : ReadAfresh now o asset price o' := by
  simp only [freshPrice, bind_ok, asks_ok, ↓view_seq, ↓ofExcept_seq, ↓store_seq, pure_ok, and_assoc,
    exists_and_left, exists_eq_left', id_eq] at h
  obtain ⟨spot, hspot, _, o₁, hfirst, twap, htwap, _, o₂, hsecond, rfl, rfl⟩ := h
  obtain ⟨honly, hsame⟩ := maybeTripBreaker_ok hon hfirst
  have happended := honly.appendObservation now spot
  have hconfig : getOracleConfig (appendObservation now asset spot o₁) = getOracleConfig o := by
    rw [appendObservation_config, honly.config]
  obtain ⟨honly', hsame'⟩ := maybeTripBreaker_ok (by rw [hconfig]; exact hon) hsecond
  refine ⟨⟨spot, hspot, ?_⟩, fun hpos => ?_, spot,
    { getBreakerState (cachePrice now asset twap o₂) asset with lastSafePrice := twap }, hspot, rfl,
    ?_⟩
  · rw [← happended.computeTwap]
    exact htwap
  · have hkept : lastSafePrice (appendObservation now asset spot o₁) asset =
        lastSafePrice o asset := by
      rw [lastSafePrice, getBreakerState, appendObservation_breaker, (hsame hpos).2]
      rfl
    obtain ⟨d, hd, hle⟩ := (hsame' (hkept ▸ hpos)).1
    rw [hkept] at hd
    rw [hconfig] at hle
    exact ⟨d, hd, hle⟩
  · exact ((happended.trans honly').cachePrice now twap).withBreaker _

/-- **An answer comes from the cache, which stays as it was, or from a fresh reading.** -/
theorem getPrice_ok (hon : 0 < (getOracleConfig o).breakerDeviationBps)
    (h : getPrice asset now o = .ok price o') :
    getCachedPrice now o asset = some price ∧ o' = o ∨
      getCachedPrice now o asset = none ∧ ReadAfresh now o asset price o' := by
  simp only [getPrice, asks_seq, view_seq, failIf_seq, id_eq] at h
  obtain ⟨-, h⟩ := h
  cases hcached : getCachedPrice now o asset with
  | some cached =>
    rw [hcached] at h
    obtain ⟨rfl, rfl⟩ := pure_ok.mp h
    exact .inl ⟨rfl, rfl⟩
  | none =>
    rw [hcached] at h
    exact .inr ⟨rfl, freshPrice_ok hon h⟩

/-! ## The oracle's calls -/

/-- Submitting and reading prices, time passing in between, and setting the oracle up. -/
def Op.isOracle : Op → Bool
  | .updatePriceFeed .. => true
  | .getPrice _ => true
  | .initializeContract _ => true
  | .transferAdmin .. => true
  | .setPrimaryOracle .. => true
  | .setFallbackOracle .. => true
  | .configureOracle .. => true
  | .setOracleSources .. => true
  | .emergencyPauseAssetOracle .. => true
  | _ => false

/-- What only a reading changes: the safe prices and the observations.  A configuration keeps the
breaker on. -/
structure KeepsSafe (o o' : OracleStore) : Prop where
  safe : ∀ a, lastSafePrice o' a = lastSafePrice o a
  history : ∀ a, loadHistory o' a = loadHistory o a
  on : 0 < (getOracleConfig o).breakerDeviationBps → 0 < (getOracleConfig o').breakerDeviationBps

theorem KeepsSafe.refl (o : OracleStore) : KeepsSafe o o := ⟨fun _ => rfl, fun _ => rfl, id⟩

/-- A call of the oracle that is no reading. -/
theorem step_keepsSafe {s s' : Storage} {tx : Tx} (hop : tx.op.isOracle = true)
    (hread : ∀ asset, tx.op ≠ .getPrice asset) (h : step tx s = some s') :
    KeepsSafe s.oracle s'.oracle := by
  obtain ⟨e, op⟩ := tx
  cases op <;> simp only [Op.isOracle, Bool.false_eq_true] at hop <;>
    simp only [step, Op.apply, commit_eq_some] at h <;> obtain ⟨r, h⟩ := h
  case updatePriceFeed =>
    simp only [updatePriceFeed, storeOracle, view_seq, failIf_seq, ofExcept_seq, asks_seq,
      store_seq, pure_ok] at h
    obtain ⟨-, -, -, _, -, _, -, -, rfl⟩ := h
    exact ⟨fun _ => rfl, fun _ => rfl, id⟩
  case getPrice asset => exact absurd rfl (hread asset)
  case initializeContract =>
    simp only [HelloContract.initializeContract, setAdmin, initializeRiskManagement,
      initializeRiskParams, initializeInterestRateConfig, view_seq, failIf_seq, mapErr_seq,
      mapErr_ok, store_ok, asks_seq, ofExcept_seq, and_assoc, exists_and_left, exists_eq_left',
      exists_const] at h
    obtain ⟨-, -, _, t, hmanagement, _, ⟨_, -, rfl⟩, -, rfl⟩ := h
    split at hmanagement
    · obtain ⟨-, rfl⟩ := pure_ok.mp hmanagement
      exact KeepsSafe.refl s.oracle
    · simp only [asks_seq, view_seq, store_seq, store_ok] at hmanagement
      subst hmanagement
      exact KeepsSafe.refl s.oracle
  case transferAdmin =>
    simp only [HelloContract.transferAdmin, setAdmin, ne_eq, mapErr_ok, view_seq, failIf_seq,
      not_and, Decidable.not_not, store_ok] at h
    obtain ⟨-, rfl⟩ := h
    exact .refl _
  case setPrimaryOracle | setOracleSources =>
    simp only [setOracleSources, storeOracle, requireOracleAdmin_seq, store_ok, setPrimaryOracle]
      at h
    obtain ⟨-, rfl⟩ := h
    exact ⟨fun _ => rfl, fun _ => rfl, id⟩
  case setFallbackOracle =>
    simp only [setFallbackOracle, storeOracle, requireOracleAdmin_seq, failIf_seq, asks_seq,
      store_ok] at h
    obtain ⟨-, -, rfl⟩ := h
    exact ⟨fun _ => rfl, fun _ => rfl, id⟩
  case configureOracle =>
    simp only [configureOracle, storeOracle, requireOracleAdmin_seq, failIf_seq, not_or, not_le,
      not_lt, store_ok] at h
    obtain ⟨-, -, -, -, -, -, ⟨hon, -⟩, rfl⟩ := h
    exact ⟨fun _ => rfl, fun _ => rfl, fun _ => hon⟩
  case emergencyPauseAssetOracle caller asset pause =>
    simp only [emergencyPauseAssetOracle, storeOracle, requireOracleAdmin_seq, asks_seq, store_ok]
      at h
    obtain ⟨-, rfl⟩ := h
    refine ⟨fun a => ?_, fun _ => rfl, id⟩
    by_cases ha : a = asset
    · simp [lastSafePrice, getBreakerState, withBreaker, ha]
    · simp [lastSafePrice, getBreakerState, withBreaker, Function.update_of_ne ha]

/-! ## Where prices come from -/

/-- A reading in the run aggregated the feeds of the asset to the price. -/
def Aggregated (txs : List Tx) (asset : Address) (price : ℤ) : Prop :=
  ∃ ys tx zs, txs = ys ++ tx :: zs ∧ tx.op = .getPrice asset ∧
    aggregateSpotPrice tx.env.timestamp (ledger ys).oracle asset = .ok price

/-- A reading in the run answered with a price it had aggregated the feeds for, averaged with prices
that readings before it aggregated. -/
def Vouched (txs : List Tx) (asset : Address) (price : ℤ) : Prop :=
  ∃ ys tx zs, txs = ys ++ tx :: zs ∧ tx.op = .getPrice asset ∧
    (getPrice asset tx.env.timestamp (ledger ys).oracle).value = some price ∧
    Vetted tx.env.timestamp (ledger ys).oracle asset price ∧
    ∀ obs ∈ loadHistory (ledger ys).oracle asset, Aggregated ys asset obs.price

theorem Aggregated.append (h : Aggregated txs asset price) (tx : Tx) :
    Aggregated (txs ++ [tx]) asset price := by
  obtain ⟨ys, x, zs, rfl, h⟩ := h
  exact ⟨ys, x, zs ++ [tx], by simp, h⟩

theorem Vouched.append (h : Vouched txs asset price) (tx : Tx) :
    Vouched (txs ++ [tx]) asset price := by
  obtain ⟨ys, x, zs, rfl, h⟩ := h
  exact ⟨ys, x, zs ++ [tx], by simp, h⟩

/-- What holds of the oracle after a run of its calls. -/
structure PricesVouched (txs : List Tx) : Prop where
  on : 0 < (getOracleConfig (ledger txs).oracle).breakerDeviationBps
  safe : ∀ asset, 0 < lastSafePrice (ledger txs).oracle asset →
    Vouched txs asset (lastSafePrice (ledger txs).oracle asset)
  history : ∀ asset, ∀ obs ∈ loadHistory (ledger txs).oracle asset, Aggregated txs asset obs.price

theorem PricesVouched.nil : PricesVouched [] where
  on := by decide
  safe := fun _ hpos => absurd hpos (lt_irrefl (0 : ℤ))
  history := nofun

/-- A call that is no reading, or fails. -/
theorem PricesVouched.keep {tx : Tx} (h : PricesVouched txs)
    (hkeeps : KeepsSafe (ledger txs).oracle (ledger (txs ++ [tx])).oracle) :
    PricesVouched (txs ++ [tx]) := by
  refine ⟨hkeeps.on h.on, fun asset hpos => ?_, fun asset obs hobs => ?_⟩
  · rw [hkeeps.safe] at hpos ⊢
    exact (h.safe asset hpos).append tx
  · rw [hkeeps.history] at hobs
    exact (h.history asset obs hobs).append tx

/-- The answer of a reading is vouched for, if it is fresh. -/
theorem PricesVouched.fresh {tx : Tx} (h : PricesVouched txs) (hop : tx.op = .getPrice asset)
    (hanswer : getPrice asset tx.env.timestamp (ledger txs).oracle = .ok price o')
    (hread : ReadAfresh tx.env.timestamp (ledger txs).oracle asset price o') :
    Vouched (txs ++ [tx]) asset price :=
  ⟨txs, tx, [], rfl, hop, by rw [hanswer]; rfl, hread.vetted, h.history asset⟩

/-- A reading that is fresh. -/
theorem PricesVouched.read {tx : Tx} (h : PricesVouched txs) (hop : tx.op = .getPrice asset)
    (hanswer : getPrice asset tx.env.timestamp (ledger txs).oracle = .ok price o')
    (hread : ReadAfresh tx.env.timestamp (ledger txs).oracle asset price o')
    (hend : (ledger (txs ++ [tx])).oracle = o') : PricesVouched (txs ++ [tx]) := by
  obtain ⟨spot, state, hspot, hsafe, rfl⟩ := hread.store
  have hbreaker : (ledger (txs ++ [tx])).oracle.circuitBreaker =
      Function.update (ledger txs).oracle.circuitBreaker asset (some state) := by
    rw [hend, withBreaker]
    exact congrArg (Function.update · asset (some state)) (appendObservation_breaker ..)
  refine ⟨?_, fun a hpos => ?_, fun a obs hobs => ?_⟩
  · have hconfig : getOracleConfig (ledger (txs ++ [tx])).oracle =
        getOracleConfig (ledger txs).oracle := by
      rw [hend]
      exact appendObservation_config ..
    rw [hconfig]
    exact h.on
  · rw [lastSafePrice, getBreakerState, hbreaker] at hpos ⊢
    by_cases ha : a = asset
    · rw [ha, Function.update_self, Option.getD_some, hsafe]
      exact h.fresh hop hanswer hread
    · rw [Function.update_of_ne ha] at hpos ⊢
      exact (h.safe a hpos).append tx
  · rw [hend] at hobs
    obtain hold | ⟨rfl, rfl⟩ := mem_appendObservation hobs
    · exact (h.history a obs hold).append tx
    · exact ⟨txs, tx, [], rfl, hop, hspot⟩

/-- **After every run of the oracle's calls, safe prices are vouched for.** -/
theorem pricesVouched (hops : ∀ tx ∈ txs, tx.op.isOracle = true) :
    PricesVouched txs := by
  induction txs using List.reverseRecOn with
  | nil => exact .nil
  | append_singleton txs tx ih =>
    have hbefore := ih fun x hx => hops x (by simp [hx])
    have hop := hops tx (by simp)
    cases hstep : step tx (ledger txs) with
    | none =>
      refine hbefore.keep ?_
      rw [ledger_snoc, exec_of_none hstep]
      exact .refl _
    | some s' =>
      have hend : ledger (txs ++ [tx]) = s' := by rw [ledger_snoc, exec_of_some hstep]
      by_cases hread : ∃ asset, tx.op = .getPrice asset
      · obtain ⟨asset, hget⟩ := hread
        rw [step, hget] at hstep
        obtain ⟨price, hstep⟩ := commit_eq_some.mp hstep
        obtain ⟨o', hanswer, rfl⟩ := ofOracle_ok.mp hstep
        obtain ⟨-, rfl⟩ | ⟨-, hfresh⟩ := getPrice_ok hbefore.on hanswer
        · refine hbefore.keep ?_
          rw [hend]
          exact .refl _
        · exact hbefore.read hget hanswer hfresh (by rw [hend])
      · refine hbefore.keep ?_
        rw [hend]
        exact step_keepsSafe hop (fun asset hget => hread ⟨asset, hget⟩) hstep

/-- A reading that finds a live cache entry finds the last safe price. -/
def FindsLastSafe (s : Storage) (tx : Tx) : Prop :=
  ∀ asset, tx.op = .getPrice asset → ∀ price ∈ getCachedPrice tx.env.timestamp s.oracle asset,
    price = lastSafePrice s.oracle asset

/-- **Every answer is within the band of the last safe price and has been through the aggregation**,
in the runs of the oracle's calls whose readings find nothing but last safe prices in the cache. -/
theorem price_vouched {txs ys zs : List Tx} {tx : Tx}
    (hops : ∀ tx ∈ txs, tx.op.isOracle = true) (h : Meets step FindsLastSafe Storage.empty txs)
    (htxs : txs = ys ++ tx :: zs) (hop : tx.op = .getPrice asset)
    (hanswer : (getPrice asset tx.env.timestamp (ledger ys).oracle).value = some price) :
    (0 < lastSafePrice (ledger ys).oracle asset →
      InBand (ledger ys).oracle price (lastSafePrice (ledger ys).oracle asset)) ∧
      Vouched (ys ++ [tx]) asset price := by
  have hbefore : PricesVouched ys := pricesVouched fun x hx => hops x (by rw [htxs]; simp [hx])
  obtain ⟨o', hanswer⟩ : ∃ o', getPrice asset tx.env.timestamp (ledger ys).oracle =
      .ok price o' := by
    cases hresult : getPrice asset tx.env.timestamp (ledger ys).oracle <;>
      simp only [hresult, Outcome.value, reduceCtorEq, Option.some.injEq] at hanswer
    exact ⟨_, by rw [hanswer]⟩
  obtain ⟨hcached, rfl⟩ | ⟨-, hfresh⟩ := getPrice_ok hbefore.on hanswer
  · have hstep : step tx (ledger ys) = some (ledger ys) := by
      rw [step, hop]
      exact commit_eq_some.mpr ⟨price, ofOracle_ok.mpr ⟨_, hanswer, rfl⟩⟩
    obtain rfl := meets_iff.mp h ys tx zs _ htxs hstep asset hop price hcached
    have hpositive := (Reachable.settled ⟨ys, rfl⟩).positive
    have hpos : 0 < lastSafePrice (ledger ys).oracle asset :=
      ((getPrice_keeps PricesPositive.kept asset).ok hpositive hanswer).2
    exact ⟨fun _ => ⟨0, deviationBps_self hpos, hbefore.on.le⟩, (hbefore.safe asset hpos).append tx⟩
  · exact ⟨hfresh.inBand, hbefore.fresh hop hanswer hfresh⟩

namespace Sample

/-- Alice is the fallback oracle, and the admin submits a price of 100. -/
def quoted : List Tx :=
  [deploy, ⟨envAt 5 [admin], .setFallbackOracle admin usdc alice⟩,
    ⟨envAt 10 [admin], .updatePriceFeed admin usdc 100 8 bob⟩]

def readAt (now : ℕ) : Tx := ⟨envAt now [], .getPrice usdc⟩

/-- Once the price has left the cache, a reading takes it from the feed. -/
def priced : List Tx := quoted ++ [readAt 400]

/-- Alice submits 130. -/
def submitted : List Tx :=
  priced ++ [⟨envAt 401 [alice], .updatePriceFeed alice usdc 130 8 alice⟩]

end Sample

theorem price_vouched_priced :
    (0 < lastSafePrice (ledger Sample.priced).oracle Sample.usdc →
      InBand (ledger Sample.priced).oracle 100
        (lastSafePrice (ledger Sample.priced).oracle Sample.usdc)) ∧
      Vouched (Sample.priced ++ [Sample.readAt 500]) Sample.usdc 100 := by
  have hfirst : getCachedPrice 400 (ledger Sample.quoted).oracle Sample.usdc = none := by
    decide
  have hsecond : getCachedPrice 500 (ledger Sample.priced).oracle Sample.usdc =
      some (lastSafePrice (ledger Sample.priced).oracle Sample.usdc) := by decide
  have hmeets : Meets step FindsLastSafe Storage.empty (Sample.priced ++ [Sample.readAt 500]) := by
    refine meets_append.mpr ⟨meets_append.mpr ⟨⟨fun _ => nofun, fun _ => nofun, fun _ => nofun,
      trivial⟩, fun _ asset hop price hprice => ?_, trivial⟩, fun _ asset hop price hprice => ?_,
      trivial⟩
    · obtain rfl := Op.getPrice.inj hop
      exact absurd (hfirst.symm.trans hprice) nofun
    · obtain rfl := Op.getPrice.inj hop
      exact (Option.some.inj (hsecond.symm.trans hprice)).symm
  exact price_vouched (by decide) hmeets rfl rfl (by decide)

/-- A submission thirty per cent off is the answer, while the feed at 100 is fresh. -/
theorem price_not_vouched_submitted :
    ¬ ∀ txs ys zs tx asset price, (∀ tx ∈ txs, tx.op.isOracle = true) → txs = ys ++ tx :: zs →
      tx.op = .getPrice asset →
      (getPrice asset tx.env.timestamp (ledger ys).oracle).value = some price →
      (0 < lastSafePrice (ledger ys).oracle asset →
        InBand (ledger ys).oracle price (lastSafePrice (ledger ys).oracle asset)) ∧
        Vouched (ys ++ [tx]) asset price := by
  intro hall
  have hsafe : lastSafePrice (ledger Sample.submitted).oracle Sample.usdc = 100 := by
    decide
  have hband : (getOracleConfig (ledger Sample.submitted).oracle).breakerDeviationBps = 2500 := by
    decide
  obtain ⟨hnear, -⟩ := hall (Sample.submitted ++ [Sample.readAt 402]) Sample.submitted []
    (Sample.readAt 402) Sample.usdc 130 (by decide) rfl rfl (by decide)
  rw [hsafe] at hnear
  obtain ⟨d, hd, hle⟩ := hnear (by decide)
  rw [show deviationBps 130 100 = some 3000 by decide, Option.some.injEq] at hd
  rw [hband] at hle
  omega

end StellarLend.HelloWorld
