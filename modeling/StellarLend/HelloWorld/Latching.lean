import StellarLend.HelloWorld.Pricing

/-!
# HelloWorld/Latching — a breaker that trips and forgets it

    spot too far off ──▸ open_until written ──▸ error returned ──▸ the host drops the write

A reading records that it tripped in the same invocation that it fails in, so of a trip nothing is
left.  Within the cooldown anybody who gets an acceptable price into the cache gets it out again
(`latched_iff`).  A caller that catches the error keeps the record: `ObservesDeviation.latches`.
-/

namespace StellarLend.HelloWorld

open Foundations Call
open Lending (Address)

variable {now : ℕ} {e : Env} {o : OracleStore} {s s' : Storage} {asset : Address}

/-- A reading gets as far as the spot price and finds it further off the last safe price than the
breaker allows. -/
structure ObservesDeviation (now : ℕ) (o : OracleStore) (asset : Address) : Prop where
  closed : isBreakerOpen now o asset = false
  uncached : getCachedPrice now o asset = none
  deviates : ∃ spot d, aggregateSpotPrice now o asset = .ok spot ∧ 0 < lastSafePrice o asset ∧
    deviationBps spot (lastSafePrice o asset) = some d ∧
    0 < (getOracleConfig o).breakerDeviationBps ∧ (getOracleConfig o).breakerDeviationBps < d

/-- The end of a cooldown that starts now. -/
def cooldownEnd (now : ℕ) (o : OracleStore) : ℕ :=
  U64.saturatingAdd now (getOracleConfig o).breakerCooldownSeconds

/-- Whatever follows a reading, every reading of the asset fails until the cooldown is over. -/
def Latched (txs : List Tx) (e : Env) (asset : Address) : Prop :=
  ∀ ys now, List.Pairwise (· ≤ ·) (e.timestamp :: ys.map (fun tx => tx.env.timestamp) ++ [now]) →
    now < cooldownEnd e.timestamp (ledger txs).oracle →
      (getPrice asset now (ledger (txs ++ ⟨e, .getPrice asset⟩ :: ys)).oracle).value = none

/-! ## The trip -/

/-- **The reading trips the breaker and fails.** -/
theorem ObservesDeviation.trips (h : ObservesDeviation now o asset) :
    getPrice asset now o = .err .circuitBreakerOpen
      (withBreaker asset ⟨cooldownEnd now o, lastSafePrice o asset, now⟩ o) := by
  obtain ⟨spot, d, hspot, hsafe, hd, hon, hfar⟩ := h.deviates
  have htrip : maybeTripBreaker asset spot now o = .err .circuitBreakerOpen
      (withBreaker asset ⟨cooldownEnd now o, lastSafePrice o asset, now⟩ o) := by
    unfold lastSafePrice at hsafe hd
    simp [maybeTripBreaker, not_le.mpr hon, not_le.mpr hsafe, hd, hfar, cooldownEnd, lastSafePrice]
  have hfresh : freshPrice asset now o = .err .circuitBreakerOpen
      (withBreaker asset ⟨cooldownEnd now o, lastSafePrice o asset, now⟩ o) := by
    simp only [freshPrice, bind_err, asks_err, asks_ok, id_eq, view_err, view_ok, ofExcept_err,
      ofExcept_ok, store_err, store_ok, pure_err, and_false, exists_false, exists_const, or_self,
      or_false, ↓existsAndEq, and_true, exists_eq_left', false_or, hspot, reduceCtorEq, false_and,
      Except.ok.injEq, htrip, or_true]
  simp [getPrice, h.closed, h.uncached, hfresh]

/-- **A caller that catches the error latches the breaker.** -/
theorem ObservesDeviation.latches {ε : Type} (h : ObservesDeviation now o asset) (default : ℤ) :
    ∃ o', (priceOr default asset : Call ℕ OracleStore ε ℤ) now o = .ok default o' ∧
      ∀ later, later < cooldownEnd now o → isBreakerOpen later o' asset = true := by
  refine ⟨withBreaker asset ⟨cooldownEnd now o, lastSafePrice o asset, now⟩ o, ?_,
    fun later hlater => ?_⟩
  · exact bind_ok.mpr ⟨.error .circuitBreakerOpen, _, attempt_ok.mpr h.trips, rfl⟩
  · simpa [isBreakerOpen, getBreakerState, withBreaker] using hlater

/-- **An invocation of its own leaves no trace of the trip.** -/
theorem ObservesDeviation.forgotten (h : ObservesDeviation e.timestamp s.oracle asset) :
    step ⟨e, .getPrice asset⟩ s = none := by
  cases hstep : step ⟨e, .getPrice asset⟩ s with
  | none => rfl
  | some s' =>
    obtain ⟨price, hread⟩ := commit_eq_some.mp hstep
    obtain ⟨o', hanswer, -⟩ := ofOracle_ok.mp hread
    rw [h.trips] at hanswer
    cases hanswer

/-! ## Getting a price all the same -/

/-- The price of the feed that a submission of the admin replaces, or some price. -/
def feedPrice (o : OracleStore) (asset : Address) : ℤ :=
  ((o.priceFeed asset).map PriceFeed.price).getD 1

/-- Limits that let a price pass. -/
def limitsFor (price : ℤ) : OracleConfig := { OracleConfig.default with maxPrice := price }

/-- The admin sets the limits and submits the price of the feed again.  Without an admin the caller
becomes it first. -/
def resubmission (e : Env) (admin asset : Address) (price : ℤ) : List Tx :=
  [⟨e, .transferAdmin admin admin⟩, ⟨e, .configureOracle admin (limitsFor price)⟩,
    ⟨e, .updatePriceFeed admin asset price 0 admin⟩]

theorem feedPrice_pos (h : PricesPositive o) (asset : Address) : 0 < feedPrice o asset := by
  rw [feedPrice]
  cases hfeed : o.priceFeed asset with
  | none => decide
  | some feed => exact h.feed asset feed hfeed

theorem transferAdmin_step {admin : Address} (h : ∀ a, s.admin = some a → a = admin) :
    step ⟨e, .transferAdmin admin admin⟩ s = some { s with admin := some admin } := by
  refine commit_eq_some.mpr ⟨(), ?_⟩
  simp only [HelloContract.transferAdmin, mapErr_ok, setAdmin, ↓view_seq, ↓failIf_seq, store_ok,
    getAdmin, and_true]
  rintro ⟨hsome, hne⟩
  obtain ⟨a, ha⟩ := Option.isSome_iff_exists.mp hsome
  exact hne (by rw [ha, h a ha])

theorem configureOracle_step {admin : Address} (price : ℤ) (h : s.admin = some admin) :
    step ⟨e, .configureOracle admin (limitsFor price)⟩ s =
      some { s with oracle := { s.oracle with oracleConfig := some (limitsFor price) } } := by
  refine commit_eq_some.mpr ⟨(), ?_⟩
  simp only [configureOracle, requireOracleAdmin, requireAdmin, ne_eq, limitsFor,
    OracleConfig.default, storeOracle, h, bind_ok, mapErr_ok, view_ok, getAdmin, okOr_ok, failIf_ok,
    Decidable.not_not, exists_eq_right_right, exists_eq_right, true_and, Int.reduceLE, Int.reduceLT,
    or_self, not_false_eq_true, OfNat.ofNat_ne_zero, one_ne_zero, Nat.reduceLT, store_ok,
    Storage.mk.injEq, OracleStore.mk.injEq, exists_eq_left', exists_const, and_self]

/-- The price of the feed passes the limits set for it, and does not deviate from itself. -/
theorem updatePriceFeed_step {admin : Address} (asset : Address) (h : s.admin = some admin)
    (hunswitched : s.oracle.pauseSwitches = none) (hpos : 0 < feedPrice s.oracle asset)
    (hlimits : s.oracle.oracleConfig = some (limitsFor (feedPrice s.oracle asset))) :
    step ⟨e, .updatePriceFeed admin asset (feedPrice s.oracle asset) 0 admin⟩ s =
      some { s with
        oracle := withFeed e.timestamp false true asset
          ⟨feedPrice s.oracle asset, e.timestamp, admin, 0⟩ s.oracle } := by
  have hvalid : validatePrice s.oracle (feedPrice s.oracle asset) = .ok () := by
    rw [validatePrice, if_neg (by omega), getOracleConfig, hlimits, Option.getD_some, if_neg]
    simp only [limitsFor, OracleConfig.default]
    omega
  have hadmin : getAdmin s = some admin := h
  have hfallback : writesFallback s admin asset = false := by simp [writesFallback, hadmin]
  have hdeviation : ∀ feed, s.oracle.priceFeed asset = some feed →
      checkPriceDeviation s.oracle (feedPrice s.oracle asset) feed.price = .ok () := by
    intro feed hfeed
    have hprice : feedPrice s.oracle asset = feed.price := by
      rw [feedPrice, hfeed, Option.map_some, Option.getD_some]
    rw [hprice] at hpos hlimits ⊢
    simp [checkPriceDeviation, hpos.ne', deviationBps_self hpos, getOracleConfig, hlimits,
      limitsFor, OracleConfig.default, orErr]
  refine commit_eq_some.mpr ⟨feedPrice s.oracle asset, ?_⟩
  simp only [updatePriceFeed, ne_eq, storeOracle, bind_ok, ↓view_seq, view_ok, hunswitched,
    ↓failIf_seq, Bool.not_eq_true, not_and, not_true_eq_false, and_false, not_false_eq_true,
    true_and, ↓ofExcept_seq, ↓asks_seq, ↓store_seq, pure_ok, Storage.mk.injEq, exists_const,
    ↓existsAndEq, and_true, exists_eq_left', exists_and_right, decide_eq_false_iff_not, hadmin,
    IsEmpty.forall_iff, hvalid, hfallback, Bool.false_eq_true, ↓reduceIte, decide_true, and_self,
    Option.any_none]
  cases hfeed : s.oracle.priceFeed asset with
  | none => exact ⟨(), rfl⟩
  | some feed => exact ⟨(), hdeviation feed hfeed⟩

/-- A feed just submitted is the answer while the breaker is closed. -/
theorem getPrice_withFeed {fallback isAdmin : Bool} {feed : PriceFeed}
    (hclosed : isBreakerOpen now o asset = false) (hnow : now ≤ U64.MAX) :
    (getPrice asset now (withFeed now fallback isAdmin asset feed o)).value = some feed.price := by
  have hopen : isBreakerOpen now (withFeed now fallback isAdmin asset feed o) asset = false :=
    hclosed
  have hlive : getCachedPrice now (withFeed now fallback isAdmin asset feed o) asset =
      some feed.price := by
    simp [withFeed, cachePrice, getCachedPrice, U64.saturatingAdd, hnow]
  have hanswer : getPrice asset now (withFeed now fallback isAdmin asset feed o) =
      .ok feed.price (withFeed now fallback isAdmin asset feed o) := by
    simp [getPrice, hopen, hlive]
  rw [hanswer]
  rfl

/-- After the resubmission the price of the feed is the answer. -/
theorem resubmission_answers {admin : Address} (hadmin : ∀ a, s.admin = some a → a = admin)
    (hclosed : isBreakerOpen e.timestamp s.oracle asset = false) (hnow : e.timestamp ≤ U64.MAX)
    (hpositive : PricesPositive s.oracle) (hunswitched : s.oracle.pauseSwitches = none) :
    ∃ t, chain step s (resubmission e admin asset (feedPrice s.oracle asset)) = some t ∧
      (getPrice asset e.timestamp t.oracle).value = some (feedPrice s.oracle asset) := by
  set price := feedPrice s.oracle asset with hprice
  let configured : OracleStore := { s.oracle with oracleConfig := some (limitsFor price) }
  have hadmitted := transferAdmin_step (e := e) hadmin
  have hconfigured := configureOracle_step price (e := e) (s := { s with admin := some admin }) rfl
  have hsubmitted := updatePriceFeed_step asset (e := e)
    (s := { s with admin := some admin, oracle := configured }) rfl hunswitched
    (feedPrice_pos hpositive asset) rfl
  refine ⟨{ s with
    admin := some admin
    oracle := withFeed e.timestamp false true asset ⟨price, e.timestamp, admin, 0⟩ configured }, ?_,
    ?_⟩
  · simp only [resubmission, chain_cons, chain_nil]
    rw [hadmitted, Option.bind_some, hconfigured, Option.bind_some]
    exact congrArg (Option.bind · some) hsubmitted
  · exact getPrice_withFeed (o := configured) hclosed hnow

/-- **The breaker latches if and only if its cooldown is over at once.** -/
theorem latched_iff {txs : List Tx} (h : ObservesDeviation e.timestamp (ledger txs).oracle asset) :
    Latched txs e asset ↔ cooldownEnd e.timestamp (ledger txs).oracle ≤ e.timestamp := by
  have hreachable : Reachable (ledger txs) := ⟨txs, rfl⟩
  constructor
  · intro hlatched
    by_contra hover
    rw [not_le] at hover
    have hnow : e.timestamp ≤ U64.MAX := hover.le.trans (min_le_right _ _)
    obtain ⟨admin, hadmin⟩ : ∃ admin, ∀ a, (ledger txs).admin = some a → a = admin :=
      ⟨(ledger txs).admin.getD ⟨0⟩, fun a ha => by rw [ha, Option.getD_some]⟩
    obtain ⟨t, hchain, hanswer⟩ := resubmission_answers hadmin h.closed hnow
      hreachable.settled.positive hreachable.unswitched
    have hnone := hlatched (resubmission e admin asset (feedPrice (ledger txs).oracle asset))
      e.timestamp (by simp [resubmission]) hover
    rw [ledger, run_append, run_cons, ← ledger, exec_of_none h.forgotten, run_of_chain hchain,
      hanswer] at hnone
    cases hnone
  · intro hover ys now hordered hnow
    have hlater : e.timestamp ≤ now := by
      rw [List.cons_append, List.pairwise_cons] at hordered
      exact hordered.1 now (by simp)
    omega

namespace Sample

/-- The breaker allows one per cent, and the admin submits four per cent more. -/
def deviating : List Tx :=
  priced ++ [⟨envAt 401 [admin], .configureOracle admin
      { OracleConfig.default with breakerDeviationBps := 100 }⟩,
    ⟨envAt 401 [admin], .updatePriceFeed admin usdc 104 8 bob⟩]

/-- The admin takes the price back. -/
def normal : Tx := ⟨envAt 703 [admin], .updatePriceFeed admin usdc 100 8 bob⟩

theorem deviating_observed : ObservesDeviation 702 (ledger deviating).oracle usdc where
  closed := by decide
  uncached := by decide
  deviates := ⟨104, 400, by decide, by decide, by decide,
    by decide, by decide⟩

end Sample

theorem latched_iff_deviating :
    Latched Sample.deviating (Sample.envAt 702 []) Sample.usdc ↔
      cooldownEnd 702 (ledger Sample.deviating).oracle ≤ 702 :=
  latched_iff Sample.deviating_observed

/-- A second after the trip the price is back to normal, and so is the reading. -/
theorem not_latched_deviating :
    ¬ ∀ txs e asset, ObservesDeviation e.timestamp (ledger txs).oracle asset →
      Latched txs e asset := by
  intro hall
  have hnone := hall Sample.deviating (Sample.envAt 702 []) Sample.usdc Sample.deviating_observed
    [Sample.normal] 703 (by decide) (by decide)
  have hanswer : (getPrice Sample.usdc 703 (ledger (Sample.deviating ++
      Sample.readAt 702 :: [Sample.normal])).oracle).value = some 100 := by decide
  exact absurd (hanswer.symm.trans hnone) nofun

end StellarLend.HelloWorld
