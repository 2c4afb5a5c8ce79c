import StellarLend.HelloWorld.Ballots
import StellarLend.HelloWorld.Contract

/-!
# HelloWorld/OracleVotes — one oracle, two slots

    submit ──▸ own slot, and primary or fallback slot ──aggregate──▸ one vote, or two

A submission writes the oracle's own slot as well, and whoever is a listed source votes from it
again.  The primary slot is read whoever it is of, and a listed source that is nothing else may not
submit at all.  `Steady` says call by call what keeps every candidate of one configured oracle and
every configured oracle able to submit (`oracle_sound_iff`).
-/

namespace StellarLend.HelloWorld

open Foundations Call
open Lending (Address)

variable {now : ℕ} {e : Env} {o o' : OracleStore} {s s' : Storage} {tx : Tx} {d d' : Dated}
  {caller asset oracle v : Address} {price : ℤ} {decimals : ℕ}

/-! ## Runs of the oracle's calls -/

/-- The contract, and the ledger time of its last call. -/
structure Dated where
  now : ℕ
  store : Storage

def Dated.empty : Dated := ⟨0, Storage.empty⟩

/-- Setting the oracles of an asset and submitting its price, on a contract that is initialised. -/
def Op.tendsOracle : Op → Bool
  | .initializeContract _ => true
  | .setPrimaryOracle .. => true
  | .setFallbackOracle .. => true
  | .setOracleSources .. => true
  | .updatePriceFeed .. => true
  | _ => false

/-- One of these calls.  The ledger time does not go back. -/
def oracleStep (tx : Tx) (d : Dated) : Option Dated :=
  if tx.op.tendsOracle = true ∧ d.now ≤ tx.env.timestamp then
    (step tx d.store).map (Dated.mk tx.env.timestamp)
  else none

/-! ## What a run should keep -/

/-- The feed that a submission of the caller replaces. -/
def replacedFeed (s : Storage) (caller asset : Address) : Option PriceFeed :=
  if writesFallback s caller asset then s.oracle.fallbackFeed asset else s.oracle.priceFeed asset

/-- A price that the oracle takes in place of the one it has. -/
structure Acceptable (s : Storage) (caller asset : Address) (price : ℤ) : Prop where
  unpaused : ¬ s.oracle.pauseSwitches.any (fun f => (f "pause_oracle").getD false) = true
  valid : validatePrice s.oracle price = .ok ()
  near : ∀ feed, replacedFeed s caller asset = some feed →
    checkPriceDeviation s.oracle price feed.price = .ok ()

/-- A submission of an acceptable price in one's own name is taken. -/
def CanSubmit (s : Storage) (asset v : Address) : Prop :=
  ∀ e price decimals, Acceptable s v asset price →
    ∃ s', updatePriceFeed v asset price decimals v e s = .ok price s'

/-- From now on every candidate is of a configured oracle of its own, and every configured oracle
can submit. -/
structure OracleSound (d : Dated) : Prop where
  votes : ∀ now asset, d.now ≤ now → OneVote now d.store.oracle asset
  submits : ∀ asset v, ConfiguredFor d.store.oracle asset v → CanSubmit d.store asset v

/-- Whose submissions are not refused. -/
def Authorized (s : Storage) (asset v : Address) : Prop :=
  getAdmin s = some v ∨ getPrimaryOracle s.oracle asset = some v ∨
    getFallbackOracle s.oracle asset = some v

/-! ## What keeps it -/

/-- A new primary oracle leaves no fresh feed of an oracle that is configured no longer, nor a
listed source that could submit as the primary oracle only. -/
structure SteadyPrimary (now : ℕ) (s : Storage) (asset primary : Address) : Prop where
  feed : ∀ v, hasFresh now s.oracle (s.oracle.priceFeed asset) v = true →
    v = primary ∨ getFallbackOracle s.oracle asset = some v ∨ v ∈ getOracleSources s.oracle asset
  authorized : ∀ v ∈ getOracleSources s.oracle asset,
    getAdmin s = some v ∨ v = primary ∨ getFallbackOracle s.oracle asset = some v

/-- A new fallback oracle: the same, and it has no other fresh feed if the one in the fallback slot
is of it. -/
structure SteadyFallback (now : ℕ) (s : Storage) (asset fallback : Address) : Prop where
  feed : ∀ v, hasFresh now s.oracle (s.oracle.priceFeed asset) v = true →
    getPrimaryOracle s.oracle asset = some v ∨ v = fallback ∨ v ∈ getOracleSources s.oracle asset
  authorized : ∀ v ∈ getOracleSources s.oracle asset,
    getAdmin s = some v ∨ getPrimaryOracle s.oracle asset = some v ∨ v = fallback
  apart : hasFresh now s.oracle (s.oracle.fallbackFeed asset) fallback = true →
    hasFresh now s.oracle (s.oracle.priceFeed asset) fallback = false ∧
      fallback ∉ freshSources now s.oracle asset (getOracleSources s.oracle asset)

/-- New sources can submit as something else, those with a fresh feed are listed once and have no
other, and the primary slot has none of an oracle that is configured no longer. -/
structure SteadySources (now : ℕ) (s : Storage) (asset : Address) (sources : List Address) :
    Prop where
  feed : ∀ v, hasFresh now s.oracle (s.oracle.priceFeed asset) v = true →
    getPrimaryOracle s.oracle asset = some v ∨ getFallbackOracle s.oracle asset = some v ∨
      v ∈ sources
  authorized : ∀ v ∈ sources, Authorized s asset v
  listed : (freshSources now s.oracle asset sources).Nodup
  unlisted : ∀ v ∈ freshSources now s.oracle asset sources,
    hasFresh now s.oracle (s.oracle.priceFeed asset) v = false ∧
      ¬ (getFallbackOracle s.oracle asset = some v ∧
        hasFresh now s.oracle (s.oracle.fallbackFeed asset) v = true)

/-- A feed of an oracle that is no listed source and has no fresh feed in the other slot; where the
admin submits it, the listed sources can submit without being the primary oracle. -/
structure SteadyFeed (now : ℕ) (s : Storage) (caller asset oracle : Address) : Prop where
  unlisted : oracle ∉ getOracleSources s.oracle asset
  primary : writesFallback s caller asset = true →
    hasFresh now s.oracle (s.oracle.priceFeed asset) oracle = false
  fallback : writesFallback s caller asset = false →
    ¬ (getFallbackOracle s.oracle asset = some oracle ∧
      hasFresh now s.oracle (s.oracle.fallbackFeed asset) oracle = true)
  authorized : getAdmin s = some caller → ∀ v ∈ getOracleSources s.oracle asset,
    getAdmin s = some v ∨ getFallbackOracle s.oracle asset = some v

/-- What a call finds that keeps one vote to one oracle. -/
def Steady (d : Dated) (tx : Tx) : Prop :=
  match tx.op with
  | .setPrimaryOracle _ asset primary => SteadyPrimary tx.env.timestamp d.store asset primary
  | .setFallbackOracle _ asset fallback => SteadyFallback tx.env.timestamp d.store asset fallback
  | .setOracleSources _ asset sources => SteadySources tx.env.timestamp d.store asset sources
  | .updatePriceFeed caller asset _ _ oracle =>
    SteadyFeed tx.env.timestamp d.store caller asset oracle
  | _ => True

/-! ## What each call does -/

/-- A price that was taken. -/
structure Submitted (e : Env) (s : Storage) (caller asset : Address) (price : ℤ) (decimals : ℕ)
    (oracle : Address) (s' : Storage) : Prop where
  authorized : Authorized s asset caller
  named : getAdmin s = some caller ∨ caller = oracle
  valid : validatePrice s.oracle price = .ok ()
  after : s' =
    { s with
      oracle := withFeed e.timestamp (writesFallback s caller asset)
        (decide (getAdmin s = some caller)) asset ⟨price, e.timestamp, oracle, decimals⟩ s.oracle }

theorem updatePriceFeed_effect {r : ℤ}
    (h : updatePriceFeed caller asset price decimals oracle e s = .ok r s') :
    Submitted e s caller asset price decimals oracle s' := by
  simp only [updatePriceFeed, storeOracle, view_seq, failIf_seq, ofExcept_seq, asks_seq, store_seq,
    pure_ok] at h
  obtain ⟨-, hauthorized, hnamed, _, hvalid, _, -, -, rfl⟩ := h
  refine ⟨?_, ?_, hvalid, rfl⟩
  · simp only [decide_eq_false_iff_not] at hauthorized
    unfold Authorized
    tauto
  · simp only [decide_eq_false_iff_not] at hnamed
    tauto

theorem initializeContract_effect {admin : Address} {u : Unit}
    (h : HelloContract.initializeContract admin e s = .ok u s') :
    s.admin = none ∧ s'.oracle = s.oracle := by
  simp only [HelloContract.initializeContract, setAdmin, initializeRiskManagement,
    initializeRiskParams, initializeInterestRateConfig, view_seq, failIf_seq, mapErr_seq, mapErr_ok,
    store_ok, asks_seq, ofExcept_seq, and_assoc, exists_and_left, exists_eq_left', exists_const]
    at h
  obtain ⟨hnew, -, _, t, hmanagement, _, ⟨_, -, rfl⟩, -, rfl⟩ := h
  refine ⟨by simpa [hasAdmin] using hnew, ?_⟩
  split at hmanagement
  · obtain ⟨-, rfl⟩ := pure_ok.mp hmanagement
    rfl
  · simp only [asks_seq, view_seq, store_seq, store_ok] at hmanagement
    subst hmanagement
    rfl

/-- What a call does to the oracles of an asset. -/
def Op.Tends (e : Env) (s s' : Storage) : Op → Prop
  | .initializeContract _ => s.admin = none ∧ s'.oracle = s.oracle
  | .setPrimaryOracle _ asset primary => s' =
    { s with
      oracle :=
        { s.oracle with
          primaryOracle := Function.update s.oracle.primaryOracle asset (some primary) } }
  | .setFallbackOracle _ asset fallback => s' =
    { s with
      oracle :=
        { s.oracle with
          fallbackOracle := Function.update s.oracle.fallbackOracle asset (some fallback) } }
  | .setOracleSources _ asset sources => s' =
    { s with
      oracle :=
        { s.oracle with
          oracleSources := Function.update s.oracle.oracleSources asset (some sources) } }
  | .updatePriceFeed caller asset price decimals oracle =>
    Submitted e s caller asset price decimals oracle s'
  | _ => False

theorem oracleStep_effect (h : oracleStep tx d = some d') : d.now ≤ tx.env.timestamp ∧
    d'.now = tx.env.timestamp ∧ tx.op.Tends tx.env d.store d'.store := by
  unfold oracleStep at h
  split at h
  case isFalse => cases h
  case isTrue htends =>
    obtain ⟨s', hstep, rfl⟩ := Option.map_eq_some_iff.mp h
    refine ⟨htends.2, rfl, ?_⟩
    obtain ⟨e, op⟩ := tx
    cases op <;> simp only [Op.tendsOracle, Bool.false_eq_true, false_and] at htends <;>
      simp only [step, Op.apply, commit_eq_some] at hstep <;> obtain ⟨r, hcall⟩ := hstep
    case initializeContract => exact initializeContract_effect hcall
    case updatePriceFeed => exact updatePriceFeed_effect hcall
    case setPrimaryOracle =>
      simp only [setPrimaryOracle, storeOracle, requireOracleAdmin_seq, store_ok] at hcall
      obtain ⟨_, _, ⟨-, rfl⟩, rfl⟩ := hcall
      rfl
    case setFallbackOracle =>
      simp only [setFallbackOracle, storeOracle, requireOracleAdmin_seq, asks_seq, failIf_seq,
        store_ok] at hcall
      obtain ⟨_, _, ⟨-, rfl⟩, _, _, ⟨-, rfl⟩, _, _, ⟨-, rfl⟩, rfl⟩ := hcall
      rfl
    case setOracleSources =>
      simp only [setOracleSources, storeOracle, requireOracleAdmin_seq, store_ok] at hcall
      obtain ⟨_, _, ⟨-, rfl⟩, rfl⟩ := hcall
      rfl

/-! ## The feeds along a run -/

/-- What every call keeps of the feeds: the configuration is the one of a deployment, a source's
slot is of the source, and feeds are of the past and of prices within the limits. -/
structure FeedsKept (d : Dated) : Prop where
  config : d.store.oracle.oracleConfig = none
  unpaused : d.store.oracle.pauseSwitches = none
  named : SourcesNamed d.store.oracle
  past : FeedsPast d.now d.store.oracle
  primary : ∀ asset feed, d.store.oracle.priceFeed asset = some feed →
    0 < feed.price ∧ feed.price ≤ I128.MAX
  fallback : ∀ asset feed, d.store.oracle.fallbackFeed asset = some feed →
    0 < feed.price ∧ feed.price ≤ I128.MAX

theorem FeedsKept.empty : FeedsKept Dated.empty where
  config := rfl
  unpaused := rfl
  named := nofun
  past := ⟨nofun, nofun, nofun⟩
  primary := nofun
  fallback := nofun

theorem validatePrice_iff (h : o.oracleConfig = none) :
    validatePrice o price = .ok () ↔ 0 < price ∧ price ≤ I128.MAX := by
  have hconfig : getOracleConfig o = .default := by rw [getOracleConfig, h]; rfl
  rw [validatePrice, hconfig]
  change (if price ≤ 0 then _ else if price < 1 ∨ I128.MAX < price then _ else _) = _ ↔ _
  split
  case isTrue hle => simp [not_lt.mpr hle]
  case isFalse hpos =>
    split
    case isTrue hout =>
      simp only [reduceCtorEq, false_iff, not_and]
      omega
    case isFalse hin =>
      simp only [true_iff]
      omega

/-- Feeds of the past stay of the past. -/
theorem FeedsPast.mono (h : FeedsPast now o) {now' : ℕ} (hnow : now ≤ now') : FeedsPast now' o where
  primary asset feed hfeed := (h.primary asset feed hfeed).trans hnow
  fallback asset feed hfeed := (h.fallback asset feed hfeed).trans hnow
  source asset source feed hfeed := (h.source asset source feed hfeed).trans hnow

/-- Nothing but the oracles that are configured differs. -/
theorem FeedsKept.of_roles (h : FeedsKept d) (hnow : d.now ≤ d'.now)
    {primary fallback : Address → Option Address} {sources : Address → Option (List Address)}
    (hsame : d'.store.oracle =
      { d.store.oracle with
        primaryOracle := primary
        fallbackOracle := fallback
        oracleSources := sources }) : FeedsKept d' where
  config := by rw [hsame]; exact h.config
  unpaused := by rw [hsame]; exact h.unpaused
  named := by rw [hsame]; exact h.named
  past := by
    have hpast := h.past.mono hnow
    rw [hsame]
    exact ⟨hpast.primary, hpast.fallback, hpast.source⟩
  primary := by rw [hsame]; exact h.primary
  fallback := by rw [hsame]; exact h.fallback

section WithFeed

variable {fallback isAdmin : Bool} {asset : Address} {feed : PriceFeed} (b : Address)

theorem withFeed_priceFeed : (withFeed now fallback isAdmin asset feed o).priceFeed b =
    if b = asset ∧ fallback = false then some feed else o.priceFeed b := by
  cases fallback <;> simp [withFeed, cachePrice, Function.update_apply]

theorem withFeed_fallbackFeed : (withFeed now fallback isAdmin asset feed o).fallbackFeed b =
    if b = asset ∧ fallback = true then some feed else o.fallbackFeed b := by
  cases fallback <;> simp [withFeed, cachePrice, Function.update_apply]

theorem withFeed_primaryOracle : (withFeed now fallback isAdmin asset feed o).primaryOracle b =
    if b = asset ∧ isAdmin = true then some feed.oracle else o.primaryOracle b := by
  cases isAdmin <;> simp [withFeed, cachePrice, Function.update_apply]

theorem withFeed_sourceFeed (v : Address) :
    (withFeed now fallback isAdmin asset feed o).sourceFeed b v =
      if b = asset ∧ v = feed.oracle then some feed else o.sourceFeed b v := by
  by_cases hb : b = asset
  · simp [withFeed, cachePrice, hb, Function.update_apply]
  · simp [withFeed, cachePrice, hb]

end WithFeed

/-- What holds of the feeds in the slots of one kind, and of the one submitted, holds after. -/
theorem forall_slot {P : Address → PriceFeed → Prop} {slot slot' : Address → Option PriceFeed}
    {c : Address → Prop} [DecidablePred c] {feed : PriceFeed}
    (hslot : ∀ a, slot' a = if c a then some feed else slot a)
    (hold : ∀ a found, slot a = some found → P a found) (hnew : ∀ a, c a → P a feed) :
    ∀ a found, slot' a = some found → P a found := by
  intro a found hfound
  rw [hslot] at hfound
  split at hfound
  case isTrue hc =>
    obtain rfl := Option.some.inj hfound
    exact hnew a hc
  case isFalse => exact hold a found hfound

theorem FeedsKept.submitted (h : FeedsKept d) (hnow : d.now ≤ d'.now)
    (hsubmitted : Submitted e d.store caller asset price decimals oracle d'.store)
    (htime : d'.now = e.timestamp) : FeedsKept d' := by
  have hvalid := (validatePrice_iff h.config).mp hsubmitted.valid
  have hpast := h.past.mono hnow
  obtain ⟨now', s'⟩ := d'
  obtain rfl := htime
  obtain rfl := hsubmitted.after
  exact
    { config := h.config
      unpaused := h.unpaused
      named := fun a =>
        forall_slot (withFeed_sourceFeed a) (h.named a) fun v hv => hv.2.symm
      past :=
        { primary := forall_slot withFeed_priceFeed hpast.primary fun _ _ => le_rfl
          fallback := forall_slot withFeed_fallbackFeed hpast.fallback fun _ _ => le_rfl
          source := fun a =>
            forall_slot (withFeed_sourceFeed a) (hpast.source a) fun _ _ => le_rfl }
      primary := forall_slot withFeed_priceFeed h.primary fun _ _ => hvalid
      fallback := forall_slot withFeed_fallbackFeed h.fallback fun _ _ => hvalid }

/-- The calls that set an oracle leave the feeds. -/
theorem FeedsKept.step (h : FeedsKept d) (hstep : oracleStep tx d = some d') : FeedsKept d' := by
  obtain ⟨hnow, htime, htends⟩ := oracleStep_effect hstep
  rw [← htime] at hnow
  obtain ⟨e, op⟩ := tx
  cases op <;> try exact htends.elim
  case updatePriceFeed => exact h.submitted hnow htends htime
  case initializeContract => exact h.of_roles hnow htends.2
  case setPrimaryOracle =>
    have hafter : d'.store = _ := htends
    exact h.of_roles hnow (by rw [hafter])
  case setFallbackOracle =>
    have hafter : d'.store = _ := htends
    exact h.of_roles hnow (by rw [hafter])
  case setOracleSources =>
    have hafter : d'.store = _ := htends
    exact h.of_roles hnow (by rw [hafter])

end StellarLend.HelloWorld
