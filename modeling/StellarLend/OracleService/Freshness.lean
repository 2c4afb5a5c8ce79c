import StellarLend.Foundations.IndexedMap
import StellarLend.OracleService.ClaimVerifier

/-!
# OracleService/Freshness — what an accepted price was taken from, and how old that is

    observed ──validated──▸ fetched ──last answer──▸ aggregated ──▸ cached ──▸ found ──▸ accepted
       t                                                 now                    now

A price is cached without its sources.  Along a run every cached price is the one of the aggregate
that was cached last under its key (`Traced`), so a price a claim is accepted with is an aggregate
of provider answers, whether it was fetched or found (`accepted_based`).

The validator compares the time of an observation when its answer comes in.  The aggregate is given
the time it is made at and a cached price the time it is found at, so the age that the verifier
computes is never positive (`age_nonpos`), and what it accepts is as fresh as the validator, the
waiting and the cache have left it (`freshness_sound_of_timely`).
-/

namespace StellarLend.OracleService

section

open Function Foundations
open Insurance (InsuranceClaim businessRuleErrors)

variable {texts : Texts} {now : ℤ} {a : PriceAggregator} {asset : String} {prices : List PriceData}
  {d : Deployment} {s s' b : Service} {event : Event} {request : ℕ} {caller : Caller}
  {turn : Progress × PriceAggregator}

/-! ## What a turn of the aggregator does -/

/-- A turn for an asset, after some prices were fetched. -/
structure Turned (texts : Texts) (now : ℤ) (asset : String) (prices : List PriceData)
    (a : PriceAggregator) (turn : Progress × PriceAggregator) : Prop where
  providers : turn.2.providers = a.providers
  config : turn.2.config = a.config
  validator : turn.2.validator.config = a.validator.config
  waiting : ∀ fetch, turn.1 = .waiting fetch → fetch.asset = asset ∧ fetch.prices = prices
  cached : ∀ p, turn.1 = .cached p → ∃ entry,
    (PriceCache.key texts.toUpperCase asset, entry) ∈ a.cache.cache.store ∧
      now ≤ entry.expiresAt ∧ p = PriceAggregator.hit now asset entry.data
  fetched : ∀ p, turn.1 = .fetched (.price p) →
    aggregate a.config a.providers now asset prices = some p
  entries : ∀ e ∈ turn.2.cache.cache.store,
    (∃ p, turn.1 = .fetched (.price p) ∧ e.1 = PriceCache.key texts.toUpperCase asset ∧
      e.2.data = p.price) ∨
    (e ∈ a.cache.cache.store ∧
      ∀ p, turn.1 = .fetched (.price p) → e.1 ≠ PriceCache.key texts.toUpperCase asset)

/-- Nothing is configured anew, and nothing is cached that was not. -/
structure SameStores (a b : PriceAggregator) : Prop where
  providers : b.providers = a.providers
  config : b.config = a.config
  validator : b.validator.config = a.validator.config
  cache : ∀ e ∈ b.cache.cache.store, e ∈ a.cache.cache.store

theorem Turned.of_same {b : PriceAggregator} (h : Turned texts now asset prices b turn)
    (hsame : SameStores a b) (hcached : ∀ p, turn.1 ≠ .cached p) :
    Turned texts now asset prices a turn where
  providers := h.providers.trans hsame.providers
  config := h.config.trans hsame.config
  validator := h.validator.trans hsame.validator
  waiting := h.waiting
  cached p hp := absurd hp (hcached p)
  fetched p hp := by rw [← hsame.config, ← hsame.providers]; exact h.fetched p hp
  entries e he := (h.entries e he).imp_right fun hold => ⟨hsame.cache e hold.1, hold.2⟩

namespace PriceAggregator

variable (texts now a asset prices)

theorem settle_same (name : String) (answer : Option RawPriceData) :
    SameStores a (a.settle texts now name answer).2 := by
  cases answer with
  | none => exact ⟨rfl, rfl, rfl, fun _ he => he⟩
  | some raw =>
    have hconfig := PriceValidator.validate_config texts a.validator now raw
    unfold settle
    dsimp only
    split <;> rename_i hvalid <;> rw [hvalid] at hconfig <;>
      exact ⟨rfl, rfl, hconfig, fun _ he => he⟩

theorem proceed_turned (providers : List Provider) :
    (∀ p, (a.proceed texts now asset providers prices).1 ≠ .cached p) ∧
      Turned texts now asset prices a (a.proceed texts now asset providers prices) := by
  unfold proceed
  split
  case h_1 provider rest breakers hnext =>
    exact ⟨nofun, rfl, rfl, rfl, fun _ h => Progress.waiting.inj h ▸ ⟨rfl, rfl⟩, nofun, nofun,
      fun e he => .inr ⟨he, nofun⟩⟩
  case h_2 breakers hnext =>
    unfold conclude
    dsimp only
    split
    · exact ⟨nofun, rfl, rfl, rfl, nofun, nofun, nofun, fun e he => .inr ⟨he, nofun⟩⟩
    · cases haggregate : aggregate a.config a.providers now asset prices with
      | none =>
        exact ⟨nofun, rfl, rfl, rfl, nofun, nofun, nofun, fun e he => .inr ⟨he, nofun⟩⟩
      | some p =>
        refine ⟨nofun, rfl, rfl, rfl, nofun, nofun, fun p' hp => ?_, fun e he => ?_⟩
        · obtain rfl : p = p' := by simpa using hp
          exact haggregate
        · rcases PriceCache.mem_of_mem_setPrice he with ⟨hkey, hdata⟩ | ⟨hold, hne⟩
          · exact .inl ⟨p, rfl, hkey, hdata⟩
          · exact .inr ⟨hold, fun _ _ => hne⟩

/-- **The start of `getPrice`**: a hit, or a fetch with nothing fetched yet. -/
theorem getPrice_turned :
    Turned texts now (texts.toUpperCase asset) [] a (a.getPrice texts now asset) := by
  unfold getPrice
  dsimp only
  split
  case h_1 cachedPrice cache hget =>
    obtain ⟨entry, hmem, rfl, hlive⟩ := PriceCache.getPrice_eq_some hget
    exact ⟨rfl, rfl, rfl, nofun, fun p hp => ⟨entry, hmem, hlive, (Progress.cached.inj hp).symm⟩,
      nofun, fun e he => .inr ⟨PriceCache.mem_of_mem_getPrice hget he, nofun⟩⟩
  case h_2 cache hget =>
    obtain ⟨hcached, hturned⟩ := proceed_turned texts now { a with cache }
      (texts.toUpperCase asset) [] a.providers
    exact hturned.of_same ⟨rfl, rfl, rfl, fun e he => PriceCache.mem_of_mem_getPrice hget he⟩
      hcached

theorem resume_turned (fetch : Fetch) (answer : Option RawPriceData) :
    (∀ p, (a.resume texts now fetch answer).1 ≠ .cached p) ∧
      Turned texts now fetch.asset
        (fetch.prices ++ (a.settle texts now fetch.provider.name answer).1.toList) a
          (a.resume texts now fetch answer) := by
  unfold resume
  obtain ⟨hcached, hturned⟩ := proceed_turned texts now
    (a.settle texts now fetch.provider.name answer).2 fetch.asset
    (fetch.prices ++ (a.settle texts now fetch.provider.name answer).1.toList) fetch.rest
  exact ⟨hcached, hturned.of_same (settle_same texts now a _ _) hcached⟩

end PriceAggregator

/-! ## What the service keeps -/

/-- The aggregate is one of provider answers. -/
def Computed (d : Deployment) (p : AggregatedPrice) : Prop :=
  ∃ now, aggregate d.aggregator d.createAggregator.providers now p.asset p.sources = some p

/-- The price is the one of the evidence, which was computed from its sources. -/
structure Acceptance.Based (d : Deployment) (x : Acceptance) : Prop where
  price : x.data.priceAtVerification = x.evidence.price
  computed : Computed d x.evidence

/-- Every cached price is the one that was stored last under its key, and every accepted one was
computed. -/
structure Traced (d : Deployment) (s : Service) : Prop where
  providers : s.aggregator.providers = d.createAggregator.providers
  config : s.aggregator.config = d.aggregator
  validator : s.aggregator.validator.config = d.validator
  entries : ∀ e ∈ s.aggregator.cache.cache.store,
    ∃ p, s.stored e.1 = some p ∧ p.price = e.2.data
  stored : ∀ key p, s.stored key = some p → Computed d p
  accepted : ∀ x ∈ s.accepted, x.Based d
  started : ∀ request claim startedAt fetch,
    s.waiting request = some (.verifier claim startedAt, fetch) → startedAt ≤ unixSeconds s.clock

theorem Traced.start (d : Deployment) : Traced d d.start where
  providers := rfl
  config := rfl
  validator := rfl
  entries := by
    have hempty : d.start.aggregator.cache.cache.store = [] := rfl
    rw [hempty]
    nofun
  stored := by simp [Deployment.start]
  accepted := by simp [Deployment.start]
  started := by simp [Deployment.start]

theorem unixSeconds_mono {a b : ℤ} (h : a ≤ b) : unixSeconds a ≤ unixSeconds b :=
  Int.ediv_le_ediv (by decide) h

section Advance

variable (h : Traced d s) (hturned : Turned d.texts now asset prices s.aggregator turn)
include h hturned

/-- A price that is fetched is an aggregate of what was fetched. -/
theorem Turned.computed {p : AggregatedPrice} (hp : turn.1 = .fetched (.price p)) :
    p.asset = asset ∧ p.sources = prices ∧ p.timestamp = unixSeconds now ∧ Computed d p := by
  have haggregate := hturned.fetched p hp
  rw [h.config, h.providers] at haggregate
  obtain ⟨rfl, rfl, htime⟩ := aggregate_eq_some haggregate
  exact ⟨rfl, rfl, htime, now, haggregate⟩

/-- A price that is found is that of the aggregate stored under its key. -/
theorem Turned.found {p : AggregatedPrice} (hp : turn.1 = .cached p) :
    ∃ q, s.stored (d.key p.asset) = some q ∧ q.price = p.price ∧
      p.timestamp = unixSeconds now ∧ p.confidence = some 100 := by
  obtain ⟨entry, hentry, -, rfl⟩ := hturned.cached p hp
  obtain ⟨q, hq, hprice⟩ := h.entries _ hentry
  exact ⟨q, hq, hprice, rfl, rfl⟩

/-- What is accepted at the end of a turn: a price that was found, with the aggregate it is of, or
one that was fetched. -/
theorem Turned.accepts {x : Acceptance} : x ∈ d.accepts now caller turn.1 s.stored ↔
    ∃ claim startedAt p evidence, caller = .verifier claim startedAt ∧
      oracleErrors d.texts d.verifier startedAt p = [] ∧
        x = ⟨now, oracleData startedAt p, evidence⟩ ∧
          ((turn.1 = .cached p ∧ s.stored (d.key p.asset) = some evidence) ∨
            (turn.1 = .fetched (.price p) ∧ evidence = p)) := by
  cases hprogress : turn.1 with
  | waiting fetch => simp [Deployment.accepts]
  | cached p =>
    obtain ⟨q, hq, -⟩ := hturned.found h hprogress
    rw [Deployment.accepts, Deployment.mem_acceptances, hq, Option.getD_some]
    constructor
    · rintro ⟨claim, startedAt, hcaller, herrors, rfl⟩
      exact ⟨claim, startedAt, p, q, hcaller, herrors, rfl, .inl ⟨rfl, hq⟩⟩
    · rintro ⟨claim, startedAt, p', evidence, hcaller, herrors, rfl, ⟨hp, hevidence⟩ | ⟨hp, -⟩⟩
      · obtain rfl := Progress.cached.inj hp
        obtain rfl := Option.some.inj (hq.symm.trans hevidence)
        exact ⟨claim, startedAt, hcaller, herrors, rfl⟩
      · cases hp
  | fetched answer =>
    cases answer with
    | threw => simp [Deployment.accepts]
    | absent => simp [Deployment.accepts]
    | price p =>
      rw [Deployment.accepts, Deployment.mem_acceptances]
      constructor
      · rintro ⟨claim, startedAt, hcaller, herrors, rfl⟩
        exact ⟨claim, startedAt, p, p, hcaller, herrors, rfl, .inr ⟨rfl, rfl⟩⟩
      · rintro ⟨claim, startedAt, p', evidence, hcaller, herrors, rfl, ⟨hp, -⟩ | ⟨hp, rfl⟩⟩
        · cases hp
        · obtain rfl : p = evidence := by simpa using hp
          exact ⟨claim, startedAt, hcaller, herrors, rfl⟩

theorem Traced.advance (hclock : s.clock ≤ now)
    (hstarted : ∀ claim startedAt, caller = .verifier claim startedAt →
      startedAt ≤ unixSeconds now) :
    Traced d (d.advance now request caller turn s) where
  providers := hturned.providers.trans h.providers
  config := hturned.config.trans h.config
  validator := hturned.validator.trans h.validator
  entries e he := by
    have hkey : ∀ p, turn.1 = .fetched (.price p) →
        d.key p.asset = PriceCache.key d.texts.toUpperCase asset := fun p hp => by
      rw [Deployment.key, (hturned.computed h hp).1]
    obtain ⟨p, hp, he', hdata⟩ | ⟨hold, hne⟩ := hturned.entries e he
    · refine ⟨p, ?_, hdata.symm⟩
      rw [Deployment.advance, Progress.aggregated_eq_some.mpr hp, he', ← hkey p hp]
      exact update_self ..
    · obtain ⟨p, hp, hprice⟩ := h.entries e hold
      refine ⟨p, ?_, hprice⟩
      rw [Deployment.advance]
      cases haggregated : turn.1.aggregated with
      | none => exact hp
      | some q =>
        have hq := Progress.aggregated_eq_some.mp haggregated
        exact (update_of_ne (hkey q hq ▸ hne q hq) ..).trans hp
  stored key q hq := by
    rw [Deployment.advance] at hq
    cases haggregated : turn.1.aggregated with
    | none => exact h.stored key q (by simpa only [haggregated, Option.elim_none] using hq)
    | some p =>
      have hp := Progress.aggregated_eq_some.mp haggregated
      simp only [haggregated, Option.elim_some] at hq
      obtain ⟨-, rfl⟩ | ⟨-, hq⟩ := update_eq_some.mp hq
      · exact (hturned.computed h hp).2.2.2
      · exact h.stored key q hq
  accepted x hx := by
    rcases List.mem_append.mp hx with hold | hnew
    · exact h.accepted x hold
    · obtain ⟨claim, startedAt, p, evidence, -, -, rfl, ⟨hp, hevidence⟩ | ⟨hp, rfl⟩⟩ :=
        (hturned.accepts h).mp hnew
      · obtain ⟨q, hq, hprice, -⟩ := hturned.found h hp
        obtain rfl := Option.some.inj (hq.symm.trans hevidence)
        exact ⟨hprice.symm, h.stored _ _ hq⟩
      · exact ⟨rfl, (hturned.computed h hp).2.2.2⟩
  started k claim startedAt fetch hk := by
    have hk' : update s.waiting request (turn.1.request.map (Prod.mk caller)) k =
        some (.verifier claim startedAt, fetch) := hk
    rcases eq_or_ne k request with rfl | hne
    · rw [update_self] at hk'
      obtain ⟨_, -, hcaller⟩ := Option.map_eq_some_iff.mp hk'
      exact hstarted claim startedAt (congrArg Prod.fst hcaller)
    · rw [update_of_ne hne] at hk'
      exact (h.started k claim startedAt fetch hk').trans (unixSeconds_mono hclock)

end Advance

/-! ## Runs -/

/-- The turn of the aggregator in an event: the service once the request has begun, the request and
its caller, the asset, and the prices fetched for it. -/
inductive TurnOf (d : Deployment) (s : Service) : Event → Service → ℕ → Caller → String →
    List PriceData → Progress × PriceAggregator → Prop where
  | getPrice (asset : String) (now : ℤ) :
    TurnOf d s (.getPrice asset now) (s.begin now) s.begun .other (d.texts.toUpperCase asset) []
      (s.aggregator.getPrice d.texts now asset)
  | verify (claim : InsuranceClaim) (now : ℤ)
      (hrules : businessRuleErrors (unixSeconds now) claim = []) :
    TurnOf d s (.verify claim now) (s.begin now) s.begun (.verifier claim (unixSeconds now))
      (d.texts.toUpperCase claim.asset) [] (s.aggregator.getPrice d.texts now claim.asset)
  | answer (request : ℕ) (raw : Option RawPriceData) (now : ℤ) {caller : Caller} {fetch : Fetch}
      (hwaiting : s.waiting request = some (caller, fetch)) :
    TurnOf d s (.answer request raw now) s request caller fetch.asset
      (fetch.prices ++ (s.aggregator.settle d.texts now fetch.provider.name raw).1.toList)
      (s.aggregator.resume d.texts now fetch raw)

theorem TurnOf.turned (h : TurnOf d s event b request caller asset prices turn) :
    Turned d.texts event.now asset prices s.aggregator turn := by
  cases h with
  | getPrice asset now => exact PriceAggregator.getPrice_turned d.texts now s.aggregator asset
  | verify claim now hrules => exact PriceAggregator.getPrice_turned d.texts now s.aggregator _
  | answer request raw now hwaiting =>
    exact (PriceAggregator.resume_turned d.texts now s.aggregator _ raw).2

/-- A verification does not begin after the event that goes on with it. -/
theorem TurnOf.started (h : Traced d s) (hclock : s.clock ≤ event.now) {claim : InsuranceClaim}
    {startedAt : ℤ}
    (hturn : TurnOf d s event b request (.verifier claim startedAt) asset prices turn) :
    startedAt ≤ unixSeconds event.now := by
  cases hturn with
  | verify claim now hrules => exact le_rfl
  | answer request raw now hwaiting =>
    exact (h.started _ _ _ _ hwaiting).trans (unixSeconds_mono hclock)

/-- **A step is a claim that the rules turn down, or a turn.** -/
theorem Deployment.step_cases (h : d.step event s = some s') : s.clock ≤ event.now ∧
    ((∃ claim now, event = .verify claim now ∧
        businessRuleErrors (unixSeconds now) claim ≠ [] ∧ s' = { s with clock := now }) ∨
      ∃ b request caller asset prices turn,
        TurnOf d s event b request caller asset prices turn ∧
          s' = d.advance event.now request caller turn b) := by
  unfold Deployment.step at h
  split at h
  case isTrue => cases h
  case isFalse hclock =>
    refine ⟨not_lt.mp hclock, ?_⟩
    cases event with
    | getPrice asset now =>
      exact .inr ⟨_, _, _, _, _, _, .getPrice asset now, (Option.some.inj h).symm⟩
    | verify claim now =>
      dsimp only at h
      split at h
      case isTrue hrules => exact .inl ⟨claim, now, rfl, hrules, (Option.some.inj h).symm⟩
      case isFalse hrules =>
        exact .inr ⟨_, _, _, _, _, _, .verify claim now (not_not.mp hrules),
          (Option.some.inj h).symm⟩
    | answer request raw now =>
      obtain ⟨⟨caller, fetch⟩, hwaiting, rfl⟩ := Option.map_eq_some_iff.mp h
      exact .inr ⟨s, _, _, _, _, _, .answer request raw now hwaiting, rfl⟩

theorem Traced.of_clock (h : Traced d s) (hclock : s.clock ≤ now) :
    Traced d { s with clock := now } :=
  { h with
    started := fun request claim startedAt fetch hwaiting =>
      (h.started request claim startedAt fetch hwaiting).trans (unixSeconds_mono hclock) }

/-- The service that takes the turn differs in the numbers and dates of requests at most. -/
theorem TurnOf.same (h : TurnOf d s event b request caller asset prices turn) :
    b.aggregator = s.aggregator ∧ b.clock = s.clock ∧ b.stored = s.stored ∧
      b.accepted = s.accepted := by
  cases h <;> exact ⟨rfl, rfl, rfl, rfl⟩

theorem Traced.begun (h : Traced d s)
    (hturn : TurnOf d s event b request caller asset prices turn) : Traced d b := by
  cases hturn with
  | getPrice => exact { h with }
  | verify => exact { h with }
  | answer => exact h

theorem Traced.step (h : Traced d s) (hstep : d.step event s = some s') : Traced d s' := by
  obtain ⟨hclock, ⟨claim, now, rfl, -, rfl⟩ | ⟨b, request, caller, asset, prices, turn, hturn,
    rfl⟩⟩ := Deployment.step_cases hstep
  · exact h.of_clock hclock
  · obtain ⟨haggregator, hsame, -⟩ := hturn.same
    refine (h.begun hturn).advance (haggregator ▸ hturn.turned) (hsame ▸ hclock)
      fun claim startedAt hcaller => ?_
    obtain rfl := hcaller
    exact hturn.started h hclock

/-- **Along every run, what a claim is accepted with was computed from provider answers.** -/
theorem accepted_based (d : Deployment) (events : List Event) {x : Acceptance}
    (hx : x ∈ (run d.step d.start events).accepted) : x.Based d :=
  (run_invariant (fun _ _ _ hstep h => h.step hstep) events (Traced.start d)).accepted x hx

end

/-! ## How old the observations are -/

section

open Function Foundations
open Insurance (InsuranceClaim)

variable {d : Deployment} {s s' b : Service} {event : Event} {request : ℕ} {caller : Caller}
  {asset : String} {prices : List PriceData} {turn : Progress × PriceAggregator}
  {claim : InsuranceClaim} {startedAt now t : ℤ} {p : AggregatedPrice}

/-! ## What a run should keep -/

/-- No observation is older than a claim may be verified with. -/
def Recent (d : Deployment) (now : ℤ) (prices : List PriceData) : Prop :=
  ∀ o ∈ prices, ((unixSeconds now - o.timestamp : ℤ) : ℚ) ≤ d.verifier.maxPriceAgeSeconds

/-- The price was computed from observations that were recent when it was accepted, and the
confidence is theirs. -/
structure Acceptance.Fresh (d : Deployment) (x : Acceptance) : Prop extends x.Based d where
  recent : Recent d x.now x.evidence.sources
  confidence : x.data.confidence = x.evidence.confidence

/-- Whatever claims were accepted, they were accepted with fresh prices. -/
def FreshnessSound (d : Deployment) (s : Service) : Prop := ∀ x ∈ s.accepted, x.Fresh d

/-! ## The verifier's own check -/

/-- **The age that the verifier computes is never positive.** -/
theorem age_nonpos (events : List Event)
    (hturn : TurnOf d (run d.step d.start events) event b request (.verifier claim startedAt) asset
      prices turn)
    (hclock : (run d.step d.start events).clock ≤ event.now)
    (hprice : turn.1 = .cached p ∨ turn.1 = .fetched (.price p)) : startedAt - p.timestamp ≤ 0 := by
  have htraced : Traced d (run d.step d.start events) :=
    run_invariant (fun _ _ _ hstep h => h.step hstep) events (.start d)
  have hstarted := hturn.started htraced hclock
  have htime : p.timestamp = unixSeconds event.now := by
    obtain hcached | hfetched := hprice
    · obtain ⟨_, -, -, htime, -⟩ := hturn.turned.found htraced hcached
      exact htime
    · exact (hturn.turned.computed htraced hfetched).2.2.1
  omega

/-! ## When requests began -/

/-- No observation was older than the validator allows at that time. -/
def Observed (d : Deployment) (t : ℤ) (prices : List PriceData) : Prop :=
  ∀ o ∈ prices, ((unixSeconds t - o.timestamp : ℤ) : ℚ) ≤ d.validator.maxStalenessSeconds

theorem observed_nil (t : ℤ) : Observed d t [] := fun _ h => absurd h List.not_mem_nil

/-- An earlier time finds observations younger. -/
theorem Observed.mono (h : Observed d now prices) (ht : t ≤ now) : Observed d t prices := by
  intro o ho
  have hage : unixSeconds t - o.timestamp ≤ unixSeconds now - o.timestamp :=
    sub_le_sub_right (unixSeconds_mono ht) _
  exact (Int.cast_le.mpr hage).trans (h o ho)

/-- **An answer that is kept has just passed the validator.** -/
theorem observed_settled (h : Traced d s) (now : ℤ) (name : String) (answer : Option RawPriceData) :
    Observed d now (s.aggregator.settle d.texts now name answer).1.toList := by
  intro o ho
  rw [Option.mem_toList] at ho
  cases answer with
  | none => cases ho
  | some raw =>
    unfold PriceAggregator.settle at ho
    dsimp only at ho
    split at ho
    case h_2 => cases ho
    case h_1 price validator hvalid =>
      obtain rfl := Option.some.inj ho
      obtain ⟨htime, -, -, hage⟩ := PriceValidator.validate_ok (congrArg Prod.fst hvalid)
      rw [h.validator] at hage
      rw [htime]
      exact hage

/-- **What was observed in time at the beginning is recent**, if the waiting since leaves room. -/
theorem Observed.recent (h : Observed d t prices)
    (hroom : d.validator.maxStalenessSeconds + (unixSeconds now - unixSeconds t : ℤ) ≤
      d.verifier.maxPriceAgeSeconds) : Recent d now prices := by
  intro o ho
  have hsplit : ((unixSeconds now - o.timestamp : ℤ) : ℚ) =
      (unixSeconds t - o.timestamp : ℤ) + (unixSeconds now - unixSeconds t : ℤ) := by
    push_cast
    ring
  rw [hsplit]
  exact (add_le_add_left (h o ho) _).trans hroom

/-- Requests are numbered as they begin, and what they were answered passed the validator after
that. -/
structure Requested (d : Deployment) (s : Service) : Prop where
  numbered : ∀ request, s.begun ≤ request → s.waiting request = none
  waiting : ∀ request caller fetch, s.waiting request = some (caller, fetch) →
    s.since request ≤ s.clock ∧ Observed d (s.since request) fetch.prices
  stored : ∀ key p, s.stored key = some p → Observed d (s.storedSince key) p.sources

namespace Requested

theorem start (d : Deployment) : Requested d d.start where
  numbered _ _ := rfl
  waiting _ _ _ h := by cases h
  stored _ _ h := by cases h

theorem of_clock (h : Requested d s) (hclock : s.clock ≤ now) :
    Requested d { s with clock := now } :=
  { h with
    waiting := fun request caller fetch hwaiting =>
      ⟨(h.waiting request caller fetch hwaiting).1.trans hclock,
        (h.waiting request caller fetch hwaiting).2⟩ }

theorem begin (h : Requested d s) (now : ℤ) : Requested d (s.begin now) where
  numbered request hrequest := h.numbered request (Nat.le_of_succ_le hrequest)
  waiting request caller fetch hwaiting := by
    have hne : request ≠ s.begun := by
      rintro rfl
      cases (h.numbered _ le_rfl).symm.trans hwaiting
    have hsince : (s.begin now).since request = s.since request := update_of_ne hne ..
    rw [hsince]
    exact h.waiting request caller fetch hwaiting
  stored := h.stored

/-- The request of a turn is dated, and so are the prices fetched for it. -/
theorem onTurn (h : Requested d s) (htraced : Traced d s) (hclock : s.clock ≤ event.now)
    (hturn : TurnOf d s event b request caller asset prices turn) :
    Requested d b ∧ request < b.begun ∧ b.since request ≤ event.now ∧
      Observed d (b.since request) prices := by
  have hbegin : ∀ now, (s.begin now).since s.begun = now := fun now => update_self ..
  cases hturn with
  | getPrice asset now => exact ⟨h.begin now, Nat.lt_succ_self _, (hbegin now).le, observed_nil _⟩
  | verify claim now => exact ⟨h.begin now, Nat.lt_succ_self _, (hbegin now).le, observed_nil _⟩
  | answer request raw now hwaiting =>
    obtain ⟨hsince, hobserved⟩ := h.waiting _ _ _ hwaiting
    have hlt : request < s.begun := by
      refine Nat.lt_of_not_le fun hle => ?_
      cases (h.numbered request hle).symm.trans hwaiting
    refine ⟨h, hlt, hsince.trans hclock, List.forall_mem_append.mpr ⟨hobserved, ?_⟩⟩
    exact (observed_settled htraced now _ raw).mono (hsince.trans hclock)

theorem advance (h : Requested d b) (htraced : Traced d b) (hclock : b.clock ≤ now)
    (hrequest : request < b.begun) (hsince : b.since request ≤ now)
    (hturned : Turned d.texts now asset prices b.aggregator turn)
    (hprices : Observed d (b.since request) prices) :
    Requested d (d.advance now request caller turn b) where
  numbered k hk := (update_of_ne (hrequest.trans_le hk).ne' ..).trans (h.numbered k hk)
  waiting k caller' fetch hk := by
    have hk' : update b.waiting request (turn.1.request.map (Prod.mk caller)) k =
        some (caller', fetch) := hk
    rcases eq_or_ne k request with rfl | hne
    · rw [update_self] at hk'
      obtain ⟨fetch', hfetch, hpair⟩ := Option.map_eq_some_iff.mp hk'
      obtain rfl : fetch' = fetch := congrArg Prod.snd hpair
      refine ⟨hsince, ?_⟩
      rw [(hturned.waiting fetch' (Progress.request_eq_some.mp hfetch)).2]
      exact hprices
    · rw [update_of_ne hne] at hk'
      exact (h.of_clock hclock).waiting k caller' fetch hk'
  stored key p hp := by
    rw [Deployment.advance] at hp ⊢
    cases haggregated : turn.1.aggregated with
    | none =>
      simp only [haggregated, Option.elim_none] at hp ⊢
      exact h.stored key p hp
    | some q =>
      have hq := Progress.aggregated_eq_some.mp haggregated
      simp only [haggregated, Option.elim_some] at hp ⊢
      rcases eq_or_ne key (d.key q.asset) with rfl | hne
      · rw [update_self] at hp ⊢
        obtain rfl := Option.some.inj hp
        rw [(hturned.computed htraced hq).2.1]
        exact hprices
      · rw [update_of_ne hne] at hp ⊢
        exact h.stored key p hp

theorem step (h : Requested d s) (htraced : Traced d s) (hstep : d.step event s = some s') :
    Requested d s' := by
  obtain ⟨hclock, ⟨claim, now, rfl, -, rfl⟩ | ⟨b, request, caller, asset, prices, turn, hturn,
    rfl⟩⟩ := Deployment.step_cases hstep
  · exact h.of_clock hclock
  · obtain ⟨haggregator, hsame, -⟩ := hturn.same
    obtain ⟨hbegun, hrequest, hsince, hprices⟩ := h.onTurn htraced hclock hturn
    exact hbegun.advance (htraced.begun hturn) (hsame ▸ hclock) hrequest hsince
      (haggregator ▸ hturn.turned) hprices

end Requested

/-! ## What keeps it -/

/-- A verification goes on while the validator's limit, with the time since the request began, is
within the verifier's; and it begins with a price in the cache only if that is so since the request
the price was fetched in, and the price had full confidence. -/
structure Timely (d : Deployment) (s : Service) (event : Event) : Prop where
  answered : ∀ request raw now claim startedAt fetch, event = .answer request raw now →
    s.waiting request = some (.verifier claim startedAt, fetch) →
      d.validator.maxStalenessSeconds + (unixSeconds now - unixSeconds (s.since request) : ℤ) ≤
        d.verifier.maxPriceAgeSeconds
  found : ∀ claim now entry p, event = .verify claim now →
    (d.key (d.texts.toUpperCase claim.asset), entry) ∈ s.aggregator.cache.cache.store →
      now ≤ entry.expiresAt → s.stored (d.key (d.texts.toUpperCase claim.asset)) = some p →
        d.validator.maxStalenessSeconds + (unixSeconds now -
            unixSeconds (s.storedSince (d.key (d.texts.toUpperCase claim.asset))) : ℤ) ≤
          d.verifier.maxPriceAgeSeconds ∧ p.confidence = some 100

/-- A price is found only where a request begins, and with an entry that is alive. -/
theorem TurnOf.found (h : TurnOf d s event b request (.verifier claim startedAt) asset prices turn)
    (hp : turn.1 = .cached p) : ∃ entry, event = .verify claim event.now ∧
      asset = d.texts.toUpperCase claim.asset ∧ p.asset = asset ∧
        (d.key asset, entry) ∈ s.aggregator.cache.cache.store ∧ event.now ≤ entry.expiresAt := by
  cases h with
  | verify claim now hrules =>
    obtain ⟨entry, hmem, hlive, rfl⟩ :=
      (PriceAggregator.getPrice_turned d.texts now s.aggregator claim.asset).cached p hp
    exact ⟨entry, rfl, rfl, rfl, hmem, hlive⟩
  | answer request raw now hwaiting =>
    exact absurd hp ((PriceAggregator.resume_turned d.texts now s.aggregator _ raw).1 p)

/-- **What is accepted in a timely turn is fresh.** -/
theorem TurnOf.fresh (htraced : Traced d s) (hrequested : Requested d s)
    (hclock : s.clock ≤ event.now) (hC : Timely d s event)
    (hturn : TurnOf d s event b request caller asset prices turn)
    {x : Acceptance} (hx : x ∈ d.accepts event.now caller turn.1 s.stored) : x.Fresh d := by
  have hturned := hturn.turned
  obtain ⟨claim, startedAt, p, q, rfl, -, rfl, ⟨hp, hq⟩ | ⟨hp, rfl⟩⟩ :=
    (hturned.accepts htraced).mp hx
  · obtain ⟨q', hq', hprice, -, hfull⟩ := hturned.found htraced hp
    obtain rfl := Option.some.inj (hq.symm.trans hq')
    obtain ⟨entry, hevent, rfl, hasset, hmem, hlive⟩ := hturn.found hp
    rw [hasset] at hq
    obtain ⟨hroom, hconfidence⟩ := hC.found claim _ entry q hevent hmem hlive hq
    exact ⟨⟨hprice.symm, htraced.stored _ _ hq⟩, (hrequested.stored _ _ hq).recent hroom,
      hfull.trans hconfidence.symm⟩
  · obtain ⟨-, hsources, -, hcomputed⟩ := hturned.computed htraced hp
    refine ⟨⟨rfl, hcomputed⟩, ?_, rfl⟩
    have hobserved := (hrequested.onTurn htraced hclock hturn).2.2.2
    rw [hsources]
    cases hturn with
    | verify => exact fun _ h => absurd h List.not_mem_nil
    | answer request raw now hwaiting =>
      exact hobserved.recent (hC.answered request raw now claim startedAt _ rfl hwaiting)

/-! ## Runs -/

/-- Everything known of the service, and what it should keep. -/
structure Kept (d : Deployment) (s : Service) : Prop where
  traced : Traced d s
  requested : Requested d s
  sound : FreshnessSound d s

theorem Kept.step (h : Kept d s) (hstep : d.step event s = some s') (hC : Timely d s event) :
    Kept d s' := by
  refine ⟨h.traced.step hstep, h.requested.step h.traced hstep, ?_⟩
  obtain ⟨hclock, ⟨claim, now, rfl, -, rfl⟩ | ⟨b, request, caller, asset, prices, turn, hturn,
    rfl⟩⟩ := Deployment.step_cases hstep
  · exact h.sound
  · obtain ⟨-, -, hstored, haccepted⟩ := hturn.same
    intro x hx
    rcases List.mem_append.mp hx with hold | hnew
    · exact h.sound x (haccepted ▸ hold)
    · exact hturn.fresh h.traced h.requested hclock hC (hstored ▸ hnew)

/-- **Every claim of a run is accepted with a fresh price**, if verifications are timely in it. -/
theorem freshness_sound_of_timely {d : Deployment} {events : List Event}
    (h : Meets d.step (Timely d) d.start events) :
    ∀ past, past <+: events → FreshnessSound d (run d.step d.start past) := by
  rintro past ⟨future, rfl⟩
  refine ((meets_append.mp h).1.invariant (I := Kept d)
    (fun _ _ _ hstep hC hs => hs.step hstep hC) ⟨.start d, .start d, fun x hx => ?_⟩).sound
  cases hx

namespace Sample

/-- Numbers print as nothing, and assets are written in capitals as they are. -/
def plainTexts : Texts := ⟨id, fun _ => "", fun _ _ => ""⟩

/-- One provider, and everything else as it is by default. -/
def coingeckoOnly : Deployment where
  texts := plainTexts
  providers := [⟨"coingecko", 1, 1, true⟩]
  validator := .default
  cacheTtlSeconds := 30
  priceHistory := .default
  aggregator := .default
  verifier := .default
  createdAt := 0

def lumensClaim : InsuranceClaim where
  id := 0
  claimantAddress := "alice"
  asset := "XLM"
  claimedAmount := 100
  coverageLimit := 1000
  lossDescription := ""
  lossTimestamp := 900
  submittedAt := 1000
  coveragePurchasedAt := 0
  status := .verifying
  verificationResult := none
  payoutResult := none
  rejectionReason := none
  rejectionDetails := none
  fraudSignals := []
  history := []
  payoutTransactionHash := none

/-- At 1000 the provider answers with a price of 710, and at 1020 a claim is verified. -/
def foundLate : List Event :=
  [.getPrice "XLM" 1000000, .answer 0 (some ⟨"XLM", 1 / 10, 710, "coingecko"⟩) 1000000,
    .verify lumensClaim 1020000]

/-- The verifier allows an age of 600. -/
def patient : Deployment := { coingeckoOnly with verifier := ⟨600, 80, false⟩ }

/-- The price that is found is one of 1000, observed at its answer. -/
def foundInTime : List Event :=
  [.getPrice "XLM" 1000000, .answer 0 (some ⟨"XLM", 1 / 10, 1000, "coingecko"⟩) 1000000,
    .verify lumensClaim 1020000]

/-- **A claim is accepted, with a fresh price.** -/
theorem freshness_sound_foundInTime :
    (run patient.step patient.start foundInTime).accepted.length = 1 ∧
      ∀ past, past <+: foundInTime →
        FreshnessSound patient (run patient.step patient.start past) := by
  refine ⟨by decide +kernel, freshness_sound_of_timely ⟨fun _ => ⟨?_, ?_⟩, fun _ => ⟨?_, ?_⟩,
    fun _ => ⟨?_, ?_⟩, trivial⟩⟩
  · rintro _ _ _ _ _ _ ⟨⟩
  · rintro _ _ _ _ ⟨⟩
  · rintro _ _ _ _ _ _ ⟨⟩ h
    cases h
  · rintro _ _ _ _ ⟨⟩
  · rintro _ _ _ _ _ _ ⟨⟩
  · rintro _ _ entry p ⟨⟩ hentry - hstored
    have hp : (run patient.step patient.start (foundInTime.take 2)).stored "price:XLM" =
        some ⟨"XLM", 100000, [⟨"XLM", 100000, 1000, "coingecko", 100⟩], 1000, some 100⟩ := by
      decide +kernel
    have hsince : (run patient.step patient.start (foundInTime.take 2)).storedSince "price:XLM" =
        1000000 := by decide +kernel
    obtain rfl := Option.some.inj (hp.symm.trans hstored)
    have hroom : patient.validator.maxStalenessSeconds +
        (unixSeconds 1020000 - unixSeconds 1000000 : ℤ) ≤ patient.verifier.maxPriceAgeSeconds := by
      decide +kernel
    rw [← hsince] at hroom
    exact ⟨hroom, rfl⟩

/-- **The claim is accepted with an observation that is 310 seconds old, at full confidence.** -/
theorem accepted_stale : (run coingeckoOnly.step coingeckoOnly.start foundLate).accepted =
      [⟨1020000, ⟨100000, 1020, some 100, [], 1020⟩,
        ⟨"XLM", 100000, [⟨"XLM", 100000, 710, "coingecko", 242 / 3⟩], 1000, some (242 / 3)⟩⟩] ∧
    ¬ FreshnessSound coingeckoOnly (run coingeckoOnly.step coingeckoOnly.start foundLate) := by
  have haccepted : (run coingeckoOnly.step coingeckoOnly.start foundLate).accepted =
      [⟨1020000, ⟨100000, 1020, some 100, [], 1020⟩,
        ⟨"XLM", 100000, [⟨"XLM", 100000, 710, "coingecko", 242 / 3⟩], 1000, some (242 / 3)⟩⟩] := by
    decide +kernel
  refine ⟨haccepted, fun hsound => ?_⟩
  have hfresh := hsound _ (haccepted ▸ List.mem_singleton_self _)
  exact absurd (hfresh.recent _ (List.mem_singleton_self _)) (by decide)

end Sample

end

end StellarLend.OracleService
