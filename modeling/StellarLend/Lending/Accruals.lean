import StellarLend.Lending.Reporting
import StellarLend.Foundations.Rounding

/-!
# Lending/Accruals — interest does not depend on how often it is accrued

An accrual adds the interest since the last update and moves the update to now; the principal stays,
so interest is simple.  At one rate and one stability fee, what many accruals add up (`accruedOver`)
is what one accrual over the whole span adds, short of at most one unit for every further accrual
and fee: two chained floor divisions are one.
-/

namespace StellarLend.Lending

open Foundations Call

variable {e : Env} {s : Storage} {p q : DebtPosition} {rate rate' feeBps : ℤ} {fee : Option ℤ}

/-! ## Interest as a single floor -/

/-- The divisor of an interest: basis points times the seconds of a year. -/
def interestUnit : ℤ := 10000 * SECONDS_PER_YEAR

/-- **The two chained divisions of an interest are one.** -/
theorem exactInterest_eq_ediv {principal bps elapsed : ℤ} (h : 0 ≤ principal * bps * elapsed) :
    exactInterest principal bps elapsed = principal * bps * elapsed / interestUnit := by
  rw [exactInterest, Int.tdiv_eq_ediv_of_nonneg h,
    Int.tdiv_eq_ediv_of_nonneg (Int.ediv_nonneg h (by decide)), interestUnit,
    Int.ediv_ediv_of_nonneg (by decide)]

/-- **Interest is monotone in principal, rate and time.** -/
theorem exactInterest_mono {principal principal' bps bps' elapsed elapsed' : ℤ}
    (hp : 0 ≤ principal) (hpp : principal ≤ principal') (hb : 0 ≤ bps) (hbb : bps ≤ bps')
    (he : 0 ≤ elapsed) (hee : elapsed ≤ elapsed') :
    exactInterest principal bps elapsed ≤ exactInterest principal' bps' elapsed' := by
  have hrate : principal * bps ≤ principal' * bps' := mul_le_mul hpp hbb hb (hp.trans hpp)
  have hle : principal * bps * elapsed ≤ principal' * bps' * elapsed' :=
    mul_le_mul hrate hee he ((mul_nonneg hp hb).trans hrate)
  have h0 : 0 ≤ principal * bps * elapsed := mul_nonneg (mul_nonneg hp hb) he
  rw [exactInterest_eq_ediv h0, exactInterest_eq_ediv (h0.trans hle)]
  exact Int.ediv_le_ediv (by decide) hle

theorem exactInterest_nonneg {principal bps elapsed : ℤ} (hp : 0 ≤ principal) (hb : 0 ≤ bps)
    (he : 0 ≤ elapsed) : 0 ≤ exactInterest principal bps elapsed :=
  Int.tdiv_nonneg (Int.tdiv_nonneg (mul_nonneg (mul_nonneg hp hb) he) (by decide)) (by decide)

/-- Interest over a time and a further time is that over both, short of one unit at most. -/
theorem exactInterest_add {principal bps first second : ℤ} (hp : 0 ≤ principal) (hb : 0 ≤ bps)
    (h1 : 0 ≤ first) (h2 : 0 ≤ second) :
    exactInterest principal bps first + exactInterest principal bps second ≤
        exactInterest principal bps (first + second) ∧
      exactInterest principal bps (first + second) ≤
        exactInterest principal bps first + exactInterest principal bps second + 1 := by
  have hpb := mul_nonneg hp hb
  rw [exactInterest_eq_ediv (mul_nonneg hpb h1), exactInterest_eq_ediv (mul_nonneg hpb h2),
    exactInterest_eq_ediv (mul_nonneg hpb (add_nonneg h1 h2)), mul_add]
  exact ediv_add_bounds (by decide)

/-- Smaller factors stay within 256 bits. -/
theorem InterestFits.mono {principal principal' bps bps' elapsed elapsed' : ℤ}
    (h : InterestFits principal' bps' elapsed') (hp : 0 ≤ principal)
    (hpp : principal ≤ principal') (hb : 0 ≤ bps) (hbb : bps ≤ bps') (he : 0 ≤ elapsed)
    (hee : elapsed ≤ elapsed') : InterestFits principal bps elapsed := by
  have hlo : I256.lo ≤ 0 := by decide
  have hrate : principal * bps ≤ principal' * bps' := mul_le_mul hpp hbb hb (hp.trans hpp)
  have hle : principal * bps * elapsed ≤ principal' * bps' * elapsed' :=
    mul_le_mul hrate hee he ((mul_nonneg hp hb).trans hrate)
  exact ⟨⟨hlo.trans (mul_nonneg hp hb), hrate.trans h.1.2⟩,
    ⟨hlo.trans (mul_nonneg (mul_nonneg hp hb) he), hle.trans h.2.2⟩⟩

/-! ## What a position is charged -/

/-- The interest and the stability fee on a principal. -/
def charge (principal rate feeBps elapsed : ℤ) : ℤ :=
  exactInterest principal rate elapsed + exactInterest principal feeBps elapsed

/-- Interest and fee are computed, and their sum is a 128-bit number. -/
structure ChargeFits (principal rate feeBps elapsed : ℤ) : Prop where
  interest : InterestFits principal rate elapsed
  fee : InterestFits principal feeBps elapsed
  sum : charge principal rate feeBps elapsed ≤ I128.MAX

section Charge

variable {principal principal' elapsed elapsed' first second : ℤ}

theorem charge_nonneg (hp : 0 ≤ principal) (hr : 0 ≤ rate) (hf : 0 ≤ feeBps) (he : 0 ≤ elapsed) :
    0 ≤ charge principal rate feeBps elapsed :=
  add_nonneg (exactInterest_nonneg hp hr he) (exactInterest_nonneg hp hf he)

theorem charge_mono (hp : 0 ≤ principal) (hpp : principal ≤ principal') (hr : 0 ≤ rate)
    (hrr : rate ≤ rate') (hf : 0 ≤ feeBps) (he : 0 ≤ elapsed) (hee : elapsed ≤ elapsed') :
    charge principal rate feeBps elapsed ≤ charge principal' rate' feeBps elapsed' :=
  add_le_add (exactInterest_mono hp hpp hr hrr he hee) (exactInterest_mono hp hpp hf le_rfl he hee)

theorem ChargeFits.mono (h : ChargeFits principal' rate' feeBps elapsed') (hp : 0 ≤ principal)
    (hpp : principal ≤ principal') (hr : 0 ≤ rate) (hrr : rate ≤ rate') (hf : 0 ≤ feeBps)
    (he : 0 ≤ elapsed) (hee : elapsed ≤ elapsed') : ChargeFits principal rate feeBps elapsed where
  interest := h.interest.mono hp hpp hr hrr he hee
  fee := h.fee.mono hp hpp hf le_rfl he hee
  sum := (charge_mono hp hpp hr hrr hf he hee).trans h.sum

/-- The units a further accrual can lose: one by the interest, one by a fee. -/
def slack (fee : Option ℤ) : ℤ := if fee.isSome then 2 else 1

theorem charge_add (hp : 0 ≤ principal) (hr : 0 ≤ rate) (hf : 0 ≤ fee.getD 0) (h1 : 0 ≤ first)
    (h2 : 0 ≤ second) :
    charge principal rate (fee.getD 0) first + charge principal rate (fee.getD 0) second ≤
        charge principal rate (fee.getD 0) (first + second) ∧
      charge principal rate (fee.getD 0) (first + second) ≤
        charge principal rate (fee.getD 0) first + charge principal rate (fee.getD 0) second +
          slack fee := by
  have hinterest := exactInterest_add hp hr h1 h2
  cases fee with
  | none =>
    simp only [charge, slack, Option.getD_none, exactInterest_zero_bps, Option.isSome_none]
    exact ⟨by omega, by simp; omega⟩
  | some bps =>
    have hfee := exactInterest_add hp hf h1 h2
    simp only [charge, slack, Option.getD_some, Option.isSome_some, if_true] at hfee ⊢
    exact ⟨by omega, by omega⟩

end Charge

/-! ## Accruals one after the other -/

/-- The interest an accrual adds to the position; `none` where it fails. -/
def accrual (e : Env) (s : Storage) (p : DebtPosition) : Option ℤ :=
  (calculateInterest p e s).value

/-- The interest that accruals add up: each moves the update of the position to its own time. -/
def accruedOver (p : DebtPosition) : List (Env × Storage) → Option ℤ
  | [] => some 0
  | (e, s) :: later => (accrual e s p).bind fun interest =>
    (accruedOver { p with lastUpdate := e.timestamp } later).map fun rest => interest + rest

/-- A moment of a run of the contract at which the position accrues at the rate and the fee. -/
structure AccruesAt (p : DebtPosition) (rate : ℤ) (fee : Option ℤ) (moment : Env × Storage) :
    Prop where
  reachable : Reachable moment.2
  rate : positionRate moment.1 moment.2 p = .ok rate
  fee : stabilityFeeBps moment.1 moment.2 p.asset = some fee

theorem AccruesAt.rate_nonneg {moment : Env × Storage} (h : AccruesAt p rate fee moment) :
    0 ≤ rate := h.reachable.ratesValid.positionRate h.rate

theorem accrual_eq_some {a : ℤ} : accrual e s p = some a ↔ interestOf e s p = some (.ok a) := by
  obtain ⟨t, -, hcalc⟩ := calculateInterest_eq p e s
  rw [accrual, hcalc]
  cases interestOf e s p with
  | none => exact iff_of_false nofun nofun
  | some x => cases x <;> simp [ofResult, Outcome.value]

theorem charge_of_no_principal (rate feeBps elapsed : ℤ) : charge 0 rate feeBps elapsed = 0 := by
  rw [charge, exactInterest_zero_principal, exactInterest_zero_principal, add_zero]

/-- **What an accrual adds at a rate and a fee**: the charge, where it fits. -/
theorem AccruesAt.accrual_eq_some (h : AccruesAt p rate fee (e, s)) {a : ℤ}
    (hp : 0 ≤ p.borrowedAmount) (hf : 0 ≤ fee.getD 0) : accrual e s p = some a ↔
      ChargeFits p.borrowedAmount rate (fee.getD 0) (p.elapsed e) ∧
        a = charge p.borrowedAmount rate (fee.getD 0) (p.elapsed e) := by
  have hpos := charge_nonneg hp h.rate_nonneg hf (Int.natCast_nonneg _ : 0 ≤ p.elapsed e)
  rw [Lending.accrual_eq_some]
  by_cases hzero : p.borrowedAmount = 0
  · have hfits : ∀ bps, InterestFits 0 bps (p.elapsed e) := fun bps => by
      simp only [InterestFits, zero_mul]
      decide
    rw [interestOf, if_pos hzero, hzero, charge_of_no_principal, Option.some.injEq,
      Except.ok.injEq]
    refine ⟨fun ha => ⟨⟨hfits _, hfits _, ?_⟩, ha.symm⟩, fun ha => ha.2.symm⟩
    rw [charge_of_no_principal]
    decide
  · rw [interestOf_eq_ok hzero]
    simp only [h.rate, Except.ok.injEq, exists_eq_left', interestAt, h.fee, Option.bind_some,
      Option.bind_eq_some_iff, simpleInterest_eq_some]
    constructor
    · rintro ⟨⟨_, ⟨hinterest, rfl⟩, hadd⟩, hholds⟩
      obtain ⟨hfee, -, rfl⟩ := (addStabilityFee_eq_some hinterest.holds).mp hadd
      exact ⟨⟨hinterest, hfee, hholds.2⟩, rfl⟩
    · rintro ⟨⟨hinterest, hfee, hsum⟩, rfl⟩
      have hwide : I256.Holds (charge p.borrowedAmount rate (fee.getD 0) (p.elapsed e)) :=
        ⟨le_trans (by decide) hpos, hsum.trans (by decide)⟩
      exact ⟨⟨_, ⟨hinterest, rfl⟩, (addStabilityFee_eq_some hinterest.holds).mpr
        ⟨hfee, hwide, rfl⟩⟩, (I128.holds_of_nonneg hpos).mpr hsum⟩

/-! ## Many accruals against one -/

/-- The moments come in the order of time, and none before the position's last update. -/
def InOrder (p : DebtPosition) (moments : List (Env × Storage)) : Prop :=
  (p.lastUpdate :: moments.map fun m => m.1.timestamp).Pairwise (· ≤ ·)

/-- What a single accrual charges the position, computed without bounds. -/
def chargeAtOnce (p : DebtPosition) (rate : ℤ) (fee : Option ℤ) (e : Env) : ℤ :=
  charge p.borrowedAmount rate (fee.getD 0) (p.elapsed e)

/-- The position that an accrual leaves, as far as the next one sees it. -/
def DebtPosition.touched (p : DebtPosition) (e : Env) : DebtPosition :=
  { p with lastUpdate := e.timestamp }

theorem AccruesAt.touched {moment : Env × Storage} (h : AccruesAt p rate fee moment) (e : Env) :
    AccruesAt (p.touched e) rate fee moment := ⟨h.reachable, h.rate, h.fee⟩

theorem accruedOver_cons (moment : Env × Storage) (later : List (Env × Storage)) :
    accruedOver p (moment :: later) = (accrual moment.1 moment.2 p).bind fun interest =>
      (accruedOver (p.touched moment.1) later).map fun rest => interest + rest := rfl

theorem InOrder.tail {moment : Env × Storage} {later : List (Env × Storage)}
    (h : InOrder p (moment :: later)) : InOrder (p.touched moment.1) later :=
  (List.pairwise_cons.mp h).2

/-- The time to the end is the time to the first moment and from there. -/
theorem InOrder.elapsed {moment last : Env × Storage} {later : List (Env × Storage)}
    (h : InOrder p (moment :: later)) (hlast : last ∈ later) :
    p.elapsed last.1 = p.elapsed moment.1 + (p.touched moment.1).elapsed last.1 := by
  obtain ⟨hfirst, hlater⟩ := List.pairwise_cons.mp h
  have h1 : p.lastUpdate ≤ moment.1.timestamp := hfirst _ (by simp)
  have h2 : moment.1.timestamp ≤ last.1.timestamp :=
    (List.pairwise_cons.mp hlater).1 _ (List.mem_map_of_mem hlast)
  simp only [DebtPosition.elapsed, DebtPosition.touched]
  omega

/-- **Many accruals add up what one adds at the end, short of at most the slack of all but one of
them**; and they succeed where that one does. -/
theorem accruedOver_bounds (hf : 0 ≤ fee.getD 0) (moment : Env × Storage)
    (later : List (Env × Storage)) (p : DebtPosition) (hp : 0 ≤ p.borrowedAmount)
    (hat : ∀ m ∈ moment :: later, AccruesAt p rate fee m) (horder : InOrder p (moment :: later)) :
    (∀ total, accruedOver p (moment :: later) = some total →
      total ≤ chargeAtOnce p rate fee ((moment :: later).getLast (by simp)).1 ∧
        chargeAtOnce p rate fee ((moment :: later).getLast (by simp)).1 -
          later.length * slack fee ≤ total) ∧
    (ChargeFits p.borrowedAmount rate (fee.getD 0)
        (p.elapsed ((moment :: later).getLast (by simp)).1) →
      ∃ total, accruedOver p (moment :: later) = some total) := by
  induction later generalizing moment p with
  | nil =>
    have hone := fun a => (hat moment (by simp)).accrual_eq_some (a := a) hp hf
    simp only [List.getLast_singleton, accruedOver, Option.map_some, Option.bind_eq_some_iff, hone,
      chargeAtOnce, List.length_nil]
    constructor
    · rintro _ ⟨_, ⟨-, rfl⟩, hsum⟩
      cases hsum
      constructor <;> simp
    · exact fun hfits => ⟨_, _, ⟨hfits, rfl⟩, rfl⟩
  | cons next later ih =>
    have hfirst := hat moment (by simp)
    have hone := fun a => hfirst.accrual_eq_some (a := a) hp hf
    have htouched := fun m hm => (hat m (List.mem_cons_of_mem _ hm)).touched moment.1
    obtain ⟨hbounds, hsome⟩ := ih next (p.touched moment.1) hp htouched horder.tail
    rw [List.getLast_cons (List.cons_ne_nil next later)]
    have hlast := List.getLast_mem (List.cons_ne_nil next later)
    generalize (next :: later).getLast (List.cons_ne_nil next later) = last at hbounds hsome hlast ⊢
    have helapsed := horder.elapsed hlast
    have hprincipal : (p.touched moment.1).borrowedAmount = p.borrowedAmount := rfl
    have h1 : 0 ≤ p.elapsed moment.1 := Int.natCast_nonneg _
    have h2 : 0 ≤ (p.touched moment.1).elapsed last.1 := Int.natCast_nonneg _
    have hadd := charge_add hp hfirst.rate_nonneg hf h1 h2
    rw [accruedOver_cons, chargeAtOnce, helapsed]
    rw [chargeAtOnce, hprincipal] at hbounds
    constructor
    · intro total htotal
      simp only [Option.bind_eq_some_iff, Option.map_eq_some_iff, hone] at htotal
      obtain ⟨_, ⟨-, rfl⟩, rest, hrest, rfl⟩ := htotal
      obtain ⟨hle, hge⟩ := hbounds rest hrest
      push_cast [List.length_cons]
      constructor <;> linarith [hadd.1, hadd.2]
    · intro hfits
      have hr := hfirst.rate_nonneg
      obtain ⟨rest, hrest⟩ := hsome (hfits.mono hp le_rfl hr le_rfl hf h2 (by omega))
      have hstep := (hone _).mpr ⟨hfits.mono hp le_rfl hr le_rfl hf h1 (by omega), rfl⟩
      exact ⟨_, Option.bind_eq_some_iff.mpr ⟨_, hstep, by rw [hrest]; rfl⟩⟩

/-- **A single accrual is monotone in principal, rate and time.** -/
theorem AccruesAt.accrual_mono {moment moment' : Env × Storage} {a' : ℤ}
    (h : AccruesAt p rate fee moment) (h' : AccruesAt q rate' fee moment')
    (hf : 0 ≤ fee.getD 0) (hp : 0 ≤ p.borrowedAmount) (hpq : p.borrowedAmount ≤ q.borrowedAmount)
    (hrate : rate ≤ rate') (htime : p.elapsed moment.1 ≤ q.elapsed moment'.1)
    (ha : accrual moment'.1 moment'.2 q = some a') :
    ∃ a, accrual moment.1 moment.2 p = some a ∧ a ≤ a' := by
  have h0 : 0 ≤ p.elapsed moment.1 := Int.natCast_nonneg _
  obtain ⟨hfits, rfl⟩ := (h'.accrual_eq_some (hp.trans hpq) hf).mp ha
  exact ⟨_, (h.accrual_eq_some hp hf).mpr
    ⟨hfits.mono hp hpq h.rate_nonneg hrate hf h0 htime, rfl⟩,
    charge_mono hp hpq h.rate_nonneg hrate hf h0 htime⟩

/-- What the accruals add up against a single one at the last moment: no more, and less by no more
than the slack of all accruals but one.  If the single one succeeds, they do. -/
structure AddsUp (p : DebtPosition) (rate : ℤ) (fee : Option ℤ) (moments : List (Env × Storage))
    (last : Env × Storage) : Prop where
  bounds : ∀ total, accruedOver p moments = some total → total ≤ chargeAtOnce p rate fee last.1 ∧
    chargeAtOnce p rate fee last.1 - (moments.length - 1) * slack fee ≤ total
  single : ∀ one, accrual last.1 last.2 p = some one →
    one = chargeAtOnce p rate fee last.1 ∧ ∃ total, accruedOver p moments = some total

/-- **Interest does not depend on how often it is accrued**, up to one unit for every further
accrual, and one more for a fee; and a single accrual is monotone in principal, rate and time. -/
theorem accruals_add_up :
    (∀ p rate fee moments (hne : moments ≠ []), 0 ≤ p.borrowedAmount → 0 ≤ fee.getD 0 →
      (∀ m ∈ moments, AccruesAt p rate fee m) → InOrder p moments →
        AddsUp p rate fee moments (moments.getLast hne)) ∧
    (∀ p q rate rate' fee moment moment', AccruesAt p rate fee moment →
      AccruesAt q rate' fee moment' → 0 ≤ fee.getD 0 → 0 ≤ p.borrowedAmount →
      p.borrowedAmount ≤ q.borrowedAmount → rate ≤ rate' →
      p.elapsed moment.1 ≤ q.elapsed moment'.1 →
        ∀ a', accrual moment'.1 moment'.2 q = some a' →
          ∃ a, accrual moment.1 moment.2 p = some a ∧ a ≤ a') := by
  refine ⟨fun p rate fee moments hne hp hf hat horder => ?_,
    fun p q rate rate' fee moment moment' h h' hf hp hpq hrate htime a' =>
      h.accrual_mono h' hf hp hpq hrate htime⟩
  obtain ⟨moment, later, rfl⟩ := List.exists_cons_of_ne_nil hne
  obtain ⟨hbounds, hsome⟩ := accruedOver_bounds hf moment later p hp hat horder
  refine ⟨fun total htotal => ?_, fun one hone => ?_⟩
  · obtain ⟨hle, hge⟩ := hbounds total htotal
    refine ⟨hle, ?_⟩
    rwa [List.length_cons, Nat.cast_succ, add_sub_cancel_right]
  · have hlast := hat _ (List.getLast_mem hne)
    obtain ⟨hfits, rfl⟩ := (hlast.accrual_eq_some hp hf).mp hone
    exact ⟨rfl, hsome hfits⟩

namespace Sample

/-- Alice's variable debt of ten thousand. -/
def aliceDebt : DebtPosition := getDebtPosition nextYear (ledger indebted) alice none .variable

/-- Two years after Alice borrowed. -/
def inTwoYears : Env := envAt (5 + 2 * 31536000) []

/-- Alice's debt is accrued after one year and after two. -/
def yearly : List (Env × Storage) := [(nextYear, ledger indebted), (inTwoYears, ledger indebted)]

theorem accruals_add_up_yearly :
    AddsUp aliceDebt 125 none yearly (inTwoYears, ledger indebted) ∧
      accruedOver aliceDebt yearly = some 250 ∧
      ∃ a, accrual nextYear (ledger indebted) aliceDebt = some a ∧ a ≤ 250 := by
  have hyear : AccruesAt aliceDebt 125 none (nextYear, ledger indebted) :=
    ⟨⟨indebted, rfl⟩, by decide, by decide⟩
  have hyears : AccruesAt aliceDebt 125 none (inTwoYears, ledger indebted) :=
    ⟨⟨indebted, rfl⟩, by decide, by decide⟩
  have hp : 0 ≤ aliceDebt.borrowedAmount := by decide
  have htime : aliceDebt.elapsed nextYear ≤ aliceDebt.elapsed inTwoYears := by decide
  have hone : accrual inTwoYears (ledger indebted) aliceDebt = some 250 := by decide
  have horder : InOrder aliceDebt yearly := by
    unfold InOrder
    decide
  refine ⟨?_, by decide, ?_⟩
  · exact accruals_add_up.1 aliceDebt 125 none yearly (List.cons_ne_nil _ _) hp le_rfl
      (by simp [yearly, hyear, hyears]) horder
  · exact accruals_add_up.2 aliceDebt aliceDebt 125 125 none _ _ hyear hyears le_rfl hp le_rfl
      le_rfl htime 250 hone

end Sample

end StellarLend.Lending
