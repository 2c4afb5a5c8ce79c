import StellarLend.HelloWorld.Valuation

/-!
# HelloWorld/Readings — what an operation reads and records around a position

Relations between the stores before and after a part of an operation, each saying which keys the
part may have written: `Recorded` (analytics, log, credit score, token movements; `Noted` where the
protocol's totals stay, `Tallied` where no tokens move either), `Priced` (the oracle) and `Accrued`
(the user's index, with the position the accrual returns).
-/

namespace StellarLend.HelloWorld

open Foundations Call
open Lending (Address)

variable {ε : Type} {e : Env} {s t u s' : Storage} {user : Address}

theorem subOrZero_eq (a b : ℤ) : subOrZero a b = if I128.Holds (a - b) then a - b else 0 := by
  unfold subOrZero I128.checkedSub Range.check
  split <;> rfl

/-! ## Around a position -/

/-- The stores differ in statistics and token movements only. -/
def Recorded (s t : Storage) : Prop := t = { s with stats := t.stats, transfers := t.transfers }

theorem Recorded.refl (s : Storage) : Recorded s s := rfl

theorem Recorded.trans (h : Recorded s t) (h' : Recorded t u) : Recorded s u := by
  unfold Recorded at h h' ⊢
  rw [h', h]

theorem Recorded.books (h : Recorded s t) : t.books = s.books := by
  rw [Recorded] at h
  rw [h]

theorem Recorded.oracle (h : Recorded s t) : t.oracle = s.oracle := by
  rw [Recorded] at h
  rw [h]

/-- The stores differ in statistics beside the protocol's totals, and in token movements. -/
structure Noted (s t : Storage) : Prop where
  recorded : Recorded s t
  totals : getProtocolAnalytics t = getProtocolAnalytics s

theorem Noted.refl (s : Storage) : Noted s s := ⟨.refl s, rfl⟩

theorem Noted.trans (h : Noted s t) (h' : Noted t u) : Noted s u :=
  ⟨h.recorded.trans h'.recorded, h'.totals.trans h.totals⟩

theorem Noted.books (h : Noted s t) : t.books = s.books := h.recorded.books

/-- The stores differ in statistics beside the protocol's totals. -/
structure Tallied (s t : Storage) : Prop extends Noted s t where
  transfers : t.transfers = s.transfers

theorem Tallied.refl (s : Storage) : Tallied s s := ⟨.refl s, rfl⟩

theorem Tallied.trans (h : Tallied s t) (h' : Tallied t u) : Tallied s u :=
  ⟨h.toNoted.trans h'.toNoted, h'.transfers.trans h.transfers⟩

/-- Asking for a balance changes nothing. -/
theorem tokenBalance_ok {token holder : Address} {b : ℤ}
    (h : (tokenBalance token holder : Invocation ε ℤ) e s = .ok b s') : s = s' := by
  simp [tokenBalance] at h
  exact h.2

/-- The transfer is put down. -/
theorem moveTokens_ok {m : Transfer} {r : Unit}
    (h : (moveTokens m : Invocation ε Unit) e s = .ok r s') :
    s' = { s with transfers := s.transfers ++ [m] } := by
  simp only [moveTokens, look_seq, require_seq, store_ok] at h
  exact h.2.symm

/-- The contract draws on its allowance. -/
theorem transferIn_ok {token sender : Address} {amount : ℤ} {r : Unit}
    (h : (transferIn token sender amount : Invocation ε Unit) e s = .ok r s') :
    s' = { s with transfers := s.transfers ++
      [⟨token, some e.currentContractAddress, sender, e.currentContractAddress, amount⟩] } := by
  simp only [transferIn, asks_seq] at h
  exact moveTokens_ok h

/-- The contract pays. -/
theorem transferOut_ok {token recipient : Address} {amount : ℤ} {r : Unit}
    (h : (transferOut token recipient amount : Invocation ε Unit) e s = .ok r s') :
    s' = { s with transfers := s.transfers ++
      [⟨token, none, e.currentContractAddress, recipient, amount⟩] } := by
  simp only [transferOut, asks_seq] at h
  exact moveTokens_ok h

/-- The token took the payment. -/
theorem transferOut_accepted {token recipient : Address} {amount : ℤ} {r : Unit}
    (h : (transferOut token recipient amount : Invocation ε Unit) e s = .ok r s') :
    e.accepts s.transfers ⟨token, none, e.currentContractAddress, recipient, amount⟩ = true := by
  simp only [transferOut, moveTokens, asks_seq, look_seq, require_seq, store_ok] at h
  exact h.1

theorem touchUserAnalytics_ok {change : UserAnalytics → Except ε UserAnalytics} {r : Unit}
    (h : touchUserAnalytics user change e s = .ok r s') : Tallied s s' := by
  simp only [touchUserAnalytics, asks_seq, view_seq, ofExcept_seq, store_ok] at h
  obtain ⟨_, -, rfl⟩ := h
  exact ⟨⟨rfl, rfl⟩, rfl⟩

/-- Nothing is recorded but the protocol's analytics. -/
theorem touchProtocolAnalytics_ok {change : ProtocolAnalytics → Except ε ProtocolAnalytics}
    {r : Unit} (h : touchProtocolAnalytics change e s = .ok r s') :
    Recorded s s' ∧ change (getProtocolAnalytics s) = .ok (getProtocolAnalytics s') ∧
      s'.transfers = s.transfers := by
  simp only [touchProtocolAnalytics, view_seq, ofExcept_seq, store_ok] at h
  obtain ⟨_, hchange, rfl⟩ := h
  exact ⟨rfl, hchange, rfl⟩

theorem addActivityLog_ok {kind : String} {amount : ℤ} {asset : Option Address} {r : Unit}
    (h : (addActivityLog user kind amount asset : Invocation ε Unit) e s = .ok r s') :
    Tallied s s' := by
  simp only [addActivityLog, asks_seq, view_seq, store_ok, List.length_append, List.length_cons,
    List.length_nil, zero_add] at h
  rw [← h]
  exact ⟨⟨rfl, rfl⟩, rfl⟩

theorem initializeCreditScore_ok {r : Unit} (h : initializeCreditScore user e s = .ok r s') :
    Tallied s s' := by
  simp only [initializeCreditScore, view_seq, asks_seq, onlyIf_ok, store_ok] at h
  by_cases hnone : s.stats.creditScore user = none
  · rw [← h.1 hnone]
    exact ⟨⟨rfl, rfl⟩, rfl⟩
  · rw [← h.2 hnone]
    exact .refl s

theorem getCreditScore_ok {score : CreditScore} (h : getCreditScore user e s = .ok score s') :
    s = s' := by
  simp only [getCreditScore, view_seq, okOr_ok] at h
  exact h.2

/-- A score is initialised, read and changed.  The change cannot fail with an error, but a caller
goes on from wherever the attempt ends. -/
theorem scored {f : CreditScore → Invocation LendingError Unit} {r : Except LendingError Unit}
    (hf : ∀ {score t r t'}, f score e t = .ok r t' → Tallied t t')
    (herr : ∀ {score t err t'}, f score e t ≠ .err err t')
    (h : (attempt (initializeCreditScore user >>= fun _ => getCreditScore user >>= f) :
      Invocation ε (Except LendingError Unit)) e s = .ok r s') : Tallied s s' := by
  rw [attempt_ok] at h
  rcases r with err | r
  · simp only [bind_err] at h
    rcases h with h | ⟨_, t, hinit, h | ⟨_, _, _, h⟩⟩
    · simp [initializeCreditScore] at h
    · simp [getCreditScore] at h
      rw [← h.2.2]
      exact initializeCreditScore_ok hinit
    · exact absurd h herr
  · simp only [bind_ok] at h
    obtain ⟨_, t, hinit, score, _, hget, h⟩ := h
    rw [← getCreditScore_ok hget] at h
    exact (initializeCreditScore_ok hinit).trans (hf h)

theorem updateScoreOnRepayment_tallied {amount : ℤ} {onTime : Bool} {r : Except LendingError Unit}
    (h : (attempt (updateScoreOnRepayment user amount onTime) :
      Invocation ε (Except LendingError Unit)) e s = .ok r s') : Tallied s s' := by
  refine scored (fun hf => ?_) (fun hf => ?_) h
  · cases onTime <;> simp [countUp] at hf <;> obtain ⟨_, -, _, -, rfl⟩ := hf <;>
      exact ⟨⟨rfl, rfl⟩, rfl⟩
  · cases onTime <;> simp [countUp] at hf

theorem updateScoreOnLiquidation_tallied {r : Except LendingError Unit}
    (h : (attempt (updateScoreOnLiquidation user) :
      Invocation ε (Except LendingError Unit)) e s = .ok r s') : Tallied s s' := by
  refine scored (fun hf => ?_) (fun hf => ?_) h
  · simp only [countUp, Nat.reducePow, Nat.add_one_sub_one, Nat.reduceLeDiff, asks_seq, orTrap_seq,
      Option.ite_none_right_eq_some, Option.some.injEq, store_ok, ↓existsAndEq, and_true] at hf
    obtain ⟨_, -, rfl⟩ := hf
    exact ⟨⟨rfl, rfl⟩, rfl⟩
  · simp only [countUp, Nat.reducePow, Nat.add_one_sub_one, Nat.reduceLeDiff, bind_err, asks_err,
      asks_ok, orTrap_err, orTrap_ok, Option.ite_none_right_eq_some, Option.some.injEq, store_err,
      and_false, exists_false, or_self] at hf

theorem recordBorrow_tallied {amount : ℤ} {r : Except LendingError Unit}
    (h : (attempt (recordBorrow user amount) :
      Invocation ε (Except LendingError Unit)) e s = .ok r s') : Tallied s s' := by
  refine scored (fun hf => ?_) (fun hf => ?_) h
  · simp at hf
    obtain ⟨_, -, rfl⟩ := hf
    exact ⟨⟨rfl, rfl⟩, rfl⟩
  · simp at hf

/-! ## Reading prices -/

/-- The stores differ in the oracle's keys only, and prices that were positive still are. -/
structure Priced (s t : Storage) : Prop where
  keys : t = { s with oracle := t.oracle }
  positive : PricesPositive s.oracle → PricesPositive t.oracle

theorem Priced.refl (s : Storage) : Priced s s := ⟨rfl, id⟩

theorem Priced.trans (h : Priced s t) (h' : Priced t u) : Priced s u := by
  refine ⟨?_, h'.positive ∘ h.positive⟩
  rw [h'.keys, h.keys]

theorem Priced.books (h : Priced s t) : t.books = s.books := by rw [h.keys]

theorem Priced.totals (h : Priced s t) : getProtocolAnalytics t = getProtocolAnalytics s := by
  rw [h.keys]
  rfl

theorem ofOracle_priced {α : Type} {x : Call ℕ OracleStore ε α} {P : α → Prop} {a : α}
    (hx : Keeps PricesPositive x P) (h : (ofOracle x : Invocation ε α) e s = .ok a s') :
    Priced s s' ∧ (PricesPositive s.oracle → P a) := by
  obtain ⟨o, hx', rfl⟩ := ofOracle_ok.mp h
  exact ⟨⟨rfl, fun hs => (hx.ok hs hx').1⟩, fun hs => (hx.ok hs hx').2⟩

/-- The same, and nothing changes of the oracle's set-up. -/
structure Quoted (s t : Storage) : Prop extends Priced s t where
  setup : t.oracle.setup = s.oracle.setup

theorem Quoted.refl (s : Storage) : Quoted s s := ⟨.refl s, rfl⟩

theorem Quoted.trans (h : Quoted s t) (h' : Quoted t u) : Quoted s u :=
  ⟨h.toPriced.trans h'.toPriced, h'.setup.trans h.setup⟩

theorem ofOracle_quoted {α : Type} {x : Call ℕ OracleStore ε α} {P : α → Prop} {a : α}
    (hx : Keeps PricesPositive x P) (hsetup : ∀ c, Keeps (fun o => o.setup = c) x fun _ => True)
    (h : (ofOracle x : Invocation ε α) e s = .ok a s') :
    Quoted s s' ∧ (PricesPositive s.oracle → P a) := by
  obtain ⟨hpriced, hP⟩ := ofOracle_priced hx h
  obtain ⟨o, hx', rfl⟩ := ofOracle_ok.mp h
  exact ⟨⟨hpriced, ((hsetup _).ok rfl hx').1⟩, hP⟩

theorem namedPrice_ok {asset : Option Address} {price : ℤ}
    (h : (namedPrice asset : Invocation ε ℤ) e s = .ok price s') :
    Quoted s s' ∧ (PricesPositive s.oracle → 0 < price) := by
  cases asset with
  | none =>
    obtain ⟨rfl, rfl⟩ := pure_ok.mp h
    exact ⟨.refl s, fun _ => Int.one_pos⟩
  | some token =>
    exact ofOracle_quoted (priceOr_keeps PricesPositive.kept (by decide) token)
      (fun c => priceOr_keeps (setup_kept c) trivial token) h

theorem calculateTotalCollateralValue_quoted {value : ℤ}
    (h : calculateTotalCollateralValue user e s = .ok value s') : Quoted s s' := by
  rw [calculateTotalCollateralValue_eq] at h
  exact (ofOracle_quoted (valueOn_keeps _ _ _ _) (fun c => valueOn_setup c _ _ _ _) h).1

/-! ## Accrual -/

/-- What `updateLendingIndex` returns. -/
def nextLendingIndex (e : Env) (s : Storage) : Except InterestRateError LendingIndex :=
  let idx := getLendingIndex e s
  if e.timestamp ≤ idx.lastUpdate then .ok idx
  else do
    let borrowIndex ← grownIndex idx.borrowIndex (rateOrZero (calculateBorrowRate s))
      (e.timestamp - idx.lastUpdate)
    let supplyIndex ← grownIndex idx.supplyIndex (rateOrZero (calculateSupplyRate s))
      (e.timestamp - idx.lastUpdate)
    .ok ⟨borrowIndex, supplyIndex, e.timestamp⟩

theorem updateLendingIndex_ok {idx : LendingIndex} (h : updateLendingIndex e s = .ok idx s') :
    nextLendingIndex e s = .ok idx ∧ s' = { s with interest := s'.interest } ∧
      (s.interest.lendingIndex = none → s' = s) := by
  simp only [updateLendingIndex, look_seq, asks_seq] at h
  unfold nextLendingIndex
  by_cases hcurrent : e.timestamp ≤ (getLendingIndex e s).lastUpdate
  · rw [if_pos hcurrent] at h
    obtain ⟨rfl, rfl⟩ := pure_ok.mp h
    exact ⟨if_pos hcurrent, rfl, fun _ => rfl⟩
  · rw [if_neg hcurrent] at h
    simp only [view_seq, ofExcept_seq, store_seq, pure_ok] at h
    obtain ⟨b, hb, c, hc, rfl, rfl⟩ := h
    refine ⟨?_, rfl, fun hnone => absurd ?_ hcurrent⟩
    · rw [if_neg hcurrent]
      exact except_bind_ok.mpr ⟨b, hb, except_bind_ok.mpr ⟨c, hc, rfl⟩⟩
    · rw [getLendingIndex, hnone, Option.getD_none]

/-- What the index charges a user's principal since the user's own copy of it. -/
def indexInterest (e : Env) (s : Storage) (user : Address) (debt : ℤ) : Option ℤ :=
  match nextLendingIndex e s with
  | .ok idx => (computeIndexInterest debt
      ((s.books.userBorrowIndex user).getD idx.borrowIndex) idx.borrowIndex).toOption
  | .error _ => none

/-- Without principal nothing is charged. -/
theorem indexInterest_zero {i : ℤ} (h : indexInterest e s user 0 = some i) :
    i = 0 := by
  unfold indexInterest at h
  split at h
  · simpa [computeIndexInterest, Except.toOption] using h.symm
  · cases h

/-- The interest of a position accrued to now: what is recorded, and what the index adds to it. -/
def interestNow (e : Env) (s : Storage) (user : Address) (p : Position) : Option ℤ :=
  (indexInterest e s user p.debt).map fun i => p.borrowInterest + i

/-- The accrued position `p'` of a user with the position `p`, and the store it is read in. -/
structure Accrued (e : Env) (s : Storage) (user : Address) (p p' : Position) (s' : Storage) :
    Prop where
  charged : ∃ i, indexInterest e s user p.debt = some i ∧
    (p.debt ≠ 0 → I128.Holds (p.borrowInterest + i)) ∧
    p' = { p with
      borrowInterest := if p.debt = 0 then 0 else p.borrowInterest + i
      lastAccrualTime := e.timestamp }
  keys : s' = { s with books := s'.books, interest := s'.interest }
  books : ∃ index, s'.books = (withUserBorrowIndex user index s).books ∧
    (s.interest.lendingIndex = none → index = INDEX_SCALE)
  dormant : s.interest.lendingIndex = none → s'.interest = s.interest

theorem Accrued.totals {p p' : Position} (h : Accrued e s user p p' s') :
    getProtocolAnalytics s' = getProtocolAnalytics s := by
  rw [h.keys]
  rfl

theorem Accrued.oracle {p p' : Position} (h : Accrued e s user p p' s') :
    s'.oracle = s.oracle := by rw [h.keys]

theorem accrueInterest_ok {overflow : ε} {p p' : Position}
    (h : accrueInterest overflow user p e s = .ok p' s') : Accrued e s user p p' s' := by
  simp only [accrueInterest, bind_ok, asks_ok, mapErr_ok] at h
  obtain ⟨_, _, ⟨rfl, rfl⟩, idx, t, hidx, h⟩ := h
  obtain ⟨hnext, hkeys, hnone⟩ := updateLendingIndex_ok hidx
  have hbooks : t.books = s.books := by rw [hkeys]
  have hscale : s.interest.lendingIndex = none → idx.borrowIndex = INDEX_SCALE := by
    intro hn
    rw [nextLendingIndex, getLendingIndex, hn, Option.getD_none, if_pos le_rfl] at hnext
    rw [← Except.ok.inj hnext]
  have hinterest : s.interest.lendingIndex = none → t.interest = s.interest := fun hn => by
    rw [hnone hn]
  by_cases hdebt : p.debt = 0
  · simp only [if_pos hdebt, store_seq, pure_ok] at h
    obtain ⟨rfl, rfl⟩ := h
    refine ⟨⟨0, ?_, ?_⟩, ?_, ⟨idx.borrowIndex, ?_, hscale⟩, hinterest⟩
    · rw [indexInterest, hnext, hdebt]
      simp only [computeIndexInterest, true_or, if_true]
      rfl
    · exact ⟨fun howing => absurd hdebt howing, by rw [if_pos hdebt]⟩
    · rw [hkeys]
      rfl
    · rw [withUserBorrowIndex, withUserBorrowIndex, hbooks]
  · simp only [if_neg hdebt, bind_ok, view_ok, mapErr_ok, ofExcept_ok, okOr_ok,
      I128.checkedAdd_eq_some, store_ok, pure_ok] at h
    obtain ⟨_, _, ⟨rfl, rfl⟩, i, _, ⟨hi, rfl⟩, _, _, ⟨⟨hholds, rfl⟩, rfl⟩, _, _, rfl, rfl, rfl⟩ := h
    refine ⟨⟨i, ?_, ?_⟩, ?_, ⟨idx.borrowIndex, ?_, hscale⟩, hinterest⟩
    · rw [indexInterest, hnext]
      rw [hbooks] at hi
      simp only [hi]
      rfl
    · exact ⟨fun _ => hholds, by rw [if_neg hdebt]⟩
    · rw [hkeys]
      rfl
    · rw [withUserBorrowIndex, withUserBorrowIndex, hbooks]

end StellarLend.HelloWorld
