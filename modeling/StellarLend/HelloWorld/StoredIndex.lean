import StellarLend.HelloWorld.Health
import StellarLend.HelloWorld.RateCurves

/-!
# HelloWorld/StoredIndex — how a stored index grows, and what it charges

An update multiplies both indices by what their rates make of the time, rounded down, and a debtor
pays for the growth since the own copy of the index, rounded down again.  The supply rate is never
above the borrow rate, so the indices keep their order.

    one update       borrow index + growth                   debt * growth / index
    k updates        short of that by k - 1 units at most    short by k units, and by k units of the
                                                              index, at most

The second loss of a charge is the first one's worth in debt: a debt of a hundred times the index
loses a hundred units with every unit that the index does.
-/

namespace StellarLend.HelloWorld

open Foundations Call
open Lending (Address)

variable {e : Env} {s t : Storage}

/-! ## One update -/


/-- The rate an update of the index credits suppliers with. -/
def supplyRateOf (s : Storage) : ℤ := rateOrZero (calculateSupplyRate s)

/-- What an update at a time makes of an index, without bounds. -/
def LendingIndex.grown (idx : LendingIndex) (s : Storage) (now : ℕ) : LendingIndex where
  borrowIndex := idx.borrowIndex +
    indexGrowth idx.borrowIndex (borrowRateOf s) (now - idx.lastUpdate)
  supplyIndex := idx.supplyIndex +
    indexGrowth idx.supplyIndex (supplyRateOf s) (now - idx.lastUpdate)
  lastUpdate := max idx.lastUpdate now

/-- The indices are at least where indexes start, and borrowers pay no less than suppliers get. -/
structure LendingIndex.Ordered (idx : LendingIndex) : Prop where
  start : INDEX_SCALE ≤ idx.supplyIndex
  covered : idx.supplyIndex ≤ idx.borrowIndex

theorem LendingIndex.Ordered.supply_pos {idx : LendingIndex} (h : idx.Ordered) :
    0 < idx.supplyIndex := lt_of_lt_of_le (by decide) h.start

theorem LendingIndex.Ordered.borrow_pos {idx : LendingIndex} (h : idx.Ordered) :
    0 < idx.borrowIndex := h.supply_pos.trans_le h.covered

/-- The unit of a growth: basis points times the seconds of a year. -/
theorem growthUnit_pos : (0 : ℤ) < BASIS_POINTS_SCALE * SECONDS_PER_YEAR := by decide

section Growth

variable {index index' rate rate' : ℤ} {elapsed first second : ℕ}

theorem indexGrowth_nonneg (hi : 0 ≤ index) (hr : 0 ≤ rate) (elapsed : ℕ) :
    0 ≤ indexGrowth index rate elapsed :=
  Int.ediv_nonneg (mul_nonneg (mul_nonneg hi hr) (Int.natCast_nonneg _)) growthUnit_pos.le

/-- **A growth is monotone in index, rate and time.** -/
theorem indexGrowth_mono (hi : 0 ≤ index) (hii : index ≤ index') (hr : 0 ≤ rate)
    (hrr : rate ≤ rate') (he : first ≤ second) :
    indexGrowth index rate first ≤ indexGrowth index' rate' second := by
  have hscaled : index * rate ≤ index' * rate' := mul_le_mul hii hrr hr (hi.trans hii)
  exact Int.ediv_le_ediv growthUnit_pos (mul_le_mul hscaled (Int.ofNat_le.mpr he)
    (Int.natCast_nonneg _) ((mul_nonneg hi hr).trans hscaled))

/-- The growth over a time and a further time falls short by one unit at most. -/
theorem indexGrowth_add (index rate : ℤ) (first second : ℕ) :
    indexGrowth index rate (first + second) ≤
      indexGrowth index rate first + indexGrowth index rate second + 1 := by
  rw [indexGrowth, indexGrowth, indexGrowth, Int.natCast_add, mul_add]
  exact (ediv_add_bounds growthUnit_pos).2

/-- What the code grows an index by, where nothing overflows. -/
theorem grownIndex_ok {x : ℤ} (hi : 0 ≤ index) (hr : 0 ≤ rate)
    (h : grownIndex index rate elapsed = .ok x) : x = index + indexGrowth index rate elapsed := by
  simp only [grownIndex, except_bind_ok, orErr_ok, I128.checkedMul_eq_some, I128.checkedAdd_eq_some,
    and_assoc, exists_and_left, exists_eq_left'] at h
  obtain ⟨-, -, -, rfl⟩ := h
  rw [indexGrowth,
    Int.tdiv_eq_ediv_of_nonneg (mul_nonneg (mul_nonneg hi hr) (Int.natCast_nonneg _))]

end Growth

/-- **Suppliers get a rate that is not negative and no greater than what borrowers pay**, also where
one of them cannot be computed. -/
theorem RateValid.rates (h : RateValid s) :
    0 ≤ supplyRateOf s ∧ supplyRateOf s ≤ borrowRateOf s := by
  rw [supplyRateOf, borrowRateOf]
  cases hborrow : calculateBorrowRate s with
  | error err =>
    have hsupply : ∀ q, calculateSupplyRate s ≠ .ok q := by
      intro q hq
      simp only [calculateSupplyRate, except_bind_ok, hborrow, reduceCtorEq, false_and,
        exists_false, and_false] at hq
    cases hq : calculateSupplyRate s with
    | error _ => exact ⟨le_rfl, le_rfl⟩
    | ok q => exact absurd hq (hsupply q)
  | ok r =>
    have hconfig : ∃ config, getInterestRateConfig s = some config := by
      simp only [calculateBorrowRate, except_bind_ok, orErr_ok] at hborrow
      exact ⟨_, hborrow.choose_spec.1⟩
    obtain ⟨config, hconfig⟩ := hconfig
    have hvalid := h config hconfig
    have hcurve := helloWorld_rateCurve hvalid
    have hon : Parameters config s := ⟨config.lastUpdate, hconfig⟩
    cases hsupply : calculateSupplyRate s with
    | error _ => exact ⟨le_rfl, hvalid.floor.trans (hcurve.limits s r hon hborrow).1⟩
    | ok q =>
      have hlaw := hcurve.supply s r q hon hborrow hsupply
      exact ⟨hvalid.floor.trans hlaw.1, hlaw.2⟩

theorem RateValid.borrowRate_nonneg (h : RateValid s) : 0 ≤ borrowRateOf s :=
  h.rates.1.trans h.rates.2

/-- **An update grows the index that it finds**, where nothing overflows. -/
theorem nextLendingIndex_grown {idx idx' : LendingIndex} (hs : s.interest.lendingIndex = some idx)
    (hidx : idx.Ordered) (hrates : RateValid s) (h : nextLendingIndex e s = .ok idx') :
    idx' = idx.grown s e.timestamp := by
  rw [nextLendingIndex, getLendingIndex, hs, Option.getD_some] at h
  split at h <;> rename_i hcurrent
  · have hnone : e.timestamp - idx.lastUpdate = 0 := Nat.sub_eq_zero_of_le hcurrent
    rw [← Except.ok.inj h, LendingIndex.grown, hnone, max_eq_left hcurrent]
    simp [indexGrowth]
  · simp only [except_bind_ok] at h
    obtain ⟨b, hb, q, hq, h⟩ := h
    rw [← Except.ok.inj h, grownIndex_ok hidx.borrow_pos.le hrates.borrowRate_nonneg hb,
      grownIndex_ok hidx.supply_pos.le hrates.rates.1 hq, LendingIndex.grown,
      max_eq_right (not_le.mp hcurrent).le]

/-- From one index to a later one neither rate's index shrinks, and the order is kept. -/
structure LendingIndex.Grows (idx idx' : LendingIndex) : Prop where
  ordered : idx'.Ordered
  borrow : idx.borrowIndex ≤ idx'.borrowIndex
  supply : idx.supplyIndex ≤ idx'.supplyIndex

theorem LendingIndex.Ordered.grown {idx : LendingIndex} (h : idx.Ordered) (hrates : RateValid s)
    (now : ℕ) : idx.Grows (idx.grown s now) := by
  have hsupply := indexGrowth_nonneg h.supply_pos.le hrates.rates.1 (now - idx.lastUpdate)
  have hborrow := indexGrowth_mono h.supply_pos.le h.covered hrates.rates.1 hrates.rates.2
    (le_refl (now - idx.lastUpdate))
  have hstart := h.start
  have hcovered := h.covered
  refine ⟨⟨?_, ?_⟩, ?_, ?_⟩ <;> simp only [LendingIndex.grown] <;> omega


/-! ## Updates one after the other -/

/-- A moment at which the index is updated: the call, the store but for the index, and whether the
debtor's interest is accrued with it. -/
structure IndexMoment where
  env : Env
  store : Storage
  charges : Bool

/-- The index, and of a debtor the copy of the borrow index and the interest recorded. -/
structure IndexAccount where
  index : LendingIndex
  copy : ℤ
  interest : ℤ
  deriving DecidableEq, Repr

/-- What the debtor was charged from one account to the other. -/
def IndexAccount.charged (a b : IndexAccount) : ℤ := b.interest - a.interest

section Steps

variable {user : Address} {debt : ℤ} {m : IndexMoment} {a a' b : IndexAccount}

/-- The store that a moment finds. -/
def IndexMoment.found (m : IndexMoment) (user : Address) (a : IndexAccount) : Storage :=
  withUserBorrowIndex user a.copy (withLendingIndex a.index m.store)

/-- An update of the index alone, or with the accrual of the debtor's position. -/
def IndexMoment.call (m : IndexMoment) (user : Address) (debt interest : ℤ) :
    Invocation InterestRateError ℤ :=
  if m.charges then do
    let position ← accrueInterest .overflow user ⟨0, debt, interest, 0⟩
    pure position.borrowInterest
  else do
    let _ ← updateLendingIndex
    pure interest

/-- What a moment makes of an account; `none` where the call fails. -/
def IndexMoment.step (user : Address) (debt : ℤ) (m : IndexMoment) (a : IndexAccount) :
    Option IndexAccount :=
  match m.call user debt a.interest m.env (m.found user a) with
  | .ok interest t =>
    some ⟨getLendingIndex m.env t, (t.books.userBorrowIndex user).getD a.copy, interest⟩
  | _ => none

/-- A moment's effect on an account: the index grows, and a debtor who is charged pays for the
growth since the own copy of the index. -/
structure IndexStep (debt : ℤ) (m : IndexMoment) (a a' : IndexAccount) : Prop where
  index : a'.index = a.index.grown m.store m.env.timestamp
  held : m.charges = false → a'.copy = a.copy ∧ a'.interest = a.interest
  charged : m.charges = true → a'.copy = a'.index.borrowIndex ∧
    computeIndexInterest debt a.copy a'.index.borrowIndex = .ok (a.charged a')

/-- What an update of a stored index leaves in the store. -/
theorem updateLendingIndex_stored {idx idx' : LendingIndex}
    (hs : s.interest.lendingIndex = some idx) (h : updateLendingIndex e s = .ok idx' t) :
    t.interest.lendingIndex = some idx' := by
  simp only [updateLendingIndex, look_seq, asks_seq] at h
  split at h
  · obtain ⟨rfl, rfl⟩ := pure_ok.mp h
    rw [getLendingIndex, hs, Option.getD_some]
  · simp only [view_seq, ofExcept_seq, store_seq, pure_ok] at h
    obtain ⟨_, -, _, -, rfl, rfl⟩ := h
    rfl

theorem IndexMoment.step_ok (hdebt : debt ≠ 0) (ha : a.index.Ordered) (hm : RateValid m.store)
    (h : m.step user debt a = some a') : IndexStep debt m a a' := by
  have hstored : (m.found user a).interest.lendingIndex = some a.index := rfl
  have hrates : RateValid (m.found user a) := hm
  have hcopy : (m.found user a).books.userBorrowIndex user = some a.copy :=
    Function.update_self _ _ _
  rw [IndexMoment.step] at h
  split at h
  case h_2 => cases h
  case h_1 interest t hcall =>
  obtain rfl := Option.some.inj h
  rw [IndexMoment.call] at hcall
  split at hcall <;> rename_i hcharges
  · simp only [accrueInterest, bind_ok, asks_ok, mapErr_ok, if_neg hdebt, view_ok, ofExcept_ok,
      okOr_ok, I128.checkedAdd_eq_some, store_ok, pure_ok] at hcall
    obtain ⟨_, _, ⟨_, _, ⟨rfl, rfl⟩, idx, u, hidx, _, _, ⟨rfl, rfl⟩, i, _, ⟨hi, rfl⟩, _, _,
      ⟨⟨-, rfl⟩, rfl⟩, _, _, rfl, rfl, rfl⟩, rfl, rfl⟩ := hcall
    obtain ⟨hnext, hkeys, -⟩ := updateLendingIndex_ok hidx
    have hnow : getLendingIndex m.env (withUserBorrowIndex user idx.borrowIndex u) = idx := by
      have hnew := updateLendingIndex_stored hstored hidx
      rw [getLendingIndex]
      exact hnew ▸ rfl
    have hown : (u.books.userBorrowIndex user).getD idx.borrowIndex = a.copy := by
      rw [hkeys]
      exact hcopy ▸ rfl
    have hgrown := nextLendingIndex_grown hstored ha hrates hnext
    rw [hown] at hi
    refine ⟨?_, fun hheld => absurd hcharges (by simp [hheld]), fun _ => ⟨?_, ?_⟩⟩
    · rw [hnow]
      exact hgrown
    · rw [hnow]
      simp [withUserBorrowIndex]
    · rw [hnow, hi]
      simp [IndexAccount.charged]
  · simp only [bind_ok, pure_ok] at hcall
    obtain ⟨idx, u, hidx, rfl, rfl⟩ := hcall
    obtain ⟨hnext, hkeys, -⟩ := updateLendingIndex_ok hidx
    refine ⟨?_, fun _ => ⟨?_, rfl⟩, fun h => absurd h hcharges⟩
    · have hnow : getLendingIndex m.env u = idx := by
        rw [getLendingIndex, updateLendingIndex_stored hstored hidx, Option.getD_some]
      have hgrown := nextLendingIndex_grown hstored ha hrates hnext
      rw [hnow]
      exact hgrown
    · rw [hkeys]
      exact hcopy ▸ rfl

end Steps

section Laws

variable {user : Address} {debt rate : ℤ} {m last : IndexMoment} {ms : List IndexMoment}
  {a a' b : IndexAccount}

/-- The moment works under parameters that a run of the contract reaches. -/
def IndexMoment.Configured (m : IndexMoment) : Prop :=
  ∃ s, Reachable s ∧ getInterestRateConfig m.store = getInterestRateConfig s

theorem IndexMoment.Configured.rateValid (h : m.Configured) : RateValid m.store := by
  obtain ⟨s, hs, hsame⟩ := h
  intro config hconfig
  exact hs.rateValid config (hsame ▸ hconfig)

/-- What the growth of an index charges a debtor. -/
theorem computeIndexInterest_eq {copy index i : ℤ} (hdebt : debt ≠ 0)
    (h : computeIndexInterest debt copy index = .ok i) :
    i = if copy = 0 ∨ index ≤ copy then 0 else (debt * (index - copy)).tdiv copy := by
  unfold computeIndexInterest at h
  simp only [hdebt, false_or] at h
  split at h <;> rename_i hnone
  · rw [if_pos hnone]
    exact (Except.ok.inj h).symm
  · rw [if_neg hnone]
    simp only [except_bind_ok, orErr_ok, I128.checkedSub_eq_some, I128.checkedMul_eq_some,
      I128.checkedDiv_eq_some, and_assoc, exists_and_left, exists_eq_left'] at h
    obtain ⟨-, -, -, -, rfl⟩ := h
    rfl

/-- Behind the index, a debtor is charged the floored share of the growth. -/
theorem computeIndexInterest_of_le {copy index i : ℤ} (hdebt : 0 < debt) (hcopy : 0 < copy)
    (hle : copy ≤ index) (h : computeIndexInterest debt copy index = .ok i) :
    i = debt * (index - copy) / copy := by
  rw [computeIndexInterest_eq hdebt.ne' h]
  split <;> rename_i hnone
  · obtain rfl : index = copy := le_antisymm (hnone.resolve_left hcopy.ne') hle
    simp
  · exact Int.tdiv_eq_ediv_of_nonneg (mul_nonneg hdebt.le (sub_nonneg.mpr hle))

/-! ### No update takes back -/

/-- What moments keep of an account: neither index shrinks, and nobody is paid interest. -/
structure IndexAccount.Grows (a b : IndexAccount) : Prop where
  index : a.index.Grows b.index
  copy : 0 ≤ b.copy
  charged : 0 ≤ a.charged b

theorem IndexAccount.Grows.step (h : a.Grows a') (hdebt : 0 < debt) (hm : RateValid m.store)
    (hstep : m.step user debt a' = some b) : a.Grows b := by
  have hs := m.step_ok hdebt.ne' h.index.ordered hm hstep
  have hgrown : a'.index.Grows b.index := hs.index ▸ h.index.ordered.grown hm m.env.timestamp
  have hindex : a.index.Grows b.index :=
    ⟨hgrown.ordered, h.index.borrow.trans hgrown.borrow, h.index.supply.trans hgrown.supply⟩
  have hbefore := h.charged
  simp only [IndexAccount.charged] at hbefore
  cases hcharges : m.charges with
  | false =>
    obtain ⟨hcopy, hinterest⟩ := hs.held hcharges
    refine ⟨hindex, hcopy ▸ h.copy, ?_⟩
    rw [IndexAccount.charged, hinterest]
    exact hbefore
  | true =>
    obtain ⟨hcopy, hcharged⟩ := hs.charged hcharges
    refine ⟨hindex, hcopy ▸ hgrown.ordered.borrow_pos.le, ?_⟩
    have hnonneg : 0 ≤ a'.charged b := by
      rw [computeIndexInterest_eq hdebt.ne' hcharged]
      split <;> rename_i hbehind
      · exact le_rfl
      · have hahead := not_le.mp (not_or.mp hbehind).2
        exact Int.tdiv_nonneg (mul_nonneg hdebt.le (sub_nonneg.mpr hahead.le)) h.copy
    simp only [IndexAccount.charged] at hnonneg ⊢
    omega

/-- **Over every run of updates, failing ones included, the indices grow and keep their order.** -/
theorem IndexAccount.Grows.run (ha : a.index.Ordered) (hcopy : 0 ≤ a.copy) (hdebt : 0 < debt)
    (hms : ∀ m ∈ ms, m.Configured) : a.Grows (run (IndexMoment.step user debt) a ms) := by
  have hmeets : Meets (IndexMoment.step user debt) (fun _ m => RateValid m.store) a ms :=
    meets_of_forall fun m hm _ => (hms m hm).rateValid
  refine hmeets.invariant (I := fun b => a.Grows b) ?_ ?_
  · intro b m c hstep hm hb
    exact hb.step hdebt hm hstep
  · exact ⟨⟨ha, le_rfl, le_rfl⟩, hcopy, (sub_self a.interest).ge⟩

/-! ### Many updates against one -/

/-- An index is short of one grown at once by a unit for every further update at most. -/
theorem chain_borrowIndex (ha : a.index.Ordered) (hdebt : debt ≠ 0)
    (hms : ∀ m ∈ ms ++ [last], RateValid m.store ∧ borrowRateOf m.store = rate)
    (h : chain (IndexMoment.step user debt) a (ms ++ [last]) = some b) :
    a.index.borrowIndex +
        indexGrowth a.index.borrowIndex rate (last.env.timestamp - a.index.lastUpdate) ≤
      b.index.borrowIndex + ms.length := by
  induction ms generalizing a with
  | nil =>
    rw [List.nil_append] at hms h
    obtain ⟨hvalid, rfl⟩ := hms last (List.mem_singleton_self last)
    rw [chain_single] at h
    rw [(last.step_ok hdebt ha hvalid h).index, List.length_nil, Nat.cast_zero, add_zero]
    rfl
  | cons m ms ih =>
    rw [List.cons_append] at hms h
    obtain ⟨a₁, hstep, h⟩ := Option.bind_eq_some_iff.mp h
    obtain ⟨⟨hvalid, hrate⟩, hms⟩ := List.forall_mem_cons.mp hms
    have hindex := (m.step_ok hdebt ha hvalid hstep).index
    have hgrows : a.index.Grows a₁.index := hindex ▸ ha.grown hvalid m.env.timestamp
    have hrest := ih hgrows.ordered hms h
    have hnonneg : 0 ≤ rate := hrate ▸ hvalid.borrowRate_nonneg
    have hfirst : a₁.index.borrowIndex = a.index.borrowIndex +
        indexGrowth a.index.borrowIndex rate (m.env.timestamp - a.index.lastUpdate) := by
      rw [hindex, ← hrate]
      rfl
    have hlast : a₁.index.lastUpdate = max a.index.lastUpdate m.env.timestamp :=
      congrArg LendingIndex.lastUpdate hindex
    have hsplit := indexGrowth_mono ha.borrow_pos.le le_rfl hnonneg le_rfl
      (show last.env.timestamp - a.index.lastUpdate ≤ m.env.timestamp - a.index.lastUpdate +
        (last.env.timestamp - a₁.index.lastUpdate) by omega)
    have hadd := indexGrowth_add a.index.borrowIndex rate (m.env.timestamp - a.index.lastUpdate)
      (last.env.timestamp - a₁.index.lastUpdate)
    have hlater := indexGrowth_mono ha.borrow_pos.le hgrows.borrow hnonneg le_rfl
      (le_refl (last.env.timestamp - a₁.index.lastUpdate))
    rw [List.length_cons, Nat.cast_succ]
    omega

/-- What the debtor owes in interest, with what is pending since the own copy of the index. -/
def IndexAccount.owed (debt : ℤ) (a : IndexAccount) : ℚ :=
  a.interest + debt * (a.index.borrowIndex - a.copy) / a.copy

/-- The copy is an index that was reached after `start`. -/
structure IndexAccount.Behind (start : ℤ) (a : IndexAccount) : Prop where
  ordered : a.index.Ordered
  start : start ≤ a.copy
  copy : a.copy ≤ a.index.borrowIndex

/-- What a debt is charged for a rate over a time, not rounded. -/
def exactCharge (debt rate : ℤ) (elapsed : ℕ) : ℚ :=
  debt * (rate * elapsed / (BASIS_POINTS_SCALE * SECONDS_PER_YEAR : ℤ))

variable {start : ℤ}

theorem exactCharge_add (debt rate : ℤ) (first second : ℕ) :
    exactCharge debt rate (first + second) =
      exactCharge debt rate first + exactCharge debt rate second := by
  rw [exactCharge, exactCharge, exactCharge, Nat.cast_add, mul_add, add_div, mul_add]

theorem exactCharge_mono {first second : ℕ} (hdebt : 0 ≤ debt) (hr : 0 ≤ rate)
    (h : first ≤ second) : exactCharge debt rate first ≤ exactCharge debt rate second := by
  have hd : (0 : ℚ) ≤ debt := Int.cast_nonneg hdebt
  have hr' : (0 : ℚ) ≤ rate := Int.cast_nonneg hr
  have hunit : (0 : ℚ) ≤ (BASIS_POINTS_SCALE * SECONDS_PER_YEAR : ℤ) :=
    Int.cast_nonneg growthUnit_pos.le
  rw [exactCharge, exactCharge]
  gcongr

/-- On the index that a debt is behind, the charge is exact up to a unit of the index. -/
theorem exactCharge_le {index copy : ℤ} (hdebt : 0 ≤ debt) (hr : 0 ≤ rate) (hstart : 0 < start)
    (hcopy : start ≤ copy) (hindex : copy ≤ index) (elapsed : ℕ) :
    exactCharge debt rate elapsed ≤
      (debt * indexGrowth index rate elapsed / copy : ℚ) + debt / start := by
  have hd : (0 : ℚ) ≤ debt := Int.cast_nonneg hdebt
  have hr' : (0 : ℚ) ≤ rate := Int.cast_nonneg hr
  have hs : (0 : ℚ) < start := Int.cast_pos.mpr hstart
  have hc : (start : ℚ) ≤ copy := Int.cast_le.mpr hcopy
  have hcpos : (0 : ℚ) < copy := hs.trans_le hc
  have hi : (copy : ℚ) ≤ index := Int.cast_le.mpr hindex
  have hunit : (0 : ℚ) < (BASIS_POINTS_SCALE * SECONDS_PER_YEAR : ℤ) :=
    Int.cast_pos.mpr growthUnit_pos
  have hfloor := lt_cast_ediv_add_one growthUnit_pos (a := index * rate * elapsed)
  rw [exactCharge]
  generalize hx : (rate * elapsed / (BASIS_POINTS_SCALE * SECONDS_PER_YEAR : ℤ) : ℚ) = x
  have hxpos : 0 ≤ x := hx ▸ div_nonneg (mul_nonneg hr' (Nat.cast_nonneg _)) hunit.le
  have hgrowth : index * x ≤ (indexGrowth index rate elapsed : ℚ) + 1 := by
    rw [← hx, ← mul_div_assoc, ← mul_assoc]
    exact_mod_cast hfloor.le
  calc debt * x = debt * (copy * x) / copy := by
          rw [mul_left_comm, mul_div_cancel_left₀ _ hcpos.ne']
    _ ≤ debt * (index * x) / copy := by gcongr
    _ ≤ debt * (indexGrowth index rate elapsed + 1) / copy := by gcongr
    _ = debt * indexGrowth index rate elapsed / copy + debt / copy := by ring
    _ ≤ debt * indexGrowth index rate elapsed / copy + debt / start := by gcongr

/-- A debt that the index catches up with at once is charged no more than the exact charge. -/
theorem le_exactCharge {index : ℤ} (hdebt : 0 ≤ debt) (hindex : 0 < index) (rate : ℤ)
    (elapsed : ℕ) :
    ((debt * indexGrowth index rate elapsed / index : ℤ) : ℚ) ≤
      exactCharge debt rate elapsed := by
  have hd : (0 : ℚ) ≤ debt := Int.cast_nonneg hdebt
  have hi : (0 : ℚ) < index := Int.cast_pos.mpr hindex
  have hfloor := cast_ediv_le growthUnit_pos (a := index * rate * elapsed)
  calc ((debt * indexGrowth index rate elapsed / index : ℤ) : ℚ)
      ≤ (debt * indexGrowth index rate elapsed : ℤ) / index := cast_ediv_le hindex
    _ = debt * indexGrowth index rate elapsed / index := by rw [Int.cast_mul]
    _ ≤ debt * ((index * rate * elapsed : ℤ) / (BASIS_POINTS_SCALE * SECONDS_PER_YEAR : ℤ))
          / index := by
        gcongr
        exact hfloor
    _ = index * exactCharge debt rate elapsed / index := by
        rw [exactCharge]
        push_cast
        ring
    _ = exactCharge debt rate elapsed := mul_div_cancel_left₀ _ hi.ne'

/-- **An update is short of the exact charge by a unit, and a unit of the index, at most.** -/
theorem IndexStep.owed (h : IndexStep debt m a a') (ha : a.Behind start) (hstart : 0 < start)
    (hdebt : 0 < debt) (hm : RateValid m.store) (hrate : borrowRateOf m.store = rate) :
    a'.Behind start ∧ a.owed debt +
      exactCharge debt rate (a'.index.lastUpdate - a.index.lastUpdate) ≤
        a'.owed debt + (1 + debt / start) := by
  have hindex := h.index
  have hgrown : a.index.Grows a'.index := hindex ▸ ha.ordered.grown hm m.env.timestamp
  have helapsed : a'.index.lastUpdate - a.index.lastUpdate =
      m.env.timestamp - a.index.lastUpdate := by
    rw [hindex]
    simp only [LendingIndex.grown]
    omega
  have hnew : a'.index.borrowIndex = a.index.borrowIndex +
      indexGrowth a.index.borrowIndex rate (m.env.timestamp - a.index.lastUpdate) := by
    rw [hindex, ← hrate]
    rfl
  have hexact := exactCharge_le hdebt.le (hrate ▸ hm.borrowRate_nonneg) hstart ha.start ha.copy
    (m.env.timestamp - a.index.lastUpdate)
  rw [helapsed]
  have hahead : a.copy ≤ a'.index.borrowIndex := ha.copy.trans hgrown.borrow
  have hpos : 0 < a.copy := hstart.trans_le ha.start
  have hsplit : (debt * (a'.index.borrowIndex - a.copy) / a.copy : ℚ) =
      debt * (a.index.borrowIndex - a.copy) / a.copy + debt *
        indexGrowth a.index.borrowIndex rate (m.env.timestamp - a.index.lastUpdate) / a.copy := by
    rw [hnew, Int.cast_add]
    ring
  cases hcharges : m.charges with
  | false =>
    obtain ⟨hcopy, hinterest⟩ := h.held hcharges
    refine ⟨⟨hgrown.ordered, hcopy ▸ ha.start, hcopy ▸ hahead⟩, ?_⟩
    rw [IndexAccount.owed, IndexAccount.owed, hcopy, hinterest, hsplit]
    linarith
  | true =>
    obtain ⟨hcopy, hcharged⟩ := h.charged hcharges
    refine ⟨⟨hgrown.ordered, hcopy ▸ ha.start.trans hahead, hcopy.le⟩, ?_⟩
    have hshare := lt_cast_ediv_add_one hpos (a := debt * (a'.index.borrowIndex - a.copy))
    rw [← computeIndexInterest_of_le hdebt hpos hahead hcharged, IndexAccount.charged] at hshare
    push_cast at hshare
    rw [hsplit] at hshare
    rw [IndexAccount.owed, IndexAccount.owed, hcopy, sub_self, mul_zero, zero_div, add_zero]
    linarith

/-- **Charges short of the exact charge by a unit, and a unit of the index, for every update.** -/
theorem chain_owed (ha : a.Behind start) (hstart : 0 < start) (hdebt : 0 < debt)
    (hms : ∀ m ∈ ms, RateValid m.store ∧ borrowRateOf m.store = rate)
    (h : chain (IndexMoment.step user debt) a ms = some b) :
    a.owed debt + exactCharge debt rate (b.index.lastUpdate - a.index.lastUpdate) ≤
      b.owed debt + ms.length * (1 + debt / start) := by
  induction ms generalizing a with
  | nil =>
    obtain rfl := Option.some.inj h
    simp [exactCharge]
  | cons m ms ih =>
    obtain ⟨a₁, hstep, h⟩ := Option.bind_eq_some_iff.mp h
    obtain ⟨⟨hvalid, hrate⟩, hms⟩ := List.forall_mem_cons.mp hms
    obtain ⟨hbehind, hfirst⟩ := (m.step_ok hdebt.ne' ha.ordered hvalid hstep).owed ha hstart hdebt
      hvalid hrate
    have hrest := ih hbehind hms h
    have hspan := exactCharge_mono hdebt.le (hrate ▸ hvalid.borrowRate_nonneg)
      (show b.index.lastUpdate - a.index.lastUpdate ≤ a₁.index.lastUpdate - a.index.lastUpdate +
        (b.index.lastUpdate - a₁.index.lastUpdate) by omega)
    rw [exactCharge_add] at hspan
    rw [List.length_cons, Nat.cast_succ, add_mul, one_mul]
    linarith

/-! ### The laws -/

/-- Updates at one rate make `b` of the account; the last of them alone makes `single` of it. -/
structure AtOneRate (user : Address) (debt : ℤ) (a : IndexAccount) (ms : List IndexMoment)
    (last : IndexMoment) (b single : IndexAccount) : Prop where
  rate : ∃ rate, ∀ m ∈ ms ++ [last], borrowRateOf m.store = rate
  many : chain (IndexMoment.step user debt) a (ms ++ [last]) = some b
  once : last.step user debt a = some single

/-- What an index and the interest of a debtor promise over the moments that update them. -/
structure IndexLaws (user : Address) (debt : ℤ) (a : IndexAccount) (ms : List IndexMoment) :
    Prop where
  grows : a.Grows (run (IndexMoment.step user debt) a ms)
  dated : ∀ now, a.index.lastUpdate ≤ now → (∀ m ∈ ms, m.env.timestamp ≤ now) →
    (run (IndexMoment.step user debt) a ms).index.lastUpdate ≤ now
  index : ∀ front last b single, ms = front ++ [last] →
    AtOneRate user debt a front last b single →
      single.index.borrowIndex - front.length ≤ b.index.borrowIndex
  interest : ∀ front last b single, ms = front ++ [last] →
    AtOneRate user debt a front last b single → a.copy = a.index.borrowIndex →
      last.charges = true → a.charged single - ms.length -
        ms.length * debt / a.index.borrowIndex ≤ a.charged b

/-- No update is dated after all moments. -/
theorem run_lastUpdate {now : ℕ} (ha : a.index.Ordered) (hdebt : debt ≠ 0)
    (hms : ∀ m ∈ ms, m.Configured) (hstart : a.index.lastUpdate ≤ now)
    (htimes : ∀ m ∈ ms, m.env.timestamp ≤ now) :
    (run (IndexMoment.step user debt) a ms).index.lastUpdate ≤ now := by
  have hmeets : Meets (IndexMoment.step user debt)
      (fun _ m => RateValid m.store ∧ m.env.timestamp ≤ now) a ms :=
    meets_of_forall fun m hm _ => ⟨(hms m hm).rateValid, htimes m hm⟩
  refine (hmeets.invariant (I := fun b => b.index.Ordered ∧ b.index.lastUpdate ≤ now) ?_
    ⟨ha, hstart⟩).2
  rintro b m c hstep ⟨hm, htime⟩ ⟨hb, hdate⟩
  have hindex := (m.step_ok hdebt hb hm hstep).index
  rw [hindex]
  exact ⟨(hb.grown hm m.env.timestamp).ordered, max_le hdate htime⟩

/-- The last of many updates charges all that is pending, at its own time. -/
theorem last_charged {last : IndexMoment} (ha : a.index.Ordered) (hdebt : 0 < debt)
    (hcopy : 0 ≤ a.copy) (hms : ∀ m ∈ ms ++ [last], m.Configured) (hcharges : last.charges = true)
    (h : chain (IndexMoment.step user debt) a (ms ++ [last]) = some b) :
    b.owed debt = b.interest ∧ last.env.timestamp ≤ b.index.lastUpdate := by
  rw [chain_snoc] at h
  obtain ⟨a₁, hfront, hstep⟩ := Option.bind_eq_some_iff.mp h
  have hgrows : a.Grows a₁ := run_of_chain hfront ▸ IndexAccount.Grows.run ha hcopy hdebt
    fun m hm => hms m (List.mem_append_left _ hm)
  have hs := last.step_ok hdebt.ne' hgrows.index.ordered (hms last (by simp)).rateValid hstep
  rw [IndexAccount.owed, (hs.charged hcharges).1, sub_self, mul_zero, zero_div, add_zero,
    hs.index]
  exact ⟨rfl, le_max_right _ _⟩

/-- At once, the floored share of the growth is charged. -/
theorem once_charged {last : IndexMoment} {single : IndexAccount} (ha : a.index.Ordered)
    (hdebt : 0 < debt) (hvalid : RateValid last.store) (hcopy : a.copy = a.index.borrowIndex)
    (hcharges : last.charges = true) (h : last.step user debt a = some single) :
    a.charged single = debt * indexGrowth a.index.borrowIndex (borrowRateOf last.store)
      (last.env.timestamp - a.index.lastUpdate) / a.index.borrowIndex := by
  have hs := last.step_ok hdebt.ne' ha hvalid h
  have hcharged := (hs.charged hcharges).2
  rw [hcopy, hs.index] at hcharged
  have hgrown := (ha.grown hvalid last.env.timestamp).borrow
  rw [computeIndexInterest_of_le hdebt ha.borrow_pos hgrown hcharged, LendingIndex.grown,
    add_sub_cancel_left]

theorem AtOneRate.charged {last : IndexMoment} {single : IndexAccount}
    (h : AtOneRate user debt a ms last b single) (ha : a.index.Ordered) (hdebt : 0 < debt)
    (hms : ∀ m ∈ ms ++ [last], m.Configured) (hcopy : a.copy = a.index.borrowIndex)
    (hcharges : last.charges = true) : a.charged single - (ms ++ [last]).length -
      (ms ++ [last]).length * debt / a.index.borrowIndex ≤ a.charged b := by
  obtain ⟨⟨rate, hrate⟩, hmany, honce⟩ := h
  have hvalid : ∀ m ∈ ms ++ [last], RateValid m.store := fun m hm => (hms m hm).rateValid
  have hlast : last ∈ ms ++ [last] := by simp
  have hindex := ha.borrow_pos
  have howed := chain_owed ⟨ha, hcopy.ge, hcopy.le⟩ hindex hdebt
    (fun m hm => ⟨hvalid m hm, hrate m hm⟩) hmany
  have hfinal := last_charged ha hdebt (hcopy ▸ hindex.le) hms hcharges hmany
  have hsingle := once_charged ha hdebt (hvalid last hlast) hcopy hcharges honce
  rw [hrate last hlast] at hsingle
  have hleast := le_exactCharge hdebt.le hindex rate
    (last.env.timestamp - a.index.lastUpdate)
  have hspan := exactCharge_mono hdebt.le (hrate last hlast ▸ (hvalid last hlast).borrowRate_nonneg)
    (Nat.sub_le_sub_right hfinal.2 a.index.lastUpdate)
  rw [← hsingle] at hleast
  rw [hfinal.1, IndexAccount.owed, hcopy, sub_self, mul_zero, zero_div, add_zero] at howed
  have hpos : (0 : ℚ) < a.index.borrowIndex := Int.cast_pos.mpr hindex
  have hlost : ((a.charged single - a.charged b - (ms ++ [last]).length : ℤ) : ℚ) ≤
      ((ms ++ [last]).length * debt : ℤ) / a.index.borrowIndex := by
    have hcharged : (a.charged b : ℚ) = b.interest - a.interest := Int.cast_sub _ _
    rw [Int.cast_sub, Int.cast_sub, hcharged, Int.cast_mul, Int.cast_natCast, mul_div_assoc]
    rw [mul_add, mul_one] at howed
    linarith
  rw [le_div_iff₀ hpos] at hlost
  have hshare : a.charged single - a.charged b - (ms ++ [last]).length ≤
      (ms ++ [last]).length * debt / a.index.borrowIndex :=
    (Int.le_ediv_iff_mul_le hindex).mpr (by exact_mod_cast hlost)
  omega

/-- **Whatever moments update a stored index, it grows in order, and updates in between take from
borrowers no more than rounding does**: a unit of the index and, of a debt, a unit and what a unit
of the index is worth, each time. -/
theorem index_laws (ha : a.index.Ordered) (hcopy : 0 ≤ a.copy) (hdebt : 0 < debt)
    (hms : ∀ m ∈ ms, m.Configured) : IndexLaws user debt a ms where
  grows := IndexAccount.Grows.run ha hcopy hdebt hms
  dated _ hstart htimes := run_lastUpdate ha hdebt.ne' hms hstart htimes
  index := by
    rintro front last b single rfl ⟨⟨rate, hrate⟩, hmany, honce⟩
    have hvalid := fun m hm => (hms m hm).rateValid
    have hbound := chain_borrowIndex ha hdebt.ne' (fun m hm => ⟨hvalid m hm, hrate m hm⟩) hmany
    have hlast : last ∈ front ++ [last] := by simp
    rw [(last.step_ok hdebt.ne' ha (hvalid last hlast) honce).index, LendingIndex.grown,
      hrate last hlast]
    simp only
    omega
  interest := by
    rintro front last b single rfl hrate hfresh hcharges
    exact hrate.charged ha hdebt hms hfresh hcharges

end Laws

/-! ### A debt worth more than the index -/

namespace Sample

/-- Bob is charged at a time at which the contract has its parameters and nothing else. -/
def charging (now : ℕ) : IndexMoment := ⟨envAt now [], ledger [deploy], true⟩

theorem charging_configured (now : ℕ) : (charging now).Configured :=
  ⟨ledger [deploy], ⟨[deploy], rfl⟩, rfl⟩

/-- An index that starts, and a debtor charged up to it. -/
def startAccount : IndexAccount := ⟨⟨INDEX_SCALE, INDEX_SCALE, 0⟩, INDEX_SCALE, 0⟩

/-- A hundred times what an index starts with. -/
def largeDebt : ℤ := 100 * INDEX_SCALE

theorem startAccount_ordered : startAccount.index.Ordered := ⟨le_rfl, le_rfl⟩

theorem charging_twice : AtOneRate bob largeDebt startAccount [charging 6] (charging 12)
    ⟨⟨1000000003804, 1000000001902, 12⟩, 1000000003804, 380399⟩
    ⟨⟨1000000003805, 1000000001902, 12⟩, 1000000003805, 380500⟩ where
  rate := ⟨100, by
    intro m hm
    simp only [List.cons_append, List.nil_append, List.mem_cons, List.not_mem_nil, or_false] at hm
    obtain rfl | rfl := hm <;> decide⟩
  many := by decide
  once := by decide

end Sample

theorem index_laws_startAccount :
    IndexLaws Sample.bob Sample.largeDebt Sample.startAccount
      [Sample.charging 6, Sample.charging 12] :=
  index_laws Sample.startAccount_ordered (by decide) (by decide)
    (List.forall_mem_cons.mpr ⟨Sample.charging_configured 6,
      List.forall_mem_singleton.mpr (Sample.charging_configured 12)⟩)

/-- Two charges take `380399` where one takes `380500`: the unit that the index lost in between is
worth a hundred units of the debt. -/
theorem not_charges_add_up :
    ¬ ∀ (user : Address) (debt : ℤ) (a : IndexAccount) (ms : List IndexMoment)
      (last : IndexMoment) (b single : IndexAccount), a.index.Ordered → 0 < debt →
        (∀ m ∈ ms ++ [last], m.Configured) → AtOneRate user debt a ms last b single →
          a.copy = a.index.borrowIndex → last.charges = true →
            a.charged single - (ms ++ [last]).length ≤ a.charged b := by
  intro hall
  have hms : ∀ m ∈ [Sample.charging 6] ++ [Sample.charging 12], m.Configured :=
    List.forall_mem_cons.mpr ⟨Sample.charging_configured 6,
      List.forall_mem_singleton.mpr (Sample.charging_configured 12)⟩
  have hbound := hall _ _ _ _ _ _ _ Sample.startAccount_ordered (by decide) hms
    Sample.charging_twice rfl rfl
  exact absurd hbound (by decide)

end StellarLend.HelloWorld
