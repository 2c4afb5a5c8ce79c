import Mathlib.Algebra.Group.Prod
import StellarLend.Foundations.IndexedMap
import StellarLend.Foundations.Total
import StellarLend.Lending.Settlement

/-!
# Lending/VaultTotals — what the vault holds, in total and asset by asset

Deposits and withdrawals write a user's vault position and the total, each in its own way: a deposit
that overflows is an error, a withdrawal that does would set the total to zero.  It never does, as a
position is at most the total (`VaultTotals`).  Nothing else writes the total: what a call does
besides its acts leaves it alone (`settle_totalAmount`), and so do the other acts.

A vault position is an amount and one asset, and a deposit or a withdrawal writes the asset it
names.  As long as a user's calls name the asset on record (`NamesVaultAsset`), the position is the
difference of what was deposited and what was withdrawn of that asset, and no asset comes out that
did not go in (`withdrawn_le_deposited`).
-/

namespace StellarLend.Lending

open Foundations Call

variable {e : Env} {s t s' : Storage} {user asset : Address}

/-! ## What leaves the total alone -/

/-- The act is a deposit into the vault or a withdrawal from it. -/
def Act.MovesVault : Act → Prop
  | .deposit .. => True
  | .withdraw .. => True
  | _ => False

theorem borrowInner_totalAmount {casset : Address} {amount camount : ℤ} {rateType : RateType}
    {auth : BorrowAuth} {r : Unit}
    (h : borrowInner user asset amount casset camount rateType auth e s = .ok r s') :
    s'.totalAmount = s.totalAmount := by
  obtain ⟨-, -, -, -, -, -, accrued, t, rate, w, tier, -, -, rfl⟩ := borrowInner_steps h
  rfl

theorem repayWithRate_totalAmount {amount : ℤ} {rateType : RateType} {r : Unit}
    (h : Borrow.repayWithRate user asset amount rateType e s = .ok r s') :
    s'.totalAmount = s.totalAmount := by
  obtain ⟨-, -, -, a, t, remaining, left, principal, u, hcalc, -, hpay, hprin, rfl⟩ :=
    repayWithRate_steps h
  have hrem : 0 ≤ remaining := (payInterest_ok hpay).1 ▸ le_max_left _ _
  obtain ⟨-, -, -, _, rfl⟩ := payPrincipal_ok hrem hprin
  obtain ⟨_, rfl⟩ := (calculateInterest_refreshes hcalc).store
  rfl

theorem repay_totalAmount {amount : ℤ} {r : Unit}
    (h : Borrow.repay user asset amount e s = .ok r s') : s'.totalAmount = s.totalAmount := by
  simp only [Borrow.repay, look_seq] at h
  split at h <;> exact repayWithRate_totalAmount h

theorem switchRateType_totalAmount {toRateType : RateType} {r : Unit}
    (h : Borrow.switchRateType user asset toRateType e s = .ok r s') :
    s'.totalAmount = s.totalAmount := by
  obtain ⟨-, -, -, a, t, rate, u, hcalc, hrate, rfl⟩ := switchRateType_steps h
  obtain ⟨_, rfl⟩ := ((calculateInterest_refreshes hcalc).trans (bucketRateBps_ok hrate).1).store
  rfl

/-- **An act that does not move the vault leaves the total alone.** -/
theorem actStep_totalAmount {a : Act} (ha : ¬ a.MovesVault) (h : actStep e a s = some s') :
    s'.totalAmount = s.totalAmount := by
  have he := actStep_effect h
  rcases a with _ | ⟨user, asset, amount, _ | rate⟩ | _ | _ | _ | _
  · obtain ⟨_, h⟩ := commit_eq_some.mp h
    exact borrowInner_totalAmount h
  · obtain ⟨_, h⟩ := commit_eq_some.mp h
    exact repay_totalAmount h
  · obtain ⟨_, h⟩ := commit_eq_some.mp h
    exact repayWithRate_totalAmount h
  · obtain ⟨_, h⟩ := commit_eq_some.mp h
    exact switchRateType_totalAmount h
  · rw [he.store]
    rfl
  · exact absurd trivial ha
  · exact absurd trivial ha

theorem RefreshesRate.totalAmount (h : RefreshesRate s t) : t.totalAmount = s.totalAmount := by
  obtain ⟨_, rfl⟩ := h.store
  rfl

theorem Quiet.totalAmount (h : Quiet s t) : t.totalAmount = s.totalAmount := by
  rw [Quiet] at h
  rw [h]

theorem RateModelUpdated.totalAmount (h : RateModelUpdated e s t) :
    t.totalAmount = s.totalAmount := by
  obtain ⟨_, _, -, rfl⟩ := h.store
  rfl

/-- The call performs acts that it is not itself. -/
def Op.Indirect : Op → Prop
  | .executeDelegated .. => True
  | .executeBorrowCommitment .. => True
  | .receive .. => True
  | _ => False

theorem Op.idle_acts {op : Op} (hdirect : op.direct = none) (hindirect : ¬ op.Indirect)
    (s : Storage) : op.acts s = [] ∧ op.start s = s := by
  cases op <;> first | exact ⟨rfl, rfl⟩ | exact absurd trivial hindirect | cases hdirect

/-- A call that performs no act leaves the total alone. -/
theorem idle_totalAmount {tx : Tx} (h : step tx s = some s') (hdirect : tx.op.direct = none)
    (hindirect : ¬ tx.op.Indirect) : s'.totalAmount = s.totalAmount := by
  by_cases hv : tx.op.Views
  · exact (step_views h hv).totalAmount
  by_cases hg : tx.op.Guards
  · exact (guards_quiet h hg).totalAmount
  obtain ⟨e, op⟩ := tx
  cases op <;> first | exact absurd trivial hg | exact absurd trivial hv | skip
  all_goals
    simp only [step, Op.apply, commit_eq_some] at h
    obtain ⟨r, h⟩ := h
  case borrow | borrowWithRate | repay | repayWithRate | switchRateType | deposit
    | depositCollateral | withdraw => cases hdirect
  case executeDelegated | executeBorrowCommitment | receive => exact absurd trivial hindirect
  case createBorrowCommitment =>
    obtain ⟨c, -, -, rfl⟩ := (createBorrowCommitment_ok h).store
    rfl
  case cancelBorrowCommitment =>
    obtain ⟨c, -, rfl⟩ := cancelBorrowCommitment_ok h
    rfl
  case initializeProtocol =>
    obtain ⟨-, rfl⟩ := initializeProtocol_ok h
    rfl
  case initializeBorrowSettings =>
    obtain rfl := initializeBorrowSettings_store.mp h
    rfl
  case setStablecoinConfig =>
    obtain rfl := setStablecoinConfig_ok h
    rfl
  case updateInterestRateModel => exact (updateInterestRateModel_ok h).totalAmount
  case setVariableBorrowRateBps => exact (setVariableBorrowRateBps_ok h).totalAmount
  case addBadDebt =>
    rw [addBadDebt_ok h]
    rfl
  case liquidate =>
    obtain ⟨dv, _, u, _, _, _, hu, ⟨_, rfl⟩ | ⟨_, rfl⟩⟩ := (liquidate_ok h).store
    · exact hu.totalAmount
    · exact hu.totalAmount
  case recoverBadDebt =>
    obtain ⟨-, -, -, rfl⟩ := recoverBadDebt_ok h
    rfl

/-- **Besides its acts, a call leaves the total alone.** -/
theorem settle_totalAmount {tx : Tx} (h : step tx s = some s')
    (ht : chain (actStep tx.env) (tx.op.start s) (tx.op.acts s) = some t) :
    s'.totalAmount = t.totalAmount := by
  rcases hd : tx.op.direct with _ | a
  · by_cases hi : tx.op.Indirect
    · obtain ⟨e, op⟩ := tx
      cases op <;> first | exact absurd hi id | skip
      all_goals
        simp only [step, Op.apply, commit_eq_some] at h
        obtain ⟨r, h⟩ := h
      case executeDelegated =>
        rw [Option.some.inj ((executeDelegated_ok h).store.symm.trans ht)]
      case executeBorrowCommitment id =>
        obtain ⟨c, u, hc, -, -, hu, rfl⟩ := (executeBorrowCommitment_ok h).store
        simp only [Op.acts, Op.start, hc, Option.map_some, Option.toList_some, chain_single, hu]
          at ht
        rw [← Option.some.inj ht]
        rfl
      case receive =>
        obtain ⟨a, ha, hu⟩ := receive_ok h
        simp only [Op.acts, Op.start, ha, chain_single, hu] at ht
        rw [Option.some.inj ht]
    · obtain ⟨hacts, hstart⟩ := Op.idle_acts hd hi s
      rw [hacts, hstart, chain_nil] at ht
      rw [← Option.some.inj ht]
      exact idle_totalAmount h hd hi
  · obtain ⟨hacts, hstart⟩ := Op.direct_acts hd s
    rw [hacts, hstart, chain_single, (step_direct h hd).2.2] at ht
    rw [Option.some.inj ht]

/-! ## The total -/

/-- The total of deposits is the sum of the vault positions, none of which is negative. -/
structure VaultTotals (s : Storage) : Prop where
  total : TotalsTo (vaultBalance s) (getTotalDeposits s)
  nonneg : ∀ user, ∀ p ∈ s.userCollateral user, 0 ≤ p.amount
  bounded : getTotalDeposits s ≤ I128.MAX

theorem VaultTotals.empty : VaultTotals Storage.empty :=
  ⟨.zero, by simp [Storage.empty], by decide⟩

/-- What leaves the positions and the total alone keeps them in step. -/
theorem VaultTotals.idle (h : VaultTotals s) (hvault : t.userCollateral = s.userCollateral)
    (htotal : t.totalAmount = s.totalAmount) : VaultTotals t := by
  have hget : getTotalDeposits t = getTotalDeposits s := by
    rw [getTotalDeposits, htotal, getTotalDeposits]
  refine ⟨?_, hvault ▸ h.nonneg, hget ▸ h.bounded⟩
  rw [hget]
  exact h.total.congr fun user => by rw [vaultBalance, hvault, vaultBalance]

theorem VaultTotals.balance_nonneg (h : VaultTotals s) (user : Address) :
    0 ≤ vaultBalance s user := by
  rw [vaultBalance]
  cases hp : s.userCollateral user with
  | none => exact le_rfl
  | some p => exact h.nonneg user p hp

/-- **No position exceeds the total.** -/
theorem VaultTotals.balance_le (h : VaultTotals s) (user : Address) :
    vaultBalance s user ≤ getTotalDeposits s :=
  h.total.le_of_nonneg h.balance_nonneg user

/-- A position and the total move together. -/
theorem VaultTotals.write {p : DepositCollateral} {total : ℤ} (h : VaultTotals s)
    (h0 : 0 ≤ p.amount) (htotal : total = getTotalDeposits s + (p.amount - vaultBalance s user))
    (hmax : total ≤ I128.MAX) : VaultTotals (withTotalDeposits total (withVault user p s)) := by
  have hself : vaultBalance (withTotalDeposits total (withVault user p s)) user = p.amount := by
    simp [vaultBalance, withTotalDeposits, withVault]
  have hother : ∀ v, v ≠ user →
      vaultBalance (withTotalDeposits total (withVault user p s)) v = vaultBalance s v := by
    intro v hv
    simp [vaultBalance, withTotalDeposits, withVault, Function.update_of_ne hv]
  refine ⟨h.total.change_eq user hother ?_, forall_update h.nonneg h0, hmax⟩
  rw [hself]
  exact htotal

/-! ## Deposits and withdrawals -/

theorem depositWithAuth_bounded {amount balance : ℤ} {authenticate : Bool}
    (h : depositWithAuth user asset amount authenticate e s = .ok balance s') :
    getTotalDeposits s + amount ≤ I128.MAX :=
  (depositWithAuth_steps h).2.2.2.1.2

theorem withdrawWithAuth_total {amount balance : ℤ} {authenticate : Bool}
    (h : withdrawWithAuth user asset amount authenticate e s = .ok balance s') :
    getTotalDeposits s' = (I128.checkedSub (getTotalDeposits s) amount).getD 0 := by
  obtain ⟨-, -, -, -, -, -, rfl⟩ := withdrawWithAuth_steps h
  rfl

/-- **Where the total is the sum of the positions, a withdrawal subtracts from it without
fallback.** -/
theorem VaultTotals.checkedSub (h : VaultTotals s) {amount balance : ℤ} {authenticate : Bool}
    (hw : withdrawWithAuth user asset amount authenticate e s = .ok balance s') :
    I128.checkedSub (getTotalDeposits s) amount = some (getTotalDeposits s - amount) := by
  obtain ⟨-, he⟩ := withdrawWithAuth_ok hw
  have hle : amount ≤ getTotalDeposits s := he.balance.trans (h.balance_le user)
  have hmax : getTotalDeposits s ≤ 2 ^ 127 - 1 := h.bounded
  have hpos := he.amount_pos
  refine I128.checkedSub_eq_some.mpr ⟨I128.holds_iff.mpr ⟨?_, ?_⟩, rfl⟩ <;> omega

/-- **A deposit stays within the cap.** -/
theorem depositWithAuth_cap {amount balance : ℤ} {authenticate : Bool}
    (h : depositWithAuth user asset amount authenticate e s = .ok balance s') :
    getTotalDeposits s' ≤ getDepositCap s' := by
  have he := (depositWithAuth_ok h).2
  rw [he.store]
  exact he.cap

/-- **Every act keeps the total the sum of the positions.** -/
theorem VaultTotals.act {a : Act} (h : VaultTotals s) (ha : actStep e a s = some s') :
    VaultTotals s' := by
  have he := actStep_effect ha
  rcases a with _ | _ | _ | _ | ⟨user, asset, amount⟩ | ⟨user, asset, amount⟩
  · exact h.idle he.vault (actStep_totalAmount id ha)
  · exact h.idle he.vault (actStep_totalAmount id ha)
  · exact h.idle he.vault (actStep_totalAmount id ha)
  · refine h.idle ?_ (actStep_totalAmount id ha)
    rw [he.store]
    rfl
  · obtain ⟨_, hd⟩ := commit_eq_some.mp ha
    rw [he.store]
    refine h.write (add_nonneg (h.balance_nonneg user) he.amount_pos.le) ?_
      (depositWithAuth_bounded hd)
    rw [add_sub_cancel_left]
  · obtain ⟨_, hw⟩ := commit_eq_some.mp ha
    have htotal := withdrawWithAuth_total hw
    rw [h.checkedSub hw, Option.getD_some] at htotal
    obtain ⟨total, hstore⟩ := he.store
    rw [hstore] at htotal ⊢
    have htotal' : total = getTotalDeposits s - amount := htotal
    have hmax := h.bounded
    have hpos := he.amount_pos
    refine h.write (sub_nonneg.mpr he.balance) ?_ (by omega)
    rw [htotal', sub_sub_cancel_left, sub_eq_add_neg]

/-! ## Runs -/

theorem VaultTotals.start (h : VaultTotals s) (op : Op) : VaultTotals (op.start s) := by
  cases op <;> first | exact h | exact h.idle rfl rfl

/-- **Every call keeps the total the sum of the positions.** -/
theorem VaultTotals.call {tx : Tx} (h : VaultTotals s) (hstep : step tx s = some s') :
    VaultTotals s' := by
  obtain ⟨t, hchain, hset⟩ := step_acts hstep
  have ht : VaultTotals (run (actStep tx.env) (tx.op.start s) (tx.op.acts s)) :=
    run_invariant (fun _ _ _ ha hs => hs.act ha) _ (h.start tx.op)
  rw [run_of_chain hchain] at ht
  exact ht.idle hset.positions.vault (settle_totalAmount hstep hchain)

theorem vaultTotals_ledger (txs : List Tx) : VaultTotals (ledger txs) :=
  run_invariant (fun _ _ _ hstep hs => hs.call hstep) txs .empty

/-- The stores met after a run: the one it leaves, and those between two acts of the call that
comes next. -/
def Met (txs : List Tx) (t : Storage) : Prop :=
  t = ledger txs ∨ ∃ (tx : Tx) (past left : List Act), tx.op.acts (ledger txs) = past ++ left ∧
    chain (actStep tx.env) (tx.op.start (ledger txs)) past = some t

theorem vaultTotals_met {txs : List Tx} (h : Met txs t) : VaultTotals t := by
  rcases h with rfl | ⟨tx, past, _, -, hchain⟩
  · exact vaultTotals_ledger txs
  · rw [← run_of_chain hchain]
    exact run_invariant (fun _ _ _ ha hs => hs.act ha) past ((vaultTotals_ledger txs).start tx.op)

/-- **In every store that is met, between calls and within them, the total of deposits is the sum of
the vault positions, none of which is negative; a withdrawal from there subtracts without fallback;
and a deposit from there leaves at most the cap.** -/
theorem vault_totals_agree (txs : List Tx) (t : Storage) (ht : Met txs t) :
    TotalsTo (vaultBalance t) (getTotalDeposits t) ∧
    (∀ user, ∀ p ∈ t.userCollateral user, 0 ≤ p.amount) ∧
    0 ≤ getTotalDeposits t ∧
    (∀ e user asset amount authenticate balance s',
      withdrawWithAuth user asset amount authenticate e t = .ok balance s' →
        I128.checkedSub (getTotalDeposits t) amount = some (getTotalDeposits t - amount)) ∧
    (∀ e user asset amount authenticate balance s',
      depositWithAuth user asset amount authenticate e t = .ok balance s' →
        getTotalDeposits s' ≤ getDepositCap s') := by
  have h := vaultTotals_met ht
  refine ⟨h.total, h.nonneg, h.total.nonneg h.balance_nonneg, ?_, ?_⟩
  · intro e user asset amount authenticate balance s' hw
    exact h.checkedSub hw
  · intro e user asset amount authenticate balance s' hd
    exact depositWithAuth_cap hd

namespace Sample

/-- Alice and Bob deposit, and Alice takes some out. -/
def twoVaults : List Tx :=
  [deploy, ⟨envAt 5 [alice], .deposit alice xlm 3000⟩, ⟨envAt 6 [bob], .deposit bob usdc 500⟩,
    ⟨envAt 7 [alice], .withdraw alice xlm 1000⟩]

theorem twoVaults_total : getTotalDeposits (ledger twoVaults) = 2500 := by decide

theorem vault_totals_twoVaults : TotalsTo (vaultBalance (ledger twoVaults)) 2500 := by
  have h := (vault_totals_agree twoVaults _ (.inl rfl)).1
  rwa [twoVaults_total] at h

end Sample

variable {u : Address}

/-! ## Flows -/

/-- How much of an asset an act moves into and out of a user's vault position. -/
def Act.vaultFlow (u asset : Address) (a : Act) : ℤ × ℤ :=
  match a with
  | .deposit user x amount => if user = u ∧ x = asset then (amount, 0) else 0
  | .withdraw user x amount => if user = u ∧ x = asset then (0, amount) else 0
  | _ => 0

/-- How much of an asset the successful calls of a run move into and out of a user's vault
position. -/
def vaultFlow (u asset : Address) (txs : List Tx) : ℤ × ℤ :=
  tally step (actTally fun _ _ a => a.vaultFlow u asset) Storage.empty txs

def deposited (u asset : Address) (txs : List Tx) : ℤ := (vaultFlow u asset txs).1
def withdrawn (u asset : Address) (txs : List Tx) : ℤ := (vaultFlow u asset txs).2

/-- How much of an asset the vault position of a user holds, by its record. -/
def vaultHolding (s : Storage) (u asset : Address) : ℤ :=
  match s.userCollateral u with
  | some p => if p.asset = asset then p.amount else 0
  | none => 0

/-! ## Acts on the vault -/

/-- The act names the asset on record, if it is a withdrawal of the user or a deposit of the user
into a position that is not empty. -/
def NamesVaultAsset (u : Address) (_ : Env) (s : Storage) (a : Act) : Prop :=
  match a with
  | .deposit user asset _ => user = u → ∀ p ∈ s.userCollateral u, p.amount ≠ 0 → p.asset = asset
  | .withdraw user asset _ => user = u → ∀ p ∈ s.userCollateral u, p.asset = asset
  | _ => True

/-- The vault position of a user is the difference of the flows, asset by asset, and not
negative. -/
structure VaultBooks (u asset : Address) (flow : ℤ × ℤ) (s : Storage) : Prop where
  held : flow.1 - flow.2 = vaultHolding s u asset
  nonneg : ∀ p ∈ s.userCollateral u, 0 ≤ p.amount

/-- What leaves the position alone moves nothing. -/
theorem VaultBooks.idle {flow delta : ℤ × ℤ} (h : VaultBooks u asset flow s)
    (hs : s'.userCollateral u = s.userCollateral u) (hdelta : delta = 0) :
    VaultBooks u asset (flow + delta) s' := by
  obtain ⟨hheld, hnonneg⟩ := h
  rw [hdelta, add_zero]
  refine ⟨?_, hs ▸ hnonneg⟩
  rw [hheld, vaultHolding, vaultHolding, hs]

/-- A position is written with the asset it holds, or from empty: the holdings change by the
difference of the amounts, in that asset only. -/
theorem VaultBooks.write {flow delta : ℤ × ℤ} {p : DepositCollateral}
    (h : VaultBooks u asset flow s) (hs : s'.userCollateral u = some p)
    (hasset : ∀ q ∈ s.userCollateral u, q.amount ≠ 0 → q.asset = p.asset) (h0 : 0 ≤ p.amount)
    (hdelta : delta.1 - delta.2 = if p.asset = asset then p.amount - vaultBalance s u else 0) :
    VaultBooks u asset (flow + delta) s' := by
  refine ⟨?_, by simp [hs, h0]⟩
  have hheld := h.held
  rw [Prod.fst_add, Prod.snd_add, add_sub_add_comm, hheld, hdelta]
  unfold vaultHolding vaultBalance
  rw [hs]
  rcases hq : s.userCollateral u with _ | q
  · simp
  · simp only [Option.map_some, Option.getD_some]
    by_cases hamount : q.amount = 0
    · rw [hamount]
      simp
    · rw [hasset q hq hamount]
      split <;> omega

theorem VaultBooks.balance_nonneg {flow : ℤ × ℤ} (h : VaultBooks u asset flow s) :
    0 ≤ vaultBalance s u := by
  unfold vaultBalance
  cases hp : s.userCollateral u with
  | none => exact le_rfl
  | some p => exact h.nonneg p hp

/-- **An act keeps the books of a user's vault position** if it names the asset on record. -/
theorem VaultBooks.act {a : Act} {flow : ℤ × ℤ} (h : VaultBooks u asset flow s)
    (hC : NamesVaultAsset u e s a) (ha : actStep e a s = some s') :
    VaultBooks u asset (flow + a.vaultFlow u asset) s' := by
  have he := actStep_effect ha
  rcases a with _ | _ | _ | _ | ⟨user, x, amount⟩ | ⟨user, x, amount⟩
  · exact h.idle (congrFun he.vault u) rfl
  · exact h.idle (congrFun he.vault u) rfl
  · exact h.idle (congrFun he.vault u) rfl
  · exact h.idle (by rw [he.store]; rfl) rfl
  · by_cases hu : user = u
    · subst hu
      have hs' : s'.userCollateral user = some ⟨vaultBalance s user + amount, x, e.timestamp⟩ := by
        rw [he.store]
        exact Function.update_self ..
      refine h.write hs' (hC rfl) (add_nonneg h.balance_nonneg he.amount_pos.le) ?_
      rw [Act.vaultFlow]
      split <;> simp_all
    · refine h.idle ?_ (if_neg fun hc => hu hc.1)
      rw [he.store]
      exact Function.update_of_ne (Ne.symm hu) ..
  · obtain ⟨_, hstore⟩ := he.store
    by_cases hu : user = u
    · subst hu
      have hs' : s'.userCollateral user = some ⟨vaultBalance s user - amount, x,
          (getDepositPosition e s user x).lastDepositTime⟩ := by
        rw [hstore]
        exact Function.update_self ..
      refine h.write hs' (fun q hq _ => hC rfl q hq) (sub_nonneg.mpr he.balance) ?_
      rw [Act.vaultFlow]
      split <;> simp_all
    · refine h.idle ?_ (if_neg fun hc => hu hc.1)
      rw [hstore]
      exact Function.update_of_ne (Ne.symm hu) ..

/-! ## Runs, asset by asset -/

/-- **In a run in which a user's deposits and withdrawals name the asset on record, the user takes
out no more of any asset than the user put in.** -/
theorem withdrawn_le_deposited {txs : List Tx}
    (h : Meets step (EachAct (NamesVaultAsset u)) Storage.empty txs) (asset : Address) :
    withdrawn u asset txs ≤ deposited u asset txs := by
  have hempty : VaultBooks u asset 0 Storage.empty := ⟨rfl, by simp [Storage.empty]⟩
  have hbooks := h.tally_invariant (I := VaultBooks u asset)
    (f := actTally fun _ _ a => a.vaultFlow u asset)
    (fun flow s tx s' hstep hC hs => step_tally (fun _ _ _ _ ha hca hs => hs.act hca ha)
      (fun flow _ _ hset hs => by simpa using hs.idle (congrFun hset.positions.vault u) rfl)
      hstep hC hs) hempty
  rw [zero_add] at hbooks
  have hheld : deposited u asset txs - withdrawn u asset txs = vaultHolding (ledger txs) u asset :=
    hbooks.held
  have h0 : 0 ≤ vaultHolding (ledger txs) u asset := by
    unfold vaultHolding
    split
    · split
      · exact hbooks.nonneg _ ‹_›
      · exact le_rfl
    · exact le_rfl
  omega

namespace Sample

/-- Alice deposits an asset and takes some of it out. -/
def oneAsset : List Tx :=
  [deploy, ⟨envAt 5 [alice], .deposit alice xlm 3000⟩, ⟨envAt 6 [alice], .withdraw alice xlm 1000⟩]

/-- Alice deposits two assets and takes all of it out as one of them. -/
def twoAssets : List Tx :=
  [deploy, ⟨envAt 5 [alice], .deposit alice usdc 100⟩, ⟨envAt 6 [alice], .deposit alice xlm 100⟩,
    ⟨envAt 7 [alice], .withdraw alice xlm 200⟩]

end Sample

theorem withdrawn_le_deposited_oneAsset :
    withdrawn Sample.alice Sample.xlm Sample.oneAsset ≤
      deposited Sample.alice Sample.xlm Sample.oneAsset := by
  have hdeposit : ∀ p ∈ (run step Storage.empty (Sample.oneAsset.take 1)).userCollateral
      Sample.alice, p.amount ≠ 0 → p.asset = Sample.xlm := by decide
  have hwithdraw : ∀ p ∈ (run step Storage.empty (Sample.oneAsset.take 2)).userCollateral
      Sample.alice, p.asset = Sample.xlm := by decide
  have h : Meets step (EachAct (NamesVaultAsset Sample.alice)) Storage.empty Sample.oneAsset :=
    ⟨fun _ => trivial, fun _ => ⟨fun _ _ => hdeposit, trivial⟩,
      fun _ => ⟨fun _ _ => hwithdraw, trivial⟩, trivial⟩
  exact withdrawn_le_deposited h _

/-- Of 100 deposited, 200 are withdrawn. -/
theorem withdrawn_exceeds_twoAssets :
    ¬ withdrawn Sample.alice Sample.xlm Sample.twoAssets ≤
      deposited Sample.alice Sample.xlm Sample.twoAssets := by
  decide

end StellarLend.Lending
