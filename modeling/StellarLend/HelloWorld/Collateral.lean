import StellarLend.Foundations.Portfolio
import StellarLend.HelloWorld.Seizure
import Mathlib.Algebra.Group.Prod

/-!
# HelloWorld/Collateral — the three records of a user's collateral

    collateralBalance  =  position.collateral  =  native share  +  Σ per asset over the list

A user's collateral is a `Portfolio`: the balance in aggregate, the assets on the list, and what is
held of each.  Deposits put, withdrawals and seizures take, and `Portfolio.Sound` is kept as long as
what is taken is there.  The code compares with the aggregate alone, so a withdrawal may name an
asset of which there is less, or nothing, and a seizure takes the aggregate of a borrower whose list
it does not touch.  `collateral_kept` is about the runs in which neither happens.
-/

namespace StellarLend.HelloWorld

open Foundations Call
open Lending (Address)

variable {e : Env} {s t s' : Storage} {user v : Address} {asset : Option Address} {amount : ℤ}

/-! ## A user's collateral -/

/-- A user's collateral, in aggregate and by asset. -/
def portfolio (s : Storage) (user : Address) : Portfolio Address :=
  ⟨getCollateralBalance s user, getUserAssetList s user, getUserAssetCollateral s user⟩

/-- The collateral on a user's position. -/
def positionCollateral (s : Storage) (user : Address) : ℤ :=
  ((s.books.position user).map Position.collateral).getD 0

/-- What is kept of the records of a user's collateral. -/
structure CollateralKept (s : Storage) (user : Address) : Prop where
  sound : (portfolio s user).Sound
  holds : I128.Holds (getCollateralBalance s user)
  recorded : positionCollateral s user = getCollateralBalance s user

theorem CollateralKept.empty (user : Address) : CollateralKept .empty user :=
  ⟨.empty, I128.holds_zero, rfl⟩

/-- What is taken from a share is in range. -/
theorem CollateralKept.holds_sub (h : CollateralKept s user) (hn : 0 ≤ amount)
    (hle : amount ≤ (portfolio s user).share asset) :
    I128.Holds ((portfolio s user).share asset - amount) ∧
      I128.Holds (getCollateralBalance s user - amount) := by
  have htotal : (portfolio s user).share asset ≤ getCollateralBalance s user :=
    h.sound.share_le asset
  have hholds := h.holds
  simp only [I128.holds_iff] at hholds ⊢
  omega

theorem portfolio_congr (h : t.books = s.books) (user : Address) :
    portfolio t user = portfolio s user := by
  unfold portfolio getCollateralBalance getUserAssetList getUserAssetCollateral
  rw [h]

theorem positionCollateral_congr (h : t.books = s.books) (user : Address) :
    positionCollateral t user = positionCollateral s user := by
  rw [positionCollateral, h, positionCollateral]

theorem CollateralKept.congr (h : t.books = s.books) (hkept : CollateralKept s user) :
    CollateralKept t user := by
  obtain ⟨hsound, hholds, hrecorded⟩ := hkept
  refine ⟨portfolio_congr h user ▸ hsound, ?_, ?_⟩
  · rwa [getCollateralBalance_congr h]
  · rwa [positionCollateral_congr h, getCollateralBalance_congr h]

/-! ## What a write makes of it -/

theorem portfolio_withCollateralBalance (user : Address) (b : ℤ) (s : Storage) :
    portfolio (withCollateralBalance user b s) =
      Function.update (portfolio s) user { portfolio s user with total := b } := by
  funext v
  by_cases hv : v = user
  · rw [hv, Function.update_self]
    simp [portfolio, getCollateralBalance, withCollateralBalance]
    exact ⟨rfl, rfl⟩
  · rw [Function.update_of_ne hv]
    simp [portfolio, getCollateralBalance, withCollateralBalance, hv]
    exact ⟨rfl, rfl⟩

theorem portfolio_withAssetDeposit (user a : Address) (n : ℤ) (s : Storage) :
    portfolio (withAssetDeposit user a n s) = Function.update (portfolio s) user
      { (portfolio s user).put (some a) n with total := getCollateralBalance s user } := by
  funext v
  by_cases hv : v = user
  · rw [hv, Function.update_self]
    by_cases hnew : a ∈ (s.books.userAssetList user).getD [] <;>
      simp [withAssetDeposit, portfolio, Portfolio.put, Portfolio.enlist, getCollateralBalance,
        getUserAssetList, getUserAssetCollateral, withAssetList, withAssetCollateral, hnew,
        funext_iff, Function.update_apply] <;>
      intro b <;> split <;> rfl
  · rw [Function.update_of_ne hv]
    unfold withAssetDeposit
    dsimp only
    split <;>
      simp [portfolio, getCollateralBalance, getUserAssetList, getUserAssetCollateral,
        withAssetList, withAssetCollateral, hv, funext_iff]

theorem portfolio_withAssetWithdrawal {a : Address} {n : ℤ}
    (h : I128.Holds (getUserAssetCollateral s user a - n)) :
    portfolio (withAssetWithdrawal user a n s) = Function.update (portfolio s) user
      { (portfolio s user).take (some a) n with total := getCollateralBalance s user } := by
  funext v
  have hleft : subOrZero (getUserAssetCollateral s user a) n =
      getUserAssetCollateral s user a - n := by rw [subOrZero_eq, if_pos h]
  unfold withAssetWithdrawal
  rw [hleft]
  by_cases hv : v = user
  · rw [hv, Function.update_self]
    by_cases hgone : (s.books.userAssetCollateral user a).getD 0 - n = 0 <;>
      simp [portfolio, Portfolio.take, getCollateralBalance, getUserAssetList,
        getUserAssetCollateral, withAssetList, withAssetCollateral, hgone, funext_iff,
        Function.update_apply] <;>
      intro b <;> split <;> rfl
  · rw [Function.update_of_ne hv]
    dsimp only
    split <;>
      simp [portfolio, getCollateralBalance, getUserAssetList, getUserAssetCollateral,
        withAssetList, withAssetCollateral, hv, funext_iff]

/-! ## Movements -/

/-- The collateral of a user becomes `p`, in all records, and nobody else's changes. -/
structure Moved (s : Storage) (user : Address) (p : Portfolio Address) (s' : Storage) : Prop where
  becomes : portfolio s' = Function.update (portfolio s) user p
  recorded : positionCollateral s' = Function.update (positionCollateral s) user p.total

/-- A position is written over records of the collateral. -/
theorem Moved.of_books {q : Position} {p : Portfolio Address}
    (h : s'.books = (withPosition user q t).books)
    (hposition : t.books.position = s.books.position) (hq : q.collateral = p.total)
    (hp : portfolio t = Function.update (portfolio s) user p) :
    Moved s user p s' := by
  refine ⟨?_, ?_⟩
  · rw [← hp]
    exact funext fun v => portfolio_congr h v
  · funext v
    rw [positionCollateral_congr h, positionCollateral, withPosition, hposition]
    by_cases hv : v = user
    · rw [hv]
      simp [hq]
    · simp [hv, positionCollateral]

/-- The aggregate and the records by asset after a deposit. -/
theorem portfolio_put (user : Address) (asset : Option Address) (n : ℤ) (s : Storage) :
    portfolio (onAsset (withAssetDeposit user · n) asset
        (withCollateralBalance user (getCollateralBalance s user + n) s)) =
      Function.update (portfolio s) user ((portfolio s user).put asset n) := by
  cases asset with
  | none => exact portfolio_withCollateralBalance ..
  | some a =>
    rw [onAsset, portfolio_withAssetDeposit, portfolio_withCollateralBalance]
    simp [Portfolio.put, portfolio, getCollateralBalance, withCollateralBalance]

/-- The same after something was taken that was there. -/
theorem portfolio_take {n : ℤ} (h : I128.Holds ((portfolio s user).share asset - n)) :
    portfolio (onAsset (withAssetWithdrawal user · n) asset
        (withCollateralBalance user (getCollateralBalance s user - n) s)) =
      Function.update (portfolio s) user ((portfolio s user).take asset n) := by
  cases asset with
  | none => exact portfolio_withCollateralBalance ..
  | some a =>
    have hheld : I128.Holds (getUserAssetCollateral
        (withCollateralBalance user (getCollateralBalance s user - n) s) user a - n) := h
    rw [onAsset, portfolio_withAssetWithdrawal hheld, portfolio_withCollateralBalance]
    simp [Portfolio.take, portfolio, getCollateralBalance, withCollateralBalance]

theorem Deposited.moved (h : Deposited e s user asset amount s') :
    Moved s user ((portfolio s user).put asset amount) s' := by
  refine .of_books h.books ?_ ?_ (portfolio_put ..)
  · exact (onAsset_assets (withAssetDeposit_assets user · amount) asset _).position
  · cases asset <;> rfl

theorem Withdrawn.moved (h : Withdrawn e s user asset amount s') (hkept : CollateralKept s user)
    (hle : amount ≤ (portfolio s user).share asset) :
    Moved s user ((portfolio s user).take asset amount) s' := by
  refine .of_books h.books ?_ ?_ (portfolio_take (hkept.holds_sub h.amount_pos.le hle).1)
  · exact (onAsset_assets (withAssetWithdrawal_assets user · amount) asset _).position
  · cases asset <;> rfl

/-- The collateral a liquidation names is of the kind its borrower's records are kept in: native for
a borrower without a list of assets, a token for one with a list. -/
def NamesKind (s : Storage) (borrower : Address) (collateralAsset : Option Address) : Prop :=
  collateralAsset.isSome = hasMultiAssetCollateral s borrower

/-- Under that condition what can be seized is the share that is named. -/
theorem NamesKind.seizable (h : NamesKind s user asset) :
    seizableBalance s user asset = (portfolio s user).share asset := by
  unfold NamesKind at h
  cases asset with
  | none =>
    have hnil : getUserAssetList s user = [] := by
      simpa [hasMultiAssetCollateral] using h
    simp [seizableBalance, Portfolio.share, Portfolio.listed, portfolio, hnil]
  | some a =>
    rw [seizableBalance, ← h]
    rfl

/-- Under it a seizure is recorded under the asset it is of. -/
theorem NamesKind.withSeizure (h : NamesKind s user asset) (n : ℤ) :
    withSeizure user asset n s = onAsset (withAssetWithdrawal user · n) asset s := by
  unfold HelloWorld.withSeizure
  rw [← h]
  cases asset <;> rfl

theorem Liquidated.moved {debtAsset : Option Address} {debtAmount value : ℤ} {p : Position}
    {amounts : Settlement}
    (h : Liquidated e s user debtAsset asset debtAmount p value amounts s')
    (hkind : NamesKind s user asset)
    (hholds : I128.Holds ((portfolio s user).share asset - amounts.seized))
    (htotal : I128.Holds (getCollateralBalance s user - amounts.seized)) :
    Moved s user ((portfolio s user).take asset amounts.seized) s' := by
  obtain ⟨index, -, hbooks⟩ := h.books
  rw [subOrZero_eq, if_pos htotal] at hbooks
  refine .of_books hbooks ?_ ?_ ?_
  · exact (withSeizure_assets ..).position
  · cases asset <;> rfl
  · have hkind : NamesKind (withCollateralBalance user
        (getCollateralBalance s user - amounts.seized)
        (withUserBorrowIndex user index s)) user asset := hkind
    rw [hkind.withSeizure]
    exact portfolio_take (s := withUserBorrowIndex user index s) hholds

/-! ## Acts keep the records -/

/-- A movement to a sound portfolio in range keeps the records of everybody. -/
theorem Moved.kept {p : Portfolio Address} (h : Moved s user p s') (hp : p.Sound)
    (hholds : I128.Holds p.total) (hkept : ∀ v, CollateralKept s v) (v : Address) :
    CollateralKept s' v := by
  have hportfolio := congrFun h.becomes v
  have hrecorded := congrFun h.recorded v
  by_cases hv : v = user
  · rw [hv, Function.update_self] at hportfolio hrecorded
    have hbalance : getCollateralBalance s' user = p.total := congrArg Portfolio.total hportfolio
    rw [hv]
    exact ⟨hportfolio ▸ hp, hbalance ▸ hholds, hrecorded.trans hbalance.symm⟩
  · rw [Function.update_of_ne hv] at hportfolio hrecorded
    have hbalance : getCollateralBalance s' v = getCollateralBalance s v :=
      congrArg Portfolio.total hportfolio
    obtain ⟨hsound, hholds, hold⟩ := hkept v
    exact ⟨hportfolio ▸ hsound, hbalance ▸ hholds, by rw [hrecorded, hold, hbalance]⟩

/-- A deposit moves its amount into the share it names. -/
theorem Moved.share_put (h : Moved s user ((portfolio s user).put asset amount) s')
    (hkept : CollateralKept s user) (v : Address) (x : Option Address) :
    (portfolio s' v).share x =
      (portfolio s v).share x + if user = v ∧ asset = x then amount else 0 := by
  rw [h.becomes]
  by_cases hv : v = user
  · rw [hv, Function.update_self, Portfolio.share_put hkept.sound.toListed]
    simp [eq_comm]
  · rw [Function.update_of_ne hv, if_neg fun hc => hv hc.1.symm, add_zero]

/-- What is taken that was there leaves the share that is named. -/
theorem Moved.share_take (h : Moved s user ((portfolio s user).take asset amount) s')
    (hkept : CollateralKept s user) (hn : 0 ≤ amount)
    (hle : amount ≤ (portfolio s user).share asset) (v : Address) (x : Option Address) :
    (portfolio s' v).share x =
      (portfolio s v).share x - if user = v ∧ asset = x then amount else 0 := by
  rw [h.becomes]
  by_cases hv : v = user
  · rw [hv, Function.update_self, Portfolio.share_take hkept.sound.toListed hn hle]
    simp [eq_comm]
  · rw [Function.update_of_ne hv, if_neg fun hc => hv hc.1.symm, sub_zero]

/-- What an act takes is there: a withdrawal names a share that covers it, a liquidation names
collateral of its borrower's kind, and the penalty of the borrower cannot fall without bound. -/
def TakesWhatIsThere (s : Storage) : Act → Prop
  | .withdraw user asset amount => amount ≤ (portfolio s user).share asset
  | .liquidate _ borrower _ collateralAsset _ =>
    NamesKind s borrower collateralAsset ∧
      ((∀ config, getRiskParams s = some config →
          config.liquidationIncentive ≤ MAX_PENALTY_BPS) ∨
        ∀ a ∈ getUserAssetList s borrower, 0 ≤ getCollateralFactor s a)
  | _ => True

/-- What an act moves of an asset into a user's collateral, out to the user, and out to a
liquidator.  `taken` is what the user's aggregate balance falls by. -/
def Act.collateralFlow (user : Address) (asset : Option Address) (taken : ℤ) : Act → ℤ × ℤ × ℤ
  | .deposit u a amount => if u = user ∧ a = asset then (amount, 0, 0) else 0
  | .withdraw u a amount => if u = user ∧ a = asset then (0, amount, 0) else 0
  | .liquidate _ u _ a _ => if u = user ∧ a = asset then (0, 0, taken) else 0
  | _ => 0

/-- The share of a user follows the flow, and what goes out to liquidators is not negative. -/
def Follows (user : Address) (asset : Option Address) (s s' : Storage) (flow : ℤ × ℤ × ℤ) : Prop :=
  (portfolio s' user).share asset =
      (portfolio s user).share asset + flow.1 - flow.2.1 - flow.2.2 ∧
    0 ≤ flow.2.2

theorem Follows.idle (h : portfolio s' user = portfolio s user) : Follows user asset s s' 0 := by
  refine ⟨?_, le_rfl⟩
  rw [h]
  simp

/-- An operation on the debt of a position leaves its collateral alone. -/
theorem Accrued.unmoved {p p' q : Position} (h : Accrued e s user p p' t)
    (hkept : CollateralKept s user) (hp : p.collateral = positionCollateral s user)
    (hbooks : s'.books = (withPosition user q t).books) (hq : q.collateral = p'.collateral) :
    Moved s user (portfolio s user) s' := by
  obtain ⟨i, -, -, hcharged⟩ := h.charged
  obtain ⟨index, hindex, -⟩ := h.books
  refine .of_books hbooks (by rw [hindex]; rfl) ?_ ?_
  · rw [hq, hcharged]
    exact hp.trans hkept.recorded
  · rw [Function.update_eq_self]
    exact funext fun v => portfolio_congr hindex v

/-- Without a movement nothing flows. -/
theorem Moved.idle (h : Moved s user (portfolio s user) s') (v : Address) (x : Option Address) :
    Follows v x s s' 0 := by
  refine .idle ?_
  rw [h.becomes, Function.update_eq_self]

/-- **An act that takes what is there keeps the records of everybody's collateral**, and every share
follows its flow. -/
theorem CollateralKept.act {a : Act} (hs : Settled s) (hkept : ∀ v, CollateralKept s v)
    (hC : TakesWhatIsThere s a) (ha : a.apply e s = some s') :
    (∀ v, CollateralKept s' v) ∧ ∀ user asset, Follows user asset s s'
      (a.collateralFlow user asset
        (getCollateralBalance s user - getCollateralBalance s' user)) := by
  have heffect := a.effect ha
  cases a with
  | deposit u x amount =>
    have hmoved := heffect.moved
    refine ⟨hmoved.kept ((hkept u).sound.put x heffect.amount_pos.le) ?_ hkept, fun v y => ?_⟩
    · cases x <;> exact heffect.holds
    · rw [Follows, hmoved.share_put (hkept u), Act.collateralFlow]
      split <;> simp
  | withdraw u x amount =>
    have hpos := heffect.amount_pos.le
    have hmoved := heffect.moved (hkept u) hC
    refine ⟨hmoved.kept ((hkept u).sound.take hpos hC) ?_ hkept, fun v y => ?_⟩
    · cases x <;> exact ((hkept u).holds_sub hpos hC).2
    · rw [Follows, hmoved.share_take (hkept u) hpos hC, Act.collateralFlow]
      split <;> simp
  | liquidate l u d x n =>
    obtain ⟨p, value, amounts, heffect⟩ := heffect
    obtain ⟨hkind, hsign⟩ := hC
    have hshare := hkind.seizable
    obtain ⟨hpos, hle⟩ := heffect.seized_bounds hs.risk hs.positive
      (hshare ▸ (hkept u).sound.share_nonneg x)
      (hsign.imp_right fun hfactor a ha => ⟨(hkept u).sound.share_nonneg (some a), hfactor a ha⟩)
    rw [hshare] at hle
    obtain ⟨hholds, htotal⟩ := (hkept u).holds_sub hpos hle
    have hmoved := heffect.moved hkind hholds htotal
    refine ⟨hmoved.kept ((hkept u).sound.take hpos hle) ?_ hkept, fun v y => ?_⟩
    · cases x <;> exact htotal
    · rw [Follows, hmoved.share_take (hkept u) hpos hle, Act.collateralFlow]
      split
      · next hnamed =>
        obtain ⟨rfl, rfl⟩ := hnamed
        have hfall : getCollateralBalance s' u = getCollateralBalance s u - amounts.seized := by
          have := congrArg Portfolio.total (congrFun hmoved.becomes u)
          rw [Function.update_self] at this
          cases x <;> exact this
        simp [hfall, hpos]
      · simp
  | borrow u x n =>
    obtain ⟨p, t, w, haccrued, -, hbooks⟩ := heffect.moved
    have hmoved : Moved s u (portfolio s u) s' := by
      refine haccrued.unmoved (hkept u) ?_ hbooks rfl
      unfold positionCollateral
      cases s.books.position u <;> rfl
    exact ⟨hmoved.kept (hkept u).sound (hkept u).holds hkept, fun v y => hmoved.idle v y⟩
  | repay u x n =>
    obtain ⟨p, q, t, hp, haccrued, -, -, hbooks⟩ := heffect.moved
    have hmoved : Moved s u (portfolio s u) s' := by
      refine haccrued.unmoved (hkept u) ?_ hbooks rfl
      rw [positionCollateral, hp]
      rfl
    exact ⟨hmoved.kept (hkept u).sound (hkept u).holds hkept, fun v y => hmoved.idle v y⟩

/-! ## Runs -/

/-- What a call takes is there. -/
def CallTakesWhatIsThere (s : Storage) (tx : Tx) : Prop :=
  ∀ a, tx.op.act s = some a → TakesWhatIsThere s a

/-- What a call moves of an asset into a user's collateral, out to the user, and out to a
liquidator. -/
def collateralFlow (user : Address) (asset : Option Address) (s : Storage) (tx : Tx) : ℤ × ℤ × ℤ :=
  match tx.op.act s with
  | some a => a.collateralFlow user asset
      (getCollateralBalance s user - getCollateralBalance (exec step s tx) user)
  | none => 0

/-- What the successful calls of a run move. -/
def collateralFlows (user : Address) (asset : Option Address) (txs : List Tx) : ℤ × ℤ × ℤ :=
  tally step (collateralFlow user asset) Storage.empty txs

def deposited (user : Address) (asset : Option Address) (txs : List Tx) : ℤ :=
  (collateralFlows user asset txs).1

def withdrawn (user : Address) (asset : Option Address) (txs : List Tx) : ℤ :=
  (collateralFlows user asset txs).2.1

def seized (user : Address) (asset : Option Address) (txs : List Tx) : ℤ :=
  (collateralFlows user asset txs).2.2

/-- The native collateral of a user.  No key holds it: it is what came in of it and did not go
out. -/
def nativeCollateral (user : Address) (txs : List Tx) : ℤ :=
  deposited user none txs - withdrawn user none txs - seized user none txs

/-- The records of a user's collateral agree after a run, and no asset was withdrawn that had not
been deposited. -/
structure CollateralAgrees (txs : List Tx) (user : Address) : Prop where
  recorded : getCollateralBalance (ledger txs) user = positionCollateral (ledger txs) user
  total : getCollateralBalance (ledger txs) user = nativeCollateral user txs +
    ((getUserAssetList (ledger txs) user).map (getUserAssetCollateral (ledger txs) user)).sum
  balance_nonneg : 0 ≤ getCollateralBalance (ledger txs) user
  native_nonneg : 0 ≤ nativeCollateral user txs
  asset_nonneg : ∀ a, 0 ≤ getUserAssetCollateral (ledger txs) user a
  nodup : (getUserAssetList (ledger txs) user).Nodup
  covered : ∀ asset, withdrawn user asset txs ≤ deposited user asset txs

/-- The records are kept, and a user's share of an asset is what flowed. -/
structure Tracked (user : Address) (asset : Option Address) (flow : ℤ × ℤ × ℤ) (s : Storage) :
    Prop where
  settled : Settled s
  kept : ∀ v, CollateralKept s v
  share : (portfolio s user).share asset = flow.1 - flow.2.1 - flow.2.2
  seized_nonneg : 0 ≤ flow.2.2

theorem Tracked.empty (user : Address) (asset : Option Address) :
    Tracked user asset 0 Storage.empty := by
  refine ⟨.empty, .empty, ?_, le_rfl⟩
  cases asset <;> rfl

theorem Tracked.follow {flow delta : ℤ × ℤ × ℤ} (h : Tracked user asset flow s)
    (hsettled : Settled s') (hkept : ∀ v, CollateralKept s' v)
    (hfollows : Follows user asset s s' delta) : Tracked user asset (flow + delta) s' := by
  obtain ⟨hshare, hseized⟩ := hfollows
  have hbefore := h.share
  have hnonneg := h.seized_nonneg
  refine ⟨hsettled, hkept, ?_, ?_⟩
  · rw [hshare, hbefore]
    simp only [Prod.fst_add, Prod.snd_add]
    omega
  · rw [Prod.snd_add, Prod.snd_add]
    omega

theorem TakesWhatIsThere.gate {a : Act} (h : TakesWhatIsThere s a) (hgate : Gate s t) :
    TakesWhatIsThere t a := by
  rw [Gate] at hgate
  rw [hgate]
  cases a <;> exact h

/-- **A call that takes what is there keeps track.** -/
theorem Tracked.step {flow : ℤ × ℤ × ℤ} {tx : Tx} (h : Tracked user asset flow s)
    (hstep : step tx s = some s') (hC : CallTakesWhatIsThere s tx) :
    Tracked user asset (flow + collateralFlow user asset s tx) s' := by
  have hsettled := h.settled.step hstep
  unfold collateralFlow
  cases hact : tx.op.act s with
  | none =>
    have hbooks := (step_quiet hstep hact).books
    exact h.follow hsettled (fun v => (h.kept v).congr hbooks) (.idle (portfolio_congr hbooks user))
  | some a =>
    obtain ⟨t, hgate, ha⟩ := step_act hstep hact
    have hkept : ∀ v, CollateralKept t v := fun v => (h.kept v).congr hgate.books
    obtain ⟨hafter, hfollows⟩ := CollateralKept.act (h.settled.gate hgate) hkept
      ((hC a hact).gate hgate) ha
    refine h.follow hsettled hafter ?_
    have hflow := hfollows user asset
    rw [Follows, portfolio_congr hgate.books, getCollateralBalance_congr hgate.books] at hflow
    rw [exec_of_some hstep]
    exact hflow

/-- **In a run whose calls take what is there, the three records of everybody's collateral agree,
and nobody withdraws more of an asset than was deposited.** -/
theorem collateral_kept {txs : List Tx}
    (h : Meets step CallTakesWhatIsThere Storage.empty txs) (user : Address) :
    CollateralAgrees txs user := by
  have htracked : ∀ asset, Tracked user asset (collateralFlows user asset txs) (ledger txs) := by
    intro asset
    have := h.tally_invariant (fun _ _ _ _ hstep hC hI => hI.step hstep hC)
      (Tracked.empty user asset)
    rwa [zero_add] at this
  have hkept := (htracked none).kept user
  have hshare : getCollateralBalance (ledger txs) user -
      ((getUserAssetList (ledger txs) user).map (getUserAssetCollateral (ledger txs) user)).sum =
        nativeCollateral user txs := (htracked none).share
  have hnative : 0 ≤ nativeCollateral user txs := hshare ▸ hkept.sound.share_nonneg none
  refine ⟨hkept.recorded.symm, by omega, ?_, hnative, ?_, hkept.sound.nodup, fun asset => ?_⟩
  · exact (hkept.sound.share_nonneg none).trans (hkept.sound.share_le none)
  · exact fun a => hkept.sound.share_nonneg (some a)
  · obtain ⟨-, -, hflow, hseized⟩ := htracked asset
    have hnonneg := hkept.sound.share_nonneg asset
    unfold withdrawn deposited
    omega

namespace Sample

/-- Alice deposits natively and in a token, and takes some of either out. -/
def twoShares : List Tx :=
  [deploy, ⟨envAt 5 [alice], .depositCollateral alice none 1000⟩,
    ⟨envAt 6 [alice], .depositCollateral alice (some usdc) 100⟩,
    ⟨envAt 7 [alice], .withdrawCollateral alice (some usdc) 40⟩,
    ⟨envAt 8 [alice], .withdrawCollateral alice none 300⟩]

/-- Alice deposits one token and takes it out as another. -/
def otherAsset : List Tx :=
  [deploy, ⟨envAt 5 [alice], .depositCollateral alice (some usdc) 100⟩,
    ⟨envAt 6 [alice], .withdrawCollateral alice (some wbtc) 100⟩]

end Sample

theorem collateral_kept_twoShares : CollateralAgrees Sample.twoShares Sample.alice := by
  have htoken : 40 ≤ (portfolio (ledger (Sample.twoShares.take 3)) Sample.alice).share
      (some Sample.usdc) := by decide
  have hnative : 300 ≤ (portfolio (ledger (Sample.twoShares.take 4)) Sample.alice).share none := by
    decide
  have h : Meets step CallTakesWhatIsThere Storage.empty Sample.twoShares := by
    refine ⟨fun _ _ ha => ?_, fun _ _ ha => ?_, fun _ _ ha => ?_, fun _ _ ha => ?_,
      fun _ _ ha => ?_, trivial⟩
    · cases ha
    · exact Option.some.inj ha ▸ trivial
    · exact Option.some.inj ha ▸ trivial
    · exact Option.some.inj ha ▸ htoken
    · exact Option.some.inj ha ▸ hnative
  exact collateral_kept h Sample.alice

/-- Of 100 deposited as one token, 100 are withdrawn as another, and the first is still on
record. -/
theorem collateral_disagrees_otherAsset :
    ¬ ∀ txs user, CollateralAgrees txs user := by
  intro hall
  have htotal := (hall Sample.otherAsset Sample.alice).total
  revert htotal
  decide

end StellarLend.HelloWorld
