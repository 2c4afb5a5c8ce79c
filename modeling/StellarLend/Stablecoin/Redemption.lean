import StellarLend.Foundations.History
import StellarLend.Foundations.Total
import StellarLend.Stablecoin.Effects

/-!
# Stablecoin/Redemption — the collateral adds up and does not come back

    deposits ──▸ UserCollateral, TotalCollateral ──burn_and_redeem──▸ ✗

The total is the sum of the users' collateral and what was deposited less what was redeemed, in
every state of every run (`conserved`).  A redemption is limited by the counter of stablecoins that
no mint moves, so whoever has stablecoins minted cannot burn one of them: every redemption is
refused, and refused before the division by the ratio (`burnAndRedeem_refused`).
-/

namespace StellarLend.Stablecoin

open Foundations Call
open Lending (Address)

variable {e : Env} {s s' : Storage} {user : Address} {amount out : ℤ}

/-! ## What a user may redeem -/

/-- The counter of all collateral. -/
def totalOf (s : Storage) : ℤ := s.totalCollateral.getD 0

/-- What a transaction brings in: the collateral deposited, less the collateral redeemed. -/
def broughtIn (s : Storage) (tx : Tx) : ℤ :=
  match tx.op with
  | .depositCollateral _ amount => amount
  | .burnAndRedeem user amount => -((burnAndRedeem user amount tx.env s).value.getD 0)
  | _ => 0

/-- What happens to the stablecoins a user has under the ratio in force. -/
inductive Movement where
  | minted (backing out : ℤ)
  | burnt (amount out : ℤ)
  /-- The ratio changed, and what was minted before was minted under another. -/
  | repriced
  deriving DecidableEq, Repr

/-- What a transaction does to the stablecoins of a user. -/
def movements (user : Address) (s : Storage) (tx : Tx) : List Movement :=
  match tx.op with
  | .mintFromCollateral u amount =>
    if u = user then
      ((mintFromCollateral u amount tx.env s).value.map (Movement.minted amount)).toList
    else []
  | .burnAndRedeem u amount =>
    if u = user then ((burnAndRedeem u amount tx.env s).value.map (Movement.burnt amount)).toList
    else []
  | op => if op.ratio.getD (ratioOf s) = ratioOf s then [] else [.repriced]

/-- The stablecoins minted to a user since the ratio last changed and not burned since, and the
collateral behind them. -/
structure Position where
  minted : ℤ
  backing : ℤ
  deriving DecidableEq, Repr

def Position.move (p : Position) : Movement → Position
  | .minted backing out => ⟨p.minted + out, p.backing + backing⟩
  | .burnt amount out => ⟨p.minted - amount, p.backing - out⟩
  | .repriced => ⟨0, 0⟩

/-- **What a user has, minted under the ratio in force.** -/
def positionOf (user : Address) (txs : List Tx) : Position :=
  (history step (movements user) Storage.empty txs).foldl Position.move ⟨0, 0⟩

/-- The user signs, and the tokens do what they are asked for. -/
structure Willing (user : Address) (e : Env) : Prop where
  signs : user ∈ e.auths
  accepts : ∀ calls call, e.accepts calls call = true

/-- The counters of collateral add up to what came in. -/
structure Conserved (txs : List Tx) : Prop where
  totals : TotalsTo (getUserCollateral (ledger txs)) (totalOf (ledger txs))
  flows : totalOf (ledger txs) = tally step broughtIn Storage.empty txs
  nonneg : 0 ≤ totalOf (ledger txs)
  users : ∀ user, 0 ≤ getUserCollateral (ledger txs) user

/-- The collateral adds up; what a user has minted under the ratio in force the user can burn, for
at most the collateral behind it; and no redemption traps. -/
structure CollateralSound (txs : List Tx) : Prop extends Conserved txs where
  burns : ∀ user amount e, Willing user e → isShutdown (ledger txs) = false → 0 < amount →
    amount ≤ (positionOf user txs).minted →
    ∃ out s', burnAndRedeem user amount e (ledger txs) = .ok out s' ∧
      out ≤ (positionOf user txs).backing
  settles : ∀ user amount e, Willing user e → burnAndRedeem user amount e (ledger txs) ≠ .trap

/-! ## The collateral adds up -/

/-- What every step keeps: a contract not initialised is as deployed, and the total is the sum over
the users and what came in. -/
structure Kept (m : ℤ) (s : Storage) : Prop where
  fresh : s.admin = none → s = Storage.empty
  totals : TotalsTo (getUserCollateral s) (totalOf s)
  flows : m = totalOf s

theorem Kept.empty : Kept 0 Storage.empty := ⟨fun _ => rfl, TotalsTo.zero, rfl⟩

theorem requireOpen_initialized {u : Unit} (h : requireOpen user amount e s = .ok u s') :
    s.admin ≠ none := by
  simp only [requireOpen, bind_ok, requireInit_ok] at h
  obtain ⟨_, _, ⟨hadmin, -⟩, -⟩ := h
  exact hadmin

theorem askToken_gates {call : TokenCall} {u : Unit} (h : askToken call e s = .ok u s') :
    s'.admin = s.admin ∧ s'.shutdown = s.shutdown := by
  obtain ⟨-, rfl⟩ := askToken_ok.mp h
  exact ⟨rfl, rfl⟩

theorem depositCollateral_initialized {u : Unit}
    (h : depositCollateral user amount e s = .ok u s') : s'.admin ≠ none := by
  simp only [depositCollateral, addTotalCollateral, bind_ok, ↓asks_seq, ↓view_seq, ↓okOr_seq,
    ↓orTrap_seq, ↓store_seq, store_ok, I128.checkedAdd_eq_some, and_assoc, exists_and_left,
    exists_eq_left', ↓seq_assoc] at h
  obtain ⟨_, _, hopen, _, _, htoken, _, _, hasked, -, -, rfl⟩ := h
  have hadmin := requireOpen_initialized hopen
  obtain ⟨-, -, -, rfl⟩ := requireOpen_ok hopen
  obtain rfl := collateralToken_ok htoken
  rwa [← (askToken_gates hasked).1] at hadmin

/-- A mint finds the contract open and leaves it open. -/
theorem mintFromCollateral_open (h : mintFromCollateral user amount e s = .ok out s') :
    s'.admin ≠ none ∧ isShutdown s' = false := by
  simp only [mintFromCollateral, bind_ok, ↓view_seq, ↓failIf_seq, reserveRatioBps_ok, ↓okOr_seq,
    ↓orTrap_seq, pure_ok, I128.checkedMul_eq_some, I128.checkedAdd_eq_some, and_assoc,
    exists_and_left, exists_eq_left'] at h
  obtain ⟨_, _, hopen, -, hadmin, -, -, -, -, _, _, hstable, _, _, hasked, -, rfl⟩ := h
  obtain ⟨-, -, hshutdown, rfl⟩ := requireOpen_ok hopen
  obtain rfl := stablecoinToken_ok hstable
  obtain ⟨hsame, hgate⟩ := askToken_gates hasked
  rw [isShutdown, ← hgate] at hshutdown
  exact ⟨hsame ▸ hadmin, hshutdown⟩

theorem burnAndRedeem_initialized (h : burnAndRedeem user amount e s = .ok out s') :
    s'.admin ≠ none := by
  simp only [burnAndRedeem, subTotalCollateral, bind_ok, ↓view_seq, ↓asks_seq, ↓failIf_seq,
    reserveRatioBps_ok, ↓okOr_seq, ↓orTrap_seq, ↓store_seq, pure_ok, I128.checkedMul_eq_some,
    I128.checkedDiv_eq_some, I128.checkedSub_eq_some, and_assoc, exists_and_left, exists_eq_left',
    ↓seq_assoc] at h
  obtain ⟨_, _, hopen, -, hadmin, -, -, -, -, -, -, -, -, _, _, hstable, _, _, hburnt, _, _,
    htoken, _, _, hmoved, -, rfl⟩ := h
  obtain ⟨-, -, -, rfl⟩ := requireOpen_ok hopen
  obtain rfl := stablecoinToken_ok hstable
  obtain rfl := collateralToken_ok htoken
  have hburnt := (askToken_gates hburnt).1
  rw [(askToken_gates hmoved).1, hburnt]
  exact hadmin

/-- What an administrator's call does to the total: the first one sets it to zero. -/
structure TotalKept (s s' : Storage) : Prop where
  initialized : s'.admin ≠ none
  total : totalOf s' = totalOf s ∨ s.admin = none ∧ totalOf s' = 0

theorem initializeContract_total {admin stable collateral : Address}
    {config : FractionalReserveConfig} {u : Unit}
    (h : initializeContract admin stable collateral config e s = .ok u s') : TotalKept s s' := by
  simp only [initializeContract, view_seq, failIf_seq, requireAuth_seq, store_ok] at h
  obtain ⟨hnew, -, -, rfl⟩ := h
  exact ⟨Option.some_ne_none _, .inr ⟨by simpa using hnew, rfl⟩⟩

theorem setShutdown_total {caller : Address} {shutdown : Bool} {u : Unit}
    (h : setShutdown caller shutdown e s = .ok u s') : TotalKept s s' := by
  simp only [setShutdown, requireAuth_seq, requireAdmin_seq, store_ok] at h
  obtain ⟨-, hadmin, rfl⟩ := h
  exact ⟨fun hnone => Option.some_ne_none _ (hadmin.symm.trans hnone), .inl rfl⟩

theorem setReserveRatio_total {caller : Address} {rr : ℤ} {u : Unit}
    (h : setReserveRatio caller rr e s = .ok u s') : TotalKept s s' := by
  simp only [setReserveRatio, requireAuth_seq, requireAdmin_seq, failIf_seq, store_ok] at h
  obtain ⟨-, hadmin, -, rfl⟩ := h
  exact ⟨fun hnone => Option.some_ne_none _ (hadmin.symm.trans hnone), .inl rfl⟩

variable {m : ℤ}

/-- The first call of an administrator finds no collateral. -/
theorem Kept.administered (hs : Kept m s) (hbooks : Administered s s') (h : TotalKept s s') :
    Kept m s' := by
  have htotal : totalOf s' = totalOf s := by
    obtain hsame | ⟨hnone, hzero⟩ := h.total
    · exact hsame
    · rw [hs.fresh hnone, hzero]
      rfl
  refine ⟨fun hnone => absurd hnone h.initialized, ?_, hs.flows.trans htotal.symm⟩
  rw [htotal]
  exact hs.totals.congr fun u => by rw [getUserCollateral, hbooks.collateral, getUserCollateral]

theorem Kept.deposited (hs : Kept m s) (hinit : s'.admin ≠ none)
    (h : Deposited s user amount s') : Kept (m + amount) s' := by
  refine ⟨fun hnone => absurd hnone hinit, ?_, ?_⟩
  · refine hs.totals.change_eq user (fun u hu => ?_) ?_
    · rw [h.collateral, Function.update_of_ne hu]
    · rw [totalOf, h.total, h.collateral, Function.update_self, add_sub_cancel_left]
      rfl
  · rw [hs.flows]
    exact h.total.symm

theorem Kept.sameBooks (hs : Kept m s) (hinit : s'.admin ≠ none) (h : SameBooks s s') :
    Kept m s' := by
  refine ⟨fun hnone => absurd hnone hinit, ?_, ?_⟩
  · rw [totalOf, h.total]
    exact hs.totals.congr fun u => by rw [getUserCollateral, h.collateral, getUserCollateral]
  · rw [hs.flows, totalOf, totalOf, h.total]

theorem Kept.redeemed (hs : Kept m s) (hinit : s'.admin ≠ none)
    (h : Redeemed s user amount out s') : Kept (m - out) s' := by
  refine ⟨fun hnone => absurd hnone hinit, ?_, ?_⟩
  · refine hs.totals.change_eq user (fun u hu => ?_) ?_
    · rw [h.collateral, Function.update_of_ne hu]
    · rw [totalOf, h.total, h.collateral, Function.update_self, sub_sub_cancel_left]
      rfl
  · rw [hs.flows]
    exact h.total.symm

/-- **Every step keeps the books.** -/
theorem Kept.step {tx : Tx} (hs : Kept m s) (hstep : step tx s = some s') :
    Kept (m + broughtIn s tx) s' := by
  have heffect := step_effect hstep
  obtain ⟨e, op⟩ := tx
  cases op <;> simp only [Stablecoin.step, commit_eq_some] at hstep <;> obtain ⟨a, h⟩ := hstep
  case initializeContract =>
    exact (add_zero m).symm ▸ hs.administered heffect (initializeContract_total h)
  case setShutdown => exact (add_zero m).symm ▸ hs.administered heffect (setShutdown_total h)
  case setReserveRatio =>
    exact (add_zero m).symm ▸ hs.administered heffect (setReserveRatio_total h)
  case depositCollateral =>
    exact hs.deposited (depositCollateral_initialized h) heffect
  case mintFromCollateral =>
    exact (add_zero m).symm ▸
      hs.sameBooks (mintFromCollateral_open h).1 (mintFromCollateral_effect h).books
  case burnAndRedeem user amount =>
    have hout : broughtIn s ⟨e, .burnAndRedeem user amount⟩ = -a := by
      change -((burnAndRedeem user amount e s).value.getD 0) = -a
      rw [h]
      rfl
    rw [hout, ← sub_eq_add_neg]
    exact hs.redeemed (burnAndRedeem_initialized h) (burnAndRedeem_effect h)

/-- **The collateral adds up in every state of every run.** -/
theorem conserved (txs : List Tx) : Conserved txs := by
  have hmeets : Meets Stablecoin.step (fun _ _ => True) Storage.empty txs :=
    meets_of_forall fun _ _ _ => trivial
  have hkept := hmeets.tally_invariant (f := broughtIn) (I := Kept)
    (fun m s tx s' hstep _ hI => hI.step hstep) Kept.empty
  have hs := unmoved_ledger txs
  rw [zero_add] at hkept
  exact ⟨hkept.totals, hkept.flows.symm, hkept.totals.nonneg hs.collateral, hs.collateral⟩

/-! ## No redemption goes through -/

theorem requireOpen_settles (he : user ∈ e.auths) :
    (∃ u, requireOpen user amount e s = .ok u s) ∨
      ∃ err, requireOpen user amount e s = .err err s := by
  by_cases hadmin : s.admin = none
  · exact .inr ⟨.notInitialized, by simp [requireOpen, requireInit, hadmin]⟩
  by_cases hclosed : isShutdown s = true
  · exact .inr ⟨.shutdown, by simp [requireOpen, hadmin, hclosed, he]⟩
  by_cases hpos : amount ≤ 0
  · exact .inr ⟨.invalidAmount, by simp [requireOpen, hadmin, hclosed, hpos, he]⟩
  · exact .inl ⟨(), by simp [requireOpen, hadmin, hclosed, hpos, he]⟩

/-- **A redemption signed by its user is refused**, and before the division by the ratio. -/
theorem burnAndRedeem_refused (hs : Unmoved s) (he : user ∈ e.auths) :
    ∃ err, burnAndRedeem user amount e s = .err err s := by
  obtain ⟨u, hopen⟩ | ⟨err, hclosed⟩ := requireOpen_settles (s := s) he
  · obtain ⟨hpos, -, -, -⟩ := requireOpen_ok hopen
    refine ⟨.invalidAmount, ?_⟩
    rw [burnAndRedeem, bind_of_ok hopen]
    simp only [bind_err, view_err, view_ok, hs.minted user, failIf_err, true_and, failIf_ok, not_lt,
      reserveRatioBps_ok, ne_eq, okOr_err, reduceCtorEq, false_and, and_false, okOr_ok,
      I128.checkedMul_eq_some, orTrap_err, orTrap_ok, I128.checkedDiv_eq_some,
      I128.checkedSub_eq_some, store_err, store_ok, askToken_ok, asks_err, asks_ok, pure_err,
      exists_false, exists_const, or_false, ↓existsAndEq, and_true, exists_eq_left', false_or, hpos,
      zero_sub, true_or, or_true]
  · exact ⟨err, bind_of_err hclosed⟩

/-! ## What users have, along a run -/

/-- The movements of one step, when no counter of stablecoins has moved: a redemption made none. -/
theorem movements_of_step {tx : Tx} (hs : Unmoved s) (hstep : step tx s = some s')
    (user : Address) : movements user s tx = [] ∨ movements user s tx = [.repriced] ∨
      ∃ amount out, tx.op = .mintFromCollateral user amount ∧ 0 < out ∧
        movements user s tx = [.minted amount out] := by
  have heffect := step_effect hstep
  obtain ⟨e, op⟩ := tx
  cases op
  case mintFromCollateral u amount =>
    obtain ⟨out, h⟩ := commit_eq_some.mp hstep
    by_cases hu : u = user
    · obtain rfl := hu
      refine .inr (.inr ⟨amount, out, rfl, (mintFromCollateral_effect h).positive, ?_⟩)
      change (if u = u then _ else []) = _
      rw [if_pos rfl, h]
      rfl
    · exact .inl (if_neg hu)
  case burnAndRedeem =>
    obtain ⟨out, h⟩ := heffect
    exact absurd hs h.not_unmoved
  all_goals exact (ite_eq_or_eq _ _ _).imp_right .inl

/-- A user never has less than nothing. -/
theorem positionOf_nonneg (user : Address) (txs : List Tx) : 0 ≤ (positionOf user txs).minted := by
  have hmeets : Meets step (fun _ _ => True) Storage.empty txs :=
    meets_of_forall fun _ _ _ => trivial
  refine (hmeets.history_invariant (h := [])
    (I := fun h s => 0 ≤ (h.foldl Position.move ⟨0, 0⟩).minted ∧ Unmoved s)
    (fun h s tx s' hstep _ hI => ⟨?_, hI.2.step hstep⟩) ⟨le_rfl, Unmoved.empty⟩).1
  rw [List.foldl_append]
  obtain hnone | hrepriced | ⟨amount, out, -, hpos, hminted⟩ := movements_of_step hI.2 hstep user
  · rw [hnone]
    exact hI.1
  · rw [hrepriced]
    exact le_rfl
  · rw [hminted]
    exact add_nonneg hI.1 hpos.le

/-- In a run without mints nobody has anything. -/
theorem positionOf_of_noMint {txs : List Tx} (h : Meets step NoMint Storage.empty txs)
    (user : Address) : (positionOf user txs).minted = 0 := by
  refine (h.history_invariant (h := [])
    (I := fun h s => (h.foldl Position.move ⟨0, 0⟩).minted = 0 ∧ Unmoved s)
    (fun h s tx s' hstep hC hI => ⟨?_, hI.2.step hstep⟩) ⟨rfl, Unmoved.empty⟩).1
  rw [List.foldl_append]
  obtain hnone | hrepriced | ⟨amount, out, hop, -⟩ := movements_of_step hI.2 hstep user
  · rw [hnone]
    exact hI.1
  · rw [hrepriced]
    rfl
  · exact absurd hop (hC user amount)

/-- After a mint its user has something. -/
theorem positionOf_mint {txs : List Tx} {tx : Tx} (hstep : step tx (ledger txs) = some s')
    (hop : tx.op = .mintFromCollateral user amount) :
    0 < (positionOf user (txs ++ [tx])).minted := by
  have hbefore := positionOf_nonneg user txs
  rw [positionOf, history_snoc (movements user) hstep, List.foldl_append]
  obtain ⟨e, op⟩ := tx
  obtain rfl := hop
  obtain ⟨out, h⟩ := commit_eq_some.mp hstep
  have hmoves : movements user (ledger txs) ⟨e, .mintFromCollateral user amount⟩ =
      [.minted amount out] := by
    change (if user = user then _ else []) = _
    rw [if_pos rfl, h]
    rfl
  rw [show movements user (run step Storage.empty txs) _ = _ from hmoves]
  exact add_pos_of_nonneg_of_pos hbefore (mintFromCollateral_effect h).positive

/-! ## Redemption -/

/-- **The collateral adds up and what is minted can be burnt, in every state of a run, if and only
if no mint of the run succeeds.** -/
theorem collateral_sound_iff (txs : List Tx) :
    (∀ past, past <+: txs → CollateralSound past) ↔ Meets step NoMint Storage.empty txs := by
  constructor
  · intro h
    refine meets_iff.mpr fun past tx rest s' htxs hstep user amount hop => ?_
    have hsound := h (past ++ [tx]) ⟨rest, by rw [htxs, List.append_assoc]; rfl⟩
    have hopen : isShutdown (ledger (past ++ [tx])) = false := by
      rw [ledger, run_snoc, exec_of_some hstep]
      obtain ⟨e, op⟩ := tx
      obtain rfl := hop
      obtain ⟨out, hmint⟩ := commit_eq_some.mp hstep
      exact (mintFromCollateral_open hmint).2
    let e : Env := ⟨user, [user], fun _ _ => true⟩
    have he : Willing user e := ⟨List.mem_singleton_self user, fun _ _ => rfl⟩
    obtain ⟨out, t, hburnt, -⟩ :=
      hsound.burns user _ e he hopen (positionOf_mint hstep hop) le_rfl
    obtain ⟨err, hrefused⟩ := burnAndRedeem_refused (unmoved_ledger (past ++ [tx])) he.signs
    rw [hrefused] at hburnt
    cases hburnt
  · rintro h past ⟨rest, rfl⟩
    have hs := unmoved_ledger past
    refine ⟨conserved past, fun user amount e _ _ hpos hle => ?_, fun user amount e he => ?_⟩
    · rw [positionOf_of_noMint (meets_append.mp h).1] at hle
      exact absurd hpos (not_lt.mpr hle)
    · obtain ⟨err, hrefused⟩ := burnAndRedeem_refused hs he.signs
      rw [hrefused]
      exact nofun

namespace Sample

/-- Alice deposits 1000 and mints 500 stablecoins against them. -/
def mintOnce : List Tx :=
  [⟨envFor admin, .initializeContract admin usd gold ⟨5000⟩⟩,
    ⟨envFor alice, .depositCollateral alice 1000⟩,
    ⟨envFor alice, .mintFromCollateral alice 1000⟩]

/-- Alice has 500 stablecoins behind which 1000 of her collateral stand, and cannot burn one of
them. -/
theorem redemption_refused : ¬ CollateralSound mintOnce := by
  intro h
  have hposition : positionOf alice mintOnce = ⟨500, 1000⟩ := by decide
  have hopen : isShutdown (ledger mintOnce) = false := by decide
  have he : Willing alice (envFor alice) := ⟨List.mem_singleton_self alice, fun _ _ => rfl⟩
  obtain ⟨out, s', hburnt, -⟩ :=
    h.burns alice 1 (envFor alice) he hopen (by decide) (by rw [hposition]; decide)
  have hvalue : (burnAndRedeem alice 1 (envFor alice) (ledger mintOnce)).value = none := by
    decide
  rw [hburnt] at hvalue
  cases hvalue

end Sample

end StellarLend.Stablecoin
