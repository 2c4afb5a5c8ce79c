import StellarLend.Stablecoin.Contract

/-!
# Stablecoin/Effects — what each call does to the books, and the counter no mint moves

Each effect is read off a successful invocation once; what is proved of runs cites the effects and
never opens an entry point again.

A mint compares the user's counter of stablecoins with what the user's collateral admits, and leaves
the counter at what it was.  A redemption is refused above the counter.  So the counter is zero
forever: the limit holds for each mint alone and for no two of them, and nothing is ever redeemed.
-/

namespace StellarLend.Stablecoin

open Foundations Call
open Lending (Address)

variable {e : Env} {s s' : Storage} {user : Address} {amount out : ℤ}

@[simp] theorem requireInit_ok {u : Unit} :
    requireInit e s = .ok u s' ↔ s.admin ≠ none ∧ s = s' := by
  simp [requireInit, and_comm]

@[simp ↓] theorem requireInit_seq {β : Type} {b : β} {k : Unit → Invocation β} :
    (requireInit >>= k) e s = .ok b s' ↔ s.admin ≠ none ∧ k () e s = .ok b s' :=
  check_seq fun _ _ => requireInit_ok

@[simp] theorem requireAdmin_ok {caller : Address} {u : Unit} :
    requireAdmin caller e s = .ok u s' ↔ s.admin = some caller ∧ s = s' := by
  constructor
  · simp only [requireAdmin, bind_ok, requireInit_ok, view_ok, orTrap_ok, failIf_ok, not_not]
    rintro ⟨_, _, ⟨-, rfl⟩, _, _, ⟨rfl, rfl⟩, admin, _, ⟨hadmin, rfl⟩, rfl, rfl⟩
    exact ⟨hadmin, rfl⟩
  · rintro ⟨hadmin, rfl⟩
    simp [requireAdmin, hadmin]

@[simp ↓] theorem requireAdmin_seq {caller : Address}
    {β : Type} {b : β} {k : Unit → Invocation β} :
    (requireAdmin caller >>= k) e s = .ok b s' ↔ s.admin = some caller ∧ k () e s = .ok b s' :=
  check_seq fun _ _ => requireAdmin_ok

@[simp] theorem reserveRatioBps_ok {rr : ℤ} :
    reserveRatioBps e s = .ok rr s' ↔
      s.admin ≠ none ∧ s.reserveRatioBps.getD BPS = rr ∧ s = s' := by
  simp [reserveRatioBps, and_assoc]

/-- The users' counters and the ratio are the same. -/
structure SameBooks (s s' : Storage) : Prop where
  collateral : s'.userCollateral = s.userCollateral
  minted : s'.userMinted = s.userMinted
  total : s'.totalCollateral = s.totalCollateral
  ratio : s'.reserveRatioBps = s.reserveRatioBps

theorem SameBooks.trans {t : Storage} (h : SameBooks s t) (h' : SameBooks t s') :
    SameBooks s s' where
  collateral := h'.collateral.trans h.collateral
  minted := h'.minted.trans h.minted
  total := h'.total.trans h.total
  ratio := h'.ratio.trans h.ratio

theorem stablecoinToken_ok {token : Address} (h : stablecoinToken e s = .ok token s') : s = s' := by
  simp only [stablecoinToken, requireInit_seq, view_seq, okOr_ok] at h
  obtain ⟨_, _, ⟨-, rfl⟩, _, _, ⟨-, rfl⟩, -, rfl⟩ := h
  rfl

theorem collateralToken_ok {token : Address} (h : collateralToken e s = .ok token s') : s = s' := by
  simp only [collateralToken, requireInit_seq, view_seq, okOr_ok] at h
  obtain ⟨_, _, ⟨-, rfl⟩, _, _, ⟨-, rfl⟩, -, rfl⟩ := h
  rfl

theorem askToken_books {call : TokenCall} {u : Unit} (h : askToken call e s = .ok u s') :
    SameBooks s s' := by
  obtain ⟨-, rfl⟩ := askToken_ok.mp h
  exact ⟨rfl, rfl, rfl, rfl⟩

theorem requireOpen_ok {u : Unit} (h : requireOpen user amount e s = .ok u s') :
    0 < amount ∧ user ∈ e.auths ∧ isShutdown s = false ∧ s = s' := by
  simp only [requireOpen, requireInit_seq, requireAuth_seq, view_seq, failIf_seq, failIf_ok] at h
  obtain ⟨-, hauth, hopen, hpos, rfl⟩ := h
  exact ⟨not_le.mp hpos, hauth, by simpa using hopen, rfl⟩

/-! ## Deposits -/

structure Deposited (s : Storage) (user : Address) (amount : ℤ) (s' : Storage) : Prop where
  positive : 0 < amount
  collateral : getUserCollateral s' =
    Function.update (getUserCollateral s) user (getUserCollateral s user + amount)
  minted : s'.userMinted = s.userMinted
  total : s'.totalCollateral.getD 0 = s.totalCollateral.getD 0 + amount
  ratio : s'.reserveRatioBps = s.reserveRatioBps

/-- One user's counter after it was written. -/
theorem getUserCollateral_set (user : Address) (amount : ℤ) (s : Storage) :
    getUserCollateral (setUserCollateral user amount s) =
      Function.update (getUserCollateral s) user amount := by
  funext u
  change (Function.update s.userCollateral user (some amount) u).getD 0 = _
  rw [Function.update_apply, Function.update_apply]
  split <;> rfl

theorem getUserMinted_set (user : Address) (amount : ℤ) (s : Storage) :
    getUserMinted (setUserMinted user amount s) =
      Function.update (getUserMinted s) user amount := by
  funext u
  change (Function.update s.userMinted user (some amount) u).getD 0 = _
  rw [Function.update_apply, Function.update_apply]
  split <;> rfl

theorem depositCollateral_effect {u : Unit} (h : depositCollateral user amount e s = .ok u s') :
    Deposited s user amount s' := by
  simp only [depositCollateral, addTotalCollateral, bind_ok, ↓asks_seq, ↓view_seq, ↓okOr_seq,
    ↓orTrap_seq, ↓store_seq, store_ok, I128.checkedAdd_eq_some, and_assoc, exists_and_left,
    exists_eq_left', ↓seq_assoc] at h
  obtain ⟨_, _, hopen, _, _, htoken, _, t₄, hasked, -, -, rfl⟩ := h
  obtain ⟨hpos, -, -, rfl⟩ := requireOpen_ok hopen
  obtain rfl := collateralToken_ok htoken
  have hbooks := askToken_books hasked
  have hread : getUserCollateral t₄ = getUserCollateral s := by
    funext u
    rw [getUserCollateral, hbooks.collateral, getUserCollateral]
  refine ⟨hpos, ?_, hbooks.minted, ?_, hbooks.ratio⟩
  · rw [getUserCollateral_set]
    change Function.update (getUserCollateral t₄) user (getUserCollateral t₄ user + amount) = _
    rw [hread]
  · change t₄.totalCollateral.getD 0 + amount = _
    rw [hbooks.total]

/-! ## Mints -/

/-- A mint of the amount `out` against the collateral `amount`.  Nothing of the books changes. -/
structure Minted (s : Storage) (user : Address) (amount out : ℤ) (s' : Storage) : Prop where
  covered : amount ≤ getUserCollateral s user
  minted_eq : out = (amount * s.reserveRatioBps.getD BPS).tdiv BPS
  positive : 0 < out
  within : getUserMinted s user + out ≤
    maxMintable (getUserCollateral s user) (s.reserveRatioBps.getD BPS)
  books : SameBooks s s'

theorem mintFromCollateral_effect (h : mintFromCollateral user amount e s = .ok out s') :
    Minted s user amount out s' := by
  simp only [mintFromCollateral, bind_ok, ↓view_seq, ↓failIf_seq, reserveRatioBps_ok, ↓okOr_seq,
    ↓orTrap_seq, pure_ok, I128.checkedMul_eq_some, I128.checkedAdd_eq_some, not_lt, not_le,
    and_assoc, exists_and_left, exists_eq_left'] at h
  obtain ⟨_, _, hopen, hcovered, -, -, hpositive, -, hwithin, _, _, hstable, _, _, hasked, rfl,
    rfl⟩ := h
  obtain ⟨-, -, -, rfl⟩ := requireOpen_ok hopen
  obtain rfl := stablecoinToken_ok hstable
  exact ⟨hcovered, rfl, hpositive, hwithin, askToken_books hasked⟩

/-! ## Redemptions -/

structure Redeemed (s : Storage) (user : Address) (amount out : ℤ) (s' : Storage) : Prop where
  positive : 0 < amount
  covered : amount ≤ getUserMinted s user
  out_eq : out = (amount * BPS).tdiv (s.reserveRatioBps.getD BPS)
  collateral_covers : out ≤ getUserCollateral s user
  collateral : getUserCollateral s' =
    Function.update (getUserCollateral s) user (getUserCollateral s user - out)
  minted : getUserMinted s' =
    Function.update (getUserMinted s) user (getUserMinted s user - amount)
  total : s'.totalCollateral.getD 0 = s.totalCollateral.getD 0 - out
  ratio : s'.reserveRatioBps = s.reserveRatioBps

theorem burnAndRedeem_effect (h : burnAndRedeem user amount e s = .ok out s') :
    Redeemed s user amount out s' := by
  simp only [burnAndRedeem, subTotalCollateral, bind_ok, ↓view_seq, ↓asks_seq, ↓failIf_seq,
    reserveRatioBps_ok, ↓okOr_seq, ↓orTrap_seq, ↓store_seq, pure_ok, I128.checkedMul_eq_some,
    I128.checkedDiv_eq_some, I128.checkedSub_eq_some, not_lt, and_assoc, exists_and_left,
    exists_eq_left', ↓seq_assoc] at h
  obtain ⟨_, _, hopen, hcovered, -, -, -, -, hcollateral, -, -, -, -, _, _, hstable, _, _, hburnt,
    _, _, htoken, _, _, hmoved, rfl, rfl⟩ := h
  obtain ⟨hpos, -, -, rfl⟩ := requireOpen_ok hopen
  obtain rfl := stablecoinToken_ok hstable
  obtain rfl := collateralToken_ok htoken
  have hbooks := (askToken_books hburnt).trans (askToken_books hmoved)
  refine ⟨hpos, hcovered, rfl, hcollateral, ?_, ?_, ?_, hbooks.ratio⟩
  · rw [← getUserCollateral_set]
    funext u
    rw [getUserCollateral, hbooks.collateral]
    rfl
  · rw [← getUserMinted_set]
    funext u
    rw [getUserMinted, hbooks.minted]
    rfl
  · rw [hbooks.total]
    rfl

/-! ## Administration -/

/-- The ratio, within its bounds, may change; the users' counters do not. -/
structure Administered (s s' : Storage) : Prop where
  collateral : s'.userCollateral = s.userCollateral
  minted : s'.userMinted = s.userMinted
  ratio : s'.reserveRatioBps = s.reserveRatioBps ∨
    ∃ rr, s'.reserveRatioBps = some rr ∧ 0 ≤ rr ∧ rr ≤ BPS

/-- What a transaction does to the books. -/
def Op.Effect (s : Storage) (s' : Storage) : Op → Prop
  | .depositCollateral user amount => Deposited s user amount s'
  | .mintFromCollateral user amount => ∃ out, Minted s user amount out s'
  | .burnAndRedeem user amount => ∃ out, Redeemed s user amount out s'
  | _ => Administered s s'

theorem step_effect {tx : Tx} (h : step tx s = some s') : tx.op.Effect s s' := by
  obtain ⟨e, op⟩ := tx
  cases op <;> simp only [step, commit_eq_some] at h <;> obtain ⟨a, h⟩ := h
  case depositCollateral => exact depositCollateral_effect h
  case mintFromCollateral => exact ⟨a, mintFromCollateral_effect h⟩
  case burnAndRedeem => exact ⟨a, burnAndRedeem_effect h⟩
  case initializeContract =>
    simp only [initializeContract, bind_ok, view_ok, failIf_ok, requireAuth_ok, store_ok, not_not]
      at h
    obtain ⟨_, _, ⟨rfl, rfl⟩, _, _, ⟨-, rfl⟩, _, _, ⟨-, rfl⟩, _, _, ⟨hrange, rfl⟩, rfl⟩ := h
    exact ⟨rfl, rfl, .inr ⟨_, rfl, hrange⟩⟩
  case setShutdown =>
    simp only [setShutdown, requireAuth_seq, requireAdmin_seq, store_ok] at h
    obtain ⟨-, -, rfl⟩ := h
    exact ⟨rfl, rfl, .inl rfl⟩
  case setReserveRatio =>
    simp only [setReserveRatio, requireAuth_seq, requireAdmin_seq, failIf_seq, store_ok, not_not]
      at h
    obtain ⟨-, -, hrange, rfl⟩ := h
    exact ⟨rfl, rfl, .inr ⟨_, rfl, hrange⟩⟩

/-! ## What the books should say -/

/-- The reserve ratio in force. -/
def ratioOf (s : Storage) : ℤ := s.reserveRatioBps.getD BPS

/-- What a transaction adds to the stablecoins a user has out: what it mints to the user, less what
the user burns. -/
def issued (user : Address) (s : Storage) (tx : Tx) : ℤ :=
  match tx.op with
  | .mintFromCollateral u amount =>
    if u = user then (mintFromCollateral u amount tx.env s).value.getD 0 else 0
  | .burnAndRedeem u amount => if u = user then -amount else 0
  | _ => 0

/-- The stablecoins minted to a user along a run and not burned by the user since. -/
def outstanding (user : Address) (txs : List Tx) : ℤ := tally step (issued user) Storage.empty txs

/-- Every user's counter says what the user has out, and the user's collateral admits it. -/
structure Backed (txs : List Tx) : Prop where
  counted : ∀ user, getUserMinted (ledger txs) user = outstanding user txs
  admitted : ∀ user, outstanding user txs ≤
    getUserCollateral (ledger txs) user * ratioOf (ledger txs) / BPS

/-- The transaction is no mint. -/
def NoMint (_ : Storage) (tx : Tx) : Prop := ∀ user amount, tx.op ≠ .mintFromCollateral user amount

/-! ## What the books do say -/

/-- No counter of stablecoins has moved, and neither collateral nor ratio is negative. -/
structure Unmoved (s : Storage) : Prop where
  minted : ∀ user, getUserMinted s user = 0
  collateral : ∀ user, 0 ≤ getUserCollateral s user
  ratio : 0 ≤ ratioOf s

theorem Unmoved.empty : Unmoved Storage.empty := by
  refine ⟨fun _ => rfl, fun _ => le_rfl, ?_⟩
  decide

/-- **A redemption needs a counter that moved.** -/
theorem Redeemed.not_unmoved (h : Redeemed s user amount out s') : ¬ Unmoved s := by
  intro hs
  have hcovered := h.covered
  rw [hs.minted user] at hcovered
  exact absurd h.positive (not_lt.mpr hcovered)

theorem Unmoved.deposited (hs : Unmoved s) (h : Deposited s user amount s') : Unmoved s' := by
  refine ⟨fun u => ?_, fun u => ?_, ?_⟩
  · rw [getUserMinted, h.minted]
    exact hs.minted u
  · rw [h.collateral, Function.update_apply]
    split
    · exact add_nonneg (hs.collateral user) h.positive.le
    · exact hs.collateral u
  · rw [ratioOf, h.ratio]
    exact hs.ratio

theorem Unmoved.sameBooks (hs : Unmoved s) (h : SameBooks s s') : Unmoved s' := by
  refine ⟨fun u => ?_, fun u => ?_, ?_⟩
  · rw [getUserMinted, h.minted]
    exact hs.minted u
  · rw [getUserCollateral, h.collateral]
    exact hs.collateral u
  · rw [ratioOf, h.ratio]
    exact hs.ratio

theorem Unmoved.administered (hs : Unmoved s) (h : Administered s s') : Unmoved s' := by
  refine ⟨fun u => ?_, fun u => ?_, ?_⟩
  · rw [getUserMinted, h.minted]
    exact hs.minted u
  · rw [getUserCollateral, h.collateral]
    exact hs.collateral u
  · obtain hsame | ⟨rr, hrr, hnonneg, -⟩ := h.ratio
    · rw [ratioOf, hsame]
      exact hs.ratio
    · rw [ratioOf, hrr]
      exact hnonneg

/-- **No step moves a counter.** -/
theorem Unmoved.step {tx : Tx} (hs : Unmoved s) (hstep : step tx s = some s') : Unmoved s' := by
  have heffect := step_effect hstep
  obtain ⟨e, op⟩ := tx
  cases op
  case depositCollateral => exact hs.deposited heffect
  case mintFromCollateral =>
    obtain ⟨out, h⟩ := heffect
    exact hs.sameBooks h.books
  case burnAndRedeem =>
    obtain ⟨out, h⟩ := heffect
    exact absurd hs h.not_unmoved
  all_goals exact hs.administered heffect

theorem unmoved_ledger (txs : List Tx) : Unmoved (ledger txs) :=
  run_invariant (fun _ _ _ hstep hs => hs.step hstep) txs Unmoved.empty

/-! ## Mints are never booked -/

/-- A transaction that is no mint issues nothing, since no redemption succeeds. -/
theorem issued_of_noMint {tx : Tx} (hs : Unmoved s) (hstep : step tx s = some s')
    (h : NoMint s tx) (user : Address) : issued user s tx = 0 := by
  have heffect := step_effect hstep
  obtain ⟨e, op⟩ := tx
  cases op
  case mintFromCollateral u amount => exact absurd rfl (h u amount)
  case burnAndRedeem =>
    obtain ⟨out, h⟩ := heffect
    exact absurd hs h.not_unmoved
  all_goals rfl

/-- A mint that succeeds issues something. -/
theorem issued_of_mint {tx : Tx} (hstep : step tx s = some s')
    (hop : tx.op = .mintFromCollateral user amount) : 0 < issued user s tx := by
  obtain ⟨e, op⟩ := tx
  obtain rfl := hop
  obtain ⟨out, h⟩ := commit_eq_some.mp hstep
  change 0 < if user = user then (mintFromCollateral user amount e s).value.getD 0 else 0
  rw [if_pos rfl, h]
  exact (mintFromCollateral_effect h).positive

/-- In a run without mints nothing is out. -/
theorem outstanding_of_noMint {txs : List Tx} (h : Meets step NoMint Storage.empty txs)
    (user : Address) : outstanding user txs = 0 := by
  have hrun := h.tally_invariant (f := issued user) (I := fun n s => n = 0 ∧ Unmoved s)
    (fun n s tx s' hstep hC hI => ⟨by rw [hI.1, issued_of_noMint hI.2 hstep hC, add_zero],
      hI.2.step hstep⟩) (m := 0) ⟨rfl, Unmoved.empty⟩
  rw [zero_add] at hrun
  exact hrun.1

/-- **The stablecoins are counted and backed in every state of a run if and only if no mint of the
run succeeds.** -/
theorem backed_iff (txs : List Tx) :
    (∀ ys, ys <+: txs → Backed ys) ↔ Meets step NoMint Storage.empty txs := by
  constructor
  · intro h
    refine meets_iff.mpr fun ys tx zs s' htxs hstep user amount hop => ?_
    have hbefore := (h ys ⟨tx :: zs, htxs.symm⟩).counted user
    have hafter := (h (ys ++ [tx]) ⟨zs, by rw [htxs, List.append_assoc]; rfl⟩).counted user
    have hissued : outstanding user (ys ++ [tx]) =
        outstanding user ys + issued user (ledger ys) tx := by
      rw [outstanding, tally_append, tally_cons, tally_nil, add_zero, if_pos (by rw [hstep]; rfl)]
      rfl
    rw [(unmoved_ledger _).minted] at hbefore hafter
    rw [← hbefore, zero_add] at hissued
    exact (issued_of_mint hstep hop).ne (hafter.trans hissued)
  · rintro h ys ⟨zs, rfl⟩
    have hzero := outstanding_of_noMint (meets_append.mp h).1
    have hs := unmoved_ledger ys
    refine ⟨fun user => ?_, fun user => ?_⟩
    · rw [hs.minted, hzero]
    · rw [hzero]
      exact Int.ediv_nonneg (mul_nonneg (hs.collateral user) hs.ratio) (by decide)

/-! ## A run with a mint -/

/-- The ratio a transaction asks for, if it asks for one. -/
def Op.ratio : Op → Option ℤ
  | .initializeContract _ _ _ config => some config.reserveRatioBps
  | .setReserveRatio _ rr => some rr
  | _ => none

namespace Sample

def admin : Address := ⟨0⟩
def alice : Address := ⟨1⟩
def usd : Address := ⟨10⟩
def gold : Address := ⟨11⟩
def contract : Address := ⟨100⟩

def envFor (signer : Address) : Env := ⟨contract, [signer], fun _ _ => true⟩

/-- Alice deposits 1000 under a ratio of one half and mints twice what one deposit admits. -/
def mintTwice : List Tx :=
  [⟨envFor admin, .initializeContract admin usd gold ⟨5000⟩⟩,
    ⟨envFor alice, .depositCollateral alice 1000⟩,
    ⟨envFor alice, .mintFromCollateral alice 1000⟩,
    ⟨envFor alice, .mintFromCollateral alice 1000⟩]

end Sample

/-- 1000 stablecoins are out against collateral that admits 500, and the counter says 0. -/
theorem unbacked_mintTwice :
    ¬ ∀ rr txs, 0 < rr → rr ≤ BPS → (∀ tx ∈ txs, ∀ r, tx.op.ratio = some r → r = rr) →
      Backed txs := by
  intro hall
  have hfixed : ∀ tx ∈ Sample.mintTwice, ∀ r, tx.op.ratio = some r → r = 5000 := by
    intro tx htx r
    simp only [Sample.mintTwice, List.mem_cons, List.not_mem_nil, or_false] at htx
    obtain rfl | rfl | rfl | rfl := htx <;> rintro ⟨⟩
    rfl
  have hbacked := hall 5000 Sample.mintTwice (by decide) (by decide) hfixed
  have hout : outstanding Sample.alice Sample.mintTwice = 1000 := by decide
  have hadmits : getUserCollateral (ledger Sample.mintTwice) Sample.alice *
      ratioOf (ledger Sample.mintTwice) / BPS = 500 := by decide
  have hle := hbacked.admitted Sample.alice
  rw [hout, hadmits] at hle
  exact absurd hle (by decide)

end StellarLend.Stablecoin
