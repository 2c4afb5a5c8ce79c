import StellarLend.Lending.Paths

/-!
# Lending/Settings — who may change the protocol settings

The settings are what the operations read before they act: limits, pause flags, oracle, rate
parameters, fees.  A call that runs operations on positions leaves them alone (`Frame.settings`),
and most setters ask for the stored admin, in the entry point or in the module behind it.  Five ask
for nobody, each of the two places leaving the check to the other.  `settings_guarded_iff` says that
these five are all that stands between the settings and the admin's signature.
-/

namespace StellarLend.Lending

open Foundations Call

variable {e : Env} {s t s' : Storage}

/-! ## The settings -/

/-- The settings in force. -/
structure ProtocolSettings where
  debtCeiling : ℤ
  minBorrowAmount : ℤ
  depositCap : ℤ
  minDepositAmount : ℤ
  minWithdrawAmount : ℤ
  paused : PauseType → Bool
  withdrawPaused : Bool
  oracle : Option Address
  liquidationThresholdBps : ℤ
  interestRate : InterestRateConfig
  stableRatePremiumBps : ℤ
  stableRateRecalcIntervalSecs : ℕ
  rateSwitchFeeBps : ℤ
  stablecoinConfig : Address → Option StablecoinConfig
  flashLoanFeeBps : ℤ

/-- The settings as the operations read them, defaults included. -/
def settings (e : Env) (s : Storage) : ProtocolSettings where
  debtCeiling := getDebtCeiling s
  minBorrowAmount := getMinBorrowAmount s
  depositCap := getDepositCap s
  minDepositAmount := getMinDepositAmount s
  minWithdrawAmount := getMinWithdrawAmount s
  paused k := (s.pauseState k).getD false
  withdrawPaused := isWithdrawPaused s
  oracle := getOracle s
  liquidationThresholdBps := getLiquidationThresholdBps s
  interestRate := getConfig e s
  stableRatePremiumBps := getStableRatePremiumBps s
  stableRateRecalcIntervalSecs := getStableRateRecalcIntervalSecs s
  rateSwitchFeeBps := getRateSwitchFeeBps s
  stablecoinConfig := getStablecoinConfig s
  flashLoanFeeBps := s.flashLoanFeeBps.getD 9

/-- The stored admin, if there is one, signed the call. -/
def AdminSigned (s : Storage) (tx : Tx) : Prop :=
  ∀ admin, getAdmin s = some admin → admin ∈ tx.env.auths

/-- If the call is one of the setters that ask for nobody, then it restates what is in force or the
stored admin signed it. -/
def SettersSigned (s : Storage) (tx : Tx) : Prop :=
  match tx.op with
  | .initializeDepositSettings cap minDeposit =>
    getDepositCap s = cap ∧ getMinDepositAmount s = minDeposit ∨ AdminSigned s tx
  | .setDepositPaused paused => (s.pauseState .deposit).getD false = paused ∨ AdminSigned s tx
  | .initializeWithdrawSettings minWithdraw =>
    getMinWithdrawAmount s = minWithdraw ∧ isWithdrawPaused s = false ∨ AdminSigned s tx
  | .setWithdrawPaused paused => isWithdrawPaused s = paused ∨ AdminSigned s tx
  | .initializeBorrowSettings ceiling minBorrow =>
    getDebtCeiling s = ceiling ∧ getMinBorrowAmount s = minBorrow ∨ AdminSigned s tx
  | _ => True

/-! ## What leaves the settings alone -/

theorem Frame.settings (h : Frame s t) : settings e t = settings e s := by
  rw [Frame] at h
  rw [h]
  rfl

theorem RefreshesRate.settings (h : RefreshesRate s t) :
    Lending.settings e t = Lending.settings e s := by
  obtain ⟨_, rfl⟩ := h.store
  rfl

/-- **Acts leave the settings alone.** -/
theorem chain_settings {acts : List Act} (h : chain (actStep e) s acts = some t) :
    settings e t = settings e s := by
  rw [← run_of_chain h]
  exact run_invariant (I := fun u => settings e u = settings e s)
    (fun _ _ _ ha hs => (actStep_frame ha).settings.trans hs) acts rfl

/-! ## The setters that ask for nobody -/

/-- Where a value is optional, restating it is no change. -/
theorem getD_update {α β : Type} [DecidableEq α] {f : α → Option β} {a : α} {b d : β}
    (h : (f a).getD d = b) : (fun x => (Function.update f a (some b) x).getD d) =
      fun x => (f x).getD d := by
  funext x
  by_cases hx : x = a
  · subst hx
    rw [Function.update_self, Option.getD_some, h]
  · rw [Function.update_of_ne hx]

/-- What the borrow settings come to after they are initialised: the two limits, and the rate
parameters as they were read before. -/
theorem initializeBorrowSettings_ok {ε : Type} {ceiling minBorrow : ℤ} {r : Unit}
    (h : (Borrow.initializeBorrowSettings ceiling minBorrow : Invocation ε Unit) e s = .ok r s') :
    settings e s' =
      { settings e s with debtCeiling := ceiling, minBorrowAmount := minBorrow } := by
  obtain rfl := initializeBorrowSettings_store.mp h
  rfl

/-! ## Every call -/

/-- A setter that asked for the admin was signed by the admin. -/
theorem requireAdmin_signed {op : Op} {admin : Address} {r : Unit}
    (h : requireAdmin admin e s = .ok r t) : AdminSigned s ⟨e, op⟩ := by
  obtain ⟨hadmin, hauth, -⟩ := requireAdmin_ok.mp h
  intro a ha
  rw [hadmin] at ha
  cases ha
  exact hauth

/-- **A call keeps the settings or the admin signed it**, if the open setters are signed. -/
theorem settings_step {tx : Tx} (h : step tx s = some s') (hC : SettersSigned s tx) :
    AdminSigned s tx ∨ settings tx.env s' = settings tx.env s := by
  have hviews : tx.op.Views → settings tx.env s' = settings tx.env s := fun hv =>
    (step_views h hv).settings
  rcases hd : tx.op.direct with _ | a
  · obtain ⟨e, op⟩ := tx
    cases op <;> simp only [Op.direct, reduceCtorEq] at hd <;>
      simp only [step, Op.apply, commit_eq_some] at h <;> obtain ⟨r, h⟩ := h
    case initializeProtocol =>
      refine .inl fun admin hadmin => ?_
      rw [(initializeProtocol_ok h).1] at hadmin
      cases hadmin
    case setDelegationRegistry | setPause | setOracle | setLiquidationThresholdBps
      | setStablecoinConfig =>
      obtain ⟨_, _, hadmin, -⟩ := bind_ok.mp h
      exact .inl (requireAdmin_signed hadmin)
    case recoverBadDebt =>
      obtain ⟨_, _, hadmin, -⟩ := bind_ok.mp h
      exact .inl (requireAdmin_signed hadmin)
    case updateInterestRateModel => exact .inl (updateInterestRateModel_ok h).signed
    case setVariableBorrowRateBps => exact .inl (setVariableBorrowRateBps_ok h).signed
    case setFlashLoanFeeBps =>
      obtain ⟨⟨admin, hadmin, hauth⟩, -⟩ := setFlashLoanFeeBps_ok h
      refine .inl fun a ha => ?_
      rw [hadmin] at ha
      cases ha
      exact hauth
    case setRiskAlertThresholds =>
      obtain rfl := setRiskAlertThresholds_ok h
      exact .inr rfl
    case initializeDepositSettings =>
      obtain rfl := store_ok.mp h
      rcases hC with ⟨rfl, rfl⟩ | hsigned
      · exact .inr rfl
      · exact .inl hsigned
    case initializeWithdrawSettings =>
      obtain rfl := store_ok.mp h
      refine hC.symm.imp_right fun hsame => ?_
      simp only [settings, ← hsame.1, hsame.2]
      rfl
    case setWithdrawPaused =>
      obtain rfl := store_ok.mp h
      rcases hC with rfl | hsigned
      · exact .inr rfl
      · exact .inl hsigned
    case setDepositPaused =>
      simp only [LendingContract.setDepositPaused, Pause.setPause, store_ok] at h
      subst h
      refine hC.symm.imp_right fun hsame => ?_
      simp only [settings, getD_update hsame]
      rfl
    case initializeBorrowSettings =>
      refine hC.symm.imp_right fun hsame => ?_
      rw [initializeBorrowSettings_ok h, ← hsame.1, ← hsame.2]
      rfl
    case executeDelegated => exact .inr ((chain_settings (executeDelegated_ok h).store).trans rfl)
    case receive =>
      obtain ⟨a, -, ha⟩ := receive_ok h
      exact .inr (actStep_frame ha).settings
    case executeBorrowCommitment =>
      obtain ⟨c, t, -, -, -, ha, rfl⟩ := (executeBorrowCommitment_ok h).store
      exact .inr (actStep_frame ha).settings
    case createBorrowCommitment =>
      obtain ⟨c, -, -, rfl⟩ := (createBorrowCommitment_ok h).store
      exact .inr rfl
    case cancelBorrowCommitment =>
      obtain ⟨c, -, rfl⟩ := cancelBorrowCommitment_ok h
      exact .inr rfl
    case addBadDebt =>
      rw [addBadDebt_ok h]
      exact .inr rfl
    case liquidate =>
      obtain ⟨dv, _, u, -, -, -, hu, ⟨-, rfl⟩ | ⟨-, rfl⟩⟩ := (liquidate_ok h).store
      · exact .inr hu.settings
      · exact .inr hu.settings
    case flashLoan =>
      obtain rfl := flashLoan_ok h
      exact .inr rfl
    case getUserDebt | getUserDebtWithRate | getDebtBalance | getDebtValue | getHealthFactor
      | getUserPosition => exact .inr (hviews trivial)
  · exact .inr (actStep_frame (step_direct h hd).2.2).settings

/-- An open setter that keeps the settings restates what is in force. -/
theorem settersSigned_of_keeps {tx : Tx} (h : step tx s = some s')
    (hkeeps : ¬ AdminSigned s tx → settings tx.env s' = settings tx.env s) :
    SettersSigned s tx := by
  by_cases hsigned : AdminSigned s tx
  · unfold SettersSigned
    split <;> first | exact .inr hsigned | trivial
  · have hsame := hkeeps hsigned
    obtain ⟨e, op⟩ := tx
    cases op <;> first | trivial | skip
    all_goals
      simp only [step, Op.apply, commit_eq_some] at h
      obtain ⟨r, h⟩ := h
    case initializeDepositSettings =>
      obtain rfl := store_ok.mp h
      exact .inl ⟨(congrArg ProtocolSettings.depositCap hsame).symm,
        (congrArg ProtocolSettings.minDepositAmount hsame).symm⟩
    case initializeWithdrawSettings =>
      obtain rfl := store_ok.mp h
      exact .inl ⟨(congrArg ProtocolSettings.minWithdrawAmount hsame).symm,
        (congrArg ProtocolSettings.withdrawPaused hsame).symm⟩
    case setWithdrawPaused =>
      obtain rfl := store_ok.mp h
      exact .inl (congrArg ProtocolSettings.withdrawPaused hsame).symm
    case setDepositPaused =>
      simp only [LendingContract.setDepositPaused, Pause.setPause, store_ok] at h
      subst h
      have hflag := congrFun (congrArg ProtocolSettings.paused hsame) .deposit
      simp only [settings, Function.update_self, Option.getD_some] at hflag
      exact .inl hflag.symm
    case initializeBorrowSettings =>
      rw [initializeBorrowSettings_ok h] at hsame
      exact .inl ⟨(congrArg ProtocolSettings.debtCeiling hsame).symm,
        (congrArg ProtocolSettings.minBorrowAmount hsame).symm⟩

/-- **Every change of the settings after the deployment is signed by the stored admin exactly when
every call of the five open setters restates what is in force or is signed by the stored admin.** -/
theorem settings_guarded_iff {txs : List Tx} :
    (∀ ys tx zs s' admin, txs = ys ++ tx :: zs → getAdmin (ledger ys) = some admin →
      step tx (ledger ys) = some s' → settings tx.env s' ≠ settings tx.env (ledger ys) →
        admin ∈ tx.env.auths) ↔
      Meets step SettersSigned Storage.empty txs := by
  rw [meets_iff]
  constructor
  · intro hall ys tx zs s' htxs hstep
    refine settersSigned_of_keeps hstep fun hunsigned => ?_
    by_contra hne
    exact hunsigned fun admin hadmin => hall ys tx zs s' admin htxs hadmin hstep hne
  · intro hmeets ys tx zs s' admin htxs hadmin hstep hne
    obtain hsigned | hsame := settings_step hstep (hmeets ys tx zs s' htxs hstep)
    · exact hsigned admin hadmin
    · exact absurd hsame hne

namespace Sample

/-- Bob sets the limits of the borrow module. -/
def bobsLimits : Tx := ⟨envAt 5 [bob], .initializeBorrowSettings 0 1000⟩

end Sample

/-- Bob's signature is enough to bring the debt ceiling down to nothing. -/
theorem unsigned_limits_change :
    ¬ ∀ ys tx zs s' admin, [Sample.deploy, Sample.bobsLimits] = ys ++ tx :: zs →
      getAdmin (ledger ys) = some admin → step tx (ledger ys) = some s' →
        settings tx.env s' ≠ settings tx.env (ledger ys) → admin ∈ tx.env.auths := by
  intro hall
  have hrun : ((step Sample.bobsLimits (ledger [Sample.deploy])).map fun s' =>
      (getDebtCeiling (ledger [Sample.deploy]), getDebtCeiling s')) = some (1000000, 0) := by
    decide
  obtain ⟨s', hstep, hs'⟩ := Option.map_eq_some_iff.mp hrun
  obtain ⟨hbefore, hafter⟩ := Prod.mk.inj hs'
  refine absurd (hall [Sample.deploy] Sample.bobsLimits [] s' Sample.admin rfl (by decide)
    hstep fun hsame => ?_) (by decide)
  have hceiling := congrArg ProtocolSettings.debtCeiling hsame
  change getDebtCeiling s' = getDebtCeiling (ledger [Sample.deploy]) at hceiling
  rw [hbefore, hafter] at hceiling
  cases hceiling

end StellarLend.Lending
