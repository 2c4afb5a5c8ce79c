import StellarLend.Foundations.Pacing
import StellarLend.Foundations.Run
import StellarLend.HelloWorld.Contract

/-!
# HelloWorld/RiskSteering — risk parameters stay in bounds, and which of them can still move

A call moves any of the four parameters by at most a tenth of its value, and the outcome has to be
in bounds, with a collateral ratio at or above the threshold of liquidation.

    min_collateral_ratio    10000 … 50000    from 11000
    liquidation_threshold   10000 … 50000    from 10500
    close_factor                0 … 10000    from  5000
    liquidation_incentive       0 …  5000    from  1000

The first two are far above the value whose tenth rounds down to nothing.  The other two may be
brought below it, by steps that are all allowed, and are stuck there: the configuration the contract
started from is out of reach for good.
-/

namespace StellarLend.HelloWorld

open Foundations Call Relation

variable {e : Env} {s t : Storage} {config : RiskParams}

/-! ## Bounds -/

theorem RiskParams.valid_mk {m l c i : ℤ} {now : ℕ} : (⟨m, l, c, i, now⟩ : RiskParams).Valid ↔
    (10000 ≤ m ∧ m ≤ 50000) ∧ (10000 ≤ l ∧ l ≤ 50000) ∧ l ≤ m ∧ (0 ≤ c ∧ c ≤ 10000) ∧
      0 ≤ i ∧ i ≤ 5000 :=
  ⟨fun ⟨h1, h2, h3, h4, h5⟩ => ⟨h1, h2, h3, h4, h5⟩,
    fun ⟨h1, h2, h3, h4, h5⟩ => ⟨h1, h2, h3, h4, h5⟩⟩

/-- The values any parameter can have. -/
def Steerable (value : ℤ) : Prop := 0 ≤ value ∧ value ≤ 50000

theorem RiskParams.Valid.steerable (h : config.Valid) :
    Steerable config.minCollateralRatio ∧ Steerable config.liquidationThreshold ∧
      Steerable config.closeFactor ∧ Steerable config.liquidationIncentive := by
  obtain ⟨m, l, c, i, now⟩ := config
  have hbounds := RiskParams.valid_mk.mp h
  simp only [Steerable]
  omega

/-! ## One call -/

/-- The arguments of a call. -/
structure RiskArgs where
  minCollateralRatio : Option ℤ
  liquidationThreshold : Option ℤ
  closeFactor : Option ℤ
  liquidationIncentive : Option ℤ
  deriving DecidableEq

def RiskArgs.set (args : RiskArgs) : Invocation RiskParamsError Unit :=
  setRiskParams args.minCollateralRatio args.liquidationThreshold args.closeFactor
    args.liquidationIncentive

/-- The configuration with the parameters a call gives. -/
def RiskArgs.onto (args : RiskArgs) (config : RiskParams) (now : ℕ) : RiskParams :=
  ⟨args.minCollateralRatio.getD config.minCollateralRatio,
    args.liquidationThreshold.getD config.liquidationThreshold,
    args.closeFactor.getD config.closeFactor,
    args.liquidationIncentive.getD config.liquidationIncentive, now⟩

/-- No parameter moved by more than a tenth of its value. -/
structure RiskParams.PacedTo (old new : RiskParams) : Prop where
  ratio : Paced 10 old.minCollateralRatio new.minCollateralRatio
  threshold : Paced 10 old.liquidationThreshold new.liquidationThreshold
  closeFactor : Paced 10 old.closeFactor new.closeFactor
  incentive : Paced 10 old.liquidationIncentive new.liquidationIncentive

/-- What the limit is computed from cannot overflow. -/
theorem checkedMul_of_steerable {old : ℤ} (hold : Steerable old) :
    I128.checkedMul old MAX_PARAMETER_CHANGE_BPS = some (old * 1000) := by
  obtain ⟨h0, h1⟩ := hold
  have hholds : I128.Holds (old * MAX_PARAMETER_CHANGE_BPS) :=
    I128.holds_iff.mpr (by norm_num [MAX_PARAMETER_CHANGE_BPS]; omega)
  exact I128.checkedMul_eq_some.mpr ⟨hholds, rfl⟩

theorem checkedSub_eq_abs (old new : ℤ) :
    (if old < new then I128.checkedSub new old else I128.checkedSub old new) =
      I128.check |new - old| := by
  split
  next h => rw [abs_of_pos (sub_pos.mpr h), I128.checkedSub]
  next h => rw [abs_sub_comm, abs_of_nonneg (sub_nonneg.mpr (not_lt.mp h)), I128.checkedSub]

theorem holds_of_paced {old new : ℤ} (h : Paced 10 old new) (hold : Steerable old) :
    I128.Holds |new - old| := by
  have hpos := abs_nonneg (new - old)
  unfold Paced at h
  unfold Steerable at hold
  exact I128.holds_iff.mpr ⟨by omega, by omega⟩

/-- **A change passes exactly if it is paced.** -/
theorem validateParameterChange_ok {old new : ℤ} {u : Unit} (hold : Steerable old) :
    validateParameterChange old new e s = .ok u t ↔ Paced 10 old new ∧ s = t := by
  have hlimit : (old * 1000).tdiv BASIS_POINTS_SCALE < |new - old| ↔ ¬ Paced 10 old new := by
    rw [Paced, BASIS_POINTS_SCALE, Int.tdiv_eq_ediv_of_nonneg (by unfold Steerable at hold; omega)]
    omega
  simp only [validateParameterChange, checkedSub_eq_abs, checkedMul_of_steerable hold, orTrap_seq,
    Range.check_eq_some, failIf_ok, and_assoc, exists_and_left, exists_eq_left', Option.some.injEq,
    hlimit, not_not]
  exact and_iff_right_of_imp fun h => holds_of_paced h.1 hold

theorem changeParameter_ok {old value : ℤ} {new : Option ℤ} (hold : Steerable old) :
    changeParameter old new e s = .ok value t ↔
      new.getD old = value ∧ Paced 10 old value ∧ s = t := by
  cases new with
  | none =>
    simp only [changeParameter, pure_ok, Option.getD_none]
    constructor
    · rintro ⟨rfl, rfl⟩
      exact ⟨rfl, paced_refl 10 hold.1, rfl⟩
    · rintro ⟨hv, -, ht⟩
      exact ⟨hv, ht⟩
  | some new =>
    simp only [changeParameter, bind_ok, pure_ok, validateParameterChange_ok hold,
      Option.getD_some]
    constructor
    · rintro ⟨_, _, ⟨hpaced, rfl⟩, rfl, rfl⟩
      exact ⟨rfl, hpaced, rfl⟩
    · rintro ⟨rfl, hpaced, rfl⟩
      exact ⟨(), s, ⟨hpaced, rfl⟩, rfl, rfl⟩

/-- The time of the last update is no part of what is checked. -/
theorem RiskParams.Valid.at_time (h : config.Valid) (now : ℕ) :
    ({ config with lastUpdate := now } : RiskParams).Valid :=
  ⟨h.ratio, h.threshold, h.ordered, h.closeFactor, h.incentive⟩

/-- **A call succeeds exactly if what it leads to is valid and a paced step away.** -/
theorem set_ok (args : RiskArgs) {u : Unit} (hconfig : getRiskParams s = some config)
    (hvalid : config.Valid) :
    args.set e s = .ok u t ↔
      config.PacedTo (args.onto config e.timestamp) ∧ (args.onto config e.timestamp).Valid ∧
        withRiskParams (args.onto config e.timestamp) s = t := by
  obtain ⟨hmcr, hlt, hcf, hli⟩ := hvalid.steerable
  simp only [RiskArgs.set, setRiskParams, bind_ok, view_ok, ↓okOr_seq, and_assoc, exists_and_left,
    exists_eq_left', hconfig, Option.some.injEq, changeParameter_ok
    hmcr, changeParameter_ok hlt, changeParameter_ok hcf, changeParameter_ok hli, ↓ofExcept_seq,
    ↓asks_seq, store_ok, validateRiskParams_ok, exists_const]
  constructor
  · rintro ⟨h1, h2, h3, h4, hnew, ht⟩
    exact ⟨⟨h1, h2, h3, h4⟩, hnew.at_time e.timestamp, ht⟩
  · rintro ⟨⟨h1, h2, h3, h4⟩, hnew, ht⟩
    exact ⟨h1, h2, h3, h4, hnew.at_time config.lastUpdate, ht⟩

/-- A change is looked at, and nothing is written. -/
theorem changeParameter_reads {old : ℤ} {new : Option ℤ} :
    (∀ value, changeParameter old new e s = .ok value t → s = t) ∧
      ∀ err, changeParameter old new e s = .err err t → s = t := by
  cases new with
  | none => exact ⟨fun _ h => (pure_ok.mp h).2, fun _ h => absurd h pure_err⟩
  | some new =>
    simp only [changeParameter, validateParameterChange, bind_err, bind_ok, orTrap_err, orTrap_ok,
      failIf_err, failIf_ok, pure_ok, pure_err, false_or, or_false, and_false, exists_false]
    constructor
    · rintro _ ⟨_, _, ⟨_, _, ⟨_, rfl⟩, _, _, ⟨_, rfl⟩, _, rfl⟩, _, rfl⟩
      rfl
    · rintro _ ⟨_, _, ⟨_, rfl⟩, _, _, ⟨_, rfl⟩, _, _, rfl⟩
      rfl

/-- **A call that fails has written nothing.** -/
theorem set_err (args : RiskArgs) {err : RiskParamsError} (h : args.set e s = .err err t) :
    s = t := by
  simp only [RiskArgs.set, setRiskParams, bind_err, view_err, view_ok, okOr_err, okOr_ok,
    ofExcept_err, ofExcept_ok, asks_err, asks_ok, store_err, false_or, or_false, and_false,
    exists_false] at h
  obtain ⟨_, _, ⟨_, rfl⟩, ⟨_, _, rfl⟩ | ⟨_, _, ⟨_, rfl⟩, h⟩⟩ := h
  · rfl
  rcases h with h | ⟨_, _, hmcr, h⟩
  · exact changeParameter_reads.2 _ h
  obtain rfl := changeParameter_reads.1 _ hmcr
  rcases h with h | ⟨_, _, hlt, h⟩
  · exact changeParameter_reads.2 _ h
  obtain rfl := changeParameter_reads.1 _ hlt
  rcases h with h | ⟨_, _, hcf, h⟩
  · exact changeParameter_reads.2 _ h
  obtain rfl := changeParameter_reads.1 _ hcf
  rcases h with h | ⟨_, _, hli, _, rfl⟩
  · exact changeParameter_reads.2 _ h
  · exact changeParameter_reads.1 _ hli

/-! ## Runs -/

/-- A call, with what the host tells it. -/
structure RiskCall where
  env : Env
  args : RiskArgs

def RiskCall.step (call : RiskCall) (s : Storage) : Option Storage :=
  commit call.args.set call.env s

/-- A valid configuration is stored. -/
def InBounds (s : Storage) : Prop := ∃ config, getRiskParams s = some config ∧ config.Valid

theorem initializeRiskParams_ok {u : Unit} :
    initializeRiskParams e s = .ok u t ↔ withRiskParams (.default e.timestamp) s = t := by
  simp only [initializeRiskParams, asks_seq, ofExcept_seq, store_ok, exists_and_left,
    validateRiskParams_ok, exists_const]
  exact and_iff_right (RiskParams.default_valid e.timestamp)

theorem inBounds_with (config : RiskParams) (s : Storage) (h : config.Valid) :
    InBounds (withRiskParams config s) := ⟨config, rfl, h⟩

theorem RiskCall.step_iff {call : RiskCall} (hconfig : getRiskParams s = some config)
    (hvalid : config.Valid) :
    call.step s = some t ↔
      config.PacedTo (call.args.onto config call.env.timestamp) ∧
        (call.args.onto config call.env.timestamp).Valid ∧
          withRiskParams (call.args.onto config call.env.timestamp) s = t := by
  rw [RiskCall.step, commit_eq_some]
  simp only [set_ok call.args hconfig hvalid, exists_const]

theorem InBounds.step {call : RiskCall} (h : InBounds s) (hstep : call.step s = some t) :
    InBounds t := by
  obtain ⟨config, hconfig, hvalid⟩ := h
  obtain ⟨-, hnew, rfl⟩ := (RiskCall.step_iff hconfig hvalid).mp hstep
  exact inBounds_with _ s hnew

/-! ## The way back -/

/-- A call leads from one configuration to another. -/
def Leads (e : Env) (s : Storage) (old new : RiskParams) : Prop :=
  ∃ args : RiskArgs, RiskCall.step ⟨e, args⟩ (withRiskParams old s) = some (withRiskParams new s)

theorem leads (args : RiskArgs) (hold : config.Valid)
    (hpaced : config.PacedTo (args.onto config e.timestamp))
    (hnew : (args.onto config e.timestamp).Valid) :
    Leads e s config (args.onto config e.timestamp) := by
  refine ⟨args, ?_⟩
  rw [RiskCall.step_iff rfl hold]
  exact ⟨hpaced, hnew, rfl⟩

/-- A way from one configuration to another is a sequence of calls. -/
theorem exists_calls {old new : RiskParams} (h : ReflTransGen (Leads e s) old new) :
    ∃ args : List RiskArgs,
      run RiskCall.step (withRiskParams old s) (args.map (RiskCall.mk e)) =
        withRiskParams new s := by
  induction h with
  | refl => exact ⟨[], rfl⟩
  | tail _ hlast ih =>
    obtain ⟨args, hargs⟩ := ih
    obtain ⟨last, hlast⟩ := hlast
    refine ⟨args ++ [last], ?_⟩
    rw [List.map_append, List.map_singleton, run_snoc, hargs, exec_of_some hlast]

/-- **One parameter walks to any value from ten on**, as long as every value on the way is valid. -/
theorem walk_parameter (f : ℤ → RiskParams) (args : ℤ → RiskArgs)
    (honto : ∀ x y, (args y).onto (f x) e.timestamp = f y)
    (hpaced : ∀ x y, (f x).Valid → Paced 10 x y → (f x).PacedTo (f y)) {a b : ℤ} (ha : 10 ≤ a)
    (hb : 10 ≤ b) (hvalid : ∀ x, min a b ≤ x → x ≤ max a b → (f x).Valid) :
    ReflTransGen (Leads e s) (f a) (f b) := by
  have hstep : ∀ x y, (f x).Valid → (f y).Valid → Paced 10 x y → Leads e s (f x) (f y) := by
    intro x y hx hy hxy
    have hleads := leads (e := e) (s := s) (args y) hx
      (by rw [honto]; exact hpaced x y hx hxy) (by rwa [honto])
    rwa [honto] at hleads
  refine walk (fun x hax hxb => ?_) fun x hbx hxa => ?_
  · exact hstep x (x + 1) (hvalid x (by omega) (by omega)) (hvalid (x + 1) (by omega) (by omega))
      (paced_succ (ha.trans hax))
  · exact hstep x (x - 1) (hvalid x (by omega) (by omega)) (hvalid (x - 1) (by omega) (by omega))
      (paced_pred (by omega))

theorem RiskParams.Valid.paced_refl (h : config.Valid) : config.PacedTo config :=
  ⟨Foundations.paced_refl 10 h.steerable.1.1, Foundations.paced_refl 10 h.steerable.2.1.1,
    Foundations.paced_refl 10 h.steerable.2.2.1.1, Foundations.paced_refl 10 h.steerable.2.2.2.1⟩

section Ways

variable {a b m l c i : ℤ}

theorem way_ratio (ha : (⟨a, l, c, i, e.timestamp⟩ : RiskParams).Valid)
    (hb : (⟨b, l, c, i, e.timestamp⟩ : RiskParams).Valid) :
    ReflTransGen (Leads e s) ⟨a, l, c, i, e.timestamp⟩ ⟨b, l, c, i, e.timestamp⟩ := by
  rw [RiskParams.valid_mk] at ha hb
  exact walk_parameter (fun x => ⟨x, l, c, i, e.timestamp⟩) (fun x => ⟨some x, none, none, none⟩)
    (fun _ _ => rfl) (fun _ _ hx h => { hx.paced_refl with ratio := h }) (by omega) (by omega)
    fun x hlo hhi => RiskParams.valid_mk.mpr (by omega)

theorem way_threshold (ha : (⟨m, a, c, i, e.timestamp⟩ : RiskParams).Valid)
    (hb : (⟨m, b, c, i, e.timestamp⟩ : RiskParams).Valid) :
    ReflTransGen (Leads e s) ⟨m, a, c, i, e.timestamp⟩ ⟨m, b, c, i, e.timestamp⟩ := by
  rw [RiskParams.valid_mk] at ha hb
  exact walk_parameter (fun x => ⟨m, x, c, i, e.timestamp⟩) (fun x => ⟨none, some x, none, none⟩)
    (fun _ _ => rfl) (fun _ _ hx h => { hx.paced_refl with threshold := h }) (by omega) (by omega)
    fun x hlo hhi => RiskParams.valid_mk.mpr (by omega)

theorem way_closeFactor (ha : (⟨m, l, a, i, e.timestamp⟩ : RiskParams).Valid)
    (hb : (⟨m, l, b, i, e.timestamp⟩ : RiskParams).Valid) (h10 : 10 ≤ a) (h10' : 10 ≤ b) :
    ReflTransGen (Leads e s) ⟨m, l, a, i, e.timestamp⟩ ⟨m, l, b, i, e.timestamp⟩ := by
  rw [RiskParams.valid_mk] at ha hb
  exact walk_parameter (fun x => ⟨m, l, x, i, e.timestamp⟩) (fun x => ⟨none, none, some x, none⟩)
    (fun _ _ => rfl) (fun _ _ hx h => { hx.paced_refl with closeFactor := h }) h10 h10'
    fun x hlo hhi => RiskParams.valid_mk.mpr (by omega)

theorem way_incentive (ha : (⟨m, l, c, a, e.timestamp⟩ : RiskParams).Valid)
    (hb : (⟨m, l, c, b, e.timestamp⟩ : RiskParams).Valid) (h10 : 10 ≤ a) (h10' : 10 ≤ b) :
    ReflTransGen (Leads e s) ⟨m, l, c, a, e.timestamp⟩ ⟨m, l, c, b, e.timestamp⟩ := by
  rw [RiskParams.valid_mk] at ha hb
  exact walk_parameter (fun x => ⟨m, l, c, x, e.timestamp⟩) (fun x => ⟨none, none, none, some x⟩)
    (fun _ _ => rfl) (fun _ _ hx h => { hx.paced_refl with incentive := h }) h10 h10'
    fun x hlo hhi => RiskParams.valid_mk.mpr (by omega)

/-- The parameters that a tenth can round down to nothing are large enough to move. -/
structure RiskParams.Movable (config : RiskParams) : Prop where
  closeFactor : 10 ≤ config.closeFactor
  incentive : 10 ≤ config.liquidationIncentive

/-- **From a movable configuration the way back is open**: the ratio makes room for the threshold,
and comes down after it. -/
theorem way_back (hvalid : (⟨m, l, c, i, e.timestamp⟩ : RiskParams).Valid)
    (hmovable : (⟨m, l, c, i, e.timestamp⟩ : RiskParams).Movable) :
    ReflTransGen (Leads e s) ⟨m, l, c, i, e.timestamp⟩ (.default e.timestamp) := by
  have hv := RiskParams.valid_mk.mp hvalid
  have hroom : ReflTransGen (Leads e s) _ ⟨max m 11000, l, c, i, e.timestamp⟩ :=
    way_ratio hvalid (RiskParams.valid_mk.mpr (by omega))
  have hthreshold : ReflTransGen (Leads e s) ⟨max m 11000, l, c, i, e.timestamp⟩
      ⟨max m 11000, 10500, c, i, e.timestamp⟩ :=
    way_threshold (RiskParams.valid_mk.mpr (by omega)) (RiskParams.valid_mk.mpr (by omega))
  have hratio : ReflTransGen (Leads e s) ⟨max m 11000, 10500, c, i, e.timestamp⟩
      ⟨11000, 10500, c, i, e.timestamp⟩ :=
    way_ratio (RiskParams.valid_mk.mpr (by omega)) (RiskParams.valid_mk.mpr (by omega))
  have hcloseFactor : ReflTransGen (Leads e s) ⟨11000, 10500, c, i, e.timestamp⟩
      ⟨11000, 10500, 5000, i, e.timestamp⟩ :=
    way_closeFactor (RiskParams.valid_mk.mpr (by omega)) (RiskParams.valid_mk.mpr (by omega))
      hmovable.closeFactor (by decide)
  have hincentive : ReflTransGen (Leads e s) ⟨11000, 10500, 5000, i, e.timestamp⟩
      ⟨11000, 10500, 5000, 1000, e.timestamp⟩ :=
    way_incentive (RiskParams.valid_mk.mpr (by omega)) (RiskParams.valid_mk.mpr (by omega))
      hmovable.incentive (by decide)
  exact hroom.trans (hthreshold.trans (hratio.trans (hcloseFactor.trans hincentive)))

end Ways

/-! ## Stuck -/

/-- Some calls lead back to the parameters the contract started with. -/
def Recoverable (s : Storage) : Prop :=
  ∀ e : Env, ∃ args : List RiskArgs,
    getRiskParams (run RiskCall.step s (args.map (RiskCall.mk e))) =
      some (.default e.timestamp)

/-- A first call without arguments brings the time of the last update up to date. -/
theorem leads_now (hvalid : config.Valid) :
    Leads e s config { config with lastUpdate := e.timestamp } :=
  leads ⟨none, none, none, none⟩ hvalid (by exact { hvalid.paced_refl with }) (hvalid.at_time _)

theorem withRiskParams_self (hconfig : getRiskParams s = some config) :
    withRiskParams config s = s := by
  unfold getRiskParams at hconfig
  rw [withRiskParams, ← hconfig]

theorem recoverable_of_movable (hconfig : getRiskParams s = some config) (hvalid : config.Valid)
    (hmovable : config.Movable) : Recoverable s := by
  intro e
  have hway := ReflTransGen.head (leads_now (e := e) (s := s) hvalid)
    (way_back (hvalid.at_time e.timestamp) ⟨hmovable.closeFactor, hmovable.incentive⟩)
  obtain ⟨args, hargs⟩ := exists_calls hway
  rw [withRiskParams_self hconfig] at hargs
  exact ⟨args, by rw [hargs]; rfl⟩

/-- **Below ten a parameter keeps its value through any calls.** -/
theorem stuck_below_ten (value : RiskParams → ℤ)
    (hpaced : ∀ old new, old.PacedTo new → Paced 10 (value old) (value new)) {v : ℤ} (hv : v < 10)
    (hconfig : getRiskParams s = some config) (hvalid : config.Valid) (hvalue : value config = v)
    (calls : List RiskCall) :
    ∃ new, getRiskParams (run RiskCall.step s calls) = some new ∧ value new = v := by
  have hstep : ∀ s call t, RiskCall.step call s = some t →
      (∃ config, getRiskParams s = some config ∧ config.Valid ∧ value config = v) →
      ∃ config, getRiskParams t = some config ∧ config.Valid ∧ value config = v := by
    rintro s call t hstep ⟨config, hconfig, hvalid, rfl⟩
    obtain ⟨hchange, hnew, rfl⟩ := (RiskCall.step_iff hconfig hvalid).mp hstep
    exact ⟨_, rfl, hnew, (hpaced _ _ hchange).eq_of_lt (by decide) hv⟩
  obtain ⟨new, hnew, -, hvalue⟩ := run_invariant hstep calls ⟨config, hconfig, hvalid, hvalue⟩
  exact ⟨new, hnew, hvalue⟩

theorem ten_le_of_recoverable (value : RiskParams → ℤ)
    (hpaced : ∀ old new, old.PacedTo new → Paced 10 (value old) (value new))
    (hdefault : ∀ now, 10 ≤ value (.default now)) (e : Env)
    (hconfig : getRiskParams s = some config) (hvalid : config.Valid) (h : Recoverable s) :
    10 ≤ value config := by
  by_contra hlt
  obtain ⟨args, hargs⟩ := h e
  obtain ⟨new, hnew, hvalue⟩ := stuck_below_ten value hpaced (not_le.mp hlt) hconfig hvalid rfl
    (args.map (RiskCall.mk e))
  obtain rfl := Option.some.inj (hnew.symm.trans hargs)
  exact hlt (hvalue ▸ hdefault e.timestamp)

/-- **The way back is open exactly from the movable configurations.** -/
theorem recoverable_iff_movable (e : Env) (hconfig : getRiskParams s = some config)
    (hvalid : config.Valid) : Recoverable s ↔ config.Movable := by
  refine ⟨fun h => ⟨?_, ?_⟩, recoverable_of_movable hconfig hvalid⟩
  · exact ten_le_of_recoverable RiskParams.closeFactor (fun _ _ hp => hp.closeFactor)
      (fun _ => by simp [RiskParams.default]) e hconfig hvalid h
  · exact ten_le_of_recoverable RiskParams.liquidationIncentive (fun _ _ hp => hp.incentive)
      (fun _ => by simp [RiskParams.default]) e hconfig hvalid h

/-! ## Every run -/

/-- What risk parameters have to be: in bounds, untouched by a call that fails, changed by at most a
tenth by one that succeeds, and never so that there is no way back. -/
structure RiskSound (s : Storage) : Prop where
  configured : ∃ config, getRiskParams s = some config ∧ config.Valid
  failed : ∀ (e : Env) (args : RiskArgs) err t, args.set e s = .err err t → t = s
  paced : ∀ (e : Env) (args : RiskArgs) u t, args.set e s = .ok u t → ∀ old new,
    getRiskParams s = some old → getRiskParams t = some new → old.PacedTo new
  recoverable : Recoverable s

/-- Neither the close factor nor the incentive is set below ten. -/
def KeepsMovable (_ : Storage) (call : RiskCall) : Prop :=
  (∀ value ∈ call.args.closeFactor, 10 ≤ value) ∧
    ∀ value ∈ call.args.liquidationIncentive, 10 ≤ value

/-- All but the way back is always so. -/
theorem InBounds.sound_iff (h : InBounds s) : RiskSound s ↔ Recoverable s := by
  refine ⟨RiskSound.recoverable, fun hback => ⟨h, fun _ _ _ _ herr => (set_err _ herr).symm, ?_,
    hback⟩⟩
  intro e args u t hok old new hold hnew
  obtain ⟨config, hconfig, hvalid⟩ := h
  obtain ⟨hpaced, -, rfl⟩ := (set_ok args hconfig hvalid).mp hok
  obtain rfl := Option.some.inj (hconfig.symm.trans hold)
  obtain rfl := Option.some.inj hnew
  exact hpaced

/-- The configuration stored is valid and movable. -/
def Steered (s : Storage) : Prop :=
  ∃ config, getRiskParams s = some config ∧ config.Valid ∧ config.Movable

theorem le_getD_iff {a b : ℤ} {o : Option ℤ} (hb : a ≤ b) :
    a ≤ o.getD b ↔ ∀ value ∈ o, a ≤ value := by
  cases o <;> simp [hb]

theorem Steered.step_iff {call : RiskCall} (h : Steered s) (hstep : call.step s = some t) :
    KeepsMovable s call ↔ Steered t := by
  obtain ⟨config, hconfig, hvalid, hmovable⟩ := h
  obtain ⟨-, hnew, rfl⟩ := (RiskCall.step_iff hconfig hvalid).mp hstep
  have hkeeps : KeepsMovable s call ↔ (call.args.onto config call.env.timestamp).Movable := by
    rw [KeepsMovable, ← le_getD_iff hmovable.closeFactor, ← le_getD_iff hmovable.incentive]
    exact ⟨fun ⟨hc, hi⟩ => ⟨hc, hi⟩, fun ⟨hc, hi⟩ => ⟨hc, hi⟩⟩
  refine hkeeps.trans ⟨fun h => ⟨_, rfl, hnew, h⟩, ?_⟩
  rintro ⟨new, hget, -, hnewMovable⟩
  obtain rfl := Option.some.inj hget
  exact hnewMovable

theorem steered_iff_sound (e : Env) (h : InBounds s) : Steered s ↔ RiskSound s := by
  rw [h.sound_iff]
  obtain ⟨config, hconfig, hvalid⟩ := h
  rw [recoverable_iff_movable e hconfig hvalid]
  refine ⟨?_, fun hmovable => ⟨config, hconfig, hvalid, hmovable⟩⟩
  rintro ⟨other, hother, -, hmovable⟩
  obtain rfl := Option.some.inj (hconfig.symm.trans hother)
  exact hmovable

/-- **From the default parameters on, every configuration is sound exactly as long as no call brings
the close factor or the incentive below ten.** -/
theorem risk_params_sound_iff (e : Env) (s₀ s : Storage)
    (hinit : initializeRiskParams e s₀ = .ok () s) (calls : List RiskCall) :
    Meets RiskCall.step KeepsMovable s calls ↔
      ∀ past, past <+: calls → RiskSound (run RiskCall.step s past) := by
  obtain rfl := initializeRiskParams_ok.mp hinit
  have hdefault := RiskParams.default_valid e.timestamp
  have hsteered : Steered (withRiskParams (.default e.timestamp) s₀) :=
    ⟨_, rfl, hdefault, by simp [RiskParams.default], by simp [RiskParams.default]⟩
  have hconfigured (past : List RiskCall) :
      InBounds (run RiskCall.step (withRiskParams (.default e.timestamp) s₀) past) :=
    run_invariant (fun _ _ _ hstep h => h.step hstep) past ⟨_, rfl, hdefault⟩
  rw [meets_iff_throughout (fun _ _ _ hstep h => h.step_iff hstep) hsteered]
  exact forall₂_congr fun past _ => steered_iff_sound e (hconfigured past)

namespace Sample

/-- A call that gives the liquidation incentive alone. -/
def incentiveTo (value : ℤ) : RiskCall := ⟨envAt 2 [], none, none, none, some value⟩

theorem risk_params_sound_halved :
    initializeRiskParams (envAt 1 []) Storage.empty = .ok () (withRiskParams (.default 1) .empty) ∧
    (Meets RiskCall.step KeepsMovable (withRiskParams (.default 1) .empty) [incentiveTo 900] ↔
      ∀ past, past <+: [incentiveTo 900] →
        RiskSound (run RiskCall.step (withRiskParams (.default 1) .empty) past)) :=
  ⟨rfl, risk_params_sound_iff (envAt 1 []) .empty _ rfl [incentiveTo 900]⟩

/-- The incentive is taken down a tenth at a time, from a thousand to nine. -/
def shrinking : List RiskCall :=
  (List.iterate (fun value : ℤ => value - value / 10) 900 50).map incentiveTo

/-- **An incentive of nine is reached by steps that are all allowed, and cannot be left.** -/
theorem incentive_stuck :
    getRiskParams (run RiskCall.step (withRiskParams (.default 1) .empty) shrinking) =
        some ⟨11000, 10500, 5000, 9, 2⟩ ∧
      ¬ RiskSound (run RiskCall.step (withRiskParams (.default 1) .empty) shrinking) := by
  have hreached : getRiskParams (run RiskCall.step (withRiskParams (.default 1) .empty) shrinking) =
      some ⟨11000, 10500, 5000, 9, 2⟩ := by decide +kernel
  refine ⟨hreached, fun hsound => ?_⟩
  have hvalid : (⟨11000, 10500, 5000, 9, 2⟩ : RiskParams).Valid :=
    RiskParams.valid_mk.mpr (by decide)
  have hmovable := (recoverable_iff_movable (envAt 3 []) hreached hvalid).mp hsound.recoverable
  exact absurd hmovable.incentive (by decide)

end Sample

end StellarLend.HelloWorld
