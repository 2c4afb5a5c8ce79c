import StellarLend.Foundations.History
import StellarLend.Foundations.Quorum
import StellarLend.Lending.Delegation

/-!
# Lending/Commitments — scheduled borrows, from their creation to their end

A commitment is a borrow that its owner signs in advance and that anybody may execute.  It is
pending until it is cancelled or executed, and both are for good: identifiers are not used twice
(`CommitmentsKept`), so what was signed is borrowed at most once and on the terms it was signed
with (`commitments_honoured`).

The source also marks a commitment that is executed too late as expired, but it returns an error
with that, and the host discards the write.  Such a commitment stays pending and is refused again.
-/

namespace StellarLend.Lending

open Foundations Call

variable {e : Env} {s t s' : Storage} {c : BorrowCommitment} {id : ℕ}

/-! ## Triggers -/

/-- The oracle's price meets the trigger. -/
def PriceTrigger.Met (e : Env) (s : Storage) (trigger : PriceTrigger) : Prop :=
  ∃ oracle price, getOracle s = some oracle ∧ e.price oracle trigger.asset = some price ∧
    if trigger.fireWhenAtOrAbove then trigger.triggerPrice ≤ price
    else price ≤ trigger.triggerPrice

/-- The triggers of the commitment hold under its combiner. -/
def BorrowCommitment.Triggered (e : Env) (s : Storage) (c : BorrowCommitment) : Prop :=
  c.triggers ≠ [] ∧
    match c.combiner with
    | .any => ∃ trigger ∈ c.triggers, trigger.Met e s
    | .all => ∀ trigger ∈ c.triggers, trigger.Met e s

theorem met_of_triggerMet {trigger : PriceTrigger} (h : triggerMet trigger e s = .ok true t) :
    trigger.Met e s := by
  simp only [triggerMet, readPrice, bind_ok, view_ok, okOr_ok, asks_ok, orTrap_ok, pure_ok] at h
  obtain ⟨price, _, ⟨_, _, ⟨rfl, rfl⟩, oracle, _, ⟨horacle, rfl⟩, _, _, ⟨rfl, rfl⟩, hprice, rfl⟩,
    hmet, -⟩ := h
  refine ⟨oracle, price, horacle, hprice, ?_⟩
  split at hmet <;> rename_i hfire
  · rw [if_pos hfire]
    simpa using hmet
  · rw [if_neg hfire]
    simpa using hmet

theorem met_of_anyTriggerMet {triggers : List PriceTrigger}
    (h : anyTriggerMet triggers e s = .ok true t) : ∃ trigger ∈ triggers, trigger.Met e s := by
  induction triggers with
  | nil => simp [anyTriggerMet] at h
  | cons trigger ts ih =>
    simp only [anyTriggerMet, bind_ok] at h
    obtain ⟨met, _, hmet, h⟩ := h
    obtain rfl := triggerMet_ok hmet
    rcases met with _ | _
    · obtain ⟨trigger', hmem, hmet'⟩ := ih h
      exact ⟨trigger', List.mem_cons_of_mem trigger hmem, hmet'⟩
    · exact ⟨trigger, List.mem_cons_self, met_of_triggerMet hmet⟩

theorem met_of_allTriggersMet {triggers : List PriceTrigger}
    (h : allTriggersMet triggers e s = .ok true t) : ∀ trigger ∈ triggers, trigger.Met e s := by
  induction triggers with
  | nil =>
    intro trigger hmem
    cases hmem
  | cons trigger ts ih =>
    simp only [allTriggersMet, bind_ok] at h
    obtain ⟨met, _, hmet, h⟩ := h
    obtain rfl := triggerMet_ok hmet
    rcases met with _ | _
    · simp at h
    · exact List.forall_mem_cons.mpr ⟨met_of_triggerMet hmet, ih h⟩

theorem triggered_of_triggersSatisfied
    (h : triggersSatisfied c.triggers c.combiner e s = .ok true t) : c.Triggered e s := by
  unfold triggersSatisfied at h
  split at h <;> rename_i hempty
  · simp at h
  · refine ⟨hempty, ?_⟩
    rcases hcomb : c.combiner with _ | _ <;> rw [hcomb] at h
    · exact met_of_anyTriggerMet h
    · exact met_of_allTriggersMet h

/-- **An execution finds the triggers met.** -/
theorem triggered_of_execute {r : Unit}
    (h : Commitments.executeBorrowCommitment id e s = .ok r s') (hc : s.commitment id = some c) :
    c.Triggered e s := by
  obtain ⟨c', _, _, hc', -, -, htriggers, -⟩ := executeBorrowCommitment_steps h
  obtain rfl := Option.some.inj (hc.symm.trans hc')
  exact triggered_of_triggersSatisfied htriggers

/-! ## Fills -/

/-- A share of an amount, computed with saturation, is no more than the amount. -/
theorem saturating_share_le {a b n : ℤ} (hn : 0 < n) (hb : n ≤ b)
    (hpos : 0 < I128.saturatingDiv (I128.saturatingMul a n) b) :
    I128.saturatingDiv (I128.saturatingMul a n) b ≤ a := by
  have hclamp : ∀ x : ℤ, 0 < I128.clamp x → 0 < x ∧ I128.clamp x ≤ x := by
    intro x hx
    simp only [Range.clamp, I128] at hx ⊢
    omega
  obtain ⟨hquot, hle⟩ := hclamp _ hpos
  have hprod : b ≤ I128.clamp (a * n) := by
    rw [← one_mul b]
    exact (le_tdiv_iff one_pos (hn.trans_le hb)).mp hquot
  have hscaled : I128.clamp (a * n) ≤ a * b := by
    obtain ⟨hmul, hmulle⟩ := hclamp (a * n) ((hn.trans_le hb).trans_le hprod)
    have ha : 0 < a := (pos_iff_pos_of_mul_pos hmul).mpr hn
    exact hmulle.trans (mul_le_mul_of_nonneg_left hb ha.le)
  refine hle.trans ?_
  change (I128.clamp (a * n)).tdiv b ≤ a
  rw [Int.tdiv_eq_ediv_of_nonneg (by omega)]
  exact Int.ediv_le_of_le_mul (hn.trans_le hb) hscaled

/-- A fill takes no more collateral than was committed. -/
theorem collateralFill_le {fill : ℤ} (hfill : 0 < fill) (hle : fill ≤ c.borrowAmount)
    (hpos : 0 < (collateralFill c fill).getD 0) :
    (collateralFill c fill).getD 0 ≤ c.collateralAmount := by
  unfold collateralFill at hpos ⊢
  rw [if_neg (by omega), Option.getD_some] at hpos ⊢
  exact saturating_share_le hfill hle hpos

/-! ## What one execution does -/

theorem Frame.getDebtCeiling (h : Frame s t) : getDebtCeiling t = getDebtCeiling s := by
  rw [Frame] at h
  rw [h]
  rfl

/-- A borrow recorded for a user, and for no other: `amount` of debt, in the asset, against
`collateral` in its asset. -/
structure BorrowRecorded (e : Env) (s : Storage) (user asset : Address) (amount : ℤ)
    (collateralAsset : Address) (collateral : ℤ) (s' : Storage) : Prop where
  debt : ∃ p, debtRecord s' .variable user = some p ∧ p.asset = asset ∧
    p.borrowedAmount = (bucketOf e s user asset .variable).borrowedAmount + amount
  collateral : getCollateralPosition s' user =
    ⟨(getCollateralPosition s user).amount + collateral, collateralAsset⟩
  total : getTotalDebt s' = getTotalDebt s + amount
  others : ∀ u, u ≠ user → SamePosition s s' u

theorem Borrowed.recorded {user asset casset : Address} {amount camount : ℤ}
    (h : Borrowed e s user asset amount casset camount .variable s')
    (hact : actStep e (.borrow user asset amount casset camount .variable) s = some s') :
    BorrowRecorded e s user asset amount casset camount s' where
  debt := by
    obtain ⟨accrued, rate, _, _, -, -, -, hsame⟩ := h.debts
    exact ⟨_, (hsame.debtRecord .variable user).trans
      (debtRecord_savedDebt_self e.timestamp user _ s), rfl, rfl⟩
  collateral := by rw [getCollateralPosition_of_update h.collateral, if_pos rfl]
  total := by rw [getTotalDebt, h.total, Option.getD_some]
  others := fun _ hu => actStep_other hact (Ne.symm hu)

/-- What executing the commitment may do: it is pending and not past its expiry, its triggers hold,
and its owner borrows on its terms, up to its amounts and to the debt ceiling. -/
structure Honoured (e : Env) (s : Storage) (c : BorrowCommitment) (s' : Storage) : Prop where
  pending : c.status = .pending
  live : e.timestamp ≤ c.expiryTimestamp
  triggered : c.Triggered e s
  borrowed : ∃ amount collateral, 0 < amount ∧ amount ≤ c.borrowAmount ∧ 0 < collateral ∧
    collateral ≤ c.collateralAmount ∧
    BorrowRecorded e s c.owner c.borrowAsset amount c.collateralAsset collateral s'
  ceiling : getTotalDebt s' ≤ getDebtCeiling s'

/-- An execution borrows the fill for the owner, against the collateral that goes with it. -/
theorem recorded_of_execute {r : Unit}
    (h : Commitments.executeBorrowCommitment id e s = .ok r s') (hc : s.commitment id = some c) :
    BorrowRecorded e s c.owner c.borrowAsset (fillAmount s c) c.collateralAsset
      ((collateralFill c (fillAmount s c)).getD 0) s' := by
  obtain ⟨c', t, hc', -, -, hact, rfl⟩ := (executeBorrowCommitment_ok h).store
  obtain rfl : c' = c := Option.some.inj (hc'.symm.trans hc)
  have hb : Borrowed e s c'.owner c'.borrowAsset (fillAmount s c') c'.collateralAsset
      ((collateralFill c' (fillAmount s c')).getD 0) .variable t := actStep_effect hact
  have hrec := hb.recorded hact
  exact ⟨hrec.debt, hrec.collateral, hrec.total, fun u hu =>
    (hrec.others u hu).trans ⟨⟨rfl, rfl, rfl⟩, rfl, rfl⟩⟩

/-- **An execution honours the commitment it executes.** -/
theorem honoured_of_execute {r : Unit}
    (h : Commitments.executeBorrowCommitment id e s = .ok r s') :
    ∃ c, s.commitment id = some c ∧ Honoured e s c s' := by
  obtain ⟨c, t, hc, hpending, hlive, hact, hs'⟩ := (executeBorrowCommitment_ok h).store
  have hb : Borrowed e s c.owner c.borrowAsset (fillAmount s c) c.collateralAsset
      ((collateralFill c (fillAmount s c)).getD 0) .variable t := actStep_effect hact
  have hfill : fillAmount s c ≤ c.borrowAmount := min_le_left ..
  have hrec := recorded_of_execute h hc
  refine ⟨c, hc, hpending, hlive, triggered_of_execute h hc, ?_, ?_⟩
  · exact ⟨fillAmount s c, (collateralFill c (fillAmount s c)).getD 0, hb.amount_pos, hfill,
      hb.collateral_pos, collateralFill_le hb.amount_pos hfill hb.collateral_pos, hrec⟩
  · have hceiling : getDebtCeiling s' = getDebtCeiling t := by rw [hs']; rfl
    calc getTotalDebt s' = getTotalDebt s + fillAmount s c := hrec.total
      _ ≤ getDebtCeiling s := hb.ceiling
      _ = getDebtCeiling s' := by rw [hceiling, hb.frame.getDebtCeiling]

/-! ## The life of a commitment -/

/-- The commitment a call asks to create. -/
def Op.commitment : Op → Option BorrowCommitment
  | .createBorrowCommitment owner triggers combiner basset casset bamount camount fill expiry =>
    some ⟨owner, triggers, combiner, basset, casset, bamount, camount, fill, expiry, .pending⟩
  | _ => none

theorem Op.commitment_pending {op : Op} (h : op.commitment = some c) : c.status = .pending := by
  unfold Op.commitment at h
  split at h <;> cases h
  rfl

/-- The commitment a call ends, and how. -/
def Op.closing : Op → Option (ℕ × CommitmentStatus)
  | .cancelBorrowCommitment _ id => some (id, .cancelled)
  | .executeBorrowCommitment id => some (id, .executed)
  | _ => none

/-- What a call does to the commitments. -/
inductive CommitmentMove (tx : Tx) (s s' : Storage) : Prop where
  | opened (c : BorrowCommitment) (hop : tx.op.commitment = some c) (hauth : c.owner ∈ tx.env.auths)
      (hclosing : tx.op.closing = none)
      (hnext : s'.nextId = some (s.nextId.getD 0 + 1))
      (hs : s'.commitment = Function.update s.commitment (s.nextId.getD 0) (some c))
  | closed (id : ℕ) (c : BorrowCommitment) (status : CommitmentStatus)
      (hop : tx.op.closing = some (id, status)) (hend : status ≠ .pending)
      (hc : s.commitment id = some c) (hpending : c.status = .pending)
      (hnext : s'.nextId = s.nextId)
      (hs : s'.commitment = Function.update s.commitment id (some { c with status }))
  | kept (hclosing : tx.op.closing = none) (hnext : s'.nextId = s.nextId)
      (hs : s'.commitment = s.commitment)

/-- **Every call opens a commitment, closes a pending one, or keeps them as they are.** -/
theorem step_moves {tx : Tx} (h : step tx s = some s') : CommitmentMove tx s s' := by
  by_cases hop : tx.op.MovesCommitments
  · obtain ⟨e, op⟩ := tx
    cases op <;> first | exact hop.elim | skip
    case createBorrowCommitment owner triggers combiner basset casset bamount camount fill expiry =>
      simp only [step, Op.apply, commit_eq_some] at h
      obtain ⟨id, h⟩ := h
      simp only [Commitments.createBorrowCommitment, setCommitment, requireAuth_seq, failIf_seq,
        not_lt, not_or, not_le, mapErr_seq, ofExcept_ok, asks_seq, view_seq, store_seq, orTrap_seq,
        nextU64_eq_some, Nat.reducePow, pure_ok, ↓existsAndEq, and_true, exists_and_right] at h
      obtain ⟨hauth, -, -, -, -, -, -, -, rfl⟩ := h
      exact .opened _ rfl hauth rfl rfl rfl
    case cancelBorrowCommitment owner id =>
      have hnext : s'.nextId = s.nextId := congrArg Prod.fst (step_counters h rfl)
      simp only [step, Op.apply, commit_eq_some] at h
      obtain ⟨_, h⟩ := h
      simp only [Commitments.cancelBorrowCommitment, ne_eq, setCommitment, requireAuth_seq,
        view_seq, okOr_seq, failIf_seq, Decidable.not_not, store_ok] at h
      obtain ⟨-, c, hc, -, hpending, rfl⟩ := h
      exact .closed id c .cancelled rfl (by decide) hc hpending hnext rfl
    case executeBorrowCommitment id =>
      have hnext : s'.nextId = s.nextId := congrArg Prod.fst (step_counters h rfl)
      simp only [step, Op.apply, commit_eq_some] at h
      obtain ⟨_, h⟩ := h
      obtain ⟨c, t, hc, hpending, -, hact, rfl⟩ := (executeBorrowCommitment_ok h).store
      refine .closed id c .executed rfl (by decide) hc hpending hnext ?_
      rw [← (actStep_frame hact).commitment]
      rfl
  · have hcreates : tx.op.creates = none := by
      cases hc : tx.op <;> first | rfl | exact absurd (by rw [hc]; trivial) hop
    have hclosing : tx.op.closing = none := by
      cases hc : tx.op <;> first | rfl | exact absurd (by rw [hc]; trivial) hop
    have hstart : (tx.op.start s).nextId = s.nextId := by
      cases tx.op <;> rfl
    refine .kept hclosing ((congrArg Prod.fst (step_counters h hcreates)).trans hstart) ?_
    exact step_invariant (C := fun _ _ _ => True) (I := fun t => t.commitment = s.commitment)
      (fun _ _ _ ha _ hs => (actStep_frame ha).commitment.trans hs)
      (fun _ _ hset hs => (hset.commitments hop).trans hs) h
      (meets_of_forall fun _ _ _ => trivial) rfl

/-- The commitments that the successful calls of a run ended, and how, first to last. -/
def closings (txs : List Tx) : List (ℕ × CommitmentStatus) :=
  history step (fun _ tx => tx.op.closing.toList) Storage.empty txs

/-- The next identifier is above all in use, and what was closed is still there, and closed. -/
structure CommitmentsKept (ended : List (ℕ × CommitmentStatus)) (s : Storage) : Prop where
  fresh : ∀ id, s.nextId.getD 0 ≤ id → s.commitment id = none
  closed : ∀ p ∈ ended, ∃ c, s.commitment p.1 = some c ∧ c.status = p.2 ∧ p.2 ≠ .pending
  once : (ended.map Prod.fst).Nodup

theorem CommitmentsKept.call {ended : List (ℕ × CommitmentStatus)} {tx : Tx}
    (hk : CommitmentsKept ended s) (h : step tx s = some s') :
    CommitmentsKept (ended ++ tx.op.closing.toList) s' := by
  rcases step_moves h with ⟨c, -, -, hclosing, hnext, hs⟩ |
    ⟨id, c, status, hop, hend, hc, hpending, hnext, hs⟩ | ⟨hclosing, hnext, hs⟩
  · rw [hclosing, Option.toList_none, List.append_nil]
    refine ⟨fun id hid => ?_, fun p hp => ?_, hk.once⟩
    · rw [hnext, Option.getD_some] at hid
      rw [hs, Function.update_of_ne (by omega)]
      exact hk.fresh id (by omega)
    · obtain ⟨c', hc', hrest⟩ := hk.closed p hp
      have hne : p.1 ≠ s.nextId.getD 0 := by
        intro heq
        rw [heq, hk.fresh _ le_rfl] at hc'
        cases hc'
      exact ⟨c', by rw [hs, Function.update_of_ne hne, hc'], hrest⟩
  · -- a commitment that was closed before is not pending
    have hnew : id ∉ ended.map Prod.fst := by
      intro hmem
      obtain ⟨p, hp, rfl⟩ := List.mem_map.mp hmem
      obtain ⟨c', hc', hstatus, hp2⟩ := hk.closed p hp
      obtain rfl : c' = c := Option.some.inj (hc'.symm.trans hc)
      exact hp2 (hstatus.symm.trans hpending)
    rw [hop, Option.toList_some]
    refine ⟨fun id' hid => ?_, fun p hp => ?_, ?_⟩
    · rw [hnext] at hid
      have hne : id' ≠ id := by
        rintro rfl
        rw [hk.fresh id' hid] at hc
        cases hc
      rw [hs, Function.update_of_ne hne, hk.fresh id' hid]
    · rcases List.mem_append.mp hp with hold | hlast
      · have hne : p.1 ≠ id := fun heq => hnew (heq ▸ List.mem_map_of_mem hold)
        obtain ⟨c', hc', hrest⟩ := hk.closed p hold
        exact ⟨c', by rw [hs, Function.update_of_ne hne, hc'], hrest⟩
      · obtain rfl := List.mem_singleton.mp hlast
        exact ⟨_, by rw [hs, Function.update_self], rfl, hend⟩
    · rw [List.map_append]
      exact nodup_snoc hk.once hnew
  · rw [hclosing, Option.toList_none, List.append_nil]
    exact ⟨by rw [hnext, hs]; exact hk.fresh, by rw [hs]; exact hk.closed, hk.once⟩

theorem commitmentsKept (txs : List Tx) : CommitmentsKept (closings txs) (ledger txs) :=
  history_invariant (h := []) (fun _ _ _ _ hx hk => hk.call hx) txs
    ⟨fun _ _ => rfl, by simp, List.nodup_nil⟩

/-! ## The terms -/

/-- In the history, the commitment was created with these terms by a call its owner signed. -/
def SignedAs (c : BorrowCommitment) (id : ℕ) (history : List Tx) : Prop :=
  ∃ ys tx zs s', history = ys ++ tx :: zs ∧ step tx (ledger ys) = some s' ∧
    (ledger ys).nextId.getD 0 = id ∧ tx.op.commitment = some { c with status := .pending } ∧
    c.owner ∈ tx.env.auths

theorem SignedAs.extend {history : List Tx} (h : SignedAs c id history) (tx : Tx) :
    SignedAs c id (history ++ [tx]) := by
  obtain ⟨ys, x, zs, s', rfl, hrest⟩ := h
  exact ⟨ys, x, zs ++ [tx], s', by simp, hrest⟩

/-- **Every commitment on record has the terms its owner signed.** -/
theorem signedAs_of_recorded {history : List Tx} (h : (ledger history).commitment id = some c) :
    SignedAs c id history := by
  induction history using List.reverseRecOn generalizing c with
  | nil => cases h
  | append_singleton history tx ih =>
    rw [ledger_snoc] at h
    cases hstep : step tx (ledger history) with
    | none =>
      rw [exec_of_none hstep] at h
      exact (ih h).extend tx
    | some s' =>
      rw [exec_of_some hstep] at h
      rcases step_moves hstep with ⟨c₀, hop, hauth, -, -, hs⟩ |
        ⟨id₀, c₀, status, -, -, hc₀, -, -, hs⟩ | ⟨-, -, hs⟩
      · rw [hs, Function.update_apply] at h
        split at h <;> rename_i hid
        · cases h
          refine ⟨history, tx, [], s', rfl, hstep, hid.symm, ?_, hauth⟩
          rw [hop, ← Op.commitment_pending hop]
        · exact (ih h).extend tx
      · rw [hs, Function.update_apply] at h
        split at h <;> rename_i hid
        · cases h
          obtain ⟨ys, x, zs, s₀, hys, hrest⟩ := ih (hid ▸ hc₀)
          exact SignedAs.extend ⟨ys, x, zs, s₀, hys, hrest⟩ tx
        · exact (ih h).extend tx
      · rw [hs] at h
        exact (ih h).extend tx

/-! ## Every run -/

/-- In the run, commitments are executed at most once, never once cancelled, and as they were
signed. -/
structure CommitmentsHonoured (txs : List Tx) : Prop where
  executed_once : ∀ id, (closings txs).count (id, .executed) ≤ 1
  cancelled_never : ∀ id, (id, .cancelled) ∈ closings txs → (id, .executed) ∉ closings txs
  honoured : ∀ ys tx zs s' id, txs = ys ++ tx :: zs → tx.op = .executeBorrowCommitment id →
    step tx (ledger ys) = some s' → ∃ c, (ledger ys).commitment id = some c ∧
      SignedAs c id ys ∧ Honoured tx.env (ledger ys) c s'

/-- **Every run honours the commitments.** -/
theorem commitments_honoured (txs : List Tx) : CommitmentsHonoured txs where
  executed_once id := List.nodup_iff_count_le_one.mp (commitmentsKept txs).once.of_map _
  cancelled_never id hcancelled hexecuted := by
    have hsame := List.inj_on_of_nodup_map (commitmentsKept txs).once hcancelled hexecuted rfl
    cases hsame
  honoured := by
    rintro ys ⟨e, op⟩ zs s' id - hop hstep
    obtain rfl : op = _ := hop
    obtain ⟨r, h⟩ := commit_eq_some.mp hstep
    obtain ⟨c, hc, hhonoured⟩ := honoured_of_execute h
    exact ⟨c, hc, signedAs_of_recorded hc, hhonoured⟩

namespace Sample

/-- A call at a time that finds the oracle at one price for every asset. -/
def envPriced (now : ℕ) (auths : List Address) (price : ℤ) : Env :=
  { envAt now auths with price := fun _ _ => some price }

/-- Alice schedules two borrows for when the price is at most 50, and cancels the second.  Bob, as
a keeper, tries the first too early, then twice at the right price, and the second once. -/
def scheduled : List Tx :=
  [deploy, ⟨envAt 0 [admin], .setOracle admin oracle⟩,
    ⟨envAt 1 [alice], .createBorrowCommitment alice [⟨xlm, 50, false⟩] .all usdc xlm 10000 20000
      10000 100⟩,
    ⟨envAt 1 [alice], .createBorrowCommitment alice [⟨xlm, 50, false⟩] .any usdc xlm 10000 20000
      10000 100⟩,
    ⟨envAt 2 [alice], .cancelBorrowCommitment alice 1⟩,
    ⟨envPriced 3 [bob] 60, .executeBorrowCommitment 0⟩,
    ⟨envPriced 4 [bob] 50, .executeBorrowCommitment 0⟩,
    ⟨envPriced 5 [bob] 50, .executeBorrowCommitment 0⟩,
    ⟨envPriced 6 [bob] 50, .executeBorrowCommitment 1⟩]

end Sample

example : closings Sample.scheduled = [(1, .cancelled), (0, .executed)] ∧
    getTotalDebt (ledger Sample.scheduled) = 10000 := by
  decide

end StellarLend.Lending
