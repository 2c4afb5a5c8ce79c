import Mathlib.Algebra.Ring.Nat
import StellarLend.Foundations.IndexedMap
import StellarLend.LiquidationQueue.Contract

/-!
# LiquidationQueue/Effects — what a call does to the queue

Five things happen to the queue: it is set up, an entry is added under the next number, expired
entries are marked, a pending entry is completed or cancelled.  `Change` says so once for all that
is proved about runs.
-/

namespace StellarLend.LiquidationQueue

open Foundations Call Function
open Lending (Address)
open HelloWorld (LendingError)

variable {e : HelloWorld.Env} {s s' : Storage} {tx : Tx} {entryId : ℕ}
  {entry : LiquidationQueueEntry}

/-! ## Writing -/

/-- The store with a next number. -/
def withNextId (nextId : ℕ) (s : Storage) : Storage := { s with nextId := some nextId }

@[simp] theorem setEntry_self : (setEntry entryId entry s).entry entryId = some entry :=
  update_self ..

theorem setEntry_of_ne {id : ℕ} (h : id ≠ entryId) :
    (setEntry entryId entry s).entry id = s.entry id := update_of_ne h ..

/-- What is on record after a write is what was written, or was on record before. -/
theorem setEntry_eq_some {id : ℕ} {other : LiquidationQueueEntry} :
    (setEntry entryId entry s).entry id = some other ↔
      id = entryId ∧ entry = other ∨ id ≠ entryId ∧ s.entry id = some other :=
  update_eq_some

@[simp] theorem withNextId_entry (n : ℕ) : (withNextId n s).entry = s.entry := rfl

@[simp] theorem getNextId_withNextId (n : ℕ) : getNextId (withNextId n s) = n := rfl

@[simp] theorem getNextId_setEntry : getNextId (setEntry entryId entry s) = getNextId s := rfl

/-! ## Pending entries -/

theorem pendingEntry_eq_some :
    pendingEntry s entryId = some entry ↔
      s.entry entryId = some entry ∧ entry.status = .pending := by
  simp [pendingEntry, getQueueEntry, Option.filter_eq_some_iff]

theorem mem_getPendingQueueEntries :
    entry ∈ getPendingQueueEntries s ↔
      ∃ id < getNextId s, s.entry id = some entry ∧ entry.status = .pending := by
  simp [getPendingQueueEntries, pendingEntry_eq_some]

/-! ## Sweeping -/

/-- A pending entry past its time is expired. -/
def LiquidationQueueEntry.aged (now : ℕ) (entry : LiquidationQueueEntry) : LiquidationQueueEntry :=
  if entry.status = .pending ∧ entry.expiresAt < now then entry.withStatus .expired else entry

/-- The store with some entries aged. -/
def agedStore (now : ℕ) (ids : List ℕ) (s : Storage) : Storage :=
  { s with entry := fun id =>
      if id ∈ ids then (s.entry id).map (LiquidationQueueEntry.aged now) else s.entry id }

@[simp] theorem aged_aged (now : ℕ) : (entry.aged now).aged now = entry.aged now := by
  by_cases h : entry.status = .pending ∧ entry.expiresAt < now <;>
    simp [LiquidationQueueEntry.aged, LiquidationQueueEntry.withStatus, h]

theorem agedStore_nil (now : ℕ) : agedStore now [] s = s := by
  simp [agedStore]

/-- Aging one entry, then others. -/
theorem agedStore_cons (now : ℕ) (ids : List ℕ) :
    agedStore now (entryId :: ids) s = agedStore now ids (agedStore now [entryId] s) := by
  unfold agedStore
  congr 1
  funext id
  by_cases hid : id = entryId <;> by_cases hids : id ∈ ids <;>
    rcases hentry : s.entry id with _ | entry <;> simp [hid, hids, hentry]
  all_goals simp_all

theorem agedStore_none {now : ℕ} (h : s.entry entryId = none) : agedStore now [entryId] s = s := by
  have hsame : (agedStore now [entryId] s).entry = s.entry := by
    funext id
    by_cases hid : id = entryId
    · subst hid
      simp [agedStore, h]
    · simp [agedStore, hid]
  have hstore : agedStore now [entryId] s =
      { s with entry := (agedStore now [entryId] s).entry } := rfl
  rw [hstore, hsame]

theorem agedStore_some {now : ℕ} (h : s.entry entryId = some entry) :
    agedStore now [entryId] s = setEntry entryId (entry.aged now) s := by
  have hsame : (agedStore now [entryId] s).entry =
      update s.entry entryId (some (entry.aged now)) := by
    funext id
    by_cases hid : id = entryId
    · subst hid
      simp [agedStore, h]
    · simp [agedStore, hid]
  rw [setEntry, ← hsame]
  rfl

/-- An entry that is not past its time stays as it is. -/
theorem setEntry_aged {now : ℕ} (h : s.entry entryId = some entry)
    (hage : ¬ (entry.status = .pending ∧ entry.expiresAt < now)) :
    setEntry entryId (entry.aged now) s = s := by
  rw [LiquidationQueueEntry.aged, if_neg hage, setEntry, ← h, update_eq_self]

/-- **A sweep ages the entries it walks over.** -/
theorem sweep_ok {now : ℕ} {ids : List ℕ} {cleaned cleaned' : ℕ}
    (h : sweep now ids cleaned e s = .ok cleaned' s') : s' = agedStore now ids s := by
  induction ids generalizing cleaned s with
  | nil =>
    rw [agedStore_nil]
    exact (pure_ok.mp h).2.symm
  | cons id ids ih =>
    simp only [sweep, view_seq, getQueueEntry] at h
    rw [agedStore_cons]
    rcases hentry : s.entry id with _ | entry
    · rw [agedStore_none hentry]
      rw [hentry] at h
      exact ih h
    · rw [agedStore_some hentry]
      by_cases hage : entry.status = .pending ∧ entry.expiresAt < now
      · simp only [hentry, if_pos hage, bind_ok, store_ok, ↓orTrap_seq, exists_eq_left'] at h
        obtain ⟨_, _, -, hrest⟩ := h
        rw [LiquidationQueueEntry.aged, if_pos hage]
        exact ih hrest
      · simp only [hentry, if_neg hage] at h
        rw [setEntry_aged hentry hage]
        exact ih h

/-! ## Calls -/

theorem cleanupExpiredEntries_ok {cleaned : ℕ}
    (h : cleanupExpiredEntries e s = .ok cleaned s') :
    s' = agedStore e.timestamp (List.range (getNextId s)) s := by
  simp only [cleanupExpiredEntries, asks_seq, view_seq] at h
  exact sweep_ok h

/-- Reading a health factor writes nothing. -/
theorem calculateHealthFactor_reads {user : Address} {healthFactor : ℤ}
    (h : calculateHealthFactor user e s = .ok healthFactor s') : s = s' := by
  simp only [calculateHealthFactor, view_seq, okOr_seq] at h
  obtain ⟨position, -, h⟩ := h
  by_cases hdebt : position.debt = 0
  · simp only [if_pos hdebt, pure_ok] at h
    exact h.2
  · simp only [if_neg hdebt, orTrap_seq, okOr_ok] at h
    obtain ⟨_, -, -, rfl⟩ := h
    rfl

/-- A score is above the least of its type. -/
theorem calculatePriorityScore_lower {healthFactor debtValue score : ℤ}
    (hhealth : healthFactor < LIQUIDATION_THRESHOLD_BPS) (hdebt : I128.Holds debtValue)
    (h : calculatePriorityScore healthFactor debtValue = some score) : -2 ^ 127 < score := by
  obtain ⟨base, hbase, h⟩ := Option.bind_eq_some_iff.mp h
  obtain ⟨weighted, hweighted, h⟩ := Option.bind_eq_some_iff.mp h
  obtain ⟨-, rfl⟩ := I128.checkedSub_eq_some.mp hbase
  obtain ⟨-, rfl⟩ := I128.checkedMul_eq_some.mp hweighted
  obtain ⟨-, rfl⟩ := I128.checkedAdd_eq_some.mp h
  have hbonus := (I128.holds_iff.mp (I128.holds_tdiv hdebt (b := 1000000) (by decide))).1
  have hmultiplier : 1 ≤ healthMultiplier healthFactor := by
    unfold healthMultiplier CRITICAL_HEALTH_MULTIPLIER SEVERE_HEALTH_MULTIPLIER
    split
    · decide
    · split <;> decide
  have hbase : 1 ≤ 10000 - healthFactor := by
    unfold LIQUIDATION_THRESHOLD_BPS at hhealth
    omega
  have hpos : 1 ≤ (10000 - healthFactor) * healthMultiplier healthFactor :=
    one_le_mul_of_one_le_of_one_le hbase hmultiplier
  omega

/-- What a call does to the queue. -/
inductive Change (e : HelloWorld.Env) (op : Op) (s : Storage) : Storage → Prop where
  | initialized (config : QueueConfig) (hop : op = .initializeQueue config) :
      Change e op s { s with config := some config, nextId := some 0 }
  | registered (liquidator borrower : Address) (entry : LiquidationQueueEntry)
      (hop : op = .registerLiquidationInterest liquidator borrower)
      (hid : entry.id = getNextId s) (hpending : entry.status = .pending)
      (hscore : ∀ p, s.protocol.books.position borrower = some p → I128.Holds p.debt →
        -2 ^ 127 < entry.priorityScore)
      (hposition : (s.protocol.books.position borrower).isSome)
      (hroom : (getPendingQueueEntries s).length < (getQueueConfig s).maxQueueSize.toNat) :
      Change e op s (withNextId (getNextId s + 1) (setEntry (getNextId s) entry s))
  | swept (hop : op = .getNextLiquidation ∨ op = .cleanupExpiredQueueEntries) :
      Change e op s (agedStore e.timestamp (List.range (getNextId s)) s)
  | completed (id : ℕ) (executor : Address) (entry : LiquidationQueueEntry)
      (hop : op = .processQueueLiquidation id executor) (hentry : s.entry id = some entry)
      (hpending : entry.status = .pending) :
      Change e op s (setEntry id (entry.withStatus .completed) s)
  | cancelled (id : ℕ) (caller : Address) (entry : LiquidationQueueEntry)
      (hop : op = .cancelQueueEntry id caller) (hentry : s.entry id = some entry)
      (hpending : entry.status = .pending) :
      Change e op s (setEntry id (entry.withStatus .cancelled) s)
  | core (op' : HelloWorld.Op) (t : HelloWorld.Storage) (hop : op = .core op')
      (hstep : HelloWorld.step ⟨e, op'⟩ s.protocol = some t) :
      Change e op s { s with protocol := t }

theorem registerLiquidationInterest_ok {liquidator borrower : Address} {id : ℕ}
    (h : registerLiquidationInterest liquidator borrower e s = .ok id s') :
    id = getNextId s ∧ Change e (.registerLiquidationInterest liquidator borrower) s s' := by
  simp only [registerLiquidationInterest, bind_ok, requireAuth_ok, ↓failIf_seq, ↓view_seq,
    ↓okOr_seq, ↓orTrap_seq, ↓asks_seq, ↓store_seq, pure_ok, U64.checkedAdd_eq_some,
    getUserPositionSummary, not_le, and_assoc, exists_and_left, exists_eq_left', exists_const] at h
  obtain ⟨-, healthFactor, t, hhealth, hunhealthy, hroom, position, hposition, score, hscore, n,
    hexpires, rfl, m, hnext, rfl, rfl, rfl⟩ := h
  obtain rfl := calculateHealthFactor_reads hhealth
  refine ⟨rfl, .registered liquidator borrower _ rfl rfl rfl (fun p hp hdebt => ?_) ?_ hroom⟩
  · obtain rfl := Option.some.inj (hp.symm.trans hposition)
    exact calculatePriorityScore_lower hunhealthy hdebt hscore
  · rw [hposition]
    rfl

theorem processQueueLiquidation_ok {id : ℕ} {executor : Address} {u : Unit}
    (h : processQueueLiquidation id executor e s = .ok u s') :
    Change e (.processQueueLiquidation id executor) s s' := by
  simp only [processQueueLiquidation, requireAuth_seq, view_seq, okOr_seq, failIf_seq, asks_seq,
    not_not] at h
  obtain ⟨-, entry, hentry, hpending, h⟩ := h
  by_cases hage : entry.expiresAt < e.timestamp
  · simp [if_pos hage] at h
  · simp only [if_neg hage, bind_ok] at h
    obtain ⟨health, t, hhealth, h⟩ := h
    obtain rfl := calculateHealthFactor_reads hhealth
    by_cases hhealthy : LIQUIDATION_THRESHOLD_BPS ≤ health
    · simp [if_pos hhealthy] at h
    · simp only [if_neg hhealthy, store_seq, store_ok, setEntry, update_idem] at h
      rw [← h]
      exact .completed id executor entry rfl hentry hpending

theorem cancelQueueEntry_ok {id : ℕ} {caller : Address} {u : Unit}
    (h : cancelQueueEntry id caller e s = .ok u s') :
    Change e (.cancelQueueEntry id caller) s s' := by
  simp only [cancelQueueEntry, requireAuth_seq, view_seq, okOr_seq, failIf_seq, store_ok, not_not]
    at h
  obtain ⟨-, entry, hentry, -, -, -, hpending, rfl⟩ := h
  exact .cancelled id caller entry rfl hentry hpending

/-- A queue without pending entries is not aged. -/
theorem agedStore_of_empty {now : ℕ} (h : getPendingQueueEntries s = []) :
    agedStore now (List.range (getNextId s)) s = s := by
  have hsame : (agedStore now (List.range (getNextId s)) s).entry = s.entry := by
    funext id
    rcases hentry : s.entry id with _ | entry
    · simp [agedStore, hentry]
    · by_cases hid : id < getNextId s
      · have hpending : entry.status ≠ .pending := by
          intro hpending
          have hmem := mem_getPendingQueueEntries.mpr ⟨id, hid, hentry, hpending⟩
          rw [h] at hmem
          cases hmem
        simp [agedStore, hentry, LiquidationQueueEntry.aged, hpending]
      · simp [agedStore, hentry, hid]
  rw [show agedStore now (List.range (getNextId s)) s =
    { s with entry := (agedStore now (List.range (getNextId s)) s).entry } from rfl, hsame]

/-- **The next liquidation is selected from the queue after a sweep.** -/
theorem getNextLiquidation_ok {r : Option LiquidationQueueEntry}
    (h : getNextLiquidation e s = .ok r s') :
    s' = agedStore e.timestamp (List.range (getNextId s)) s ∧
      r = selectEntry (getQueueConfig s) (getPendingQueueEntries s') := by
  simp only [getNextLiquidation, view_seq] at h
  by_cases hqueue : getPendingQueueEntries s = []
  · simp only [if_pos hqueue, pure_ok] at h
    obtain ⟨rfl, rfl⟩ := h
    refine ⟨(agedStore_of_empty hqueue).symm, ?_⟩
    rw [hqueue, selectEntry]
    split <;> rfl
  · simp only [if_neg hqueue, bind_ok, ↓view_seq, pure_ok] at h
    obtain ⟨cleaned, t, hsweep, rfl, rfl⟩ := h
    exact ⟨cleanupExpiredEntries_ok hsweep, rfl⟩

/-- **Every call makes one of these changes.** -/
theorem step_change (h : step tx s = some s') : Change tx.env tx.op s s' := by
  obtain ⟨e, op⟩ := tx
  cases op
  case core op =>
    obtain ⟨t, ht, rfl⟩ := Option.map_eq_some_iff.mp h
    exact .core op t rfl ht
  all_goals
    simp only [step, Op.apply, commit_eq_some] at h
    obtain ⟨r, h⟩ := h
  case initializeQueue config =>
    obtain rfl := store_ok.mp h
    exact .initialized config rfl
  case registerLiquidationInterest => exact (registerLiquidationInterest_ok h).2
  case getNextLiquidation =>
    rw [(getNextLiquidation_ok h).1]
    exact .swept (.inl rfl)
  case processQueueLiquidation => exact processQueueLiquidation_ok h
  case cancelQueueEntry => exact cancelQueueEntry_ok h
  case cleanupExpiredQueueEntries =>
    rw [cleanupExpiredEntries_ok h]
    exact .swept (.inr rfl)

end StellarLend.LiquidationQueue
