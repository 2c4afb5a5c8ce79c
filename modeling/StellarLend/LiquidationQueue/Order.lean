import StellarLend.Foundations.Numbering
import StellarLend.HelloWorld.Conservation
import StellarLend.LiquidationQueue.Effects

/-!
# LiquidationQueue/Order — who is next, and what an entry may become

    pending ──▸ completed | cancelled | expired

An entry keeps its number and, once it has left the pending state, its status, and the next
liquidation is the first best of the pending entries: as long as the queue is not set up again over
entries it has.  That an entry is completed says nothing about its borrower, whom no call of the
queue liquidates.
-/

namespace StellarLend.LiquidationQueue

open Foundations Call Function
open Lending (Address)
open HelloWorld (LendingError)

variable {e : HelloWorld.Env} {s s' : Storage} {tx : Tx} {id : ℕ} {entry : LiquidationQueueEntry}

/-! ## What holds of every state -/

/-- Entries know their numbers and have a score above the least there is, and the pending ones are
not more than a count can hold. -/
structure Sound (s : Storage) : Prop where
  numbered : ∀ id entry, s.entry id = some entry → entry.id = id
  scored : ∀ id entry, s.entry id = some entry → -2 ^ 127 < entry.priorityScore
  room : (getPendingQueueEntries s).length ≤ U32.MAX
  protocol : HelloWorld.Reachable s.protocol

/-- Every entry keeps its number and its score, and no entry becomes pending. -/
structure Fades (before after : Option LiquidationQueueEntry) : Prop where
  kept : ∀ entry ∈ after, ∃ entry' ∈ before,
    entry.id = entry'.id ∧ entry.priorityScore = entry'.priorityScore
  pending : ∀ entry ∈ after, entry.status = .pending → before = some entry

theorem Fades.refl (entry : Option LiquidationQueueEntry) : Fades entry entry :=
  ⟨fun entry h => ⟨entry, h, rfl, rfl⟩, fun _ h _ => h⟩

theorem Fades.withStatus {status : QueueEntryStatus} (h : status ≠ .pending) :
    Fades (some entry) (some (entry.withStatus status)) :=
  ⟨by rintro _ ⟨⟩; exact ⟨entry, rfl, rfl, rfl⟩, by rintro _ ⟨⟩ hpending; exact absurd hpending h⟩

theorem Fades.aged (now : ℕ) (entry : Option LiquidationQueueEntry) :
    Fades entry (entry.map (LiquidationQueueEntry.aged now)) := by
  rcases entry with _ | entry
  · exact Fades.refl none
  · rw [Option.map_some, LiquidationQueueEntry.aged]
    split
    · exact Fades.withStatus (by decide)
    · exact Fades.refl _

/-- Entries that fade leave no more of them pending. -/
theorem pending_length_le {ids : List ℕ} (h : ∀ id, Fades (s.entry id) (s'.entry id)) :
    (ids.filterMap (pendingEntry s')).length ≤ (ids.filterMap (pendingEntry s)).length := by
  induction ids with
  | nil => exact le_rfl
  | cons id ids ih =>
    rw [List.filterMap_cons, List.filterMap_cons]
    rcases hafter : pendingEntry s' id with _ | entry
    · rcases pendingEntry s id with _ | entry
      · exact ih
      · exact ih.trans (Nat.le_succ _)
    · obtain ⟨hentry, hpending⟩ := pendingEntry_eq_some.mp hafter
      have hbefore : pendingEntry s id = some entry :=
        pendingEntry_eq_some.mpr ⟨(h id).pending entry hentry hpending, hpending⟩
      rw [hbefore]
      exact Nat.succ_le_succ ih

namespace Sound

theorem empty : Sound Storage.empty where
  numbered _ _ h := by cases h
  scored _ _ h := by cases h
  room := Nat.zero_le _
  protocol := ⟨[], rfl⟩

theorem fades (hs : Sound s) (hnext : getNextId s' = getNextId s)
    (hentries : ∀ id, Fades (s.entry id) (s'.entry id)) (hprotocol : s'.protocol = s.protocol) :
    Sound s' where
  numbered id entry h := by
    obtain ⟨before, hbefore, hid, -⟩ := (hentries id).kept entry h
    rw [hid]
    exact hs.numbered id before hbefore
  scored id entry h := by
    obtain ⟨before, hbefore, -, hscore⟩ := (hentries id).kept entry h
    rw [hscore]
    exact hs.scored id before hbefore
  room := by
    rw [getPendingQueueEntries, hnext]
    exact (pending_length_le hentries).trans hs.room
  protocol := hprotocol ▸ hs.protocol

theorem setStatus {status : QueueEntryStatus} (hs : Sound s) (hentry : s.entry id = some entry)
    (hstatus : status ≠ .pending) : Sound (setEntry id (entry.withStatus status) s) := by
  refine hs.fades rfl (fun j => ?_) rfl
  by_cases hj : j = id
  · subst hj
    rw [hentry, setEntry_self]
    exact Fades.withStatus hstatus
  · rw [setEntry_of_ne hj]
    exact Fades.refl _

/-- The new entry is one more pending. -/
theorem register (hs : Sound s) (hid : entry.id = getNextId s)
    (hscore : -2 ^ 127 < entry.priorityScore)
    (hroom : (getPendingQueueEntries s).length < (getQueueConfig s).maxQueueSize.toNat) :
    Sound (withNextId (getNextId s + 1) (setEntry (getNextId s) entry s)) where
  numbered id entry' h := by
    obtain ⟨rfl, rfl⟩ | ⟨-, h⟩ := setEntry_eq_some.mp h
    · exact hid
    · exact hs.numbered id entry' h
  scored id entry' h := by
    obtain ⟨-, rfl⟩ | ⟨-, h⟩ := setEntry_eq_some.mp h
    · exact hscore
    · exact hs.scored id entry' h
  room := by
    have hsame : (List.range (getNextId s)).filterMap
        (pendingEntry (withNextId (getNextId s + 1) (setEntry (getNextId s) entry s))) =
          getPendingQueueEntries s := by
      refine List.filterMap_congr fun id hid' => ?_
      have hne : id ≠ getNextId s := (List.mem_range.mp hid').ne
      rw [pendingEntry, getQueueEntry, withNextId_entry, setEntry_of_ne hne]
      rfl
    have hlast : (getPendingQueueEntries
        (withNextId (getNextId s + 1) (setEntry (getNextId s) entry s))).length ≤
          (getPendingQueueEntries s).length + 1 := by
      rw [getPendingQueueEntries, getNextId_withNextId, List.range_succ, List.filterMap_append,
        hsame, List.length_append]
      exact Nat.add_le_add_left (List.length_filterMap_le _ _) _
    have hmax := (getQueueConfig s).maxQueueSize.toNat_lt
    have hbound : U32.MAX + 1 = 2 ^ 32 := by decide
    omega
  protocol := hs.protocol

/-- **Every call keeps the entries sound.** -/
theorem step (hs : Sound s) (h : step tx s = some s') : Sound s' := by
  cases step_change h with
  | initialized config hop => exact ⟨hs.numbered, hs.scored, Nat.zero_le _, hs.protocol⟩
  | registered liquidator borrower entry hop hid hpending hscore hposition hroom =>
    obtain ⟨p, hp⟩ := Option.isSome_iff_exists.mp hposition
    exact hs.register hid (hscore p hp (hs.protocol.inRange.debt borrower p hp)) hroom
  | swept hop =>
    refine hs.fades rfl (fun id => ?_) rfl
    rw [agedStore]
    dsimp only
    split
    · exact Fades.aged _ _
    · exact Fades.refl _
  | completed id executor entry hop hentry hpending => exact hs.setStatus hentry (by decide)
  | cancelled id caller entry hop hentry hpending => exact hs.setStatus hentry (by decide)
  | core op t hop hstep =>
    obtain ⟨txs, htxs⟩ := hs.protocol
    refine ⟨hs.numbered, hs.scored, hs.room, txs ++ [⟨tx.env, op⟩], ?_⟩
    rw [HelloWorld.ledger, run_snoc]
    refine exec_of_some ?_
    rw [HelloWorld.ledger] at htxs
    rwa [htxs]

theorem ledger (txs : List Tx) : Sound (ledger txs) :=
  run_invariant (fun _ _ _ hstep hs => hs.step hstep) txs empty

end Sound

/-! ## The next liquidation -/

/-- An entry that waits and whose time is not over. -/
def Waits (now : ℕ) (s : Storage) (entry : LiquidationQueueEntry) : Prop :=
  ∃ id, s.entry id = some entry ∧ entry.status = .pending ∧ now ≤ entry.expiresAt

/-- Before another entry by score, or by age; of two alike the one with the lower number. -/
def Precedes (config : QueueConfig) (a b : LiquidationQueueEntry) : Prop :=
  if config.priorityEnabled then
    b.priorityScore < a.priorityScore ∨ b.priorityScore = a.priorityScore ∧ a.id ≤ b.id
  else a.queuedAt < b.queuedAt ∨ b.queuedAt = a.queuedAt ∧ a.id ≤ b.id

/-- The answer is the first of those that wait, or that nobody does. -/
def IsNext (now : ℕ) (s : Storage) : Option LiquidationQueueEntry → Prop
  | some entry => Waits now s entry ∧ ∀ other, Waits now s other →
      Precedes (getQueueConfig s) entry other
  | none => ∀ entry, ¬ Waits now s entry

/-- Every entry is under a number that was given out. -/
def Visible (s : Storage) : Prop := ∀ id entry, s.entry id = some entry → id < getNextId s

/-- After a sweep the pending entries are those that wait. -/
theorem mem_pending_aged {now : ℕ} (hs : Visible s) :
    entry ∈ getPendingQueueEntries (agedStore now (List.range (getNextId s)) s) ↔
      Waits now s entry := by
  rw [mem_getPendingQueueEntries]
  constructor
  · rintro ⟨id, hid, hentry, hpending⟩
    have hid' : id ∈ List.range (getNextId s) := List.mem_range.mpr hid
    simp only [agedStore, if_pos hid'] at hentry
    obtain ⟨before, hbefore, rfl⟩ := Option.map_eq_some_iff.mp hentry
    by_cases hage : before.status = .pending ∧ before.expiresAt < now
    · rw [LiquidationQueueEntry.aged, if_pos hage] at hpending
      cases hpending
    · rw [LiquidationQueueEntry.aged, if_neg hage] at hpending ⊢
      exact ⟨id, hbefore, hpending, not_lt.mp fun hlt => hage ⟨hpending, hlt⟩⟩
  · rintro ⟨id, hentry, hpending, hin⟩
    have hid := hs id entry hentry
    refine ⟨id, hid, ?_, hpending⟩
    have hid' : id ∈ List.range (getNextId s) := List.mem_range.mpr hid
    simp only [agedStore, if_pos hid', hentry, Option.map_some, LiquidationQueueEntry.aged,
      not_lt.mpr hin, and_false, if_false]

/-- The pending entries are listed in the order of their numbers. -/
theorem pending_rises (hs : Sound s) :
    (getPendingQueueEntries s).Pairwise fun a b => a.id < b.id := by
  rw [getPendingQueueEntries, List.pairwise_filterMap]
  refine List.pairwise_lt_range.imp fun hlt a ha b hb => ?_
  rw [hs.numbered _ a (pendingEntry_eq_some.mp ha).1,
    hs.numbered _ b (pendingEntry_eq_some.mp hb).1]
  exact hlt

/-- If entries are taken by age and one waits, one waits that was queued before the last second
there is. -/
def OldestInTime (now : ℕ) (s : Storage) : Prop :=
  (getQueueConfig s).priorityEnabled = false →
    (∃ entry ∈ getPendingQueueEntries s, now ≤ entry.expiresAt) →
      ∃ entry ∈ getPendingQueueEntries s, now ≤ entry.expiresAt ∧ entry.queuedAt < U64.MAX

/-- **The next liquidation is the first best of the entries that wait.** -/
theorem getNextLiquidation_isNext {r : Option LiquidationQueueEntry} (hs : Sound s)
    (hvisible : Visible s) (hold : OldestInTime e.timestamp s)
    (h : getNextLiquidation e s = .ok r s') : IsNext e.timestamp s r := by
  have hstep : step ⟨e, .getNextLiquidation⟩ s = some s' := commit_eq_some.mpr ⟨r, h⟩
  have hswept : Sound s' := hs.step hstep
  obtain ⟨rfl, rfl⟩ := getNextLiquidation_ok h
  have hrises := pending_rises hswept
  have hmem : ∀ entry, entry ∈ getPendingQueueEntries
      (agedStore e.timestamp (List.range (getNextId s)) s) ↔ Waits e.timestamp s entry :=
    fun _ => mem_pending_aged hvisible
  generalize getPendingQueueEntries (agedStore e.timestamp (List.range (getNextId s)) s) = queue
    at hrises hmem
  unfold selectEntry
  split
  next hpriority =>
    rcases hscan : scan LiquidationQueueEntry.priorityScore (-2 ^ 127) queue with _ | entry
    · intro entry hwaits
      have hle := scan_eq_none.mp hscan entry ((hmem entry).mpr hwaits)
      obtain ⟨id, hentry, -⟩ := hwaits
      exact absurd hle (not_le.mpr (hs.scored id entry hentry))
    · have hbest := scan_eq_some hscan
      refine ⟨(hmem entry).mp hbest.mem, fun other hother => ?_⟩
      rw [Precedes, if_pos hpriority]
      exact hbest.least hrises ((hmem other).mpr hother)
  next hpriority =>
    generalize hscan : scan _ (OrderDual.toDual U64.MAX) queue = found
    rcases found with _ | entry
    · intro entry hwaits
      obtain ⟨id, hentry, hpending, hin⟩ := hwaits
      have hlisted := mem_getPendingQueueEntries.mpr
        ⟨id, hvisible id entry hentry, hentry, hpending⟩
      obtain ⟨other, hother, hotherIn, hqueued⟩ :=
        hold (Bool.eq_false_iff.mpr hpriority) ⟨entry, hlisted, hin⟩
      obtain ⟨id', -, hentry', hpending'⟩ := mem_getPendingQueueEntries.mp hother
      have hle := scan_eq_none.mp hscan other ((hmem other).mpr ⟨id', hentry', hpending', hotherIn⟩)
      exact absurd (OrderDual.toDual_le_toDual.mp hle) (not_le.mpr hqueued)
    · have hbest := scan_eq_some hscan
      refine ⟨(hmem entry).mp hbest.mem, fun other hother => ?_⟩
      rw [Precedes, if_neg hpriority]
      exact hbest.least hrises ((hmem other).mpr hother)

/-- A sweep over entries of which not too many are pending comes to its end. -/
theorem sweep_total {now : ℕ} {ids : List ℕ} {cleaned : ℕ} (hnodup : ids.Nodup)
    (hroom : cleaned + (ids.filterMap (pendingEntry s)).length ≤ U32.MAX) :
    ∃ cleaned' s', sweep now ids cleaned e s = .ok cleaned' s' := by
  induction ids generalizing cleaned s with
  | nil => exact ⟨cleaned, s, rfl⟩
  | cons id ids ih =>
    obtain ⟨hid, hnodup⟩ := List.nodup_cons.mp hnodup
    simp only [sweep, view_seq, getQueueEntry]
    have hlen : (ids.filterMap (pendingEntry s)).length ≤
        ((id :: ids).filterMap (pendingEntry s)).length := by
      rw [List.filterMap_cons]
      split
      · exact le_rfl
      · exact Nat.le_succ _
    rcases hentry : s.entry id with _ | entry
    · exact ih hnodup (le_trans (Nat.add_le_add_left hlen _) hroom)
    · by_cases hage : entry.status = .pending ∧ entry.expiresAt < now
      · have hpending := pendingEntry_eq_some.mpr ⟨hentry, hage.1⟩
        rw [List.filterMap_cons, hpending, List.length_cons] at hroom
        have hsame : ids.filterMap (pendingEntry (setEntry id (entry.withStatus .expired) s)) =
            ids.filterMap (pendingEntry s) := by
          refine List.filterMap_congr fun j hj => ?_
          have hne : j ≠ id := fun h => hid (h ▸ hj)
          rw [pendingEntry, getQueueEntry, setEntry_of_ne hne]
          rfl
        simp only [if_pos hage, store_seq, orTrap_seq, U32.checkedAdd_eq_some, and_assoc,
          exists_and_left, exists_eq_left']
        have hroom' : cleaned + 1 + (ids.filterMap
            (pendingEntry (setEntry id (entry.withStatus .expired) s))).length ≤ U32.MAX := by
          rw [hsame]
          omega
        obtain ⟨cleaned', t, hrest⟩ := ih hnodup hroom'
        exact ⟨by omega, cleaned', t, hrest⟩
      · simp only [if_neg hage]
        exact ih hnodup (le_trans (Nat.add_le_add_left hlen _) hroom)

/-- **Asking for the next liquidation always gets an answer.** -/
theorem getNextLiquidation_total (hs : Sound s) :
    ∃ r s', getNextLiquidation e s = .ok r s' := by
  simp only [getNextLiquidation, view_seq]
  by_cases hqueue : getPendingQueueEntries s = []
  · simp only [if_pos hqueue]
    exact ⟨none, s, rfl⟩
  · obtain ⟨cleaned, t, hsweep⟩ : ∃ cleaned t,
        sweep e.timestamp (List.range (getNextId s)) 0 e s = .ok cleaned t :=
      sweep_total List.nodup_range (by rw [Nat.zero_add]; exact hs.room)
    simp only [if_neg hqueue, bind_ok, ↓view_seq, pure_ok, cleanupExpiredEntries, ↓asks_seq]
    exact ⟨_, t, cleaned, t, hsweep, rfl, rfl⟩

/-! ## Runs that are not set up again -/

/-- The queue is set up while no number has been given out, and when entries are taken by age the
oldest is in time. -/
def Orderly (s : Storage) (tx : Tx) : Prop :=
  match tx.op with
  | .initializeQueue _ => getNextId s = 0
  | .getNextLiquidation => OldestInTime tx.env.timestamp s
  | _ => True

instance (now : ℕ) (s : Storage) : Decidable (OldestInTime now s) :=
  inferInstanceAs (Decidable (_ → _ → _))

instance (s : Storage) : (tx : Tx) → Decidable (Orderly s tx)
  | ⟨_, .initializeQueue _⟩ => inferInstanceAs (Decidable (getNextId s = 0))
  | ⟨e, .getNextLiquidation⟩ => inferInstanceAs (Decidable (OldestInTime e.timestamp s))
  | ⟨_, .registerLiquidationInterest ..⟩ | ⟨_, .processQueueLiquidation ..⟩
  | ⟨_, .cancelQueueEntry ..⟩ | ⟨_, .cleanupExpiredQueueEntries⟩ | ⟨_, .core _⟩ => .isTrue trivial

theorem Visible.setEntry (hs : Visible s) (hentry : s.entry id = some entry)
    (entry' : LiquidationQueueEntry) : Visible (LiquidationQueue.setEntry id entry' s) := by
  intro j other hj
  obtain ⟨rfl, -⟩ | ⟨-, hj⟩ := setEntry_eq_some.mp hj
  · exact hs j entry hentry
  · exact hs j other hj

theorem Visible.step (hs : Visible s) (hstep : LiquidationQueue.step tx s = some s')
    (htx : Orderly s tx) : Visible s' := by
  obtain ⟨e, op⟩ := tx
  cases step_change hstep with
  | initialized config hop =>
    obtain rfl : op = _ := hop
    intro id entry h
    have hid := hs id entry h
    rw [show getNextId s = 0 from htx] at hid
    exact absurd hid (Nat.not_lt_zero id)
  | registered liquidator borrower entry hop hid hpending hscore hposition hroom =>
    intro j other hj
    rw [getNextId_withNextId]
    obtain ⟨rfl, -⟩ | ⟨-, hj⟩ := setEntry_eq_some.mp hj
    · exact Nat.lt_succ_self _
    · exact Nat.lt_succ_of_lt (hs j other hj)
  | swept hop =>
    intro j other hj
    rw [agedStore] at hj
    dsimp only at hj
    split at hj
    · exact List.mem_range.mp ‹_›
    · exact hs j other hj
  | completed id executor entry hop hentry hpending => exact hs.setEntry hentry _
  | cancelled id caller entry hop hentry hpending => exact hs.setEntry hentry _
  | core op t hop hcore => exact hs

/-- An entry that is not pending stays as it is. -/
theorem settled_of_visible (hs : Visible s) (hstep : step tx s = some s')
    (hentry : s.entry id = some entry) (hstatus : entry.status ≠ .pending) :
    s'.entry id = some entry := by
  have hother : ∀ {j entry' status}, s.entry j = some entry' → entry'.status = .pending →
      (setEntry j (entry'.withStatus status) s).entry id = some entry := by
    intro j entry' status hj hpending
    have hne : id ≠ j := by
      rintro rfl
      obtain rfl := Option.some.inj (hentry.symm.trans hj)
      exact hstatus hpending
    rwa [setEntry_of_ne hne]
  cases step_change hstep with
  | initialized config hop => exact hentry
  | registered liquidator borrower entry' hop hid hpending hscore hposition hroom =>
    rw [withNextId_entry, setEntry_of_ne (hs id entry hentry).ne]
    exact hentry
  | swept hop =>
    have hsame : entry.aged tx.env.timestamp = entry := by
      rw [LiquidationQueueEntry.aged, if_neg fun hage => hstatus hage.1]
    simp only [agedStore, hentry, Option.map_some, hsame, ite_self]
  | completed j executor entry' hop hj hpending => exact hother hj hpending
  | cancelled j caller entry' hop hj hpending => exact hother hj hpending
  | core op t hop hcore => exact hentry

/-- The number a registration returns. -/
def Tx.issued (s : Storage) (tx : Tx) : List ℕ :=
  match tx.op with
  | .registerLiquidationInterest liquidator borrower =>
    (registerLiquidationInterest liquidator borrower tx.env s).value.toList
  | _ => []

/-- The numbers a sequence of transactions gives out, first to last. -/
def issued (txs : List Tx) : List ℕ := history step Tx.issued Storage.empty txs

theorem issued_advances (hstep : step tx s = some s') (htx : Orderly s tx) :
    Advances (tx.issued s) (getNextId s) (getNextId s') := by
  obtain ⟨e, op⟩ := tx
  cases step_change hstep with
  | initialized config hop =>
    obtain rfl : op = _ := hop
    exact Advances.nil (le_of_eq htx)
  | registered liquidator borrower entry hop hid hpending hscore hposition hroom =>
    obtain rfl : op = _ := hop
    obtain ⟨id, hrun⟩ := commit_eq_some.mp hstep
    have hissued : Tx.issued s ⟨e, .registerLiquidationInterest liquidator borrower⟩ =
        [getNextId s] := by
      rw [← (registerLiquidationInterest_ok hrun).1]
      simp only [Tx.issued, hrun, Outcome.value, Option.toList_some]
    rw [hissued]
    exact Advances.single (Nat.lt_succ_self _)
  | swept hop =>
    rcases hop with hop | hop <;> obtain rfl : op = _ := hop <;> exact Advances.nil le_rfl
  | completed id executor entry hop hentry hpending =>
    obtain rfl : op = _ := hop
    exact Advances.nil le_rfl
  | cancelled id caller entry hop hentry hpending =>
    obtain rfl : op = _ := hop
    exact Advances.nil le_rfl
  | core op' t hop hcore =>
    obtain rfl : op = _ := hop
    exact Advances.nil le_rfl

/-! ## Completions -/

/-- An entry is on record as completed. -/
def Completed (s : Storage) (id : ℕ) : Prop := ∃ entry ∈ s.entry id, entry.status = .completed

/-- What an account owes in the rest of the contract. -/
def debtOf (s : Storage) (a : Address) : ℤ :=
  (s.protocol.books.position a).elim 0 HelloWorld.Position.debt

/-- A liquidation takes some of what the borrower owes. -/
def Liquidated (borrower : Address) (s s' : Storage) : Prop :=
  debtOf s' borrower < debtOf s borrower

/-- No entry is processed. -/
def NotProcessed (_ : Storage) (tx : Tx) : Prop :=
  ∀ id executor, tx.op ≠ .processQueueLiquidation id executor

/-- **A call completes only entries whose borrower it liquidates exactly if it processes none.** -/
theorem notProcessed_iff (hstep : step tx s = some s') :
    NotProcessed s tx ↔ ∀ id entry, s'.entry id = some entry → entry.status = .completed →
      ¬ Completed s id → Liquidated entry.borrower s s' := by
  obtain ⟨e, op⟩ := tx
  cases step_change hstep with
  | completed id executor entry hop hentry hpending =>
    refine iff_of_false (fun h => h id executor hop) fun hall => ?_
    have hbefore : ¬ Completed s id := by
      rintro ⟨entry', hentry', hcompleted⟩
      obtain rfl := Option.some.inj (hentry.symm.trans hentry')
      rw [hpending] at hcompleted
      cases hcompleted
    exact lt_irrefl _ (hall id _ setEntry_self rfl hbefore)
  | initialized config hop =>
    refine iff_of_true (fun id x h => by cases hop.symm.trans h) fun id entry h hstatus hnot => ?_
    exact absurd ⟨entry, h, hstatus⟩ hnot
  | registered liquidator borrower entry hop hid hpending hscore hposition hroom =>
    refine iff_of_true (fun id x h => by cases hop.symm.trans h) fun id entry' h hstatus hnot => ?_
    obtain ⟨-, rfl⟩ | ⟨-, h⟩ := setEntry_eq_some.mp h
    · rw [hpending] at hstatus
      cases hstatus
    · exact absurd ⟨entry', h, hstatus⟩ hnot
  | swept hop =>
    refine iff_of_true (fun id x h => ?_) fun id entry' h hstatus hnot => ?_
    · rcases hop with hop | hop <;> cases hop.symm.trans h
    · rw [agedStore] at h
      dsimp only at h
      split at h
      · obtain ⟨entry, hentry, rfl⟩ := Option.map_eq_some_iff.mp h
        rw [LiquidationQueueEntry.aged] at hstatus
        split at hstatus
        · cases hstatus
        · exact absurd ⟨entry, hentry, hstatus⟩ hnot
      · exact absurd ⟨entry', h, hstatus⟩ hnot
  | cancelled j caller entry hop hentry hpending =>
    refine iff_of_true (fun id x h => by cases hop.symm.trans h) fun id entry' h hstatus hnot => ?_
    obtain ⟨-, rfl⟩ | ⟨-, h⟩ := setEntry_eq_some.mp h
    · cases hstatus
    · exact absurd ⟨entry', h, hstatus⟩ hnot
  | core op t hop hcore =>
    refine iff_of_true (fun id x h => by cases hop.symm.trans h) fun id entry h hstatus hnot => ?_
    exact absurd ⟨entry, h, hstatus⟩ hnot

/-- **In every run that is orderly, the next liquidation is always answered and is the first best of
those that wait, no number is given out twice, and what has left the pending state stays; and every
completion liquidates the borrower exactly if nothing is processed.** -/
theorem queue_orderly {txs : List Tx} (h : Meets step Orderly Storage.empty txs) :
    (∀ e, ∃ r s', getNextLiquidation e (ledger txs) = .ok r s') ∧
    (∀ ys e zs r s', txs = ys ++ ⟨e, .getNextLiquidation⟩ :: zs →
      getNextLiquidation e (ledger ys) = .ok r s' → IsNext e.timestamp (ledger ys) r) ∧
    (issued txs).Nodup ∧
    (∀ ys, ys <+: txs → ∀ id entry, (ledger ys).entry id = some entry →
      entry.status ∈ [.completed, .cancelled, .expired] → (ledger txs).entry id = some entry) ∧
    ((∀ ys tx zs s', txs = ys ++ tx :: zs → step tx (ledger ys) = some s' →
      ∀ id entry, s'.entry id = some entry → entry.status = .completed →
        ¬ Completed (ledger ys) id → Liquidated entry.borrower (ledger ys) s') ↔
      Meets step NotProcessed Storage.empty txs) := by
  have hempty : Visible Storage.empty := fun _ _ hentry => by cases hentry
  have hvisible : ∀ {ys zs : List Tx}, txs = ys ++ zs → Visible (ledger ys) := by
    rintro ys zs rfl
    exact (meets_append.mp h).1.invariant (fun _ _ _ hstep htx hs => hs.step hstep htx) hempty
  refine ⟨fun e => getNextLiquidation_total (Sound.ledger txs), ?_, ?_, ?_, ?_⟩
  · rintro ys e zs r s' rfl hrun
    have hcall : (step ⟨e, .getNextLiquidation⟩ (ledger ys)).isSome :=
      Option.isSome_iff_exists.mpr ⟨s', commit_eq_some.mpr ⟨r, hrun⟩⟩
    exact getNextLiquidation_isNext (Sound.ledger ys) (hvisible rfl)
      ((meets_append.mp h).2.1 hcall) hrun
  · have hadvances : Advances (issued txs) (getNextId Storage.empty) (getNextId (ledger txs)) :=
      h.advances fun _ _ _ hstep htx => issued_advances hstep htx
    exact hadvances.nodup
  · rintro ys ⟨zs, rfl⟩ id entry hentry hstatus
    have hpending : entry.status ≠ .pending := by
      intro hpending
      simp [hpending] at hstatus
    rw [ledger, run_append]
    have hrest := (meets_append.mp h).2
    refine (hrest.invariant (I := fun s => Visible s ∧ s.entry id = some entry)
      (fun s tx s' hstep htx hs => ⟨hs.1.step hstep htx, ?_⟩) ⟨hvisible rfl, hentry⟩).2
    exact settled_of_visible hs.1 hstep hs.2 hpending
  · exact (meets_iff_steps (C := NotProcessed) (I := fun _ => True)
      (P := fun s _ s' => ∀ id entry, s'.entry id = some entry → entry.status = .completed →
        ¬ Completed s id → Liquidated entry.borrower s s')
      (fun _ _ _ hstep _ => notProcessed_iff hstep) (fun _ _ _ _ _ _ => trivial) trivial).symm

namespace Sample

open HelloWorld.Sample (admin alice bob usdc envAt)

/-- Alice owes 5000 against 1000 of a token at ten. -/
def unhealthy : List Tx := [
    ⟨envAt 1 [admin], .core (.initializeContract admin)⟩,
    ⟨envAt 2 [admin], .core (.updateAssetConfig usdc ⟨true, 10000, 0, 0⟩)⟩,
    ⟨envAt 3 [admin], .core (.updatePriceFeed admin usdc 1000000000 8 admin)⟩,
    ⟨envAt 5 [alice], .core (.depositCollateral alice (some usdc) 1000)⟩,
    ⟨envAt 6 [alice], .core (.borrowAsset alice none 5000)⟩]

/-- Bob registers twice, asks who is next, and takes one entry back. -/
def queued : List Tx := unhealthy ++ [
    ⟨envAt 6 [], .initializeQueue defaultConfig⟩,
    ⟨envAt 7 [bob], .registerLiquidationInterest bob alice⟩,
    ⟨envAt 8 [bob], .registerLiquidationInterest bob alice⟩,
    ⟨envAt 9 [], .getNextLiquidation⟩,
    ⟨envAt 10 [bob], .cancelQueueEntry 0 bob⟩]

/-- Bob registers, the entry is processed, somebody sets the queue up again, and bob registers. -/
def restarted : List Tx := unhealthy ++ [
    ⟨envAt 7 [bob], .registerLiquidationInterest bob alice⟩,
    ⟨envAt 8 [bob], .processQueueLiquidation 0 bob⟩,
    ⟨envAt 9 [], .initializeQueue defaultConfig⟩,
    ⟨envAt 10 [bob], .registerLiquidationInterest bob alice⟩]

theorem queue_orderly_queued :
    Meets step Orderly Storage.empty queued ∧ (issued queued).length = 2 ∧
      (issued queued).Nodup := by
  have h : Meets step Orderly Storage.empty queued := by decide
  exact ⟨h, by decide, (queue_orderly h).2.2.1⟩

/-- **A number is given out twice, a completed entry is pending again, and its completion left the
borrower's debt alone.** -/
theorem entry_restarted :
    ¬ (issued restarted).Nodup ∧
      ((ledger (restarted.take 7)).entry 0).map (·.status) = some .completed ∧
      ((ledger restarted).entry 0).map (·.status) = some .pending ∧
      debtOf (ledger (restarted.take 7)) alice = debtOf (ledger (restarted.take 6)) alice := by
  decide

end Sample

end StellarLend.LiquidationQueue
