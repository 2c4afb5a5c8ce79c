import StellarLend.Foundations.IndexedMap
import StellarLend.Foundations.Numbering
import StellarLend.Governance.Effects
import StellarLend.Timelock.Contract

/-!
# Timelock/Authority — who stands behind a change

    queued ──▸ executed | cancelled

An operation is executed at most once, in its time and not after a cancellation, and it is one that
the admin of governance queued: as long as nobody else queues, and the timelock is not set up again
over operations it has.  The code asks for neither.
-/

namespace StellarLend.Timelock

open Foundations Call Function
open Lending (Address)
open Governance (ProposalType)

variable {e : HelloWorld.Env} {s s' : Storage} {tx : Tx} {id : ℕ} {operation : TimelockOperation}

/-! ## What a call does -/

/-- The store with a next number. -/
def withNextId (nextId : ℕ) (s : Storage) : Storage := { s with nextTimelockId := some nextId }

@[simp] theorem setOperation_self : (setOperation id operation s).operation id = some operation :=
  update_self ..

theorem setOperation_of_ne {j : ℕ} (h : j ≠ id) :
    (setOperation id operation s).operation j = s.operation j := update_of_ne h ..

/-- What is on record after a write is what was written, or was on record before. -/
theorem setOperation_eq_some {j : ℕ} {other : TimelockOperation} :
    (setOperation id operation s).operation j = some other ↔
      j = id ∧ operation = other ∨ j ≠ id ∧ s.operation j = some other :=
  update_eq_some

@[simp] theorem withNextId_operation (n : ℕ) : (withNextId n s).operation = s.operation := rfl

@[simp] theorem getNextId_withNextId (n : ℕ) : getNextId (withNextId n s) = n := rfl

@[simp] theorem validateConfig_ok {config : TimelockConfig} {u : Unit} :
    validateConfig config e s = .ok u s' ↔ config.minDelay ≤ config.maxDelay ∧
      (config.minDelay ≤ config.defaultDelay ∧ config.defaultDelay ≤ config.maxDelay) ∧
        s = s' := by
  simp only [validateConfig, failIf_seq, failIf_ok, not_lt, not_or]

/-- An execution in its time. -/
structure Executes (e : HelloWorld.Env) (s : Storage) (id : ℕ) (operation : TimelockOperation)
    (t : HelloWorld.Storage) : Prop where
  stored : s.operation id = some operation
  isOpen : operation.Open
  ready : operation.readyAt ≤ e.timestamp
  inTime : e.timestamp ≤ operation.expiresAt
  applies : Governance.Applies e operation.proposalType s.governance.protocol t

/-- The store after an execution. -/
def afterExecution (id : ℕ) (operation : TimelockOperation) (t : HelloWorld.Storage)
    (s : Storage) : Storage :=
  setOperation id (operation.withStatus .executed)
    { s with governance := { s.governance with protocol := t } }

/-- What a call does to the timelock. -/
inductive Change (e : HelloWorld.Env) (op : Op) (s : Storage) : Storage → Prop where
  | initialized (config : TimelockConfig) (hop : op = .initializeTimelock config) :
      Change e op s { s with config := some config, nextTimelockId := some 0 }
  | configured (admin : Address) (config : TimelockConfig)
      (hop : op = .updateTimelockConfig admin config) :
      Change e op s { s with config := some config }
  | queued (proposer : Address) (proposalType : ProposalType) (description : String)
      (customDelay : Option ℕ) (operation : TimelockOperation)
      (hop : op = .queueTimelockOperation proposer proposalType description customDelay)
      (hproposer : operation.proposer = proposer) (htype : operation.proposalType = proposalType)
      (hopen : operation.status = .pending) (hid : operation.id = getNextId s) :
      Change e op s (withNextId (getNextId s + 1) (setOperation (getNextId s) operation s))
  | executed (executor : Address) (id : ℕ) (operation : TimelockOperation) (t : HelloWorld.Storage)
      (hop : op = .executeTimelockOperation executor id) (h : Executes e s id operation t) :
      Change e op s (afterExecution id operation t s)
  | cancelled (caller : Address) (id : ℕ) (operation : TimelockOperation)
      (hop : op = .cancelTimelockOperation caller id) (hstored : s.operation id = some operation)
      (hopen : operation.Open) :
      Change e op s (setOperation id (operation.withStatus .cancelled) s)
  | governance (op' : Governance.Op) (t : Governance.Storage) (hop : op = .governance op') :
      Change e op s { s with governance := t }

theorem queueTimelockOperation_ok {proposer : Address} {proposalType : ProposalType}
    {description : String} {customDelay : Option ℕ}
    (h : queueTimelockOperation proposer proposalType description customDelay e s = .ok id s') :
    id = getNextId s ∧
      Change e (.queueTimelockOperation proposer proposalType description customDelay) s s' := by
  simp only [queueTimelockOperation, requireAuth_seq, view_seq, failIf_seq, asks_seq, orTrap_seq,
    store_seq, pure_ok, U64.checkedAdd_eq_some, and_assoc, exists_and_left, exists_eq_left'] at h
  obtain ⟨-, -, -, -, -, rfl, rfl⟩ := h
  exact ⟨rfl, .queued proposer proposalType description customDelay _ rfl rfl rfl rfl rfl⟩

theorem executeTimelockOperation_ok {executor : Address} {u : Unit}
    (h : executeTimelockOperation executor id e s = .ok u s') :
    Change e (.executeTimelockOperation executor id) s s' := by
  simp only [executeTimelockOperation, bind_ok, requireAuth_ok, ↓view_seq, ↓okOr_seq, ↓failIf_seq,
    ↓asks_seq, onlyIf_ok, ↓store_seq, store_ok, fail_ok, ofGovernance_ok, not_not, not_lt,
    getTimelockOperation, and_assoc, exists_and_left, exists_eq_left', exists_const] at h
  obtain ⟨-, operation, hstored, hopen, hready, hlate, _, hkept, _, _, ⟨g, heffect, rfl⟩, rfl⟩ := h
  have hintime : e.timestamp ≤ operation.expiresAt := not_lt.mp hlate
  obtain rfl := hkept hintime
  obtain ⟨t, rfl, happlies⟩ := Governance.executeProposalType_effect heffect
  exact .executed executor id operation t rfl ⟨hstored, hopen, hready, hintime, happlies⟩

theorem cancelTimelockOperation_ok {caller : Address} {u : Unit}
    (h : cancelTimelockOperation caller id e s = .ok u s') :
    Change e (.cancelTimelockOperation caller id) s s' := by
  simp only [cancelTimelockOperation, bind_ok, requireAuth_ok, ↓view_seq, ↓okOr_seq, ↓failIf_seq,
    store_ok, ofGovernance_ok, Governance.getAdmin_ok, not_not, getTimelockOperation, and_assoc,
    exists_and_left, exists_eq_left', exists_const] at h
  obtain ⟨-, operation, hstored, _, -, -, hopen, rfl⟩ := h
  exact .cancelled caller id operation rfl hstored hopen

/-- **Every call makes one of these changes.** -/
theorem step_change (h : step tx s = some s') : Change tx.env tx.op s s' := by
  obtain ⟨e, op⟩ := tx
  cases op
  case governance op =>
    obtain ⟨t, -, rfl⟩ := Option.map_eq_some_iff.mp h
    exact .governance op t rfl
  all_goals
    simp only [step, Op.apply, commit_eq_some] at h
    obtain ⟨r, h⟩ := h
  case initializeTimelock config =>
    simp only [initializeTimelock, bind_ok, validateConfig_ok, store_ok, and_assoc, exists_and_left,
      exists_eq_left', exists_const] at h
    obtain ⟨-, -, -, rfl⟩ := h
    exact .initialized config rfl
  case queueTimelockOperation => exact (queueTimelockOperation_ok h).2
  case executeTimelockOperation => exact executeTimelockOperation_ok h
  case cancelTimelockOperation => exact cancelTimelockOperation_ok h
  case updateTimelockConfig admin config =>
    simp only [updateTimelockConfig, bind_ok, requireAuth_ok, ofGovernance_ok,
      Governance.getAdmin_ok, ↓failIf_seq, validateConfig_ok, store_ok, and_assoc, exists_and_left,
      exists_eq_left', exists_const] at h
    obtain ⟨-, _, -, -, -, -, -, rfl⟩ := h
    exact .configured admin config rfl

/-! ## The record of a run -/

/-- What happens to an operation.  A queueing is recorded with the admin of governance of that
moment. -/
inductive Event where
  | queued (id : ℕ) (proposer : Address) (proposalType : ProposalType) (admin : Option Address)
  | executed (id : ℕ)
  | cancelled (id : ℕ)
  deriving DecidableEq

/-- The number a queueing returns. -/
def Tx.issued (s : Storage) (tx : Tx) : List ℕ :=
  match tx.op with
  | .queueTimelockOperation proposer proposalType description customDelay =>
    (queueTimelockOperation proposer proposalType description customDelay tx.env s).value.toList
  | _ => []

/-- What a transaction records. -/
def Tx.events (s : Storage) (tx : Tx) : List Event :=
  match tx.op with
  | .queueTimelockOperation proposer proposalType _ _ =>
    (tx.issued s).map fun id => .queued id proposer proposalType s.governance.admin
  | .executeTimelockOperation _ id => [.executed id]
  | .cancelTimelockOperation _ id => [.cancelled id]
  | _ => []

/-- The numbers a sequence of transactions gives out, first to last. -/
def issued (txs : List Tx) : List ℕ := history step Tx.issued Storage.empty txs

/-- What a sequence of transactions records, first to last. -/
def events (txs : List Tx) : List Event := history step Tx.events Storage.empty txs

/-- The timelock is set up while no number has been given out, and it is the admin of governance
who queues. -/
def Governed (s : Storage) (tx : Tx) : Prop :=
  match tx.op with
  | .initializeTimelock _ => getNextId s = 0
  | .queueTimelockOperation proposer _ _ _ => s.governance.admin = some proposer
  | _ => True

instance (s : Storage) : (tx : Tx) → Decidable (Governed s tx)
  | ⟨_, .initializeTimelock _⟩ => inferInstanceAs (Decidable (getNextId s = 0))
  | ⟨_, .queueTimelockOperation proposer ..⟩ =>
    inferInstanceAs (Decidable (s.governance.admin = some proposer))
  | ⟨_, .executeTimelockOperation ..⟩ | ⟨_, .cancelTimelockOperation ..⟩
  | ⟨_, .updateTimelockConfig ..⟩ | ⟨_, .governance _⟩ => .isTrue trivial

theorem queued_issued {proposer : Address} {proposalType : ProposalType} {description : String}
    {customDelay : Option ℕ}
    (hstep : step ⟨e, .queueTimelockOperation proposer proposalType description customDelay⟩ s =
      some s') :
    Tx.issued s ⟨e, .queueTimelockOperation proposer proposalType description customDelay⟩ =
      [getNextId s] := by
  obtain ⟨id, hrun⟩ := commit_eq_some.mp hstep
  rw [← (queueTimelockOperation_ok hrun).1]
  simp only [Tx.issued, hrun, Outcome.value, Option.toList_some]

theorem issued_advances (hstep : step tx s = some s') (htx : Governed s tx) :
    Advances (tx.issued s) (getNextId s) (getNextId s') := by
  obtain ⟨e, op⟩ := tx
  cases step_change hstep with
  | initialized config hop =>
    obtain rfl : op = _ := hop
    exact Advances.nil (le_of_eq htx)
  | queued proposer proposalType description customDelay operation hop =>
    obtain rfl : op = _ := hop
    rw [queued_issued hstep]
    exact Advances.single (Nat.lt_succ_self _)
  | configured admin config hop =>
    obtain rfl : op = _ := hop
    exact Advances.nil le_rfl
  | executed executor id operation t hop =>
    obtain rfl : op = _ := hop
    exact Advances.nil le_rfl
  | cancelled caller id operation hop =>
    obtain rfl : op = _ := hop
    exact Advances.nil le_rfl
  | governance op' t hop =>
    obtain rfl : op = _ := hop
    exact Advances.nil le_rfl

/-- A record that fits the state: what is stored was queued by an admin of governance, and what was
executed or cancelled says so. -/
structure Records (h : List Event) (s : Storage) : Prop where
  queued : ∀ id operation, s.operation id = some operation → id < getNextId s ∧
    .queued id operation.proposer operation.proposalType (some operation.proposer) ∈ h
  executed : ∀ id, .executed id ∈ h →
    ∃ operation ∈ s.operation id, operation.status = .executed
  cancelled : ∀ id, .cancelled id ∈ h →
    ∃ operation ∈ s.operation id, operation.status = .cancelled

namespace Records

variable {h : List Event}

theorem empty : Records [] Storage.empty where
  queued _ _ h := by cases h
  executed _ h := by cases h
  cancelled _ h := by cases h

/-- An open operation was neither executed nor cancelled. -/
theorem of_open (hs : Records h s) (hstored : s.operation id = some operation)
    (hopen : operation.Open) : .executed id ∉ h ∧ .cancelled id ∉ h := by
  constructor
  · intro hid
    obtain ⟨operation', hstored', hstatus⟩ := hs.executed id hid
    obtain rfl := Option.some.inj (hstored.symm.trans hstored')
    simp [TimelockOperation.Open, hstatus] at hopen
  · intro hid
    obtain ⟨operation', hstored', hstatus⟩ := hs.cancelled id hid
    obtain rfl := Option.some.inj (hstored.symm.trans hstored')
    simp [TimelockOperation.Open, hstatus] at hopen

/-- What leaves the operations and the counter alone leaves the record right. -/
theorem quiet (hs : Records h s) (hoperation : s'.operation = s.operation)
    (hnext : getNextId s' = getNextId s) : Records (h ++ []) s' := by
  rw [List.append_nil]
  exact ⟨by rw [hoperation, hnext]; exact hs.queued, by rw [hoperation]; exact hs.executed,
    by rw [hoperation]; exact hs.cancelled⟩

/-- An open operation that is closed is recorded as its status says. -/
theorem close {status : TimelockStatus} {event : Event} (hs : Records h s)
    (hstored : s.operation id = some operation) (hopen : operation.Open)
    (hoperation : s'.operation = (setOperation id (operation.withStatus status) s).operation)
    (hnext : getNextId s' = getNextId s)
    (hevent : event = .executed id ∧ status = .executed ∨
      event = .cancelled id ∧ status = .cancelled) : Records (h ++ [event]) s' := by
  have hother : ∀ {j operation'}, j ≠ id → s.operation j = some operation' →
      s'.operation j = some operation' := by
    intro j operation' hj hstored'
    rwa [hoperation, setOperation_of_ne hj]
  have hself : s'.operation id = some (operation.withStatus status) := by
    rw [hoperation, setOperation_self]
  obtain ⟨hnotExecuted, hnotCancelled⟩ := hs.of_open hstored hopen
  refine ⟨fun j operation' hj => ?_, fun j hj => ?_, fun j hj => ?_⟩
  · rw [hnext]
    rw [hoperation] at hj
    obtain ⟨rfl, rfl⟩ | ⟨-, hj⟩ := setOperation_eq_some.mp hj
    · exact (hs.queued j operation hstored).imp_right (List.mem_append_left _)
    · exact (hs.queued j operation' hj).imp_right (List.mem_append_left _)
  · rcases List.mem_append.mp hj with hj | hj
    · obtain ⟨operation', hstored', hstatus⟩ := hs.executed j hj
      exact ⟨operation', hother (fun hne => hnotExecuted (hne ▸ hj)) hstored', hstatus⟩
    · rcases hevent with ⟨rfl, rfl⟩ | ⟨rfl, rfl⟩ <;> cases List.mem_singleton.mp hj
      exact ⟨_, hself, rfl⟩
  · rcases List.mem_append.mp hj with hj | hj
    · obtain ⟨operation', hstored', hstatus⟩ := hs.cancelled j hj
      exact ⟨operation', hother (fun hne => hnotCancelled (hne ▸ hj)) hstored', hstatus⟩
    · rcases hevent with ⟨rfl, rfl⟩ | ⟨rfl, rfl⟩ <;> cases List.mem_singleton.mp hj
      exact ⟨_, hself, rfl⟩

/-- An operation the admin of governance queued is recorded as such. -/
theorem queue (hs : Records h s) :
    Records (h ++ [.queued (getNextId s) operation.proposer operation.proposalType
        (some operation.proposer)])
      (withNextId (getNextId s + 1) (setOperation (getNextId s) operation s)) := by
  have hne : ∀ {j operation'}, s.operation j = some operation' → j ≠ getNextId s :=
    fun hj => (hs.queued _ _ hj).1.ne
  refine ⟨fun j operation' hj => ?_, fun j hj => ?_, fun j hj => ?_⟩
  · rw [getNextId_withNextId]
    obtain ⟨rfl, rfl⟩ | ⟨-, hj⟩ := setOperation_eq_some.mp hj
    · exact ⟨Nat.lt_succ_self _, List.mem_append_right _ (List.mem_singleton_self _)⟩
    · obtain ⟨hlt, hqueued⟩ := hs.queued j operation' hj
      exact ⟨Nat.lt_succ_of_lt hlt, List.mem_append_left _ hqueued⟩
  · rcases List.mem_append.mp hj with hj | hj
    · obtain ⟨operation', hstored', hstatus⟩ := hs.executed j hj
      refine ⟨operation', ?_, hstatus⟩
      rw [withNextId_operation, setOperation_of_ne (hne hstored')]
      exact hstored'
    · cases List.mem_singleton.mp hj
  · rcases List.mem_append.mp hj with hj | hj
    · obtain ⟨operation', hstored', hstatus⟩ := hs.cancelled j hj
      refine ⟨operation', ?_, hstatus⟩
      rw [withNextId_operation, setOperation_of_ne (hne hstored')]
      exact hstored'
    · cases List.mem_singleton.mp hj

theorem step (hs : Records h s) (hstep : step tx s = some s') (htx : Governed s tx) :
    Records (h ++ tx.events s) s' := by
  obtain ⟨e, op⟩ := tx
  cases step_change hstep with
  | initialized config hop =>
    obtain rfl : op = _ := hop
    exact hs.quiet rfl (Eq.symm htx)
  | configured admin config hop =>
    obtain rfl : op = _ := hop
    exact hs.quiet rfl rfl
  | queued proposer proposalType description customDelay operation hop hproposer htype hopen hid =>
    obtain rfl : op = _ := hop
    have hevents : Tx.events s
        ⟨e, .queueTimelockOperation proposer proposalType description customDelay⟩ =
        [.queued (getNextId s) operation.proposer operation.proposalType
          (some operation.proposer)] := by
      have hadmin : s.governance.admin = some proposer := htx
      simp only [Tx.events, queued_issued hstep, hadmin, hproposer, htype, List.map_cons,
        List.map_nil]
    rw [hevents]
    exact hs.queue
  | executed executor id operation t hop hexecutes =>
    obtain rfl : op = _ := hop
    exact hs.close hexecutes.stored hexecutes.isOpen rfl rfl (.inl ⟨rfl, rfl⟩)
  | cancelled caller id operation hop hstored hopen =>
    obtain rfl : op = _ := hop
    exact hs.close hstored hopen rfl rfl (.inr ⟨rfl, rfl⟩)
  | governance op' t hop =>
    obtain rfl : op = _ := hop
    exact hs.quiet rfl rfl

end Records

/-- **In every run where the admin of governance queues and the timelock is set up once, no number
is given out twice, and what changes governance or the protocol without being a call of it is the
execution of an operation that this admin queued, in its time, never executed before and not
cancelled.** -/
theorem timelock_authority {txs : List Tx} (h : Meets step Governed Storage.empty txs) :
    (issued txs).Nodup ∧
    ∀ ys e op zs s', txs = ys ++ ⟨e, op⟩ :: zs → step ⟨e, op⟩ (ledger ys) = some s' →
      (∀ executor id, op = .executeTimelockOperation executor id → ∃ operation t,
        Executes e (ledger ys) id operation t ∧ s' = afterExecution id operation t (ledger ys) ∧
        .queued id operation.proposer operation.proposalType (some operation.proposer) ∈
          events ys ∧
        .executed id ∉ events ys ∧ .cancelled id ∉ events ys) ∧
      ((∀ executor id, op ≠ .executeTimelockOperation executor id) →
        (∀ op', op ≠ .governance op') → s'.governance = (ledger ys).governance) := by
  have hadvances : Advances (issued txs) (getNextId Storage.empty) (getNextId (ledger txs)) :=
    h.advances fun _ _ _ hstep htx => issued_advances hstep htx
  refine ⟨hadvances.nodup, ?_⟩
  rintro ys e op zs s' rfl hstep
  have hrecords : Records (events ys) (ledger ys) :=
    (meets_append.mp h).1.history_invariant (fun _ _ _ _ hstep htx hs => hs.step hstep htx)
      Records.empty
  constructor
  · rintro executor id rfl
    cases step_change hstep with
    | executed executor' id' operation t hop hexecutes =>
      cases hop
      obtain ⟨-, hqueued⟩ := hrecords.queued id operation hexecutes.stored
      exact ⟨operation, t, hexecutes, rfl, hqueued, hrecords.of_open hexecutes.stored
        hexecutes.isOpen⟩
    | initialized _ hop | configured _ _ hop | queued _ _ _ _ _ hop | cancelled _ _ _ hop
    | governance _ _ hop => cases hop
  · intro hexecute hgovernance
    cases step_change hstep with
    | executed executor id operation t hop => exact absurd hop (hexecute executor id)
    | governance op' t hop => exact absurd hop (hgovernance op')
    | initialized | configured | queued | cancelled => rfl

namespace Sample

open HelloWorld.Sample (admin alice envAt)
open Governance.Sample (token)

/-- The protocol and governance have the same admin. -/
def deployed : List Tx := [
    ⟨envAt 1 [admin], .governance (.core (.initializeContract admin))⟩,
    ⟨envAt 1 [admin], .governance (.govInitialize admin token none none none none none none)⟩]

/-- A day after somebody has queued a collateral ratio, alice executes the change. -/
def changedBy (proposer : Address) : List Tx := deployed ++ [
    ⟨envAt 10 [proposer], .queueTimelockOperation proposer (.minCollateralRatio 11500) "" none⟩,
    ⟨envAt 86410 [alice], .executeTimelockOperation alice 0⟩]

/-- The ratio in force. -/
def ratio (txs : List Tx) : Option ℤ :=
  (ledger txs).governance.protocol.risk.riskParamsConfig.map (·.minCollateralRatio)

/-- Alice sets the timelock up again and queues once more. -/
def restarted : List Tx := changedBy alice ++ [
    ⟨envAt 86411 [alice], .initializeTimelock defaultConfig⟩,
    ⟨envAt 86412 [alice], .queueTimelockOperation alice (.emergencyPause true) "" none⟩]

theorem timelock_authority_changedBy :
    Meets step Governed Storage.empty (changedBy admin) ∧ (issued (changedBy admin)).Nodup := by
  have h : Meets step Governed Storage.empty (changedBy admin) := by decide
  exact ⟨h, (timelock_authority h).1⟩

/-- **Alice, who has no role and no vote, changes the ratio by herself, and a number is given out
twice.** -/
theorem changed_by_anybody :
    events (changedBy alice) =
        [.queued 0 alice (.minCollateralRatio 11500) (some admin), .executed 0] ∧
      alice ≠ admin ∧ ratio deployed = some 11000 ∧ ratio (changedBy alice) = some 11500 ∧
      ¬ (issued restarted).Nodup := by
  decide

end Sample

end StellarLend.Timelock
