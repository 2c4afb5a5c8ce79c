import StellarLend.Foundations.Numbering
import StellarLend.HelloWorld.Quiet

/-!
# HelloWorld/Commits — what a reveal answers to

    commit 7 ──▸ … nobody touches 7 … ──▸ reveal 7  ⟹  the committed act, in time, within the fee

The commits are a table that three calls write: a commit files its terms under the next id, and a
cancellation or a reveal takes them out (`CommitStep`).  So what is on file was filed by one call of
the run and not touched since (`Filed`), and a reveal performs exactly that.  Ids are handed out by
a counter that stops at the last 64-bit number, and are different until then.
-/

namespace StellarLend.HelloWorld

open Foundations Call Function
open Lending (Address)

variable {e : Env} {s t s' : Storage} {tx : Tx} {op : Op} {owner : Address} {id : ℕ}
  {kind : SensitiveOperation} {c : PendingCommit}

/-! ## Calls on commits -/

/-- What is committed to. -/
structure Terms where
  owner : Address
  operation : SensitiveOperation
  asset : Option Address
  secondaryAsset : Option Address
  borrower : Option Address
  amount : ℤ
  maxFeeBps : ℤ
  hint : TxOrderingHint

/-- What a call commits to. -/
def Op.terms : Op → Option Terms
  | .commitBorrowProtected user asset amount maxFeeBps hint =>
    some ⟨user, .borrow, asset, none, none, amount, maxFeeBps, hint⟩
  | .commitWithdrawProtected user asset amount maxFeeBps hint =>
    some ⟨user, .withdraw, asset, none, none, amount, maxFeeBps, hint⟩
  | .commitLiquidationProtected liquidator borrower debtAsset collateralAsset debtAmount maxFeeBps
      hint =>
    some ⟨liquidator, .liquidate, debtAsset, collateralAsset, some borrower, debtAmount, maxFeeBps,
      hint⟩
  | _ => none

/-- The commit a call cancels, and for whom. -/
def Op.cancels : Op → Option (Address × ℕ)
  | .cancelMevCommit user id => some (user, id)
  | _ => none

/-- The commit a call reveals, for whom, and for what. -/
def Op.reveals : Op → Option (Address × ℕ × SensitiveOperation)
  | .revealBorrowProtected user id => some (user, id, .borrow)
  | .revealWithdrawProtected user id => some (user, id, .withdraw)
  | .revealLiquidationProtected liquidator id => some (liquidator, id, .liquidate)
  | _ => none

/-- The id of the next commit. -/
def newCommitId (s : Storage) : ℕ := s.mev.nextCommitId.getD 1

/-- The id a call writes. -/
def Op.touches (s : Storage) (op : Op) : Option ℕ :=
  if op.terms.isSome then some (newCommitId s)
  else (op.cancels.map Prod.snd).or (op.reveals.map fun r => r.2.1)

/-- What is filed. -/
def Terms.file (t : Terms) (e : Env) (s : Storage) : PendingCommit where
  id := newCommitId s
  owner := t.owner
  operation := t.operation
  asset := t.asset
  secondaryAsset := t.secondaryAsset
  borrower := t.borrower
  amount := t.amount
  maxFeeBps := t.maxFeeBps
  hint := t.hint
  committedAt := e.timestamp
  revealAfter := U64.saturatingAdd e.timestamp (getMevConfig s).commitDelaySecs
  expiresAt := U64.saturatingAdd e.timestamp (getMevConfig s).commitExpirySecs
  commitLedger := e.sequence

/-- The act that is committed to. -/
def Terms.act (t : Terms) : Option Act :=
  match t.operation with
  | .borrow => some (.borrow t.owner t.asset t.amount)
  | .withdraw => some (.withdraw t.owner t.asset t.amount)
  | .liquidate => t.borrower.map fun borrower =>
    .liquidate t.owner borrower t.asset t.secondaryAsset t.amount

/-- The terms on file. -/
def PendingCommit.terms (c : PendingCommit) : Terms :=
  ⟨c.owner, c.operation, c.asset, c.secondaryAsset, c.borrower, c.amount, c.maxFeeBps, c.hint⟩

/-! ## What a step does to the commits -/

/-- Commits and fees are as they were. -/
structure SameCommits (s t : Storage) : Prop where
  commit : t.mev.commit = s.mev.commit
  nextCommitId : t.mev.nextCommitId = s.mev.nextCommitId
  smoothedFee : t.mev.smoothedFee = s.mev.smoothedFee

theorem SameGates.sameCommits (h : SameGates s t) : SameCommits s t :=
  ⟨h.commit, h.nextCommitId, h.smoothedFee⟩

theorem SameCommits.trans {u : Storage} (h : SameCommits s t) (h' : SameCommits t u) :
    SameCommits s u :=
  ⟨h'.commit.trans h.commit, h'.nextCommitId.trans h.nextCommitId,
    h'.smoothedFee.trans h.smoothedFee⟩

structure Filing (e : Env) (s : Storage) (t : Terms) (s' : Storage) : Prop where
  signed : t.owner ∈ e.auths
  positive : 0 < t.amount
  fee : 0 ≤ t.maxFeeBps ∧ t.maxFeeBps ≤ MAX_BPS
  commit : s'.mev.commit = update s.mev.commit (newCommitId s) (some (t.file e s))
  nextCommitId : s'.mev.nextCommitId = some (U64.saturatingAdd (newCommitId s) 1)
  smoothedFee : s'.mev.smoothedFee = s.mev.smoothedFee

structure Cancellation (e : Env) (s : Storage) (owner : Address) (id : ℕ) (c : PendingCommit)
    (s' : Storage) : Prop where
  signed : owner ∈ e.auths
  commit_eq : s.mev.commit id = some c
  owner_eq : c.owner = owner
  commit : s'.mev.commit = update s.mev.commit id none
  nextCommitId : s'.mev.nextCommitId = s.mev.nextCommitId
  smoothedFee : s'.mev.smoothedFee = s.mev.smoothedFee

/-- The fee a reveal is charged. -/
def effectiveFee (e : Env) (s : Storage) (c : PendingCommit) : ℤ :=
  previewFeeBps e.timestamp s c.operation c.asset c.amount

structure Reveal (e : Env) (s : Storage) (owner : Address) (id : ℕ) (kind : SensitiveOperation)
    (c : PendingCommit) (s' : Storage) : Prop where
  signed : owner ∈ e.auths
  commit_eq : s.mev.commit id = some c
  owner_eq : c.owner = owner
  operation_eq : c.operation = kind
  ready : c.revealAfter ≤ e.timestamp
  live : e.timestamp ≤ c.expiresAt
  fee : effectiveFee e s c ≤ c.maxFeeBps
  performs : ∃ t a, c.terms.act = some a ∧ a.apply e t = some s'
  commit : s'.mev.commit = update s.mev.commit id none
  nextCommitId : s'.mev.nextCommitId = s.mev.nextCommitId
  smoothedFee : s'.mev.smoothedFee = update s.mev.smoothedFee (operationSymbol kind)
    (update (s.mev.smoothedFee (operationSymbol kind)) c.asset (some (effectiveFee e s c)))

/-- **What a step does to the commits.** -/
inductive CommitStep (e : Env) (s : Storage) (op : Op) (s' : Storage) : Prop
  | quiet (hop : op.touches s = none) (h : SameCommits s s')
  | filed (t : Terms) (hop : op.terms = some t) (h : Filing e s t s')
  | cancelled (owner : Address) (id : ℕ) (c : PendingCommit) (hop : op.cancels = some (owner, id))
      (h : Cancellation e s owner id c s')
  | revealed (owner : Address) (id : ℕ) (kind : SensitiveOperation) (c : PendingCommit)
      (hop : op.reveals = some (owner, id, kind)) (h : Reveal e s owner id kind c s')

theorem createCommit_ok {operation : SensitiveOperation}
    {asset secondaryAsset borrower : Option Address} {amount maxFeeBps : ℤ} {hint : TxOrderingHint}
    (h : createCommit owner operation asset secondaryAsset borrower amount maxFeeBps hint e s =
      .ok id s') :
    Filing e s ⟨owner, operation, asset, secondaryAsset, borrower, amount, maxFeeBps, hint⟩ s' := by
  simp only [createCommit, nextCommitId, requireAuth_seq, failIf_seq, view_seq, store_seq, asks_seq,
    pure_seq, pure_ok, not_le, not_not, and_assoc, seq_assoc] at h
  obtain ⟨hsigned, hpositive, hlow, hhigh, -, rfl⟩ := h
  exact ⟨hsigned, hpositive, ⟨hlow, hhigh⟩, rfl, rfl, rfl⟩

theorem cancelCommit_ok {r : Unit} (h : cancelCommit owner id e s = .ok r s') :
    ∃ c, Cancellation e s owner id c s' := by
  simp only [cancelCommit, loadCommit, requireAuth_seq, view_seq, okOr_seq, failIf_seq, store_ok,
    not_not, seq_assoc] at h
  obtain ⟨hsigned, c, hc, howner, rfl⟩ := h
  exact ⟨c, hsigned, hc, howner, rfl, rfl, rfl⟩

/-- **What a reveal has checked, and what it leaves.** -/
theorem reveal_effect {α : Type} {result : PendingCommit → Option α} {a : α}
    (h : reveal owner id kind result e s = .ok a t) :
    ∃ c, owner ∈ e.auths ∧ s.mev.commit id = some c ∧ c.owner = owner ∧ c.operation = kind ∧
      c.revealAfter ≤ e.timestamp ∧ e.timestamp ≤ c.expiresAt ∧ effectiveFee e s c ≤ c.maxFeeBps ∧
      result c = some a ∧
      t = withCommit id none
        (withOrderingSignal e.timestamp owner kind c.asset c.amount (effectiveFee e s c) s) := by
  simp only [reveal, validateReveal, loadCommit, bind_ok, requireAuth_ok, view_ok, okOr_ok,
    failIf_ok, asks_ok, store_ok, pure_ok, not_not, not_lt, and_assoc, exists_and_left,
    exists_eq_left', exists_const] at h
  obtain ⟨hsigned, c, _, ⟨_, hc, howner, rfl, hready, hlive, rfl, rfl⟩, hfee, _, hresult, rfl,
    rfl⟩ := h
  exact ⟨_, hsigned, hc, howner, rfl, hready, hlive, hfee, hresult, rfl⟩

/-- A reveal and the act it leads to. -/
theorem Reveal.of_reveal {α : Type} {result : PendingCommit → Option α} {r : α} {a : Act}
    (h : reveal owner id kind result e s = .ok r t)
    (hact : ∀ c, c.owner = owner → c.operation = kind → s.mev.commit id = some c →
      c.terms.act = some a) (ha : a.apply e t = some s') : ∃ c, Reveal e s owner id kind c s' := by
  obtain ⟨c, hsigned, hc, howner, hkind, hready, hlive, hfee, -, rfl⟩ := reveal_effect h
  have hframe := (a.frame ha).sameGates
  exact ⟨c, hsigned, hc, howner, hkind, hready, hlive, hfee,
    ⟨_, a, hact c howner hkind hc, ha⟩, hframe.commit, hframe.nextCommitId, hframe.smoothedFee⟩

/-- **What a reveal performs is what was committed.** -/
theorem terms_act_of_reveals {a : Act} {c : PendingCommit}
    (hop : op.reveals = some (owner, id, kind)) (hact : op.act s = some a)
    (howner : c.owner = owner) (hkind : c.operation = kind) (hc : s.mev.commit id = some c) :
    c.terms.act = some a := by
  cases op <;> cases hop
  all_goals
    rw [Op.act, hc] at hact
    rwa [Terms.act, PendingCommit.terms, hkind, howner]

theorem requireIntentAuth_sameCommits {user : Address} {name : String} {nonce expiresAt : ℕ}
    {args : IntentArgs} {r : Unit}
    (h : requireIntentAuth user name nonce expiresAt args e s = .ok r s') : SameCommits s s' := by
  simp only [requireIntentAuth, requireAuthForArgs, asks_seq, failIf_seq, view_seq, require_seq,
    store_ok, decide_eq_true_eq] at h
  obtain ⟨-, -, -, rfl⟩ := h
  exact ⟨rfl, rfl, rfl⟩

/-- **A call that performs an act reveals a commit or leaves them all.** -/
theorem step_commits_of_act {a : Act} (h : step ⟨e, op⟩ s = some s') (hact : op.act s = some a) :
    CommitStep e s op s' := by
  obtain ⟨t, hpasses, ha⟩ := step_passes h hact
  have hframe := (a.frame ha).sameGates.sameCommits
  have hlimited : ∀ {u caller user name asset}, limited caller user name asset e u = .ok () t →
      SameCommits u s' := fun hlimited =>
    (consume_sameGates (limited_ok.mp hlimited)).sameCommits.trans hframe
  cases op <;> try cases hact
  case depositCollateral | repayDebt | withdrawCollateral =>
    obtain rfl : t = s := hpasses
    exact .quiet rfl hframe
  case borrowAsset => exact .quiet rfl (hlimited hpasses)
  case liquidate => exact .quiet rfl (hlimited hpasses)
  case borrowAssetIntent | liquidateIntent =>
    obtain ⟨u, hintent, hpasses⟩ := hpasses
    exact .quiet rfl ((requireIntentAuth_sameCommits hintent).trans (hlimited hpasses))
  case revealBorrowProtected | revealWithdrawProtected | revealLiquidationProtected =>
    obtain ⟨r, hreveal⟩ := hpasses
    obtain ⟨c, h⟩ := Reveal.of_reveal hreveal (fun _ => terms_act_of_reveals rfl hact) ha
    exact .revealed _ _ _ c rfl h

theorem step_commits (h : step ⟨e, op⟩ s = some s') : CommitStep e s op s' := by
  rcases hact : op.act s with _ | a
  swap
  · exact step_commits_of_act h hact
  by_cases hop : op.onCommits = false
  · have hsame := (step_sameGates h hact hop).sameCommits
    have hreveals : ¬ op.onReveals = true := fun hreveals => reveal_acts h hreveals hact
    refine .quiet ?_ hsame
    cases op <;> first | rfl | exact absurd rfl hreveals | cases hop
  cases op <;> first | exact absurd rfl hop | obtain ⟨_, h⟩ := commit_eq_some.mp h
  case commitBorrowProtected => exact .filed _ rfl (createCommit_ok (mapErr_ok.mp h))
  case commitWithdrawProtected => exact .filed _ rfl (createCommit_ok (mapErr_ok.mp h))
  case commitLiquidationProtected => exact .filed _ rfl (createCommit_ok (mapErr_ok.mp h))
  case cancelMevCommit =>
    obtain ⟨c, h⟩ := cancelCommit_ok h
    exact .cancelled _ _ c rfl h

/-! ## One call a commit -/

theorem touches_of_terms {t : Terms} (hop : op.terms = some t) :
    op.touches s = some (newCommitId s) := by
  rw [Op.touches, hop]
  rfl

theorem touches_of_cancels (hop : op.cancels = some (owner, id)) : op.touches s = some id := by
  cases op <;> cases hop
  rfl

theorem touches_of_reveals (hop : op.reveals = some (owner, id, kind)) :
    op.touches s = some id := by
  cases op <;> cases hop <;> rfl

/-- **A step that does not touch an id leaves what is filed under it.** -/
theorem step_commit_of_untouched (h : step tx s = some s') (hid : tx.op.touches s ≠ some id) :
    s'.mev.commit id = s.mev.commit id := by
  obtain ⟨e, op⟩ := tx
  have hother : ∀ {i : ℕ} {entry : Option PendingCommit}, op.touches s = some i →
      s'.mev.commit = update s.mev.commit i entry → s'.mev.commit id = s.mev.commit id := by
    intro i entry htouches hcommit
    rw [hcommit, update_of_ne]
    rintro rfl
    exact hid htouches
  cases step_commits h with
  | quiet hop h => rw [h.commit]
  | filed t hop h => exact hother (touches_of_terms hop) h.commit
  | cancelled owner i c hop h => exact hother (touches_of_cancels hop) h.commit
  | revealed owner i kind c hop h => exact hother (touches_of_reveals hop) h.commit

/-- A call that takes a commit out. -/
def Settles (id : ℕ) (op : Op) : Prop :=
  (∃ owner, op.cancels = some (owner, id)) ∨ ∃ owner kind, op.reveals = some (owner, id, kind)

/-- **What is taken out was on file, and is gone.** -/
theorem step_settles (h : step tx s = some s') (hop : Settles id tx.op) :
    (∃ c, s.mev.commit id = some c) ∧ s'.mev.commit id = none := by
  obtain ⟨e, op⟩ := tx
  have htouches : op.touches s = some id := by
    obtain ⟨owner, hop⟩ | ⟨owner, kind, hop⟩ := hop
    · exact touches_of_cancels hop
    · exact touches_of_reveals hop
  cases step_commits h with
  | quiet hquiet _ => cases htouches.symm.trans hquiet
  | filed t hterms _ =>
    obtain ⟨owner, hop⟩ | ⟨owner, kind, hop⟩ := hop <;> cases op <;> cases hop <;> cases hterms
  | cancelled owner i c hcancels h =>
    obtain rfl : id = i :=
      Option.some.inj (htouches.symm.trans (touches_of_cancels hcancels))
    exact ⟨⟨c, h.commit_eq⟩, by rw [h.commit, update_self]⟩
  | revealed owner i kind c hreveals h =>
    obtain rfl : id = i :=
      Option.some.inj (htouches.symm.trans (touches_of_reveals hreveals))
    exact ⟨⟨c, h.commit_eq⟩, by rw [h.commit, update_self]⟩

/-- **A commit on file was filed by a call of the run, under the id of that moment, and no call
touched it since.** -/
structure Filed (txs : List Tx) (id : ℕ) (c : PendingCommit) (us : List Tx) (e : Env) (op : Op)
    (t : Terms) (vs : List Tx) : Prop where
  split : txs = us ++ ⟨e, op⟩ :: vs
  terms : op.terms = some t
  succeeded : (step ⟨e, op⟩ (ledger us)).isSome
  id_eq : newCommitId (ledger us) = id
  commit_eq : c = t.file e (ledger us)
  untouched : Meets step (fun s tx => tx.op.touches s ≠ some id) (ledger (us ++ [⟨e, op⟩])) vs

theorem filed_of_commit {txs : List Tx} (h : (ledger txs).mev.commit id = some c) :
    ∃ us e op t vs, Filed txs id c us e op t vs := by
  induction txs using List.reverseRecOn generalizing c with
  | nil => cases h
  | append_singleton txs tx ih =>
    have hearlier (hlast : (step tx (ledger txs)).isSome → tx.op.touches (ledger txs) ≠ some id)
        (hc : (ledger txs).mev.commit id = some c) :
        ∃ us e op t vs, Filed (txs ++ [tx]) id c us e op t vs := by
      obtain ⟨us, e, op, t, vs, hfiled⟩ := ih hc
      refine ⟨us, e, op, t, vs ++ [tx], ?_, hfiled.terms, hfiled.succeeded, hfiled.id_eq,
        hfiled.commit_eq, meets_append.mpr ⟨hfiled.untouched, ?_⟩⟩
      · rw [hfiled.split, List.append_assoc, List.cons_append]
      · rw [ledger, ← run_append, List.append_assoc, List.singleton_append, ← hfiled.split]
        exact ⟨hlast, trivial⟩
    rcases hstep : step tx (ledger txs) with _ | s'
    · rw [ledger_snoc, exec_of_none hstep] at h
      exact hearlier (by simp [hstep]) h
    rw [ledger_snoc, exec_of_some hstep] at h
    by_cases htouches : tx.op.touches (ledger txs) = some id
    · obtain ⟨e, op⟩ := tx
      cases step_commits hstep with
      | quiet hquiet _ => cases htouches.symm.trans hquiet
      | cancelled owner i d hop _ =>
        obtain rfl : id = i := Option.some.inj (htouches.symm.trans (touches_of_cancels hop))
        cases h.symm.trans (step_settles hstep (.inl ⟨owner, hop⟩)).2
      | revealed owner i kind d hop _ =>
        obtain rfl : id = i := Option.some.inj (htouches.symm.trans (touches_of_reveals hop))
        cases h.symm.trans (step_settles hstep (.inr ⟨owner, kind, hop⟩)).2
      | filed t hop hfiling =>
        obtain rfl : id = newCommitId (ledger txs) :=
          Option.some.inj (htouches.symm.trans (touches_of_terms hop))
        rw [hfiling.commit, update_self, Option.some.injEq] at h
        exact ⟨txs, e, op, t, [], rfl, hop, by rw [hstep]; rfl, rfl, h.symm, trivial⟩
    · exact hearlier (fun _ => htouches) ((step_commit_of_untouched hstep htouches).symm.trans h)

/-! ## Ids -/

/-- The id a call hands out. -/
def issues (s : Storage) (tx : Tx) : List ℕ :=
  if tx.op.terms.isSome then [newCommitId s] else []

/-- The ids handed out along a run. -/
def issued (txs : List Tx) : List ℕ := history step issues Storage.empty txs

/-- **A step hands out the next id, or none.** -/
theorem step_newCommitId (h : step tx s = some s') :
    issues s tx = [] ∧ newCommitId s' = newCommitId s ∨
      issues s tx = [newCommitId s] ∧ newCommitId s' = min (newCommitId s + 1) U64.MAX := by
  obtain ⟨e, op⟩ := tx
  have hnone (hop : op.terms = none) (hid : s'.mev.nextCommitId = s.mev.nextCommitId) :
      issues s ⟨e, op⟩ = [] ∧ newCommitId s' = newCommitId s := by
    rw [issues, hop, newCommitId, newCommitId, hid]
    exact ⟨rfl, rfl⟩
  cases step_commits h with
  | quiet hop h =>
    refine .inl (hnone ?_ h.nextCommitId)
    by_contra hterms
    obtain ⟨t, ht⟩ := Option.ne_none_iff_exists'.mp hterms
    cases hop.symm.trans (touches_of_terms ht)
  | filed t hop h =>
    refine .inr ⟨by rw [issues, hop]; rfl, ?_⟩
    rw [newCommitId, h.nextCommitId]
    rfl
  | cancelled owner id c hop h =>
    refine .inl (hnone ?_ h.nextCommitId)
    cases op <;> cases hop
    rfl
  | revealed owner id kind c hop h =>
    refine .inl (hnone ?_ h.nextCommitId)
    cases op <;> cases hop <;> rfl

theorem issued_eq (txs : List Tx) : issued txs = numbers U64.MAX 1 (issued txs).length :=
  history_numbers (fun _ _ _ => step_newCommitId) (by decide) txs

theorem issued_nodup (txs : List Tx) : (issued txs).Nodup ↔ (issued txs).length ≤ U64.MAX := by
  rw [issued_eq txs, numbers_nodup (by decide), length_numbers]
  omega

/-! ## Fees -/

theorem previewFeeBps_mem {now : ℕ} {asset : Option Address} {amount : ℤ} :
    0 ≤ previewFeeBps now s kind asset amount ∧
      previewFeeBps now s kind asset amount ≤ MAX_BPS := by
  unfold previewFeeBps
  exact ⟨le_max_left _ _, max_le (by decide) (min_le_right _ _)⟩

/-- Every smoothed fee on file is a share. -/
def FeesSmooth (s : Storage) : Prop :=
  ∀ name asset, ∀ fee ∈ s.mev.smoothedFee name asset, 0 ≤ fee ∧ fee ≤ MAX_BPS

theorem FeesSmooth.step (hs : FeesSmooth s) (h : step tx s = some s') : FeesSmooth s' := by
  have hsame (hfee : s'.mev.smoothedFee = s.mev.smoothedFee) : FeesSmooth s' := by
    rw [FeesSmooth, hfee]
    exact hs
  obtain ⟨e, op⟩ := tx
  cases step_commits h with
  | quiet _ h => exact hsame h.smoothedFee
  | filed t _ h => exact hsame h.smoothedFee
  | cancelled owner id c _ h => exact hsame h.smoothedFee
  | revealed owner id kind c _ h =>
    intro name asset fee hfee
    rw [h.smoothedFee] at hfee
    rcases eq_or_ne name (operationSymbol kind) with rfl | hname
    · rw [update_self] at hfee
      rcases eq_or_ne asset c.asset with rfl | hasset
      · rw [update_self, Option.mem_some_iff] at hfee
        rw [← hfee]
        exact previewFeeBps_mem
      · rw [update_of_ne hasset] at hfee
        exact hs _ _ _ hfee
    · rw [update_of_ne hname] at hfee
      exact hs _ _ _ hfee

/-! ## The claim on commits -/

theorem Filed.mem_issued {txs us vs : List Tx} {t : Terms} (h : Filed txs id c us e op t vs) :
    id ∈ issued txs := by
  rw [h.split, issued, history_append, List.mem_append]
  refine .inr (List.mem_append_left _ ?_)
  have hsucceeded := h.succeeded
  rw [ledger] at hsucceeded
  rw [if_pos hsucceeded, issues, h.terms]
  exact List.mem_singleton.mpr h.id_eq.symm

/-- What is gone is not filed again under an id that is not handed out again. -/
theorem gone_of_not_issued {txs : List Tx} (hgone : s.mev.commit id = none)
    (hid : id ∉ history step issues s txs) : (run step s txs).mev.commit id = none := by
  refine (meets_of_not_mem_history hid).invariant (I := fun s => s.mev.commit id = none)
    (fun s tx s' hstep hissued hs => ?_) hgone
  by_cases htouches : tx.op.touches s = some id
  · obtain ⟨e, op⟩ := tx
    cases step_commits hstep with
    | quiet hop _ => cases htouches.symm.trans hop
    | cancelled owner i c hop _ =>
      obtain rfl : id = i := Option.some.inj (htouches.symm.trans (touches_of_cancels hop))
      exact (step_settles hstep (.inl ⟨owner, hop⟩)).2
    | revealed owner i kind c hop _ =>
      obtain rfl : id = i := Option.some.inj (htouches.symm.trans (touches_of_reveals hop))
      exact (step_settles hstep (.inr ⟨owner, kind, hop⟩)).2
    | filed t hop _ =>
      refine absurd ?_ hissued
      rw [issues, hop, Option.isSome_some, if_pos rfl, List.mem_singleton]
      exact Option.some.inj (htouches.symm.trans (touches_of_terms hop))
  · rwa [step_commit_of_untouched hstep htouches]

/-- **In every run, a reveal performs what its owner filed under that id and nobody touched since,
in time and within the fee; what was revealed or cancelled stays gone, and ids are different, until
the ids run out; and smoothed fees are shares.** -/
theorem commits_protected (txs : List Tx) :
    (∀ ys e op zs s' owner id kind, txs = ys ++ ⟨e, op⟩ :: zs →
      step ⟨e, op⟩ (ledger ys) = some s' → op.reveals = some (owner, id, kind) →
        ∃ c, Reveal e (ledger ys) owner id kind c s' ∧
          ∃ us e₀ op₀ t vs, Filed ys id c us e₀ op₀ t vs) ∧
    ((issued txs).length ≤ U64.MAX → ∀ ys tx zs s' id, txs = ys ++ tx :: zs →
      step tx (ledger ys) = some s' → Settles id tx.op → (ledger txs).mev.commit id = none) ∧
    ((issued txs).Nodup ↔ (issued txs).length ≤ U64.MAX) ∧ FeesSmooth (ledger txs) := by
  refine ⟨?_, ?_, issued_nodup txs, run_invariant (fun _ _ _ h hs => FeesSmooth.step hs h) txs
    fun _ _ _ h => by cases h⟩
  · rintro ys e op zs s' owner id kind - hstep hop
    obtain ⟨c, hreveal⟩ : ∃ c, Reveal e (ledger ys) owner id kind c s' := by
      cases step_commits hstep with
      | quiet hquiet _ => cases (touches_of_reveals hop).symm.trans hquiet
      | filed t hterms _ => cases op <;> cases hop <;> cases hterms
      | cancelled owner i c hcancels _ => cases op <;> cases hop <;> cases hcancels
      | revealed owner' i kind' c hreveals h =>
        obtain ⟨rfl, rfl, rfl⟩ : owner' = owner ∧ i = id ∧ kind' = kind := by
          simpa using hreveals.symm.trans hop
        exact ⟨c, h⟩
    exact ⟨c, hreveal, filed_of_commit hreveal.commit_eq⟩
  · rintro hshort ys tx zs s' id rfl hstep hsettles
    obtain ⟨⟨c, hc⟩, hgone⟩ := step_settles hstep hsettles
    obtain ⟨us, e, op, t, vs, hfiled⟩ := filed_of_commit hc
    have hnodup := (issued_nodup _).mpr hshort
    rw [issued, history_append, ← ledger, history_cons_of_some zs hstep] at hnodup
    have hid : id ∉ issues (ledger ys) tx ++ history step issues s' zs :=
      List.disjoint_of_nodup_append hnodup hfiled.mem_issued
    rw [List.mem_append, not_or] at hid
    rw [ledger, run_append, ← ledger, run_cons, exec_of_some hstep]
    exact gone_of_not_issued hgone hid.2

namespace Sample

/-- Alice commits to a borrow. -/
def aliceCommits : Tx := ⟨envAt 1 [alice], .commitBorrowProtected alice none 100 50 .default⟩

theorem aliceCommits_isSome (s : Storage) : (step aliceCommits s).isSome := rfl

theorem length_issued_aliceCommits (n : ℕ) (s : Storage) :
    (history step issues s (List.replicate n aliceCommits)).length = n := by
  induction n generalizing s with
  | zero => rfl
  | succ n ih =>
    rw [List.replicate_succ, history, if_pos (aliceCommits_isSome s), List.length_append, ih]
    exact Nat.add_comm 1 n

/-- **Once 2⁶⁴ commits have been made, two of them had one id.** -/
theorem ids_run_out : ¬ (issued (List.replicate (U64.MAX + 1) aliceCommits)).Nodup := by
  rw [issued_nodup, issued, length_issued_aliceCommits]
  exact Nat.not_succ_le_self _

end Sample

end StellarLend.HelloWorld
