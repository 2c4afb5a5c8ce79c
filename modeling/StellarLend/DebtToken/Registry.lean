import Mathlib.Data.Set.Card
import StellarLend.DebtToken.Contract
import StellarLend.Foundations.History
import StellarLend.Foundations.IndexedMap

/-!
# DebtToken/Registry — the three records of a token agree

    positions  ──▸  who owns which  ◂──  lists of the owners
         └────────  how many  ◂────────  total supply

`Kept` says that the lists name exactly the live tokens, each in one place, and that the supply is
their number; every call keeps it.  That a borrower has one token for a position is not among it: a
mint looks at what the borrower owns, and the token for the position may be somebody else's by then.
-/

namespace StellarLend.DebtToken

open Foundations Call Function
open Lending (Address)

variable {e : Env} {s s' : Storage} {tx : Tx} {user owner : Address} {id : ℕ}
  {asset : Option Address}

/-! ## Views of what is written -/

/-- The store with a supply. -/
def withSupply (supply : ℕ) (s : Storage) : Storage := { s with totalSupply := some supply }

@[simp] theorem getUserDebtTokens_setOwnerTokens (tokens : List ℕ) :
    getUserDebtTokens (setOwnerTokens owner tokens s) =
      update (getUserDebtTokens s) owner tokens := by
  funext a
  by_cases ha : a = owner
  · subst ha
    simp [getUserDebtTokens, setOwnerTokens]
  · simp [getUserDebtTokens, setOwnerTokens, ha]

@[simp] theorem getUserDebtTokens_setPosition (position : Option DebtPosition) :
    getUserDebtTokens (setPosition id position s) = getUserDebtTokens s := rfl

@[simp] theorem getUserDebtTokens_withSupply (n : ℕ) :
    getUserDebtTokens (withSupply n s) = getUserDebtTokens s := rfl

@[simp] theorem getUserDebtTokens_updateNextTokenId (n : ℕ) :
    getUserDebtTokens (updateNextTokenId n s) = getUserDebtTokens s := rfl

@[simp] theorem getDebtPosition_setPosition (position : Option DebtPosition) :
    getDebtPosition (setPosition id position s) = update (getDebtPosition s) id position := rfl

@[simp] theorem getDebtPosition_setOwnerTokens (tokens : List ℕ) :
    getDebtPosition (setOwnerTokens owner tokens s) = getDebtPosition s := rfl

@[simp] theorem getDebtPosition_withSupply (n : ℕ) :
    getDebtPosition (withSupply n s) = getDebtPosition s := rfl

@[simp] theorem getDebtPosition_updateNextTokenId (n : ℕ) :
    getDebtPosition (updateNextTokenId n s) = getDebtPosition s := rfl

@[simp] theorem getTotalSupply_setPosition (position : Option DebtPosition) :
    getTotalSupply (setPosition id position s) = getTotalSupply s := rfl

@[simp] theorem getTotalSupply_setOwnerTokens (tokens : List ℕ) :
    getTotalSupply (setOwnerTokens owner tokens s) = getTotalSupply s := rfl

@[simp] theorem getTotalSupply_updateNextTokenId (n : ℕ) :
    getTotalSupply (updateNextTokenId n s) = getTotalSupply s := rfl

@[simp] theorem getTotalSupply_withSupply (n : ℕ) : getTotalSupply (withSupply n s) = n := rfl

/-! ## What a call does -/

/-- Removing fails unless the token is on the list. -/
@[simp] theorem removeOwned_ok {u : Unit} :
    removeOwned owner id e s = .ok u s' ↔ id ∈ getUserDebtTokens s owner ∧
      setOwnerTokens owner ((getUserDebtTokens s owner).erase id) s = s' := by
  simp only [removeOwned, view_seq, failIf_seq, okOr_seq, store_ok, not_not, List.erase_eq_eraseIdx]
  refine and_congr_right fun hmem => ?_
  rcases hindex : (getUserDebtTokens s owner).idxOf? id with _ | index
  · exact absurd hmem (List.idxOf?_eq_none_iff.mp hindex)
  · simp

/-- The admin of the lending contract stands behind the call. -/
@[simp] theorem requireAdmin_ok {admin : Address} {u : Unit} :
    requireAdmin admin e s = .ok u s' ↔ e.admin = some admin ∧ admin ∈ e.auths ∧ s = s' := by
  simp [requireAdmin]

/-- What a call does to the records of the tokens. -/
inductive Change (e : Env) (op : Op) (s : Storage) : Storage → Prop where
  | minted (user : Address) (asset : Option Address) (principal rate : ℤ)
      (hop : op = .mintDebtToken user asset principal rate)
      (hnew : ∀ id ∈ getUserDebtTokens s user, ¬ StandsFor s id user asset) :
      Change e op s (withSupply (getTotalSupply s + 1) (updateNextTokenId (getNextTokenId s + 1)
        (setOwnerTokens user (getUserDebtTokens s user ++ [getNextTokenId s])
          (setPosition (getNextTokenId s)
            (some (newPosition e.timestamp user asset principal rate)) s))))
  | moved (sender recipient : Address) (id : ℕ) (position : DebtPosition)
      (hop : op = .transferDebtToken sender recipient id)
      (hlive : getDebtPosition s id = some position) (hmem : id ∈ getUserDebtTokens s sender) :
      Change e op s (setPosition id (some { position with updatedAt := e.timestamp })
        (setOwnerTokens recipient
          (update (getUserDebtTokens s) sender ((getUserDebtTokens s sender).erase id) recipient
            ++ [id])
          (setOwnerTokens sender ((getUserDebtTokens s sender).erase id) s)))
  | burnt (user : Address) (id : ℕ) (reason : String) (hop : op = .burnDebtToken user id reason)
      (hmem : id ∈ getUserDebtTokens s user) (hsupply : 1 ≤ getTotalSupply s) :
      Change e op s (withSupply (getTotalSupply s - 1) (setPosition id none
        (setOwnerTokens user ((getUserDebtTokens s user).erase id) s)))
  | settings (paused : Option Bool) (blocked : Address → Option Bool)
      (hmint : ∀ user asset principal rate, op ≠ .mintDebtToken user asset principal rate)
      (hburn : ∀ user id reason, op ≠ .burnDebtToken user id reason) :
      Change e op s { s with transferPaused := paused, blockedAddress := blocked }

/-- A supply that fits goes up by one. -/
@[simp] theorem updateTotalSupply_one_ok {u : Unit} :
    updateTotalSupply 1 e s = .ok u s' ↔
      getTotalSupply s + 1 ≤ U64.MAX ∧ withSupply (getTotalSupply s + 1) s = s' := by
  simp [updateTotalSupply, withSupply]

/-- A supply above zero goes down by one. -/
@[simp] theorem updateTotalSupply_neg_one_ok {u : Unit} :
    updateTotalSupply (-1) e s = .ok u s' ↔
      1 ≤ getTotalSupply s ∧ withSupply (getTotalSupply s - 1) s = s' := by
  simp [updateTotalSupply, withSupply]

/-- **Minting.** -/
theorem mintDebtToken_ok {principal rate : ℤ}
    (h : mintDebtToken user asset principal rate e s = .ok id s') :
    id = getNextTokenId s ∧ Change e (.mintDebtToken user asset principal rate) s s' := by
  simp only [mintDebtToken, bind_ok, requireAuth_ok, ↓view_seq, ↓failIf_seq, ↓asks_seq, ↓store_seq,
    ↓orTrap_seq, pure_ok, U64.checkedAdd_eq_some, updateTotalSupply_one_ok, decide_eq_true_eq,
    getUserDebtTokens_setPosition, getTotalSupply_updateNextTokenId, getTotalSupply_setOwnerTokens,
    getTotalSupply_setPosition, not_exists, not_and, and_assoc, exists_and_left, exists_eq_left',
    exists_const] at h
  obtain ⟨-, -, hnew, -, _, -, rfl, hsupply, rfl, rfl⟩ := h
  exact ⟨rfl, .minted user asset principal rate rfl hnew⟩

/-- **Moving.** -/
theorem transferDebtToken_ok {sender recipient : Address} {u : Unit}
    (h : transferDebtToken sender recipient id e s = .ok u s') :
    Change e (.transferDebtToken sender recipient id) s s' := by
  simp only [transferDebtToken, bind_ok, requireAuth_ok, ↓view_seq, ↓failIf_seq, ↓asks_seq,
    ↓store_seq, store_ok, ↓okOr_seq, removeOwned_ok, getUserDebtTokens_setOwnerTokens, and_assoc,
    exists_and_left, exists_eq_left', exists_const] at h
  obtain ⟨-, -, -, -, position, hlive, -, hmem, rfl⟩ := h
  exact .moved sender recipient id position rfl hlive hmem

/-- **Burning.** -/
theorem burnDebtToken_ok {reason : String} {u : Unit}
    (h : burnDebtToken user id reason e s = .ok u s') :
    Change e (.burnDebtToken user id reason) s s' := by
  simp only [burnDebtToken, bind_ok, requireAuth_ok, ↓view_seq, ↓store_seq, ↓okOr_seq,
    removeOwned_ok, updateTotalSupply_neg_one_ok, getTotalSupply_setOwnerTokens,
    getTotalSupply_setPosition, and_assoc, exists_and_left, exists_eq_left', exists_const] at h
  obtain ⟨-, -, -, hmem, hsupply, rfl⟩ := h
  exact .burnt user id reason rfl hmem hsupply

/-- **Every call makes one of these changes.** -/
theorem step_change (h : step tx s = some s') : Change tx.env tx.op s s' := by
  obtain ⟨e, op⟩ := tx
  cases op
  all_goals
    simp only [step, Op.apply, commit_eq_some] at h
    obtain ⟨r, h⟩ := h
  case mintDebtToken => exact (mintDebtToken_ok h).2
  case transferDebtToken => exact transferDebtToken_ok h
  case burnDebtToken => exact burnDebtToken_ok h
  case setTransferPause =>
    simp only [setTransferPause, bind_ok, requireAdmin_ok, store_ok] at h
    obtain ⟨-, _, ⟨-, -, rfl⟩, rfl⟩ := h
    exact .settings _ _ (by simp) (by simp)
  case setAddressBlocked =>
    simp only [setAddressBlocked, bind_ok, requireAdmin_ok, store_ok] at h
    obtain ⟨-, _, ⟨-, -, rfl⟩, rfl⟩ := h
    exact .settings _ _ (by simp) (by simp)

/-! ## The invariant -/

/-- A token with a position on record. -/
def Live (s : Storage) (id : ℕ) : Prop := (getDebtPosition s id).isSome

/-- A position put down makes its token live. -/
theorem live_setPosition_some {position : DebtPosition} {j : ℕ} :
    Live (setPosition id (some position) s) j ↔ j = id ∨ Live s j := by
  by_cases hj : j = id <;> simp [Live, hj]

/-- A position removed ends its token. -/
theorem live_setPosition_none {j : ℕ} : Live (setPosition id none s) j ↔ Live s j ∧ j ≠ id := by
  by_cases hj : j = id <;> simp [Live, hj]

theorem setOf_live_some {position : DebtPosition} :
    {j | Live (setPosition id (some position) s) j} = insert id {j | Live s j} :=
  Set.ext fun _ => live_setPosition_some

theorem setOf_live_none : {j | Live (setPosition id none s) j} = {j | Live s j} \ {id} :=
  Set.ext fun _ => live_setPosition_none

/-- The lists, the positions and the supply agree. -/
structure Kept (s : Storage) : Prop where
  lists : ∃ holder : ℕ → Option Address, Lists (getUserDebtTokens s) holder ∧
    ∀ id, (holder id).isSome ↔ Live s id
  supply : {id | Live s id}.encard = getTotalSupply s
  fresh : ∀ id, Live s id → id < getNextTokenId s

namespace Kept

theorem empty : Kept Storage.empty where
  lists := ⟨fun _ => none, Lists.empty, by simp [Live, getDebtPosition, Storage.empty]⟩
  supply := by simp [Live, getDebtPosition, getTotalSupply, Storage.empty]
  fresh _ h := by cases h

/-- A listed token is live. -/
theorem live (hs : Kept s) (h : id ∈ getUserDebtTokens s owner) : Live s id := by
  obtain ⟨holder, hlists, hlive⟩ := hs.lists
  rw [← hlive, (hlists.mem_iff owner id).mp h]
  rfl

/-- **A live token is in the list of one owner, once, and in no other.** -/
theorem owned (hs : Kept s) (h : Live s id) : ∃ owner, ∀ a,
    (getUserDebtTokens s a).count id = if a = owner then 1 else 0 := by
  obtain ⟨holder, hlists, hlive⟩ := hs.lists
  obtain ⟨owner, howner⟩ := Option.isSome_iff_exists.mp ((hlive id).mpr h)
  exact ⟨owner, hlists.count_eq howner⟩

/-- While a token lives the supply is not zero. -/
theorem supply_pos (hs : Kept s) (h : Live s id) : 1 ≤ getTotalSupply s := by
  have hne : {id | Live s id}.encard ≠ 0 := Set.encard_ne_zero.mpr ⟨id, h⟩
  rw [hs.supply] at hne
  have : getTotalSupply s ≠ 0 := by exact_mod_cast hne
  omega

/-- A minted token is live, on one list, and counted. -/
theorem mint (hs : Kept s) (position : DebtPosition) (user : Address) :
    Kept (withSupply (getTotalSupply s + 1) (updateNextTokenId (getNextTokenId s + 1)
      (setOwnerTokens user (getUserDebtTokens s user ++ [getNextTokenId s])
        (setPosition (getNextTokenId s) (some position) s)))) := by
  obtain ⟨holder, hlists, hlive⟩ := hs.lists
  have hnew : getNextTokenId s ∉ {j | Live s j} := fun h => lt_irrefl _ (hs.fresh _ h)
  have hnone : holder (getNextTokenId s) = none := by
    rwa [← Option.not_isSome_iff_eq_none, hlive]
  refine ⟨⟨_, by simpa using hlists.put user hnone, fun id => ?_⟩, ?_, fun id hid => ?_⟩
  · by_cases hid : id = getNextTokenId s
    · simp [Live, hid]
    · simpa [Live, hid] using hlive id
  · change {id | Live (setPosition _ (some position) s) id}.encard = _
    rw [setOf_live_some, Set.encard_insert_of_notMem hnew, hs.supply]
    rfl
  · change id < getNextTokenId s + 1
    rcases live_setPosition_some.mp hid with rfl | hbefore
    · exact Nat.lt_succ_self _
    · exact Nat.lt_succ_of_lt (hs.fresh id hbefore)

/-- A moved token goes from one list to another. -/
theorem move (hs : Kept s) (position : DebtPosition) {sender : Address} (recipient : Address)
    (hmem : id ∈ getUserDebtTokens s sender) :
    Kept (setPosition id (some position) (setOwnerTokens recipient
      (update (getUserDebtTokens s) sender ((getUserDebtTokens s sender).erase id) recipient ++
        [id])
      (setOwnerTokens sender ((getUserDebtTokens s sender).erase id) s))) := by
  obtain ⟨holder, hlists, hlive⟩ := hs.lists
  have hid : id ∈ {j | Live s j} := hs.live hmem
  have hsame : {j | Live (setPosition id (some position) s) j} = {j | Live s j} := by
    rw [setOf_live_some, Set.insert_eq_of_mem hid]
  refine ⟨⟨_, by simpa using hlists.move recipient hmem, fun j => ?_⟩, ?_, fun j hj => ?_⟩
  · by_cases hj : j = id
    · simp [Live, hj]
    · simpa [Live, hj] using hlive j
  · exact (congrArg Set.encard hsame).trans hs.supply
  · exact hs.fresh j (hsame.subset hj)

/-- A burnt token is on no list. -/
theorem burn (hs : Kept s) {user : Address} (hmem : id ∈ getUserDebtTokens s user) :
    Kept (withSupply (getTotalSupply s - 1) (setPosition id none
      (setOwnerTokens user ((getUserDebtTokens s user).erase id) s))) := by
  obtain ⟨holder, hlists, hlive⟩ := hs.lists
  have hid : id ∈ {j | Live s j} := hs.live hmem
  refine ⟨⟨_, by simpa using hlists.drop hmem, fun j => ?_⟩, ?_, fun j hj => ?_⟩
  · by_cases hj : j = id
    · simp [Live, hj]
    · simpa [Live, hj] using hlive j
  · change {j | Live (setPosition id none s) j}.encard = ((getTotalSupply s - 1 : ℕ) : ℕ∞)
    rw [setOf_live_none, Set.encard_sdiff_singleton_of_mem hid, hs.supply]
    rfl
  · exact hs.fresh j (live_setPosition_none.mp hj).1

/-- **Every call keeps the records in agreement.** -/
theorem step (hs : Kept s) (h : step tx s = some s') : Kept s' := by
  cases step_change h with
  | minted user asset principal rate _ _ => exact hs.mint _ user
  | moved sender recipient id position _ _ hmem => exact hs.move _ recipient hmem
  | burnt user id reason _ hmem _ => exact hs.burn hmem
  | settings => exact ⟨hs.lists, hs.supply, hs.fresh⟩

end Kept

/-! ## What is minted and what is burnt -/

/-- A token begins or ends. -/
inductive Event where
  | minted (id : ℕ)
  | burnt (id : ℕ)
  deriving DecidableEq

/-- What a transaction mints or burns: the id a mint returns, or the id it burns. -/
def Tx.events (s : Storage) (tx : Tx) : List Event :=
  match tx.op with
  | .mintDebtToken user asset principal rate =>
    ((mintDebtToken user asset principal rate tx.env s).value.toList).map .minted
  | .burnDebtToken _ id _ => [.burnt id]
  | _ => []

/-- What a sequence of transactions mints and burns, first to last. -/
def events (txs : List Tx) : List Event := history step Tx.events Storage.empty txs

/-- A record of what was minted and burnt that fits the state. -/
structure Records (h : List Event) (s : Storage) : Prop extends Kept s where
  nodup : h.Nodup
  past : ∀ id, .minted id ∈ h → id < getNextTokenId s
  burnt : ∀ id, .burnt id ∈ h → .minted id ∈ h
  live_iff : ∀ id, Live s id ↔ .minted id ∈ h ∧ .burnt id ∉ h

namespace Records

variable {h : List Event}

theorem empty : Records [] Storage.empty where
  toKept := Kept.empty
  nodup := List.nodup_nil
  past _ hid := by cases hid
  burnt _ hid := by cases hid
  live_iff _ := by simp [Live, getDebtPosition, Storage.empty]

/-- One more event: a token under an id that is taken from now on, or the end of one. -/
theorem snoc (hs : Records h s) (hkept : Kept s') {v : Event} (hnew : v ∉ h)
    (hnext : getNextTokenId s ≤ getNextTokenId s')
    (hminted : ∀ id, v = .minted id → id < getNextTokenId s')
    (hburnt : ∀ id, v = .burnt id → .minted id ∈ h)
    (hlive : ∀ id, Live s' id ↔ (v = .minted id ∨ Live s id) ∧ v ≠ .burnt id) :
    Records (h ++ [v]) s' := by
  refine ⟨hkept, ?_, fun id hid => ?_, fun id hid => ?_, fun id => ?_⟩
  · rw [← List.concat_eq_append]
    exact hs.nodup.concat hnew
  · rcases List.mem_append.mp hid with hid | hid
    · exact lt_of_lt_of_le (hs.past id hid) hnext
    · exact hminted id (List.mem_singleton.mp hid).symm
  · refine List.mem_append_left _ ?_
    rcases List.mem_append.mp hid with hid | hid
    · exact hs.burnt id hid
    · exact hburnt id (List.mem_singleton.mp hid).symm
  · rw [hlive, hs.live_iff]
    simp only [List.mem_append, List.mem_singleton, eq_comm (b := v), not_or, ne_eq]
    constructor
    · rintro ⟨rfl | ⟨hid, hend⟩, hother⟩
      · exact ⟨.inr rfl, fun hend => hnew (hs.burnt _ hend), hother⟩
      · exact ⟨.inl hid, hend, hother⟩
    · rintro ⟨hid | hid, hend, hother⟩
      · exact ⟨.inr ⟨hid, hend⟩, hother⟩
      · exact ⟨.inl hid, hother⟩

/-- A mint makes a token under an id that was never taken. -/
theorem mint (hs : Records h s) (hkept : Kept s') (hnext : getNextTokenId s' = getNextTokenId s + 1)
    (hlive : ∀ id, Live s' id ↔ id = getNextTokenId s ∨ Live s id) :
    Records (h ++ [.minted (getNextTokenId s)]) s' := by
  refine hs.snoc hkept (fun hid => lt_irrefl _ (hs.past _ hid)) (by omega) ?_ (by simp)
    fun id => ?_
  · rintro id ⟨⟩
    omega
  · rw [hlive, Event.minted.injEq, eq_comm]
    simp

/-- A burn ends a live token, for good. -/
theorem burn (hs : Records h s) (hkept : Kept s') (hnext : getNextTokenId s' = getNextTokenId s)
    (hid : Live s id) (hlive : ∀ j, Live s' j ↔ Live s j ∧ j ≠ id) :
    Records (h ++ [.burnt id]) s' := by
  obtain ⟨hminted, hburnt⟩ := (hs.live_iff id).mp hid
  refine hs.snoc hkept hburnt hnext.ge (by simp) ?_ fun j => ?_
  · rintro j ⟨⟩
    exact hminted
  · rw [hlive, ne_eq, ne_eq, Event.burnt.injEq, eq_comm (a := j)]
    simp

/-- What mints nothing and burns nothing leaves the live tokens. -/
theorem quiet (hs : Records h s) (hkept : Kept s') (hnext : getNextTokenId s' = getNextTokenId s)
    (hlive : ∀ id, Live s' id ↔ Live s id) : Records (h ++ []) s' := by
  rw [List.append_nil]
  exact ⟨hkept, hs.nodup, fun id hid => hnext ▸ hs.past id hid, hs.burnt, fun id =>
    (hlive id).trans (hs.live_iff id)⟩

theorem step (hs : Records h s) (hstep : step tx s = some s') : Records (h ++ tx.events s) s' := by
  have hkept := hs.toKept.step hstep
  obtain ⟨e, op⟩ := tx
  cases step_change hstep with
  | minted user asset principal rate hop hnew =>
    obtain rfl : op = _ := hop
    obtain ⟨id, hrun⟩ := commit_eq_some.mp hstep
    have hevents : Tx.events s ⟨e, .mintDebtToken user asset principal rate⟩ =
        [.minted (getNextTokenId s)] := by
      rw [← (mintDebtToken_ok hrun).1]
      simp only [Tx.events, hrun, Outcome.value, Option.toList_some, List.map_cons, List.map_nil]
    rw [hevents]
    exact hs.mint hkept rfl fun _ => live_setPosition_some
  | moved sender recipient id position hop hpos hmem =>
    obtain rfl : op = _ := hop
    refine hs.quiet hkept rfl fun j => live_setPosition_some.trans (or_iff_right_of_imp ?_)
    rintro rfl
    exact hs.live hmem
  | burnt user id reason hop hmem hsupply =>
    obtain rfl : op = _ := hop
    exact hs.burn hkept rfl (hs.live hmem) fun _ => live_setPosition_none
  | settings paused blocked hmint hburn =>
    have hevents : Tx.events s ⟨e, op⟩ = [] := by
      cases op with
      | mintDebtToken user asset principal rate =>
        exact absurd rfl (hmint user asset principal rate)
      | burnDebtToken user id reason => exact absurd rfl (hburn user id reason)
      | transferDebtToken | setTransferPause | setAddressBlocked => rfl
    rw [hevents]
    exact hs.quiet hkept rfl fun _ => Iff.rfl

/-- **In every run the records of the tokens agree, and the live tokens are those that were minted
and not burnt.** -/
theorem ledger (txs : List Tx) : Records (events txs) (ledger txs) :=
  history_invariant (fun _ _ _ _ hx hs => hs.step hx) txs empty

end Records

/-- **A burn that is signed never traps**: the supply covers the token, or the burn is refused. -/
theorem Kept.burn_not_trap (hs : Kept s) (reason : String) (hsigned : user ∈ e.auths) :
    burnDebtToken user id reason e s ≠ .trap := by
  intro htrap
  by_cases hmem : id ∈ getUserDebtTokens s user
  · have hlive := hs.live hmem
    obtain ⟨position, hposition⟩ := Option.isSome_iff_exists.mp hlive
    have hok : ∃ t, burnDebtToken user id reason e s = .ok () t := by
      simp only [burnDebtToken, bind_ok, requireAuth_ok, ↓view_seq, ↓store_seq, ↓okOr_seq,
        removeOwned_ok, updateTotalSupply_neg_one_ok, getTotalSupply_setOwnerTokens,
        getTotalSupply_setPosition, and_assoc, exists_and_left, exists_eq_left', exists_const]
      exact ⟨hsigned, _, position, hposition, hmem, hs.supply_pos hlive, rfl⟩
    obtain ⟨t, ht⟩ := hok
    cases htrap.symm.trans ht
  · have herr : ∃ err, burnDebtToken user id reason e s = .err err s := by
      rcases hposition : getDebtPosition s id with _ | position
      · refine ⟨.tokenNotFound, ?_⟩
        simp [burnDebtToken, hsigned, hposition]
      · refine ⟨.unauthorized, ?_⟩
        simp [burnDebtToken, removeOwned, hsigned, hposition, hmem]
    obtain ⟨err, ht⟩ := herr
    cases htrap.symm.trans ht

/-! ## One token for a position -/

/-- Two tokens for the position of a borrower under an asset are one. -/
def OnePerPosition (s : Storage) : Prop :=
  ∀ i j user asset, StandsFor s i user asset → StandsFor s j user asset → i = j

/-- When a borrower mints, no token for the position is somebody else's. -/
def HeldByBorrower (s : Storage) (tx : Tx) : Prop :=
  ∀ user asset principal rate, tx.op = .mintDebtToken user asset principal rate →
    ∀ id, StandsFor s id user asset → id ∈ getUserDebtTokens s user

/-- What stands for a debt is live. -/
theorem StandsFor.live (h : StandsFor s id user asset) : Live s id := by
  obtain ⟨position, hposition, -⟩ := h
  exact Option.isSome_iff_exists.mpr ⟨position, hposition⟩

theorem standsFor_setPosition {position : Option DebtPosition} {j : ℕ} :
    StandsFor (setPosition id position s) j user asset ↔
      if j = id then ∃ p ∈ position, p.borrower = user ∧ p.collateralAsset = asset
      else StandsFor s j user asset := by
  by_cases hj : j = id <;> simp [StandsFor, hj]

/-- A mint leaves one token for a position if there was none for the position minted. -/
theorem onePerPosition_mint {position : DebtPosition} (hs : OnePerPosition s) (hid : ¬ Live s id) :
    OnePerPosition (setPosition id (some position) s) ↔
      ∀ j, ¬ StandsFor s j position.borrower position.collateralAsset := by
  have hother : ∀ {j user asset}, StandsFor s j user asset → j ≠ id := by
    rintro j user asset hj rfl
    exact hid hj.live
  constructor
  · intro hafter j hj
    have hkept : StandsFor (setPosition id (some position) s) j position.borrower
        position.collateralAsset := by
      rwa [standsFor_setPosition, if_neg (hother hj)]
    have hnew : StandsFor (setPosition id (some position) s) id position.borrower
        position.collateralAsset := by
      rw [standsFor_setPosition, if_pos rfl]
      exact ⟨position, rfl, rfl, rfl⟩
    exact hother hj (hafter j id _ _ hkept hnew)
  · intro hnone i j user asset hi hj
    rw [standsFor_setPosition] at hi hj
    split at hi <;> split at hj
    next hi' hj' => rw [hi', hj']
    next =>
      obtain ⟨_, hposition, rfl, rfl⟩ := hi
      obtain rfl := Option.some.inj hposition
      exact absurd hj (hnone j)
    next =>
      obtain ⟨_, hposition, rfl, rfl⟩ := hj
      obtain rfl := Option.some.inj hposition
      exact absurd hi (hnone i)
    next => exact hs i j user asset hi hj

/-- **A call leaves one token for a position exactly if it is no mint over somebody else's
token.** -/
theorem onePerPosition_step (hkept : Kept s) (hs : OnePerPosition s) (hstep : step tx s = some s') :
    HeldByBorrower s tx ↔ OnePerPosition s' := by
  have hfresh : ¬ Live s (getNextTokenId s) := fun h => lt_irrefl _ (hkept.fresh _ h)
  obtain ⟨e, op⟩ := tx
  cases step_change hstep with
  | minted user asset principal rate hop hnew =>
    refine Iff.trans ?_ (onePerPosition_mint hs hfresh).symm
    constructor
    · intro hheld id hid
      exact hnew id (hheld user asset principal rate hop id hid) hid
    · intro hnone user' asset' principal' rate' hop' id hid
      cases hop.symm.trans hop'
      exact absurd hid (hnone id)
  | moved sender recipient id position hop hpos hmem =>
    refine iff_of_true (fun _ _ _ _ hop' => by cases hop.symm.trans hop') ?_
    intro i j user asset hi hj
    have hsame : ∀ {k}, StandsFor (setPosition id
        (some { position with updatedAt := e.timestamp }) s) k user asset →
        StandsFor s k user asset := by
      intro k hk
      rw [standsFor_setPosition] at hk
      split at hk
      next hk' =>
        obtain ⟨_, hmoved, hborrower, hasset⟩ := hk
        obtain rfl := Option.some.inj hmoved
        exact ⟨position, hk' ▸ hpos, hborrower, hasset⟩
      next => exact hk
    exact hs i j user asset (hsame hi) (hsame hj)
  | burnt user id reason hop hmem hsupply =>
    refine iff_of_true (fun _ _ _ _ hop' => by cases hop.symm.trans hop') ?_
    intro i j user asset hi hj
    have hbefore : ∀ {k}, StandsFor (setPosition id none s) k user asset →
        StandsFor s k user asset := by
      intro k hk
      rw [standsFor_setPosition] at hk
      split at hk
      next => simp at hk
      next => exact hk
    exact hs i j user asset (hbefore hi) (hbefore hj)
  | settings paused blocked hmint hburn =>
    exact iff_of_true (fun user asset principal rate hop =>
      absurd hop (hmint user asset principal rate)) hs

/-- **In every run the records of the tokens agree, the live tokens are those minted and not burnt,
no id is minted twice and no supply runs short; and a borrower has one token for a position
throughout exactly if no mint is made while somebody else has the token for the position.** -/
theorem token_registry (txs : List Tx) :
    (∀ id, Live (ledger txs) id ↔ .minted id ∈ events txs ∧ .burnt id ∉ events txs) ∧
    (∀ id, Live (ledger txs) id → ∃ owner, ∀ a,
      (getUserDebtTokens (ledger txs) a).count id = if a = owner then 1 else 0) ∧
    (∀ id, .burnt id ∈ events txs → ∀ a, id ∉ getUserDebtTokens (ledger txs) a) ∧
    {id | Live (ledger txs) id}.encard = getTotalSupply (ledger txs) ∧
    (∀ e user id reason, user ∈ e.auths →
      burnDebtToken user id reason e (ledger txs) ≠ .trap) ∧
    (events txs).Nodup ∧
    (Meets step HeldByBorrower Storage.empty txs ↔
      ∀ ys, ys <+: txs → OnePerPosition (ledger ys)) := by
  have hs := Records.ledger txs
  refine ⟨hs.live_iff, fun id => hs.toKept.owned, fun id hburnt a hmem => ?_, hs.supply,
    fun e user id reason => hs.toKept.burn_not_trap reason, hs.nodup, ?_⟩
  · exact ((hs.live_iff id).mp (hs.toKept.live hmem)).2 hburnt
  · have hempty : Kept Storage.empty ∧ OnePerPosition Storage.empty :=
      ⟨Kept.empty, fun _ _ _ _ hi => by obtain ⟨_, hposition, -⟩ := hi; cases hposition⟩
    refine Iff.trans (meets_iff_throughout (I := fun s => Kept s ∧ OnePerPosition s)
      (fun s x s' hx hI => ?_) hempty) ?_
    · rw [onePerPosition_step hI.1 hI.2 hx]
      exact (and_iff_right (hI.1.step hx)).symm
    · exact forall₂_congr fun ys _ => and_iff_right (Records.ledger ys).toKept

namespace Sample

def alice : Address := ⟨1⟩
def bob : Address := ⟨2⟩
def usdc : Address := ⟨10⟩

/-- A call at a time, signed by one address. -/
def signed (now : ℕ) (a : Address) (op : Op) : Tx := ⟨⟨[a], now, none, ⟨0⟩⟩, op⟩

/-- Alice mints a token for a position, passes it on to bob, and mints another. -/
def minted : List Tx :=
  [signed 1 alice (.mintDebtToken alice (some usdc) 100 500),
    signed 2 alice (.transferDebtToken alice bob 1),
    signed 3 alice (.mintDebtToken alice (some usdc) 100 500)]

/-- **A position has two tokens: one is bob's, one is alice's.** -/
theorem position_tokenized_twice : ¬ OnePerPosition (ledger minted) := fun h =>
  absurd (h 1 2 alice (some usdc) (by decide) (by decide)) (by decide)

end Sample

end StellarLend.DebtToken
