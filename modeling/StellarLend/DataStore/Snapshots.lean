import StellarLend.DataStore.Contract

/-!
# DataStore/Snapshots — the store stays intact, and a restore goes back to the backup

    backup n ──▸ any calls but a backup n ──▸ restore n

A save of a new key writes three storage items and a restore rewrites all of them, each by itself.
`Intact` is what holds between any two calls: the index names the live entries, each once, the count
is its length, and every snapshot is one that could be an index with its values.  `Change` says what
a call can do, once for all that is proved about runs.

A snapshot is taken by walking the index and restored by emptying the store through the index of the
day, so both ends rest on the store being intact, then and now.  **`dataLoad` after the restore is
what it was at the backup** (`restore_goes_back`), however often the name is restored.
-/

namespace StellarLend.DataStore

open Foundations Call
open Lending (Address)

variable {s s' : Storage} {e : Env}

/-! ## Snapshots -/

/-- The walk over the index writes the map down. -/
theorem snapshot_eq (entry : Bytes → Option Bytes) (keys : List Bytes) :
    snapshot entry keys =
      ((listing entry keys).map Prod.fst, (listing entry keys).map Prod.snd) := by
  induction keys with
  | nil => rfl
  | cons k ks ih =>
    cases hk : entry k with
    | none => simp only [snapshot, hk, ih, listing, List.filterMap_cons, Option.map_none]
    | some v => simp only [snapshot, hk, ih, listing, List.filterMap_cons, Option.map_some,
        List.map_cons]

/-- Pairs taken apart are put together again. -/
theorem snapshotPairs_map (ps : List (Bytes × Bytes)) :
    snapshotPairs (ps.map Prod.fst) (ps.map Prod.snd) = some ps := by
  induction ps with
  | nil => rfl
  | cons p ps ih => rw [List.map_cons, List.map_cons, snapshotPairs, ih, Option.map_some]

/-! ## What a call does -/

/-- What a call does to the store. -/
inductive Change (op : Op) (s s' : Storage) : Prop where
  | opened (admin : Address) (hadmin : s.admin = none)
      (hs : s' = { s with
        admin := some admin
        schemaVersion := some 0
        entryCount := some 0
        writers := some []
        keyIndex := some [] })
  | granted (writers : Option (List Address)) (hadmin : s.admin ≠ none)
      (hs : s' = { s with writers := writers })
  | migrated (version : ℕ) (hadmin : s.admin ≠ none) (hversion : getSchemaVersion s < version)
      (hs : s' = { s with schemaVersion := some version })
  | overwritten (key value : Bytes) (hadmin : s.admin ≠ none) (hkey : (s.entry key).isSome)
      (hs : s' = withEntry key value s)
  | added (key value : Bytes) (hadmin : s.admin ≠ none) (hkey : s.entry key = none)
      (hroom : getEntryCount s < MAX_ENTRIES) (hs : s' = withEntry key value (indexed key s))
  | backedUp (caller : Address) (name : Bytes) (hop : op = .dataBackup caller name)
      (hadmin : s.admin ≠ none)
      (hs : s' = withBackup name (snapshot s.entry (getKeyIndex s)) s)
  | restored (caller : Address) (name : Bytes) (keys vals : List Bytes) (ps : List (Bytes × Bytes))
      (hop : op = .dataRestore caller name) (hadmin : s.admin = some caller)
      (hsnap : s.backup name = some (keys, vals)) (hps : snapshotPairs keys vals = some ps)
      (hs : s' = restored ps s)

section

variable {β : Type} {b : β} {k : Unit → Invocation β} {caller : Address}

@[simp ↓] theorem assertInitialized_seq :
    (assertInitialized >>= k) e s = .ok b s' ↔ s.admin ≠ none ∧ k () e s = .ok b s' := by
  simp only [assertInitialized, seq_assoc, view_seq, failIf_seq, ne_eq]

@[simp ↓] theorem assertAdmin_seq :
    (assertAdmin caller >>= k) e s = .ok b s' ↔
      s.admin = some caller ∧ k () e s = .ok b s' := by
  simp only [assertAdmin, seq_assoc, view_seq, okOr_seq, failIf_seq, not_ne_iff]
  constructor
  · rintro ⟨_, hadmin, rfl, h⟩
    exact ⟨hadmin, h⟩
  · exact fun h => ⟨caller, h.1, rfl, h.2⟩

@[simp ↓] theorem assertCanWrite_seq :
    (assertCanWrite caller >>= k) e s = .ok b s' ↔
      (∃ admin, s.admin = some admin ∧ ¬ (caller ≠ admin ∧ caller ∉ getWriters s)) ∧
        k () e s = .ok b s' := by
  simp only [assertCanWrite, seq_assoc, view_seq, okOr_seq, failIf_seq, ← and_assoc,
    exists_and_right]

end

/-- **Every call makes one of these changes.** -/
theorem step_change {tx : Tx} (h : step tx s = some s') : Change tx.op s s' := by
  obtain ⟨e, op⟩ := tx
  cases op
  all_goals
    simp only [step, Op.apply, commit_eq_some] at h
    obtain ⟨r, h⟩ := h
  case init admin =>
    simp only [initStore, requireAuth_seq, view_seq, failIf_seq, Bool.not_eq_true,
      Option.isSome_eq_false_iff, Option.isNone_iff_eq_none, store_ok] at h
    obtain ⟨-, hadmin, rfl⟩ := h
    exact .opened admin hadmin rfl
  case grantWriter caller writer =>
    simp only [grantWriter, requireAuth_seq, assertAdmin_seq, view_seq, onlyIf_ok, store_ok] at h
    obtain ⟨-, hadmin, hnew, hold⟩ := h
    have hne : s.admin ≠ none := by rw [hadmin]; exact Option.some_ne_none _
    by_cases hw : writer ∈ getWriters s
    · exact .granted s.writers hne (hold (not_not.mpr hw)).symm
    · exact .granted _ hne (hnew hw).symm
  case revokeWriter caller writer =>
    simp only [revokeWriter, requireAuth_seq, assertAdmin_seq, view_seq, store_ok] at h
    obtain ⟨-, hadmin, rfl⟩ := h
    exact .granted _ (by rw [hadmin]; exact Option.some_ne_none _) rfl
  case dataSave caller key value =>
    simp only [dataSave, requireAuth_seq, assertInitialized_seq, assertCanWrite_seq, view_seq,
      failIf_seq, onlyIf_seq, store_ok, not_le] at h
    obtain ⟨-, hadmin, -, -, -, _, t, ⟨hnew, hold⟩, rfl⟩ := h
    by_cases hkey : s.entry key = none
    · obtain ⟨hroom, rfl⟩ := hnew hkey
      exact .added key value hadmin hkey hroom rfl
    · obtain rfl := hold hkey
      exact .overwritten key value hadmin (Option.isSome_iff_ne_none.mpr hkey) rfl
  case dataBackup caller name =>
    simp only [dataBackup, requireAuth_seq, assertInitialized_seq, assertCanWrite_seq, view_seq,
      failIf_seq, store_ok] at h
    obtain ⟨-, hadmin, -, -, rfl⟩ := h
    exact .backedUp caller name rfl hadmin rfl
  case dataRestore caller name =>
    simp only [dataRestore, requireAuth_seq, assertInitialized_seq, assertAdmin_seq, view_seq,
      okOr_seq, orTrap_seq, store_ok] at h
    obtain ⟨-, -, hadmin, ⟨keys, vals⟩, hsnap, ps, hps, rfl⟩ := h
    exact .restored caller name keys vals ps rfl hadmin hsnap hps rfl
  case dataMigrateBumpVersion caller version memo =>
    simp only [dataMigrateBumpVersion, requireAuth_seq, assertInitialized_seq, assertAdmin_seq,
      view_seq, failIf_seq, not_le, store_ok] at h
    obtain ⟨-, hadmin, -, hversion, -, rfl⟩ := h
    exact .migrated version hadmin hversion rfl

/-! ## The invariant -/

/-- A snapshot that could be an index with its values. -/
def WellKept (snap : List Bytes × List Bytes) : Prop :=
  ∃ ps : List (Bytes × Bytes), snap = (ps.map Prod.fst, ps.map Prod.snd) ∧
    (ps.map Prod.fst).Nodup ∧ ps.length ≤ MAX_ENTRIES

/-- The index, the count and the entries agree, and the snapshots are well kept. -/
structure Intact (s : Storage) : Prop where
  fresh : s.admin = none → s = Storage.empty
  index : Indexes (getKeyIndex s) s.entry
  count : getEntryCount s = (getKeyIndex s).length
  bound : getEntryCount s ≤ MAX_ENTRIES
  backups : ∀ name snap, s.backup name = some snap → WellKept snap

theorem intact_empty : Intact Storage.empty where
  fresh _ := rfl
  index := indexes_nil
  count := rfl
  bound := Nat.zero_le _
  backups _ _ h := by cases h

/-- A snapshot of an intact store is well kept. -/
theorem Intact.wellKept (hs : Intact s) : WellKept (snapshot s.entry (getKeyIndex s)) := by
  refine ⟨listing s.entry (getKeyIndex s), snapshot_eq .., ?_, ?_⟩
  · rw [hs.index.listing_keys]
    exact hs.index.nodup
  · rw [← List.length_map (f := Prod.fst), hs.index.listing_keys, ← hs.count]
    exact hs.bound

/-- What is restored from a well kept snapshot is indexed by its keys. -/
theorem Intact.restored (hs : Intact s) {keys vals : List Bytes} {ps : List (Bytes × Bytes)}
    (hsnap : WellKept (keys, vals)) (hps : snapshotPairs keys vals = some ps)
    (hadmin : s.admin ≠ none) : Intact (restored ps s) := by
  obtain ⟨qs, hqs, hnodup, hlength⟩ := hsnap
  obtain ⟨rfl, rfl⟩ := Prod.mk.inj hqs
  obtain rfl : qs = ps := Option.some.inj ((snapshotPairs_map qs).symm.trans hps)
  refine ⟨fun h => absurd h hadmin, ?_, ?_, hlength, hs.backups⟩
  · change Indexes (qs.map Prod.fst) (writePairs (eraseKeys s.entry (getKeyIndex s)) qs)
    rw [hs.index.eraseKeys]
    exact indexes_writePairs hnodup
  · exact (List.length_map ..).symm

/-- **Every call keeps the store intact.** -/
theorem Intact.call {tx : Tx} (hs : Intact s) (h : step tx s = some s') : Intact s' := by
  cases step_change h with
  | opened admin hadmin h =>
    have hempty := hs.fresh hadmin
    subst hempty
    rw [h]
    exact ⟨fun hn => (by cases hn), indexes_nil, rfl, Nat.zero_le _, intact_empty.backups⟩
  | granted writers hadmin h =>
    rw [h]
    exact ⟨fun hn => absurd hn hadmin, hs.index, hs.count, hs.bound, hs.backups⟩
  | migrated version hadmin hversion h =>
    rw [h]
    exact ⟨fun hn => absurd hn hadmin, hs.index, hs.count, hs.bound, hs.backups⟩
  | overwritten key value hadmin hkey h =>
    rw [h]
    exact ⟨fun hn => absurd hn hadmin, hs.index.overwrite hkey value, hs.count, hs.bound,
      hs.backups⟩
  | added key value hadmin hkey hroom h =>
    rw [h]
    refine ⟨fun hn => absurd hn hadmin, hs.index.insert hkey value, ?_, hroom, hs.backups⟩
    change getEntryCount s + 1 = (getKeyIndex s ++ [key]).length
    rw [List.length_append, List.length_singleton, hs.count]
  | backedUp caller name hop hadmin h =>
    rw [h]
    exact ⟨fun hn => absurd hn hadmin, hs.index, hs.count, hs.bound,
      forall_update hs.backups hs.wellKept⟩
  | restored caller name keys vals ps hop hadmin hsnap hps h =>
    rw [h]
    exact hs.restored (hs.backups name _ hsnap) hps (by rw [hadmin]; exact Option.some_ne_none _)

theorem intact_ledger (txs : List Tx) : Intact (ledger txs) :=
  run_invariant (fun _ _ _ h hs => hs.call h) txs intact_empty

/-- **No call lowers the schema version.** -/
theorem step_schemaVersion {tx : Tx} (hs : Intact s) (h : step tx s = some s') :
    getSchemaVersion s ≤ getSchemaVersion s' := by
  cases step_change h with
  | opened admin hadmin h =>
    rw [hs.fresh hadmin]
    exact Nat.zero_le _
  | migrated version hadmin hversion h =>
    rw [h]
    exact hversion.le
  | granted _ _ h | overwritten _ _ _ _ h | added _ _ _ _ _ h | backedUp _ _ _ _ h
    | restored _ _ _ _ _ _ _ _ _ h =>
    rw [h]
    exact le_rfl

/-! ## Every run -/

/-- In the state the run reaches, the index names the keys that have an entry, each once, the count
is its length and within the limit, and the schema version is no less than it ever was. -/
structure KeptIntact (txs : List Tx) : Prop where
  index_nodup : (getKeyIndex (ledger txs)).Nodup
  index_live : ∀ key, key ∈ getKeyIndex (ledger txs) ↔ ((ledger txs).entry key).isSome
  count : getEntryCount (ledger txs) = (getKeyIndex (ledger txs)).length
  bound : getEntryCount (ledger txs) ≤ MAX_ENTRIES
  version : ∀ ys, ys <+: txs → getSchemaVersion (ledger ys) ≤ getSchemaVersion (ledger txs)

/-- **Every run keeps the data store intact.** -/
theorem dataStore_kept_intact (txs : List Tx) : KeptIntact txs where
  index_nodup := (intact_ledger txs).index.nodup
  index_live := (intact_ledger txs).index.mem_iff
  count := (intact_ledger txs).count
  bound := (intact_ledger txs).bound
  version := by
    rintro ys ⟨zs, rfl⟩
    have hstep : ∀ t tx t', step tx t = some t' →
        Intact t ∧ getSchemaVersion (ledger ys) ≤ getSchemaVersion t →
        Intact t' ∧ getSchemaVersion (ledger ys) ≤ getSchemaVersion t' :=
      fun _ _ _ h ht => ⟨ht.1.call h, ht.2.trans (step_schemaVersion ht.1 h)⟩
    rw [ledger, ledger, run_append]
    exact (run_invariant hstep zs ⟨intact_ledger ys, le_rfl⟩).2

/-! ## Backups -/

/-- The call is a backup under the name. -/
def Op.BacksUp (name : Bytes) : Op → Prop
  | .dataBackup _ backupName => backupName = name
  | _ => False

/-- The store under an admin, and the snapshot under the name is the one of these entries. -/
structure Holds (admin : Address) (name : Bytes) (entry : Bytes → Option Bytes) (s : Storage) :
    Prop where
  intact : Intact s
  admin : s.admin = some admin
  snapshot : ∃ keys, Indexes keys entry ∧ s.backup name = some (snapshot entry keys)

/-- **Every call but a backup under the name keeps the snapshot.** -/
theorem Holds.call {admin : Address} {name : Bytes} {entry : Bytes → Option Bytes} {tx : Tx}
    (hs : Holds admin name entry s) (h : step tx s = some s') (hop : ¬ tx.op.BacksUp name) :
    Holds admin name entry s' := by
  refine ⟨hs.intact.call h, ?_, ?_⟩
  · cases step_change h with
    | opened _ hadmin _ =>
      rw [hs.admin] at hadmin
      cases hadmin
    | granted _ _ h | migrated _ _ _ h | overwritten _ _ _ _ h | added _ _ _ _ _ h
      | backedUp _ _ _ _ h | restored _ _ _ _ _ _ _ _ _ h =>
      rw [h]
      exact hs.admin
  · cases step_change h with
    | opened _ _ h | granted _ _ h | migrated _ _ _ h | overwritten _ _ _ _ h | added _ _ _ _ _ h
      | restored _ _ _ _ _ _ _ _ _ h =>
      rw [h]
      exact hs.snapshot
    | backedUp caller name' hname _ h =>
      have hne : name ≠ name' := by
        rintro rfl
        exact hop (by rw [hname]; rfl)
      rw [h]
      change ∃ keys, _ ∧ Function.update s.backup name' _ name = _
      rw [Function.update_of_ne hne]
      exact hs.snapshot

/-- The admin can restore the name. -/
theorem Holds.restorable {admin : Address} {name : Bytes} {entry : Bytes → Option Bytes}
    (hs : Holds admin name entry s) (hauth : admin ∈ e.auths) :
    ∃ s', step ⟨e, .dataRestore admin name⟩ s = some s' := by
  obtain ⟨keys, -, hsnap⟩ := hs.snapshot
  rw [snapshot_eq] at hsnap
  refine ⟨restored (listing entry keys) s, commit_eq_some.mpr ⟨(), ?_⟩⟩
  simp only [dataRestore, requireAuth_seq, assertInitialized_seq, assertAdmin_seq, hauth, view_seq,
    okOr_seq, orTrap_seq, store_ok, hs.admin, ne_eq, reduceCtorEq, not_false_eq_true, hsnap,
    Option.some.injEq, exists_eq_left', snapshotPairs_map, and_self]

/-- **A restore of the name writes the entries back.** -/
theorem Holds.restored {admin caller : Address} {name : Bytes} {entry : Bytes → Option Bytes}
    (hs : Holds admin name entry s) (h : step ⟨e, .dataRestore caller name⟩ s = some s') :
    s'.entry = entry := by
  obtain ⟨keys, hindex, hsnap⟩ := hs.snapshot
  rw [snapshot_eq] at hsnap
  obtain ⟨_, h⟩ := commit_eq_some.mp h
  simp only [dataRestore, requireAuth_seq, assertInitialized_seq, assertAdmin_seq, view_seq,
    okOr_seq, orTrap_seq, store_ok, hsnap, Option.some.injEq, exists_eq_left', snapshotPairs_map]
    at h
  obtain ⟨-, -, -, rfl⟩ := h
  change writePairs (eraseKeys s.entry (getKeyIndex s)) (listing entry keys) = entry
  rw [hs.intact.index.eraseKeys, hindex.writePairs_listing]

/-- A backup of an intact store holds its entries. -/
theorem Intact.backedUp {caller : Address} {name : Bytes} (hs : Intact s)
    (h : step ⟨e, .dataBackup caller name⟩ s = some s') :
    ∃ admin, s.admin = some admin ∧ Holds admin name s.entry s' := by
  have hintact := hs.call h
  obtain ⟨_, h⟩ := commit_eq_some.mp h
  simp only [dataBackup, requireAuth_seq, assertInitialized_seq, assertCanWrite_seq, view_seq,
    failIf_seq, store_ok] at h
  obtain ⟨-, -, ⟨admin, hadmin, -⟩, -, rfl⟩ := h
  exact ⟨admin, hadmin, hintact, hadmin, getKeyIndex s, hs.index, Function.update_self ..⟩

/-! ## Every run -/

/-- What a restore of the name does to the store: the admin can do it, and after it, whoever did it,
`dataLoad` is `load`. -/
structure GoesBack (name : Bytes) (load : Bytes → Except DataStoreError Bytes) (s : Storage) :
    Prop where
  restorable : ∀ e admin, s.admin = some admin → admin ∈ e.auths →
    ∃ s', step ⟨e, .dataRestore admin name⟩ s = some s'
  loads : ∀ e caller s', step ⟨e, .dataRestore caller name⟩ s = some s' → dataLoad s' = load

theorem Holds.goesBack {admin : Address} {name : Bytes} {t : Storage} (ht : t.admin = some admin)
    (hs : Holds admin name t.entry s) : GoesBack name (dataLoad t) s where
  restorable e admin' hadmin hauth := by
    obtain rfl : admin' = admin := Option.some.inj (hadmin.symm.trans hs.admin)
    exact hs.restorable hauth
  loads e caller s' h := by
    have hentry := hs.restored h
    have hadmin := (hs.call h (by exact id)).admin
    funext key
    simp only [dataLoad, hentry, hadmin, ht]

/-- **A restore goes back to the backup**, after any calls but a backup under the same name, and so
does every further restore. -/
theorem restore_goes_back {ys zs : List Tx} {e : Env} {caller : Address} {name : Bytes}
    {s : Storage} (h : step ⟨e, .dataBackup caller name⟩ (ledger ys) = some s)
    (hzs : ∀ tx ∈ zs, ¬ tx.op.BacksUp name) :
    GoesBack name (dataLoad (ledger ys)) (run step s zs) ∧
      ∀ e' caller' s', step ⟨e', .dataRestore caller' name⟩ (run step s zs) = some s' →
        GoesBack name (dataLoad (ledger ys)) s' := by
  obtain ⟨admin, hadmin, hs⟩ := (intact_ledger ys).backedUp h
  have hrun : Holds admin name (ledger ys).entry (run step s zs) :=
    (meets_of_forall (C := fun _ tx => ¬ tx.op.BacksUp name) fun tx htx _ => hzs tx htx).invariant
      (fun _ _ _ h hop ht => ht.call h hop) hs
  exact ⟨hrun.goesBack hadmin, fun _ _ _ h' => (hrun.call h' (by exact id)).goesBack hadmin⟩

namespace Sample

def admin : Address := ⟨0⟩
def signed : Env := ⟨[admin]⟩

/-- The admin saves a key. -/
def saved : List Tx := [⟨signed, .init admin⟩, ⟨signed, .dataSave admin [1] [10]⟩]

/-- The admin overwrites the key and saves another, and backs that up and restores it under another
name. -/
def changed : List Tx :=
  [⟨signed, .dataSave admin [1] [11]⟩, ⟨signed, .dataSave admin [2] [20]⟩,
    ⟨signed, .dataBackup admin [8]⟩, ⟨signed, .dataRestore admin [8]⟩]

end Sample

/-- A backup before the changes is gone back to after them. -/
theorem restore_goes_back_changed :
    ∃ s, step ⟨Sample.signed, .dataBackup Sample.admin [7]⟩ (ledger Sample.saved) = some s ∧
      GoesBack [7] (dataLoad (ledger Sample.saved)) (run step s Sample.changed) ∧
      ∀ e caller s', step ⟨e, .dataRestore caller [7]⟩ (run step s Sample.changed) = some s' →
        GoesBack [7] (dataLoad (ledger Sample.saved)) s' := by
  have hsome : (step ⟨Sample.signed, .dataBackup Sample.admin [7]⟩ (ledger Sample.saved)).isSome :=
    by decide
  obtain ⟨s, hs⟩ := Option.isSome_iff_exists.mp hsome
  exact ⟨s, hs, restore_goes_back hs (by simp [Sample.changed, Op.BacksUp])⟩

example : dataLoad (run step (ledger Sample.saved) Sample.changed) [2] = .ok [20] ∧
    dataLoad (ledger (Sample.saved ++ [⟨Sample.signed, .dataBackup Sample.admin [7]⟩] ++
      Sample.changed ++ [⟨Sample.signed, .dataRestore Sample.admin [7]⟩])) [2] =
      .error .keyNotFound := by
  decide

end StellarLend.DataStore
