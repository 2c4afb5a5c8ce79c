import StellarLend.Subscriptions.Import

/-!
# Subscriptions/Idempotence — importing a payload twice

Rows that leave no error are drafts with identifiers of their own, whatever the records are
(`reads_of_validateRows`).  What an import writes for a draft is printed like the draft, and nothing
else is written under its identifier (`applied_foldl`): so the same payload is skipped the next
time, and sorted records stay as they are (`importSubscriptions_again`).
-/

namespace StellarLend.Subscriptions

open Foundations

/-! ## What validation accepts -/

section Acceptance

variable {js : Runtime} {input : ImportData} {existing records : List SubscriptionRecord}
  {upsert : Bool} {st st' : ValidationState} {n : ℕ} {draft : DraftSubscription}
  {numbered : List (RawImportRow × ℕ)} {drafts : List (ℕ × DraftSubscription)}

/-- What is to be done with a draft. -/
def actionFor (records : List SubscriptionRecord) (draft : DraftSubscription) : ImportAction :=
  match findKey SubscriptionRecord.key records draft.subscriptionId with
  | none => .create
  | some existing =>
    if subscriptionsMatch draft existing.toDraftSubscription then .skip else .update

/-- The row that goes on to be applied. -/
def previewRow (records : List SubscriptionRecord) (draft : ℕ × DraftSubscription) :
    ImportPreviewRow :=
  ⟨draft.1, actionFor records draft.2, draft.2⟩

/-- A draft is new to the payload, and to the records if they are not to be changed. -/
def Admissible (records : List SubscriptionRecord) (upsert : Bool) (seen : List String)
    (draft : DraftSubscription) : Prop :=
  draft.subscriptionId ∉ seen ∧
    (upsert = true ∨ findKey SubscriptionRecord.key records draft.subscriptionId = none)

/-- An admissible draft goes on. -/
theorem visit_of_admissible (h : Admissible records upsert st.seenSubscriptionIds draft) :
    (st.visit records upsert n (some draft, [])).errors = st.errors ∧
      (st.visit records upsert n (some draft, [])).normalizedRows =
        st.normalizedRows ++ [previewRow records (n, draft)] ∧
      (st.visit records upsert n (some draft, [])).seenSubscriptionIds =
        draft.subscriptionId :: st.seenSubscriptionIds := by
  rw [ValidationState.visit, if_neg h.1, previewRow, actionFor]
  cases hfind : findKey SubscriptionRecord.key records draft.subscriptionId with
  | none => exact ⟨rfl, rfl, rfl⟩
  | some existing =>
    have hupsert : upsert = true := h.2.resolve_right (by simp [hfind])
    rw [hupsert]
    exact ⟨rfl, rfl, rfl⟩

/-- Errors stay. -/
theorem errors_prefix_visit (normalized : Option DraftSubscription × List ImportRowError) :
    st.errors <+: (st.visit records upsert n normalized).errors := by
  obtain ⟨draft, errors⟩ := normalized
  rcases draft with _ | draft
  · exact List.prefix_append ..
  rcases errors with _ | ⟨error, errors⟩
  · rw [ValidationState.visit]
    split
    · exact List.prefix_append ..
    dsimp only
    split
    · exact List.prefix_refl _
    · split
      · exact List.prefix_append ..
      · exact List.prefix_refl _
  · exact List.prefix_append ..

/-- **A row that leaves no error is an admissible draft.** -/
theorem admissible_of_visit {normalized : Option DraftSubscription × List ImportRowError}
    (hnormal : normalized.1.isSome ↔ normalized.2 = [])
    (h : (st.visit records upsert n normalized).errors = []) :
    ∃ draft, normalized = (some draft, []) ∧
      Admissible records upsert st.seenSubscriptionIds draft := by
  obtain ⟨draft, errors⟩ := normalized
  have hnil : errors = [] := by
    rcases draft with _ | draft
    · exact (List.append_eq_nil_iff.mp h).2
    · exact hnormal.mp rfl
  subst hnil
  obtain ⟨draft, rfl⟩ := Option.isSome_iff_exists.mp (hnormal.mpr rfl)
  refine ⟨draft, rfl, ?_⟩
  rw [ValidationState.visit] at h
  split at h
  · exact absurd h (by simp [ValidationState.addErrors])
  · rename_i hseen
    refine ⟨hseen, ?_⟩
    cases hfind : findKey SubscriptionRecord.key records draft.subscriptionId with
    | none => exact .inr rfl
    | some existing =>
      rw [hfind] at h
      cases upsert with
      | true => exact .inl rfl
      | false => exact absurd h (by simp [ValidationState.addErrors])

/-- The rows as drafts, with their numbers. -/
def Reads (js : Runtime) (merchantId : String) : List (RawImportRow × ℕ) →
    List (ℕ × DraftSubscription) → Prop :=
  List.Forall₂ fun row draft => draft.1 = row.2 ∧
    normalizeSubscriptionRow js merchantId row.1 row.2 = .ok (some draft.2, [])

/-- The drafts have identifiers of their own, and none that was seen. -/
structure Distinct (seen : List String) (drafts : List (ℕ × DraftSubscription)) : Prop where
  nodup : (drafts.map fun d => d.2.subscriptionId).Nodup
  unseen : ∀ d ∈ drafts, d.2.subscriptionId ∉ seen

theorem distinct_cons {seen : List String} {d : ℕ × DraftSubscription} :
    Distinct seen (d :: drafts) ↔
      d.2.subscriptionId ∉ seen ∧ Distinct (d.2.subscriptionId :: seen) drafts := by
  constructor
  · rintro ⟨hnodup, hunseen⟩
    obtain ⟨hd, hdrafts⟩ := List.nodup_cons.mp hnodup
    refine ⟨hunseen d (List.mem_cons_self ..), hdrafts, fun e he hmem => ?_⟩
    rcases List.mem_cons.mp hmem with heq | hmem
    · exact hd (List.mem_map.mpr ⟨e, he, heq⟩)
    · exact hunseen e (List.mem_cons_of_mem _ he) hmem
  · rintro ⟨hd, hnodup, hunseen⟩
    refine ⟨List.nodup_cons.mpr ⟨fun hmem => ?_, hnodup⟩, ?_⟩
    · obtain ⟨e, he, heq⟩ := List.mem_map.mp hmem
      exact hunseen e he (heq ▸ List.mem_cons_self ..)
    · exact List.forall_mem_cons.mpr
        ⟨hd, fun e he hmem => hunseen e he (List.mem_cons_of_mem _ hmem)⟩

theorem errors_prefix_validateRows
    (h : numbered.foldlM (validateRow js input existing) st = .ok st') :
    st.errors <+: st'.errors := by
  induction numbered generalizing st with
  | nil =>
    cases h
    exact List.prefix_refl _
  | cons row numbered ih =>
    rw [List.foldlM_cons, except_bind_ok] at h
    obtain ⟨st₁, hrow, hrest⟩ := h
    obtain ⟨normalized, -, hvisit⟩ := except_bind_ok.mp hrow
    cases hvisit
    exact (errors_prefix_visit normalized).trans (ih hrest)

/-- **Rows that leave no error are distinct drafts, and all of them go on.** -/
theorem reads_of_validateRows (h : numbered.foldlM (validateRow js input existing) st = .ok st')
    (hnil : st'.errors = []) :
    ∃ drafts, Reads js input.merchantId numbered drafts ∧
      Distinct st.seenSubscriptionIds drafts ∧
      st'.normalizedRows = st.normalizedRows ++
        drafts.map (previewRow (upsertAll SubscriptionRecord.key existing)) := by
  induction numbered generalizing st with
  | nil =>
    cases h
    exact ⟨[], .nil, ⟨List.nodup_nil, nofun⟩, (List.append_nil _).symm⟩
  | cons row numbered ih =>
    rw [List.foldlM_cons, except_bind_ok] at h
    obtain ⟨st₁, hrow, hrest⟩ := h
    obtain ⟨normalized, hnormal, hvisit⟩ := except_bind_ok.mp hrow
    cases hvisit
    have hnil₁ := List.prefix_nil.mp (hnil ▸ errors_prefix_validateRows hrest)
    obtain ⟨draft, rfl, hadmissible⟩ :=
      admissible_of_visit (normalizeSubscriptionRow_isSome hnormal) hnil₁
    obtain ⟨-, hrows, hseen⟩ := visit_of_admissible (n := row.2) hadmissible
    obtain ⟨drafts, hreads, hdistinct, hdrafts⟩ := ih hrest
    rw [hseen] at hdistinct
    refine ⟨(row.2, draft) :: drafts, .cons ⟨rfl, hnormal⟩ hreads,
      distinct_cons.mpr ⟨hadmissible.1, hdistinct⟩, ?_⟩
    rw [hdrafts, hrows, List.append_assoc]
    rfl

/-- **Distinct drafts all go on without an error, where records may be changed.** -/
theorem validateRows_of_reads (hreads : Reads js input.merchantId numbered drafts)
    (hdistinct : Distinct st.seenSubscriptionIds drafts) (hupsert : upserts input.options = true) :
    ∃ st', numbered.foldlM (validateRow js input existing) st = .ok st' ∧
      st'.errors = st.errors ∧
      st'.normalizedRows = st.normalizedRows ++
        drafts.map (previewRow (upsertAll SubscriptionRecord.key existing)) := by
  induction hreads generalizing st with
  | nil => exact ⟨st, rfl, rfl, (List.append_nil _).symm⟩
  | @cons row draft numbered drafts hrow _ ih =>
    obtain ⟨hunseen, hdistinct⟩ := distinct_cons.mp hdistinct
    obtain ⟨n, draft⟩ := draft
    obtain ⟨rfl, hnormal⟩ := hrow
    have hadmissible : Admissible (upsertAll SubscriptionRecord.key existing)
        (upserts input.options) st.seenSubscriptionIds draft := ⟨hunseen, .inl hupsert⟩
    obtain ⟨herrors, hrows, hseen⟩ := visit_of_admissible (n := row.2) hadmissible
    have hvisit : validateRow js input existing st row =
        .ok (st.visit (upsertAll SubscriptionRecord.key existing) (upserts input.options) row.2
          (some draft, [])) := by
      rw [validateRow, hnormal]
      rfl
    obtain ⟨st', hst', herrors', hrows'⟩ := ih (hseen ▸ hdistinct)
    refine ⟨st', ?_, herrors'.trans herrors, ?_⟩
    · rw [List.foldlM_cons, hvisit]
      exact hst'
    · rw [hrows', hrows, List.append_assoc]
      rfl

end Acceptance

/-! ## What is applied -/

section Application

variable {js : Runtime} {createdAt k : String} {records records' : List SubscriptionRecord}
  {t : Tally} {d : ℕ × DraftSubscription} {drafts : List (ℕ × DraftSubscription)}
  {record : SubscriptionRecord}

/-- The identifiers of some drafts. -/
def draftIds (drafts : List (ℕ × DraftSubscription)) : List String :=
  drafts.map fun d => d.2.subscriptionId

/-- What an import makes of some records. -/
structure Applied (records : List SubscriptionRecord) (drafts : List (ℕ × DraftSubscription))
    (records' : List SubscriptionRecord) : Prop where
  nodup : (records'.map SubscriptionRecord.key).Nodup
  written : ∀ d ∈ drafts, ∃ record,
    findKey SubscriptionRecord.key records' d.2.subscriptionId = some record ∧
      subscriptionsMatch d.2 record.toDraftSubscription = true
  kept : ∀ k ∉ draftIds drafts,
    findKey SubscriptionRecord.key records' k = findKey SubscriptionRecord.key records k
  created : ∀ k record, findKey SubscriptionRecord.key records k = some record →
    ∃ record', findKey SubscriptionRecord.key records' k = some record' ∧
      record'.createdAt = record.createdAt

theorem subscriptionsMatch_self (draft : DraftSubscription) :
    subscriptionsMatch draft draft = true :=
  subscriptionsMatch_iff.mpr rfl

theorem actionFor_eq_skip {draft : DraftSubscription} :
    actionFor records draft = .skip ↔
      ∃ record, findKey SubscriptionRecord.key records draft.subscriptionId = some record ∧
        subscriptionsMatch draft record.toDraftSubscription = true := by
  rw [actionFor]
  cases hfind : findKey SubscriptionRecord.key records draft.subscriptionId with
  | none => simp
  | some record => simp

/-- A record written under the identifier of a draft. -/
theorem Applied.of_upsert (hnodup : (records.map SubscriptionRecord.key).Nodup)
    (hkey : record.toDraftSubscription = d.2)
    (hcreated : ∀ old, findKey SubscriptionRecord.key records d.2.subscriptionId = some old →
      record.createdAt = old.createdAt) :
    Applied records [d] (upsert SubscriptionRecord.key record records) := by
  have hid : record.key = d.2.subscriptionId := congrArg _ hkey
  refine ⟨nodup_upsert hnodup, ?_, fun k hk => ?_, fun k old hold => ?_⟩
  · rw [List.forall_mem_singleton, ← hid, ← hkey]
    exact ⟨record, findKey_upsert_self, subscriptionsMatch_self _⟩
  · exact findKey_upsert_of_ne fun heq => hk (by simp [draftIds, ← heq, hid])
  · rw [findKey_upsert]
    by_cases hk : record.key = k
    · rw [if_pos hk]
      exact ⟨record, rfl, hcreated old (by rw [← hid, hk, hold])⟩
    · rw [if_neg hk]
      exact ⟨old, hold, rfl⟩

/-- **One row.** -/
theorem applied_applyRow (hnodup : (t.subscriptionMap.map SubscriptionRecord.key).Nodup) :
    Applied t.subscriptionMap [d]
      (applyRow createdAt t (previewRow t.subscriptionMap d)).subscriptionMap := by
  rw [applyRow, previewRow]
  cases hfind : findKey SubscriptionRecord.key t.subscriptionMap d.2.subscriptionId with
  | none =>
    rw [actionFor, hfind]
    exact Applied.of_upsert hnodup rfl fun old hold => by cases hfind.symm.trans hold
  | some existing =>
    by_cases hmatch : subscriptionsMatch d.2 existing.toDraftSubscription = true
    · rw [actionFor, hfind]
      dsimp only
      rw [if_pos hmatch]
      refine ⟨hnodup, ?_, fun _ _ => rfl, fun _ record hrecord => ⟨record, hrecord, rfl⟩⟩
      rw [List.forall_mem_singleton]
      exact ⟨existing, hfind, hmatch⟩
    · rw [actionFor, hfind]
      dsimp only
      rw [if_neg hmatch]
      refine Applied.of_upsert hnodup rfl fun old hold => ?_
      rw [Option.some.inj (hfind.symm.trans hold)]

theorem Applied.trans {records₁ : List SubscriptionRecord} (hone : Applied records [d] records₁)
    (hrest : Applied records₁ drafts records') (hd : d.2.subscriptionId ∉ draftIds drafts) :
    Applied records (d :: drafts) records' where
  nodup := hrest.nodup
  written := by
    refine List.forall_mem_cons.mpr ⟨?_, hrest.written⟩
    rw [hrest.kept _ hd]
    exact hone.written d (List.mem_cons_self ..)
  kept k hk := by
    obtain ⟨hkd, hkrest⟩ := not_or.mp (mt List.mem_cons.mpr hk)
    rw [hrest.kept k hkrest]
    exact hone.kept k (by simpa [draftIds] using hkd)
  created k record hrecord := by
    obtain ⟨record₁, hrecord₁, hcreated₁⟩ := hone.created k record hrecord
    obtain ⟨record₂, hrecord₂, hcreated₂⟩ := hrest.created k record₁ hrecord₁
    exact ⟨record₂, hrecord₂, hcreated₂.trans hcreated₁⟩

theorem previewRow_congr (h : findKey SubscriptionRecord.key records d.2.subscriptionId =
    findKey SubscriptionRecord.key records' d.2.subscriptionId) :
    previewRow records d = previewRow records' d := by
  rw [previewRow, previewRow, actionFor, actionFor, h]

/-- **All rows**, each decided upon before the first was applied. -/
theorem applied_foldl (hdistinct : (draftIds drafts).Nodup)
    (hnodup : (t.subscriptionMap.map SubscriptionRecord.key).Nodup) :
    Applied t.subscriptionMap drafts ((drafts.map (previewRow t.subscriptionMap)).foldl
      (applyRow createdAt) t).subscriptionMap := by
  induction drafts generalizing t with
  | nil => exact ⟨hnodup, nofun, fun _ _ => rfl, fun _ record hrecord => ⟨record, hrecord, rfl⟩⟩
  | cons d drafts ih =>
    obtain ⟨hd, hdrafts⟩ := List.nodup_cons.mp hdistinct
    have hone : Applied t.subscriptionMap [d]
        (applyRow createdAt t (previewRow t.subscriptionMap d)).subscriptionMap :=
      applied_applyRow hnodup
    have hsame : drafts.map (previewRow t.subscriptionMap) = drafts.map (previewRow
        (applyRow createdAt t (previewRow t.subscriptionMap d)).subscriptionMap) := by
      refine List.map_congr_left fun e he => previewRow_congr (hone.kept _ fun hmem => hd ?_).symm
      rw [← List.mem_singleton.mp hmem]
      exact List.mem_map_of_mem (f := fun e => e.2.subscriptionId) he
    rw [List.map_cons, List.foldl_cons, hsame]
    exact hone.trans (ih hdrafts hone.nodup) hd

/-- The records are those that were there, and those of the drafts. -/
theorem Applied.mem_keys (h : Applied records drafts records') :
    k ∈ records'.map SubscriptionRecord.key ↔
      k ∈ records.map SubscriptionRecord.key ∨ k ∈ draftIds drafts := by
  rw [← findKey_isSome, ← findKey_isSome]
  by_cases hk : k ∈ draftIds drafts
  · obtain ⟨d, hd, rfl⟩ := List.mem_map.mp hk
    obtain ⟨record, hrecord, -⟩ := h.written d hd
    exact iff_of_true (by rw [hrecord]; rfl) (.inr hk)
  · rw [h.kept k hk, or_iff_left hk]

/-- Records that are skipped stay. -/
theorem foldl_applyRow_skips {rows : List ImportPreviewRow} (h : ∀ row ∈ rows, row.action = .skip) :
    rows.foldl (applyRow createdAt) t =
      { t with skippedCount := t.skippedCount + rows.length } := by
  induction rows generalizing t with
  | nil => rfl
  | cons row rows ih =>
    obtain ⟨hrow, hrows⟩ := List.forall_mem_cons.mp h
    rw [List.foldl_cons, ih hrows, applyRow, hrow, List.length_cons]
    dsimp only
    rw [add_right_comm, add_assoc]

/-! ### Sorting -/

theorem perm_sortById (js : Runtime) (records : List SubscriptionRecord) :
    (sortById js records).Perm records :=
  List.perm_insertionSort _ _

/-- Sorted records are sorted as they are. -/
theorem sortById_idem (js : Runtime) (records : List SubscriptionRecord) :
    sortById js (sortById js records) = sortById js records := by
  have : Std.Total fun left right : SubscriptionRecord =>
      js.notAfter left.subscriptionId right.subscriptionId = true :=
    ⟨fun left right => js.notAfter_total left.subscriptionId right.subscriptionId⟩
  have : IsTrans SubscriptionRecord fun left right =>
      js.notAfter left.subscriptionId right.subscriptionId = true :=
    ⟨fun a b c => js.notAfter_trans a.subscriptionId b.subscriptionId c.subscriptionId⟩
  exact (List.pairwise_insertionSort _ records).insertionSort_eq

end Application

/-! ## The same payload again -/

section Again

variable {js : Runtime} {input : ImportData} {existing records : List SubscriptionRecord}
  {importId createdAt : String} {v : ValidationResult} {result : ImportResult}
  {rows : List RawImportRow} {drafts : List (ℕ × DraftSubscription)}

theorem errors_of_validateImport (h : validateImport js input existing = .ok v) :
    v.isValid = v.errors.isEmpty ∧
      v.summary.validRows = v.normalizedRows.length ∧
      v.summary.creates = v.normalizedRows.countP (fun row => row.action = .create) ∧
      v.summary.updates = v.normalizedRows.countP (fun row => row.action = .update) ∧
      v.summary.skips = v.normalizedRows.countP fun row => row.action = .skip := by
  obtain ⟨rows, -, h⟩ := except_bind_ok.mp h
  obtain ⟨st, -, h⟩ := except_bind_ok.mp h
  cases h
  exact ⟨rfl, rfl, rfl, rfl, rfl⟩

/-- The payload as distinct drafts. -/
structure Payloads (js : Runtime) (input : ImportData) (rows : List RawImportRow)
    (drafts : List (ℕ × DraftSubscription)) : Prop where
  rows_eq : getRawRows js input = .ok rows
  reads : Reads js input.merchantId (rows.zipIdx (firstRow input.format)) drafts
  nodup : (draftIds drafts).Nodup

theorem Payloads.length_eq (h : Payloads js input rows drafts) : rows.length = drafts.length := by
  rw [← h.reads.length_eq, List.length_zipIdx]

/-- **An import without errors is one of distinct drafts**, one for each row. -/
theorem payloads_of_validateImport (h : validateImport js input existing = .ok v)
    (hnil : v.errors = []) :
    ∃ rows drafts, Payloads js input rows drafts ∧ v.summary.totalRows = rows.length ∧
      v.normalizedRows = drafts.map (previewRow (upsertAll SubscriptionRecord.key existing)) := by
  obtain ⟨rows, hrows, h⟩ := except_bind_ok.mp h
  obtain ⟨st, hst, h⟩ := except_bind_ok.mp h
  cases h
  obtain ⟨drafts, hreads, hdistinct, hnormal⟩ := reads_of_validateRows hst hnil
  exact ⟨rows, drafts, ⟨hrows, hreads, hdistinct.nodup⟩, rfl, hnormal⟩

/-- **Distinct drafts have no errors, where records may be changed.** -/
theorem validateImport_of_payloads (h : Payloads js input rows drafts)
    (hupsert : upserts input.options = true) :
    ∃ v, validateImport js input existing = .ok v ∧ v.errors = [] ∧
      v.summary.totalRows = rows.length ∧
      v.normalizedRows = drafts.map (previewRow (upsertAll SubscriptionRecord.key existing)) := by
  have hdistinct : Distinct ValidationState.initial.seenSubscriptionIds drafts :=
    ⟨h.nodup, fun _ _ => List.not_mem_nil⟩
  obtain ⟨st, hst, herrors, hnormal⟩ := @validateRows_of_reads js input existing _ _ _ h.reads
    hdistinct hupsert
  exact ⟨_, except_bind_ok.mpr ⟨rows, h.rows_eq, except_bind_ok.mpr ⟨st, hst, rfl⟩⟩, herrors, rfl,
    hnormal⟩

/-- An import with errors changes nothing. -/
theorem applied_of_errors (hv : validateImport js input existing = .ok v) (hne : v.errors ≠ [])
    (h : importSubscriptions js input existing importId createdAt = .ok result) :
    result.appliedSubscriptions = existing ∧ result.errors = v.errors := by
  have hvalid : v.isValid = false := by
    rw [(errors_of_validateImport hv).1]
    simpa using hne
  rw [importSubscriptions, hv] at h
  change (if !v.isValid then _ else _) = _ at h
  rw [hvalid] at h
  cases h
  exact ⟨rfl, rfl⟩

/-- An import without errors applies its rows. -/
theorem applied_of_valid (hv : validateImport js input existing = .ok v) (hnil : v.errors = []) :
    importSubscriptions js input existing importId createdAt = .ok result ↔
      ∃ t, t = v.normalizedRows.foldl (applyRow createdAt)
        ⟨upsertAll SubscriptionRecord.key existing, 0, 0, 0⟩ ∧
      result = ⟨input.merchantId, importId, t.importedCount, t.updatedCount, t.skippedCount, 0, [],
        v.warnings, sortById js t.subscriptionMap,
        ⟨importId, input.merchantId, input.format, createdAt, v.summary.totalRows,
          t.importedCount, t.updatedCount, t.skippedCount, 0, .completed⟩⟩ := by
  have hvalid : v.isValid = true := by
    rw [(errors_of_validateImport hv).1, hnil]
    rfl
  rw [importSubscriptions, hv]
  change (if !v.isValid then _ else _) = _ ↔ _
  rw [hvalid]
  simp [eq_comm]

/-- Every row is skipped. -/
structure OnlySkips (v : ValidationResult) : Prop where
  errors : v.errors = []
  creates : v.summary.creates = 0
  updates : v.summary.updates = 0
  skips : v.summary.skips = v.summary.totalRows

theorem onlySkips_of_rows (hv : validateImport js input existing = .ok v) (hnil : v.errors = [])
    (hlength : v.summary.totalRows = v.normalizedRows.length)
    (hskip : ∀ row ∈ v.normalizedRows, row.action = .skip) : OnlySkips v := by
  obtain ⟨-, -, hcreates, hupdates, hskips⟩ := errors_of_validateImport hv
  refine ⟨hnil, hcreates.trans ?_, hupdates.trans ?_, hskips.trans ?_⟩
  · exact List.countP_eq_zero.mpr fun row hrow => by simp [hskip row hrow]
  · exact List.countP_eq_zero.mpr fun row hrow => by simp [hskip row hrow]
  · exact (List.countP_eq_length.mpr fun row hrow => by simp [hskip row hrow]).trans hlength.symm

/-- **What an import made of some records is left as it is by the same drafts.** -/
theorem skipped_again {records' : List SubscriptionRecord} (h : Payloads js input rows drafts)
    (happlied : Applied records drafts records') (hupsert : upserts input.options = true) :
    ∃ v, validateImport js input (sortById js records') = .ok v ∧ OnlySkips v ∧
      ∃ result, importSubscriptions js input (sortById js records') importId createdAt =
          .ok result ∧
        result.importedCount = 0 ∧ result.updatedCount = 0 ∧ result.skippedCount = rows.length ∧
        result.appliedSubscriptions = sortById js records' := by
  have hperm := perm_sortById js records'
  have hnodup : ((sortById js records').map SubscriptionRecord.key).Nodup :=
    (hperm.map _).nodup_iff.mpr happlied.nodup
  have hself : upsertAll SubscriptionRecord.key (sortById js records') = sortById js records' :=
    upsertAll_of_nodup hnodup
  obtain ⟨v, hv, hnil, htotal, hrows⟩ :=
    @validateImport_of_payloads js input (sortById js records') rows drafts h hupsert
  rw [hself] at hrows
  have hskip : ∀ row ∈ v.normalizedRows, row.action = .skip := by
    rw [hrows, List.forall_mem_map]
    intro d hd
    obtain ⟨record, hrecord, hmatch⟩ := happlied.written d hd
    exact actionFor_eq_skip.mpr ⟨record, by rw [findKey_perm hperm hnodup, hrecord], hmatch⟩
  have hlength : v.normalizedRows.length = rows.length := by
    rw [hrows, List.length_map, h.length_eq]
  refine ⟨v, hv, onlySkips_of_rows hv hnil (htotal.trans hlength.symm) hskip, _,
    (applied_of_valid hv hnil).mpr ⟨_, rfl, rfl⟩, ?_⟩
  rw [foldl_applyRow_skips hskip, hself]
  exact ⟨rfl, rfl, (Nat.zero_add _).trans hlength, sortById_idem js records'⟩

/-- **Importing is atomic, and the second import of a payload changes nothing.**  With errors the
records are left alone.  Without, the new list has the identifiers of the old records and of the
payload, each once, records that were there keep the time they were created at, and the same payload
is then skipped row by row and leaves the list as it is. -/
theorem importSubscriptions_again
    (h : importSubscriptions js input existing importId createdAt = .ok result) :
    ∃ v, validateImport js input existing = .ok v ∧
      (v.errors ≠ [] → result.appliedSubscriptions = existing) ∧
      (v.errors = [] →
        (result.appliedSubscriptions.map SubscriptionRecord.key).Nodup ∧
        (∀ id, id ∈ result.appliedSubscriptions.map SubscriptionRecord.key ↔
          id ∈ existing.map SubscriptionRecord.key ∨
            id ∈ v.normalizedRows.map fun row => row.subscription.subscriptionId) ∧
        (∀ old ∈ upsertAll SubscriptionRecord.key existing,
          ∃ record ∈ result.appliedSubscriptions, record.key = old.key ∧
            record.createdAt = old.createdAt) ∧
        ∀ options importId' createdAt', upserts options = true →
          ∃ v', validateImport js { input with options } result.appliedSubscriptions = .ok v' ∧
            OnlySkips v' ∧
            ∃ result', importSubscriptions js { input with options } result.appliedSubscriptions
                importId' createdAt' = .ok result' ∧
              result'.importedCount = 0 ∧ result'.updatedCount = 0 ∧
              result'.skippedCount = v.summary.totalRows ∧
              result'.appliedSubscriptions = result.appliedSubscriptions) := by
  obtain ⟨v, hv, -⟩ := except_bind_ok.mp h
  refine ⟨v, hv, fun hne => (applied_of_errors hv hne h).1, fun hnil => ?_⟩
  obtain ⟨rows, drafts, hpayloads, htotal, hrows⟩ := payloads_of_validateImport hv hnil
  obtain ⟨t, ht, rfl⟩ := (applied_of_valid hv hnil).mp h
  have hmap := nodup_upsertAll SubscriptionRecord.key existing
  have happlied : Applied (upsertAll SubscriptionRecord.key existing) drafts t.subscriptionMap := by
    rw [ht, hrows]
    exact applied_foldl (t := ⟨upsertAll SubscriptionRecord.key existing, 0, 0, 0⟩)
      hpayloads.nodup hmap
  have hperm := perm_sortById js t.subscriptionMap
  refine ⟨(hperm.map _).nodup_iff.mpr happlied.nodup, fun id => ?_, fun old hold => ?_, ?_⟩
  · rw [(hperm.map _).mem_iff, happlied.mem_keys, mem_keys_upsertAll, hrows, List.map_map]
    rfl
  · obtain ⟨record, hrecord, hcreated⟩ :=
      happlied.created old.key old ((findKey_eq_some hmap).mpr ⟨hold, rfl⟩)
    exact ⟨record, hperm.mem_iff.mpr (mem_of_findKey hrecord), key_of_findKey hrecord, hcreated⟩
  · intro options importId' createdAt' hupsert
    have hagain : Payloads js { input with options } rows drafts :=
      ⟨hpayloads.rows_eq, hpayloads.reads, hpayloads.nodup⟩
    rw [htotal]
    exact skipped_again hagain happlied hupsert

end Again

namespace Sample

theorem iso_ne (raw : String) : some (raw ++ "T00:00:00.000Z") ≠ some "" := by
  intro h
  have hlength := congrArg String.length (Option.some.inj h)
  rw [String.length_append] at hlength
  exact absurd hlength (by simp)

/-- Numbers in digits, dates without a time, and letters of English. -/
def js : Runtime where
  parseJson _ := none
  number raw := some (.ofNat (raw.toList.foldl (fun n c => 10 * n + (c.toNat - '0'.toNat)) 0))
  isoDate raw := some (raw ++ "T00:00:00.000Z")
  toLowerCase raw := String.ofList (raw.toList.map Char.toLower)
  toUpperCase raw := String.ofList (raw.toList.map Char.toUpper)
  notAfter a b := a ≤ b
  isoDate_ne := iso_ne
  notAfter_trans _ _ _ hab hbc := decide_eq_true
    (String.le_trans (of_decide_eq_true hab) (of_decide_eq_true hbc))
  notAfter_total a b := (String.le_total a b).imp decide_eq_true decide_eq_true

def row (subscriptionId customerEmail : String) (amount : ℕ) (more : List (String × Value)) :
    Value :=
  .obj ([("subscriptionId", .str subscriptionId), ("customerEmail", .str customerEmail),
    ("planId", .str "starter"), ("status", .str "active"), ("amount", .num (.ofNat amount)),
    ("currency", .str "usd"), ("interval", .str "monthly"),
    ("startDate", .str "2026-01-01")] ++ more)

/-- A changed amount, an unchanged subscription, and a new one. -/
def payload : ImportData where
  merchantId := "merchant_1"
  format := .json
  data := .items [
    row "sub_existing" "existing@example.com" 30 [("nextBillingDate", .str "2026-02-01"),
      ("metadata", .obj [("source", .str "seed")])],
    row "sub_same" "Same@example.com" 15 [],
    row "sub_new" "new@example.com" 40 [("metadata", .null)]]
  columnMapping := []
  options := none

def stored (subscriptionId customerEmail : String) (amount : ℕ) (nextBillingDate : Option String)
    (metadata : Option (List (String × Value))) : SubscriptionRecord where
  merchantId := "merchant_1"
  subscriptionId := subscriptionId
  customerEmail := customerEmail
  planId := "starter"
  status := .active
  amount := .ofNat amount
  currency := "USD"
  interval := .monthly
  startDate := "2026-01-01T00:00:00.000Z"
  nextBillingDate := nextBillingDate
  metadata := metadata
  createdAt := "2026-01-01T00:00:00.000Z"
  updatedAt := "2026-01-01T00:00:00.000Z"

def records : List SubscriptionRecord :=
  [stored "sub_existing" "existing@example.com" 25 (some "2026-02-01T00:00:00.000Z")
      (some [("source", .str "seed")]),
    stored "sub_same" "same@example.com" 15 none none]

/-- What the validation of the payload reports. -/
def reported : Option (ℕ × ValidationSummary) :=
  (validateImport js payload records).toOption.map fun v => (v.errors.length, v.summary)

theorem reported_eq : reported = some (0, ⟨3, 3, 0, 1, 1, 1⟩) := by decide +kernel

/-- One subscription is new, one changed and one the same; the second time all are the same. -/
theorem importSubscriptions_again_payload : ∃ v result v' result',
    validateImport js payload records = .ok v ∧ v.summary = ⟨3, 3, 0, 1, 1, 1⟩ ∧
      importSubscriptions js payload records "imp_1" "2026-03-01T00:00:00.000Z" = .ok result ∧
      validateImport js payload result.appliedSubscriptions = .ok v' ∧ OnlySkips v' ∧
      importSubscriptions js payload result.appliedSubscriptions "imp_2"
        "2026-03-02T00:00:00.000Z" = .ok result' ∧
      result'.skippedCount = 3 ∧ result'.appliedSubscriptions = result.appliedSubscriptions := by
  have hreported := reported_eq
  rw [reported] at hreported
  cases hv : validateImport js payload records with
  | error err =>
    rw [hv] at hreported
    cases hreported
  | ok v =>
    rw [hv] at hreported
    obtain ⟨hlength, hsummary⟩ := Prod.mk.inj (Option.some.inj hreported)
    have hnil : v.errors = [] := List.length_eq_zero_iff.mp hlength
    have hresult : importSubscriptions js payload records "imp_1" "2026-03-01T00:00:00.000Z" =
        .ok _ := (applied_of_valid hv hnil).mpr ⟨_, rfl, rfl⟩
    obtain ⟨v₁, hv₁, -, h⟩ := importSubscriptions_again hresult
    obtain rfl : v = v₁ := Except.ok.inj (hv.symm.trans hv₁)
    obtain ⟨-, -, -, hagain⟩ := h hnil
    obtain ⟨v', hv', hskips, result', hresult', -, -, hcount, hsame⟩ :=
      hagain none "imp_2" "2026-03-02T00:00:00.000Z" rfl
    rw [hsummary] at hcount
    exact ⟨v, _, v', result', rfl, hsummary, hresult, hv', hskips, hresult', hcount, hsame⟩

end Sample

end StellarLend.Subscriptions
