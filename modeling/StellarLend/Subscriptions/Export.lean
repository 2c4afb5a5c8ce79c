import StellarLend.Foundations.Run
import StellarLend.Subscriptions.Idempotence

/-!
# Subscriptions/Export — the store of subscriptions, and exports imported again

    payload ──import──► store ──export──► JSON ──import──► store
                          ▲                                  │
                          └────────── the same ──────────────┘

`api/src/services/subscription.service.ts`, and `exportSubscriptions` of `importExport.ts`.  A row
that passes is brought into a form that normalising leaves alone (`Normal`), so whatever the imports
that filled a store, each record of it is read back as it was printed (`export_import`).  `Laws` is
what this asks of JavaScript.
-/

namespace StellarLend.Subscriptions

open Foundations

/-! ## Texts that are trimmed -/

/-- A text without spaces. -/
theorem trim_of_forall {s : String} (h : ∀ c ∈ s.toList, isSpace c = false) : trim s = s := by
  have hfirst : s.toList.dropWhile isSpace = s.toList := by
    refine List.dropWhile_eq_self_iff.mpr fun hlength => ?_
    rw [h _ (List.getElem_mem hlength)]
    exact Bool.false_ne_true
  have hlast : s.toList.rdropWhile isSpace = s.toList := by
    refine List.rdropWhile_eq_self_iff.mpr fun hne => ?_
    rw [h _ (List.getLast_mem hne)]
    exact Bool.false_ne_true
  rw [trim, hfirst, hlast, String.ofList_toList]

/-- **A text that is trimmed stays as it is.** -/
theorem trim_trim (s : String) : trim (trim s) = trim s := by
  have hfirst : ((s.toList.dropWhile isSpace).rdropWhile isSpace).dropWhile isSpace =
      (s.toList.dropWhile isSpace).rdropWhile isSpace := by
    refine List.dropWhile_eq_self_iff.mpr fun hlength => ?_
    have hkept := List.rdropWhile_prefix isSpace (s.toList.dropWhile isSpace)
    rw [hkept.getElem hlength]
    exact List.dropWhile_get_zero_not isSpace _ (hlength.trans_le hkept.length_le)
  rw [trim, trim, String.toList_ofList, hfirst, List.rdropWhile_idempotent]

/-- An email address has no spaces. -/
theorem trim_of_isEmail {s : String} (h : isEmail s = true) : trim s = s := by
  rw [isEmail] at h
  split at h
  next name domain hsplit =>
    simp only [Bool.and_eq_true, List.all_eq_true, Bool.not_eq_true'] at h
    have hs : s.toList = name ++ '@' :: domain := by
      refine (List.intercalate_splitOn '@').symm.trans ?_
      rw [hsplit]
      simp [List.intercalate]
    refine trim_of_forall fun c hc => ?_
    rw [hs, List.mem_append, List.mem_cons] at hc
    rcases hc with hc | rfl | hc
    · exact h.1.1.2 c hc
    · rfl
    · exact h.1.2 c hc
  next => cases h

/-- What is printed in ASCII is no space. -/
theorem isSpace_of_printed {c : Char} (hlow : 32 < c.toNat) (hhigh : c.toNat < 127) :
    isSpace c = false := by
  simp only [isSpace, List.contains_eq_mem, List.mem_cons, List.not_mem_nil, or_false,
    Bool.or_eq_false_iff, decide_eq_false_iff_not, Bool.and_eq_false_iff]
  omega

theorem trim_of_isCurrencyCode {s : String} (h : isCurrencyCode s = true) : trim s = s := by
  simp only [isCurrencyCode, Bool.and_eq_true, List.all_eq_true, decide_eq_true_eq] at h
  refine trim_of_forall fun c hc => ?_
  obtain ⟨hlow, hhigh⟩ := h.2 c hc
  have hA : 65 ≤ c.toNat := hlow
  have hZ : c.toNat ≤ 90 := hhigh
  exact isSpace_of_printed (by omega) (by omega)

theorem trim_number (n : Number) : trim (String.ofList n.text) = String.ofList n.text := by
  refine trim_of_forall fun c hc => ?_
  rw [String.toList_ofList] at hc
  have hnumeric := n.numeric c hc
  simp only [isNumeric, Char.isDigit, Bool.or_eq_true, Bool.and_eq_true, decide_eq_true_eq,
    beq_iff_eq] at hnumeric
  rcases hnumeric with (((⟨hlow, hhigh⟩ | rfl) | rfl) | rfl) | rfl
  · have h0 : 48 ≤ c.toNat := hlow
    have h9 : c.toNat ≤ 57 := hhigh
    exact isSpace_of_printed (by omega) (by omega)
  · rfl
  · rfl
  · rfl
  · rfl

/-! ## Records in normal form -/

/-- What the round trip takes from JavaScript: changing case twice does nothing more, a date is
printed as a date that is printed as itself, and a number is read back from its text. -/
structure Runtime.Laws (js : Runtime) : Prop where
  toLowerCase_idem : ∀ s, js.toLowerCase (js.toLowerCase s) = js.toLowerCase s
  toUpperCase_idem : ∀ s, js.toUpperCase (js.toUpperCase s) = js.toUpperCase s
  isoDate_idem : ∀ raw date, js.isoDate raw = some date →
    js.isoDate date = some date ∧ trim date = date
  number_text : ∀ raw n, js.number raw = some n → js.number (String.ofList n.text) = some n

/-- A text that is there, and that neither trimming nor the conversion changes. -/
def Fixed (convert : String → String) (s : String) : Prop :=
  trim s = s ∧ convert s = s ∧ s ≠ ""

/-- A date as it is printed. -/
def Printed (js : Runtime) (date : String) : Prop :=
  trim date = date ∧ js.isoDate date = some date ∧ date ≠ ""

/-- A subscription that normalising leaves as it is. -/
structure Normal (js : Runtime) (d : DraftSubscription) : Prop where
  subscriptionId : Fixed id d.subscriptionId
  customerEmail : Fixed js.toLowerCase d.customerEmail
  isEmail : isEmail d.customerEmail = true
  planId : Fixed id d.planId
  status : js.toLowerCase d.status.name = d.status.name
  amount : js.number (String.ofList d.amount.text) = some d.amount
  amount_nonneg : isNegative d.amount = false
  currency : Fixed js.toUpperCase d.currency
  isCurrencyCode : isCurrencyCode d.currency = true
  interval : js.toLowerCase d.interval.name = d.interval.name
  startDate : Printed js d.startDate
  nextBillingDate : ∀ date ∈ d.nextBillingDate, Printed js date

section

variable {js : Runtime} {merchantId field raw : String} {rowNumber : ℕ} {value : Option Value}
  {row : RawImportRow} {draft : DraftSubscription} {data : ExportData}

theorem trim_of_normalizeString (h : normalizeString value = .ok raw) : trim raw = raw := by
  rcases value with _ | _ | _ | _ | _ | _ | _ | _
  · cases h
    rfl
  · cases h
    rfl
  all_goals
    obtain ⟨text, -, heq⟩ := except_bind_ok.mp h
    cases heq
    exact trim_trim text

theorem printed_of_normalizeDate (laws : js.Laws) {date : String}
    (h : normalizeDate js value field rowNumber = .ok (some date, [])) : Printed js date := by
  obtain ⟨raw, -, h⟩ := except_bind_ok.mp h
  split at h
  · cases h
  · split at h
    · cases h
    · rename_i date' hdate
      cases h
      obtain ⟨hiso, htrim⟩ := laws.isoDate_idem raw _ hdate
      exact ⟨htrim, hiso, fun hempty => js.isoDate_ne raw (hempty ▸ hdate)⟩

theorem amount_of_normalizeAmount (laws : js.Laws) {amount : Number}
    (h : normalizeAmount js value rowNumber = .ok (some amount, [])) :
    js.number (String.ofList amount.text) = some amount ∧ isNegative amount = false := by
  obtain ⟨raw, -, h⟩ := except_bind_ok.mp h
  split at h
  · cases h
  · split at h
    · cases h
    · rename_i amount' hamount
      cases h
      obtain ⟨hnumber, hpos⟩ := Option.filter_eq_some_iff.mp hamount
      exact ⟨laws.number_text raw _ hnumber, by simpa using hpos⟩

theorem name_of_ofName_status {s : String} {status : SubscriptionStatus}
    (h : SubscriptionStatus.ofName s = some status) : status.name = s := by
  simpa using List.find?_some h

theorem name_of_ofName_interval {s : String} {interval : SubscriptionInterval}
    (h : SubscriptionInterval.ofName s = some interval) : interval.name = s := by
  simpa using List.find?_some h

/-- **A row that passes is normal.** -/
theorem normal_of_row (laws : js.Laws)
    (h : normalizeSubscriptionRow js merchantId row rowNumber = .ok (some draft, [])) :
    draft.merchantId = merchantId ∧ Normal js draft := by
  simp only [normalizeSubscriptionRow, except_bind_ok] at h
  obtain ⟨subscriptionId, hid, email, hemail, planId, hplan, statusText, hstatusText, currency,
    hcurrency, intervalText, hintervalText, ⟨startDate, startErrors⟩, hstart, startText, -,
    ⟨nextDate, nextErrors⟩, hnext, ⟨metadata, metadataErrors⟩, -, ⟨amount, amountErrors⟩, hamount,
    h⟩ := h
  obtain ⟨hdraft, hnil⟩ := Prod.mk.inj (Except.ok.inj h)
  rw [if_neg (not_not.mpr hnil)] at hdraft
  simp only [List.append_eq_nil_iff, requiredErrors_eq_nil, checkedErrors_eq_nil] at hnil
  obtain ⟨⟨⟨⟨⟨⟨⟨⟨⟨⟨hidne, hemailne, hisEmail⟩, hplanne⟩, -, -⟩, hcurrencyne, hcode⟩, -, -⟩, rfl⟩,
    -⟩, rfl⟩, -⟩, rfl⟩ := hnil
  simp only [Option.bind_eq_bind, Option.bind_eq_some_iff, Option.some.injEq] at hdraft
  obtain ⟨amount, rfl, date, hdate, status, hstatus, interval, hinterval, rfl⟩ := hdraft
  obtain ⟨rfl, -⟩ := Option.filter_eq_some_iff.mp hdate
  have hname := name_of_ofName_status hstatus
  have hname' := name_of_ofName_interval hinterval
  obtain ⟨hnumber, hnonneg⟩ := amount_of_normalizeAmount laws hamount
  refine ⟨rfl, ⟨trim_of_normalizeString hid, rfl, hidne⟩,
    ⟨trim_of_isEmail hisEmail, laws.toLowerCase_idem email, hemailne⟩, hisEmail,
    ⟨trim_of_normalizeString hplan, rfl, hplanne⟩, ?_, hnumber, hnonneg,
    ⟨trim_of_isCurrencyCode hcode, laws.toUpperCase_idem currency, hcurrencyne⟩, hcode, ?_,
    printed_of_normalizeDate laws hstart, fun date hmem => ?_⟩
  · exact (congrArg js.toLowerCase hname).trans ((laws.toLowerCase_idem _).trans hname.symm)
  · exact (congrArg js.toLowerCase hname').trans ((laws.toLowerCase_idem _).trans hname'.symm)
  · obtain rfl := Option.mem_def.mp hmem
    exact printed_of_normalizeDate laws hnext

end

/-! ## Records read back -/

namespace Value

mutual

/-- The value that a JSON text stands for. -/
def ofJson : Json → Value
  | .null => .null
  | .bool b => .bool b
  | .num n => .num n
  | .str s => .str s
  | .arr items => .arr (itemsOfJson items)
  | .obj members => .obj (membersOfJson members)

def itemsOfJson : List Json → List Value
  | [] => []
  | v :: vs => ofJson v :: itemsOfJson vs

def membersOfJson : List (String × Json) → List (String × Value)
  | [] => []
  | (k, v) :: ms => (k, ofJson v) :: membersOfJson ms

end

mutual

/-- What is read is printed like what it was read from. -/
theorem toJson_ofJson : ∀ v : Json, toJson (ofJson v) = v
  | .null => rfl
  | .bool _ => rfl
  | .num _ => rfl
  | .str _ => rfl
  | .arr items => congrArg Json.arr (itemsToJson_ofJson items)
  | .obj members => congrArg Json.obj (membersToJson_ofJson members)

theorem itemsToJson_ofJson : ∀ vs : List Json, itemsToJson (itemsOfJson vs) = vs
  | [] => rfl
  | v :: vs => congrArg₂ List.cons (toJson_ofJson v) (itemsToJson_ofJson vs)

theorem membersToJson_ofJson : ∀ ms : List (String × Json), membersToJson (membersOfJson ms) = ms
  | [] => rfl
  | (k, v) :: ms =>
    congrArg₂ List.cons (congrArg (Prod.mk k) (toJson_ofJson v)) (membersToJson_ofJson ms)

end

theorem membersOfJson_eq_map (ms : List (String × Json)) :
    membersOfJson ms = ms.map fun m => (m.1, ofJson m.2) := by
  induction ms with
  | nil => rfl
  | cons m ms ih => rw [membersOfJson, ih, List.map_cons]

theorem itemsOfJson_eq_map (vs : List Json) : itemsOfJson vs = vs.map ofJson := by
  induction vs with
  | nil => rfl
  | cons v vs ih => rw [itemsOfJson, ih, List.map_cons]

end Value

/-- The properties of a record, those of its draft first. -/
def SubscriptionRecord.allProperties (record : SubscriptionRecord) : List (String × Option Json) :=
  record.toDraftSubscription.properties ++
    [("createdAt", some (.str record.createdAt)), ("updatedAt", some (.str record.updatedAt))]

/-- A record as `JSON.stringify` reads it. -/
def SubscriptionRecord.toJson (record : SubscriptionRecord) : Json :=
  .obj (record.allProperties.filterMap fun p => p.2.map (Prod.mk p.1))

/-- A draft as it is read back; an infinite number in its metadata is `null` then. -/
def DraftSubscription.reread (d : DraftSubscription) : DraftSubscription :=
  { d with metadata := d.metadata.map fun members =>
      Value.membersOfJson (Value.membersToJson members) }

/-- **A draft that is read back is printed alike.** -/
theorem DraftSubscription.toJson_reread (d : DraftSubscription) : d.reread.toJson = d.toJson := by
  rw [toJson, toJson, properties, properties, reread]
  cases d.metadata with
  | none => rfl
  | some members =>
    dsimp only [Option.map_some, Value.toJson]
    rw [Value.membersToJson_ofJson]

/-- What the row of a record has for a field. -/
def SubscriptionRecord.cell (record : SubscriptionRecord) : RawImportRow
  | .subscriptionId => some (.str record.subscriptionId)
  | .customerEmail => some (.str record.customerEmail)
  | .planId => some (.str record.planId)
  | .status => some (.str record.status.name)
  | .amount => some (.num record.amount)
  | .currency => some (.str record.currency)
  | .interval => some (.str record.interval.name)
  | .startDate => some (.str record.startDate)
  | .nextBillingDate => record.nextBillingDate.map Value.str
  | .metadata => record.reread.metadata.map Value.obj

section

variable {js : Runtime} {record : SubscriptionRecord} {rowNumber : ℕ}

/-- What a member of an object adds to a row. -/
def collect (normalized : RawImportRow) (member : String × Value) : RawImportRow :=
  match CanonicalField.ofName (trim member.1) with
  | some field => Function.update normalized field (some member.2)
  | none => normalized

/-- A name of a field is one as it stands. -/
theorem ofName_trim_name (field : CanonicalField) :
    CanonicalField.ofName (trim field.name) = some field := by
  cases field <;> rfl

theorem collect_name (field : CanonicalField) (acc : RawImportRow) (v : Value) :
    collect acc (field.name, v) = Function.update acc field (some v) := by
  rw [collect, ofName_trim_name]

/-- A property that is there adds to a row. -/
def collectField (acc : RawImportRow) (p : CanonicalField × Option Json) : RawImportRow :=
  match p.2 with
  | some v => Function.update acc p.1 (some (.ofJson v))
  | none => acc

/-- The properties that are there, as they are read back. -/
def present (properties : List (String × Option Json)) : List (String × Value) :=
  Value.membersOfJson (properties.filterMap fun p => p.2.map (Prod.mk p.1))

theorem present_append (properties more : List (String × Option Json)) :
    present (properties ++ more) = present properties ++ present more := by
  rw [present, present, present, List.filterMap_append, Value.membersOfJson_eq_map,
    Value.membersOfJson_eq_map, Value.membersOfJson_eq_map, List.map_append]

theorem foldl_collect_present (fields : List (CanonicalField × Option Json)) (acc : RawImportRow) :
    (present (fields.map fun p => (p.1.name, p.2))).foldl collect acc =
      fields.foldl collectField acc := by
  induction fields generalizing acc with
  | nil => rfl
  | cons p fields ih =>
    obtain ⟨field, _ | v⟩ := p
    · exact ih acc
    · refine (congrArg (List.foldl collect · _) (collect_name field acc (.ofJson v))).trans ?_
      exact ih _

/-- What is no field adds nothing. -/
theorem foldl_collect_other {properties : List (String × Option Json)}
    (h : ∀ p ∈ properties, CanonicalField.ofName (trim p.1) = none) (acc : RawImportRow) :
    (present properties).foldl collect acc = acc := by
  induction properties with
  | nil => rfl
  | cons p properties ih =>
    obtain ⟨hp, hrest⟩ := List.forall_mem_cons.mp h
    obtain ⟨name, _ | v⟩ := p
    · exact ih hrest
    · rw [present, List.filterMap_cons, Option.map_some, Value.membersOfJson, List.foldl_cons,
        collect, hp]
      exact ih hrest

/-- The properties of a record that are fields of a row. -/
def SubscriptionRecord.fields (record : SubscriptionRecord) : List (CanonicalField × Option Json) :=
  [(.subscriptionId, some (.str record.subscriptionId)),
    (.customerEmail, some (.str record.customerEmail)), (.planId, some (.str record.planId)),
    (.status, some (.str record.status.name)), (.amount, some (.num record.amount)),
    (.currency, some (.str record.currency)), (.interval, some (.str record.interval.name)),
    (.startDate, some (.str record.startDate)),
    (.nextBillingDate, record.nextBillingDate.map Json.str),
    (.metadata, record.metadata.map fun members => (Value.obj members).toJson)]

theorem foldl_fields : record.fields.foldl collectField (fun _ => none) = record.cell := by
  funext field
  rw [SubscriptionRecord.fields, SubscriptionRecord.cell.eq_def]
  cases record.nextBillingDate <;> cases hmetadata : record.metadata <;> cases field <;>
    simp [collectField, DraftSubscription.reread, hmetadata, Value.ofJson, Value.toJson]

/-- **A record is read into the row that it is.** -/
theorem parseJsonRow_record : parseJsonRow [] (.ofJson record.toJson) = .ok record.cell := by
  have hrow : ∀ members, normalizeRowKeys members [] = members.foldl collect fun _ => none :=
    fun _ => rfl
  refine congrArg Except.ok ((hrow _).trans ?_)
  have hsplit : record.allProperties = [("merchantId", some (.str record.merchantId))] ++
      record.fields.map (fun p => (p.1.name, p.2)) ++
      [("createdAt", some (.str record.createdAt)), ("updatedAt", some (.str record.updatedAt))] :=
    rfl
  change (present record.allProperties).foldl collect _ = _
  have hother : ∀ name ∈ ["merchantId", "createdAt", "updatedAt"],
      CanonicalField.ofName (trim name) = none := by
    decide
  have hfirst : ∀ p ∈ [("merchantId", some (Json.str record.merchantId))],
      CanonicalField.ofName (trim p.1) = none :=
    List.forall_mem_singleton.mpr (hother "merchantId" (by simp))
  have hlast : ∀ p ∈ [("createdAt", some (Json.str record.createdAt)),
      ("updatedAt", some (Json.str record.updatedAt))], CanonicalField.ofName (trim p.1) = none :=
    List.forall_mem_cons.mpr ⟨hother "createdAt" (by simp),
      List.forall_mem_singleton.mpr (hother "updatedAt" (by simp))⟩
  rw [hsplit, present_append, present_append, List.foldl_append, List.foldl_append,
    foldl_collect_other hfirst, foldl_collect_present, foldl_collect_other hlast, foldl_fields]

theorem normalizeString_str (s : String) : normalizeString (some (.str s)) = .ok (trim s) := rfl

theorem normalizeString_fixed {convert : String → String} {s : String} (h : Fixed convert s) :
    normalizeString (some (.str s)) = .ok s := by
  rw [normalizeString_str, h.1]

theorem normalizeDate_printed {date field : String} (h : Printed js date) :
    normalizeDate js (some (.str date)) field rowNumber = .ok (some date, []) := by
  rw [normalizeDate, normalizeString_str, h.1]
  change (if date = "" then _ else _) = _
  rw [if_neg h.2.2, h.2.1]

theorem ok_of_nil {errors : List ImportRowError} {draft : Option DraftSubscription}
    {d : DraftSubscription} [Decidable (errors ≠ [])] (herrors : errors = [])
    (hdraft : draft = some d) :
    (Except.ok (if errors ≠ [] then none else draft, errors) :
      Except String (Option DraftSubscription × List ImportRowError)) = .ok (some d, []) := by
  rw [if_neg (not_not.mpr herrors), herrors, hdraft]

/-- **A record in normal form is read back.** -/
theorem normalizeSubscriptionRow_cell (h : Normal js record.toDraftSubscription) :
    normalizeSubscriptionRow js record.merchantId record.cell rowNumber =
      .ok (some record.reread, []) := by
  have hnext : normalizeDate js (record.cell .nextBillingDate) "nextBillingDate" rowNumber =
      .ok (record.nextBillingDate, []) := by
    have hprinted := h.nextBillingDate
    rw [SubscriptionRecord.cell]
    cases hdate : record.nextBillingDate with
    | none => rfl
    | some date => exact normalizeDate_printed (hprinted date hdate)
  have hmetadata : normalizeMetadata js (record.cell .metadata) rowNumber =
      .ok (record.reread.metadata, []) := by
    rw [SubscriptionRecord.cell]
    cases record.reread.metadata with
    | none => rfl
    | some members => rfl
  have hamount : normalizeAmount js (record.cell .amount) rowNumber =
      .ok (some record.amount, []) := by
    have htext : normalizeString (record.cell .amount) = .ok (String.ofList record.amount.text) :=
      congrArg Except.ok (trim_number record.amount)
    have hne : String.ofList record.amount.text ≠ "" := fun hempty =>
      record.amount.ne_nil (by simpa using congrArg String.toList hempty)
    rw [normalizeAmount, htext]
    change (if String.ofList record.amount.text = "" then _ else _) = _
    rw [if_neg hne, h.amount, Option.filter_some_pos (by simpa using h.amount_nonneg)]
  have hstatus : normalizeString (record.cell .status) = .ok record.status.name := by
    rw [SubscriptionRecord.cell, normalizeString_str]
    cases record.status <;> rfl
  have hinterval : normalizeString (record.cell .interval) = .ok record.interval.name := by
    rw [SubscriptionRecord.cell, normalizeString_str]
    cases record.interval <;> rfl
  have hstart : normalizeString (record.cell .startDate) = .ok record.startDate :=
    (normalizeString_str _).trans (congrArg _ h.startDate.1)
  have hofName : SubscriptionStatus.ofName record.status.name = some record.status := by
    cases record.status <;> rfl
  have hofName' : SubscriptionInterval.ofName record.interval.name = some record.interval := by
    cases record.interval <;> rfl
  have hnamene : record.status.name ≠ "" ∧ record.interval.name ≠ "" := by
    constructor
    · cases record.status <;> decide
    · cases record.interval <;> decide
  simp only [normalizeSubscriptionRow, except_bind_ok]
  refine ⟨_, normalizeString_fixed h.subscriptionId, _, normalizeString_fixed h.customerEmail, _,
    normalizeString_fixed h.planId, _, hstatus, _, normalizeString_fixed h.currency, _, hinterval,
    _, normalizeDate_printed h.startDate, _, hstart, _, hnext, _, hmetadata, _, hamount, ?_⟩
  refine ok_of_nil ?_ ?_
  · simp only [List.append_eq_nil_iff, requiredErrors_eq_nil, checkedErrors_eq_nil,
      h.customerEmail.2.1, h.status, h.interval, h.currency.2.1, hofName, hofName',
      Option.isSome_some, and_true]
    exact ⟨⟨⟨⟨⟨⟨h.subscriptionId.2.2, h.customerEmail.2.2, h.isEmail⟩, h.planId.2.2⟩, hnamene.1⟩,
      h.currency.2.2, h.isCurrencyCode⟩, hnamene.2⟩, h.startDate.2.2⟩
  · have hdate : (some record.startDate).filter (· ≠ "") = some record.startDate :=
      Option.filter_some_pos (by simpa using h.startDate.2.2)
    simp only [h.customerEmail.2.1, h.status, h.interval, h.currency.2.1, hofName, hofName', hdate]
    rfl

end

/-! ## The store -/

structure ExportData where
  merchantId : String
  exportedAt : String
  count : ℕ
  subscriptions : List SubscriptionRecord

def exportSubscriptions (js : Runtime) (merchantId : String)
    (subscriptions : List SubscriptionRecord) (exportedAt : String) : ExportData :=
  let orderedSubscriptions := sortById js subscriptions
  ⟨merchantId, exportedAt, orderedSubscriptions.length, orderedSubscriptions⟩

/-- The subscriptions of an export as a JSON value. -/
def ExportData.toJson (data : ExportData) : Json :=
  .arr (data.subscriptions.map SubscriptionRecord.toJson)

structure SubscriptionStore where
  subscriptionsByMerchant : String → List SubscriptionRecord
  importHistoryByMerchant : String → List ImportHistoryEntry

/-- An import, with the identifier and the time that it draws. -/
structure ImportCall where
  input : ImportData
  importId : String
  createdAt : String

namespace SubscriptionService

variable (js : Runtime)

def listSubscriptions (store : SubscriptionStore) (merchantId : String) :
    List SubscriptionRecord := sortById js (store.subscriptionsByMerchant merchantId)

def appendHistory (store : SubscriptionStore) (entry : ImportHistoryEntry) : SubscriptionStore :=
  { store with
    importHistoryByMerchant := Function.update store.importHistoryByMerchant entry.merchantId
      (entry :: store.importHistoryByMerchant entry.merchantId) }

/-- An import that throws leaves the store as it is. -/
def importSubscriptions (call : ImportCall) (store : SubscriptionStore) :
    Option SubscriptionStore :=
  match Subscriptions.importSubscriptions js call.input
      (listSubscriptions js store call.input.merchantId) call.importId call.createdAt with
  | .error _ => none
  | .ok result =>
    let store := appendHistory store result.historyEntry
    if result.historyEntry.status = .completed then
      some { store with
        subscriptionsByMerchant := Function.update store.subscriptionsByMerchant
          call.input.merchantId (result.appliedSubscriptions.foldl
            (fun records record => upsert SubscriptionRecord.key record records)
            (store.subscriptionsByMerchant call.input.merchantId)) }
    else some store

def exportSubscriptions (store : SubscriptionStore) (merchantId exportedAt : String) :
    ExportData :=
  Subscriptions.exportSubscriptions js merchantId (listSubscriptions js store merchantId) exportedAt

/-- The store after some imports. -/
def storeAfter (calls : List ImportCall) : SubscriptionStore :=
  run (importSubscriptions js) ⟨fun _ => [], fun _ => []⟩ calls

/-! ## What every store keeps -/

variable {js}

/-- Each merchant's subscriptions are the merchant's, in normal form and each once. -/
def Tidy (js : Runtime) (store : SubscriptionStore) : Prop :=
  ∀ merchantId, ((store.subscriptionsByMerchant merchantId).map SubscriptionRecord.key).Nodup ∧
    ∀ record ∈ store.subscriptionsByMerchant merchantId,
      record.merchantId = merchantId ∧ Normal js record.toDraftSubscription

/-- A record comes from the records that were there or from a row. -/
theorem forall_mem_foldl_applyRow {P : DraftSubscription → Prop} {createdAt : String}
    {rows : List ImportPreviewRow} {t : Tally} (hrows : ∀ row ∈ rows, P row.subscription)
    (h : ∀ record ∈ t.subscriptionMap, P record.toDraftSubscription) :
    ∀ record ∈ (rows.foldl (applyRow createdAt) t).subscriptionMap,
      P record.toDraftSubscription := by
  induction rows generalizing t with
  | nil => exact h
  | cons row rows ih =>
    obtain ⟨hrow, hrows⟩ := List.forall_mem_cons.mp hrows
    rw [List.foldl_cons]
    refine ih hrows fun record hrecord => ?_
    rw [applyRow] at hrecord
    split at hrecord
    next => exact h record hrecord
    next =>
      dsimp only at hrecord
      split at hrecord
      next =>
        rcases mem_of_mem_upsert hrecord with rfl | hrecord
        · exact hrow
        · exact h record hrecord
      next => exact h record hrecord
    next =>
      rcases mem_of_mem_upsert hrecord with rfl | hrecord
      · exact hrow
      · exact h record hrecord

theorem forall_mem_foldl_upsert {P : SubscriptionRecord → Prop}
    {records more : List SubscriptionRecord} (hmore : ∀ record ∈ more, P record)
    (h : ∀ record ∈ records, P record) :
    ∀ record ∈ more.foldl (fun records record => upsert SubscriptionRecord.key record records)
      records, P record := by
  induction more generalizing records with
  | nil => exact h
  | cons x more ih =>
    obtain ⟨hx, hmore⟩ := List.forall_mem_cons.mp hmore
    refine ih hmore fun record hrecord => ?_
    rcases mem_of_mem_upsert hrecord with rfl | hrecord
    · exact hx
    · exact h record hrecord

theorem nodup_foldl_upsert {records more : List SubscriptionRecord}
    (h : (records.map SubscriptionRecord.key).Nodup) :
    ((more.foldl (fun records record => upsert SubscriptionRecord.key record records)
      records).map SubscriptionRecord.key).Nodup := by
  induction more generalizing records with
  | nil => exact h
  | cons x more ih => exact ih (nodup_upsert h)

theorem normal_of_reads (laws : js.Laws) {merchantId : String}
    {numbered : List (RawImportRow × ℕ)} {drafts : List (ℕ × DraftSubscription)}
    (h : Reads js merchantId numbered drafts) :
    ∀ d ∈ drafts, d.2.merchantId = merchantId ∧ Normal js d.2 := by
  induction h with
  | nil => exact fun _ hd => absurd hd List.not_mem_nil
  | cons hrow _ ih => exact List.forall_mem_cons.mpr ⟨normal_of_row laws hrow.2, ih⟩

theorem status_of_errors {input : ImportData} {existing : List SubscriptionRecord}
    {importId createdAt : String} {v : ValidationResult} {result : ImportResult}
    (hv : validateImport js input existing = .ok v) (hne : v.errors ≠ [])
    (h : Subscriptions.importSubscriptions js input existing importId createdAt = .ok result) :
    result.historyEntry.status = .failed := by
  have hvalid : v.isValid = false := by
    rw [(errors_of_validateImport hv).1]
    simpa using hne
  rw [Subscriptions.importSubscriptions, hv] at h
  change (if !v.isValid then _ else _) = _ at h
  rw [hvalid] at h
  cases h
  rfl

/-- **What an import applies is in normal form.** -/
theorem normal_of_import (laws : js.Laws) {input : ImportData} {existing : List SubscriptionRecord}
    {importId createdAt : String} {result : ImportResult}
    (h : Subscriptions.importSubscriptions js input existing importId createdAt = .ok result)
    (hcompleted : result.historyEntry.status = .completed)
    (hexisting : ∀ record ∈ existing,
      record.merchantId = input.merchantId ∧ Normal js record.toDraftSubscription) :
    ∀ record ∈ result.appliedSubscriptions,
      record.merchantId = input.merchantId ∧ Normal js record.toDraftSubscription := by
  obtain ⟨v, hv, -⟩ := except_bind_ok.mp h
  have hnil : v.errors = [] := by
    by_contra hne
    rw [status_of_errors hv hne h] at hcompleted
    cases hcompleted
  obtain ⟨rows, drafts, hpayloads, -, hrows⟩ := payloads_of_validateImport hv hnil
  obtain ⟨t, rfl, rfl⟩ := (applied_of_valid hv hnil).mp h
  intro record hrecord
  have hmem := (perm_sortById js _).mem_iff.mp hrecord
  refine forall_mem_foldl_applyRow (P := fun d => d.merchantId = input.merchantId ∧ Normal js d)
    (fun row hrow => ?_) (fun old hold => ?_) record hmem
  · rw [hrows] at hrow
    obtain ⟨draft, hdraft, rfl⟩ := List.mem_map.mp hrow
    exact normal_of_reads laws hpayloads.reads draft hdraft
  · exact forall_mem_foldl_upsert (P := fun old => old.merchantId = input.merchantId ∧
      Normal js old.toDraftSubscription) hexisting (by simp) old hold

/-- **Imports keep the store tidy.** -/
theorem tidy_import (laws : js.Laws) {call : ImportCall} {store store' : SubscriptionStore}
    (h : importSubscriptions js call store = some store') (hstore : Tidy js store) :
    Tidy js store' := by
  rw [importSubscriptions] at h
  split at h
  next => cases h
  next result hresult =>
    dsimp only at h
    split at h
    next hcompleted =>
      cases h
      intro merchantId
      obtain ⟨hnodup, hnormal⟩ := hstore merchantId
      by_cases hm : merchantId = call.input.merchantId
      · subst hm
        have hlist : ∀ record ∈ listSubscriptions js store call.input.merchantId,
            record.merchantId = call.input.merchantId ∧
              Normal js record.toDraftSubscription := fun record hrecord =>
          hnormal record ((perm_sortById js _).mem_iff.mp hrecord)
        have happlied := normal_of_import laws hresult hcompleted hlist
        simp only [appendHistory, Function.update_self]
        exact ⟨nodup_foldl_upsert hnodup, forall_mem_foldl_upsert
          (P := fun record => record.merchantId = call.input.merchantId ∧
            Normal js record.toDraftSubscription) happlied hnormal⟩
      · simp only [appendHistory, Function.update_of_ne hm]
        exact ⟨hnodup, hnormal⟩
    next =>
      cases h
      exact hstore

theorem tidy_storeAfter (laws : js.Laws) (calls : List ImportCall) :
    Tidy js (storeAfter js calls) :=
  run_invariant (fun _ _ _ hstep hstore => tidy_import laws hstep hstore) calls
    fun _ => ⟨List.nodup_nil, fun _ h => absurd h List.not_mem_nil⟩

/-! ## Exports imported again -/

/-- The import of an export, with nothing mapped and no options. -/
def reimport (data : ExportData) : ImportData :=
  ⟨data.merchantId, .json, .text (String.ofList data.toJson.print), [], none⟩

/-- The drafts of an export, with their rows. -/
def rereadDrafts (data : ExportData) : List (ℕ × DraftSubscription) :=
  (data.subscriptions.zipIdx 1).map fun p => (p.2, p.1.reread)

theorem draftIds_rereadDrafts :
    draftIds (rereadDrafts data) = data.subscriptions.map SubscriptionRecord.key := by
  refine Eq.trans ?_ (congrArg (List.map SubscriptionRecord.key)
    (List.zipIdx_map_fst 1 data.subscriptions))
  rw [draftIds, rereadDrafts, List.map_map, List.map_map]
  rfl

theorem mapM_ok {α β γ ε : Type} {f : β → Except ε γ} {g : α → β} {k : α → γ} {xs : List α}
    (h : ∀ x ∈ xs, f (g x) = .ok (k x)) : (xs.map g).mapM f = .ok (xs.map k) := by
  induction xs with
  | nil => rfl
  | cons x xs ih =>
    obtain ⟨hx, hxs⟩ := List.forall_mem_cons.mp h
    rw [List.map_cons, List.mapM_cons, hx, ih hxs]
    rfl

/-- **An export is a payload of the drafts that it has.** -/
theorem payloads_reimport
    (hparse : js.parseJson (String.ofList data.toJson.print) = some (.ofJson data.toJson))
    (hcount : data.subscriptions.length ≤ MAX_IMPORT_ROWS)
    (hnodup : (data.subscriptions.map SubscriptionRecord.key).Nodup)
    (hnormal : ∀ record ∈ data.subscriptions,
      record.merchantId = data.merchantId ∧ Normal js record.toDraftSubscription) :
    Payloads js (reimport data) (data.subscriptions.map SubscriptionRecord.cell)
      (rereadDrafts data) where
  rows_eq := by
    have hitems : (Value.itemsOfJson (data.subscriptions.map SubscriptionRecord.toJson)).mapM
        (parseJsonRow []) = .ok (data.subscriptions.map SubscriptionRecord.cell) := by
      rw [Value.itemsOfJson_eq_map, List.map_map]
      exact mapM_ok fun record _ => parseJsonRow_record
    refine except_bind_ok.mpr ⟨data.subscriptions.map SubscriptionRecord.cell, ?_, ?_⟩
    · exact except_bind_ok.mpr ⟨_, orErr_ok.mpr hparse, hitems⟩
    · dsimp only
      rw [List.length_map, if_neg (Nat.not_lt.mpr hcount)]
  reads := by
    change Reads js data.merchantId
      ((data.subscriptions.map SubscriptionRecord.cell).zipIdx 1) (rereadDrafts data)
    rw [rereadDrafts, List.zipIdx_map, Reads, List.forall₂_map_left_iff, List.forall₂_map_right_iff,
      List.forall₂_same]
    rintro ⟨record, n⟩ hrecord
    obtain ⟨hmerchant, h⟩ := hnormal record (List.fst_mem_of_mem_zipIdx hrecord)
    refine ⟨rfl, ?_⟩
    rw [← hmerchant]
    exact normalizeSubscriptionRow_cell h
  nodup := by rwa [draftIds_rereadDrafts]

/-- The drafts of an export have what they need to be skipped. -/
theorem applied_reread (hnodup : (data.subscriptions.map SubscriptionRecord.key).Nodup) :
    Applied data.subscriptions (rereadDrafts data) data.subscriptions where
  nodup := hnodup
  written d hd := by
    obtain ⟨⟨record, n⟩, hrecord, rfl⟩ := List.mem_map.mp hd
    exact ⟨record, (findKey_eq_some hnodup).mpr ⟨List.fst_mem_of_mem_zipIdx hrecord, rfl⟩,
      subscriptionsMatch_iff.mpr (DraftSubscription.toJson_reread _)⟩
  kept _ _ := rfl
  created _ record hrecord := ⟨record, hrecord, rfl⟩

/-- The records of a store as they are listed. -/
theorem tidy_list {store : SubscriptionStore} (h : Tidy js store) (merchantId : String) :
    ((listSubscriptions js store merchantId).map SubscriptionRecord.key).Nodup ∧
      ∀ record ∈ listSubscriptions js store merchantId,
        record.merchantId = merchantId ∧ Normal js record.toDraftSubscription := by
  obtain ⟨hnodup, hnormal⟩ := h merchantId
  have hperm := perm_sortById js (store.subscriptionsByMerchant merchantId)
  exact ⟨(hperm.map _).nodup_iff.mpr hnodup, fun record hrecord =>
    hnormal record (hperm.mem_iff.mp hrecord)⟩

/-- A payload without a fault goes in without an error, and is found in the result. -/
theorem imported_of_payloads {input : ImportData} {rows : List RawImportRow}
    {drafts : List (ℕ × DraftSubscription)} {existing : List SubscriptionRecord}
    (h : Payloads js input rows drafts) (hupsert : upserts input.options = true)
    (hnodup : (existing.map SubscriptionRecord.key).Nodup) (importId createdAt : String) :
    ∃ result records, Subscriptions.importSubscriptions js input existing importId createdAt =
        .ok result ∧ result.errors = [] ∧ Applied existing drafts records ∧
      ∀ k, findKey SubscriptionRecord.key result.appliedSubscriptions k =
        findKey SubscriptionRecord.key records k := by
  obtain ⟨v, hv, hnil, -, hrows⟩ := @validateImport_of_payloads js input existing _ _ h hupsert
  obtain ⟨result, hresult⟩ : ∃ result, Subscriptions.importSubscriptions js input existing
      importId createdAt = .ok result := ⟨_, (applied_of_valid hv hnil).mpr ⟨_, rfl, rfl⟩⟩
  obtain ⟨t, ht, hfields⟩ := (applied_of_valid hv hnil).mp hresult
  have happlied : Applied existing drafts t.subscriptionMap := by
    rw [ht, hrows, upsertAll_of_nodup hnodup]
    exact applied_foldl (t := ⟨existing, 0, 0, 0⟩) h.nodup hnodup
  refine ⟨result, t.subscriptionMap, hresult, by rw [hfields], happlied, fun k => ?_⟩
  rw [hfields]
  exact (findKey_perm (perm_sortById js _).symm happlied.nodup).symm

/-- The drafts of an export change nothing where all its records are. -/
theorem reimport_skips {result : ImportResult}
    (hpayloads : Payloads js (reimport data) (data.subscriptions.map SubscriptionRecord.cell)
      (rereadDrafts data)) (hnodup : (data.subscriptions.map SubscriptionRecord.key).Nodup)
    (hsorted : sortById js data.subscriptions = data.subscriptions) {importId createdAt : String}
    (hresult : Subscriptions.importSubscriptions js (reimport data) data.subscriptions importId
      createdAt = .ok result) :
    result.appliedSubscriptions = data.subscriptions ∧
      result.skippedCount = data.subscriptions.length := by
  obtain ⟨-, -, -, again, hagain, -, -, hskipped, hsame⟩ :=
    @skipped_again js (reimport data) _ importId createdAt _ _ _ hpayloads
      (applied_reread hnodup) rfl
  rw [hsorted] at hagain hsame
  obtain rfl := Except.ok.inj (hresult.symm.trans hagain)
  rw [List.length_map] at hskipped
  exact ⟨hsame, hskipped⟩

/-- **What is exported can be imported**: into the store that any imports made, the export of the
store that any others made goes without an error.  Each record of the export is there then and is
printed as it was, and all else is as before; the store that was exported stays as it is. -/
theorem export_import (laws : js.Laws) (calls others : List ImportCall)
    (merchantId exportedAt importId createdAt : String) {data : ExportData}
    (hdata : data = exportSubscriptions js (storeAfter js calls) merchantId exportedAt)
    (hparse : js.parseJson (String.ofList data.toJson.print) = some (.ofJson data.toJson))
    (hcount : data.count ≤ MAX_IMPORT_ROWS) :
    ∃ result, Subscriptions.importSubscriptions js (reimport data)
        (listSubscriptions js (storeAfter js others) merchantId) importId createdAt = .ok result ∧
      result.errors = [] ∧
      (∀ record ∈ data.subscriptions, ∃ copy,
        findKey SubscriptionRecord.key result.appliedSubscriptions record.key = some copy ∧
          copy.toDraftSubscription.toJson = record.toDraftSubscription.toJson) ∧
      (∀ k ∉ data.subscriptions.map SubscriptionRecord.key,
        findKey SubscriptionRecord.key result.appliedSubscriptions k =
          findKey SubscriptionRecord.key
            (listSubscriptions js (storeAfter js others) merchantId) k) ∧
      (others = calls → result.appliedSubscriptions = data.subscriptions ∧
        result.skippedCount = data.count) := by
  obtain ⟨hnodup, -⟩ := tidy_list (tidy_storeAfter laws others) merchantId
  obtain ⟨hnodup', hnormal'⟩ := tidy_list (tidy_storeAfter laws calls) merchantId
  have hlist : data.subscriptions = listSubscriptions js (storeAfter js calls) merchantId := by
    rw [hdata]
    exact sortById_idem js _
  have hmerchant : data.merchantId = merchantId := by
    rw [hdata]
    rfl
  have hlength : data.count = data.subscriptions.length := by
    rw [hdata]
    rfl
  rw [← hlist] at hnodup' hnormal'
  rw [hlength] at hcount
  have hpayloads := payloads_reimport hparse hcount hnodup' (by rwa [hmerchant])
  obtain ⟨result, records, hresult, herrors, happlied, hfind⟩ :=
    imported_of_payloads hpayloads rfl hnodup importId createdAt
  refine ⟨result, hresult, herrors, fun record hrecord => ?_, fun k hk => ?_, fun heq => ?_⟩
  · have hmem : record ∈ (data.subscriptions.zipIdx 1).map Prod.fst := by
      rwa [List.zipIdx_map_fst]
    obtain ⟨numbered, hn, rfl⟩ := List.mem_map.mp hmem
    obtain ⟨copy, hcopy, hmatch⟩ := happlied.written _ (List.mem_map_of_mem hn)
    refine ⟨copy, (hfind _).trans hcopy, ?_⟩
    rw [← subscriptionsMatch_iff.mp hmatch]
    exact DraftSubscription.toJson_reread _
  · rw [hfind, happlied.kept k (draftIds_rereadDrafts ▸ hk)]
  · subst heq
    rw [← hlist] at hresult
    have hsorted : sortById js data.subscriptions = data.subscriptions := by
      rw [hlist]
      exact sortById_idem js _
    rw [hlength]
    exact reimport_skips hpayloads hnodup' hsorted hresult

end SubscriptionService

namespace Sample

open SubscriptionService

def imported : ImportCall where
  input := { payload with data := .items [row "sub_1" "New@example.com" 15 []] }
  importId := "imp_1"
  createdAt := "2026-03-01T00:00:00.000Z"

/-- What is there after the import. -/
def record : SubscriptionRecord :=
  { stored "sub_1" "new@example.com" 15 none none with
    createdAt := "2026-03-01T00:00:00.000Z"
    updatedAt := "2026-03-01T00:00:00.000Z" }

def printed : Json := .arr [record.toJson]

/-- One number, one date, two texts of which the case changes, and one JSON text. -/
def reader : Runtime where
  parseJson s := if s = String.ofList printed.print then some (.ofJson printed) else none
  number raw := if raw = "15" then some (.ofNat 15) else none
  isoDate raw :=
    if raw = "2026-01-01" ∨ raw = "2026-01-01T00:00:00.000Z" then some "2026-01-01T00:00:00.000Z"
    else none
  toLowerCase s := if s = "New@example.com" then "new@example.com" else s
  toUpperCase s := if s = "usd" then "USD" else s
  notAfter := js.notAfter
  isoDate_ne raw := by
    split
    · decide
    · simp
  notAfter_trans := js.notAfter_trans
  notAfter_total := js.notAfter_total

theorem laws_reader : reader.Laws where
  toLowerCase_idem s := by
    simp only [reader]
    split
    · decide
    · rfl
  toUpperCase_idem s := by
    simp only [reader]
    split
    · decide
    · rfl
  isoDate_idem raw date h := by
    simp only [reader] at h ⊢
    split at h
    · cases h
      exact ⟨if_pos (.inr rfl), by decide +kernel⟩
    · cases h
  number_text raw n h := by
    simp only [reader] at h ⊢
    split at h
    · cases h
      exact if_pos (by decide)
    · cases h

def exported : ExportData := SubscriptionService.exportSubscriptions reader
  (storeAfter reader [imported]) "merchant_1" "2026-03-02T00:00:00.000Z"

theorem exported_eq : exported.toJson.print = printed.print ∧ exported.count = 1 := by
  decide +kernel

/-- A subscription is imported and exported; the export is read, and its one row skipped. -/
theorem export_import_record : ∃ result,
    Subscriptions.importSubscriptions reader (reimport exported)
      (listSubscriptions reader (storeAfter reader [imported]) "merchant_1") "imp_2"
        "2026-03-03T00:00:00.000Z" = .ok result ∧
    result.errors = [] ∧ result.skippedCount = 1 := by
  obtain ⟨hprint, hcount⟩ := exported_eq
  have hparse : reader.parseJson (String.ofList printed.print) = some (.ofJson printed) := by
    simp only [reader, if_true]
  rw [← Json.print_injective hprint] at hparse
  have hmax : exported.count ≤ MAX_IMPORT_ROWS := hcount.trans_le (by decide)
  obtain ⟨result, hresult, herrors, -, -, hsame⟩ := @export_import _ laws_reader [imported]
    [imported] "merchant_1" "2026-03-02T00:00:00.000Z" "imp_2" "2026-03-03T00:00:00.000Z" exported
    rfl hparse hmax
  exact ⟨result, hresult, herrors, (hsame rfl).2.trans hcount⟩

end Sample

end StellarLend.Subscriptions
