import Mathlib.Data.Rat.Floor
import StellarLend.Subscriptions.Rows

/-!
# Subscriptions/Import — validating an import and applying it

    payload ──► rows ──► drafts ──┬── create ──►┐
                          ▲       ├── update ──►├──► records, sorted
    existing records ─────┘       └── skip      ┘

`api/src/utils/importExport.ts`, from the rows on.  `validateImport` decides for each row whether
its subscription is new, changed or the same, by printing both and comparing the texts;
`importSubscriptions` applies all rows or, if anything is wrong, none.
-/

namespace StellarLend.Subscriptions

open Foundations

/-! ## Records -/

structure SubscriptionRecord extends DraftSubscription where
  createdAt : String
  updatedAt : String

/-- The key of a record in the maps of the source. -/
def SubscriptionRecord.key (record : SubscriptionRecord) : String := record.subscriptionId

/-- The properties in the order in which the source writes them down, nothing if undefined. -/
def DraftSubscription.properties (s : DraftSubscription) : List (String × Option Json) :=
  [("merchantId", some (.str s.merchantId)), ("subscriptionId", some (.str s.subscriptionId)),
    ("customerEmail", some (.str s.customerEmail)), ("planId", some (.str s.planId)),
    ("status", some (.str s.status.name)), ("amount", some (.num s.amount)),
    ("currency", some (.str s.currency)), ("interval", some (.str s.interval.name)),
    ("startDate", some (.str s.startDate)),
    ("nextBillingDate", s.nextBillingDate.map Json.str),
    ("metadata", s.metadata.map fun members => (Value.obj members).toJson)]

/-- A subscription as `JSON.stringify` reads it. -/
def DraftSubscription.toJson (s : DraftSubscription) : Json :=
  .obj (s.properties.filterMap fun p => p.2.map (Prod.mk p.1))

def subscriptionsMatch (left right : DraftSubscription) : Bool :=
  Json.print left.toJson = Json.print right.toJson

/-- Subscriptions match exactly if they have the same properties, each printed alike. -/
theorem subscriptionsMatch_iff {left right : DraftSubscription} :
    subscriptionsMatch left right = true ↔ left.toJson = right.toJson := by
  rw [subscriptionsMatch, decide_eq_true_iff]
  exact ⟨Json.print_injective, congrArg Json.print⟩

/-! ## Validation -/

inductive ImportFormat where
  | csv
  | json
  deriving DecidableEq

inductive ImportAction where
  | create
  | update
  | skip
  deriving DecidableEq, Repr

/-- A limit that is not finite is none. -/
structure ImportOptions where
  upsert : Option Bool
  previewLimit : Option ℚ

structure ImportData where
  merchantId : String
  format : ImportFormat
  data : Payload
  columnMapping : ColumnMapping
  options : Option ImportOptions

structure ImportRowWarning where
  rowNumber : ℕ
  field : String
  message : String
  deriving DecidableEq, Repr

structure ImportPreviewRow where
  rowNumber : ℕ
  action : ImportAction
  subscription : DraftSubscription

structure ValidationSummary where
  totalRows : ℕ
  validRows : ℕ
  invalidRows : ℕ
  creates : ℕ
  updates : ℕ
  skips : ℕ
  deriving DecidableEq, Repr

structure ValidationResult where
  merchantId : String
  format : ImportFormat
  isValid : Bool
  summary : ValidationSummary
  errors : List ImportRowError
  warnings : List ImportRowWarning
  previewRows : List ImportPreviewRow
  normalizedRows : List ImportPreviewRow

def DEFAULT_PREVIEW_LIMIT : ℕ := 25
def MAX_PREVIEW_LIMIT : ℕ := 100
def MAX_IMPORT_ROWS : ℕ := 5000

def getPreviewLimit (rawLimit : Option ℚ) : ℕ :=
  match rawLimit with
  | none => DEFAULT_PREVIEW_LIMIT
  | some limit => if limit ≤ 0 then DEFAULT_PREVIEW_LIMIT else min ⌊limit⌋.toNat MAX_PREVIEW_LIMIT

/-- `String(input.data)` -/
def Payload.toText : Payload → Option String
  | .text s => some s
  | .items values => (Value.arr values).toText

def getRawRows (js : Runtime) (input : ImportData) : Except String (List RawImportRow) := do
  let rows ← match input.format with
    | .csv => do
      let csv ← orErr input.data.toText "Cannot convert object to primitive value"
      .ok (parseCsvRows csv input.columnMapping)
    | .json => parseJsonRows js input.data input.columnMapping
  if MAX_IMPORT_ROWS < rows.length then
    .error ("Import payload exceeds the maximum of " ++ toString MAX_IMPORT_ROWS ++ " rows")
  else .ok rows

/-- `input.options?.upsert !== false` -/
def upserts (options : Option ImportOptions) : Bool :=
  options.bind ImportOptions.upsert ≠ some false

/-- What the loop over the rows has gathered. -/
structure ValidationState where
  errors : List ImportRowError
  warnings : List ImportRowWarning
  normalizedRows : List ImportPreviewRow
  seenSubscriptionIds : List String

namespace ValidationState

def initial : ValidationState := ⟨[], [], [], []⟩

def addErrors (st : ValidationState) (errors : List ImportRowError) : ValidationState :=
  { st with errors := st.errors ++ errors }

/-- A row, once it is normalised. -/
def visit (existingById : List SubscriptionRecord) (upsert : Bool) (st : ValidationState)
    (rowNumber : ℕ) : Option DraftSubscription × List ImportRowError → ValidationState
  | (some subscription, []) =>
    if subscription.subscriptionId ∈ st.seenSubscriptionIds then
      st.addErrors [⟨rowNumber, "subscriptionId",
        "Duplicate subscriptionId found in import payload"⟩]
    else
      let st := { st with
        seenSubscriptionIds := subscription.subscriptionId :: st.seenSubscriptionIds }
      match findKey SubscriptionRecord.key existingById subscription.subscriptionId with
      | none =>
        { st with normalizedRows := st.normalizedRows ++ [⟨rowNumber, .create, subscription⟩] }
      | some existing =>
        if !upsert then
          st.addErrors [⟨rowNumber, "subscriptionId",
            "subscriptionId already exists for this merchant"⟩]
        else
          let action : ImportAction :=
            if subscriptionsMatch subscription existing.toDraftSubscription then .skip else .update
          let message :=
            if action = .skip then "Existing subscription is unchanged and will be skipped"
            else "Existing subscription will be updated"
          { st with
            warnings := st.warnings ++ [⟨rowNumber, "subscriptionId", message⟩]
            normalizedRows := st.normalizedRows ++ [⟨rowNumber, action, subscription⟩] }
  | (_, rowErrors) => st.addErrors rowErrors

end ValidationState

section Validation

variable (js : Runtime) (input : ImportData) (existingSubscriptions : List SubscriptionRecord)

/-- The body of `rows.forEach`. -/
def validateRow (st : ValidationState) (row : RawImportRow × ℕ) :
    Except String ValidationState := do
  let normalized ← normalizeSubscriptionRow js input.merchantId row.1 row.2
  .ok (st.visit (upsertAll SubscriptionRecord.key existingSubscriptions) (upserts input.options)
    row.2 normalized)

/-- The number of the first row; a CSV text has its header before it. -/
def firstRow (format : ImportFormat) : ℕ :=
  match format with
  | .csv => 2
  | .json => 1

def validateImport : Except String ValidationResult := do
  let rows ← getRawRows js input
  let st ← (rows.zipIdx (firstRow input.format)).foldlM (validateRow js input existingSubscriptions)
    .initial
  let count := fun action => st.normalizedRows.countP fun row => row.action = action
  .ok {
    merchantId := input.merchantId
    format := input.format
    isValid := st.errors.isEmpty
    summary := {
      totalRows := rows.length
      validRows := st.normalizedRows.length
      invalidRows := (st.errors.map ImportRowError.rowNumber).dedup.length
      creates := count .create
      updates := count .update
      skips := count .skip }
    errors := st.errors
    warnings := st.warnings
    previewRows := st.normalizedRows.take (getPreviewLimit
      (input.options.bind ImportOptions.previewLimit))
    normalizedRows := st.normalizedRows }

end Validation

/-! ## Application -/

inductive ImportStatus where
  | completed
  | failed
  deriving DecidableEq, Repr

structure ImportHistoryEntry where
  importId : String
  merchantId : String
  format : ImportFormat
  createdAt : String
  totalRows : ℕ
  importedCount : ℕ
  updatedCount : ℕ
  skippedCount : ℕ
  errorCount : ℕ
  status : ImportStatus

structure ImportResult where
  merchantId : String
  importId : String
  importedCount : ℕ
  updatedCount : ℕ
  skippedCount : ℕ
  errorCount : ℕ
  errors : List ImportRowError
  warnings : List ImportRowWarning
  appliedSubscriptions : List SubscriptionRecord
  historyEntry : ImportHistoryEntry

/-- The map of the records, and what was done to it. -/
structure Tally where
  subscriptionMap : List SubscriptionRecord
  importedCount : ℕ
  updatedCount : ℕ
  skippedCount : ℕ

/-- The body of `normalizedRows.forEach`.  Only what is there is updated. -/
def applyRow (createdAt : String) (t : Tally) (row : ImportPreviewRow) : Tally :=
  match row.action with
  | .skip => { t with skippedCount := t.skippedCount + 1 }
  | .update =>
    let existing := findKey SubscriptionRecord.key t.subscriptionMap row.subscription.subscriptionId
    { t with
      subscriptionMap := match existing with
        | some existing =>
          upsert SubscriptionRecord.key
            { row.subscription with createdAt := existing.createdAt, updatedAt := createdAt }
            t.subscriptionMap
        | none => t.subscriptionMap
      updatedCount := t.updatedCount + 1 }
  | .create =>
    { t with
      subscriptionMap := upsert SubscriptionRecord.key
        { row.subscription with createdAt := createdAt, updatedAt := createdAt } t.subscriptionMap
      importedCount := t.importedCount + 1 }

/-- `sort((left, right) => left.subscriptionId.localeCompare(right.subscriptionId))`, which leaves
records in their order that compare as equal. -/
def sortById (js : Runtime) (records : List SubscriptionRecord) : List SubscriptionRecord :=
  records.insertionSort fun left right => js.notAfter left.subscriptionId right.subscriptionId

def importSubscriptions (js : Runtime) (input : ImportData)
    (existingSubscriptions : List SubscriptionRecord) (importId createdAt : String) :
    Except String ImportResult := do
  let validation ← validateImport js input existingSubscriptions
  if !validation.isValid then
    .ok {
      merchantId := input.merchantId
      importId
      importedCount := 0
      updatedCount := 0
      skippedCount := 0
      errorCount := validation.errors.length
      errors := validation.errors
      warnings := validation.warnings
      appliedSubscriptions := existingSubscriptions
      historyEntry := {
        importId
        merchantId := input.merchantId
        format := input.format
        createdAt
        totalRows := validation.summary.totalRows
        importedCount := 0
        updatedCount := 0
        skippedCount := 0
        errorCount := validation.errors.length
        status := .failed } }
  else
    let t := validation.normalizedRows.foldl (applyRow createdAt)
      ⟨upsertAll SubscriptionRecord.key existingSubscriptions, 0, 0, 0⟩
    .ok {
      merchantId := input.merchantId
      importId
      importedCount := t.importedCount
      updatedCount := t.updatedCount
      skippedCount := t.skippedCount
      errorCount := 0
      errors := []
      warnings := validation.warnings
      appliedSubscriptions := sortById js t.subscriptionMap
      historyEntry := {
        importId
        merchantId := input.merchantId
        format := input.format
        createdAt
        totalRows := validation.summary.totalRows
        importedCount := t.importedCount
        updatedCount := t.updatedCount
        skippedCount := t.skippedCount
        errorCount := 0
        status := .completed } }

end StellarLend.Subscriptions
