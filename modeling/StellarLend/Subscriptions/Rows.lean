import Mathlib.Data.List.DropRight
import Mathlib.Data.List.Sort
import Mathlib.Logic.Function.Basic
import StellarLend.Foundations.Call
import StellarLend.Foundations.Json
import StellarLend.Foundations.Keyed

/-!
# Subscriptions/Rows — the rows of an import, and what is wrong with them

    CSV text ──► lines ──► columns ─┐
                                    ├──► row ──► draft of a subscription, or errors
    JSON ──────► members ───────────┘

`api/src/utils/importExport.ts`, from the payload to the normalised row.  What JavaScript brings
along and the source does not say (parsing of JSON, numbers and dates, letter case, collation) is a
`Runtime`.
-/

namespace StellarLend.Subscriptions

open Foundations

/-! ## Values -/

/-- What a payload is made of; members in the order in which `Object.entries` lists them.  A number
in a JSON text may be too large for a double. -/
inductive Value where
  | null
  | bool (b : Bool)
  | num (n : Number)
  | infinity (negative : Bool)
  | str (s : String)
  | arr (items : List Value)
  | obj (members : List (String × Value))

namespace Value

mutual

/-- What `JSON.stringify` makes of a value: an infinite number is printed as `null`. -/
def toJson : Value → Json
  | .null => .null
  | .bool b => .bool b
  | .num n => .num n
  | .infinity _ => .null
  | .str s => .str s
  | .arr items => .arr (itemsToJson items)
  | .obj members => .obj (membersToJson members)

def itemsToJson : List Value → List Json
  | [] => []
  | v :: vs => toJson v :: itemsToJson vs

def membersToJson : List (String × Value) → List (String × Json)
  | [] => []
  | (k, v) :: ms => (k, toJson v) :: membersToJson ms

end

mutual

/-- `String(value)`, nothing where that throws: an object with a `toString` that is no function. -/
def toText : Value → Option String
  | .null => some "null"
  | .bool true => some "true"
  | .bool false => some "false"
  | .num n => some (String.ofList n.text)
  | .infinity false => some "Infinity"
  | .infinity true => some "-Infinity"
  | .str s => some s
  | .arr items => (itemTexts items).map (String.intercalate ",")
  | .obj members => if (members.lookup "toString").isSome then none else some "[object Object]"

/-- The items as `join` writes them, `null` as nothing. -/
def itemTexts : List Value → Option (List String)
  | [] => some []
  | .null :: vs => (itemTexts vs).map ("" :: ·)
  | v :: vs => do
    let text ← toText v
    let texts ← itemTexts vs
    some (text :: texts)

end

end Value

/-- `/\s/`, which is also what `trim` takes off. -/
def isSpace (c : Char) : Bool :=
  [9, 10, 11, 12, 13, 32, 0xA0, 0x1680, 0x2028, 0x2029, 0x202F, 0x205F, 0x3000, 0xFEFF].contains
    c.toNat || (0x2000 ≤ c.toNat && c.toNat ≤ 0x200A)

def trim (s : String) : String :=
  String.ofList ((s.toList.dropWhile isSpace).rdropWhile isSpace)

/-- What the source takes from JavaScript: `JSON.parse`, `Number` where it is finite, `toISOString`
of a valid `Date`, letter case, and `localeCompare` as "not after". -/
structure Runtime where
  parseJson : String → Option Value
  number : String → Option Number
  isoDate : String → Option String
  toLowerCase : String → String
  toUpperCase : String → String
  notAfter : String → String → Bool
  isoDate_ne : ∀ raw, isoDate raw ≠ some ""
  notAfter_trans : ∀ a b c, notAfter a b → notAfter b c → notAfter a c
  notAfter_total : ∀ a b, notAfter a b ∨ notAfter b a

/-! ## Rows -/

inductive CanonicalField where
  | subscriptionId
  | customerEmail
  | planId
  | status
  | amount
  | currency
  | interval
  | startDate
  | nextBillingDate
  | metadata
  deriving DecidableEq

namespace CanonicalField

def name : CanonicalField → String
  | .subscriptionId => "subscriptionId"
  | .customerEmail => "customerEmail"
  | .planId => "planId"
  | .status => "status"
  | .amount => "amount"
  | .currency => "currency"
  | .interval => "interval"
  | .startDate => "startDate"
  | .nextBillingDate => "nextBillingDate"
  | .metadata => "metadata"

/-- `CANONICAL_FIELDS` -/
def all : List CanonicalField :=
  [.subscriptionId, .customerEmail, .planId, .status, .amount, .currency, .interval, .startDate,
    .nextBillingDate, .metadata]

/-- `isCanonicalField` -/
def ofName (s : String) : Option CanonicalField := all.find? fun field => field.name = s

end CanonicalField

/-- A row under the names of the fields; nothing where it is undefined. -/
abbrev RawImportRow := CanonicalField → Option Value

abbrev ColumnMapping := List (String × String)

/-- A name that every object inherits is mapped to no field, and is none itself. -/
def normalizeRowKeys (row : List (String × Value)) (columnMapping : ColumnMapping) :
    RawImportRow :=
  row.foldl (fun normalized member =>
    let trimmedKey := trim member.1
    let mappedKey := (columnMapping.lookup trimmedKey).getD trimmedKey
    match CanonicalField.ofName mappedKey with
    | some field => Function.update normalized field (some member.2)
    | none => normalized) fun _ => none

/-! ### CSV -/

/-- The columns of a line, from some character on. -/
def csvColumns : List Char → List Char → Bool → List (List Char)
  | [], current, _ => [current]
  | '"' :: '"' :: rest, current, true => csvColumns rest (current ++ ['"']) true
  | '"' :: rest, current, inQuotes => csvColumns rest current !inQuotes
  | ',' :: rest, current, false => current :: csvColumns rest [] false
  | char :: rest, current, inQuotes => csvColumns rest (current ++ [char]) inQuotes

def parseCsvLine (line : String) : List String :=
  (csvColumns line.toList [] false).map fun value => trim (String.ofList value)

/-- A text cut at `\r?\n`. -/
def splitLines : List Char → List Char → List (List Char)
  | [], current => [current]
  | '\r' :: '\n' :: rest, current => current :: splitLines rest []
  | '\n' :: rest, current => current :: splitLines rest []
  | char :: rest, current => splitLines rest (current ++ [char])

/-- A property name that is an array index; those are listed before all others. -/
def arrayIndex (name : String) : Option ℕ :=
  let index := name.toList.foldl (fun n c => 10 * n + (c.toNat - '0'.toNat)) 0
  if Nat.toDigits 10 index = name.toList ∧ index < 4294967295 then some index else none

/-- `Object.entries` of an object whose properties were set in this order. -/
def objectEntries (members : List (String × Value)) : List (String × Value) :=
  (members.filter fun m => (arrayIndex m.1).isSome).insertionSort
      (fun m n => (arrayIndex m.1).getD 0 ≤ (arrayIndex n.1).getD 0) ++
    members.filter fun m => (arrayIndex m.1).isNone

/-- `row[header] = value`; text set as `__proto__` is ignored. -/
def setColumn (row : List (String × Value)) (column : String × String) : List (String × Value) :=
  if column.1 = "__proto__" then row else upsert Prod.fst (column.1, .str column.2) row

def parseCsvRows (csv : String) (columnMapping : ColumnMapping) : List RawImportRow :=
  let lines := ((splitLines csv.toList []).map fun line => trim (String.ofList line)).filter
    fun line => line ≠ ""
  match lines with
  | [] => []
  | header :: rest =>
    let headers := parseCsvLine header
    rest.map fun line =>
      let values := parseCsvLine line
      let row := (headers.zipIdx.map fun h => (h.1, values.getD h.2 "")).foldl setColumn []
      normalizeRowKeys (objectEntries row) columnMapping

/-! ### JSON -/

/-- `data`: a text, or what the body of the request had in its place. -/
inductive Payload where
  | text (s : String)
  | items (items : List Value)

def parseJsonRow (columnMapping : ColumnMapping) : Value → Except String RawImportRow
  | .obj members => .ok (normalizeRowKeys members columnMapping)
  | _ => .error "Each JSON import row must be an object"

def parseJsonRows (js : Runtime) (input : Payload) (columnMapping : ColumnMapping) :
    Except String (List RawImportRow) := do
  let parsed ← match input with
    | .text s => orErr (js.parseJson s) "Invalid JSON import payload"
    | .items items => .ok (.arr items)
  match parsed with
  | .arr items => items.mapM (parseJsonRow columnMapping)
  | _ => .error "JSON import payload must be an array of subscription objects"

/-! ## Subscriptions -/

inductive SubscriptionStatus where
  | active
  | paused
  | cancelled
  | trialing
  | pastDue
  deriving DecidableEq

namespace SubscriptionStatus

def name : SubscriptionStatus → String
  | .active => "active"
  | .paused => "paused"
  | .cancelled => "cancelled"
  | .trialing => "trialing"
  | .pastDue => "past_due"

/-- `SUBSCRIPTION_STATUSES` -/
def all : List SubscriptionStatus := [.active, .paused, .cancelled, .trialing, .pastDue]

def ofName (s : String) : Option SubscriptionStatus := all.find? fun status => status.name = s

end SubscriptionStatus

inductive SubscriptionInterval where
  | daily
  | weekly
  | monthly
  | quarterly
  | yearly
  deriving DecidableEq

namespace SubscriptionInterval

def name : SubscriptionInterval → String
  | .daily => "daily"
  | .weekly => "weekly"
  | .monthly => "monthly"
  | .quarterly => "quarterly"
  | .yearly => "yearly"

/-- `SUBSCRIPTION_INTERVALS` -/
def all : List SubscriptionInterval := [.daily, .weekly, .monthly, .quarterly, .yearly]

def ofName (s : String) : Option SubscriptionInterval := all.find? fun interval => interval.name = s

end SubscriptionInterval

structure DraftSubscription where
  merchantId : String
  subscriptionId : String
  customerEmail : String
  planId : String
  status : SubscriptionStatus
  amount : Number
  currency : String
  interval : SubscriptionInterval
  startDate : String
  nextBillingDate : Option String
  metadata : Option (List (String × Value))

structure ImportRowError where
  rowNumber : ℕ
  field : String
  message : String
  deriving DecidableEq, Repr

/-! ## Normalisation

Each step returns what it makes of a value, and the errors that it pushes.  Whatever converts a
value to text may throw. -/

def normalizeString : Option Value → Except String String
  | none => .ok ""
  | some .null => .ok ""
  | some value => do
    let text ← orErr value.toText "Cannot convert object to primitive value"
    .ok (trim text)

/-- A field must be there. -/
def requiredErrors (rowNumber : ℕ) (field raw : String) : List ImportRowError :=
  if raw = "" then [⟨rowNumber, field, field ++ " is required"⟩] else []

/-- A field must be there and pass its check. -/
def checkedErrors (rowNumber : ℕ) (field raw : String) (valid : Bool) (message : String) :
    List ImportRowError :=
  if raw = "" then requiredErrors rowNumber field raw
  else if valid then [] else [⟨rowNumber, field, message⟩]

/-- `/^[^\s@]+@[^\s@]+\.[^\s@]+$/` -/
def isEmail (s : String) : Bool :=
  match s.toList.splitOn '@' with
  | [name, domain] =>
    name ≠ [] && name.all (!isSpace ·) && domain.all (!isSpace ·) &&
      (domain.drop 1).dropLast.contains '.'
  | _ => false

/-- `/^[A-Z]{3}$/` -/
def isCurrencyCode (s : String) : Bool :=
  s.toList.length = 3 && s.toList.all fun c => 'A' ≤ c && c ≤ 'Z'

def normalizeDate (js : Runtime) (value : Option Value) (field : String) (rowNumber : ℕ) :
    Except String (Option String × List ImportRowError) := do
  let raw ← normalizeString value
  if raw = "" then .ok (none, [])
  else
    match js.isoDate raw with
    | none => .ok (none, [⟨rowNumber, field, field ++ " must be a valid ISO date"⟩])
    | some date => .ok (some date, [])

def normalizeMetadata (js : Runtime) (value : Option Value) (rowNumber : ℕ) :
    Except String (Option (List (String × Value)) × List ImportRowError) :=
  match value with
  | none => .ok (none, [])
  | some .null => .ok (none, [])
  | some (.str "") => .ok (none, [])
  | some (.obj members) => .ok (some members, [])
  | some value => do
    let raw ← normalizeString (some value)
    match js.parseJson raw with
    | some (.obj members) => .ok (some members, [])
    | _ => .ok (none, [⟨rowNumber, "metadata", "metadata must be a valid JSON object"⟩])

/-- A number below zero; minus zero is printed without a sign. -/
def isNegative (n : Number) : Bool := n.text.head? = some '-'

def normalizeAmount (js : Runtime) (value : Option Value) (rowNumber : ℕ) :
    Except String (Option Number × List ImportRowError) := do
  let raw ← normalizeString value
  if raw = "" then .ok (none, [⟨rowNumber, "amount", "amount is required"⟩])
  else
    match (js.number raw).filter (!isNegative ·) with
    | none => .ok (none, [⟨rowNumber, "amount", "amount must be a valid non-negative number"⟩])
    | some amount => .ok (some amount, [])

def normalizeSubscriptionRow (js : Runtime) (merchantId : String) (row : RawImportRow)
    (rowNumber : ℕ) : Except String (Option DraftSubscription × List ImportRowError) := do
  let subscriptionId ← normalizeString (row .subscriptionId)
  let customerEmail := js.toLowerCase (← normalizeString (row .customerEmail))
  let planId ← normalizeString (row .planId)
  let status := js.toLowerCase (← normalizeString (row .status))
  let currency := js.toUpperCase (← normalizeString (row .currency))
  let interval := js.toLowerCase (← normalizeString (row .interval))
  let (startDate, startErrors) ← normalizeDate js (row .startDate) "startDate" rowNumber
  let startText ← normalizeString (row .startDate)
  let (nextBillingDate, nextErrors) ←
    normalizeDate js (row .nextBillingDate) "nextBillingDate" rowNumber
  let (metadata, metadataErrors) ← normalizeMetadata js (row .metadata) rowNumber
  let (amount, amountErrors) ← normalizeAmount js (row .amount) rowNumber
  let errors :=
    requiredErrors rowNumber "subscriptionId" subscriptionId ++
    checkedErrors rowNumber "customerEmail" customerEmail (isEmail customerEmail)
      "customerEmail must be a valid email address" ++
    requiredErrors rowNumber "planId" planId ++
    checkedErrors rowNumber "status" status (SubscriptionStatus.ofName status).isSome
      ("status must be one of: " ++
        String.intercalate ", " (SubscriptionStatus.all.map SubscriptionStatus.name)) ++
    checkedErrors rowNumber "currency" currency (isCurrencyCode currency)
      "currency must be a 3-letter ISO code" ++
    checkedErrors rowNumber "interval" interval (SubscriptionInterval.ofName interval).isSome
      ("interval must be one of: " ++
        String.intercalate ", " (SubscriptionInterval.all.map SubscriptionInterval.name)) ++
    startErrors ++ requiredErrors rowNumber "startDate" startText ++ nextErrors ++
    metadataErrors ++ amountErrors
  let draft := do
    let amount ← amount
    let startDate ← startDate.filter (· ≠ "")
    let status ← SubscriptionStatus.ofName status
    let interval ← SubscriptionInterval.ofName interval
    some { merchantId, subscriptionId, customerEmail, planId, status, amount, currency, interval,
           startDate, nextBillingDate, metadata }
  .ok (if errors ≠ [] then none else draft, errors)

/-! ## A row is a draft or has errors -/

section Errors

variable {js : Runtime} {merchantId field raw message : String} {valid : Bool} {rowNumber : ℕ}
  {value : Option Value} {row : RawImportRow} {errors : List ImportRowError}

theorem requiredErrors_eq_nil : requiredErrors rowNumber field raw = [] ↔ raw ≠ "" := by
  rw [requiredErrors]
  split <;> simp_all

theorem checkedErrors_eq_nil :
    checkedErrors rowNumber field raw valid message = [] ↔ raw ≠ "" ∧ valid = true := by
  rw [checkedErrors]
  by_cases hraw : raw = ""
  · rw [if_pos hraw, requiredErrors_eq_nil]
    exact iff_of_false (not_not.mpr hraw) fun h => h.1 hraw
  · rw [if_neg hraw]
    cases valid <;> simp [hraw]

/-- An amount without errors is there. -/
theorem amount_isSome {amount : Option Number}
    (h : normalizeAmount js value rowNumber = .ok (amount, [])) : amount.isSome := by
  obtain ⟨raw, -, h⟩ := except_bind_ok.mp h
  split at h
  · cases h
  · split at h
    · cases h
    · cases h
      rfl

/-- A date of some text is there, unless it has errors. -/
theorem date_isSome {date : Option String} (hraw : normalizeString value = .ok raw)
    (hne : raw ≠ "") (h : normalizeDate js value field rowNumber = .ok (date, [])) :
    (date.filter (· ≠ "")).isSome := by
  obtain ⟨raw', hraw', h⟩ := except_bind_ok.mp h
  obtain rfl : raw = raw' := Except.ok.inj (hraw.symm.trans hraw')
  rw [if_neg hne] at h
  split at h
  · cases h
  · rename_i date' hdate
    cases h
    have hdate' : date' ≠ "" := fun hempty => js.isoDate_ne raw (hempty ▸ hdate)
    rw [Option.filter_some_pos (by simpa using hdate')]
    rfl

/-- **A row is a draft exactly if nothing is wrong with it.** -/
theorem normalizeSubscriptionRow_isSome {draft : Option DraftSubscription}
    (h : normalizeSubscriptionRow js merchantId row rowNumber = .ok (draft, errors)) :
    draft.isSome ↔ errors = [] := by
  simp only [normalizeSubscriptionRow, except_bind_ok] at h
  obtain ⟨_, -, _, -, _, -, _, -, _, -, _, -, ⟨startDate, _⟩, hstart, startText, hraw, ⟨_, _⟩, -,
    ⟨_, _⟩, -, ⟨amount, _⟩, hamount, h⟩ := h
  obtain ⟨rfl, rfl⟩ := Prod.mk.inj (Except.ok.inj h)
  split
  · rename_i hne
    exact iff_of_false (by simp) hne
  · rename_i hnil
    refine iff_of_true ?_ (not_not.mp hnil)
    simp only [ne_eq, not_not, List.append_eq_nil_iff, requiredErrors_eq_nil,
      checkedErrors_eq_nil] at hnil
    obtain ⟨⟨⟨⟨⟨⟨⟨⟨-, -, hstatus⟩, -⟩, -, hinterval⟩, rfl⟩, htext⟩, -⟩, -⟩, rfl⟩ := hnil
    obtain ⟨status, hstatus⟩ := Option.isSome_iff_exists.mp hstatus
    obtain ⟨interval, hinterval⟩ := Option.isSome_iff_exists.mp hinterval
    obtain ⟨amount, rfl⟩ := Option.isSome_iff_exists.mp (amount_isSome hamount)
    obtain ⟨date, hdate⟩ := Option.isSome_iff_exists.mp (date_isSome hraw htext hstart)
    rw [hdate, hstatus, hinterval]
    rfl

end Errors

end StellarLend.Subscriptions
