import Mathlib.Data.List.Induction
import StellarLend.Foundations.Json
import StellarLend.Foundations.Sha256

/-!
# AuditLog/Service — the hash chain of the audit log, and until when it verifies

`api/src/services/auditLog.service.ts`.  An entry's hash is taken of the previous hash and of the
entry's fields, printed with the list of the keys that the entry has; JavaScript applies that list
to objects inside the fields as well.  `record` keeps the newest `MAX_ENTRIES`, and `verify` starts
from `0` whatever was dropped.

The entries that the service ever made form one chain from `0` (`history`), of which the log keeps
the newest.  The chain verifies; what is left of it after the first entry is dropped does not, as
its first entry is linked to a digest and `verify` starts from `0`.
-/

namespace StellarLend.AuditLog

open Foundations

/-! ## Entries -/

/-- A snapshot of some state: named values, to any depth. -/
abbrev State := List (String × Json)

/-- An optional field of an object: no key of it, a key that is undefined, or a key with a value. -/
inductive Property (α : Type) where
  | absent
  | undefined
  | is (a : α)
  deriving DecidableEq

namespace Property

variable {α : Type}

/-- A field that is set to an optional value is a key in any case. -/
def ofOption : Option α → Property α
  | some a => .is a
  | none => .undefined

def value : Property α → Option α
  | .is a => some a
  | _ => none

/-- The field is a key of the object. -/
def owned : Property α → Bool
  | .absent => false
  | _ => true

end Property

/-- An entry without its hash.  Status and action are text here, as what somebody writes over a
stored entry need not be one of the values that `record` takes. -/
structure Fields where
  id : String
  sequence : Number
  timestamp : String
  action : String
  actor : String
  status : String
  txHash : Property String
  ledger : Property Number
  amount : Property String
  assetAddress : Property String
  ip : Property String
  beforeState : Property State
  afterState : Property State
  prevHash : String

structure Entry extends Fields where
  hash : String

/-- The fields of an entry, sorted. -/
def fieldNames : List String :=
  ["action", "actor", "afterState", "amount", "assetAddress", "beforeState", "id", "ip", "ledger",
    "prevHash", "sequence", "status", "timestamp", "txHash"]

/-- The field is a key of the entry. -/
def Fields.owns (f : Fields) : String → Bool
  | "txHash" => f.txHash.owned
  | "ledger" => f.ledger.owned
  | "amount" => f.amount.owned
  | "assetAddress" => f.assetAddress.owned
  | "ip" => f.ip.owned
  | "beforeState" => f.beforeState.owned
  | "afterState" => f.afterState.owned
  | _ => true

/-- `Object.keys(fields).sort()` -/
def Fields.names (f : Fields) : List String := fieldNames.filter f.owns

/-- A field by its name, none if undefined. -/
def Fields.get (f : Fields) : String → Option Json
  | "id" => some (.str f.id)
  | "sequence" => some (.num f.sequence)
  | "timestamp" => some (.str f.timestamp)
  | "action" => some (.str f.action)
  | "actor" => some (.str f.actor)
  | "status" => some (.str f.status)
  | "txHash" => f.txHash.value.map .str
  | "ledger" => f.ledger.value.map .num
  | "amount" => f.amount.value.map .str
  | "assetAddress" => f.assetAddress.value.map .str
  | "ip" => f.ip.value.map .str
  | "beforeState" => f.beforeState.value.map .obj
  | "afterState" => f.afterState.value.map .obj
  | "prevHash" => some (.str f.prevHash)
  | _ => none

/-! ## Hashing -/

/-- `prevHash + JSON.stringify(fields, Object.keys(fields).sort())` -/
def payload (prevHash : String) (fields : Fields) : String :=
  prevHash ++ Json.stringifyObject fields.names fields.get

section Service

variable (sha256 : String → String)

def hashEntry (prevHash : String) (fields : Fields) : String := sha256 (payload prevHash fields)

/-! ## The service -/

@[irreducible] def MAX_ENTRIES : ℕ := 10000

structure AuditLogService where
  entries : List Entry
  sequence : ℕ

/-- A call of `record`, with the identifier and the time it draws. -/
structure Params where
  id : String
  timestamp : String
  action : String
  actor : String
  status : String
  txHash : Option String
  ledger : Option Number
  amount : Option String
  assetAddress : Option String
  ip : Option String
  beforeState : Option State
  afterState : Option State

/-- The entry that `record` makes of a call after so many others. -/
def entryOf (prevHash : String) (sequence : ℕ) (params : Params) : Entry :=
  let fields : Fields := {
    id := params.id
    sequence := .ofNat sequence
    timestamp := params.timestamp
    action := params.action
    actor := params.actor
    status := params.status
    txHash := .ofOption params.txHash
    ledger := .ofOption params.ledger
    amount := .ofOption params.amount
    assetAddress := .ofOption params.assetAddress
    ip := .ofOption params.ip
    beforeState := .ofOption params.beforeState
    afterState := .ofOption params.afterState
    prevHash }
  { fields with hash := hashEntry sha256 prevHash fields }

namespace AuditLogService

/-- `_reset`, and the state that the service starts in. -/
def reset : AuditLogService := ⟨[], 0⟩

/-- The hash that the next entry is linked to. -/
def lastHash (entries : List Entry) : String := (entries.getLast?.map Entry.hash).getD "0"

/-- Retention: the oldest entries go when there are too many. -/
def retain (entries : List Entry) : List Entry :=
  if MAX_ENTRIES < entries.length then entries.drop (entries.length - MAX_ENTRIES) else entries

def record (log : AuditLogService) (params : Params) : AuditLogService where
  entries := retain (log.entries ++
    [entryOf sha256 (lastHash log.entries) (log.sequence + 1) params])
  sequence := log.sequence + 1

/-- The log after these calls of `record`. -/
def after (calls : List Params) : AuditLogService := calls.foldl (record sha256) reset

end AuditLogService

structure AuditLogVerifyResult where
  valid : Bool
  checkedEntries : ℕ
  firstBadSequence : Option Number

/-- The loop of `verify`, after so many entries. -/
def verifyFrom (prevHash : String) (checked : ℕ) : List Entry → AuditLogVerifyResult
  | [] => ⟨true, checked, none⟩
  | e :: es =>
    if hashEntry sha256 prevHash e.toFields ≠ e.hash then
      ⟨false, checked + 1, some e.sequence⟩
    else verifyFrom e.hash (checked + 1) es

def verify (entries : List Entry) : AuditLogVerifyResult := verifyFrom sha256 "0" 0 entries

theorem MAX_ENTRIES_pos : 0 < MAX_ENTRIES := by
  unfold MAX_ENTRIES
  decide

/-! ## Chains -/

/-- Each entry's hash is the one that its fields and the hash before it give. -/
def Linked : String → List Entry → Prop
  | _, [] => True
  | prevHash, e :: es => hashEntry sha256 prevHash e.toFields = e.hash ∧ Linked e.hash es

variable {sha256}

theorem verifyFrom_valid : ∀ {prevHash : String} {checked : ℕ} {entries : List Entry},
    (verifyFrom sha256 prevHash checked entries).valid = true ↔ Linked sha256 prevHash entries
  | _, _, [] => by simp [verifyFrom, Linked]
  | prevHash, checked, e :: es => by
    rw [verifyFrom, Linked]
    by_cases h : hashEntry sha256 prevHash e.toFields = e.hash
    · rw [if_neg (not_not_intro h), verifyFrom_valid, and_iff_right h]
    · rw [if_pos h]
      exact iff_of_false Bool.false_ne_true fun hes => h hes.1

/-- **A log is valid exactly if its entries are linked, the first one to `0`.** -/
theorem verify_valid {entries : List Entry} :
    (verify sha256 entries).valid = true ↔ Linked sha256 "0" entries := verifyFrom_valid

theorem linked_append : ∀ {prevHash : String} {es fs : List Entry},
    Linked sha256 prevHash (es ++ fs) ↔ Linked sha256 prevHash es ∧
      Linked sha256 ((es.getLast?.map Entry.hash).getD prevHash) fs
  | _, [], _ => by simp [Linked]
  | prevHash, e :: es, fs => by
    rw [List.cons_append, Linked, Linked, linked_append, and_assoc]
    cases es with
    | nil => rfl
    | cons d ds => rw [List.getLast?_cons_cons, List.getLast?_cons, Option.map_some]; rfl

/-! ## What a payload tells -/

/-- A hash that an entry can be linked to is printed without an opening brace. -/
def Unbraced (prevHash : String) : Prop := '{' ∉ prevHash.toList

theorem unbraced_zero : Unbraced "0" := by
  rw [Unbraced]
  decide

theorem unbraced_of_isDigest {prevHash : String} (h : IsDigest prevHash) : Unbraced prevHash :=
  fun hc => absurd (h.2 _ hc) (by decide)

theorem ne_zero_of_isDigest {prevHash : String} (h : IsDigest prevHash) : prevHash ≠ "0" := by
  rintro rfl
  exact absurd h.1 (by decide)

theorem cut_at {c : Char} : ∀ {l m r s : List Char}, c ∉ l → c ∉ m →
    l ++ c :: r = m ++ c :: s → l = m ∧ r = s
  | [], [], _, _, _, _, h => ⟨rfl, (List.cons.inj h).2⟩
  | [], d :: m, _, _, _, hm, h => absurd (List.cons.inj h).1 fun hc => hm (by simp [hc])
  | d :: l, [], _, _, hl, _, h => absurd (List.cons.inj h).1 fun hc => hl (by simp [hc])
  | d :: l, e :: m, _, _, hl, hm, h => by
    obtain ⟨rfl, hrest⟩ := List.cons.inj h
    obtain ⟨rfl, hrs⟩ := cut_at (fun hc => hl (by simp [hc])) (fun hc => hm (by simp [hc])) hrest
    exact ⟨rfl, hrs⟩

/-- **A payload tells the hash before it and the text of the fields.** -/
theorem payload_injective {p q : String} {f g : Fields} (hp : Unbraced p) (hq : Unbraced q)
    (h : payload p f = payload q g) : p = q ∧
      Json.stringifyObject f.names f.get = Json.stringifyObject g.names g.get := by
  obtain ⟨r, hr⟩ := Json.toList_stringifyObject f.names f.get
  obtain ⟨s, hs⟩ := Json.toList_stringifyObject g.names g.get
  have hlist := congrArg String.toList h
  rw [payload, payload, String.toList_append, String.toList_append, hr, hs] at hlist
  obtain ⟨hpq, rfl⟩ := cut_at hp hq hlist
  exact ⟨String.toList_injective hpq, String.toList_injective (hr.trans hs.symm)⟩

end Service

/-! ## Until when a log verifies -/

section

open Foundations AuditLogService

section Retention

variable (sha256 : String → String)

/-- The entries of these calls, made after so many others. -/
def historyFrom (prevHash : String) (sequence : ℕ) : List Params → List Entry
  | [] => []
  | p :: ps =>
    entryOf sha256 prevHash (sequence + 1) p ::
      historyFrom (entryOf sha256 prevHash (sequence + 1) p).hash (sequence + 1) ps

/-- All entries that the service ever made. -/
def history (calls : List Params) : List Entry := historyFrom sha256 "0" 0 calls

/-- The texts hashed in linking entries one after the other. -/
def payloads (prevHash : String) : List Entry → List String
  | [] => []
  | e :: es => payload prevHash e.toFields :: payloads e.hash es

variable {sha256}

/-! ## The chain of all entries -/

@[simp] theorem length_historyFrom (prevHash : String) (sequence : ℕ) (calls : List Params) :
    (historyFrom sha256 prevHash sequence calls).length = calls.length := by
  induction calls generalizing prevHash sequence with
  | nil => rfl
  | cons p ps ih => rw [historyFrom, List.length_cons, List.length_cons, ih]

theorem linked_historyFrom (prevHash : String) (sequence : ℕ) (calls : List Params) :
    Linked sha256 prevHash (historyFrom sha256 prevHash sequence calls) := by
  induction calls generalizing prevHash sequence with
  | nil => trivial
  | cons p ps ih => exact ⟨rfl, ih _ _⟩

/-- One more call makes one more entry, linked to the last. -/
theorem historyFrom_snoc (prevHash : String) (sequence : ℕ) (calls : List Params) (p : Params) :
    historyFrom sha256 prevHash sequence (calls ++ [p]) =
      historyFrom sha256 prevHash sequence calls ++
        [entryOf sha256 (((historyFrom sha256 prevHash sequence calls).getLast?.map
          Entry.hash).getD prevHash) (sequence + calls.length + 1) p] := by
  induction calls generalizing prevHash sequence with
  | nil => rfl
  | cons q qs ih =>
    rw [List.cons_append, historyFrom, ih, historyFrom, List.cons_append, List.length_cons,
      List.getLast?_cons, Option.map_some, Option.getD_some]
    congr 4
    · cases (historyFrom sha256 (entryOf sha256 prevHash (sequence + 1) q).hash (sequence + 1)
        qs).getLast? <;> rfl
    · omega

theorem history_snoc (calls : List Params) (p : Params) : history sha256 (calls ++ [p]) =
    history sha256 calls ++
      [entryOf sha256 (lastHash (history sha256 calls)) (calls.length + 1) p] := by
  rw [history, historyFrom_snoc, Nat.zero_add]
  rfl

/-! ## What is kept of it -/

/-- The newest entries, as many as are kept. -/
def recent (entries : List Entry) : List Entry := entries.drop (entries.length - MAX_ENTRIES)

/-- What is kept still ends in the last entry. -/
theorem lastHash_recent (entries : List Entry) : lastHash (recent entries) = lastHash entries := by
  rw [lastHash, lastHash, recent]
  cases entries with
  | nil => rw [List.drop_nil]
  | cons e es =>
    have hpos := MAX_ENTRIES_pos
    rw [List.getLast?_drop, if_neg]
    rw [List.length_cons]
    omega

theorem retain_snoc (entries : List Entry) (e : Entry) :
    retain (recent entries ++ [e]) = recent (entries ++ [e]) := by
  have hcut : recent entries ++ [e] =
      (entries ++ [e]).drop (entries.length - MAX_ENTRIES) := by
    rw [recent, List.drop_append_of_le_length (by omega)]
  have hlen : (entries ++ [e]).length = entries.length + 1 := by simp
  rw [hcut, retain, recent, List.length_drop, hlen]
  split
  · rw [List.drop_drop]
    exact congrArg (List.drop · _) (by omega)
  · exact congrArg (List.drop · _) (by omega)

/-- **The log is the newest part of the chain.** -/
theorem after_eq (calls : List Params) :
    after sha256 calls = ⟨recent (history sha256 calls), calls.length⟩ := by
  induction calls using List.reverseRecOn with
  | nil => exact congrArg (AuditLogService.mk · 0) (List.drop_nil).symm
  | append_singleton calls p ih =>
    rw [after, List.foldl_append, List.foldl_cons, List.foldl_nil, ← after, ih, record,
      lastHash_recent, retain_snoc, ← history_snoc, List.length_append]
    rfl

/-! ## Which logs verify -/

@[simp] theorem length_history (calls : List Params) :
    (history sha256 calls).length = calls.length := length_historyFrom ..

theorem length_recent (calls : List Params) :
    (recent (history sha256 calls)).length = calls.length - (calls.length - MAX_ENTRIES) := by
  rw [recent, List.length_drop, length_history]

theorem linked_history (calls : List Params) : Linked sha256 "0" (history sha256 calls) :=
  linked_historyFrom ..

/-- Hashes of linked entries are digests. -/
theorem isDigest_of_linked (hsha : ∀ data, IsDigest (sha256 data)) {prevHash : String}
    {entries : List Entry} (h : Linked sha256 prevHash entries) :
    ∀ e ∈ entries, IsDigest e.hash := by
  induction entries generalizing prevHash with
  | nil => exact fun e he => absurd he List.not_mem_nil
  | cons d entries ih =>
    intro e he
    rcases List.mem_cons.mp he with rfl | he
    · rw [← h.1]
      exact hsha _
    · exact ih h.2 e he

theorem payloads_append : ∀ (prevHash : String) (es fs : List Entry),
    payloads prevHash (es ++ fs) =
      payloads prevHash es ++ payloads ((es.getLast?.map Entry.hash).getD prevHash) fs
  | _, [], _ => rfl
  | _, [_], _ => rfl
  | prevHash, c :: d :: ds, fs => by
    rw [List.cons_append, payloads, payloads_append c.hash (d :: ds) fs, List.getLast?_cons_cons,
      List.getLast?_cons]
    rfl

/-- The texts hashed in recording these calls, and in verifying a log. -/
def hashed (sha256 : String → String) (calls : List Params) (entries : List Entry) : List String :=
  payloads "0" (history sha256 calls) ++ payloads "0" entries

/-- **The log is linked to `0` as long as nothing was dropped, and to a digest from then on.** -/
theorem linked_recent (hsha : ∀ data, IsDigest (sha256 data)) (calls : List Params) :
    ∃ p, Linked sha256 p (recent (history sha256 calls)) ∧
      payloads p (recent (history sha256 calls)) ⊆ payloads "0" (history sha256 calls) ∧
      (calls.length ≤ MAX_ENTRIES → p = "0") ∧ (MAX_ENTRIES < calls.length → IsDigest p) := by
  obtain ⟨pre, hpre, hsplit⟩ : ∃ pre : List Entry, pre.length = calls.length - MAX_ENTRIES ∧
      history sha256 calls = pre ++ recent (history sha256 calls) := by
    refine ⟨(history sha256 calls).take (calls.length - MAX_ENTRIES), ?_, ?_⟩
    · rw [List.length_take, length_history]
      omega
    · rw [recent, length_history, List.take_append_drop]
  have hlinked : Linked sha256 "0" (history sha256 calls) := linked_history calls
  have hdigest : ∀ d ∈ pre, IsDigest d.hash := fun d hd =>
    isDigest_of_linked hsha hlinked d (by rw [hsplit]; exact List.mem_append_left _ hd)
  rw [hsplit, linked_append] at hlinked
  refine ⟨_, hlinked.2, ?_, fun hle => ?_, fun htrim => ?_⟩
  · conv_rhs => rw [hsplit, payloads_append]
    exact List.subset_append_right _ _
  · rw [List.length_eq_zero_iff.mp (hpre.trans (Nat.sub_eq_zero_of_le hle))]
    rfl
  · have hne : pre ≠ [] := List.ne_nil_of_length_pos (by omega)
    rw [List.getLast?_eq_some_getLast hne]
    exact hdigest _ (List.getLast_mem hne)

/-- **An untouched log verifies as long as at most `MAX_ENTRIES` entries have been recorded, and,
for a hash function without collisions, only as long.** -/
theorem verify_after_iff (sha256 : String → String) (calls : List Params) :
    (calls.length ≤ MAX_ENTRIES →
      (verify sha256 (after sha256 calls).entries).valid = true) ∧
    ((∀ data, IsDigest (sha256 data)) →
      Collisionless sha256 (hashed sha256 calls (after sha256 calls).entries) →
        (verify sha256 (after sha256 calls).entries).valid = true →
          calls.length ≤ MAX_ENTRIES) := by
  have hpos := MAX_ENTRIES_pos
  rw [verify_valid, after_eq]
  refine ⟨fun hle => ?_, fun hsha hno hlinked => ?_⟩
  · rw [recent, length_history, Nat.sub_eq_zero_of_le hle, List.drop_zero]
    exact linked_history calls
  · by_contra htrim
    obtain ⟨p, hp, hsub, -, hdigest⟩ := linked_recent hsha calls
    have hpd : IsDigest p := hdigest (by omega)
    obtain ⟨e, es, hrecent⟩ : ∃ e es, recent (history sha256 calls) = e :: es := by
      refine List.exists_cons_of_ne_nil fun hnil => ?_
      have hlen := congrArg List.length hnil
      rw [length_recent, List.length_nil] at hlen
      omega
    rw [hrecent] at hno hlinked hp hsub
    have hsame : payload "0" e.toFields = payload p e.toFields :=
      hno _ (List.mem_append_right _ (List.mem_cons_self ..)) _
        (List.mem_append_left _ (hsub (List.mem_cons_self ..))) (hlinked.1.trans hp.1.symm)
    exact ne_zero_of_isDigest hpd
      (payload_injective unbraced_zero (unbraced_of_isDigest hpd) hsame).1.symm

end Retention

namespace Sample

def deposit : Params where
  id := "c2d3"
  timestamp := "2026-01-01T00:00:00.000Z"
  action := "DEPOSIT"
  actor := "GALICE"
  status := "success"
  txHash := none
  ledger := none
  amount := some "100"
  assetAddress := none
  ip := none
  beforeState := none
  afterState := none

/-- The payload of the first entry, when the first call is this one. -/
def first : Hashed where
  text := payload "0" (entryOf sha256 "0" 1 deposit).toFields
  hash := "bddfd20b5f08f843cbd24738d25e8c909fcf275367821f1f9acb5b2ecb8415fe"
  sha256_eq := sha256_append_ofList (by decide +kernel)

/-- The payload of the second entry, when the second call is the same. -/
def second : Hashed where
  text := payload first.hash (entryOf sha256 first.hash 2 deposit).toFields
  hash := "9af037e705b6d3730b66abe7cfed037d512ccf39882d019a657346dd32119874"
  sha256_eq := sha256_append_ofList (by decide +kernel)

/-- What `verify` takes for the payload of the second entry when it comes first. -/
def secondFromZero : Hashed where
  text := payload "0" (entryOf sha256 first.hash 2 deposit).toFields
  hash := "ab964fd291ec03e8c0a02be29d9b05b1ae80239fa891af18c001198d5674e811"
  sha256_eq := sha256_append_ofList (by decide +kernel)

theorem verify_after_deposit :
    (verify sha256 (after sha256 [deposit]).entries).valid = true ∧ 1 ≤ MAX_ENTRIES := by
  have hle : [deposit].length ≤ MAX_ENTRIES := MAX_ENTRIES_pos
  have hvalid := (verify_after_iff sha256 [deposit]).1 hle
  refine ⟨hvalid, (verify_after_iff sha256 [deposit]).2 isDigest_sha256 ?_ hvalid⟩
  rw [after_eq, recent, length_history, Nat.sub_eq_zero_of_le hle, List.drop_zero]
  intro s hs t ht _
  simp only [hashed, history, historyFrom, payloads, List.cons_append, List.nil_append,
    List.mem_cons, List.not_mem_nil, or_false, or_self] at hs ht
  rw [hs, ht]

/-- The log of one deposit after the other, one more than are kept, does not verify. -/
theorem overfull_log_invalid :
    ¬ ∀ calls : List Params, (verify sha256 (after sha256 calls).entries).valid = true := by
  intro hall
  have hvalid := hall (deposit :: deposit :: List.replicate 9999 deposit)
  have hdrop : (deposit :: deposit :: List.replicate 9999 deposit).length - MAX_ENTRIES = 1 := by
    rw [List.length_cons, List.length_cons, List.length_replicate]
    unfold MAX_ENTRIES
    rfl
  have hfirst : (entryOf sha256 "0" 1 deposit).hash = first.hash := first.sha256_eq
  rw [verify_valid, after_eq, recent, length_history, hdrop, history, historyFrom, historyFrom,
    hfirst] at hvalid
  have hsame : secondFromZero.hash = second.hash :=
    secondFromZero.sha256_eq.symm.trans (hvalid.1.trans second.sha256_eq)
  exact absurd hsame (by decide)

end Sample

end

end StellarLend.AuditLog
