import StellarLend.AuditLog.Service

/-!
# AuditLog/Tampering — which alterations of a log are noticed

The list of names given to `JSON.stringify` is applied at every depth, so of a state only the
members named like a key of its entry are hashed.  Two entries hash alike exactly if they are
`Alike`, and an alteration that keeps the last hash, or changes nothing else, goes unnoticed exactly
if it leaves every entry alike — or cannot be told from the damage that retention does.
-/

namespace StellarLend.AuditLog

open Foundations AuditLogService

/-! ## Entries that hash alike -/

/-- What a value of a field is printed from: no key and an undefined one are the same. -/
def Property.plain {α : Type} (p : Property α) : Property α := .ofOption p.value

theorem Property.plain_eq_iff {α : Type} {p q : Property α} :
    p.plain = q.plain ↔ p.value = q.value := by
  cases p <;> cases q <;> simp [Property.plain, Property.value, Property.ofOption]

/-- An entry's values without the two states. -/
def Fields.bare (f : Fields) : Fields :=
  { f with
    txHash := f.txHash.plain
    ledger := f.ledger.plain
    amount := f.amount.plain
    assetAddress := f.assetAddress.plain
    ip := f.ip.plain
    beforeState := .absent
    afterState := .absent }

/-- What is printed of a state: at every depth, the members that are named like keys of the
entry. -/
def Fields.keptState (f : Fields) (s : Property State) : Option Json :=
  s.value.map fun ms => Json.prune f.names (.obj ms)

/-- The entries differ in nothing but keys without a value, and members of the two states that are
not printed. -/
def Alike (e e' : Entry) : Prop :=
  e.bare = e'.bare ∧ e.keptState e.beforeState = e'.keptState e'.beforeState ∧
    e.keptState e.afterState = e'.keptState e'.afterState ∧ e.hash = e'.hash

theorem prune_text {keys keys' : List String} {a b : Option String} :
    (a.map Json.str).map (Json.prune keys) = (b.map Json.str).map (Json.prune keys') ↔ a = b := by
  cases a <;> cases b <;> simp [Json.prune]

theorem prune_number {keys keys' : List String} {a b : Option Number} :
    (a.map Json.num).map (Json.prune keys) = (b.map Json.num).map (Json.prune keys') ↔ a = b := by
  cases a <;> cases b <;> simp [Json.prune]

theorem Fields.prune_state (f : Fields) (s : Property State) :
    (s.value.map Json.obj).map (Json.prune f.names) = f.keptState s := Option.map_map ..

/-- A field that is no key has no value. -/
theorem Property.value_eq_none {α β : Type} {p : Property α} {g : α → β} (h : p.owned = false) :
    p.value.map g = none := by
  cases p with
  | absent => rfl
  | undefined => cases h
  | is => cases h

theorem Fields.get_eq_none {f : Fields} {k : String} (hk : k ∈ fieldNames)
    (h : f.owns k = false) : f.get k = none := by
  simp only [fieldNames, List.mem_cons, List.not_mem_nil, or_false] at hk
  rcases hk with rfl | rfl | rfl | rfl | rfl | rfl | rfl | rfl | rfl | rfl | rfl | rfl | rfl |
    rfl <;> first | exact Property.value_eq_none h | cases h

theorem forall_fieldNames {P : String → Prop} : (∀ k ∈ fieldNames, P k) ↔
    P "action" ∧ P "actor" ∧ P "afterState" ∧ P "amount" ∧ P "assetAddress" ∧ P "beforeState" ∧
      P "id" ∧ P "ip" ∧ P "ledger" ∧ P "prevHash" ∧ P "sequence" ∧ P "status" ∧ P "timestamp" ∧
        P "txHash" := by
  simp only [fieldNames, List.forall_mem_cons, List.not_mem_nil, false_imp_iff, implies_true,
    and_true]

/-- **Two entries' fields are printed alike exactly if they differ only in keys without a value and
in members of states that are not printed.** -/
theorem stringify_eq_iff {f g : Fields} :
    Json.stringifyObject f.names f.get = Json.stringifyObject g.names g.get ↔
      f.bare = g.bare ∧ f.keptState f.beforeState = g.keptState g.beforeState ∧
        f.keptState f.afterState = g.keptState g.afterState := by
  have hprint := Json.stringifyObject_filter_eq_iff (fun _ hk => f.get_eq_none hk)
    (fun _ hk => g.get_eq_none hk)
  rw [← Fields.names, ← Fields.names] at hprint
  rw [hprint, forall_fieldNames]
  simp only [Fields.get, prune_text, prune_number, Fields.prune_state, Option.map_some, Json.prune,
    Option.some.injEq, Json.str.injEq, Json.num.injEq, Fields.bare, Fields.mk.injEq, true_and,
    Property.plain_eq_iff]
  constructor
  · rintro ⟨haction, hactor, hafter, hamount, hasset, hbefore, hid, hip, hledger, hprev, hseq,
      hstatus, htime, htx⟩
    exact ⟨⟨hid, hseq, htime, haction, hactor, hstatus, htx, hledger, hamount, hasset, hip, hprev⟩,
      hbefore, hafter⟩
  · rintro ⟨⟨hid, hseq, htime, haction, hactor, hstatus, htx, hledger, hamount, hasset, hip, hprev⟩,
      hbefore, hafter⟩
    exact ⟨haction, hactor, hafter, hamount, hasset, hbefore, hid, hip, hledger, hprev, hseq,
      hstatus, htime, htx⟩

/-! ## Alterations -/

/-- Another log is put in the place of this one: one of the same length that ends in the same hash,
or this one with another last hash. -/
def Altered (log log' : List Entry) : Prop :=
  log' ≠ log ∧ log'.length = log.length ∧ (lastHash log' = lastHash log ∨
    ∃ pre e hash, log = pre ++ [e] ∧ log' = pre ++ [{ e with hash }])

theorem lastHash_append_cons (pre : List Entry) (e : Entry) (post : List Entry) :
    lastHash (pre ++ e :: post) = lastHash (e :: post) := by
  rw [lastHash, lastHash, List.getLast?_append_of_ne_nil _ (List.cons_ne_nil _ _)]

/-- To change fields of one entry but for its hash, or its hash alone, is such an alteration. -/
theorem altered_of_entry (pre post : List Entry) {e e' : Entry} (hne : e' ≠ e)
    (h : e'.hash = e.hash ∨ e'.toFields = e.toFields) :
    Altered (pre ++ e :: post) (pre ++ e' :: post) := by
  refine ⟨fun he => hne ?_, by simp, ?_⟩
  · exact (List.cons.inj (List.append_cancel_left he)).1
  · rw [lastHash_append_cons, lastHash_append_cons]
    cases post with
    | cons d ds => exact .inl rfl
    | nil =>
      refine h.imp (fun hhash => ?_) fun hfields => ⟨pre, e, e'.hash, rfl, ?_⟩
      · rw [lastHash, lastHash, List.getLast?_singleton, List.getLast?_singleton, Option.map_some,
          Option.map_some, hhash]
      · rw [← hfields]

section Tampering

variable {sha256 : String → String}

/-! ## What linked logs have in common -/

/-- Entries that are alike can take each other's places. -/
theorem linked_of_alike : ∀ {p : String} {es es' : List Entry}, List.Forall₂ Alike es es' →
    Linked sha256 p es → Linked sha256 p es'
  | _, _, _, .nil, _ => trivial
  | p, _, _, .cons (a := e) (b := e') he hes, hl => by
    obtain ⟨hbare, hbefore, hafter, hhash⟩ := he
    have hpayload : payload p e.toFields = payload p e'.toFields :=
      congrArg (p ++ ·) (stringify_eq_iff.mpr ⟨hbare, hbefore, hafter⟩)
    refine ⟨?_, ?_⟩
    · rw [hashEntry, ← hpayload, ← hhash]
      exact hl.1
    · rw [← hhash]
      exact linked_of_alike hes hl.2

/-- **Two linked logs of one length that end in one hash start from one hash, and are alike**, where
no two of the texts hashed collide. -/
theorem alike_of_linked (hsha : ∀ data, IsDigest (sha256 data)) {texts : List String}
    (hno : Collisionless sha256 texts) : ∀ {p p' : String} {es es' : List Entry},
    Unbraced p → Unbraced p' → Linked sha256 p es → Linked sha256 p' es' →
      payloads p es ⊆ texts → payloads p' es' ⊆ texts → es ≠ [] → es'.length = es.length →
        lastHash es' = lastHash es → p = p' ∧ List.Forall₂ Alike es es'
  | p, p', e :: es, e' :: es', hp, hp', hl, hl', hsub, hsub', _, hlen, hlast => by
    have hrest : e.hash = e'.hash ∧ List.Forall₂ Alike es es' := by
      cases es with
      | nil =>
        obtain rfl : es' = [] := by simpa using hlen
        exact ⟨Option.some.inj (by simpa [lastHash] using hlast.symm), .nil⟩
      | cons d ds =>
        obtain ⟨d', ds', rfl⟩ : ∃ d' ds', es' = d' :: ds' := by
          refine List.exists_cons_of_ne_nil fun hnil => ?_
          rw [hnil] at hlen
          simp at hlen
        have hdigest : IsDigest e.hash := hl.1 ▸ hsha _
        have hdigest' : IsDigest e'.hash := hl'.1 ▸ hsha _
        refine alike_of_linked hsha hno (unbraced_of_isDigest hdigest)
          (unbraced_of_isDigest hdigest') hl.2 hl'.2 (fun t ht => hsub ?_) (fun t ht => hsub' ?_)
          (List.cons_ne_nil _ _) (by simpa using hlen) (by simpa [lastHash] using hlast)
        · exact List.mem_cons_of_mem _ ht
        · exact List.mem_cons_of_mem _ ht
    have hpayload : payload p e.toFields = payload p' e'.toFields :=
      hno _ (hsub (List.mem_cons_self ..)) _ (hsub' (List.mem_cons_self ..))
        (hl.1.trans (hrest.1.trans hl'.1.symm))
    obtain ⟨hpp, hprint⟩ := payload_injective hp hp' hpayload
    obtain ⟨hbare, hbefore, hafter⟩ := stringify_eq_iff.mp hprint
    exact ⟨hpp, .cons ⟨hbare, hbefore, hafter, hrest.1⟩ hrest.2⟩

/-! ## Which alterations are noticed -/

/-- Another last hash is not what the last entry gives. -/
theorem not_linked_of_last {p : String} {pre : List Entry} {e : Entry} {hash : String}
    (hne : hash ≠ e.hash) (hl : Linked sha256 p (pre ++ [e])) :
    ¬ Linked sha256 p (pre ++ [{ e with hash }]) := by
  intro hl'
  rw [linked_append] at hl hl'
  exact hne (hl'.2.1.symm.trans hl.2.1)

/-- **An altered log is linked to `0` exactly if nothing had been dropped and all entries are
alike.** -/
theorem linked_altered_iff (hsha : ∀ data, IsDigest (sha256 data)) {calls : List Params}
    {log' : List Entry} (haltered : Altered (recent (history sha256 calls)) log')
    (hno : Collisionless sha256 (hashed sha256 calls log')) :
    Linked sha256 "0" log' ↔ calls.length ≤ MAX_ENTRIES ∧
      List.Forall₂ Alike (recent (history sha256 calls)) log' := by
  obtain ⟨p, hl, hsub, hzero, hdigest⟩ := linked_recent hsha calls
  have hp : Unbraced p := by
    rcases Nat.lt_or_ge MAX_ENTRIES calls.length with htrim | hle
    · exact unbraced_of_isDigest (hdigest htrim)
    · exact hzero hle ▸ unbraced_zero
  have hkept : p = "0" → calls.length ≤ MAX_ENTRIES := fun h =>
    Nat.le_of_not_lt fun htrim => ne_zero_of_isDigest (hdigest htrim) h
  obtain ⟨hne, hlen, hlast⟩ := haltered
  constructor
  · intro hl'
    rcases hlast with hlast | ⟨pre, e, hash, hlog, rfl⟩
    · have hnil : recent (history sha256 calls) ≠ [] := by
        intro hnil
        rw [hnil] at hne hlen
        exact hne (List.length_eq_zero_iff.mp hlen)
      obtain ⟨hstart, halike⟩ := alike_of_linked hsha hno hp unbraced_zero hl hl'
        (fun t ht => List.mem_append_left _ (hsub ht)) (fun t ht => List.mem_append_right _ ht)
        hnil hlen hlast
      exact ⟨hkept hstart, halike⟩
    · have hlength := congrArg List.length hlog
      rw [length_recent] at hlength
      rw [hlog] at hl hne hsub
      have hhash : hash ≠ e.hash := by
        rintro rfl
        exact hne rfl
      rw [payloads_append] at hsub
      rw [hashed, payloads_append] at hno
      have hstart : p = "0" := by
        cases pre with
        | nil =>
          have htwo : 1 < MAX_ENTRIES := by
            unfold MAX_ENTRIES
            decide
          rw [List.length_append, List.length_nil, List.length_singleton] at hlength
          exact hzero (by omega)
        | cons d ds =>
          exact (alike_of_linked hsha hno hp unbraced_zero (linked_append.mp hl).1
            (linked_append.mp hl').1
            (fun t ht => List.mem_append_left _ (hsub (List.mem_append_left _ ht)))
            (fun t ht => List.mem_append_right _ (List.mem_append_left _ ht))
            (List.cons_ne_nil _ _) rfl rfl).1
      rw [hstart] at hl
      exact absurd hl' (not_linked_of_last hhash hl)
  · rintro ⟨hle, halike⟩
    rw [hzero hle] at hl
    exact linked_of_alike halike hl

/-- **An alteration is noticed exactly if an entry has been dropped, or some entry is not alike**:
it has another hash, or differs in the value of a field other than the two states, or in what is
left of a state without the members that are not named like keys of its entry. -/
theorem tampering_noticed_iff (sha256 : String → String)
    (hsha : ∀ data, IsDigest (sha256 data)) (calls : List Params) (log' : List Entry)
    (haltered : Altered (after sha256 calls).entries log')
    (hno : Collisionless sha256 (hashed sha256 calls log')) :
    (verify sha256 log').valid = false ↔
      MAX_ENTRIES < calls.length ∨ ¬ List.Forall₂ Alike (after sha256 calls).entries log' := by
  rw [after_eq] at haltered ⊢
  rw [← Bool.not_eq_true, verify_valid, linked_altered_iff hsha haltered hno, not_and_or,
    Nat.not_le]

theorem entries_single (p : Params) :
    (after sha256 [p]).entries = [entryOf sha256 "0" 1 p] := by
  have hle : [p].length ≤ MAX_ENTRIES := MAX_ENTRIES_pos
  rw [after_eq, recent, length_history, Nat.sub_eq_zero_of_le hle, List.drop_zero]
  rfl

end Tampering

namespace Sample

/-- The deposit with another amount in its entry. -/
def inflated : Entry := { entryOf sha256 "0" 1 deposit with amount := .is "900" }

/-- What `verify` takes for its payload. -/
def inflatedFirst : Hashed where
  text := payload "0" inflated.toFields
  hash := "3497f3f14369062b5cb04d3c8ca12dd538f69a74f8c57b6e18d8e5cf497601b7"
  sha256_eq := sha256_append_ofList (by decide +kernel)

theorem hashed_inflated : Collisionless sha256 (hashed sha256 [deposit] [inflated]) := by
  have hfirst : sha256 (payload "0" (entryOf sha256 "0" 1 deposit).toFields) = first.hash :=
    first.sha256_eq
  have hother : sha256 (payload "0" inflated.toFields) ≠ first.hash := fun h =>
    absurd (inflatedFirst.sha256_eq.symm.trans h) (by decide)
  intro s hs t ht he
  simp only [hashed, history, historyFrom, payloads, List.cons_append, List.nil_append,
    List.mem_cons, List.not_mem_nil, or_false] at hs ht
  rcases hs with rfl | rfl <;> rcases ht with rfl | rfl
  · rfl
  · exact absurd (he.symm.trans hfirst) hother
  · exact absurd (he.trans hfirst) hother
  · rfl

/-- Another amount is noticed. -/
theorem inflated_noticed : (verify sha256 [inflated]).valid = false := by
  have hamount : inflated.amount ≠ (entryOf sha256 "0" 1 deposit).amount := by decide
  refine (tampering_noticed_iff sha256 isDigest_sha256 [deposit] [inflated] ?_
    hashed_inflated).mpr (.inr fun halike => ?_)
  · rw [entries_single]
    exact altered_of_entry [] [] (fun h => hamount (congrArg (fun e => e.amount) h)) (.inl rfl)
  · rw [entries_single] at halike
    cases halike with
    | cons he _ => exact hamount (congrArg Fields.amount he.1).symm

/-- A pause, with the state before and after it. -/
def pause : Params :=
  { deposit with
    action := "PROTOCOL_PAUSED"
    actor := "SYSTEM"
    amount := none
    beforeState := some [("paused", .bool false)]
    afterState := some [("paused", .bool true), ("reason", .str "manual")] }

/-- The pause with another state before it. -/
def repainted : Entry :=
  { entryOf sha256 "0" 1 pause with beforeState := .is [("paused", .bool true)] }

theorem alike_repainted : Alike (entryOf sha256 "0" 1 pause) repainted := by
  refine ⟨rfl, ?_, rfl, rfl⟩
  simp [repainted, entryOf, pause, Fields.keptState, Fields.names, Fields.owns, Property.owned,
    Property.ofOption, Property.value, deposit, Json.prune, Json.pruneMembers, Json.select,
    fieldNames]

/-- Another value inside a state is not. -/
theorem repainted_unnoticed : ¬ ∀ (calls : List Params) (log' : List Entry),
    Altered (after sha256 calls).entries log' → Collisionless sha256 (hashed sha256 calls log') →
      (verify sha256 log').valid = false := by
  intro hall
  have hvalid : (verify sha256 [repainted]).valid = true :=
    verify_valid.mpr (linked_of_alike (.cons alike_repainted .nil) ⟨rfl, trivial⟩)
  have hsame : payload "0" (entryOf sha256 "0" 1 pause).toFields =
      payload "0" repainted.toFields := by
    obtain ⟨hbare, hbefore, hafter, -⟩ := alike_repainted
    exact congrArg ("0" ++ ·) (stringify_eq_iff.mpr ⟨hbare, hbefore, hafter⟩)
  rw [hall [pause] [repainted] ?_ ?_] at hvalid
  · cases hvalid
  · rw [entries_single]
    refine altered_of_entry [] [] (fun h => ?_) (.inl rfl)
    have hstate := congrArg (fun e => e.beforeState) h
    simp [repainted, entryOf, pause, Property.ofOption] at hstate
  · intro s hs t ht _
    simp only [hashed, history, historyFrom, payloads, List.cons_append, List.nil_append,
      List.mem_cons, List.not_mem_nil, or_false, hsame, or_self] at hs ht
    rw [hs, ht]

end Sample

end StellarLend.AuditLog
