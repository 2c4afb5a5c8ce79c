import Mathlib.Data.List.Dedup
import StellarLend.Foundations.Journal
import StellarLend.Foundations.Keyed
import StellarLend.Foundations.Run

/-!
# Foundations/ReadThrough — a store behind a cache

    call ──► ask ──┬── hit ─────────────────────────► value
                   └── miss ──► read ──► put ───────► value
                                 │        │
                  change ──►   store    cache   ◄── drop, sweep

A call asks the cache, and at a miss the store; what the store answers is put into the cache for a
while.  Each arrow is a step of its own, and steps of any calls interleave.  Keys are dropped one by
one, or swept: a sweep lists keys, of which it finds at least those that last from its begin to the
end of the listing, and then deletes what it found.

A hit is what the store has answered to a call for the same key, and no drop and no whole sweep came
after it was put (`warranted`).  Between its reading and its putting, though, one may have.
-/

namespace Foundations.ReadThrough

/-! ## The parts -/

/-- What requests are: `answer` is what the store has for one, for each way in which the store may
list what it finds. -/
structure Spec (ι κ δ χ ν : Type) where
  key : ι → κ
  ttl : ι → ℕ
  answer : ι → δ → χ → Option ν

/-- What is in the cache.  `readAt` and `putAt` are places in the journal, which no step reads. -/
structure Entry (ι ν : Type) where
  request : ι
  value : ν
  expiresAt : ℕ
  readAt : ℕ
  putAt : ℕ

/-- How far a call is. -/
inductive Phase (ι ν : Type) where
  | missed (q : ι)
  | held (q : ι) (value : ν) (readAt : ℕ)
  | left

inductive Stage where
  | listing
  | found
  | done
  deriving DecidableEq

/-- A sweep of the keys of a pattern: `keys` are those that lasted so far, or those it found. -/
structure Sweep (κ : Type) where
  pattern : κ → Bool
  startedAt : ℕ
  stage : Stage
  keys : List κ

inductive Event (ι κ δ ν : Type) where
  | hit (call : ℕ) (q : ι) (value : ν) (time : ℕ)
  | read (call : ℕ) (q : ι) (value : ν)
  | put (call : ℕ) (q : ι) (value : ν) (time : ℕ)
  | dropped (key : κ)
  | began (sweep : ℕ) (pattern : κ → Bool)
  | ended (sweep : ℕ)
  | changed (store : δ)

variable {ι κ δ χ ν : Type}

def Spec.keyOf (spec : Spec ι κ δ χ ν) (e : Entry ι ν) : κ := spec.key e.request

/-! ## What the journal says -/

variable {spec : Spec ι κ δ χ ν} {store : δ} {log more : List (Event ι κ δ ν)} {i j call : ℕ}
  {q : ι} {v : ν} {k : κ}

/-- The store at the end of a journal. -/
def storeAt (store : δ) (log : List (Event ι κ δ ν)) : δ :=
  log.foldl (fun store event =>
    match event with
    | .changed store' => store'
    | _ => store) store

/-- The `i`-th entry is what the store, as it was then, answered to a call. -/
structure ReadAt (spec : Spec ι κ δ χ ν) (store : δ) (log : List (Event ι κ δ ν)) (i call : ℕ)
    (q : ι) (v : ν) : Prop where
  noted : log[i]? = some (.read call q v)
  answered : ∃ choice, spec.answer q (storeAt store (log.take i)) choice = some v

/-- A call read the value at `i` and put it at `j`. -/
structure PutAt (spec : Spec ι κ δ χ ν) (store : δ) (log : List (Event ι κ δ ν)) (i j call : ℕ)
    (q : ι) (v : ν) (time : ℕ) : Prop where
  read : ReadAt spec store log i call q v
  put : log[j]? = some (.put call q v time)
  lt : i < j

/-- No drop of the key, and no whole sweep over it, comes after `j`. -/
structure KeptSince (log : List (Event ι κ δ ν)) (j : ℕ) (k : κ) : Prop where
  undropped : ∀ d, j < d → log[d]? ≠ some (.dropped k)
  unswept : ∀ (b d n : ℕ) (p : κ → Bool), j < b → log[b]? = some (.began n p) →
    log[d]? = some (.ended n) → p k = false

/-- What stands behind an entry of the journal. -/
def Warranted (spec : Spec ι κ δ χ ν) (store : δ) (past : List (Event ι κ δ ν)) :
    Event ι κ δ ν → Prop
  | .hit _ q v time => ∃ i j call q' put, PutAt spec store past i j call q' v put ∧
      spec.key q' = spec.key q ∧ time ≤ put + spec.ttl q' ∧ KeptSince past j (spec.key q)
  | .read _ q v => ∃ choice, spec.answer q (storeAt store past) choice = some v
  | .put call q v _ => ∃ i, ReadAt spec store past i call q v
  | _ => True

theorem lt_of_getElem? {x : Event ι κ δ ν} (h : log[i]? = some x) : i < log.length :=
  (List.getElem?_eq_some_iff.mp h).1

theorem getElem?_append_of_some {x : Event ι κ δ ν} (h : log[i]? = some x) :
    (log ++ more)[i]? = some x := by
  rw [List.getElem?_append_left (lt_of_getElem? h), h]

theorem ReadAt.append (h : ReadAt spec store log i call q v) :
    ReadAt spec store (log ++ more) i call q v where
  noted := getElem?_append_of_some h.noted
  answered := by
    rw [List.take_append_of_le_length (lt_of_getElem? h.noted).le]
    exact h.answered

theorem PutAt.append {time : ℕ} (h : PutAt spec store log i j call q v time) :
    PutAt spec store (log ++ more) i j call q v time :=
  ⟨h.read.append, getElem?_append_of_some h.put, h.lt⟩

/-! ## The state -/

structure State (ι κ δ ν : Type) where
  now : ℕ
  store : δ
  entries : List (Entry ι ν)
  calls : ℕ → Option (Phase ι ν)
  sweeps : ℕ → Option (Sweep κ)
  journal : List (Event ι κ δ ν)

variable [DecidableEq κ] {s s' : State ι κ δ ν} {e : Entry ι ν} {n : ℕ}

namespace State

def init (store : δ) : State ι κ δ ν := ⟨0, store, [], fun _ => none, fun _ => none, []⟩

/-- What the cache has under a key. -/
def get (spec : Spec ι κ δ χ ν) (s : State ι κ δ ν) (key : κ) : Option (Entry ι ν) :=
  (findKey spec.keyOf s.entries key).filter fun e => s.now ≤ e.expiresAt

def enter (s : State ι κ δ ν) (call : ℕ) (phase : Phase ι ν) : State ι κ δ ν :=
  { s with calls := Function.update s.calls call (some phase) }

def note (s : State ι κ δ ν) (event : Event ι κ δ ν) : State ι κ δ ν :=
  { s with journal := s.journal ++ [event] }

def setSweep (s : State ι κ δ ν) (n : ℕ) (w : Sweep κ) : State ι κ δ ν :=
  { s with sweeps := Function.update s.sweeps n (some w) }

/-- Keep the entries whose keys are not taken out. -/
def delete (spec : Spec ι κ δ χ ν) (s : State ι κ δ ν) (out : κ → Bool) : State ι κ δ ν :=
  { s with entries := s.entries.filter fun e => !out (spec.keyOf e) }

/-- The keys of a listing that are there still. -/
def Sweep.settle (get : κ → Option (Entry ι ν)) (w : Sweep κ) : Sweep κ :=
  if w.stage = .listing then { w with keys := w.keys.filter fun k => (get k).isSome } else w

def settle (spec : Spec ι κ δ χ ν) (s : State ι κ δ ν) : State ι κ δ ν :=
  { s with sweeps := fun n => (s.sweeps n).map (Sweep.settle (s.get spec)) }

end State

/-! ## Steps -/

inductive Op (ι κ δ χ : Type) where
  | advance (time : ℕ)
  | change (store : δ)
  | ask (call : ℕ) (q : ι)
  | read (call : ℕ) (choice : χ)
  | put (call : ℕ)
  | fail (call : ℕ)
  | drop (key : κ)
  | beginSweep (n : ℕ) (pattern : κ → Bool)
  | list (n : ℕ) (found : List κ)
  | endSweep (n : ℕ)

namespace State

/-- What an operation does; `none` if it is not possible. -/
def apply (spec : Spec ι κ δ χ ν) (op : Op ι κ δ χ) (s : State ι κ δ ν) : Option (State ι κ δ ν) :=
  match op with
  | .advance time => if s.now ≤ time then some { s with now := time } else none
  | .change store => some ({ s with store := store }.note (.changed store))
  | .ask call q =>
    match s.calls call with
    | some _ => none
    | none =>
      match s.get spec (spec.key q) with
      | some e => some ((s.enter call .left).note (.hit call q e.value s.now))
      | none => some (s.enter call (.missed q))
  | .read call choice =>
    match s.calls call with
    | some (.missed q) =>
      match spec.answer q s.store choice with
      | some v =>
        some ((s.enter call (.held q v s.journal.length)).note (.read call q v))
      | none => some (s.enter call .left)
    | _ => none
  | .put call =>
    match s.calls call with
    | some (.held q v readAt) =>
      if spec.ttl q = 0 then none
      else
        some ({ s.enter call .left with
          entries := upsert spec.keyOf ⟨q, v, s.now + spec.ttl q, readAt, s.journal.length⟩
            s.entries }.note (.put call q v s.now))
    | _ => none
  | .fail call => some (s.enter call .left)
  | .drop key => some ((s.delete spec fun k => k = key).note (.dropped key))
  | .beginSweep n pattern =>
    match s.sweeps n with
    | some _ => none
    | none =>
      some ((s.setSweep n ⟨pattern, s.journal.length, .listing,
        (s.entries.map spec.keyOf).filter pattern⟩).note (.began n pattern))
  | .list n found =>
    match s.sweeps n with
    | some w =>
      if w.stage = .listing ∧ w.keys ⊆ found ∧ ∀ k ∈ found, w.pattern k then
        some (s.setSweep n { w with stage := .found, keys := found })
      else none
    | none => none
  | .endSweep n =>
    match s.sweeps n with
    | some w =>
      if w.stage = .found then
        some (((s.delete spec fun k => k ∈ w.keys).setSweep n { w with stage := .done }).note
          (.ended n))
      else none
    | none => none

def step (spec : Spec ι κ δ χ ν) (op : Op ι κ δ χ) (s : State ι κ δ ν) : Option (State ι κ δ ν) :=
  (s.apply spec op).map (settle spec)

/-- The state after some operations. -/
def after (spec : Spec ι κ δ χ ν) (store : δ) (ops : List (Op ι κ δ χ)) : State ι κ δ ν :=
  run (step spec) (init store) ops

end State

/-! ## What the operations note -/

namespace Op

/-- Of a call's steps it depends on the state what they note. -/
def ofCall : Op ι κ δ χ → Bool
  | .ask .. | .read .. | .put .. => true
  | _ => false

def noted : Op ι κ δ χ → List (Event ι κ δ ν)
  | .change store => [.changed store]
  | .drop key => [.dropped key]
  | .beginSweep n pattern => [.began n pattern]
  | .endSweep n => [.ended n]
  | _ => []

end Op

theorem State.step_noted {op : Op ι κ δ χ} (h : step spec op s = some s')
    (hop : op.ofCall = false) : s'.journal = s.journal ++ op.noted := by
  obtain ⟨t, ht, rfl⟩ := Option.map_eq_some_iff.mp h
  change t.journal = _
  cases op with
  | ask => cases hop
  | read => cases hop
  | put => cases hop
  | advance time =>
    rw [State.apply, Option.ite_none_right_eq_some, Option.some.injEq] at ht
    rw [← ht.2]
    exact (List.append_nil _).symm
  | change store =>
    cases ht
    rfl
  | fail call =>
    cases ht
    exact (List.append_nil _).symm
  | drop key =>
    cases ht
    rfl
  | beginSweep n pattern =>
    rw [State.apply] at ht
    split at ht
    next => cases ht
    next =>
      cases ht
      rfl
  | list n found =>
    rw [State.apply] at ht
    split at ht
    next =>
      rw [Option.ite_none_right_eq_some, Option.some.injEq] at ht
      rw [← ht.2]
      exact (List.append_nil _).symm
    next => cases ht
  | endSweep n =>
    rw [State.apply] at ht
    split at ht
    next =>
      rw [Option.ite_none_right_eq_some, Option.some.injEq] at ht
      rw [← ht.2]
      rfl
    next => cases ht

/-- **What operations that are of no call note one after the other.** -/
theorem State.chain_noted {ops : List (Op ι κ δ χ)} (h : chain (step spec) s ops = some s')
    (hops : ∀ op ∈ ops, op.ofCall = false) :
    s'.journal = s.journal ++ ops.flatMap Op.noted := by
  induction ops generalizing s with
  | nil =>
    obtain rfl := Option.some.inj h
    exact (List.append_nil _).symm
  | cons op ops ih =>
    obtain ⟨t, ht, h⟩ := Option.bind_eq_some_iff.mp h
    rw [ih h fun op hop => hops op (List.mem_cons_of_mem _ hop),
      step_noted ht (hops op List.mem_cons_self), List.flatMap_cons, List.append_assoc]

/-! ## What every state keeps -/

theorem State.get_key (h : s.get spec k = some e) : spec.keyOf e = k ∧ s.now ≤ e.expiresAt := by
  obtain ⟨hfind, hlive⟩ := Option.filter_eq_some_iff.mp h
  exact ⟨key_of_findKey hfind, of_decide_eq_true hlive⟩

omit [DecidableEq κ] in
theorem getElem?_append_iff {x : Event ι κ δ ν} {d : ℕ} : (log ++ more)[d]? = some x ↔
    log[d]? = some x ∨ log.length ≤ d ∧ more[d - log.length]? = some x := by
  rcases lt_or_ge d log.length with hlt | hge
  · rw [List.getElem?_append_left hlt]
    exact ⟨.inl, fun h => h.resolve_right fun hge => absurd hlt (not_lt.mpr hge.1)⟩
  · rw [List.getElem?_append_right hge]
    exact ⟨fun h => .inr ⟨hge, h⟩, fun h =>
      h.elim (fun hlt => absurd (lt_of_getElem? hlt) (not_lt.mpr hge)) And.right⟩

/-- What calls hold, they read. -/
def CallsSound (spec : Spec ι κ δ χ ν) (store : δ) (log : List (Event ι κ δ ν))
    (calls : ℕ → Option (Phase ι ν)) : Prop :=
  ∀ call q v i, calls call = some (.held q v i) → ReadAt spec store log i call q v

/-- What is in the cache was put there, and not dropped since. -/
structure CacheSound (spec : Spec ι κ δ χ ν) (store : δ) (log : List (Event ι κ δ ν))
    (get : κ → Option (Entry ι ν)) : Prop where
  put : ∀ k e, get k = some e → ∃ call time,
    PutAt spec store log e.readAt e.putAt call e.request e.value time ∧
      e.expiresAt = time + spec.ttl e.request
  undropped : ∀ k e, get k = some e → ∀ d, e.putAt < d → log[d]? ≠ some (.dropped k)

/-- Sweeps are in the journal, will delete what was there when they began, and then have. -/
structure SweepsSound (log : List (Event ι κ δ ν)) (sweeps : ℕ → Option (Sweep κ))
    (get : κ → Option (Entry ι ν)) : Prop where
  began : ∀ n w, sweeps n = some w → log[w.startedAt]? = some (.began n w.pattern)
  only : ∀ b n p, log[b]? = some (.began n p) → ∃ w, sweeps n = some w ∧ w.startedAt = b
  ended : ∀ n, Event.ended n ∈ log → ∃ w, sweeps n = some w ∧ w.stage = .done
  pending : ∀ n w, sweeps n = some w → w.stage ≠ .done → ∀ k e, get k = some e →
    w.pattern k = true → e.putAt < w.startedAt → k ∈ w.keys
  done : ∀ n w, sweeps n = some w → w.stage = .done → ∀ k e, get k = some e →
    w.pattern k = true → w.startedAt < e.putAt

/-- The journal tells the state. -/
structure Sound (spec : Spec ι κ δ χ ν) (store : δ) (s : State ι κ δ ν) : Prop where
  storeEq : s.store = storeAt store s.journal
  calls : CallsSound spec store s.journal s.calls
  cache : CacheSound spec store s.journal (s.get spec)
  sweeps : SweepsSound s.journal s.sweeps (s.get spec)
  warranted : Throughout (Warranted spec store) s.journal

theorem Sound.init (store : δ) : Sound spec store (State.init store : State ι κ δ ν) where
  storeEq := rfl
  calls := by rintro call q v i ⟨⟩
  cache := ⟨by rintro k e ⟨⟩, by rintro k e ⟨⟩⟩
  sweeps := ⟨by rintro n w ⟨⟩, by rintro b n p ⟨⟩, by rintro n ⟨⟩, by rintro n w ⟨⟩,
    by rintro n w ⟨⟩⟩
  warranted := throughout_nil

/-- **No drop and no whole sweep came after what is in the cache was put.** -/
theorem Sound.keptSince (h : Sound spec store s) (hget : s.get spec k = some e) :
    KeptSince s.journal e.putAt k where
  undropped := h.cache.undropped k e hget
  unswept b d n p hlt hbegan hended := by
    by_contra hp
    obtain ⟨w, hw, rfl⟩ := h.sweeps.only b n p hbegan
    obtain ⟨w', hw', hdone⟩ := h.sweeps.ended n (List.mem_of_getElem? hended)
    obtain rfl := Option.some.inj (hw.symm.trans hw')
    have hpattern := (h.sweeps.began n w hw).symm.trans hbegan
    cases hpattern
    exact absurd (h.sweeps.done n w hw hdone k e hget (by simpa using hp)) (not_lt.mpr hlt.le)

/-! ### Calls -/

section

variable {calls : ℕ → Option (Phase ι ν)} {get get' : κ → Option (Entry ι ν)}
  {sweeps : ℕ → Option (Sweep κ)} {phase : Phase ι ν}

omit [DecidableEq κ]

theorem CallsSound.append (h : CallsSound spec store log calls) :
    CallsSound spec store (log ++ more) calls :=
  fun call q v i hcall => (h call q v i hcall).append

/-- A call goes on. -/
theorem CallsSound.enter (h : CallsSound spec store log calls)
    (hphase : ∀ q v i, phase = .held q v i → ReadAt spec store log i call q v) :
    CallsSound spec store log (Function.update calls call (some phase)) := by
  intro call' q v i hcall
  by_cases heq : call' = call
  · subst heq
    rw [Function.update_self] at hcall
    exact hphase q v i (Option.some.inj hcall)
  · rw [Function.update_of_ne heq] at hcall
    exact h call' q v i hcall

/-! ### The cache -/

/-- Entries go, and the journal goes on without a drop of those that stay. -/
theorem CacheSound.mono (h : CacheSound spec store log get)
    (hget : ∀ k e, get' k = some e → get k = some e ∧ Event.dropped k ∉ more) :
    CacheSound spec store (log ++ more) get' where
  put k e hk := by
    obtain ⟨call, time, hput, hexpires⟩ := h.put k e (hget k e hk).1
    exact ⟨call, time, hput.append, hexpires⟩
  undropped k e hk d hd hdrop := by
    obtain ⟨hk, hmore⟩ := hget k e hk
    rcases getElem?_append_iff.mp hdrop with hdrop | ⟨-, hdrop⟩
    · exact h.undropped k e hk d hd hdrop
    · exact hmore (List.mem_of_getElem? hdrop)

/-- Entries go. -/
theorem CacheSound.shrink (h : CacheSound spec store log get)
    (hget : ∀ k e, get' k = some e → get k = some e) : CacheSound spec store log get' := by
  rw [← List.append_nil log]
  exact h.mono fun k e hk => ⟨hget k e hk, List.not_mem_nil⟩

/-- **A call puts what it holds.** -/
theorem CacheSound.putIn (h : CacheSound spec store log get)
    (hread : ReadAt spec store log i call q v) {time : ℕ}
    (hget : ∀ k e, get' k = some e → get k = some e ∨
      e = ⟨q, v, time + spec.ttl q, i, log.length⟩) :
    CacheSound spec store (log ++ [.put call q v time]) get' where
  put k e hk := by
    rcases hget k e hk with hk | rfl
    · obtain ⟨call, time, hput, hexpires⟩ := h.put k e hk
      exact ⟨call, time, hput.append, hexpires⟩
    · exact ⟨call, time, ⟨hread.append, by simp, lt_of_getElem? hread.noted⟩, rfl⟩
  undropped k e hk d hd hdrop := by
    rcases getElem?_append_iff.mp hdrop with hdrop | ⟨-, hdrop⟩
    · rcases hget k e hk with hk | rfl
      · exact h.undropped k e hk d hd hdrop
      · exact absurd (lt_of_getElem? hdrop) (not_lt.mpr hd.le)
    · cases List.mem_singleton.mp (List.mem_of_getElem? hdrop)

/-! ### Sweeps -/

/-- Entries go or are put, and the journal goes on without a sweep. -/
theorem SweepsSound.mono (h : SweepsSound log sweeps get)
    (hget : ∀ k e, get' k = some e → get k = some e ∨ e.putAt = log.length)
    (hbegan : ∀ n p, Event.began n p ∉ more) (hended : ∀ n, Event.ended n ∉ more) :
    SweepsSound (log ++ more) sweeps get' where
  began n w hw := getElem?_append_of_some (h.began n w hw)
  only b n p hb := by
    rcases getElem?_append_iff.mp hb with hb | ⟨-, hb⟩
    · exact h.only b n p hb
    · exact absurd (List.mem_of_getElem? hb) (hbegan n p)
  ended n hn := h.ended n ((List.mem_append.mp hn).resolve_right (hended n))
  pending n w hw hstage k e hk hp hlt := by
    rcases hget k e hk with hk | hnew
    · exact h.pending n w hw hstage k e hk hp hlt
    · exact absurd (lt_of_getElem? (h.began n w hw)) (not_lt.mpr (hnew ▸ hlt.le))
  done n w hw hstage k e hk hp := by
    rcases hget k e hk with hk | hnew
    · exact h.done n w hw hstage k e hk hp
    · exact hnew ▸ lt_of_getElem? (h.began n w hw)

/-- Entries go. -/
theorem SweepsSound.shrink (h : SweepsSound log sweeps get)
    (hget : ∀ k e, get' k = some e → get k = some e) : SweepsSound log sweeps get' := by
  rw [← List.append_nil log]
  exact h.mono (fun k e hk => .inl (hget k e hk)) (fun _ _ => List.not_mem_nil)
    fun _ => List.not_mem_nil

/-- A sweep goes on to another stage. -/
theorem SweepsSound.update {w : Sweep κ} {stage : Stage} {keys : List κ}
    (h : SweepsSound log sweeps get) (hw : sweeps n = some w) (hstage : w.stage ≠ .done)
    (hpending : stage ≠ .done → w.keys ⊆ keys)
    (hdone : stage = .done → ∀ k e, get k = some e → w.pattern k = true → w.startedAt < e.putAt) :
    SweepsSound log (Function.update sweeps n (some { w with stage, keys })) get where
  began m w' hm := by
    by_cases heq : m = n
    · subst heq
      rw [Function.update_self] at hm
      cases hm
      exact h.began m w hw
    · rw [Function.update_of_ne heq] at hm
      exact h.began m w' hm
  only b m p hb := by
    obtain ⟨w', hm, rfl⟩ := h.only b m p hb
    by_cases heq : m = n
    · subst heq
      obtain rfl := Option.some.inj (hw.symm.trans hm)
      rw [Function.update_self]
      exact ⟨_, rfl, rfl⟩
    · rw [Function.update_of_ne heq]
      exact ⟨w', hm, rfl⟩
  ended m hm := by
    obtain ⟨w', hw', hdone'⟩ := h.ended m hm
    by_cases heq : m = n
    · subst heq
      obtain rfl := Option.some.inj (hw.symm.trans hw')
      exact absurd hdone' hstage
    · rw [Function.update_of_ne heq]
      exact ⟨w', hw', hdone'⟩
  pending m w' hm hstage' k e hk hp hlt := by
    by_cases heq : m = n
    · subst heq
      rw [Function.update_self] at hm
      cases hm
      exact hpending hstage' (h.pending m w hw hstage k e hk hp hlt)
    · rw [Function.update_of_ne heq] at hm
      exact h.pending m w' hm hstage' k e hk hp hlt
  done m w' hm hstage' k e hk hp := by
    by_cases heq : m = n
    · subst heq
      rw [Function.update_self] at hm
      cases hm
      exact hdone hstage' k e hk hp
    · rw [Function.update_of_ne heq] at hm
      exact h.done m w' hm hstage' k e hk hp

/-- A sweep begins with what is there. -/
theorem SweepsSound.begin (h : SweepsSound log sweeps get) (w : Sweep κ) (hn : sweeps n = none)
    (hstart : w.startedAt = log.length) (hstage : w.stage = .listing)
    (hkeys : ∀ k e, get k = some e → w.pattern k = true → k ∈ w.keys) :
    SweepsSound (log ++ [.began n w.pattern]) (Function.update sweeps n (some w)) get where
  began m w' hm := by
    by_cases heq : m = n
    · subst heq
      rw [Function.update_self] at hm
      cases hm
      rw [hstart]
      simp
    · rw [Function.update_of_ne heq] at hm
      exact getElem?_append_of_some (h.began m w' hm)
  only b m p hb := by
    rcases getElem?_append_iff.mp hb with hb | ⟨hle, hb⟩
    · obtain ⟨w', hm, rfl⟩ := h.only b m p hb
      have heq : m ≠ n := fun heq => by
        rw [heq, hn] at hm
        cases hm
      exact ⟨w', by rw [Function.update_of_ne heq, hm], rfl⟩
    · have hlt := lt_of_getElem? hb
      obtain ⟨rfl, -⟩ := Event.began.inj (List.mem_singleton.mp (List.mem_of_getElem? hb))
      refine ⟨w, Function.update_self .., hstart.trans ?_⟩
      rw [List.length_singleton] at hlt
      omega
  ended m hm := by
    rcases List.mem_append.mp hm with hm | hm
    · obtain ⟨w', hw', hdone⟩ := h.ended m hm
      have heq : m ≠ n := fun heq => by
        rw [heq, hn] at hw'
        cases hw'
      exact ⟨w', by rw [Function.update_of_ne heq, hw'], hdone⟩
    · cases List.mem_singleton.mp hm
  pending m w' hm hstage' k e hk hp hlt := by
    by_cases heq : m = n
    · subst heq
      rw [Function.update_self] at hm
      cases hm
      exact hkeys k e hk hp
    · rw [Function.update_of_ne heq] at hm
      exact h.pending m w' hm hstage' k e hk hp hlt
  done m w' hm hstage' k e hk hp := by
    by_cases heq : m = n
    · subst heq
      rw [Function.update_self] at hm
      cases hm
      rw [hstage] at hstage'
      cases hstage'
    · rw [Function.update_of_ne heq] at hm
      exact h.done m w' hm hstage' k e hk hp

/-- A sweep that is done is in the journal. -/
theorem SweepsSound.note (h : SweepsSound log sweeps get)
    (hw : ∃ w, sweeps n = some w ∧ w.stage = .done) :
    SweepsSound (log ++ [.ended n]) sweeps get where
  began m w hm := getElem?_append_of_some (h.began m w hm)
  only b m p hb := by
    rcases getElem?_append_iff.mp hb with hb | ⟨-, hb⟩
    · exact h.only b m p hb
    · cases List.mem_singleton.mp (List.mem_of_getElem? hb)
  ended m hm := by
    rcases List.mem_append.mp hm with hm | hm
    · exact h.ended m hm
    · cases List.mem_singleton.mp hm
      exact hw
  pending := h.pending
  done := h.done

/-- Keys that are gone are taken off the listings. -/
theorem SweepsSound.settle (h : SweepsSound log sweeps get) :
    SweepsSound log (fun n => (sweeps n).map (State.Sweep.settle get)) get := by
  have hsame : ∀ w : Sweep κ, (State.Sweep.settle get w).pattern = w.pattern ∧
      (State.Sweep.settle get w).startedAt = w.startedAt ∧
      (State.Sweep.settle get w).stage = w.stage := fun w => by
    rw [State.Sweep.settle]
    split <;> exact ⟨rfl, rfl, rfl⟩
  refine ⟨fun n w hw => ?_, fun b n p hb => ?_, fun n hn => ?_,
    fun n w hw hstage k e hk hp hlt => ?_, fun n w hw hstage k e hk hp => ?_⟩
  · obtain ⟨w, hw', rfl⟩ := Option.map_eq_some_iff.mp hw
    obtain ⟨hpattern, hstarted, -⟩ := hsame w
    rw [hpattern, hstarted]
    exact h.began n w hw'
  · obtain ⟨w, hw, rfl⟩ := h.only b n p hb
    exact ⟨_, by rw [hw, Option.map_some], (hsame w).2.1⟩
  · obtain ⟨w, hw, hdone⟩ := h.ended n hn
    exact ⟨_, by rw [hw, Option.map_some], (hsame w).2.2.trans hdone⟩
  · obtain ⟨w, hw', rfl⟩ := Option.map_eq_some_iff.mp hw
    obtain ⟨hpattern, hstarted, hkept⟩ := hsame w
    rw [hkept] at hstage
    rw [hpattern] at hp
    rw [hstarted] at hlt
    have hmem := h.pending n w hw' hstage k e hk hp hlt
    rw [State.Sweep.settle]
    split
    · exact List.mem_filter.mpr ⟨hmem, by rw [hk]; rfl⟩
    · exact hmem
  · obtain ⟨w, hw', rfl⟩ := Option.map_eq_some_iff.mp hw
    obtain ⟨hpattern, hstarted, hkept⟩ := hsame w
    rw [hkept] at hstage
    rw [hpattern] at hp
    rw [hstarted]
    exact h.done n w hw' hstage k e hk hp

end

/-! ## Every step -/

omit [DecidableEq κ] in
/-- Only a change changes the store. -/
theorem storeAt_snoc {x : Event ι κ δ ν} (h : ∀ store', x ≠ .changed store') :
    storeAt store (log ++ [x]) = storeAt store log := by
  rw [storeAt, List.foldl_append]
  cases x with
  | changed store' => exact absurd rfl (h store')
  | _ => rfl

theorem get_delete (s : State ι κ δ ν) (out : κ → Bool)
    (h : (s.delete spec out).get spec k = some e) :
    s.get spec k = some e ∧ out k = false := by
  obtain ⟨hfind, hlive⟩ := Option.filter_eq_some_iff.mp h
  rw [State.delete, findKey_filter (p := fun k => !out k)] at hfind
  split at hfind
  next hout => exact ⟨Option.filter_eq_some_iff.mpr ⟨hfind, hlive⟩, by simpa using hout⟩
  next => cases hfind

theorem get_put {entry : Entry ι ν}
    (h : ({ s with entries := upsert spec.keyOf entry s.entries } : State ι κ δ ν).get spec k =
      some e) :
    s.get spec k = some e ∨ e = entry := by
  obtain ⟨hfind, hlive⟩ := Option.filter_eq_some_iff.mp h
  rw [findKey_upsert] at hfind
  split at hfind
  next => exact .inr (Option.some.inj hfind).symm
  next => exact .inl (Option.filter_eq_some_iff.mpr ⟨hfind, hlive⟩)

/-- What is there has its key among the keys. -/
theorem mem_keys_of_get (h : s.get spec k = some e) : k ∈ s.entries.map spec.keyOf :=
  findKey_isSome.mp (by rw [(Option.filter_eq_some_iff.mp h).1]; rfl)

/-- A call goes on, and nothing else. -/
theorem Sound.enter {phase : Phase ι ν} (h : Sound spec store s)
    (hphase : ∀ q v i, phase ≠ .held q v i) : Sound spec store (s.enter call phase) where
  storeEq := h.storeEq
  calls := h.calls.enter fun q v i heq => absurd heq (hphase q v i)
  cache := h.cache
  sweeps := h.sweeps
  warranted := h.warranted

/-- A call finds its key in the cache. -/
theorem Sound.hit (h : Sound spec store s) (hget : s.get spec (spec.key q) = some e) :
    Sound spec store (s.note (.hit call q e.value s.now)) where
  storeEq := h.storeEq.trans (storeAt_snoc (by simp)).symm
  calls := h.calls.append
  cache := h.cache.mono fun k e hk => ⟨hk, by simp⟩
  sweeps := h.sweeps.mono (fun k e hk => .inl hk) (by simp) (by simp)
  warranted := by
    obtain ⟨call', time, hput, hexpires⟩ := h.cache.put (spec.key q) e hget
    obtain ⟨hkey, hlive⟩ := State.get_key hget
    exact h.warranted.snoc ⟨_, _, call', e.request, time, hput, hkey, hexpires ▸ hlive,
      h.keptSince hget⟩

/-- The store answers. -/
theorem Sound.read {choice : χ} (h : Sound spec store s)
    (hv : spec.answer q s.store choice = some v) :
    Sound spec store ((s.enter call (.held q v s.journal.length)).note (.read call q v)) where
  storeEq := h.storeEq.trans (storeAt_snoc (by simp)).symm
  calls := by
    refine h.calls.append.enter ?_
    rintro q v i ⟨⟩
    refine ⟨by simp, choice, ?_⟩
    rw [List.take_left]
    exact h.storeEq ▸ hv
  cache := h.cache.mono fun k e hk => ⟨hk, by simp⟩
  sweeps := h.sweeps.mono (fun k e hk => .inl hk) (by simp) (by simp)
  warranted := h.warranted.snoc ⟨choice, h.storeEq ▸ hv⟩

/-- A call puts what it holds. -/
theorem Sound.put (h : Sound spec store s) (hcall : s.calls call = some (.held q v i)) :
    Sound spec store ({ s.enter call .left with
      entries := upsert spec.keyOf ⟨q, v, s.now + spec.ttl q, i, s.journal.length⟩ s.entries }.note
        (.put call q v s.now)) where
  storeEq := h.storeEq.trans (storeAt_snoc (by simp)).symm
  calls := h.calls.append.enter fun q v i heq => by cases heq
  cache := h.cache.putIn (h.calls call q v i hcall) fun k e hk => get_put hk
  sweeps := h.sweeps.mono (fun k e hk => (get_put hk).imp_right fun heq => by rw [heq])
    (by simp) (by simp)
  warranted := h.warranted.snoc ⟨i, h.calls call q v i hcall⟩

/-- A key is dropped. -/
theorem Sound.drop (h : Sound spec store s) (key : κ) :
    Sound spec store ((s.delete spec fun k => k = key).note (.dropped key)) where
  storeEq := h.storeEq.trans (storeAt_snoc (by simp)).symm
  calls := h.calls.append
  cache := h.cache.mono fun k e hk => by
    obtain ⟨hget, hne⟩ := get_delete s (fun k => k = key) hk
    refine ⟨hget, fun hmem => ?_⟩
    cases List.mem_singleton.mp hmem
    exact absurd hne (by simp)
  sweeps := h.sweeps.mono
    (fun k e hk => .inl (get_delete s (fun k => k = key) hk).1) (by simp) (by simp)
  warranted := h.warranted.snoc trivial

/-- A sweep begins. -/
theorem Sound.beginSweep (h : Sound spec store s) (hn : s.sweeps n = none) (pattern : κ → Bool) :
    Sound spec store ((s.setSweep n ⟨pattern, s.journal.length, .listing,
      (s.entries.map spec.keyOf).filter pattern⟩).note (.began n pattern)) where
  storeEq := h.storeEq.trans (storeAt_snoc (by simp)).symm
  calls := h.calls.append
  cache := h.cache.mono fun k e hk => ⟨hk, by simp⟩
  sweeps := h.sweeps.begin ⟨pattern, s.journal.length, .listing, _⟩ hn rfl rfl fun k e hk hp =>
    List.mem_filter.mpr ⟨mem_keys_of_get hk, hp⟩
  warranted := h.warranted.snoc trivial

/-- A sweep deletes what it found. -/
theorem Sound.endSweep {w : Sweep κ} (h : Sound spec store s) (hw : s.sweeps n = some w)
    (hstage : w.stage = .found) :
    Sound spec store (((s.delete spec fun k => k ∈ w.keys).setSweep n
      { w with stage := .done }).note (.ended n)) where
  storeEq := h.storeEq.trans (storeAt_snoc (by simp)).symm
  calls := h.calls.append
  cache := h.cache.mono fun k e hk =>
    ⟨(get_delete s (fun k => k ∈ w.keys) hk).1, by simp⟩
  sweeps := by
    have hnot : w.stage ≠ .done := fun hdone => by
      rw [hstage] at hdone
      cases hdone
    have hdeleted : SweepsSound s.journal s.sweeps ((s.delete spec fun k => k ∈ w.keys).get spec) :=
      h.sweeps.shrink fun k e hk => (get_delete _ _ hk).1
    refine (hdeleted.update hw hnot (fun hne => absurd rfl hne) fun _ k e hk hp => ?_).note
      ⟨_, Function.update_self .., rfl⟩
    obtain ⟨hget, hout⟩ := get_delete _ _ hk
    have hle : w.startedAt ≤ e.putAt := by
      by_contra hlt
      exact absurd (h.sweeps.pending n w hw hnot k e hget hp (not_le.mp hlt)) (by simpa using hout)
    refine lt_of_le_of_ne hle fun heq => ?_
    obtain ⟨_, _, hput, -⟩ := h.cache.put k e hget
    have hbegan := h.sweeps.began n w hw
    rw [heq, hput.put] at hbegan
    cases hbegan
  warranted := h.warranted.snoc trivial

/-- **A step keeps the journal telling the state.** -/
theorem Sound.apply {op : Op ι κ δ χ} (h : Sound spec store s) (hs : s.apply spec op = some s') :
    Sound spec store s' := by
  cases op with
  | advance time =>
    rw [State.apply] at hs
    split at hs
    next hle =>
      cases hs
      have hget : ∀ k e, ({ s with now := time } : State ι κ δ ν).get spec k = some e →
          s.get spec k = some e := fun k e hk => by
        obtain ⟨hfind, hlive⟩ := Option.filter_eq_some_iff.mp hk
        exact Option.filter_eq_some_iff.mpr ⟨hfind, decide_eq_true
          (hle.trans (of_decide_eq_true hlive))⟩
      exact ⟨h.storeEq, h.calls, h.cache.shrink hget, h.sweeps.shrink hget, h.warranted⟩
    next => cases hs
  | change store' =>
    cases hs
    exact ⟨by simp [State.note, storeAt], h.calls.append, h.cache.mono fun k e hk => ⟨hk, by simp⟩,
      h.sweeps.mono (fun k e hk => .inl hk) (by simp) (by simp), h.warranted.snoc trivial⟩
  | ask call q =>
    rw [State.apply] at hs
    split at hs
    next => cases hs
    next =>
      split at hs
      next e hget =>
        cases hs
        have hleft : Sound spec store (s.enter call .left) := h.enter (by rintro q v i ⟨⟩)
        exact hleft.hit hget
      next =>
        cases hs
        exact h.enter (by rintro q v i ⟨⟩)
  | read call choice =>
    rw [State.apply] at hs
    split at hs
    next =>
      split at hs
      next v hv =>
        cases hs
        exact h.read hv
      next =>
        cases hs
        exact h.enter (by rintro q v i ⟨⟩)
    next => cases hs
  | put call =>
    rw [State.apply] at hs
    split at hs
    next hcall =>
      split at hs
      next => cases hs
      next =>
        cases hs
        exact h.put hcall
    next => cases hs
  | fail call =>
    cases hs
    exact h.enter (by rintro q v i ⟨⟩)
  | drop key =>
    cases hs
    exact h.drop key
  | beginSweep n pattern =>
    rw [State.apply] at hs
    split at hs
    next => cases hs
    next hn =>
      cases hs
      exact h.beginSweep hn pattern
  | list n found =>
    rw [State.apply] at hs
    split at hs
    next w hw =>
      split at hs
      next hfound =>
        cases hs
        have hnot : w.stage ≠ .done := fun hdone => by
          rw [hfound.1] at hdone
          cases hdone
        exact ⟨h.storeEq, h.calls, h.cache,
          h.sweeps.update hw hnot (fun _ => hfound.2.1) (by rintro ⟨⟩), h.warranted⟩
      next => cases hs
    next => cases hs
  | endSweep n =>
    rw [State.apply] at hs
    split at hs
    next w hw =>
      split at hs
      next hstage =>
        cases hs
        exact h.endSweep hw hstage
      next => cases hs
    next => cases hs

/-- **What the journal of a run says.** -/
theorem sound_after (store : δ) (ops : List (Op ι κ δ χ)) :
    Sound spec store (State.after spec store ops) := by
  refine run_invariant (fun s op s' hs h => ?_) ops (.init store)
  obtain ⟨t, ht, rfl⟩ := Option.map_eq_some_iff.mp hs
  have hsound := h.apply ht
  exact ⟨hsound.storeEq, hsound.calls, hsound.cache, hsound.sweeps.settle, hsound.warranted⟩

end Foundations.ReadThrough
