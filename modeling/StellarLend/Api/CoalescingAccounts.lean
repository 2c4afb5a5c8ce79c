import StellarLend.Api.RequestCoalescing

/-!
# Api/CoalescingAccounts — whose timers run, and what the metrics count

    0 ── k ── full ┐                       0 settles, and cleans up k:
    1 ── k ────────┴──▸ under k            1 is taken away, with its timer

A group that is full makes room under its key.  When it ends, what it finds under the key is another
one, which goes on without a timer: its call then waits for its executor however long that takes.
The metric of active groups counts a group that made room for another as active for ever.
-/

namespace StellarLend.Api.Coalescing

open Foundations Function

variable {ν : Type} {options : CoalescingOptions} {s s' : Service ν} {c g : CallId}
  {p : PendingRequest ν} {key : String} {log : List (Happening ν)} {x : Happening ν} {a : Answer ν}

/-! ## Timers that others clear -/

/-- A group has settled, or its timer has fired. -/
def Ended (g : CallId) (log : List (Happening ν)) : Prop :=
  (∃ o, .settled g o ∈ log) ∨ .expired g ∈ log

/-- Another group of the key has ended since a group was made. -/
def Outlasted (s : Service ν) (g : CallId) (p : PendingRequest ν) : Prop :=
  ∃ g' p', g' ≠ g ∧ s.groups g' = some p' ∧ p'.key = p.key ∧
    ∃ past rest ousted, s.journal = past ++ .called g p.key g ousted p.startTime :: rest ∧
      Ended g' rest

/-- A call that leads a group without a timer waits for an executor, and for nothing else. -/
def Timed (s : Service ν) : Prop :=
  ∀ g p, s.groups g = some p → s.callers g = some .leads → p.timer = false → Outlasted s g p

theorem Ended.append {more : List (Happening ν)} (h : Ended g log) : Ended g (log ++ more) :=
  h.imp (Exists.imp fun _ => List.mem_append_left _) (List.mem_append_left _)

/-- Groups keep their keys, and the journal goes on. -/
theorem Outlasted.mono {t : Service ν} {p' : PendingRequest ν} {more : List (Happening ν)}
    (h : Outlasted s g p)
    (hgroups : ∀ g p, s.groups g = some p → ∃ p', t.groups g = some p' ∧ p'.key = p.key)
    (hjournal : t.journal = s.journal ++ more) (hkey : p'.key = p.key)
    (hstart : p'.startTime = p.startTime) : Outlasted t g p' := by
  obtain ⟨g', q, hne, hg', hq, past, rest, ousted, hsplit, hended⟩ := h
  obtain ⟨q', hg', hq'⟩ := hgroups g' q hg'
  refine ⟨g', q', hne, hg', (hq'.trans hq).trans hkey.symm, past, rest ++ more, ousted, ?_,
    hended.append⟩
  rw [hjournal, hsplit, hkey, hstart, List.append_assoc, List.cons_append]

/-- Nothing leads that did not, and no timer is cleared. -/
theorem Timed.mono {t : Service ν} {more : List (Happening ν)} (h : Timed s)
    (hgroups : ∀ g p, s.groups g = some p → ∃ p', t.groups g = some p' ∧ p'.key = p.key)
    (hjournal : t.journal = s.journal ++ more)
    (hback : ∀ g p', t.groups g = some p' → t.callers g = some .leads → p'.timer = false →
      s.callers g = some .leads ∧ ∃ p, s.groups g = some p ∧ p.timer = false ∧ p'.key = p.key ∧
        p'.startTime = p.startTime) : Timed t := by
  intro g p' hg hleads htimer
  obtain ⟨hleads, p, hg, htimer, hkey, hstart⟩ := hback g p' hg hleads htimer
  exact (h g p hg hleads htimer).mono hgroups hjournal hkey hstart

@[simp] theorem cleanup_callers : (s.cleanup key).callers = s.callers := by
  rw [Service.cleanup]
  split <;> rfl

@[simp] theorem cleanup_journal : (s.cleanup key).journal = s.journal := by
  rw [Service.cleanup]
  split <;> rfl

/-- What the cleanup of a key leaves of the groups. -/
theorem cleanup_groups {q : PendingRequest ν} (h : (s.cleanup key).groups g = some q) :
    s.groups g = some q ∨
      s.pending key = some g ∧ ∃ p, s.groups g = some p ∧ q = { p with timer := false } := by
  rw [Service.cleanup] at h
  split at h
  next => exact .inl h
  next g' hpending =>
    by_cases heq : g = g'
    · have hq : update s.groups g' _ g = some q := h
      rw [heq, update_self] at hq
      obtain ⟨p, hp, rfl⟩ := Option.map_eq_some_iff.mp hq
      exact .inr ⟨heq ▸ hpending, p, heq ▸ hp, rfl⟩
    · exact .inl ((update_of_ne heq ..).symm.trans h)

theorem groups_cleanup (key : String) {q : PendingRequest ν} (h : s.groups g = some q) :
    ∃ q', (s.cleanup key).groups g = some q' ∧ q'.key = q.key := by
  rw [Service.cleanup]
  split
  next => exact ⟨q, h, rfl⟩
  next g' hpending =>
    by_cases heq : g = g'
    · refine ⟨{ q with timer := false }, ?_, rfl⟩
      rw [← heq, h]
      exact update_self ..
    · exact ⟨q, (update_of_ne heq ..).trans h, rfl⟩

/-- **A group ends, and its key is cleaned up**: if another one loses its timer by that, it has been
outlasted. -/
theorem Timed.ended {t : Service ν} {p' : PendingRequest ν} {more : List (Happening ν)}
    (h : Timed s) (hlinked : Linked options none s) (hg : s.groups g = some p)
    (hkey : p'.key = p.key) (hgroups : t.groups = update s.groups g (some p'))
    (hpending : t.pendingRequests = s.pendingRequests)
    (hcallers : ∀ c, t.callers c = some .leads → c ≠ g ∧ s.callers c = some .leads)
    (hjournal : t.journal = s.journal ++ more) (hended : Ended g more) :
    Timed (t.cleanup p.key) := by
  have hkept : ∀ g' q, s.groups g' = some q →
      ∃ q', (t.cleanup p.key).groups g' = some q' ∧ q'.key = q.key := fun g' q hq => by
    obtain ⟨q', hq', hqkey⟩ := groups_setGroup p' hg hkey hq
    obtain ⟨q'', hq'', hqkey'⟩ := groups_cleanup p.key ((congrFun hgroups g').trans hq')
    exact ⟨q'', hq'', hqkey'.trans hqkey⟩
  have hlog : (t.cleanup p.key).journal = s.journal ++ more := cleanup_journal.trans hjournal
  intro g' q hq hleads htimer
  rw [cleanup_callers] at hleads
  obtain ⟨hne, hleads⟩ := hcallers g' hleads
  have hsame : t.groups g' = s.groups g' := by rw [hgroups, update_of_ne hne]
  rcases cleanup_groups hq with hq' | ⟨hunder, r, hr, rfl⟩
  · exact (h g' q (hsame ▸ hq') hleads htimer).mono hkept hlog rfl rfl
  · rw [hsame] at hr
    obtain ⟨r', hr', hrkey⟩ := hlinked.held p.key g' (by
      rw [Service.pending, ← hpending]
      exact hunder)
    obtain rfl := Option.some.inj (hr'.symm.trans hr)
    obtain ⟨ousted, hmade⟩ := (hlinked.group g' r' hr).made
    obtain ⟨past, rest, hsplit⟩ := List.append_of_mem hmade
    obtain ⟨p'', hp'', hkey''⟩ := hkept g p hg
    refine ⟨g, p'', hne.symm, hp'', hkey''.trans hrkey.symm, past, rest ++ more, ousted, ?_,
      hended.imp (Exists.imp fun _ => List.mem_append_right _) (List.mem_append_right _)⟩
    rw [hlog, hsplit, List.append_assoc, List.cons_append]

theorem answer_groups : (s.answer g a).groups = s.groups := by
  rw [Service.answer]
  split <;> rfl

theorem answer_pendingRequests :
    (s.answer g a).pendingRequests = s.pendingRequests := by
  rw [Service.answer]
  split <;> rfl

theorem answer_journal : ∃ more, (s.answer g a).journal = s.journal ++ more := by
  rw [Service.answer]
  split
  next => exact ⟨_, rfl⟩
  next => exact ⟨[], (List.append_nil _).symm⟩

/-- Once it is answered a call leads nothing. -/
theorem answer_callers (h : (s.answer g a).callers c = some .leads) :
    c ≠ g ∧ s.callers c = some .leads := by
  rw [Service.answer] at h
  split at h
  next =>
    have hne : c ≠ g := by
      rintro rfl
      exact absurd (enter_callers_self.symm.trans h) (by simp)
    exact ⟨hne, (enter_callers_of_ne hne).symm.trans h⟩
  next hnot => exact ⟨fun heq => hnot (heq ▸ h), h⟩

/-- A group ends with an entry, its call is answered, and its key is cleaned up. -/
theorem Timed.answered {t u : Service ν} (h : Timed s) (p' : PendingRequest ν)
    (hlinked : Linked options none s) (hg : s.groups g = some p) (hkey : p'.key = p.key)
    (hended : Ended g [x])
    (hu : u.groups = update s.groups g (some p') ∧ u.pendingRequests = s.pendingRequests ∧
      u.callers = s.callers ∧ u.journal = s.journal ++ [x])
    (ht : t.groups = (u.answer g a).groups ∧ t.pendingRequests = (u.answer g a).pendingRequests ∧
      t.callers = (u.answer g a).callers ∧ t.journal = (u.answer g a).journal) :
    Timed (t.cleanup p.key) := by
  obtain ⟨hgroups, hpending, hcallers, hjournal⟩ := ht
  obtain ⟨more, hmore⟩ := answer_journal (s := u) (g := g) (a := a)
  refine h.ended (t := t) hlinked hg hkey (hgroups.trans (answer_groups.trans hu.1))
    (hpending.trans (answer_pendingRequests.trans hu.2.1)) (fun c hc => ?_)
    (hjournal.trans (hmore.trans (by rw [hu.2.2.2, List.append_assoc]))) hended.append
  rw [hcallers] at hc
  exact hu.2.2.1 ▸ answer_callers hc

/-- A call makes a group: those that were there are as they were. -/
theorem Timed.create (h : Timed s) (hlinked : Linked options none s) (hc : s.callers c = none) :
    Timed (s.create c key) := by
  have hne : ∀ g p, s.groups g = some p → g ≠ c := fun g p hg heq =>
    (hlinked.group g p hg).called_before (heq ▸ hc)
  refine h.mono (fun g p hg => ⟨p, (update_of_ne (hne g p hg) ..).trans hg, rfl⟩) rfl
    fun g p hg hleads htimer => ?_
  rcases setGroup_groups hg with ⟨rfl, rfl⟩ | ⟨hnew, hg⟩
  · cases htimer
  · exact ⟨(update_of_ne hnew ..).symm.trans hleads, p, hg, htimer, rfl, rfl⟩

/-- A call joins a group. -/
theorem Timed.join (h : Timed s) (hlinked : Linked options none s) (hc : s.callers c = none)
    (hg : s.groups g = some p) : Timed (s.join c key g p) := by
  have hleads : ∀ g' q, s.groups g' = some q → (s.join c key g p).callers g' = some .leads →
      s.callers g' = some .leads := fun g' q hq => by
    have hne : g' ≠ c := fun heq => (hlinked.group g' q hq).called_before (heq ▸ hc)
    exact (update_of_ne hne ..).symm.trans
  refine h.mono (fun g' q hq => groups_setGroup _ hg rfl hq) rfl fun g' q hq hleads' htimer => ?_
  rcases setGroup_groups hq with ⟨rfl, rfl⟩ | ⟨-, hq⟩
  · exact ⟨hleads _ p hg hleads', p, hg, htimer, rfl, rfl⟩
  · exact ⟨hleads g' q hq hleads', q, hq, htimer, rfl, rfl⟩

/-- **An event keeps every lost timer accounted for.** -/
theorem Timed.turn (h : Timed s) (hlinked : Linked options none s) (hturn : Turn options s s') :
    Timed s' := by
  have hmetrics := hlinked.withMetrics
    { s.metrics with totalRequests := s.metrics.totalRequests + 1 }
  cases hturn with
  | wait ms => exact h
  | @direct c key hc =>
    refine h.mono (fun g p hg => ⟨p, hg, rfl⟩) rfl fun g p hg hleads htimer => ?_
    have hne : g ≠ c := fun heq => (hlinked.group g p hg).called_before (heq ▸ hc)
    exact ⟨(update_of_ne hne ..).symm.trans hleads, p, hg, htimer, rfl, rfl⟩
  | join hc hon hjoin => exact Timed.join h hmetrics hc (joinable_eq_some.mp hjoin).2.1
  | create hc => exact Timed.create h hmetrics hc
  | @start g p hg =>
    refine h.mono (fun g' p hg' => groups_setGroup _ hg rfl hg') (List.append_nil _).symm
      fun g' q hg' hleads htimer => ?_
    rcases setGroup_groups hg' with ⟨rfl, rfl⟩ | ⟨-, hg'⟩
    · exact ⟨hleads, p, hg, htimer, rfl, rfl⟩
    · exact ⟨hleads, q, hg', htimer, rfl, rfl⟩
  | @settle g p o hg =>
    have hended : Ended g [Happening.settled g o] := .inl ⟨o, List.mem_singleton_self _⟩
    have hanswered := fun t => h.answered (t := t) { p with stage := .settled o }
      (a := .executed o) hlinked hg rfl hended
      (u := (s.setGroup g { p with stage := .settled o }).note (.settled g o))
      ⟨rfl, rfl, rfl, rfl⟩
    cases o with
    | resolved value => exact hanswered _ ⟨rfl, rfl, rfl, rfl⟩
    | rejected error => exact hanswered _ ⟨rfl, rfl, rfl, rfl⟩
  | deliver hc =>
    exact h.mono (fun g p hg => ⟨p, hg, rfl⟩) rfl fun g p hg hleads htimer =>
      ⟨callers_of_done hleads (by simp), p, hg, htimer, rfl, rfl⟩
  | finish o hc =>
    exact h.mono (fun g p hg => ⟨p, hg, rfl⟩) (List.append_assoc ..) fun g p hg hleads htimer =>
      ⟨callers_of_done hleads (by simp), p, hg, htimer, rfl, rfl⟩
  | @timeout g p hg =>
    have hended : Ended g [Happening.expired (ν := ν) g] := .inr (List.mem_singleton_self _)
    exact h.answered { p with timer := false } (a := .timedOut) hlinked hg rfl hended
      (u := { (s.setGroup g { p with timer := false }).note (.expired g) with
        metrics := { s.metrics with timeouts := s.metrics.timeouts + 1 } })
      ⟨rfl, rfl, rfl, rfl⟩ ⟨rfl, rfl, rfl, rfl⟩

theorem timed_after (options : CoalescingOptions) (events : List (Event ν)) :
    Linked options none (Service.after options events) ∧ Timed (Service.after options events) :=
  run_invariant (I := fun s => Linked options none s ∧ Timed s)
    (fun _ _ _ hs h =>
      have hturn := turn_of_step hs
      ⟨h.1.turn hturn, h.2.turn h.1 hturn⟩) events ⟨.init, by rintro g p ⟨⟩⟩

/-- **A group loses its timer to another one of its key**, which was made and has ended.

The call that made it waits for its executor and for nothing else. -/
theorem Service.timer_lost (events : List (Event ν)) (hg : (after options events).groups g = some p)
    (hleads : (after options events).callers g = some .leads) (htimer : p.timer = false) :
    Outlasted (after options events) g p :=
  (timed_after options events).2 g p hg hleads htimer

/-! ### One call in a group -/

/-- Two calls for a key whose groups are full with one; the first one's executor settles. -/
def twoCalls : List (Event Unit) :=
  [.execute 0 "k", .execute 1 "k", .start 0, .settle 0 (.resolved ())]

theorem timer_lost_twoCalls :
    ∃ p, (Service.after ⟨5000, 0, 1, true⟩ twoCalls).groups 1 = some p ∧
      Outlasted (Service.after ⟨5000, 0, 1, true⟩ twoCalls) 1 p :=
  ⟨⟨"k", 0, 1, false, .waiting⟩, rfl, Service.timer_lost twoCalls rfl rfl rfl⟩

/-! ## Metrics -/

namespace Happening

@[simp] def isCall : Happening ν → Bool
  | called .. => true
  | _ => false

@[simp] def isJoin : Happening ν → Bool
  | called call _ group _ _ => group ≠ call
  | _ => false

/-- A call that takes the place of a full group. -/
@[simp] def replaces : Happening ν → Bool
  | called _ _ _ ousted _ => ousted.isSome
  | _ => false

@[simp] def isExpiry : Happening ν → Bool
  | expired _ => true
  | _ => false

@[simp] def fails : Happening ν → Bool
  | settled _ (.rejected _) => true
  | _ => false

end Happening

/-- The metrics as the journal has them. -/
def counted (options : CoalescingOptions) (s : Service ν) : CoalescingMetrics where
  totalRequests := s.journal.countP Happening.isCall
  coalescedRequests := s.journal.countP Happening.isJoin
  activeCoalescingGroups := s.pendingRequests.length + s.journal.countP Happening.replaces
  timeouts := s.journal.countP Happening.isExpiry
  errors := if options.enabled then s.journal.countP Happening.fails else 0

/-- The metrics are as the journal has them, and there are groups or direct calls, but not both. -/
structure Counted (options : CoalescingOptions) (s : Service ν) : Prop where
  keys : (s.pendingRequests.map Prod.fst).Nodup
  metrics : s.metrics = counted options s
  direct : ∀ c, s.callers c = some .direct → options.enabled = false
  group : ∀ g p, s.groups g = some p → options.enabled = true

theorem Counted.answer (h : Counted options s) : Counted options (s.answer g a) := by
  rw [Service.answer]
  split
  next =>
    refine ⟨h.keys, h.metrics.trans ?_, fun c hc => ?_, h.group⟩
    · simp [counted, Service.note, Service.enter]
    · by_cases heq : c = g
      · exact absurd (enter_callers_self.symm.trans (heq ▸ hc)) (by simp)
      · exact h.direct c ((enter_callers_of_ne heq).symm.trans hc)
  next => exact h

theorem Counted.cleanup (h : Counted options s) : Counted options (s.cleanup key) := by
  rw [Service.cleanup]
  split
  next => exact h
  next g hpending =>
    obtain ⟨entry, hfind, -⟩ := Option.map_eq_some_iff.mp hpending
    have hmem : key ∈ s.pendingRequests.map Prod.fst :=
      findKey_isSome.mp (by rw [hfind]; rfl)
    have hlength := length_filter_ne h.keys hmem
    have hgroup : ∀ g' p, (s.cleanup key).groups g' = some p → options.enabled = true := by
      intro g' p hg'
      rcases cleanup_groups hg' with hg' | ⟨-, q, hq, -⟩
      · exact h.group g' p hg'
      · exact h.group g' q hq
    rw [Service.cleanup, hpending] at hgroup
    refine ⟨h.keys.sublist (List.filter_sublist.map _), ?_, h.direct, hgroup⟩
    change { s.metrics with activeCoalescingGroups := s.metrics.activeCoalescingGroups - 1 } =
      counted options (s.delete key)
    rw [h.metrics]
    simp only [counted, Service.delete, CoalescingMetrics.mk.injEq, true_and, and_true]
    omega

/-- An error counts alike before the answer and after it. -/
theorem Counted.failed {a : Answer ν}
    (h : Counted options { s with metrics := { s.metrics with errors := s.metrics.errors + 1 } }) :
    Counted options { s.answer g a with
      metrics := { (s.answer g a).metrics with errors := (s.answer g a).metrics.errors + 1 } } := by
  have hanswer := h.answer (g := g) (a := a)
  rw [Service.answer] at hanswer ⊢
  split at hanswer
  next hleads =>
    rw [if_pos hleads]
    exact hanswer
  next hnot =>
    rw [if_neg hnot]
    exact hanswer

theorem Counted.settle {o : Outcome ν} (h : Counted options s) (hg : s.groups g = some p) :
    Counted options (s.settle g p o) := by
  have henabled := h.group g p hg
  cases o with
  | resolved value =>
    have hsettled : Counted options
        ((s.setGroup g { p with stage := .settled (.resolved value) }).note
          (.settled g (.resolved value))) := by
      refine ⟨h.keys, h.metrics.trans ?_, h.direct, fun _ _ _ => henabled⟩
      simp [counted, Service.note, Service.setGroup]
    exact hsettled.answer.cleanup
  | rejected error =>
    refine (Counted.failed (g := g) (a := .executed (.rejected error))
      (s := (s.setGroup g { p with stage := .settled (.rejected error) }).note
        (.settled g (.rejected error)))
      ⟨h.keys, ?_, h.direct, fun _ _ _ => henabled⟩).cleanup
    change { s.metrics with errors := s.metrics.errors + 1 } = _
    rw [h.metrics]
    simp [counted, Service.note, Service.setGroup, henabled]

theorem Counted.handleTimeout (h : Counted options s) (hg : s.groups g = some p) :
    Counted options (s.handleTimeout g p) := by
  have hexpired : Counted options { (s.setGroup g { p with timer := false }).note (.expired g) with
      metrics := { s.metrics with timeouts := s.metrics.timeouts + 1 } } := by
    refine ⟨h.keys, ?_, h.direct, fun _ _ _ => h.group g p hg⟩
    rw [h.metrics]
    simp [counted, Service.note, Service.setGroup]
  exact hexpired.answer.cleanup

/-- A call that makes a group adds a key, or replaces what is under it. -/
theorem length_add_replaces (s : Service ν) (c : CallId) (key : String) :
    (upsert Prod.fst (key, c) s.pendingRequests).length +
      (s.journal ++ [Happening.called c key c (s.pending key) s.now]).countP Happening.replaces =
        s.pendingRequests.length + s.journal.countP Happening.replaces + 1 := by
  have hisSome : (s.pending key).isSome = true ↔ key ∈ s.pendingRequests.map Prod.fst := by
    rw [Service.pending, Option.isSome_map, findKey_isSome]
  rw [length_upsert, List.countP_append, List.countP_singleton, Happening.replaces]
  by_cases hmem : key ∈ s.pendingRequests.map Prod.fst
  · rw [if_pos hmem, if_pos (hisSome.mpr hmem)]
    omega
  · rw [if_neg hmem, if_neg fun h => hmem (hisSome.mp h)]
    omega

theorem Counted.join (h : Counted options s) (hon : options.enabled = true) (hne : g ≠ c) :
    Counted options ({ s with metrics.totalRequests := s.metrics.totalRequests + 1 }.join c key g
      p) := by
  refine ⟨h.keys, ?_, fun c' hc' => ?_, fun _ _ _ => hon⟩
  · change { s.metrics with
      totalRequests := s.metrics.totalRequests + 1
      coalescedRequests := s.metrics.coalescedRequests + 1 } = _
    rw [h.metrics]
    simp [counted, Service.join, Service.note, Service.setGroup, Service.enter, hne]
  · by_cases heq : c' = c
    · exact absurd (enter_callers_self.symm.trans (heq ▸ hc')) (by simp)
    · exact h.direct c' ((enter_callers_of_ne heq).symm.trans hc')

theorem Counted.create (h : Counted options s) (hon : options.enabled = true) :
    Counted options ({ s with metrics.totalRequests := s.metrics.totalRequests + 1 }.create c
      key) := by
  refine ⟨nodup_upsert h.keys, ?_, fun c' hc' => ?_, fun _ _ _ => hon⟩
  · change { s.metrics with
      totalRequests := s.metrics.totalRequests + 1
      activeCoalescingGroups := s.metrics.activeCoalescingGroups + 1 } =
        counted options (s.create c key)
    have hactive := length_add_replaces s c key
    rw [h.metrics]
    simp only [counted, Service.create, Service.note, Service.setGroup, Service.enter,
      CoalescingMetrics.mk.injEq]
    refine ⟨?_, ?_, by omega, ?_, ?_⟩ <;>
      simp
  · by_cases heq : c' = c
    · exact absurd (enter_callers_self.symm.trans (heq ▸ hc')) (by simp)
    · exact h.direct c' ((enter_callers_of_ne heq).symm.trans hc')

/-- **An event keeps the metrics as the journal has them.** -/
theorem Counted.turn (h : Counted options s) (hlinked : Linked options none s)
    (hturn : Turn options s s') : Counted options s' := by
  cases hturn with
  | wait ms => exact ⟨h.keys, h.metrics, h.direct, h.group⟩
  | direct key hc hoff =>
    refine ⟨h.keys, ?_, fun _ _ => hoff, h.group⟩
    rw [h.metrics]
    simp [counted, Service.note, Service.enter]
  | @join c g key p hc hon hjoin =>
    have hg := (joinable_eq_some.mp hjoin).2.1
    exact h.join hon fun heq => (hlinked.group g p hg).called_before (heq ▸ hc)
  | create hc hon => exact h.create hon
  | @start g p hg => exact ⟨h.keys, h.metrics, h.direct, fun _ _ _ => h.group g p hg⟩
  | settle o hg => exact h.settle hg
  | deliver =>
    refine ⟨h.keys, h.metrics.trans ?_, fun c' hc' => h.direct c' (callers_of_done hc' (by simp)),
      h.group⟩
    simp [counted, Service.note, Service.enter]
  | @finish c o hc =>
    refine ⟨h.keys, h.metrics.trans ?_, fun c' hc' => h.direct c' (callers_of_done hc' (by simp)),
      h.group⟩
    simp [counted, Service.note, Service.enter, h.direct c hc]
  | timeout hg => exact h.handleTimeout hg

theorem counted_after (options : CoalescingOptions) (events : List (Event ν)) :
    Linked options none (Service.after options events) ∧
      Counted options (Service.after options events) :=
  run_invariant (I := fun s => Linked options none s ∧ Counted options s)
    (fun _ _ _ hs h =>
      have hturn := turn_of_step hs
      ⟨h.1.turn hturn, h.2.turn h.1 hturn⟩) events
    ⟨.init, ⟨List.nodup_nil, by simp [counted, Service.new], by rintro c ⟨⟩, by rintro g p ⟨⟩⟩⟩

/-- **What the metrics count.**

The groups that are counted as active are those under keys and all that a call took the place of. -/
theorem Service.metrics_counted (options : CoalescingOptions) (events : List (Event ν)) :
    (after options events).metrics = counted options (after options events) :=
  (counted_after options events).2.metrics

end StellarLend.Api.Coalescing
