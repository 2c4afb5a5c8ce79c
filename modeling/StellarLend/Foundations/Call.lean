import Mathlib.Logic.Basic

/-!
# Foundations/Call — invocations of a stateful program that may fail or trap

A `Call ρ σ ε α` reads an environment of type `ρ`, threads a store of type `σ` and ends in one of
three ways: it returns a value, it returns an error of type `ε`, or it traps.  An error still
carries the store it was raised in, since a caller inside the program may catch it and go on; what
a *whole* invocation leaves behind is `commit`, which keeps the store of a success only.

The lemmas are inversions: `x e s = .ok a s'` is taken apart into what each step of `x` did.  They
form the simp set `call` proofs work with.
-/

namespace Foundations

/-! ## Pure fallible computations -/

/-- The value, or an error. -/
def orErr {ε α : Type} (o : Option α) (err : ε) : Except ε α :=
  match o with
  | some a => .ok a
  | none => .error err

@[simp] theorem orErr_ok {ε α : Type} {o : Option α} {err : ε} {a : α} :
    orErr o err = .ok a ↔ o = some a := by
  cases o <;> simp [orErr]

@[simp] theorem except_bind_ok {ε α β : Type} {x : Except ε α} {f : α → Except ε β} {b : β} :
    (x >>= f) = .ok b ↔ ∃ a, x = .ok a ∧ f a = .ok b := by
  cases x with
  | error err => simp [bind, Except.bind]
  | ok a => exact ⟨fun h => ⟨a, rfl, h⟩, by rintro ⟨_, ⟨⟩, h⟩; exact h⟩

@[simp] theorem orErr_error {ε α : Type} {o : Option α} {err err' : ε} :
    orErr o err = .error err' ↔ o = none ∧ err = err' := by
  cases o <;> simp [orErr]

@[simp] theorem except_bind_error {ε α β : Type} {x : Except ε α} {f : α → Except ε β} {err : ε} :
    (x >>= f) = .error err ↔ x = .error err ∨ ∃ a, x = .ok a ∧ f a = .error err := by
  cases x with
  | error err => simp [bind, Except.bind]
  | ok a => exact ⟨fun h => .inr ⟨a, rfl, h⟩, by rintro (⟨⟨⟩⟩ | ⟨_, ⟨⟩, h⟩); exact h⟩

@[simp] theorem except_pure_ok {ε α : Type} {a b : α} :
    (pure a : Except ε α) = .ok b ↔ a = b := by simp [pure, Except.pure]

/-! ## Invocations -/

/-- How an invocation ends. -/
inductive Outcome (ε σ α : Type) where
  | ok (a : α) (s : σ)
  | err (e : ε) (s : σ)
  | trap

/-- The value of a success. -/
def Outcome.value {ε σ α : Type} : Outcome ε σ α → Option α
  | .ok a _ => some a
  | _ => none

theorem Outcome.value_eq_some {ε σ α : Type} {o : Outcome ε σ α} {a : α} :
    o.value = some a ↔ ∃ s, o = .ok a s := by
  cases o <;> simp [Outcome.value]

/-- An invocation. -/
def Call (ρ σ ε α : Type) : Type := ρ → σ → Outcome ε σ α

namespace Call

variable {ρ σ ε ε' α β : Type} {e : ρ} {s s' : σ} {x : Call ρ σ ε α} {a : α}

instance : Monad (Call ρ σ ε) where
  pure a := fun _ s => .ok a s
  bind x f := fun e s =>
    match x e s with
    | .ok a s' => f a e s'
    | .err err s' => .err err s'
    | .trap => .trap

@[simp] theorem pure_ok {b : α} :
    (pure a : Call ρ σ ε α) e s = .ok b s' ↔ a = b ∧ s = s' := by
  constructor
  · intro h
    cases h
    exact ⟨rfl, rfl⟩
  · rintro ⟨rfl, rfl⟩
    rfl

/-- **A sequence succeeds exactly when both of its parts do.** -/
@[simp] theorem bind_ok {f : α → Call ρ σ ε β} {b : β} :
    (x >>= f) e s = .ok b s' ↔ ∃ a t, x e s = .ok a t ∧ f a e t = .ok b s' := by
  change (match x e s with
    | .ok a s' => f a e s'
    | .err err s' => .err err s'
    | .trap => .trap) = _ ↔ _
  cases x e s with
  | ok a t => exact ⟨fun h => ⟨a, t, rfl, h⟩, by rintro ⟨_, _, ⟨⟩, h⟩; exact h⟩
  | err err t => simp
  | trap => simp

/-- First parts that end alike go on alike. -/
theorem bind_congr {y : Call ρ σ ε α} {f : α → Call ρ σ ε β} {t : σ} (h : x e s = y e t) :
    (x >>= f) e s = (y >>= f) e t := by
  change (match x e s with
    | .ok a s' => f a e s'
    | .err err s' => .err err s'
    | .trap => .trap) = _
  rw [h]
  rfl

/-- Sequences that go on alike where their first part succeeds end alike. -/
theorem bind_congr_ok {f g : α → Call ρ σ ε β} (h : ∀ a t, x e s = .ok a t → f a e t = g a e t) :
    (x >>= f) e s = (x >>= g) e s := by
  change (match x e s with
    | .ok a s' => f a e s'
    | .err err s' => .err err s'
    | .trap => .trap) = match x e s with
    | .ok a s' => g a e s'
    | .err err s' => .err err s'
    | .trap => .trap
  cases hx : x e s with
  | ok a t => exact h a t hx
  | err err t => rfl
  | trap => rfl

/-- A sequence goes on where its first part succeeded. -/
theorem bind_of_ok {f : α → Call ρ σ ε β} {t : σ} (h : x e s = .ok a t) : (x >>= f) e s = f a e t :=
  bind_congr (y := fun _ _ => .ok a t) (t := t) h

/-- A sequence ends where its first part failed. -/
theorem bind_of_err {f : α → Call ρ σ ε β} {t : σ} {err : ε} (h : x e s = .err err t) :
    (x >>= f) e s = .err err t :=
  bind_congr (y := fun _ _ => .err err t) (t := t) h

/-- A sequence traps where its first part did. -/
theorem bind_of_trap {f : α → Call ρ σ ε β} (h : x e s = .trap) : (x >>= f) e s = .trap :=
  bind_congr (y := fun _ _ => .trap) (t := s) h

/-! ## Reading and writing -/

/-- Read the environment. -/
def asks (f : ρ → α) : Call ρ σ ε α := fun e s => .ok (f e) s

/-- Read the store. -/
def view (f : σ → α) : Call ρ σ ε α := fun _ s => .ok (f s) s

/-- Read both. -/
def look (f : ρ → σ → α) : Call ρ σ ε α := fun e s => .ok (f e s) s

/-- Write the store. -/
def store (g : σ → σ) : Call ρ σ ε Unit := fun _ s => .ok () (g s)

@[simp] theorem asks_ok {f : ρ → α} :
    (asks f : Call ρ σ ε α) e s = .ok a s' ↔ f e = a ∧ s = s' := by simp [asks]

@[simp] theorem view_ok {f : σ → α} :
    (view f : Call ρ σ ε α) e s = .ok a s' ↔ f s = a ∧ s = s' := by simp [view]

@[simp] theorem look_ok {f : ρ → σ → α} :
    (look f : Call ρ σ ε α) e s = .ok a s' ↔ f e s = a ∧ s = s' := by simp [look]

@[simp] theorem store_ok {g : σ → σ} {u : Unit} :
    (store g : Call ρ σ ε Unit) e s = .ok u s' ↔ g s = s' := by simp [store]

/-! ## Failing -/

/-- Return an error. -/
def fail (err : ε) : Call ρ σ ε α := fun _ s => .err err s

/-- Return an error if the condition holds. -/
def failIf (c : Prop) [Decidable c] (err : ε) : Call ρ σ ε Unit :=
  fun _ s => if c then .err err s else .ok () s

/-- Run a part under a condition. -/
def onlyIf (c : Prop) [Decidable c] (x : Call ρ σ ε Unit) : Call ρ σ ε Unit :=
  if c then x else pure ()

/-- Trap if the condition fails. -/
def require (f : ρ → Bool) : Call ρ σ ε Unit := fun e s => if f e then .ok () s else .trap

/-- The value, or an error. -/
def okOr (o : Option α) (err : ε) : Call ρ σ ε α := fun _ s =>
  match o with
  | some a => .ok a s
  | none => .err err s

/-- The value, or a trap. -/
def orTrap (o : Option α) : Call ρ σ ε α := fun _ s =>
  match o with
  | some a => .ok a s
  | none => .trap

/-- A pure fallible computation. -/
def ofExcept (x : Except ε α) : Call ρ σ ε α := fun _ s =>
  match x with
  | .ok a => .ok a s
  | .error err => .err err s

/-- A value that may trap, and what goes on from it. -/
theorem orTrap_bind {o : Option α} {f : α → Option β} {g : α → Call ρ σ ε β}
    (h : ∀ a, g a e s = orTrap (f a) e s) : (orTrap o >>= g) e s = orTrap (o.bind f) e s := by
  rcases o with _ | a
  · rfl
  · exact h a

/-- A pure fallible computation that may also trap. -/
def ofResult (x : Option (Except ε α)) : Call ρ σ ε α := fun _ s =>
  match x with
  | some (.ok a) => .ok a s
  | some (.error err) => .err err s
  | none => .trap

/-- Translate the error. -/
def mapErr (g : ε → ε') (x : Call ρ σ ε α) : Call ρ σ ε' α := fun e s =>
  match x e s with
  | .ok a s' => .ok a s'
  | .err err s' => .err (g err) s'
  | .trap => .trap

/-- Catch the error.  The store is kept as the failing computation left it: nothing is rolled back
inside an invocation. -/
def attempt (x : Call ρ σ ε α) : Call ρ σ ε' (Except ε α) := fun e s =>
  match x e s with
  | .ok a s' => .ok (.ok a) s'
  | .err err s' => .ok (.error err) s'
  | .trap => .trap

@[simp] theorem fail_ok {err : ε} :
    ¬ (fail err : Call ρ σ ε α) e s = .ok a s' := by simp [fail]

@[simp] theorem failIf_ok {c : Prop} [Decidable c] {err : ε} {u : Unit} :
    (failIf c err : Call ρ σ ε Unit) e s = .ok u s' ↔ ¬ c ∧ s = s' := by
  unfold failIf
  split <;> simp_all

@[simp] theorem onlyIf_ok {c : Prop} [Decidable c] {x : Call ρ σ ε Unit} {u : Unit} :
    onlyIf c x e s = .ok u s' ↔ (c → x e s = .ok u s') ∧ (¬ c → s = s') := by
  unfold onlyIf
  split <;> simp_all

/-- The store an invocation goes on from after a step that was taken or left out. -/
theorem eq_of_onlyIf {c p : Prop} {t : σ} (h : c → p ∧ s = t) (h' : ¬ c → s = t) : s = t := by
  by_cases hc : c
  · exact (h hc).2
  · exact h' hc

@[simp] theorem require_ok {f : ρ → Bool} {u : Unit} :
    (require f : Call ρ σ ε Unit) e s = .ok u s' ↔ f e = true ∧ s = s' := by
  unfold require
  split <;> simp_all

@[simp] theorem okOr_ok {o : Option α} {err : ε} :
    (okOr o err : Call ρ σ ε α) e s = .ok a s' ↔ o = some a ∧ s = s' := by
  cases o <;> simp [okOr]

@[simp] theorem orTrap_ok {o : Option α} :
    (orTrap o : Call ρ σ ε α) e s = .ok a s' ↔ o = some a ∧ s = s' := by
  cases o <;> simp [orTrap]

@[simp] theorem ofExcept_ok {x : Except ε α} :
    (ofExcept x : Call ρ σ ε α) e s = .ok a s' ↔ x = .ok a ∧ s = s' := by
  cases x <;> simp [ofExcept]

@[simp] theorem ofResult_ok {x : Option (Except ε α)} :
    (ofResult x : Call ρ σ ε α) e s = .ok a s' ↔ x = some (.ok a) ∧ s = s' := by
  rcases x with _ | _ | _ <;> simp [ofResult]

@[simp] theorem mapErr_ok {g : ε → ε'} :
    mapErr g x e s = .ok a s' ↔ x e s = .ok a s' := by
  unfold mapErr
  cases x e s <;> simp

@[simp] theorem attempt_ok {r : Except ε α} :
    (attempt x : Call ρ σ ε' (Except ε α)) e s = .ok r s' ↔
      match r with
      | .ok a => x e s = .ok a s'
      | .error err => x e s = .err err s' := by
  unfold attempt
  cases x e s <;> cases r <;> simp

/-! ## Sequences

A sequence whose first part is one of the above says at once what the first part found, and where
it goes on. -/

section Sequences

variable {e : ρ} {s s' : σ} {b : β} {g : α → Call ρ σ ε β} {k : Unit → Call ρ σ ε β}

/-- A first part that returns a value and leaves the store alone. -/
theorem read_seq {p : α → Prop} (h : ∀ a t, x e s = .ok a t ↔ p a ∧ s = t) :
    (x >>= g) e s = .ok b s' ↔ ∃ a, p a ∧ g a e s = .ok b s' := by
  simp only [bind_ok, h, and_assoc, exists_and_left, exists_eq_left']

/-- A first part that checks something and leaves the store alone. -/
theorem check_seq {x : Call ρ σ ε Unit} {c : Prop} (h : ∀ u t, x e s = .ok u t ↔ c ∧ s = t) :
    (x >>= k) e s = .ok b s' ↔ c ∧ k () e s = .ok b s' :=
  (read_seq h).trans ⟨by rintro ⟨_, hc, h⟩; exact ⟨hc, h⟩, fun h => ⟨(), h⟩⟩

@[simp ↓] theorem pure_seq : (pure a >>= g) e s = .ok b s' ↔ g a e s = .ok b s' := .rfl

@[simp ↓] theorem asks_seq {f : ρ → α} :
    (asks f >>= g) e s = .ok b s' ↔ g (f e) e s = .ok b s' := .rfl

@[simp ↓] theorem view_seq {f : σ → α} :
    (view f >>= g) e s = .ok b s' ↔ g (f s) e s = .ok b s' := .rfl

@[simp ↓] theorem look_seq {f : ρ → σ → α} :
    (look f >>= g) e s = .ok b s' ↔ g (f e s) e s = .ok b s' := .rfl

@[simp ↓] theorem store_seq {f : σ → σ} :
    (store f >>= k) e s = .ok b s' ↔ k () e (f s) = .ok b s' := .rfl

@[simp ↓] theorem failIf_seq {c : Prop} [Decidable c] {err : ε} :
    (failIf c err >>= k) e s = .ok b s' ↔ ¬ c ∧ k () e s = .ok b s' :=
  check_seq fun _ _ => failIf_ok

@[simp ↓] theorem require_seq {f : ρ → Bool} :
    (require f >>= k) e s = .ok b s' ↔ f e = true ∧ k () e s = .ok b s' :=
  check_seq fun _ _ => require_ok

@[simp ↓] theorem okOr_seq {o : Option α} {err : ε} :
    (okOr o err >>= g) e s = .ok b s' ↔ ∃ a, o = some a ∧ g a e s = .ok b s' :=
  read_seq fun _ _ => okOr_ok

@[simp ↓] theorem orTrap_seq {o : Option α} :
    (orTrap o >>= g) e s = .ok b s' ↔ ∃ a, o = some a ∧ g a e s = .ok b s' :=
  read_seq fun _ _ => orTrap_ok

@[simp ↓] theorem ofExcept_seq {x : Except ε α} :
    (ofExcept x >>= g) e s = .ok b s' ↔ ∃ a, x = .ok a ∧ g a e s = .ok b s' :=
  read_seq fun _ _ => ofExcept_ok

@[simp ↓] theorem ofResult_seq {x : Option (Except ε α)} :
    (ofResult x >>= g) e s = .ok b s' ↔ ∃ a, x = some (.ok a) ∧ g a e s = .ok b s' :=
  read_seq fun _ _ => ofResult_ok

theorem mapErr_seq {f : ε' → ε} {x : Call ρ σ ε' α} :
    (mapErr f x >>= g) e s = .ok b s' ↔ ∃ a t, x e s = .ok a t ∧ g a e t = .ok b s' := by
  simp only [bind_ok, mapErr_ok]

theorem onlyIf_seq {c : Prop} [Decidable c] {x : Call ρ σ ε Unit} :
    (onlyIf c x >>= k) e s = .ok b s' ↔
      ∃ u t, ((c → x e s = .ok u t) ∧ (¬ c → s = t)) ∧ k u e t = .ok b s' := by
  simp only [bind_ok, onlyIf_ok]

/-- A sequence within a sequence. -/
theorem seq_assoc {f : α → Call ρ σ ε β} {γ : Type} {h : β → Call ρ σ ε γ} {c : γ} :
    (x >>= f >>= h) e s = .ok c s' ↔ (x >>= fun a => f a >>= h) e s = .ok c s' := by
  simp only [bind_ok]
  constructor
  · rintro ⟨_, _, ⟨a, t, hx, hf⟩, hh⟩
    exact ⟨a, t, hx, _, _, hf, hh⟩
  · rintro ⟨a, t, hx, _, _, hf, hh⟩
    exact ⟨_, _, ⟨a, t, hx, hf⟩, hh⟩

end Sequences

/-! ## Signatures

The environment lists the authorisations an invocation is given.  A requirement uses one up: an
address asked twice in one frame must have authorised the frame twice. -/

/-- An address must have authorised the invocation. -/
def requireAuth {κ : Type} [DecidableEq κ] (auths : ρ → List κ) (a : κ) : Call ρ σ ε Unit :=
  require fun e => a ∈ auths e

/-- An address already asked in this frame is asked once more: it must have authorised the
invocation twice. -/
def requireAuthAgain {κ : Type} [DecidableEq κ] (auths : ρ → List κ) (a : κ) : Call ρ σ ε Unit :=
  require fun e => 2 ≤ (auths e).count a

section Signatures

variable {κ : Type} [DecidableEq κ] {auths : ρ → List κ} {a : κ} {e : ρ} {s s' : σ}

@[simp] theorem requireAuth_ok {u : Unit} :
    (requireAuth auths a : Call ρ σ ε Unit) e s = .ok u s' ↔ a ∈ auths e ∧ s = s' := by
  simp [requireAuth]

@[simp] theorem requireAuthAgain_ok {u : Unit} :
    (requireAuthAgain auths a : Call ρ σ ε Unit) e s = .ok u s' ↔
      2 ≤ (auths e).count a ∧ s = s' := by
  simp [requireAuthAgain]

variable {b : β} {k : Unit → Call ρ σ ε β}

@[simp ↓] theorem requireAuth_seq :
    (requireAuth auths a >>= k) e s = .ok b s' ↔ a ∈ auths e ∧ k () e s = .ok b s' :=
  check_seq fun _ _ => requireAuth_ok

@[simp ↓] theorem requireAuthAgain_seq :
    (requireAuthAgain auths a >>= k) e s = .ok b s' ↔
      2 ≤ (auths e).count a ∧ k () e s = .ok b s' :=
  check_seq fun _ _ => requireAuthAgain_ok

end Signatures

/-! ## Part of the store -/

/-- Run a part that sees only some of the environment and some of the store. -/
def zoom {ρ' σ' : Type} (env : ρ → ρ') (get : σ → σ') (set : σ' → σ → σ) (x : Call ρ' σ' ε α) :
    Call ρ σ ε α := fun e s =>
  match x (env e) (get s) with
  | .ok a t => .ok a (set t s)
  | .err err t => .err err (set t s)
  | .trap => .trap

@[simp] theorem zoom_ok {ρ' σ' : Type} {env : ρ → ρ'} {get : σ → σ'} {set : σ' → σ → σ}
    {x : Call ρ' σ' ε α} :
    zoom env get set x e s = .ok a s' ↔ ∃ t, x (env e) (get s) = .ok a t ∧ set t s = s' := by
  unfold zoom
  cases x (env e) (get s) <;> simp [and_assoc]

@[simp] theorem zoom_err {ρ' σ' : Type} {env : ρ → ρ'} {get : σ → σ'} {set : σ' → σ → σ}
    {x : Call ρ' σ' ε α} {err : ε} :
    zoom env get set x e s = .err err s' ↔ ∃ t, x (env e) (get s) = .err err t ∧ set t s = s' := by
  unfold zoom
  cases x (env e) (get s) <;> simp [and_assoc]

/-- What is set is what is got, and nothing else of the store is lost. -/
structure IsPart {σ' : Type} (get : σ → σ') (set : σ' → σ → σ) : Prop where
  get_set : ∀ t s, get (set t s) = t
  set_set : ∀ t t' s, set t' (set t s) = set t' s
  set_get : ∀ s, set (get s) s = s

namespace IsPart

variable {ρ' σ' : Type} {env : ρ → ρ'} {get : σ → σ'} {set : σ' → σ → σ}

/-- **A sequence in a part is a sequence of computations in the part.** -/
theorem zoom_bind (hpart : IsPart get set) {x : Call ρ' σ' ε α} {f : α → Call ρ' σ' ε β} :
    zoom env get set (x >>= f) e s =
      (zoom env get set x >>= fun a => zoom env get set (f a)) e s := by
  cases hx : x (env e) (get s) with
  | trap =>
    have hzoom : zoom env get set x e s = .trap := by simp only [zoom, hx]
    rw [bind_of_trap hzoom, zoom, bind_of_trap hx]
  | err err t =>
    have hzoom : zoom env get set x e s = .err err (set t s) := by simp only [zoom, hx]
    rw [bind_of_err hzoom, zoom, bind_of_err hx]
  | ok a t =>
    have hzoom : zoom env get set x e s = .ok a (set t s) := by simp only [zoom, hx]
    rw [bind_of_ok hzoom, zoom, bind_of_ok hx, zoom, hpart.get_set]
    cases f a (env e) t <;> simp only [hpart.set_set]

theorem zoom_ofExcept (hpart : IsPart get set) {x : Except ε α} :
    zoom env get set (ofExcept x) e s = ofExcept x e s := by
  rcases x with err | a <;> simp [zoom, ofExcept, hpart.set_get]

theorem zoom_okOr (hpart : IsPart get set) {o : Option α} {err : ε} :
    zoom env get set (okOr o err) e s = okOr o err e s := by
  rcases o with _ | a <;> simp [zoom, okOr, hpart.set_get]

end IsPart

/-! ## Errors

The same inversions for `x e s = .err err s'`, where an error is caught and its store kept. -/

@[simp] theorem pure_err {err : ε} :
    ¬ (pure a : Call ρ σ ε α) e s = .err err s' := nofun

/-- A sequence fails in its first part, or in its second after the first succeeded. -/
@[simp] theorem bind_err {f : α → Call ρ σ ε β} {err : ε} :
    (x >>= f) e s = .err err s' ↔
      x e s = .err err s' ∨ ∃ a t, x e s = .ok a t ∧ f a e t = .err err s' := by
  change (match x e s with
    | .ok a s' => f a e s'
    | .err err s' => .err err s'
    | .trap => .trap) = _ ↔ _
  cases x e s with
  | ok a t => exact ⟨fun h => .inr ⟨a, t, rfl, h⟩, by rintro (⟨⟨⟩⟩ | ⟨_, _, ⟨⟩, h⟩); exact h⟩
  | err err t => simp
  | trap => simp

@[simp] theorem asks_err {f : ρ → α} {err : ε} :
    ¬ (asks f : Call ρ σ ε α) e s = .err err s' := by simp [asks]

@[simp] theorem view_err {f : σ → α} {err : ε} :
    ¬ (view f : Call ρ σ ε α) e s = .err err s' := by simp [view]

@[simp] theorem look_err {f : ρ → σ → α} {err : ε} :
    ¬ (look f : Call ρ σ ε α) e s = .err err s' := by simp [look]

@[simp] theorem store_err {g : σ → σ} {err : ε} :
    ¬ (store g : Call ρ σ ε Unit) e s = .err err s' := by simp [store]

@[simp] theorem fail_err {err err' : ε} :
    (fail err : Call ρ σ ε α) e s = .err err' s' ↔ err = err' ∧ s = s' := by simp [fail]

@[simp] theorem failIf_err {c : Prop} [Decidable c] {err err' : ε} :
    (failIf c err : Call ρ σ ε Unit) e s = .err err' s' ↔ c ∧ err = err' ∧ s = s' := by
  unfold failIf
  split <;> simp_all

@[simp] theorem onlyIf_err {c : Prop} [Decidable c] {x : Call ρ σ ε Unit} {err : ε} :
    onlyIf c x e s = .err err s' ↔ c ∧ x e s = .err err s' := by
  unfold onlyIf
  split <;> simp_all

@[simp] theorem require_err {f : ρ → Bool} {err : ε} :
    ¬ (require f : Call ρ σ ε Unit) e s = .err err s' := by
  unfold require
  split <;> simp

@[simp] theorem requireAuth_err {κ : Type} [DecidableEq κ] {auths : ρ → List κ} {a : κ} {err : ε} :
    ¬ (requireAuth auths a : Call ρ σ ε Unit) e s = .err err s' :=
  require_err

@[simp] theorem mapErr_err {g : ε → ε'} {err : ε'} :
    mapErr g x e s = .err err s' ↔ ∃ err₀, x e s = .err err₀ s' ∧ g err₀ = err := by
  unfold mapErr
  cases x e s with
  | ok a t => simp
  | err err₀ t => simp [and_assoc, and_comm]
  | trap => simp

@[simp] theorem attempt_err {err : ε'} :
    ¬ (attempt x : Call ρ σ ε' (Except ε α)) e s = .err err s' := by
  unfold attempt
  cases x e s <;> simp

@[simp] theorem okOr_err {o : Option α} {err err' : ε} :
    (okOr o err : Call ρ σ ε α) e s = .err err' s' ↔ o = none ∧ err = err' ∧ s = s' := by
  cases o <;> simp [okOr]

@[simp] theorem orTrap_err {o : Option α} {err : ε} :
    ¬ (orTrap o : Call ρ σ ε α) e s = .err err s' := by
  cases o <;> simp [orTrap]

@[simp] theorem ofExcept_err {x : Except ε α} {err : ε} :
    (ofExcept x : Call ρ σ ε α) e s = .err err s' ↔ x = .error err ∧ s = s' := by
  cases x <;> simp [ofExcept]

@[simp] theorem ofResult_err {x : Option (Except ε α)} {err : ε} :
    (ofResult x : Call ρ σ ε α) e s = .err err s' ↔ x = some (.error err) ∧ s = s' := by
  rcases x with _ | _ | _ <;> simp [ofResult]

/-! ## What a computation keeps -/

/-- From a store with the invariant, the computation ends in one, also where it ends in an error,
and a value it returns has the property. -/
def Keeps (I : σ → Prop) (x : Call ρ σ ε α) (Q : α → Prop) : Prop := ∀ e s, I s →
  match x e s with
  | .ok a s' => I s' ∧ Q a
  | .err _ s' => I s'
  | .trap => True

namespace Keeps

variable {I : σ → Prop} {P : α → Prop} {Q : β → Prop}

theorem ok (hx : Keeps I x P) (hs : I s) (h : x e s = .ok a s') : I s' ∧ P a := by
  have hend := hx e s hs
  rwa [h] at hend

theorem err (hx : Keeps I x P) {err : ε} (hs : I s) (h : x e s = .err err s') : I s' := by
  have hend := hx e s hs
  rwa [h] at hend

theorem mono {Q : α → Prop} (hx : Keeps I x P) (h : ∀ a, P a → Q a) :
    Keeps I x Q := by
  intro e s hs
  have hend := hx e s hs
  cases hres : x e s with
  | trap => trivial
  | err err t => rwa [hres] at hend
  | ok a t => rw [hres] at hend; exact ⟨hend.1, h a hend.2⟩

theorem pure (h : P a) : Keeps I (Pure.pure a : Call ρ σ ε α) P := fun _ _ hs => ⟨hs, h⟩

/-- **What the first part keeps, and the second from every value of the first, a sequence
keeps.** -/
theorem bind {f : α → Call ρ σ ε β} (hx : Keeps I x P) (hf : ∀ a, P a → Keeps I (f a) Q) :
    Keeps I (x >>= f) Q := by
  intro e s hs
  cases h : x e s with
  | trap => rw [bind_of_trap h]; trivial
  | err err t => rw [bind_of_err h]; exact hx.err hs h
  | ok a t =>
    rw [bind_of_ok h]
    exact hf a (hx.ok hs h).2 e t (hx.ok hs h).1

theorem asks {f : ρ → α} (h : ∀ e, P (f e)) : Keeps I (asks f : Call ρ σ ε α) P :=
  fun e _ hs => ⟨hs, h e⟩

theorem view {f : σ → α} (h : ∀ s, I s → P (f s)) : Keeps I (view f : Call ρ σ ε α) P :=
  fun _ s hs => ⟨hs, h s hs⟩

theorem store {g : σ → σ} (h : ∀ s, I s → I (g s)) :
    Keeps I (store g : Call ρ σ ε Unit) fun _ => True := fun _ s hs => ⟨h s hs, trivial⟩

theorem fail {err : ε} : Keeps I (fail err : Call ρ σ ε α) P := fun _ _ hs => hs

theorem failIf {c : Prop} [Decidable c] {err : ε} :
    Keeps I (failIf c err : Call ρ σ ε Unit) fun _ => ¬ c := by
  intro e s hs
  unfold Call.failIf
  by_cases hc : c
  · rw [if_pos hc]; exact hs
  · rw [if_neg hc]; exact ⟨hs, hc⟩

theorem okOr {o : Option α} {err : ε} :
    Keeps I (okOr o err : Call ρ σ ε α) fun a => o = some a := by
  intro e s hs
  rcases o with _ | a
  · exact hs
  · exact ⟨hs, rfl⟩

theorem ofExcept {x : Except ε α} :
    Keeps I (ofExcept x : Call ρ σ ε α) fun a => x = .ok a := by
  intro e s hs
  rcases x with err | a
  · exact hs
  · exact ⟨hs, rfl⟩

/-- Where an error is caught, the value has the property if there is one. -/
theorem attempt (hx : Keeps I x P) :
    Keeps I (attempt x : Call ρ σ ε' (Except ε α)) fun r => ∀ a, r = .ok a → P a := by
  intro e s hs
  unfold Call.attempt
  cases h : x e s with
  | trap => trivial
  | err err t => exact ⟨hx.err hs h, nofun⟩
  | ok a t => exact ⟨(hx.ok hs h).1, fun _ ha => Except.ok.inj ha ▸ (hx.ok hs h).2⟩

end Keeps

/-! ## What a whole invocation leaves behind -/

/-- The store after the invocation, if it succeeded: an error or a trap leaves no trace. -/
def commit (x : Call ρ σ ε α) (e : ρ) (s : σ) : Option σ :=
  match x e s with
  | .ok _ s' => some s'
  | .err _ _ => none
  | .trap => none

@[simp] theorem commit_eq_some :
    commit x e s = some s' ↔ ∃ a, x e s = .ok a s' := by
  unfold commit
  cases x e s <;> simp

end Call

end Foundations
