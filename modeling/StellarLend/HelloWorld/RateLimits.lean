import StellarLend.Foundations.TokenBucket
import StellarLend.HelloWorld.Acts

/-!
# HelloWorld/RateLimits — how many calls the limiter lets through

A call takes a unit from two buckets, the user's and the pool's.  The user's bucket is capped by
what the user may burst, so a window of a run lets no more calls of one user through than that and
what is refilled (`calls_limited`).  The pool's bucket is shared by all users but capped by what the
*caller* may burst: a user with grace fills it past the pool's own capacity, and the others spend
it.
-/

namespace StellarLend.HelloWorld

open Foundations Call Function
open Lending (Address)

variable {e : Env} {s s' : Storage} {cfg : RateLimitConfig} {cap bound : ℤ} {now : ℕ}
  {bucket : Option BucketState} {b : BucketState} {caller user pool : Address} {op : String}

/-! ## One bucket -/

/-- The source's `refill_per_second(cfg).unwrap_or(0)`. -/
def refillRate (cfg : RateLimitConfig) : ℤ :=
  match refillPerSecond cfg with
  | .ok rate => rate
  | .error _ => 0

theorem refillRate_of_ok {rate : ℤ} (h : refillPerSecond cfg = .ok rate) :
    refillRate cfg = rate := by
  rw [refillRate, h]

theorem refillRate_nonneg (cfg : RateLimitConfig) : 0 ≤ refillRate cfg := by
  unfold refillRate
  split
  next rate hrate =>
    unfold refillPerSecond at hrate
    split at hrate
    · cases hrate
    simp only [except_bind_ok, orErr_ok, I128.checkedMul_eq_some, I128.checkedDiv_eq_some] at hrate
    obtain ⟨_, ⟨-, rfl⟩, -, -, rfl⟩ := hrate
    refine Int.tdiv_nonneg (mul_nonneg (Int.natCast_nonneg _) ?_) (Int.natCast_nonneg _)
    decide
  next => exact le_rfl

theorem capacityTokens_nonneg (cfg : RateLimitConfig) (grace : Bool) :
    0 ≤ capacityTokens cfg grace := by
  refine mul_nonneg ?_ (by decide)
  split <;> omega

/-- The level of a bucket once it is refilled. -/
def levelAt (cfg : RateLimitConfig) (cap : ℤ) (now : ℕ) : Option BucketState → ℤ
  | none => cap
  | some b =>
    if now ≤ b.lastRefill then b.tokens
    else min (b.tokens + refillRate cfg * (now - b.lastRefill : ℕ)) cap

theorem levelAt_some (cfg : RateLimitConfig) (cap : ℤ) (now : ℕ) (b : BucketState) :
    levelAt cfg cap now (some b) =
      if now ≤ b.lastRefill then b.tokens
      else min (b.tokens + refillRate cfg * (now - b.lastRefill : ℕ)) cap := rfl

theorem refillBucket_eq {b' : BucketState} (h : refillBucket now b cfg cap = .ok b') :
    b' = ⟨levelAt cfg cap now (some b), max now b.lastRefill⟩ := by
  unfold refillBucket at h
  rw [levelAt_some]
  split at h
  next hle =>
    obtain rfl := Except.ok.inj h
    rw [if_pos hle, max_eq_right hle]
  next hlt =>
    simp only [except_bind_ok, orErr_ok, I128.checkedMul_eq_some, I128.checkedAdd_eq_some] at h
    obtain ⟨rate, hrate, _, ⟨-, rfl⟩, _, ⟨-, rfl⟩, hb⟩ := h
    rw [if_neg hlt, max_eq_left (Nat.le_of_not_le hlt), refillRate_of_ok hrate]
    exact (Except.ok.inj hb).symm

/-- The bucket as the library sees it. -/
def toBucket (b : BucketState) : Bucket := ⟨b.tokens, b.lastRefill⟩

/-- **A unit is drawn on any bound the refilled bucket respects.** -/
theorem takeUnit_draw (h : takeUnit now bucket cfg cap = .ok b)
    (hlevel : levelAt cfg cap now bucket ≤ bound) :
    Draw (refillRate cfg) bound TOKEN_SCALE now (bucket.map toBucket) (toBucket b) := by
  simp only [takeUnit, except_bind_ok] at h
  obtain ⟨b', hrefill, h⟩ := h
  split at h
  · cases h
  next henough =>
    simp only [except_bind_ok, orErr_ok, I128.checkedSub_eq_some] at h
    obtain ⟨_, ⟨-, rfl⟩, hb⟩ := h
    obtain rfl := Except.ok.inj hb
    obtain rfl := refillBucket_eq hrefill
    rcases bucket with _ | old
    · have hfull : levelAt cfg cap now (some ⟨cap, now⟩) = cap := if_pos le_rfl
      rw [Option.getD_none, hfull] at henough ⊢
      exact ⟨by simpa [toBucket] using henough, by simpa [toBucket, levelAt] using hlevel,
        by simp, max_self now⟩
    · refine ⟨by simpa [toBucket] using henough, by simpa [toBucket] using hlevel, ?_, rfl⟩
      rintro _ ⟨⟩
      simp only [toBucket, Option.getD_some, sub_add_cancel, levelAt_some]
      split
      next hle => simp [Nat.sub_eq_zero_of_le hle]
      next => exact min_le_left _ _

/-- A bucket within the cap is within it once it is refilled. -/
theorem levelAt_le (h : Fits cap (bucket.map toBucket)) : levelAt cfg cap now bucket ≤ cap := by
  rcases bucket with _ | b
  · exact le_rfl
  rw [levelAt_some]
  split
  · exact (h (toBucket b) rfl).2
  · exact min_le_right _ _

/-! ## One call -/

/-- A call of the limiter. -/
structure ConsumeCall where
  env : Env
  caller : Address
  user : Address
  op : String
  pool : Address

/-- A refused call fails the transaction. -/
def consumeStep (c : ConsumeCall) : Storage → Option Storage :=
  commit (consume c.caller c.user c.op c.pool) c.env

/-- The user's bucket. -/
def userBucketOf (s : Storage) (user : Address) (op : String) (pool : Address) : Option Bucket :=
  (s.rateLimits.userBucket user op pool).map toBucket

/-- The pool's bucket. -/
def poolBucketOf (s : Storage) (op : String) (pool : Address) : Option Bucket :=
  (s.rateLimits.globalBucket op pool).map toBucket

/-! ## What the limits are -/

/-- Two stores have the same limits. -/
structure SameLimits (s s' : Storage) : Prop where
  opConfig : s'.rateLimits.opConfig = s.rateLimits.opConfig
  opPoolConfig : s'.rateLimits.opPoolConfig = s.rateLimits.opPoolConfig
  userGrace : s'.rateLimits.userGrace = s.rateLimits.userGrace

theorem SameLimits.getPoolConfig (h : SameLimits s s') (op : String) (pool : Address) :
    getPoolConfig s' op pool = getPoolConfig s op pool := by
  simp only [HelloWorld.getPoolConfig, getOpConfig, h.opConfig, h.opPoolConfig]

theorem SameLimits.capacityOf (h : SameLimits s s') (user : Address) (op : String)
    (pool : Address) : capacityOf s' user op pool = capacityOf s user op pool := by
  simp only [HelloWorld.capacityOf, h.getPoolConfig, isGraceEnabled, h.userGrace]

/-- How many calls may go through in a window: the burst, what is refilled, and one. -/
def allowance (cfg : RateLimitConfig) (grace : Bool) (length : ℕ) : ℤ :=
  (cfg.maxCallsPerWindow + cfg.burstCalls + if grace then cfg.graceBurstCalls else 0) +
    length * refillRate cfg / TOKEN_SCALE + 1

/-- Units within a capacity and a refill are calls within the allowance. -/
theorem le_allowance {grace : Bool} {n length : ℕ}
    (h : TOKEN_SCALE * n ≤ capacityTokens cfg grace + refillRate cfg * length) :
    n ≤ allowance cfg grace length := by
  unfold capacityTokens at h
  unfold allowance
  generalize ((cfg.maxCallsPerWindow : ℤ) + cfg.burstCalls +
    ((if grace then cfg.graceBurstCalls else 0 : ℕ) : ℤ)) = calls at *
  have hunits : n - calls ≤ length * refillRate cfg / TOKEN_SCALE := by
    refine (Int.le_ediv_iff_mul_le (by decide)).mpr ?_
    rw [sub_mul, mul_comm (n : ℤ), mul_comm (length : ℤ)]
    linarith
  linarith

/-! ## Runs -/

/-- No call has gone through yet. -/
structure Unused (s : Storage) : Prop where
  userBucket : s.rateLimits.userBucket = fun _ _ _ => none
  globalBucket : s.rateLimits.globalBucket = fun _ _ => none

/-- The clock does not go back. -/
def ClockedCalls (calls : List ConsumeCall) : Prop :=
  calls.Pairwise fun c c' => c.env.timestamp ≤ c'.env.timestamp

instance (calls : List ConsumeCall) : Decidable (ClockedCalls calls) :=
  inferInstanceAs (Decidable (calls.Pairwise _))

/-- The call takes a unit from the user's bucket. -/
def drawsUser (user : Address) (op : String) (pool : Address) (s : Storage) (c : ConsumeCall) :
    Bool := !isBypassed s c.caller && decide (c.user = user ∧ c.op = op ∧ c.pool = pool)

/-- The call takes a unit from the pool's bucket. -/
def drawsPool (op : String) (pool : Address) (s : Storage) (c : ConsumeCall) : Bool :=
  !isBypassed s c.caller && decide (c.op = op ∧ c.pool = pool)

/-- The calls of a user that are not bypassed and go through in a window. -/
def userCalls (user : Address) (op : String) (pool : Address) (opens length : ℕ) (s : Storage)
    (calls : List ConsumeCall) : ℕ :=
  drawn consumeStep (·.env.timestamp) (drawsUser user op pool) opens (opens + length) s calls

/-- The calls of all users that are not bypassed and go through in a window. -/
def poolCalls (op : String) (pool : Address) (opens length : ℕ) (s : Storage)
    (calls : List ConsumeCall) : ℕ :=
  drawn consumeStep (·.env.timestamp) (drawsPool op pool) opens (opens + length) s calls

/-- A user with grace does not fill the pool's bucket past the pool's own capacity: it is there
already, and has too little in it. -/
def Modest (s : Storage) (c : ConsumeCall) : Prop :=
  isBypassed s c.caller = false → isGraceEnabled s c.user c.op = true →
    (getPoolConfig s c.op c.pool).graceBurstCalls ≠ 0 →
      ∃ b ∈ s.rateLimits.globalBucket c.op c.pool,
        b.tokens + refillRate (getPoolConfig s c.op c.pool) *
          (c.env.timestamp - b.lastRefill : ℕ) ≤ capacityTokens (getPoolConfig s c.op c.pool) false

instance (s : Storage) (c : ConsumeCall) : Decidable (Modest s c) :=
  inferInstanceAs (Decidable (_ → _ → _ → _))

theorem consumeStep_sameLimits {c : ConsumeCall} (h : consumeStep c s = some s') :
    SameLimits s s' := by
  obtain ⟨_, h⟩ := commit_eq_some.mp h
  obtain ⟨-, rfl⟩ | ⟨-, _, _, -, -, rfl⟩ := consume_ok h <;> exact ⟨rfl, rfl, rfl⟩

/-- **What a call does to a user's bucket.** -/
theorem consumeStep_user {c : ConsumeCall} (user : Address) (op : String) (pool : Address)
    (h : consumeStep c s = some s')
    (hfits : Fits (capacityOf s user op pool) (userBucketOf s user op pool)) :
    if drawsUser user op pool s c then ∃ b, userBucketOf s' user op pool = some b ∧
      Draw (refillRate (getPoolConfig s op pool)) (capacityOf s user op pool) TOKEN_SCALE
        c.env.timestamp (userBucketOf s user op pool) b
    else userBucketOf s' user op pool = userBucketOf s user op pool := by
  obtain ⟨_, h⟩ := commit_eq_some.mp h
  obtain ⟨hbypassed, rfl⟩ | ⟨hbypassed, bucket, shared, hbucket, -, rfl⟩ := consume_ok h
  · simp [drawsUser, hbypassed]
  by_cases hkey : c.user = user ∧ c.op = op ∧ c.pool = pool
  · obtain ⟨rfl, rfl, rfl⟩ := hkey
    rw [if_pos (by simp [drawsUser, hbypassed])]
    refine ⟨toBucket bucket, ?_, takeUnit_draw hbucket (levelAt_le hfits)⟩
    simp [userBucketOf, withGlobalBucket, withUserBucket]
  · rw [if_neg (by simp [drawsUser, hkey])]
    have hother : update s.rateLimits.userBucket c.user
        (update (s.rateLimits.userBucket c.user) c.op
          (update (s.rateLimits.userBucket c.user c.op) c.pool (some bucket))) user op pool =
        s.rateLimits.userBucket user op pool := by
      simp only [update_apply, ite_apply]
      split_ifs <;> simp_all
    exact congrArg (Option.map toBucket) hother

/-- A modest call refills the pool's bucket within the pool's own capacity. -/
theorem Modest.levelAt_le {c : ConsumeCall} (h : Modest s c)
    (hbypassed : isBypassed s c.caller = false)
    (hfits : Fits (capacityTokens (getPoolConfig s c.op c.pool) false)
      (poolBucketOf s c.op c.pool)) :
    levelAt (getPoolConfig s c.op c.pool) (capacityOf s c.user c.op c.pool) c.env.timestamp
      (s.rateLimits.globalBucket c.op c.pool) ≤
        capacityTokens (getPoolConfig s c.op c.pool) false := by
  by_cases hgrace : isGraceEnabled s c.user c.op = true ∧
      (getPoolConfig s c.op c.pool).graceBurstCalls ≠ 0
  · obtain ⟨b, hb, hlevel⟩ := h hbypassed hgrace.1 hgrace.2
    rw [Option.mem_def.mp hb, levelAt_some]
    split
    · exact (hfits (toBucket b) (by rw [poolBucketOf, hb]; rfl)).2
    · exact (min_le_left _ _).trans hlevel
  · have hsame : capacityOf s c.user c.op c.pool =
        capacityTokens (getPoolConfig s c.op c.pool) false := by
      rw [capacityOf, capacityTokens, capacityTokens]
      cases hflag : isGraceEnabled s c.user c.op with
      | false => rfl
      | true => simp [not_not.mp fun hburst => hgrace ⟨hflag, hburst⟩]
    rw [hsame]
    exact HelloWorld.levelAt_le hfits

/-- **What a modest call does to a pool's bucket.** -/
theorem consumeStep_pool {c : ConsumeCall} (op : String) (pool : Address)
    (h : consumeStep c s = some s') (hmodest : Modest s c)
    (hfits : Fits (capacityTokens (getPoolConfig s op pool) false) (poolBucketOf s op pool)) :
    if drawsPool op pool s c then ∃ b, poolBucketOf s' op pool = some b ∧
      Draw (refillRate (getPoolConfig s op pool)) (capacityTokens (getPoolConfig s op pool) false)
        TOKEN_SCALE c.env.timestamp (poolBucketOf s op pool) b
    else poolBucketOf s' op pool = poolBucketOf s op pool := by
  obtain ⟨_, h⟩ := commit_eq_some.mp h
  obtain ⟨hbypassed, rfl⟩ | ⟨hbypassed, bucket, shared, -, hshared, rfl⟩ := consume_ok h
  · simp [drawsPool, hbypassed]
  by_cases hkey : c.op = op ∧ c.pool = pool
  · obtain ⟨rfl, rfl⟩ := hkey
    rw [if_pos (by simp [drawsPool, hbypassed])]
    refine ⟨toBucket shared, ?_, takeUnit_draw hshared (hmodest.levelAt_le hbypassed hfits)⟩
    simp [poolBucketOf, withGlobalBucket]
  · rw [if_neg (by simp [drawsPool, hkey])]
    have hother : update s.rateLimits.globalBucket c.op
        (update (s.rateLimits.globalBucket c.op) c.pool (some shared)) op pool =
        s.rateLimits.globalBucket op pool := by
      simp only [update_apply, ite_apply]
      split_ifs <;> simp_all
    exact congrArg (Option.map toBucket) hother

/-- **With limits that stay as they are, every window lets no more calls of one user through than
the user's allowance; and if every call is modest, no more calls of all users together than the
pool's allowance.** -/
theorem calls_limited (hnew : Unused s) (calls : List ConsumeCall) (hclock : ClockedCalls calls) :
    (∀ user op pool opens length, userCalls user op pool opens length s calls ≤
      allowance (getPoolConfig s op pool) (isGraceEnabled s user op) length) ∧
    (Meets consumeStep Modest s calls → ∀ op pool opens length,
      poolCalls op pool opens length s calls ≤
        allowance (getPoolConfig s op pool) false length) := by
  have hsame : ∀ {t t' : Storage} {c : ConsumeCall}, consumeStep c t = some t' →
      SameLimits s t → SameLimits s t' := fun hstep ht =>
    have hnext := consumeStep_sameLimits hstep
    ⟨hnext.opConfig.trans ht.opConfig, hnext.opPoolConfig.trans ht.opPoolConfig,
      hnext.userGrace.trans ht.userGrace⟩
  constructor
  · intro user op pool opens length
    apply le_allowance
    have hall : Meets consumeStep (fun _ _ => True) s calls := meets_of_forall fun _ _ _ => trivial
    have hdrawn := hall.drawn_le (I := SameLimits s) (fun c => c.env.timestamp)
      (fun t => userBucketOf t user op pool) (drawsUser user op pool) opens (opens + length)
      (refillRate_nonneg (getPoolConfig s op pool))
      (capacityTokens_nonneg (getPoolConfig s op pool) (isGraceEnabled s user op))
      (show 0 ≤ TOKEN_SCALE by decide) (fun t c t' hstep _ ht hfits => ⟨hsame hstep ht, ?_⟩)
      ⟨rfl, rfl, rfl⟩ (by simp [Fits, userBucketOf, hnew.userBucket]) hclock
    · rwa [Nat.add_sub_cancel_left] at hdrawn
    · change Fits (capacityOf s user op pool) _ at hfits
      have huser := consumeStep_user user op pool hstep (by rwa [ht.capacityOf])
      rwa [ht.capacityOf, ht.getPoolConfig] at huser
  · intro hmodest op pool opens length
    apply le_allowance
    have hdrawn := hmodest.drawn_le (I := SameLimits s) (fun c => c.env.timestamp)
      (fun t => poolBucketOf t op pool) (drawsPool op pool) opens (opens + length)
      (refillRate_nonneg (getPoolConfig s op pool))
      (capacityTokens_nonneg (getPoolConfig s op pool) false)
      (show 0 ≤ TOKEN_SCALE by decide) (fun t c t' hstep hC ht hfits => ⟨hsame hstep ht, ?_⟩)
      ⟨rfl, rfl, rfl⟩ (by simp [Fits, poolBucketOf, hnew.globalBucket]) hclock
    · rwa [Nat.add_sub_cancel_left] at hdrawn
    · have hpool := consumeStep_pool op pool hstep hC (by rwa [ht.getPoolConfig])
      rwa [ht.getPoolConfig] at hpool

namespace Sample

/-- Alice has grace for borrows. -/
def graced : Storage :=
  ledger [deploy, ⟨envAt 1 [admin], .setUserRateLimitGrace admin alice "borrow" true⟩]

/-- A user borrows from the pool of usdc. -/
def borrowCall (now : ℕ) (user : Address) : ConsumeCall :=
  ⟨envAt now [user], user, user, "borrow", usdc⟩

/-- Bob calls twice, and later alice does. -/
def modestCalls : List ConsumeCall := [borrowCall 5 bob, borrowCall 5 bob, borrowCall 6 alice]

theorem calls_limited_modest :
    userCalls bob "borrow" usdc 5 1 graced modestCalls ≤ (9 : ℤ) ∧
      poolCalls "borrow" usdc 5 1 graced modestCalls ≤ (9 : ℤ) := by
  have hnew : Unused graced := ⟨rfl, rfl⟩
  have h := calls_limited hnew modestCalls (by decide)
  have hallowance : ∀ grace, allowance (getPoolConfig graced "borrow" usdc) grace 1 =
      if grace then 19 else 9 := by decide
  refine ⟨(h.1 bob "borrow" usdc 5 1).trans_eq (hallowance _), ?_⟩
  exact (h.2 (by decide) "borrow" usdc 5 1).trans_eq (hallowance _)

/-- **Alice alone borrows eighteen times in one second from a pool that may be borrowed from nine
times.** -/
theorem pool_overrun :
    poolCalls "borrow" usdc 5 0 graced (List.replicate 18 (borrowCall 5 alice)) = 18 ∧
      allowance (getPoolConfig graced "borrow" usdc) false 0 = 9 := by
  decide

end Sample

end StellarLend.HelloWorld
