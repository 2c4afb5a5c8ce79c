import StellarLend.Foundations.Windows
import StellarLend.HelloWorld.Contract

/-!
# HelloWorld/Activity — the activity log, page by page

    log                  a₀ a₁ b₀ a₂ b₁ a₃                    oldest first
    get_recent_activity  a₃ b₁ │ a₂ b₀ │ a₁ a₀                pages of two
    feed of a            a₁ a₀ │ a₃ a₂

Both readings promise the newest entries first.  The one of the whole log counts its window from the
end of the log and then reads it backwards; it traps where the window's far end is no 32-bit
integer.  The one of a user turns the log around first and then counts the window from the end
again, so its pages come from the wrong end: `pages_newest_first_iff` says which of them are right
all the same.
-/

namespace StellarLend.HelloWorld

open Foundations Call
open Lending (Address)

variable {e : Env} {s : Storage} {user : Address} {limit offset : ℕ}

/-! ## The two readings -/

/-- The log that is stored, oldest first. -/
def activityLog (s : Storage) : List Activity := s.stats.activityLog.getD []

/-- The entries from `offset` back.  Their sum with `limit` is checked. -/
def getRecentActivity {ε : Type} (limit offset : ℕ) : Invocation ε (List Activity) := do
  let log ← view activityLog
  if log.length ≤ offset then pure [] else
    let last ← orTrap (U32.checkedAdd offset limit)
    let start := log.length - last
    let stop := log.length - offset
    pure (entriesAt log (List.range' start (stop - start)).reverse)

/-- The user's entries are collected newest first, and the window is then counted from their end. -/
def getUserActivityFeed {ε : Type} (user : Address) (limit offset : ℕ) :
    Invocation ε (List Activity) := do
  let log ← view activityLog
  let mine := (entriesAt log (List.range log.length).reverse).filter fun entry => entry.user = user
  if mine.length ≤ offset then pure [] else
    let stop := mine.length - offset
    let start := stop - limit
    pure (entriesAt mine (List.range' start (stop - start)))

/-! ## What they promise -/

/-- The log, newest first. -/
def newestFirst (s : Storage) : List Activity := (activityLog s).reverse

/-- A user's entries, newest first. -/
def newestFirstOf (user : Address) (s : Storage) : List Activity :=
  ((activityLog s).filter fun entry => entry.user = user).reverse

/-- The call returns the page of the entries, and nothing else happens. -/
def Returns {ε : Type} (call : Invocation ε (List Activity)) (e : Env) (s : Storage)
    (entries : List Activity) (limit offset : ℕ) : Prop :=
  call e s = .ok (page limit offset entries) s

/-- The far end of the page is a 32-bit integer, if there is anything on it. -/
def EndFits (length limit offset : ℕ) : Prop := offset < length → offset + limit ≤ U32.MAX

/-- Each entry of the page is repeated where the page of the same length is that ends `offset`
entries before the last one. -/
def Mirrored (entries : List Activity) (limit offset : ℕ) : Prop :=
  ∀ k, k < min limit (entries.length - offset) →
    entries[offset + k]? = entries[entries.length - offset - limit + k]?

/-! ## The whole log -/

theorem getRecentActivity_of_le {ε : Type} (h : (activityLog s).length ≤ offset) :
    (getRecentActivity limit offset : Invocation ε _) e s = .ok [] s := by
  change (if (activityLog s).length ≤ offset then pure [] else _ : Invocation ε _) e s = _
  rw [if_pos h]
  rfl

theorem getRecentActivity_of_lt {ε : Type} (h : offset < (activityLog s).length) :
    (getRecentActivity limit offset : Invocation ε _) e s =
      if offset + limit ≤ U32.MAX then .ok (page limit offset (newestFirst s)) s else .trap := by
  change (if (activityLog s).length ≤ offset then pure [] else
    orTrap (U32.checkedAdd offset limit) >>= _ : Invocation ε _) e s = _
  rw [if_neg (Nat.not_le.mpr h), U32.checkedAdd]
  by_cases hfits : offset + limit ≤ U32.MAX
  · have hwidth : (activityLog s).length - offset - ((activityLog s).length - (offset + limit)) =
        min limit ((newestFirst s).length - offset) := by
      rw [newestFirst, List.length_reverse]
      omega
    rw [if_pos hfits, if_pos hfits]
    change Outcome.ok (entriesAt (activityLog s) _) s = _
    rw [entriesAt_downTo (by omega) (Nat.sub_le _ _), Nat.sub_sub_self h.le, hwidth]
    exact congrArg (Outcome.ok · s) page_min
  · rw [if_neg hfits, if_neg hfits]
    rfl

/-- **The whole log's page is right exactly if its far end fits.** -/
theorem getRecentActivity_iff {ε : Type} :
    Returns (getRecentActivity limit offset : Invocation ε _) e s (newestFirst s) limit offset ↔
      EndFits (activityLog s).length limit offset := by
  rcases Nat.lt_or_ge offset (activityLog s).length with hlt | hle
  · rw [Returns, getRecentActivity_of_lt hlt]
    by_cases hfits : offset + limit ≤ U32.MAX
    · rw [if_pos hfits]
      exact iff_of_true rfl fun _ => hfits
    · rw [if_neg hfits]
      exact iff_of_false (fun h => by cases h) fun h => hfits (h hlt)
  · have hnone : page limit offset (newestFirst s) = [] :=
      page_of_length_le (List.length_reverse.trans_le hle)
    rw [Returns, getRecentActivity_of_le hle, hnone]
    exact iff_of_true rfl fun hlt => absurd hlt (Nat.not_lt.mpr hle)

/-! ## The entries of a user -/

theorem collected_eq (user : Address) (s : Storage) :
    ((entriesAt (activityLog s) (List.range (activityLog s).length).reverse).filter
      fun entry => entry.user = user) = newestFirstOf user s := by
  rw [entriesAt_all_reverse, newestFirstOf, List.filter_reverse]

/-- **The feed's page ends `offset` entries before the oldest one.** -/
theorem getUserActivityFeed_eq {ε : Type} {entries : List Activity}
    (hentries : newestFirstOf user s = entries) :
    (getUserActivityFeed user limit offset : Invocation ε _) e s =
      .ok (page (min limit (entries.length - offset)) (entries.length - offset - limit) entries)
        s := by
  change (if (List.filter _ (entriesAt (activityLog s) _)).length ≤ offset then pure [] else
    pure (entriesAt (List.filter _ (entriesAt (activityLog s) _)) _) : Invocation ε _) e s = _
  rw [collected_eq, hentries]
  rcases Nat.lt_or_ge offset entries.length with hlt | hle
  · have hwidth : entries.length - offset - (entries.length - offset - limit) =
        min limit (entries.length - offset) := by omega
    rw [if_neg (Nat.not_le.mpr hlt), entriesAt_range', hwidth]
    rfl
  · rw [if_pos hle, Nat.sub_eq_zero_of_le hle, Nat.min_zero]
    rfl

/-- **The feed's page is right exactly if the entries repeat as it takes them.** -/
theorem getUserActivityFeed_iff {ε : Type} :
    Returns (getUserActivityFeed user limit offset : Invocation ε _) e s (newestFirstOf user s)
      limit offset ↔ Mirrored (newestFirstOf user s) limit offset := by
  have hmin : page (min limit ((newestFirstOf user s).length - offset)) offset
      (newestFirstOf user s) = page limit offset (newestFirstOf user s) := page_min
  rw [Returns, getUserActivityFeed_eq rfl, ← hmin]
  constructor
  · intro h
    injection h with hpages
    exact page_eq_page_iff.mp hpages.symm
  · intro h
    exact congrArg (Outcome.ok · s) (page_eq_page_iff.mpr h).symm

/-- **Of entries that are all different, only a page in the middle is mirrored.** -/
theorem mirrored_iff_of_nodup {entries : List Activity} (h : entries.Nodup) :
    Mirrored entries limit offset ↔ entries.length ≤ offset ∨ limit = 0 ∨
      entries.length = 2 * offset + min limit (entries.length - offset) := by
  rcases Nat.lt_or_ge offset entries.length with hlt | hle
  · rw [Mirrored, ← page_eq_page_iff, page_eq_page_iff_of_nodup h (by omega)]
    omega
  · refine iff_of_true (fun k hk => ?_) (.inl hle)
    omega

/-! ## Page after page -/

/-- **The pages are right exactly if the far end fits and the user's entries are mirrored; for
entries that are all different that is a page in the middle; and pages in a row that are all right
make up everything, newest first.** -/
theorem pages_newest_first_iff {ε : Type} (e : Env) (s : Storage) (user : Address) :
    (∀ limit offset,
      (Returns (getRecentActivity limit offset : Invocation ε _) e s (newestFirst s) limit offset ∧
        Returns (getUserActivityFeed user limit offset : Invocation ε _) e s
          (newestFirstOf user s) limit offset) ↔
      EndFits (activityLog s).length limit offset ∧
        Mirrored (newestFirstOf user s) limit offset) ∧
    ((newestFirstOf user s).Nodup → ∀ limit offset,
      Mirrored (newestFirstOf user s) limit offset ↔
        (newestFirstOf user s).length ≤ offset ∨ limit = 0 ∨ (newestFirstOf user s).length =
          2 * offset + min limit ((newestFirstOf user s).length - offset)) ∧
    ∀ limit n, (activityLog s).length ≤ n * limit →
      (∀ k, k < n → EndFits (activityLog s).length limit (k * limit) ∧
        Mirrored (newestFirstOf user s) limit (k * limit)) →
      ∃ recent feed : ℕ → List Activity,
        (∀ k, k < n →
          (getRecentActivity limit (k * limit) : Invocation ε _) e s = .ok (recent k) s ∧
          (getUserActivityFeed user limit (k * limit) : Invocation ε _) e s = .ok (feed k) s) ∧
        (List.range n).flatMap recent = newestFirst s ∧
        (List.range n).flatMap feed = newestFirstOf user s := by
  refine ⟨fun limit offset => and_congr getRecentActivity_iff getUserActivityFeed_iff,
    fun h limit offset => mirrored_iff_of_nodup h, fun limit n hn hpages => ?_⟩
  have hall : (newestFirst s).length ≤ n * limit := List.length_reverse.trans_le hn
  have hmine : (newestFirstOf user s).length ≤ n * limit := by
    rw [newestFirstOf, List.length_reverse]
    exact (List.length_filter_le _ _).trans hn
  refine ⟨fun k => page limit (k * limit) (newestFirst s),
    fun k => page limit (k * limit) (newestFirstOf user s), fun k hk => ?_,
    flatMap_pages_eq_self hall, flatMap_pages_eq_self hmine⟩
  obtain ⟨hfits, hmirrored⟩ := hpages k hk
  exact ⟨getRecentActivity_iff.mpr hfits, getUserActivityFeed_iff.mpr hmirrored⟩

namespace Sample

/-- Alice deposits three times. -/
def threeDeposits : List Tx :=
  [deploy, ⟨envAt 2 [alice], .depositCollateral alice none 1000⟩,
    ⟨envAt 3 [alice], .depositCollateral alice none 2000⟩,
    ⟨envAt 4 [alice], .depositCollateral alice none 3000⟩]

theorem newestFirstOf_threeDeposits : newestFirstOf alice (ledger threeDeposits) =
    [⟨alice, "deposit", 3000, none, 4⟩, ⟨alice, "deposit", 2000, none, 3⟩,
      ⟨alice, "deposit", 1000, none, 2⟩] := by decide

/-- **The newest of Alice's three deposits is asked for and the oldest returned; and a page that
skips one entry and takes all that a limit can say traps.** -/
theorem oldest_returned_first :
    (getUserActivityFeed alice 1 0 : Invocation LendingError _) (envAt 5 [])
        (ledger threeDeposits) = .ok [⟨alice, "deposit", 1000, none, 2⟩] (ledger threeDeposits) ∧
      ¬ Returns (getUserActivityFeed alice 1 0 : Invocation LendingError _) (envAt 5 [])
        (ledger threeDeposits) (newestFirstOf alice (ledger threeDeposits)) 1 0 ∧
      (getRecentActivity U32.MAX 1 : Invocation LendingError _) (envAt 5 [])
        (ledger threeDeposits) = .trap := by
  have hlength : (activityLog (ledger threeDeposits)).length = 3 := by decide
  refine ⟨?_, fun h => ?_, ?_⟩
  · exact getUserActivityFeed_eq newestFirstOf_threeDeposits
  · have hfirst := getUserActivityFeed_iff.mp h 0
    rw [newestFirstOf_threeDeposits] at hfirst
    exact absurd (hfirst (by decide)) (by decide)
  · rw [getRecentActivity_of_lt (by omega)]
    rfl

end Sample

end StellarLend.HelloWorld
