import Mathlib.Logic.Function.Basic
import StellarLend.Foundations.Rounding
import StellarLend.Foundations.Run

/-!
# Staking/Service — stakes and the voting power that goes with them

`api/src/services/staking.service.ts`: one position a user, in a map that loses none.  A delegation
writes three positions: the former delegate's, the delegator's and the new delegate's, the last as
it was read before the first was written.  Amounts are numbers here and text in the source; instants
are milliseconds, and what is one instant in an operation is read once.
-/

namespace StellarLend.Staking

open Foundations

/-! ## Configuration -/

def baseAprBps : ℤ := 500

def lockupBonusBps : ℤ := 200

def epochDurationSeconds : ℚ := 86400

def MIN_STAKE_AMOUNT : ℤ := 1000000

def LOCKUP_OPTIONS : List ℕ := [0, 30, 90, 180, 365]

/-! ## Positions -/

structure StakingPosition where
  userAddress : String
  stakedAmount : ℤ
  lockupDays : ℕ
  lockupEndTime : ℤ
  votingPower : ℤ
  delegatedTo : Option String
  delegatedFrom : List String
  earnedRewards : ℤ
  createdAt : ℤ
  updatedAt : ℤ
deriving DecidableEq

/-- The map of positions, by user. -/
abbrev Positions := String → Option StakingPosition

/-- An error with the status that the API answers with. -/
structure ServiceError where
  message : String
  status : ℕ
deriving DecidableEq

/-- Each thirty days of lockup add a quarter of a percent. -/
def computeVotingPower (stakedAmount : ℤ) (lockupDays : ℕ) : ℤ :=
  (stakedAmount * (10000 + (lockupDays / 30) * 25 : ℕ)).tdiv 10000

def computeLockupEnd (now : ℤ) (lockupDays : ℕ) : ℤ := now + lockupDays * 24 * 60 * 60 * 1000

/-- The rewards up to now.  The time is counted in doubles, the result rounded to an integer. -/
def accrueRewards (now : ℤ) (position : StakingPosition) : ℤ :=
  if position.stakedAmount = 0 then position.earnedRewards
  else
    let totalAprBps : ℤ := baseAprBps + (position.lockupDays / 30 : ℕ) * lockupBonusBps
    let elapsed := toDouble (toDouble (now - position.updatedAt : ℤ) / 1000)
    let epochsElapsed := toDouble (elapsed / epochDurationSeconds)
    let scaled := toDouble (toDouble (epochsElapsed * totalAprBps) * 100)
    position.earnedRewards +
      (position.stakedAmount * ⌊scaled + 1 / 2⌋).tdiv (365 * 10000 * 100)

/-- The user that a position is delegated to; an empty name counts for none. -/
def StakingPosition.delegate (position : StakingPosition) : Option String :=
  position.delegatedTo.filter fun d => d ≠ ""

/-! ## Operations -/

section Operations

variable (now : ℤ) (positions : Positions) (userAddress : String)

def stake (amount : ℤ) (lockupDays : Option ℕ) :
    Except ServiceError (StakingPosition × Positions) :=
  let lockup := lockupDays.getD 0
  if amount < MIN_STAKE_AMOUNT then .error ⟨"Stake amount below minimum", 400⟩
  else if lockup ∉ LOCKUP_OPTIONS then
    .error ⟨"Invalid lockup period. Allowed: 0, 30, 90, 180, 365 days", 400⟩
  else
    match positions userAddress with
    | some existing =>
      let newStaked := existing.stakedAmount + amount
      let updated := { existing with
        stakedAmount := newStaked
        lockupDays := max existing.lockupDays lockup
        lockupEndTime := computeLockupEnd now (max existing.lockupDays lockup)
        votingPower := computeVotingPower newStaked (max existing.lockupDays lockup)
        earnedRewards := accrueRewards now existing
        updatedAt := now }
      .ok (updated, Function.update positions userAddress (some updated))
    | none =>
      let position : StakingPosition := {
        userAddress
        stakedAmount := amount
        lockupDays := lockup
        lockupEndTime := computeLockupEnd now lockup
        votingPower := computeVotingPower amount lockup
        delegatedTo := none
        delegatedFrom := []
        earnedRewards := 0
        createdAt := now
        updatedAt := now }
      .ok (position, Function.update positions userAddress (some position))

/-- The penalty for unstaking early is computed and logged, and goes into nothing else. -/
def unstake (amount : ℤ) : Except ServiceError (StakingPosition × Positions) :=
  match positions userAddress with
  | none => .error ⟨"No staking position found", 404⟩
  | some position =>
    if position.stakedAmount < amount then
      .error ⟨"Unstake amount exceeds staked balance", 400⟩
    else
      let newStaked := position.stakedAmount - amount
      let updated := { position with
        stakedAmount := newStaked
        votingPower := computeVotingPower newStaked position.lockupDays
        earnedRewards := accrueRewards now position
        updatedAt := now }
      .ok (updated, Function.update positions userAddress (some updated))

/-- The positions after the former delegate, if there is one, is back to the own voting power. -/
def removeFromPrevious (delegatorPos : StakingPosition) : Positions :=
  match delegatorPos.delegate with
  | none => positions
  | some previous =>
    match positions previous with
    | none => positions
    | some prevDelegate =>
      Function.update positions previous (some { prevDelegate with
        delegatedFrom := prevDelegate.delegatedFrom.filter fun a => a ≠ userAddress
        votingPower := computeVotingPower prevDelegate.stakedAmount prevDelegate.lockupDays
        updatedAt := now })

/-- The delegate's position is read before the former delegate's is written. -/
def delegate (delegateTo : String) :
    Except ServiceError ((StakingPosition × StakingPosition) × Positions) :=
  match positions userAddress with
  | none => .error ⟨"No staking position for delegator", 404⟩
  | some delegatorPos =>
    if userAddress = delegateTo then .error ⟨"Cannot delegate to self", 400⟩
    else
      match positions delegateTo with
      | none => .error ⟨"Delegate address has no staking position", 404⟩
      | some delegatePos =>
        let removed := removeFromPrevious now positions userAddress delegatorPos
        let updatedDelegator := { delegatorPos with
          delegatedTo := some delegateTo
          votingPower := 0
          updatedAt := now }
        let updatedDelegate := { delegatePos with
          delegatedFrom := (delegatePos.delegatedFrom ++ [userAddress]).eraseDups
          votingPower := delegatePos.votingPower + delegatorPos.votingPower
          updatedAt := now }
        .ok ((updatedDelegator, updatedDelegate),
          Function.update (Function.update removed userAddress (some updatedDelegator)) delegateTo
            (some updatedDelegate))

/-- The positions after a delegate has given back a delegator's stake, as far as there is power. -/
def reclaim (position : StakingPosition) (delegateTo : String) : Positions :=
  match positions delegateTo with
  | none => positions
  | some delegatePos =>
    Function.update positions delegateTo (some { delegatePos with
      delegatedFrom := delegatePos.delegatedFrom.filter fun a => a ≠ userAddress
      votingPower := max (delegatePos.votingPower - position.stakedAmount) 0
      updatedAt := now })

def revokeDelegation : Except ServiceError (StakingPosition × Positions) :=
  match positions userAddress with
  | none => .error ⟨"No staking position found", 404⟩
  | some position =>
    match position.delegate with
    | none => .error ⟨"No active delegation to revoke", 400⟩
    | some delegateTo =>
      let restored := { position with
        delegatedTo := none
        votingPower := computeVotingPower position.stakedAmount position.lockupDays
        updatedAt := now }
      .ok (restored, Function.update (reclaim now positions userAddress position delegateTo)
        userAddress (some restored))

/-- The position without its rewards, and the rewards. -/
def claimRewards : Except ServiceError ((StakingPosition × ℤ) × Positions) :=
  match positions userAddress with
  | none => .error ⟨"No staking position found", 404⟩
  | some position =>
    let updated := { position with
      earnedRewards := 0
      updatedAt := now }
    .ok ((updated, accrueRewards now position),
      Function.update positions userAddress (some updated))

/-- The position, with the rewards up to now. -/
def getPosition : Except ServiceError StakingPosition :=
  match positions userAddress with
  | none => .error ⟨"No staking position found", 404⟩
  | some position => .ok { position with earnedRewards := accrueRewards now position }

end Operations

/-! ## The machine -/

inductive Op where
  | stake (amount : ℤ) (lockupDays : Option ℕ)
  | unstake (amount : ℤ)
  | delegate (delegateTo : String)
  | revokeDelegation
  | claimRewards

/-- A request: who asks for what, and when. -/
structure Request where
  now : ℤ
  userAddress : String
  op : Op

/-- The positions after a request that was not refused. -/
def step (r : Request) (positions : Positions) : Option Positions :=
  match r.op with
  | .stake amount lockupDays =>
    ((stake r.now positions r.userAddress amount lockupDays).map Prod.snd).toOption
  | .unstake amount => ((unstake r.now positions r.userAddress amount).map Prod.snd).toOption
  | .delegate delegateTo =>
    ((delegate r.now positions r.userAddress delegateTo).map Prod.snd).toOption
  | .revokeDelegation => ((revokeDelegation r.now positions r.userAddress).map Prod.snd).toOption
  | .claimRewards => ((claimRewards r.now positions r.userAddress).map Prod.snd).toOption

/-- The positions after these requests, on a service that starts with none. -/
def positionsAfter (requests : List Request) : Positions := run step (fun _ => none) requests

end StellarLend.Staking
