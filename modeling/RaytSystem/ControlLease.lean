import Mathlib.Logic.Function.Basic
import Mathlib.Data.List.Basic

/-! The lease table of the control database. Every operation runs in one writer
transaction, so a history is a sequence of calls; each call reads its own clock,
and clocks of different calls are unrelated. -/
namespace RaytSystem.Control

inductive ControlError where
  | leaseBusy (message : String)
  | valueError (message : String)
  deriving DecidableEq, Repr

structure LeaseRow where
  controlEpoch : String
  ownerRunId : Option String
  fencingToken : Nat
  expiresAtMs : Int
  renewedAtMs : Int
  deriving DecidableEq, Repr

structure LeaseToken where
  partitionKey : String
  controlEpoch : String
  ownerRunId : String
  fencingToken : Nat
  expiresAtMs : Int
  deriving DecidableEq, Repr

structure LeaseTable where
  controlEpoch : String
  row : String → Option LeaseRow

namespace LeaseTable

def empty (epoch : String) : LeaseTable := ⟨epoch, fun _ => none⟩

def put (t : LeaseTable) (p : String) (r : LeaseRow) : LeaseTable :=
  {t with row := Function.update t.row p (some r)}

theorem put_row (t : LeaseTable) (p q : String) (r : LeaseRow) :
    (t.put p r).row q = if q = p then some r else t.row q :=
  Function.update_apply t.row p (some r) q

end LeaseTable

def LeaseToken.owns (lease : LeaseToken) (row : LeaseRow) : Bool :=
  row.controlEpoch == lease.controlEpoch && row.ownerRunId == some lease.ownerRunId
    && row.fencingToken == lease.fencingToken

variable (t : LeaseTable)

def acquireLease (partitionKey ownerRunId : String) (ttlMs nowMs : Int) :
    Except ControlError (LeaseToken × LeaseTable) :=
  if ttlMs ≤ 0 then .error (.valueError "ttl_ms must be positive")
  else
    let grant (fencingToken : Nat) : LeaseToken × LeaseTable :=
      (⟨partitionKey, t.controlEpoch, ownerRunId, fencingToken, nowMs + ttlMs⟩,
        t.put partitionKey
          ⟨t.controlEpoch, some ownerRunId, fencingToken, nowMs + ttlMs, nowMs⟩)
    match t.row partitionKey with
    | none => .ok (grant 1)
    | some row =>
      if row.ownerRunId = some ownerRunId ∧ row.expiresAtMs > nowMs then
        .ok (grant row.fencingToken)
      else if row.ownerRunId = none ∨ row.expiresAtMs ≤ nowMs then
        .ok (grant (row.fencingToken + 1))
      else .error (.leaseBusy s!"Live lease for {partitionKey} belongs to another run")

def verifyLease (lease : LeaseToken) (nowMs : Int) : Bool :=
  match t.row lease.partitionKey with
  | none => false
  | some row => lease.owns row && decide (row.expiresAtMs > nowMs)

def extendRow (lease : LeaseToken) (row : LeaseRow) (expiresAtMs nowMs : Int) : LeaseTable :=
  t.put lease.partitionKey {row with expiresAtMs := expiresAtMs, renewedAtMs := nowMs}

def renewLease (lease : LeaseToken) (ttlMs nowMs : Int) :
    Except ControlError (LeaseToken × LeaseTable) :=
  if ttlMs ≤ 0 then .error (.valueError "ttl_ms must be positive")
  else match t.row lease.partitionKey with
    | none => .error (.leaseBusy s!"Lease {lease.partitionKey} cannot be renewed")
    | some row =>
      if lease.owns row && decide (row.expiresAtMs > nowMs) then
        .ok ({lease with expiresAtMs := nowMs + ttlMs},
          extendRow t lease row (nowMs + ttlMs) nowMs)
      else .error (.leaseBusy s!"Lease {lease.partitionKey} cannot be renewed")

def holdOne (lease : LeaseToken) (row : LeaseRow) (nowMs : Int) :
    Option Int → LeaseToken × LeaseTable
  | none => ({lease with expiresAtMs := row.expiresAtMs}, t)
  | some ttl => ({lease with expiresAtMs := nowMs + ttl},
      extendRow t lease row (nowMs + ttl) nowMs)

def holdEach (nowMs : Int) (renewTtlMs : Option Int) :
    List LeaseToken → LeaseTable → Except ControlError (List LeaseToken × LeaseTable)
  | [], t => .ok ([], t)
  | lease :: rest, t =>
    match t.row lease.partitionKey with
    | none => .error (.leaseBusy s!"Lease {lease.partitionKey} is stale or expired")
    | some row =>
      if lease.owns row && decide (row.expiresAtMs > nowMs) then
        let held := holdOne t lease row nowMs renewTtlMs
        match holdEach nowMs renewTtlMs rest held.2 with
        | .ok (renewed, t') => .ok (held.1 :: renewed, t')
        | .error e => .error e
      else .error (.leaseBusy s!"Lease {lease.partitionKey} is stale or expired")

def holdValidLeases (leases : List LeaseToken) (nowMs : Int) (renewTtlMs : Option Int) :
    Except ControlError (List LeaseToken × LeaseTable) :=
  if leases = [] then .error (.valueError "At least one lease is required")
  else if renewTtlMs.any (· ≤ 0) then .error (.valueError "renew_ttl_ms must be positive")
  else holdEach nowMs renewTtlMs leases t

def renewEach (ttlMs nowMs : Int) :
    List LeaseToken → LeaseTable → Except ControlError (List LeaseToken × LeaseTable)
  | [], t => .ok ([], t)
  | lease :: rest, t =>
    match t.row lease.partitionKey with
    | none => .error (.leaseBusy s!"Lease {lease.partitionKey} changed under writer lock")
    | some row =>
      if lease.owns row then
        match renewEach ttlMs nowMs rest (extendRow t lease row (nowMs + ttlMs) nowMs) with
        | .ok (renewed, t') => .ok ({lease with expiresAtMs := nowMs + ttlMs} :: renewed, t')
        | .error e => .error e
      else .error (.leaseBusy s!"Lease {lease.partitionKey} changed under writer lock")

def renewHeldLeases (leases : List LeaseToken) (ttlMs nowMs : Int) :
    Except ControlError (List LeaseToken × LeaseTable) :=
  if leases = [] ∨ ttlMs ≤ 0 then
    .error (.valueError "Held lease renewal requires leases and a positive TTL")
  else renewEach ttlMs nowMs leases t

def releaseLease (lease : LeaseToken) : Bool × LeaseTable :=
  match t.row lease.partitionKey with
  | none => (false, t)
  | some row =>
    if lease.owns row then
      (true, t.put lease.partitionKey {row with ownerRunId := none, expiresAtMs := 0})
    else (false, t)

structure HeldRenewal where
  leases : List LeaseToken
  ttlMs : Int
  nowMs : Int

inductive LeaseCall where
  | acquire (partitionKey ownerRunId : String) (ttlMs nowMs : Int)
  | renew (lease : LeaseToken) (ttlMs nowMs : Int)
  | hold (leases : List LeaseToken) (nowMs : Int) (renewTtlMs : Option Int)
      (body : List HeldRenewal) (bodyRaises : Bool)
  | release (lease : LeaseToken)

def holdBody : List HeldRenewal → LeaseTable → Except ControlError LeaseTable
  | [], t => .ok t
  | r :: rest, t => match renewHeldLeases t r.leases r.ttlMs r.nowMs with
    | .ok (_, t') => holdBody rest t'
    | .error e => .error e

def LeaseCall.step : LeaseCall → LeaseTable
  | .acquire p owner ttl now => match acquireLease t p owner ttl now with
    | .ok (_, t') => t'
    | .error _ => t
  | .renew lease ttl now => match renewLease t lease ttl now with
    | .ok (_, t') => t'
    | .error _ => t
  | .hold leases now ttl body bodyRaises => match holdValidLeases t leases now ttl with
    | .ok (_, t') => match holdBody body t' with
      | .ok t'' => if bodyRaises then t else t''
      | .error _ => t
    | .error _ => t
  | .release lease => (releaseLease t lease).2

def run (calls : List LeaseCall) : LeaseTable := calls.foldl LeaseCall.step t

end RaytSystem.Control
