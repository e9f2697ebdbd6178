import Mathlib.Data.Nat.Notation
import RaytSystem.ControlLease
import RaytSystem.RelyGuarantee

/-! `_build` of the code graph: builders that write `CURRENT`, `manifest.json` and the write-ahead
file under a fenced lease. What a builder reads of the sources is an input, and so is which read or
write of a file raises. -/
namespace RaytSystem.CodeGraph
open Control Interleaving

structure CodeGraphSnapshot where
  logicalFingerprint : ℕ
  /-- `git_head`, `git_branch` and `dirty`. -/
  git : ℕ
  /-- Everything else, with the time of creation. -/
  details : ℕ
  deriving DecidableEq

structure CodeGraphManifest where
  snapshotId : String
  snapshotSha256 : String
  details : ℕ
  deriving DecidableEq

structure GraphPointer where
  snapshotSha256 : String
  manifestId : String
  snapshotId : String
  fencingToken : ℕ
  deriving DecidableEq

inductive WalState
  | building | prepared | committed | error
  deriving DecidableEq

structure Wal where
  state : WalState
  snapshotSha256 : Option String
  fencingToken : ℕ
  deriving DecidableEq

structure GraphRules where
  sha256 : CodeGraphSnapshot → String
  snapshotId : CodeGraphSnapshot → String
  manifestId : CodeGraphManifest → String
  accepts : CodeGraphSnapshot → CodeGraphManifest → Bool

inductive GraphFile
  | current | manifest | wal
  deriving DecidableEq

structure GraphWrite where
  builder : ℕ
  token : ℕ
  file : GraphFile

structure GraphWorld where
  /-- The lease table as the last committed transaction left it. -/
  leases : LeaseTable
  /-- The builder that holds SQLite's writer lock. -/
  writer : Option ℕ
  current : Option GraphPointer
  manifestJson : Option CodeGraphManifest
  wal : Option Wal
  snapshots : String → Option CodeGraphSnapshot
  manifests : String → Option CodeGraphManifest
  /-- The wall clock as each builder has read it last. -/
  clock : ℕ → Int
  /-- The newest write first. -/
  journal : List GraphWrite
  /-- What a completed build leaves: the manifest that `CURRENT` names, and `manifest.json`. -/
  completions : List (Option CodeGraphManifest × Option CodeGraphManifest)

def GraphWorld.named (w : GraphWorld) : Option (CodeGraphSnapshot × CodeGraphManifest) :=
  w.current.bind fun p => (w.snapshots p.snapshotSha256).bind fun s =>
    (w.manifests p.manifestId).map fun m => (s,m)

inductive GraphFault
  | leaseBusy | valueError | databaseLocked | unavailable | security | integrity | osError
  | pathPolicy
  deriving DecidableEq, Repr

def GraphFault.caught : GraphFault → Bool
  | leaseBusy | unavailable | security | integrity | osError => true
  | valueError | databaseLocked | pathPolicy => false

inductive GraphAccess
  | plain
  /-- A read of `_recover_if_committed` that raises. -/
  | failedRead
  /-- The handler of `_build` overwrites the write-ahead file. -/
  | errorNote
  deriving DecidableEq

abbrev GraphProg := Prog GraphWorld GraphAccess GraphFault

def partition : String := "projection:code_graph"
def leaseTtl : Int := 120000

def faultOf : ControlError → GraphFault
  | .leaseBusy _ => .leaseBusy
  | .valueError _ => .valueError

variable (i : ℕ)

def readClock : GraphProg Int := do
  let passed ← .any ℕ
  .step .plain fun w =>
    (w.clock i + passed, {w with clock := Function.update w.clock i (w.clock i + passed)})

def transaction {β : Type} (f : LeaseTable → Except ControlError (β × LeaseTable)) : GraphProg β :=
  .attempt .plain fun w =>
    if w.writer.isSome then .error .databaseLocked
    else match f w.leases with
      | .ok (b, t) => .ok (b, {w with leases := t})
      | .error e => .error (faultOf e)

def acquire (owner : String) : GraphProg LeaseToken := do
  let now ← readClock i
  transaction fun t => acquireLease t partition owner leaseTtl now

variable (lease : LeaseToken)

def renew : GraphProg LeaseToken := do
  let now ← readClock i
  transaction fun t => renewLease t lease leaseTtl now

def release : GraphProg Unit :=
  transaction fun t => .ok ((),(releaseLease t lease).2)

/-- `hold_valid_leases` up to its `yield`: the renewal is written when the lock is released. -/
def holdLease : GraphProg LeaseTable := do
  let now ← readClock i
  .attempt .plain fun w =>
    if w.writer.isSome then .error .databaseLocked
    else match holdValidLeases w.leases [lease] now (some leaseTtl) with
      | .ok (_, t) => .ok (t, {w with writer := some i})
      | .error e => .error (faultOf e)

/-- The commit at the end of `hold_valid_leases`. With the last one of a build goes the observer's
note. -/
def commitLease (t : LeaseTable) (completes : Bool) : GraphProg Unit :=
  .set .plain fun w => {w with
    leases := t
    writer := none
    completions := if completes then (w.named.map Prod.snd,w.manifestJson) :: w.completions
      else w.completions }

def rollbackLease : GraphProg Unit := .set .plain fun w => {w with writer := none}

/-- A `with` of `hold_valid_leases`: an error of its body rolls the renewal back. -/
def holdingLease (completes : Bool) (body : GraphProg Unit) : GraphProg Unit := do
  let t ← holdLease i lease
  body.tryCatch fun e => do
    rollbackLease
    .fail e
  commitLease t completes

/-- `write_bytes_atomic`, which may raise before and after `os.replace`. -/
def writeBytesAtomic (access : GraphAccess) (f : GraphWorld → GraphWorld) : GraphProg Unit := do
  let early ← .any Bool
  .require (early = false) .osError
  .set access f
  let late ← .any Bool
  .require (late = false) .osError

def writeCurrent (p : GraphPointer) : GraphProg Unit :=
  writeBytesAtomic .plain fun w =>
    {w with current := some p, journal := ⟨i, lease.fencingToken, .current⟩ :: w.journal}

def writeManifest (m : CodeGraphManifest) : GraphProg Unit :=
  writeBytesAtomic .plain fun w =>
    {w with manifestJson := some m, journal := ⟨i, lease.fencingToken, .manifest⟩ :: w.journal}

def writeWal (access : GraphAccess) (state : WalState) (sha : Option String) : GraphProg Unit :=
  writeBytesAtomic access fun w =>
    {w with wal := some ⟨state, sha, lease.fencingToken⟩,
            journal := ⟨i, lease.fencingToken, .wal⟩ :: w.journal}

def writeFencedWal (access : GraphAccess) (state : WalState) (sha : Option String)
    (completes : Bool) : GraphProg Unit :=
  holdingLease i lease completes (writeWal i lease access state sha)

/-- `publish_immutable`, which may also raise for a file that it has published. -/
def publishSnapshot (sha : String) (s : CodeGraphSnapshot) : GraphProg Unit := do
  .attempt .plain fun w =>
    match w.snapshots sha with
    | none => .ok ((), {w with snapshots := Function.update w.snapshots sha (some s)})
    | some s' => if s' = s then .ok ((), w) else .error .integrity
  let raised ← .any Bool
  .require (raised = false) .osError

def publishManifest (manifestId : String) (m : CodeGraphManifest) : GraphProg Unit := do
  .attempt .plain fun w =>
    match w.manifests manifestId with
    | none => .ok ((), {w with manifests := Function.update w.manifests manifestId (some m)})
    | some m' => if m' = m then .ok ((), w) else .error .integrity
  let raised ← .any Bool
  .require (raised = false) .osError

section
variable (rules : GraphRules) (access : GraphAccess)

/-- `read_regular_file`, whose errors the caller takes for a missing file. -/
def readFile {α : Type} (f : GraphWorld → Option α) : GraphProg (Option α) := do
  let raised ← .any Bool
  if raised then .get access fun _ => none else .get .plain f

def loadObjects (p : GraphPointer) : GraphProg (CodeGraphSnapshot × CodeGraphManifest) := do
  let s ← readFile access fun w => w.snapshots p.snapshotSha256
  let s ← .ofOption s .unavailable
  let m ← readFile access fun w => w.manifests p.manifestId
  let m ← .ofOption m .unavailable
  .require (rules.sha256 s = p.snapshotSha256) .unavailable
  .require (m.snapshotSha256 = p.snapshotSha256) .unavailable
  .require (m.snapshotId = rules.snapshotId s) .unavailable
  .require (p.snapshotId = rules.snapshotId s) .unavailable
  .require (rules.accepts s m = true) .unavailable
  return (s,m)

def loadCurrent : GraphProg (Option (GraphPointer × CodeGraphSnapshot × CodeGraphManifest)) := do
  let current ← readFile access GraphWorld.current
  match current with
  | none => return none
  | some p => do
    let loaded ← loadObjects rules access p
    return some (p,loaded)

variable (i : ℕ) (lease : LeaseToken)

def recoverManifest (sha : String) (m : CodeGraphManifest) : GraphProg Unit := do
  let raised ← .any Bool
  .require (raised = false) .osError
  let m ← .attempt .plain fun w =>
    match w.manifests (rules.manifestId m) with
    | none => .error .pathPolicy
    | some m => .ok (m, w)
  holdingLease i lease false do
    writeManifest i lease m
    writeWal i lease .plain .committed (some sha)

def recoverIfCommitted : GraphProg Unit := do
  let wal ← readFile .failedRead GraphWorld.wal
  match wal with
  | none => return ()
  | some wal =>
    if wal.state = .prepared then do
      let current ← loadCurrent rules .failedRead
      match current with
      | none => return ()
      | some (p, _, m) =>
        if wal.snapshotSha256 = some p.snapshotSha256 then
          recoverManifest rules i lease p.snapshotSha256 m
        else return ()
    else return ()

def suppressing {α : Type} (p : GraphProg α) (otherwise : α) : GraphProg α :=
  p.tryCatch fun e => if e = .unavailable then .pure otherwise else .fail e

def buildRound : GraphProg Unit := do
  let _ ← renew i lease
  writeFencedWal i lease .plain .building none false

/-- A stage of the pipeline, which may raise what `_build` catches, or something else. -/
def stage : GraphProg Unit := do
  let raised ← .any ℕ
  .require (raised ≠ 1) .security
  .require (raised = 0) .valueError

def observedSnapshot : GraphProg CodeGraphSnapshot := do
  let logicalFingerprint ← .any ℕ
  let git ← .any ℕ
  let details ← .any ℕ
  return ⟨logicalFingerprint, git, details⟩

/-- `_build` from the loading of the old projection to the new snapshot. -/
def extractGraph : GraphProg CodeGraphSnapshot := do
  writeFencedWal i lease .plain .building none false
  let rounds ← .any ℕ
  .each (fun _ => buildRound i lease) (List.range rounds)
  stage
  writeFencedWal i lease .plain .building none false
  stage
  writeFencedWal i lease .plain .building none false
  observedSnapshot

variable (s : CodeGraphSnapshot)

def manifestOf : CodeGraphManifest :=
  ⟨rules.snapshotId s, rules.sha256 s, s.details⟩

def pointerOf : GraphPointer :=
  ⟨rules.sha256 s, rules.manifestId (manifestOf rules s), rules.snapshotId s, lease.fencingToken⟩

def switchPointer : GraphProg Unit :=
  holdingLease i lease true do
    writeCurrent i lease (pointerOf rules lease s)
    writeManifest i lease (manifestOf rules s)
    writeWal i lease .plain .committed (some (rules.sha256 s))

def publishGraph : GraphProg Unit := do
  stage
  publishSnapshot (rules.sha256 s) s
  publishManifest (rules.manifestId (manifestOf rules s)) (manifestOf rules s)
  writeFencedWal i lease .plain .prepared (some (rules.sha256 s)) false
  switchPointer rules i lease s

def unchanged : Option (GraphPointer × CodeGraphSnapshot × CodeGraphManifest) → Bool
  | none => false
  | some (_, old, _) => old.logicalFingerprint = s.logicalFingerprint && old.git = s.git

def finishBuild (old : Option (GraphPointer × CodeGraphSnapshot × CodeGraphManifest))
    (s : CodeGraphSnapshot) : GraphProg Unit :=
  if unchanged s old then
    writeFencedWal i lease .plain .committed (old.map fun o => o.1.snapshotSha256) true
  else publishGraph rules i lease s

def buildBody : GraphProg Unit := do
  suppressing (recoverIfCommitted rules i lease) ()
  let old ← suppressing (loadCurrent rules .plain) none
  let s ← extractGraph i lease
  finishBuild rules i lease old s

def noteError (live : Bool) : GraphProg Unit :=
  if live then (writeFencedWal i lease .errorNote .error none false).tryCatch fun _ => .pure ()
  else .pure ()

def buildHandler (e : GraphFault) : GraphProg Unit :=
  if e.caught then do
    let now ← readClock i
    let live ← .get .plain fun w => verifyLease w.leases lease now
    noteError i lease live
    .fail .unavailable
  else .fail e

def build (owner : ℕ → String) (i : ℕ) : GraphProg Unit := do
  let lease ← (acquire i (owner i)).tryCatch fun e =>
    if e.caught then .fail .unavailable else .fail e
  ((buildBody rules i lease).tryCatch (buildHandler i lease)).tryFinally
    ((release lease).tryCatch fun _ => .pure ())

def graphPool (owner : ℕ → String) (builders : ℕ → Bool) (epoch : String) (clock : ℕ → Int) :
    Pool ℕ GraphWorld GraphAccess GraphFault Unit where
  thread i := if builders i then some (build rules owner i) else none
  world :=
    { leases := .empty epoch, writer := none, current := none, manifestJson := none, wal := none,
      snapshots := fun _ => none, manifests := fun _ => none, clock := clock, journal := [],
      completions := [] }

def loseBuilder (w : GraphWorld) : GraphWorld :=
  if w.writer = some i then {w with writer := none} else w
end

end RaytSystem.CodeGraph
