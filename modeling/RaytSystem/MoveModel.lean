import RaytSystem.ProgramAccess

/-! Renames and moves of a document: `_move` with `_atomic_move` and `_recover_link_move`, over
the directory entries of the workspace and the link counts of the files behind them. One access
is one system call or one transaction of the platform store. A crash is the loss of the process:
what its finished system calls did stays. -/
namespace RaytSystem.DocumentMoves
open Interleaving

inductive EntryKind where
  | regular | symlink | other
  deriving DecidableEq, Repr

structure MovedFile where
  kind : EntryKind
  content : List UInt8
  modified : Nat
  deriving DecidableEq

inductive OperationState where
  | missing | prepared | publishing | completed
  deriving DecidableEq, Repr

structure MoveWorld where
  /-- The file that a path names; a number stands for device and inode. -/
  entries : String → Option Nat
  files : Nat → MovedFile
  links : Nat → Nat
  operation : OperationState

structure FileStat where
  file : Nat
  kind : EntryKind
  size : Nat
  modified : Nat
  links : Nat
  deriving DecidableEq

namespace MoveWorld

def stat (w : MoveWorld) (f : Nat) : FileStat :=
  ⟨f, (w.files f).kind, (w.files f).content.length, (w.files f).modified, w.links f⟩

def link (path : String) (f : Nat) (w : MoveWorld) : MoveWorld :=
  {w with
    entries := Function.update w.entries path (some f)
    links := Function.update w.links f (w.links f + 1)}

def unlink (path : String) (f : Nat) (w : MoveWorld) : MoveWorld :=
  {w with
    entries := Function.update w.entries path none
    links := Function.update w.links f (w.links f - 1)}

variable (state : OperationState)

def record (w : MoveWorld) : MoveWorld := {w with operation := state}

@[simp] theorem link_files (path : String) (f : Nat) (w : MoveWorld) :
    (w.link path f).files = w.files := rfl

@[simp] theorem unlink_files (path : String) (f : Nat) (w : MoveWorld) :
    (w.unlink path f).files = w.files := rfl

@[simp] theorem record_files (w : MoveWorld) : (w.record state).files = w.files := rfl

@[simp] theorem record_entries (w : MoveWorld) : (w.record state).entries = w.entries := rfl

end MoveWorld

inductive MoveFault where
  | unsafeSource | sizeLimit
  | conflict (current : List UInt8)
  | changedDuringMove
  | destinationExists (path : String)
  | conflictingPaths (oldPath newPath : String)
  | ambiguousState (oldPath newPath : String)
  | changedOrUnsafe (path : String)
  | restrictedContent | missingParent | outside | osError
  deriving DecidableEq, Repr

def MoveFault.ofSystem : MoveFault → Prop
  | .missingParent | .osError => True
  | _ => False

structure MoveEnv where
  oldPath : String
  newPath : String
  distinct : oldPath ≠ newPath
  sha256Hex : List UInt8 → String
  expectedSha256 : String
  maxFileBytes : Nat
  containsRestrictedContent : List UInt8 → String → Bool

abbrev MoveProg (α : Type) := Prog MoveWorld Unit MoveFault α

def systemCall {α : Type} (f : MoveWorld → Except MoveFault (α × MoveWorld)) : MoveProg α := do
  let succeeds ← .any Bool
  .require succeeds .osError
  .attempt () f

def outsideCall : MoveProg Unit := do
  let succeeds ← .any Bool
  .require succeeds .outside

def parentFd : MoveProg Unit := do
  let succeeds ← .any Bool
  .require succeeds .missingParent

def statOptional (path : String) : MoveProg (Option FileStat) :=
  systemCall fun w => .ok ((w.entries path).map w.stat, w)

def statPath (path : String) : MoveProg FileStat :=
  systemCall fun w =>
    match w.entries path with
    | none => .error .osError
    | some f => .ok (w.stat f, w)

def openPath (path : String) : MoveProg Nat :=
  systemCall fun w =>
    match w.entries path with
    | none => .error .osError
    | some f => if (w.files f).kind = .symlink then .error .osError else .ok (f, w)

def fstat (f : Nat) : MoveProg FileStat := systemCall fun w => .ok (w.stat f, w)

variable (env : MoveEnv)

def readDescriptor (f : Nat) : MoveProg (List UInt8) :=
  systemCall fun w =>
    let content := (w.files f).content
    if content.length > env.maxFileBytes then .error .sizeLimit else .ok (content, w)

variable (source destination : String)

def linkPath : MoveProg Unit :=
  systemCall fun w =>
    match w.entries source, w.entries destination with
    | none, _ => .error .osError
    | some _, some _ => .error (.destinationExists destination)
    | some f, none => .ok ((), w.link destination f)

def unlinkPath (path : String) : MoveProg Unit :=
  systemCall fun w =>
    match w.entries path with
    | none => .error .osError
    | some f => .ok ((), w.unlink path f)

def fsync : MoveProg Unit := systemCall fun w => .ok ((), w)

def FileStat.stable (a b : FileStat) : Prop :=
  a.file = b.file ∧ a.size = b.size ∧ a.modified = b.modified

instance (a b : FileStat) : Decidable (a.stable b) := by
  unfold FileStat.stable
  infer_instance

def checkSource (source : String) : MoveProg FileStat := do
  let f ← openPath source
  let before ← fstat f
  .require (before.kind = .regular ∧ before.links = 1) .unsafeSource
  let current ← readDescriptor env f
  .require (env.sha256Hex current = env.expectedSha256) (.conflict current)
  let after ← fstat f
  .require (before.stable after) .changedDuringMove
  pure before

def dropSource (before : FileStat) : MoveProg Unit := do
  let sourceMeta ← statPath source
  let destinationMeta ← statPath destination
  .require (sourceMeta.stable before ∧ destinationMeta.stable before ∧
    sourceMeta.links = 2 ∧ destinationMeta.links = 2) .changedDuringMove
  unlinkPath source

def dropDestination (destination : String) (error : MoveFault) : MoveProg Unit := do
  let _ ← (unlinkPath destination).toExcept
  throw error

def syncParents : MoveProg Unit := do
  fsync
  fsync

def atomicMove : MoveProg Unit := do
  parentFd
  parentFd
  let before ← checkSource env source
  linkPath source destination
  tryCatch (dropSource source destination before) (dropDestination destination)
  syncParents

def OwnLink (a b : FileStat) : Prop :=
  a.kind = .regular ∧ b.kind = .regular ∧ a.file = b.file ∧ a.links = 2 ∧ b.links = 2

instance (a b : FileStat) : Decidable (OwnLink a b) := by
  unfold OwnLink
  infer_instance

def resolveNames : Option FileStat → Option FileStat → MoveProg Unit
  | some sourceMeta, some destinationMeta => do
    .require (OwnLink sourceMeta destinationMeta) (.conflictingPaths source destination)
    unlinkPath source
    syncParents
  | _, _ => pure ()

def recoverLinkMove : MoveProg Unit := do
  parentFd
  parentFd
  let sourceMeta ← statOptional source
  let destinationMeta ← statOptional destination
  resolveNames source destination sourceMeta destinationMeta

def readCurrent (path : String) : MoveProg (List UInt8) := do
  let read ← (do
    let f ← openPath path
    let before ← fstat f
    .require (before.kind = .regular ∧ before.links = 1) .osError
    readDescriptor env f : MoveProg (List UInt8)).toExcept
  match read with
  | .ok content => pure content
  | .error _ => throw (.changedOrUnsafe path)

def readOptional (path : String) : MoveProg (Option (List UInt8)) := do
  parentFd
  match ← statOptional path with
  | none => pure none
  | some _ => some <$> readCurrent env path

def recoveredVersion : MoveProg (List UInt8 × Bool) := do
  recoverLinkMove env.oldPath env.newPath
  let oldBytes ← readOptional env env.oldPath
  let newBytes ← readOptional env env.newPath
  match oldBytes, newBytes with
  | none, some current => pure (current, true)
  | some current, none => pure (current, false)
  | _, _ => throw (.ambiguousState env.oldPath env.newPath)

def currentVersion (recovering : Bool) : MoveProg (List UInt8 × Bool) :=
  if recovering then recoveredVersion env
  else do
    let current ← readCurrent env env.oldPath
    pure (current, false)

def checkVersion (current : List UInt8) : MoveProg Unit := do
  .require (env.containsRestrictedContent current env.oldPath = false) .restrictedContent
  .require (env.sha256Hex current = env.expectedSha256) (.conflict current)

def recordOperation (state : OperationState) : MoveProg Unit := .set () (·.record state)

def runIf (b : Bool) (p : MoveProg Unit) : MoveProg Unit := if b then p else pure ()

def moveIdentity : MoveProg Unit :=
  tryCatch outsideCall fun error => do
    let _ ← (atomicMove env env.newPath env.oldPath).toExcept
    throw error

def completeMove (operation : OperationState) : MoveProg Unit := do
  runIf (operation = .missing) (recordOperation .prepared)
  outsideCall
  let version ← currentVersion env (operation = .publishing)
  checkVersion env version.1
  runIf (operation ≠ .publishing) (recordOperation .publishing)
  runIf (!version.2) (atomicMove env env.oldPath env.newPath)
  moveIdentity env
  outsideCall
  recordOperation .completed

def move : MoveProg Unit := do
  outsideCall
  let operation ← .get () (·.operation)
  if operation = .completed then pure () else completeMove env operation

end RaytSystem.DocumentMoves
