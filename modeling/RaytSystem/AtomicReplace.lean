import RaytSystem.RelyGuarantee

/-! `_atomic_replace` beside external processes that put new versions of the document in place
by renaming: the two names of the parent directory that take part, with the files behind them.
One access is one system call. -/
namespace RaytSystem.Documents
open Interleaving

inductive FileKind where
  | regular | linkedOrSpecial | symlink
  deriving DecidableEq, Repr

structure DocumentFile where
  kind : FileKind
  content : List UInt8
  deriving DecidableEq

structure ParentDirectory where
  document : Option Nat
  temporary : Option Nat
  files : Nat → DocumentFile
  next : Nat
  /-- An observer's list of the files that external processes put in place. -/
  placed : List Nat
  /-- The files that a later external rename took from the document's name. -/
  replaced : List Nat

namespace ParentDirectory

def place (file : DocumentFile) (d : ParentDirectory) : ParentDirectory :=
  {d with
    document := some d.next
    files := Function.update d.files d.next file
    next := d.next + 1
    placed := d.next :: d.placed
    replaced := d.document.toList ++ d.replaced}

def Linked (d : ParentDirectory) (v : Nat) : Prop :=
  d.document = some v ∨ d.temporary = some v

instance (d : ParentDirectory) (v : Nat) : Decidable (d.Linked v) := by
  unfold Linked
  infer_instance

end ParentDirectory

inductive ReplaceAccess where
  | external | exchangeBack | other
  deriving DecidableEq, Repr

inductive ReplaceFault where
  | changedOrUnsafe | unsafeTarget | beyondLimit | unsafeEntry | entryBeyondLimit
  | conflict (current : List UInt8)
  | restrictedContent | rollbackFailed | osError
  deriving DecidableEq, Repr

structure ReplaceEnv where
  sha256Hex : List UInt8 → String
  maxFileBytes : Nat
  containsRestrictedContent : List UInt8 → Bool
  expectedSha256 : String
  data : List UInt8

abbrev ReplaceProg (α : Type) := Prog ParentDirectory ReplaceAccess ReplaceFault α

def systemCall {α : Type} (l : ReplaceAccess)
    (f : ParentDirectory → Except ReplaceFault (α × ParentDirectory)) : ReplaceProg α := do
  let succeeds ← .any Bool
  .require succeeds .osError
  .attempt l f

def openDocument : ReplaceProg Nat :=
  .attempt .other fun d =>
    match d.document with
    | none => .error .changedOrUnsafe
    | some v => if (d.files v).kind = .symlink then .error .changedOrUnsafe else .ok (v, d)

variable (env : ReplaceEnv)

def readDescriptor (v : Nat) (unsafeFile beyond : ReplaceFault) : ReplaceProg (List UInt8) :=
  systemCall .other fun d =>
    let file := d.files v
    if file.kind ≠ .regular then .error unsafeFile
    else if file.content.length > env.maxFileBytes then .error beyond
    else .ok (file.content, d)

def createTemporary : ReplaceProg Nat :=
  systemCall .other fun d =>
    match d.temporary with
    | some _ => .error .osError
    | none => .ok (d.next, {d with
        temporary := some d.next
        files := Function.update d.files d.next ⟨.regular, []⟩
        next := d.next + 1})

def writeAll (v : Nat) (data : List UInt8) : ReplaceProg Unit :=
  systemCall .other fun d =>
    .ok ((), {d with files := Function.update d.files v ⟨.regular, data⟩})

def fsync : ReplaceProg Unit := systemCall .other fun d => .ok ((), d)

def statDocument : ReplaceProg Nat :=
  systemCall .other fun d =>
    match d.document with
    | none => .error .osError
    | some v => .ok (v, d)

def exchangeNames (l : ReplaceAccess) : ReplaceProg Unit :=
  systemCall l fun d =>
    match d.document, d.temporary with
    | some v, some t => .ok ((), {d with document := some t, temporary := some v})
    | _, _ => .error .osError

def openTemporary : ReplaceProg Nat :=
  systemCall .other fun d =>
    match d.temporary with
    | none => .error .osError
    | some t => if (d.files t).kind = .symlink then .error .osError else .ok (t, d)

def unlinkTemporary : ReplaceProg Unit :=
  systemCall .other fun d =>
    match d.temporary with
    | none => .error .osError
    | some _ => .ok ((), {d with temporary := none})

def prepareReplacement (before : Nat) : ReplaceProg Unit := do
  let own ← createTemporary
  writeAll own env.data
  fsync
  let final ← statDocument
  if final ≠ before then
    let v ← openDocument
    let latest ← readDescriptor env v .changedOrUnsafe .changedOrUnsafe
    throw (.conflict latest)

def afterExchange : ReplaceProg (Bool × Option ReplaceFault) := do
  let displaced ← (do
    let t ← openTemporary
    readDescriptor env t .unsafeEntry .entryBeyondLimit : ReplaceProg (List UInt8)).toExcept
  match displaced with
  | .error e => pure (true, some e)
  | .ok content =>
    if env.sha256Hex content = env.expectedSha256 then
      match ← unlinkTemporary.toExcept with
      | .error e => pure (true, some e)
      | .ok () =>
        match ← fsync.toExcept with
        | .error e => pure (false, some e)
        | .ok () => pure (false, none)
    else
      match ← (exchangeNames .exchangeBack).toExcept with
      | .error e => pure (true, some e)
      | .ok () =>
        if env.containsRestrictedContent content then pure (false, some .restrictedContent)
        else pure (false, some (.conflict content))

def replaceBody (before : Nat) : ReplaceProg (Bool × Option ReplaceFault) := do
  let prepared ← (do
    prepareReplacement env before
    exchangeNames .other : ReplaceProg Unit).toExcept
  match prepared with
  | .error e => pure (false, some e)
  | .ok () => afterExchange env

def rollBack (r : Bool × Option ReplaceFault) : ReplaceProg (Bool × Option ReplaceFault) :=
  if r.1 = false then pure r
  else do
    match ← (exchangeNames .exchangeBack).toExcept with
    | .error _ => pure (true, some .rollbackFailed)
    | .ok () =>
      match ← fsync.toExcept with
      | .error _ => pure (false, some .rollbackFailed)
      | .ok () => pure (false, r.2)

def dropTemporary (exchanged : Bool) : ReplaceProg Unit :=
  if exchanged then pure ()
  else do
    let _ ← unlinkTemporary.toExcept

def raiseAgain : Option ReplaceFault → ReplaceProg Unit
  | some e => throw e
  | none => pure ()

def atomicReplace : ReplaceProg Unit := do
  let before ← openDocument
  let current ← readDescriptor env before .unsafeTarget .beyondLimit
  .require (env.sha256Hex current = env.expectedSha256) (.conflict current)
  let body ← replaceBody env before
  let ended ← rollBack body
  dropTemporary ended.1
  raiseAgain ended.2

end RaytSystem.Documents
