import Mathlib.Order.Nat
import RaytSystem.RelyGuarantee

/-! A skill save beside external processes that put new versions of `SKILL.md` in place by
renaming: `_atomic_replace`, `_rollback_save_intent` and `_cleanup_save_artifacts`. One access is one
system call, and the recovery intent is its part that says which file was installed. The code tells
files apart by device and inode, and a file system gives the number of a file without a name to the
next new file. -/
namespace RaytSystem.SkillAuthoring
open Interleaving
attribute [local irreducible] wp

inductive EntryName
  | skill | proposed | original | displaced
  deriving DecidableEq

structure SkillFile where
  regular : Bool
  content : List UInt8
  /-- The links to it from elsewhere. -/
  otherLinks : ℕ

structure SkillDirectory where
  entries : EntryName → Option ℕ
  files : ℕ → SkillFile
  /-- `(st_dev, st_ino)` of a version. -/
  ino : ℕ → ℕ
  next : ℕ
  /-- The version whose number is `installed_ino` of the durable intent. -/
  installed : Option ℕ
  /-- An observer's list of the versions that external processes put in place. -/
  placed : List ℕ
  /-- The versions that a later external rename took from the name `SKILL.md`. -/
  replaced : List ℕ

variable (d : SkillDirectory)

def SkillDirectory.links (v : ℕ) : ℕ :=
  (d.files v).otherLinks +
    [EntryName.skill, .proposed, .original, .displaced].countP fun n => d.entries n == some v

def SkillDirectory.Free (number : ℕ) : Prop := ∀ v < d.next, d.ino v = number → d.links v = 0

instance (number : ℕ) : Decidable (d.Free number) := Nat.decidableBallLT _ _

variable (n : EntryName)

def SkillDirectory.put (v : Option ℕ) : SkillDirectory :=
  {d with entries := Function.update d.entries n v}

def SkillDirectory.place (file : SkillFile) (number : ℕ) : SkillDirectory where
  entries := Function.update d.entries .skill (some d.next)
  files := Function.update d.files d.next file
  ino := Function.update d.ino d.next number
  next := d.next + 1
  installed := d.installed
  placed := d.next :: d.placed
  replaced := (d.entries .skill).toList ++ d.replaced

def SkillDirectory.quiet (document : Option ℕ) (files : ℕ → SkillFile) (ino : ℕ → ℕ) (next : ℕ) :
    SkillDirectory where
  entries n := if n = .skill then document.filter (· < next) else none
  files := files
  ino := ino
  next := next
  installed := none
  placed := (document.filter (· < next)).toList
  replaced := []

inductive SkillFault
  | sourceChanged (data : List UInt8)
  | path | persistence | manualRecovery
  | notFound | fileExists | osError
  deriving DecidableEq

structure SaveEnv where
  sha256Hex : List UInt8 → String
  maxContentBytes : ℕ
  expectedSha256 : String
  data : List UInt8

inductive SaveAccess
  | call
  /-- `_same_identity` of two versions, or the intent's number against one. -/
  | identity (v w : ℕ)

/-- The number that the code is about to trust is not one that a second file has taken over. -/
def Trusted : SaveAccess → SkillDirectory → Prop
  | .call, _ => True
  | .identity v w, d => d.ino v = d.ino w → v = w

abbrev SkillProg (α : Type) := Prog SkillDirectory SaveAccess SkillFault α

def systemCall {α : Type} (f : SkillDirectory → Except SkillFault (α × SkillDirectory)) :
    SkillProg α := do
  let succeeds ← .any Bool
  .require succeeds .osError
  .attempt .call f

def sameNumber (access : SaveAccess) (v w : ℕ) : SkillProg Bool :=
  .get access fun d => decide (d.ino v = d.ino w)

/-- `_same_identity`, where a file goes on a positive answer. -/
def sameIdentity (v w : ℕ) : SkillProg Bool := sameNumber (.identity v w) v w

def stat : SkillProg ℕ :=
  systemCall fun d => match d.entries n with
    | none => .error .notFound
    | some v => .ok (v, d)

variable (env : SaveEnv)

def readEntry (n : EntryName) (allowedLinks : List ℕ) (fault : SkillFault) :
    SkillProg (ℕ × List UInt8) := do
  let before ← systemCall fun d => match d.entries n with
    | none => .error .notFound
    | some v => if (d.files v).regular ∧ d.links v ∈ allowedLinks then .ok (v, d) else .error fault
  let opened ← stat n
  let same ← sameNumber .call before opened
  .require same fault
  let data ← systemCall fun d =>
    if (d.files opened).content.length > env.maxContentBytes then .error .path
    else if d.links opened ∈ allowedLinks then .ok ((d.files opened).content, d)
    else .error .path
  return (opened, data)

def readRecoveryFile (n : EntryName) (allowedLinks : List ℕ) :
    SkillProg (ℕ × List UInt8) := readEntry env n allowedLinks .persistence

def optionalRecoveryFile (n : EntryName) : SkillProg (Option (ℕ × List UInt8)) := do
  match ← (readRecoveryFile env n [1,2]).toExcept with
  | .ok file => return some file
  | .error .notFound => return none
  | .error e => throw e

def fsync : SkillProg Unit := systemCall fun d => .ok ((), d)

def create : SkillProg ℕ := do
  let number ← .any ℕ
  systemCall fun d => match d.entries n with
    | some _ => .error .fileExists
    | none =>
      if d.Free number then .ok (d.next, {d with
        entries := Function.update d.entries n (some d.next)
        files := Function.update d.files d.next ⟨true, [], 0⟩
        ino := Function.update d.ino d.next number
        next := d.next + 1})
      else .error .osError

def setContent (v : ℕ) (content : List UInt8) : SkillProg Unit :=
  systemCall fun d => .ok ((), {d with files := Function.update d.files v ⟨true, content, 0⟩})

def writeFd (v : ℕ) (data : List UInt8) : SkillProg Unit := do
  let written ← .any ℕ
  setContent v (data.take written)
  setContent v data

def linkNoReplace (source target : EntryName) : SkillProg Unit :=
  systemCall fun d => match d.entries source, d.entries target with
    | none, _ => .error .notFound
    | some _, some _ => .error .fileExists
    | some v, none => .ok ((), d.put target (some v))

def rename (source target : EntryName) : SkillProg Unit :=
  systemCall fun d => match d.entries source with
    | none => .error .notFound
    | some v =>
      if d.entries target = some v then .ok ((), d)
      else .ok ((), (d.put target (some v)).put source none)

def unlink : SkillProg Unit :=
  systemCall fun d => match d.entries n with
    | none => .error .notFound
    | some _ => .ok ((), d.put n none)

def writeRecoveryIntent (v : ℕ) : SkillProg Unit :=
  systemCall fun d => .ok ((), {d with installed := some v})

section
variable (env : SaveEnv)

def linkOrElse (source target : EntryName) (occupied : SkillProg Unit) : SkillProg Unit := do
  match ← (linkNoReplace source target).toExcept with
  | .ok () => pure ()
  | .error .fileExists => occupied
  | .error e => throw e

def raiseWhen (b : Prop) [Decidable b] (body : SkillProg Unit) : SkillProg Unit :=
  if b then body else pure ()

def restoreDisplacedNoReplace : SkillProg Unit := do
  linkOrElse .displaced .skill (throw .persistence)
  unlink .displaced
  fsync

/-- `raise _SourceChangedDuringWrite` with what lies at the document's name. -/
def raiseConcurrent : SkillProg Unit := do
  let concurrent ← readRecoveryFile env .skill [1]
  throw (.sourceChanged concurrent.2)

/-- The steps up to the rename: the file that `SKILL.md` named has a second name. -/
def guardOriginal : SkillProg (ℕ × List UInt8) := do
  let before ← readEntry env .skill [1] .path
  .require (env.sha256Hex before.2 = env.expectedSha256) (.sourceChanged before.2)
  let temporary ← create .proposed
  writeFd temporary env.data
  fsync
  linkNoReplace .skill .original
  let guard ← readRecoveryFile env .original [1,2]
  let same ← sameNumber .call before.1 guard.1
  raiseWhen (same = false ∨ env.sha256Hex guard.2 ≠ env.expectedSha256) do
    unlink .original
    throw (.sourceChanged guard.2)
  fsync
  return guard

def displace (guard : ℕ) : SkillProg Unit := do
  rename .skill .displaced
  fsync
  let displaced ← readRecoveryFile env .displaced [1,2]
  let same ← sameIdentity displaced.1 guard
  raiseWhen (same = false) do
    restoreDisplacedNoReplace
    throw (.sourceChanged displaced.2)
  unlink .displaced

def installProposed : SkillProg Unit := do
  linkOrElse .proposed .skill (raiseConcurrent env)
  fsync
  let installed ← stat .skill
  let temporary ← stat .proposed
  let same ← sameIdentity installed temporary
  raiseWhen (same = false) (raiseConcurrent env)
  writeRecoveryIntent installed
  unlink .proposed
  fsync

def atomicReplace : SkillProg Unit := do
  let guard ← guardOriginal env
  displace env guard.1
  installProposed env

def cleanupNamedRecoveryFile (n : EntryName) (expectedSha256 : String) : SkillProg Unit := do
  match ← optionalRecoveryFile env n with
  | none => pure ()
  | some observed =>
    .require (env.sha256Hex observed.2 = expectedSha256) .persistence
    unlink n

def putBack (displaced : ℕ) : Option (ℕ × List UInt8) → SkillProg Unit
  | none => do
    linkNoReplace .displaced .skill
    fsync
    unlink .displaced
  | some target => do
    let same ← sameIdentity displaced target.1
    .require same .manualRecovery
    unlink .displaced

def returnDisplaced : SkillProg Unit := do
  let displaced ← optionalRecoveryFile env .displaced
  let target ← optionalRecoveryFile env .skill
  match displaced with
  | none => pure ()
  | some x => do
    putBack x.1 target
    fsync

def withdrawProposed (target : ℕ) : SkillProg Unit := do
  rename .skill .displaced
  let moved ← readRecoveryFile env .displaced [1,2]
  let same ← sameIdentity moved.1 target
  raiseWhen (same = false) do
    restoreDisplacedNoReplace
    throw .manualRecovery
  linkNoReplace .original .skill
  unlink .displaced
  fsync

/-- `file is not None and self._same_identity(target, file)` -/
def isFile (target : ℕ) : Option ℕ → SkillProg Bool
  | none => return false
  | some v => sameIdentity target v

def targetIsProposed (installed temporary : Option ℕ) (target : ℕ × List UInt8) :
    SkillProg Bool := do
  if env.sha256Hex target.2 ≠ env.sha256Hex env.data then return false
  let isTemporary ← isFile target.1 temporary
  if isTemporary then return true
  isFile target.1 installed

def targetIsOriginal (guard : Option ℕ) (target : ℕ × List UInt8) : SkillProg Bool := do
  if env.sha256Hex target.2 ≠ env.expectedSha256 then return false
  match guard with
  | none => return true
  | some v => sameNumber .call target.1 v

def settle (installed : Option ℕ) (guard temporary : Option (ℕ × List UInt8)) :
    Option (ℕ × List UInt8) → SkillProg Unit
  | none => do
    .require (guard.any fun g => env.sha256Hex g.2 = env.expectedSha256) .manualRecovery
    linkNoReplace .original .skill
    fsync
  | some target => do
    let isOriginal ← targetIsOriginal env (guard.map Prod.fst) target
    let isProposed ← targetIsProposed env installed (temporary.map Prod.fst) target
    if isProposed then
      .require (guard.any fun g => env.sha256Hex g.2 = env.expectedSha256) .manualRecovery
      withdrawProposed env target.1
    else
      .require (isOriginal ∨ installed = none) .manualRecovery

def settleTarget : SkillProg Unit := do
  let installed ← .get .call (·.installed)
  let target ← optionalRecoveryFile env .skill
  let guard ← optionalRecoveryFile env .original
  let temporary ← optionalRecoveryFile env .proposed
  settle env installed guard temporary target

def cleanupWitnesses : SkillProg Unit := do
  cleanupNamedRecoveryFile env .original env.expectedSha256
  cleanupNamedRecoveryFile env .proposed (env.sha256Hex env.data)

def requireNoDisplaced : SkillProg Unit := do
  let displaced ← optionalRecoveryFile env .displaced
  .require (displaced = none) .manualRecovery

def rollbackSaveIntent : SkillProg Unit := do
  returnDisplaced env
  settleTarget env
  cleanupWitnesses env
  requireNoDisplaced env
  fsync

def cleanupSaveArtifacts : SkillProg Unit := do
  requireNoDisplaced env
  cleanupWitnesses env
  fsync

inductive Phase
  | save | rollback | finalise
  deriving DecidableEq

def Phase.program : Phase → SkillProg Unit
  | save => atomicReplace env
  | rollback => rollbackSaveIntent env
  | finalise => cleanupSaveArtifacts env

/-- A save, its crash at any step and any number of recoveries, among external renames: the
directory, the call that runs and what is left of it. Every access meets `assume`. -/
inductive Run (assume : SaveAccess → SkillDirectory → Prop) (start : SkillDirectory) :
    SkillDirectory → Phase → SkillProg Unit → Prop
  | start : Run assume start start .save (Phase.save.program env)
  | place {d : SkillDirectory} {phase : Phase} {p : SkillProg Unit} (file : SkillFile) {number : ℕ}
      (hnumber : d.Free number) (h : Run assume start d phase p) :
      Run assume start (d.place file number) phase p
  | access {d : SkillDirectory} {phase : Phase} {β : Type} {l : SaveAccess}
      {f : SkillDirectory → β × SkillDirectory} {k : β → SkillProg Unit} (hl : assume l d)
      (h : Run assume start d phase (.act l f k)) : Run assume start (f d).2 phase (k (f d).1)
  | input {d : SkillDirectory} {phase : Phase} {β : Type} {i : Input β} {k : β → SkillProg Unit}
      (b : β) (h : Run assume start d phase (.choose i k)) : Run assume start d phase (k b)
  | recover {d : SkillDirectory} {phase : Phase} {p : SkillProg Unit} (next : Phase)
      (hnext : next ≠ .save) (h : Run assume start d phase p) :
      Run assume start d next (next.program env)
end

end RaytSystem.SkillAuthoring
