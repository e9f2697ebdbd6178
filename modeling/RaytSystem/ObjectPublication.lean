import Mathlib.Data.Nat.Notation
import RaytSystem.RelyGuarantee

/-! `publish_immutable` and `read_regular_file` on one path: the path's name, the temporaries beside
it, the files behind them and the descriptor numbers of the processes. One access is one system call. -/
namespace RaytSystem.Storage
open Interleaving

structure ObjectFile where
  data : List UInt8
  mtime : ℕ
  deriving DecidableEq

inductive Target
  | directory
  | file (v : ℕ)
  deriving DecidableEq

/-- What a descriptor number stands for, with an observer's note of the call that opened it. -/
structure Descriptor where
  call : ℕ
  target : Target
  writable : Bool
  deriving DecidableEq

/-- Every publisher makes one file of its own under a temporary name of its own; the name and the
file go by the publisher's number. -/
structure ObjectDirectory where
  /-- The file that the path names. -/
  object : Option ℕ
  /-- The temporaries that are listed beside the path. -/
  temporaries : List ℕ
  files : ℕ → ObjectFile
  /-- The open numbers of each process. -/
  descriptors : ℕ × ℕ → Option Descriptor
  /-- No process has opened this number or a larger one. -/
  unused : ℕ
  /-- An observer's note of the calls that lost their process. -/
  killed : ℕ → Bool

def ObjectDirectory.links (d : ObjectDirectory) (v : ℕ) : ℕ :=
  (if v ∈ d.temporaries then 1 else 0) + if d.object = some v then 1 else 0

def ObjectDirectory.free (d : ObjectDirectory) (process k : ℕ) : ℕ :=
  if (d.descriptors (process, k)).isNone then k else d.unused

def ObjectDirectory.open (d : ObjectDirectory) (key : ℕ × ℕ) (x : Descriptor) : ObjectDirectory :=
  {d with
    descriptors := Function.update d.descriptors key (some x)
    unused := max d.unused (key.2 + 1)}

def ObjectDirectory.close (d : ObjectDirectory) (key : ℕ × ℕ) : ObjectDirectory :=
  {d with descriptors := Function.update d.descriptors key none}

inductive ObjectAccess
  /-- A rival's first look at the link count of the published file. -/
  | compare (literal : Bool) (key : ℕ × ℕ)
  /-- A rival unlinks a temporary. -/
  | clean (candidate : ℕ)
  /-- A reader's first look at the link count. -/
  | inspect (key : ℕ × ℕ)
  /-- A publisher closes its number again. -/
  | reclose (key : ℕ × ℕ)
  | other

inductive ObjectFault
  | unsafePath | unsafeType | collision | fileNotFound | badDescriptor
  | missingInput | notRegular | hardLinked | tooLarge | changed
  deriving DecidableEq, Repr

inductive ObjectResult
  | created (here : Bool)
  | read (data : List UInt8)
  deriving DecidableEq

abbrev ObjectProg := Prog ObjectDirectory ObjectAccess ObjectFault

section
variable (process i : ℕ)

/-- `os.open`, whose number is any that the process has not open. -/
def openDescriptor (writable : Bool) (e : ObjectFault)
    (f : ObjectDirectory → Option (Target × ObjectDirectory)) : ObjectProg (ℕ × ℕ) := do
  let k ← .any ℕ
  .attempt .other fun d =>
    match f d with
    | none => .error e
    | some (target, d') =>
      .ok ((process, d.free process k),
        d'.open (process, d.free process k) ⟨i, target, writable⟩)

variable (key : ℕ × ℕ)

def useDescriptor {β : Type} (l : ObjectAccess) (f : ObjectDirectory → Descriptor → β) :
    ObjectProg β :=
  .attempt l fun d =>
    match d.descriptors key with
    | none => .error .badDescriptor
    | some x => .ok (f d x, d)

def closeDescriptor : ObjectProg Unit :=
  .attempt .other fun d =>
    match d.descriptors key with
    | none => .error .badDescriptor
    | some _ => .ok ((), d.close key)

/-- `os.close` of the `finally` clause under `suppress(OSError)`: whatever has the number now. -/
def closeAgain : ObjectProg Unit := .set (.reclose key) fun d => d.close key

def openDirectory : ObjectProg (ℕ × ℕ) :=
  openDescriptor process i false .missingInput fun d => some (.directory, d)

def fsyncDirectory : ObjectProg Unit := do
  let key ← openDirectory process i
  (useDescriptor key .other fun _ _ => ()).tryFinally (closeDescriptor key)

def makeTemporary : ObjectProg (ℕ × ℕ) :=
  openDescriptor process i true .unsafePath fun d =>
    some (.file i, {d with
      temporaries := i :: d.temporaries
      files := Function.update d.files i ⟨[], 0⟩})

def writeTemporary (data : List UInt8) : ObjectProg Unit :=
  .attempt .other fun d =>
    match d.descriptors key with
    | some ⟨_, .file v, true⟩ =>
      .ok ((), {d with files := Function.update d.files v ⟨data, (d.files v).mtime + 1⟩})
    | _ => .error .badDescriptor

/-- `os.link`, which replaces nothing: the answer says whether the path was free. -/
def linkObject : ObjectProg Bool :=
  .attempt .other fun d =>
    if i ∈ d.temporaries then
      match d.object with
      | none => .ok (true, {d with object := some i})
      | some _ => .ok (false, d)
    else .error .fileNotFound

def unlinkTemporary (l : ObjectAccess) (i : ℕ) (missingOk : Bool) : ObjectProg Unit :=
  .attempt l fun d =>
    if i ∈ d.temporaries then .ok ((), {d with temporaries := d.temporaries.filter (· ≠ i)})
    else if missingOk then .ok ((), d)
    else .error .fileNotFound

/-- One candidate of the clean-up: `lstat` gives the file that the name links. -/
def recoverCandidate (v candidate : ℕ) : ObjectProg Bool := do
  let linked ← .get .other fun d => if candidate ∈ d.temporaries then some candidate else none
  match linked with
  | none => return false
  | some file =>
    if file = v then
      unlinkTemporary (.clean candidate) candidate true
      return true
    else return false

def recoverCandidates (v : ℕ) : List ℕ → ObjectProg Bool
  | [] => return false
  | candidate :: rest => do
    let cleaned ← recoverCandidate v candidate
    let others ← recoverCandidates v rest
    return cleaned || others

variable (literal : Bool)

def recoverOwnedTempLinks (v : ℕ) : ObjectProg Unit := do
  let candidates ← .get .other fun d => if literal then d.temporaries else []
  let cleaned ← recoverCandidates v candidates
  if cleaned then fsyncDirectory process i else pure ()

/-- The file, its link count and its content, of a regular file. -/
def fstat (l : ObjectAccess) (key : ℕ × ℕ) : ObjectProg (Option (ℕ × ℕ × ObjectFile)) :=
  useDescriptor key l fun d x => match x.target with
    | .directory => none
    | .file v => some (v, d.links v, d.files v)

def readData (key : ℕ × ℕ) : ObjectProg (List UInt8) :=
  useDescriptor key .other fun d x => match x.target with
    | .directory => []
    | .file v => (d.files v).data

def settledMetadata (key : ℕ × ℕ) : Option (ℕ × ℕ × ObjectFile) →
    ObjectProg (Option (ℕ × ℕ × ObjectFile))
  | none => return none
  | some (v, links, file) =>
    if 1 < links then do
      recoverOwnedTempLinks process i literal v
      fstat .other key
    else return some (v, links, file)

def readExisting (key : ℕ × ℕ) : ObjectProg (List UInt8) := do
  let metadata ← fstat (.compare literal key) key
  let metadata ← settledMetadata process i literal key metadata
  .require (metadata.any fun m => m.2.1 = 1) .unsafeType
  readData key

def openObject (e : ObjectFault) : ObjectProg (ℕ × ℕ) :=
  openDescriptor process i false e fun d => d.object.map fun v => (.file v, d)

def compareExisting (data : List UInt8) : ObjectProg Bool := do
  let key ← openObject process i .unsafePath
  let existing ← (readExisting process i literal key).tryFinally (closeDescriptor key)
  .require (existing = data) .collision
  return false

def dropTemporary : ObjectProg Bool := do
  unlinkTemporary .other i false
  fsyncDirectory process i
  return true

def writeAll (key : ℕ × ℕ) (data : List UInt8) : ObjectProg Unit := do
  let written ← .any ℕ
  writeTemporary key (data.take written)
  writeTemporary key data
  useDescriptor key .other fun _ _ => ()

def fillTemporary (key : ℕ × ℕ) (data : List UInt8) : ObjectProg Unit := do
  useDescriptor key .other fun _ _ => ()
  (writeAll key data).tryFinally (closeDescriptor key)

def publishBody (key : ℕ × ℕ) (data : List UInt8) : ObjectProg Bool := do
  fillTemporary key data
  let linked ← linkObject i
  if linked then dropTemporary process i else compareExisting process i literal data

def publishImmutable (data : List UInt8) : ObjectProg ObjectResult := do
  let key ← makeTemporary process i
  let created ← (publishBody process i literal key data).tryFinally do
    closeAgain key
    unlinkTemporary .other i true
  return .created created

/-- `os.open` of the file below the descriptor of its directory. -/
def openBelow (root : ℕ × ℕ) : ObjectProg (ℕ × ℕ) :=
  openDescriptor process i false .missingInput fun d =>
    match d.descriptors root with
    | some ⟨_, .directory, _⟩ => d.object.map fun v => (.file v, d)
    | _ => none

def readOpened (key : ℕ × ℕ) (maxBytes : ℕ) : ObjectProg (List UInt8) := do
  let before ← fstat (.inspect key) key
  let (_, links, file) ← .ofOption before .notRegular
  .require (links = 1) .hardLinked
  .require (file.data.length ≤ maxBytes) .tooLarge
  let data ← readData key
  .require (data.length ≤ maxBytes) .tooLarge
  let after ← fstat .other key
  let (_, _, later) ← .ofOption after .changed
  .require (file.data.length = later.data.length ∧ file.mtime = later.mtime) .changed
  return data

def readRegularFile (maxBytes : ℕ) : ObjectProg ObjectResult := do
  let root ← openDirectory process i
  match ← (openBelow process i root).toExcept with
  | .error e =>
    closeDescriptor root
    throw e
  | .ok key =>
    let data ← (readOpened key maxBytes).tryFinally do
      closeDescriptor key
      closeDescriptor root
    return .read data
end

section
variable (literal : Bool)

inductive ObjectJob
  | publish (data : List UInt8)
  | read (maxBytes : ℕ)
  deriving DecidableEq

def ObjectJob.program (process i : ℕ) : ObjectJob → ObjectProg ObjectResult
  | publish data => publishImmutable process i literal data
  | read maxBytes => readRegularFile process i maxBytes

/-- Calls as threads of processes, which share no descriptor numbers. -/
def objectPool (process : ℕ → ℕ) (jobs : ℕ → Option ObjectJob) :
    Pool ℕ ObjectDirectory ObjectAccess ObjectFault ObjectResult where
  thread i := (jobs i).map fun job => job.program literal (process i) i
  world := ⟨none, [], fun _ => ⟨[], 0⟩, fun _ => none, 0, fun _ => false⟩

def loseCall (i : ℕ) (d : ObjectDirectory) : ObjectDirectory :=
  {d with killed := Function.update d.killed i true}

def ObjectDirectory.Alone (d : ObjectDirectory) (key : ℕ × ℕ) : Prop :=
  ∀ x v, d.descriptors key = some x → x.target = .file v → d.links v = 1

/-- The accesses that stay clear of the defects: a clean-up takes only the temporary of a call that
was lost, a path whose name is a pattern is compared with one link, and so is every path read, and no
number that is closed again has been opened in between. -/
def Careful : ObjectAccess → ObjectDirectory → Prop
  | .compare literal key, d => literal = false → d.Alone key
  | .clean candidate, d => candidate ∈ d.temporaries → d.killed candidate = true
  | .inspect key, d => d.Alone key
  | .reclose key, d => d.descriptors key = none
  | .other, _ => True
end

end RaytSystem.Storage
