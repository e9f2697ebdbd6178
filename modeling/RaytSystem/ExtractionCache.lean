import RaytSystem.ExtractionModel

/-! The extraction cache, and the part of a build that goes through it. -/
namespace RaytSystem.CodeGraph
open JsonText Canonical

structure CacheKey where
  path : String
  contentSha256 : String
  deriving DecidableEq

def cacheKey (item : DetectedFile) : CacheKey := ⟨item.path, item.contentSha256⟩

inductive CacheEntry
  | absent
  /-- A link, a directory, or what cannot be opened. -/
  | irregular
  /-- A file, with its links that are temporaries of the name and its other links. -/
  | file (data : ByteArray) (temporaries foreign : ℕ)
  deriving DecidableEq

abbrev Cache := CacheKey → CacheEntry

def emptyCache : Cache := fun _ => .absent

structure CodeGraphConfig where
  maxNodes : ℕ
  maxEdges : ℕ

def CodeGraphConfig.fileNodes (c : CodeGraphConfig) : ℕ := min c.maxNodes 10000
def CodeGraphConfig.fileEdges (c : CodeGraphConfig) : ℕ := min c.maxEdges 40000

inductive BuildFault
  | loading (fault : LoadFault)
  | extracting (fault : LoadFault)
  | storing (fault : LoadFault)
  /-- "Unsafe immutable path" and "Unsafe immutable object type". -/
  | unsafeObject
  /-- "Immutable path collision" -/
  | collision
  deriving DecidableEq

variable (rules : ExtractionRules) (config : CodeGraphConfig)

def readEntry : CacheEntry → Except LoadFault ByteArray
  | .file data temporaries foreign =>
    if temporaries + foreign = 0 ∧ data.size ≤ 32 * 1024 * 1024 then .ok data
    else .error .pathPolicy
  | _ => .error .pathPolicy

def jsonLoads (data : ByteArray) : Except LoadFault Value :=
  match loadsBytes data with
  | some v => .ok v
  | none => .error (rules.unread data)

def canonicalBytes (v : Value) : Except LoadFault ByteArray :=
  match boundedJsonBytes rules.canonical (ofJson v) with
  | .ok bytes => .ok bytes
  | .error (.valueError _) => .error .valueError
  | .error (.typeError _) => .error .typeError

def reuse (item : DetectedFile) (entry : CacheEntry) :
    Except LoadFault (Option FileExtraction) := do
  let data ← readEntry entry
  match ← jsonLoads rules data with
  | .map entries => do
    let bytes ← canonicalBytes rules (.map entries)
    if data = bytes then do
      let x ← FileExtraction.fromDict rules entries
      validateFileExtraction rules x item config.fileNodes config.fileEdges
      pure (some x)
    else pure none
  | _ => pure none

def sameInput (item : DetectedFile) (x : FileExtraction) : Bool :=
  x.path == item.path && x.contentSha256 == item.contentSha256

def loadCache (item : DetectedFile) (entry : CacheEntry) :
    Except LoadFault (Option FileExtraction) :=
  match reuse rules config item entry with
  | .ok found => .ok (found.filter (sameInput item))
  | .error fault => if fault.caught then .ok none else .error fault

def storeCache (x : FileExtraction) (entry : CacheEntry) : Except BuildFault CacheEntry := do
  let bytes ← (canonicalBytes rules (x.toDict rules)).mapError .storing
  match entry with
  | .absent => .ok (.file bytes 0 0)
  | .irregular => .error .unsafeObject
  | .file data _ foreign =>
    if foreign = 0 then
      if data = bytes then .ok (.file data 0 0) else .error .collision
    else .error .unsafeObject

structure Detection where
  files : List DetectedFile
  distinct : (files.map DetectedFile.path).Nodup

def lookCached (useCache : Bool) (item : DetectedFile) (entry : CacheEntry) :
    Except BuildFault (Option FileExtraction) :=
  if useCache then (loadCache rules config item entry).mapError .loading else .ok none

def takeOne (useCache : Bool) (item : DetectedFile) (entry : CacheEntry) :
    Except BuildFault (FileExtraction × CacheEntry) := do
  match ← lookCached rules config useCache item entry with
  | some x => .ok (x, entry)
  | none => do
    let x ← (extractFileIsolated rules item config.fileNodes config.fileEdges).mapError .extracting
    let entry ← storeCache rules x entry
    .ok (x, entry)

def extractFiles (useCache : Bool) :
    List DetectedFile → Cache → Except BuildFault (List FileExtraction × Cache)
  | [], cache => .ok ([], cache)
  | item :: rest, cache => do
    let (x, entry) ← takeOne rules config useCache item (cache (cacheKey item))
    let (xs, cache) ← extractFiles useCache rest (Function.update cache (cacheKey item) entry)
    .ok (x :: xs, cache)

def buildSnapshot {F : Type} (create : List FileExtraction → Except BuildFault F)
    (useCache : Bool) (detected : Detection) (cache : Cache) : Except BuildFault F := do
  let (xs, _) ← extractFiles rules config useCache detected.files cache
  create xs

def update {F : Type} (create : List FileExtraction → Except BuildFault F)
    (detected : Detection) (cache : Cache) : Except BuildFault F :=
  buildSnapshot rules config create true detected cache

def rebuild {F : Type} (create : List FileExtraction → Except BuildFault F)
    (detected : Detection) (cache : Cache) : Except BuildFault F :=
  buildSnapshot rules config create false detected cache

end RaytSystem.CodeGraph
