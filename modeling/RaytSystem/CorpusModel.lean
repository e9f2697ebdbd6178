import RaytSystem.CatalogModel
import RaytSystem.PyDict

/-! The active corpus: the records of a generation, the evidence that its claims cite and the
sources of that evidence. -/
namespace RaytSystem.Corpus
open PyText Catalog

inductive ClaimStatus
  | supported | confirmed | disputed | stale | superseded | retracted
  deriving DecidableEq, Repr

def ClaimStatus.value : ClaimStatus → String
  | supported => "supported"
  | confirmed => "confirmed"
  | disputed => "disputed"
  | stale => "stale"
  | superseded => "superseded"
  | retracted => "retracted"

inductive LifecycleStatus
  | active | disputed | stale | superseded | retracted
  deriving DecidableEq, Repr

def LifecycleStatus.value : LifecycleStatus → String
  | active => "active"
  | disputed => "disputed"
  | stale => "stale"
  | superseded => "superseded"
  | retracted => "retracted"

structure Claim where
  claimId : Identifier
  statement : NonEmptyStr
  language : String
  relationIds : List Identifier
  evidenceIds : List Identifier
  status : ClaimStatus
  recordedAt : Int
  supersedes : List Identifier
  contradicts : List Identifier
  evidenceRequired : (status = .supported ∨ status = .confirmed) → evidenceIds ≠ []
  deriving DecidableEq

structure Entity where
  entityId : Identifier
  entityType : Identifier
  canonicalLabel : NonEmptyStr
  lifecycleStatus : LifecycleStatus
  supersededBy : List Identifier
  deriving DecidableEq

inductive RelationObject
  | entity (entityId : Identifier)
  | literal (value : NonEmptyStr)
  deriving DecidableEq

structure Relation where
  relationId : Identifier
  subjectEntityId : Identifier
  predicate : Identifier
  object : RelationObject
  claimIds : List Identifier
  lifecycleStatus : LifecycleStatus
  claimed : claimIds ≠ []
  deriving DecidableEq

inductive LedgerObject
  | claim (c : Claim)
  | entity (e : Entity)
  | relation (r : Relation)
  deriving DecidableEq

def LedgerObject.kind : LedgerObject → String
  | claim _ => "claim"
  | entity _ => "entity"
  | relation _ => "relation"

def LedgerObject.logicalId : LedgerObject → Identifier
  | claim c => c.claimId
  | entity e => e.entityId
  | relation r => r.relationId

structure GenerationEntry where
  kind : String
  logicalId : String
  objectSha256 : Sha256
  tombstone : Bool

structure LedgerGeneration where
  generationId : Identifier
  records : PyDict String GenerationEntry
  createdAt : Int

structure Source where
  sourceId : Identifier
  sourceType : Identifier
  displayName : Option NonEmptyStr
  trustClass : TrustClass
  rights : NonEmptyStr
  sensitivity : Sensitivity
  createdAt : Int
  deriving DecidableEq

structure SourceRevision where
  sourceRevisionId : Identifier
  sourceId : Identifier
  deriving DecidableEq

inductive LocatorKind
  | text | pdf | time | image | json | table
  deriving DecidableEq, Repr

def LocatorKind.value : LocatorKind → String
  | text => "text"
  | pdf => "pdf"
  | time => "time"
  | image => "image"
  | json => "json"
  | table => "table"

structure Segment where
  segmentId : Identifier
  locatorKind : LocatorKind
  excerptSha256 : Sha256
  deriving DecidableEq

structure Normalization where
  normalizationId : Identifier
  sourceRevisionId : Identifier
  createdAt : Int
  deriving DecidableEq

structure ResolvedEvidence where
  segment : Segment
  normalization : Normalization
  revision : SourceRevision
  source : Source
  deriving DecidableEq

structure LedgerFiles where
  generation : LedgerGeneration
  generationSha256 : Sha256
  objects : Sha256 → Option LedgerObject
  sources : List Source
  revisions : List SourceRevision
  normalized : List (Normalization × List Segment)

structure ActiveCorpus where
  generation : LedgerGeneration
  generationSha256 : Sha256
  claims : List Claim
  entities : List Entity
  relations : List Relation
  sources : List Source
  evidence : List ResolvedEvidence

variable (objects : Sha256 → Option LedgerObject)

def loadRecord (key : String) (entry : GenerationEntry) : Except String LedgerObject := do
  require (key = entry.kind ++ ":" ++ entry.logicalId ∧
      entry.kind ∈ ["claim", "entity", "relation"])
    "Generation record key or kind is invalid"
  match objects entry.objectSha256 with
  | none => .error "Canonical artifact is missing or unsafe"
  | some value => do
    require (value.kind = entry.kind) "Canonical model is invalid"
    require (value.logicalId.val = entry.logicalId) "Ledger object logical ID changed"
    pure value

def loadRecords (g : LedgerGeneration) : Except String (List LedgerObject) :=
  ((g.records.entries.insertionSort fun a b => a.1 ≤ b.1).filter fun kv => !kv.2.tombstone).mapM
    fun kv => loadRecord objects kv.1 kv.2

variable (records : List LedgerObject)

def claimsOf : List Claim :=
  records.filterMap fun
    | .claim c => some c
    | _ => none

def entitiesOf : List Entity :=
  records.filterMap fun
    | .entity e => some e
    | _ => none

def relationsOf : List Relation :=
  records.filterMap fun
    | .relation r => some r
    | _ => none

variable (files : LedgerFiles)

def resolve (snapshot : Normalization × List Segment) : Except String (List ResolvedEvidence) :=
  match files.revisions.find? fun r => r.sourceRevisionId = snapshot.1.sourceRevisionId with
  | none => .error "Evidence source revision is missing"
  | some revision =>
    match files.sources.find? fun s => s.sourceId = revision.sourceId with
    | none => .error "Evidence logical source is missing"
    | some source => .ok (snapshot.2.map fun segment => ⟨segment, snapshot.1, revision, source⟩)

def loadEvidence : Except String (List ResolvedEvidence) := do
  let evidence ← files.normalized.mapM (resolve files)
  require (evidence.flatten.map fun e => e.segment.segmentId).Nodup
    "Evidence segment ID resolves more than once"
  pure evidence.flatten

def reachable (claims : List Claim) (evidence : List ResolvedEvidence) : List ResolvedEvidence :=
  (byId id (claims.flatMap fun c => c.evidenceIds).dedup).filterMap fun evidenceId =>
    evidence.find? fun e => e.segment.segmentId = evidenceId

theorem identifier_lawful : LawfulBEq Identifier := inferInstance

attribute [local instance] identifier_lawful in
def load : Except String ActiveCorpus := do
  let records ← loadRecords files.objects files.generation
  let claims := claimsOf records
  require (files.sources.map fun s => s.sourceId).Nodup
    "Logical source ID has multiple immutable definitions"
  require (files.revisions.map fun r => r.sourceRevisionId).Nodup
    "Logical source ID has multiple immutable definitions"
  let all ← loadEvidence files
  require (∀ c ∈ claims, ∀ id ∈ c.evidenceIds, ∃ e ∈ all, e.segment.segmentId = id)
    "Claim evidence does not resolve"
  let evidence := reachable claims all
  let revisions := files.revisions.filter fun r =>
    r.sourceRevisionId ∈ evidence.map fun e => e.revision.sourceRevisionId
  let sources := files.sources.filter fun s => s.sourceId ∈ revisions.map fun r => r.sourceId
  pure ⟨files.generation, files.generationSha256, claims, entitiesOf records, relationsOf records,
    sources, evidence⟩

structure Resolved (k : ActiveCorpus) : Prop where
  sources : ∀ e ∈ k.evidence, ∃ s ∈ k.sources, s.sourceId = e.source.sourceId
  evidence : ∀ c ∈ k.claims, ∀ id ∈ c.evidenceIds, ∃ e ∈ k.evidence, e.segment.segmentId = id

theorem resolve_ok {files : LedgerFiles} {snapshot : Normalization × List Segment}
    {found : List ResolvedEvidence} (h : resolve files snapshot = .ok found) :
    ∀ e ∈ found, e.revision ∈ files.revisions ∧ e.source ∈ files.sources ∧
      e.source.sourceId = e.revision.sourceId := by
  unfold resolve at h
  split at h
  · cases h
  next revision hrevision =>
    split at h
    · cases h
    next source hsource =>
      obtain rfl := Except.ok.inj h
      intro e he
      obtain ⟨segment, -, rfl⟩ := List.mem_map.mp he
      refine ⟨List.mem_of_find?_eq_some hrevision, List.mem_of_find?_eq_some hsource, ?_⟩
      simpa using List.find?_some hsource

variable {α β ε : Type} {f : α → Except ε β} {items : List α}

theorem mapM_eq_ok {found : List β} :
    items.mapM f = .ok found ↔ List.Forall₂ (fun a b => f a = .ok b) items found := by
  induction items generalizing found with
  | nil =>
    rw [List.mapM_nil, return_eq_ok, List.forall₂_nil_left_iff]
    exact eq_comm
  | cons a rest ih =>
    simp only [List.mapM_cons, bind_eq_ok, return_eq_ok, List.forall₂_cons_left_iff, ih]
    constructor
    · rintro ⟨b, hb, bs, hbs, rfl⟩
      exact ⟨b, bs, hb, hbs, rfl⟩
    · rintro ⟨b, bs, hb, hbs, rfl⟩
      exact ⟨b, hb, bs, hbs, rfl⟩

theorem mapM_exists_ok : (∃ found, items.mapM f = .ok found) ↔ ∀ a ∈ items, ∃ b, f a = .ok b := by
  induction items with
  | nil => exact ⟨fun _ => by simp, fun _ => ⟨[], rfl⟩⟩
  | cons a rest ih =>
    rw [List.forall_mem_cons, ← ih]
    simp only [List.mapM_cons, bind_eq_ok, return_eq_ok]
    constructor
    · rintro ⟨_, b, hb, bs, hbs, -⟩
      exact ⟨⟨b, hb⟩, bs, hbs⟩
    · rintro ⟨⟨b, hb⟩, bs, hbs⟩
      exact ⟨_, b, hb, bs, hbs, rfl⟩

theorem mapM_ok {found : List β} (h : items.mapM f = .ok found) :
    ∀ b ∈ found, ∃ a ∈ items, f a = .ok b := by
  have hall := mapM_eq_ok.mp h
  intro b hb
  obtain ⟨i, hi, rfl⟩ := List.mem_iff_getElem.mp hb
  have hlength : i < items.length := hall.length_eq ▸ hi
  exact ⟨items[i], List.getElem_mem hlength, hall.get hlength hi⟩

theorem mem_reachable {claims : List Claim} {all : List ResolvedEvidence} {e : ResolvedEvidence}
    (h : e ∈ reachable claims all) : e ∈ all := by
  obtain ⟨id, -, hfind⟩ := List.mem_filterMap.mp h
  exact List.mem_of_find?_eq_some hfind

theorem load_resolved {files : LedgerFiles} {k : ActiveCorpus} (h : load files = .ok k) :
    Resolved k := by
  simp only [load, bind_eq_ok, return_eq_ok, require_eq_ok] at h
  obtain ⟨records, -, -, -, -, -, all, hall, -, hcited, rfl⟩ := h
  simp only [loadEvidence, bind_eq_ok, return_eq_ok] at hall
  obtain ⟨groups, hgroups, -, -, rfl⟩ := hall
  refine ⟨?_, ?_⟩
  · intro e he
    obtain ⟨group, hgroup, hmem⟩ := List.mem_flatten.mp (mem_reachable he)
    obtain ⟨snapshot, -, hresolve⟩ := mapM_ok hgroups group hgroup
    obtain ⟨hrevision, hsource, hid⟩ := resolve_ok hresolve e hmem
    refine ⟨e.source, List.mem_filter.mpr ⟨hsource, ?_⟩, rfl⟩
    rw [decide_eq_true_iff, hid]
    refine List.mem_map_of_mem (List.mem_filter.mpr ⟨hrevision, ?_⟩)
    rw [decide_eq_true_iff]
    exact List.mem_map_of_mem (f := fun e => e.revision.sourceRevisionId) he
  · intro c hc id hid
    obtain ⟨e, he, hsegment⟩ := hcited c hc id hid
    cases hfind : groups.flatten.find? fun e => e.segment.segmentId = id with
    | none =>
      rw [List.find?_eq_none] at hfind
      exact absurd (by simpa using hsegment) (hfind e he)
    | some found =>
      refine ⟨found, List.mem_filterMap.mpr ⟨id, ?_, hfind⟩, by simpa using List.find?_some hfind⟩
      refine mem_byId.mpr (List.mem_dedup.mpr (List.mem_flatMap.mpr ⟨c, hc, hid⟩))

end RaytSystem.Corpus
