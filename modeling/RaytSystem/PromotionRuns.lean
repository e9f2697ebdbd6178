import RaytSystem.PromotionAccess

/-! Runs of promotions: any number of calls on the promotion table, of promotions and of
recoveries, in any interleaving and with any of them lost. -/
namespace RaytSystem.Ingestion
open Control ImmutableStore Interleaving

section
variable (env : IngestEnv)

inductive Request where
  | store (row : PromotionRow)
  | update (txnId : Digest) (state : PromotionState)
  | promote (p : Prepared) (g : Grant)
  | recover (runId : RunId) (fixture : Bool) (approval : Option String)

def Request.program (worker : String) : Request → IngestProg Unit
  | store row => storePromotion row
  | update txnId state => updatePromotionState txnId state
  | promote p g => do
    let _ ← Ingestion.promote env worker p g
  | recover runId fixture approval => do
    let _ ← recoverRun env worker runId fixture approval

theorem keeps_program (worker : String) (r : Request) : Keeps (r.program env worker) := by
  cases r with
  | store row => exact keeps_storePromotion row
  | update txnId state => exact keeps_updatePromotionState txnId state
  | promote p g => exact keeps_bind (keeps_promote env worker p g) fun _ => keeps_pure ()
  | recover runId fixture approval =>
    exact keeps_bind (keeps_recoverRun env worker runId fixture approval) fun _ => keeps_pure ()
end

section
variable {ι : Type} (env : IngestEnv) (worker : ι → String)
  (request : ι → Request)

def lostWriter (i : ι) (w : IngestWorld) : IngestWorld :=
  match w.writer with
  | some (owner,_) => if owner = worker i then {w with writer := none} else w
  | none => w

def requestPool (w : IngestWorld) : Pool ι IngestWorld IngestAccess IngestError Unit where
  thread i := some ((request i).program env (worker i))
  world := w

theorem lost_promotions (i : ι) (w : IngestWorld) :
    (lostWriter worker i w).db.promotions = w.db.promotions := by
  unfold lostWriter
  split
  · split <;> rfl
  · rfl

def recordRule (condition : IngestAccess → IngestWorld → Prop)
    (T : IngestWorld → IngestWorld → Prop) : Discipline IngestWorld IngestAccess where
  inv _ := True
  rely _ _ := True
  assume := condition
  guar _ := T

variable {condition : IngestAccess → IngestWorld → Prop} {T : IngestWorld → IngestWorld → Prop}

theorem requests_compatible :
    Pool.Compatible (fun _ : ι => recordRule condition T) (lostWriter worker) fun _ => True where
  inv_eq _ := rfl
  preorder _ := ⟨fun _ => trivial, fun _ _ => trivial⟩
  guar _ _ _ _ _ _ _ _ := trivial
  lost_inv _ _ _ := trivial
  lost_rely _ _ _ _ _ := trivial

variable [DecidableEq ι]

/-- The run rule of the promotion table: what every access under the condition does to the
records holds between any two moments of a run. -/
theorem requests_keep (hrefl : ∀ w, T w w) (htrans : ∀ {x y z}, T x y → T y z → T x z)
    (hT : ∀ l w w', Freezes l w w' → condition l w → T w w')
    (hlost : ∀ i w, T w (lostWriter worker i w)) {w : IngestWorld}
    {c c' : Pool ι IngestWorld IngestAccess IngestError Unit}
    (h : Pool.Reachable (fun _ => condition) (lostWriter worker)
      (requestPool env worker request w) c)
    (h' : Pool.Reachable (fun _ => condition) (lostWriter worker) c c') : T c.world c'.world := by
  have hstart : Pool.Disciplined (fun _ : ι => recordRule condition T) (fun _ => True)
      (requestPool env worker request w) := by
    refine ⟨trivial, ?_⟩
    rintro i p hp
    obtain rfl := Option.some.inj hp
    refine does_disciplined (fun _ => trivial) ?_
    exact Prog.does_mono (keeps_program env (worker i) (request i)) hT
  have hc := Pool.reachable_disciplined (requests_compatible worker) hstart h
  refine Pool.reachable_world (requests_compatible worker) hc hrefl htrans
    (fun _ _ _ _ _ hg => hg) (fun i w _ => hlost i w) h'

/-- Where nothing is stored over a settled record but what is there, settled records stay as
they are: their payload, their tokens and their approval. -/
theorem settled_records_kept {w : IngestWorld}
    {c c' : Pool ι IngestWorld IngestAccess IngestError Unit}
    (h : Pool.Reachable (fun _ => Carries) (lostWriter worker) (requestPool env worker request w) c)
    (h' : Pool.Reachable (fun _ => Carries) (lostWriter worker) c c') : Frozen c.world c'.world :=
  requests_keep env worker request frozen_refl frozen_trans (fun _ _ _ hf hc => hf.2 hc)
    (fun i w => (freezes_same (l := .other) (lost_promotions worker i w)).2 trivial) h h'
end

def sampleResult : IngestResult :=
  ⟨.prepared, false, 1, 2, 3, 4, 5, 6, (4,6), 7, .gen 9⟩

variable (token : Nat)

def sampleTxn : PromotionTxn :=
  ⟨8, 1, 2, .genesis, .gen 9, 10, 11, token, token, [(12,13)], none, 0, 0, sampleResult, none⟩

def sampleRow : PromotionRow :=
  ⟨8, 2, 1, token, token, .genesis, .gen 9, 10, 11, some 14, .prepared, sampleTxn token, 0⟩

def sampleHashing : Hashing where
  content _ := 0
  text _ := 0
  sourceId _ := 0
  source _ := 0
  revisionId _ _ := 0
  revision _ := 0
  adapterConfig _ _ _ _ := 0
  normalizationId _ _ _ _ := 0
  segmentId _ _ _ := 0
  segments _ := 0
  excerpts _ := 0
  packItems _ _ := 0
  packId _ _ := 0
  pack _ := 0
  requestId _ _ _ := 0
  request _ := 0
  itemId _ _ := 0
  responseId _ _ := 0
  claimId _ _ := 0
  proposition _ _ := 0
  claim _ := 0
  txnId _ _ _ := 0
  eventId _ := 0
  generationId _ := 0
  generation _ := 0
  txn _ := 0
  event _ := 0
  bundleId _ _ := 0
  operationKey _ _ _ _ _ := 0
  fixtureAuthority _ _ := 0
  approvalId _ := 0
  approval _ := 0
  verificationId _ _ := 0

def sampleEnv : IngestEnv where
  hash := sampleHashing
  fits := ⟨fun _ => true, fun _ => true, fun _ => true, fun _ => true, fun _ => true, fun _ => true⟩
  leaseTtlMs := 1000
  schemaRegistrySha256 := none
  policySha256 := none
  selectExtractor _ := .error "Unsupported source type"
  extract _ _ _ := .error "Unsupported source type"
  fixturePolicy _ _ := .error (.approvalRequired "Fixture is not allowed")
  allowsContent _ _ := true
  allowsText _ := true
  allowsClaim _ := true
  allowsResponse _ := true
  verifyApproval _ := .error (.approvalRequired "No verifier")
  verifierSha256 := 0

def sampleFiles : IngestFiles where
  current := .genesis
  generations _ := none
  claims _ := none
  blobs _ := none
  sources := .empty
  revisions := .empty
  documents _ := none
  segments := .empty
  excerpts _ := none
  normalizations _ := none
  manifests _ := none
  staging _ := .empty
  events := .empty
  materialized := none
  accepted _ := none
  verified _ := none

def sampleWorld : IngestWorld :=
  ⟨sampleFiles, ⟨.empty "epoch_initial", fun _ => none, fun _ => none, [], []⟩, none, []⟩

def sampleRequests : Fin 4 → Request
  | 0 => .store (sampleRow 1)
  | 1 => .update 8 .committing
  | 2 => .update 8 .committed
  | 3 => .store (sampleRow token)

def samplePool : Pool (Fin 4) IngestWorld IngestAccess IngestError Unit :=
  requestPool sampleEnv (fun _ => "run") (sampleRequests token) sampleWorld

def carries : IngestAccess → IngestWorld → Bool
  | .storePromotion row, w => (promotionRow w.db row.txnId).all fun existing =>
      existing.state.replaceable || decide (row.payload = existing.payload ∧
        row.partitionFencingToken = existing.partitionFencingToken ∧
        row.globalFencingToken = existing.globalFencingToken)
  | _, _ => true

theorem carries_sound (l : IngestAccess) (w : IngestWorld) (h : carries l w = true) :
    Carries l w := by
  cases l with
  | storePromotion row =>
    intro existing hexisting hsettled _ _
    have hstate : existing.state.replaceable = false := by
      simpa [PromotionRow.settled] using hsettled
    simpa [carries, hexisting, hstate] using h
  | _ => trivial

def committedPool : Pool (Fin 4) IngestWorld IngestAccess IngestError Unit :=
  (((samplePool token).advance (fun _ => carries) 0 1 []).advance (fun _ => carries) 1 1 []).advance
    (fun _ => carries) 2 1 []

theorem committed_reachable {condition : IngestAccess → IngestWorld → Prop}
    (hok : ∀ l w, carries l w = true → condition l w) (token : Nat) :
    Pool.Reachable (fun _ => condition) (lostWriter fun _ => "run") (samplePool token)
      (committedPool token) :=
  ((Pool.advance_reachable (fun _ => hok) _ 0 1 []).trans
    (Pool.advance_reachable (fun _ => hok) _ 1 1 [])).trans
      (Pool.advance_reachable (fun _ => hok) _ 2 1 [])

/-- A later call that brings what is stored leaves it so. -/
theorem same_tokens_kept :
    Frozen (committedPool 1).world ((committedPool 1).advance (fun _ => carries) 3 1 []).world :=
  settled_records_kept sampleEnv (fun _ => "run") (sampleRequests 1) (committed_reachable carries_sound 1)
    (Pool.advance_reachable (fun _ => carries_sound) _ 3 1 [])

/-- A call under new tokens replaces the tokens and the payload of a committed promotion. -/
theorem tokens_replaced : ∃ c c' : Pool (Fin 4) IngestWorld IngestAccess IngestError Unit,
    Pool.Reachable (fun _ _ _ => True) (lostWriter fun _ => "run") (samplePool 2) c ∧
      Pool.Reachable (fun _ _ _ => True) (lostWriter fun _ => "run") c c' ∧
      promotionRow c.world.db 8 = some {sampleRow 1 with state := .committed} ∧
      promotionRow c'.world.db 8 = some {sampleRow 2 with state := .committed} := by
  refine ⟨committedPool 2, (committedPool 2).advance (fun _ _ _ => true) 3 1 [],
    committed_reachable (fun _ _ _ => trivial) 2,
    Pool.advance_reachable (fun _ _ _ _ => trivial) _ 3 1 [], ?_, ?_⟩
  · decide +kernel
  · decide +kernel

end RaytSystem.Ingestion
