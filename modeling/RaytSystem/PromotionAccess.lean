import RaytSystem.PromotionRecords

/-! Every access of a promotion, of a recovery and of the table's own calls keeps the settled
records: one rule for each kind of access, and one fact for each function in the order of the
code. -/
namespace RaytSystem.Ingestion
open Control ImmutableStore Interleaving Prog Except

variable {α : Type}

def Keeps (p : IngestProg α) : Prop := p.Does Freezes

section
variable (env : IngestEnv)

@[simp] theorem keeps_pure (a : α) : Keeps (.pure a) := trivial

@[simp] theorem keeps_fail (e : IngestError) : Keeps (.fail e : IngestProg α) := trivial

@[simp] theorem keeps_require {b : Prop} [Decidable b] {e : IngestError} :
    Keeps (.require b e) := does_require

@[simp] theorem keeps_ofOption {x : Option α} {e : IngestError} : Keeps (.ofOption x e) :=
  does_ofOption

@[simp] theorem keeps_ofExcept {x : Except IngestError α} : Keeps (.ofExcept x) :=
  does_ofExcept

@[simp] theorem keeps_nowMs : Keeps nowMs := does_any

theorem keeps_bind {β : Type} {p : IngestProg β} {g : β → IngestProg α} (hp : Keeps p)
    (hg : ∀ b, Keeps (g b)) : Keeps (p.bind g) := does_bind hp hg

theorem keeps_ite {c : Prop} [Decidable c] {p q : IngestProg α} (hp : Keeps p) (hq : Keeps q) :
    Keeps (if c then p else q) := by
  split
  · exact hp
  · exact hq

theorem keeps_each {β : Type} {f : β → IngestProg Unit} (hf : ∀ b, Keeps (f b)) (xs : List β) :
    Keeps (.each f xs) := does_each hf xs

variable {f : ControlDb → Except IngestError (α × ControlDb)}

@[simp] theorem keeps_inspect (f : IngestFiles → Except IngestError α) : Keeps (inspect f) := by
  refine does_attempt (freezes_refl _) ?_
  intro w b w' h
  split at h
  · obtain ⟨-, rfl⟩ := Prod.mk.inj (ok.inj h)
    exact freezes_refl _ w
  · cases h

@[simp] theorem keeps_fetch (f : IngestFiles → Option α) (e : IngestError) : Keeps (fetch f e) := by
  refine does_attempt (freezes_refl _) ?_
  intro w b w' h
  split at h
  · obtain ⟨-, rfl⟩ := Prod.mk.inj (ok.inj h)
    exact freezes_refl _ w
  · cases h

@[simp] theorem keeps_peek (f : IngestFiles → α) : Keeps (peek f) :=
  does_get (freezes_refl _)

@[simp] theorem keeps_write (f : IngestFiles → IngestFiles) : Keeps (write f) :=
  does_set fun _ => freezes_same rfl

@[simp] theorem keeps_publishFile (f : IngestFiles → Option IngestFiles) :
    Keeps (publishFile f) := by
  refine does_attempt (freezes_refl _) ?_
  intro w b w' h
  unfold publishStep at h
  split at h
  · obtain ⟨-, rfl⟩ := Prod.mk.inj (ok.inj h)
    exact freezes_same rfl
  · cases h

@[simp] theorem keeps_query (f : ControlDb → α) : Keeps (query f) :=
  does_get (freezes_refl _)

theorem transactStep_ok {w w' : IngestWorld} {a : α} (h : transactStep f w = .ok (a,w')) :
    ∃ db, f w.db = .ok (a,db) ∧ w' = {w with db := db} := by
  unfold transactStep at h
  split at h
  · cases h
  · split at h
    next b db hf =>
      obtain ⟨rfl, rfl⟩ := Prod.mk.inj (ok.inj h)
      exact ⟨db, hf, rfl⟩
    next => cases h

theorem keeps_transact (hf : ∀ db a db', f db = .ok (a,db') → db'.promotions = db.promotions) :
    Keeps (transact f) := by
  refine does_attempt (freezes_refl _) ?_
  intro w a w' h
  obtain ⟨db, hdb, rfl⟩ := transactStep_ok h
  exact freezes_same (hf _ _ _ hdb)

variable (txnId : Digest)

@[simp] theorem keeps_storePromotion (row : PromotionRow) : Keeps (storePromotion row) := by
  refine does_attempt (freezes_refl _) ?_
  intro w a w' h
  obtain ⟨db, hdb, rfl⟩ := transactStep_ok h
  exact ⟨stored_bound hdb, (stored_frozen hdb).mpr⟩

@[simp] theorem keeps_updatePromotionState (state : PromotionState) :
    Keeps (updatePromotionState txnId state) := by
  refine does_attempt (freezes_refl _) ?_
  intro w a w' h
  obtain ⟨db, hdb, rfl⟩ := transactStep_ok h
  exact freezes_of_frozen (updated_frozen hdb)

@[simp] theorem keeps_updateOperation (key : Digest) (state : RunState)
    (result : Option IngestResult) : Keeps (updateOperation key state result) := by
  refine keeps_transact fun db a db' h => ?_
  split at h
  · cases h
  · obtain ⟨-, rfl⟩ := Prod.mk.inj (ok.inj h)
    rfl

@[simp] theorem keeps_acquireLease (worker partition : String) (now : Time) :
    Keeps (acquireLease env worker partition now) := by
  refine keeps_transact fun db a db' h => ?_
  split at h
  · obtain ⟨-, rfl⟩ := Prod.mk.inj (ok.inj h)
    rfl
  · cases h

@[simp] theorem keeps_releaseLease (lease : LeaseToken) : Keeps (releaseLease lease) := by
  refine keeps_transact fun db a db' h => ?_
  obtain ⟨-, rfl⟩ := Prod.mk.inj (ok.inj h)
  rfl

@[simp] theorem keeps_storeEventOutbox (row : OutboxRow) : Keeps (storeEventOutbox row) := by
  refine keeps_transact fun db a db' h => ?_
  split at h
  · split at h
    · obtain ⟨-, rfl⟩ := Prod.mk.inj (ok.inj h)
      rfl
    · cases h
  · obtain ⟨-, rfl⟩ := Prod.mk.inj (ok.inj h)
    rfl

@[simp] theorem keeps_markEventAppended (eventId : Digest) : Keeps (markEventAppended eventId) := by
  refine keeps_transact fun db a db' h => ?_
  obtain ⟨-, rfl⟩ := Prod.mk.inj (ok.inj h)
  rfl

@[simp] theorem keeps_beginHold (worker : String) (leases : List LeaseToken) (now : Time) :
    Keeps (beginHold env worker leases now) := by
  refine does_attempt (freezes_refl _) ?_
  intro w a w' h
  split at h
  · cases h
  · split at h
    · obtain ⟨-, rfl⟩ := Prod.mk.inj (ok.inj h)
      exact freezes_same rfl
    · cases h

@[simp] theorem keeps_rollback : Keeps rollback := does_set fun _ => freezes_same rfl

@[simp] theorem keeps_commit : Keeps commit := by
  refine does_set fun w => freezes_same ?_
  split <;> rfl

theorem keeps_holdValidLeases {worker : String} {leases : List LeaseToken}
    {body : List LeaseToken → IngestProg α} (hbody : ∀ ls, Keeps (body ls)) :
    Keeps (holdValidLeases env worker leases body) := by
  refine keeps_bind keeps_nowMs fun now => keeps_bind (keeps_beginHold env _ _ _) fun renewed => ?_
  refine keeps_bind ?_ fun a => keeps_bind keeps_commit fun _ => keeps_pure a
  exact does_tryCatch (hbody renewed) fun e => keeps_bind keeps_rollback fun _ => keeps_fail e

@[simp] theorem keeps_renewHeldLeases (worker : String) (leases : List LeaseToken) :
    Keeps (renewHeldLeases env worker leases) := by
  refine keeps_bind keeps_nowMs fun now => does_attempt (freezes_refl _) ?_
  intro w a w' h
  repeat' split at h
  · obtain ⟨-, rfl⟩ := Prod.mk.inj (ok.inj h)
    exact freezes_same rfl
  all_goals cases h

@[simp] theorem keeps_advanceEach (states : List PromotionState) :
    Keeps (advanceEach txnId states) := by
  induction states with
  | nil => exact keeps_pure ()
  | cons s rest ih => exact keeps_bind (keeps_updatePromotionState txnId s) fun _ => ih

@[simp] theorem keeps_advancePromotionState (target : PromotionState) :
    Keeps (advancePromotionState txnId target) :=
  keeps_bind (keeps_query _) fun _ => keeps_bind keeps_ofOption fun _ =>
    keeps_bind keeps_require fun _ => keeps_advanceEach txnId _
end

section
variable (env : IngestEnv) (f : IngestFiles → Option α) (p : Prepared)

@[simp] theorem keeps_readRegular (fits : α → Bool) : Keeps (readRegular f fits) := by
  repeat refine keeps_bind (by simp) fun _ => ?_
  simp

@[simp] theorem keeps_readGeneration (id : GenerationId) : Keeps (readGeneration id) :=
  keeps_fetch _ _

@[simp] theorem keeps_readCurrentGeneration : Keeps (readCurrentGeneration env) := by
  repeat refine keeps_bind (by simp) fun _ => ?_
  simp

@[simp] theorem keeps_readManifest (runId : RunId) : Keeps (readManifest runId) := keeps_fetch _ _

@[simp] theorem keeps_updateRunManifest (runId : RunId) (state : RunState)
    (update : RunManifest → RunManifest) : Keeps (updateRunManifest runId state update) := by
  repeat refine keeps_bind (by simp) fun _ => ?_
  simp

@[simp] theorem keeps_loadSource (sourceId : Digest) : Keeps (loadSource env sourceId) :=
  keeps_inspect _

@[simp] theorem keeps_loadSourceRevision (id : Digest) : Keeps (loadSourceRevision env id) :=
  keeps_inspect _

@[simp] theorem keeps_loadExcerpts (n : Normalization) : Keeps (loadExcerpts env n) := by
  repeat refine keeps_bind (by simp) fun _ => ?_
  simp

@[simp] theorem keeps_readInherited (fits : α → Bool) :
    Keeps (readInherited f fits) := keeps_inspect _

@[simp] theorem keeps_classifyDerivedOrQuarantine (extraction : Extraction) :
    Keeps (classifyDerivedOrQuarantine env extraction) := keeps_require

@[simp] theorem keeps_authorizeFixture (path : String) (data : Bytes) :
    Keeps (authorizeFixture env path data) := keeps_ofExcept

@[simp] theorem keeps_reextract (error : IngestError) (path : String) (raw : Bytes) :
    Keeps (reextract env error path raw) := by
  unfold reextract
  split
  · simp
  · refine keeps_ite (keeps_bind (keeps_authorizeFixture env path raw) fun _ => ?_) ?_
    · split <;> simp
    · split <;> simp

@[simp] theorem keeps_checkInheritedSegment (path : SnapshotPath) (lines : List String)
    (excerpts : PyDict Digest String) (x : Segment × Nat) :
    Keeps (checkInheritedSegment env path lines excerpts x) := by
  repeat refine keeps_bind (by simp) fun _ => ?_
  simp

@[simp] theorem keeps_checkInheritedPdf (n : Normalization) (revision : SourceRevision) :
    Keeps (checkInheritedPdf env n revision) := by
  refine keeps_bind (keeps_loadSource env _) fun source => ?_
  split <;> simp

@[simp] theorem keeps_reextractInherited (path : SnapshotPath) (n : Normalization)
    (revision : SourceRevision) (raw : Bytes) (document : String) (segments : List Segment)
    (excerpts : PyDict Digest String) :
    Keeps (reextractInherited env path n revision raw document segments excerpts) := by
  refine keeps_bind (keeps_loadSource env _) fun source => ?_
  split
  · simp
  · refine keeps_bind keeps_require fun _ => ?_
    split
    · simp
    · exact keeps_bind keeps_require fun _ => keeps_require

@[simp] theorem keeps_validateEvidenceSnapshot (path : SnapshotPath) (evidenceId : Digest)
    (again : Bool) : Keeps (validateEvidenceSnapshot env path evidenceId again) := by
  repeat refine keeps_bind (by simp) fun _ => ?_
  refine keeps_bind (keeps_each (fun x => keeps_checkInheritedSegment env path _ _ x) _) fun _ => ?_
  repeat refine keeps_bind (by simp) fun _ => ?_
  refine keeps_ite (keeps_bind (by simp) fun _ => keeps_ite ?_ ?_) (keeps_ite ?_ ?_) <;> simp

@[simp] theorem keeps_validateEvidence (reextractId : Option Digest) (evidenceId : Digest) :
    Keeps (validateEvidence env reextractId evidenceId) := by
  refine keeps_bind (keeps_peek _) fun found => ?_
  split <;> simp

@[simp] theorem keeps_validateEntry (staged : Claim) (reextractId : Option Digest)
    (x : Digest × GenerationEntry) : Keeps (validateEntry env staged reextractId x) := by
  unfold validateEntry
  split
  · simp
  · refine keeps_bind keeps_require fun _ => ?_
    split
    · repeat refine keeps_bind (by simp) fun _ => ?_
      exact keeps_each (keeps_validateEvidence env reextractId) _
    · repeat refine keeps_bind (by simp) fun _ => ?_
      exact keeps_each (keeps_validateEvidence env reextractId) _

@[simp] theorem keeps_validateGenerationObjects (generation : LedgerGeneration) (staged : Claim)
    (reextractId : Option Digest) :
    Keeps (validateGenerationObjects env generation staged reextractId) :=
  keeps_each (keeps_validateEntry env staged reextractId) _

@[simp] theorem keeps_checkSegment (revision : SourceRevision) (n : Normalization)
    (x : Segment × Nat) : Keeps (checkSegment env revision n x) := by
  repeat refine keeps_bind (by simp) fun _ => ?_
  simp

@[simp] theorem keeps_checkExcerpt (lines : List String) (excerpts : PyDict Digest String)
    (segment : Segment) : Keeps (checkExcerpt env lines excerpts segment) := by
  repeat refine keeps_bind (by simp) fun _ => ?_
  simp

@[simp] theorem keeps_checkClaim : Keeps (checkClaim env p) := by
  repeat refine keeps_bind (by simp) fun _ => ?_
  simp

@[simp] theorem keeps_checkGeneration : Keeps (checkGeneration env p) := by
  repeat refine keeps_bind (by simp) fun _ => ?_
  simp

@[simp] theorem keeps_checkTransaction : Keeps (checkTransaction env p) := by
  repeat refine keeps_bind (by simp) fun _ => ?_
  simp

@[simp] theorem keeps_checkRevision (result : IngestResult) : Keeps (checkRevision env result) := by
  repeat refine keeps_bind (by simp) fun _ => ?_
  simp

@[simp] theorem keeps_checkSnapshot (result : IngestResult) (claim : Claim)
    (revision : SourceRevision) : Keeps (checkSnapshot env result claim revision) := by
  repeat refine keeps_bind (by simp) fun _ => ?_
  refine keeps_bind (keeps_each (fun x => keeps_checkSegment env revision _ x) _) fun _ => ?_
  repeat refine keeps_bind (by simp) fun _ => ?_
  refine keeps_bind (keeps_each (fun x => keeps_checkExcerpt env _ _ x) _) fun _ => ?_
  simp

@[simp] theorem keeps_validatePrepared : Keeps (validatePrepared env p) := by
  repeat refine keeps_bind (by simp) fun _ => ?_
  simp
end
section
variable (env : IngestEnv) (worker : String) (p : Prepared)

@[simp] theorem keeps_mergeClaimWithGeneration (generation : LedgerGeneration) (claim : Claim) :
    Keeps (mergeClaimWithGeneration env generation claim) := by
  unfold mergeClaimWithGeneration
  split
  · simp
  · refine keeps_ite (by simp) ?_
    repeat refine keeps_bind (by simp) fun _ => ?_
    simp

@[simp] theorem keeps_writeStagingBundle : Keeps (writeStagingBundle env p) := by
  repeat refine keeps_bind (keeps_write _) fun _ => ?_
  exact keeps_write _

@[simp] theorem keeps_rebasePrepared (parentId : GenerationId) :
    Keeps (rebasePrepared env p parentId) := by
  repeat refine keeps_bind (by simp) fun _ => ?_
  simp

theorem keeps_checkBundleFile (f : Staging → Option α) (runId : RunId) (hash : α → Digest)
    (expected : Digest) : Keeps (checkBundleFile f runId hash expected) :=
  keeps_bind (keeps_fetch _ _) fun _ => keeps_require

theorem keeps_readBundleFile (f : Staging → Option α) (runId : RunId) :
    Keeps (readBundleFile f runId) := keeps_fetch _ _

variable (runId : RunId) (m : RunManifest) (operationKey : Digest)

@[simp] theorem keeps_assemblePrepared (claim : Claim) (generation : LedgerGeneration)
    (txn : PromotionTxn) (event : PromotionEvent) :
    Keeps (assemblePrepared runId m claim generation txn event) := by
  have hsegment : Keeps (loadedSegment m claim) := by
    unfold loadedSegment
    split <;> simp
  repeat refine keeps_bind (by simp [requireField]) fun _ => ?_
  refine keeps_bind hsegment fun _ => ?_
  simp

@[simp] theorem keeps_loadPrepared : Keeps (loadPrepared env runId) := by
  refine keeps_bind (keeps_peek _) fun marker => ?_
  split
  · simp
  · refine keeps_bind keeps_require fun _ => ?_
    iterate 4 refine keeps_bind (keeps_checkBundleFile _ _ _ _) fun _ => ?_
    refine keeps_bind keeps_require fun _ => keeps_bind (keeps_readManifest _) fun _ => ?_
    iterate 4 refine keeps_bind (keeps_readBundleFile _ _) fun _ => ?_
    exact keeps_bind (keeps_assemblePrepared _ _ _ _ _ _) fun _ => keeps_pure _

@[simp] theorem keeps_promotionForOperation (key : Digest) : Keeps (promotionForOperation key) :=
  keeps_query _

@[simp] theorem keeps_eventOutboxRecord (eventId : Digest) : Keeps (eventOutboxRecord eventId) :=
  keeps_query _

@[simp] theorem keeps_loadFromWal (runId : RunId) : Keeps (loadFromWal operationKey runId) := by
  refine keeps_bind (by simp) fun row => ?_
  split
  · simp
  · repeat refine keeps_bind (by simp) fun _ => ?_
    split
    · repeat refine keeps_bind (by simp) fun _ => ?_
      simp
    · simp

@[simp] theorem keeps_deriveFixtureAuthority : Keeps (deriveFixtureAuthority env p m) := by
  repeat refine keeps_bind (by simp) fun _ => ?_
  refine keeps_ite (by simp) (keeps_bind ?_ fun _ => ?_)
  · refine does_tryCatch (keeps_authorizeFixture env _ _) fun e => ?_
    split <;> exact keeps_fail _
  · repeat refine keeps_bind (by simp) fun _ => ?_
    simp

@[simp] theorem keeps_assertApprovalValid (approval : ApprovalRecord) (time : Time) :
    Keeps (assertApprovalValid env p approval time) := keeps_require

@[simp] theorem keeps_loadAndValidateApproval (incoming : Option String) :
    Keeps (loadAndValidateApproval env p incoming) := by
  repeat refine keeps_bind (by simp [publishApproval]) fun _ => ?_
  simp

@[simp] theorem keeps_checkGrant (g : Grant) : Keeps (checkGrant g) :=
  keeps_ite keeps_require keeps_require

@[simp] theorem keeps_authorityOf (g : Grant) : Keeps (authorityOf env operationKey g) :=
  keeps_ite (keeps_bind keeps_ofOption fun _ => keeps_pure _)
    (keeps_bind keeps_ofOption fun _ => keeps_pure _)

@[simp] theorem keeps_derive (message : String) : Keeps (derive message) :=
  keeps_bind does_any fun _ => keeps_require

@[simp] theorem keeps_assertActiveGenerationReconciled (g : LedgerGeneration) :
    Keeps (assertActiveGenerationReconciled g) := by
  refine keeps_ite (by simp) ?_
  repeat refine keeps_bind (by simp) fun _ => ?_
  simp

@[simp] theorem keeps_reconcile (leases : List LeaseToken) :
    Keeps (reconcile env worker p leases) := by
  iterate 5 refine keeps_bind (by simp [publishEvent, rebuildJsonl]) fun _ => ?_
  refine keeps_holdValidLeases env fun _ => ?_
  repeat refine keeps_bind (by simp) fun _ => ?_
  simp

@[simp] theorem keeps_settle (leases : List LeaseToken) : Keeps (settle env worker p leases) := by
  repeat refine keeps_bind (by simp) fun _ => ?_
  simp

theorem keeps_withLeases (sourceId : Digest) {body : Time → LeaseToken → LeaseToken → IngestProg α}
    (hbody : ∀ now source ledger, Keeps (body now source ledger)) :
    Keeps (withLeases env worker sourceId body) := by
  refine keeps_bind keeps_nowMs fun now => keeps_bind (keeps_acquireLease env _ _ _) fun source => ?_
  refine keeps_bind (does_toExcept (keeps_acquireLease env _ _ _)) fun ledger => ?_
  split
  · exact does_tryFinally (keeps_fail _) (keeps_releaseLease _)
  · exact does_tryFinally (hbody _ _ _)
      (keeps_bind (keeps_releaseLease _) fun _ => keeps_releaseLease _)

variable (txn : PromotionTxn)

@[simp] theorem keeps_onActive (wal : Option PromotionRow) (active : GenerationId) (g : Grant)
    (p : Prepared) : Keeps (onActive env wal active g p) := by
  refine keeps_ite (by simp) ?_
  repeat refine keeps_bind (by simp) fun _ => ?_
  simp

@[simp] theorem keeps_writeAhead (approvalHash : Digest) (replaced : Option Digest) (now : Time) :
    Keeps (writeAhead env p txn approvalHash replaced now) := by
  repeat refine keeps_bind (by simp [publishClaim, publishGeneration]) fun _ => ?_
  split <;> simp

@[simp] theorem keeps_replaceCurrentGeneration (id : GenerationId) :
    Keeps (replaceCurrentGeneration txn id) := by
  repeat refine keeps_bind (by simp) fun _ => ?_
  exact does_set fun _ => freezes_same rfl

theorem keeps_commitPointer (g : Grant) (leases : List LeaseToken) :
    Keeps (commitPointer env worker p txn g leases) := by
  repeat refine keeps_bind (by simp) fun _ => ?_
  split
  · repeat refine keeps_bind (by simp) fun _ => ?_
    simp
  · repeat refine keeps_bind (by simp) fun _ => ?_
    simp

@[simp] theorem keeps_commitCandidate (g : Grant) (leases : List LeaseToken) :
    Keeps (commitCandidate env worker p txn g leases) := by
  refine keeps_bind (by simp) fun current => keeps_ite ?_ (by simp [keeps_bind])
  exact keeps_bind (by simp) fun _ =>
    keeps_holdValidLeases env (keeps_commitPointer env worker p txn g)

@[simp] theorem keeps_endWithoutChange (active : LedgerGeneration) (activeId : GenerationId) :
    Keeps (endWithoutChange p active activeId) := by
  repeat refine keeps_bind (by simp) fun _ => ?_
  simp

@[simp] theorem keeps_checkActive (wal : Option PromotionRow) (active : LedgerGeneration)
    (activeId : GenerationId) : Keeps (checkActive p wal active activeId) :=
  keeps_ite (keeps_pure ()) (keeps_assertActiveGenerationReconciled active)

theorem keeps_promoteHeld (g : Grant) (now : Time) (source ledger : LeaseToken) :
    Keeps (promoteHeld env worker p g now source ledger) := by
  iterate 4 refine keeps_bind (by simp) fun _ => ?_
  refine keeps_ite (by simp) ?_
  repeat refine keeps_bind (by simp) fun _ => ?_
  simp

variable (wal : PromotionRow)

@[simp] theorem keeps_promote (g : Grant) : Keeps (promote env worker p g) := by
  refine keeps_bind (by simp) fun _ => keeps_bind (by simp) fun _ => ?_
  exact keeps_withLeases env worker _ (keeps_promoteHeld env worker p g)

@[simp] theorem keeps_checkCommittedRow : Keeps (checkCommittedRow p wal) := by
  repeat refine keeps_bind (by simp) fun _ => ?_
  simp

@[simp] theorem keeps_checkCommittedAuthority : Keeps (checkCommittedAuthority env p wal) := by
  unfold checkCommittedAuthority
  split
  · simp
  · simp
  · repeat refine keeps_bind (by simp) fun _ => ?_
    simp

@[simp] theorem keeps_validateCommittedPrepared : Keeps (validateCommittedPrepared env p wal) := by
  repeat refine keeps_bind (by simp) fun _ => ?_
  simp

theorem keeps_holdCommitted (leases : List LeaseToken) :
    Keeps (holdCommitted env worker p leases) := by
  iterate 6 refine keeps_bind (by simp) fun _ => ?_
  simp

@[simp] theorem keeps_recoverCommitted : Keeps (recoverCommitted env worker p wal) := by
  refine keeps_bind (by simp) fun _ => keeps_withLeases env worker _ fun _ source ledger => ?_
  exact keeps_bind (keeps_holdValidLeases env (keeps_holdCommitted env worker p)) fun leases =>
    keeps_settle env worker p leases

@[simp] theorem keeps_loadCandidate (runId : RunId) :
    Keeps (loadCandidate env operationKey runId) := by
  refine keeps_bind (by simp) fun staged => ?_
  split <;> simp

@[simp] theorem keeps_recoverStaged (runId : RunId) (fixture : Bool) (approval : Option String) :
    Keeps (recoverStaged env worker m runId fixture approval) := by
  iterate 6 refine keeps_bind (by simp) fun _ => ?_
  refine keeps_ite ?_ ?_
  · exact keeps_bind keeps_require fun _ => keeps_promote env worker _ _
  · exact keeps_bind keeps_require fun _ =>
      keeps_bind (keeps_loadAndValidateApproval env _ _) fun _ => keeps_promote env worker _ _

@[simp] theorem keeps_endedResult (operation : OperationRow) (wal : Option PromotionRow) :
    Keeps (endedResult env runId m operation wal) := by
  unfold endedResult
  split
  · refine keeps_ite ?_ (by simp)
    iterate 3 refine keeps_bind (by simp) fun _ => ?_
    refine keeps_bind (does_toExcept (keeps_assertActiveGenerationReconciled _)) fun _ => ?_
    split
    · simp
    · exact keeps_ite (by simp) (by simp)
    · simp
  · simp

@[simp] theorem keeps_recoverOpen (runId : RunId) (fixture : Bool) (approval : Option String)
    (wal : Option PromotionRow) : Keeps (recoverOpen env worker m runId fixture approval wal) := by
  unfold recoverOpen
  split
  · simp
  · refine keeps_bind (by simp) fun _ => keeps_ite ?_ (by simp)
    exact keeps_bind (by simp) fun _ => keeps_bind (by simp) fun _ => keeps_recoverCommitted env _ _ _

@[simp] theorem keeps_recoverRun (fixture : Bool) (approval : Option String) :
    Keeps (recoverRun env worker runId fixture approval) := by
  iterate 6 refine keeps_bind (by simp) fun _ => ?_
  split <;> simp
end
end RaytSystem.Ingestion
