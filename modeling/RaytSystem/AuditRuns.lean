import RaytSystem.AuditIntegrity
import RaytSystem.RelyGuarantee

/-! Every stream that any number of writers build with `append_event` verifies, and the hash
at the head of a verified stream determines the stream. -/
namespace RaytSystem.Audit
open Interleaving Canonical JsonText HashChain

variable {env : CanonicalEnv}

section

theorem orderedInsert_snoc (row last : AuditRow) (rows : List AuditRow)
    (h : row.sequence ≤ last.sequence) :
    (rows ++ [last]).orderedInsert (fun a b => a.sequence ≤ b.sequence) row =
      rows.orderedInsert (fun a b => a.sequence ≤ b.sequence) row ++ [last] := by
  induction rows with
  | nil => simp [List.orderedInsert, h]
  | cons first rest ih =>
    simp only [List.cons_append, List.orderedInsert]
    split
    · rfl
    · rw [ih, List.cons_append]

variable {rows : List AuditRow}

theorem insertionSort_snoc {last : AuditRow} (h : ∀ r ∈ rows, r.sequence ≤ last.sequence) :
    (rows ++ [last]).insertionSort (fun a b => a.sequence ≤ b.sequence) =
      rows.insertionSort (fun a b => a.sequence ≤ b.sequence) ++ [last] := by
  induction rows with
  | nil => rfl
  | cons first rest ih =>
    rw [List.cons_append, List.insertionSort_cons, List.insertionSort_cons,
      ih fun r hr => h r (List.mem_cons_of_mem first hr)]
    exact orderedInsert_snoc first last _ (h first List.mem_cons_self)

variable {row : AuditRow}

theorem streamRows_snoc (h : ∀ r ∈ streamRows rows row.streamId, r.sequence ≤ row.sequence) :
    streamRows (rows ++ [row]) row.streamId = streamRows rows row.streamId ++ [row] := by
  have hrow : [row].filter (·.streamId == row.streamId) = [row] := by simp
  rw [streamRows, List.filter_append, hrow]
  apply insertionSort_snoc
  intro r hr
  exact h r ((List.mem_insertionSort _).mpr hr)

theorem streamRows_other {streamId : String} (h : row.streamId ≠ streamId) :
    streamRows (rows ++ [row]) streamId = streamRows rows streamId := by
  have hrow : [row].filter (·.streamId == streamId) = [] := by simp [h]
  rw [streamRows, List.filter_append, hrow, List.append_nil, streamRows]

theorem lastHash_eq (rows : List AuditRow) :
    lastHash env rows.getLast? = .ok (headHash (rowHash env) none rows) := by
  unfold lastHash headHash
  cases rows.getLast? with
  | none => rfl
  | some row =>
    simp only [eventRowHash_eq]
    rfl

theorem valid_sequences (h : ValidRows env 1 none rows) : ∀ r ∈ rows, r.sequence ≤ rows.length := by
  induction rows using List.reverseRecOn with
  | nil => simp
  | append_singleton rows last ih =>
    obtain ⟨hrows, hlast⟩ := valid_snoc.mp h
    intro r hr
    rw [List.length_append, List.length_singleton]
    rcases List.mem_append.mp hr with hr | hr
    · have hle := ih hrows r hr
      omega
    · rw [List.mem_singleton.mp hr, hlast.sequence]
      omega

theorem next_sequence (h : ValidRows env 1 none rows) :
    (rows.getLast?.elim 1 fun p => p.sequence + 1) = ((1 + rows.length : Nat) : Int) := by
  rcases List.eq_nil_or_concat rows with rfl | ⟨older, last, rfl⟩
  · rfl
  · rw [List.concat_eq_append] at h ⊢
    have hlast := (valid_snoc.mp h).2.sequence
    rw [List.getLast?_append, List.getLast?_singleton, List.length_append, List.length_singleton]
    simp only [Option.some_or, Option.elim_some, hlast]
    omega

def Verified (env : CanonicalEnv) (rows : List AuditRow) : Prop :=
  ∀ streamId, verifyEventStream env rows streamId = .ok true

theorem verified_stream (h : Verified env rows) (streamId : String) :
    ValidRows env 1 none (streamRows rows streamId) := verifyRows_iff.mp (h streamId)

theorem insertEvent_ok {e : EventRequest} {rendered : String} {rows rows' : List AuditRow}
    (h : insertEvent env e rendered rows = .ok (row,rows')) :
    let seed := e.row env rendered (streamRows rows e.streamId).getLast?
      (headHash (rowHash env) none (streamRows rows e.streamId))
    row = {seed with eventId := rowEventId env seed} ∧ rows' = rows ++ [row] := by
  simp only [insertEvent, lastHash_eq, Except.mapError, boundedId_eq, bind, Except.bind] at h
  split at h
  · cases h
  · cases h
    exact ⟨rfl, rfl⟩

theorem insertEvent_verified {e : EventRequest} {rendered : String} {rows rows' : List AuditRow}
    (hv : Verified env rows) (h : insertEvent env e rendered rows = .ok (row,rows')) :
    Verified env rows' := by
  obtain ⟨hrow, rfl⟩ := insertEvent_ok h
  have hvalid := verified_stream hv e.streamId
  have hstream : row.streamId = e.streamId := by
    rw [hrow]
    rfl
  have hsequence : row.sequence = ((1 + (streamRows rows e.streamId).length : Nat) : Int) := by
    rw [← next_sequence hvalid, hrow]
    rfl
  intro streamId
  by_cases hsame : row.streamId = streamId
  · subst hsame
    have hle : ∀ r ∈ streamRows rows row.streamId, r.sequence ≤ row.sequence := by
      intro r hr
      rw [hstream] at hr
      have hr' := valid_sequences hvalid r hr
      omega
    rw [verifyEventStream, streamRows_snoc hle, verifyRows_iff, hstream]
    refine valid_snoc.mpr ⟨hvalid, hsequence, ?_, ?_, ?_⟩
    · rw [hrow]
      rfl
    · rw [hrow]
      rfl
    · -- the id is derived from the row without its id
      rw [hrow]
      rfl
  · rw [verifyEventStream, streamRows_other hsame]
    exact hv streamId
end

section

def streamDiscipline (env : CanonicalEnv) : Discipline (List AuditRow) Unit where
  inv := Verified env
  rely _ _ := True
  assume _ _ := True
  guar _ _ _ := True

theorem ensures_appendEvent (e : EventRequest) (rows : List AuditRow) :
    Ensures (streamDiscipline env) (appendEvent env e) (fun _ _ => True) rows := by
  refine ensures_guard fun _ => ?_
  refine ensures_guard fun _ => ?_
  refine ensures_guard fun _ => ?_
  refine ensures_guard fun _ => ?_
  refine ensures_guard fun _ => ?_
  refine ensures_bind (ensures_ofExcept fun payload _ => ?_)
  refine ensures_bind (ensures_any fun available => ?_)
  refine ensures_guard fun _ => ?_
  refine ensures_attempt (fun _ _ => trivial) ?_
  intro rows' row rows'' hv _ _ hinsert
  exact ⟨insertEvent_verified hv hinsert, trivial, trivial⟩

variable {ι : Type}

def writers (env : CanonicalEnv) (request : ι → EventRequest) :
    Pool ι (List AuditRow) Unit AuditFault AuditRow :=
  ⟨fun i => some (appendEvent env (request i)), []⟩

theorem verified_empty : Verified env [] := fun _ => rfl

theorem writers_disciplined (request : ι → EventRequest) :
    Pool.Disciplined (fun _ : ι => streamDiscipline env) (Verified env) (writers env request) := by
  refine ⟨verified_empty, ?_⟩
  rintro i p ⟨⟩
  exact ensures_appendEvent (request i) []

theorem streamDiscipline_compatible :
    Pool.Compatible (fun _ : ι => streamDiscipline env) (fun _ rows => rows) (Verified env) where
  inv_eq _ := rfl
  preorder _ := ⟨fun _ => trivial, fun _ _ => trivial⟩
  guar _ _ _ _ _ _ _ _ := trivial
  lost_inv _ _ hv := hv
  lost_rely _ _ _ _ _ := trivial

def streamHead (env : CanonicalEnv) (rows : List AuditRow) (streamId : String) :
    Except CanonicalFault (Option String) := lastHash env (streamRows rows streamId).getLast?

variable [DecidableEq ι]

/-- Audit streams are sound. In every run of any number of writers every stream verifies; and
two verified streams with the same head hash agree event for event, the text columns up to
their normal form and all others exactly. -/
theorem audit_streams_sound (env : CanonicalEnv) (request : ι → EventRequest) :
    (∀ c, Pool.Reachable (fun _ _ _ => True) (fun _ rows => rows) (writers env request) c →
      ∀ streamId, verifyEventStream env c.world streamId = .ok true) ∧
    (Function.Injective env.sha256Hex → DigestsNormal env → ∀ rows rows' streamId,
      verifyEventStream env rows streamId = .ok true →
      verifyEventStream env rows' streamId = .ok true →
      streamHead env rows streamId = streamHead env rows' streamId →
      (streamRows rows streamId).map (canonicalRow env) =
        (streamRows rows' streamId).map (canonicalRow env)) := by
  constructor
  · intro c hr
    exact (Pool.reachable_disciplined streamDiscipline_compatible (writers_disciplined request)
      hr).1
  · intro hsha hnormal rows rows' streamId h h' hhead
    rw [streamHead, streamHead, lastHash_eq, lastHash_eq] at hhead
    exact valid_determined
      (fun _ _ _ _ _ _ ha ha' hp hp' => rowHash_binds hsha hnormal ha ha' hp hp')
      (verifyRows_iff.mp h) (verifyRows_iff.mp h') (Except.ok.inj hhead)
end

def accentEnv : CanonicalEnv := {sampleEnv with nfc := fun s => if s = "e\u0301" then "é" else s}

theorem accentEnv_digests : DigestsNormal accentEnv := by
  intro bytes
  have hother : accentEnv.sha256Hex bytes ≠ "e\u0301" := by
    intro h
    have hhead := congrArg (fun t => t.toList.head?) h
    have he : ("e\u0301").toList.head? = some 'e' := by decide +kernel
    have hsha : (sampleSha bytes).toList.head? ≠ some 'e' := by
      unfold sampleSha
      split
      · decide +kernel
      · simp
    exact hsha (hhead.trans he)
  exact if_neg hother

variable (actorId : String)

def signedBy : AuditRow where
  eventId := ""
  streamId := "run"
  aggregateId := "run"
  sequence := 1
  eventType := "created"
  actorId := actorId
  payloadSchema := "none"
  payloadJson := "\x7b\x7d"
  payloadSha256 := accentEnv.sha256Hex ("\x7b\x7d").toUTF8
  sensitivity := "internal"
  causationId := none
  correlationId := none
  previousEventSha256 := none
  recordedAt := "2026-01-01T00:00:00.000Z"

def signedRow : AuditRow :=
  {signedBy actorId with eventId := rowEventId accentEnv (signedBy actorId)}

theorem signedRow_verifies : verifyEventStream accentEnv [signedRow actorId] "run" = .ok true :=
  verifyRows_iff.mpr ⟨⟨rfl, rfl, rfl, rfl⟩, trivial⟩

theorem signedRow_head :
    streamHead accentEnv [signedRow "e\u0301"] "run" = streamHead accentEnv [signedRow "é"] "run" := by
  have hnormal : accentEnv.nfc "e\u0301" = accentEnv.nfc "é" := by decide +kernel
  have hentries : identityEntries accentEnv (signedBy "e\u0301") =
      identityEntries accentEnv (signedBy "é") := by
    simp only [identityEntries, signedBy, hnormal]
  have hid : rowEventId accentEnv (signedBy "e\u0301") = rowEventId accentEnv (signedBy "é") := by
    rw [rowEventId, rowEventId, hentries]
  have hhashed : hashedEntries accentEnv (signedRow "e\u0301") =
      hashedEntries accentEnv (signedRow "é") := by
    simp only [hashedEntries, signedRow, hid]
    exact congrArg _ hentries
  have hhash : rowHash accentEnv (signedRow "e\u0301") = rowHash accentEnv (signedRow "é") := by
    rw [rowHash, rowHash, hhashed]
  rw [streamHead, streamHead, lastHash_eq, lastHash_eq]
  exact congrArg (fun h => Except.ok (some h)) hhash

/-- An edit of the actor to another spelling of the same text leaves the stream verified and its
head hash as it was. -/
theorem accent_edit_undetected :
    ¬ ∀ env : CanonicalEnv, Function.Injective env.sha256Hex → DigestsNormal env →
      ∀ rows rows' streamId, verifyEventStream env rows streamId = .ok true →
        verifyEventStream env rows' streamId = .ok true →
        streamHead env rows streamId = streamHead env rows' streamId →
        streamRows rows streamId = streamRows rows' streamId := by
  intro hclaim
  have hrows := hclaim accentEnv sampleSha_injective accentEnv_digests _ _ "run"
    (signedRow_verifies "e\u0301") (signedRow_verifies "é") signedRow_head
  have hactor := congrArg (List.map AuditRow.actorId) hrows
  exact absurd hactor (by decide +kernel)

/-- Two writers of one stream, with an accent in a row. -/
theorem accent_streams_sound :
    (∀ c, Pool.Reachable (fun _ _ _ => True) (fun _ rows => rows)
        (writers accentEnv fun _ : Fin 2 => ⟨"run", "run", "created", "é", "none", .mapping [],
          "internal", none, none, "2026-01-01T00:00:00.000Z"⟩) c →
      ∀ streamId, verifyEventStream accentEnv c.world streamId = .ok true) ∧
    [signedRow "e\u0301"].map (canonicalRow accentEnv) =
      [signedRow "é"].map (canonicalRow accentEnv) := by
  obtain ⟨hruns, hbound⟩ := audit_streams_sound accentEnv
    fun _ : Fin 2 => ⟨"run", "run", "created", "é", "none", .mapping [], "internal", none, none,
      "2026-01-01T00:00:00.000Z"⟩
  exact ⟨hruns, hbound sampleSha_injective accentEnv_digests _ _ "run"
    (signedRow_verifies "e\u0301") (signedRow_verifies "é") signedRow_head⟩

end RaytSystem.Audit
