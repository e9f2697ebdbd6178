import RaytSystem.PyText
import RaytSystem.RelyGuarantee

/-! The transcripts of runs: what the readers of any number of runs append to the one table, in
any order of their transactions. -/
namespace RaytSystem.Transcript
open Interleaving PyText

abbrev Time := Int

section

inductive Stream
  | system | stdout | stderr | tool | result
  deriving DecidableEq, Repr

structure EventMaterial where
  runId : String
  sequence : ℕ
  stream : Stream
  eventType : String
  text : String
  redacted : Bool
  createdAt : Time
  deriving DecidableEq

structure TranscriptEvent extends EventMaterial where
  transcriptEventId : String
  deriving DecidableEq

structure TranscriptRow where
  event : TranscriptEvent
  payloadSha256 : String
  deriving DecidableEq

inductive TranscriptFault
  | invalidEvent | rejectedPayload | identityCollision | sequenceCollision | notContiguous
  deriving DecidableEq, Repr

structure TranscriptEnv where
  maxTranscriptEvents : ℕ
  deriveId : EventMaterial → String
  payloadSha256 : TranscriptEvent → String
  /-- `_validate_persisted_payload` passes. -/
  persistable : TranscriptEvent → Bool
  redactSensitiveOutput : String → String

def sequences (rows : List TranscriptRow) (runId : String) : List ℕ :=
  (rows.filter (·.event.runId == runId)).map (·.event.sequence)

variable (env : TranscriptEnv)

def insertEvent (event : TranscriptEvent) (rows : List TranscriptRow) :
    Except TranscriptFault (Bool × List TranscriptRow) :=
  let sha256 := env.payloadSha256 event
  let holder := rows.find? (·.event.transcriptEventId == event.transcriptEventId)
  if holder.any (fun row => row.event.runId != event.runId ||
      row.event.sequence != event.sequence || row.payloadSha256 != sha256) then
    .error .identityCollision
  else
    let existing := rows.find? fun row =>
      row.event.runId == event.runId && row.event.sequence == event.sequence
    match existing with
    | some row =>
      if row.event.transcriptEventId = event.transcriptEventId ∧ row.payloadSha256 = sha256 then
        .ok (false, rows)
      else .error .sequenceCollision
    | none =>
      let expected := (sequences rows event.runId).max?.elim 0 (· + 1)
      if event.sequence ≠ expected then .error .notContiguous
      else .ok (true, rows ++ [⟨event, sha256⟩])

abbrev TranscriptProg (α : Type) := Prog (List TranscriptRow) Unit TranscriptFault α

def storeTranscript (event : TranscriptEvent) : TranscriptProg Bool := do
  .require (env.persistable event = true) .rejectedPayload
  .attempt () (insertEvent env event)
end

section
variable (env : TranscriptEnv)

def TranscriptEvent.valid (event : TranscriptEvent) : Bool :=
  isIdentifier event.transcriptEventId && isIdentifier event.runId &&
    event.sequence ≤ 10000000 && isIdentifier event.eventType && event.text.length ≤ 32768

def appendTranscript (material : EventMaterial) : TranscriptProg Unit := do
  let event : TranscriptEvent := {material with
    text := trim material.text
    transcriptEventId := env.deriveId material}
  .require (event.valid = true) .invalidEvent
  let _ ← storeTranscript env event

def appendPieces (runId : String) (stream : Stream) (eventType : String) (redacted : Bool)
    (at' : Time) : List (List Char) → ℕ → TranscriptProg ℕ
  | [], sequence => pure sequence
  | piece :: pieces, sequence =>
    if env.maxTranscriptEvents - 1 ≤ sequence then pure sequence
    else do
      appendTranscript env
        ⟨runId, sequence, stream, eventType, String.ofList piece, redacted, at'⟩
      appendPieces runId stream eventType redacted at' pieces (sequence + 1)

inductive TerminationReason
  | completed | timeout | outputLimit | cancelled
  deriving DecidableEq, Repr

def TerminationReason.value : TerminationReason → String
  | completed => "completed"
  | timeout => "timeout"
  | outputLimit => "output_limit"
  | cancelled => "cancelled"

structure ProcessOutcome where
  exitCode : Option Int
  stdout : String
  stderr : String
  terminationReason : TerminationReason

def appendStream (runId : String) (stream : Stream) (eventType raw : String) (at' : Time)
    (sequence : ℕ) : TranscriptProg ℕ :=
  let redacted := env.redactSensitiveOutput raw
  appendPieces env runId stream eventType (redacted != raw) at'
    (redacted.toList.toChunks 32768) sequence

def appendOutcomeTranscript (runId : String) (outcome : ProcessOutcome) (at' : Time) :
    TranscriptProg Unit := do
  let afterStdout ← appendStream env runId .stdout "runtime_stdout" outcome.stdout at' 1
  let afterStderr ← appendStream env runId .stderr "runtime_stderr" outcome.stderr at' afterStdout
  let exitCode := outcome.exitCode.elim "None" toString
  appendTranscript env ⟨runId, afterStderr, .result, "runtime_result",
    s!"termination={outcome.terminationReason.value}; exit_code={exitCode}", false, at'⟩

structure ExecutionRun where
  runId : String
  startedAt : Time
  outcome : ProcessOutcome
  endedAt : Time

def transcribe (run : ExecutionRun) : TranscriptProg Unit := do
  appendTranscript env
    ⟨run.runId, 0, .system, "runtime_started", "Runtime started", false, run.startedAt⟩
  appendOutcomeTranscript env run.runId run.outcome run.endedAt
end

section
variable {env : TranscriptEnv}

def Contiguous (rows : List TranscriptRow) : Prop :=
  ∀ runId, sequences rows runId = List.range (sequences rows runId).length

structure Counted (bound : ℕ) (rows : List TranscriptRow) : Prop where
  contiguous : Contiguous rows
  below : ∀ row ∈ rows, row.event.sequence < bound

theorem expected_range (n : ℕ) : (List.range n).max?.elim 0 (· + 1) = n := by
  cases n with
  | zero => rfl
  | succ n =>
    have hmax : (List.range (n + 1)).max? = some n := by
      rw [List.max?_eq_some_iff]
      constructor
      · exact List.self_mem_range_succ
      · intro b hb
        exact Nat.le_of_lt_succ (List.mem_range.mp hb)
    rw [hmax]
    rfl

theorem sequences_append (rows : List TranscriptRow) (row : TranscriptRow) (runId : String) :
    sequences (rows ++ [row]) runId =
      sequences rows runId ++ if row.event.runId = runId then [row.event.sequence] else [] := by
  unfold sequences
  rw [List.filter_append, List.map_append]
  congr 1
  by_cases h : row.event.runId = runId <;> simp [h]

variable {event : TranscriptEvent} {rows rows' : List TranscriptRow} {new : Bool}

theorem insertEvent_ok (h : insertEvent env event rows = .ok (new, rows')) :
    (new = false ∧ rows' = rows) ∨
      (new = true ∧ event.sequence = (sequences rows event.runId).max?.elim 0 (· + 1) ∧
        rows' = rows ++ [⟨event, env.payloadSha256 event⟩]) := by
  unfold insertEvent at h
  dsimp only at h
  split at h
  · cases h
  · split at h
    · split at h
      · cases h
        exact Or.inl ⟨rfl, rfl⟩
      · cases h
    · split at h
      · cases h
      next hnext =>
        cases h
        exact Or.inr ⟨rfl, not_not.mp hnext, rfl⟩

theorem insertEvent_contiguous (hrows : Contiguous rows)
    (h : insertEvent env event rows = .ok (new, rows')) : Contiguous rows' := by
  rcases insertEvent_ok h with ⟨-, rfl⟩ | ⟨-, hnext, rfl⟩
  · exact hrows
  · intro runId
    rw [sequences_append]
    by_cases hrun : event.runId = runId
    · rw [if_pos hrun, ← hrun, List.length_append, List.length_singleton, List.range_succ,
        ← hrows event.runId]
      congr 2
      rw [hnext, hrows event.runId, expected_range, List.length_range]
    · rw [if_neg hrun, List.append_nil]
      exact hrows runId

theorem insertEvent_counted {bound : ℕ} (hbound : event.sequence < bound)
    (hrows : Counted bound rows) (h : insertEvent env event rows = .ok (new, rows')) :
    Counted bound rows' := by
  constructor
  · exact insertEvent_contiguous hrows.contiguous h
  · intro row hrow
    rcases insertEvent_ok h with ⟨-, rfl⟩ | ⟨-, -, rfl⟩
    · exact hrows.below row hrow
    · rcases List.mem_append.mp hrow with hold | hrow
      · exact hrows.below row hold
      · rw [List.mem_singleton.mp hrow]
        exact hbound

theorem Counted.length_le {bound : ℕ} {rows : List TranscriptRow} (h : Counted bound rows)
    (runId : String) : (sequences rows runId).length ≤ bound := by
  cases hlength : (sequences rows runId).length with
  | zero => exact Nat.zero_le _
  | succ n =>
    have hlast : n ∈ sequences rows runId := by
      rw [h.contiguous, hlength]
      exact List.self_mem_range_succ
    obtain ⟨row, hrow, hsequence⟩ := List.mem_map.mp hlast
    have hbelow := h.below row (List.mem_of_mem_filter hrow)
    omega
end

section
variable {env : TranscriptEnv} (inv : List TranscriptRow → Prop)

def keeping : Discipline (List TranscriptRow) Unit where
  inv := inv
  rely _ _ := True
  assume _ _ := True
  guar _ _ _ := True

theorem keeping_compatible :
    Pool.Compatible (fun _ : ℕ => keeping inv) (fun _ rows => rows) inv where
  inv_eq _ := rfl
  preorder _ := ⟨fun _ => trivial, fun _ _ => trivial⟩
  guar _ _ _ _ _ _ _ _ := trivial
  lost_inv _ _ h := h
  lost_rely _ _ _ _ _ := trivial

variable {rows : List TranscriptRow}

theorem ensures_storeTranscript {inv : List TranscriptRow → Prop} {event : TranscriptEvent}
    {Q : Bool → List TranscriptRow → Prop}
    (hinsert : ∀ rows new rows', inv rows → insertEvent env event rows = .ok (new, rows') →
      inv rows') (hQ : ∀ new rows', Q new rows') :
    Ensures (keeping inv) (storeTranscript env event) Q rows := by
  unfold storeTranscript
  apply ensures_guard
  intro _
  apply ensures_attempt fun _ _ => trivial
  intro rows' new rows'' hinv _ _ h
  exact ⟨hinsert rows' new rows'' hinv h, trivial, hQ new rows''⟩

variable {bound : ℕ}

theorem ensures_appendTranscript {material : EventMaterial} {Q : Unit → List TranscriptRow → Prop}
    (hbound : material.sequence < bound) (hQ : ∀ rows', Q () rows') :
    Ensures (keeping (Counted bound)) (appendTranscript env material) Q rows := by
  unfold appendTranscript
  apply ensures_guard
  intro _
  apply ensures_bind
  apply ensures_storeTranscript
  · intro rows new rows' hcounted h
    exact insertEvent_counted hbound hcounted h
  · exact fun _ rows' => ensures_pure (hQ rows')

theorem ensures_appendPieces {runId eventType : String} {stream : Stream} {redacted : Bool}
    {at' : Time} (hbound : env.maxTranscriptEvents = bound) (pieces : List (List Char))
    {sequence : ℕ} (hsequence : sequence + 1 ≤ bound) {Q : ℕ → List TranscriptRow → Prop}
    (hQ : ∀ next rows', next + 1 ≤ bound → Q next rows') : Ensures (keeping (Counted bound))
      (appendPieces env runId stream eventType redacted at' pieces sequence) Q rows := by
  induction pieces generalizing sequence rows with
  | nil => exact ensures_pure (hQ sequence rows hsequence)
  | cons piece pieces ih =>
    unfold appendPieces
    split
    next => exact ensures_pure (hQ sequence rows hsequence)
    next hfree =>
      apply ensures_bind
      apply ensures_appendTranscript
      · exact Nat.lt_of_succ_le hsequence
      · intro rows'
        exact ih (by omega)

theorem ensures_transcribe (hbound : env.maxTranscriptEvents = bound) (htwo : 2 ≤ bound)
    (run : ExecutionRun) (rows : List TranscriptRow) :
    Ensures (keeping (Counted bound)) (transcribe env run) (fun _ _ => True) rows := by
  unfold transcribe appendOutcomeTranscript appendStream
  apply ensures_bind
  apply ensures_appendTranscript (by dsimp only; omega)
  intro rows
  apply ensures_bind
  apply ensures_appendPieces hbound _ (by omega)
  intro afterStdout rows hstdout
  apply ensures_bind
  apply ensures_appendPieces hbound _ hstdout
  intro afterStderr rows hstderr
  exact ensures_appendTranscript hstderr fun _ => trivial

def transcripts (env : TranscriptEnv) (run : ℕ → ExecutionRun) :
    Pool ℕ (List TranscriptRow) Unit TranscriptFault Unit :=
  ⟨fun i => some (transcribe env (run i)), []⟩

def appends (env : TranscriptEnv) (event : ℕ → TranscriptEvent) :
    Pool ℕ (List TranscriptRow) Unit TranscriptFault Bool :=
  ⟨fun i => some (storeTranscript env (event i)), []⟩

theorem contiguous_empty : Contiguous [] := fun _ => rfl

theorem counted_empty (bound : ℕ) : Counted bound [] := by
  constructor
  · exact contiguous_empty
  · intro row hrow
    cases hrow

theorem transcripts_disciplined (htwo : 2 ≤ env.maxTranscriptEvents) (run : ℕ → ExecutionRun) :
    Pool.Disciplined (fun _ : ℕ => keeping (Counted env.maxTranscriptEvents))
      (Counted env.maxTranscriptEvents) (transcripts env run) := by
  refine ⟨counted_empty _, ?_⟩
  rintro i p ⟨⟩
  exact ensures_transcribe rfl htwo (run i) []

theorem appends_disciplined (event : ℕ → TranscriptEvent) :
    Pool.Disciplined (fun _ : ℕ => keeping Contiguous) Contiguous (appends env event) := by
  refine ⟨contiguous_empty, ?_⟩
  rintro i p ⟨⟩
  apply ensures_storeTranscript
  · intro rows new rows' hrows h
    exact insertEvent_contiguous hrows h
  · exact fun _ _ => trivial

theorem wp_storeTranscript (event : TranscriptEvent) (rows : List TranscriptRow) :
    wp (sequential Unit fun _ => True) (storeTranscript env event)
      (fun new rows' => new = false → rows' = rows) (fun _ rows' => rows' = rows) rows := by
  unfold storeTranscript
  rw [wp_seq]
  refine wp_require _ (fun _ => ?_) fun _ => rfl
  apply wp_sequential_attempt trivial
  · intro new rows' h
    refine ⟨trivial, fun hnew => ?_⟩
    rcases insertEvent_ok h with ⟨-, hrows⟩ | ⟨htrue, -⟩
    · exact hrows
    · rw [htrue] at hnew
      cases hnew
  · exact fun _ _ => rfl

/-- With a cap of at least two events, in every run of any number of readers the events of each
run are numbered without a gap and no more than the cap; the numbering holds for any appends at
all, and an append that is refused or stores nothing leaves the table. -/
theorem transcripts_sound (htwo : 2 ≤ env.maxTranscriptEvents) :
    (∀ run c, Pool.Reachable (fun _ _ _ => True) (fun _ rows => rows) (transcripts env run) c →
      ∀ runId, ∃ n ≤ env.maxTranscriptEvents, sequences c.world runId = List.range n) ∧
    (∀ event c, Pool.Reachable (fun _ _ _ => True) (fun _ rows => rows) (appends env event) c →
      ∀ runId, ∃ n, sequences c.world runId = List.range n) ∧
    ∀ event rows rows' o, Exec (storeTranscript env event) rows o rows' →
      (o = .returned false ∨ ∃ fault, o = .raised fault) → rows' = rows := by
  refine ⟨?_, ?_, ?_⟩
  · intro run c hr runId
    have hcounted := (Pool.reachable_disciplined (keeping_compatible _)
      (transcripts_disciplined htwo run) hr).1
    exact ⟨_, hcounted.length_le runId, hcounted.contiguous runId⟩
  · intro event c hr runId
    have hcontiguous := (Pool.reachable_disciplined (keeping_compatible _)
      (appends_disciplined event) hr).1
    exact ⟨_, hcontiguous runId⟩
  · intro event rows rows' o hx ho
    have hmeets := exec_sound (wp_storeTranscript event rows) trivial hx
    rcases ho with rfl | ⟨fault, rfl⟩
    · exact hmeets rfl
    · exact hmeets
end

def materialId (material : EventMaterial) : String :=
  if material.sequence = 0 then "tevent_start" else "tevent_later"

def sampleEnv (cap : ℕ) : TranscriptEnv where
  maxTranscriptEvents := cap
  deriveId := materialId
  payloadSha256 event := event.transcriptEventId
  persistable _ := true
  redactSensitiveOutput := id

def quietRun : ExecutionRun where
  runId := "run_quiet"
  startedAt := 0
  outcome := ⟨some 0, "", "", .completed⟩
  endedAt := 1

/-- A run without output stores two events under a cap of one. -/
theorem cap_exceeded :
    ∃ c, Pool.Reachable (fun _ _ _ => True) (fun _ rows => rows)
      (transcripts (sampleEnv 1) fun _ => quietRun) c ∧
        (sampleEnv 1).maxTranscriptEvents < (sequences c.world "run_quiet").length := by
  have hfirst : (transcripts (sampleEnv 1) fun _ => quietRun).thread 0 =
      some (transcribe (sampleEnv 1) quietRun) := rfl
  exact ⟨_, Pool.reachable_play hfirst 10 [], by decide +kernel⟩

/-- A limit of two events, for every pool of writers. -/
theorem quiet_transcripts :
    (∀ run c, Pool.Reachable (fun _ _ _ => True) (fun _ rows => rows)
      (transcripts (sampleEnv 2) run) c →
        ∀ runId, ∃ n ≤ 2, sequences c.world runId = List.range n) ∧
    (∀ event c, Pool.Reachable (fun _ _ _ => True) (fun _ rows => rows)
      (appends (sampleEnv 2) event) c → ∀ runId, ∃ n, sequences c.world runId = List.range n) ∧
    ∀ event rows rows' o, Exec (storeTranscript (sampleEnv 2) event) rows o rows' →
      (o = .returned false ∨ ∃ fault, o = .raised fault) → rows' = rows :=
  @transcripts_sound (sampleEnv 2) (by decide)

end RaytSystem.Transcript
