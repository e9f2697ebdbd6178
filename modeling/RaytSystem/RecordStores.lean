import RaytSystem.PyText
import RaytSystem.RevisionTables

/-! The revisioned records of the platform store and of the execution store: `append_record` and
`put`, and what any sequence of calls leaves in the two tables. -/
namespace RaytSystem.Records
open PyText RevisionTables

abbrev RecordKey := String × String

def transaction {κ η δ α ε : Type} (body : Tables κ η δ → Except ε (α × Tables κ η δ))
    (t : Tables κ η δ) : Except ε α × Tables κ η δ :=
  match body t with
  | .ok (a, t') => (.ok a, t')
  | .error e => (.error e, t)

inductive PlatformFault where
  | invalidToken (label : String)
  | notCanonical
  | revisionChanged
  | integrity
  deriving DecidableEq, Repr

structure PlatformRow where
  payloadJson : String
  state : String
  createdAt : String
  deriving DecidableEq

abbrev PlatformTables := Tables RecordKey Sha256 PlatformRow

structure AppendCall (π : Type) where
  kind : String
  recordId : String
  payload : π
  state : String
  expectedRevision : Option Nat
  now : String

structure StoredRecord (π : Type) where
  kind : String
  recordId : String
  revision : Nat
  payload : π
  payloadSha256 : Sha256
  state : String
  createdAt : String

structure PlatformEnv (π : Type) where
  canonicalJson : π → Option String
  sha256 : String → Sha256

def appendRecord {π : Type} (env : PlatformEnv π) (call : AppendCall π) (t : PlatformTables) :
    Except PlatformFault (StoredRecord π) × PlatformTables :=
  if isToken call.kind = false then (.error (.invalidToken "record kind"), t)
  else if isToken call.recordId = false then (.error (.invalidToken "record ID"), t)
  else match env.canonicalJson call.payload with
    | none => (.error .notCanonical, t)
    | some rendered =>
      let payloadSha256 := env.sha256 rendered
      transaction (fun t =>
        let head := headRevision t (call.kind, call.recordId)
        let revision := head.elim 1 (· + 1)
        if call.expectedRevision ≠ head then .error .revisionChanged
        else match insert t (call.kind, call.recordId) revision payloadSha256
            ⟨rendered, call.state, call.now⟩ with
          | none => .error .integrity
          | some t' => .ok (⟨call.kind, call.recordId, revision, call.payload, payloadSha256,
              call.state, call.now⟩, t')) t

def appendAll {π : Type} (env : PlatformEnv π) (calls : List (AppendCall π)) : PlatformTables :=
  calls.foldl (fun t call => (appendRecord env call t).2) empty

inductive RecordKind where
  | assignment | approval | budgetPolicy | budgetUsage | comment | employee | graphScope
  | invocation | lease | policyDecision | run | session | workspace
  deriving DecidableEq, Repr

namespace RecordKind

def value : RecordKind → String
  | assignment => "assignment"
  | approval => "approval"
  | budgetPolicy => "budget_policy"
  | budgetUsage => "budget_usage"
  | comment => "comment"
  | employee => "employee"
  | graphScope => "graph_scope"
  | invocation => "invocation"
  | lease => "lease"
  | policyDecision => "policy_decision"
  | run => "run"
  | session => "session"
  | workspace => "workspace"

def immutable : RecordKind → Bool
  | approval | budgetPolicy | comment | graphScope | invocation | policyDecision => true
  | _ => false

end RecordKind

structure Associations where
  taskId : Option String
  employeeId : Option String
  runId : Option String
  workspaceId : Option String
  scopeId : Option String
  deriving DecidableEq

structure ExecutionRecord where
  kind : RecordKind
  recordId : String
  /-- `verify_id`, where the model has one. -/
  idVerified : Bool
  /-- What `_validate_record_shape` raises. -/
  shapeFault : Option String
  /-- `canonical_json_bytes`, as text, where the record has one. -/
  rendered : Option String
  /-- `_state`. -/
  state : String
  /-- The revision that an assignment carries. -/
  assignmentRevision : Option Nat
  associations : Associations
  deriving DecidableEq

structure ExecutionRow where
  payloadJson : String
  state : String
  associations : Associations
  createdAt : String
  deriving DecidableEq

inductive ExecutionFault where
  | idInvalid
  | shape (text : String)
  | notCanonical
  | persisted (text : String)
  | headMissing
  | headInconsistent
  | hashInvalid
  | malformed
  | identityInvalid
  | indexInconsistent
  | associationInconsistent
  | immutableCollision
  | revisionChanged
  | assignmentRevision
  | integrity
  deriving DecidableEq, Repr

abbrev ExecutionTables := Tables RecordKey Sha256 ExecutionRow

structure ExecutionEnv where
  sha256 : String → Sha256
  modelValidateJson : RecordKind → String → Option ExecutionRecord
  persistedFault : String → Option String

def decode (env : ExecutionEnv) (kind : RecordKind)
    (row : Row RecordKey Sha256 ExecutionRow) : Except ExecutionFault ExecutionRecord :=
  if env.sha256 row.data.payloadJson ≠ row.digest then .error .hashInvalid
  else match env.modelValidateJson kind row.data.payloadJson with
    | none => .error .malformed
    | some result =>
      if result.idVerified = false then .error .identityInvalid
      else if result.recordId ≠ row.key.2 then .error .indexInconsistent
      else if row.data.associations ≠ result.associations then .error .associationInconsistent
      else .ok result

structure PutCall where
  record : ExecutionRecord
  expectedRevision : Option Nat
  now : String

def PutCall.key (call : PutCall) : RecordKey := (call.record.kind.value, call.record.recordId)

def putNext (call : PutCall) (rendered : String) (digest : Sha256) (observedRevision : Option Nat)
    (t : ExecutionTables) : Except ExecutionFault (Nat × ExecutionTables) :=
  if call.record.kind.immutable = true ∧ observedRevision ≠ none then .error .immutableCollision
  else if call.expectedRevision ≠ observedRevision then .error .revisionChanged
  else
    let revision := observedRevision.elim 1 (· + 1)
    if call.record.kind = .assignment ∧ call.record.assignmentRevision ≠ some revision then
      .error .assignmentRevision
    else match insert t call.key revision digest
        ⟨rendered, call.record.state, call.record.associations, call.now⟩ with
      | none => .error .integrity
      | some t' => .ok (revision, t')

def putBody (env : ExecutionEnv) (call : PutCall) (rendered : String) (t : ExecutionTables) :
    Except ExecutionFault (Nat × ExecutionTables) :=
  let digest := env.sha256 rendered
  match t.heads call.key with
  | none => putNext call rendered digest none t
  | some (revision, headSha256) =>
    match rowAt t call.key revision with
    | none => .error .headMissing
    | some row =>
      if headSha256 ≠ row.digest then .error .headInconsistent
      else match decode env call.record.kind row with
        | .error fault => .error fault
        | .ok _ =>
          if row.digest = digest then .ok (revision, t)
          else putNext call rendered digest (some revision) t

def put (env : ExecutionEnv) (call : PutCall) (t : ExecutionTables) :
    Except ExecutionFault Nat × ExecutionTables :=
  if call.record.idVerified = false then (.error .idInvalid, t)
  else match call.record.shapeFault with
    | some text => (.error (.shape text), t)
    | none =>
      match call.record.rendered with
      | none => (.error .notCanonical, t)
      | some rendered =>
        match env.persistedFault rendered with
        | some text => (.error (.persisted text), t)
        | none => transaction (putBody env call rendered) t

def putAll (env : ExecutionEnv) (calls : List PutCall) : ExecutionTables :=
  calls.foldl (fun t call => (put env call t).2) empty

section

theorem next_revision (head : Option Nat) : head.elim 1 (· + 1) = head.getD 0 + 1 := by
  cases head <;> rfl

variable {π : Type} {t : PlatformTables}

def AppendCall.key (call : AppendCall π) : RecordKey := (call.kind, call.recordId)

theorem appendRecord_cases (env : PlatformEnv π) (call : AppendCall π) (h : Versioned t) :
    (∃ fault, appendRecord env call t = (.error fault, t)) ∨
      call.expectedRevision = headRevision t call.key ∧
        ∃ stored t', appendRecord env call t = (.ok stored, t') ∧ Versioned t' ∧
          stored.revision = (headRevision t call.key).getD 0 + 1 ∧
          t'.heads = Function.update t.heads call.key
            (some (stored.revision, stored.payloadSha256)) := by
  unfold appendRecord
  split
  · exact Or.inl ⟨_, rfl⟩
  · split
    · exact Or.inl ⟨_, rfl⟩
    · split
      · exact Or.inl ⟨_, rfl⟩
      next rendered _ =>
        obtain ⟨t', hinsert, hversioned, -, hheads⟩ := insert_next h call.key
          (env.sha256 rendered) (⟨rendered, call.state, call.now⟩ : PlatformRow)
        by_cases hexpected : call.expectedRevision = headRevision t call.key
        · refine Or.inr ⟨hexpected, ?_⟩
          simp only [AppendCall.key] at hexpected hinsert hheads ⊢
          simp only [transaction, next_revision, hexpected, hinsert, ne_eq, not_true_eq_false,
            if_false]
          exact ⟨⟨call.kind, call.recordId, _, call.payload, env.sha256 rendered, call.state,
            call.now⟩, t', rfl, hversioned, rfl, hheads⟩
        · left
          simp only [AppendCall.key] at hexpected
          simp only [transaction, ne_eq, hexpected, not_false_eq_true, if_true]
          exact ⟨_, rfl⟩

theorem appendAll_versioned (env : PlatformEnv π) (calls : List (AppendCall π)) :
    Versioned (appendAll env calls) := by
  apply List.foldlRecOn calls _ versioned_empty
  intro t h call _
  rcases appendRecord_cases env call h with ⟨fault, heq⟩ | ⟨-, stored, t', heq, hversioned, -⟩
  · rwa [heq]
  · rwa [heq]
end

section
variable {env : ExecutionEnv} {call : PutCall} {t : ExecutionTables} {rendered : String}

def headDigest (t : ExecutionTables) (k : RecordKey) : Option Sha256 := (t.heads k).map Prod.snd

def Current (call : PutCall) (t : ExecutionTables) : Prop :=
  call.expectedRevision = headRevision t call.key ∧
    (call.record.kind.immutable = true → headRevision t call.key = none)

def Admitted (env : ExecutionEnv) (call : PutCall) (rendered : String) : Prop :=
  call.record.idVerified = true ∧ call.record.shapeFault = none ∧
    call.record.rendered = some rendered ∧ env.persistedFault rendered = none

def ReadsBack (env : ExecutionEnv) (call : PutCall) (t : ExecutionTables) : Prop :=
  ∀ revision digest, t.heads call.key = some (revision, digest) →
    ∃ row record, rowAt t call.key revision = some row ∧
      decode env call.record.kind row = .ok record

theorem putNext_cases (call : PutCall) (rendered : String) (h : Versioned t) (digest : Sha256) :
    (∃ fault, putNext call rendered digest (headRevision t call.key) t = .error fault) ∨
      Current call t ∧ ∃ t', putNext call rendered digest (headRevision t call.key) t =
        .ok ((headRevision t call.key).getD 0 + 1, t') ∧ Versioned t' ∧
        t'.heads = Function.update t.heads call.key
          (some ((headRevision t call.key).getD 0 + 1, digest)) := by
  obtain ⟨t', hinsert, hversioned, -, hheads⟩ := insert_next h call.key digest
    (⟨rendered, call.record.state, call.record.associations, call.now⟩ : ExecutionRow)
  unfold putNext
  split
  · exact Or.inl ⟨_, rfl⟩
  next himmutable =>
    split
    · exact Or.inl ⟨_, rfl⟩
    next hexpected =>
      rw [next_revision]
      dsimp only
      rw [hinsert]
      split
      · exact Or.inl ⟨_, rfl⟩
      · refine Or.inr ⟨⟨not_not.mp hexpected, fun hkind => ?_⟩, t', rfl, hversioned, hheads⟩
        by_contra hhead
        exact himmutable ⟨hkind, hhead⟩

/-- What the transaction does to a versioned store: it raises, returns the head of an identical
payload, or adds the next revision over a current head. -/
theorem putBody_cases (env : ExecutionEnv) (call : PutCall) (rendered : String) (h : Versioned t) :
    (∃ fault, putBody env call rendered t = .error fault) ∨
      (∃ revision, t.heads call.key = some (revision, env.sha256 rendered) ∧
        putBody env call rendered t = .ok (revision, t)) ∨
      Current call t ∧ headDigest t call.key ≠ some (env.sha256 rendered) ∧
        ∃ t', putBody env call rendered t = .ok ((headRevision t call.key).getD 0 + 1, t') ∧
          Versioned t' ∧ t'.heads = Function.update t.heads call.key
            (some ((headRevision t call.key).getD 0 + 1, env.sha256 rendered)) := by
  have hnext := putNext_cases call rendered h (env.sha256 rendered)
  unfold putBody
  cases hhead : t.heads call.key with
  | none =>
    have hnone : headRevision t call.key = none := by simp [headRevision, hhead]
    have hdigest : headDigest t call.key ≠ some (env.sha256 rendered) := by
      simp [headDigest, hhead]
    rw [hnone] at hnext
    rcases hnext with hfault | ⟨hcurrent, t', hput, hversioned, hheads⟩
    · exact Or.inl hfault
    · rw [hnone]
      exact Or.inr (Or.inr ⟨hcurrent, hdigest, t', hput, hversioned, hheads⟩)
  | some head =>
    obtain ⟨revision, digest⟩ := head
    obtain ⟨older, row, -, hrow, -, hdigest⟩ := h.head hhead
    have hsome : headRevision t call.key = some revision := by simp [headRevision, hhead]
    rw [hsome] at hnext ⊢
    simp only [hrow, hdigest, ne_eq, not_true_eq_false, if_false]
    cases decode env call.record.kind row with
    | error fault => exact Or.inl ⟨fault, rfl⟩
    | ok record =>
      dsimp only
      split
      next hsame => exact Or.inr (Or.inl ⟨revision, by rw [hsame], rfl⟩)
      next hother =>
        have hdiffers : headDigest t call.key ≠ some (env.sha256 rendered) := by
          simpa [headDigest, hhead] using hother
        rcases hnext with hfault | ⟨hcurrent, t', hput, hversioned, hheads⟩
        · exact Or.inl hfault
        · exact Or.inr (Or.inr ⟨hcurrent, hdiffers, t', hput, hversioned, hheads⟩)

theorem put_cases (env : ExecutionEnv) (call : PutCall) (h : Versioned t) :
    (∃ fault, put env call t = (.error fault, t)) ∨
      ∃ rendered, call.record.rendered = some rendered ∧
        ((∃ revision, t.heads call.key = some (revision, env.sha256 rendered) ∧
            put env call t = (.ok revision, t)) ∨
          Current call t ∧ headDigest t call.key ≠ some (env.sha256 rendered) ∧
            ∃ t', put env call t = (.ok ((headRevision t call.key).getD 0 + 1), t') ∧
              Versioned t' ∧ t'.heads = Function.update t.heads call.key
                (some ((headRevision t call.key).getD 0 + 1, env.sha256 rendered))) := by
  unfold put
  split
  · exact Or.inl ⟨_, rfl⟩
  · split
    · exact Or.inl ⟨_, rfl⟩
    · split
      · exact Or.inl ⟨_, rfl⟩
      next rendered hrendered =>
        split
        · exact Or.inl ⟨_, rfl⟩
        · simp only [transaction]
          rcases putBody_cases env call rendered h with
            ⟨fault, hbody⟩ | ⟨revision, hhead, hbody⟩ |
              ⟨hcurrent, hdiffers, t', hbody, hversioned, hheads⟩
          · rw [hbody]
            exact Or.inl ⟨fault, rfl⟩
          · rw [hbody]
            exact Or.inr ⟨rendered, hrendered, Or.inl ⟨revision, hhead, rfl⟩⟩
          · rw [hbody]
            exact Or.inr ⟨rendered, hrendered, Or.inr ⟨hcurrent, hdiffers, t', rfl, hversioned,
              hheads⟩⟩

theorem putAll_versioned (env : ExecutionEnv) (calls : List PutCall) :
    Versioned (putAll env calls) := by
  apply List.foldlRecOn calls _ versioned_empty
  intro t h call _
  rcases put_cases env call h with ⟨fault, heq⟩ |
    ⟨rendered, -, ⟨revision, -, heq⟩ | ⟨-, -, t', heq, hversioned, -⟩⟩
  · rwa [heq]
  · rwa [heq]
  · rwa [heq]

theorem put_identical {revision : Nat} (hadmitted : Admitted env call rendered)
    (hhead : t.heads call.key = some (revision, env.sha256 rendered))
    (hrow : ∀ row, rowAt t call.key revision = some row → row.digest = env.sha256 rendered)
    (hreads : ReadsBack env call t) : put env call t = (.ok revision, t) := by
  obtain ⟨hverified, hshape, hrendered, hpersisted⟩ := hadmitted
  obtain ⟨row, record, hat, hdecode⟩ := hreads revision _ hhead
  have hdigest := hrow row hat
  unfold put
  rw [if_neg (by simp [hverified]), hshape, hrendered]
  dsimp only
  rw [hpersisted]
  simp only [transaction, putBody, hhead, hat, hdigest, hdecode, ne_eq, not_true_eq_false,
    if_false, if_true]
end

/-- What any sequence of calls leaves in each of the two stores, and what the next call meets. -/
theorem record_stores :
    (∀ (π : Type) (env : PlatformEnv π) (calls : List (AppendCall π)),
      Versioned (appendAll env calls) ∧ ∀ call : AppendCall π,
        call.expectedRevision ≠ headRevision (appendAll env calls) call.key →
          ∃ fault, appendRecord env call (appendAll env calls) =
            (.error fault, appendAll env calls)) ∧
    ∀ (env : ExecutionEnv) (calls : List PutCall),
      Versioned (putAll env calls) ∧ ∀ (call : PutCall) (rendered : String),
        call.record.rendered = some rendered →
          (headDigest (putAll env calls) call.key ≠ some (env.sha256 rendered) →
            ¬Current call (putAll env calls) →
              ∃ fault, put env call (putAll env calls) = (.error fault, putAll env calls)) ∧
          (∀ revision, (putAll env calls).heads call.key = some (revision, env.sha256 rendered) →
            Admitted env call rendered → ReadsBack env call (putAll env calls) →
              put env call (putAll env calls) = (.ok revision, putAll env calls)) := by
  refine ⟨fun π env calls => ⟨appendAll_versioned env calls, ?_⟩,
    fun env calls => ⟨putAll_versioned env calls, ?_⟩⟩
  · intro call hstale
    rcases appendRecord_cases env call (appendAll_versioned env calls) with hfault | ⟨hfresh, -⟩
    · exact hfault
    · exact absurd hfresh hstale
  · intro call rendered hrendered
    have hversioned := putAll_versioned env calls
    constructor
    · intro hdiffers hstale
      rcases put_cases env call hversioned with hfault |
        ⟨text, htext, ⟨revision, hhead, -⟩ | ⟨hcurrent, -⟩⟩
      · exact hfault
      · obtain rfl := Option.some.inj (hrendered.symm.trans htext)
        exact absurd (by simp [headDigest, hhead]) hdiffers
      · exact absurd hcurrent hstale
    · intro revision hhead hadmitted hreads
      apply put_identical hadmitted hhead _ hreads
      intro row hat
      obtain ⟨older, held, -, hheld, -, hdigest⟩ := hversioned.head hhead
      rwa [Option.some.inj (hat.symm.trans hheld)]

def approvalText (expiresAt : String) : String :=
  "\x7b\"action\":\"read_catalog\",\"approval_id\":\"xapr_demo\"," ++
    "\"approved_at\":\"2026-07-12T00:00:00.000Z\",\"approved_by\":\"user:local\"," ++
    "\"destination\":null,\"employee_id\":null,\"expires_at\":\"" ++ expiresAt ++ "\"," ++
    "\"extensions\":\x7b\x7d,\"id_scheme_version\":\"1\",\"payload_sha256\":\"" ++
    String.ofList (List.replicate 64 'a') ++ "\",\"run_id\":null," ++
    "\"schema_name\":\"ExecutionApprovalV1\",\"schema_version\":\"1.0.0\",\"scope\":[]," ++
    "\"task_id\":null,\"workspace_id\":null\x7d"

def approvalRecord (expiresAt : String) : ExecutionRecord where
  kind := .approval
  recordId := "xapr_demo"
  idVerified := true
  shapeFault := none
  rendered := some (approvalText expiresAt)
  state := "active"
  assignmentRevision := none
  associations := ⟨none, none, none, none, none⟩

def approvalCall (expiresAt : String) : PutCall := ⟨approvalRecord expiresAt, none, "2026-07-12"⟩

def approvalDigest : Sha256 := ⟨String.ofList (List.replicate 64 'a'), by decide +kernel⟩

def approvalEnv : ExecutionEnv where
  sha256 := fun _ => approvalDigest
  modelValidateJson := fun _ text =>
    if text = approvalText "2026-07-12T00:00:01.000Z" then
      some (approvalRecord "2026-07-12T00:00:01.000Z")
    else none
  persistedFault := fun _ => none

def secondCall : PutCall := approvalCall "2026-07-12T00:00:01.000Z"

def instantCall : PutCall := approvalCall "2026-07-12T00:00:00.000Z"

/-- A call with a stale revision is answered with the head where its payload is the head's, and a
payload that is the head's is refused where the head does not read back. -/
theorem identical_put_answered :
    (secondCall.expectedRevision ≠ headRevision (putAll approvalEnv [secondCall]) secondCall.key ∧
      (put approvalEnv secondCall (putAll approvalEnv [secondCall])).1.toOption = some 1) ∧
    (headDigest (putAll approvalEnv [instantCall]) instantCall.key = some approvalDigest ∧
      (put approvalEnv instantCall (putAll approvalEnv [instantCall])).1.toOption = none) := by
  decide +kernel

section
variable {π : Type}

def accepted (env : PlatformEnv π) : List (AppendCall π) → PlatformTables → List (AppendCall π)
  | [], _ => []
  | call :: calls, t => match appendRecord env call t with
    | (.error _, t') => accepted env calls t'
    | (.ok _, t') => call :: accepted env calls t'

def written (env : PlatformEnv π) (call : AppendCall π) : Option String × String × String :=
  (env.canonicalJson call.payload, call.state, call.now)

def stored (row : Row RecordKey Sha256 PlatformRow) : Option String × String × String :=
  (some row.data.payloadJson, row.data.state, row.data.createdAt)

theorem appendRecord_rows {env : PlatformEnv π} {call : AppendCall π} {t t' : PlatformTables}
    {r : StoredRecord π} (h : appendRecord env call t = (.ok r, t')) :
    ∃ row, t'.rows = t.rows ++ [row] ∧ row.key = call.key ∧ stored row = written env call := by
  unfold appendRecord at h
  split at h
  · cases h
  · split at h
    · cases h
    · split at h
      · cases h
      next rendered hrendered =>
        simp only [transaction, RevisionTables.insert] at h
        split at h
        next hbody =>
          cases h
          split at hbody
          · cases hbody
          · split at hbody
            · cases hbody
            next hinsert =>
              split at hinsert
              · cases hinsert
              · cases hinsert
                cases hbody
                exact ⟨_, rfl, rfl, by simp only [stored, written, hrendered]⟩
        next => cases h

/-- From a versioned store on, the accepted writers of a record have read its revisions one after
another, and what they wrote follows the rows it had. -/
theorem accepted_from (env : PlatformEnv π) (k : RecordKey) (calls : List (AppendCall π))
    {t : PlatformTables} (h : Versioned t) :
    ((accepted env calls t).filter (·.key = k)).map (·.expectedRevision.getD 0) =
        List.range' ((headRevision t k).getD 0) ((accepted env calls t).filter (·.key = k)).length ∧
      (rowsOf (calls.foldl (fun t call => (appendRecord env call t).2) t) k).map stored =
        (rowsOf t k).map stored ++ ((accepted env calls t).filter (·.key = k)).map (written env) := by
  induction calls generalizing t with
  | nil => exact ⟨rfl, (List.append_nil _).symm⟩
  | cons call calls ih =>
    rw [accepted, List.foldl_cons]
    rcases appendRecord_cases env call h with
      ⟨fault, heq⟩ | ⟨hexpected, r, t', heq, hversioned, hrevision, hheads⟩
    · rw [heq]
      exact ih h
    · obtain ⟨hread, hrows⟩ := ih hversioned
      obtain ⟨row, happend, hkey, hstored⟩ := appendRecord_rows heq
      rw [heq]
      dsimp only
      rw [hrows, rowsOf, happend, List.filter_append]
      by_cases hk : call.key = k
      · have hhead : headRevision t' k = some ((headRevision t k).getD 0 + 1) := by
          simp [headRevision, hheads, hk, hrevision]
        rw [hhead, Option.getD_some] at hread
        rw [List.filter_cons_of_pos (by simpa using hk), List.map_cons, hread, hexpected, hk,
          List.length_cons, List.range'_succ]
        simp [rowsOf, hkey, hk, hstored]
      · have hhead : headRevision t' k = headRevision t k := by
          simp [headRevision, hheads, Function.update_of_ne (Ne.symm hk)]
        rw [hhead] at hread
        rw [List.filter_cons_of_neg (by simpa using hk), hread]
        simp [rowsOf, hkey, hk]

/-- Each stored revision was written by one call, which had read the revision before it. -/
theorem revisions_read_once (env : PlatformEnv π) (calls : List (AppendCall π)) (k : RecordKey) :
    let writers := (accepted env calls empty).filter (·.key = k)
    writers.map (·.expectedRevision.getD 0) = List.range writers.length ∧
      (rowsOf (appendAll env calls) k).map stored = writers.map (written env) := by
  obtain ⟨hread, hrows⟩ := accepted_from env k calls versioned_empty
  exact ⟨by rw [hread, List.range_eq_range']; rfl, hrows⟩
end
end RaytSystem.Records
