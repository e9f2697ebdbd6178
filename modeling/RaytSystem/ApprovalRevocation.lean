import RaytSystem.BreakerClosings
import RaytSystem.ExecutionPolicy

/-! Approvals while the pending ones are revoked: a check rejects those that are older than the
activation which put the revocation in force, over any run of emergency calls. -/
namespace RaytSystem.Authority
open Emergency
open Execution (ExecutionApproval)

section

structure ApprovalRecord where
  approvalId : String
  /-- The decision is to approve. -/
  approves : Bool
  action : String
  targetId : String
  artifactSha256 : String
  destination : Option String
  scope : List String
  policySha256 : String
  approvedAt : Time
  expiresAt : Time
  deriving DecidableEq

inductive Approval
  | record (approval : ApprovalRecord)
  | execution (approval : ExecutionApproval)
  deriving DecidableEq

def Approval.approvedAt : Approval → Time
  | record approval => approval.approvedAt
  | execution approval => approval.approvedAt

inductive AuthorityFault
  | invalidApproval | unavailable | scopeMismatch | revoked
  deriving DecidableEq, Repr

structure ApprovalStores where
  platform : String → Option (Option ApprovalRecord)
  execution : String → Option ExecutionApproval
  accepted : String → Option ApprovalRecord

def ApprovalStores.approval (stores : ApprovalStores) (approvalId : String) :
    Except AuthorityFault Approval :=
  match stores.platform approvalId with
  | some (some approval) => .ok (.record approval)
  | some none => .error .invalidApproval
  | none =>
    match stores.execution approvalId with
    | some approval => .ok (.execution approval)
    | none =>
      match stores.accepted approvalId with
      | some approval => .ok (.record approval)
      | none => .error .unavailable

structure ApprovalRequest where
  action : String
  targetId : String
  artifactSha256 : String
  destination : Option String := none
  requiredScope : List String := []
  policySha256 : Option String := none

structure AuthorityRules where
  recordId : ApprovalRecord → String
  executionId : ExecutionApproval → String

variable (rules : AuthorityRules)

def Approval.valid (approval : Approval) (r : ApprovalRequest) (now : Time) : Bool :=
  match approval with
  | record a =>
    rules.recordId a == a.approvalId && a.approves && a.action == r.action &&
      a.targetId == r.targetId && a.artifactSha256 == r.artifactSha256 &&
      a.destination == r.destination && decide (a.approvedAt ≤ now) && decide (now < a.expiresAt) &&
      r.requiredScope.all (a.scope.contains ·) && r.policySha256.all (a.policySha256 == ·)
  | execution a =>
    let targetBindings := [a.employeeId, a.taskId, a.runId, a.workspaceId].filterMap id
    rules.executionId a == a.approvalId && a.action == r.action &&
      a.payloadSha256 == r.artifactSha256 && a.destination == r.destination &&
      targetBindings.contains r.targetId && r.requiredScope.all (a.scope.contains ·) &&
      decide (a.approvedAt ≤ now) && decide (now < a.expiresAt)

def stampOf (state : EmergencyState) (action : EmergencyAction) : Time :=
  (state.actionActivatedAt.lookup action).getD state.activatedAt

def pendingApprovalsRevokedAt : PlatformDatabase → Except AuthorityFault (Option Time)
  | .absent => .ok none
  | .unreadable => .ok none
  | .ready s =>
    match s.emergency.get emergencyGlobal with
    | none => .ok none
    | some record =>
      if record.state ≠ "active" ∨ .revokePendingApprovals ∉ record.payload.activeActions then
        .ok none
      else .ok (some (stampOf record.payload .revokePendingApprovals))

def requireApproval (stores : ApprovalStores) (db : PlatformDatabase) (approvalId : String)
    (r : ApprovalRequest) (now : Time) : Except AuthorityFault Approval := do
  let approval ← stores.approval approvalId
  if approval.valid rules r now = false then .error .scopeMismatch
  else
    match ← pendingApprovalsRevokedAt db with
    | none => pure approval
    | some revokedAfter =>
      if approval.approvedAt < revokedAfter then .error .revoked else pure approval
end

end RaytSystem.Authority

namespace RaytSystem.Emergency
open PyText Interleaving Authority
attribute [local irreducible] wp Prog.Does

section

def Activates (env : EmergencyEnv) (prior : Option (StoredRecord EmergencyState))
    (actions : List EmergencyAction) (next : Option (StoredRecord EmergencyState)) : Prop :=
  ∃ reason actorId approvalId now state record,
    (activatedState env prior actions reason actorId approvalId now).validate = some state ∧
      next = some record ∧ record.payload = state ∧ record.state = "active"

def Recovers (env : EmergencyEnv) (prior : Option (StoredRecord EmergencyState))
    (r : RecoveryRequest) (next : Option (StoredRecord EmergencyState)) : Prop :=
  ∃ held now state record, prior = some held ∧ (recoveredState env held r now).validate = some state ∧
    next = some record ∧ record.payload = state ∧
      record.state = if state.activeActions = [] then "recovered" else "active"

def HeadMoves (env : EmergencyEnv) (prior : Option (StoredRecord EmergencyState)) :
    EmergencyCommand → Option (StoredRecord EmergencyState) → Prop
  | .activate actions _ _ _ _, next => Activates env prior actions next
  | .recover r, next => Recovers env prior r next
  | .observe _, next => Activates env prior [.disableRuntimeExecution] next
  | .closeBreaker .., _ => False

def HeadMoved (env : EmergencyEnv) (prior : Option (StoredRecord EmergencyState))
    (command : EmergencyCommand) (s : PlatformStore) : Prop :=
  s.emergency.get emergencyGlobal = prior ∨
    HeadMoves env prior command (s.emergency.get emergencyGlobal)

variable {env : EmergencyEnv} {s : PlatformStore} {C : PlatformStore → Prop}

theorem ensures_activate_head {actions : List EmergencyAction} {reason actorId key : String}
    {approvalId : Option String} (hs : C s)
    (hwrites : ∀ s' : PlatformStore, Activates env (s.emergency.get emergencyGlobal) actions
      (s'.emergency.get emergencyGlobal) → C s') :
    Ensures (sequential Unit C) (activate env actions reason actorId key approvalId)
      (fun _ => C) s := by
  unfold activate
  apply ensures_guard
  intro _
  apply ensures_guard
  intro _
  apply ensures_bind
  apply wp_idempotentReceipt hs fun _ => trivial
  · intro _ _
    unfold activateFresh emergencyHead
    apply ensures_bind
    apply ensures_get fun _ _ => trivial
    rintro _ _ rfl _
    apply ensures_bind
    apply ensures_any
    intro now
    apply ensures_bind
    apply ensures_ofOption
    intro state hstate
    apply ensures_bind
    apply ensures_appendEmergency
    intro emergency record hget hpayload hactive
    have hactivates : Activates env (s.emergency.get emergencyGlobal) actions
        (emergency.get emergencyGlobal) :=
      ⟨reason, actorId, approvalId, now, state, record, hstate, hget, hpayload, hactive⟩
    refine ⟨hwrites _ hactivates, ?_⟩
    apply ensures_bind
    apply ensures_appendEvent
    intro events
    refine ⟨hwrites _ hactivates, ?_⟩
    apply ensures_bind
    apply ensures_storeReceipt
    intro receipts
    exact ⟨hwrites _ hactivates, ensures_pure (hwrites _ hactivates)⟩
  · intro _ _ _
    exact ensures_pure hs

theorem ensures_recover_head {r : RecoveryRequest} (hs : C s)
    (hwrites : ∀ s' : PlatformStore, Recovers env (s.emergency.get emergencyGlobal) r
      (s'.emergency.get emergencyGlobal) → C s') :
    Ensures (sequential Unit C) (recover env r) (fun _ => C) s := by
  unfold recover
  apply ensures_guard
  intro _
  apply ensures_guard
  intro _
  apply ensures_bind
  apply ensures_any
  intro approved
  apply ensures_guard
  intro _
  apply ensures_bind
  apply wp_idempotentReceipt hs fun _ => trivial
  · intro _ _
    unfold recoverFresh emergencyHead
    apply ensures_bind
    apply ensures_get fun _ _ => trivial
    rintro _ _ rfl _
    apply ensures_bind
    apply ensures_get fun _ _ => trivial
    rintro _ _ rfl _
    apply ensures_bind
    apply ensures_ofExcept
    intro held hheld
    obtain ⟨hprior, -⟩ := recoveryChecks_ok.mp hheld
    apply ensures_bind
    apply ensures_any
    intro now
    apply ensures_bind
    apply ensures_ofOption
    intro state hstate
    apply ensures_bind
    apply ensures_appendEmergency
    intro emergency record hget hpayload hrecord
    have hrecovers : Recovers env (s.emergency.get emergencyGlobal) r
        (emergency.get emergencyGlobal) :=
      ⟨held, now, state, record, hprior, hstate, hget, hpayload, hrecord⟩
    refine ⟨hwrites _ hrecovers, ?_⟩
    apply ensures_bind
    apply ensures_appendEvent
    intro events
    refine ⟨hwrites _ hrecovers, ?_⟩
    apply ensures_bind
    apply ensures_storeReceipt
    intro receipts
    exact ⟨hwrites _ hrecovers, ensures_pure (hwrites _ hrecovers)⟩
  · intro _ _ _
    exact ensures_pure hs

theorem ensures_observe_head {o : Observation} :
    Ensures (sequential Unit (HeadMoved env (s.emergency.get emergencyGlobal) (.observe o)))
      (observeBreaker env o)
      (fun _ => HeadMoved env (s.emergency.get emergencyGlobal) (.observe o)) s := by
  unfold observeBreaker breakerHead
  apply ensures_guard
  intro _
  apply ensures_bind
  apply ensures_ofOption
  intro threshold _
  apply ensures_bind
  apply ensures_get fun _ _ => trivial
  rintro _ _ rfl _
  apply ensures_bind
  apply ensures_any
  intro now
  apply ensures_bind
  apply ensures_ofOption
  intro breaker _
  apply ensures_bind
  apply ensures_appendBreaker
  intro _ breakers _
  refine ⟨Or.inl rfl, ?_⟩
  apply ensures_bind
  apply ensures_appendEvent
  intro events
  refine ⟨Or.inl rfl, ?_⟩
  split
  · apply ensures_bind
    refine ensures_mono (ensures_activate_head ?_ ?_) fun _ _ h => ensures_pure h
    · exact Or.inl rfl
    · exact fun _ h => Or.inr h
  · exact ensures_pure (Or.inl rfl)

theorem ensures_close_head {breakerId approvalId reason actorId : String} :
    Ensures (sequential Unit (HeadMoved env (s.emergency.get emergencyGlobal)
        (.closeBreaker breakerId approvalId reason actorId)))
      (closeBreaker env breakerId approvalId reason actorId)
      (fun _ => HeadMoved env (s.emergency.get emergencyGlobal)
        (.closeBreaker breakerId approvalId reason actorId)) s := by
  unfold closeBreaker breakerHead
  apply ensures_guard
  intro _
  apply ensures_guard
  intro _
  apply ensures_bind
  apply ensures_any
  intro approved
  apply ensures_guard
  intro _
  apply ensures_guard
  intro _
  apply ensures_bind
  apply ensures_get fun _ _ => trivial
  rintro _ _ rfl _
  apply ensures_bind
  apply ensures_ofOption
  intro held _
  apply ensures_bind
  apply ensures_any
  intro now
  apply ensures_bind
  apply ensures_ofOption
  intro breaker _
  apply ensures_bind
  apply ensures_appendBreaker
  intro _ breakers _
  refine ⟨Or.inl rfl, ?_⟩
  apply ensures_bind
  apply ensures_appendEvent
  intro events
  exact ⟨Or.inl rfl, ensures_pure (Or.inl rfl)⟩

theorem transition_headMoved {t : Transition}
    (hx : Exec (t.command.prog env) t.before t.outcome t.after) :
    HeadMoved env (t.before.emergency.get emergencyGlobal) t.command t.after := by
  obtain ⟨command, outcome, s, s'⟩ := t
  let moved := HeadMoved env (s.emergency.get emergencyGlobal) command
  have hstart : moved s := Or.inl rfl
  refine exec_keeps (Q := fun _ => moved) (X := fun _ _ => True) ?_ hstart hx
  cases command with
  | activate actions reason actorId key approvalId =>
    apply ensures_bind
    exact ensures_mono (ensures_activate_head hstart fun _ h => Or.inr h) fun _ _ h => ensures_pure h
  | recover request =>
    apply ensures_bind
    exact ensures_mono (ensures_recover_head hstart fun _ h => Or.inr h) fun _ _ h => ensures_pure h
  | observe o =>
    apply ensures_bind
    exact ensures_mono ensures_observe_head fun _ _ h => ensures_pure h
  | closeBreaker breakerId approvalId reason actorId =>
    apply ensures_bind
    exact ensures_mono ensures_close_head fun _ _ h => ensures_pure h
end

section
variable {α β : Type} [DecidableEq α]

theorem lookup_stamped (keys : List α) (stamp : α → β) (a : α) :
    (keys.map fun key => (key, stamp key)).lookup a = if a ∈ keys then some (stamp a) else none := by
  induction keys with
  | nil => rfl
  | cons key keys ih =>
    rw [List.map_cons, List.lookup_cons, ih]
    by_cases h : a = key
    · simp [h]
    · have hne : (a == key) = false := by simpa using h
      simp [hne, h]

theorem lookup_kept (entries : List (α × β)) (keep : α → Bool) (a : α) :
    (entries.filter (keep ·.1)).lookup a = if keep a then entries.lookup a else none := by
  induction entries with
  | nil => simp
  | cons entry entries ih =>
    obtain ⟨key, value⟩ := entry
    rw [List.filter_cons]
    by_cases h : a = key
    · subst h
      cases hkeep : keep a with
      | false => simpa [hkeep] using ih
      | true => simp
    · have hskip : ∀ rest : List (α × β), ((key,value) :: rest).lookup a = rest.lookup a := by
        intro rest
        have hne : (a == key) = false := by simpa using h
        rw [List.lookup_cons, hne]
      split
      · rw [hskip, hskip, ih]
      · rw [hskip, ih]
end

section
variable {env : EmergencyEnv} {s s' : PlatformStore} {ts : List Transition}

def SoundEmergency (head : Option (StoredRecord EmergencyState)) : Prop :=
  ∀ record, head = some record →
    (record.state = "active" ∨ record.payload.activeActions = []) ∧
      ∀ a, a ∈ record.payload.activeActions ↔ (record.payload.actionActivatedAt.lookup a).isSome

def revokedSince (head : Option (StoredRecord EmergencyState)) : Option Time :=
  head.bind fun record => record.payload.actionActivatedAt.lookup .revokePendingApprovals

def Transition.RevokesAt (t : Transition) (time : Time) : Prop :=
  (∃ actions reason actorId key approvalId,
    t.command = .activate actions reason actorId key approvalId ∧
      .revokePendingApprovals ∈ actions) ∧
    ∃ record, t.after.emergency.get emergencyGlobal = some record ∧
      record.payload.activatedAt = time

def stampAfter (prior : Option (StoredRecord EmergencyState)) (now : Time)
    (action : EmergencyAction) : Time :=
  match prior with
  | none => now
  | some record =>
    match record.payload.actionActivatedAt.lookup action with
    | some stamp => stamp
    | none => if action ∈ record.payload.activeActions then record.payload.activatedAt else now

theorem activationStamps_eq (prior : Option (StoredRecord EmergencyState))
    (current : List EmergencyAction) (now : Time) :
    activationStamps prior current now = current.map fun a => (a, stampAfter prior now a) := by
  unfold activationStamps stampAfter
  apply List.map_congr_left
  intro a _
  cases prior with
  | none => rfl
  | some record =>
    dsimp only
    cases record.payload.actionActivatedAt.lookup a with
    | some stamp => rfl
    | none =>
      dsimp only
      split <;> rfl

theorem revoked_active (hsound : SoundEmergency (s.emergency.get emergencyGlobal)) :
    .revokePendingApprovals ∈ s.activeActions ↔
      (revokedSince (s.emergency.get emergencyGlobal)).isSome := by
  unfold PlatformStore.activeActions revokedSince
  cases hhead : s.emergency.get emergencyGlobal with
  | none => simp
  | some record =>
    obtain ⟨hstate, hstamps⟩ := hsound record hhead
    rw [Option.bind_some, ← hstamps]
    rcases hstate with hactive | hnone
    · simp [hactive]
    · simp [hnone]

theorem pendingApprovalsRevokedAt_sound (hsound : SoundEmergency (s.emergency.get emergencyGlobal)) :
    pendingApprovalsRevokedAt (.ready s) = .ok (revokedSince (s.emergency.get emergencyGlobal)) := by
  simp only [pendingApprovalsRevokedAt, revokedSince]
  cases hhead : s.emergency.get emergencyGlobal with
  | none => rfl
  | some record =>
    obtain ⟨hstate, hstamps⟩ := hsound record hhead
    rw [Option.bind_some]
    dsimp only
    cases hstamp : record.payload.actionActivatedAt.lookup .revokePendingApprovals with
    | none =>
      have hinactive : .revokePendingApprovals ∉ record.payload.activeActions := by
        rw [hstamps, hstamp]
        simp
      rw [if_pos (Or.inr hinactive)]
    | some stamp =>
      have hmem : .revokePendingApprovals ∈ record.payload.activeActions := by
        rw [hstamps, hstamp]
        rfl
      have hactive : record.state = "active" := by
        rcases hstate with hactive | hnone
        · exact hactive
        · rw [hnone] at hmem
          cases hmem
      rw [if_neg (by simp [hactive, hmem]), stampOf, hstamp, Option.getD_some]

variable {actions : List EmergencyAction} {reason actorId : String} {approvalId : Option String}
variable {now : Time}

theorem activated_actions {prior : Option (StoredRecord EmergencyState)} {a : EmergencyAction} :
    a ∈ (activatedState env prior actions reason actorId approvalId now).activeActions ↔
      a ∈ prior.elim [] (·.payload.activeActions) ∨ a ∈ actions := by
  simp [activatedState]

theorem activated_stamp {prior : Option (StoredRecord EmergencyState)} (a : EmergencyAction) :
    (activatedState env prior actions reason actorId approvalId now).actionActivatedAt.lookup a =
      if a ∈ prior.elim [] (·.payload.activeActions) ∨ a ∈ actions then
        some (stampAfter prior now a) else none := by
  have hstamps := lookup_stamped
    (activatedState env prior actions reason actorId approvalId now).activeActions
    (stampAfter prior now) a
  rw [← activationStamps_eq] at hstamps
  simp only [activated_actions] at hstamps
  exact hstamps

variable {prior next : Option (StoredRecord EmergencyState)}

theorem activates_sound (h : Activates env prior actions next) : SoundEmergency next := by
  obtain ⟨reason, actorId, approvalId, now, state, record, hstate, rfl, hpayload, hactive⟩ := h
  intro record' hrecord
  obtain rfl := Option.some.inj hrecord
  refine ⟨Or.inl hactive, fun a => ?_⟩
  rw [hpayload, EmergencyState.validate_some hstate]
  change a ∈ (activatedState env prior actions reason actorId approvalId now).activeActions ↔
    ((activatedState env prior actions reason actorId approvalId now).actionActivatedAt.lookup
      a).isSome = true
  rw [activated_actions, activated_stamp]
  split <;> simp_all

theorem activates_since (hsound : SoundEmergency prior) (h : Activates env prior actions next) :
    revokedSince next = revokedSince prior ∨
      (revokedSince prior = none ∧ .revokePendingApprovals ∈ actions ∧
        ∃ record, next = some record ∧ revokedSince next = some record.payload.activatedAt) := by
  obtain ⟨reason, actorId, approvalId, now, state, record, hstate, rfl, hpayload, hactive⟩ := h
  have hnext : revokedSince (some record) = (activatedState env prior actions reason actorId
      approvalId now).actionActivatedAt.lookup .revokePendingApprovals := by
    rw [revokedSince, Option.bind_some, hpayload, EmergencyState.validate_some hstate]
    rfl
  have htime : record.payload.activatedAt = now := by
    rw [hpayload, EmergencyState.validate_some hstate]
    rfl
  rw [hnext, activated_stamp]
  have hprior : .revokePendingApprovals ∈ prior.elim [] (·.payload.activeActions) ↔
      (revokedSince prior).isSome := by
    cases prior with
    | none => simp [revokedSince]
    | some held => exact (hsound held rfl).2 _
  cases hsince : revokedSince prior with
  | some stamp =>
    left
    rw [hsince] at hprior
    have hstamp : stampAfter prior now .revokePendingApprovals = stamp := by
      cases prior with
      | none => cases hsince
      | some held =>
        rw [revokedSince, Option.bind_some] at hsince
        simp [stampAfter, hsince]
    rw [if_pos (Or.inl (hprior.mpr rfl)), hstamp]
  | none =>
    rw [hsince] at hprior
    have hinactive : .revokePendingApprovals ∉ prior.elim [] (·.payload.activeActions) := by
      rw [hprior]
      simp
    by_cases hrequested : .revokePendingApprovals ∈ actions
    · right
      have hstamp : stampAfter prior now .revokePendingApprovals = now := by
        cases prior with
        | none => rfl
        | some held =>
          rw [revokedSince, Option.bind_some] at hsince
          rw [Option.elim_some] at hinactive
          simp [stampAfter, hsince, hinactive]
      refine ⟨rfl, hrequested, record, rfl, ?_⟩
      rw [if_pos (Or.inr hrequested), hstamp, htime]
    · left
      rw [if_neg (by simp [hinactive, hrequested])]

variable {held : StoredRecord EmergencyState} {r : RecoveryRequest}

theorem recovered_actions {a : EmergencyAction} :
    a ∈ (recoveredState env held r now).activeActions ↔
      a ∈ held.payload.activeActions ∧ a ∉ r.actions := by
  simp [recoveredState]

theorem recovered_stamp (a : EmergencyAction) :
    (recoveredState env held r now).actionActivatedAt.lookup a =
      if a ∈ held.payload.activeActions ∧ a ∉ r.actions then
        held.payload.actionActivatedAt.lookup a else none := by
  have hkept := lookup_kept held.payload.actionActivatedAt
    (fun a => decide (a ∈ (recoveredState env held r now).activeActions)) a
  simp only [decide_eq_true_eq, recovered_actions] at hkept
  rw [← hkept]
  simp only [recoveredState, mem_sortedActions, List.mem_filter, decide_eq_true_eq]

theorem recovers_sound (hsound : SoundEmergency prior) (h : Recovers env prior r next) :
    SoundEmergency next := by
  obtain ⟨held, now, state, record, rfl, hstate, rfl, hpayload, hrecord⟩ := h
  intro record' hrecord'
  obtain rfl := Option.some.inj hrecord'
  constructor
  · rw [hrecord, hpayload]
    split
    next hnone => exact Or.inr hnone
    next => exact Or.inl rfl
  · intro a
    have hstamps := (hsound held rfl).2 a
    rw [hpayload, EmergencyState.validate_some hstate]
    change a ∈ (recoveredState env held r now).activeActions ↔
      ((recoveredState env held r now).actionActivatedAt.lookup a).isSome = true
    rw [recovered_actions, recovered_stamp]
    split
    next hactive => exact iff_of_true hactive (hstamps.mp hactive.1)
    next hinactive => simp [hinactive]

theorem recovers_since (h : Recovers env prior r next) :
    revokedSince next = revokedSince prior ∨ revokedSince next = none := by
  obtain ⟨held, now, state, record, rfl, hstate, rfl, hpayload, -⟩ := h
  simp only [revokedSince, Option.bind_some]
  rw [hpayload, EmergencyState.validate_some hstate]
  change (recoveredState env held r now).actionActivatedAt.lookup _ = _ ∨
    (recoveredState env held r now).actionActivatedAt.lookup _ = _
  rw [recovered_stamp]
  split
  · exact Or.inl rfl
  · exact Or.inr rfl

variable {t : Transition}

theorem transition_soundEmergency (hx : Exec (t.command.prog env) t.before t.outcome t.after)
    (hsound : SoundEmergency (t.before.emergency.get emergencyGlobal)) :
    SoundEmergency (t.after.emergency.get emergencyGlobal) := by
  rcases transition_headMoved hx with hsame | hmoves
  · rwa [hsame]
  · cases hcommand : t.command with
    | activate =>
      rw [hcommand] at hmoves
      exact activates_sound hmoves
    | recover r =>
      rw [hcommand] at hmoves
      exact recovers_sound hsound hmoves
    | observe o =>
      rw [hcommand] at hmoves
      exact activates_sound hmoves
    | closeBreaker =>
      rw [hcommand] at hmoves
      exact hmoves.elim

/-- The step: the stamp of the revocation stays, is dropped, or is that of a call which turns
the revocation on. -/
theorem transition_since (hx : Exec (t.command.prog env) t.before t.outcome t.after)
    (hsound : SoundEmergency (t.before.emergency.get emergencyGlobal)) {time : Time}
    (hsince : revokedSince (t.after.emergency.get emergencyGlobal) = some time) :
    revokedSince (t.before.emergency.get emergencyGlobal) = some time ∨
      (revokedSince (t.before.emergency.get emergencyGlobal) = none ∧ t.RevokesAt time) := by
  rcases transition_headMoved hx with hsame | hmoves
  · left
    rwa [← hsame]
  · cases hcommand : t.command with
    | activate actions reason actorId key approvalId =>
      rw [hcommand] at hmoves
      rcases activates_since hsound hmoves with hkept | ⟨hnone, hrequested, record, hhead, hown⟩
      · left
        rwa [← hkept]
      · right
        have htime : record.payload.activatedAt = time := Option.some.inj (hown.symm.trans hsince)
        exact ⟨hnone, ⟨actions, reason, actorId, key, approvalId, hcommand, hrequested⟩, record,
          hhead, htime⟩
    | recover r =>
      rw [hcommand] at hmoves
      left
      rcases recovers_since hmoves with hkept | hnone
      · rwa [← hkept]
      · rw [hnone] at hsince
        cases hsince
    | observe o =>
      rw [hcommand] at hmoves
      rcases activates_since hsound hmoves with hkept | ⟨-, hrequested, -⟩
      · left
        rwa [← hkept]
      · exact absurd hrequested (by decide)
    | closeBreaker =>
      rw [hcommand] at hmoves
      exact hmoves.elim

theorem Run.soundEmergency (h : Run env s ts s')
    (hsound : SoundEmergency (s.emergency.get emergencyGlobal)) :
    SoundEmergency (s'.emergency.get emergencyGlobal) := by
  induction h with
  | nil => exact hsound
  | cons hx _ ih => exact ih (transition_soundEmergency hx hsound)

def Transition.KeepsOn (t : Transition) (time : Time) : Prop :=
  revokedSince (t.before.emergency.get emergencyGlobal) = some time ∧
    revokedSince (t.after.emergency.get emergencyGlobal) = some time

/-- The stamp at the end of a run is the one at its start, or that of the last call which turned
the revocation on; every later call keeps it. -/
theorem Run.since (h : Run env s ts s') (hsound : SoundEmergency (s.emergency.get emergencyGlobal))
    {time : Time} (hsince : revokedSince (s'.emergency.get emergencyGlobal) = some time) :
    (revokedSince (s.emergency.get emergencyGlobal) = some time ∧ ∀ t ∈ ts, t.KeepsOn time) ∨
      ∃ front t back, ts = front ++ t :: back ∧
        revokedSince (t.before.emergency.get emergencyGlobal) = none ∧
          revokedSince (t.after.emergency.get emergencyGlobal) = some time ∧ t.RevokesAt time ∧
            ∀ u ∈ back, u.KeepsOn time := by
  induction h with
  | nil => exact Or.inl ⟨hsince, by simp⟩
  | @cons t ts s' hx hrest ih =>
    rcases ih (transition_soundEmergency hx hsound) hsince with
      ⟨hstart, hkept⟩ | ⟨front, u, back, rfl, hlast⟩
    · rcases transition_since hx hsound hstart with hbefore | ⟨hnone, hrevokes⟩
      · left
        refine ⟨hbefore, ?_⟩
        simp only [List.forall_mem_cons]
        exact ⟨⟨hbefore, hstart⟩, hkept⟩
      · right
        exact ⟨[], t, ts, rfl, hnone, hstart, hrevokes, hkept⟩
    · right
      exact ⟨t :: front, u, back, rfl, hlast⟩

theorem Run.before_sound (h : Run env s ts s')
    (hsound : SoundEmergency (s.emergency.get emergencyGlobal)) (ht : t ∈ ts) :
    SoundEmergency (t.before.emergency.get emergencyGlobal) ∧
      SoundEmergency (t.after.emergency.get emergencyGlobal) := by
  induction h with
  | nil => cases ht
  | cons hx _ ih =>
    have hafter := transition_soundEmergency hx hsound
    rcases List.mem_cons.mp ht with rfl | hlater
    · exact ⟨hsound, hafter⟩
    · exact ih hafter hlater

theorem requireApproval_revoked (rules : AuthorityRules) (stores : ApprovalStores)
    {db : PlatformDatabase} {approvalId : String} {r : ApprovalRequest} {now time : Time}
    {approval : Approval} (hdb : pendingApprovalsRevokedAt db = .ok (some time)) :
    requireApproval rules stores db approvalId r now = .ok approval ↔
      stores.approval approvalId = .ok approval ∧ approval.valid rules r now = true ∧
        time ≤ approval.approvedAt := by
  unfold requireApproval
  cases hstored : stores.approval approvalId with
  | error e => simp [bind, Except.bind]
  | ok found =>
    simp only [bind, Except.bind, hdb, pure, Except.pure, Except.ok.injEq]
    cases hvalid : found.valid rules r now with
    | false =>
      simp only [if_true, reduceCtorEq, false_iff, not_and]
      rintro rfl hother
      rw [hvalid] at hother
      cases hother
    | true =>
      simp only [Bool.true_eq_false, if_false]
      split
      next hold =>
        simp only [reduceCtorEq, false_iff, not_and]
        rintro rfl _
        exact not_le.mpr hold
      next hold =>
        simp only [Except.ok.injEq]
        constructor
        · rintro rfl
          exact ⟨rfl, hvalid, not_lt.mp hold⟩
        · exact fun h => h.1

theorem soundEmergency_empty : SoundEmergency (PlatformStore.empty.emergency.get emergencyGlobal) := by
  intro record hrecord
  cases hrecord

/-- While the revocation is active in a run, the check accepts the valid approvals that are no
older than the last call which turned the revocation on, and no others: since that call it has
been active throughout. -/
theorem revocation_respected {env : EmergencyEnv} {ts : List Transition} {s : PlatformStore}
    (hrun : Run env .empty ts s) (hrevoked : .revokePendingApprovals ∈ s.activeActions) :
    ∃ front t back time, ts = front ++ t :: back ∧ t.RevokesAt time ∧
      .revokePendingApprovals ∉ t.before.activeActions ∧
      .revokePendingApprovals ∈ t.after.activeActions ∧
      (∀ u ∈ back, .revokePendingApprovals ∈ u.before.activeActions ∧
        .revokePendingApprovals ∈ u.after.activeActions) ∧
      ∀ rules stores approvalId r now approval,
        requireApproval rules stores (.ready s) approvalId r now = .ok approval ↔
          stores.approval approvalId = .ok approval ∧ approval.valid rules r now = true ∧
            time ≤ approval.approvedAt := by
  have hsound := hrun.soundEmergency soundEmergency_empty
  obtain ⟨time, htime⟩ := Option.isSome_iff_exists.mp ((revoked_active hsound).mp hrevoked)
  rcases hrun.since soundEmergency_empty htime with
    ⟨hstart, -⟩ | ⟨front, t, back, rfl, hnone, hon, hrevokes, hkept⟩
  · cases hstart
  · obtain ⟨hbefore, hafter⟩ := hrun.before_sound soundEmergency_empty (t := t) (by simp)
    refine ⟨front, t, back, time, rfl, hrevokes, ?_, ?_, ?_, ?_⟩
    · rw [revoked_active hbefore, hnone]
      simp
    · rw [revoked_active hafter, hon]
      rfl
    · intro u hu
      obtain ⟨hbefore, hafter⟩ := hrun.before_sound soundEmergency_empty (t := u) (by simp [hu])
      rw [revoked_active hbefore, revoked_active hafter, (hkept u hu).1, (hkept u hu).2]
      exact ⟨rfl, rfl⟩
    · intro rules stores approvalId r now approval
      apply requireApproval_revoked
      rw [pendingApprovalsRevokedAt_sound hsound, htime]
end

def revocation (idempotencyKey : String) : EmergencyCommand :=
  .activate [.revokePendingApprovals] "incident" "user_local" idempotencyKey none

def revokedStore : PlatformStore :=
  (((revocation "idem_first").prog sampleEnv).play 9 [20, 20] .empty).2

def revokedAgainStore : PlatformStore :=
  (((revocation "idem_second").prog sampleEnv).play 9 [40, 40] revokedStore).2

def firstRevocation : Transition :=
  ⟨revocation "idem_first", .returned (), .empty, revokedStore⟩

def secondRevocation : Transition :=
  ⟨revocation "idem_second", .returned (), revokedStore, revokedAgainStore⟩

theorem first_played : Exec ((revocation "idem_first").prog sampleEnv) .empty (.returned ())
    revokedStore := by
  unfold revokedStore
  apply exec_play_returned
  decide +kernel

theorem second_played : Exec ((revocation "idem_second").prog sampleEnv) revokedStore (.returned ())
    revokedAgainStore := by
  unfold revokedAgainStore
  apply exec_play_returned
  decide +kernel

section
attribute [local irreducible] revokedStore revokedAgainStore

theorem exec_first : Exec (firstRevocation.command.prog sampleEnv) firstRevocation.before
    firstRevocation.outcome firstRevocation.after := first_played

theorem exec_second : Exec (secondRevocation.command.prog sampleEnv) secondRevocation.before
    secondRevocation.outcome secondRevocation.after := second_played

theorem first_run : Run sampleEnv .empty [firstRevocation] revokedStore :=
  .cons exec_first (.nil revokedStore)

theorem second_run :
    Run sampleEnv .empty [firstRevocation, secondRevocation] revokedAgainStore :=
  .cons exec_first (.cons exec_second (.nil revokedAgainStore))
end

def betweenApproval : ApprovalRecord where
  approvalId := "apr_between"
  approves := true
  action := "recover_emergency"
  targetId := "emergency_global"
  artifactSha256 := "a"
  destination := none
  scope := []
  policySha256 := "p"
  approvedAt := 15
  expiresAt := 100

def betweenStores : ApprovalStores where
  platform id := if id = "apr_between" then some (some betweenApproval) else none
  execution _ := none
  accepted _ := none

def recoverRequest : ApprovalRequest where
  action := "recover_emergency"
  targetId := "emergency_global"
  artifactSha256 := "a"

def sampleRules : AuthorityRules where
  recordId := ApprovalRecord.approvalId
  executionId := fun approval => approval.approvalId

theorem revokedAgain_checked :
    .revokePendingApprovals ∈ revokedAgainStore.activeActions ∧
      (secondRevocation.after.emergency.get emergencyGlobal).map (·.payload.activatedAt) = some 20 ∧
      requireApproval sampleRules betweenStores (.ready revokedAgainStore) "apr_between"
        recoverRequest 30 = .ok (.record betweenApproval) := by
  decide +kernel

/-- A second revocation at 20 while the first is active does not reject an approval of time 15. -/
theorem repeated_revocation_ignored :
    Run sampleEnv .empty [firstRevocation, secondRevocation] revokedAgainStore ∧
      .revokePendingApprovals ∈ revokedAgainStore.activeActions ∧
      secondRevocation.RevokesAt 20 ∧ betweenApproval.approvedAt < 20 ∧
      requireApproval sampleRules betweenStores (.ready revokedAgainStore) "apr_between"
        recoverRequest 30 = .ok (.record betweenApproval) := by
  obtain ⟨hactive, htime, haccepted⟩ := revokedAgain_checked
  exact ⟨second_run, hactive, ⟨⟨_, _, _, _, _, rfl, List.mem_singleton_self _⟩,
    Option.map_eq_some_iff.mp htime⟩, by decide, haccepted⟩

/-- After the first revocation the check goes by its time. -/
theorem first_revocation_respected :
    ∃ front t back time, [firstRevocation] = front ++ t :: back ∧ t.RevokesAt time ∧
      .revokePendingApprovals ∉ t.before.activeActions ∧
      .revokePendingApprovals ∈ t.after.activeActions ∧
      (∀ u ∈ back, .revokePendingApprovals ∈ u.before.activeActions ∧
        .revokePendingApprovals ∈ u.after.activeActions) ∧
      ∀ rules stores approvalId r now approval,
        requireApproval rules stores (.ready revokedStore) approvalId r now = .ok approval ↔
          stores.approval approvalId = .ok approval ∧ approval.valid rules r now = true ∧
            time ≤ approval.approvedAt :=
  revocation_respected first_run (by decide +kernel)

end RaytSystem.Emergency
