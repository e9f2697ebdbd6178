import RaytSystem.BreakerRecovery

/-! Runs of observations, activations, recoveries and manual closings, each one ended in any
way: when a tripped observation leaves the runtime stopped. -/
namespace RaytSystem.Emergency
open PyText Interleaving
attribute [local irreducible] wp

inductive EmergencyCommand where
  | activate (actions : List EmergencyAction) (reason actorId idempotencyKey : String)
      (approvalId : Option String)
  | recover (request : RecoveryRequest)
  | observe (observation : Observation)
  | closeBreaker (breakerId approvalId reason actorId : String)

variable (env : EmergencyEnv)

def EmergencyCommand.prog : EmergencyCommand → EmergencyProg Unit
  | activate actions reason actorId idempotencyKey approvalId => do
    let _ ← Emergency.activate env actions reason actorId idempotencyKey approvalId
  | recover request => do
    let _ ← Emergency.recover env request
  | observe observation => do
    let _ ← observeBreaker env observation
  | closeBreaker breakerId approvalId reason actorId => do
    let _ ← Emergency.closeBreaker env breakerId approvalId reason actorId

structure Transition where
  command : EmergencyCommand
  outcome : Outcome EmergencyFault Unit
  before : PlatformStore
  after : PlatformStore

inductive Run (env : EmergencyEnv) : PlatformStore → List Transition → PlatformStore → Prop
  | nil (s : PlatformStore) : Run env s [] s
  | cons {t : Transition} {ts : List Transition} {s : PlatformStore}
      (hx : Exec (t.command.prog env) t.before t.outcome t.after) (h : Run env t.after ts s) :
      Run env t.before (t :: ts) s

def Observation.tripped (o : Observation) : Prop :=
  ∃ threshold, env.circuitBreakers.get o.trigger = some threshold ∧ (threshold : Int) ≤ o.observed

variable (t : Transition)

def Transition.Trips (o : Observation) : Prop :=
  t.command = .observe o ∧ t.outcome = .returned () ∧ o.tripped env

def Transition.Stops : Prop :=
  ∀ o, t.Trips env o → t.after.runtimeStopped = true

def Armed (s : PlatformStore) (o : Observation) : Prop :=
  s.runtimeStopped = true ∨ (s.breakerOpen (o.breakerId env) = false ∧
    s.receipts.get (.emergencyActivate,
      openingKey env (o.breakerId env) (s.breakers.get (o.breakerId env))) = none)

def Transition.Ready : Prop :=
  ∀ o, t.Trips env o → Armed env t.before o

def Anything (_ : PlatformStore) : Prop := True

section
variable {env : EmergencyEnv} {s : PlatformStore} {expectedRevision : Option Nat}

theorem append_get {ρ : Type} {heads heads' : Heads ρ} {recordId : String} {payload : ρ}
    {state : String} {createdAt : Time}
    (h : heads.append recordId payload state expectedRevision createdAt = some heads') :
    ∃ record, heads'.get recordId = some record ∧ record.payload = payload ∧
      record.state = state := by
  unfold Heads.append at h
  dsimp only at h
  split at h
  · cases h
    have hget := PyDict.get_set heads recordId recordId
      ⟨(heads.get recordId).elim 0 StoredRecord.revision + 1, payload, state, createdAt⟩
    rw [if_pos rfl] at hget
    exact ⟨_, hget, rfl, rfl⟩
  · cases h

variable {C : PlatformStore → Prop} {fault : EmergencyFault} {Q : Unit → PlatformStore → Prop}

theorem ensures_appendEmergency {payload : EmergencyState} {state : String}
    (h : ∀ emergency record, emergency.get emergencyGlobal = some record →
      record.payload = payload → record.state = state →
        C {s with emergency} ∧ Q () {s with emergency}) : Ensures (sequential Unit C)
      (appendEmergency payload state expectedRevision fault) Q s := by
  unfold appendEmergency
  apply ensures_bind
  apply ensures_any
  intro createdAt
  apply ensures_attempt fun _ _ => trivial
  rintro s' _ s'' _ rfl _ hs'
  split at hs'
  next emergency happend =>
    cases hs'
    obtain ⟨record, hget, hpayload, hstate⟩ := append_get happend
    obtain ⟨hC, hQ⟩ := h emergency record hget hpayload hstate
    exact ⟨hC, trivial, hQ⟩
  next => cases hs'

theorem ensures_appendBreaker {payload : CircuitBreaker} {breakerId : String}
    (h : ∀ createdAt breakers, s.breakers.append breakerId payload payload.state.value
      expectedRevision createdAt = some breakers → C {s with breakers} ∧ Q () {s with breakers}) :
    Ensures (sequential Unit C)
      (appendBreaker payload breakerId expectedRevision fault) Q s := by
  unfold appendBreaker
  apply ensures_bind
  apply ensures_any
  intro createdAt
  apply ensures_attempt fun _ _ => trivial
  rintro s' _ s'' _ rfl _ hs'
  split at hs'
  next breakers happend =>
    cases hs'
    obtain ⟨hC, hQ⟩ := h createdAt breakers happend
    exact ⟨hC, trivial, hQ⟩
  next => cases hs'

theorem ensures_appendEvent {event : AuditEvent}
    (h : ∀ events, C {s with events} ∧ Q () {s with events}) :
    Ensures (sequential Unit C) (appendEvent event) Q s := by
  unfold appendEvent
  apply ensures_guard
  intro _
  apply ensures_set
  rintro _ _ rfl _
  obtain ⟨hC, hQ⟩ := h (s.events ++ [event])
  exact ⟨hC, trivial, hQ⟩

variable {request : EmergencyRequest}

theorem ensures_storeReceipt {scope : ReceiptScope} {key : String} {receipt : EmergencyReceipt}
    (h : ∀ receipts, C {s with receipts} ∧ Q () {s with receipts}) :
    Ensures (sequential Unit C) (storeReceipt env scope key request receipt) Q s := by
  unfold storeReceipt
  apply ensures_guard
  intro _
  apply ensures_attempt fun _ _ => trivial
  rintro s' _ s'' _ rfl _ hs'
  split at hs'
  · cases hs'
    obtain ⟨hC, hQ⟩ := h (s.receipts.set (scope,key) (env.requestSha256 request, receipt))
    exact ⟨hC, trivial, hQ⟩
  · split at hs'
    · cases hs'
      obtain ⟨hC, hQ⟩ := h s.receipts
      exact ⟨hC, trivial, hQ⟩
    · cases hs'

variable {actions : List EmergencyAction} {reason actorId key : String} {approvalId : Option String}

theorem ensures_activateFresh :
    Ensures (sequential Unit Anything) (activateFresh env actions reason actorId key approvalId)
      (fun _ s' => ∀ a ∈ actions, a ∈ s'.activeActions) s := by
  unfold activateFresh emergencyHead
  apply ensures_bind
  apply ensures_get fun _ _ => trivial
  rintro _ _ rfl _
  apply ensures_bind
  apply ensures_any
  intro now
  apply ensures_bind
  apply ensures_ofOption
  intro state hstate
  have hactions : ∀ a ∈ actions, a ∈ state.activeActions := by
    intro a ha
    rw [EmergencyState.validate_actions hstate]
    simp [activatedState, ha]
  apply ensures_bind
  apply ensures_appendEmergency
  intro emergency record hget hpayload hactive
  refine ⟨trivial, ?_⟩
  apply ensures_bind
  apply ensures_appendEvent
  intro events
  refine ⟨trivial, ?_⟩
  apply ensures_bind
  apply ensures_storeReceipt
  intro receipts
  refine ⟨trivial, ?_⟩
  apply ensures_pure
  intro a ha
  simp only [PlatformStore.activeActions, hget, hactive, if_true, hpayload]
  exact hactions a ha

theorem ensures_idempotentReceipt {scope : ReceiptScope} {key : String}
    {Q : Option EmergencyReceipt → PlatformStore → Prop}
    (hnone : s.receipts.get (scope,key) = none → Q none s)
    (hsome : ∀ sha256 receipt, s.receipts.get (scope,key) = some (sha256,receipt) →
      Q (some receipt) s) :
    Ensures (sequential Unit Anything) (idempotentReceipt env scope key request) Q s :=
  wp_idempotentReceipt trivial (fun _ => trivial) (fun _ => hnone) hsome

theorem ensures_activate :
    Ensures (sequential Unit Anything) (activate env actions reason actorId key approvalId)
      (fun _ s' => (s.receipts.get (.emergencyActivate,key) = none ∧
          ∀ a ∈ actions, a ∈ s'.activeActions) ∨
        (s.receipts.get (.emergencyActivate,key) ≠ none ∧ s' = s)) s := by
  unfold activate
  apply ensures_guard
  intro _
  apply ensures_guard
  intro _
  apply ensures_bind
  apply ensures_idempotentReceipt
  · intro hnone
    apply ensures_mono ensures_activateFresh
    intro _ s' hactions
    exact Or.inl ⟨hnone, hactions⟩
  · intro sha256 receipt hsome
    have hstored : s.receipts.get (.emergencyActivate,key) ≠ none := by simp [hsome]
    apply ensures_pure
    exact Or.inr ⟨hstored, rfl⟩

theorem stopped_of_disabled (h : .disableRuntimeExecution ∈ s.activeActions) :
    s.runtimeStopped = true := List.any_eq_true.mpr ⟨_, h, rfl⟩

theorem mapText_state (f : String → String) (b : CircuitBreaker) : (b.mapText f).state = b.state :=
  rfl

theorem opened_of_tripped {o : Observation} {threshold : Nat} (h : (threshold : Int) ≤ o.observed)
    (prior : Option (StoredRecord CircuitBreaker)) (now : Time) :
    (observedBreaker env o threshold prior now).state = .opened := by
  simp [observedBreaker, nextState, h]

theorem ensures_observe {o : Observation} (htripped : o.tripped env) :
    Ensures (sequential Unit Anything) (observeBreaker env o)
      (fun _ s' => s'.runtimeStopped = true ↔ Armed env s o) s := by
  obtain ⟨threshold, hthreshold, hobserved⟩ := htripped
  unfold observeBreaker breakerHead
  apply ensures_guard
  intro _
  apply ensures_bind
  apply ensures_ofOption
  intro threshold' hthreshold'
  obtain rfl : threshold' = threshold := Option.some.inj (hthreshold'.symm.trans hthreshold)
  apply ensures_bind
  apply ensures_get fun _ _ => trivial
  rintro _ _ rfl _
  apply ensures_bind
  apply ensures_any
  intro now
  apply ensures_bind
  apply ensures_ofOption
  intro breaker hbreaker
  have hopened : breaker.state = .opened := by
    rw [CircuitBreaker.validate_some hbreaker, mapText_state, opened_of_tripped hobserved]
  apply ensures_bind
  apply ensures_appendBreaker
  intro createdAt breakers _
  refine ⟨trivial, ?_⟩
  apply ensures_bind
  apply ensures_appendEvent
  intro events
  refine ⟨trivial, ?_⟩
  have hclosed : (s.breakers.get (o.breakerId env)).all (·.state != "open") = true ↔
      s.breakerOpen (o.breakerId env) = false := by
    unfold PlatformStore.breakerOpen
    cases s.breakers.get (o.breakerId env) with
    | none => simp
    | some record => simp
  simp only [hopened, true_and, hclosed]
  split
  next hfirst =>
    apply ensures_bind
    refine ensures_mono ensures_activate fun _ s' hs' => ensures_pure ?_
    rcases hs' with ⟨hfresh, hactions⟩ | ⟨hstored, rfl⟩
    · have hstopped : s'.runtimeStopped = true :=
        stopped_of_disabled (hactions _ List.mem_cons_self)
      exact iff_of_true hstopped (Or.inr ⟨hfirst, hfresh⟩)
    · exact ⟨Or.inl, fun h => h.resolve_right fun hr => hstored hr.2⟩
  next hopen =>
    apply ensures_pure
    exact ⟨Or.inl, fun h => h.resolve_right fun hr => hopen hr.1⟩
end

theorem transition_stops_iff {env : EmergencyEnv} {t : Transition}
    (hx : Exec (t.command.prog env) t.before t.outcome t.after) : t.Stops env ↔ t.Ready env := by
  apply forall_congr'
  intro o
  apply forall_congr'
  rintro ⟨hcommand, houtcome, htripped⟩
  rw [hcommand, houtcome] at hx
  have hspec : Ensures (sequential Unit Anything) ((EmergencyCommand.observe o).prog env)
      (fun _ s' => s'.runtimeStopped = true ↔ Armed env t.before o) t.before := by
    apply ensures_bind
    exact ensures_mono (ensures_observe htripped) fun _ _ h => ensures_pure h
  exact exec_sound hspec trivial hx

/-- In a run, every tripped observation that returns leaves the runtime stopped exactly when
every one finds the runtime stopped or its breaker not open, with an unused opening key. -/
theorem run_stops_iff {env : EmergencyEnv} {s s' : PlatformStore} {ts : List Transition}
    (h : Run env s ts s') : (∀ t ∈ ts, t.Stops env) ↔ ∀ t ∈ ts, t.Ready env := by
  induction h with
  | nil => simp
  | cons hx _ ih => simp only [List.forall_mem_cons, transition_stops_iff hx, ih]

def repeatedError : Observation := ⟨"repeated_error", 5, "scope_auto", "raytsystem_kernel"⟩

def lostStore : PlatformStore :=
  (((EmergencyCommand.observe repeatedError).prog sampleEnv).play 4 [0, 0] .empty).2

def repeatedStore : PlatformStore :=
  (((EmergencyCommand.observe repeatedError).prog sampleEnv).play 9 [0, 0] lostStore).2

def lostObservation : Transition := ⟨.observe repeatedError, .crashed, .empty, lostStore⟩

def repeatedObservation : Transition :=
  ⟨.observe repeatedError, .returned (), lostStore, repeatedStore⟩

theorem repeated_goes_on :
    (((EmergencyCommand.observe repeatedError).prog sampleEnv).play 9 [0, 0] lostStore).1.value? =
      some () ∧ repeatedStore.runtimeStopped = false := by
  decide +kernel

theorem interrupted_run :
    Run sampleEnv .empty [lostObservation, repeatedObservation] repeatedStore := by
  have hlost : Exec ((EmergencyCommand.observe repeatedError).prog sampleEnv) .empty .crashed
      lostStore := exec_play_crashed 4 [0, 0] _ PlatformStore.empty
  have hrepeated : Exec ((EmergencyCommand.observe repeatedError).prog sampleEnv) lostStore
      (.returned ()) repeatedStore := exec_play_returned repeated_goes_on.1
  have hlast : Run sampleEnv repeatedObservation.before [repeatedObservation] repeatedStore :=
    .cons hrepeated (.nil repeatedStore)
  exact .cons (t := lostObservation) hlost hlast

theorem repeated_trips : repeatedObservation.Trips sampleEnv repeatedError :=
  ⟨rfl, rfl, 5, rfl, by decide⟩

/-- The repeated observation is tripped and returns, and the runtime goes on. -/
theorem interrupted_opening_ignored :
    ∃ ts s', Run sampleEnv .empty ts s' ∧ ∃ t ∈ ts, ∃ o, t.Trips sampleEnv o ∧
      t.after.runtimeStopped = false := by
  have hmem : repeatedObservation ∈ [lostObservation, repeatedObservation] := by simp
  exact ⟨_, _, interrupted_run, repeatedObservation, hmem, repeatedError, repeated_trips,
    repeated_goes_on.2⟩

/-- An observation is lost and made again. -/
theorem interrupted_stops_iff :
    (∀ t ∈ [lostObservation, repeatedObservation], t.Stops sampleEnv) ↔
      ∀ t ∈ [lostObservation, repeatedObservation], t.Ready sampleEnv :=
  run_stops_iff interrupted_run

end RaytSystem.Emergency
