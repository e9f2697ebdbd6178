import RaytSystem.BreakerRuns
import RaytSystem.ProgramAccess

/-! How a circuit breaker closes over a run of calls, each one ended in any way: by hand, or once
by itself. -/
namespace Interleaving
variable {W L E α : Type}

theorem ensures_does {C : W → Prop} {p : Prog W L E α} {w : W} (h : p.Does fun _ w w' => C w → C w')
    (hC : C w) : Ensures (sequential L C) p (fun _ => C) w := by
  induction p generalizing w with
  | pure a => exact hC
  | fail e => trivial
  | act l f k ih =>
    rintro w' hC' rfl -
    exact ⟨h.1 _ hC', trivial, ih _ (h.2 _) (h.1 _ hC')⟩
  | choose input k ih => exact fun b => ih b (h b) hC

end Interleaving

namespace RaytSystem.Emergency
open PyText Interleaving
attribute [local irreducible] wp Prog.Does

section

def Moves (env : EmergencyEnv) (id : String) (prior : Option (StoredRecord CircuitBreaker)) :
    EmergencyCommand → Option (StoredRecord CircuitBreaker) → Prop
  | .observe o, next => o.breakerId env = id ∧ ∃ threshold now record breaker,
      (observedBreaker env o threshold prior now).validate = some breaker ∧
        next = some record ∧ record.payload = breaker ∧ record.state = breaker.state.value
  | .closeBreaker breakerId _ _ _, next => breakerId = id ∧ ∃ held now record breaker,
      prior = some held ∧ (closedBreaker held now).validate = some breaker ∧
        next = some record ∧ record.payload = breaker ∧ record.state = breaker.state.value
  | _, _ => False

def Moved (env : EmergencyEnv) (id : String) (prior : Option (StoredRecord CircuitBreaker))
    (command : EmergencyCommand) (s : PlatformStore) : Prop :=
  s.breakers.get id = prior ∨ Moves env id prior command (s.breakers.get id)

variable {env : EmergencyEnv} {id : String}

abbrev KeepsBreakers {α : Type} (p : EmergencyProg α) : Prop :=
  p.Does fun _ s s' => s'.breakers = s.breakers

theorem keepsBreakers_appendEvent {event : AuditEvent} : KeepsBreakers (appendEvent event) := by
  unfold appendEvent
  apply Prog.does_bind Prog.does_require
  intro _
  exact Prog.does_set fun _ => rfl

variable {expectedRevision : Option Nat}

theorem keepsBreakers_appendEmergency {payload : EmergencyState} {state : String}
    {fault : EmergencyFault} :
    KeepsBreakers (appendEmergency payload state expectedRevision fault) := by
  unfold appendEmergency
  apply Prog.does_bind Prog.does_any
  intro createdAt
  apply Prog.does_attempt fun _ => rfl
  intro s _ s' h
  split at h <;> cases h
  rfl

variable {request : EmergencyRequest}

theorem keepsBreakers_storeReceipt {scope : ReceiptScope} {key : String}
    {receipt : EmergencyReceipt} : KeepsBreakers (storeReceipt env scope key request receipt) := by
  unfold storeReceipt
  apply Prog.does_bind Prog.does_require
  intro _
  apply Prog.does_attempt fun _ => rfl
  intro s _ s' h
  split at h
  · cases h
    rfl
  · split at h <;> cases h
    rfl

theorem keepsBreakers_idempotentReceipt {scope : ReceiptScope} {key : String} :
    KeepsBreakers (idempotentReceipt env scope key request) := by
  unfold idempotentReceipt
  apply Prog.does_bind Prog.does_require
  intro _
  apply Prog.does_attempt fun _ => rfl
  intro s _ s' h
  split at h
  · cases h
    rfl
  · split at h <;> cases h
    rfl

theorem keepsBreakers_activate {actions : List EmergencyAction} {reason actorId key : String}
    {approvalId : Option String} :
    KeepsBreakers (activate env actions reason actorId key approvalId) := by
  unfold activate
  apply Prog.does_bind Prog.does_require
  intro _
  apply Prog.does_bind Prog.does_require
  intro _
  apply Prog.does_bind keepsBreakers_idempotentReceipt
  intro stored
  cases stored with
  | some receipt => exact Prog.does_pure _
  | none =>
    unfold activateFresh emergencyHead
    apply Prog.does_bind (Prog.does_get fun _ => rfl)
    intro prior
    apply Prog.does_bind Prog.does_any
    intro now
    apply Prog.does_bind Prog.does_ofOption
    intro state
    apply Prog.does_bind keepsBreakers_appendEmergency
    intro _
    apply Prog.does_bind keepsBreakers_appendEvent
    intro _
    apply Prog.does_bind keepsBreakers_storeReceipt
    intro _
    exact Prog.does_pure _

theorem keepsBreakers_recover {r : RecoveryRequest} : KeepsBreakers (recover env r) := by
  unfold recover
  apply Prog.does_bind Prog.does_require
  intro _
  apply Prog.does_bind Prog.does_require
  intro _
  apply Prog.does_bind Prog.does_any
  intro approved
  apply Prog.does_bind Prog.does_require
  intro _
  apply Prog.does_bind keepsBreakers_idempotentReceipt
  intro stored
  cases stored with
  | some receipt => exact Prog.does_pure _
  | none =>
    unfold recoverFresh emergencyHead
    apply Prog.does_bind (Prog.does_get fun _ => rfl)
    intro prior
    apply Prog.does_bind (Prog.does_get fun _ => rfl)
    intro securityOpen
    apply Prog.does_bind Prog.does_ofExcept
    intro record
    apply Prog.does_bind Prog.does_any
    intro now
    apply Prog.does_bind Prog.does_ofOption
    intro state
    apply Prog.does_bind keepsBreakers_appendEmergency
    intro _
    apply Prog.does_bind keepsBreakers_appendEvent
    intro _
    apply Prog.does_bind keepsBreakers_storeReceipt
    intro _
    exact Prog.does_pure _

variable {s : PlatformStore}

theorem ensures_keepsBreakers {α : Type} {p : EmergencyProg α} {C : PlatformStore → Prop}
    (hC : ∀ s s' : PlatformStore, s'.breakers = s.breakers → C s → C s') (h : KeepsBreakers p)
    (hs : C s) : Ensures (sequential Unit C) p (fun _ => C) s :=
  ensures_does (Prog.does_mono h fun _ w w' hkeep => hC w w' hkeep) hs

theorem moved_frame {prior : Option (StoredRecord CircuitBreaker)} {command : EmergencyCommand}
    (s s' : PlatformStore) (hkeep : s'.breakers = s.breakers)
    (h : Moved env id prior command s) : Moved env id prior command s' := by
  unfold Moved at h ⊢
  rwa [hkeep]

theorem append_other {ρ : Type} {heads heads' : Heads ρ} {recordId other : String} {payload : ρ}
    {state : String} {createdAt : Time}
    (h : heads.append recordId payload state expectedRevision createdAt = some heads')
    (hother : other ≠ recordId) : heads'.get other = heads.get other := by
  unfold Heads.append at h
  dsimp only at h
  split at h
  · cases h
    rw [PyDict.get_set, if_neg hother]
  · cases h

theorem ensures_observe_moved {o : Observation} :
    Ensures (sequential Unit (Moved env id (s.breakers.get id) (.observe o)))
      (observeBreaker env o) (fun _ => Moved env id (s.breakers.get id) (.observe o)) s := by
  have hstart : Moved env id (s.breakers.get id) (.observe o) s := Or.inl rfl
  unfold observeBreaker breakerHead
  apply ensures_guard
  intro _
  apply ensures_bind
  apply ensures_ofOption
  intro threshold _
  apply ensures_bind
  apply ensures_get fun _ _ => trivial
  rintro _ _ rfl _
  apply ensures_bind
  apply ensures_any
  intro now
  apply ensures_bind
  apply ensures_ofOption
  intro breaker hbreaker
  apply ensures_bind
  apply ensures_appendBreaker
  intro createdAt breakers happend
  have hmoved : Moved env id (s.breakers.get id) (.observe o) {s with breakers} := by
    by_cases hid : o.breakerId env = id
    · obtain ⟨record, hget, hpayload, hstate⟩ := append_get happend
      rw [hid] at hget hbreaker
      right
      refine ⟨hid, threshold, now, record, breaker, hbreaker, hget, hpayload, hstate⟩
    · left
      exact append_other happend (Ne.symm hid)
  refine ⟨hmoved, ?_⟩
  apply ensures_bind
  apply ensures_mono (ensures_keepsBreakers moved_frame keepsBreakers_appendEvent hmoved)
  intro _ s'' hs''
  split
  · apply ensures_bind
    exact ensures_mono (ensures_keepsBreakers moved_frame keepsBreakers_activate hs'')
      fun _ _ h => ensures_pure h
  · exact ensures_pure hs''

theorem ensures_close_moved {breakerId approvalId reason actorId : String} :
    Ensures (sequential Unit (Moved env id (s.breakers.get id)
        (.closeBreaker breakerId approvalId reason actorId)))
      (closeBreaker env breakerId approvalId reason actorId)
      (fun _ => Moved env id (s.breakers.get id)
        (.closeBreaker breakerId approvalId reason actorId)) s := by
  have hstart : Moved env id (s.breakers.get id)
      (.closeBreaker breakerId approvalId reason actorId) s := Or.inl rfl
  unfold closeBreaker breakerHead
  apply ensures_guard
  intro _
  apply ensures_guard
  intro _
  apply ensures_bind
  apply ensures_any
  intro approved
  apply ensures_guard
  intro _
  apply ensures_guard
  intro _
  apply ensures_bind
  apply ensures_get fun _ _ => trivial
  rintro _ _ rfl _
  apply ensures_bind
  apply ensures_ofOption
  intro held hheld
  apply ensures_bind
  apply ensures_any
  intro now
  apply ensures_bind
  apply ensures_ofOption
  intro breaker hbreaker
  apply ensures_bind
  apply ensures_appendBreaker
  intro createdAt breakers happend
  have hmoved : Moved env id (s.breakers.get id)
      (.closeBreaker breakerId approvalId reason actorId) {s with breakers} := by
    by_cases hid : breakerId = id
    · obtain ⟨record, hget, hpayload, hstate⟩ := append_get happend
      rw [hid] at hget hheld
      right
      exact ⟨hid, held, now, record, breaker, hheld, hbreaker, hget, hpayload, hstate⟩
    · left
      exact append_other happend (Ne.symm hid)
  refine ⟨hmoved, ?_⟩
  apply ensures_bind
  exact ensures_mono (ensures_keepsBreakers moved_frame keepsBreakers_appendEvent hmoved)
    fun _ _ h => ensures_pure h

theorem transition_moved {t : Transition} (hx : Exec (t.command.prog env) t.before t.outcome t.after)
    (id : String) : Moved env id (t.before.breakers.get id) t.command t.after := by
  obtain ⟨command, outcome, s, s'⟩ := t
  have hstart : Moved env id (s.breakers.get id) command s := Or.inl rfl
  refine exec_keeps (Q := fun _ => Moved env id (s.breakers.get id) command) (X := fun _ _ => True) ?_
    hstart hx
  cases command with
  | activate actions reason actorId key approvalId =>
    apply ensures_bind
    exact ensures_mono (ensures_keepsBreakers moved_frame keepsBreakers_activate hstart)
      fun _ _ h => ensures_pure h
  | recover request =>
    apply ensures_bind
    exact ensures_mono (ensures_keepsBreakers moved_frame keepsBreakers_recover hstart)
      fun _ _ h => ensures_pure h
  | observe o =>
    apply ensures_bind
    exact ensures_mono ensures_observe_moved fun _ _ h => ensures_pure h
  | closeBreaker breakerId approvalId reason actorId =>
    apply ensures_bind
    exact ensures_mono ensures_close_moved fun _ _ h => ensures_pure h
end

section
variable {env : EmergencyEnv} {id : String} {prior next : Option (StoredRecord CircuitBreaker)}

def SoundHead (head : Option (StoredRecord CircuitBreaker)) : Prop :=
  ∀ record, head = some record → record.state = record.payload.state.value ∧
    (record.payload.state = .halfOpen → 1 ≤ record.payload.automaticRecoveriesUsed)

def spare (head : Option (StoredRecord CircuitBreaker)) : Nat :=
  head.elim 1 fun record =>
    if record.payload.state = .halfOpen ∨ record.payload.automaticRecoveriesUsed = 0 then 1 else 0

def closing (prior next : Option (StoredRecord CircuitBreaker)) : Bool :=
  prior.any (·.state != "closed") && next.any (·.state == "closed")

theorem spare_le_one (head : Option (StoredRecord CircuitBreaker)) : spare head ≤ 1 := by
  unfold spare
  cases head with
  | none => exact le_rfl
  | some record =>
    simp only [Option.elim_some]
    split <;> omega

theorem closing_self : closing prior prior = false := by
  cases prior with
  | none => rfl
  | some record => simp [closing]

theorem value_closed {state : CircuitBreakerState} : state.value = "closed" ↔ state = .closed := by
  cases state <;> decide

variable {o : Observation}

theorem observed_next (h : Moves env id prior (.observe o) next) :
    ∃ tripped record, next = some record ∧ record.state = record.payload.state.value ∧
      (record.payload.state, record.payload.automaticRecoveriesUsed) =
        nextState o.trigger tripped prior := by
  obtain ⟨-, threshold, now, record, breaker, hbreaker, hnext, hpayload, hstate⟩ := h
  have hmapped := CircuitBreaker.validate_some hbreaker
  refine ⟨decide ((threshold : Int) ≤ o.observed), record, hnext, ?_, ?_⟩
  · rw [hstate, hpayload]
  · rw [hpayload, hmapped]
    rfl

theorem closed_next {breakerId approvalId reason actorId : String}
    (h : Moves env id prior (.closeBreaker breakerId approvalId reason actorId) next) :
    ∃ record, next = some record ∧ record.state = record.payload.state.value ∧
      record.payload.state = .closed := by
  obtain ⟨-, held, now, record, breaker, -, hbreaker, hnext, hpayload, hstate⟩ := h
  have hmapped := CircuitBreaker.validate_some hbreaker
  refine ⟨record, hnext, ?_, ?_⟩
  · rw [hstate, hpayload]
  · rw [hpayload, hmapped]
    rfl

theorem nextState_halfOpen {trigger : String} {tripped : Bool} {used : Nat}
    (h : nextState trigger tripped prior = (.halfOpen, used)) : 1 ≤ used := by
  unfold nextState at h
  dsimp only at h
  split at h
  · cases h
  · split at h
    · split at h
      · cases h
        omega
      · cases h
    · cases h

theorem moves_sound {command : EmergencyCommand} (h : Moves env id prior command next) :
    SoundHead next := by
  intro record hrecord
  cases command with
  | activate => exact h.elim
  | recover => exact h.elim
  | observe o =>
    obtain ⟨tripped, written, hnext, hstate, hpair⟩ := observed_next h
    obtain rfl := Option.some.inj (hrecord.symm.trans hnext)
    refine ⟨hstate, fun hhalf => ?_⟩
    rw [hhalf] at hpair
    exact nextState_halfOpen hpair.symm
  | closeBreaker =>
    obtain ⟨written, hnext, hstate, hclosed⟩ := closed_next h
    obtain rfl := Option.some.inj (hrecord.symm.trans hnext)
    refine ⟨hstate, fun hhalf => ?_⟩
    rw [hclosed] at hhalf
    cases hhalf

theorem observed_secure (h : Moves env id prior (.observe o) next)
    (htrigger : o.trigger ∈ securityTriggers) (hopen : prior.any (·.state == "open") = true) :
    next.any (·.state == "open") = true := by
  obtain ⟨tripped, record, rfl, hstate, hpair⟩ := observed_next h
  have hopened : record.payload.state = .opened := by
    have hnone : ¬(prior.elim 0 (·.payload.automaticRecoveriesUsed)) < recoveryLimit o.trigger := by
      simp [recoveryLimit, htrigger]
    unfold nextState at hpair
    dsimp only at hpair
    rw [if_neg hnone, if_pos hopen] at hpair
    split at hpair <;> exact congrArg Prod.fst hpair
  simp [hstate, hopened, CircuitBreakerState.value]

theorem spare_kept {record : StoredRecord CircuitBreaker}
    (hstate : record.payload.state ≠ .halfOpen)
    (hused : record.payload.automaticRecoveriesUsed =
      prior.elim 0 (·.payload.automaticRecoveriesUsed)) : spare (some record) ≤ spare prior := by
  cases prior with
  | none => exact spare_le_one _
  | some held =>
    simp only [Option.elim_some] at hused
    simp only [spare, Option.elim_some, hstate, false_or, hused]
    split
    next h => simp [h]
    next => exact Nat.zero_le _

theorem observed_spare (h : Moves env id prior (.observe o) next)
    (htrigger : o.trigger ∉ securityTriggers) (hsound : SoundHead prior) :
    (closing prior next).toNat + spare next ≤ spare prior := by
  have hlimit : recoveryLimit o.trigger = 1 := if_neg htrigger
  obtain ⟨tripped, record, rfl, hstate, hpair⟩ := observed_next h
  have hstays : record.payload.state ≠ .closed → closing prior (some record) = false := by
    intro hne
    have hne : record.state ≠ "closed" := by rwa [hstate, Ne, value_closed]
    simp [closing, hne]
  have hopened : record.payload.state = .opened → record.payload.automaticRecoveriesUsed =
      prior.elim 0 (·.payload.automaticRecoveriesUsed) →
      (closing prior (some record)).toNat + spare (some record) ≤ spare prior := by
    intro hopen hused
    rw [hstays (by rw [hopen]; nofun)]
    simpa using spare_kept (by rw [hopen]; nofun) hused
  unfold nextState at hpair
  dsimp only at hpair
  split at hpair
  · exact hopened (congrArg Prod.fst hpair) (congrArg Prod.snd hpair)
  · split at hpair
    next hany =>
      split at hpair
      next hleft =>
        -- the probe: the recovery is used, and the closing is still to come
        have hhalf : record.payload.state = .halfOpen := congrArg Prod.fst hpair
        rw [hstays (by rw [hhalf]; nofun)]
        have hspare : spare prior = 1 := by
          cases prior with
          | none => rfl
          | some held =>
            rw [hlimit] at hleft
            simp only [Option.elim_some] at hleft
            have hzero : held.payload.automaticRecoveriesUsed = 0 := by omega
            simp [spare, hzero]
        rw [hspare]
        simpa using spare_le_one (some record)
      next => exact hopened (congrArg Prod.fst hpair) (congrArg Prod.snd hpair)
    next hany =>
      have hclosed : record.payload.state = .closed := congrArg Prod.fst hpair
      have hused := congrArg Prod.snd hpair
      have hkept := spare_kept (by rw [hclosed]; nofun) hused
      cases prior with
      | none => simpa [closing] using hkept
      | some held =>
        obtain ⟨hheld, hhalf⟩ := hsound held rfl
        cases hcase : held.payload.state with
        | opened => simp [hheld, hcase, CircuitBreakerState.value] at hany
        | closed =>
          have hno : closing (some held) (some record) = false := by
            simp [closing, hheld, hcase, CircuitBreakerState.value]
          rw [hno]
          simpa using hkept
        | halfOpen =>
          -- the recovery was used when the breaker became half-open
          have hone := hhalf hcase
          simp only [Option.elim_some] at hused
          have hnone : spare (some record) = 0 := by
            have hpos : ¬record.payload.automaticRecoveriesUsed = 0 := by omega
            simp [spare, hclosed, hpos]
          have hall : spare (some held) = 1 := by simp [spare, hcase]
          rw [hnone, hall]
          exact Bool.toNat_le _
end

section
variable {env : EmergencyEnv} {id : String} {s s' : PlatformStore} {ts : List Transition}

def Transition.closesByHand (id : String) (t : Transition) : Bool :=
  (match t.command with
    | .closeBreaker breakerId _ _ _ => breakerId == id
    | _ => false) && decide (t.after.breakers.get id ≠ t.before.breakers.get id)

def Transition.closesItself (id : String) (t : Transition) : Bool :=
  !t.closesByHand id && closing (t.before.breakers.get id) (t.after.breakers.get id)

def Owned (env : EmergencyEnv) (id trigger : String) (ts : List Transition) : Prop :=
  ∀ t ∈ ts, ∀ o, t.command = .observe o → o.breakerId env = id → o.trigger = trigger

variable {t : Transition}

theorem transition_sound (hx : Exec (t.command.prog env) t.before t.outcome t.after)
    (hsound : SoundHead (t.before.breakers.get id)) : SoundHead (t.after.breakers.get id) := by
  rcases transition_moved hx id with hsame | hmoves
  · rwa [hsame]
  · exact moves_sound hmoves

variable {trigger : String}

theorem transition_spare (hx : Exec (t.command.prog env) t.before t.outcome t.after)
    (htrigger : trigger ∉ securityTriggers) (howned : Owned env id trigger [t])
    (hsound : SoundHead (t.before.breakers.get id)) (hhand : t.closesByHand id = false) :
    (t.closesItself id).toNat + spare (t.after.breakers.get id) ≤
      spare (t.before.breakers.get id) := by
  rw [Transition.closesItself, hhand, Bool.not_false, Bool.true_and]
  by_cases hsame : t.after.breakers.get id = t.before.breakers.get id
  · rw [hsame, closing_self]
    simp
  · have hmoves := (transition_moved hx id).resolve_left hsame
    cases hcommand : t.command with
    | activate => rw [hcommand] at hmoves; exact hmoves.elim
    | recover => rw [hcommand] at hmoves; exact hmoves.elim
    | observe o =>
      rw [hcommand] at hmoves
      have ho := howned t (List.mem_singleton_self t) o hcommand hmoves.1
      exact observed_spare hmoves (by rwa [ho]) hsound
    | closeBreaker breakerId approvalId reason actorId =>
      rw [hcommand] at hmoves
      simp [Transition.closesByHand, hcommand, hmoves.1, hsame] at hhand

theorem transition_secure (hx : Exec (t.command.prog env) t.before t.outcome t.after)
    (htrigger : trigger ∈ securityTriggers) (howned : Owned env id trigger [t])
    (hopen : t.before.breakerOpen id = true) :
    t.after.breakerOpen id = true ∨ t.closesByHand id = true := by
  by_cases hsame : t.after.breakers.get id = t.before.breakers.get id
  · left
    rwa [PlatformStore.breakerOpen, hsame]
  · have hmoves := (transition_moved hx id).resolve_left hsame
    cases hcommand : t.command with
    | activate => rw [hcommand] at hmoves; exact hmoves.elim
    | recover => rw [hcommand] at hmoves; exact hmoves.elim
    | observe o =>
      rw [hcommand] at hmoves
      have ho := howned t (List.mem_singleton_self t) o hcommand hmoves.1
      left
      exact observed_secure hmoves (by rwa [ho]) hopen
    | closeBreaker breakerId approvalId reason actorId =>
      rw [hcommand] at hmoves
      right
      simp [Transition.closesByHand, hcommand, hmoves.1, hsame]

theorem Run.sound (h : Run env s ts s') (hsound : SoundHead (s.breakers.get id)) :
    SoundHead (s'.breakers.get id) := by
  induction h with
  | nil => exact hsound
  | cons hx _ ih => exact ih (transition_sound hx hsound)

theorem Run.split {front back : List Transition} (h : Run env s (front ++ back) s') :
    ∃ between, Run env s front between ∧ Run env between back s' := by
  induction front generalizing s with
  | nil => exact ⟨s, .nil s, h⟩
  | cons t front ih =>
    cases h with
    | cons hx hrest =>
      obtain ⟨between, hfront, hback⟩ := ih hrest
      exact ⟨between, .cons hx hfront, hback⟩

theorem Run.spare (h : Run env s ts s') (htrigger : trigger ∉ securityTriggers)
    (howned : Owned env id trigger ts) (hsound : SoundHead (s.breakers.get id))
    (hhand : ∀ t ∈ ts, t.closesByHand id = false) :
    ts.countP (·.closesItself id) + Emergency.spare (s'.breakers.get id) ≤
      Emergency.spare (s.breakers.get id) := by
  induction h with
  | nil => simp
  | @cons t ts s' hx _ ih =>
    have hstep := transition_spare hx htrigger (fun u hu => howned u (by simp_all)) hsound
      (hhand t List.mem_cons_self)
    have hrest := ih (fun u hu => howned u (List.mem_cons_of_mem _ hu)) (transition_sound hx hsound)
      fun u hu => hhand u (List.mem_cons_of_mem _ hu)
    rw [List.countP_cons]
    cases hitself : t.closesItself id <;> simp_all <;> omega

/-- In a run from an empty store an open security breaker leaves that state only by a manual
closing, and any other breaker closes itself at most once where no manual closing falls between. -/
theorem breaker_closings {env : EmergencyEnv} {ts : List Transition} {s : PlatformStore}
    {id trigger : String} (hrun : Run env .empty ts s) (howned : Owned env id trigger ts) :
    (trigger ∈ securityTriggers → ∀ t ∈ ts, t.before.breakerOpen id = true →
      t.after.breakerOpen id = true ∨ t.closesByHand id = true) ∧
    (trigger ∉ securityTriggers → ∀ front between back, ts = front ++ between ++ back →
      (∀ t ∈ between, t.closesByHand id = false) → between.countP (·.closesItself id) ≤ 1) := by
  constructor
  · intro htrigger t ht hopen
    obtain ⟨front, back, rfl⟩ := List.append_of_mem ht
    obtain ⟨start, -, hrest⟩ := hrun.split
    cases hrest with
    | cons hx _ =>
      apply transition_secure hx htrigger _ hopen
      intro u hu
      obtain rfl := List.mem_singleton.mp hu
      exact howned u ht
  · rintro htrigger front between back rfl hhand
    obtain ⟨later, hfirst, -⟩ := hrun.split
    obtain ⟨start, hfront, hbetween⟩ := hfirst.split
    have hsound : SoundHead (start.breakers.get id) :=
      hfront.sound fun record hrecord => by cases hrecord
    have hspare := hbetween.spare htrigger
      (fun u hu => howned u (by simp [hu])) hsound hhand
    exact le_trans (Nat.le_of_add_right_le hspare) (spare_le_one _)
end

def calmError : Observation := {repeatedError with observed := 0}

def watched (o : Observation) (s : PlatformStore) : PlatformStore :=
  (((EmergencyCommand.observe o).prog sampleEnv).play 20 [0, 0, 0, 0] s).2

def watching (o : Observation) (s : PlatformStore) : Transition :=
  ⟨.observe o, .crashed, s, watched o s⟩

def probedRun : List Transition :=
  [watching repeatedError .empty, watching calmError (watched repeatedError .empty),
    watching calmError (watched calmError (watched repeatedError .empty))]

theorem probedRun_closes : probedRun.map (·.closesItself (repeatedError.breakerId sampleEnv)) =
    [false, false, true] := by
  decide +kernel

/-- The breaker opens, is probed and closes, and each process is lost after its last write. -/
theorem probed_closings :
    probedRun.map (·.closesItself (repeatedError.breakerId sampleEnv)) = [false, false, true] ∧
    probedRun.countP (·.closesItself (repeatedError.breakerId sampleEnv)) ≤ 1 := by
  have hwatched : ∀ o s ts s', Run sampleEnv (watched o s) ts s' →
      Run sampleEnv s (watching o s :: ts) s' :=
    fun o s _ _ h => .cons (t := watching o s) (exec_play_crashed 20 [0, 0, 0, 0] _ s) h
  have hrun : Run sampleEnv .empty probedRun
      (watched calmError (watched calmError (watched repeatedError .empty))) := by
    apply hwatched repeatedError .empty
    apply hwatched calmError (watched repeatedError .empty)
    apply hwatched calmError (watched calmError (watched repeatedError .empty))
    exact .nil _
  have howned : Owned sampleEnv (repeatedError.breakerId sampleEnv) "repeated_error" probedRun := by
    intro t ht o hcommand _
    simp only [probedRun, List.mem_cons, List.not_mem_nil, or_false] at ht
    rcases ht with rfl | rfl | rfl <;> cases hcommand <;> rfl
  have hhand : ∀ t ∈ probedRun,
      t.closesByHand (repeatedError.breakerId sampleEnv) = false := by
    intro t ht
    simp only [probedRun, List.mem_cons, List.not_mem_nil, or_false] at ht
    rcases ht with rfl | rfl | rfl <;> simp [Transition.closesByHand, watching]
  exact ⟨probedRun_closes, (breaker_closings hrun howned).2 (by decide) [] probedRun []
    (by simp) hhand⟩

end RaytSystem.Emergency
