import RaytSystem.EmergencyService

/-! The recovery of the runtime while security breakers are open: the check reads one page of
the open breakers, so a breaker holds the runtime only while few enough newer ones are open. -/
namespace RaytSystem.Emergency
open PyText Interleaving RowListing
attribute [local irreducible] wp

def openBreakers (s : PlatformStore) : List (String × StoredRecord CircuitBreaker) :=
  s.breakers.entries.filter fun row => row.2.state == "open"

def SecurityBreakerOpen (s : PlatformStore) : Prop :=
  ∃ row ∈ openBreakers s, row.2.payload.securityBreaker = true

def SecurityBreakerListed (s : PlatformStore) : Prop :=
  ∃ row ∈ openBreakers s, row.2.payload.securityBreaker = true ∧
    rank listingKey (openBreakers s) row < 200

theorem listHeads_open (s : PlatformStore) : listHeads s.breakers (some "open") 200 0 =
      page listingKey (openBreakers s) 200 0 := rfl

variable {s : PlatformStore}

theorem openSecurityBreakers_iff : openSecurityBreakers s = true ↔ SecurityBreakerListed s := by
  have hmem : ∀ row, row ∈ listHeads s.breakers (some "open") 200 0 ↔
      row ∈ openBreakers s ∧ rank listingKey (openBreakers s) row < 200 := by
    intro row
    rw [listHeads_open]
    exact mem_page listingKey (nodup_listingKey s.breakers _)
  simp only [openSecurityBreakers, List.any_eq_true, Bool.and_eq_true, hmem]
  constructor
  · rintro ⟨row, ⟨hrow, hrank⟩, hsecurity, _⟩
    exact ⟨row, hrow, hsecurity, hrank⟩
  · rintro ⟨row, hrow, hsecurity, hrank⟩
    exact ⟨row, ⟨hrow, hrank⟩, hsecurity, (List.mem_filter.mp hrow).2⟩

def Recoverable (env : EmergencyEnv) (s : PlatformStore) (r : RecoveryRequest) : Prop :=
  env.enabled = true ∧ r.approvalId ≠ "" ∧ isToken r.idempotencyKey = true ∧
    s.receipts.get (.emergencyRecover, r.idempotencyKey) = none ∧
    ∃ record, s.emergency.get emergencyGlobal = some record ∧ record.state = "active" ∧
      (∀ a ∈ r.actions, a ∈ record.payload.activeActions) ∧
      ∃ now, (recoveredState env record r now).validate ≠ none

def RecoveryRefused (s : PlatformStore) (r : RecoveryRequest)
    (o : Outcome EmergencyFault EmergencyReceipt) (s' : PlatformStore) : Prop :=
  s'.emergency = s.emergency ∧ ∀ receipt, o = .returned receipt →
    ∃ sha256, s.receipts.get (.emergencyRecover, r.idempotencyKey) = some (sha256,receipt)

variable {record : StoredRecord EmergencyState}

theorem recoveryChecks_ok {prior : Option (StoredRecord EmergencyState)} {securityOpen : Bool}
    {r : RecoveryRequest} : recoveryChecks prior securityOpen r = .ok record ↔
      prior = some record ∧ record.state = "active" ∧
        (∀ a ∈ r.actions, a ∈ record.payload.activeActions) ∧
        ¬(securityOpen = true ∧ .disableRuntimeExecution ∈ r.actions) := by
  cases prior with
  | none => simp [recoveryChecks]
  | some head =>
    simp only [recoveryChecks, Option.some.injEq]
    constructor
    · intro h
      split at h
      · cases h
      next hstate =>
        split at h
        · cases h
        next hactions =>
          split at h
          · cases h
          next hsecurity =>
            cases h
            exact ⟨rfl, not_not.mp hstate, not_not.mp hactions, hsecurity⟩
    · rintro ⟨rfl, hstate, hactions, hsecurity⟩
      rw [if_neg (not_not.mpr hstate), if_neg (not_not.mpr hactions), if_neg hsecurity]

def KeepsEmergency (s s' : PlatformStore) : Prop := s'.emergency = s.emergency

section
variable {env : EmergencyEnv} {s : PlatformStore} {C : PlatformStore → Prop}

theorem wp_idempotentReceipt {scope : ReceiptScope} {key : String} {request : EmergencyRequest}
    {Q : Option EmergencyReceipt → PlatformStore → Prop} {X : EmergencyFault → PlatformStore → Prop}
    (hC : C s) (hX : ∀ e, X e s)
    (hnone : isToken key = true → s.receipts.get (scope,key) = none → Q none s)
    (hsome : ∀ sha256 receipt, s.receipts.get (scope,key) = some (sha256,receipt) →
      Q (some receipt) s) :
    wp (sequential Unit C) (idempotentReceipt env scope key request) Q X s := by
  unfold idempotentReceipt
  rw [wp_seq]
  apply wp_require
  · intro htoken
    apply wp_sequential_attempt hC
    · intro receipt s' h
      split at h
      next hget =>
        cases h
        exact ⟨hC, hnone htoken hget⟩
      next sha256 stored hget =>
        split at h
        · cases h
          exact ⟨hC, hsome sha256 stored hget⟩
        · cases h
    · exact fun e _ => hX e
  · exact fun _ => hX _

theorem recover_refused {r : RecoveryRequest} (hdisable : .disableRuntimeExecution ∈ r.actions)
    (h : Recoverable env s r → openSecurityBreakers s = true) :
    wp (sequential Unit (KeepsEmergency s)) (recover env r)
      (fun receipt s' => RecoveryRefused s r (.returned receipt) s')
      (fun e s' => RecoveryRefused s r (.raised e) s') s := by
  have hkept : KeepsEmergency s s := rfl
  have hraised : ∀ e, RecoveryRefused s r (.raised e) s := fun e => ⟨rfl, fun _ he => by cases he⟩
  unfold recover
  rw [wp_seq]
  refine wp_require _ (fun henabled => ?_) fun _ => hraised _
  rw [wp_seq]
  refine wp_require _ (fun happroval => ?_) fun _ => hraised _
  rw [wp_seq, wp_any]
  intro approved
  rw [wp_seq]
  refine wp_require _ (fun _ => ?_) fun _ => hraised _
  rw [wp_seq]
  refine wp_idempotentReceipt hkept hraised (fun htoken hfresh => ?_) fun sha256 receipt h => ?_
  · dsimp only
    unfold recoverFresh emergencyHead
    rw [wp_seq]
    refine wp_sequential_get hkept ?_
    rw [wp_seq]
    refine wp_sequential_get hkept ?_
    rw [wp_seq]
    refine wp_ofExcept _ (fun record hrecord => ?_) fun _ _ => hraised _
    obtain ⟨hhead, hactive, hactions, hsecurity⟩ := recoveryChecks_ok.mp hrecord
    rw [wp_seq, wp_any]
    intro now
    rw [wp_seq]
    refine wp_ofOption _ (fun state hstate => ?_) fun _ => hraised _
    -- a request that gets here passes every other check, so a security breaker is listed
    have hvalid : (recoveredState env record r now).validate ≠ none := by
      rw [hstate]
      simp
    exact absurd ⟨h ⟨henabled, happroval, htoken, hfresh, record, hhead, hactive, hactions, now,
      hvalid⟩, hdisable⟩ hsecurity
  · dsimp only
    rw [Prog.pure_eq, wp_pure]
    refine ⟨rfl, fun receipt' he => ?_⟩
    cases he
    exact ⟨sha256, h⟩
end

theorem append_some {ρ : Type} {heads : Heads ρ} {recordId : String} {record : StoredRecord ρ}
    (h : heads.get recordId = some record) (payload : ρ) (state : String) (createdAt : Time) :
    heads.append recordId payload state (some record.revision) createdAt =
      some (heads.set recordId ⟨record.revision + 1, payload, state, createdAt⟩) := by
  simp [Heads.append, h]

theorem exec_emergencyHead (s : PlatformStore) :
    Exec emergencyHead s (.returned (s.emergency.get emergencyGlobal)) s := exec_get s

theorem exec_idempotentReceipt {env : EmergencyEnv} {scope : ReceiptScope} {key : String}
    (request : EmergencyRequest) (htoken : isToken key = true)
    (h : s.receipts.get (scope,key) = none) :
    Exec (idempotentReceipt env scope key request) s (.returned none) s := by
  apply exec_bind (exec_require htoken)
  apply exec_attempt
  rw [h]

theorem exec_appendEmergency (h : s.emergency.get emergencyGlobal = some record)
    (payload : EmergencyState) (state : String) (fault : EmergencyFault) (createdAt : Time) :
    Exec (appendEmergency payload state (some record.revision) fault) s (.returned ())
      {s with
        emergency := s.emergency.set emergencyGlobal
          ⟨record.revision + 1, payload, state, createdAt⟩} := by
  apply exec_bind (exec_any createdAt s)
  apply exec_attempt
  rw [append_some h]

theorem recover_writes {env : EmergencyEnv} {r : RecoveryRequest} (h : Recoverable env s r)
    (hpage : openSecurityBreakers s = false) :
    ∃ o s', Exec (recover env r) s o s' ∧ s'.emergency ≠ s.emergency := by
  obtain ⟨henabled, happroval, htoken, hfresh, record, hhead, hactive, hactions, now, hvalid⟩ := h
  obtain ⟨state, hstate⟩ := Option.ne_none_iff_exists'.mp hvalid
  have hchecks : recoveryChecks (s.emergency.get emergencyGlobal) (openSecurityBreakers s) r =
      .ok record :=
    recoveryChecks_ok.mpr ⟨hhead, hactive, hactions, by simp [hpage]⟩
  let finalState := if state.activeActions = [] then "recovered" else "active"
  let head : StoredRecord EmergencyState := ⟨record.revision + 1, state, finalState, 0⟩
  refine ⟨.crashed, {s with emergency := s.emergency.set emergencyGlobal head}, ?_, ?_⟩
  · unfold recover
    apply exec_bind (exec_require henabled)
    apply exec_bind (exec_require happroval)
    apply exec_bind (exec_any true s)
    apply exec_bind (exec_require rfl)
    apply exec_bind (exec_idempotentReceipt r.request htoken hfresh)
    apply exec_bind (exec_emergencyHead s)
    apply exec_bind (exec_get s)
    apply exec_bind (exec_ofExcept hchecks)
    apply exec_bind (exec_any now s)
    apply exec_bind (exec_ofOption hstate)
    exact exec_bind (exec_appendEmergency hhead state _ _ 0) (.crash _ _)
  · -- the head has a new revision
    intro he
    have hnew : some head = some record := by
      have hget := congrArg (fun h : Heads EmergencyState => h.get emergencyGlobal) he
      dsimp only at hget
      rwa [PyDict.get_set, if_pos rfl, hhead] at hget
    have hrevision : record.revision + 1 = record.revision :=
      congrArg StoredRecord.revision (Option.some.inj hnew)
    omega

/-- While a security breaker is open, the recovery of the runtime is refused exactly when the
request fails another check or an open security breaker is among the 200 newest open ones. -/
theorem runtime_recovery_refused (env : EmergencyEnv) (s : PlatformStore) (r : RecoveryRequest)
    (hdisable : .disableRuntimeExecution ∈ r.actions) :
    (SecurityBreakerOpen s → ∀ o s', Exec (recover env r) s o s' → RecoveryRefused s r o s') ↔
      (SecurityBreakerOpen s → Recoverable env s r → SecurityBreakerListed s) := by
  constructor
  · intro hrefused hopen hrecoverable
    by_contra hlisted
    have hpage : openSecurityBreakers s = false := by
      rw [← Bool.not_eq_true, openSecurityBreakers_iff]
      exact hlisted
    obtain ⟨o, s', hx, hchanged⟩ := recover_writes hrecoverable hpage
    exact hchanged (hrefused hopen o s' hx).1
  · intro h hopen o s' hx
    have hguard : Recoverable env s r → openSecurityBreakers s = true :=
      fun hr => openSecurityBreakers_iff.mpr (h hopen hr)
    have hmeets := exec_sound (recover_refused hdisable hguard) rfl hx
    cases o with
    | returned receipt => exact hmeets
    | raised e => exact hmeets
    | crashed => exact ⟨hmeets, fun _ he => by cases he⟩

theorem sampleDigest_valid : isSha256 (String.ofList (List.replicate 64 'a')) = true := by
  decide +kernel

def sampleDigest : Sha256 := ⟨String.ofList (List.replicate 64 'a'), sampleDigest_valid⟩

def sampleEnv : EmergencyEnv where
  enabled := true
  circuitBreakers := (PyDict.empty.set "protected_path" 1).set "repeated_error" 5
  requestSha256 := fun _ => sampleDigest
  stateSha256 := fun _ => sampleDigest
  breakerSha256 := fun _ _ => sampleDigest
  openingSha256 := fun _ _ _ => sampleDigest

def crowdedId (i : Nat) : String := String.ofList ('b' :: 'r' :: List.replicate i 'a')

def crowdedBreaker (i : Nat) : CircuitBreaker where
  breakerId := crowdedId i
  scope := "scope_ops"
  trigger := if i = 0 then "protected_path" else "repeated_error"
  state := .opened
  threshold := if i = 0 then 1 else 5
  observed := 5
  reason := some "opened"
  automaticRecoveryLimit := if i = 0 then 0 else 1
  securityBreaker := decide (i = 0)
  revision := 1
  openedAt := some 0
  updatedAt := 0
  automaticRecoveriesUsed := 0

def crowdedRow (i : Nat) : String × StoredRecord CircuitBreaker :=
  (crowdedId i, ⟨1, crowdedBreaker i, "open", if i = 0 then 0 else 1000⟩)

theorem crowdedId_injective : Function.Injective crowdedId := by
  intro i j h
  have hlength := congrArg (fun t => t.toList.length) h
  simpa [crowdedId] using hlength

theorem crowdedRows_unique :
    (((List.range 201).map crowdedRow).map Prod.fst).Nodup := by
  rw [List.map_map]
  exact List.nodup_range.map crowdedId_injective

def stoppedState : EmergencyState where
  emergencyStateId := "emergency_stop"
  activeActions := [.disableRuntimeExecution]
  reason := "Circuit breaker opened: protected_path"
  activatedBy := "raytsystem_kernel"
  approvalId := none
  securityLock := true
  revision := 1
  activatedAt := 0
  recoveredAt := none
  recoveredBy := none
  actionActivatedAt := [(.disableRuntimeExecution, 0)]

def crowdedStore : PlatformStore where
  emergency := PyDict.empty.set emergencyGlobal ⟨1, stoppedState, "active", 0⟩
  breakers := ⟨(List.range 201).map crowdedRow, crowdedRows_unique⟩
  receipts := .empty
  events := []

def runtimeRecovery : RecoveryRequest :=
  ⟨[.disableRuntimeExecution], "user_local", "apr_restore", "restore runtime", "idem_restore"⟩

theorem openBreakers_crowded : openBreakers crowdedStore = (List.range 201).map crowdedRow := by
  apply List.filter_eq_self.mpr
  intro row hrow
  obtain ⟨i, _, rfl⟩ := List.mem_map.mp hrow
  rfl

theorem rank_crowded :
    rank listingKey ((List.range 201).map crowdedRow) (crowdedRow 0) = 200 := by
  have hnewer : ∀ row ∈ (List.range 200).map (crowdedRow ∘ Nat.succ),
      decide (listingKey row < listingKey (crowdedRow 0)) = true := by
    intro row hrow
    obtain ⟨i, _, rfl⟩ := List.mem_map.mp hrow
    rw [decide_eq_true_eq]
    apply Prod.Lex.toLex_lt_toLex.mpr
    exact Or.inl (by simp [crowdedRow])
  rw [List.range_succ_eq_map, List.map_cons, List.map_map, rank, List.countP_cons,
    List.countP_eq_length.mpr hnewer]
  simp

theorem security_crowded : SecurityBreakerOpen crowdedStore := by
  rw [SecurityBreakerOpen, openBreakers_crowded]
  exact ⟨crowdedRow 0, List.mem_map_of_mem (List.mem_range.mpr (by decide)), rfl⟩

theorem not_listed_crowded : ¬SecurityBreakerListed crowdedStore := by
  rintro ⟨row, hrow, hsecurity, hrank⟩
  rw [openBreakers_crowded] at hrow hrank
  obtain ⟨i, _, rfl⟩ := List.mem_map.mp hrow
  have hi : i = 0 := of_decide_eq_true hsecurity
  rw [hi, rank_crowded] at hrank
  exact lt_irrefl _ hrank

theorem recoverable_crowded : Recoverable sampleEnv crowdedStore runtimeRecovery := by
  refine ⟨rfl, by decide, by decide +kernel, rfl, ⟨1, stoppedState, "active", 0⟩, rfl, rfl, ?_, 0,
    ?_⟩
  · decide
  · decide +kernel

/-- The runtime is recovered under an open security breaker once 200 newer ones are open. -/
theorem crowded_runtime_recovered :
    SecurityBreakerOpen crowdedStore ∧ .disableRuntimeExecution ∈ runtimeRecovery.actions ∧
      ∃ o s', Exec (recover sampleEnv runtimeRecovery) crowdedStore o s' ∧
        ¬RecoveryRefused crowdedStore runtimeRecovery o s' := by
  have hpage : openSecurityBreakers crowdedStore = false := by
    rw [← Bool.not_eq_true, openSecurityBreakers_iff]
    exact not_listed_crowded
  obtain ⟨o, s', hx, hchanged⟩ := recover_writes recoverable_crowded hpage
  exact ⟨security_crowded, by decide, o, s', hx, fun hrefused => hchanged hrefused.1⟩

/-- A store with more open breakers than the check looks at. -/
theorem crowded_recovery_refused :
    (SecurityBreakerOpen crowdedStore → ∀ o s',
      Exec (recover sampleEnv runtimeRecovery) crowdedStore o s' →
        RecoveryRefused crowdedStore runtimeRecovery o s') ↔
      (SecurityBreakerOpen crowdedStore → Recoverable sampleEnv crowdedStore runtimeRecovery →
        SecurityBreakerListed crowdedStore) :=
  runtime_recovery_refused sampleEnv crowdedStore runtimeRecovery (by decide)

end RaytSystem.Emergency
