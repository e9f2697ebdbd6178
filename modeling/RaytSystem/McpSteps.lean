import RaytSystem.McpModel

/-! What one call does to the catalog: a discovery is recorded, a revision moves along its life,
or a policy is stored. -/
namespace RaytSystem.Mcp

variable {δ ρ : Type} [DecidableEq δ] [DecidableEq ρ] (env : McpEnv δ ρ)

inductive Call (ρ : Type) where
  | discover (c : Discovery)
  | validate (id : ρ)
  | approve (id : ρ) (approvedBy approvalId : String) (authorised : Bool)
  | enable (id : ρ) (actorId reason : String)
  | disable (id : ρ) (actorId reason : String)
  | degrade (id : ρ) (actorId reason : String)
  | block (id : ρ) (actorId reason : String)
  | setPolicy (p : Policy ρ) (actorId : String)
  | invoke (a : InvokeArgs) (runner : Bytes → Except String (Bytes × Nat))

def Call.step : Call ρ → McpWorld δ ρ → McpWorld δ ρ
  | discover c, w => (Mcp.discover env c w).2
  | validate id, w => (validateRevision env id w).2
  | approve id approvedBy approvalId authorised, w =>
    (approveCatalog env id approvedBy approvalId authorised w).2
  | enable id actorId reason, w => (enableServer env id actorId reason w).2
  | disable id actorId reason, w => (disableServer env id actorId reason w).2
  | degrade id actorId reason, w => (markDegraded env id actorId reason w).2
  | block id actorId reason, w => (blockServer env id actorId reason w).2
  | setPolicy p actorId, w => (Mcp.setPolicy env p actorId w).2
  | invoke _ _, w => w

def run (calls : List (Call ρ)) (w : McpWorld δ ρ) : McpWorld δ ρ :=
  calls.foldl (fun w c => c.step env w) w

def Call.target : Call ρ → Option ρ
  | validate id => some id
  | approve id _ _ _ => some id
  | enable id _ _ => some id
  | disable id _ _ => some id
  | degrade id _ _ => some id
  | block id _ _ => some id
  | _ => none

def fit (r : ServerRevision δ ρ) : Option (ServerRevision δ ρ) :=
  match fitOptional env r.approvedBy, fitOptional env r.approvalId with
  | .ok approvedBy, .ok approvalId => some {r with approvedBy := approvedBy, approvalId := approvalId}
  | _, _ => none

def hasReason (reason : String) : Bool := reason.toList.any fun c => !PyText.isSpace c

def change (pinned : ServerRevision δ ρ → Bool) (c : Call ρ) (r : ServerRevision δ ρ) :
    Option (ServerRevision δ ρ) :=
  match c with
  | .validate _ => if r.state = .discovered then some {r with state := .validated} else none
  | .approve _ approvedBy approvalId authorised =>
    if r.state = .validated ∧ authorised = true then
      some {r with
        state := .approved, approvedBy := some approvedBy, approvalId := some approvalId}
    else none
  | .enable _ _ reason =>
    if r.state = .approved ∧ (r.approvedBy.isSome ∧ r.approvalId.isSome) ∧ pinned r = true ∧
        hasReason reason = true then some {r with state := .enabled}
    else none
  | .disable _ _ reason =>
    if (r.state = .enabled ∨ r.state = .degraded) ∧ hasReason reason = true then
      some {r with state := .disabled}
    else none
  | .degrade _ _ reason =>
    if r.state = .enabled ∧ hasReason reason = true then some {r with state := .degraded} else none
  | .block _ _ reason => if hasReason reason = true then some {r with state := .blocked} else none
  | _ => none

def isPinned (w : McpWorld δ ρ) (r : ServerRevision δ ρ) : Bool :=
  (pinnedDefinition env r w).toOption.isSome

def revised (w : McpWorld δ ρ) (c : Call ρ) (id : ρ) : Option (ServerRevision δ ρ) :=
  if env.governance = true then
    (w.revisions id).bind fun r => (fit env r).bind (change (isPinned env w) c)
  else none

def noted (w : McpWorld δ ρ) (c : Call ρ) (id : ρ) : McpWorld δ ρ :=
  match c with
  | .approve _ _ _ _ => {w with approvedTools := Function.update w.approvedTools id (some w.tools)}
  | _ => w

omit [DecidableEq δ] [DecidableEq ρ] in
theorem readRevision_toOption (id : ρ) (w : McpWorld δ ρ) :
    (readRevision env id w).toOption = (w.revisions id).bind (fit env) := by
  unfold readRevision
  cases w.revisions id with
  | none => rfl
  | some r =>
    simp only [Option.bind_some, fit]
    cases fitOptional env r.approvedBy with
    | error e => rfl
    | ok approvedBy => cases fitOptional env r.approvalId <;> rfl

omit [DecidableEq δ] [DecidableEq ρ] in
theorem fitOptional_isSome {text text' : Option String} (h : fitOptional env text = .ok text') :
    text'.isSome = text.isSome := by
  unfold fitOptional at h
  split at h
  · cases h
    rfl
  · split at h
    · cases h
      rfl
    · cases h

omit [DecidableEq δ] [DecidableEq ρ] in
theorem fit_same {r r' : ServerRevision δ ρ} (h : fit env r = some r') :
    r'.revisionId = r.revisionId ∧ r'.serverId = r.serverId ∧
      r'.definitionSha256 = r.definitionSha256 ∧ r'.state = r.state ∧
      r'.approvedBy.isSome = r.approvedBy.isSome ∧ r'.approvalId.isSome = r.approvalId.isSome := by
  unfold fit at h
  split at h
  next approvedBy approvalId hby hid =>
    obtain rfl := Option.some.inj h
    exact ⟨rfl, rfl, rfl, rfl, fitOptional_isSome env hby, fitOptional_isSome env hid⟩
  · cases h

omit [DecidableEq δ] [DecidableEq ρ] in
theorem withEvent_world {α : Type} (actorId : String)
    (checked : Except String (α × McpWorld δ ρ)) (w : McpWorld δ ρ) :
    (withEvent env actorId checked w).2 = ((checked.toOption.map Prod.snd).getD w) := by
  cases checked with
  | error e => rfl
  | ok x =>
    simp only [withEvent]
    split <;> rfl

variable {w : McpWorld δ ρ} {c : Call ρ}

theorem checked_world {id : ρ}
    {rest : ServerRevision δ ρ → Except String (ServerRevision δ ρ × McpWorld δ ρ)}
    (hrest : ∀ r, (w.revisions id).bind (fit env) = some r →
      ((rest r).toOption.map Prod.snd).getD w =
        ((change (isPinned env w) c r).map fun r' => putRevision id r' (noted w c id)).getD w) :
    ((do
      requireEnabled env
      let r ← readRevision env id w
      rest r : Except String (ServerRevision δ ρ × McpWorld δ ρ)).toOption.map Prod.snd).getD w =
      ((revised env w c id).map fun r' => putRevision id r' (noted w c id)).getD w := by
  unfold revised requireEnabled requires
  by_cases hg : env.governance = true
  · simp only [hg, if_true]
    have hread := readRevision_toOption env id w
    cases h : readRevision env id w with
    | error e =>
      rw [h] at hread
      have hnone : (w.revisions id).bind (fun r => (fit env r).bind (change (isPinned env w) c)) =
          none := by
        rw [← Option.bind_assoc, ← hread]
        rfl
      rw [hnone]
      rfl
    | ok r =>
      rw [h] at hread
      have hsome : (w.revisions id).bind (fun r => (fit env r).bind (change (isPinned env w) c)) =
          change (isPinned env w) c r := by
        rw [← Option.bind_assoc, ← hread]
        rfl
      rw [hsome]
      exact hrest r hread.symm
  · simp only [hg]
    rfl

variable {r : ServerRevision δ ρ}

omit [DecidableEq δ] in
theorem transition_world {id : ρ} {r : ServerRevision δ ρ} {state : ServerState}
    {reason : String} {w : McpWorld δ ρ} (hid : r.revisionId = id) :
    ((transition r state reason w).toOption.map Prod.snd).getD w =
      ((if hasReason reason = true then some {r with state := state} else none).map fun r' =>
        putRevision id r' w).getD w := by
  unfold transition requires hasReason
  split
  · rw [← hid]
    rfl
  · rfl

theorem moved_world {m : Move} {id : ρ} {reason : String} (hid : r.revisionId = id)
    (hnoted : noted w c id = w) (hchange : change (isPinned env w) c r =
      if r.state ∈ m.sources ∧ hasReason reason = true then some {r with state := m.target}
      else none) : (((do
      requires (r.state ∈ m.sources) m.message
      transition r m.target reason w : Except String (ServerRevision δ ρ × McpWorld δ ρ))).toOption.map
        Prod.snd).getD w =
      ((change (isPinned env w) c r).map fun r' => putRevision id r' (noted w c id)).getD w := by
  rw [hchange, hnoted]
  unfold requires
  by_cases hs : r.state ∈ m.sources
  · simp only [hs, true_and, if_true]
    exact transition_world hid
  · simp only [hs, false_and, if_false]
    rfl

theorem step_lifecycle {id : ρ} (hc : c.target = some id)
    (hid : ∀ r, w.revisions id = some r → r.revisionId = id) :
    c.step env w = ((revised env w c id).map fun r' => putRevision id r' (noted w c id)).getD w := by
  have hfit : ∀ r, (w.revisions id).bind (fit env) = some r → r.revisionId = id := by
    intro r hr
    obtain ⟨r₀, hr₀, hr⟩ := Option.bind_eq_some_iff.mp hr
    exact (fit_same env hr).1.trans (hid r₀ hr₀)
  cases c with
  | discover c => cases hc
  | setPolicy p actorId => cases hc
  | invoke a runner => cases hc
  | validate id' =>
    obtain rfl := Option.some.inj hc
    have hworld : (validateRevision env id' w).2 =
        ((validateChecked env id' w).toOption.map Prod.snd).getD w := by
      unfold validateRevision
      cases validateChecked env id' w <;> rfl
    refine hworld.trans (checked_world env ?_)
    intro r _
    simp only [change, requires]
    by_cases hd : r.state = .discovered
    · simp [hd]
      rfl
    · cases r.state <;> simp_all <;> rfl
  | approve id' approvedBy approvalId authorised =>
    obtain rfl := Option.some.inj hc
    refine (withEvent_world env _ _ w).trans (checked_world env ?_)
    intro r _
    simp only [change, requires]
    by_cases hv : r.state = .validated <;> by_cases ha : authorised = true <;> simp [hv, ha] <;> rfl
  | enable id' actorId reason =>
    obtain rfl := Option.some.inj hc
    refine (withEvent_world env _ _ w).trans (checked_world env ?_)
    intro r hr
    have hmove : ((transition r .enabled reason w).toOption.map Prod.snd).getD w =
        ((if hasReason reason = true then some {r with state := .enabled} else none).map fun r' =>
          putRevision id' r' w).getD w := transition_world (hfit r hr)
    by_cases ha : r.state = .approved
    · by_cases hp : r.approvedBy.isSome ∧ r.approvalId.isSome
      · cases hd : pinnedDefinition env r w with
        | error e =>
          have hnot : isPinned env w r = false := by simp [isPinned, hd, Except.toOption]
          simp only [change, requires, ha, hp, hnot]
          rfl
        | ok d =>
          have hyes : isPinned env w r = true := by simp [isPinned, hd, Except.toOption]
          simp only [change, requires, ha, hp, hyes, true_and, and_self, if_true]
          exact hmove
      · simp only [change, requires, ha, hp, false_and, and_false, if_false]
        rfl
    · simp only [change, requires, ha, false_and, if_false]
      rfl
  | disable id' actorId reason =>
    obtain rfl := Option.some.inj hc
    refine (withEvent_world env _ _ w).trans (checked_world env ?_)
    intro r hr
    exact moved_world env (m := disabling) (hfit r hr) rfl (by simp [change, disabling])
  | degrade id' actorId reason =>
    obtain rfl := Option.some.inj hc
    refine (withEvent_world env _ _ w).trans (checked_world env ?_)
    intro r hr
    exact moved_world env (m := degrading) (hfit r hr) rfl (by simp [change, degrading])
  | block id' actorId reason =>
    obtain rfl := Option.some.inj hc
    refine (withEvent_world env _ _ w).trans (checked_world env ?_)
    intro r hr
    refine moved_world env (m := blocking) (hfit r hr) rfl ?_
    have hany : r.state ∈ blocking.sources := by cases r.state <;> decide
    simp [change, hany]
    rfl

omit [DecidableEq δ] [DecidableEq ρ] in
theorem requires_eq_ok {b : Prop} [Decidable b] {message : String} {a : Unit} :
    requires b message = .ok a ↔ b := by
  unfold requires
  split <;> simp_all

omit [DecidableEq δ] [DecidableEq ρ] in
theorem readRevision_eq_ok {id : ρ} :
    readRevision env id w = .ok r ↔ (w.revisions id).bind (fit env) = some r := by
  rw [← readRevision_toOption]
  cases readRevision env id w <;> simp [Except.toOption]

structure Accepts (p : Policy ρ) (w : McpWorld δ ρ) (r : ServerRevision δ ρ)
    (d : ServerDefinition) : Prop where
  governed : env.governance = true
  hashed : p.policySha256 = env.policySha256 p
  read : (w.revisions p.serverRevisionId).bind (fit env) = some r
  usable : r.state = .approved ∨ r.state = .enabled
  pinned : pinnedDefinition env r w = .ok d
  tools : sameSet p.toolPolicies.keys d.toolIds = true
  bound : checkTools env d.serverId w d.toolIds = .ok ()
  confined : (env.externalExecution = true ∨
      p.toolPolicies.entries.all (fun kv => kv.2 == .catalogOnly) = true) ∧
    (env.externalExecution = true ∨ (p.networkAllowlist = [] ∧ p.readRoots = [] ∧
      p.writeRoots = [] ∧ p.secretIds = []))

omit [DecidableEq ρ] in
theorem policyChecked_eq_ok {p : Policy ρ} {x : Policy ρ × McpWorld δ ρ} :
    policyChecked env p w = .ok x ↔ (∃ r d, Accepts env p w r d) ∧
      x = (p,{w with policies := Function.update w.policies p.policyId (some p)}) := by
  simp only [policyChecked, requireEnabled, bind_eq_ok, requires_eq_ok, readRevision_eq_ok,
    Except.ok.injEq]
  constructor
  · rintro ⟨-, hg, -, hh, -, he, r, hr, -, hu, d, hd, -, ht, ⟨⟩, hb, -, hc, rfl⟩
    exact ⟨⟨r, d, hg, hh, hr, hu, hd, ht, hb, he, hc⟩, rfl⟩
  · rintro ⟨⟨r, d, hg, hh, hr, hu, hd, ht, hb, he, hc⟩, rfl⟩
    exact ⟨(), hg, (), hh, (), he, r, hr, (), hu, d, hd, (), ht, (), hb, (), hc, rfl⟩

structure Admits (a : InvokeArgs) (w : McpWorld δ ρ) (p : Policy ρ) (r : ServerRevision δ ρ)
    (tool : ToolDefinition) : Prop where
  governed : env.governance = true ∧ env.externalExecution = true
  stored : w.policies a.policyId = some p
  hashed : p.policySha256 = env.policySha256 p
  read : (w.revisions p.serverRevisionId).bind (fit env) = some r
  enabled : r.state = .enabled
  pinned : ∃ d, pinnedDefinition env r w = .ok d
  permitted : p.toolPolicies.get a.toolId = some .enabled
  cataloged : catalogedTool env a.toolId w = .ok tool
  server : tool.serverId = r.serverId
  fits : a.inputBytes.length ≤ tool.maxInputBytes

omit [DecidableEq ρ] in
theorem checkInvoke_eq_ok {a : InvokeArgs} {tool : ToolDefinition} :
    checkInvoke env a w = .ok (r,tool) ↔ ∃ p, Admits env a w p r tool := by
  simp only [checkInvoke, requireEnabled, bind_eq_ok, requires_eq_ok]
  constructor
  · rintro ⟨-, hg, -, he, h⟩
    split at h
    · cases h
    next p hp =>
      simp only [bind_eq_ok, requires_eq_ok, readRevision_eq_ok, Except.ok.injEq,
        Prod.mk.injEq] at h
      obtain ⟨-, hh, r, hr, -, hs, d, hd, -, ht, tool, hc, -, hv, -, hf, rfl, rfl⟩ := h
      exact ⟨p, ⟨hg, he⟩, hp, hh, hr, hs, ⟨d, hd⟩, ht, hc, hv, hf⟩
  · rintro ⟨p, ⟨hg, he⟩, hp, hh, hr, hs, ⟨d, hd⟩, ht, hc, hv, hf⟩
    refine ⟨(), hg, (), he, ?_⟩
    rw [hp]
    simp only [bind_eq_ok, requires_eq_ok, readRevision_eq_ok, Except.ok.injEq, Prod.mk.injEq]
    exact ⟨(), hh, r, hr, (), hs, d, hd, (), ht, tool, hc, (), hv, (), hf, rfl, rfl⟩

theorem step_policy (p : Policy ρ) (actorId : String) (w : McpWorld δ ρ) :
    (Call.setPolicy p actorId).step env w = w ∧ (∀ r d, ¬Accepts env p w r d) ∨
      (∃ r d, Accepts env p w r d) ∧ (Call.setPolicy p actorId).step env w =
        {w with policies := Function.update w.policies p.policyId (some p)} := by
  have hworld : (Call.setPolicy p actorId).step env w =
      ((policyChecked env p w).toOption.map Prod.snd).getD w := withEvent_world env _ _ w
  cases h : policyChecked env p w with
  | error e =>
    refine Or.inl ⟨by rw [hworld, h]; rfl, fun r d ha => ?_⟩
    have hok := (policyChecked_eq_ok env).mpr ⟨⟨r, d, ha⟩, rfl⟩
    rw [h] at hok
    cases hok
  | ok x =>
    obtain ⟨hacc, rfl⟩ := (policyChecked_eq_ok env).mp h
    exact Or.inr ⟨hacc, by rw [hworld, h]; rfl⟩

omit [DecidableEq δ] in
theorem step_discover (c : Discovery) (w : McpWorld δ ρ) :
    (discover env c w).2 = if env.governance = true ∧
      w.revisions (c.revision env).revisionId = none then recordDiscovery env c w else w := by
  unfold discover
  by_cases hg : env.governance = true
  · cases hr : w.revisions (c.revision env).revisionId with
    | some r => simp [hg, hr]
    | none =>
      simp only [hg, hr, Bool.true_eq_false, if_false, and_self, if_true]
      exact withEvent_world env _ _ w
  · simp [hg]

end RaytSystem.Mcp
