import RaytSystem.McpAlike

/-! What an approval binds: the tool that the runner is called under, whatever is quarantined in
between, and until the revision is blocked. -/
namespace RaytSystem.Mcp
open JsonText

section
variable {δ ρ : Type} [DecidableEq δ] [DecidableEq ρ] {env : McpEnv δ ρ} {w : McpWorld δ ρ}

structure Blocked (id : ρ) (w : McpWorld δ ρ) : Prop where
  ids : ∀ i r, w.revisions i = some r → r.revisionId = i
  blocked : ∃ r, w.revisions id = some r ∧ r.state = .blocked

theorem ids_step (c : Call ρ) (h : ∀ i r, w.revisions i = some r → r.revisionId = i) :
    ∀ i r, (c.step env w).revisions i = some r → r.revisionId = i := by
  have hlife : ∀ id, c.target = some id →
      ∀ i r, (c.step env w).revisions i = some r → r.revisionId = i := by
    intro id hid i r hr
    rw [step_lifecycle env hid (h id)] at hr
    cases hv : revised env w c id with
    | none =>
      rw [hv] at hr
      exact h i r hr
    | some r' =>
      rw [hv] at hr
      change (putRevision id r' (noted w c id)).revisions i = some r at hr
      obtain ⟨r₀, hr₀, hkept, -⟩ := revised_cases hv
      by_cases hi : i = id
      · subst hi
        obtain rfl := Option.some.inj ((putRevision_self _ _).symm.trans hr)
        exact hkept.trans (h i r₀ hr₀)
      · rw [putRevision_other r' hi, (noted_same c id).2.2.1] at hr
        exact h i r hr
  cases c with
  | discover c =>
    intro i r hr
    change (discover env c w).2.revisions i = some r at hr
    rw [step_discover] at hr
    split at hr
    · rcases recorded_revision hr with ⟨rfl, rfl⟩ | ⟨-, hr⟩
      · rfl
      · exact h i r hr
    · exact h i r hr
  | setPolicy p actorId =>
    rcases step_policy env p actorId w with ⟨hstep, -⟩ | ⟨-, hstep⟩
    · rw [hstep]
      exact h
    · rw [hstep]
      exact h
  | invoke a runner => exact h
  | _ => exact hlife _ rfl

theorem blocked_step {id : ρ} (c : Call ρ) (h : Blocked id w) : Blocked id (c.step env w) := by
  refine ⟨ids_step c h.ids, ?_⟩
  obtain ⟨r, hr, hblocked⟩ := h.blocked
  have hlife : ∀ other, c.target = some other →
      ∃ r', (c.step env w).revisions id = some r' ∧ r'.state = .blocked := by
    intro other hother
    rw [step_lifecycle env hother (h.ids other)]
    cases hv : revised env w c other with
    | none => exact ⟨r, hr, hblocked⟩
    | some r' =>
      change ∃ x, (putRevision other r' (noted w c other)).revisions id = some x ∧ _
      by_cases hid : id = other
      · subst hid
        obtain ⟨r₀, hr₀, -, -, -, hdead, -⟩ := revised_cases hv
        obtain rfl := Option.some.inj (hr.symm.trans hr₀)
        exact ⟨r', putRevision_self _ _, hdead (Or.inr hblocked)⟩
      · rw [putRevision_other r' hid, (noted_same c other).2.2.1]
        exact ⟨r, hr, hblocked⟩
  cases c with
  | discover c =>
    change ∃ r', (discover env c w).2.revisions id = some r' ∧ r'.state = .blocked
    rw [step_discover]
    split
    next hnew =>
      have hne : id ≠ (c.revision env).revisionId := by
        rintro rfl
        rw [hnew.2] at hr
        cases hr
      exact ⟨r, (Function.update_of_ne hne _ _).trans hr, hblocked⟩
    next => exact ⟨r, hr, hblocked⟩
  | setPolicy p actorId =>
    rcases step_policy env p actorId w with ⟨hstep, -⟩ | ⟨-, hstep⟩
    · rw [hstep]
      exact ⟨r, hr, hblocked⟩
    · rw [hstep]
      exact ⟨r, hr, hblocked⟩
  | invoke a runner => exact ⟨r, hr, hblocked⟩
  | _ => exact hlife _ rfl

theorem blocked_run {id : ρ} {calls : List (Call ρ)} (h : Blocked id w) :
    Blocked id (run env calls w) := by
  induction calls generalizing w with
  | nil => exact h
  | cons c rest ih => exact ih (blocked_step c h)

variable {r : ServerRevision δ ρ}

theorem block_blocked {id : ρ} {actorId reason : String}
    (hids : ∀ i r, w.revisions i = some r → r.revisionId = i)
    (h : (blockServer env id actorId reason w).1 = .ok r) :
    Blocked id (blockServer env id actorId reason w).2 := by
  refine ⟨ids_step (.block id actorId reason) hids, ?_⟩
  have hchecked : ∃ x, moveChecked env blocking id reason w = .ok x := by
    unfold blockServer withEvent at h
    cases hm : moveChecked env blocking id reason w with
    | error e =>
      rw [hm] at h
      cases h
    | ok x => exact ⟨x, rfl⟩
  obtain ⟨⟨r', w'⟩, hchecked⟩ := hchecked
  have hworld : (blockServer env id actorId reason w).2 = w' := by
    refine (withEvent_world env _ _ w).trans ?_
    rw [hchecked]
    rfl
  simp only [moveChecked, requireEnabled, transition, bind_eq_ok, requires_eq_ok,
    readRevision_eq_ok, Except.ok.injEq, Prod.mk.injEq] at hchecked
  obtain ⟨-, -, r₁, hr₁, -, -, -, -, rfl, rfl⟩ := hchecked
  obtain ⟨r₀, hr₀, hid, -⟩ := read_stored hr₁
  rw [hworld, ← hids id r₀ hr₀, ← hid]
  exact ⟨_, putRevision_self _ _, rfl⟩

omit [DecidableEq ρ] in
theorem blocked_refused {id : ρ} (h : Blocked id w) {a : InvokeArgs} {tool : ToolDefinition}
    (ha : checkInvoke env a w = .ok (r,tool)) : r.revisionId ≠ id := by
  obtain ⟨p, ha⟩ := (checkInvoke_eq_ok env).mp ha
  obtain ⟨r₀, hr₀, hkept, -, -, hstate, -⟩ := read_stored ha.read
  obtain ⟨x, hx, hblocked⟩ := h.blocked
  rintro rfl
  have hid : r.revisionId = p.serverRevisionId := hkept.trans (h.ids _ r₀ hr₀)
  rw [hid, hr₀] at hx
  obtain rfl := Option.some.inj hx
  rw [← hstate, ha.enabled] at hblocked
  cases hblocked
end

section
variable {δ ρ : Type} [DecidableEq δ] [DecidableEq ρ] (env : McpEnv δ ρ) (w : McpWorld δ ρ)

def RunsApproved : Prop :=
  ∀ a r tool, checkInvoke env a w = .ok (r,tool) →
    r.state = .enabled ∧ r.approvedBy.isSome ∧ r.approvalId.isSome ∧
      ∃ tools record, w.approvedTools r.revisionId = some tools ∧
        tools a.toolId = some record ∧ record.tool = tool

def QuarantineIgnored : Prop :=
  ∀ c : Discovery, c.quarantined env = true → (Call.discover c).meets env w →
    ∀ later, Meets env later (discover env c w).2 → Meets env later w →
      ∀ a, (checkInvoke env a (run env later (discover env c w).2)).toOption =
        (checkInvoke env a (run env later w)).toOption

def StaysBlocked : Prop :=
  ∀ id actorId reason r, (blockServer env id actorId reason w).1 = .ok r →
    ∀ later a r' tool,
      checkInvoke env a (run env later (blockServer env id actorId reason w).2) = .ok (r',tool) →
        r'.revisionId ≠ id

structure ApprovalBinds (w : McpWorld δ ρ) : Prop where
  approved : RunsApproved env w
  quarantined : QuarantineIgnored env w
  blocked : StaysBlocked env w

variable {env}

omit [DecidableEq ρ] in
theorem sound_runsApproved {w : McpWorld δ ρ} (hd : Distinct env) (hw : Sound env w) :
    RunsApproved env w := by
  intro a r tool ha
  obtain ⟨p, ha⟩ := (checkInvoke_eq_ok env).mp ha
  obtain ⟨r₀, hr₀, hid, hserver, hsha, hstate, hby, hap⟩ := read_stored ha.read
  have happroved : Approved r₀ := Or.inr (Or.inl (hstate ▸ ha.enabled))
  obtain ⟨hby₀, hap₀, tools, htools, hheld⟩ := hw.approved _ r₀ hr₀ happroved
  refine ⟨ha.enabled, hby.trans hby₀, hap.trans hap₀, tools, ?_⟩
  obtain ⟨d, hpinned⟩ := ha.pinned
  obtain ⟨hhead, hdigest⟩ := pinnedDefinition_eq_ok.mp hpinned
  have hrecord : ∃ record, w.tools a.toolId = some record ∧ record.tool = tool := by
    have hcataloged := ha.cataloged
    unfold catalogedTool at hcataloged
    split at hcataloged
    · cases hcataloged
    next record hrecord =>
      split at hcataloged
      · exact ⟨record, hrecord, Except.ok.inj hcataloged⟩
      · cases hcataloged
  obtain ⟨record, hrecord, rfl⟩ := hrecord
  refine ⟨record, ?_, ?_, rfl⟩
  · rw [hid, hw.ids _ r₀ hr₀]
    exact htools
  · rcases hheld d (hserver ▸ hhead) (hdigest.trans hsha) _ (named_tool hd hw ha hpinned) with
      hsame | hother
    · rw [← hsame]
      exact hrecord
    · -- another server's tool is not run under this revision
      exact absurd (ha.server.trans hserver) (hother record hrecord)

/-- After any calls, only a tool whose approval is of just its definition can be invoked. -/
theorem mcp_approval_binds (hd : Distinct env) {calls : List (Call ρ)}
    (h : Meets env calls .empty) : ApprovalBinds env (run env calls .empty) := by
  have hw : Sound env (run env calls .empty) := sound_run (sound_empty env) h
  refine ⟨sound_runsApproved hd hw, ?_, ?_⟩
  · intro c hq hc later hwith hwithout a
    have hstep : Sound env (discover env c (run env calls .empty)).2 :=
      sound_step (c := .discover c) hw hc
    have hone : Alike env (discover env c (run env calls .empty)).2 (run env calls .empty) :=
      (alike_refl _).discoverLeft hw hq hc
    exact (alike_run hd hone hstep hw hwith hwithout).checked hd
      (sound_run hstep hwith) (sound_run hw hwithout) a
  · intro id actorId reason r hr later a r' tool ha
    exact blocked_refused (blocked_run (block_blocked hw.ids hr)) ha
end

def sampleDigest (c : Char) : String := String.ofList (List.replicate 64 c)

def sampleServer : ServerDefinition where
  serverId := "server"
  source := "https://registry.invalid/server"
  version := "1.0.0"
  packageSha256 := sampleDigest 'a'
  transport := "http"
  executable := none
  url := some "https://mcp.invalid"
  publisher := "publisher"
  licenseExpression := "MIT"
  toolIds := ["tool"]
  resourceIds := []
  promptIds := []
  environmentRequirements := []
  filesystemRequirements := []
  networkDestinations := []
  secretIds := []
  sensitivity := "internal"
  trustClass := "untrusted"
  enabled := false

def sampleTool (maxInputBytes : Nat) : ToolDefinition where
  toolId := "tool"
  serverId := "server"
  name := "list"
  description := "Lists the entries"
  inputSchemaSha256 := sampleDigest 'b'
  outputSchemaSha256 := none
  policy := .catalogOnly
  timeoutMs := 1000
  maxInputBytes := maxInputBytes
  maxOutputBytes := 4096

def sampleEnv : McpEnv ServerDefinition (String × ServerDefinition × ServerState) where
  governance := true
  externalExecution := true
  sha256Hex bytes := sampleDigest (if bytes = [0] then 'a' else 'd')
  schemaSha256 _ := sampleDigest 'b'
  definitionSha256 d := d
  revisionId s d q := (s,d,q)
  policySha256 _ := sampleDigest 'c'
  identifier text := some text
  token _ := true
  blocks _ := false

theorem sample_distinct : Distinct sampleEnv where
  definition := fun _ _ h => h
  revision s d q s' d' q' h := by
    obtain ⟨hs, h⟩ := Prod.mk.inj h
    exact ⟨hs, Prod.mk.inj h⟩

def sampleRevision : String × ServerDefinition × ServerState := ("server",sampleServer,.discovered)

def samplePolicy : Policy (String × ServerDefinition × ServerState) where
  policyId := "policy"
  serverRevisionId := sampleRevision
  toolPolicies := PyDict.empty.set "tool" .enabled
  networkAllowlist := []
  readRoots := []
  writeRoots := []
  secretIds := []
  policySha256 := sampleDigest 'c'

def sampleDiscovery (definition : ServerDefinition) (tool : ToolDefinition) (bytes : Bytes) :
    Discovery := ⟨definition, [(tool,.map [])], bytes, [], [], "catalog"⟩

def sampleCalls (last : Discovery) : List (Call (String × ServerDefinition × ServerState)) :=
  [.discover (sampleDiscovery sampleServer (sampleTool 10) [0]), .validate sampleRevision,
    .approve sampleRevision "owner" "approval" true, .enable sampleRevision "owner" "approved",
    .setPolicy samplePolicy "owner", .discover last]

def otherDiscovery : Discovery :=
  sampleDiscovery {sampleServer with serverId := "other", toolIds := ["search"]}
    {sampleTool 20 with toolId := "search", serverId := "other"} [1]

def rivalDiscovery : Discovery := sampleDiscovery sampleServer (sampleTool 1000) [1]

def sampleInput : InvokeArgs := ⟨"policy", "tool", [0]⟩

theorem sample_meets : Meets sampleEnv (sampleCalls otherDiscovery) .empty := by
  have hfirst : (sampleDiscovery sampleServer (sampleTool 10) [0]).quarantined sampleEnv = false := by
    decide +kernel
  refine ⟨?_, trivial, trivial, trivial, trivial, ?_, trivial⟩
  · intro hq
    rw [hfirst] at hq
    cases hq
  · intro _ _ d hd _
    obtain rfl := List.mem_singleton.mp hd
    refine ⟨fun h => absurd h (by decide), ?_⟩
    intro x hx ht
    obtain rfl := List.mem_singleton.mp hx
    exact absurd ht (by decide)

/-- A second discovery leaves the approved tool in place. -/
theorem sample_binds :
    (checkInvoke sampleEnv sampleInput (run sampleEnv (sampleCalls otherDiscovery) .empty)).toOption.map
      Prod.snd = some (sampleTool 10) ∧
    ApprovalBinds sampleEnv (run sampleEnv (sampleCalls otherDiscovery) .empty) :=
  ⟨by decide +kernel, mcp_approval_binds sample_distinct sample_meets⟩

/-- The quarantined discovery has put its tool in the place of the approved one. -/
theorem rival_runs :
    (rivalDiscovery.revision sampleEnv).state = .quarantined ∧
    ¬RunsApproved sampleEnv (run sampleEnv (sampleCalls rivalDiscovery) .empty) := by
  refine ⟨by decide +kernel, ?_⟩
  intro h
  have hrun : checkInvoke sampleEnv sampleInput
      (run sampleEnv (sampleCalls rivalDiscovery) .empty) =
        .ok (⟨sampleRevision, "server", sampleServer, .enabled, some "owner", some "approval"⟩,
          sampleTool 1000) := rfl
  obtain ⟨-, -, -, tools, record, htools, hrecord, htool⟩ := h _ _ _ hrun
  have happroved : (run sampleEnv (sampleCalls rivalDiscovery) .empty).approvedTools
      sampleRevision = some (appendTools (fun _ => none) [(sampleTool 10,.map [])]) := rfl
  obtain rfl := Option.some.inj (happroved.symm.trans htools)
  have hfirst : appendTools (fun _ => none) [(sampleTool 10,.map [])] sampleInput.toolId =
      some ⟨sampleTool 10, .map []⟩ := rfl
  obtain rfl := Option.some.inj (hfirst.symm.trans hrecord)
  exact absurd htool (by decide)

end RaytSystem.Mcp
