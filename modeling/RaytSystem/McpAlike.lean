import RaytSystem.McpRuns

/-! Two runs of the catalog of which one has a quarantined discovery more: what they differ in is
nothing that an invocation reads. -/
namespace RaytSystem.Mcp

variable {δ ρ : Type} {env : McpEnv δ ρ} {w w' : McpWorld δ ρ}

def NoneAlive (r : Option (ServerRevision δ ρ)) : Prop := ∀ x, r = some x → Dead x

structure Alike (env : McpEnv δ ρ) (w w' : McpWorld δ ρ) : Prop where
  policies : w.policies = w'.policies
  admitted : w.admitted = w'.admitted
  revisions : ∀ id, w.revisions id = w'.revisions id ∨
    ((∃ s d, id = env.revisionId s d .quarantined) ∧
      NoneAlive (w.revisions id) ∧ NoneAlive (w'.revisions id))
  servers : ∀ d ∈ w.admitted, w.servers d.serverId = w'.servers d.serverId
  tools : ∀ d ∈ w.admitted, w.servers d.serverId = some d → ∀ t ∈ d.toolIds,
    w.tools t = w'.tools t

theorem alike_refl (w : McpWorld δ ρ) : Alike env w w :=
  ⟨rfl, rfl, fun _ => Or.inl rfl, fun _ _ => rfl, fun _ _ _ _ _ => rfl⟩

theorem Alike.symm (h : Alike env w w') : Alike env w' w := by
  refine ⟨h.policies.symm, h.admitted.symm, ?_, ?_, ?_⟩
  · intro id
    rcases h.revisions id with he | ⟨hid, ha, hb⟩
    · exact Or.inl he.symm
    · exact Or.inr ⟨hid, hb, ha⟩
  · intro d hd
    rw [← h.admitted] at hd
    exact (h.servers d hd).symm
  · intro d hd hhead t ht
    rw [← h.admitted] at hd
    exact (h.tools d hd ((h.servers d hd).trans hhead) t ht).symm

variable {r : ServerRevision δ ρ}

theorem Alike.stored (h : Alike env w w') {id : ρ} {r : ServerRevision δ ρ}
    (hr : w.revisions id = some r) (halive : ¬Dead r) : w'.revisions id = some r := by
  rcases h.revisions id with he | ⟨-, ha, -⟩
  · exact he ▸ hr
  · exact absurd (ha r hr) halive

variable [DecidableEq δ] [DecidableEq ρ]

omit [DecidableEq ρ] in
theorem Alike.pinned (h : Alike env w w') (hw : Sound env w) {id : ρ} {r₀ r : ServerRevision δ ρ}
    (hr : w.revisions id = some r₀) (halive : ¬Dead r₀) (hserver : r.serverId = r₀.serverId) :
    pinnedDefinition env r w = pinnedDefinition env r w' := by
  obtain ⟨-, d, hd, hds, -⟩ := hw.origin id r₀ hr halive
  have hsame := h.servers d hd
  rw [hds, ← hserver] at hsame
  unfold pinnedDefinition
  rw [hsame]

variable {d : ServerDefinition}

omit [DecidableEq ρ] in
theorem pinned_admitted (hw : Sound env w) {id : ρ} {r₀ r : ServerRevision δ ρ}
    (hr : w.revisions id = some r₀) (halive : ¬Dead r₀) (hserver : r.serverId = r₀.serverId)
    (hpinned : pinnedDefinition env r w = .ok d) :
    d ∈ w.admitted ∧ w.servers d.serverId = some d := by
  obtain ⟨-, d₀, hd₀, hds, -⟩ := hw.origin id r₀ hr halive
  obtain ⟨d', hd', hsame, hhead⟩ := hw.heads d₀ hd₀
  obtain ⟨hd, -⟩ := pinnedDefinition_eq_ok.mp hpinned
  rw [hds, ← hserver, hd] at hhead
  obtain rfl := Option.some.inj hhead
  refine ⟨hd', ?_⟩
  rw [hsame, hds, ← hserver]
  exact hd

variable {c : Discovery}

omit [DecidableEq δ] in
theorem Alike.quarantined (h : Alike env w w') (hw : Sound env w) (hq : c.quarantined env = true)
    (hnew : w.revisions (c.revision env).revisionId = none) (happart : Apart c w) :
    Alike env (recordDiscovery env c w) w' := by
  have hadmitted : (recordDiscovery env c w).admitted = w.admitted := by simp [recordDiscovery, hq]
  have hstate : (c.revision env).state = .quarantined := by
    simp [Discovery.revision, Discovery.state, hq]
  refine ⟨h.policies, hadmitted.trans h.admitted, ?_, ?_, ?_⟩
  · intro id
    by_cases hid : id = (c.revision env).revisionId
    · subst hid
      have hself : (recordDiscovery env c w).revisions (c.revision env).revisionId =
          some (c.revision env) := Function.update_self ..
      refine Or.inr ⟨⟨c.definition.serverId, env.definitionSha256 c.definition, ?_⟩, ?_, ?_⟩
      · simp [Discovery.revision, Discovery.state, hq]
      · intro x hx
        obtain rfl := Option.some.inj (hself.symm.trans hx)
        exact Or.inl hstate
      · rcases h.revisions (c.revision env).revisionId with he | ⟨-, -, hb⟩
        · intro x hx
          rw [← he, hnew] at hx
          cases hx
        · exact hb
    · have hsame : (recordDiscovery env c w).revisions id = w.revisions id :=
        Function.update_of_ne hid _ _
      rw [hsame]
      exact h.revisions id
  · intro d hd
    rw [hadmitted] at hd
    rw [apart_servers hw happart hd]
    exact h.servers d hd
  · intro d hd hhead t ht
    rw [hadmitted] at hd
    rw [apart_servers hw happart hd] at hhead
    rw [apart_tools happart hd hhead t ht]
    exact h.tools d hd hhead t ht

omit [DecidableEq δ] in
theorem Alike.recorded (h : Alike env w w') (hq : c.quarantined env = false) :
    Alike env (recordDiscovery env c w) (recordDiscovery env c w') := by
  have hadmitted : ∀ v : McpWorld δ ρ,
      (recordDiscovery env c v).admitted = c.definition :: v.admitted :=
    fun v => by simp [recordDiscovery, hq]
  refine ⟨h.policies, by rw [hadmitted, hadmitted, h.admitted], ?_, ?_, ?_⟩
  · intro id
    by_cases hid : id = (c.revision env).revisionId
    · subst hid
      have hself : ∀ v : McpWorld δ ρ, (recordDiscovery env c v).revisions
          (c.revision env).revisionId = some (c.revision env) := fun v => Function.update_self ..
      exact Or.inl ((hself w).trans (hself w').symm)
    · have hsame : ∀ v : McpWorld δ ρ, (recordDiscovery env c v).revisions id = v.revisions id :=
        fun v => Function.update_of_ne hid _ _
      rw [hsame, hsame]
      exact h.revisions id
  · intro d hd
    by_cases hserver : d.serverId = c.definition.serverId
    · have hself : ∀ v : McpWorld δ ρ, (recordDiscovery env c v).servers c.definition.serverId =
          some c.definition := fun v => Function.update_self ..
      rw [hserver]
      exact (hself w).trans (hself w').symm
    · have hsame : ∀ v : McpWorld δ ρ,
          (recordDiscovery env c v).servers d.serverId = v.servers d.serverId :=
        fun v => Function.update_of_ne hserver _ _
      rw [hsame, hsame]
      rw [hadmitted] at hd
      rcases List.mem_cons.mp hd with rfl | hd
      · exact absurd rfl hserver
      · exact h.servers d hd
  · intro d hd hhead t ht
    by_cases hnamed : ∃ x ∈ c.tools, x.1.toolId = t
    · obtain ⟨x, -, -, hval⟩ := appendTools_named hnamed
      exact (hval w.tools).trans (hval w'.tools).symm
    · have hsame : ∀ v : McpWorld δ ρ, (recordDiscovery env c v).tools t = v.tools t :=
        fun v => appendTools_other fun x hx hxt => hnamed ⟨x, hx, hxt⟩
      have hnot : d ≠ c.definition := by
        rintro rfl
        exact hnamed (((admitted_tools env hq).1 t).mp ht)
      rw [hsame, hsame]
      rw [hadmitted] at hd
      rcases List.mem_cons.mp hd with rfl | hd
      · exact absurd rfl hnot
      · by_cases hserver : d.serverId = c.definition.serverId
        · -- the server has another definition now
          have hself : (recordDiscovery env c w).servers c.definition.serverId =
              some c.definition := Function.update_self ..
          rw [hserver, hself] at hhead
          exact absurd (Option.some.inj hhead).symm hnot
        · have hold : w.servers d.serverId = some d :=
            (Function.update_of_ne hserver _ _).symm.trans hhead
          exact h.tools d hd hold t ht

omit [DecidableEq δ] in
theorem Alike.put (h : Alike env w w') (c : Call ρ) (id : ρ) (r : ServerRevision δ ρ) :
    Alike env (putRevision id r (noted w c id)) (putRevision id r (noted w' c id)) := by
  obtain ⟨hs, ht, hr, hp, ha⟩ := noted_same (w := w) c id
  obtain ⟨hs', ht', hr', hp', ha'⟩ := noted_same (w := w') c id
  refine ⟨?_, ?_, ?_, ?_, ?_⟩
  · exact hp.trans (h.policies.trans hp'.symm)
  · exact ha.trans (h.admitted.trans ha'.symm)
  · intro other
    by_cases ho : other = id
    · subst ho
      exact Or.inl ((putRevision_self _ _).trans (putRevision_self _ _).symm)
    · rw [putRevision_other r ho, putRevision_other r ho, hr, hr']
      exact h.revisions other
  · intro d hd
    change (noted w c id).servers d.serverId = (noted w' c id).servers d.serverId
    rw [hs, hs']
    exact h.servers d (ha ▸ hd)
  · intro d hd hhead t hdt
    change (noted w c id).servers d.serverId = some d at hhead
    change (noted w c id).tools t = (noted w' c id).tools t
    rw [hs] at hhead
    rw [ht, ht']
    exact h.tools d (ha ▸ hd) hhead t hdt

omit [DecidableEq δ] in
theorem Alike.putDead (h : Alike env w w') (c : Call ρ) {id : ρ}
    (hid : ∃ s d, id = env.revisionId s d .quarantined) (hdead : Dead r)
    (hnone : NoneAlive (w'.revisions id)) : Alike env (putRevision id r (noted w c id)) w' := by
  obtain ⟨hs, ht, hr, hp, ha⟩ := noted_same (w := w) c id
  refine ⟨hp.trans h.policies, ha.trans h.admitted, ?_, ?_, ?_⟩
  · intro other
    by_cases ho : other = id
    · subst ho
      refine Or.inr ⟨hid, ?_, hnone⟩
      intro x hx
      obtain rfl := Option.some.inj ((putRevision_self _ _).symm.trans hx)
      exact hdead
    · rw [putRevision_other r ho, hr]
      exact h.revisions other
  · intro d hd
    change (noted w c id).servers d.serverId = w'.servers d.serverId
    rw [hs]
    exact h.servers d (ha ▸ hd)
  · intro d hd hhead t hdt
    change (noted w c id).servers d.serverId = some d at hhead
    change (noted w c id).tools t = w'.tools t
    rw [hs] at hhead
    rw [ht]
    exact h.tools d (ha ▸ hd) hhead t hdt

omit [DecidableEq δ] [DecidableEq ρ] in
theorem change_congr {pinned pinned' : ServerRevision δ ρ → Bool} {c : Call ρ}
    (h : r.state = .approved → pinned r = pinned' r) : change pinned c r = change pinned' c r := by
  cases c with
  | enable id actorId reason =>
    by_cases ha : r.state = .approved
    · simp only [change, h ha]
    · simp only [change, ha, false_and, if_false]
  | _ => rfl

omit [DecidableEq ρ] in
theorem Alike.revised (h : Alike env w w') (hw : Sound env w) (c : Call ρ) {id : ρ}
    (hsame : w.revisions id = w'.revisions id) :
    Mcp.revised env w c id = Mcp.revised env w' c id := by
  unfold Mcp.revised
  rw [← hsame]
  split
  next =>
    cases hr : w.revisions id with
    | none => rfl
    | some r₀ =>
      simp only [Option.bind_some]
      cases hfit : fit env r₀ with
      | none => rfl
      | some r =>
        obtain ⟨-, hserver, -, hstate, -⟩ := fit_same env hfit
        refine change_congr fun ha => ?_
        have halive : ¬Dead r₀ := approved_not_dead (Or.inl (hstate ▸ ha))
        unfold isPinned
        rw [h.pinned hw hr halive hserver]
  next => rfl

def lifecycled (env : McpEnv δ ρ) (w : McpWorld δ ρ) (c : Call ρ) (id : ρ) : McpWorld δ ρ :=
  ((Mcp.revised env w c id).map fun r' => putRevision id r' (noted w c id)).getD w

theorem Alike.lifecycledDead (h : Alike env w w') (c : Call ρ) {id : ρ}
    (hid : ∃ s d, id = env.revisionId s d .quarantined) (hdead : NoneAlive (w.revisions id))
    (hnone : NoneAlive (w'.revisions id)) :
    Alike env (lifecycled env w c id) w' ∧ NoneAlive ((lifecycled env w c id).revisions id) := by
  unfold lifecycled
  cases hr : Mcp.revised env w c id with
  | none => exact ⟨h, hdead⟩
  | some r' =>
    obtain ⟨r, hr, -, -, -, hblocked, -⟩ := revised_cases hr
    have hr' : Dead r' := Or.inr (hblocked (hdead r hr))
    refine ⟨h.putDead c hid hr' hnone, ?_⟩
    intro x hx
    obtain rfl := Option.some.inj ((putRevision_self _ _).symm.trans hx)
    exact hr'

theorem Alike.lifecycled (h : Alike env w w') (hw : Sound env w) (c : Call ρ) (id : ρ) :
    Alike env (lifecycled env w c id) (lifecycled env w' c id) := by
  rcases h.revisions id with hsame | ⟨hid, hdead, hdead'⟩
  · unfold Mcp.lifecycled
    rw [← h.revised hw c hsame]
    cases Mcp.revised env w c id with
    | none => exact h
    | some r' => exact h.put c id r'
  · -- a quarantined revision is blocked at most, on either side
    obtain ⟨hleft, hnone⟩ := h.lifecycledDead c hid hdead hdead'
    exact (hleft.symm.lifecycledDead c hid hdead' hnone).1.symm

omit [DecidableEq δ] [DecidableEq ρ] in
theorem checkTools_congr {serverId : String} {ids : List String}
    (h : ∀ t ∈ ids, w.tools t = w'.tools t) :
    checkTools env serverId w ids = checkTools env serverId w' ids := by
  induction ids with
  | nil => rfl
  | cons t rest ih =>
    have htool : catalogedTool env t w = catalogedTool env t w' := by
      unfold catalogedTool
      rw [h t List.mem_cons_self]
    unfold checkTools
    rw [htool, ih fun t ht => h t (List.mem_cons_of_mem _ ht)]

omit [DecidableEq δ] [DecidableEq ρ] in
theorem Alike.read (h : Alike env w w') {id : ρ} (hr : (w.revisions id).bind (fit env) = some r)
    (halive : ¬Dead r) : ∃ r₀, w.revisions id = some r₀ ∧ ¬Dead r₀ ∧ r.serverId = r₀.serverId ∧
      r.definitionSha256 = r₀.definitionSha256 ∧ (w'.revisions id).bind (fit env) = some r := by
  obtain ⟨r₀, hr₀, hfit⟩ := Option.bind_eq_some_iff.mp hr
  obtain ⟨-, hserver, hsha, hstate, -⟩ := fit_same env hfit
  have halive₀ : ¬Dead r₀ := by
    intro hd
    exact halive (by simpa [Dead, hstate] using hd)
  refine ⟨r₀, hr₀, halive₀, hserver, hsha, ?_⟩
  rw [h.stored hr₀ halive₀]
  exact hfit

variable {p : Policy ρ}

omit [DecidableEq ρ] in
theorem Alike.accepts (h : Alike env w w') (hw : Sound env w) (ha : Accepts env p w r d) :
    Accepts env p w' r d := by
  have halive : ¬Dead r := approved_not_dead (ha.usable.imp_right Or.inl)
  obtain ⟨r₀, hr₀, halive₀, hserver, -, hread⟩ := h.read ha.read halive
  obtain ⟨hd, hhead⟩ := pinned_admitted hw hr₀ halive₀ hserver ha.pinned
  refine {ha with read := hread, pinned := ?_, bound := ?_}
  · rw [← h.pinned hw hr₀ halive₀ hserver]
    exact ha.pinned
  · rw [← checkTools_congr (h.tools d hd hhead)]
    exact ha.bound

theorem Alike.policy (h : Alike env w w') (hw : Sound env w) (hw' : Sound env w') (p : Policy ρ)
    (actorId : String) :
    Alike env ((Call.setPolicy p actorId).step env w) ((Call.setPolicy p actorId).step env w') := by
  rcases step_policy env p actorId w with ⟨hstep, hnot⟩ | ⟨⟨r, d, ha⟩, hstep⟩
  · rcases step_policy env p actorId w' with ⟨hstep', -⟩ | ⟨⟨r, d, ha⟩, -⟩
    · rw [hstep, hstep']
      exact h
    · exact absurd (h.symm.accepts hw' ha) (hnot r d)
  · rcases step_policy env p actorId w' with ⟨-, hnot⟩ | ⟨-, hstep'⟩
    · exact absurd (h.accepts hw ha) (hnot r d)
    · rw [hstep, hstep']
      refine ⟨?_, h.admitted, h.revisions, h.servers, h.tools⟩
      change Function.update w.policies _ _ = Function.update w'.policies _ _
      rw [h.policies]

omit [DecidableEq δ] in
theorem Alike.discoverLeft (h : Alike env w w') (hw : Sound env w) (hq : c.quarantined env = true)
    (hc : (Call.discover c).meets env w) : Alike env (discover env c w).2 w' := by
  rw [step_discover]
  split
  next hnew => exact h.quarantined hw hq hnew.2 (hc hq hnew.2)
  next => exact h

omit [DecidableEq δ] in
theorem Alike.discover (h : Alike env w w') (hd : Distinct env) (hw : Sound env w)
    (hw' : Sound env w') {c : Discovery}
    (hc : (Call.discover c).meets env w) (hc' : (Call.discover c).meets env w') :
    Alike env (Mcp.discover env c w).2 (Mcp.discover env c w').2 := by
  cases hq : c.quarantined env with
  | true => exact ((h.discoverLeft hw hq hc).symm.discoverLeft hw' hq hc').symm
  | false =>
    have hid : (c.revision env).revisionId = env.revisionId c.definition.serverId
        (env.definitionSha256 c.definition) .discovered := by
      simp [Discovery.revision, Discovery.state, hq]
    have hsame : w.revisions (c.revision env).revisionId =
        w'.revisions (c.revision env).revisionId := by
      rcases h.revisions (c.revision env).revisionId with hsame | ⟨⟨s, d, he⟩, -⟩
      · exact hsame
      · cases (hd.revision _ _ _ _ _ _ (hid.symm.trans he)).2.2
    rw [step_discover, step_discover, ← hsame]
    split
    · exact h.recorded hq
    · exact h

theorem alike_step (hd : Distinct env) (h : Alike env w w') (hw : Sound env w)
    (hw' : Sound env w') {c : Call ρ} (hc : c.meets env w) (hc' : c.meets env w') :
    Alike env (c.step env w) (c.step env w') := by
  have hlife : ∀ id, c.target = some id → Alike env (c.step env w) (c.step env w') := by
    intro id hid
    rw [step_lifecycle env hid (hw.ids id), step_lifecycle env hid (hw'.ids id)]
    exact h.lifecycled hw c id
  cases c with
  | discover c => exact h.discover hd hw hw' hc hc'
  | setPolicy p actorId => exact h.policy hw hw' p actorId
  | invoke a runner => exact h
  | _ => exact hlife _ rfl

theorem alike_run (hd : Distinct env) {calls : List (Call ρ)} (h : Alike env w w')
    (hw : Sound env w) (hw' : Sound env w') (hc : Meets env calls w) (hc' : Meets env calls w') :
    Alike env (run env calls w) (run env calls w') := by
  induction calls generalizing w w' with
  | nil => exact h
  | cons c rest ih =>
    exact ih (alike_step hd h hw hw' hc.1 hc'.1) (sound_step hw hc.1) (sound_step hw' hc'.1)
      hc.2 hc'.2

variable {tool : ToolDefinition}

omit [DecidableEq ρ] in
theorem named_tool (hd : Distinct env) (hw : Sound env w) {a : InvokeArgs}
    (ha : Admits env a w p r tool) (hpinned : pinnedDefinition env r w = .ok d) :
    a.toolId ∈ d.toolIds := by
  obtain ⟨r₀, d₀, hr₀, hd₀, hset⟩ := hw.policies _ _ ha.stored
  obtain ⟨r₁, hr₁, -, -, hsha, -⟩ := read_stored ha.read
  obtain rfl := Option.some.inj (hr₀.symm.trans hr₁)
  have hsame : d = d₀ :=
    hd.definition ((pinnedDefinition_eq_ok.mp hpinned).2.trans (hsha.trans hd₀.symm))
  simp only [sameSet, Bool.and_eq_true, List.all_eq_true, List.contains_iff_mem] at hset
  rw [hsame]
  refine hset.1 _ ?_
  exact PyDict.mem_keys_iff.mpr ⟨_, ha.permitted⟩

omit [DecidableEq ρ] in
theorem Alike.admits (h : Alike env w w') (hd : Distinct env) (hw : Sound env w) {a : InvokeArgs}
    (ha : Admits env a w p r tool) : Admits env a w' p r tool := by
  have halive : ¬Dead r := approved_not_dead (Or.inr (Or.inl ha.enabled))
  obtain ⟨r₀, hr₀, halive₀, hserver, -, hread⟩ := h.read ha.read halive
  obtain ⟨d, hpinned⟩ := ha.pinned
  obtain ⟨hmem, hhead⟩ := pinned_admitted hw hr₀ halive₀ hserver hpinned
  have htool : w.tools a.toolId = w'.tools a.toolId :=
    h.tools d hmem hhead _ (named_tool hd hw ha hpinned)
  refine {ha with stored := ?_, read := hread, pinned := ⟨d, ?_⟩, cataloged := ?_}
  · rw [← h.policies]
    exact ha.stored
  · rw [← h.pinned hw hr₀ halive₀ hserver]
    exact hpinned
  · have hsame : catalogedTool env a.toolId w = catalogedTool env a.toolId w' := by
      unfold catalogedTool
      rw [htool]
    rw [← hsame]
    exact ha.cataloged

omit [DecidableEq ρ] in
theorem Alike.checked (h : Alike env w w') (hd : Distinct env) (hw : Sound env w)
    (hw' : Sound env w') (a : InvokeArgs) :
    (checkInvoke env a w).toOption = (checkInvoke env a w').toOption := by
  have hiff : ∀ x : ServerRevision δ ρ × ToolDefinition,
      checkInvoke env a w = .ok x ↔ checkInvoke env a w' = .ok x := by
    intro (r, tool)
    rw [checkInvoke_eq_ok, checkInvoke_eq_ok]
    constructor
    · rintro ⟨p, ha⟩
      exact ⟨p, h.admits hd hw ha⟩
    · rintro ⟨p, ha⟩
      exact ⟨p, h.symm.admits hd hw' ha⟩
  cases hx : checkInvoke env a w with
  | ok x => rw [(hiff x).mp hx]
  | error e =>
    cases hx' : checkInvoke env a w' with
    | ok x =>
      rw [(hiff x).mpr hx'] at hx
      cases hx
    | error e' => rfl

end RaytSystem.Mcp

