import RaytSystem.McpSteps

/-! Runs of the catalog: an approved revision keeps the tools that it was approved with, as long
as no quarantined discovery names anything of an admitted one. -/
namespace RaytSystem.Mcp
open JsonText Function

section
variable {δ ρ : Type} [DecidableEq δ] [DecidableEq ρ] (env : McpEnv δ ρ)

def Apart (c : Discovery) (w : McpWorld δ ρ) : Prop :=
  ∀ d ∈ w.admitted, w.servers d.serverId = some d →
    (c.definition.serverId = d.serverId → c.definition = d) ∧
      ∀ x ∈ c.tools, x.1.toolId ∈ d.toolIds → w.tools x.1.toolId = some ⟨x.1, x.2⟩

def Call.meets : Call ρ → McpWorld δ ρ → Prop
  | .discover c, w => c.quarantined env = true →
      w.revisions (c.revision env).revisionId = none → Apart c w
  | _, _ => True

def Meets : List (Call ρ) → McpWorld δ ρ → Prop
  | [], _ => True
  | c :: rest, w => c.meets env w ∧ Meets rest (c.step env w)

structure Distinct : Prop where
  definition : Function.Injective env.definitionSha256
  revision : ∀ s d q s' d' q', env.revisionId s d q = env.revisionId s' d' q' →
    s = s' ∧ d = d' ∧ q = q'
end

section
variable {δ ρ : Type} (env : McpEnv δ ρ)

def Dead (r : ServerRevision δ ρ) : Prop := r.state = .quarantined ∨ r.state = .blocked

def Approved (r : ServerRevision δ ρ) : Prop :=
  r.state = .approved ∨ r.state = .enabled ∨ r.state = .disabled ∨ r.state = .degraded

def Held (w : McpWorld δ ρ) (r : ServerRevision δ ρ) (tools : String → Option ToolRecord) : Prop :=
  ∀ d, w.servers r.serverId = some d → env.definitionSha256 d = r.definitionSha256 →
    ∀ t ∈ d.toolIds, w.tools t = tools t ∨
      ∀ record, w.tools t = some record → record.tool.serverId ≠ r.serverId

structure Sound (w : McpWorld δ ρ) : Prop where
  ids : ∀ id r, w.revisions id = some r → r.revisionId = id
  origin : ∀ id r, w.revisions id = some r → ¬Dead r →
    id = env.revisionId r.serverId r.definitionSha256 .discovered ∧
      ∃ d ∈ w.admitted, d.serverId = r.serverId ∧ env.definitionSha256 d = r.definitionSha256
  heads : ∀ d ∈ w.admitted, ∃ d' ∈ w.admitted, d'.serverId = d.serverId ∧
    w.servers d.serverId = some d'
  approved : ∀ id r, w.revisions id = some r → Approved r →
    r.approvedBy.isSome ∧ r.approvalId.isSome ∧
      ∃ tools, w.approvedTools id = some tools ∧ Held env w r tools
  policies : ∀ k p, w.policies k = some p → ∃ r d, w.revisions p.serverRevisionId = some r ∧
    env.definitionSha256 d = r.definitionSha256 ∧ sameSet p.toolPolicies.keys d.toolIds = true

theorem approved_not_dead {r : ServerRevision δ ρ} (h : Approved r) : ¬Dead r := by
  intro hd
  rcases hd with hd | hd <;> simp [Approved, hd] at h

theorem sound_empty : Sound env (McpWorld.empty : McpWorld δ ρ) where
  ids _ _ h := nomatch h
  origin _ _ h := nomatch h
  heads _ h := nomatch h
  approved _ _ h := nomatch h
  policies _ _ h := nomatch h

variable {xs : List (ToolDefinition × Value)}

theorem appendTools_other {tools : String → Option ToolRecord} {t : String}
    (h : ∀ x ∈ xs, x.1.toolId ≠ t) : appendTools tools xs t = tools t := by
  induction xs generalizing tools with
  | nil => rfl
  | cons x rest ih =>
    rw [appendTools, ih fun y hy => h y (List.mem_cons_of_mem _ hy),
      update_of_ne (Ne.symm (h x List.mem_cons_self))]

theorem appendTools_named {t : String} (h : ∃ x ∈ xs, x.1.toolId = t) :
    ∃ x ∈ xs, x.1.toolId = t ∧ ∀ tools', appendTools tools' xs t = some ⟨x.1, x.2⟩ := by
  induction xs with
  | nil => obtain ⟨x, hx, _⟩ := h; cases hx
  | cons x rest ih =>
    by_cases hrest : ∃ y ∈ rest, y.1.toolId = t
    · obtain ⟨y, hy, hyt, hval⟩ := ih hrest
      exact ⟨y, List.mem_cons_of_mem _ hy, hyt, fun tools' => hval _⟩
    · have hx : x.1.toolId = t := by
        obtain ⟨y, hy, hyt⟩ := h
        rcases List.mem_cons.mp hy with rfl | hy
        · exact hyt
        · exact absurd ⟨y, hy, hyt⟩ hrest
      refine ⟨x, List.mem_cons_self, hx, fun tools' => ?_⟩
      rw [appendTools, appendTools_other fun y hy hyt => hrest ⟨y, hy, hyt⟩, ← hx,
        update_self]

theorem admitted_tools {c : Discovery} (h : c.quarantined env = false) :
    (∀ t, t ∈ c.definition.toolIds ↔ ∃ x ∈ c.tools, x.1.toolId = t) ∧
      ∀ x ∈ c.tools, x.1.serverId = c.definition.serverId := by
  have hnone : quarantineReasons env c = [] := by simpa [Discovery.quarantined] using h
  simp only [quarantineReasons, List.append_eq_nil_iff, List.flatMap_eq_nil_iff, toolReasons] at hnone
  have hset : sameSet (c.tools.map fun x => x.1.toolId) c.definition.toolIds = true := by
    have h3 := hnone.1.1.1.1.1.2
    simpa [reasonIf] using h3
  have hserver : ∀ x ∈ c.tools, x.1.serverId = c.definition.serverId := by
    intro x hx
    have h4 := (hnone.1.1.1.1.2 x hx).1.1.1
    simpa [reasonIf] using h4
  refine ⟨?_, hserver⟩
  intro t
  simp only [sameSet, Bool.and_eq_true, List.all_eq_true, List.contains_iff_mem] at hset
  constructor
  · intro ht
    obtain ⟨x, hx, hxt⟩ := List.mem_map.mp (hset.2 t ht)
    exact ⟨x, hx, hxt⟩
  · rintro ⟨x, hx, rfl⟩
    exact hset.1 _ (List.mem_map_of_mem hx)
end
section
variable {δ ρ : Type} [DecidableEq δ] [DecidableEq ρ] {env : McpEnv δ ρ} {w : McpWorld δ ρ}
variable {c : Discovery} {r : ServerRevision δ ρ}

omit [DecidableEq δ] in
theorem held_recorded {tools : String → Option ToolRecord} (h : Held env w r tools)
    (hserver : r.serverId ≠ c.definition.serverId)
    (htools : ∀ d, w.servers r.serverId = some d → env.definitionSha256 d = r.definitionSha256 →
      ∀ t ∈ d.toolIds, (∃ x ∈ c.tools, x.1.toolId = t) → ∀ x ∈ c.tools, x.1.serverId ≠ r.serverId) :
    Held env (recordDiscovery env c w) r tools := by
  intro d hd hsha t ht
  have hd' : w.servers r.serverId = some d := by
    rw [← hd]
    exact (update_of_ne hserver _ _).symm
  by_cases hnamed : ∃ x ∈ c.tools, x.1.toolId = t
  · obtain ⟨x, hx, -, hval⟩ := appendTools_named hnamed
    refine Or.inr ?_
    intro record hrecord
    obtain rfl := Option.some.inj ((hval w.tools).symm.trans hrecord)
    exact htools d hd' hsha t ht hnamed x hx
  · have hsame : (recordDiscovery env c w).tools t = w.tools t :=
      appendTools_other fun x hx hxt => hnamed ⟨x, hx, hxt⟩
    rw [hsame]
    exact h d hd' hsha t ht

variable {d : ServerDefinition}

omit [DecidableEq δ] in
theorem apart_servers (hw : Sound env w) (h : Apart c w) (hd : d ∈ w.admitted) :
    (recordDiscovery env c w).servers d.serverId = w.servers d.serverId := by
  by_cases hserver : d.serverId = c.definition.serverId
  · obtain ⟨d', hd', hsame, hhead⟩ := hw.heads d hd
    have hhead' : w.servers d'.serverId = some d' := hsame ▸ hhead
    have heq : c.definition = d' := (h d' hd' hhead').1 (hserver.symm.trans hsame.symm)
    have hself : (recordDiscovery env c w).servers c.definition.serverId = some c.definition :=
      update_self ..
    rw [hhead, hserver, hself, heq]
  · exact update_of_ne hserver _ _

omit [DecidableEq δ] in
theorem apart_tools (h : Apart c w) (hd : d ∈ w.admitted) (hhead : w.servers d.serverId = some d) :
    ∀ t ∈ d.toolIds, (recordDiscovery env c w).tools t = w.tools t := by
  intro t ht
  by_cases hnamed : ∃ x ∈ c.tools, x.1.toolId = t
  · obtain ⟨x, hx, rfl, hval⟩ := appendTools_named hnamed
    exact (hval w.tools).trans ((h d hd hhead).2 x hx ht).symm
  · exact appendTools_other fun x hx hxt => hnamed ⟨x, hx, hxt⟩

omit [DecidableEq δ] in
theorem recorded_revision {id : ρ} (h : (recordDiscovery env c w).revisions id = some r) :
    (id = (c.revision env).revisionId ∧ r = c.revision env) ∨
      (id ≠ (c.revision env).revisionId ∧ w.revisions id = some r) := by
  by_cases hid : id = (c.revision env).revisionId
  · subst hid
    have hself : (recordDiscovery env c w).revisions (c.revision env).revisionId =
        some (c.revision env) := update_self ..
    exact Or.inl ⟨rfl, (Option.some.inj (hself.symm.trans h)).symm⟩
  · exact Or.inr ⟨hid, (update_of_ne hid _ _).symm.trans h⟩

omit [DecidableEq δ] in
theorem admitted_kept (d : ServerDefinition) (hd : d ∈ w.admitted) :
    d ∈ (recordDiscovery env c w).admitted := by
  simp only [recordDiscovery]
  split
  · exact hd
  · exact List.mem_cons_of_mem _ hd

omit [DecidableEq δ] in
theorem revision_kept (hnew : w.revisions (c.revision env).revisionId = none) {id : ρ}
    (hr : w.revisions id = some r) : (recordDiscovery env c w).revisions id = some r := by
  have hid : id ≠ (c.revision env).revisionId := by
    rintro rfl
    rw [hnew] at hr
    cases hr
  exact (update_of_ne hid _ _).trans hr

omit [DecidableEq δ] in
theorem recorded_ids (hw : Sound env w) :
    ∀ id r, (recordDiscovery env c w).revisions id = some r → r.revisionId = id := by
  intro id r hr
  rcases recorded_revision hr with ⟨rfl, rfl⟩ | ⟨-, hr⟩
  · rfl
  · exact hw.ids id r hr

omit [DecidableEq δ] in
theorem recorded_policies {c : Discovery} (hw : Sound env w)
    (hnew : w.revisions (c.revision env).revisionId = none) : ∀ k p,
    (recordDiscovery env c w).policies k = some p →
      ∃ r d, (recordDiscovery env c w).revisions p.serverRevisionId = some r ∧
        env.definitionSha256 d = r.definitionSha256 ∧
        sameSet p.toolPolicies.keys d.toolIds = true := by
  intro k p hp
  obtain ⟨r, d, hr, hd⟩ := hw.policies k p hp
  exact ⟨r, d, revision_kept hnew hr, hd⟩

omit [DecidableEq δ] in
theorem sound_quarantined (hw : Sound env w) (hnew : w.revisions (c.revision env).revisionId = none)
    (hq : c.quarantined env = true) (hapart : Apart c w) : Sound env (recordDiscovery env c w) := by
  have hadmitted : (recordDiscovery env c w).admitted = w.admitted := by simp [recordDiscovery, hq]
  have hstate : (c.revision env).state = .quarantined := by
    simp [Discovery.revision, Discovery.state, hq]
  refine ⟨?_, ?_, ?_, ?_, ?_⟩
  · exact recorded_ids hw
  · intro id r hr halive
    rcases recorded_revision hr with ⟨rfl, rfl⟩ | ⟨-, hr⟩
    · exact absurd (Or.inl hstate) halive
    · obtain ⟨hid, d, hd, hd'⟩ := hw.origin id r hr halive
      exact ⟨hid, d, admitted_kept d hd, hd'⟩
  · intro d hd
    rw [hadmitted] at hd
    obtain ⟨d', hd', hsame, hhead⟩ := hw.heads d hd
    exact ⟨d', admitted_kept d' hd', hsame, (apart_servers hw hapart hd).trans hhead⟩
  · intro id r hr happroved
    rcases recorded_revision hr with ⟨rfl, rfl⟩ | ⟨-, hr⟩
    · exact absurd (Or.inl hstate) (approved_not_dead happroved)
    · obtain ⟨hby, hid, tools, htools, hheld⟩ := hw.approved id r hr happroved
      obtain ⟨-, d, hd, hserver, -⟩ := hw.origin id r hr (approved_not_dead happroved)
      refine ⟨hby, hid, tools, htools, ?_⟩
      intro d' hhead hsha t ht
      have hkept' : w.servers r.serverId = some d' := by
        rw [← hhead, ← hserver]
        exact (apart_servers hw hapart hd).symm
      obtain ⟨d'', hd'', hsame, hhead'⟩ := hw.heads d hd
      rw [hserver, hkept'] at hhead'
      obtain rfl := Option.some.inj hhead'
      have hown : w.servers d'.serverId = some d' := by
        rw [hsame, hserver]
        exact hkept'
      rw [apart_tools hapart hd'' hown t ht]
      exact hheld d' hkept' hsha t ht
  · exact recorded_policies hw hnew

omit [DecidableEq δ] in
theorem sound_discovered (hw : Sound env w) (hnew : w.revisions (c.revision env).revisionId = none)
    (hq : c.quarantined env = false) : Sound env (recordDiscovery env c w) := by
  have hheads : ∀ d : ServerDefinition, d.serverId ≠ c.definition.serverId →
      (recordDiscovery env c w).servers d.serverId = w.servers d.serverId :=
    fun d hd => update_of_ne hd _ _
  have hself : (recordDiscovery env c w).servers c.definition.serverId = some c.definition :=
    update_self ..
  have hadmitted : (recordDiscovery env c w).admitted = c.definition :: w.admitted := by
    simp [recordDiscovery, hq]
  have hstate : (c.revision env).state = .discovered := by
    simp [Discovery.revision, Discovery.state, hq]
  have hid : (c.revision env).revisionId = env.revisionId c.definition.serverId
      (env.definitionSha256 c.definition) .discovered := by
    simp [Discovery.revision, Discovery.state, hq]
  refine ⟨?_, ?_, ?_, ?_, ?_⟩
  · exact recorded_ids hw
  · intro id r hr halive
    rcases recorded_revision hr with ⟨rfl, rfl⟩ | ⟨-, hr⟩
    · refine ⟨hid, c.definition, ?_, rfl, rfl⟩
      rw [hadmitted]
      exact List.mem_cons_self
    · obtain ⟨hid', d, hd, hd'⟩ := hw.origin id r hr halive
      exact ⟨hid', d, admitted_kept d hd, hd'⟩
  · intro d hd
    by_cases hserver : d.serverId = c.definition.serverId
    · refine ⟨c.definition, ?_, hserver.symm, by rw [hserver, hself]⟩
      rw [hadmitted]
      exact List.mem_cons_self
    · rw [hadmitted] at hd
      rcases List.mem_cons.mp hd with rfl | hd
      · exact absurd rfl hserver
      · obtain ⟨d', hd', hsame, hhead⟩ := hw.heads d hd
        exact ⟨d', admitted_kept d' hd', hsame, (hheads d hserver).trans hhead⟩
  · intro id r hr happroved
    rcases recorded_revision hr with ⟨rfl, rfl⟩ | ⟨hne, hr⟩
    · simp [Approved, hstate] at happroved
    · obtain ⟨hby, hap, tools, htools, hheld⟩ := hw.approved id r hr happroved
      obtain ⟨horigin, -⟩ := hw.origin id r hr (approved_not_dead happroved)
      refine ⟨hby, hap, tools, htools, ?_⟩
      by_cases hserver : r.serverId = c.definition.serverId
      · -- the server's definition is another one now, so the revision is not pinned
        intro d hd hsha
        rw [hserver, hself] at hd
        obtain rfl := Option.some.inj hd
        refine absurd ?_ hne
        rw [horigin, hid, hserver, hsha]
      · refine held_recorded hheld hserver ?_
        intro d _ _ t _ _ x hx
        rw [(admitted_tools env hq).2 x hx]
        exact Ne.symm hserver
  · exact recorded_policies hw hnew

omit [DecidableEq δ] in
theorem sound_recorded (hw : Sound env w) (hnew : w.revisions (c.revision env).revisionId = none)
    (happart : c.quarantined env = true → Apart c w) : Sound env (recordDiscovery env c w) := by
  cases hq : c.quarantined env with
  | true => exact sound_quarantined hw hnew hq (happart hq)
  | false => exact sound_discovered hw hnew hq

omit [DecidableEq δ] [DecidableEq ρ] in
/-- How a revision moves: a dead one is blocked at most, and an approval comes from the call that
gives it or was there before. -/
theorem change_cases {pinned : ServerRevision δ ρ → Bool} {c : Call ρ} {r r' : ServerRevision δ ρ}
    (h : change pinned c r = some r') : r'.revisionId = r.revisionId ∧ r'.serverId = r.serverId ∧
      r'.definitionSha256 = r.definitionSha256 ∧ (Dead r → r'.state = .blocked) ∧
      (Approved r' →
        (r'.approvedBy.isSome ∧ r'.approvalId.isSome ∧ ∃ i a b ok, c = .approve i a b ok) ∨
        (Approved r ∧ r'.approvedBy = r.approvedBy ∧ r'.approvalId = r.approvalId ∧
          ∀ i a b ok, c ≠ .approve i a b ok)) := by
  unfold change at h
  split at h <;> try cases h
  all_goals
    split at h
    next hcond =>
      obtain rfl := Option.some.inj h
      refine ⟨rfl, rfl, rfl, ?_, ?_⟩
      · rintro (hd | hd) <;> simp [hd] at hcond ⊢
      · simp_all [Approved] <;> tauto
    next => cases h

variable {r' : ServerRevision δ ρ}

omit [DecidableEq ρ] in
theorem revised_cases {c : Call ρ} {id : ρ} (h : revised env w c id = some r') :
    ∃ r, w.revisions id = some r ∧
      r'.revisionId = r.revisionId ∧ r'.serverId = r.serverId ∧
      r'.definitionSha256 = r.definitionSha256 ∧ (Dead r → r'.state = .blocked) ∧
      (Approved r' →
        (r'.approvedBy.isSome ∧ r'.approvalId.isSome ∧ ∃ i a b ok, c = .approve i a b ok) ∨
        (Approved r ∧ r'.approvedBy.isSome = r.approvedBy.isSome ∧
          r'.approvalId.isSome = r.approvalId.isSome ∧ ∀ i a b ok, c ≠ .approve i a b ok)) := by
  unfold revised at h
  split at h
  next =>
    obtain ⟨r, hr, h⟩ := Option.bind_eq_some_iff.mp h
    obtain ⟨rf, hrf, h⟩ := Option.bind_eq_some_iff.mp h
    obtain ⟨hid, hserver, hsha, hstate, hby, hap⟩ := fit_same env hrf
    obtain ⟨hid', hserver', hsha', hdead, happroved⟩ := change_cases h
    refine ⟨r, hr, hid'.trans hid, hserver'.trans hserver, hsha'.trans hsha, ?_, ?_⟩
    · intro hd
      exact hdead (by simpa [Dead, hstate] using hd)
    · intro ha
      rcases happroved ha with hgiven | ⟨hbefore, hby', hap', hnot⟩
      · exact Or.inl hgiven
      · exact Or.inr ⟨by simpa [Approved, hstate] using hbefore, by rw [hby', hby],
          by rw [hap', hap], hnot⟩
  next => cases h

omit [DecidableEq δ] in
@[simp] theorem putRevision_self (id : ρ) (r : ServerRevision δ ρ) :
    (putRevision id r w).revisions id = some r := update_self ..

omit [DecidableEq δ] in
theorem putRevision_other {id other : ρ} (r : ServerRevision δ ρ) (h : other ≠ id) :
    (putRevision id r w).revisions other = w.revisions other := update_of_ne h _ _

omit [DecidableEq δ] in
theorem noted_same (c : Call ρ) (id : ρ) :
    (noted w c id).servers = w.servers ∧ (noted w c id).tools = w.tools ∧
      (noted w c id).revisions = w.revisions ∧ (noted w c id).policies = w.policies ∧
      (noted w c id).admitted = w.admitted := by
  unfold noted
  split <;> exact ⟨rfl, rfl, rfl, rfl, rfl⟩

omit [DecidableEq δ] in
theorem noted_other {c : Call ρ} {id other : ρ} (h : other ≠ id) :
    (noted w c id).approvedTools other = w.approvedTools other := by
  unfold noted
  split
  · exact update_of_ne h _ _
  · rfl

theorem sound_revised {c : Call ρ} {id : ρ} (hw : Sound env w) (h : revised env w c id = some r') :
    Sound env (putRevision id r' (noted w c id)) := by
  obtain ⟨r, hr, hid, hserver, hsha, hdead, happroved⟩ := revised_cases h
  obtain ⟨hservers, htools, hrevisions, hpolicies, hadmitted⟩ := noted_same (w := w) c id
  have hself : r'.revisionId = id := hid.trans (hw.ids id r hr)
  have hother : ∀ other, other ≠ id →
      (putRevision id r' (noted w c id)).revisions other = w.revisions other := by
    intro other hne
    rw [putRevision_other r' hne, hrevisions]
  refine ⟨?_, ?_, ?_, ?_, ?_⟩
  · intro i x hx
    by_cases hi : i = id
    · subst hi
      obtain rfl := Option.some.inj ((putRevision_self i r').symm.trans hx)
      exact hself
    · exact hw.ids i x ((hother i hi).symm.trans hx)
  · intro i x hx halive
    have hkeep : ∀ d ∈ w.admitted, d ∈ (putRevision id r' (noted w c id)).admitted := by
      intro d hd
      rw [← hadmitted] at hd
      exact hd
    by_cases hi : i = id
    · subst hi
      obtain rfl := Option.some.inj ((putRevision_self i r').symm.trans hx)
      have hbefore : ¬Dead r := fun hd => halive (Or.inr (hdead hd))
      obtain ⟨horigin, d, hd, hd'⟩ := hw.origin i r hr hbefore
      rw [hserver, hsha]
      exact ⟨horigin, d, hkeep d hd, hd'⟩
    · obtain ⟨horigin, d, hd, hd'⟩ := hw.origin i x ((hother i hi).symm.trans hx) halive
      exact ⟨horigin, d, hkeep d hd, hd'⟩
  · intro d hd
    change d ∈ (noted w c id).admitted at hd
    change ∃ d' ∈ (noted w c id).admitted, d'.serverId = d.serverId ∧
      (noted w c id).servers d.serverId = some d'
    rw [hadmitted] at hd ⊢
    rw [hservers]
    exact hw.heads d hd
  · intro i x hx ha
    have hheld : ∀ y tools, Held env (putRevision id r' (noted w c id)) y tools ↔
        Held env w y tools := by
      intro y tools
      unfold Held
      change (∀ d, (noted w c id).servers y.serverId = some d → _ → ∀ t ∈ d.toolIds,
        (noted w c id).tools t = tools t ∨ ∀ record, (noted w c id).tools t = some record → _) ↔ _
      rw [hservers, htools]
    by_cases hi : i = id
    · subst hi
      obtain rfl := Option.some.inj ((putRevision_self i r').symm.trans hx)
      rcases happroved ha with ⟨hby, hap, i', a, b, ok, rfl⟩ | ⟨hbefore, hby, hap, hnot⟩
      · refine ⟨hby, hap, w.tools, ?_, (hheld _ _).mpr fun d _ _ t _ => Or.inl rfl⟩
        exact update_self ..
      · obtain ⟨hby', hap', tools, hnoted, hkept⟩ := hw.approved i r hr hbefore
        refine ⟨hby.trans hby', hap.trans hap', tools, ?_, (hheld _ _).mpr ?_⟩
        · have hsame : noted w c i = w := by
            unfold noted
            split
            next i' a b ok => exact absurd rfl (hnot i' a b ok)
            next => rfl
          change (noted w c i).approvedTools i = some tools
          rw [hsame]
          exact hnoted
        · unfold Held at hkept ⊢
          rw [hserver, hsha]
          exact hkept
    · obtain ⟨hby, hap, tools, hnoted, hkept⟩ :=
        hw.approved i x ((hother i hi).symm.trans hx) ha
      exact ⟨hby, hap, tools, (noted_other hi).trans hnoted, (hheld _ _).mpr hkept⟩
  · intro k p hp
    change (noted w c id).policies k = some p at hp
    rw [hpolicies] at hp
    obtain ⟨x, d, hx, hd, hset⟩ := hw.policies k p hp
    by_cases hi : p.serverRevisionId = id
    · subst hi
      obtain rfl := Option.some.inj (hr.symm.trans hx)
      exact ⟨r', d, putRevision_self _ _, hd.trans hsha.symm, hset⟩
    · exact ⟨x, d, (hother _ hi).trans hx, hd, hset⟩

omit [DecidableEq ρ] in
theorem pinnedDefinition_eq_ok : pinnedDefinition env r w = .ok d ↔
      w.servers r.serverId = some d ∧ env.definitionSha256 d = r.definitionSha256 := by
  unfold pinnedDefinition
  cases w.servers r.serverId with
  | none => simp
  | some d' =>
    simp only [Option.some.injEq]
    split
    next h =>
      simp only [Except.ok.injEq]
      constructor
      · rintro rfl
        exact ⟨rfl, h⟩
      · exact fun hd => hd.1
    next h =>
      constructor
      · intro hd
        cases hd
      · rintro ⟨rfl, hd⟩
        exact absurd hd h

omit [DecidableEq δ] [DecidableEq ρ] in
theorem read_stored {id : ρ} (h : (w.revisions id).bind (fit env) = some r) :
    ∃ r₀, w.revisions id = some r₀ ∧
      r.revisionId = r₀.revisionId ∧ r.serverId = r₀.serverId ∧
      r.definitionSha256 = r₀.definitionSha256 ∧ r.state = r₀.state ∧
      r.approvedBy.isSome = r₀.approvedBy.isSome ∧ r.approvalId.isSome = r₀.approvalId.isSome := by
  obtain ⟨r₀, hr₀, hfit⟩ := Option.bind_eq_some_iff.mp h
  exact ⟨r₀, hr₀, fit_same env hfit⟩

omit [DecidableEq ρ] in
theorem sound_accepted {p : Policy ρ} (hw : Sound env w) (h : Accepts env p w r d) :
    Sound env {w with policies := update w.policies p.policyId (some p)} := by
  refine ⟨hw.ids, hw.origin, hw.heads, hw.approved, ?_⟩
  intro k q hq
  change update w.policies p.policyId (some p) k = some q at hq
  by_cases hk : k = p.policyId
  · subst hk
    rw [update_self] at hq
    obtain rfl := Option.some.inj hq
    obtain ⟨r₀, hr₀, -, -, hsha, -⟩ := read_stored h.read
    obtain ⟨-, hd⟩ := pinnedDefinition_eq_ok.mp h.pinned
    exact ⟨r₀, d, hr₀, hd.trans hsha, h.tools⟩
  · rw [update_of_ne hk] at hq
    exact hw.policies k q hq

theorem sound_step {c : Call ρ} (hw : Sound env w) (hc : c.meets env w) :
    Sound env (c.step env w) := by
  have hlife : ∀ id, c.target = some id → Sound env (c.step env w) := by
    intro id hid
    rw [step_lifecycle env hid (hw.ids id)]
    cases hr : revised env w c id with
    | none => exact hw
    | some r' => exact sound_revised hw hr
  cases c with
  | discover c =>
    change Sound env (discover env c w).2
    rw [step_discover]
    split
    next hnew => exact sound_recorded hw hnew.2 fun hq => hc hq hnew.2
    next => exact hw
  | setPolicy p actorId =>
    rcases step_policy env p actorId w with ⟨h, -⟩ | ⟨⟨r, d, ha⟩, h⟩
    · rw [h]
      exact hw
    · rw [h]
      exact sound_accepted hw ha
  | invoke a runner => exact hw
  | _ => exact hlife _ rfl

theorem sound_run {calls : List (Call ρ)} (hw : Sound env w) (h : Meets env calls w) :
    Sound env (run env calls w) := by
  induction calls generalizing w with
  | nil => exact hw
  | cons c rest ih => exact ih (sound_step hw h.1) h.2
end

end RaytSystem.Mcp
