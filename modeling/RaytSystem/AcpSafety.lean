import RaytSystem.AcpModel
import RaytSystem.ExceptRules

/-! What holds of the ACP sessions in every run of the adapter. -/
namespace RaytSystem.Acp
open Canonical Interleaving RecordTable
variable {rules : AcpRules} {w w' w'' : AcpWorld} {id : String}

def receivedSequences (rows : List AcpRow) : List ℕ :=
  rows.filterMap fun row =>
    match row.entry with
    | .received _ sequence _ _ _ _ => some sequence
    | _ => none

def AcpEntry.isFinal : AcpEntry → Bool
  | .moved state _ => !state.active
  | _ => false

/-- The decision is the stored one of just this event and payload, and lets it pass. -/
structure PolicyDecision.Permits (rules : AcpRules) (d : PolicyDecision)
    (action eventId payload : String) : Prop where
  own : rules.decisionId d = d.policyDecisionId
  action : d.action = action
  target : d.targetId = eventId
  payload : d.payloadSha256 = payload
  outcome : d.outcome = .allow ∨ d.outcome = .requireApproval

/-- The approval is of just this event and payload, and not expired at the moment `now`. -/
def Approval.Covers (rules : AcpRules) (action eventId payload : String) (now : Int) :
    Approval → Prop
  | .record a => rules.approvalId a = a.approvalId ∧ a.isApproval = true ∧ a.action = action ∧
      a.targetId = eventId ∧ a.artifactSha256 = payload ∧ a.approvedAt ≤ now ∧ now < a.expiresAt
  | .execution a => rules.executionApprovalId a = a.approvalId ∧ a.action = action ∧
      eventId ∈ a.targetBindings ∧ a.payloadSha256 = payload ∧ a.approvedAt ≤ now ∧
      now < a.expiresAt

/-- At one of the moments there was a decision for just this event and payload. -/
def Decided (rules : AcpRules) (moments : List Moment) (t : AcpEventType)
    (eventId payload : String) : Prop :=
  ∃ m ∈ moments, ∃ decisionId d, m.authority.decisions decisionId = some d ∧
    d.Permits rules t.action eventId payload

/-- Among the moments the stores had an approval of just this event and payload, which the clock did
not find expired and which was not revoked. -/
def Approved (rules : AcpRules) (moments : List Moment) (t : AcpEventType)
    (eventId payload : String) : Prop :=
  ∃ m ∈ moments, ∃ approvalId a, m.authority.approvals approvalId = some a ∧
    (∃ m' ∈ moments, a.Covers rules t.action eventId payload m'.clock) ∧
    ∃ m' ∈ moments, ∀ revokedAfter, m'.authority.revokedAfter = some revokedAfter →
      revokedAfter ≤ a.approvedAt

def AcpWorld.during (w : AcpWorld) (s : Span) : List Moment :=
  (w.moments.take s.stored).drop (s.begun - 1)

def AcpWorld.since (w : AcpWorld) (begun : ℕ) : List Moment := w.moments.drop (begun - 1)

def Negotiated (w : AcpWorld) (id capability : String) : Prop :=
  ∃ setId capabilities, (w.events id).head? = some ⟨id, .initialized setId capabilities⟩ ∧
    capability ∈ capabilities

/-- What the session negotiated and what was decided and approved in the call that accepted the
event, between its beginning and the acceptance. -/
structure EventSound (rules : AcpRules) (w : AcpWorld) (id : String) (t : AcpEventType)
    (eventId payload : String) (noted : Span) : Prop where
  past : noted.stored ≤ w.moments.length
  capable : ∀ capability, t.capability = some capability → Negotiated w id capability
  decided : t.decided = true → Decided rules (w.during noted) t eventId payload
  approved : t.privileged = true → Approved rules (w.during noted) t eventId payload

structure Safe (rules : AcpRules) (w : AcpWorld) : Prop where
  sequences : ∀ id, ∃ n, receivedSequences (w.events id) = List.range' 1 n
  /-- Nothing is noted of a session after its end. -/
  final : ∀ id before row after, w.events id = before ++ row :: after →
    row.entry.isFinal = true → after = []
  /-- No revision follows one that is not active. -/
  finalRecord : ∀ id before s after, w.sessions id = before ++ s :: after →
    s.state.active = false → after = []
  events : ∀ id, ∀ row ∈ w.events id, ∀ eventId sequence t payload redacted noted,
    row.entry = .received eventId sequence t payload redacted noted →
      EventSound rules w id t eventId payload noted
  redeemed : w.redeemed.Nodup

structure Live (rules : AcpRules) (w : AcpWorld) (id : String) (s : AcpSession) : Prop where
  own : s.acpSessionId = id
  negotiated : ∃ c, head w.capabilities s.capabilitySetId = some c ∧
    (w.events id).head? = some ⟨id, .initialized s.capabilitySetId c.value.capabilities⟩
  numbered : ∃ q, head w.sequences id = some q ∧
    receivedSequences (w.events id) = List.range' 1 q.value
  running : s.state.active = true → ∀ row ∈ w.events id, row.entry.isFinal = false
  ended : ∀ before row after, w.events id = before ++ row :: after →
    row.entry.isFinal = true → after = []
  older : ∀ r ∈ (w.sessions id).dropLast, r.state.active = true
  token : ∃ t, s.resumeTokenSha256 = some t ∧ t ∈ w.issued ∧ t ∉ w.redeemed
  rows : ∀ row ∈ w.events id, ∀ eventId sequence t payload redacted noted,
    row.entry = .received eventId sequence t payload redacted noted →
      EventSound rules w id t eventId payload noted

structure Sound (rules : AcpRules) (w : AcpWorld) : Prop where
  live : ∀ id s, head w.sessions id = some s → Live rules w id s.value
  unborn : ∀ id, head w.sessions id = none → w.events id = [] ∧ w.sequences id = []
  apart : ∀ id id' s s', head w.sessions id = some s → head w.sessions id' = some s' →
    s.value.resumeTokenSha256 = s'.value.resumeTokenSha256 → id = id'
  sets : ∀ setId c, head w.capabilities setId = some c →
    ∃ version, setId = rules.capabilitySetId version c.value.capabilities
  issued : ∀ t ∈ w.redeemed, t ∈ w.issued
  redeemed : w.redeemed.Nodup
  current : w.moments.getLast? = some w.moment

theorem Sound.safe (h : Sound rules w) : Safe rules w := by
  have hcases : ∀ id, w.events id = [] ∧ w.sessions id = [] ∨
      ∃ s, head w.sessions id = some s ∧ Live rules w id s.value := by
    intro id
    cases hs : head w.sessions id with
    | none => exact .inl ⟨(h.unborn id hs).1, head_eq_none.mp hs⟩
    | some s => exact .inr ⟨s, rfl, h.live id s hs⟩
  constructor
  · intro id
    rcases hcases id with ⟨hnone, -⟩ | ⟨s, -, hlive⟩
    · exact ⟨0, by rw [hnone]; rfl⟩
    · obtain ⟨q, -, hq⟩ := hlive.numbered
      exact ⟨q.value, hq⟩
  · intro id before row after hsplit hfinal
    rcases hcases id with ⟨hnone, -⟩ | ⟨s, -, hlive⟩
    · rw [hnone] at hsplit
      simp at hsplit
    · exact hlive.ended before row after hsplit hfinal
  · intro id before s after hsplit hended
    rcases hcases id with ⟨-, hnone⟩ | ⟨s', -, hlive⟩
    · rw [hnone] at hsplit
      simp at hsplit
    · by_contra hafter
      have hmem : s ∈ (w.sessions id).dropLast := by
        rw [hsplit, List.dropLast_append_of_ne_nil (by simp), List.dropLast_cons_of_ne_nil hafter]
        simp
      rw [hlive.older s hmem] at hended
      cases hended
  · intro id row hrow
    rcases hcases id with ⟨hnone, -⟩ | ⟨s, -, hlive⟩
    · rw [hnone] at hrow
      cases hrow
    · exact hlive.rows row hrow
  · exact h.redeemed

structure Elsewhere (id : String) (w w' : AcpWorld) : Prop where
  sessions : ∀ id', id' ≠ id → w'.sessions id' = w.sessions id'
  sequences : ∀ id', id' ≠ id → w'.sequences id' = w.sequences id'
  events : ∀ id', id' ≠ id → w'.events id' = w.events id'
  capabilities : ∀ k c, head w.capabilities k = some c → head w'.capabilities k = some c
  past : w.moments <+: w'.moments
  issued : ∀ t ∈ w.issued, t ∈ w'.issued

theorem during_later {s : Span} (hs : s.stored ≤ w.moments.length)
    (h : w.moments <+: w'.moments) : w'.during s = w.during s := by
  obtain ⟨more, hmore⟩ := h
  rw [AcpWorld.during, AcpWorld.during, ← hmore, List.take_append_of_le_length hs]

theorem EventSound.later {t : AcpEventType} {eventId payload : String} {noted : Span}
    (h : EventSound rules w id t eventId payload noted) (hpast : w.moments <+: w'.moments)
    (hevents : ∀ row, (w.events id).head? = some row → (w'.events id).head? = some row) :
    EventSound rules w' id t eventId payload noted := by
  have hduring := during_later h.past hpast
  constructor
  · exact h.past.trans hpast.length_le
  · intro capability hcapability
    obtain ⟨setId, capabilities, hhead, hmem⟩ := h.capable capability hcapability
    exact ⟨setId, capabilities, hevents _ hhead, hmem⟩
  · rw [hduring]
    exact h.decided
  · rw [hduring]
    exact h.approved

theorem Live.other {s : AcpSession} {id' : String} (h : Live rules w id' s)
    (he : Elsewhere id w w') (hne : id' ≠ id)
    (hredeemed : ∀ t, s.resumeTokenSha256 = some t → t ∈ w'.redeemed → t ∈ w.redeemed) :
    Live rules w' id' s := by
  have hevents := he.events id' hne
  have hsequences : head w'.sequences id' = head w.sequences id' := by
    simp only [head, he.sequences id' hne]
  constructor
  · exact h.own
  · obtain ⟨c, hc, hrow⟩ := h.negotiated
    exact ⟨c, he.capabilities _ _ hc, by rw [hevents]; exact hrow⟩
  · obtain ⟨q, hq, hnumbers⟩ := h.numbered
    exact ⟨q, by rw [hsequences]; exact hq, by rw [hevents]; exact hnumbers⟩
  · rw [hevents]
    exact h.running
  · rw [hevents]
    exact h.ended
  · rw [he.sessions id' hne]
    exact h.older
  · obtain ⟨t, ht, hissued, hnew⟩ := h.token
    exact ⟨t, ht, he.issued t hissued, fun hmem => hnew (hredeemed t ht hmem)⟩
  · rw [hevents]
    intro row hrow eventId sequence t payload redacted noted hentry
    exact (h.rows row hrow eventId sequence t payload redacted noted hentry).later he.past
      fun _ hhead => by rw [hevents]; exact hhead

theorem Sound.at (id : String) {s' : Stored AcpSession} (h : Sound rules w) (he : Elsewhere id w w')
    (hhead : head w'.sessions id = some s') (hlive : Live rules w' id s'.value)
    (hother : ∀ id' s t, id' ≠ id → head w.sessions id' = some s →
      s.value.resumeTokenSha256 = some t →
        (t ∈ w'.redeemed → t ∈ w.redeemed) ∧ s'.value.resumeTokenSha256 ≠ some t)
    (hsets : ∀ setId c, head w'.capabilities setId = some c →
      ∃ version, setId = rules.capabilitySetId version c.value.capabilities)
    (hissued : ∀ t ∈ w'.redeemed, t ∈ w'.issued) (hredeemed : w'.redeemed.Nodup)
    (hcurrent : w'.moments.getLast? = some w'.moment) : Sound rules w' := by
  have hheads : ∀ id', id' ≠ id → head w'.sessions id' = head w.sessions id' := by
    intro id' hne
    simp only [head, he.sessions id' hne]
  constructor
  · intro id' s hs
    by_cases hid : id' = id
    · subst hid
      rw [hhead] at hs
      cases hs
      exact hlive
    · rw [hheads id' hid] at hs
      exact (h.live id' s hs).other he hid fun t ht => (hother id' s t hid hs ht).1
  · intro id' hs
    by_cases hid : id' = id
    · subst hid
      rw [hhead] at hs
      cases hs
    · rw [hheads id' hid] at hs
      rw [he.events id' hid, he.sequences id' hid]
      exact h.unborn id' hs
  · intro id₁ id₂ s₁ s₂ h₁ h₂ hsame
    by_cases hid₁ : id₁ = id
    · by_cases hid₂ : id₂ = id
      · rw [hid₁, hid₂]
      · subst hid₁
        rw [hhead] at h₁
        cases h₁
        rw [hheads id₂ hid₂] at h₂
        obtain ⟨t, ht, -⟩ := (h.live id₂ s₂ h₂).token
        exact absurd (hsame.trans ht) (hother id₂ s₂ t hid₂ h₂ ht).2
    · rw [hheads id₁ hid₁] at h₁
      by_cases hid₂ : id₂ = id
      · subst hid₂
        rw [hhead] at h₂
        cases h₂
        obtain ⟨t, ht, -⟩ := (h.live id₁ s₁ h₁).token
        exact absurd (hsame.symm.trans ht) (hother id₁ s₁ t hid₁ h₁ ht).2
      · rw [hheads id₂ hid₂] at h₂
        exact h.apart id₁ id₂ s₁ s₂ h₁ h₂ hsame
  · exact hsets
  · exact hissued
  · exact hredeemed
  · exact hcurrent

section
variable {record : Stored AcpSession} {s : AcpSession} {now : Int} {target : SessionState}
  {detail : List (String × String)}

theorem found_eq_ok {α : Type} {x : Option α} {message : String} {a : α} :
    found x message = .ok a ↔ x = some a := by
  cases x <;> simp [found]

theorem requires_eq_ok {b : Bool} {message : String} {u : Unit} :
    requires b message = .ok u ↔ b = true := by
  cases b <;> simp [requires]

variable {expected : Option ℕ}

variable {updated : AcpSession}

variable {c : AcpCapabilitySet}

end

end RaytSystem.Acp
