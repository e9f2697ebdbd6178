import RaytSystem.AcpSafety

/-! Every interleaving of calls on the ACP adapter keeps its sessions safe. -/
namespace RaytSystem.Acp
open Canonical Interleaving RecordTable
variable {rules : AcpRules} {w : AcpWorld}

def acpRule (rules : AcpRules) : Discipline AcpWorld AcpAccess where
  inv := Sound rules
  rely w w' := w.moments <+: w'.moments
  assume := Fresh
  guar _ w w' := w.moments <+: w'.moments

theorem guar_refl {l : AcpAccess} (w : AcpWorld) (_ : Sound rules w) :
    (acpRule rules).guar l w w := List.prefix_rfl

abbrev Keeps (rules : AcpRules) (p : AcpProg Unit) (w : AcpWorld) : Prop :=
  Ensures (acpRule rules) p (fun _ _ => True) w

section
variable {e : AcpEvent} {payload : String} {begun : ℕ} {t : AcpEventType} {eventId : String}

def Authorised (rules : AcpRules) (e : AcpEvent) (payload : String) (begun : ℕ) (w : AcpWorld) :
    Prop :=
  begun ≤ w.moments.length ∧
    (e.eventType.decided = true → Decided rules (w.since begun) e.eventType e.eventId payload) ∧
    (e.eventType.privileged = true → Approved rules (w.since begun) e.eventType e.eventId payload)

theorem Decided.later {moments moments' : List Moment} (h : Decided rules moments t eventId payload)
    (hsub : moments ⊆ moments') : Decided rules moments' t eventId payload := by
  obtain ⟨m, hm, rest⟩ := h
  exact ⟨m, hsub hm, rest⟩

theorem Approved.later {moments moments' : List Moment}
    (h : Approved rules moments t eventId payload) (hsub : moments ⊆ moments') :
    Approved rules moments' t eventId payload := by
  obtain ⟨m, hm, approvalId, a, ha, ⟨m', hm', hcovers⟩, m'', hm'', hrevoked⟩ := h
  exact ⟨m, hsub hm, approvalId, a, ha, ⟨m', hsub hm', hcovers⟩, m'', hsub hm'', hrevoked⟩

end

theorem sound_empty (first : Moment) (sessions : String → Option RuntimeSession) :
    Sound rules ⟨fun _ => [], fun _ => [], fun _ => [], fun _ => [], sessions, first.authority,
      first.clock, [first], [], []⟩ where
  live _ _ h := by cases h
  unborn _ _ := ⟨rfl, rfl⟩
  apart _ _ _ _ h := by cases h
  sets _ _ h := by cases h
  issued _ h := by cases h
  redeemed := List.nodup_nil
  current := rfl

section
open JsonText

instance (l : AcpAccess) (w : AcpWorld) : Decidable (Fresh l w) :=
  match l with
  | .issue digest => inferInstanceAs (Decidable (digest ∉ w.issued))
  | .other => inferInstanceAs (Decidable True)

def sampleEvent (raw : List (String × PyValue)) : AcpEvent :=
  match raw.lookup "tool" with
  | some _ => ⟨"acpevt_", "session", 2, .toolCall, "", some "decision", some "approval", true, 0⟩
  | none => ⟨"acpevt_", "session", 1, .message, "", none, none, true, 0⟩

def sampleRules : AcpRules where
  canonical := ⟨id, toString, fun _ _ => "", fun _ => ""⟩
  validateEvent := fun raw => some (sampleEvent raw)
  eventIdentity := fun _ => .none
  blocksProcessing := fun _ => false
  tokenHex := toString
  tokenSha256 := id
  capabilitySetId := fun _ capabilities => dumps (.list (capabilities.map .str))
  sessionId := fun _ _ _ _ => "session"
  decisionId := fun d => d.policyDecisionId
  approvalId := fun a => a.approvalId
  executionApprovalId := fun a => a.approvalId

def sampleAuthority : Authority where
  decisions _ := some ⟨"decision", "acp_tool_call", "acpevt_", "", none, .allow⟩
  approvals _ := some (.record
    ⟨"approval", true, "acp_tool_call", "acpevt_", "", none, requiredScope, 3, 7⟩)
  revokedAfter := some 2

def sampleCalls (i : ℕ) : AcpCall :=
  match i with
  | 0 => .start "run" "adapter" "workspace" "1" ["messages", "tool_calls", "session_resume"]
  | 1 => .acceptEvent []
  | 2 => .tick 5
  | 3 => .acceptEvent [("tool", .str "lint")]
  | 4 => .tick 9
  | 5 => .resume "session" "0"
  | _ => .close "session"

def samplePool : Pool ℕ AcpWorld AcpAccess String Unit :=
  acpPool sampleRules sampleCalls ⟨sampleAuthority, 0⟩ fun _ => some ⟨true, "adapter", "workspace"⟩

def sampleRun : Pool ℕ AcpWorld AcpAccess String Unit :=
  [(0, [0]), (1, []), (2, []), (3, []), (4, []), (5, [1]), (6, [])].foldl
    (fun c step => c.advance (fun _ l w => decide (Fresh l w)) step.1 9 step.2) samplePool

theorem sampleRun_reachable :
    Pool.Reachable (fun _ => Fresh) (fun _ w => w) samplePool sampleRun := by
  have hok : ∀ (_ : ℕ) l w, decide (Fresh l w) = true → Fresh l w :=
    fun _ _ _ h => of_decide_eq_true h
  have hsteps (steps : List (ℕ × List ℕ)) (c : Pool ℕ AcpWorld AcpAccess String Unit) :
      Pool.Reachable (fun _ => Fresh) (fun _ w => w) c
        (steps.foldl (fun c step => c.advance (fun _ l w => decide (Fresh l w)) step.1 9 step.2)
          c) := by
    induction steps generalizing c with
    | nil => exact .refl
    | cons step rest ih =>
      exact (Pool.advance_reachable hok c step.1 9 step.2).trans (ih _)
  exact hsteps _ samplePool

end

end RaytSystem.Acp
