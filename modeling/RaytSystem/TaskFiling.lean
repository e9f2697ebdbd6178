import RaytSystem.ProgramAccess
import RaytSystem.TaskCommitted
import RaytSystem.TaskRuns

/-! Every file of the task ledger lies under its own digest, so that a publication meets no other
content. -/
namespace RaytSystem.Tasking
open Interleaving ImmutableStore Prog TaskEvent

structure Filed (env : TaskEnv) (s : TaskStore) : Prop where
  tasks : ∀ sha t, s.objects sha = some t → env.taskSha t = sha
  events : ∀ id e, s.events id = some e → e.eventId = id ∧ env.eventId e = id
  generations : ∀ id g, s.generations id = some g → g.generationId = id ∧ env.generationId g = id

theorem filed_empty (env : TaskEnv) : Filed env .empty where
  tasks _ _ h := nomatch h
  events _ _ h := nomatch h
  generations _ _ h := nomatch h

theorem event_identifiers {e : TaskEvent} (h : e.fieldsValid = true) {f : String → String}
    (hf : ∀ t, PyText.isIdentifier t = true → f t = t) : e.mapText f = e := by
  simp only [fieldsValid, Bool.and_eq_true] at h
  obtain ⟨⟨⟨⟨⟨hid, htask⟩, hop⟩, hkey⟩, hprevious⟩, hactor⟩ := h
  have hprev : e.previousEventId.map f = e.previousEventId := by
    cases hp : e.previousEventId with
    | none => rfl
    | some id =>
      rw [hp] at hprevious
      exact congrArg some (hf id hprevious)
  unfold mapText
  rw [hf _ hid, hf _ htask, hf _ hop, hf _ hkey, hprev, hf _ hactor]

section
-- a goal about `Does` must not be computed further than its next construct
attribute [local irreducible] Prog.Does
variable {env : TaskEnv}

abbrev KeepsFiled (env : TaskEnv) {α : Type} (p : TaskProg α) : Prop :=
  p.Does fun _ s s' => Filed env s → Filed env s'

theorem mayFail_filed (e : TaskFault) : KeepsFiled env (mayFail e) :=
  does_bind does_any fun _ => does_require

theorem runCheck_filed {α : Type} (c : TaskCheck α) : KeepsFiled env (runCheck c) := by
  refine does_bind (mayFail_filed _) fun _ => does_attempt (fun _ h => h) ?_
  intro s a s' h
  split at h
  next =>
    obtain ⟨-, rfl⟩ := Prod.mk.inj (Except.ok.inj h)
    exact fun hs => hs
  next => cases h

theorem publishTask_filed (t : AgentTask) : KeepsFiled env (publishTask (env.taskSha t) t) := by
  refine does_bind (mayFail_filed _) fun _ => does_attempt (fun _ h => h) ?_
  intro s a s' h hs
  split at h
  next objects hobjects =>
    obtain ⟨-, rfl⟩ := Prod.mk.inj (Except.ok.inj h)
    refine ⟨?_, hs.events, hs.generations⟩
    intro sha t' ht
    rcases publish_cases hobjects ht with ht | ⟨rfl, rfl⟩
    · exact hs.tasks sha t' ht
    · rfl
  next => cases h

theorem publishEvent_filed {e : TaskEvent} (he : env.eventId e = e.eventId) :
    KeepsFiled env (publishEvent e) := by
  refine does_bind (mayFail_filed _) fun _ => does_attempt (fun _ h => h) ?_
  intro s a s' h hs
  split at h
  next events hevents =>
    obtain ⟨-, rfl⟩ := Prod.mk.inj (Except.ok.inj h)
    refine ⟨hs.tasks, ?_, hs.generations⟩
    intro id e' he'
    rcases publish_cases hevents he' with he' | ⟨rfl, rfl⟩
    · exact hs.events id e' he'
    · exact ⟨rfl, he⟩
  next => cases h

theorem publishGeneration_filed {g : TaskBoardGeneration} (hg : env.generationId g = g.generationId) :
    KeepsFiled env (publishGeneration g) := by
  refine does_bind (mayFail_filed _) fun _ => does_attempt (fun _ h => h) ?_
  intro s a s' h hs
  split at h
  next generations hgenerations =>
    obtain ⟨-, rfl⟩ := Prod.mk.inj (Except.ok.inj h)
    refine ⟨hs.tasks, hs.events, ?_⟩
    intro id g' hg'
    rcases publish_cases hgenerations hg' with hg' | ⟨rfl, rfl⟩
    · exact hs.generations id g' hg'
    · exact ⟨rfl, hg⟩
  next => cases h

theorem replacePointer_filed (id : String) : KeepsFiled env (replacePointer id) := by
  refine does_bind (mayFail_filed _) fun _ => does_bind (does_set ?_) fun _ =>
    mayFail_filed _
  exact fun s hs => ⟨hs.tasks, hs.events, hs.generations⟩

theorem sealed_event (hnfc : KeepsIdentifiers env.nfc) {seed seed' : TaskEvent}
    (h : seed.validate = some seed') :
    mapText env.nfc {seed' with eventId := env.eventId seed'} =
      {seed' with eventId := env.eventId seed'} := by
  refine event_identifiers ?_ hnfc
  have hfields := (event_validate h).2
  have hid : PyText.isIdentifier (env.eventId seed') = true :=
    isIdentifier_derivedId _ rfl (by decide) (by decide) (by decide)
  unfold fieldsValid at hfields ⊢
  simp only [Bool.and_eq_true] at hfields ⊢
  simp only [hid, true_and]
  tauto

theorem does_ofOption_bind {α β : Type} {P : Unit → TaskStore → TaskStore → Prop} {x : Option α}
    {e : TaskFault} {g : α → TaskProg β} (h : ∀ a, x = some a → (g a).Does P) :
    ((ofOption x e : TaskProg α).bind g).Does P := by
  cases x with
  | none => exact does_fail e
  | some a => exact h a rfl

theorem commit_filed (hnfc : KeepsIdentifiers env.nfc) (generation : Option TaskBoardGeneration)
    (r : CommitRequest) : KeepsFiled env (commit env generation r) := by
  simp only [commit, bind_eq]
  refine does_bind (publishTask_filed _) fun _ => ?_
  refine does_ofOption_bind fun seed hseed => ?_
  refine does_bind (publishEvent_filed ?_) fun _ => ?_
  · rw [sealed_event hnfc hseed]
    rfl
  refine does_bind does_require fun _ => ?_
  refine does_bind does_ofOption fun seed' => ?_
  refine does_bind does_require fun _ => ?_
  refine does_bind (publishGeneration_filed rfl) fun _ => ?_
  refine does_bind (runCheck_filed _) fun _ => ?_
  refine does_bind (runCheck_filed _) fun _ => ?_
  refine does_bind does_require fun _ => ?_
  exact does_bind (replacePointer_filed _) fun _ => does_pure _

theorem withWriterLock_filed {α : Type} {body : TaskProg α} (h : KeepsFiled env body) :
    KeepsFiled env (withWriterLock body) :=
  does_bind (mayFail_filed _) fun _ => does_tryFinally h (mayFail_filed _)

theorem createTask_filed (hnfc : KeepsIdentifiers env.nfc) (c : CreateTask) :
    KeepsFiled env (createTask env c) := by
  simp only [createTask, bind_eq]
  refine does_bind does_ofExcept fun now => ?_
  refine does_bind (runCheck_filed _) fun _ => ?_
  refine does_bind does_ofExcept fun _ => withWriterLock_filed ?_
  refine does_bind (runCheck_filed _) fun generation => ?_
  refine does_bind (runCheck_filed _) fun existing => ?_
  cases existing with
  | some event => exact runCheck_filed _
  | none =>
    refine does_bind (runCheck_filed _) fun _ => ?_
    refine does_bind (runCheck_filed _) fun _ => ?_
    refine does_bind does_require fun _ => ?_
    refine does_bind does_require fun _ => ?_
    exact does_bind does_ofOption fun _ => commit_filed hnfc _ _

theorem transitionTask_filed (hnfc : KeepsIdentifiers env.nfc) (c : TransitionTask) :
    KeepsFiled env (transitionTask env c) := by
  simp only [transitionTask, bind_eq]
  refine does_bind does_ofExcept fun now => ?_
  refine does_bind does_ofExcept fun _ => ?_
  refine does_bind (runCheck_filed _) fun _ => withWriterLock_filed ?_
  refine does_bind (runCheck_filed _) fun generation => ?_
  refine does_bind (runCheck_filed _) fun existing => ?_
  cases existing with
  | some event => exact runCheck_filed _
  | none =>
    refine does_bind (runCheck_filed _) fun _ => ?_
    refine does_bind (runCheck_filed _) fun _ => ?_
    refine does_bind does_ofOption fun _ => ?_
    refine does_bind does_require fun _ => ?_
    refine does_bind does_require fun _ => ?_
    refine does_bind does_require fun _ => ?_
    refine does_bind does_require fun _ => ?_
    exact does_bind does_ofOption fun _ => commit_filed hnfc _ _

theorem command_filed (hnfc : KeepsIdentifiers env.nfc) (c : TaskCommand) :
    KeepsFiled env (c.prog env) := by
  cases c with
  | create c => exact createTask_filed hnfc c
  | transition c => exact transitionTask_filed hnfc c

theorem reachable_filed (hnfc : KeepsIdentifiers env.nfc) {s : TaskStore} (h : Reachable env s) :
    Filed env s := by
  induction h with
  | empty => exact filed_empty env
  | command _ c hx ih => exact does_exec (command_filed hnfc c) hx ih
end

theorem publish_same {κ ν : Type} [DecidableEq κ] [DecidableEq ν] {store : Store κ ν} {k : κ}
    {v : ν} (h : ∀ v', store k = some v' → v' = v) : ∃ store', publish store k v = some store' := by
  unfold publish
  cases hk : store k with
  | none => exact ⟨_, rfl⟩
  | some v' =>
    obtain rfl := h v' hk
    exact ⟨store, if_pos rfl⟩

end RaytSystem.Tasking
