import RaytSystem.TaskCommands
import RaytSystem.TaskGraph
import RaytSystem.TaskHistory

/-! What a command does to the ledger: objects are only added, and the pointer is replaced
only by a generation that passes the closure validation. -/
namespace RaytSystem.Tasking
open Interleaving ImmutableStore

structure Grows (s s' : TaskStore) : Prop where
  objects : Extends s.objects s'.objects
  events : Extends s.events s'.events
  generations : Extends s.generations s'.generations

theorem grows_refl (s : TaskStore) : Grows s s := ⟨extends_refl _, extends_refl _, extends_refl _⟩

theorem grows_trans {a b c : TaskStore} (hab : Grows a b) (hbc : Grows b c) : Grows a c :=
  ⟨extends_trans hab.objects hbc.objects, extends_trans hab.events hbc.events,
    extends_trans hab.generations hbc.generations⟩

section
open Check
variable (env : TaskEnv)

theorem persists_ensure {R : TaskStore → TaskStore → Prop} (b : Prop) [Decidable b]
    (message : String) : Persists R (ensure b message) := persists_require b _

theorem persists_guard {R : TaskStore → TaskStore → Prop} {b : Prop} [Decidable b]
    {message : String} {α : Type} {f : Unit → TaskCheck α}
    (hf : Persists R (f ())) : Persists R (ensure b message >>= f) :=
  persists_bind (persists_ensure b message) fun _ => hf

theorem readTask_persists (taskId : String) (sha : Sha256) :
    Persists Grows (readTask env taskId sha) := by
  apply persists_bind (persists_read _ fun w w' a h ha => h.objects sha a ha)
  intro data
  apply persists_guard
  apply persists_bind (persists_ofOption _ _)
  intro task
  exact persists_guard <| persists_pure _

theorem readEvent_persists (eventId : String) : Persists Grows (readEvent env eventId) := by
  apply persists_bind (persists_read _ fun w w' a h ha => h.events eventId a ha)
  intro data
  apply persists_bind (persists_ofOption _ _)
  intro event
  exact persists_guard <| persists_pure _

theorem readGeneration_persists (generationId : String) :
    Persists Grows (readGeneration env generationId) := by
  apply persists_bind (persists_read _ fun w w' a h ha => h.generations generationId a ha)
  intro data
  apply persists_bind (persists_ofOption _ _)
  intro generation
  apply persists_guard
  exact persists_guard <| persists_pure _

theorem gateSensitivity_persists (decision : Except Unit ScanDecision) :
    Persists Grows (gateSensitivity decision) := by
  cases decision with
  | error _ => exact persists_throw _
  | ok d => exact persists_bind (persists_require _ _) fun _ => persists_pure _

theorem visitAll_persists {visitOne : String → List String → TaskCheck (List String)}
    (h : ∀ taskId visited, Persists Grows (visitOne taskId visited)) (ids visited : List String) :
    Persists Grows (visitAll visitOne ids visited) := by
  induction ids generalizing visited with
  | nil => exact persists_pure _
  | cons taskId rest ih => exact persists_bind (h taskId visited) fun visited' => ih visited'

theorem visit_persists (tasks : List AgentTask) (depth : Nat) (visiting : List String)
    (taskId : String) (visited : List String) :
    Persists Grows (visit tasks depth visiting taskId visited) := by
  induction depth generalizing visiting taskId visited with
  | zero => exact persists_throw _
  | succ depth ih =>
    apply persists_guard
    split
    · exact persists_pure _
    · apply persists_bind (persists_ofOption _ _)
      intro task
      exact persists_bind (visitAll_persists (fun d v => ih _ d v) _ _) fun _ => persists_pure _

theorem validateTaskGraph_persists (tasks : List AgentTask) :
    Persists Grows (validateTaskGraph env tasks) := by
  refine persists_bind (persists_each ?_ tasks) fun _ => ?_
  · intro task
    exact persists_guard <| persists_ensure _ _
  · exact persists_bind (visitAll_persists (visit_persists tasks _ _) _ _) fun _ =>
      persists_pure _

theorem validateCreatedEvent_persists (event : TaskEvent) (task : AgentTask)
    (parent : Option TaskBoardGeneration) :
    Persists Grows (validateCreatedEvent env event task parent) := by
  apply persists_bind (gateSensitivity_persists _)
  intro _
  exact persists_bind (gateSensitivity_persists _) fun _ => persists_ensure _ _

theorem validateTransitionEvent_persists (event : TaskEvent) (previous task : AgentTask)
    (generation : TaskBoardGeneration) :
    Persists Grows (validateTransitionEvent env event previous task generation) := by
  apply persists_bind (gateSensitivity_persists _)
  intro _
  apply persists_bind (gateSensitivity_persists _)
  intro _
  apply persists_guard
  split
  · apply persists_each
    intro dependencyId
    apply persists_bind (persists_ofOption _ _)
    intro sha
    exact persists_bind (readTask_persists env _ _) fun _ => persists_ensure _ _
  · exact persists_pure _

theorem checkChild_persists (link : ClosureLink) (parent : TaskBoardGeneration) :
    Persists Grows (checkChild env link parent) := by
  apply persists_guard
  apply persists_guard
  apply persists_guard
  apply persists_guard
  apply persists_guard
  split
  · exact persists_guard <| validateCreatedEvent_persists env _ _ _
  · apply persists_guard
    apply persists_bind (persists_ofOption _ _)
    intro parentSha
    apply persists_bind (readTask_persists env _ _)
    intro previous
    exact persists_guard <| validateTransitionEvent_persists env _ _ _ _

theorem readLink_persists (current : TaskBoardGeneration) (head : TaskEvent) :
    Persists Grows (readLink env current head) := by
  apply persists_guard
  apply persists_guard
  apply persists_bind (readTask_persists env _ _)
  intro task
  apply persists_guard
  exact persists_guard <| persists_pure _

theorem walkClosure_persists (rounds : Nat) (seen : ClosureSeen) (current : TaskBoardGeneration) :
    Persists Grows (walkClosure env rounds seen current) := by
  induction rounds generalizing seen current with
  | zero => exact persists_throw _
  | succ rounds ih =>
    apply persists_guard
    apply persists_bind (persists_ofOption _ _)
    intro headId
    apply persists_guard
    apply persists_bind (readEvent_persists env _)
    intro head
    apply persists_guard
    apply persists_bind (readLink_persists env _ _)
    intro link
    split
    · refine persists_bind (persists_bind (persists_ensure _ _) fun _ => ?_) fun _ => persists_pure _
      exact validateCreatedEvent_persists env _ _ _
    · apply persists_bind (readGeneration_persists env _)
      intro parent
      apply persists_bind (checkChild_persists env _ _)
      intro _
      exact persists_bind (ih _ _) fun _ => persists_pure _

theorem validateGenerationClosure_persists (generation : TaskBoardGeneration) :
    Persists Grows (validateGenerationClosure env generation) := by
  apply persists_bind (persists_collect (fun kv => readTask_persists env _ _) _)
  intro tasks
  apply persists_bind (validateTaskGraph_persists env tasks)
  intro _
  refine persists_bind (persists_each ?_ _) fun _ => ?_
  · intro kv
    apply persists_bind (readEvent_persists env _)
    intro event
    apply persists_guard
    exact persists_bind (readTask_persists env _ _) fun _ => persists_ensure _ _
  · exact persists_bind (walkClosure_persists env _ _ _) fun _ => persists_ensure _ _
end

end RaytSystem.Tasking
