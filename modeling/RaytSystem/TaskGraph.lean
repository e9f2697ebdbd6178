import RaytSystem.TaskClosure

/-! What the graph checks of a board mean: every dependency is a task of the board, no
task depends on itself through others, and ready or running tasks have done dependencies. -/
namespace RaytSystem.Tasking
open ImmutableStore Check

def Finished (tasks : List AgentTask) (visited : List String) : Prop :=
  ∀ before taskId after, visited = before ++ taskId :: after →
    ∃ task, findTask tasks taskId = some task ∧ ∀ d ∈ task.dependencyIds, d ∈ before

theorem finished_nil (tasks : List AgentTask) : Finished tasks [] := by
  intro before taskId after h
  simp at h

variable {tasks : List AgentTask} {visited : List String} {task : AgentTask}

theorem finished_append {taskId : String} (h : Finished tasks visited)
    (ht : findTask tasks taskId = some task) (hd : ∀ d ∈ task.dependencyIds, d ∈ visited) :
    Finished tasks (visited ++ [taskId]) := by
  intro before id after hsplit
  rcases List.eq_nil_or_concat after with rfl | ⟨rest, last, rfl⟩
  · obtain ⟨rfl, hid⟩ := List.append_inj' hsplit rfl
    obtain rfl : taskId = id := by simpa using hid
    exact ⟨task, ht, hd⟩
  · have hsplit' : visited ++ [taskId] = (before ++ id :: rest) ++ [last] := by
      simpa using hsplit
    obtain ⟨hv, -⟩ := List.append_inj' hsplit' rfl
    exact h before id rest hv

def Finishes (tasks : List AgentTask) (s : TaskStore)
    (visitOne : String → List String → TaskCheck (List String)) : Prop :=
  ∀ taskId visited visited', visitOne taskId visited s = .ok visited' → Finished tasks visited →
    Finished tasks visited' ∧ visited <+: visited' ∧ taskId ∈ visited'

theorem visitAll_finished {s : TaskStore}
    {visitOne : String → List String → TaskCheck (List String)} (hone : Finishes tasks s visitOne)
    {ids visited visited' : List String} (h : visitAll visitOne ids visited s = .ok visited')
    (hf : Finished tasks visited) :
    Finished tasks visited' ∧ visited <+: visited' ∧ ∀ id ∈ ids, id ∈ visited' := by
  induction ids generalizing visited with
  | nil =>
    rw [visitAll, pure_ok] at h
    exact ⟨h ▸ hf, h ▸ List.prefix_refl _, List.forall_mem_nil _⟩
  | cons id rest ih =>
    rw [visitAll] at h
    obtain ⟨mid, hmid, hrest⟩ := bind_ok.mp h
    obtain ⟨hf', hpre, hid⟩ := hone id visited mid hmid hf
    obtain ⟨hf'', hpre', hall⟩ := ih hrest hf'
    refine ⟨hf'', hpre.trans hpre', ?_⟩
    intro id' hid'
    rcases List.mem_cons.mp hid' with rfl | hid'
    · exact hpre'.subset hid
    · exact hall id' hid'

theorem visit_finished (tasks : List AgentTask) (s : TaskStore) (depth : Nat)
    (visiting : List String) : Finishes tasks s (visit tasks depth visiting) := by
  induction depth generalizing visiting with
  | zero =>
    intro taskId visited visited' h _
    simp [visit] at h
  | succ depth ih =>
    intro taskId visited visited' h hf
    unfold visit at h
    obtain ⟨_, _, h⟩ := bind_ok.mp h
    split at h
    next hmem =>
      obtain rfl := pure_ok.mp h
      exact ⟨hf, List.prefix_refl _, hmem⟩
    next =>
      obtain ⟨task, ht, h⟩ := bind_ok.mp h
      obtain ⟨mid, hmid, h⟩ := bind_ok.mp h
      obtain rfl := pure_ok.mp h
      obtain ⟨hf', hpre, hall⟩ := visitAll_finished (ih (taskId :: visiting)) hmid hf
      refine ⟨finished_append hf' (ofOption_ok.mp ht) hall, ?_, by simp⟩
      exact hpre.trans (List.prefix_append _ _)

def DependsOn (tasks : List AgentTask) (taskId dependencyId : String) : Prop :=
  ∃ task ∈ tasks, task.taskId = taskId ∧ dependencyId ∈ task.dependencyIds

def DependenciesExist (tasks : List AgentTask) : Prop :=
  ∀ task ∈ tasks, ∀ d ∈ task.dependencyIds, ∃ t ∈ tasks, t.taskId = d

def Acyclic (tasks : List AgentTask) : Prop :=
  ∀ taskId, ¬Relation.TransGen (DependsOn tasks) taskId taskId

def GatesHold (tasks : List AgentTask) : Prop :=
  ∀ task ∈ tasks, task.status = .ready ∨ task.status = .running →
    ∀ d ∈ task.dependencyIds, ∀ t ∈ tasks, t.taskId = d → t.status = .done

theorem findTask_eq (hu : (tasks.map AgentTask.taskId).Nodup) (h : task ∈ tasks) :
    findTask tasks task.taskId = some task := by
  induction tasks with
  | nil => cases h
  | cons t rest ih =>
    obtain ⟨hnot, hu'⟩ := List.nodup_cons.mp hu
    rcases List.mem_cons.mp h with rfl | h
    · simp [findTask]
    · have hne : t.taskId ≠ task.taskId := fun he => hnot (he ▸ List.mem_map_of_mem h)
      have hfind := ih hu' h
      unfold findTask at hfind ⊢
      rw [List.find?_cons_of_neg (by simpa using hne)]
      exact hfind

theorem findTask_some {taskId : String} (h : findTask tasks taskId = some task) :
    task ∈ tasks ∧ task.taskId = taskId :=
  ⟨List.mem_of_find?_eq_some h, by simpa using List.find?_some h⟩

theorem acyclic_of_finished (hu : (tasks.map AgentTask.taskId).Nodup) (hf : Finished tasks visited)
    (hall : ∀ task ∈ tasks, task.taskId ∈ visited) : Acyclic tasks := by
  -- the first occurrence of a dependency stands before the first one of its dependant
  have hstep : ∀ a b, DependsOn tasks a b → visited.idxOf b < visited.idxOf a := by
    rintro a b ⟨task, htask, rfl, hb⟩
    obtain ⟨before, after, hsplit, hnot⟩ := List.eq_append_cons_of_mem (hall task htask)
    obtain ⟨task', hfind, hdeps⟩ := hf before task.taskId after hsplit
    rw [findTask_eq hu htask] at hfind
    obtain rfl := Option.some.inj hfind
    have hbefore := hdeps b hb
    have hlt : before.idxOf b < before.length := List.idxOf_lt_length_of_mem hbefore
    rw [hsplit, List.idxOf_append_of_mem hbefore, List.idxOf_append_of_notMem hnot]
    omega
  have htrans : ∀ a b, Relation.TransGen (DependsOn tasks) a b →
      visited.idxOf b < visited.idxOf a := by
    intro a b h
    induction h with
    | single h => exact hstep _ _ h
    | tail _ h ih => exact (hstep _ _ h).trans ih
  intro taskId h
  exact lt_irrefl _ (htrans taskId taskId h)

theorem validateTaskGraph_sound {env : TaskEnv} {s : TaskStore}
    (h : validateTaskGraph env tasks s = .ok ()) (hu : (tasks.map AgentTask.taskId).Nodup) :
    DependenciesExist tasks ∧ Acyclic tasks ∧ GatesHold tasks := by
  obtain ⟨_, hgates, hwalk⟩ := bind_ok.mp h
  obtain ⟨visited, hvisit, _⟩ := bind_ok.mp hwalk
  have hgate : ∀ task ∈ tasks, (∀ d ∈ task.dependencyIds, (findTask tasks d).isSome) ∧
      (task.status.gated = true → dependenciesDone tasks task = true) := by
    intro task htask
    obtain ⟨_, hexist, hdone⟩ := bind_ok.mp (each_ok.mp hgates task htask)
    exact ⟨require_ok.mp hexist, require_ok.mp hdone⟩
  obtain ⟨hf, -, hall⟩ := visitAll_finished (visit_finished tasks s _ []) hvisit (finished_nil tasks)
  refine ⟨?_, ?_, ?_⟩
  · intro task htask d hd
    obtain ⟨t, ht⟩ := Option.isSome_iff_exists.mp ((hgate task htask).1 d hd)
    exact ⟨t, findTask_some ht⟩
  · apply acyclic_of_finished hu hf
    intro task htask
    exact hall _ (PyText.mem_sorted.mpr (List.mem_map_of_mem htask))
  · intro task htask hstatus d hd t ht hid
    have hgated : task.status.gated = true := by
      rcases hstatus with hs | hs <;> simp [TaskStatus.gated, hs]
    have hdone := (hgate task htask).2 hgated
    simp only [dependenciesDone, List.all_eq_true] at hdone
    have hd' := hdone d hd
    rw [← hid, findTask_eq hu ht] at hd'
    simpa using hd'

end RaytSystem.Tasking
