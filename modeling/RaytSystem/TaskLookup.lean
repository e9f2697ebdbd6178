import RaytSystem.TaskAncestry
import RaytSystem.TaskReplay

/-! The lookups of a repeated command in the history of a board. No identity comes twice in
a history, so a lookup meets the event of an earlier command or no event of that command. -/
namespace RaytSystem.Tasking
open Interleaving ImmutableStore Check

variable {env : TaskEnv} {s s' : TaskStore}

inductive CommandPayload where
  | create (payload : CreatePayload)
  | transition (payload : TransitionPayload)
  deriving DecidableEq

structure Material where
  idempotencyKey : String
  payload : CommandPayload
  deriving DecidableEq

def Material.operationKey (env : TaskEnv) (m : Material) : String :=
  match m.payload with
  | .create payload => derivedId "op" (env.createDigest m.idempotencyKey payload)
  | .transition payload => derivedId "op" (env.transitionDigest m.idempotencyKey payload)

def ClosureLink.material (env : TaskEnv) (link : ClosureLink) : Material where
  idempotencyKey := link.head.idempotencyKey
  payload :=
    if link.head.eventKind = .created then
      .create ((createPayloadOf link.head link.task).mapText env.nfc)
    else .transition ((transitionPayloadOf link.head link.task).mapText env.nfc)

theorem created_operation {event : TaskEvent} {task : AgentTask}
    {parent : Option TaskBoardGeneration} {u : Unit}
    (h : validateCreatedEvent env event task parent s = .ok u) :
    event.operationKey = env.createOperation event.idempotencyKey (createPayloadOf event task) := by
  simp only [validateCreatedEvent, bind_ok, ensure_ok] at h
  obtain ⟨_, _, _, _, hoperation, _⟩ := h
  exact hoperation

variable {link : ClosureLink}

theorem child_operation {parent : TaskBoardGeneration} (h : checkChild env link parent s = .ok ()) :
    link.head.operationKey = (link.material env).operationKey env := by
  simp only [checkChild, bind_ok, ensure_ok] at h
  obtain ⟨_, _, _, _, _, _, _, _, _, _, h⟩ := h
  unfold ClosureLink.material
  split at h
  next hkind =>
    obtain ⟨_, _, hcreated⟩ := bind_ok.mp h
    rw [if_pos hkind]
    exact created_operation hcreated
  next hkind =>
    simp only [bind_ok] at h
    obtain ⟨_, _, _, _, _, _, _, _, htransition⟩ := h
    rw [if_neg hkind]
    exact (validateTransitionEvent_spec htransition).2.2.1

variable {history : List ClosureLink}

theorem lineage_operation (h : Lineage env s history) :
    ∀ l ∈ history, l.head.operationKey = (l.material env).operationKey env := by
  induction h with
  | @root link _ _ hroot =>
    intro l hl
    rw [List.mem_singleton.mp hl]
    simp only [checkRoot, bind_ok, ensure_ok] at hroot
    obtain ⟨_, ⟨_, _, _, _, hkind, _⟩, hcreated⟩ := hroot
    rw [ClosureLink.material, if_pos hkind]
    exact created_operation hcreated
  | child _ _ _ hchild ih =>
    intro l hl
    rcases List.mem_cons.mp hl with rfl | hl
    · exact child_operation hchild
    · exact ih l hl

theorem lineage_reads (h : Lineage env s history) : ∀ l ∈ history, LinkRead env s l := by
  induction h with
  | root hread _ _ =>
    intro l hl
    rw [List.mem_singleton.mp hl]
    exact hread
  | child _ hread _ _ ih =>
    intro l hl
    rcases List.mem_cons.mp hl with rfl | hl
    · exact hread
    · exact ih l hl

variable {older : List ClosureLink}

theorem lineage_tail {link parent : ClosureLink} (h : Lineage env s (link :: parent :: older)) :
    Lineage env s (parent :: older) := by
  cases h with
  | child holder => exact holder

theorem not_mem_of_cons {α : Type} {f : ClosureLink → α} {link l : ClosureLink}
    (h : ((link :: older).map f).Nodup) (hl : l ∈ older) : f link ≠ f l := by
  intro he
  rw [List.map_cons, List.nodup_cons] at h
  exact h.1 (he ▸ List.mem_map_of_mem hl)

structure Distinct (env : TaskEnv) (s : TaskStore) (history : List ClosureLink) : Prop where
  lineage : Lineage env s history
  events : ∀ l ∈ history, readEvent env l.head.eventId s = .ok l.head
  eventIds : (history.map (·.head.eventId)).Nodup
  operationKeys : (history.map (·.head.operationKey)).Nodup
  idempotencyKeys : (history.map (·.head.idempotencyKey)).Nodup

theorem walked_distinct {seen : ClosureSeen} (h : Walked env s seen history) :
    Distinct env s history :=
  ⟨h.lineage, h.events, h.eventIds.1, h.operationKeys.1, h.idempotencyKeys.1⟩

theorem distinct_tail {link parent : ClosureLink} (h : Distinct env s (link :: parent :: older)) :
    Distinct env s (parent :: older) where
  lineage := lineage_tail h.lineage
  events l hl := h.events l (List.mem_cons_of_mem _ hl)
  eventIds := (List.nodup_cons.mp h.eventIds).2
  operationKeys := (List.nodup_cons.mp h.operationKeys).2
  idempotencyKeys := (List.nodup_cons.mp h.idempotencyKeys).2

variable {visited : List String}

theorem findOperation_round (operationKey idempotencyKey : String) (rounds : Nat)
    (h : Distinct env s (link :: older)) (hnew : link.head.eventId ∉ visited) :
    findOperation env operationKey idempotencyKey (rounds + 1) visited
        (some link.head.eventId) s =
      if link.head.operationKey = operationKey then .ok (some link.head)
      else if link.head.idempotencyKey = idempotencyKey then
        .error (.conflict "Idempotency key was already used for another command")
      else findOperation env operationKey idempotencyKey rounds (link.head.eventId :: visited)
        (older.head?.map (·.head.eventId)) s := by
  have hnewCheck : ensure (link.head.eventId ∉ visited)
      "Task event chain is cyclic or exceeds limits" s = .ok () := ensure_ok.mpr hnew
  rw [findOperation, bind_run hnewCheck,
    bind_run (h.events link List.mem_cons_self)]
  by_cases hop : link.head.operationKey = operationKey
  · rw [if_pos hop, if_pos hop]
    rfl
  · rw [if_neg hop, if_neg hop]
    by_cases hkey : link.head.idempotencyKey = idempotencyKey
    · rw [if_pos hkey]
      exact bind_raise (require_raise (fun hne => hne hkey))
    · have hother : require (link.head.idempotencyKey ≠ idempotencyKey)
          (TaskFault.conflict "Idempotency key was already used for another command") s = .ok () :=
        require_ok.mpr hkey
      rw [if_neg hkey, bind_run hother, (lineage_sound h.lineage).previousEvent]

theorem visited_cons (h : Distinct env s (link :: older))
    (hvisited : ∀ l ∈ link :: older, l.head.eventId ∉ visited) :
    ∀ l ∈ older, l.head.eventId ∉ link.head.eventId :: visited := by
  intro l hl hmem
  rcases List.mem_cons.mp hmem with he | hv
  · exact not_mem_of_cons h.eventIds hl he.symm
  · exact hvisited l (List.mem_cons_of_mem _ hl) hv

variable {rounds : Nat} {l : ClosureLink}

theorem findOperation_found (h : Distinct env s history)
    (hvisited : ∀ l ∈ history, l.head.eventId ∉ visited) (hrounds : history.length ≤ rounds)
    (hl : l ∈ history) : findOperation env l.head.operationKey l.head.idempotencyKey rounds visited
      (history.head?.map (·.head.eventId)) s = .ok (some l.head) := by
  induction history generalizing rounds visited with
  | nil => cases hl
  | cons link older ih =>
    cases rounds with
    | zero => simp at hrounds
    | succ rounds =>
      rw [List.head?_cons, Option.map_some, findOperation_round _ _ rounds h
        (hvisited link List.mem_cons_self)]
      rcases List.mem_cons.mp hl with rfl | hold
      · rw [if_pos rfl]
      · rw [if_neg (not_mem_of_cons h.operationKeys hold),
          if_neg (not_mem_of_cons h.idempotencyKeys hold)]
        cases older with
        | nil => cases hold
        | cons parent older =>
          exact ih (distinct_tail h) (visited_cons h hvisited)
            (Nat.le_of_succ_le_succ hrounds) hold

theorem findOperation_conflict {operationKey : String} (h : Distinct env s history)
    (hvisited : ∀ l ∈ history, l.head.eventId ∉ visited) (hrounds : history.length ≤ rounds)
    (hother : ∀ l ∈ history, l.head.operationKey ≠ operationKey) (hl : l ∈ history) :
    findOperation env operationKey l.head.idempotencyKey rounds visited
        (history.head?.map (·.head.eventId)) s =
      .error (.conflict "Idempotency key was already used for another command") := by
  induction history generalizing rounds visited with
  | nil => cases hl
  | cons link older ih =>
    cases rounds with
    | zero => simp at hrounds
    | succ rounds =>
      rw [List.head?_cons, Option.map_some, findOperation_round _ _ rounds h
        (hvisited link List.mem_cons_self), if_neg (hother link List.mem_cons_self)]
      rcases List.mem_cons.mp hl with rfl | hold
      · rw [if_pos rfl]
      · rw [if_neg (not_mem_of_cons h.idempotencyKeys hold)]
        cases older with
        | nil => cases hold
        | cons parent older =>
          exact ih (distinct_tail h) (visited_cons h hvisited)
            (Nat.le_of_succ_le_succ hrounds)
            (fun l hl => hother l (List.mem_cons_of_mem _ hl)) hold

theorem generationForEvent_found (h : Distinct env s (link :: older))
    (hparents : ∀ l ∈ older, readGeneration env l.generation.generationId s = .ok l.generation)
    (hrounds : (link :: older).length ≤ rounds) (hl : l ∈ link :: older) :
    generationForEvent env l.head.eventId rounds link.generation s = .ok l.generation := by
  induction older generalizing rounds link with
  | nil =>
    cases rounds with
    | zero => simp at hrounds
    | succ rounds =>
      obtain rfl := List.mem_singleton.mp hl
      rw [generationForEvent, if_pos (lineage_read h.lineage).headEvent]
      rfl
  | cons parent older ih =>
    cases rounds with
    | zero => simp at hrounds
    | succ rounds =>
      have hhead := (lineage_read h.lineage).headEvent
      rw [generationForEvent]
      rcases List.mem_cons.mp hl with rfl | hold
      · rw [if_pos hhead]
        rfl
      · have hne : ¬link.generation.headEventId = some l.head.eventId := by
          rw [hhead]
          exact fun he => not_mem_of_cons h.eventIds hold (Option.some.inj he)
        have hparent : ofOption link.generation.parentGenerationId
            (TaskFault.ledgerError "Idempotent result generation is not reachable") s =
              .ok parent.generation.generationId := by
          rw [(lineage_sound h.lineage).parent]
          rfl
        rw [if_neg hne, bind_run hparent,
          bind_run (hparents parent List.mem_cons_self)]
        exact ih (distinct_tail h) (fun l hl => hparents l (List.mem_cons_of_mem _ hl))
          (Nat.le_of_succ_le_succ hrounds) hold

theorem resultForEvent_found {current : TaskBoardGeneration} (h : History env s current history)
    (hl : l ∈ history) : resultForEvent env (some current) l.head s =
      .ok ⟨l.generation.generationId, env.generationSha l.generation, l.head.eventId, l.task,
        true⟩ := by
  obtain ⟨_, hwalked, hhead, hlength⟩ := h
  have hread := lineage_reads hwalked.lineage l hl
  cases history with
  | nil => cases hl
  | cons link older =>
    obtain rfl := Option.some.inj hhead
    have hgeneration := generationForEvent_found (walked_distinct hwalked) hwalked.parents hlength hl
    have hconsistent : ensure (l.generation.taskHashes.get l.head.taskId = some l.head.taskSha256)
        "Idempotent task result is inconsistent" s = .ok () := ensure_ok.mpr hread.hashes
    have hsome : ofOption (some link.generation)
        (TaskFault.ledgerError "Reachable event requires a task generation") s =
          .ok link.generation := rfl
    rw [resultForEvent, bind_run hsome, bind_run hgeneration,
      bind_run hconsistent, bind_run hread.task]
    rfl

end RaytSystem.Tasking
