import RaytSystem.TaskCommitted

/-! Commands that are repeated under their idempotency key. Whatever later commands do, a
repetition finds the event of the committed command and answers from its generation, and
another payload under the same key is refused. -/
namespace RaytSystem.Tasking
open Interleaving ImmutableStore TaskCommand

section
attribute [local irreducible] wp
variable {env : TaskEnv} {s : TaskStore}

def answer (env : TaskEnv) (operationKey idempotencyKey : String)
    (rest : Option TaskBoardGeneration → TaskProg TaskCommandResult) :
    TaskProg TaskCommandResult := do
  let generation ← runCheck (readCurrentGeneration env)
  let existing ← runCheck (findOperation env operationKey idempotencyKey 100000 []
    (generation.bind TaskBoardGeneration.headEventId))
  match existing with
  | some event => runCheck (resultForEvent env generation event)
  | none => rest generation

variable {idem : String}

theorem prog_answer (c : TaskCommand) (hidem : idempotencyId env c.key c.actor = .ok idem) :
    ∃ rest : Int → Sensitivity → Option TaskBoardGeneration → TaskProg TaskCommandResult,
      c.prog env = (Prog.ofExcept (timestamp c.clock)).bind fun now =>
        (runCheck (c.gate env)).bind fun sensitivity =>
          withWriterLock (answer env ((c.material env idem).operationKey env) idem
            (rest now sensitivity)) := by
  cases c with
  | create c =>
    have hidem' : idempotencyId env c.idempotencyKey c.actor = .ok idem := hidem
    rw [prog, createTask, hidem']
    exact ⟨_, rfl⟩
  | transition c =>
    have hidem' : idempotencyId env c.idempotencyKey c.actor = .ok idem := hidem
    rw [prog, transitionTask, hidem']
    exact ⟨_, rfl⟩

def lockUnavailable : TaskFault := .ledgerError "Task writer lock is unavailable"

def naiveClock : TaskFault := .rejected "Task timestamps must include a timezone"

def keyConflict : TaskFault := .conflict "Idempotency key was already used for another command"

def Excused (c : TaskCommand) (e : TaskFault) : Prop :=
  e = .osError ∨ e = lockUnavailable ∨ (c.clock = .naive ∧ e = naiveClock)

variable {e : TaskFault}

theorem timestamp_raise {clock : Clock} (h : timestamp clock = .error e) :
    clock = .naive ∧ e = naiveClock := by
  cases clock with
  | naive => exact ⟨rfl, (Except.error.inj h).symm⟩
  | aware micros => cases h

variable {P : TaskCommandResult → Prop} {R : TaskFault → Prop}

/-- A command that changes nothing, whatever happens to it: it answers with a result that
satisfies `P` or raises what `R` allows. -/
theorem command_quiet {c : TaskCommand} (hidem : idempotencyId env c.key c.actor = .ok idem)
    (hexcused : ∀ e, Excused c e → R e) (hgate : ∀ e, c.gate env s = .error e → R e)
    (h : ∀ rest, wp (callRule (· = s)) (answer env ((c.material env idem).operationKey env) idem
      rest) (fun r w => P r ∧ w = s) (fun e w => R e ∧ w = s) s) :
    wp (callRule (· = s)) (c.prog env) (fun r w => P r ∧ w = s) (fun e w => R e ∧ w = s) s := by
  have hos : R .osError := hexcused _ (Or.inl rfl)
  obtain ⟨rest, hprog⟩ := prog_answer c hidem
  rw [hprog, wp_bind]
  refine wp_ofExcept _ (fun now _ => ?_) fun e he =>
    ⟨hexcused e (Or.inr (Or.inr (timestamp_raise he))), rfl⟩
  rw [wp_bind]
  refine runCheck_wp rfl ⟨hos, rfl⟩ (fun sensitivity _ => ?_) fun e he => ⟨hgate e he, rfl⟩
  rw [withWriterLock, wp_seq]
  refine mayFail_wp ⟨hexcused _ (Or.inr (Or.inl rfl)), rfl⟩ ?_
  apply (wp_tryFinally _ _ _ _ _ _).mpr
  apply wp_mono _ (h (rest now sensitivity))
  · rintro r w ⟨hP, rfl⟩
    exact mayFail_wp ⟨hos, rfl⟩ ⟨hP, rfl⟩
  · rintro e w ⟨hR, rfl⟩
    exact mayFail_wp ⟨hos, rfl⟩ ⟨hR, rfl⟩

variable {o : Outcome TaskFault TaskCommandResult}

theorem exec_quiet {p : TaskProg TaskCommandResult} {s' : TaskStore}
    (h : wp (callRule (· = s)) p (fun r w => P r ∧ w = s) (fun e w => R e ∧ w = s) s)
    (hx : Exec p s o s') : s' = s ∧ (∀ r, o = .returned r → P r) ∧ ∀ e, o = .raised e → R e := by
  have hmeets := exec_sound h rfl hx
  cases o with
  | returned r =>
    refine ⟨hmeets.2, fun r' hr => ?_, fun e he => ?_⟩
    · obtain rfl := Outcome.returned.inj hr
      exact hmeets.1
    · cases he
  | raised e =>
    refine ⟨hmeets.2, fun r hr => ?_, fun e' he => ?_⟩
    · cases hr
    · obtain rfl := Outcome.raised.inj he
      exact hmeets.1
  | crashed =>
    refine ⟨hmeets, fun r hr => ?_, fun e he => ?_⟩
    · cases hr
    · cases he

variable {α : Type} {c : TaskCheck α} {X : TaskFault → TaskStore → Prop}

theorem runCheck_known {a : α} {Q : α → TaskStore → Prop} (hc : c s = .ok a) (hX : X .osError s)
    (h : Q a s) : wp (callRule (· = s)) (runCheck c) Q X s := by
  refine runCheck_wp rfl hX (fun b hb => ?_) fun e he => ?_
  · obtain rfl := Except.ok.inj (hc.symm.trans hb)
    exact h
  · rw [hc] at he
    cases he

variable {g : TaskBoardGeneration} {Q : TaskCommandResult → TaskStore → Prop}
variable {rest : Option TaskBoardGeneration → TaskProg TaskCommandResult}

theorem answer_found {operationKey idem : String} {event : TaskEvent} {result : TaskCommandResult}
    (hread : readCurrentGeneration env s = .ok (some g))
    (hfind : findOperation env operationKey idem 100000 [] g.headEventId s = .ok (some event))
    (hresult : resultForEvent env (some g) event s = .ok result) (hX : X .osError s)
    (hQ : Q result s) : wp (callRule (· = s)) (answer env operationKey idem rest) Q X s := by
  rw [answer, wp_seq]
  apply runCheck_known hread hX
  rw [wp_seq]
  apply runCheck_known hfind hX
  exact runCheck_known hresult hX hQ

theorem answer_conflict {operationKey idem : String}
    (hread : readCurrentGeneration env s = .ok (some g))
    (hfind : findOperation env operationKey idem 100000 [] g.headEventId s = .error e)
    (hX : X .osError s) (he : X e s) :
    wp (callRule (· = s)) (answer env operationKey idem rest) Q X s := by
  rw [answer, wp_seq]
  apply runCheck_known hread hX
  rw [wp_seq]
  refine runCheck_wp rfl hX (fun b hb => ?_) fun e' he' => ?_
  · have hfound := hfind.symm.trans hb
    cases hfound
  · obtain rfl := Except.error.inj (hfind.symm.trans he')
    exact he

theorem exec_mayFail (e : TaskFault) : Exec (mayFail e) s (.returned ()) s :=
  .choose false (.pure () s)

theorem exec_runCheck {a : α} (h : c s = .ok a) : Exec (runCheck c) s (.returned a) s := by
  refine exec_bind (exec_mayFail _) (.act ?_)
  simp only [Prog.attemptStep, h]
  exact .pure a s

theorem exec_runCheck_raised (h : c s = .error e) : Exec (runCheck c) s (.raised e) s := by
  refine exec_bind (exec_mayFail _) (.act ?_)
  simp only [Prog.attemptStep, h]
  exact .fail e s

theorem exec_command {c : TaskCommand} (hidem : idempotencyId env c.key c.actor = .ok idem)
    (hclock : c.clock ≠ .naive) {sensitivity : Sensitivity} (hgate : c.gate env s = .ok sensitivity)
    (ho : o ≠ .crashed)
    (h : ∀ rest, Exec (answer env ((c.material env idem).operationKey env) idem rest) s o s) :
    Exec (c.prog env) s o s := by
  obtain ⟨rest, hprog⟩ := prog_answer c hidem
  obtain ⟨now, hnow⟩ : ∃ now, timestamp c.clock = .ok now := by
    cases hc : c.clock with
    | naive => exact absurd hc hclock
    | aware micros => exact ⟨_, rfl⟩
  rw [hprog, hnow]
  refine exec_bind (.pure now s) (exec_bind (exec_runCheck hgate) ?_)
  exact exec_bind (exec_mayFail _) (exec_tryFinally (h (rest now sensitivity)) (exec_mayFail _) ho)
end

structure SameAnswer (env : TaskEnv) (first again : TaskCommandResult) : Prop where
  generationId : again.generationId = first.generationId
  generationSha : again.generationSha256 = first.generationSha256
  eventId : again.eventId = first.eventId
  task : again.task.mapText env.nfc = first.task.mapText env.nfc
  noOp : again.noOp = true

def ToldApart (env : TaskEnv) (s : TaskStore) (m : Material) : Prop :=
  ∀ current history, History env s current history → ∀ l ∈ history,
    (l.material env).operationKey env = m.operationKey env → l.material env = m

section
attribute [local irreducible] wp
variable {env : TaskEnv} {s s₁ s₂ : TaskStore} {c c' : TaskCommand} {first : TaskCommandResult}
variable {current : TaskBoardGeneration} {history : List ClosureLink}

theorem history_head (h : History env s current history) :
    current.headEventId = history.head?.map (·.head.eventId) := by
  obtain ⟨_, hwalked, hhead, _⟩ := h
  cases history with
  | nil => cases hhead
  | cons link older =>
    obtain rfl := Option.some.inj hhead
    exact (lineage_read hwalked.lineage).headEvent

variable {link : ClosureLink}

theorem remembered_found {m : Material} (h : History env s current history) (hlink : link ∈ history)
    (hrem : Remembers env m first link) :
    findOperation env (m.operationKey env) m.idempotencyKey 100000 [] current.headEventId s =
        .ok (some link.head) ∧
      ∃ again, resultForEvent env (some current) link.head s = .ok again ∧
        SameAnswer env first again := by
  refine ⟨?_, _, resultForEvent_found h hlink, ?_⟩
  · rw [history_head h, ← hrem.operationKey, ← hrem.idempotencyKey]
    have hlength : history.length ≤ 100000 := h.2.2.2.trans (by decide)
    exact findOperation_found (walked_distinct h.2.1) (fun _ _ => List.not_mem_nil) hlength hlink
  · exact ⟨hrem.generationId, hrem.generationSha, hrem.eventId, hrem.task, rfl⟩

theorem remembered_conflict {m m' : Material} (h : History env s current history)
    (hlink : link ∈ history) (hrem : Remembers env m first link)
    (hkey : m'.idempotencyKey = m.idempotencyKey) (hother : m' ≠ m) (hm : ToldApart env s m)
    (hm' : ToldApart env s m') :
    findOperation env (m'.operationKey env) m'.idempotencyKey 100000 [] current.headEventId s =
      .error keyConflict := by
  have hdistinct := walked_distinct h.2.1
  have hoperation := lineage_operation hdistinct.lineage
  have hmade : link.material env = m :=
    hm current history h link hlink ((hoperation link hlink).symm.trans hrem.operationKey)
  have hnone : ∀ l ∈ history, l.head.operationKey ≠ m'.operationKey env := by
    intro l hl hop
    have hmade' : l.material env = m' :=
      hm' current history h l hl ((hoperation l hl).symm.trans hop)
    -- the event would have the key of the remembered one, and so be that one
    have hsameKey : l.head.idempotencyKey = link.head.idempotencyKey := by
      rw [hrem.idempotencyKey, ← hkey, ← hmade']
      rfl
    obtain rfl := List.inj_on_of_nodup_map hdistinct.idempotencyKeys hl hlink hsameKey
    exact hother (hmade'.symm.trans hmade)
  have hlength : history.length ≤ 100000 := h.2.2.2.trans (by decide)
  rw [history_head h, hkey, ← hrem.idempotencyKey]
  exact findOperation_conflict hdistinct (fun _ _ => List.not_mem_nil) hlength hnone hlink

theorem gate_payload (h : c'.payload env = c.payload env) : c'.gate env s = c.gate env s := by
  unfold gate
  rw [h]

theorem repeat_answers {idem : String} (hidem : idempotencyId env c'.key c'.actor = .ok idem)
    (h : History env s current history) (hlink : link ∈ history)
    (hrem : Remembers env (c'.material env idem) first link) {sensitivity : Sensitivity}
    (hgate : c'.gate env s = .ok sensitivity) : (∀ o s₃, Exec (c'.prog env) s o s₃ → s₃ = s ∧
      (∀ again, o = .returned again → SameAnswer env first again) ∧
      ∀ e, o = .raised e → Excused c' e) ∧
    (c'.clock ≠ .naive → ∃ again, Exec (c'.prog env) s (.returned again) s) := by
  obtain ⟨hfind, again, hresult, hsame⟩ := remembered_found h hlink hrem
  have hread := h.1
  refine ⟨fun o s₃ hx => ?_, fun hclock => ⟨again, ?_⟩⟩
  · have hnoRefusal : ∀ e, c'.gate env s = .error e → Excused c' e := by
      intro e he
      rw [hgate] at he
      cases he
    have hos : Excused c' .osError ∧ s = s := ⟨Or.inl rfl, rfl⟩
    refine exec_quiet (command_quiet hidem (fun _ h => h) hnoRefusal fun rest => ?_) hx
    exact answer_found hread hfind hresult hos ⟨hsame, rfl⟩
  · apply exec_command hidem hclock hgate (by simp)
    intro rest
    exact exec_bind (exec_runCheck hread)
      (exec_bind (exec_runCheck hfind) (exec_runCheck hresult))

theorem other_payload_refused {m : Material} {idem : String}
    (hidem : idempotencyId env c'.key c'.actor = .ok idem) (h : History env s current history)
    (hlink : link ∈ history) (hrem : Remembers env m first link) (hkey : idem = m.idempotencyKey)
    (hother : c'.material env idem ≠ m) (hm : ToldApart env s m)
    (hm' : ToldApart env s (c'.material env idem)) :
    (∀ o s₃, Exec (c'.prog env) s o s₃ → s₃ = s ∧ (∀ again, o ≠ .returned again) ∧
      ∀ e, o = .raised e → e = keyConflict ∨ Excused c' e ∨ c'.gate env s = .error e) ∧
    (c'.clock ≠ .naive → (∃ sensitivity, c'.gate env s = .ok sensitivity) →
      Exec (c'.prog env) s (.raised keyConflict) s) := by
  have hfind := remembered_conflict h hlink hrem hkey hother hm hm'
  have hread := h.1
  refine ⟨fun o s₃ hx => ?_, fun hclock hgate => ?_⟩
  · have hos : (TaskFault.osError = keyConflict ∨ Excused c' .osError ∨
        c'.gate env s = .error .osError) ∧ s = s := ⟨Or.inr (Or.inl (Or.inl rfl)), rfl⟩
    refine exec_quiet (P := fun _ => False) (command_quiet hidem
      (fun _ h => Or.inr (Or.inl h)) (fun e he => Or.inr (Or.inr he)) fun rest => ?_) hx
    exact answer_conflict hread hfind hos ⟨Or.inl rfl, rfl⟩
  · obtain ⟨sensitivity, hgate⟩ := hgate
    apply exec_command hidem hclock hgate (by simp)
    intro rest
    exact exec_bind (exec_runCheck hread) (exec_bind_raised (exec_runCheck_raised hfind))
end

/-- Exactly-once task commands. After any later commands, a repetition of a committed command
with its actor, key and canonical payload changes nothing; it answers as the first time or
raises for its clock or an input/output fault, and it can answer. Another payload under that
actor and key, which the digest tells apart, changes nothing and never returns: it raises the
conflict of the key unless its gate, its clock or a fault comes first. -/
theorem task_commands_once (env : TaskEnv) (hnfc : KeepsIdentifiers env.nfc) {s s₁ s₂ : TaskStore}
    {c : TaskCommand} {first : TaskCommandResult}
    (hfirst : Exec (c.prog env) s (.returned first) s₁) (hcommitted : first.noOp = false)
    (hlater : Later env s₁ s₂) (c' : TaskCommand) (hactor : c'.actor = c.actor)
    (hkey : c'.key = c.key) : (c'.payload env = c.payload env →
      (∀ o s₃, Exec (c'.prog env) s₂ o s₃ → s₃ = s₂ ∧
        (∀ again, o = .returned again → SameAnswer env first again) ∧
        ∀ e, o = .raised e → Excused c' e) ∧
      (c'.clock ≠ .naive → ∃ again, Exec (c'.prog env) s₂ (.returned again) s₂)) ∧
    (c'.payload env ≠ c.payload env →
      (∀ idem, idempotencyId env c.key c.actor = .ok idem →
        ToldApart env s₂ (c.material env idem) ∧ ToldApart env s₂ (c'.material env idem)) →
      (∀ o s₃, Exec (c'.prog env) s₂ o s₃ → s₃ = s₂ ∧ (∀ again, o ≠ .returned again) ∧
        ∀ e, o = .raised e → e = keyConflict ∨ Excused c' e ∨ c'.gate env s₂ = .error e) ∧
      (c'.clock ≠ .naive → (∃ sensitivity, c'.gate env s₂ = .ok sensitivity) →
        Exec (c'.prog env) s₂ (.raised keyConflict) s₂)) := by
  obtain ⟨idem, hidem, current, history, hhistory, link, hlink, hrem⟩ :=
    later_remembered hnfc hfirst hcommitted hlater
  have hidem' : idempotencyId env c'.key c'.actor = .ok idem := by
    rw [hkey, hactor]
    exact hidem
  constructor
  · intro hpayload
    have hmaterial : c'.material env idem = c.material env idem := by
      rw [TaskCommand.material, TaskCommand.material, hpayload]
    obtain ⟨sensitivity, hgate⟩ := committed_gate hfirst hcommitted s₂
    rw [← gate_payload hpayload] at hgate
    exact repeat_answers hidem' hhistory hlink (hmaterial ▸ hrem) hgate
  · intro hpayload hapart
    obtain ⟨hm, hm'⟩ := hapart idem hidem
    have hother : c'.material env idem ≠ c.material env idem :=
      fun he => hpayload (congrArg Material.payload he)
    exact other_payload_refused hidem' hhistory hlink hrem rfl hother hm hm'

def oneDigest : Sha256 := ⟨String.ofList (List.replicate 64 '1'), by decide⟩

def apartEnv : TaskEnv :=
  {plainEnv with
    createDigest := fun _ p => if p.title = "Title" then zeroDigest else oneDigest
    scanCreate := fun p => .ok ⟨p.title == "Password", .internal⟩}

def firstRun : TaskProg TaskCommandResult × TaskStore :=
  (prog apartEnv (.create firstTask)).play 60 (List.replicate 20 0) .empty

def newestMaterial (env : TaskEnv) : TaskCheck (Nat × Material) := do
  let generation ← readCurrentGeneration env
  let current ← Check.ofOption generation .validationError
  let eventId ← Check.ofOption current.headEventId .validationError
  let event ← readEvent env eventId
  let task ← readTask env event.taskId event.taskSha256
  pure (current.eventCount,ClosureLink.material env ⟨current, event, task⟩)

def firstKey : String := derivedId "idem" zeroDigest

theorem firstRun_ends : firstRun.1.value?.map TaskCommandResult.noOp = some false ∧
    (newestMaterial apartEnv firstRun.2).toOption =
      some (1,material apartEnv firstKey (.create firstTask)) := by decide +kernel

theorem firstRun_committed : ∃ first, first.noOp = false ∧
    Exec (prog apartEnv (.create firstTask)) .empty (.returned first) firstRun.2 := by
  obtain ⟨first, hfirst, hnew⟩ := Option.map_eq_some_iff.mp firstRun_ends.1
  exact ⟨first, hnew, exec_play_returned hfirst⟩

def secretTask : CreateTask := {firstTask with title := "Password"}

/-- Another payload that the sensitivity gate refuses raises no conflict of its key. -/
theorem refused_payload_no_conflict :
    ¬∀ (env : TaskEnv) (s s₁ s₂ : TaskStore) (c c' : TaskCommand) (first : TaskCommandResult),
      Reachable env s → Exec (c.prog env) s (.returned first) s₁ → first.noOp = false →
      Later env s₁ s₂ → c'.actor = c.actor → c'.key = c.key → c'.payload env ≠ c.payload env →
      ∀ e s₃, Exec (c'.prog env) s₂ (.raised e) s₃ →
        (∃ message, e = .conflict message) ∨ Excused c' e := by
  intro hclaim
  obtain ⟨first, hnew, hfirst⟩ := firstRun_committed
  have hraised : Exec (TaskCommand.prog apartEnv (.create secretTask)) firstRun.2
      (.raised (.rejected "Task payload failed the sensitivity gate")) _ :=
    exec_bind (.pure 0 _) (exec_bind_raised (exec_runCheck_raised rfl))
  have hpayload : (TaskCommand.create secretTask).payload apartEnv ≠
      (TaskCommand.create firstTask).payload apartEnv := by decide
  rcases hclaim apartEnv .empty firstRun.2 firstRun.2 (.create firstTask) (.create secretTask)
    first .empty hfirst hnew .refl rfl rfl hpayload _ _ hraised with ⟨_, h⟩ | h | h | ⟨h, _⟩
  · cases h
  · cases h
  · cases h
  · cases h

theorem newestMaterial_head {env : TaskEnv} {s : TaskStore} {current : TaskBoardGeneration}
    {link : ClosureLink} {older : List ClosureLink} (h : History env s current (link :: older)) :
    newestMaterial env s = .ok (older.length + 1,link.material env) := by
  obtain ⟨hread, hwalked, hhead, _⟩ := h
  obtain rfl := Option.some.inj hhead
  have hlink := lineage_read hwalked.lineage
  have hcount := (lineage_sound hwalked.lineage).eventCount
  simp only [newestMaterial, Check.bind_ok, Check.ofOption_ok, Check.pure_ok]
  exact ⟨_, hread, _, rfl, _, hlink.headEvent, _, hwalked.events link List.mem_cons_self, _,
    hlink.task, by rw [hcount]⟩

theorem firstRun_toldApart {m : Material}
    (h : m = material apartEnv firstKey (.create firstTask) ∨
      m.operationKey apartEnv ≠ (material apartEnv firstKey
        (.create firstTask)).operationKey apartEnv) : ToldApart apartEnv firstRun.2 m := by
  intro current history hhistory l hl hop
  cases history with
  | nil => cases hl
  | cons link older =>
    have hnewest := firstRun_ends.2
    rw [newestMaterial_head hhistory] at hnewest
    obtain ⟨hlength, hmaterial⟩ := Prod.mk.inj (Option.some.inj hnewest)
    obtain rfl : older = [] := List.length_eq_zero_iff.mp (by omega)
    obtain rfl := List.mem_singleton.mp hl
    rcases h with rfl | hne
    · exact hmaterial
    · rw [hmaterial] at hop
      exact absurd hop.symm hne

def otherTask : CreateTask := {firstTask with title := "Other"}

/-- The first command of a board is called again and answers; another title under its key is
refused. -/
theorem first_task_once : ∃ first,
    Exec (TaskCommand.prog apartEnv (.create firstTask)) .empty (.returned first) firstRun.2 ∧
    (∃ again, SameAnswer apartEnv first again ∧
      Exec (TaskCommand.prog apartEnv (.create firstTask)) firstRun.2 (.returned again)
        firstRun.2) ∧
    Exec (TaskCommand.prog apartEnv (.create otherTask)) firstRun.2 (.raised keyConflict)
      firstRun.2 := by
  obtain ⟨first, hnew, hfirst⟩ := firstRun_committed
  have honce := task_commands_once apartEnv (fun _ _ => rfl) hfirst hnew .refl
  obtain ⟨hanswers, hcan⟩ := (honce (.create firstTask) rfl rfl).1 rfl
  obtain ⟨again, hagain⟩ := hcan (by decide)
  have hpayload : (TaskCommand.create otherTask).payload apartEnv ≠
      (TaskCommand.create firstTask).payload apartEnv := by decide
  have hapart : ∀ idem, idempotencyId apartEnv (TaskCommand.create firstTask).key
      (TaskCommand.create firstTask).actor = .ok idem →
      ToldApart apartEnv firstRun.2 (TaskCommand.material apartEnv idem (.create firstTask)) ∧
      ToldApart apartEnv firstRun.2 (TaskCommand.material apartEnv idem (.create otherTask)) := by
    intro idem hidem
    have hkey : idempotencyId apartEnv (TaskCommand.create firstTask).key
        (TaskCommand.create firstTask).actor = .ok firstKey := by decide
    obtain rfl := Except.ok.inj (hkey.symm.trans hidem)
    exact ⟨firstRun_toldApart (Or.inl rfl), firstRun_toldApart (Or.inr (by decide))⟩
  obtain ⟨_, hrefused⟩ := (honce (.create otherTask) rfl rfl).2 hpayload hapart
  exact ⟨first, hfirst, ⟨again, (hanswers _ _ hagain).2.1 again rfl, hagain⟩,
    hrefused (by decide) ⟨.internal, rfl⟩⟩

end RaytSystem.Tasking
