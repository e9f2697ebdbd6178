import RaytSystem.TaskRuns

/-! The generations that a board was built from. They stay reachable from every later
board, and the walk of the board meets each of them with the event that made it. -/
namespace RaytSystem.Tasking
open Interleaving ImmutableStore List

variable {env : TaskEnv} {s s' : TaskStore}

inductive Ancestor (env : TaskEnv) (s : TaskStore) (g : TaskBoardGeneration) :
    TaskBoardGeneration → Prop where
  | self : Ancestor env s g g
  | parent {child parent : TaskBoardGeneration} {parentId : String}
      (h : Ancestor env s g parent) (hparent : child.parentGenerationId = some parentId)
      (hread : readGeneration env parentId s = .ok parent) : Ancestor env s g child

theorem ancestor_grows {g g' : TaskBoardGeneration} (h : Ancestor env s g g')
    (hgrows : Grows s s') : Ancestor env s' g g' := by
  induction h with
  | self => exact .self
  | parent _ hparent hread ih =>
    exact .parent ih hparent (readGeneration_persists env _ _ _ _ hgrows hread)

def BuiltOn (env : TaskEnv) (s : TaskStore) (g : TaskBoardGeneration) : Prop :=
  ∃ current, readCurrentGeneration env s = .ok (some current) ∧ Ancestor env s g current

theorem builtOn_safePoint {g : TaskBoardGeneration} (h : BuiltOn env s g)
    (hs : SafePoint env s s') : BuiltOn env s' g := by
  obtain ⟨current, hcurrent, hancestor⟩ := h
  rcases hs with hbefore | ⟨next, hnext⟩
  · exact ⟨current, before_readCurrent hbefore hcurrent, ancestor_grows hancestor hbefore.grows⟩
  · refine ⟨next, committed_readCurrent hnext, ?_⟩
    rcases readCurrent_ok.mp hcurrent with ⟨_, hnone⟩ | ⟨cur, hpointer, hsome, _, hread, _⟩
    · cases hnone
    · obtain rfl := Option.some.inj hsome
      exact .parent (ancestor_grows hancestor hnext.grows) (hnext.parent.trans hpointer)
        (readGeneration_persists env _ _ _ _ hnext.grows hread)

inductive Later (env : TaskEnv) (s : TaskStore) : TaskStore → Prop where
  | refl : Later env s s
  | command {s' s'' : TaskStore} {o : Outcome TaskFault TaskCommandResult}
      (h : Later env s s') (c : TaskCommand) (hx : Exec (c.prog env) s' o s'') :
      Later env s s''

theorem safePoint_grows (h : SafePoint env s s') : Grows s s' := by
  rcases h with hbefore | ⟨_, hnext⟩
  · exact hbefore.grows
  · exact hnext.grows

theorem later_grows (h : Later env s s') : Grows s s' := by
  induction h with
  | refl => exact grows_refl s
  | command _ c hx ih => exact grows_trans ih (safePoint_grows (exec_safePoint hx))

theorem later_builtOn {g : TaskBoardGeneration} (h : BuiltOn env s g) (hl : Later env s s') :
    BuiltOn env s' g := by
  induction hl with
  | refl => exact h
  | command _ c hx ih => exact builtOn_safePoint ih (exec_safePoint hx)

def noneSeen : ClosureSeen := ⟨[], [], [], []⟩

def History (env : TaskEnv) (s : TaskStore) (current : TaskBoardGeneration)
    (history : List ClosureLink) : Prop :=
  readCurrentGeneration env s = .ok (some current) ∧ Walked env s noneSeen history ∧
    history.head?.map ClosureLink.generation = some current ∧ history.length ≤ maxEvents

theorem history_exists {current : TaskBoardGeneration}
    (h : readCurrentGeneration env s = .ok (some current)) :
    ∃ history, History env s current history := by
  rcases readCurrent_ok.mp h with ⟨_, hnone⟩ | ⟨g, _, hsome, _, hread, hclosure⟩
  · cases hnone
  · obtain rfl := Option.some.inj hsome
    simp only [validateGenerationClosure, Check.bind_ok, ensure_ok] at hclosure
    obtain ⟨_, _, _, _, _, _, steps, hwalk, _⟩ := hclosure
    obtain ⟨link, older, hgen, hwalked, hsteps, hle⟩ :=
      walkClosure_walked (readGeneration_spec hread).2 hwalk
    refine ⟨link :: older, h, hwalked, by rw [← hgen]; rfl, ?_⟩
    rw [length_cons, ← hsteps]
    exact hle

theorem link_agrees (hgrows : Grows s s') {a b : ClosureLink} (ha : LinkRead env s a)
    (hb : LinkRead env s' b) (hgen : a.generation = b.generation)
    (hae : readEvent env a.head.eventId s = .ok a.head)
    (hbe : readEvent env b.head.eventId s' = .ok b.head) : a = b := by
  obtain ⟨_, ahead, atask⟩ := a
  obtain ⟨_, bhead, btask⟩ := b
  dsimp only at hgen hae hbe
  subst hgen
  have hid := Option.some.inj (ha.headEvent.symm.trans hb.headEvent)
  dsimp only at hid
  have hread := readEvent_persists env _ _ _ _ hgrows hae
  rw [hid, hbe] at hread
  obtain rfl := Except.ok.inj hread
  have htask := readTask_persists env _ _ _ _ _ hgrows ha.task
  obtain rfl := Except.ok.inj (htask.symm.trans hb.task)
  rfl

theorem lineage_agrees (hgrows : Grows s s') {a b : ClosureLink} {as bs : List ClosureLink}
    (ha : Lineage env s (a :: as)) (hb : Lineage env s' (b :: bs))
    (hgen : a.generation = b.generation)
    (hae : ∀ l ∈ a :: as, readEvent env l.head.eventId s = .ok l.head)
    (hbe : ∀ l ∈ b :: bs, readEvent env l.head.eventId s' = .ok l.head)
    (hap : ∀ l ∈ as, readGeneration env l.generation.generationId s = .ok l.generation)
    (hbp : ∀ l ∈ bs, readGeneration env l.generation.generationId s' = .ok l.generation) :
    a :: as = b :: bs := by
  induction as generalizing a b bs with
  | nil =>
    have hlink := link_agrees hgrows (lineage_read ha) (lineage_read hb) hgen
      (hae a mem_cons_self) (hbe b mem_cons_self)
    cases ha with
    | root _ hroot _ =>
      cases hb with
      | root => rw [hlink]
      | child _ _ hparent _ =>
        rw [← hgen, hroot] at hparent
        cases hparent
  | cons a' as ih =>
    have hlink := link_agrees hgrows (lineage_read ha) (lineage_read hb) hgen
      (hae a mem_cons_self) (hbe b mem_cons_self)
    cases ha with
    | child hold _ hparent _ =>
      cases hb with
      | root _ hroot _ =>
        rw [hgen, hroot] at hparent
        cases hparent
      | @child _ b' bs hold' _ hparent' _ =>
        have hid := Option.some.inj (hparent.symm.trans (hgen ▸ hparent'))
        have hread := readGeneration_persists env _ _ _ _ hgrows (hap a' mem_cons_self)
        rw [hid, hbp b' mem_cons_self] at hread
        rw [hlink, ih hold hold' (Except.ok.inj hread).symm
          (fun l hl => hae l (mem_cons_of_mem _ hl))
          (fun l hl => hbe l (mem_cons_of_mem _ hl))
          (fun l hl => hap l (mem_cons_of_mem _ hl))
          fun l hl => hbp l (mem_cons_of_mem _ hl)]

variable {g current : TaskBoardGeneration}

theorem ancestor_suffix (h : Ancestor env s g current) {link : ClosureLink}
    {older : List ClosureLink} (hlineage : Lineage env s (link :: older))
    (hparents : ∀ l ∈ older, readGeneration env l.generation.generationId s = .ok l.generation)
    (hgen : link.generation = current) : ∃ l older', l :: older' <:+ link :: older ∧
      Lineage env s (l :: older') ∧ l.generation = g := by
  induction h generalizing link older with
  | self => exact ⟨link, older, suffix_rfl, hlineage, hgen⟩
  | @parent child parent parentId _ hparent hread ih =>
    subst hgen
    cases hlineage with
    | root _ hroot _ =>
      rw [hroot] at hparent
      cases hparent
    | @child _ parentLink older holder _ hid _ =>
      obtain rfl := Option.some.inj (hid.symm.trans hparent)
      have hsame := (hparents parentLink mem_cons_self).symm.trans hread
      obtain ⟨l, older', hsuffix, hl⟩ := ih holder
        (fun l hl => hparents l (mem_cons_of_mem _ hl)) (Except.ok.inj hsame)
      exact ⟨l, older', hsuffix.trans (suffix_cons _ _), hl⟩

theorem history_link {history : List ClosureLink} (h : History env s current history)
    (hancestor : Ancestor env s g current) : ∃ l ∈ history, l.generation = g := by
  obtain ⟨_, hwalked, hhead, _⟩ := h
  cases history with
  | nil => cases hhead
  | cons link older =>
    obtain ⟨l, _, hsuffix, _, hgen⟩ := ancestor_suffix hancestor hwalked.lineage
      hwalked.parents (Option.some.inj hhead)
    exact ⟨l, hsuffix.subset mem_cons_self, hgen⟩

/-- Whatever commands come after, the board's history stays the older part of the history of
every later board. -/
theorem ledger_append_only (h : readCurrentGeneration env s = .ok (some g))
    (hl : Later env s s') : ∃ current, readCurrentGeneration env s' = .ok (some current) ∧
      ∀ history history', History env s g history → History env s' current history' →
        history <:+ history' := by
  obtain ⟨current, hcurrent, hancestor⟩ := later_builtOn ⟨g, h, .self⟩ hl
  refine ⟨current, hcurrent, fun history history' hold hnew => ?_⟩
  obtain ⟨_, hwalked, hhead, _⟩ := hold
  obtain ⟨_, hwalked', hhead', _⟩ := hnew
  cases history with
  | nil => cases hhead
  | cons a as =>
    cases history' with
    | nil => cases hhead'
    | cons b bs =>
      obtain ⟨l, older, hsuffix, hlineage, hgen⟩ := ancestor_suffix hancestor hwalked'.lineage
        hwalked'.parents (Option.some.inj hhead')
      have htail : older <:+ bs := by
        rcases suffix_cons_iff.mp hsuffix with heq | hin
        · rw [(cons.inj heq).2]
        · exact (suffix_cons _ _).trans hin
      rw [lineage_agrees (later_grows hl) hwalked.lineage hlineage
        ((Option.some.inj hhead).trans hgen.symm) hwalked.events
        (fun x hx => hwalked'.events x (hsuffix.subset hx)) hwalked.parents
        fun x hx => hwalked'.parents x (htail.subset hx)]
      exact hsuffix

/-- The late fault's board, and its creation called again up to a crash. -/
theorem late_board_kept : ∃ g current,
    readCurrentGeneration plainEnv lateRun.2 = .ok (some g) ∧
    readCurrentGeneration plainEnv ((TaskCommand.prog plainEnv (.create firstTask)).play 30
      (replicate 12 0) lateRun.2).2 = .ok (some current) ∧
    ∀ history history', History plainEnv lateRun.2 g history →
      History plainEnv ((TaskCommand.prog plainEnv (.create firstTask)).play 30
        (replicate 12 0) lateRun.2).2 current history' → history <:+ history' := by
  have hreached : Reachable plainEnv lateRun.2 :=
    .command .empty (.create firstTask) (exec_play lateRun_ends.1)
  obtain ⟨generation, hread⟩ := reachable_readable hreached
  rcases readCurrent_ok.mp hread with ⟨hnone, _⟩ | ⟨g, _, rfl, _⟩
  · exact absurd hnone lateRun_ends.2
  · obtain ⟨current, hcurrent, hkept⟩ := ledger_append_only hread
      (.command .refl (.create firstTask) (exec_play_crashed 30 _ _ _))
    exact ⟨g, current, hread, hcurrent, hkept⟩

end RaytSystem.Tasking
