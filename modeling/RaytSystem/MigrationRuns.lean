import RaytSystem.MigrationPaths
import RaytSystem.RelyGuarantee

/-! Runs of migrations: attempts that may fail or be lost, and the attempt that finishes. A run is
considered while no attempt ends between the write of a version and the record of its step. -/
namespace RaytSystem.Migrations
open ConfigVersion Interleaving RecordTable PyText List

variable {rules : MigrationRules} {m : Found} {chain done todo : List Migration} {w w' : World}

section

structure Recorded (w : World) (step : Migration) : Prop where
  journaled : journalState w step.migrationId = some .applied
  recorded : ∃ row backupId, w.migrations step.migrationId = [row] ∧
    row.record.migrationId = step.migrationId ∧ row.record.state = .applied ∧
      w.backups backupId = some "created" ∧ row.record.backupId = trim backupId

def Fresh (w : World) (step : Migration) : Prop :=
  journalState w step.migrationId ≠ some .applied ∧ w.migrations step.migrationId = []

structure Progress (rules : MigrationRules) (m : Found) (chain done todo : List Migration)
    (w : World) : Prop where
  split : chain = done ++ todo
  config : w.config = m.write (startOf rules.schemaVersion todo).toList
  recorded : ∀ step ∈ done, Recorded w step
  fresh : ∀ step ∈ todo, Fresh w step

def Steady (rules : MigrationRules) (m : Found) (chain : List Migration) (w : World) : Prop :=
  ∃ done todo, Progress rules m chain done todo w

def Safe (rules : MigrationRules) (m : Found) (chain : List Migration) (w : World) : Prop :=
  w.ahead = false → Steady rules m chain w

theorem progress_safe (h : Progress rules m chain done todo w) : Safe rules m chain w :=
  fun _ => ⟨done, todo, h⟩

theorem other_id {step other : Migration} (h : chain = done ++ step :: todo)
    (hids : (chain.map Migration.migrationId).Nodup) (hother : other ∈ done ∨ other ∈ todo) :
    other.migrationId ≠ step.migrationId := by
  subst h
  rw [map_append, map_cons] at hids
  have hmiddle := nodup_middle.mp hids
  obtain ⟨hnot, -⟩ := nodup_cons.mp hmiddle
  rintro heq
  refine hnot (heq ▸ mem_append.mpr ?_)
  exact hother.imp (mem_map_of_mem) (mem_map_of_mem)

variable {row : JournalRow}

theorem progress_journal {step : Migration} (h : Progress rules m chain done (step :: todo) w)
    (hids : (chain.map Migration.migrationId).Nodup) (hrow : row.state ≠ .applied) :
    Progress rules m chain done (step :: todo)
      {w with journal := Function.update w.journal step.migrationId (some row)} := by
  refine ⟨h.split, h.config, ?_, ?_⟩
  · intro other hother
    obtain ⟨hjournaled, hrecorded⟩ := h.recorded other hother
    refine ⟨?_, hrecorded⟩
    simpa [journalState, Function.update_of_ne (other_id h.split hids (Or.inl hother))]
      using hjournaled
  · intro other hother
    refine ⟨?_, (h.fresh other hother).2⟩
    rcases mem_cons.mp hother with rfl | hother'
    · simpa [journalState] using hrow
    · simpa [journalState, Function.update_of_ne (other_id h.split hids (Or.inr hother'))]
        using (h.fresh other hother).1

def committed (rules : MigrationRules) (a : Applied) (row : JournalRow) (w : World) : World :=
  { w with
    journal := Function.update w.journal a.step.migrationId (some row)
    migrations := push w.migrations a.step.migrationId ⟨a.record, rules.sha256 a.before⟩
    reports := push w.reports (rules.reportId a.step.migrationId a.record.reportSha256) a.report
    events := w.events ++ [⟨a.step.migrationId, a.actorId, a.step.fromVersion, a.step.toVersion,
      a.backupId, a.record.reportSha256⟩]
    ahead := false }

variable {a : Applied}

theorem commitStep_eq {w : World}
    (hrow : journalRow a.step a.record.migrationSha256 .applied = .ok row)
    (htoken : isToken a.step.migrationId = true ∧ isToken a.actorId = true) :
    commitStep rules a ((head w.migrations a.step.migrationId).map Stored.revision)
      ((head w.reports (rules.reportId a.step.migrationId a.record.reportSha256)).map
        Stored.revision) w = .ok ((), committed rules a row w) := by
  have hmigrations : append w.migrations a.step.migrationId
      ((head w.migrations a.step.migrationId).map Stored.revision)
        ⟨a.record, rules.sha256 a.before⟩ = some (push w.migrations a.step.migrationId
          ⟨a.record, rules.sha256 a.before⟩) := append_eq_some.mpr ⟨rfl, rfl⟩
  have hreports : append w.reports (rules.reportId a.step.migrationId a.record.reportSha256)
      ((head w.reports (rules.reportId a.step.migrationId a.record.reportSha256)).map
        Stored.revision) a.report = some (push w.reports
          (rules.reportId a.step.migrationId a.record.reportSha256) a.report) :=
    append_eq_some.mpr ⟨rfl, rfl⟩
  simp only [commitStep, hrow, htoken.1, htoken.2, hmigrations, hreports]
  rfl

theorem commitStep_token {existing existingReport : Option ℕ} {x : Unit × World}
    (h : commitStep rules a existing existingReport w = .ok x) : isToken a.actorId = true := by
  obtain ⟨row, -, h⟩ := bind_eq_ok.mp h
  split at h
  next htoken => exact (Bool.and_eq_true_iff.mp htoken).2
  · cases h

theorem progress_committed {backupId : String} (h : Progress rules m chain done (a.step :: todo) w)
    (hids : (chain.map Migration.migrationId).Nodup) (hrow : row.state = .applied)
    (hid : a.record.migrationId = a.step.migrationId) (hstate : a.record.state = .applied)
    (hbackup : w.backups backupId = some "created")
    (hrecorded : a.record.backupId = trim backupId)
    (hnext : a.step.toVersion = startOf rules.schemaVersion todo) :
    Progress rules m chain (done ++ [a.step]) todo
      (committed rules a row {w with config := m.write a.step.toVersion.toList, ahead := true}) := by
  refine ⟨by rw [h.split, append_assoc, singleton_append], ?_, ?_, ?_⟩
  · change m.write a.step.toVersion.toList = _
    rw [hnext]
  · intro other hother
    rcases mem_append.mp hother with hdone | hlast
    · have hne := other_id h.split hids (Or.inl hdone)
      obtain ⟨hjournaled, hold⟩ := h.recorded other hdone
      refine ⟨?_, ?_⟩
      · simpa [journalState, committed, Function.update_of_ne hne] using hjournaled
      · simpa [committed, push_other _ _ hne] using hold
    · obtain rfl := mem_singleton.mp hlast
      refine ⟨by simp [journalState, committed, hrow],
        ⟨a.record, rules.sha256 a.before⟩, backupId, ?_, hid, hstate, hbackup, hrecorded⟩
      change push w.migrations a.step.migrationId _ a.step.migrationId = _
      rw [push_same, (h.fresh a.step mem_cons_self).2, nil_append]
  · intro other hother
    have hne := other_id h.split hids (Or.inr hother)
    obtain ⟨hjournal, hnone⟩ := h.fresh other (mem_cons_of_mem _ hother)
    refine ⟨?_, ?_⟩
    · simpa [journalState, committed, Function.update_of_ne hne] using hjournal
    · change push w.migrations a.step.migrationId _ other.migrationId = []
      rw [push_other _ _ hne, hnone]
end

theorem reached_config (hrules : Regular rules m chain) (hfound : search true (m.write m.version) =
    some m) (h : Progress rules m chain done todo w) :
    checkConfig w.config = .ok w.config ∧
      versionOf w.config = some (startOf rules.schemaVersion todo) ∧
        ∀ version : List Char, bump version w.config = some (m.write version) := by
  have hreads : readable (startOf rules.schemaVersion todo).toList = true ∧
      (m.write (startOf rules.schemaVersion todo).toList).length ≤ 256 * 1024 := by
    rcases regular_reached hrules h.split with heq | ⟨step, hstep, heq⟩
    · rw [heq, String.toList_ofList]
      exact ⟨search_readable hfound, hrules.fits⟩
    · rw [heq]
      exact ⟨(hrules.steps step hstep).reads, (hrules.steps step hstep).fits⟩
  have hsearch := search_write hfound rfl hreads.1
  rw [h.config]
  refine ⟨by rw [checkConfig, if_pos hreads.2], ?_, ?_⟩
  · rw [versionOf, hsearch, Option.map_some, String.ofList_toList]
  · intro version
    rw [bump, hsearch]
    rfl

section
variable {α β : Type} {S : Discipline World Unit} {C : World → Prop} {faulty : Bool}
variable {X : Failure → World → Prop}

theorem runs_bind {p : MigrationProg α} {g : α → MigrationProg β} {Q : β → World → Prop}
    (h : wp S p (fun a w' => wp S (g a) Q X w') X w) :
    wp S (p.bind g) Q X w := (wp_bind S p g Q X w).mpr h

variable {Q : α → World → Prop}

theorem runs_pure {a : α} (h : Q a w) : wp S (.pure a : MigrationProg α) Q X w := h

theorem runs_fail {e : Failure} (h : X e w) : wp S (.fail e : MigrationProg α) Q X w := h

theorem runs_any [Input β] {Q : β → World → Prop} (h : ∀ b, Q b w) :
    wp S (.any β : MigrationProg β) Q X w := h

theorem runs_tryCatch {p : MigrationProg α} {handler : Failure → MigrationProg α}
    (h : wp S p Q (fun e w' => wp S (handler e) Q X w') w) :
    wp S (p.tryCatch handler) Q X w := (wp_tryCatch S p handler Q X w).mpr h

theorem runs_fault {Q : Unit → World → Prop} (h : Q () w) (hX : faulty = true → ∀ e, X e w) :
    wp S (fault faulty) Q X w := by
  unfold fault
  split
  next hf => exact runs_bind (runs_any fun struck => wp_require S (fun _ => h) fun _ => hX hf _)
  next => exact runs_pure h

theorem runs_readConfig {Q : List Char → World → Prop} (hC : C w)
    (hread : checkConfig w.config = .ok w.config) (h : Q w.config w) :
    wp (sequential Unit C) readConfig Q X w := by
  refine runs_bind (wp_sequential_get hC (wp_ofExcept _ ?_ ?_))
  · intro data hdata
    obtain rfl := Except.ok.inj (hread.symm.trans hdata)
    exact h
  · intro e he
    rw [hread] at he
    cases he

theorem runs_currentVersion {Q : String → World → Prop} {version : String} (hC : C w)
    (hread : checkConfig w.config = .ok w.config) (hversion : versionOf w.config = some version)
    (h : Q version w) : wp (sequential Unit C) currentVersion Q X w := by
  refine runs_bind (runs_readConfig hC hread (wp_ofOption _ ?_ ?_))
  · intro found hfound
    obtain rfl := Option.some.inj (hversion.symm.trans hfound)
    exact h
  · intro hnone
    rw [hversion] at hnone
    cases hnone
end

section
attribute [local irreducible] wp
variable {faulty : Bool} {step : Migration} {call : ApplyCall}

def wrote (m : Found) (step : Migration) (w : World) : World :=
  {w with config := m.write step.toVersion.toList, ahead := true}

theorem wrote_safe : Safe rules m chain (wrote m step w) := fun h => by cases h

def Blame (faulty : Bool) (call : ApplyCall) : Prop :=
  faulty = true ∨ ¬(isId call.backupId = true ∧ isToken call.actorId = true)

theorem putJournal_eq_ok {sha256 : String} {state : StepState} {x : Unit × World}
    (h : putJournal step sha256 state w = .ok x) : ∃ row : JournalRow, row.state = state ∧
      x.2 = {w with journal := Function.update w.journal step.migrationId (some row)} := by
  obtain ⟨row, hrow, h⟩ := bind_eq_ok.mp h
  obtain ⟨fromVersion, -, hrow⟩ := bind_eq_ok.mp hrow
  obtain ⟨toVersion, -, hrow⟩ := bind_eq_ok.mp hrow
  obtain rfl := Except.ok.inj hrow
  obtain rfl := Except.ok.inj h
  exact ⟨_, rfl, rfl⟩

theorem runs_applyBump (hC : Safe rules m chain w) (hread : checkConfig w.config = .ok w.config)
    (hbump : bump step.bumpTo.toList w.config = some (m.write step.toVersion.toList)) :
    wp (sequential Unit (Safe rules m chain)) (applyBump rules faulty step)
      (fun _ w' => w' = wrote m step w)
      (fun _ w' => faulty = true ∧ (w' = w ∨ w' = wrote m step w)) w := by
  refine runs_bind (runs_readConfig hC hread ?_)
  refine runs_bind (runs_fault ?_ fun hf _ => ⟨hf, Or.inl rfl⟩)
  refine runs_bind (wp_ofOption _ ?_ fun hnone => by rw [hbump] at hnone; cases hnone)
  intro migrated hmigrated
  obtain rfl := Option.some.inj (hbump.symm.trans hmigrated)
  refine runs_bind (runs_fault ?_ fun hf _ => ⟨hf, Or.inl rfl⟩)
  refine runs_bind (wp_sequential_set wrote_safe ?_)
  exact runs_bind (runs_fault (runs_pure rfl) fun hf _ => ⟨hf, Or.inr rfl⟩)

theorem runs_recover {P : Prop} {before : List Char}
    (hw : Progress rules m chain done (step :: todo) w)
    (hids : (chain.map Migration.migrationId).Nodup)
    (hback : {w' with config := before, ahead := false} = w) (hP : P) :
    wp (sequential Unit (Safe rules m chain)) (recover rules faulty step before)
      (fun _ _ => P) (fun _ _ => P) w' := by
  refine runs_bind (runs_fault ?_ fun _ _ => hP)
  refine runs_bind (wp_sequential_set (hback ▸ progress_safe hw) ?_)
  rw [hback]
  refine runs_bind ((wp_toExcept _ _ _ _ _).mpr ?_)
  refine runs_bind (runs_fault ?_ fun _ _ => runs_pure hP)
  refine wp_sequential_attempt (progress_safe hw) ?_ fun e _ => runs_pure hP
  intro b w'' hput
  obtain ⟨row, hrow, hw''⟩ := putJournal_eq_ok hput
  obtain rfl := hw''
  exact ⟨progress_safe (progress_journal hw hids (by rw [hrow]; decide)), runs_pure hP⟩

theorem runs_recovered {α : Type} {P : Prop} {before : List Char} {e : Failure}
    {Q : α → World → Prop} (hw : Progress rules m chain done (step :: todo) w)
    (hids : (chain.map Migration.migrationId).Nodup)
    (hback : {w' with config := before, ahead := false} = w) (hP : P) :
    wp (sequential Unit (Safe rules m chain))
      ((recover rules faulty step before).bind fun _ => Prog.fail e) Q (fun _ _ => P) w' :=
  runs_bind (wp_mono _ (runs_recover hw hids hback hP) (fun _ _ h => runs_fail h) fun _ _ h => h)

variable {backupId sha256 reportSha256 : String} {startedAt completedAt : Int}

theorem makeRecord_eq_ok {attempt : ℕ} {record : MigrationRecord}
    (h : makeRecord rules step backupId sha256 reportSha256 attempt startedAt completedAt =
      .ok record) :
    record.migrationId = trim step.migrationId ∧ record.migrationSha256 = sha256 ∧
      record.state = .applied ∧ record.backupId = trim backupId ∧
        record.reportSha256 = reportSha256 := by
  unfold makeRecord at h
  split at h
  · obtain rfl := Except.ok.inj h
    exact ⟨rfl, rfl, rfl, rfl, rfl⟩
  · cases h

theorem makeRecord_error {attempt : ℕ} {e : Failure} (hstep : Admitted rules m step)
    (h : makeRecord rules step backupId sha256 reportSha256 attempt startedAt completedAt =
      .error e) : ¬isId backupId = true := by
  intro hbackup
  unfold makeRecord at h
  rw [hstep.named.1, hbackup, hstep.fromText.1, hstep.toText] at h
  cases h

theorem journalRow_ok (hstep : Admitted rules m step) (sha256 : String) (state : StepState) :
    ∃ row : JournalRow, journalRow step sha256 state = .ok row ∧ row.state = state := by
  obtain ⟨n, hn⟩ := hstep.fromInt
  obtain ⟨n', hn'⟩ := hstep.toInt
  refine ⟨⟨sha256, n, n', state⟩, ?_, rfl⟩
  rw [journalRow, hn, hn']
  rfl

theorem runs_commit {a : Applied} {reportSha256 : String} (hrules : Regular rules m chain)
    (hw : Progress rules m chain done (a.step :: todo) w) (hahead : w.ahead = false)
    (hbackup : w.backups call.backupId = some "created")
    (hnext : a.step.toVersion = startOf rules.schemaVersion todo)
    (hid : a.record.migrationId = trim a.step.migrationId)
    (hstate : a.record.state = .applied) (hrecorded : a.record.backupId = trim call.backupId)
    (hactor : a.actorId = call.actorId) (hbefore : a.before = w.config)
    (hreport : a.record.reportSha256 = reportSha256) : wp (sequential Unit (Safe rules m chain))
      (Prog.tryCatch (do
          fault faulty
          Prog.attempt () (commitStep rules a
            ((head (wrote m a.step w).migrations a.step.migrationId).map Stored.revision)
            ((head (wrote m a.step w).reports
              (rules.reportId a.step.migrationId reportSha256)).map Stored.revision)))
        fun e => (recover rules faulty a.step a.before).bind fun _ => Prog.fail e)
      (fun _ w' => Progress rules m chain (done ++ [a.step]) todo w' ∧ w'.ahead = false ∧
        w'.backups = w.backups) (fun _ _ => Blame faulty call) (wrote m a.step w) := by
  subst hreport
  have hstep := hrules.steps a.step (hw.split ▸ mem_append_right _ mem_cons_self)
  have hback : {wrote m a.step w with config := a.before, ahead := false} = w := by
    rw [hbefore, ← hahead]
    rfl
  obtain ⟨row, hrow, hrowState⟩ := journalRow_ok hstep a.record.migrationSha256 .applied
  have hcommitted (hactor : isToken a.actorId = true) : commitStep rules a
      ((head (wrote m a.step w).migrations a.step.migrationId).map Stored.revision)
      ((head (wrote m a.step w).reports (rules.reportId a.step.migrationId
        a.record.reportSha256)).map Stored.revision) (wrote m a.step w) =
      .ok ((), committed rules a row (wrote m a.step w)) :=
    commitStep_eq hrow ⟨hstep.named.2.2, hactor⟩
  refine runs_tryCatch (runs_bind (runs_fault ?_ ?_))
  · refine wp_sequential_attempt wrote_safe ?_ ?_
    · intro b w' hcommit
      have hw' := (hcommitted (commitStep_token hcommit)).symm.trans hcommit
      obtain ⟨-, rfl⟩ := Prod.mk.inj (Except.ok.inj hw')
      have hdone := progress_committed hw hrules.ids hrowState (hid.trans hstep.named.2.1) hstate
        hbackup hrecorded hnext
      exact ⟨progress_safe hdone, hdone, rfl, rfl⟩
    · intro e he
      refine runs_recovered hw hrules.ids hback (Or.inr fun hnames => ?_)
      rw [hcommitted (hactor ▸ hnames.2)] at he
      cases he
  · exact fun hf e => runs_recovered hw hrules.ids hback (Or.inl hf)

theorem runs_recordStep {report : Report} {startedAt : Int} (hrules : Regular rules m chain)
    (hw : Progress rules m chain done (step :: todo) w) (hahead : w.ahead = false)
    (hbackup : w.backups call.backupId = some "created")
    (hnext : step.toVersion = startOf rules.schemaVersion todo) :
    wp (sequential Unit (Safe rules m chain))
      (recordStep rules faulty step call.backupId call.actorId w.config report startedAt)
      (fun _ w' => Progress rules m chain (done ++ [step]) todo w' ∧ w'.ahead = false ∧
        w'.backups = w.backups) (fun _ _ => Blame faulty call) (wrote m step w) := by
  have hstep := hrules.steps step (hw.split ▸ mem_append_right _ mem_cons_self)
  refine runs_bind (runs_fault ?_ fun hf _ => Or.inl hf)
  refine runs_bind (wp_sequential_get wrote_safe ?_)
  refine runs_bind (runs_fault ?_ fun hf _ => Or.inl hf)
  refine runs_bind (wp_sequential_get wrote_safe ?_)
  refine runs_bind (runs_any fun completedAt => ?_)
  refine runs_bind (wp_ofExcept _ ?_ ?_)
  · intro record hrecord
    obtain ⟨hid, -, hstate, hrecorded, hreport⟩ := makeRecord_eq_ok hrecord
    refine runs_bind (wp_mono _ (runs_commit
      (a := ⟨step, record, report, w.config, call.backupId, call.actorId⟩) hrules hw hahead hbackup
      hnext hid hstate hrecorded rfl rfl hreport) (fun _ _ h => runs_pure h) fun _ _ h => h)
  · intro e he
    exact Or.inr fun hnames => makeRecord_error hstep he hnames.1

theorem runs_applyStep (hrules : Regular rules m chain)
    (hfound : search true (m.write m.version) = some m)
    (hw : Progress rules m chain done (step :: todo) w) (hahead : w.ahead = false)
    (hbackup : w.backups call.backupId = some "created")
    (hnext : step.toVersion = startOf rules.schemaVersion todo) :
    wp (sequential Unit (Safe rules m chain))
      (applyStep rules faulty step call.backupId call.actorId)
      (fun _ w' => Progress rules m chain (done ++ [step]) todo w' ∧ w'.ahead = false ∧
        w'.backups = w.backups) (fun _ _ => Blame faulty call) w := by
  have hstep := hrules.steps step (hw.split ▸ mem_append_right _ mem_cons_self)
  obtain ⟨hread, -, hbump⟩ := reached_config hrules hfound hw
  have hbump' : bump step.bumpTo.toList w.config = some (m.write step.toVersion.toList) := by
    rw [hbump, hstep.bumps]
  refine runs_bind (runs_any fun startedAt => ?_)
  refine runs_bind (runs_readConfig (progress_safe hw) hread ?_)
  refine runs_bind (runs_tryCatch (wp_mono _
    (runs_applyBump (progress_safe hw) hread hbump') ?_ ?_))
  · rintro report w' rfl
    exact runs_recordStep hrules hw hahead hbackup hnext
  · rintro e w' ⟨hf, hw'⟩
    refine runs_recovered hw hrules.ids ?_ (Or.inl hf)
    rcases hw' with rfl | rfl
    · rw [← hahead]
    · rw [← hahead]
      rfl

theorem runs_applySteps {record : Option MigrationRecord} (hrules : Regular rules m chain)
    (hfound : search true (m.write m.version) = some m) (hw : Progress rules m chain done todo w)
    (hahead : w.ahead = false) (hbackup : w.backups call.backupId = some "created") :
    wp (sequential Unit (Safe rules m chain)) (applySteps rules faulty call record todo)
      (fun _ w' => Progress rules m chain chain [] w' ∧ w'.ahead = false)
      (fun _ _ => Blame faulty call) w := by
  induction todo generalizing done record w with
  | nil =>
    have hdone : chain = done := by rw [hw.split, append_nil]
    exact runs_pure ⟨by rwa [← hdone] at hw, hahead⟩
  | cons step todo ih =>
    have hnext : step.toVersion = startOf rules.schemaVersion todo :=
      path_next (path_rest (registryChain_path (hw.split ▸ hrules.walks)))
    refine runs_bind (wp_mono _ (runs_applyStep hrules hfound hw hahead hbackup hnext) ?_
      fun _ _ h => h)
    rintro record' w' ⟨hw', hahead', hbackups⟩
    exact ih hw' hahead' (hbackups ▸ hbackup)
end

section
attribute [local irreducible] wp
variable {faulty : Bool} {step : Migration} {call : ApplyCall} {plan : MigrationPlan}
  {steps : List Migration}

def Accepted (call : ApplyCall) (w : World) : Prop :=
  call.confirm = true ∧ call.backupId ≠ "" ∧ w.backups call.backupId = some "created" ∧
    isId call.backupId = true ∧ isToken call.actorId = true

def Refused (faulty : Bool) (call : ApplyCall) (w : World) : Prop :=
  faulty = true ∨ ¬Accepted call w

theorem blame_refused (h : Blame faulty call) : Refused faulty call w :=
  h.imp_right fun hnames haccepted => hnames ⟨haccepted.2.2.2.1, haccepted.2.2.2.2⟩

theorem verifyPlan_eq_ok (h : verifyPlan rules plan = .ok steps) :
    plan.payload.toVersion = rules.schemaVersion ∧
      ∃ current, IsPath rules.migrations rules.schemaVersion current steps := by
  unfold verifyPlan at h
  split at h
  · cases h
  next hto =>
    obtain ⟨chained, hchained, h⟩ := bind_eq_ok.mp h
    replace hto := not_not.mp hto
    dsimp only at h
    split at h
    · obtain rfl := Except.ok.inj h
      exact ⟨hto, _, hto ▸ registryChain_path hchained⟩
    · cases h

theorem fresh_pending (h : ∀ step ∈ todo, Fresh w step) (step : Migration) (hstep : step ∈ todo) :
    (journalState w step.migrationId != some .applied) = true :=
  bne_iff_ne.mpr (h step hstep).1

theorem runs_applyPending (hrules : Regular rules m chain)
    (hfound : search true (m.write m.version) = some m)
    (hw : Progress rules m chain done (step :: todo) w) (hahead : w.ahead = false)
    (hplan : plan.payload.toVersion = rules.schemaVersion) :
    wp (sequential Unit (Safe rules m chain))
      (applyPending rules faulty plan call step (step :: todo) step.fromVersion)
      (fun _ w' => Progress rules m chain chain [] w') (fun _ _ => Refused faulty call w) w := by
  refine runs_bind (wp_require _ (fun _ => ?_) fun hne => absurd rfl hne)
  refine runs_bind (wp_require _ (fun _ => ?_) fun hne => Or.inr fun h => hne h.2.1)
  refine runs_bind (wp_sequential_get (progress_safe hw) ?_)
  refine runs_bind (wp_require _ (fun hbackup => ?_) fun hne => Or.inr fun h => hne h.2.2.1)
  refine runs_bind (wp_mono _ (runs_applySteps hrules hfound hw hahead hbackup) ?_
    fun _ _ h => blame_refused h)
  rintro record w' ⟨hw', -⟩
  obtain ⟨hread, hversion, -⟩ := reached_config hrules hfound hw'
  refine runs_bind (runs_currentVersion (progress_safe hw') hread hversion ?_)
  exact runs_bind (wp_require _ (fun _ => runs_pure hw') fun hne => absurd hplan.symm hne)

theorem runs_applyNone {current : String} {P : Prop} (hC : Safe rules m chain w) (hP : P) :
    wp (sequential Unit (Safe rules m chain)) (applyNone plan steps current) (fun _ _ => P)
      (fun _ _ => P) w := by
  refine runs_bind (wp_require _ (fun _ => ?_) fun _ => hP)
  refine runs_bind (wp_sequential_get hC ?_)
  exact runs_bind (wp_ofOption _ (fun _ _ => runs_pure hP) fun _ => hP)

theorem runs_applyFrom (hrules : Regular rules m chain)
    (hfound : search true (m.write m.version) = some m) (hw : Progress rules m chain done todo w)
    (hahead : w.ahead = false) (hverify : verifyPlan rules plan = .ok steps) (hne : steps ≠ []) :
    wp (sequential Unit (Safe rules m chain)) (applyFrom rules faulty plan call steps)
      (fun _ w' => steps = todo → Progress rules m chain chain [] w')
      (fun _ _ => steps = todo → Refused faulty call w) w := by
  obtain ⟨hto, cursor, hpath⟩ := verifyPlan_eq_ok hverify
  obtain ⟨hread, hversion, -⟩ := reached_config hrules hfound hw
  have htodo : todo.filter (fun step => journalState w step.migrationId != some .applied) = todo :=
    filter_eq_self.mpr (fresh_pending hw.fresh)
  refine runs_bind (runs_fault ?_ fun hf _ _ => Or.inl hf)
  refine runs_bind (wp_sequential_get (progress_safe hw) ?_)
  refine runs_bind (runs_currentVersion (progress_safe hw) hread hversion ?_)
  split
  next hnone =>
    have hother : steps ≠ todo := by
      rintro rfl
      exact hne (htodo.symm.trans hnone)
    exact wp_mono _ (runs_applyNone (progress_safe hw) hother) (fun _ _ h heq => absurd heq h)
      fun _ _ h heq => absurd heq h
  next first rest hpending =>
    by_cases hfirst : first.fromVersion = startOf rules.schemaVersion todo
    · have hsame := path_pending hpath (path_rest (registryChain_path (hw.split ▸ hrules.walks)))
        (fresh_pending hw.fresh) hpending hfirst
      subst hsame
      exact wp_mono _ (runs_applyPending hrules hfound hw hahead hto) (fun _ _ h _ => h)
        fun _ _ h _ => h
    · refine runs_bind (wp_require _ (fun hcurrent => absurd hcurrent.symm hfirst) ?_)
      rintro - rfl
      have hsame := htodo.symm.trans hpending
      exact absurd (by rw [hsame]; rfl) hfirst

theorem runs_apply (hrules : Regular rules m chain)
    (hfound : search true (m.write m.version) = some m)
    (hw : Progress rules m chain done todo w) (hahead : w.ahead = false) :
    wp (sequential Unit (Safe rules m chain)) (apply rules faulty plan call)
      (fun _ w' => verifyPlan rules plan = .ok todo → Progress rules m chain chain [] w')
      (fun _ _ => verifyPlan rules plan = .ok todo → Refused faulty call w) w := by
  refine runs_bind (wp_require _ (fun _ => ?_) fun hne _ => Or.inr fun h => hne h.1)
  refine runs_bind (wp_ofExcept _ ?_ ?_)
  · intro steps hsteps
    have hsame (h : verifyPlan rules plan = .ok todo) : steps = todo :=
      Except.ok.inj (hsteps.symm.trans h)
    split
    next hempty =>
      refine runs_pure fun h => ?_
      obtain rfl := hsame h
      obtain rfl := isEmpty_iff.mp hempty
      have hdone : chain = done := by rw [hw.split, append_nil]
      rwa [← hdone] at hw
    next hempty =>
      have hne : steps ≠ [] := fun h => hempty (isEmpty_iff.mpr h)
      exact wp_mono _ (runs_applyFrom hrules hfound hw hahead hsteps hne)
        (fun _ _ hQ h => hQ (hsame h)) fun _ _ hX h => hX (hsame h)
  · intro e he h
    rw [he] at h
    cases h

theorem runs_migrate (hrules : Regular rules m chain)
    (hfound : search true (m.write m.version) = some m)
    (hw : Progress rules m chain done todo w) (hahead : w.ahead = false) :
    wp (sequential Unit (Safe rules m chain)) (migrate rules faulty call)
      (fun _ w' => Progress rules m chain chain [] w') (fun _ _ => Refused faulty call w) w := by
  obtain ⟨hread, hversion, -⟩ := reached_config hrules hfound hw
  obtain ⟨plan, hplan, -, hverify⟩ := planFrom_ok hrules hw.split
  refine runs_bind (runs_bind (runs_currentVersion (progress_safe hw) hread hversion
    (wp_ofExcept _ ?_ ?_)))
  · intro plan' hplan'
    obtain rfl := Except.ok.inj (hplan.symm.trans hplan')
    exact wp_mono _ (runs_apply hrules hfound hw hahead) (fun _ _ h => h hverify)
      fun _ _ h => h hverify
  · intro e he
    rw [hplan] at he
    cases he
end

inductive Attempts (rules : MigrationRules) (w₀ : World) : World → Prop
  | start : Attempts rules w₀ w₀
  | apply {w w' : World} {o : Outcome Failure (Option MigrationRecord)} (plan : MigrationPlan)
      (call : ApplyCall) (h : Attempts rules w₀ w) (hx : Exec (apply rules true plan call) w o w')
      (hahead : w'.ahead = false) : Attempts rules w₀ w'
  | backup {w : World} (backupId : String) (h : Attempts rules w₀ w) :
      Attempts rules w₀ {w with backups := Function.update w.backups backupId (some "created")}

theorem progress_backup {backupId : String} (h : Progress rules m chain done todo w) :
    Progress rules m chain done todo
      {w with backups := Function.update w.backups backupId (some "created")} := by
  refine ⟨h.split, h.config, ?_, h.fresh⟩
  intro step hstep
  obtain ⟨hjournaled, row, id, hrow, hid, hstate, hbackup, hrecorded⟩ := h.recorded step hstep
  refine ⟨hjournaled, row, id, hrow, hid, hstate, ?_, hrecorded⟩
  by_cases hsame : id = backupId
  · rw [hsame]
    exact Function.update_self _ _ _
  · exact (Function.update_of_ne hsame _ _).trans hbackup

theorem attempts_steady {w₀ : World} (hrules : Regular rules m chain)
    (hfound : search true (m.write m.version) = some m)
    (hstart : Progress rules m chain [] chain w₀) (hahead : w₀.ahead = false)
    (h : Attempts rules w₀ w) : Steady rules m chain w ∧ w.ahead = false := by
  induction h with
  | start => exact ⟨⟨[], chain, hstart⟩, hahead⟩
  | apply plan call h hx hahead' ih =>
    obtain ⟨⟨done, todo, hw⟩, hbefore⟩ := ih
    exact ⟨exec_keeps (runs_apply hrules hfound hw hbefore) (progress_safe hw) hx hahead', hahead'⟩
  | backup backupId h ih =>
    obtain ⟨⟨done, todo, hw⟩, hbefore⟩ := ih
    exact ⟨⟨done, todo, progress_backup hw⟩, hbefore⟩

/-- Where the version's line is spelled as the bump writes it, the chain is regular and no attempt
has ended between a version and its record, only the version has changed, and planning and applying
again returns with the target version and every step recorded once with its backup. -/
theorem migration_converges {w₀ : World} (hrules : Regular rules m chain)
    (hfound : search true w₀.config = some m) (hspelled : m.write m.version = w₀.config)
    (hfresh : ∀ step ∈ chain, Fresh w₀ step) (hahead : w₀.ahead = false) (h : Attempts rules w₀ w) :
    (∃ version, w.config = m.write version) ∧ ∀ call, Accepted call w →
      (∃ o w', o ≠ .crashed ∧ Exec (migrate rules false call) w o w') ∧
      ∀ o w', Exec (migrate rules false call) w o w' → o ≠ .crashed →
        (∃ record, o = .returned record) ∧ w'.config = m.write rules.schemaVersion.toList ∧
          ∀ step ∈ chain, Recorded w' step := by
  have hfound' : search true (m.write m.version) = some m := hspelled ▸ hfound
  have hcursor := path_startOf (registryChain_path hrules.walks)
  have hstart : Progress rules m chain [] chain w₀ := by
    refine ⟨rfl, ?_, fun _ hstep => (List.not_mem_nil hstep).elim, hfresh⟩
    rw [hcursor, String.toList_ofList, hspelled]
  obtain ⟨⟨done, todo, hw⟩, hahead'⟩ := attempts_steady hrules hfound' hstart hahead h
  refine ⟨⟨_, hw.config⟩, fun call hcall => ⟨exec_terminates _ w, ?_⟩⟩
  intro o w' hx ho
  have hmeets := exec_sound (runs_migrate hrules hfound' hw hahead') (progress_safe hw) hx
  cases o with
  | crashed => exact absurd rfl ho
  | raised e => exact (hmeets.elim (fun hf => nomatch hf) fun hnot => hnot hcall).elim
  | returned record => exact ⟨⟨record, rfl⟩, hmeets.config, hmeets.recorded⟩

def sampleStep : Migration := ⟨"step_1", "1.3.0", "1.4.0", true, "1.4.0", ""⟩

def sampleRules : MigrationRules where
  migrations := [sampleStep]
  schemaVersion := "1.4.0"
  sha256 := fun _ => ""
  planSha256 := fun _ => ""
  planId := fun _ _ => ""
  reportSha256 := fun _ => ""
  migrationSha256 := fun _ _ => ""
  failureSha256 := fun _ => ""
  recordId := fun _ _ => ""
  reportId := fun _ _ => ""

def sampleFound : Found := ⟨[], ['1', '.', '3', '.', '0'], ['\n', '[', 'a', ']']⟩

def sampleWorld : World where
  config := sampleFound.write sampleFound.version
  journal := fun _ => none
  migrations := fun _ => []
  reports := fun _ => []
  backups := fun id => if id = "backup" then some "created" else none
  events := []
  ahead := false

def sampleCall : ApplyCall := ⟨"backup", "operator", true⟩

def samplePlan : MigrationPlan := planOf sampleRules (planPayload "1.3.0" "1.4.0" [sampleStep])

def lostWorld : World := ((apply sampleRules true samplePlan sampleCall).play 10 [0, 0, 0, 0] sampleWorld).2

def retried : MigrationProg (Option MigrationRecord) × World :=
  (migrate sampleRules false sampleCall).play 20 [] lostWorld

theorem sample_evaluated :
    (search true sampleWorld.config = some sampleFound ∧
      (registryChain [sampleStep] "1.3.0" "1.4.0").toOption = some [sampleStep] ∧
      (versionInt "1.3.0").toOption.isSome = true ∧ (versionInt "1.4.0").toOption.isSome = true ∧
      (checkTarget sampleRules "1.3.0" "1.4.0").toOption.isSome = true ∧
      (checkTarget sampleRules "1.4.0" "1.4.0").toOption.isSome = true ∧
      readable "1.4.0".toList = true) ∧
    (isId "step_1" = true ∧ trim "step_1" = "step_1" ∧ isToken "step_1" = true ∧
      isText "1.3.0" = true ∧ trim "1.3.0" = "1.3.0" ∧ isText "1.4.0" = true ∧
      trim "1.4.0" = "1.4.0" ∧ isId "backup" = true ∧ isToken "operator" = true ∧
      String.ofList sampleFound.version = "1.3.0") ∧
    retried.1.value?.isSome = true ∧ (retried.2.migrations "step_1").isEmpty = true ∧
    bump "1.4.0".toList (sampleFound.before ++ schemaLine sampleFound.version ++
      '\n' :: sampleFound.after) = some (sampleFound.write "1.4.0".toList) := by
  decide +kernel

theorem ok_of_toOption {α : Type} {x : Except Failure α} {a : α} (h : x.toOption = some a) :
    x = .ok a := by
  cases x with
  | error e => cases h
  | ok b => rw [Option.some.inj h]

theorem ok_of_isSome {α : Type} {x : Except Failure α} (h : x.toOption.isSome = true) :
    ∃ a, x = .ok a := by
  obtain ⟨a, ha⟩ := Option.isSome_iff_exists.mp h
  exact ⟨a, ok_of_toOption ha⟩

theorem sampleRules_regular : Regular sampleRules sampleFound [sampleStep] := by
  obtain ⟨⟨-, hwalks, hfrom, hto, hplanned, hplanned', hreads⟩, ⟨hid, htrim, htoken, htext, htrim',
    htext', htrim'', -, -, hversion⟩, -⟩ := sample_evaluated
  refine ⟨?_, by simp, by decide, (ok_of_isSome hplanned').choose_spec, ⟨htext', htrim''⟩, ?_⟩
  · rw [hversion]
    exact ok_of_toOption hwalks
  · intro step hstep
    obtain rfl := mem_singleton.mp hstep
    exact ⟨rfl, hreads, by decide, ok_of_isSome hfrom, ok_of_isSome hto,
      (ok_of_isSome hplanned).choose_spec, ⟨hid, htrim, htoken⟩, ⟨htext, htrim'⟩, htext'⟩

def lostEarly : World :=
  ((apply sampleRules true samplePlan sampleCall).play 9 [0, 0, 0, 0] sampleWorld).2

theorem sampleCall_accepted : Accepted sampleCall lostEarly :=
  ⟨rfl, by decide, by decide +kernel, sample_evaluated.2.1.2.2.2.2.2.2.2.1,
    sample_evaluated.2.1.2.2.2.2.2.2.2.2.1⟩

/-- The next attempt after one that was lost just before it wrote the version. -/
theorem sample_converges :
    Exec (apply sampleRules true samplePlan sampleCall) sampleWorld .crashed lostEarly ∧
    ∃ o w', o ≠ Outcome.crashed ∧ Exec (migrate sampleRules false sampleCall) lostEarly o w' ∧
      w'.config = sampleFound.write "1.4.0".toList ∧ Recorded w' sampleStep := by
  have hlost : Exec (apply sampleRules true samplePlan sampleCall) sampleWorld .crashed lostEarly :=
    exec_play_crashed 9 _ _ _
  have hattempts : Attempts sampleRules sampleWorld lostEarly :=
    .apply samplePlan sampleCall .start hlost (by decide +kernel)
  obtain ⟨⟨o, w', ho, hx⟩, hends⟩ := (migration_converges sampleRules_regular sample_evaluated.1.1
    rfl (fun _ _ => ⟨nofun, rfl⟩) rfl hattempts).2 sampleCall sampleCall_accepted
  obtain ⟨-, hconfig, hrecorded⟩ := hends o w' hx ho
  exact ⟨hlost, o, w', ho, hx, hconfig, hrecorded sampleStep List.mem_cons_self⟩

/-- A process that is lost after the write of a version leaves the step out of every later plan,
and a bump takes a blank line with the version. -/
theorem lost_step : Regular sampleRules sampleFound [sampleStep] ∧
    (∃ w₁ record w₂, Exec (apply sampleRules true samplePlan sampleCall) sampleWorld .crashed w₁ ∧
      Exec (migrate sampleRules false sampleCall) w₁ (.returned record) w₂ ∧
        ¬Recorded w₂ sampleStep) ∧
    bump "1.4.0".toList (sampleFound.before ++ schemaLine sampleFound.version ++
      '\n' :: sampleFound.after) = some (sampleFound.write "1.4.0".toList) := by
  obtain ⟨-, -, hreturned, hempty, hblank⟩ := sample_evaluated
  obtain ⟨record, hrecord⟩ := Option.isSome_iff_exists.mp hreturned
  refine ⟨sampleRules_regular, ⟨lostWorld, record, retried.2, exec_play_crashed _ _ _ _,
    exec_play_returned hrecord, ?_⟩, hblank⟩
  rintro ⟨-, row, id, hrow, -⟩
  have hnone : retried.2.migrations "step_1" = [] := List.isEmpty_iff.mp hempty
  rw [show sampleStep.migrationId = "step_1" from rfl, hnone] at hrow
  cases hrow

end RaytSystem.Migrations
