import RaytSystem.ConfigVersion
import RaytSystem.ExceptRules
import RaytSystem.PyText
import RaytSystem.RecordTable
import RaytSystem.StepProgram

/-! Workspace migrations: a plan walks the registry from the configuration's version, and applying
it writes a step's version to the configuration and then journals and records the step. -/
namespace RaytSystem.Migrations
open ConfigVersion Interleaving RecordTable PyText

section

inductive Failure
  | migrationError (text : String)
  | other (text : String)
  deriving DecidableEq, Repr

structure Migration where
  migrationId : String
  fromVersion : String
  toVersion : String
  reversible : Bool
  bumpTo : String
  notes : String
  deriving DecidableEq

structure PlanPayload where
  fromVersion : String
  toVersion : String
  migrationIds : List String
  backupRequired : Bool
  reversible : Bool
  deriving DecidableEq

structure MigrationPlan where
  migrationPlanId : String
  payload : PlanPayload
  planSha256 : String

structure Report where
  migrationId : String
  fromVersion : String
  toVersion : String
  changedFiles : List String
  beforeSha256 : String
  afterSha256 : String
  dataChanges : String
  notes : String

structure MigrationRules where
  migrations : List Migration
  schemaVersion : String
  sha256 : List Char → String
  planSha256 : PlanPayload → String
  planId : PlanPayload → String → String
  reportSha256 : Report → String
  migrationSha256 : Migration → String → String
  failureSha256 : String → String
  recordId : String → String → String
  reportId : String → String → String

def pyDigits (cs : List Char) : Option ℕ :=
  let groups := cs.splitOn '_'
  if groups.all (fun g => g != [] && g.all isDigit) && groups.flatten.length ≤ 4300 then
    some (groups.flatten.foldl (fun n c => 10 * n + (c.toNat - '0'.toNat)) 0)
  else none

/-- `int` strips fewer control characters than `strip`. -/
def pyInt (cs : List Char) : Option Int :=
  match stripList (fun c => isSpace c && !(0x1c ≤ c.toNat && c.toNat ≤ 0x1f)) cs with
  | '-' :: ds => (pyDigits ds).map fun n => -(n : Int)
  | '+' :: ds => (pyDigits ds).map Int.ofNat
  | ds => (pyDigits ds).map Int.ofNat

def versionInvalid : Failure := .migrationError "Schema version is invalid"

def versionTuple (value : String) : Except Failure (List Int) :=
  match (value.toList.splitOn '.').mapM pyInt with
  | some parts => if parts.length = 3 then .ok parts else .error versionInvalid
  | none => .error versionInvalid

def versionInt (value : String) : Except Failure Int := do
  let parts ← versionTuple value
  if parts.all fun part => 0 ≤ part && part < 1000 then
    .ok (parts.foldl (fun n part => 1000 * n + part) 0)
  else .error versionInvalid

def noPath : Failure :=
  .migrationError "No registered migration path reaches the target schema"

def walk (migrations : List Migration) (target : String) :
    ℕ → String → Except Failure (List Migration)
  | 0, cursor => if cursor = target then .ok [] else .error noPath
  | fuel + 1, cursor =>
    if cursor = target then .ok []
    else match migrations.find? (·.fromVersion == cursor) with
      | none => .error noPath
      | some step => (walk migrations target fuel step.toVersion).map (step :: ·)

def registryChain (migrations : List Migration) (current target : String) :
    Except Failure (List Migration) :=
  if current = target then .ok []
  else if (migrations.map Migration.fromVersion).Nodup then
    walk migrations target migrations.length current
  else .error (.migrationError "Migration registry declares duplicate steps")

def planPayload (current target : String) (steps : List Migration) : PlanPayload :=
  ⟨current, target, steps.map Migration.migrationId, !steps.isEmpty, steps.all Migration.reversible⟩

variable (rules : MigrationRules)

def checkTarget (current target : String) : Except Failure Unit := do
  if target ≠ rules.schemaVersion then
    throw (.migrationError "Migrations may only target this raytsystem schema release")
  if (current.toList.splitOn '.').head? ≠ (target.toList.splitOn '.').head? then
    throw (.migrationError "Cross-major migration requires a separate compatibility release")
  let current ← versionTuple current
  let target ← versionTuple target
  if target < current then
    throw (.migrationError "Workspace schema is newer than this raytsystem build")

def isId (s : String) : Bool := isIdentifier (trim s)

def isText (s : String) : Bool := isNonEmptyStr (trim s)

def makePlan (payload : PlanPayload) : Except Failure MigrationPlan :=
  if isText payload.fromVersion && isText payload.toVersion && payload.migrationIds.all isId then
    .ok ⟨rules.planId payload (rules.planSha256 payload),
      { payload with
        fromVersion := trim payload.fromVersion
        toVersion := trim payload.toVersion
        migrationIds := payload.migrationIds.map trim }, rules.planSha256 payload⟩
  else .error (.other "validation error for MigrationPlan")

def planFrom (current target : String) : Except Failure MigrationPlan := do
  checkTarget rules current target
  let steps ← registryChain rules.migrations current target
  makePlan rules (planPayload current target steps)

def verifyPlan (plan : MigrationPlan) : Except Failure (List Migration) := do
  if plan.payload.toVersion ≠ rules.schemaVersion then
    throw (.migrationError "Migration target does not match this raytsystem build")
  let steps ← registryChain rules.migrations plan.payload.fromVersion plan.payload.toVersion
  let payload := planPayload plan.payload.fromVersion plan.payload.toVersion steps
  if plan.payload = payload ∧ plan.planSha256 = rules.planSha256 payload ∧
      plan.migrationPlanId = rules.planId payload (rules.planSha256 payload) then
    .ok steps
  else .error (.migrationError "Migration plan is forged or corrupted")
end

inductive StepState
  | applied | failed
  deriving DecidableEq, Repr

structure JournalRow where
  sha256 : String
  fromVersion : Int
  toVersion : Int
  state : StepState

structure MigrationRecord where
  migrationRecordId : String
  migrationId : String
  migrationSha256 : String
  fromVersion : String
  toVersion : String
  state : StepState
  attempt : ℕ
  backupId : String
  reportSha256 : String
  startedAt : Int
  completedAt : Int

structure RecordRow where
  record : MigrationRecord
  beforeSha256 : String

structure MigrationEvent where
  migrationId : String
  actorId : String
  fromVersion : String
  toVersion : String
  backupId : String
  reportSha256 : String

structure World where
  config : List Char
  journal : String → Option JournalRow
  migrations : Table String RecordRow
  reports : Table String Report
  /-- The state of each backup's head. -/
  backups : String → Option String
  events : List MigrationEvent
  /-- An observer's note: the configuration names the version of a step that is not recorded. -/
  ahead : Bool

abbrev MigrationProg := Prog World Unit Failure

def fault (faulty : Bool) : MigrationProg Unit :=
  if faulty then do
    let struck ← Prog.any Bool
    Prog.require (struck = false) (.other "input or output error")
  else pure ()

def checkConfig (data : List Char) : Except Failure (List Char) :=
  if data.length ≤ 256 * 1024 then .ok data
  else .error (.migrationError "raytsystem configuration is unavailable")

def readConfig : MigrationProg (List Char) := do
  let data ← Prog.get () World.config
  Prog.ofExcept (checkConfig data)

def versionOf (data : List Char) : Option String :=
  (search true data).map fun m => String.ofList m.version

def currentVersion : MigrationProg String := do
  let data ← readConfig
  Prog.ofOption (versionOf data) (.migrationError "raytsystem schema version is missing")

def journalRow (step : Migration) (sha256 : String) (state : StepState) :
    Except Failure JournalRow := do
  let fromVersion ← versionInt step.fromVersion
  let toVersion ← versionInt step.toVersion
  pure ⟨sha256, fromVersion, toVersion, state⟩

def putJournal (step : Migration) (sha256 : String) (state : StepState) (w : World) :
    Except Failure (Unit × World) := do
  let row ← journalRow step sha256 state
  pure ((), {w with journal := Function.update w.journal step.migrationId (some row)})

def journalState (w : World) (migrationId : String) : Option StepState :=
  (w.journal migrationId).map JournalRow.state

section
variable (rules : MigrationRules) (faulty : Bool)

def applyBump (step : Migration) : MigrationProg Report := do
  let data ← readConfig
  fault faulty
  let migrated ← Prog.ofOption (bump step.bumpTo.toList data)
    (.migrationError "Migration could not update the schema version")
  fault faulty
  Prog.set () fun w => {w with config := migrated, ahead := true}
  fault faulty
  pure ⟨step.migrationId, step.fromVersion, step.toVersion, ["config/raytsystem.toml"],
    rules.sha256 data, rules.sha256 migrated, "none", step.notes⟩

def failureText (step : Migration) : Failure → Failure
  | .migrationError text => .migrationError text
  | .other _ => .migrationError ("Migration step " ++ step.migrationId ++ " failed")

def recover (step : Migration) (before : List Char) : MigrationProg Unit := do
  fault faulty
  Prog.set () fun w => {w with config := before, ahead := false}
  let journal : MigrationProg Unit := do
    fault faulty
    Prog.attempt () (putJournal step (rules.failureSha256 step.migrationId) .failed)
  let _ ← journal.toExcept
  pure ()

def makeRecord (step : Migration) (backupId sha256 reportSha256 : String) (attempt : ℕ)
    (startedAt completedAt : Int) : Except Failure MigrationRecord :=
  if isId step.migrationId && isId backupId && isText step.fromVersion && isText step.toVersion then
    .ok ⟨rules.recordId step.migrationId sha256, trim step.migrationId, sha256,
      trim step.fromVersion, trim step.toVersion, .applied, attempt,
      trim backupId, reportSha256, startedAt, completedAt⟩
  else .error (.other "validation error for MigrationRecord")

structure Applied where
  step : Migration
  record : MigrationRecord
  report : Report
  before : List Char
  backupId : String
  actorId : String

def commitStep (a : Applied) (existing existingReport : Option ℕ) (w : World) :
    Except Failure (Unit × World) := do
  let row ← journalRow a.step a.record.migrationSha256 .applied
  if isToken a.step.migrationId && isToken a.actorId then
    match append w.migrations a.step.migrationId existing ⟨a.record, rules.sha256 a.before⟩,
      append w.reports (rules.reportId a.step.migrationId a.record.reportSha256) existingReport
        a.report with
    | some migrations, some reports =>
      .ok ((), { w with
        journal := Function.update w.journal a.step.migrationId (some row)
        migrations := migrations
        reports := reports
        events := w.events ++ [⟨a.step.migrationId, a.actorId, a.step.fromVersion,
          a.step.toVersion, a.backupId, a.record.reportSha256⟩]
        ahead := false })
    | _, _ => .error (.other "Record revision changed")
  else .error (.other "Invalid token")

def recordStep (step : Migration) (backupId actorId : String) (before : List Char)
    (report : Report) (startedAt : Int) : MigrationProg MigrationRecord := do
  let reportSha256 := rules.reportSha256 report
  let sha256 := rules.migrationSha256 step reportSha256
  fault faulty
  let existing ← Prog.get () fun w => head w.migrations step.migrationId
  fault faulty
  let existingReport ← Prog.get () fun w =>
    head w.reports (rules.reportId step.migrationId reportSha256)
  let completedAt ← Prog.any Int
  let record ← Prog.ofExcept (makeRecord rules step backupId sha256 reportSha256
    (match existing with | none => 1 | some s => s.revision + 1) startedAt completedAt)
  let commit : MigrationProg Unit := do
    fault faulty
    Prog.attempt () (commitStep rules ⟨step, record, report, before, backupId, actorId⟩
      (existing.map Stored.revision) (existingReport.map Stored.revision))
  commit.tryCatch fun e => do
    recover rules faulty step before
    Prog.fail e
  pure record

def applyStep (step : Migration) (backupId actorId : String) : MigrationProg MigrationRecord := do
  let startedAt ← Prog.any Int
  let before ← readConfig
  let report ← (applyBump rules faulty step).tryCatch fun e => do
    recover rules faulty step before
    Prog.fail (failureText step e)
  recordStep rules faulty step backupId actorId before report startedAt
end

section
variable (rules : MigrationRules) (faulty : Bool)

structure ApplyCall where
  backupId : String
  actorId : String
  confirm : Bool

def applySteps (call : ApplyCall) :
    Option MigrationRecord → List Migration → MigrationProg (Option MigrationRecord)
  | record, [] => pure record
  | _, step :: rest => do
    let record ← applyStep rules faulty step call.backupId call.actorId
    applySteps call (some record) rest

def disagrees : Failure :=
  .migrationError "Applied migration record disagrees with configuration"

variable (plan : MigrationPlan)

def applyNone (steps : List Migration) (current : String) :
    MigrationProg (Option MigrationRecord) := do
  Prog.require (current = plan.payload.toVersion) disagrees
  let stored ← Prog.get () fun w => steps.getLast?.bind fun step => head w.migrations step.migrationId
  let stored ← Prog.ofOption stored disagrees
  pure (some stored.value.record)

variable (call : ApplyCall)

def applyPending (first : Migration) (pending : List Migration) (current : String) :
    MigrationProg (Option MigrationRecord) := do
  Prog.require (current = first.fromVersion) (.migrationError "Migration plan is stale")
  Prog.require (call.backupId ≠ "") (.migrationError "Migration requires a verified backup")
  let backup ← Prog.get () fun w => w.backups call.backupId
  Prog.require (backup = some "created")
    (.migrationError "Migration backup is missing or unverified")
  let record ← applySteps rules faulty call none pending
  let final ← currentVersion
  Prog.require (final = plan.payload.toVersion)
    (.migrationError "Migration finished on an unexpected schema version")
  pure record

def applyFrom (steps : List Migration) : MigrationProg (Option MigrationRecord) := do
  fault faulty
  let pending ← Prog.get () fun w =>
    steps.filter fun step => journalState w step.migrationId != some .applied
  let current ← currentVersion
  match pending with
  | [] => applyNone plan steps current
  | first :: rest => applyPending rules faulty plan call first (first :: rest) current

def apply : MigrationProg (Option MigrationRecord) := do
  Prog.require (call.confirm = true) (.migrationError "Migration requires explicit confirmation")
  let steps ← Prog.ofExcept (verifyPlan rules plan)
  if steps.isEmpty then pure none else applyFrom rules faulty plan call steps

def makePlanNow (target : String) : MigrationProg MigrationPlan := do
  let current ← currentVersion
  Prog.ofExcept (planFrom rules current target)

def migrate : MigrationProg (Option MigrationRecord) := do
  let plan ← makePlanNow rules rules.schemaVersion
  apply rules faulty plan call
end
end RaytSystem.Migrations
