import RaytSystem.EvalModel
import RaytSystem.RecordTable
import RaytSystem.StepProgram

/-! `run_case`: a case is judged, and its verdicts are stored under an id that the suite, the case,
the target and the observation determine. -/
namespace RaytSystem.Evals
open Canonical Interleaving RecordTable

structure EvalCall where
  suite : EvalSuite
  case : EvalCase
  observation : EvalObservation
  workspaceId : String
  targetId : String

structure EvalRun where
  evalRunId : String
  suiteId : String
  suiteSha256 : String
  targetId : String
  state : String
  workspaceId : String
  resultIds : List String
  deterministicScoreIds : List String
  startedAt : Int
  completedAt : Int

structure Judged where
  case : EvalCase
  observation : EvalObservation
  files : Files

structure RunRow where
  run : EvalRun
  origin : Judged

structure ResultRow where
  payload : EvalResult
  payloadSha256 : String

structure EvalEvent where
  streamId : String
  resultId : String
  passed : Bool
  failedAssertionIds : List String

structure EvalWorld where
  /-- Whether the store has been created. -/
  created : Bool
  files : Files
  runs : Table String RunRow
  results : Table String ResultRow
  events : List EvalEvent

abbrev EvalProg := Prog EvalWorld Unit String

section
variable (rules : EvalRules)

def sortedDict (d : PyDict String Bool) : PyDict String Bool :=
  ⟨d.entries.insertionSort fun a b => a.1 ≤ b.1,
    ((d.entries.perm_insertionSort _).map Prod.fst).nodup_iff.mpr d.unique⟩

def EvalResult.stored (r : EvalResult) : EvalResult :=
  {r with assertionResults := sortedDict r.assertionResults}

def failedIds (d : PyDict String Bool) : List String :=
  PyText.sorted ((d.entries.filter fun kv => !kv.2).map Prod.fst)

def scoreName : String := "deterministic_pass_rate"

def makeScore (runId : String) (d : PyDict String Bool) : Except String EvalScore := do
  let scoreId ← derive rules "escore"
    (.mapping [("eval_run_id", .str runId), ("name", .str scoreName)])
  pure ⟨scoreId, scoreName, rules.quotient (d.entries.countP (·.2)) d.size, (1, 0), true⟩

def makeResult (call : EvalCall) (runId : String) (d : PyDict String Bool) (durationMs : ℕ)
    (now : Int) : Except String EvalResult := do
  let score ← makeScore rules runId d
  let resultId ← derive rules "eres" (.mapping [("eval_run_id", .str runId),
    ("case_id", .str call.case.caseId), ("assertions", table .bool d),
    ("score", rules.dumpScore score)])
  if call.observation.cost.1 < 0 then .error "Decimal value must be non-negative"
  else .ok ⟨resultId, runId, call.case.caseId, (failedIds d).isEmpty, d, [score], failedIds d,
    durationMs, call.observation.cost, now⟩

def makeRun (call : EvalCall) (result : EvalResult) : Except String EvalRun :=
  if PyText.isIdentifier (PyText.trim call.workspaceId) then
    .ok ⟨result.evalRunId, call.suite.suiteId, call.suite.manifestSha256, call.targetId,
      if result.passed then "passed" else "failed", PyText.trim call.workspaceId,
      [result.resultId], result.scores.map EvalScore.scoreId, result.createdAt, result.createdAt⟩
  else .error "String should match pattern"
end

section
variable (rules : EvalRules)

def evaluateAll (c : EvalCase) (o : EvalObservation) :
    List EvalAssertion → PyDict String Bool → EvalProg (PyDict String Bool)
  | [], verdicts => pure verdicts
  | a :: rest, verdicts => do
    Prog.ofExcept (validateAssertion rules a)
    let files ← Prog.get () EvalWorld.files
    let holds ← Prog.ofExcept (evaluate rules a c o files)
    evaluateAll c o rest (verdicts.set a.assertionId holds)

def identityCollision : String := "Eval run identity collision"

variable (call : EvalCall)

def sameRun (run : EvalRun) : Prop :=
  run.suiteId = call.suite.suiteId ∧ run.suiteSha256 = call.suite.manifestSha256 ∧
    run.targetId = call.targetId ∧ run.workspaceId = call.workspaceId

instance (call : EvalCall) (run : EvalRun) : Decidable (sameRun call run) := by
  unfold sameRun
  infer_instance

def readResult (run : EvalRun) : EvalProg EvalResult :=
  match run.resultIds with
  | [resultId] => do
    let stored ← Prog.get () fun w => head w.results resultId
    let row ← Prog.ofOption stored "Stored eval result is missing"
    pure row.value.payload
  | _ => Prog.fail "Stored eval run result set is invalid"

variable (runId : String)

def readRun : EvalProg (Option (EvalRun × EvalResult)) := do
  let stored ← Prog.get () fun w => head w.runs runId
  match stored with
  | none => pure none
  | some row => do
    Prog.require (sameRun call row.value.run) identityCollision
    let result ← readResult row.value.run
    pure (some (row.value.run, result))

def findStored : EvalProg (Option (EvalRun × EvalResult)) := do
  let created ← Prog.get () EvalWorld.created
  if created = true then readRun call runId else pure none

def appendResult (row : ResultRow) (w : EvalWorld) : Except String (Unit × EvalWorld) :=
  match append w.results row.payload.resultId none row with
  | some results => .ok ((), {w with results := results})
  | none => .error "Record revision changed"

def appendRun (row : RunRow) (w : EvalWorld) : Except String (Unit × EvalWorld) :=
  match append w.runs row.run.evalRunId none row with
  | some runs => .ok ((), {w with runs := runs})
  | none => .error "Record revision changed"

def requireSame (run : EvalRun) (result : EvalResult) : EvalProg (EvalRun × EvalResult) := do
  let stored ← Prog.get () fun w => head w.results result.resultId
  let hash ← Prog.ofExcept (sha256 rules (rules.dumpResult result))
  Prog.require (stored.map (·.value.payloadSha256) = some hash) identityCollision
  pure (run, result)

def storeBoth (run : EvalRun) (result : EvalResult) : EvalProg (EvalRun × EvalResult) := do
  let hash ← Prog.ofExcept (sha256 rules (rules.dumpResult result))
  Prog.attempt () (appendResult ⟨result.stored, hash⟩)
  Prog.attempt () fun w => appendRun ⟨run, ⟨call.case, call.observation, w.files⟩⟩ w
  Prog.set () fun w =>
    {w with events := w.events ++
      [⟨run.evalRunId, result.resultId, result.passed, result.failedAssertionIds⟩]}
  pure (run, result)

def storeNew (d : PyDict String Bool) (started : Int) : EvalProg (EvalRun × EvalResult) := do
  let ended ← Prog.any Int
  let now ← Prog.any Int
  let result ← Prog.ofExcept (makeResult rules call runId d ((ended - started) / 1000000).toNat now)
  let run ← Prog.ofExcept (makeRun call result)
  Prog.set () fun w => {w with created := true}
  let stored ← Prog.get () fun w => head w.runs runId
  match stored with
  | some _ => requireSame rules run result
  | none => storeBoth rules call run result

def runCase : EvalProg (EvalRun × EvalResult) := do
  Prog.require (rules.enabled = true) "Deterministic evals are disabled"
  Prog.require (call.suite.enabled = true) "Disabled eval suites cannot run"
  Prog.require (call.case.caseId ∈ call.suite.caseIds ∧ call.targetId ∈ call.suite.targetIds)
    "Eval case or target is outside the suite"
  let started ← Prog.any Int
  let d ← evaluateAll rules call.case call.observation call.case.assertions PyDict.empty
  let runId ← Prog.ofExcept
    (evalRunId rules call.suite call.case call.observation call.targetId)
  let stored ← findStored call runId
  match stored with
  | some found => pure found
  | none => storeNew rules call runId d started

inductive Reachable : EvalWorld → Prop
  | start (files : Files) : Reachable ⟨false, files, fun _ => [], fun _ => [], []⟩
  | edit {w : EvalWorld} (h : Reachable w) (files : Files) : Reachable {w with files := files}
  | call {w w' : EvalWorld} {o : Outcome String (EvalRun × EvalResult)} (h : Reachable w)
    (call : EvalCall) (hx : Exec (runCase rules call) w o w') : Reachable w'
end
end RaytSystem.Evals
