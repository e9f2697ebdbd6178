import RaytSystem.ExceptRules
import RaytSystem.EvalService
import RaytSystem.RelyGuarantee

/-! Whose verdicts a call returns: its own where it stores its run, and those of the call that
stored the run where there is one. -/
namespace RaytSystem.Evals
open Canonical Interleaving RecordTable PyText PyDict
variable {rules : EvalRules} {w : EvalWorld}

section

theorem same_refl (d : PyDict String Bool) : d.same d = true := same_iff.mpr fun _ => rfl

variable {d d' : PyDict String Bool}

theorem same_symm (h : d.same d' = true) : d'.same d = true :=
  same_iff.mpr fun k => (same_iff.mp h k).symm

theorem same_trans {a b c : PyDict String Bool} (h : a.same b = true) (h' : b.same c = true) :
    a.same c = true :=
  same_iff.mpr fun k => (same_iff.mp h k).trans (same_iff.mp h' k)

theorem same_sortedDict (d : PyDict String Bool) : (sortedDict d).same d = true := by
  refine same_iff.mpr fun k => ?_
  apply Option.ext
  intro v
  rw [get_eq_some_iff, get_eq_some_iff]
  exact (d.entries.perm_insertionSort fun a b => a.1 ≤ b.1).mem_iff

theorem allPassed_iff {d : PyDict String Bool} :
    allPassed d = true ↔ ∀ k, d.get k ≠ some false := by
  simp only [allPassed, List.all_eq_true]
  constructor
  · intro h k hk
    cases h (k, false) (get_eq_some_iff.mp hk)
  · rintro h ⟨k, v⟩ hkv
    cases v with
    | true => rfl
    | false => exact absurd (get_eq_some_iff.mpr hkv) (h k)

theorem allPassed_same (h : d.same d' = true) : allPassed d = allPassed d' := by
  rw [Bool.eq_iff_iff, allPassed_iff, allPassed_iff]
  simp only [same_iff.mp h]

theorem failedIds_isEmpty (d : PyDict String Bool) : (failedIds d).isEmpty = allPassed d := by
  have hlength : (failedIds d).length = (d.entries.filter fun kv => !kv.2).length := by
    rw [failedIds, sorted, List.length_insertionSort, List.length_map]
  rw [Bool.eq_iff_iff, List.isEmpty_iff_length_eq_zero, hlength, List.length_eq_zero_iff,
    List.filter_eq_nil_iff]
  simp [allPassed]
end

section

structure Backed (rules : EvalRules) (w : EvalWorld) (row : RunRow) (d : PyDict String Bool)
    (resultId : String) (result : ResultRow) : Prop where
  judged : verdicts rules row.origin.case row.origin.observation row.origin.files = .ok d
  named : row.run.resultIds = [resultId]
  stored : result ∈ w.results resultId
  verdicts : result.payload.assertionResults.same d = true
  passed : result.payload.passed = allPassed d
  failed : ∀ a, a ∈ result.payload.failedAssertionIds ↔
    (a, false) ∈ result.payload.assertionResults.entries

structure Sound (rules : EvalRules) (w : EvalWorld) : Prop where
  unused : w.created = false → ∀ id, w.runs id = []
  single : ∀ id, (w.results id).length ≤ 1
  backed : ∀ id, ∀ row ∈ w.runs id, ∃ d resultId result, Backed rules w row d resultId result

variable {d : PyDict String Bool}

theorem backed_mono {w w' : EvalWorld} {row : RunRow} {resultId : String} {result : ResultRow}
    (h : Backed rules w row d resultId result) (hresults : Extends w.results w'.results) :
    Backed rules w' row d resultId result :=
  {h with stored := extends_mem hresults h.stored}

theorem sound_files (h : Sound rules w) (files : Files) : Sound rules {w with files := files} where
  unused := h.unused
  single := h.single
  backed id row hrow := by
    obtain ⟨d, resultId, result, hb⟩ := h.backed id row hrow
    exact ⟨d, resultId, result, backed_mono hb (extends_refl _)⟩

theorem sound_created (h : Sound rules w) : Sound rules {w with created := true} where
  unused hc := by cases hc
  single := h.single
  backed id row hrow := by
    obtain ⟨d, resultId, result, hb⟩ := h.backed id row hrow
    exact ⟨d, resultId, result, backed_mono hb (extends_refl _)⟩

theorem sound_appendResult {row : ResultRow} {w' : EvalWorld} (h : Sound rules w)
    (ha : appendResult row w = .ok ((), w')) :
    Sound rules w' ∧ w'.files = w.files ∧ w'.created = w.created ∧
      row ∈ w'.results row.payload.resultId := by
  unfold appendResult at ha
  split at ha
  next results happend =>
    obtain ⟨hnone, rfl⟩ := append_first happend
    obtain ⟨-, rfl⟩ := Prod.mk.inj (Except.ok.inj ha)
    refine ⟨⟨h.unused, ?_, ?_⟩, rfl, rfl, by simp⟩
    · intro id
      by_cases hid : id = row.payload.resultId
      · subst hid
        simp [hnone]
      · simpa [push_other _ _ hid] using h.single id
    · intro id run hrun
      obtain ⟨d, resultId, result, hb⟩ := h.backed id run hrun
      exact ⟨d, resultId, result, backed_mono hb (push_extends _ _ _)⟩
  next => cases ha

theorem sound_appendRun {row : RunRow} {w' : EvalWorld} {resultId : String} {result : ResultRow}
    (h : Sound rules w) (hc : w.created = true) (hb : Backed rules w row d resultId result)
    (ha : appendRun row w = .ok ((), w')) : Sound rules w' := by
  unfold appendRun at ha
  split at ha
  next runs happend =>
    obtain ⟨-, rfl⟩ := append_first happend
    obtain ⟨-, rfl⟩ := Prod.mk.inj (Except.ok.inj ha)
    refine ⟨fun hc' => ?_, h.single, ?_⟩
    · cases hc.symm.trans hc'
    · intro id run hrun
      rcases mem_push hrun with hrun | ⟨-, rfl⟩
      · obtain ⟨d, resultId, result, hb⟩ := h.backed id run hrun
        exact ⟨d, resultId, result, backed_mono hb (extends_refl _)⟩
      · exact ⟨d, resultId, result, backed_mono hb (extends_refl _)⟩
  next => cases ha
end

section

abbrev Alone {α : Type} (rules : EvalRules) (p : EvalProg α) (Q : α → EvalWorld → Prop)
    (w : EvalWorld) : Prop := Ensures (sequential Unit (Sound rules)) p Q w

theorem alone_get {α : Type} {f : EvalWorld → α} {Q : α → EvalWorld → Prop} (h : Q (f w) w) :
    Alone rules (.get () f) Q w := by
  refine ensures_get (fun _ _ => trivial) ?_
  rintro _ - rfl -
  exact h

variable {Q : Unit → EvalWorld → Prop}

theorem alone_set {f : EvalWorld → EvalWorld} (hs : Sound rules (f w)) (h : Q () (f w)) :
    Alone rules (.set () f) Q w := by
  refine ensures_set ?_
  rintro _ - rfl -
  exact ⟨hs, trivial, h⟩

theorem alone_attempt {f : EvalWorld → Except String (Unit × EvalWorld)}
    (h : ∀ w', f w = .ok ((), w') → Sound rules w' ∧ Q () w') :
    Alone rules (.attempt () f) Q w := by
  refine ensures_attempt (fun _ _ => trivial) ?_
  rintro _ ⟨⟩ w' - rfl - hf
  exact ⟨(h w' hf).1, trivial, (h w' hf).2⟩

theorem alone_evaluateAll {c : EvalCase} {o : EvalObservation} (as : List EvalAssertion)
    (d : PyDict String Bool) : Alone rules (evaluateAll rules c o as d)
      (fun d' w' => w' = w ∧ verdictsFrom rules c o w.files as d = .ok d') w := by
  induction as generalizing d with
  | nil => exact ensures_pure ⟨rfl, rfl⟩
  | cons a rest ih =>
    refine ensures_bind (ensures_ofExcept ?_)
    intro u hvalid
    refine ensures_bind (alone_get ?_)
    refine ensures_bind (ensures_ofExcept ?_)
    intro holds hholds
    refine ensures_mono (ih _) ?_
    rintro d' w' ⟨rfl, hrest⟩
    refine ⟨rfl, ?_⟩
    rw [verdictsFrom, hvalid]
    change (do
      let holds ← evaluate rules a c o w'.files
      verdictsFrom rules c o w'.files rest (d.set a.assertionId holds)) = _
    rw [hholds]
    exact hrest

def Found (w : EvalWorld) (runId : String) : Option (EvalRun × EvalResult) → Prop
  | none => head w.runs runId = none
  | some found => ∃ row resultId result, head w.runs runId = some row ∧
      row.value.run.resultIds = [resultId] ∧ result ∈ w.results resultId ∧
      found.2 = result.payload

theorem alone_readResult (run : EvalRun) : Alone rules (readResult run)
      (fun r w' => w' = w ∧ ∃ resultId result, run.resultIds = [resultId] ∧
        result ∈ w.results resultId ∧ r = result.payload) w := by
  unfold readResult
  split
  next resultId hids =>
    refine ensures_bind (alone_get ?_)
    refine ensures_bind (ensures_ofOption ?_)
    intro row hrow
    exact ensures_pure ⟨rfl, resultId, row.value, hids, head_mem hrow, rfl⟩
  next => exact ensures_fail

theorem alone_findStored (hw : Sound rules w) (call : EvalCall) (runId : String) :
    Alone rules (findStored call runId) (fun x w' => w' = w ∧ Found w runId x) w := by
  refine ensures_bind (alone_get ?_)
  split
  next =>
    refine ensures_bind (alone_get ?_)
    split
    next hnone => exact ensures_pure ⟨rfl, hnone⟩
    next row hrow =>
      refine ensures_guard fun _ => ?_
      refine ensures_bind (ensures_mono (alone_readResult _) ?_)
      rintro r w' ⟨rfl, resultId, result, hids, hresult, rfl⟩
      exact ensures_pure ⟨rfl, row, resultId, result, hrow, hids, hresult, rfl⟩
  next hc =>
    refine ensures_pure ⟨rfl, ?_⟩
    exact head_eq_none.mpr (hw.unused (by simpa using hc) runId)

variable {call : EvalCall} {d : PyDict String Bool}

theorem makeResult_eq_ok {runId : String} {durationMs : ℕ} {now : Int} {r : EvalResult}
    (h : makeResult rules call runId d durationMs now = .ok r) :
    r.assertionResults = d ∧ r.passed = allPassed d ∧ r.failedAssertionIds = failedIds d := by
  obtain ⟨score, -, h⟩ := bind_eq_ok.mp h
  obtain ⟨resultId, -, h⟩ := bind_eq_ok.mp h
  split at h
  · cases h
  next =>
    obtain rfl := Except.ok.inj h
    exact ⟨rfl, failedIds_isEmpty d, rfl⟩

theorem mem_failedIds (d : PyDict String Bool) (a : String) :
    a ∈ failedIds d ↔ (a, false) ∈ d.entries := by
  rw [failedIds, mem_sorted, List.mem_map]
  constructor
  · rintro ⟨⟨k, v⟩, hkv, rfl⟩
    obtain ⟨hmem, rfl⟩ : (k, v) ∈ d.entries ∧ v = false := by simpa using hkv
    exact hmem
  · intro h
    exact ⟨(a, false), by simpa using h, rfl⟩

theorem makeRun_eq_ok {result : EvalResult} {run : EvalRun} (h : makeRun call result = .ok run) :
    run.resultIds = [result.resultId] := by
  unfold makeRun at h
  split at h
  · obtain rfl := Except.ok.inj h
    rfl
  · cases h

theorem alone_storeBoth {run : EvalRun} {result : EvalResult} (hw : Sound rules w)
    (hc : w.created = true) (hd : verdicts rules call.case call.observation w.files = .ok d)
    (hids : run.resultIds = [result.resultId]) (hresults : result.assertionResults = d)
    (hpassed : result.passed = allPassed d) (hfailed : result.failedAssertionIds = failedIds d) :
    Alone rules (storeBoth rules call run result) (fun x _ => x.2 = result) w := by
  refine ensures_bind (ensures_ofExcept ?_)
  intro hash _
  refine ensures_bind (alone_attempt ?_)
  intro w₁ hresult
  obtain ⟨hw₁, hfiles, hcreated, hmem⟩ := sound_appendResult hw hresult
  refine ⟨hw₁, ?_⟩
  refine ensures_bind (alone_attempt ?_)
  intro w₂ hrun
  have hbacked : Backed rules w₁ ⟨run, ⟨call.case, call.observation, w₁.files⟩⟩ d result.resultId
      ⟨result.stored, hash⟩ := by
    refine ⟨by rw [hfiles]; exact hd, hids, hmem, ?_, hpassed, fun a => ?_⟩
    · change (sortedDict result.assertionResults).same d = true
      rw [hresults]
      exact same_sortedDict d
    · change a ∈ result.failedAssertionIds ↔ (a, false) ∈ (sortedDict result.assertionResults).entries
      rw [hresults, hfailed, mem_failedIds]
      exact (d.entries.perm_insertionSort _).mem_iff.symm
  have hw₂ := sound_appendRun hw₁ (hcreated.trans hc) hbacked hrun
  refine ⟨hw₂, ?_⟩
  refine ensures_bind (alone_set ⟨hw₂.unused, hw₂.single, ?_⟩ ?_)
  · intro id row hrow
    obtain ⟨d, resultId, result, hb⟩ := hw₂.backed id row hrow
    exact ⟨d, resultId, result, backed_mono hb (extends_refl _)⟩
  · exact ensures_pure rfl

attribute [local irreducible] Ensures

theorem alone_storeNew {runId : String} {started : Int} (hw : Sound rules w)
    (hd : verdicts rules call.case call.observation w.files = .ok d) :
    Alone rules (storeNew rules call runId d started)
      (fun x _ => x.2.assertionResults = d ∧ x.2.passed = allPassed d) w := by
  refine ensures_bind (ensures_any fun ended => ?_)
  refine ensures_bind (ensures_any fun now => ?_)
  refine ensures_bind (ensures_ofExcept ?_)
  intro result hresult
  obtain ⟨hresults, hpassed, hfailed⟩ := makeResult_eq_ok hresult
  refine ensures_bind (ensures_ofExcept ?_)
  intro run hrun
  refine ensures_bind (alone_set (sound_created hw) ?_)
  refine ensures_bind (alone_get ?_)
  split
  next =>
    refine ensures_bind (alone_get ?_)
    refine ensures_bind (ensures_ofExcept fun hash _ => ?_)
    exact ensures_bind (ensures_require fun _ => ensures_pure ⟨hresults, hpassed⟩)
  next =>
    refine ensures_mono (alone_storeBoth (sound_created hw) rfl hd (makeRun_eq_ok hrun) hresults
      hpassed hfailed) ?_
    rintro x w' hx
    rw [hx]
    exact ⟨hresults, hpassed⟩
end

def Current (rules : EvalRules) (call : EvalCall) (files : Files) (result : EvalResult) : Prop :=
  ∃ d, verdicts rules call.case call.observation files = .ok d ∧
    result.assertionResults.same d = true ∧ result.passed = allPassed d

def Agree (x y : Except String (PyDict String Bool)) : Prop :=
  ∃ d d', x = .ok d ∧ y = .ok d' ∧ d.same d' = true

def Unchanged (rules : EvalRules) (call : EvalCall) (w : EvalWorld) : Prop :=
  ∀ runId row, evalRunId rules call.suite call.case call.observation call.targetId = .ok runId →
    head w.runs runId = some row →
    Agree (verdicts rules row.value.origin.case row.value.origin.observation
      row.value.origin.files) (verdicts rules call.case call.observation w.files)

theorem current_stored_iff {call : EvalCall} {row : RunRow} {resultId : String} {result : ResultRow}
    (hw : Sound rules w) {runId : String} (hrow : row ∈ w.runs runId)
    (hids : row.run.resultIds = [resultId]) (hresult : result ∈ w.results resultId) :
    Current rules call w.files result.payload ↔
      Agree (verdicts rules row.origin.case row.origin.observation row.origin.files)
        (verdicts rules call.case call.observation w.files) := by
  obtain ⟨d₀, resultId', result', hb⟩ := hw.backed runId row hrow
  obtain rfl : resultId' = resultId := by simpa [hids] using hb.named.symm
  -- the id has one result, so the one read is the one that backs the run
  obtain rfl : result' = result := by
    have hsingle := hw.single resultId'
    obtain ⟨only, hlist⟩ := List.length_eq_one_iff.mp
      (le_antisymm hsingle (List.length_pos_of_mem hresult))
    have hstored := hb.stored
    rw [hlist, List.mem_singleton] at hstored hresult
    rw [hstored, hresult]
  constructor
  · rintro ⟨d', hd', hsame, -⟩
    exact ⟨d₀, d', hb.judged, hd', same_trans (same_symm hb.verdicts) hsame⟩
  · rintro ⟨d₁, d', hd₁, hd', hsame⟩
    obtain rfl := Except.ok.inj (hb.judged.symm.trans hd₁)
    exact ⟨d', hd', same_trans hb.verdicts hsame, hb.passed.trans (allPassed_same hsame)⟩

theorem alone_runCase (hw : Sound rules w) (call : EvalCall) : Alone rules (runCase rules call)
      (fun x _ => Current rules call w.files x.2 ↔ Unchanged rules call w) w := by
  refine ensures_guard fun _ => ?_
  refine ensures_guard fun _ => ?_
  refine ensures_guard fun _ => ?_
  refine ensures_bind (ensures_any fun started => ?_)
  refine ensures_bind (ensures_mono (alone_evaluateAll _ _) ?_)
  rintro d w₁ ⟨rfl, hd⟩
  refine ensures_bind (ensures_ofExcept ?_)
  intro runId hrunId
  refine ensures_bind (ensures_mono (alone_findStored hw call runId) ?_)
  rintro stored w₂ ⟨rfl, hfound⟩
  cases stored with
  | some found =>
    obtain ⟨row, resultId, result, hrow, hids, hresult, hpayload⟩ := hfound
    refine ensures_pure ?_
    rw [hpayload, current_stored_iff hw (head_mem hrow) hids hresult]
    constructor
    · intro hagree runId' row' hrunId' hrow'
      obtain rfl := Except.ok.inj (hrunId.symm.trans hrunId')
      obtain rfl := Option.some.inj (hrow.symm.trans hrow')
      exact hagree
    · exact fun hunchanged => hunchanged runId row hrunId hrow
  | none =>
    refine ensures_mono (alone_storeNew hw hd) ?_
    rintro x w₃ ⟨hresults, hpassed⟩
    refine iff_of_true ⟨d, hd, ?_, hpassed⟩ ?_
    · rw [hresults]
      exact same_refl d
    · intro runId' row hrunId' hrow
      obtain rfl := Except.ok.inj (hrunId.symm.trans hrunId')
      cases (show head w₂.runs runId = none from hfound).symm.trans hrow

theorem sound_reachable (h : Reachable rules w) : Sound rules w := by
  induction h with
  | start files => exact ⟨fun _ _ => rfl, fun _ => Nat.zero_le 1, fun _ row hrow => by cases hrow⟩
  | edit _ files ih => exact sound_files ih files
  | call _ call hx ih => exact exec_keeps (alone_runCase ih call) ih hx

/-- In every reachable store, a call returns the verdicts of this evaluation exactly when the id of
its run is free or was given to an evaluation with the same verdicts. -/
theorem verdicts_current_iff {call : EvalCall} {w' : EvalWorld} {run : EvalRun}
    {result : EvalResult} (h : Reachable rules w)
    (hx : Exec (runCase rules call) w (.returned (run, result)) w') :
    Current rules call w.files result ↔ Unchanged rules call w :=
  exec_sound (alone_runCase (sound_reachable h) call) (sound_reachable h) hx

def sampleRules : EvalRules where
  enabled := true
  canonical := ⟨id, toString, fun _ _ => "", fun _ => "0"⟩
  pyStr := fun _ => ""
  pyInt := fun _ => none
  pyBool := fun _ => false
  pyEq := fun _ _ => false
  casefold := id
  search := fun _ _ => some false
  blocksProcessing := fun _ => false
  quotient := fun n m => (n / m, 0)
  dumpScore := fun _ => .none
  dumpResult := fun _ => .none

def sampleCall : EvalCall where
  suite := ⟨"suite", ["target"], ["case"], "manifest", true⟩
  case := ⟨"case", none, none, [⟨"report_exists", .fileExists, "report.md", .none, []⟩]⟩
  observation := ⟨"", .none, empty, empty, empty, [], [], empty,
    empty, [], 0, (0, 0), [], [], none⟩
  workspaceId := "workspace"
  targetId := "target"

def withoutReport : Files := fun _ => none

def withReport : Files := fun path => if path = "report.md" then some ByteArray.empty else none

def freshWorld : EvalWorld := ⟨false, withoutReport, fun _ => [], fun _ => [], []⟩

def firstRun : EvalProg (EvalRun × EvalResult) × EvalWorld :=
  (runCase sampleRules sampleCall).play 20 [0, 0, 0] freshWorld

def editedWorld : EvalWorld := {firstRun.2 with files := withReport}

def secondRun : EvalProg (EvalRun × EvalResult) × EvalWorld :=
  (runCase sampleRules sampleCall).play 20 [0, 0, 0] editedWorld

theorem reachable_editedWorld : Reachable sampleRules editedWorld :=
  .edit (.call (.start withoutReport) sampleCall (exec_play_crashed 20 [0, 0, 0] _ _)) withReport

theorem runs_of_play {rules : EvalRules} {call : EvalCall} {w : EvalWorld} {β : Type}
    {f : EvalRun × EvalResult → β} {b : β} (ins : List ℕ)
    (h : ((runCase rules call).play 20 ins w).1.value?.map f = some b) : ∃ run result w',
      Exec (runCase rules call) w (.returned (run, result)) w' ∧ f (run, result) = b := by
  obtain ⟨x, hvalue, hx⟩ := Option.map_eq_some_iff.mp h
  exact ⟨x.1, x.2, _, exec_play_returned hvalue, hx⟩

theorem firstRun_returns : ∃ run result w',
    Exec (runCase sampleRules sampleCall) freshWorld (.returned (run, result)) w' ∧
      result.passed = false :=
  runs_of_play (f := fun x => x.2.passed) [0, 0, 0] (by decide +kernel)

theorem secondRun_returns : ∃ run result w',
    Exec (runCase sampleRules sampleCall) editedWorld (.returned (run, result)) w' ∧
      result.passed = false :=
  runs_of_play (f := fun x => x.2.passed) [0, 0, 0] (by decide +kernel)

/-- The first run of a case. -/
theorem sample_verdicts_current : ∃ run result w',
    Exec (runCase sampleRules sampleCall) freshWorld (.returned (run, result)) w' ∧
      Current sampleRules sampleCall withoutReport result := by
  obtain ⟨run, result, w', hx, -⟩ := firstRun_returns
  refine ⟨run, result, w', hx, (verdicts_current_iff (.start withoutReport) hx).mpr ?_⟩
  intro runId row _ hrow
  cases hrow

/-- The report is there now, and the call still returns that it is missing. -/
theorem stale_verdict : ∃ w run result w', Reachable sampleRules w ∧
    Exec (runCase sampleRules sampleCall) w (.returned (run, result)) w' ∧
    result.passed = false ∧ ¬ Current sampleRules sampleCall w.files result := by
  obtain ⟨run, result, w', hx, hpassed⟩ := secondRun_returns
  refine ⟨editedWorld, run, result, w', reachable_editedWorld, hx, hpassed, ?_⟩
  rintro ⟨d, hd, -, hd'⟩
  have hnow : ((verdicts sampleRules sampleCall.case sampleCall.observation
      editedWorld.files).toOption.map allPassed) = some true := by decide +kernel
  rw [hd] at hnow
  have hall : allPassed d = true := Option.some.inj hnow
  rw [hpassed, hall] at hd'
  cases hd'

/-! `compare_with_baseline`: the failed assertions of two stored runs, and what the absence of new
ones says about the passed ones. -/

structure EvalBaseline where
  baselineId : String
  suiteId : String
  suiteSha256 : String
  evalRunId : String
  resultHashes : PyDict String String
  aggregateSha256 : String
  acceptedBy : String
  approvalId : String
  createdAt : Int

structure ComparisonKey where
  baselineId : String
  candidateEvalRunId : String
  added : List String
  resolved : List String
  deriving DecidableEq

structure EvalComparison where
  comparisonId : ComparisonKey
  regression : Bool
  createdAt : Int

structure ComparisonStore where
  world : EvalWorld
  baselines : Table String EvalBaseline
  comparisons : Table ComparisonKey EvalComparison

def verifyBaseline (rules : EvalRules) (dumpBaseline : EvalBaseline → PyValue) (b : EvalBaseline) :
    Bool :=
  (derive rules "ebase" (dumpBaseline b)).toOption == some b.baselineId &&
    (sha256 rules (table .str b.resultHashes)).toOption == some b.aggregateSha256

def failedOf (w : EvalWorld) (resultId : String) : Except String (List String) :=
  match head w.results resultId with
  | none => .error "Eval result is missing"
  | some row => .ok row.value.payload.failedAssertionIds

def failureSet (w : EvalWorld) (evalRunId : String) : Except String (List String) :=
  match head w.runs evalRunId with
  | none => .error "Eval run is missing"
  | some row => (row.value.run.resultIds.mapM (failedOf w)).map List.flatten

def added (candidate baseline : List String) : List String :=
  sortedSet (candidate.filter (· ∉ baseline))

def recordComparison (s : ComparisonStore) (key : ComparisonKey) (now : Int) :
    Except String (EvalComparison × ComparisonStore) :=
  match head s.comparisons key with
  | some existing => .ok (existing.value, s)
  | none =>
    match append s.comparisons key none ⟨key, !key.added.isEmpty, now⟩ with
    | some comparisons => .ok (⟨key, !key.added.isEmpty, now⟩, {s with comparisons := comparisons})
    | none => .error "Record revision changed"

def compareWithBaseline (rules : EvalRules) (dumpBaseline : EvalBaseline → PyValue)
    (s : ComparisonStore) (baselineId candidateEvalRunId : String) (now : Int) :
    Except String (EvalComparison × ComparisonStore) := do
  if rules.enabled = false then .error "Deterministic evals are disabled"
  else if s.world.created = false then .error "Eval store is unavailable"
  else match head s.baselines baselineId, head s.world.runs candidateEvalRunId with
    | some ⟨_, baseline⟩, some ⟨_, candidate⟩ =>
      if !verifyBaseline rules dumpBaseline baseline then .error "Baseline was forged or corrupted"
      else if candidate.run.suiteId ≠ baseline.suiteId ∨
          candidate.run.suiteSha256 ≠ baseline.suiteSha256 then
        .error "Candidate eval run does not match the baseline suite"
      else if baseline.resultHashes.entries.any fun kv =>
          (head s.world.results kv.1).map (·.value.payloadSha256) != some kv.2 then
        .error "Baseline result hashes no longer verify"
      else do
        let baselineFailures ← failureSet s.world baseline.evalRunId
        let candidateFailures ← failureSet s.world candidateEvalRunId
        recordComparison s ⟨baselineId, candidateEvalRunId,
          added candidateFailures baselineFailures, added baselineFailures candidateFailures⟩ now
    | _, _ => .error "Baseline or candidate eval run is missing"

inductive Compared (rules : EvalRules) (dumpBaseline : EvalBaseline → PyValue) :
    ComparisonStore → Prop
  | start {w : EvalWorld} (h : Reachable rules w) (baselines : Table String EvalBaseline) :
    Compared rules dumpBaseline ⟨w, baselines, fun _ => []⟩
  | change {s : ComparisonStore} {w : EvalWorld} (h : Compared rules dumpBaseline s)
    (hw : Reachable rules w) (baselines : Table String EvalBaseline) :
    Compared rules dumpBaseline ⟨w, baselines, s.comparisons⟩
  | compare {s s' : ComparisonStore} {b c : String} {now : Int} {comparison : EvalComparison}
    (h : Compared rules dumpBaseline s)
    (hc : compareWithBaseline rules dumpBaseline s b c now = .ok (comparison, s')) :
    Compared rules dumpBaseline s'

def Recorded (w : EvalWorld) (runId assertionId : String) (passed : Bool) : Prop :=
  ∃ run, head w.runs runId = some run ∧ ∃ id ∈ run.value.run.resultIds,
    ∃ row, head w.results id = some row ∧
      (assertionId, passed) ∈ row.value.payload.assertionResults.entries

instance (w : EvalWorld) (runId assertionId : String) (passed : Bool) :
    Decidable (Recorded w runId assertionId passed) :=
  decidable_of_iff ((head w.runs runId).any fun run => run.value.run.resultIds.any fun id =>
    (head w.results id).any fun row =>
      row.value.payload.assertionResults.entries.contains (assertionId, passed))
    (by simp [Recorded, Option.any_eq_true])

def NothingHidden (w : EvalWorld) (baselineRun candidate : String) : Prop :=
  ∀ a, Recorded w baselineRun a true →
    Recorded w candidate a true ∧ ¬ Recorded w candidate a false

section
variable {rules : EvalRules} {w : EvalWorld}

theorem run_result (hw : Reachable rules w) {runId : String} {run : Stored RunRow}
    (hrun : head w.runs runId = some run) : ∃ failures,
      failureSet w runId = .ok failures ∧ (∀ a, a ∈ failures ↔ Recorded w runId a false) ∧
        ∀ a, Recorded w runId a true → ¬ Recorded w runId a false := by
  have hsound := sound_reachable hw
  obtain ⟨d, resultId, result, hb⟩ := hsound.backed runId run.value (head_mem hrun)
  obtain ⟨only, hlist⟩ := List.length_eq_one_iff.mp
    (le_antisymm (hsound.single resultId) (List.length_pos_of_mem hb.stored))
  have honly : result = only := List.mem_singleton.mp (hlist ▸ hb.stored)
  subst honly
  have hhead : head w.results resultId = some ⟨1, result⟩ := by simp [head, hlist]
  have hrecorded : ∀ a v, Recorded w runId a v ↔
      (a, v) ∈ result.payload.assertionResults.entries := by
    intro a v
    constructor
    · rintro ⟨run', hrun', id, hid, row, hrow, hmem⟩
      obtain rfl := Option.some.inj (hrun.symm.trans hrun')
      rw [hb.named, List.mem_singleton] at hid
      subst hid
      obtain rfl := Option.some.inj (hhead.symm.trans hrow)
      exact hmem
    · intro hmem
      exact ⟨run, hrun, resultId, by simp [hb.named], _, hhead, hmem⟩
  refine ⟨result.payload.failedAssertionIds, ?_, fun a => ?_, fun a htrue hfalse => ?_⟩
  · simp [failureSet, hrun, hb.named, failedOf, hhead, Except.map]
  · rw [hrecorded]
    exact hb.failed a
  · rw [hrecorded] at htrue hfalse
    rw [← get_eq_some_iff] at htrue hfalse
    cases htrue.symm.trans hfalse
end

section
variable {rules : EvalRules} {dumpBaseline : EvalBaseline → PyValue} {s s' : ComparisonStore}
variable {baselineId candidate : String} {now : Int} {comparison : EvalComparison}

theorem compareWithBaseline_eq_ok
    (h : compareWithBaseline rules dumpBaseline s baselineId candidate now = .ok (comparison, s')) :
    ∃ baseline run baselineFailures candidateFailures,
      head s.baselines baselineId = some baseline ∧ head s.world.runs candidate = some run ∧
      failureSet s.world baseline.value.evalRunId = .ok baselineFailures ∧
      failureSet s.world candidate = .ok candidateFailures ∧
      recordComparison s ⟨baselineId, candidate, added candidateFailures baselineFailures,
        added baselineFailures candidateFailures⟩ now = .ok (comparison, s') := by
  unfold compareWithBaseline at h
  split at h
  · cases h
  split at h
  · cases h
  split at h
  next revision baseline revision' run hbaseline hrun =>
    split at h
    · cases h
    split at h
    · cases h
    split at h
    · cases h
    obtain ⟨baselineFailures, hb, h⟩ := bind_eq_ok.mp h
    obtain ⟨candidateFailures, hc, h⟩ := bind_eq_ok.mp h
    exact ⟨_, _, _, _, hbaseline, hrun, hb, hc, h⟩
  next => cases h

def Faithful (s : ComparisonStore) : Prop :=
  ∀ key, ∀ c ∈ s.comparisons key, c.regression = !key.added.isEmpty

theorem recordComparison_faithful {key : ComparisonKey} (hs : Faithful s)
    (h : recordComparison s key now = .ok (comparison, s')) :
    comparison.regression = (!key.added.isEmpty) ∧ Faithful s' ∧ s'.world = s.world := by
  unfold recordComparison at h
  split at h
  next existing hexisting =>
    obtain ⟨rfl, rfl⟩ := Prod.mk.inj (Except.ok.inj h)
    exact ⟨hs key _ (head_mem hexisting), hs, rfl⟩
  next =>
    split at h
    next comparisons happend =>
      obtain ⟨rfl, rfl⟩ := Prod.mk.inj (Except.ok.inj h)
      obtain ⟨-, rfl⟩ := append_first happend
      refine ⟨rfl, fun key' c hc => ?_, rfl⟩
      rcases mem_push hc with hc | ⟨rfl, rfl⟩
      · exact hs key' c hc
      · rfl
    next => cases h

theorem compared_sound (h : Compared rules dumpBaseline s) :
    Reachable rules s.world ∧ Faithful s := by
  induction h with
  | start h baselines => exact ⟨h, fun _ c hc => absurd hc List.not_mem_nil⟩
  | change _ hw baselines ih => exact ⟨hw, ih.2⟩
  | compare _ hc ih =>
    obtain ⟨_, _, _, _, _, _, _, _, hrecord⟩ := compareWithBaseline_eq_ok hc
    obtain ⟨-, hfaithful, hworld⟩ := recordComparison_faithful ih.2 hrecord
    exact ⟨hworld ▸ ih.1, hfaithful⟩

theorem added_isEmpty (xs ys : List String) : (added xs ys).isEmpty = true ↔ xs ⊆ ys := by
  rw [List.isEmpty_iff, List.eq_nil_iff_forall_not_mem]
  simp only [added, mem_sortedSet, List.mem_filter, decide_eq_true_eq, not_and, not_not]
  rfl

/-- "No regression" hides nothing exactly when the candidate fails something new, or records every
assertion that passed in the baseline. -/
theorem nothing_hidden_iff {baseline : Stored EvalBaseline} (h : Compared rules dumpBaseline s)
    (hbaseline : head s.baselines baselineId = some baseline)
    (hc : compareWithBaseline rules dumpBaseline s baselineId candidate now =
      .ok (comparison, s')) :
    (comparison.regression = false →
        NothingHidden s.world baseline.value.evalRunId candidate) ↔
      (∃ a, Recorded s.world candidate a false ∧
        ¬ Recorded s.world baseline.value.evalRunId a false) ∨
      ∀ a, Recorded s.world baseline.value.evalRunId a true →
        ∃ passed, Recorded s.world candidate a passed := by
  obtain ⟨hw, hfaithful⟩ := compared_sound h
  obtain ⟨baseline', run, bf, cf, hbaseline', hrun, hbf, hcf, hrecord⟩ :=
    compareWithBaseline_eq_ok hc
  obtain rfl := Option.some.inj (hbaseline.symm.trans hbaseline')
  obtain ⟨hregression, -, -⟩ := recordComparison_faithful hfaithful hrecord
  obtain ⟨run', hrun'⟩ : ∃ run', head s.world.runs baseline.value.evalRunId = some run' := by
    unfold failureSet at hbf
    split at hbf
    · cases hbf
    next run' hrun' => exact ⟨run', hrun'⟩
  obtain ⟨bf', hbf', hbmem, hbonce⟩ := run_result hw hrun'
  obtain ⟨cf', hcf', hcmem, -⟩ := run_result hw hrun
  obtain rfl := Except.ok.inj (hbf.symm.trans hbf')
  obtain rfl := Except.ok.inj (hcf.symm.trans hcf')
  have hclean : comparison.regression = false ↔ cf ⊆ bf := by
    rw [hregression, Bool.not_eq_false', added_isEmpty]
  rw [hclean]
  constructor
  · intro hhidden
    by_cases hsub : cf ⊆ bf
    · exact Or.inr fun a ha => ⟨true, (hhidden hsub a ha).1⟩
    · obtain ⟨a, ha, hna⟩ := Set.not_subset.mp hsub
      exact Or.inl ⟨a, (hcmem a).mp ha, fun h => hna ((hbmem a).mpr h)⟩
  · rintro (⟨a, ha, hna⟩ | hall) hsub
    · exact absurd ((hbmem a).mp (hsub ((hcmem a).mpr ha))) hna
    · intro a ha
      have hno : ¬ Recorded s.world candidate a false := fun hfail =>
        hbonce a ha ((hbmem a).mp (hsub ((hcmem a).mpr hfail)))
      obtain ⟨passed, hpassed⟩ := hall a ha
      cases passed with
      | true => exact ⟨hpassed, hno⟩
      | false => exact absurd hpassed hno
end

def byteRules : EvalRules :=
  {sampleRules with canonical := ⟨id, toString, fun _ _ => "",
    fun data => toString (data.data.toList.getD 48 0) ++ toString (data.data.toList.getD 52 0)⟩}

def caseCall (caseId : String) : EvalCall :=
  {sampleCall with
    suite := ⟨"suite", ["target"], ["case", "second_case"], "manifest", true⟩
    case := ⟨caseId, none, none, [⟨caseId, .forbiddenActionAbsent, "action", .none, []⟩]⟩}

@[irreducible] def caseRun (caseId : String) (w : EvalWorld) :
    EvalProg (EvalRun × EvalResult) × EvalWorld :=
  (runCase byteRules (caseCall caseId)).play 20 [0, 0, 0] w

def twoRuns : EvalWorld := (caseRun "second_case" (caseRun "case" freshWorld).2).2

def runsStore : ComparisonStore where
  world := twoRuns
  baselines _ := [⟨"ebase_34115", "suite", "manifest", "erun_9934", empty, "00", "reviewer",
    "approval", 0⟩]
  comparisons := fun _ => []

theorem reachable_caseRun {w : EvalWorld} (h : Reachable byteRules w) (caseId : String) :
    Reachable byteRules (caseRun caseId w).2 := by
  unfold caseRun
  exact .call h (caseCall caseId) (exec_play_crashed 20 [0, 0, 0] _ _)

theorem compared_runsStore : Compared byteRules (fun _ => .none) runsStore :=
  .start (reachable_caseRun (reachable_caseRun (.start withoutReport) "case") "second_case") _

def compareRuns : Except String (EvalComparison × ComparisonStore) :=
  compareWithBaseline byteRules (fun _ => .none) runsStore "ebase_34115" "erun_115110" 0

theorem compareRuns_clean : compareRuns.toOption.map (·.1.regression) = some false ∧
    Recorded twoRuns "erun_9934" "case" true ∧ ¬ Recorded twoRuns "erun_115110" "case" true := by
  decide +kernel

/-- The candidate ran another case of the suite: nothing failed, and what passed is not there. -/
theorem hidden_regression : ∃ s comparison, Compared byteRules (fun _ => .none) runsStore ∧
    compareRuns = .ok (comparison, s) ∧ comparison.regression = false ∧
    ¬ NothingHidden twoRuns "erun_9934" "erun_115110" := by
  obtain ⟨hclean, hpassed, hmissing⟩ := compareRuns_clean
  cases hc : compareRuns with
  | error e =>
    rw [hc] at hclean
    cases hclean
  | ok x =>
    rw [hc] at hclean
    exact ⟨x.2, x.1, compared_runsStore, rfl, Option.some.inj hclean,
      fun h => hmissing (h "case" hpassed).1⟩

/-- Two stored runs of one suite. -/
theorem nothing_hidden_sample : ∃ s comparison, compareRuns = .ok (comparison, s) ∧
    ((comparison.regression = false → NothingHidden twoRuns "erun_9934" "erun_115110") ↔
      (∃ a, Recorded twoRuns "erun_115110" a false ∧ ¬ Recorded twoRuns "erun_9934" a false) ∨
      ∀ a, Recorded twoRuns "erun_9934" a true →
        ∃ passed, Recorded twoRuns "erun_115110" a passed) := by
  cases hc : compareRuns with
  | error e =>
    have hclean := compareRuns_clean.1
    rw [hc] at hclean
    cases hclean
  | ok x => exact ⟨x.2, x.1, rfl, nothing_hidden_iff compared_runsStore rfl hc⟩

end RaytSystem.Evals
