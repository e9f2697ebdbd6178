import RaytSystem.CheckpointRuns

/-! Convergence of checkpoints: what every completed call, and every later one, returns. -/
namespace RaytSystem.Checkpoints
open Interleaving ImmutableStore
variable {rules : CheckpointRules} {disk : Provenance} {call : CheckpointCall}
  {event : PromotionEvent} {normalized : List String}

section
variable {w w' : CheckpointWorld}

theorem solo_meets {α : Type} {p : CheckpointProg α} {Q : α → CheckpointWorld → Prop}
    {o : Outcome String α} (h : Creates rules call event normalized True p Q w)
    (hw : Sound rules call event normalized w) (hx : Exec p w o w') (ho : o ≠ .crashed) :
    ∃ a, o = .returned a ∧ Q a w' ∧ Sound rules call event normalized w' ∧ Grows w w' := by
  induction hx with
  | pure a w => exact ⟨a, rfl, h, hw, grows_refl w⟩
  | fail e w => exact absurd trivial h
  | crash p w => exact absurd rfl ho
  | act _ ih =>
    obtain ⟨hw', hg, hk⟩ := h _ hw (moves_refl _) trivial
    obtain ⟨a, hoa, hQ, hsound, hgrows⟩ := ih hk hw' ho
    exact ⟨a, hoa, hQ, hsound, grows_trans hg hgrows⟩
  | choose b _ ih => exact ih (h b) hw ho

theorem verify_recorded (laws : CheckpointLaws rules)
    (hrequest : admitRequest rules disk call = .ok (event, normalized))
    (hset : Settled rules call normalized)
    (hrequired : ∀ path ∈ requiredPaths call.generationId call.eventId event.runId,
      path ∈ normalized) (hw : Sound rules call event normalized w) {r : GitCheckpointResult}
    (hr : Recorded rules call normalized w r) {o : Outcome String GitCheckpointResult}
    (hx : Exec (verify rules disk call.eventId call.generationId) w o w') (ho : o ≠ .crashed) :
    o = .returned r ∧ w' = w := by
  obtain ⟨commit, now, rfl, href, hcompleted⟩ := hr
  have hpin := hw.ref commit href
  have hverified : wp (sequential Unit fun w' => w' = w)
      (verify rules disk call.eventId call.generationId)
      (fun r w' => r = resultOf call commit normalized ∧ w' = w) (fun _ _ => False) w := by
    refine (wp_bind _ _ _ _ _ _).mpr ?_
    rw [admitVerify_ok hrequest]
    refine (wp_bind _ _ _ _ _ _).mpr (wp_sequential_get rfl ?_)
    rw [hcompleted]
    refine (wp_bind _ _ _ _ _ _).mpr ?_
    rw [recheck_stored laws hset (admitRequest_ok hrequest).2.2 hrequired (nfc_commit laws hpin.id)]
    refine (wp_bind _ _ _ _ _ _).mpr ((wp_bind _ _ _ _ _ _).mpr ?_)
    refine wp_require _ (fun _ => ?_) fun hid => hid hpin.id
    refine (wp_bind _ _ _ _ _ _).mpr (wp_sequential_get rfl ?_)
    refine wp_require _ (fun _ => ?_) fun hfound => hfound (by simpa using hpin.stored)
    refine (wp_bind _ _ _ _ _ _).mpr (wp_sequential_get rfl ?_)
    refine (wp_bind _ _ _ _ _ _).mpr (wp_require _ (fun _ => ?_) fun hne => hne href)
    exact ⟨rfl, rfl⟩
  have hmeets := exec_sound hverified rfl hx
  cases o with
  | returned a =>
    obtain ⟨rfl, rfl⟩ := hmeets
    exact ⟨rfl, rfl⟩
  | raised e => exact hmeets.elim
  | crashed => exact absurd rfl ho
end

section

inductive Actor where
  | checkpoint
  | moveHead (commit : String)

def Actor.program (rules : CheckpointRules) (disk : Provenance) (call : CheckpointCall) :
    Actor → CheckpointProg (Option GitCheckpointResult)
  | .checkpoint => do
    let r ← create rules disk call
    pure (some r)
  | .moveHead commit => do
    .set () fun w => {w with head := some commit}
    pure none

def checkpointPool {ι : Type} (rules : CheckpointRules) (disk : Provenance)
    (call : CheckpointCall) (actors : ι → Actor) (w : CheckpointWorld) :
    Pool ι CheckpointWorld Unit String (Option GitCheckpointResult) where
  thread i := some ((actors i).program rules disk call)
  world := w

structure Unstarted (call : CheckpointCall) (w : CheckpointWorld) : Prop where
  pending : w.pending call.eventId = none
  completed : w.completed call.eventId = none
  ref : w.refs (referenceOf call.eventId) = none

structure Names (call : CheckpointCall) (w : CheckpointWorld) (r : GitCheckpointResult) :
    Prop where
  event : r.eventId = call.eventId ∧ r.generationId = call.generationId
  reference : r.reference = referenceOf call.eventId
  ref : w.refs r.reference = some r.commitSha
  record : ∃ payload, w.completed call.eventId = some payload ∧
    payload.material.commitSha = r.commitSha ∧ payload.material.reference = r.reference ∧
      payload.material.paths = r.paths

variable {ι : Type}

structure Converged (rules : CheckpointRules) (disk : Provenance) (call : CheckpointCall)
    (c : Pool ι CheckpointWorld Unit String (Option GitCheckpointResult)) : Prop where
  named : ∀ i r, c.thread i = some (.pure (some r)) → Names call c.world r
  same : ∀ i j r r', c.thread i = some (.pure (some r)) → c.thread j = some (.pure (some r')) →
    r = r'
  verified : ∀ i r, c.thread i = some (.pure (some r)) → ∀ o w',
    Exec (verify rules disk call.eventId call.generationId) c.world o w' → o ≠ .crashed →
      o = .returned r ∧ w' = c.world
  later : ∀ o w', Exec (create rules disk call) c.world o w' → o ≠ .crashed →
    ∃ r, o = .returned r ∧ Names call w' r ∧
      ∀ i r', c.thread i = some (.pure (some r')) → r = r'

variable {w : CheckpointWorld}

theorem names_recorded (laws : CheckpointLaws rules) (hset : Settled rules call normalized)
    (hw : Sound rules call event normalized w) {r : GitCheckpointResult}
    (hr : Recorded rules call normalized w r) : Names call w r := by
  obtain ⟨commit, now, rfl, href, hcompleted⟩ := hr
  have hmaterial := stored_material hset (t := now) hset.completed
    (nfc_commit laws (hw.ref commit href).id)
  refine ⟨⟨rfl, rfl⟩, rfl, href, _, hcompleted, ?_, ?_, ?_⟩ <;>
  · unfold completedRecord
    rw [hmaterial]
    rfl

theorem recorded_unique {r r' : GitCheckpointResult} (hr : Recorded rules call normalized w r)
    (hr' : Recorded rules call normalized w r') : r = r' := by
  obtain ⟨commit, now, rfl, href, -⟩ := hr
  obtain ⟨commit', now', rfl, href', -⟩ := hr'
  rw [Option.some.inj (href.symm.trans href')]

def Promise (rules : CheckpointRules) (call : CheckpointCall) (normalized : List String) :
    Option GitCheckpointResult → CheckpointWorld → Prop
  | none, _ => True
  | some r, w => Recorded rules call normalized w r

theorem compatible [DecidableEq ι] :
    Pool.Compatible (fun _ : ι => checkpointRule rules call event normalized False)
      (fun _ w => w) (Sound rules call event normalized) where
  inv_eq _ := rfl
  preorder _ := ⟨moves_refl, moves_trans⟩
  guar _ _ _ _ _ _ _ hg := ⟨hg, False.elim⟩
  lost_inv _ _ h := h
  lost_rely _ _ w _ _ := moves_refl w

theorem steady : Pool.Steady (fun _ : ι => checkpointRule rules call event normalized False)
    (fun _ => Promise rules call normalized) (fun _ (_ : String) _ => ¬ False) where
  returns _ a _ _ hr h := by
    cases a with
    | none => trivial
    | some r => exact recorded_grows hr.grows h
  raises _ _ _ _ _ h := h

theorem creates_program (laws : CheckpointLaws rules)
    (hrequest : admitRequest rules disk call = .ok (event, normalized))
    (hset : Settled rules call normalized) {actor : Actor}
    (hactor : ∀ commit, actor = .moveHead commit → Stageable rules normalized commit) :
    Creates rules call event normalized False (actor.program rules disk call)
      (Promise rules call normalized) w := by
  cases actor with
  | checkpoint => exact creates_bind (creates_create laws hrequest (Or.inr hset))
  | moveHead commit =>
    refine creates_bind (creates_set ?_)
    intro w₁ hw₁ _
    refine ⟨⟨⟨commit, rfl, hactor commit rfl⟩, ?_, ?_, hw₁.completed⟩,
      ⟨extends_refl _, extends_refl _, extends_refl _, fun _ h => h⟩, trivial⟩
    · exact fun r hr => (hw₁.pending r hr).imp fun _ hp => ⟨hp.pending, hp.stored, hp.id⟩
    · exact fun commit' hc => ⟨(hw₁.ref commit' hc).pending, (hw₁.ref commit' hc).stored,
        (hw₁.ref commit' hc).id⟩

theorem sound_unstarted (hstart : Unstarted call w)
    (hhead : ∃ parent, w.head = some parent ∧ Stageable rules normalized parent) :
    Sound rules call event normalized w where
  head := hhead
  pending r hr := by cases hstart.pending.symm.trans hr
  ref commit hc := by cases hstart.ref.symm.trans hc
  completed r hr := by cases hstart.completed.symm.trans hr

theorem converged_reachable [DecidableEq ι] (laws : CheckpointLaws rules)
    (hrequest : admitRequest rules disk call = .ok (event, normalized))
    (hset : Settled rules call normalized)
    (hrequired : ∀ path ∈ requiredPaths call.generationId call.eventId event.runId,
      path ∈ normalized) {actors : ι → Actor}
    (hactors : ∀ i commit, actors i = .moveHead commit → Stageable rules normalized commit)
    (hw : Sound rules call event normalized w)
    {c : Pool ι CheckpointWorld Unit String (Option GitCheckpointResult)}
    (h : Pool.Reachable (fun _ _ _ => True) (fun _ w => w)
      (checkpointPool rules disk call actors w) c) : Converged rules disk call c := by
  have hfirst : Pool.Promised (fun _ : ι => checkpointRule rules call event normalized False)
      (Sound rules call event normalized) (fun _ => Promise rules call normalized)
      (fun _ _ _ => ¬ False) (checkpointPool rules disk call actors w) := by
    refine ⟨hw, ?_⟩
    rintro i p hp
    obtain rfl := Option.some.inj hp
    exact creates_program laws hrequest hset (hactors i)
  obtain ⟨hworld, hthreads⟩ := Pool.reachable_promised compatible steady hfirst h
  have hrecorded : ∀ i r, c.thread i = some (.pure (some r)) →
      Recorded rules call normalized c.world r := fun i r hr => hthreads i _ hr
  refine ⟨fun i r hr => names_recorded laws hset hworld (hrecorded i r hr),
    fun i j r r' hr hr' => recorded_unique (hrecorded i r hr) (hrecorded j r' hr'), ?_, ?_⟩
  · intro i r hr o w' hx ho
    exact verify_recorded laws hrequest hset hrequired hworld (hrecorded i r hr) hx ho
  · intro o w' hx ho
    have hlater : Creates rules call event normalized True (create rules disk call)
        (fun r w' => Recorded rules call normalized w' r) c.world :=
      creates_create laws hrequest (Or.inr hset)
    obtain ⟨r, ho', hr, hworld', hgrows⟩ := solo_meets hlater hworld hx ho
    refine ⟨r, ho', names_recorded laws hset hworld' hr, ?_⟩
    exact fun i r' hr' => recorded_unique hr (recorded_grows hgrows (hrecorded i r' hr'))
end

section
variable {ι : Type} {w : CheckpointWorld}

theorem first_completes (laws : CheckpointLaws rules)
    (hrequest : admitRequest rules disk call = .ok (event, normalized)) (hstart : Unstarted call w)
    (hhead : ∃ parent, w.head = some parent ∧ Stageable rules normalized parent) :
    ∃ r w', Exec (create rules disk call) w (.returned r) w' ∧
      Recorded rules call normalized w' r := by
  have hfirst : Creates rules call event normalized True (create rules disk call)
      (fun r w' => Recorded rules call normalized w' r) w :=
    creates_create laws hrequest (Or.inl ⟨trivial, hstart.pending, hstart.completed⟩)
  obtain ⟨o, w', ho, hx⟩ := exec_terminates (create rules disk call) w
  obtain ⟨r, rfl, hr, -⟩ := solo_meets hfirst (sound_unstarted hstart hhead) hx ho
  exact ⟨r, w', hx, hr⟩

theorem second_refused (laws : CheckpointLaws rules)
    (hrequest : admitRequest rules disk call = .ok (event, normalized))
    (hpaths : ¬ ∀ path ∈ normalized, rules.nfc path = path) {r : GitCheckpointResult}
    (hr : Recorded rules call normalized w r) : Exec (create rules disk call) w
      (.raised "Existing checkpoint record has different provenance") w := by
  obtain ⟨commit, now, -, -, hcompleted⟩ := hr
  have hdiffer : normalized.map rules.nfc ≠ normalized := by
    intro heq
    apply hpaths
    exact fun path hpath => List.map_inj_left.mp (heq.trans (List.map_id normalized).symm) path hpath
  have hmatch : matchCompleted rules call normalized
      ((completedRecord rules call commit normalized now).stored rules) =
      .error "Existing checkpoint record has different provenance" := by
    unfold matchCompleted matchRecord completedRecord
    rw [verify_stored laws]
    exact if_pos (Or.inr (Or.inr (Or.inr (Or.inr hdiffer))))
  unfold create
  refine exec_bind (exec_ofExcept hrequest) (exec_bind (exec_get w) ?_)
  rw [hcompleted]
  refine exec_bind_raised ?_
  rw [hmatch]
  exact .fail _ w

theorem solo_exec {α : Type} {p : CheckpointProg α} {w w' : CheckpointWorld} {a : α}
    (h : Exec p w (.returned a) w') : Solo (fun _ _ => True) p w (.pure a) w' := by
  generalize ho : Outcome.returned a = o at h
  induction h with
  | pure b w =>
    cases ho
    exact .refl _ w
  | fail e w => cases ho
  | crash p w => cases ho
  | act _ ih => exact .act trivial (ih ho)
  | choose b _ ih => exact .choose b (ih ho)

theorem completes_reachable [DecidableEq ι] (laws : CheckpointLaws rules)
    (hrequest : admitRequest rules disk call = .ok (event, normalized)) {actors : ι → Actor} {i : ι}
    (hi : actors i = .checkpoint) (hstart : Unstarted call w)
    (hhead : ∃ parent, w.head = some parent ∧ Stageable rules normalized parent) :
    ∃ c r, Pool.Reachable (fun _ _ _ => True) (fun _ w => w)
        (checkpointPool rules disk call actors w) c ∧
      c.thread i = some (.pure (some r)) ∧ Recorded rules call normalized c.world r := by
  obtain ⟨r, w', hx, hr⟩ := first_completes laws hrequest hstart hhead
  have hprogram : Exec ((actors i).program rules disk call) w (.returned (some r)) w' := by
    rw [hi]
    exact exec_bind hx (.pure (some r) w')
  have hsolo : Pool.Reachable (fun _ _ _ => True) (fun _ w => w)
      (checkpointPool rules disk call actors w)
      ⟨Function.update (checkpointPool rules disk call actors w).thread i
        (some (.pure (some r))), w'⟩ := Pool.reachable_solo rfl (solo_exec hprogram)
  exact ⟨_, r, hsolo, Function.update_self .., hr⟩

/-- Calls of `create` converge exactly where every path is in normal form. Git can stage the
paths over every commit that HEAD names, and the required paths are among them as they are. -/
theorem checkpoints_converge [DecidableEq ι] (laws : CheckpointLaws rules)
    (hrequest : admitRequest rules disk call = .ok (event, normalized))
    (hrequired : ∀ path ∈ requiredPaths call.generationId call.eventId event.runId,
      path ∈ normalized) {actors : ι → Actor} (hsome : ∃ i, actors i = .checkpoint)
    (hactors : ∀ i commit, actors i = .moveHead commit → Stageable rules normalized commit)
    {w : CheckpointWorld} (hstart : Unstarted call w)
    (hhead : ∃ parent, w.head = some parent ∧ Stageable rules normalized parent) :
    (∀ c, Pool.Reachable (fun _ _ _ => True) (fun _ w => w)
        (checkpointPool rules disk call actors w) c → Converged rules disk call c) ↔
      ∀ path ∈ normalized, rules.nfc path = path := by
  constructor
  · intro hconverged
    by_contra hpaths
    obtain ⟨i, hi⟩ := hsome
    obtain ⟨c, r, hreach, -, hr⟩ := completes_reachable laws hrequest hi hstart hhead
    obtain ⟨r', ho, -⟩ := (hconverged c hreach).later _ _
      (second_refused laws hrequest hpaths hr) (by simp)
    cases ho
  · intro hpaths c hreach
    exact converged_reachable laws hrequest (settled_of_ids laws (admitRequest_ok hrequest).1 hpaths)
      hrequired hactors (sound_unstarted hstart hhead) hreach
end
section
open PyText

def demoEventId : String := "evt_" ++ String.ofList (List.replicate 64 'a')

def demoGenerationId : String := "gen_" ++ String.ofList (List.replicate 64 'b')

def demoEvent : PromotionEvent :=
  ⟨demoEventId, "ptxn_demo", "run_demo", "op_demo", "genesis", demoGenerationId, 1000⟩

def demoDisk : Provenance where
  generations _ := some "generation"
  events _ := some "event"
  runs _ := some ⟨some "run_demo", some "op_demo", some "ptxn_demo", some demoEventId,
    some demoGenerationId, some 1000⟩
  controlAvailable := true
  outbox _ := some ⟨demoEventId, "ptxn_demo", "event", "sha of event", "appended"⟩
  promotions _ := some ⟨"txn", "run_demo", "op_demo", "genesis", demoGenerationId,
    "sha of generation", demoEventId, 1, 1⟩
  operations _ := some "run_demo"

def accentName : String := "e\u0301.md"

def demoNfc (s : String) : String := if s = accentName then "\u00e9.md" else s

def demoRules : CheckpointRules where
  nfc := demoNfc
  sha256Hex s := "sha of " ++ s
  digest m := String.ofList (List.replicate 64 (if m.state = some "prepared" then 'c' else 'd'))
  deriveEvent _ := demoEventId
  readGeneration text := some ⟨⟨demoGenerationId, some "genesis", 1000, some "ptxn_demo",
    some demoEventId, true⟩, text⟩
  readEvent text := some ⟨demoEvent, text⟩
  readTxn text := some ⟨⟨"ptxn_demo", "run_demo", "op_demo", "genesis", demoGenerationId,
    some "sha of generation", demoEventId, 1, 1⟩, text⟩
  isoformat _ := "2026-07-10T00:00:00+00:00"
  zulu _ := "2026-07-10T00:00:00Z"
  readFile _ := .ok []
  allows _ _ := true
  readTree _ := some []
  hashObject _ := "blob"
  updateIndex index path blob := some ((path, blob) :: index)
  writeTree _ := "tree"
  commitTree _ parent _ _ :=
    String.ofList (List.replicate 40 (if parent = "head" then 'e' else 'f'))

theorem demo_laws : CheckpointLaws demoRules where
  normal s := by
    change demoNfc (demoNfc s) = demoNfc s
    unfold demoNfc
    split
    · decide
    next => rfl
  ascii s h := by
    refine if_neg ?_
    rintro rfl
    exact absurd (h (Char.ofNat 0x301) (by decide)) (by decide)
  digest m := by
    change isSha256 (String.ofList (List.replicate 64 _)) = true
    split <;> decide +kernel
  commit tree parent date message := by
    change isCommitId (String.ofList (List.replicate 40 _)) = true
    split <;> decide +kernel

def demoCall : CheckpointCall := ⟨demoEventId, demoGenerationId, []⟩

def accentCall : CheckpointCall := ⟨demoEventId, demoGenerationId, [accentName]⟩

def demoPaths : List String := requiredPaths demoGenerationId demoEventId "run_demo"

theorem demo_evaluated :
    (hasDigest "evt_" demoEventId = true ∧ hasDigest "gen_" demoGenerationId = true) ∧
      (∀ path ∈ accentName :: demoPaths, validatePath path = .ok path) ∧
      (sortedSet demoPaths = demoPaths ∧
        sortedSet (accentName :: demoPaths) = accentName :: demoPaths) ∧
      ∀ path ∈ demoPaths, path ≠ accentName := by decide +kernel

theorem demo_provenance :
    verifyProvenance demoRules demoDisk demoEventId demoGenerationId true = .ok demoEvent := by
  simp [verifyProvenance, verifyObjects, verifyRun, verifyControl, verifyTxn, demoRules, demoDisk,
    demoEvent]
  rfl

theorem demo_admitted (paths : List String)
    (hfixed : ∀ path ∈ paths ++ demoPaths, validatePath path = .ok path)
    (hsorted : sortedSet (paths ++ demoPaths) = paths ++ demoPaths) :
    admitRequest demoRules demoDisk ⟨demoEventId, demoGenerationId, paths⟩ =
      .ok (demoEvent, paths ++ demoPaths) := by
  have hids : checkIds demoEventId demoGenerationId = .ok () := by
    simp [checkIds, demo_evaluated.1]
  have hpaths : normalizePaths (paths ++ demoPaths) = .ok (paths ++ demoPaths) := by
    unfold normalizePaths
    rw [mapM_fixed hfixed]
    exact congrArg Except.ok hsorted
  unfold admitRequest
  rw [hids, demo_provenance]
  change Except.bind (normalizePaths (paths ++ demoPaths)) _ = _
  rw [hpaths]
  exact if_neg (by simp [demoPaths, requiredPaths])

theorem demoCall_admitted :
    admitRequest demoRules demoDisk demoCall = .ok (demoEvent, demoPaths) :=
  demo_admitted [] (fun path h => demo_evaluated.2.1 path (List.mem_cons_of_mem _ h))
    demo_evaluated.2.2.1.1

theorem accentCall_admitted :
    admitRequest demoRules demoDisk accentCall = .ok (demoEvent, accentName :: demoPaths) :=
  demo_admitted [accentName] demo_evaluated.2.1 demo_evaluated.2.2.1.2

def demoWorld : CheckpointWorld :=
  ⟨some "head", [], ["head"], fun _ => none, fun _ => none, fun _ => none⟩

def demoActors : Fin 3 → Actor
  | 0 => .checkpoint
  | 1 => .moveHead "next"
  | 2 => .checkpoint

theorem demo_unstarted (call : CheckpointCall) : Unstarted call demoWorld := ⟨rfl, rfl, rfl⟩

theorem demo_staged (index : Index) (paths : List String) :
    ∃ out, stagedIndex demoRules index paths = .ok out := by
  induction paths generalizing index with
  | nil => exact ⟨index, rfl⟩
  | cons path rest ih => exact ih ((path, "blob") :: index)

theorem demo_stageable (paths : List String) (commit : String) :
    Stageable demoRules paths commit := ⟨[], rfl, demo_staged [] paths⟩

/-- Three callers of one checkpoint. -/
theorem demo_converges : (∀ path ∈ demoPaths, demoRules.nfc path = path) ∧
    ∀ c : Pool (Fin 3) CheckpointWorld Unit String (Option GitCheckpointResult),
      Pool.Reachable (fun _ _ _ => True) (fun _ w => w)
        (checkpointPool demoRules demoDisk demoCall demoActors demoWorld) c →
          Converged demoRules demoDisk demoCall c := by
  have hfixed : ∀ path ∈ demoPaths, demoRules.nfc path = path :=
    fun path h => if_neg (demo_evaluated.2.2.2 path h)
  refine ⟨hfixed, ?_⟩
  exact (checkpoints_converge demo_laws demoCall_admitted (fun _ h => h) ⟨0, rfl⟩
    (fun _ _ _ => demo_stageable _ _) (demo_unstarted demoCall)
    ⟨"head", rfl, demo_stageable _ _⟩).mpr hfixed

/-- One call has completed, and the next one refuses its record. -/
theorem accent_refused : ∃ (c : Pool (Fin 3) CheckpointWorld Unit String
      (Option GitCheckpointResult)) (r : GitCheckpointResult),
    Pool.Reachable (fun _ _ _ => True) (fun _ w => w)
        (checkpointPool demoRules demoDisk accentCall demoActors demoWorld) c ∧
      c.thread 0 = some (.pure (some r)) ∧
      Exec (create demoRules demoDisk accentCall) c.world
        (.raised "Existing checkpoint record has different provenance") c.world := by
  have hfirst : demoActors 0 = .checkpoint := rfl
  obtain ⟨c, r, hreach, hthread, hr⟩ := completes_reachable demo_laws accentCall_admitted hfirst
    (demo_unstarted accentCall) ⟨"head", rfl, demo_stageable _ _⟩
  refine ⟨c, r, hreach, hthread, second_refused demo_laws accentCall_admitted ?_ hr⟩
  intro h
  have hname : demoNfc accentName = accentName := h accentName List.mem_cons_self
  revert hname
  decide
end
end RaytSystem.Checkpoints
