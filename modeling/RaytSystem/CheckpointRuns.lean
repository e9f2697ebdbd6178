import RaytSystem.CheckpointRules

/-! Runs of `create`: any number of calls, in any order of their accesses, with HEAD moving
between them and calls lost anywhere. -/
namespace RaytSystem.Checkpoints
open Interleaving ImmutableStore
variable {rules : CheckpointRules} {disk : Provenance} {call : CheckpointCall}
  {event : PromotionEvent} {normalized : List String} {alone : Prop}

section

def Stageable (rules : CheckpointRules) (normalized : List String) (parent : String) : Prop :=
  ∃ index₀, rules.readTree parent = some index₀ ∧
    ∃ index, stagedIndex rules index₀ normalized = .ok index

structure Pinned (rules : CheckpointRules) (call : CheckpointCall) (event : PromotionEvent)
    (normalized : List String) (w : CheckpointWorld) (commit : String) : Prop where
  pending : w.pending call.eventId =
    some ((preparedRecord rules call event commit normalized).stored rules)
  stored : commit ∈ w.commits
  id : isCommitId commit = true

structure Sound (rules : CheckpointRules) (call : CheckpointCall) (event : PromotionEvent)
    (normalized : List String) (w : CheckpointWorld) : Prop where
  head : ∃ parent, w.head = some parent ∧ Stageable rules normalized parent
  pending : ∀ r, w.pending call.eventId = some r →
    ∃ commit, Pinned rules call event normalized w commit
  ref : ∀ commit, w.refs (referenceOf call.eventId) = some commit →
    Pinned rules call event normalized w commit
  completed : ∀ r, w.completed call.eventId = some r → ∃ commit now,
    r = (completedRecord rules call commit normalized now).stored rules ∧
      w.refs (referenceOf call.eventId) = some commit

structure Grows (w w' : CheckpointWorld) : Prop where
  pending : Extends w.pending w'.pending
  completed : Extends w.completed w'.completed
  refs : Extends w.refs w'.refs
  commits : ∀ c ∈ w.commits, c ∈ w'.commits

theorem grows_refl (w : CheckpointWorld) : Grows w w :=
  ⟨extends_refl _, extends_refl _, extends_refl _, fun _ h => h⟩

variable {a b c : CheckpointWorld}

theorem grows_trans (hab : Grows a b) (hbc : Grows b c) : Grows a c :=
  ⟨extends_trans hab.pending hbc.pending, extends_trans hab.completed hbc.completed,
    extends_trans hab.refs hbc.refs, fun x hx => hbc.commits x (hab.commits x hx)⟩

structure Moves (alone : Prop) (w w' : CheckpointWorld) : Prop where
  grows : Grows w w'
  records : alone → w'.pending = w.pending ∧ w'.completed = w.completed

theorem moves_refl (w : CheckpointWorld) : Moves alone w w := ⟨grows_refl w, fun _ => ⟨rfl, rfl⟩⟩

theorem moves_trans (hab : Moves alone a b) (hbc : Moves alone b c) : Moves alone a c :=
  ⟨grows_trans hab.grows hbc.grows, fun h =>
    ⟨(hbc.records h).1.trans (hab.records h).1, (hbc.records h).2.trans (hab.records h).2⟩⟩

variable {w w' : CheckpointWorld} {commit commit' : String}

theorem pinned_grows (h : Pinned rules call event normalized w commit) (hg : Grows w w') :
    Pinned rules call event normalized w' commit :=
  ⟨hg.pending _ _ h.pending, hg.commits _ h.stored, h.id⟩

theorem pinned_unique (laws : CheckpointLaws rules)
    (h : Pinned rules call event normalized w commit)
    (h' : Pinned rules call event normalized w commit') : commit = commit' := by
  have heq := congrArg (fun r : CheckpointRecord => r.material.commitSha)
    (Option.some.inj (h.pending.symm.trans h'.pending))
  change rules.nfc commit = rules.nfc commit' at heq
  rwa [nfc_commit laws h.id, nfc_commit laws h'.id] at heq

theorem sound_beside (h : Sound rules call event normalized w) (hg : Grows w w')
    (hhead : w'.head = w.head) (hpending : w'.pending = w.pending)
    (hcompleted : w'.completed = w.completed) (hrefs : w'.refs = w.refs) :
    Sound rules call event normalized w' where
  head := by
    rw [hhead]
    exact h.head
  pending r hr := by
    rw [hpending] at hr
    exact (h.pending r hr).imp fun _ hp => pinned_grows hp hg
  ref commit hc := by
    rw [hrefs] at hc
    exact pinned_grows (h.ref commit hc) hg
  completed r hr := by
    rw [hcompleted] at hr
    rw [hrefs]
    exact h.completed r hr

theorem extends_update {κ ν : Type} [DecidableEq κ] {s : Store κ ν} {k : κ} (v : ν)
    (h : s k = none) : Extends s (Function.update s k (some v)) := by
  intro k' v' hk'
  rw [Function.update_of_ne, hk']
  rintro rfl
  cases h.symm.trans hk'

theorem grows_ref (c : String) {reference : String} (h : w.refs reference = none) :
    Grows w {w with refs := Function.update w.refs reference (some c)} :=
  ⟨extends_refl _, extends_refl _, extends_update c h, fun _ hc => hc⟩
end

section

def checkpointRule (rules : CheckpointRules) (call : CheckpointCall) (event : PromotionEvent)
    (normalized : List String) (alone : Prop) : Discipline CheckpointWorld Unit where
  inv := Sound rules call event normalized
  rely := Moves alone
  assume _ _ := True
  guar _ := Grows

def Creates (rules : CheckpointRules) (call : CheckpointCall) (event : PromotionEvent)
    (normalized : List String) (alone : Prop) {α : Type} (p : CheckpointProg α)
    (Q : α → CheckpointWorld → Prop) (w : CheckpointWorld) : Prop :=
  wp (checkpointRule rules call event normalized alone) p Q (fun _ _ => ¬ alone) w

variable {α β : Type} {w : CheckpointWorld} {commit : String} {p : CheckpointProg α}

theorem creates_bind {g : α → CheckpointProg β} {Q : β → CheckpointWorld → Prop}
    (h : Creates rules call event normalized alone p
      (fun a w' => Creates rules call event normalized alone (g a) Q w') w) :
    Creates rules call event normalized alone (p.bind g) Q w := (wp_bind _ p g Q _ w).mpr h

theorem creates_mono {Q Q' : α → CheckpointWorld → Prop}
    (h : Creates rules call event normalized alone p Q w) (hQ : ∀ a w, Q a w → Q' a w) :
    Creates rules call event normalized alone p Q' w := wp_mono _ h hQ fun _ _ hX => hX

theorem creates_get {f : CheckpointWorld → α} {Q : α → CheckpointWorld → Prop}
    (h : ∀ w', Sound rules call event normalized w' → Moves alone w w' → Q (f w') w') :
    Creates rules call event normalized alone (.get () f) Q w :=
  fun w' hw' hr _ => ⟨hw', grows_refl w', h w' hw' hr⟩

variable {Q : Unit → CheckpointWorld → Prop}

theorem creates_set {f : CheckpointWorld → CheckpointWorld}
    (h : ∀ w', Sound rules call event normalized w' → Moves alone w w' →
      Sound rules call event normalized (f w') ∧ Grows w' (f w') ∧ Q () (f w')) :
    Creates rules call event normalized alone (.set () f) Q w := fun w' hw' hr _ => h w' hw' hr

theorem creates_ofExcept {x : Except String α} {a : α} {Q : α → CheckpointWorld → Prop}
    (hx : x = .ok a) (h : Q a w) : Creates rules call event normalized alone (.ofExcept x) Q w := by
  subst hx
  exact h

theorem creates_ofOption {x : Option α} {a : α} {e : String} {Q : α → CheckpointWorld → Prop}
    (hx : x = some a) (h : Q a w) :
    Creates rules call event normalized alone (.ofOption x e) Q w := by
  subst hx
  exact h

theorem creates_require {b : Prop} [Decidable b] {e : String} (hb : b) (h : Q () w) :
    Creates rules call event normalized alone (.require b e) Q w := by
  rw [Prog.require, if_pos hb]
  exact h

theorem creates_any {Q : Int → CheckpointWorld → Prop} (h : ∀ now, Q now w) :
    Creates rules call event normalized alone (.any Int) Q w := h

theorem creates_attempt {f : CheckpointWorld → Except String (Unit × CheckpointWorld)}
    (h : ∀ w' w'', Sound rules call event normalized w' → Moves alone w w' →
      f w' = .ok ((), w'') →
      Sound rules call event normalized w'' ∧ Grows w' w'' ∧ Q () w'')
    (hX : ∀ w' e, Sound rules call event normalized w' → Moves alone w w' →
      f w' = .error e → ¬ alone) :
    Creates rules call event normalized alone (.attempt () f) Q w := by
  intro w' hw' hr _
  unfold Prog.attemptStep
  split
  next u w'' hf =>
    obtain ⟨hsound, hgrows, hQ⟩ := h w' w'' hw' hr hf
    exact ⟨hsound, hgrows, hQ⟩
  next e hf => exact ⟨hw', grows_refl w', hX w' e hw' hr hf⟩
end

section
variable {w : CheckpointWorld} {commit : String}

theorem creates_verifyCommitObject (h : Pinned rules call event normalized w commit) :
    Creates rules call event normalized alone (verifyCommitObject commit)
      (fun _ w' => Moves alone w w') w := by
  refine creates_bind (creates_require h.id ?_)
  refine creates_bind (creates_get ?_)
  intro w₁ _ hr₁
  refine creates_require ?_ hr₁
  simpa using hr₁.grows.commits _ h.stored

theorem creates_createReference (laws : CheckpointLaws rules)
    (h : Pinned rules call event normalized w commit) :
    Creates rules call event normalized alone (createReference (referenceOf call.eventId) commit)
      (fun _ w' => Moves alone w w' ∧ w'.refs (referenceOf call.eventId) = some commit) w := by
  refine (wp_tryCatch _ _ _ _ _ _).mpr ?_
  intro w₁ hw₁ hr₁ _
  have hpin₁ := pinned_grows h hr₁.grows
  unfold Prog.attemptStep updateRef
  split
  next u w₂ hf =>
    split at hf
    · cases hf
    next hnone =>
      obtain ⟨-, rfl⟩ := Prod.mk.inj (Except.ok.inj hf)
      have hgrows := grows_ref commit hnone
      refine ⟨⟨hw₁.head, fun r hr => (hw₁.pending r hr).imp fun _ hp => pinned_grows hp hgrows,
        ?_, ?_⟩, hgrows, moves_trans hr₁ ⟨hgrows, fun _ => ⟨rfl, rfl⟩⟩, Function.update_self ..⟩
      · intro commit' hc
        obtain rfl : commit = commit' := by simpa using hc
        exact pinned_grows hpin₁ hgrows
      · intro r hr
        obtain ⟨commit', now, -, hc⟩ := hw₁.completed r hr
        cases hnone.symm.trans hc
  next e hf =>
    split at hf
    next found hfound =>
      refine ⟨hw₁, grows_refl w₁, ?_⟩
      refine (wp_bind _ _ _ _ _ _).mpr ?_
      intro w₂ hw₂ hr₂ _
      have hfound₂ := hr₂.grows.refs _ _ hfound
      obtain rfl := pinned_unique laws (hw₂.ref found hfound₂) (pinned_grows hpin₁ hr₂.grows)
      exact ⟨hw₂, grows_refl w₂, creates_require hfound₂ ⟨moves_trans hr₁ hr₂, hfound₂⟩⟩
    · cases hf

theorem creates_ensureReference (laws : CheckpointLaws rules)
    (h : Pinned rules call event normalized w commit) :
    Creates rules call event normalized alone (ensureReference (referenceOf call.eventId) commit)
      (fun _ w' => Moves alone w w' ∧ w'.refs (referenceOf call.eventId) = some commit) w := by
  refine creates_bind (creates_mono (creates_verifyCommitObject h) ?_)
  intro _ w₁ hr₁
  refine creates_bind (creates_get ?_)
  intro w₂ hw₂ hr₂
  have hmoves₂ := moves_trans hr₁ hr₂
  have hpin₂ := pinned_grows h hmoves₂.grows
  split
  next found hfound =>
    obtain rfl := pinned_unique laws (hw₂.ref found hfound) hpin₂
    exact creates_require rfl ⟨hmoves₂, hfound⟩
  next =>
    refine creates_bind (creates_mono (creates_createReference laws hpin₂) ?_)
    rintro _ w₃ ⟨hr₃, hfound⟩
    refine creates_bind (creates_get ?_)
    intro w₄ _ hr₄
    have hfound₄ := hr₄.grows.refs _ _ hfound
    exact creates_require hfound₄ ⟨moves_trans hmoves₂ (moves_trans hr₃ hr₄), hfound₄⟩
end

section
variable {w : CheckpointWorld}

theorem creates_write {f : CheckpointWorld → CheckpointWorld}
    (hf : ∀ w, (f w).head = w.head ∧ (f w).pending = w.pending ∧ (f w).completed = w.completed ∧
      (f w).refs = w.refs ∧ ∀ c ∈ w.commits, c ∈ (f w).commits) :
    Creates rules call event normalized alone (.set () f)
      (fun _ w' => Moves alone w w' ∧ ∃ w₀, w' = f w₀) w := by
  refine creates_set ?_
  intro w₁ hw₁ hr₁
  obtain ⟨hhead, hpending, hcompleted, hrefs, hcommits⟩ := hf w₁
  have hgrows : Grows w₁ (f w₁) := by
    refine ⟨?_, ?_, ?_, hcommits⟩
    · rw [hpending]
      exact extends_refl _
    · rw [hcompleted]
      exact extends_refl _
    · rw [hrefs]
      exact extends_refl _
  exact ⟨sound_beside hw₁ hgrows hhead hpending hcompleted hrefs, hgrows,
    moves_trans hr₁ ⟨hgrows, fun _ => ⟨hpending, hcompleted⟩⟩, w₁, rfl⟩

theorem creates_stagePaths {index out : Index} {paths : List String}
    (h : stagedIndex rules index paths = .ok out) :
    Creates rules call event normalized alone (stagePaths rules index paths)
      (fun _ w' => Moves alone w w') w := by
  induction paths generalizing index w with
  | nil => exact moves_refl w
  | cons path rest ih =>
    obtain ⟨blob, hblob, h⟩ := bind_eq_ok.mp h
    obtain ⟨index', hindex, h⟩ := bind_eq_ok.mp h
    refine creates_bind (creates_ofExcept hblob ?_)
    refine creates_bind (creates_mono (creates_write fun _ =>
      ⟨rfl, rfl, rfl, rfl, fun _ hc => hc⟩) ?_)
    rintro _ w₁ ⟨hr₁, -⟩
    refine creates_bind (creates_ofExcept hindex ?_)
    exact creates_mono (ih h) fun _ _ hr₂ => moves_trans hr₁ hr₂

theorem creates_buildCommit (laws : CheckpointLaws rules) :
    Creates rules call event normalized alone (buildCommit rules call event normalized)
      (fun commit w' => Moves alone w w' ∧ commit ∈ w'.commits ∧ isCommitId commit = true) w := by
  refine creates_bind (creates_get ?_)
  intro w₁ hw₁ hr₁
  obtain ⟨parent, hparent, index₀, htree, index, hindex⟩ := hw₁.head
  refine creates_bind (creates_ofOption hparent ?_)
  refine creates_bind (creates_ofOption htree ?_)
  refine creates_bind (creates_mono (creates_stagePaths hindex) ?_)
  intro staged w₂ hr₂
  refine creates_bind (creates_mono (creates_write fun _ =>
    ⟨rfl, rfl, rfl, rfl, fun _ hc => hc⟩) ?_)
  rintro _ w₃ ⟨hr₃, -⟩
  refine creates_bind (creates_mono (creates_write fun _ =>
    ⟨rfl, rfl, rfl, rfl, fun _ hc => List.mem_append_left _ hc⟩) ?_)
  rintro _ w₄ ⟨hr₄, w₀, rfl⟩
  exact ⟨moves_trans hr₁ (moves_trans hr₂ (moves_trans hr₃ hr₄)), by simp, laws.commit ..⟩

theorem creates_publishPending {commit : String} (hcommit : commit ∈ w.commits)
    (hid : isCommitId commit = true) (hnone : alone → w.pending call.eventId = none) :
    Creates rules call event normalized alone
      (.attempt () (publishPending rules call (preparedRecord rules call event commit normalized)))
      (fun _ w' => Pinned rules call event normalized w' commit ∧
        (alone → w'.completed = w.completed)) w := by
  refine creates_attempt ?_ ?_
  · intro w₁ w₂ hw₁ hr₁ hf
    unfold publishPending at hf
    split at hf
    next pending hpublish =>
      obtain ⟨-, rfl⟩ := Prod.mk.inj (Except.ok.inj hf)
      have hgrows : Grows w₁ {w₁ with pending := pending} :=
        ⟨publish_extends hpublish, extends_refl _, extends_refl _, fun _ hc => hc⟩
      have hpin : Pinned rules call event normalized {w₁ with pending := pending} commit :=
        ⟨publish_get hpublish, hr₁.grows.commits _ hcommit, hid⟩
      refine ⟨⟨hw₁.head, fun _ _ => ⟨commit, hpin⟩, ?_, hw₁.completed⟩, hgrows, hpin,
        fun ha => (hr₁.records ha).2⟩
      exact fun commit' hc => pinned_grows (hw₁.ref commit' hc) hgrows
    · cases hf
  · intro w₁ e _ hr₁ hf ha
    have hfree : w₁.pending call.eventId = none := by
      rw [(hr₁.records ha).1]
      exact hnone ha
    unfold publishPending publish at hf
    rw [hfree] at hf
    cases hf

def Ready (rules : CheckpointRules) (call : CheckpointCall) (normalized : List String)
    (alone : Prop) (w : CheckpointWorld) : Prop :=
  (alone ∧ w.pending call.eventId = none ∧ w.completed call.eventId = none) ∨
    Settled rules call normalized

theorem ready_moves {w w' : CheckpointWorld} (h : Ready rules call normalized alone w)
    (hr : Moves alone w w') : Ready rules call normalized alone w' := by
  rcases h with ⟨ha, hpending, hcompleted⟩ | hset
  · obtain ⟨hp, hc⟩ := hr.records ha
    exact Or.inl ⟨ha, hp ▸ hpending, hc ▸ hcompleted⟩
  · exact Or.inr hset

theorem creates_preparedCommit (laws : CheckpointLaws rules)
    (hready : Ready rules call normalized alone w) :
    Creates rules call event normalized alone (preparedCommit rules call event normalized)
      (fun commit w' => Pinned rules call event normalized w' commit ∧
        (alone → w'.completed = w.completed)) w := by
  refine creates_bind (creates_get ?_)
  intro w₁ hw₁ hr₁
  split
  next r hr =>
    obtain ⟨commit, hpin⟩ := hw₁.pending r hr
    obtain rfl := Option.some.inj (hpin.pending.symm.trans hr)
    rcases ready_moves hready hr₁ with ⟨-, hnone, -⟩ | hset
    · cases hnone.symm.trans hr
    exact creates_ofExcept (matchRecord_stored laws hset List.mem_cons_self hset.prepared
      (nfc_commit laws hpin.id)) ⟨hpin, fun ha => (hr₁.records ha).2⟩
  next hnone =>
    refine creates_bind (creates_mono (creates_buildCommit laws) ?_)
    rintro commit w₂ ⟨hr₂, hcommit, hid⟩
    refine creates_bind (creates_mono (creates_publishPending hcommit hid ?_) ?_)
    · intro ha
      rw [(hr₂.records ha).1]
      exact hnone
    · rintro _ w₃ ⟨hpin, hcompleted⟩
      refine ⟨hpin, fun ha => ?_⟩
      rw [hcompleted ha, (hr₂.records ha).2, (hr₁.records ha).2]
end

section
variable {w w' : CheckpointWorld}

def Recorded (rules : CheckpointRules) (call : CheckpointCall) (normalized : List String)
    (w : CheckpointWorld) (r : GitCheckpointResult) : Prop :=
  ∃ commit now, r = resultOf call commit normalized ∧
    w.refs (referenceOf call.eventId) = some commit ∧
    w.completed call.eventId = some ((completedRecord rules call commit normalized now).stored rules)

theorem recorded_grows {r : GitCheckpointResult} (hg : Grows w w')
    (h : Recorded rules call normalized w r) : Recorded rules call normalized w' r := by
  obtain ⟨commit, now, hr, href, hcompleted⟩ := h
  exact ⟨commit, now, hr, hg.refs _ _ href, hg.completed _ _ hcompleted⟩

theorem creates_publishCompleted {commit : String} {now : Int}
    (href : w.refs (referenceOf call.eventId) = some commit)
    (hnone : alone → w.completed call.eventId = none) : Creates rules call event normalized alone
      (.attempt () (publishCompleted rules call (completedRecord rules call commit normalized now)))
      (fun _ w' => Recorded rules call normalized w' (resultOf call commit normalized)) w := by
  refine creates_attempt ?_ ?_
  · intro w₁ w₂ hw₁ hr₁ hf
    unfold publishCompleted at hf
    split at hf
    next completed hpublish =>
      obtain ⟨-, rfl⟩ := Prod.mk.inj (Except.ok.inj hf)
      have href₁ := hr₁.grows.refs _ _ href
      have hgrows : Grows w₁ {w₁ with completed := completed} :=
        ⟨extends_refl _, publish_extends hpublish, extends_refl _, fun _ hc => hc⟩
      refine ⟨⟨hw₁.head, fun r hr => (hw₁.pending r hr).imp fun _ hp => pinned_grows hp hgrows,
        fun commit' hc => pinned_grows (hw₁.ref commit' hc) hgrows, ?_⟩, hgrows, commit, now, rfl,
        href₁, publish_get hpublish⟩
      intro r hr
      exact ⟨commit, now, Option.some.inj (hr.symm.trans (publish_get hpublish)), href₁⟩
    · cases hf
  · intro w₁ e _ hr₁ hf ha
    have hfree : w₁.completed call.eventId = none := by
      rw [(hr₁.records ha).2]
      exact hnone ha
    unfold publishCompleted publish at hf
    rw [hfree] at hf
    cases hf

theorem creates_completed (laws : CheckpointLaws rules) (hset : Settled rules call normalized)
    (hw : Sound rules call event normalized w) {payload : CheckpointRecord}
    (hpayload : w.completed call.eventId = some payload) :
    ∃ commit, matchCompleted rules call normalized payload = .ok commit ∧
      Pinned rules call event normalized w commit ∧
      Recorded rules call normalized w (resultOf call commit normalized) := by
  obtain ⟨commit, now, rfl, href⟩ := hw.completed payload hpayload
  have hpin := hw.ref commit href
  exact ⟨commit, matchRecord_stored laws hset (by simp) hset.completed (nfc_commit laws hpin.id),
    hpin, commit, now, rfl, href, hpayload⟩

theorem creates_create (laws : CheckpointLaws rules)
    (hrequest : admitRequest rules disk call = .ok (event, normalized))
    (hready : Ready rules call normalized alone w) :
    Creates rules call event normalized alone (create rules disk call)
      (fun r w' => Recorded rules call normalized w' r) w := by
  refine creates_bind (creates_ofExcept hrequest ?_)
  refine creates_bind (creates_get ?_)
  intro w₁ hw₁ hr₁
  have hready₁ := ready_moves hready hr₁
  split
  next payload hpayload =>
    rcases hready₁ with ⟨-, -, hnone⟩ | hset
    · cases hnone.symm.trans hpayload
    obtain ⟨commit, hmatch, hpin, hrecorded⟩ := creates_completed laws hset hw₁ hpayload
    refine creates_bind (creates_ofExcept hmatch ?_)
    refine creates_bind (creates_mono (creates_ensureReference laws hpin) ?_)
    rintro _ w₂ ⟨hr₂, -⟩
    exact recorded_grows hr₂.grows hrecorded
  next hnone =>
    refine creates_bind (creates_mono (creates_preparedCommit laws hready₁) ?_)
    rintro commit w₂ ⟨hpin, hcompleted₂⟩
    refine creates_bind (creates_mono (creates_ensureReference laws hpin) ?_)
    rintro _ w₃ ⟨hr₃, href⟩
    refine creates_bind (creates_any fun now => ?_)
    refine creates_bind (creates_mono (creates_publishCompleted href ?_) ?_)
    · intro ha
      rw [(hr₃.records ha).2, hcompleted₂ ha]
      exact hnone
    · exact fun _ _ h => h
end
end RaytSystem.Checkpoints
