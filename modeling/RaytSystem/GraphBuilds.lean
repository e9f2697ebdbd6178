import RaytSystem.GraphRuns

/-! The recovery, the build and its error path, and all runs of builders. -/
namespace RaytSystem.CodeGraph
open Control Interleaving Prog

variable {rules : GraphRules} {owner : ℕ → String} {i : ℕ} {w : GraphWorld} {lease : LeaseToken}

attribute [local irreducible] wp

section
variable {X : GraphFault → GraphWorld → Prop} {φ : GraphWorld → Prop}

def Both (owner : ℕ → String) (i : ℕ) (φ : GraphWorld → Prop) (p : GraphPointer)
    (s : CodeGraphSnapshot) (m : CodeGraphManifest) (w : GraphWorld) : Prop :=
  Under owner i φ w ∧ w.snapshots p.snapshotSha256 = some s ∧ w.manifests p.manifestId = some m

theorem stable_both (hφ : Facts φ) (p : GraphPointer) (s : CodeGraphSnapshot)
    (m : CodeGraphManifest) : Stable owner i (Both owner i φ p s m) :=
  fun w w' h hw => ⟨stable_under hφ w w' h hw.1, h.grows.snapshots _ _ hw.2.1,
    h.grows.manifests _ _ hw.2.2⟩

variable {access : GraphAccess}

theorem wp_loadObjects {p : GraphPointer} {s : CodeGraphSnapshot} {m : CodeGraphManifest}
    {Q : CodeGraphSnapshot × CodeGraphManifest → GraphWorld → Prop} (hφ : Facts φ)
    (h : Both owner i φ p s m w) (hsha : rules.sha256 s = p.snapshotSha256)
    (hm : m.snapshotSha256 = p.snapshotSha256) (hid : m.snapshotId = rules.snapshotId s)
    (hp : p.snapshotId = rules.snapshotId s)
    (hQ : ∀ w', Sound rules owner w' → Both owner i φ p s m w' → rules.accepts s m = true →
      Q (s,m) w')
    (hX : ∀ w', Both owner i φ p s m w' → rules.accepts s m = false ∨ Careful rules access w' →
      X .unavailable w') : wp (graphRule rules owner i) (loadObjects rules access p) Q X w := by
  have hstable : Stable owner i (Both owner i φ p s m) := stable_both hφ p s m
  unfold loadObjects
  refine wp_seq (wp_readFile h hstable (fun w₁ _ hw₁ => wp_seq ?_) fun w₁ _ hw₁ hc =>
    wp_seq (wp_ofOption _ (fun _ hs => by cases hs) fun _ => hX w₁ hw₁ (Or.inr hc)))
  rw [hw₁.2.1, Prog.ofOption, wp_pure]
  refine wp_seq (wp_readFile hw₁ hstable (fun w₂ hs₂ hw₂ => wp_seq ?_) fun w₂ _ hw₂ hc =>
    wp_seq (wp_ofOption _ (fun _ hm => by cases hm) fun _ => hX w₂ hw₂ (Or.inr hc)))
  rw [hw₂.2.2, Prog.ofOption, wp_pure]
  refine wp_seq (wp_require _ (fun _ => ?_) fun hne => absurd hsha hne)
  refine wp_seq (wp_require _ (fun _ => ?_) fun hne => absurd hm hne)
  refine wp_seq (wp_require _ (fun _ => ?_) fun hne => absurd hid hne)
  refine wp_seq (wp_require _ (fun _ => ?_) fun hne => absurd hp hne)
  refine wp_seq (wp_require _ (fun hyes => ?_) fun hno => ?_)
  · rw [pure_eq, wp_pure]
    exact hQ w₂ hs₂ hw₂ hyes
  · exact hX w₂ hw₂ (Or.inl (by simpa using hno))

theorem wp_loadCurrent
    {Q : Option (GraphPointer × CodeGraphSnapshot × CodeGraphManifest) → GraphWorld → Prop}
    (hφ : Facts φ) (h : Under owner i φ w)
    (hnone : ∀ w', Sound rules owner w' → Under owner i φ w' →
      w'.current = none ∨ Careful rules access w' → Q none w')
    (hsome : ∀ p s m w', Sound rules owner w' → rules.manifestId m = p.manifestId →
      w'.manifests p.manifestId = some m →
      Under owner i (fun w => φ w ∧ Loaded rules p s m w) w' → Q (some (p,s,m)) w')
    (hX : ∀ w', Under owner i φ w' → Under owner i (Refused rules) w' ∨ Careful rules access w' →
      X .unavailable w') : wp (graphRule rules owner i) (loadCurrent rules access) Q X w := by
  refine wp_seq (wp_readFile h (stable_under hφ) (fun w₁ hs hw₁ => ?_) fun w₁ hs hw₁ hc => ?_)
  swap
  · rw [pure_eq, wp_pure]
    exact hnone w₁ hs hw₁ (Or.inr hc)
  cases hcurrent : w₁.current with
  | none =>
    rw [pure_eq, wp_pure]
    exact hnone w₁ hs hw₁ (Or.inl hcurrent)
  | some p =>
    obtain ⟨s, m, hsnap, hman, hsha, hid, hm, hmid, hp⟩ := hs.bound p hcurrent
    have hcurrentFacts : Facts fun w => w.current = some p :=
      fun _ _ hsame _ hw => hsame.current.trans hw
    have hboth : Both owner i (fun w => φ w ∧ w.current = some p) p s m w₁ :=
      ⟨fun hmine => ⟨hw₁ hmine, hcurrent⟩, hsnap, hman⟩
    refine wp_seq (wp_loadObjects (facts_and hφ hcurrentFacts) hboth hsha hm hmid hp
      (fun w₂ hs₂ hw₂ hyes => ?_) fun w₂ hw₂ hno => ?_)
    · rw [pure_eq, wp_pure]
      refine hsome p s m w₂ hs₂ hid hw₂.2.2 fun hmine => ?_
      obtain ⟨hw, hc⟩ := hw₂.1 hmine
      exact ⟨hw, hc, hw₂.2.1, hw₂.2.2, hyes⟩
    · refine hX w₂ (fun hmine => (hw₂.1 hmine).1) (hno.imp_left fun hno hmine => ?_)
      exact ⟨p, s, m, (hw₂.1 hmine).2, hw₂.2.1, hw₂.2.2, hno⟩
end

def RecoveryStopped (rules : GraphRules) (owner : ℕ → String) (i : ℕ) (e : GraphFault)
    (w : GraphWorld) : Prop := e = .unavailable → Under owner i (Clean rules) w

theorem wp_recoverManifest {p : GraphPointer} {s : CodeGraphSnapshot} {m : CodeGraphManifest}
    {sha : String} (howner : Function.Injective owner) (hl : IsLease owner i lease)
    (hid : rules.manifestId m = p.manifestId) (hman : w.manifests p.manifestId = some m)
    (h : Under owner i (Loaded rules p s m) w) :
    wp (graphRule rules owner i) (recoverManifest rules i lease sha m)
      (fun _ => Under owner i (Clean rules)) (RecoveryStopped rules owner i) w := by
  have hφ : Facts (Loaded rules p s m) := facts_loaded p s m
  have hsettled : ∀ w' json, Loaded rules p s m w' → json = some m →
      Settled {w' with manifestJson := json} := by
    rintro w' json hw' rfl p' hp'
    have hp'' : some p' = some p := hp'.symm.trans hw'.1
    cases hp''
    exact ⟨s, m, hw'.2.1, hw'.2.2.1, rfl⟩
  have hstable : Stable owner i fun w => Under owner i (Loaded rules p s m) w ∧
      w.manifests p.manifestId = some m :=
    fun w w' ho hw => ⟨stable_under hφ w w' ho hw.1, ho.grows.manifests _ _ hw.2⟩
  unfold recoverManifest
  refine wp_seq ?_
  rw [wp_any]
  intro raised
  refine wp_seq (wp_require _ (fun _ => ?_) fun _ he => by cases he)
  refine wp_seq (wp_attempt ⟨h, hman⟩ hstable (fun w₁ m' w₂ hs hw₁ hf => ?_)
    fun w₁ e _ hw₁ hf => ?_)
  swap
  · rw [hid, hw₁.2] at hf
    cases hf
  rw [hid, hw₁.2] at hf
  cases hf
  have hwritten : Facts fun w => Loaded rules p s m w ∧ w.manifestJson = some m :=
    facts_and hφ fun _ _ hsame _ hw => hsame.manifestJson.trans hw
  refine ⟨keeps_refl hs, ?_⟩
  refine wp_holdingLease howner hl hφ hwritten hw₁.1 (fun t w₂ hh hw₂ => wp_seq ?_)
    (fun hc => by cases hc) (fun w₂ hw₂ hmine => ?_) fun e w' hne he => absurd he hne
  · refine wp_mono _ (wp_writeBytesAtomic (ψ := fun w => Loaded rules p s m w ∧
      w.manifestJson = some m) howner hφ hh hw₂
      (fun w' => ⟨rfl, rfl, rfl, rfl, rfl, rfl, .manifest, rfl⟩)
      (fun w' hs' hw' _ => ⟨hs'.bound, Or.inl (Or.inl (hsettled w' _ hw' rfl))⟩)
      fun w' hw' => ⟨hw', rfl⟩) (fun _ w₃ hw₃ => ?_) fun _ _ he => he
    exact wp_writeBytesAtomic howner hwritten hw₃.1 hw₃.2
      (fun w' => ⟨rfl, rfl, rfl, rfl, rfl, rfl, .wal, rfl⟩)
      (fun w' hs' hw' _ => ⟨hs'.bound, Or.inl (Or.inl (hsettled w' _ hw'.1 hw'.2))⟩)
      fun w' hw' => hw'
  · exact Or.inl (hsettled w₂ _ (hw₂ hmine).1 (hw₂ hmine).2)

theorem clean_of_sound (hs : Sound rules owner w) (h : ¬Pending w) : Clean rules w :=
  hs.synced.resolve_right h

theorem wp_recoverIfCommitted (howner : Function.Injective owner) (hl : IsLease owner i lease) :
    wp (graphRule rules owner i) (recoverIfCommitted rules i lease)
      (fun _ => Under owner i (Clean rules)) (RecoveryStopped rules owner i) w := by
  have htrue : Stable owner i fun _ => True := fun _ _ _ _ => trivial
  have hdone : ∀ w', Clean rules w' → wp (graphRule rules owner i) (return () : GraphProg Unit)
      (fun _ => Under owner i (Clean rules)) (RecoveryStopped rules owner i) w' := by
    intro w' hclean
    rw [pure_eq, wp_pure]
    exact fun _ => hclean
  refine wp_seq (wp_readFile trivial htrue (fun w₁ hs _ => ?_) fun w₁ _ _ hc => hdone w₁ hc)
  cases hwal : w₁.wal with
  | none =>
    refine hdone w₁ (clean_of_sound hs ?_)
    rintro ⟨p, wal, -, hwal', -⟩
    rw [hwal] at hwal'
    cases hwal'
  | some wal =>
    dsimp only
    split
    next hprepared =>
      have hφ : Facts fun w => w.wal = some wal := fun _ _ hsame _ hw => hsame.wal.trans hw
      refine wp_seq (wp_loadCurrent hφ (fun _ => hwal) (fun w₂ hs₂ _ hnone => ?_)
        (fun p s m w₂ hs₂ hid hman hw₂ => ?_) fun w₂ _ hno _ => ?_)
      · refine hdone w₂ ?_
        rcases hnone with hnone | hclean
        · refine clean_of_sound hs₂ ?_
          rintro ⟨p, _, hp, -⟩
          rw [hnone] at hp
          cases hp
        · exact hclean
      · dsimp only
        split
        next => exact wp_recoverManifest howner hl hid hman fun hmine => (hw₂ hmine).2
        next hother =>
          rw [pure_eq, wp_pure]
          refine fun hmine => clean_of_sound hs₂ ?_
          rintro ⟨p', wal', hp', hwal', -, hsha⟩
          obtain ⟨hwal'', hp, -⟩ := hw₂ hmine
          rw [hp, Option.some.injEq] at hp'
          rw [hwal'', Option.some.injEq] at hwal'
          subst hp' hwal'
          exact hother hsha
      · intro hmine
        rcases hno with hrefused | hclean
        · exact Or.inr (hrefused hmine)
        · exact hclean
    next hother =>
      refine hdone w₁ (clean_of_sound hs ?_)
      rintro ⟨p, wal', -, hwal', hprepared, -⟩
      rw [hwal, Option.some.injEq] at hwal'
      subst hwal'
      exact hother hprepared

section

def OldKnown (rules : GraphRules) :
    Option (GraphPointer × CodeGraphSnapshot × CodeGraphManifest) → GraphWorld → Prop
  | none, _ => True
  | some (p, s, m), w => Loaded rules p s m w

theorem facts_oldKnown (old : Option (GraphPointer × CodeGraphSnapshot × CodeGraphManifest)) :
    Facts (OldKnown rules old) := by
  cases old with
  | none => exact facts_true
  | some old => exact facts_loaded old.1 old.2.1 old.2.2

variable {X : GraphFault → GraphWorld → Prop}

theorem wp_suppressing {α : Type} {p : GraphProg α} {otherwise : α} {Q : α → GraphWorld → Prop}
    (h : wp (graphRule rules owner i) p Q
      (fun e w => if e = .unavailable then Q otherwise w else X e w) w) :
    wp (graphRule rules owner i) (suppressing p otherwise) Q X w := by
  unfold suppressing
  rw [wp_tryCatch]
  refine wp_mono _ h (fun _ _ hq => hq) fun e w' he => ?_
  split at he
  next heq =>
    rw [if_pos heq, wp_pure]
    exact he
  next hne =>
    rw [if_neg hne, wp_fail]
    exact he

variable {φ : GraphWorld → Prop} {Q : Unit → GraphWorld → Prop}

theorem wp_buildingWal {access : GraphAccess} {state : WalState} {sha : Option String}
    {completes : Bool} (howner : Function.Injective owner) (hl : IsLease owner i lease)
    (hφ : Facts φ) (h : Under owner i φ w)
    (hclean : ∀ w', φ w' → Careful rules access w' → Clean rules w')
    (hfree : ∀ w' wal journal, φ w' → φ {w' with wal := wal, journal := journal})
    (hcomplete : completes = true → ∀ w', φ w' → w'.named.map Prod.snd = w'.manifestJson)
    (hQ : ∀ w', Under owner i φ w' → Q () w') (hX : ∀ e w', X e w') :
    wp (graphRule rules owner i) (writeFencedWal i lease access state sha completes) Q X w :=
  wp_writeFencedWal howner hl hφ hφ h hclean (fun w' wal journal _ => hfree w' wal journal)
    hcomplete hQ fun e w' _ => hX e w'

theorem wp_stage (hQ : Q () w) (hX : ∀ e w', X e w') :
    wp (graphRule rules owner i) stage Q X w := by
  refine wp_seq ?_
  rw [wp_any]
  intro raised
  refine wp_seq (wp_require _ (fun _ => ?_) fun _ => hX _ _)
  exact wp_require _ (fun _ => hQ) fun _ => hX _ _

theorem wp_extractGraph {Q : CodeGraphSnapshot → GraphWorld → Prop}
    (howner : Function.Injective owner) (hl : IsLease owner i lease) (hφ : Facts φ)
    (h : Under owner i φ w) (hclean : ∀ w', φ w' → Clean rules w')
    (hfree : ∀ w' wal journal, φ w' → φ {w' with wal := wal, journal := journal})
    (hQ : ∀ s w', Under owner i φ w' → Q s w') (hX : ∀ e w', X e w') :
    wp (graphRule rules owner i) (extractGraph i lease) Q X w := by
  have hwal : ∀ {Q : Unit → GraphWorld → Prop} w₀, Under owner i φ w₀ →
      (∀ w', Under owner i φ w' → Q () w') → wp (graphRule rules owner i)
        (writeFencedWal i lease .plain .building none false) Q X w₀ :=
    fun w₀ h₀ hQ₀ => wp_buildingWal howner hl hφ h₀ (fun w' hw' _ => hclean w' hw') hfree
      (fun hc => by cases hc) hQ₀ hX
  refine wp_seq (hwal w h fun w₁ hw₁ => wp_seq ?_)
  rw [wp_any]
  intro rounds
  refine wp_seq (wp_mono _ (wp_each (P := Under owner i φ) _ hw₁ fun _ w₂ hw₂ => ?_)
    (fun _ w₂ hw₂ => ?_) fun _ _ he => he)
  · exact wp_seq (wp_renew howner hl hφ hw₂ (fun _ w₃ hw₃ => hwal w₃ hw₃ fun _ hw₄ => hw₄)
      fun e w' _ => hX e w')
  · refine wp_seq (wp_stage (wp_seq (hwal w₂ hw₂ fun w₃ hw₃ => ?_)) hX)
    refine wp_seq (wp_stage (wp_seq (hwal w₃ hw₃ fun w₄ hw₄ => ?_)) hX)
    unfold observedSnapshot
    refine wp_seq ?_
    rw [wp_any]
    intro logicalFingerprint
    refine wp_seq ?_
    rw [wp_any]
    intro git
    refine wp_seq ?_
    rw [wp_any]
    intro details
    rw [pure_eq, wp_pure]
    exact hQ _ w₄ hw₄

theorem wp_settle (hQ : Q () w) (hX : ∀ e w', X e w') :
    wp (graphRule rules owner i) (do
      let raised ← .any Bool
      .require (raised = false) .osError) Q X w := by
  refine wp_seq ?_
  rw [wp_any]
  intro raised
  exact wp_require _ (fun _ => hQ) fun _ => hX _ _

theorem update_free {ν : Type} {f : String → Option ν} {key k : String} {a b : ν}
    (hfree : f key = none) (h : f k = some b) : Function.update f key (some a) k = some b := by
  have hne : k ≠ key := by
    rintro rfl
    rw [hfree] at h
    cases h
  exact (Function.update_of_ne hne _ _).trans h

variable {s : CodeGraphSnapshot}

theorem wp_publishSnapshot {sha : String} (hφ : Facts φ) (h : Under owner i φ w)
    (hQ : ∀ w', Under owner i (fun w => φ w ∧ w.snapshots sha = some s) w' → Q () w')
    (hX : ∀ e w', X e w') :
    wp (graphRule rules owner i) (publishSnapshot sha s) Q X w := by
  have hfound : ∀ w', Under owner i φ w' → w'.snapshots sha = some s →
      wp (graphRule rules owner i) (do
        let raised ← .any Bool
        .require (raised = false) .osError) Q X w' := by
    intro w' hw' hsnap
    exact wp_settle (hQ w' fun hmine => ⟨hw' hmine, hsnap⟩) hX
  refine wp_seq (wp_attempt h (stable_under hφ) (fun w₁ u w₂ hs hw₁ hf => ?_)
    fun w₁ e _ _ _ => hX e w₁)
  split at hf
  next hnone =>
    cases hf
    have hgrows : Grows w₁ {w₁ with snapshots := Function.update w₁.snapshots sha (some s)} :=
      ⟨fun _ _ hk => update_free hnone hk, fun _ _ hm => hm⟩
    exact ⟨keeps_published hs ⟨rfl, rfl, rfl⟩ hgrows rfl rfl rfl rfl rfl,
      hfound _ (fun hmine => hφ w₁ _ ⟨rfl, rfl, rfl⟩ hgrows (hw₁ hmine)) (Function.update_self ..)⟩
  next s' hsome =>
    split at hf
    next heq =>
      cases hf
      exact ⟨keeps_refl hs, hfound w₁ hw₁ (heq ▸ hsome)⟩
    next => cases hf

theorem wp_publishManifest {manifestId : String} {m : CodeGraphManifest} (hφ : Facts φ)
    (h : Under owner i φ w)
    (hQ : ∀ w', Under owner i (fun w => φ w ∧ w.manifests manifestId = some m) w' → Q () w')
    (hX : ∀ e w', X e w') :
    wp (graphRule rules owner i) (publishManifest manifestId m) Q X w := by
  have hfound : ∀ w', Under owner i φ w' → w'.manifests manifestId = some m →
      wp (graphRule rules owner i) (do
        let raised ← .any Bool
        .require (raised = false) .osError) Q X w' := by
    intro w' hw' hman
    exact wp_settle (hQ w' fun hmine => ⟨hw' hmine, hman⟩) hX
  refine wp_seq (wp_attempt h (stable_under hφ) (fun w₁ u w₂ hs hw₁ hf => ?_)
    fun w₁ e _ _ _ => hX e w₁)
  split at hf
  next hnone =>
    cases hf
    have hgrows : Grows w₁
        {w₁ with manifests := Function.update w₁.manifests manifestId (some m)} :=
      ⟨fun _ _ hs => hs, fun _ _ hk => update_free hnone hk⟩
    exact ⟨keeps_published hs ⟨rfl, rfl, rfl⟩ hgrows rfl rfl rfl rfl rfl,
      hfound _ (fun hmine => hφ w₁ _ ⟨rfl, rfl, rfl⟩ hgrows (hw₁ hmine)) (Function.update_self ..)⟩
  next m' hsome =>
    split at hf
    next heq =>
      cases hf
      exact ⟨keeps_refl hs, hfound w₁ hw₁ (heq ▸ hsome)⟩
    next => cases hf

def Ready (rules : GraphRules) (s : CodeGraphSnapshot) (w : GraphWorld) : Prop :=
  Clean rules w ∧ w.snapshots (rules.sha256 s) = some s ∧
    w.manifests (rules.manifestId (manifestOf rules s)) = some (manifestOf rules s)

theorem facts_ready (s : CodeGraphSnapshot) : Facts (Ready rules s) :=
  fun w w' hs hg h => ⟨facts_clean w w' hs hg h.1, hg.snapshots _ _ h.2.1, hg.manifests _ _ h.2.2⟩

def Prepared (rules : GraphRules) (s : CodeGraphSnapshot) (w : GraphWorld) : Prop :=
  Ready rules s w ∧ ∃ wal, w.wal = some wal ∧ wal.state = .prepared ∧
    wal.snapshotSha256 = some (rules.sha256 s)

theorem facts_prepared (s : CodeGraphSnapshot) : Facts (Prepared rules s) := by
  rintro w w' hs hg ⟨hready, wal, hwal, hstate, hsha⟩
  exact ⟨facts_ready s w w' hs hg hready, wal, hs.wal.trans hwal, hstate, hsha⟩

def Switched (rules : GraphRules) (lease : LeaseToken) (s : CodeGraphSnapshot) (w : GraphWorld) :
    Prop :=
  w.current = some (pointerOf rules lease s) ∧ w.snapshots (rules.sha256 s) = some s ∧
    w.manifests (rules.manifestId (manifestOf rules s)) = some (manifestOf rules s)

theorem facts_switched (s : CodeGraphSnapshot) : Facts (Switched rules lease s) :=
  fun _ _ hs hg h =>
    ⟨hs.current.trans h.1, hg.snapshots _ _ h.2.1, hg.manifests _ _ h.2.2⟩

theorem settled_of_switched (h : Switched rules lease s w)
    (hjson : w.manifestJson = some (manifestOf rules s)) : Settled w := by
  intro p hp
  rw [h.1, Option.some.injEq] at hp
  subst hp
  exact ⟨s, manifestOf rules s, h.2.1, h.2.2, hjson⟩

theorem wp_switchPointer (howner : Function.Injective owner) (hl : IsLease owner i lease)
    (h : Under owner i (Prepared rules s) w) (hQ : ∀ w', Q () w') (hX : ∀ e w', X e w') :
    wp (graphRule rules owner i) (switchPointer rules i lease s) Q X w := by
  have hpending : Facts fun w => Switched rules lease s w ∧ ∃ wal, w.wal = some wal ∧
      wal.state = .prepared ∧ wal.snapshotSha256 = some (rules.sha256 s) := by
    rintro w w' hs hg ⟨hswitched, wal, hwal, hrest⟩
    exact ⟨facts_switched s w w' hs hg hswitched, wal, hs.wal.trans hwal, hrest⟩
  have hdone : Facts fun w => Switched rules lease s w ∧
      w.manifestJson = some (manifestOf rules s) :=
    facts_and (facts_switched s) fun _ _ hs _ hw => hs.manifestJson.trans hw
  refine wp_holdingLease howner hl (facts_prepared s) hdone h (fun t w₁ hh hw₁ => wp_seq ?_)
    (fun _ w' hw' => named_of_settled (settled_of_switched hw'.1 hw'.2) hw'.1.1)
    (fun w' _ => hQ w') fun e w' _ => hX e w'
  refine wp_mono _ (wp_writeBytesAtomic (ψ := fun w => Switched rules lease s w ∧
      ∃ wal, w.wal = some wal ∧ wal.state = .prepared ∧
        wal.snapshotSha256 = some (rules.sha256 s)) howner (facts_prepared s) hh hw₁
    (fun w' => ⟨rfl, rfl, rfl, rfl, rfl, rfl, .current, rfl⟩)
    (fun w' hs hw' _ => ⟨fun p hp => ?_, Or.inr ?_⟩)
    fun w' hw' => ⟨⟨rfl, hw'.1.2.1, hw'.1.2.2⟩, hw'.2⟩) (fun _ w₂ hw₂ => wp_seq ?_)
    fun _ _ he => he
  · cases hp
    exact ⟨s, manifestOf rules s, hw'.1.2.1, hw'.1.2.2, rfl, rfl, rfl, rfl, rfl⟩
  · obtain ⟨-, wal, hwal, hstate, hsha⟩ := hw'
    exact ⟨_, wal, rfl, hwal, hstate, hsha⟩
  refine wp_mono _ (wp_writeBytesAtomic (ψ := fun w => Switched rules lease s w ∧
      w.manifestJson = some (manifestOf rules s)) howner hpending hw₂.1 hw₂.2
    (fun w' => ⟨rfl, rfl, rfl, rfl, rfl, rfl, .manifest, rfl⟩)
    (fun w' hs hw' _ => ⟨hs.bound, Or.inl (Or.inl (settled_of_switched hw'.1 rfl))⟩)
    fun w' hw' => ⟨hw'.1, rfl⟩) (fun _ w₃ hw₃ => ?_) fun _ _ he => he
  exact wp_writeBytesAtomic howner hdone hw₃.1 hw₃.2
    (fun w' => ⟨rfl, rfl, rfl, rfl, rfl, rfl, .wal, rfl⟩)
    (fun w' hs hw' _ => ⟨hs.bound, Or.inl (Or.inl (settled_of_switched hw'.1 hw'.2))⟩)
    fun w' hw' => hw'

theorem wp_publishGraph (howner : Function.Injective owner) (hl : IsLease owner i lease)
    (h : Under owner i (Clean rules) w) (hQ : ∀ w', Q () w') (hX : ∀ e w', X e w') :
    wp (graphRule rules owner i) (publishGraph rules i lease s) Q X w := by
  have hsnapshot : Facts fun w => Clean rules w ∧ w.snapshots (rules.sha256 s) = some s :=
    facts_and facts_clean fun _ _ _ hg hw => hg.snapshots _ _ hw
  refine wp_seq (wp_stage (wp_seq ?_) hX)
  refine wp_publishSnapshot facts_clean h (fun w₁ hw₁ => wp_seq ?_) hX
  refine wp_publishManifest hsnapshot hw₁ (fun w₂ hw₂ => wp_seq ?_) hX
  have hready : Under owner i (Ready rules s) w₂ := fun hmine =>
    ⟨(hw₂ hmine).1.1, (hw₂ hmine).1.2, (hw₂ hmine).2⟩
  refine wp_writeFencedWal howner hl (facts_ready s) (facts_prepared s) hready
    (fun _ hw _ => hw.1) (fun w' wal journal hwal hw' => ⟨hw', _, hwal, rfl, rfl⟩)
    (fun hc => by cases hc) (fun w₃ hw₃ => ?_) fun e w' _ => hX e w'
  exact wp_switchPointer howner hl hw₃ hQ hX

theorem wp_finishBuild {old : Option (GraphPointer × CodeGraphSnapshot × CodeGraphManifest)}
    (howner : Function.Injective owner) (hl : IsLease owner i lease)
    (h : Under owner i (fun w => Clean rules w ∧ OldKnown rules old w) w) (hQ : ∀ w', Q () w')
    (hX : ∀ e w', X e w') :
    wp (graphRule rules owner i) (finishBuild rules i lease old s) Q X w := by
  unfold finishBuild
  split
  next hsame =>
    cases old with
    | none => cases hsame
    | some old =>
      obtain ⟨p, so, mo⟩ := old
      refine wp_buildingWal howner hl (facts_and facts_clean (facts_loaded p so mo)) h
        (fun _ hw _ => hw.1) (fun _ _ _ hw => hw) (fun _ w' hw' => ?_) (fun w' _ => hQ w') hX
      exact named_of_settled (settled_of_loaded hw'.2 hw'.1) hw'.2.1
  next => exact wp_publishGraph howner hl (fun hmine => (h hmine).1) hQ hX

theorem wp_buildBody (howner : Function.Injective owner) (hl : IsLease owner i lease)
    (hQ : ∀ w', Q () w') (hX : ∀ e w', X e w') :
    wp (graphRule rules owner i) (buildBody rules i lease) Q X w := by
  have hold : ∀ old, Facts fun w => Clean rules w ∧ OldKnown rules old w := fun old =>
    facts_and facts_clean (facts_oldKnown old)
  have hrest : ∀ old w₂, Under owner i (fun w => Clean rules w ∧ OldKnown rules old w) w₂ →
      wp (graphRule rules owner i) (do
        let s ← extractGraph i lease
        finishBuild rules i lease old s) Q X w₂ := by
    intro old w₂ hw₂
    refine wp_seq (wp_extractGraph howner hl (hold old) hw₂ (fun _ hw => hw.1)
      (fun _ _ _ hw => ?_) (fun s w₃ hw₃ => wp_finishBuild howner hl hw₃ hQ hX) hX)
    cases old <;> exact hw
  have hclean : ∀ w₁, Under owner i (Clean rules) w₁ → wp (graphRule rules owner i) (do
      let old ← suppressing (loadCurrent rules .plain) none
      let s ← extractGraph i lease
      finishBuild rules i lease old s) Q X w₁ := by
    intro w₁ hw₁
    refine wp_seq (wp_suppressing ?_)
    refine wp_loadCurrent facts_clean hw₁ (fun w₂ _ hw₂ _ => hrest none w₂ fun hmine =>
      ⟨hw₂ hmine, trivial⟩) (fun p s m w₂ _ _ _ hw₂ => hrest (some (p,s,m)) w₂ hw₂)
      fun w₂ hw₂ _ => ?_
    rw [if_pos rfl]
    exact hrest none w₂ fun hmine => ⟨hw₂ hmine, trivial⟩
  refine wp_seq (wp_suppressing (wp_mono _ (wp_recoverIfCommitted howner hl)
    (fun _ w₁ hw₁ => hclean w₁ hw₁) fun e w₁ he => ?_))
  split
  next heq => exact hclean w₁ (he heq)
  next => exact hX e w₁

theorem wp_buildHandler {e : GraphFault} (howner : Function.Injective owner)
    (hl : IsLease owner i lease) (hX : ∀ e w', X e w') :
    wp (graphRule rules owner i) (buildHandler i lease e) Q X w := by
  unfold buildHandler
  split
  next hcaught =>
    refine wp_seq (wp_clockUnder facts_true (fun _ => trivial) fun now w₁ hw₁ => wp_seq ?_)
    refine wp_get hw₁ (stable_at facts_true now) fun w₂ _ hw₂ _ => wp_seq ?_
    unfold noteError
    split
    · rw [wp_tryCatch]
      refine wp_mono _ (wp_buildingWal (Q := fun _ _ => True) (X := fun _ _ => True) howner hl
        facts_true hw₂.1 (fun _ _ hc => hc) (fun _ _ _ _ => trivial) (fun hc => by cases hc)
        (fun _ _ => trivial) fun _ _ => trivial) (fun _ w₃ _ => ?_) fun e' w₃ _ => ?_
      · rw [wp_fail]
        exact hX _ _
      · rw [wp_pure, wp_fail]
        exact hX _ _
    · rw [wp_pure, wp_fail]
      exact hX _ _
  next =>
    rw [wp_fail]
    exact hX _ _

theorem wp_build (howner : Function.Injective owner) :
    wp (graphRule rules owner i) (build rules owner i) (fun _ _ => True) (fun _ _ => True) w := by
  have hlast : ∀ {lease : LeaseToken} {Q : Unit → GraphWorld → Prop} w', IsLease owner i lease →
      (∀ w'', Q () w'') → wp (graphRule rules owner i)
        ((release lease).tryCatch fun _ => .pure ()) Q (fun _ _ => True) w' := by
    intro lease Q w' hl hQ
    rw [wp_tryCatch]
    refine wp_release howner hl hQ fun e w'' => ?_
    rw [wp_pure]
    exact hQ w''
  refine wp_seq ?_
  rw [wp_tryCatch]
  refine wp_acquire howner (fun lease w₁ hl => ?_) fun e w₁ => ?_
  · rw [wp_tryFinally, wp_tryCatch]
    refine wp_mono _ (wp_buildBody (X := fun _ _ => True) howner hl
      (fun w₂ => hlast w₂ hl fun _ => trivial) fun _ _ => trivial) (fun _ _ hq => hq) fun e w₂ _ => ?_
    exact wp_buildHandler howner hl fun e' w₃ => hlast w₃ hl fun _ => trivial
  · split <;> rw [wp_fail] <;> trivial
end

theorem graphPool_disciplined (howner : Function.Injective owner) (builders : ℕ → Bool)
    (epoch : String) (clock : ℕ → Int) :
    Pool.Disciplined (graphRule rules owner) (Sound rules owner)
      (graphPool rules owner builders epoch clock) := by
  refine ⟨⟨fun p hp => ?_, Or.inl (Or.inl fun p hp => ?_), fun e he => ?_, List.Pairwise.nil,
    fun c hc => ?_⟩, fun i p hp => ?_⟩
  · cases hp
  · cases hp
  · cases he
  · cases hc
  · simp only [graphPool] at hp
    split at hp
    · cases hp
      exact wp_build howner
    · cases hp

/-- In every careful run: `CURRENT` names published objects that are bound to each other; no write
follows one with a later fencing token, and one token has one writer; and each completed build leaves
`manifest.json` as the manifest that `CURRENT` names. -/
theorem graph_publication_sound (howner : Function.Injective owner) {builders : ℕ → Bool}
    {epoch : String} {clock : ℕ → Int} {c : Pool ℕ GraphWorld GraphAccess GraphFault Unit}
    (h : Pool.Reachable (fun _ => Careful rules) loseBuilder
      (graphPool rules owner builders epoch clock) c) : (∀ p, c.world.current = some p → Bound rules c.world p) ∧
    c.world.journal.Pairwise InOrder ∧
    ∀ completion ∈ c.world.completions, completion.1 = completion.2 := by
  have hsound := (Pool.reachable_disciplined (graphRule_compatible rules owner)
    (graphPool_disciplined howner builders epoch clock) h).1
  exact ⟨hsound.bound, hsound.ordered, hsound.completed⟩

def settledNow (w : GraphWorld) : Bool :=
  w.current.all fun p => match w.snapshots p.snapshotSha256, w.manifests p.manifestId with
    | some _, some m => w.manifestJson == some m
    | _, _ => false

theorem settledNow_settled (h : settledNow w = true) : Settled w := by
  intro p hp
  rw [settledNow, hp, Option.all_some] at h
  split at h
  next s m hs hm => exact ⟨s, m, hs, hm, beq_iff_eq.mp h⟩
  next => cases h

def careful (access : GraphAccess) (w : GraphWorld) : Bool := access == .plain || settledNow w

theorem careful_of_true {access : GraphAccess} (h : careful access w = true) :
    Careful rules access w := by
  rw [careful, Bool.or_eq_true] at h
  cases access with
  | plain => trivial
  | failedRead => exact Or.inl (settledNow_settled (h.resolve_left (by decide)))
  | errorNote => exact Or.inl (settledNow_settled (h.resolve_left (by decide)))

def demoRules : GraphRules where
  sha256 s := if s.logicalFingerprint = 0 then "a" else "b"
  snapshotId _ := "cgsnapshot_0"
  manifestId m := "cgmanifest_" ++ m.snapshotSha256
  accepts _ _ := true

def demoOwner (i : ℕ) : String := String.ofList (List.replicate i 'r')

theorem demoOwner_injective : Function.Injective demoOwner := by
  intro i j h
  simpa [demoOwner] using congrArg String.length h

abbrev GraphPool := Pool ℕ GraphWorld GraphAccess GraphFault Unit

def demoPool : GraphPool := graphPool demoRules demoOwner (fun i => i < 3) "epoch" fun _ => 0

def zeros (n : ℕ) : List ℕ := List.replicate n 0

def lostPool : GraphPool :=
  let c := (demoPool.advance (fun _ => careful) 0 200 (zeros 80)).advance (fun _ => careful) 1 55
    (zeros 17 ++ [1] ++ zeros 40)
  ⟨Function.update c.thread 1 none, loseBuilder 1 c.world⟩

def recoveredPool : GraphPool :=
  lostPool.advance (fun _ => careful) 2 200 ([200000] ++ zeros 25 ++ [1] ++ zeros 60)

/-- The third builder recovers and finds its graph built. -/
theorem built_graph_sound : lostPool.world.manifestJson ≠ lostPool.world.named.map Prod.snd ∧
    (∃ p, recoveredPool.world.current = some p ∧ Bound demoRules recoveredPool.world p) ∧
    recoveredPool.world.completions.length = 2 ∧
    ∀ completion ∈ recoveredPool.world.completions, completion.1 = completion.2 := by
  have hadvance : ∀ (c : GraphPool) i n ins,
      Pool.Reachable (fun _ => Careful demoRules) loseBuilder c
        (c.advance (fun _ => careful) i n ins) :=
    fun c i n ins => Pool.advance_reachable (fun _ _ _ => careful_of_true) c i n ins
  have hlost : Pool.Reachable (fun _ => Careful demoRules) loseBuilder demoPool lostPool :=
    ((hadvance demoPool 0 200 (zeros 80)).trans (hadvance _ 1 55 (zeros 17 ++ [1] ++ zeros 40))).tail
      (.crash 1)
  have hsound := graph_publication_sound demoOwner_injective
    (hlost.trans (hadvance _ 2 200 ([200000] ++ zeros 25 ++ [1] ++ zeros 60)))
  have hcurrent : recoveredPool.world.current.isSome = true := by decide +kernel
  obtain ⟨p, hp⟩ := Option.isSome_iff_exists.mp hcurrent
  exact ⟨by decide +kernel, ⟨p, hp, hsound.1 p hp⟩, by decide +kernel, hsound.2.2⟩

def anyAccess (_ : ℕ) (_ : GraphAccess) (_ : GraphWorld) : Bool := true

def notedPool : GraphPool :=
  (demoPool.advance anyAccess 0 200 (zeros 80)).advance anyAccess 1 200
    (zeros 17 ++ [1] ++ zeros 11 ++ [1] ++ zeros 30)

def overwrittenPool : GraphPool := notedPool.advance anyAccess 2 200 (zeros 17 ++ [1] ++ zeros 30)

/-- No builder recovers what the error note covers: the next build completes with an old
`manifest.json`. -/
theorem error_note_unrecovered :
    Pool.Reachable (fun _ _ _ => True) loseBuilder demoPool overwrittenPool ∧
      ∃ completion ∈ overwrittenPool.world.completions, completion.1 ≠ completion.2 := by
  have hadvance : ∀ (c : GraphPool) i n ins,
      Pool.Reachable (fun _ _ _ => True) loseBuilder c (c.advance anyAccess i n ins) :=
    fun c i n ins => Pool.advance_reachable (fun _ _ _ _ => trivial) c i n ins
  refine ⟨((hadvance _ 0 200 _).trans (hadvance _ 1 200 _)).trans (hadvance _ 2 200 _), ?_⟩
  decide +kernel

end RaytSystem.CodeGraph
