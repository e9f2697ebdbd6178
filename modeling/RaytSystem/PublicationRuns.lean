import RaytSystem.ObjectPublication

/-! Runs of publishers and readers of one path. -/
namespace RaytSystem.Storage
open Interleaving Prog

variable {jobs : ℕ → Option ObjectJob} {i : ℕ} {d d' d'' : ObjectDirectory}

def Complete (jobs : ℕ → Option ObjectJob) (d : ObjectDirectory) : Prop :=
  ∀ v, d.object = some v → jobs v = some (.publish (d.files v).data)

structure Sound (jobs : ℕ → Option ObjectJob) (d : ObjectDirectory) : Prop where
  complete : Complete jobs d
  unopened : ∀ key : ℕ × ℕ, d.unused ≤ key.2 → d.descriptors key = none

/-- What other calls may do while call `i` is between two accesses. -/
structure Outside (i : ℕ) (d d' : ObjectDirectory) : Prop where
  object_kept : ∀ v, d.object = some v → d'.object = some v ∧ d'.files v = d.files v
  object_new : ∀ v, d'.object = some v → d.object = some v ∨ v ≠ i
  file_own : d'.files i = d.files i
  killed_own : d'.killed i = d.killed i
  own_kept : i ∈ d.temporaries → d.killed i = false → i ∈ d'.temporaries
  own_gone : i ∉ d.temporaries → i ∉ d'.temporaries
  object_single : ∀ v, d.object = some v → v ∉ d.temporaries → v ∉ d'.temporaries
  descriptors : ∀ key x, d.descriptors key = some x → x.call = i → d'.descriptors key = some x

theorem outside_refl (i : ℕ) (d : ObjectDirectory) : Outside i d d where
  object_kept _ h := ⟨h, rfl⟩
  object_new _ h := Or.inl h
  file_own := rfl
  killed_own := rfl
  own_kept h _ := h
  own_gone h := h
  object_single _ _ h := h
  descriptors _ _ h _ := h

theorem outside_trans (h : Outside i d d') (h' : Outside i d' d'') : Outside i d d'' where
  object_kept v hv := by
    obtain ⟨hv', hfile⟩ := h.object_kept v hv
    obtain ⟨hv'', hfile'⟩ := h'.object_kept v hv'
    exact ⟨hv'', hfile'.trans hfile⟩
  object_new v hv := by
    rcases h'.object_new v hv with hv' | hne
    · exact h.object_new v hv'
    · exact Or.inr hne
  file_own := h'.file_own.trans h.file_own
  killed_own := h'.killed_own.trans h.killed_own
  own_kept hi hk := h'.own_kept (h.own_kept hi hk) (h.killed_own.trans hk)
  own_gone hi := h'.own_gone (h.own_gone hi)
  object_single v hv ht :=
    h'.object_single v (h.object_kept v hv).1 (h.object_single v hv ht)
  descriptors key x hx hi := h'.descriptors key x (h.descriptors key x hx hi) hi

def objectRule (jobs : ℕ → Option ObjectJob) (i : ℕ) : Discipline ObjectDirectory ObjectAccess where
  inv := Sound jobs
  rely := Outside i
  assume := Careful
  guar _ d d' := ∀ j, i ≠ j → Outside j d d'

theorem objectRule_compatible (jobs : ℕ → Option ObjectJob) :
    Pool.Compatible (objectRule jobs) loseCall (Sound jobs) where
  inv_eq _ := rfl
  preorder i := ⟨outside_refl i, outside_trans⟩
  guar _ j _ _ _ hij _ h := h j hij
  lost_inv _ _ h := ⟨h.complete, h.unopened⟩
  lost_rely _ j d hij _ :=
    { outside_refl j d with
      killed_own := Function.update_of_ne (Ne.symm hij) _ _
      own_kept := fun h _ => h }

def Stable (i : ℕ) (P : ObjectDirectory → Prop) : Prop := ∀ d d', Outside i d d' → P d → P d'

structure Running (i : ℕ) (d : ObjectDirectory) : Prop where
  alive : d.killed i = false
  unpublished : d.object ≠ some i

structure Prepared (i : ℕ) (d : ObjectDirectory) : Prop extends Running i d where
  listed : i ∈ d.temporaries

structure Won (i : ℕ) (d : ObjectDirectory) : Prop where
  alive : d.killed i = false
  published : d.object = some i
  listed : i ∈ d.temporaries

def Taken (i v : ℕ) (d : ObjectDirectory) : Prop := d.object = some v ∧ v ≠ i

def Holds (v : ℕ) (file : ObjectFile) (d : ObjectDirectory) : Prop :=
  d.object = some v ∧ d.files v = file

theorem stable_running : Stable i (Running i) := fun _ _ h hr =>
  ⟨h.killed_own.trans hr.alive, fun hv => (h.object_new i hv).elim hr.unpublished fun h => h rfl⟩

theorem stable_prepared : Stable i (Prepared i) := fun d d' h hr =>
  ⟨stable_running d d' h hr.toRunning, h.own_kept hr.listed hr.alive⟩

theorem stable_won : Stable i (Won i) := fun _ _ h hr =>
  ⟨h.killed_own.trans hr.alive, (h.object_kept i hr.published).1, h.own_kept hr.listed hr.alive⟩

theorem stable_taken (v : ℕ) : Stable i (Taken i v) := fun _ _ h hr =>
  ⟨(h.object_kept v hr.1).1, hr.2⟩

theorem stable_holds (v : ℕ) (file : ObjectFile) : Stable i (Holds v file) := fun _ _ h hr =>
  ⟨(h.object_kept v hr.1).1, (h.object_kept v hr.1).2.trans hr.2⟩

def Opened (i : ℕ) (key : ℕ × ℕ) (x : Descriptor) (d : ObjectDirectory) : Prop :=
  d.descriptors key = some x ∧ x.call = i

theorem stable_opened (key : ℕ × ℕ) (x : Descriptor) : Stable i (Opened i key x) := fun _ _ h hr =>
  ⟨h.descriptors key x hr.1 hr.2, hr.2⟩

theorem stable_and {P Q : ObjectDirectory → Prop} (hP : Stable i P) (hQ : Stable i Q) :
    Stable i fun d => P d ∧ Q d :=
  fun d d' h hd => ⟨hP d d' h hd.1, hQ d d' h hd.2⟩

def Plain (P : ObjectDirectory → Prop) : Prop := ∀ d descriptors unused, P d →
  P {d with descriptors := descriptors, unused := unused}

theorem plain_taken (v : ℕ) : Plain (Taken i v) := fun _ _ _ h => h

theorem plain_holds (v : ℕ) (file : ObjectFile) : Plain (Holds v file) := fun _ _ _ h => h

theorem plain_prepared : Plain (Prepared i) :=
  fun _ _ _ h => ⟨⟨h.alive, h.unpublished⟩, h.listed⟩

theorem opened_close {key other : ℕ × ℕ} {x y : Descriptor} (h : Opened i other y d)
    (hkey : Opened i key x d) (hne : y ≠ x) : Opened i other y (d.close key) := by
  refine ⟨(Function.update_of_ne ?_ _ _).trans h.1, h.2⟩
  rintro rfl
  exact hne (Option.some.inj (h.1.symm.trans hkey.1))

def Promise (jobs : ℕ → Option ObjectJob) (i : ℕ) (r : ObjectResult) (d : ObjectDirectory) : Prop :=
  match jobs i, r with
  | some (.publish _), .created true => d.object = some i
  | some (.publish data), .created false => ∃ v, Taken i v d ∧ (d.files v).data = data
  | some (.read _), .read data => ∃ v, d.object = some v ∧ (d.files v).data = data
  | _, _ => False

def Complaint (jobs : ℕ → Option ObjectJob) (i : ℕ) (e : ObjectFault) (d : ObjectDirectory) : Prop :=
  match jobs i, e with
  | some (.publish data), .collision => ∃ v, Taken i v d ∧ (d.files v).data ≠ data
  | some (.read _), .missingInput => True
  | some (.read maxBytes), .tooLarge => ∃ v, d.object = some v ∧ maxBytes < (d.files v).data.length
  | _, _ => False

theorem steady_promises (jobs : ℕ → Option ObjectJob) :
    Pool.Steady (objectRule jobs) (Promise jobs) (Complaint jobs) where
  returns i r d d' h hp := by
    unfold Promise at hp ⊢
    split at hp
    · exact (h.object_kept i hp).1
    · obtain ⟨v, htaken, hdata⟩ := hp
      exact ⟨v, stable_taken v d d' h htaken, by rw [(h.object_kept v htaken.1).2]; exact hdata⟩
    · obtain ⟨v, hv, hdata⟩ := hp
      exact ⟨v, (h.object_kept v hv).1, by rw [(h.object_kept v hv).2]; exact hdata⟩
    · exact hp
  raises i e d d' h hp := by
    unfold Complaint at hp ⊢
    split at hp
    · obtain ⟨v, htaken, hdata⟩ := hp
      exact ⟨v, stable_taken v d d' h htaken, by rw [(h.object_kept v htaken.1).2]; exact hdata⟩
    · exact hp
    · obtain ⟨v, hv, hlength⟩ := hp
      exact ⟨v, (h.object_kept v hv).1, by rw [(h.object_kept v hv).2]; exact hlength⟩
    · exact hp

section
variable {α β : Type} {P : ObjectDirectory → Prop} {Q : α → ObjectDirectory → Prop}
  {X : ObjectFault → ObjectDirectory → Prop}

def Keeps (jobs : ℕ → Option ObjectJob) (i : ℕ) (d d' : ObjectDirectory) : Prop :=
  Sound jobs d' ∧ ∀ j, i ≠ j → Outside j d d'

theorem keeps_refl (h : Sound jobs d) : Keeps jobs i d d := ⟨h, fun j _ => outside_refl j d⟩

theorem wp_seq {p : ObjectProg β} {g : β → ObjectProg α}
    (h : wp (objectRule jobs i) p (fun b d' => wp (objectRule jobs i) (g b) Q X d') X d) :
    wp (objectRule jobs i) (p >>= g) Q X d := (wp_bind _ p g Q X d).mpr h

theorem wp_get {l : ObjectAccess} {f : ObjectDirectory → α} (hP : P d) (hstable : Stable i P)
    (h : ∀ d', P d' → Careful l d' → Q (f d') d') : wp (objectRule jobs i) (.get l f) Q X d := by
  intro d' hc hr ha
  exact ⟨hc, (keeps_refl hc).2, h d' (hstable d d' hr hP) ha⟩

theorem wp_set {l : ObjectAccess} {f : ObjectDirectory → ObjectDirectory}
    {Q : Unit → ObjectDirectory → Prop}
    (hP : P d) (hstable : Stable i P)
    (h : ∀ d', Sound jobs d' → P d' → Careful l d' → Keeps jobs i d' (f d') ∧ Q () (f d')) :
    wp (objectRule jobs i) (.set l f) Q X d := by
  intro d' hc hr ha
  obtain ⟨⟨hc', hkeeps⟩, hQ⟩ := h d' hc (hstable d d' hr hP) ha
  exact ⟨hc', hkeeps, hQ⟩

theorem wp_attempt {l : ObjectAccess} {f : ObjectDirectory → Except ObjectFault (α × ObjectDirectory)}
    (hP : P d) (hstable : Stable i P)
    (h : ∀ d' a d'', Sound jobs d' → P d' → Careful l d' → f d' = .ok (a, d'') →
      Keeps jobs i d' d'' ∧ Q a d'')
    (hX : ∀ d' e, P d' → f d' = .error e → X e d') :
    wp (objectRule jobs i) (.attempt l f) Q X d := by
  intro d' hc hr ha
  have hP' := hstable d d' hr hP
  unfold attemptStep
  cases hf : f d' with
  | ok r =>
    obtain ⟨a, d''⟩ := r
    obtain ⟨⟨hc', hkeeps⟩, hQ⟩ := h d' a d'' hc hP' ha hf
    exact ⟨hc', hkeeps, hQ⟩
  | error e => exact ⟨hc, (keeps_refl hc).2, hX d' e hP' hf⟩
end

attribute [local irreducible] wp

section
variable {α : Type} {P : ObjectDirectory → Prop} {X : ObjectFault → ObjectDirectory → Prop}
  {Q : Unit → ObjectDirectory → Prop} {process : ℕ} {key : ℕ × ℕ} {x : Descriptor}

theorem free_closed (h : Sound jobs d) (process k : ℕ) :
    d.descriptors (process, d.free process k) = none := by
  unfold ObjectDirectory.free
  split
  next hfree => exact Option.isNone_iff_eq_none.mp hfree
  next => exact h.unopened _ (Nat.le_refl _)

theorem keeps_open (h : Keeps jobs i d d') (hsame : d'.descriptors = d.descriptors)
    (hfree : d.descriptors key = none) : Keeps jobs i d (d'.open key x) := by
  refine ⟨⟨h.1.complete, fun other hother => ?_⟩, fun j hij => ?_⟩
  · have hle := Nat.max_le.mp hother
    have hne : other ≠ key := by
      rintro rfl
      omega
    exact (Function.update_of_ne hne _ _).trans (h.1.unopened other hle.1)
  · refine {h.2 j hij with descriptors := fun other y hy _ => ?_}
    have hne : other ≠ key := by
      rintro rfl
      rw [hfree] at hy
      cases hy
    exact (Function.update_of_ne hne _ _).trans (by rw [hsame]; exact hy)

theorem keeps_close (h : Sound jobs d) (hmine : ∀ x, d.descriptors key = some x → x.call = i) :
    Keeps jobs i d (d.close key) := by
  refine ⟨⟨h.complete, fun other hother => ?_⟩, fun j hij => ?_⟩
  · by_cases hne : other = key
    · subst hne
      exact Function.update_self ..
    · exact (Function.update_of_ne hne _ _).trans (h.unopened other hother)
  · refine {outside_refl j d with descriptors := fun other y hy hj => ?_}
    have hne : other ≠ key := by
      rintro rfl
      exact hij ((hmine y hy).symm.trans hj)
    exact (Function.update_of_ne hne _ _).trans hy

theorem wp_openDescriptor {writable : Bool} {e : ObjectFault}
    {f : ObjectDirectory → Option (Target × ObjectDirectory)} {Q : ℕ × ℕ → ObjectDirectory → Prop}
    (hP : P d) (hstable : Stable i P)
    (hopen : ∀ d₁ target d₂, Sound jobs d₁ → P d₁ → f d₁ = some (target, d₂) →
      Keeps jobs i d₁ d₂ ∧ d₂.descriptors = d₁.descriptors ∧ ∀ key d₃,
        d₃ = d₂.open key ⟨i, target, writable⟩ → d₁.descriptors key = none → Q key d₃)
    (hX : ∀ d₁, P d₁ → f d₁ = none → X e d₁) :
    wp (objectRule jobs i) (openDescriptor process i writable e f) Q X d := by
  refine wp_seq ?_
  rw [wp_any]
  intro k
  refine wp_attempt hP hstable (fun d₁ key d₃ hs hd₁ _ hf => ?_) fun d₁ e' hd₁ hf => ?_
  · split at hf
    · cases hf
    next target d₂ hsome =>
      cases hf
      obtain ⟨hkeeps, hsame, hQ⟩ := hopen d₁ target d₂ hs hd₁ hsome
      have hfree := free_closed hs process k
      exact ⟨keeps_open hkeeps hsame hfree, hQ _ _ rfl hfree⟩
  · split at hf
    next hnone =>
      cases hf
      exact hX d₁ hd₁ hnone
    · cases hf

theorem opened_open (target : Target) (writable : Bool) (d : ObjectDirectory) :
    Opened i key ⟨i, target, writable⟩ (d.open key ⟨i, target, writable⟩) :=
  ⟨Function.update_self .., rfl⟩

theorem opened_kept {y : Descriptor} (h : Opened i key x d) {other : ℕ × ℕ}
    (hfree : d.descriptors other = none) : Opened i key x (d.open other y) := by
  refine ⟨(Function.update_of_ne ?_ _ _).trans h.1, h.2⟩
  rintro rfl
  cases hfree.symm.trans h.1

def Survives (i : ℕ) (P : ObjectDirectory → Prop) : Prop :=
  (∀ d key x, d.descriptors key = none → P d → P (d.open key x)) ∧
    ∀ d key, Opened i key ⟨i, .directory, false⟩ d → P d → P (d.close key)

theorem survives_plain (h : Plain P) : Survives i P :=
  ⟨fun _ _ _ _ hd => h _ _ _ hd, fun _ _ _ hd => h _ _ _ hd⟩

theorem survives_opened {v : ℕ} {writable : Bool} :
    Survives i (Opened i key ⟨i, .file v, writable⟩) :=
  ⟨fun _ _ _ hfree h => opened_kept h hfree,
    fun _ _ hdirectory h => opened_close h hdirectory fun heq => by cases heq⟩

theorem survives_and {P' : ObjectDirectory → Prop} (h : Survives i P) (h' : Survives i P') :
    Survives i fun d => P d ∧ P' d :=
  ⟨fun d key x hfree hd => ⟨h.1 d key x hfree hd.1, h'.1 d key x hfree hd.2⟩,
    fun d key ho hd => ⟨h.2 d key ho hd.1, h'.2 d key ho hd.2⟩⟩

theorem wp_openDirectory {Q : ℕ × ℕ → ObjectDirectory → Prop} (hP : P d) (hstable : Stable i P)
    (hsurvives : Survives i P)
    (hQ : ∀ key d', P d' → Opened i key ⟨i, .directory, false⟩ d' → Q key d') :
    wp (objectRule jobs i) (openDirectory process i) Q X d := by
  refine wp_openDescriptor hP hstable (fun d₁ target d₂ hs hd₁ hf => ?_) fun _ _ hf => by cases hf
  cases hf
  refine ⟨keeps_refl hs, rfl, ?_⟩
  rintro key d₃ rfl hfree
  exact hQ key _ (hsurvives.1 _ _ _ hfree hd₁) (opened_open ..)

theorem wp_useDescriptor {l : ObjectAccess} {f : ObjectDirectory → Descriptor → α}
    {Q : α → ObjectDirectory → Prop} (hP : P d) (hstable : Stable i P) (hopened : Opened i key x d)
    (hQ : ∀ d', P d' → Opened i key x d' → Careful l d' → Q (f d' x) d') :
    wp (objectRule jobs i) (useDescriptor key l f) Q X d := by
  refine wp_attempt ⟨hP, hopened⟩ (stable_and hstable (stable_opened key x))
    (fun d₁ a d₂ hs hd₁ ha hf => ?_) fun d₁ e hd₁ hf => ?_
  · rw [hd₁.2.1] at hf
    cases hf
    exact ⟨keeps_refl hs, hQ d₁ hd₁.1 hd₁.2 ha⟩
  · rw [hd₁.2.1] at hf
    cases hf

theorem wp_closeDescriptor (hP : P d) (hstable : Stable i P) (hopened : Opened i key x d)
    (hQ : ∀ d', P d' → Opened i key x d' → Q () (d'.close key)) :
    wp (objectRule jobs i) (closeDescriptor key) Q X d := by
  refine wp_attempt ⟨hP, hopened⟩ (stable_and hstable (stable_opened key x))
    (fun d₁ a d₂ hs hd₁ _ hf => ?_) fun d₁ e hd₁ hf => ?_
  · rw [hd₁.2.1] at hf
    cases hf
    refine ⟨keeps_close hs fun y hy => ?_, hQ d₁ hd₁.1 hd₁.2⟩
    cases hy.symm.trans hd₁.2.1
    exact hd₁.2.2
  · rw [hd₁.2.1] at hf
    cases hf

theorem wp_closeAgain (hP : P d) (hstable : Stable i P) (hplain : Plain P)
    (hQ : ∀ d', P d' → Q () d') : wp (objectRule jobs i) (closeAgain key) Q X d := by
  refine wp_set hP hstable fun d₁ hs hd₁ hclosed => ⟨keeps_close hs fun y hy => ?_, ?_⟩
  · cases hy.symm.trans hclosed
  · exact hQ _ (hplain _ _ _ hd₁)

theorem wp_fsyncDirectory (hP : P d) (hstable : Stable i P) (hsurvives : Survives i P)
    (hQ : ∀ d', P d' → Q () d') : wp (objectRule jobs i) (fsyncDirectory process i) Q X d := by
  refine wp_seq (wp_openDirectory hP hstable hsurvives fun key d₁ hd₁ ho₁ => ?_)
  rw [wp_tryFinally]
  refine wp_useDescriptor hd₁ hstable ho₁ fun d₂ hd₂ ho₂ _ => ?_
  exact wp_closeDescriptor hd₂ hstable ho₂ fun d₃ hd₃ ho₃ => hQ _ (hsurvives.2 _ _ ho₃ hd₃)
end

section
variable {X : ObjectFault → ObjectDirectory → Prop} {Q : Unit → ObjectDirectory → Prop}
  {process : ℕ} {key : ℕ × ℕ}

theorem wp_makeTemporary {Q : ℕ × ℕ → ObjectDirectory → Prop} (h : Running i d)
    (hQ : ∀ key d', Prepared i d' → Opened i key ⟨i, .file i, true⟩ d' → Q key d') :
    wp (objectRule jobs i) (makeTemporary process i) Q X d := by
  refine wp_openDescriptor h stable_running (fun d' target d'' hc hrunning hf => ?_)
    fun _ _ hf => by cases hf
  cases hf
  have hother : ∀ v, d'.object = some v → v ≠ i := by
    rintro v hv rfl
    exact hrunning.unpublished hv
  refine ⟨⟨⟨fun v hv => ?_, hc.unopened⟩, fun j hij => ?_⟩, rfl, ?_⟩
  · dsimp only
    rw [Function.update_of_ne (hother v hv)]
    exact hc.complete v hv
  · exact {
      object_kept := fun v hv => ⟨hv, Function.update_of_ne (hother v hv) _ _⟩
      object_new := fun v hv => Or.inl hv
      file_own := Function.update_of_ne (Ne.symm hij) _ _
      killed_own := rfl
      own_kept := fun hj _ => List.mem_cons_of_mem i hj
      own_gone := fun hj hj' => hj ((List.mem_cons.mp hj').resolve_left (Ne.symm hij))
      object_single := fun v hv hnot hmem =>
        hnot ((List.mem_cons.mp hmem).resolve_left (hother v hv))
      descriptors := fun _ _ hx _ => hx }
  · rintro key d₃ rfl _
    exact hQ key _ ⟨⟨hrunning.alive, hrunning.unpublished⟩, List.mem_cons_self⟩ (opened_open ..)

theorem wp_writeTemporary {data : List UInt8} (h : Prepared i d)
    (hopened : Opened i key ⟨i, .file i, true⟩ d)
    (hQ : ∀ d', Prepared i d' → Opened i key ⟨i, .file i, true⟩ d' → (d'.files i).data = data →
      Q () d') : wp (objectRule jobs i) (writeTemporary key data) Q X d := by
  refine wp_attempt ⟨h, hopened⟩ (stable_and stable_prepared (stable_opened key _))
    (fun d' a d'' hc hd' _ hf => ?_) fun d' e hd' hf => ?_
  · obtain ⟨hprepared, hopened'⟩ := hd'
    rw [hopened'.1] at hf
    cases hf
    refine ⟨⟨⟨fun v hv => ?_, hc.unopened⟩, fun j hij => ?_⟩, ?_⟩
    · have hne : v ≠ i := by
        rintro rfl
        exact hprepared.unpublished hv
      dsimp only
      rw [Function.update_of_ne hne]
      exact hc.complete v hv
    · exact {
        outside_refl j d' with
        object_kept := fun v hv => by
          refine ⟨hv, Function.update_of_ne ?_ _ _⟩
          rintro rfl
          exact hprepared.unpublished hv
        file_own := Function.update_of_ne (Ne.symm hij) _ _ }
    · refine hQ _ ⟨⟨hprepared.alive, hprepared.unpublished⟩, hprepared.listed⟩ hopened' ?_
      dsimp only
      rw [Function.update_self]
  · rw [hd'.2.1] at hf
    cases hf

theorem wp_linkObject {data : List UInt8} {Q : Bool → ObjectDirectory → Prop}
    (hjob : jobs i = some (.publish data)) (h : Prepared i d) (hdata : (d.files i).data = data)
    (hwon : ∀ d', Won i d' → Q true d')
    (htaken : ∀ v d', Taken i v d' → Running i d' → Q false d') :
    wp (objectRule jobs i) (linkObject i) Q X d := by
  have hstable : Stable i fun d => Prepared i d ∧ (d.files i).data = data := fun d d' ho hd =>
    ⟨stable_prepared d d' ho hd.1, by rw [ho.file_own]; exact hd.2⟩
  refine wp_attempt ⟨h, hdata⟩ hstable (fun d' b d'' hc hP _ hf => ?_) fun d' e hP hf => ?_
  · obtain ⟨hprepared, hdata'⟩ := hP
    rw [if_pos hprepared.listed] at hf
    split at hf
    next hnone =>
      cases hf
      refine ⟨⟨⟨?_, hc.unopened⟩, fun j hij => ?_⟩,
        hwon _ ⟨hprepared.alive, rfl, hprepared.listed⟩⟩
      · rintro v ⟨⟩
        rw [hdata']
        exact hjob
      · exact {
          outside_refl j d' with
          object_kept := fun v hv => by
            rw [hnone] at hv
            cases hv
          object_new := fun v hv => by
            cases hv
            exact Or.inr hij
          object_single := fun v hv => by
            rw [hnone] at hv
            cases hv }
    next v hv =>
      cases hf
      refine ⟨keeps_refl hc, htaken v _ ⟨hv, ?_⟩ hprepared.toRunning⟩
      rintro rfl
      exact hprepared.unpublished hv
  · rw [if_pos hP.1.listed] at hf
    split at hf <;> cases hf

theorem keeps_unlink {c : ℕ} (hc : Sound jobs d)
    (hclean : c ≠ i → c ∈ d.temporaries → d.killed c = true) :
    Keeps jobs i d {d with temporaries := d.temporaries.filter (· ≠ c)} := by
  refine ⟨⟨hc.complete, hc.unopened⟩, fun j hij => ?_⟩
  exact {
    outside_refl j d with
    own_kept := fun hj halive => by
      refine List.mem_filter.mpr ⟨hj, ?_⟩
      rw [decide_eq_true_eq]
      rintro rfl
      rw [hclean (Ne.symm hij) hj] at halive
      cases halive
    own_gone := fun hj hj' => hj (List.mem_filter.mp hj').1
    object_single := fun v _ hnot hmem => hnot (List.mem_filter.mp hmem).1 }

theorem wp_dropTemporary {Q : Bool → ObjectDirectory → Prop} (h : Won i d)
    (hQ : ∀ d', d'.object = some i → Q true d') :
    wp (objectRule jobs i) (dropTemporary process i) Q X d := by
  have hpublished : Stable i fun d => d.object = some i := fun _ _ h hd => (h.object_kept i hd).1
  unfold dropTemporary unlinkTemporary
  refine wp_seq (wp_attempt h stable_won (fun d' u d'' hc hwon _ hf => ?_) fun d' e hwon hf => ?_)
  · rw [if_pos hwon.listed] at hf
    cases hf
    refine ⟨keeps_unlink hc fun hne => absurd rfl hne, ?_⟩
    refine wp_seq (wp_fsyncDirectory (P := fun d => d.object = some i) hwon.published hpublished
      (survives_plain fun _ _ _ h => h) fun d₁ hd₁ => ?_)
    rw [pure_eq, wp_pure]
    exact hQ _ hd₁
  · rw [if_pos hwon.listed] at hf
    cases hf

theorem wp_finally {P : ObjectDirectory → Prop} (hP : P d) (hstable : Stable i P)
    (hunlink : ∀ d', P d' → P {d' with temporaries := d'.temporaries.filter (· ≠ i)})
    (hQ : ∀ d', P d' → Q () d') : wp (objectRule jobs i) (unlinkTemporary .other i true) Q X d := by
  unfold unlinkTemporary
  refine wp_attempt hP hstable (fun d' u d'' hc hP' _ hf => ?_) fun d' e _ hf => ?_
  · split at hf
    · cases hf
      exact ⟨keeps_unlink hc fun hne => absurd rfl hne, hQ _ (hunlink d' hP')⟩
    · rw [if_pos rfl] at hf
      cases hf
      exact ⟨keeps_refl hc, hQ _ hP'⟩
  · split at hf
    · cases hf
    · rw [if_pos rfl] at hf
      cases hf
end

section
variable {X : ObjectFault → ObjectDirectory → Prop} {v : ℕ}

def Single (i v : ℕ) (d : ObjectDirectory) : Prop := Taken i v d ∧ v ∉ d.temporaries

def Cleaning (i v : ℕ) (candidates : List ℕ) (d : ObjectDirectory) : Prop :=
  Taken i v d ∧ (v ∉ candidates → v ∉ d.temporaries)

theorem stable_single (v : ℕ) : Stable i (Single i v) := fun d d' h hs =>
  ⟨stable_taken v d d' h hs.1, h.object_single v hs.1.1 hs.2⟩

theorem stable_cleaning (v : ℕ) (candidates : List ℕ) : Stable i (Cleaning i v candidates) :=
  fun d d' h hs => ⟨stable_taken v d d' h hs.1, fun hnot => h.object_single v hs.1.1 (hs.2 hnot)⟩

theorem links_single (h : Single i v d) : d.links v = 1 := by
  rw [ObjectDirectory.links, if_neg h.2, if_pos h.1.1]

theorem not_listed_of_links (h : Taken i v d) (hlinks : ¬1 < d.links v) : v ∉ d.temporaries := by
  intro hmem
  rw [ObjectDirectory.links, if_pos hmem, if_pos h.1] at hlinks
  omega

variable {process : ℕ} {key : ℕ × ℕ} {x : Descriptor} {Q : Bool → ObjectDirectory → Prop}

theorem wp_recoverCandidate {c : ℕ} {rest : List ℕ} (h : Cleaning i v (c :: rest) d)
    (hopened : Opened i key x d)
    (hQ : ∀ cleaned d', Cleaning i v rest d' → Opened i key x d' → Q cleaned d') :
    wp (objectRule jobs i) (recoverCandidate v c) Q X d := by
  have hstable : Stable i fun d => Cleaning i v (c :: rest) d ∧ Opened i key x d :=
    stable_and (stable_cleaning v (c :: rest)) (stable_opened key x)
  refine wp_seq (wp_get ⟨h, hopened⟩ hstable fun d' hd' _ => ?_)
  have hother : c ≠ v → Cleaning i v rest d' := fun hne => by
    refine ⟨hd'.1.1, fun hnot => hd'.1.2 fun hmem => ?_⟩
    rcases List.mem_cons.mp hmem with heq | hmem
    · exact hne heq.symm
    · exact hnot hmem
  by_cases hlisted : c ∈ d'.temporaries
  · rw [if_pos hlisted]
    dsimp only
    split
    next heq =>
      subst heq
      unfold unlinkTemporary
      refine wp_seq (wp_attempt hd' hstable (fun d₁ u d₂ hc hd₁ ha hf => ?_) fun d₁ e _ hf => ?_)
      · split at hf
        next hmem =>
          cases hf
          refine ⟨keeps_unlink hc fun _ => ha, ?_⟩
          rw [pure_eq, wp_pure]
          refine hQ true _ ⟨hd₁.1.1, fun _ hmem' => ?_⟩ hd₁.2
          simpa using (List.mem_filter.mp hmem').2
        next hmem =>
          rw [if_pos rfl] at hf
          cases hf
          refine ⟨keeps_refl hc, ?_⟩
          rw [pure_eq, wp_pure]
          exact hQ true _ ⟨hd₁.1.1, fun _ => hmem⟩ hd₁.2
      · split at hf
        · cases hf
        · rw [if_pos rfl] at hf
          cases hf
    next hne =>
      rw [pure_eq, wp_pure]
      exact hQ false _ (hother hne) hd'.2
  · rw [if_neg hlisted, pure_eq, wp_pure]
    refine hQ false _ ?_ hd'.2
    by_cases heq : c = v
    · exact ⟨hd'.1.1, fun _ => heq ▸ hlisted⟩
    · exact hother heq

theorem wp_recoverCandidates (candidates : List ℕ) (h : Cleaning i v candidates d)
    (hopened : Opened i key x d)
    (hQ : ∀ cleaned d', Single i v d' → Opened i key x d' → Q cleaned d') :
    wp (objectRule jobs i) (recoverCandidates v candidates) Q X d := by
  induction candidates generalizing d Q with
  | nil =>
    rw [recoverCandidates, pure_eq, wp_pure]
    exact hQ false d ⟨h.1, h.2 List.not_mem_nil⟩ hopened
  | cons c rest ih =>
    rw [recoverCandidates]
    refine wp_seq (wp_recoverCandidate h hopened fun cleaned d₁ hd₁ ho₁ => wp_seq ?_)
    refine ih hd₁ ho₁ fun others d₂ hd₂ ho₂ => ?_
    rw [pure_eq, wp_pure]
    exact hQ _ d₂ hd₂ ho₂

theorem wp_settledMetadata {literal : Bool} {Q : Option (ℕ × ℕ × ObjectFile) → ObjectDirectory → Prop}
    (h : Taken i v d) (hopened : Opened i key ⟨i, .file v, false⟩ d)
    (hliteral : literal = false → d.links v = 1)
    (hQ : ∀ file d', Taken i v d' → Opened i key ⟨i, .file v, false⟩ d' → Q (some (v,1,file)) d') :
    wp (objectRule jobs i) (settledMetadata process i literal key (some (v, d.links v, d.files v))) Q
      X d := by
  unfold settledMetadata
  dsimp only
  split
  next hmany =>
    have htrue : literal = true := by
      cases literal with
      | true => rfl
      | false =>
        rw [hliteral rfl] at hmany
        omega
    have hsingle : Stable i fun d => Single i v d ∧ Opened i key ⟨i, .file v, false⟩ d :=
      stable_and (stable_single v) (stable_opened key _)
    have hlook : ∀ d', Single i v d' ∧ Opened i key ⟨i, .file v, false⟩ d' →
        wp (objectRule jobs i) (fstat .other key) Q X d' := by
      rintro d' ⟨hd', ho'⟩
      refine wp_useDescriptor hd' (stable_single v) ho' fun d₁ hd₁ ho₁ _ => ?_
      dsimp only
      rw [links_single hd₁]
      exact hQ _ d₁ hd₁.1 ho₁
    refine wp_seq (wp_seq (wp_get ⟨h, hopened⟩ (stable_and (stable_taken v) (stable_opened key _))
      fun d' hd' _ => wp_seq ?_))
    rw [htrue, if_pos rfl]
    refine wp_recoverCandidates _ ⟨hd'.1, fun hnot => hnot⟩ hd'.2 fun cleaned d₁ hd₁ ho₁ => ?_
    cases cleaned with
    | true =>
      exact wp_fsyncDirectory ⟨hd₁, ho₁⟩ hsingle
        (survives_and (survives_plain fun _ _ _ h => h) survives_opened) hlook
    | false =>
      rw [if_neg Bool.false_ne_true, pure_eq, wp_pure]
      exact hlook d₁ ⟨hd₁, ho₁⟩
  next hone =>
    have hlinks := links_single ⟨h, not_listed_of_links h hone⟩
    rw [hlinks, pure_eq, wp_pure]
    exact hQ _ d h hopened

theorem wp_readExisting {literal : Bool} {Q : List UInt8 → ObjectDirectory → Prop}
    (h : Taken i v d) (hopened : Opened i key ⟨i, .file v, false⟩ d)
    (hQ : ∀ d', Taken i v d' → Opened i key ⟨i, .file v, false⟩ d' → Q (d'.files v).data d') :
    wp (objectRule jobs i) (readExisting process i literal key) Q X d := by
  unfold readExisting
  refine wp_seq (wp_useDescriptor h (stable_taken v) hopened fun d₁ hd₁ ho₁ ha => wp_seq ?_)
  refine wp_settledMetadata hd₁ ho₁ (fun hliteral => ha hliteral _ v ho₁.1 rfl)
    fun file d₂ hd₂ ho₂ => ?_
  refine wp_seq (wp_require _ (fun _ => ?_) fun hne => absurd (by simp) hne)
  exact wp_useDescriptor hd₂ (stable_taken v) ho₂ fun d₃ hd₃ ho₃ _ => hQ d₃ hd₃ ho₃

theorem wp_compareExisting {literal : Bool} {data : List UInt8}
    (h : Taken i v d) (hQ : ∀ d', Taken i v d' → (d'.files v).data = data → Q false d')
    (hX : ∀ d', Taken i v d' → (d'.files v).data ≠ data → X .collision d') :
    wp (objectRule jobs i) (compareExisting process i literal data) Q X d := by
  unfold compareExisting
  refine wp_seq (wp_openDescriptor h (stable_taken v) (fun d₁ target d₂ hs hd₁ hf => ?_)
    fun d₁ hd₁ hf => ?_)
  · rw [hd₁.1] at hf
    cases hf
    refine ⟨keeps_refl hs, rfl, ?_⟩
    rintro key d₃ rfl _
    refine wp_seq ?_
    rw [wp_tryFinally]
    have hread : ∀ content, Stable i fun d => Taken i v d ∧ (d.files v).data = content :=
      fun content d d' ho hd => ⟨stable_taken v d d' ho hd.1, by
        rw [(ho.object_kept v hd.1.1).2]
        exact hd.2⟩
    refine wp_readExisting (plain_taken v _ _ _ hd₁) (opened_open ..) fun d₄ hd₄ ho₄ => ?_
    refine wp_closeDescriptor ⟨hd₄, rfl⟩ (hread _) ho₄ fun d₅ hd₅ _ => ?_
    refine wp_seq (wp_require _ (fun heq => ?_) fun hne => hX _ hd₅.1 ?_)
    · rw [pure_eq, wp_pure]
      exact hQ _ hd₅.1 (hd₅.2.trans heq)
    · exact fun heq => hne (hd₅.2.symm.trans heq)
  · rw [hd₁.1] at hf
    cases hf
end

section
variable {literal : Bool}

def Answered (i : ℕ) (data : List UInt8) : Bool → ObjectDirectory → Prop
  | true, d => d.object = some i
  | false, d => ∃ v, Taken i v d ∧ (d.files v).data = data

def Collided (i : ℕ) (data : List UInt8) (e : ObjectFault) (d : ObjectDirectory) : Prop :=
  e = .collision ∧ ∃ v, Taken i v d ∧ (d.files v).data ≠ data

theorem stable_answered (data : List UInt8) (created : Bool) : Stable i (Answered i data created) := by
  intro d d' h hd
  cases created with
  | true => exact (h.object_kept i hd).1
  | false =>
    obtain ⟨v, htaken, hdata⟩ := hd
    exact ⟨v, stable_taken v d d' h htaken, by rw [(h.object_kept v htaken.1).2]; exact hdata⟩

theorem stable_collided (data : List UInt8) (e : ObjectFault) : Stable i (Collided i data e) := by
  rintro d d' h ⟨he, v, htaken, hdata⟩
  exact ⟨he, v, stable_taken v d d' h htaken, by rw [(h.object_kept v htaken.1).2]; exact hdata⟩

theorem plain_answered (data : List UInt8) (created : Bool) : Plain (Answered i data created) := by
  intro _ _ _ h
  cases created <;> exact h

variable {process : ℕ} {key : ℕ × ℕ}

theorem wp_fillTemporary {data : List UInt8} {Q : Unit → ObjectDirectory → Prop}
    {X : ObjectFault → ObjectDirectory → Prop} (h : Prepared i d)
    (hopened : Opened i key ⟨i, .file i, true⟩ d)
    (hQ : ∀ d', Prepared i d' → (d'.files i).data = data → Q () d') :
    wp (objectRule jobs i) (fillTemporary key data) Q X d := by
  unfold fillTemporary writeAll
  refine wp_seq (wp_useDescriptor h stable_prepared hopened fun d₁ hd₁ ho₁ _ => ?_)
  rw [wp_tryFinally]
  refine wp_seq ?_
  rw [wp_any]
  intro written
  refine wp_seq (wp_writeTemporary hd₁ ho₁ fun d₂ hd₂ ho₂ _ => ?_)
  refine wp_seq (wp_writeTemporary hd₂ ho₂ fun d₃ hd₃ ho₃ hdata => ?_)
  have hwritten : Stable i fun d => Prepared i d ∧ (d.files i).data = data := fun d d' ho hd =>
    ⟨stable_prepared d d' ho hd.1, by rw [ho.file_own]; exact hd.2⟩
  refine wp_useDescriptor ⟨hd₃, hdata⟩ hwritten ho₃ fun d₄ hd₄ ho₄ _ => ?_
  exact wp_closeDescriptor hd₄ hwritten ho₄ fun d₅ hd₅ _ => hQ _ (plain_prepared _ _ _ hd₅.1) hd₅.2

theorem wp_publishBody {data : List UInt8} (hjob : jobs i = some (.publish data))
    (h : Prepared i d) (hopened : Opened i key ⟨i, .file i, true⟩ d) :
    wp (objectRule jobs i) (publishBody process i literal key data) (Answered i data)
      (Collided i data) d := by
  unfold publishBody
  refine wp_seq (wp_fillTemporary h hopened fun d₁ hd₁ hdata => wp_seq ?_)
  refine wp_linkObject hjob hd₁ hdata (fun d₂ hwon => ?_) fun v d₂ htaken _ => ?_
  · rw [if_pos rfl]
    exact wp_dropTemporary hwon fun d₃ hd₃ => hd₃
  · rw [if_neg Bool.false_ne_true]
    exact wp_compareExisting htaken (fun d₃ hd₃ heq => ⟨v, hd₃, heq⟩)
      fun d₃ hd₃ hne => ⟨rfl, v, hd₃, hne⟩

theorem wp_publishImmutable {data : List UInt8} (hjob : jobs i = some (.publish data))
    (h : Running i d) :
    wp (objectRule jobs i) (publishImmutable process i literal data) (Promise jobs i)
      (Complaint jobs i) d := by
  unfold publishImmutable
  refine wp_seq (wp_makeTemporary h fun key d₁ hd₁ ho₁ => wp_seq ?_)
  rw [wp_tryFinally]
  refine wp_mono _ (wp_publishBody hjob hd₁ ho₁) (fun created d₂ hd₂ => ?_) fun e d₂ hd₂ => ?_
  · refine wp_seq (wp_closeAgain hd₂ (stable_answered data created) (plain_answered data created)
      fun d₃ hd₃ => ?_)
    refine wp_finally hd₃ (stable_answered data created) ?_ fun d₄ hd₄ => ?_
    · intro d₄ hd₄
      cases created <;> exact hd₄
    · rw [pure_eq, wp_pure]
      simp only [Promise, hjob]
      cases created <;> exact hd₄
  · refine wp_seq (wp_closeAgain hd₂ (stable_collided data e) (fun _ _ _ h => h) fun d₃ hd₃ => ?_)
    refine wp_finally hd₃ (stable_collided data e) (fun d₄ hd₄ => hd₄) fun d₄ hd₄ => ?_
    obtain ⟨rfl, hcollided⟩ := hd₄
    simp only [Complaint, hjob]
    exact hcollided

section
variable {v : ℕ} {file : ObjectFile} {root : ℕ × ℕ}

/-- What the reader knows of the published file: it keeps its descriptors. -/
def Reading (i v : ℕ) (file : ObjectFile) (root key : ℕ × ℕ) (d : ObjectDirectory) : Prop :=
  Holds v file d ∧ Opened i root ⟨i, .directory, false⟩ d ∧ Opened i key ⟨i, .file v, false⟩ d

theorem stable_reading : Stable i (Reading i v file root key) :=
  stable_and (stable_holds v file) (stable_and (stable_opened root _) (stable_opened key _))

theorem wp_readOpened {maxBytes : ℕ} {Q : List UInt8 → ObjectDirectory → Prop}
    {X : ObjectFault → ObjectDirectory → Prop} (h : Reading i v file root key d)
    (hQ : ∀ d', Reading i v file root key d' → Q file.data d')
    (hX : ∀ d', Reading i v file root key d' → maxBytes < file.data.length → X .tooLarge d') :
    wp (objectRule jobs i) (readOpened key maxBytes) Q X d := by
  unfold readOpened
  refine wp_seq (wp_useDescriptor h stable_reading h.2.2 fun d₁ hd₁ ho₁ ha => wp_seq ?_)
  have hsingle : d₁.links v = 1 := ha _ v ho₁.1 rfl
  dsimp only
  rw [ofOption, wp_pure, hsingle, hd₁.1.2]
  refine wp_seq (wp_require _ (fun _ => ?_) fun hne => absurd rfl hne)
  refine wp_seq (wp_require _ (fun hlength => ?_) fun hnot => hX d₁ hd₁ (Nat.lt_of_not_le hnot))
  refine wp_seq (wp_useDescriptor hd₁ stable_reading ho₁ fun d₂ hd₂ ho₂ _ => ?_)
  dsimp only
  rw [hd₂.1.2]
  refine wp_seq (wp_require _ (fun _ => ?_) fun hnot => absurd hlength hnot)
  refine wp_seq (wp_useDescriptor hd₂ stable_reading ho₂ fun d₃ hd₃ ho₃ _ => wp_seq ?_)
  dsimp only
  rw [ofOption, wp_pure, hd₃.1.2]
  refine wp_seq (wp_require _ (fun _ => ?_) fun hne => absurd ⟨rfl, rfl⟩ hne)
  rw [pure_eq, wp_pure]
  exact hQ d₃ hd₃

theorem wp_closeBoth {Q : Unit → ObjectDirectory → Prop} {X : ObjectFault → ObjectDirectory → Prop}
    (h : Reading i v file root key d) (hQ : ∀ d', Holds v file d' → Q () d') :
    wp (objectRule jobs i) (do
      closeDescriptor key
      closeDescriptor root) Q X d := by
  refine wp_seq (wp_closeDescriptor h stable_reading h.2.2 fun d₁ hd₁ ho₁ => ?_)
  have hroot := opened_close hd₁.2.1 ho₁ fun heq => by cases heq
  exact wp_closeDescriptor (plain_holds v file _ _ _ hd₁.1) (stable_holds v file) hroot
    fun d₂ hd₂ _ => hQ _ (plain_holds v file _ _ _ hd₂)
end

theorem wp_readRegularFile {maxBytes : ℕ} (hjob : jobs i = some (.read maxBytes)) :
    wp (objectRule jobs i) (readRegularFile process i maxBytes) (Promise jobs i)
      (Complaint jobs i) d := by
  have htrue : Stable i fun _ => True := fun _ _ _ _ => trivial
  unfold readRegularFile
  refine wp_seq (wp_openDirectory (P := fun _ => True) trivial htrue (survives_plain fun _ _ _ h => h)
    fun root d₁ _ hroot => wp_seq ?_)
  rw [wp_toExcept]
  refine wp_openDescriptor (P := Opened i root ⟨i, .directory, false⟩) hroot (stable_opened root _)
    (fun d₂ target d₃ hs hd₂ hf => ?_) fun d₂ hd₂ _ => ?_
  · rw [hd₂.1] at hf
    obtain ⟨v, hv, heq⟩ := Option.map_eq_some_iff.mp hf
    cases heq
    refine ⟨keeps_refl hs, rfl, ?_⟩
    rintro key d₄ rfl hfree
    have hreading : Reading i v (d₂.files v) root key
        (d₂.open key ⟨i, .file v, false⟩) :=
      ⟨⟨hv, rfl⟩, opened_kept hd₂ hfree, opened_open ..⟩
    dsimp only
    refine wp_seq ?_
    rw [wp_tryFinally]
    refine wp_readOpened hreading (fun d₅ hd₅ => ?_) fun d₅ hd₅ hlength => ?_
    · refine wp_closeBoth hd₅ fun d₆ hd₆ => ?_
      rw [pure_eq, wp_pure]
      simp only [Promise, hjob]
      exact ⟨v, hd₆.1, by rw [hd₆.2]⟩
    · refine wp_closeBoth hd₅ fun d₆ hd₆ => ?_
      simp only [Complaint, hjob]
      exact ⟨v, hd₆.1, by rw [hd₆.2]; exact hlength⟩
  · dsimp only
    refine wp_seq (wp_closeDescriptor trivial htrue hd₂ fun d₃ _ _ => ?_)
    rw [throw_eq, wp_fail]
    simp only [Complaint, hjob]

theorem promised_start (literal : Bool) (process : ℕ → ℕ) (jobs : ℕ → Option ObjectJob) :
    Pool.Promised (objectRule jobs) (Sound jobs) (Promise jobs) (Complaint jobs)
      (objectPool literal process jobs) := by
  refine ⟨⟨fun v hv => (by cases hv), fun _ _ => rfl⟩, fun i p hp => ?_⟩
  obtain ⟨job, hjob, rfl⟩ := Option.map_eq_some_iff.mp hp
  cases job with
  | publish data => exact wp_publishImmutable hjob ⟨rfl, fun h => by cases h⟩
  | read maxBytes => exact wp_readRegularFile hjob

/-- In every run whose accesses stay clear of the defects: a path that exists holds the complete
bytes of one publisher and keeps them; a publisher returns true exactly if the path names its file,
returns false only with the published bytes and raises only a collision with others; a reader finds
no file or the complete bytes. -/
theorem publication_kept {literal : Bool} {process : ℕ → ℕ} {jobs : ℕ → Option ObjectJob}
    {c c' : Pool ℕ ObjectDirectory ObjectAccess ObjectFault ObjectResult}
    (h : Pool.Reachable (fun _ => Careful) loseCall (objectPool literal process jobs) c)
    (h' : Pool.Reachable (fun _ => Careful) loseCall c c') :
    (∀ v, c.world.object = some v → jobs v = some (.publish (c.world.files v).data) ∧
      c'.world.object = some v ∧ c'.world.files v = c.world.files v) ∧
    (∀ i r, c.thread i = some (.pure r) → Promise jobs i r c.world) ∧
    ∀ i e, c.thread i = some (.fail e) → Complaint jobs i e c.world := by
  have hS := objectRule_compatible jobs
  have hpromised : Pool.Promised (objectRule jobs) (Sound jobs) (Promise jobs) (Complaint jobs) c :=
    Pool.reachable_promised hS (steady_promises jobs) (promised_start literal process jobs) h
  refine ⟨fun v hv => ⟨hpromised.1.complete v hv, ?_⟩, fun i r hr => ?_, fun i e he => ?_⟩
  · have hkept := Pool.reachable_world (T := fun d d' => ∀ v, d.object = some v →
      d'.object = some v ∧ d'.files v = d.files v) hS
      ⟨hpromised.1, fun i p hp => wp_mono _ (hpromised.2 i p hp) (fun _ _ _ => trivial)
        fun _ _ _ => trivial⟩
      (fun d v hv => ⟨hv, rfl⟩) ?_ ?_ (fun i d _ v hv => ⟨hv, rfl⟩) h'
    · exact hkept v hv
    · intro x y z hxy hyz v hv
      obtain ⟨hv', hfile⟩ := hxy v hv
      obtain ⟨hv'', hfile'⟩ := hyz v hv'
      exact ⟨hv'', hfile'.trans hfile⟩
    · intro i l d d' _ hg
      exact (hg (i + 1) (by omega)).object_kept
  · have hend := hpromised.2 i _ hr
    rw [wp_pure] at hend
    exact hend
  · have hend := hpromised.2 i _ he
    rw [wp_fail] at hend
    exact hend

def rivalJobs : ℕ → Option ObjectJob
  | 0 => some (.publish [1])
  | 1 => some (.publish [1])
  | 2 => some (.read 10)
  | _ => none

def alone (d : ObjectDirectory) (key : ℕ × ℕ) : Bool :=
  match d.descriptors key with
  | some ⟨_, .file v, _⟩ => d.links v == 1
  | _ => true

def inOrder (_ : ℕ) : ObjectAccess → ObjectDirectory → Bool
  | .compare literal key, d => literal || alone d key
  | .clean candidate, d => d.killed candidate
  | .inspect key, d => alone d key
  | .reclose key, d => (d.descriptors key).isNone
  | .other, _ => true

theorem alone_of_test {key : ℕ × ℕ} (h : alone d key = true) : d.Alone key := by
  rintro ⟨call, target, writable⟩ v hx rfl
  rw [alone, hx] at h
  exact beq_iff_eq.mp h

theorem inOrder_careful (i : ℕ) (l : ObjectAccess) (d : ObjectDirectory)
    (h : inOrder i l d = true) : Careful l d := by
  cases l with
  | compare literal key =>
    rintro rfl
    exact alone_of_test h
  | clean candidate => exact fun _ => h
  | inspect key => exact alone_of_test h
  | reclose key => exact Option.isNone_iff_eq_none.mp h
  | other => trivial

abbrev CallPool := Pool ℕ ObjectDirectory ObjectAccess ObjectFault ObjectResult

def queuedPool : CallPool := objectPool true (fun _ => 0) rivalJobs
def inputs : List ℕ := List.replicate 30 0

/-- The first publisher is lost between its link and the unlinking of its temporary. -/
def lostPool : CallPool :=
  let c := queuedPool.advance inOrder 0 9 inputs
  ⟨Function.update c.thread 0 none, loseCall 0 c.world⟩

def servedPool : CallPool := (lostPool.advance inOrder 1 60 inputs).advance inOrder 2 60 inputs

/-- A publisher is lost with two links; another publisher and a reader follow. -/
theorem served_pool_kept :
    lostPool.world.object = some 0 ∧ lostPool.world.links 0 = 2 ∧
    servedPool.world.object = some 0 ∧
    (servedPool.thread 1).bind Prog.value? = some (.created false) ∧
    (servedPool.thread 2).bind Prog.value? = some (.read [1]) := by
  have hadvance : ∀ (c : CallPool) i n ins,
      Pool.Reachable (fun _ => Careful) loseCall c (c.advance inOrder i n ins) :=
    fun c i n ins => Pool.advance_reachable inOrder_careful c i n ins
  have hlost : Pool.Reachable (fun _ => Careful) loseCall queuedPool lostPool :=
    (hadvance queuedPool 0 9 inputs).tail (.crash 0)
  have hkept := publication_kept hlost ((hadvance _ 1 60 inputs).trans (hadvance _ 2 60 inputs))
  have hpublished : lostPool.world.object = some 0 := by decide +kernel
  exact ⟨hpublished, by decide +kernel, (hkept.1 0 hpublished).2.1, by decide +kernel,
    by decide +kernel⟩

def anyAccess (_ : ℕ) (_ : ObjectAccess) (_ : ObjectDirectory) : Bool := true

theorem advance_any (c : CallPool) (i n : ℕ) (ins : List ℕ) :
    Pool.Reachable (fun _ _ _ => True) loseCall c (c.advance anyAccess i n ins) :=
  Pool.advance_reachable (fun _ _ _ _ => trivial) c i n ins

def cleanedPool : CallPool :=
  ((queuedPool.advance anyAccess 0 9 inputs).advance anyAccess 2 60 inputs).advance anyAccess 1 60
    inputs

def overtakenPool : CallPool := cleanedPool.advance anyAccess 0 60 inputs

/-- A rival unlinks the winner's temporary before the winner does, and a reader refuses the published
file while it has two links. -/
theorem overtaken_winner_raises :
    Pool.Reachable (fun _ _ _ => True) loseCall queuedPool overtakenPool ∧
    overtakenPool.world.object = some 0 ∧
    (overtakenPool.thread 0).bind Prog.error? = some .fileNotFound ∧
    (overtakenPool.thread 2).bind Prog.error? = some .hardLinked := by
  exact ⟨(((advance_any _ 0 9 _).trans (advance_any _ 2 60 _)).trans (advance_any _ 1 60 _)).trans
    (advance_any _ 0 60 _), by decide +kernel, by decide +kernel, by decide +kernel⟩

def reclosedPool : CallPool :=
  (((queuedPool.advance anyAccess 0 9 inputs).advance anyAccess 1 2 inputs).advance anyAccess 0 60
    inputs).advance anyAccess 1 60 inputs

/-- The second close of a publisher takes the descriptor of another thread. -/
theorem reclosed_rival_raises :
    Pool.Reachable (fun _ _ _ => True) loseCall queuedPool reclosedPool ∧
    (reclosedPool.thread 0).bind Prog.value? = some (.created true) ∧
    (reclosedPool.thread 1).bind Prog.error? = some .badDescriptor := by
  exact ⟨(((advance_any _ 0 9 _).trans (advance_any _ 1 2 _)).trans (advance_any _ 0 60 _)).trans
    (advance_any _ 1 60 _), by decide +kernel, by decide +kernel⟩
end

end RaytSystem.Storage
