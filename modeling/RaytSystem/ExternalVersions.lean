import Mathlib.Order.Nat
import RaytSystem.AtomicReplace

/-! No external version of a document is unlinked by `_atomic_replace`, in every run in which
no foreign version is at the document's name when names are exchanged back. -/
namespace RaytSystem.Documents
open Interleaving
attribute [local irreducible] wp

variable (env : ReplaceEnv) (d : ParentDirectory)

def Disposable (v : Nat) : Prop :=
  v ∉ d.placed ∨ env.sha256Hex (d.files v).content = env.expectedSha256 ∨ v ∈ d.replaced

def VersionsKept : Prop :=
  ∀ v ∈ d.placed, d.Linked v ∨ Disposable env d v

structure Sound (env : ReplaceEnv) (d : ParentDirectory) : Prop where
  kept : VersionsKept env d
  placed_lt : ∀ v ∈ d.placed, v < d.next
  linked_lt : ∀ v, d.Linked v → v < d.next

structure Outside (d d' : ParentDirectory) : Prop where
  temporary : d'.temporary = d.temporary
  next : d.next ≤ d'.next
  files : ∀ v < d.next, d'.files v = d.files v
  placed : ∀ v < d.next, v ∈ d'.placed → v ∈ d.placed
  replaced : ∀ v ∈ d.replaced, v ∈ d'.replaced

theorem outside_refl : Outside d d :=
  ⟨rfl, le_refl _, fun _ _ => rfl, fun _ _ h => h, fun _ h => h⟩

theorem outside_trans {a b c : ParentDirectory} (hab : Outside a b) (hbc : Outside b c) :
    Outside a c where
  temporary := hbc.temporary.trans hab.temporary
  next := hab.next.trans hbc.next
  files v hv := (hbc.files v (hv.trans_le hab.next)).trans (hab.files v hv)
  placed v hv h := hab.placed v hv (hbc.placed v (hv.trans_le hab.next) h)
  replaced v h := hbc.replaced v (hab.replaced v h)

def BackOverOwn (l : ReplaceAccess) (d : ParentDirectory) : Prop :=
  l = .exchangeBack → ∀ v, d.document = some v → Disposable env d v

def replaceRule (i : Nat) : Discipline ParentDirectory ReplaceAccess where
  inv := Sound env
  rely := if i = 0 then Outside else fun _ _ => True
  assume := if i = 0 then BackOverOwn env else fun _ _ => True
  guar _ d d' := if i = 0 then True else Outside d d'

section
variable {env : ReplaceEnv} {d : ParentDirectory}

theorem outside_place (file : DocumentFile) (d : ParentDirectory) : Outside d (d.place file) where
  temporary := rfl
  next := Nat.le_succ _
  files v hv := Function.update_of_ne (by omega) _ _
  placed v hv h := by
    rcases List.mem_cons.mp h with rfl | h
    · exact absurd hv (lt_irrefl _)
    · exact h
  replaced v h := List.mem_append_right _ h

theorem disposable_outside {d' : ParentDirectory} (h : Outside d d') {v : Nat} (hv : v < d.next)
    (hdisposable : Disposable env d v) : Disposable env d' v := by
  rcases hdisposable with hplaced | hsha | hreplaced
  · exact Or.inl fun hp => hplaced (h.placed v hv hp)
  · exact Or.inr (Or.inl (by rw [h.files v hv]; exact hsha))
  · exact Or.inr (Or.inr (h.replaced v hreplaced))

theorem sound_place (h : Sound env d) (file : DocumentFile) : Sound env (d.place file) where
  kept v hv := by
    rcases List.mem_cons.mp hv with rfl | hv
    · exact Or.inl (Or.inl rfl)
    have hlt := h.placed_lt v hv
    rcases h.kept v hv with (hdocument | htemporary) | hdisposable
    · refine Or.inr (Or.inr (Or.inr ?_))
      simp [ParentDirectory.place, hdocument]
    · exact Or.inl (Or.inr htemporary)
    · exact Or.inr (disposable_outside (outside_place file d) hlt hdisposable)
  placed_lt v hv := by
    rcases List.mem_cons.mp hv with rfl | hv
    · exact Nat.lt_succ_self _
    · exact Nat.lt_succ_of_lt (h.placed_lt v hv)
  linked_lt v hv := by
    rcases hv with hv | hv
    · obtain rfl := Option.some.inj hv
      exact Nat.lt_succ_self _
    · exact Nat.lt_succ_of_lt (h.linked_lt v (Or.inr hv))
end

section
variable {env : ReplaceEnv} {α : Type}

def Stable (P : ParentDirectory → Prop) : Prop := ∀ d d', P d → Outside d d' → P d'

def TemporaryGoes (env : ReplaceEnv) (d : ParentDirectory) : Prop :=
  ∀ t, d.temporary = some t → t < d.next ∧ Disposable env d t

def Own (v : Nat) (d : ParentDirectory) : Prop :=
  d.temporary = some v ∧ v < d.next ∧ v ∉ d.placed

def Displaced (v : Nat) (d : ParentDirectory) : Prop := d.temporary = some v ∧ v < d.next

def DisplacedContent (v : Nat) (content : List UInt8) (d : ParentDirectory) : Prop :=
  Displaced v d ∧ (d.files v).content = content

theorem stable_temporaryGoes : Stable (TemporaryGoes env) := by
  intro d d' h hout t ht
  rw [hout.temporary] at ht
  obtain ⟨hlt, hdisposable⟩ := h t ht
  exact ⟨hlt.trans_le hout.next, disposable_outside hout hlt hdisposable⟩

theorem stable_own (v : Nat) : Stable (Own v) := by
  rintro d d' ⟨htemporary, hlt, hplaced⟩ hout
  exact ⟨hout.temporary.trans htemporary, hlt.trans_le hout.next,
    fun hp => hplaced (hout.placed v hlt hp)⟩

theorem stable_displaced (v : Nat) : Stable (Displaced v) := by
  rintro d d' ⟨htemporary, hlt⟩ hout
  exact ⟨hout.temporary.trans htemporary, hlt.trans_le hout.next⟩

theorem stable_true : Stable fun _ => True := fun _ _ _ _ => trivial

variable {v : Nat} {d : ParentDirectory}

theorem goes_of_own (h : Own v d) : TemporaryGoes env d := by
  intro t ht
  obtain rfl := Option.some.inj (ht.symm.trans h.1)
  exact ⟨h.2.1, Or.inl h.2.2⟩

theorem goes_of_expected {content : List UInt8} (h : DisplacedContent v content d)
    (hsha : env.sha256Hex content = env.expectedSha256) : TemporaryGoes env d := by
  intro t ht
  obtain rfl := Option.some.inj (ht.symm.trans h.1.1)
  refine ⟨h.1.2, Or.inr (Or.inl ?_)⟩
  rw [h.2]
  exact hsha

variable {l : ReplaceAccess} {f : ParentDirectory → Except ReplaceFault (α × ParentDirectory)}
variable {P : ParentDirectory → Prop} {X : ReplaceFault → ParentDirectory → Prop}

theorem wp_attempt {Q : α → ParentDirectory → Prop} (hP : P d) (hstable : Stable P)
    (hX : ∀ e d', P d' → X e d')
    (h : ∀ d' a d'', Sound env d' → P d' → BackOverOwn env l d' → f d' = .ok (a,d'') →
      Sound env d'' ∧ Q a d'') : wp (replaceRule env 0) (.attempt l f) Q X d := by
  unfold wp
  intro d' hsound hout hassume
  have hP' : P d' := hstable d d' hP hout
  unfold Prog.attemptStep
  split
  next a d'' hf =>
    obtain ⟨hsound', hQ⟩ := h d' a d'' hsound hP' hassume hf
    refine ⟨hsound', trivial, ?_⟩
    rw [Prog.ofExcept, wp_pure]
    exact hQ
  next e hf =>
    refine ⟨hsound, trivial, ?_⟩
    rw [Prog.ofExcept, wp_fail]
    exact hX e d' hP'

theorem wp_systemCall {Q : α → ParentDirectory → Prop} (hP : P d) (hstable : Stable P)
    (hX : ∀ e d', P d' → X e d')
    (h : ∀ d' a d'', Sound env d' → P d' → BackOverOwn env l d' → f d' = .ok (a,d'') →
      Sound env d'' ∧ Q a d'') : wp (replaceRule env 0) (systemCall l f) Q X d := by
  unfold systemCall
  rw [wp_seq, wp_any]
  intro succeeds
  rw [wp_seq]
  exact wp_require _ (fun _ => wp_attempt hP hstable hX h) fun _ => hX _ d hP

theorem wp_reading {Q : α → ParentDirectory → Prop} (hP : P d) (hstable : Stable P)
    (hX : ∀ e d', P d' → X e d') (hreads : ∀ d' a d'', f d' = .ok (a,d'') → d'' = d')
    (h : ∀ d' a, Sound env d' → P d' → f d' = .ok (a,d') → Q a d') :
    wp (replaceRule env 0) (systemCall .other f) Q X d := by
  apply wp_systemCall hP hstable hX
  intro d' a d'' hsound hP' _ hf
  obtain rfl := hreads d' a d'' hf
  exact ⟨hsound, h d'' a hsound hP' hf⟩

theorem wp_readDescriptor {unsafeFile beyond : ReplaceFault}
    {Q : List UInt8 → ParentDirectory → Prop} (hP : P d) (hstable : Stable P)
    (hX : ∀ e d', P d' → X e d') (h : ∀ d', P d' → Q (d'.files v).content d') :
    wp (replaceRule env 0) (readDescriptor env v unsafeFile beyond) Q X d := by
  have hok : ∀ (d' : ParentDirectory) (content : List UInt8) (d'' : ParentDirectory),
      (if (d'.files v).kind ≠ .regular then Except.error unsafeFile
        else if (d'.files v).content.length > env.maxFileBytes then .error beyond
        else .ok ((d'.files v).content, d')) = .ok (content,d'') →
      d'' = d' ∧ content = (d'.files v).content := by
    intro d' content d'' hf
    split at hf
    · cases hf
    · split at hf
      · cases hf
      · cases hf
        exact ⟨rfl, rfl⟩
  apply wp_reading hP hstable hX
  · exact fun d' content d'' hf => (hok d' content d'' hf).1
  · intro d' content _ hP' hf
    rw [(hok d' content d' hf).2]
    exact h d' hP'

variable {Q : Unit → ParentDirectory → Prop}

theorem wp_fsync (hP : P d) (hstable : Stable P) (hX : ∀ e d', P d' → X e d')
    (h : ∀ d', P d' → Q () d') : wp (replaceRule env 0) fsync Q X d := by
  apply wp_reading hP hstable hX
  · intro d' _ d'' hf
    cases hf
    rfl
  · exact fun d' _ _ hP' _ => h d' hP'

theorem wp_openDocument {Q : Nat → ParentDirectory → Prop} (hP : P d) (hstable : Stable P)
    (hX : ∀ e d', P d' → X e d') (h : ∀ v d', P d' → Q v d') :
    wp (replaceRule env 0) openDocument Q X d := by
  apply wp_attempt hP hstable hX
  intro d' v d'' hsound hP' _ hf
  split at hf
  · cases hf
  · split at hf
    · cases hf
    · cases hf
      exact ⟨hsound, h _ _ hP'⟩

theorem wp_statDocument {Q : Nat → ParentDirectory → Prop} (hP : P d) (hstable : Stable P)
    (hX : ∀ e d', P d' → X e d') (h : ∀ v d', P d' → Q v d') :
    wp (replaceRule env 0) statDocument Q X d := by
  apply wp_systemCall hP hstable hX
  intro d' v d'' hsound hP' _ hf
  split at hf
  · cases hf
  · cases hf
    exact ⟨hsound, h _ _ hP'⟩

theorem wp_createTemporary {Q : Nat → ParentDirectory → Prop} (hd : TemporaryGoes env d)
    (hX : ∀ e d', TemporaryGoes env d' → X e d') (h : ∀ v d', Own v d' → Q v d') :
    wp (replaceRule env 0) createTemporary Q X d := by
  apply wp_systemCall hd stable_temporaryGoes hX
  intro d' v d'' hsound _ _ hf
  split at hf
  · cases hf
  next hnone =>
    cases hf
    have hfresh : d'.next ∉ d'.placed := fun hp => lt_irrefl _ (hsound.placed_lt _ hp)
    have hfiles : ∀ v < d'.next,
        Function.update d'.files d'.next ⟨.regular, []⟩ v = d'.files v :=
      fun v hv => Function.update_of_ne (by omega) _ _
    refine ⟨⟨?_, ?_, ?_⟩, h _ _ ⟨rfl, Nat.lt_succ_self _, hfresh⟩⟩
    · intro v hv
      rcases hsound.kept v hv with (hdocument | htemporary) | hdisposable
      · exact Or.inl (Or.inl hdocument)
      · rw [hnone] at htemporary
        cases htemporary
      · rcases hdisposable with hplaced | hsha | hreplaced
        · exact absurd hv hplaced
        · refine Or.inr (Or.inr (Or.inl ?_))
          dsimp only
          rw [hfiles v (hsound.placed_lt v hv)]
          exact hsha
        · exact Or.inr (Or.inr (Or.inr hreplaced))
    · exact fun v hv => Nat.lt_succ_of_lt (hsound.placed_lt v hv)
    · rintro v (hv | hv)
      · exact Nat.lt_succ_of_lt (hsound.linked_lt v (Or.inl hv))
      · obtain rfl := Option.some.inj hv
        exact Nat.lt_succ_self _

theorem wp_writeAll {data : List UInt8} (hd : Own v d) (hX : ∀ e d', Own v d' → X e d')
    (h : ∀ d', Own v d' → Q () d') : wp (replaceRule env 0) (writeAll v data) Q X d := by
  apply wp_systemCall hd (stable_own v) hX
  intro d' _ d'' hsound hown _ hf
  cases hf
  refine ⟨⟨?_, hsound.placed_lt, hsound.linked_lt⟩, h _ hown⟩
  intro u hu
  have hne : u ≠ v := by
    rintro rfl
    exact hown.2.2 hu
  have hfile : Function.update d'.files v ⟨.regular, data⟩ u = d'.files u :=
    Function.update_of_ne hne _ _
  rcases hsound.kept u hu with hlinked | hplaced | hsha | hreplaced
  · exact Or.inl hlinked
  · exact absurd hu hplaced
  · refine Or.inr (Or.inr (Or.inl ?_))
    dsimp only
    rw [hfile]
    exact hsha
  · exact Or.inr (Or.inr (Or.inr hreplaced))

theorem wp_exchangeNames (hP : P d) (hstable : Stable P) (hX : ∀ e d', P d' → X e d')
    (h : ∀ d', (l = .exchangeBack → TemporaryGoes env d') → Q () d') :
    wp (replaceRule env 0) (exchangeNames l) Q X d := by
  apply wp_systemCall hP hstable hX
  intro d' _ d'' hsound _ hassume hf
  split at hf
  next v t hdocument htemporary =>
    cases hf
    have hv : v < d'.next := hsound.linked_lt v (Or.inl hdocument)
    have ht : t < d'.next := hsound.linked_lt t (Or.inr htemporary)
    refine ⟨⟨?_, hsound.placed_lt, ?_⟩, h _ fun hl u hu => ?_⟩
    · intro u hu
      rcases hsound.kept u hu with (hu' | hu') | hdisposable
      · exact Or.inl (Or.inr (hdocument.symm.trans hu'))
      · exact Or.inl (Or.inl (htemporary.symm.trans hu'))
      · exact Or.inr hdisposable
    · rintro u (hu | hu)
      · obtain rfl := Option.some.inj hu
        exact ht
      · obtain rfl := Option.some.inj hu
        exact hv
    · obtain rfl := Option.some.inj hu
      exact ⟨hv, hassume hl _ hdocument⟩
  next => cases hf

theorem wp_unlinkTemporary (hd : TemporaryGoes env d) (hX : ∀ e d', TemporaryGoes env d' → X e d')
    (h : ∀ d', TemporaryGoes env d' → Q () d') : wp (replaceRule env 0) unlinkTemporary Q X d := by
  apply wp_systemCall hd stable_temporaryGoes hX
  intro d' _ d'' hsound hgoes _ hf
  split at hf
  · cases hf
  next t htemporary =>
    cases hf
    have hgone : TemporaryGoes env {d' with temporary := none} := fun _ hu => by cases hu
    refine ⟨⟨?_, hsound.placed_lt, ?_⟩, h _ hgone⟩
    · intro u hu
      rcases hsound.kept u hu with (hu' | hu') | hdisposable
      · exact Or.inl (Or.inl hu')
      · exact Or.inr (hgoes u hu').2
      · exact Or.inr hdisposable
    · rintro u (hu | hu)
      · exact hsound.linked_lt u (Or.inl hu)
      · cases hu
end

end RaytSystem.Documents
