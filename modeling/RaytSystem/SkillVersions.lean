import RaytSystem.SkillSaves

/-! No external version of `SKILL.md` is lost, in every run of a save and of its recoveries. -/
namespace RaytSystem.SkillAuthoring
open Interleaving Option
attribute [local irreducible] wp

section
variable {env : SaveEnv} {d d' : SkillDirectory} {n : EntryName} {v : ℕ}

theorem put_self {v : Option ℕ} : (d.put n v).entries n = v := Function.update_self _ _ d.entries

theorem put_other {v : Option ℕ} {m : EntryName} (h : m ≠ n) : (d.put n v).entries m = d.entries m :=
  Function.update_of_ne h _ _

/-- The file may go: no external process put it in place, the caller expected its content, or a later
external rename took its place. -/
def Disposable (env : SaveEnv) (d : SkillDirectory) (v : ℕ) : Prop :=
  v ∉ d.placed ∨ env.sha256Hex (d.files v).content = env.expectedSha256 ∨ v ∈ d.replaced

structure Sound (env : SaveEnv) (d : SkillDirectory) : Prop where
  kept : ∀ v ∈ d.placed, (∃ n, d.entries n = some v) ∨ Disposable env d v
  placed_lt : ∀ v ∈ d.placed, v < d.next
  linked_lt : ∀ n v, d.entries n = some v → v < d.next
  own : ∀ v, d.entries .proposed = some v → v ∉ d.placed
  installed : ∀ v, d.installed = some v → v < d.next ∧ v ∉ d.placed

structure Outside (d d' : SkillDirectory) : Prop where
  entries : ∀ n, n ≠ .skill → d'.entries n = d.entries n
  document : ∀ v, d.entries .skill = some v → d'.entries .skill = some v ∨ v ∈ d'.replaced
  next : d.next ≤ d'.next
  files : ∀ v < d.next, d'.files v = d.files v
  placed : ∀ v < d.next, v ∈ d'.placed → v ∈ d.placed
  replaced : ∀ v ∈ d.replaced, v ∈ d'.replaced

theorem outside_refl (d : SkillDirectory) : Outside d d :=
  ⟨fun _ _ => rfl, fun _ => Or.inl, le_refl _, fun _ _ => rfl, fun _ _ h => h, fun _ h => h⟩

theorem outside_trans {a b c : SkillDirectory} (hab : Outside a b) (hbc : Outside b c) :
    Outside a c where
  entries n hn := (hbc.entries n hn).trans (hab.entries n hn)
  document v hv := by
    rcases hab.document v hv with hv | hv
    · exact hbc.document v hv
    · exact Or.inr (hbc.replaced v hv)
  next := hab.next.trans hbc.next
  files v hv := (hbc.files v (hv.trans_le hab.next)).trans (hab.files v hv)
  placed v hv h := hab.placed v hv (hbc.placed v (hv.trans_le hab.next) h)
  replaced v h := hbc.replaced v (hab.replaced v h)

theorem outside_place (file : SkillFile) (number : ℕ) (d : SkillDirectory) :
    Outside d (d.place file number) where
  entries n hn := Function.update_of_ne hn _ _
  document v hv := by
    refine Or.inr (List.mem_append_left _ ?_)
    rw [hv]
    exact List.mem_cons_self
  next := Nat.le_succ _
  files v hv := Function.update_of_ne (Nat.ne_of_lt hv) _ _
  placed v hv h := by
    rcases List.mem_cons.mp h with rfl | h
    · exact absurd hv (lt_irrefl _)
    · exact h
  replaced v h := List.mem_append_right _ h

theorem disposable_same (hplaced : d'.placed = d.placed) (hreplaced : d'.replaced = d.replaced)
    (hfiles : ∀ v ∈ d.placed, d'.files v = d.files v) (h : Disposable env d v) :
    Disposable env d' v := by
  by_cases hv : v ∈ d.placed
  · rcases h with hnew | hsha | hgone
    · exact absurd hv hnew
    · refine Or.inr (Or.inl ?_)
      rw [hfiles v hv]
      exact hsha
    · exact Or.inr (Or.inr (hreplaced ▸ hgone))
  · exact Or.inl (hplaced ▸ hv)

theorem disposable_outside (h : Outside d d') (hv : v < d.next) (hgoes : Disposable env d v) :
    Disposable env d' v := by
  rcases hgoes with hplaced | hsha | hreplaced
  · exact Or.inl fun hp => hplaced (h.placed v hv hp)
  · refine Or.inr (Or.inl ?_)
    rw [h.files v hv]
    exact hsha
  · exact Or.inr (Or.inr (h.replaced v hreplaced))

theorem sound_place (h : Sound env d) (file : SkillFile) (number : ℕ) :
    Sound env (d.place file number) where
  kept v hv := by
    have hout := outside_place file number d
    rcases List.mem_cons.mp hv with rfl | hv
    · exact Or.inl ⟨.skill, rfl⟩
    have hlt := h.placed_lt v hv
    rcases h.kept v hv with ⟨n, hn⟩ | hgoes
    · by_cases hskill : n = .skill
      · subst hskill
        rcases hout.document v hn with hkept | hreplaced
        · exact Or.inl ⟨.skill, hkept⟩
        · exact Or.inr (Or.inr (Or.inr hreplaced))
      · exact Or.inl ⟨n, (hout.entries n hskill).trans hn⟩
    · exact Or.inr (disposable_outside hout hlt hgoes)
  placed_lt v hv := by
    rcases List.mem_cons.mp hv with rfl | hv
    · exact Nat.lt_succ_self _
    · exact Nat.lt_succ_of_lt (h.placed_lt v hv)
  linked_lt n v hv := by
    by_cases hskill : n = .skill
    · subst hskill
      have hplaced : (d.place file number).entries .skill = some d.next := rfl
      obtain rfl := some.inj (hplaced.symm.trans hv)
      exact Nat.lt_succ_self _
    · rw [(outside_place file number d).entries n hskill] at hv
      exact Nat.lt_succ_of_lt (h.linked_lt n v hv)
  own v hv hp := by
    have hout := outside_place file number d
    rw [hout.entries .proposed (by decide)] at hv
    exact h.own v hv (hout.placed v (h.linked_lt _ v hv) hp)
  installed v hv := by
    obtain ⟨hlt, hnew⟩ := h.installed v hv
    exact ⟨Nat.lt_succ_of_lt hlt, fun hp => hnew ((outside_place file number d).placed v hlt hp)⟩

theorem sound_entries (h : Sound env d) {entries : EntryName → Option ℕ}
    (hkept : ∀ n v, d.entries n = some v → (∃ m, entries m = some v) ∨ Disposable env d v)
    (hlinked : ∀ n v, entries n = some v → ∃ m, d.entries m = some v)
    (hown : ∀ v, entries .proposed = some v → d.entries .proposed = some v) :
    Sound env {d with entries := entries} where
  kept v hv := by
    rcases h.kept v hv with ⟨n, hn⟩ | hgoes
    · exact hkept n v hn
    · exact Or.inr hgoes
  placed_lt := h.placed_lt
  linked_lt n v hv := by
    obtain ⟨m, hm⟩ := hlinked n v hv
    exact h.linked_lt m v hm
  own v hv := h.own v (hown v hv)
  installed := h.installed

def Safe (env : SaveEnv) (v : ℕ) (d : SkillDirectory) : Prop :=
  v < d.next ∧ (d.entries .skill = some v ∨ Disposable env d v)

def Goes (env : SaveEnv) (v : ℕ) (d : SkillDirectory) : Prop := v < d.next ∧ Disposable env d v

theorem safe_of_goes (h : Goes env v d) : Safe env v d := ⟨h.1, Or.inr h.2⟩

theorem sound_link (h : Sound env d) {source target : EntryName} (hsource : d.entries source = some v)
    (hnone : d.entries target = none) (hproposed : target ≠ .proposed) :
    Sound env (d.put target (some v)) := by
  apply sound_entries h
  · intro n u hu
    have hne : n ≠ target := by
      rintro rfl
      rw [hnone] at hu
      cases hu
    exact Or.inl ⟨n, (put_other hne).trans hu⟩
  · intro n u hu
    by_cases hn : n = target
    · subst hn
      obtain rfl := some.inj (put_self.symm.trans hu)
      exact ⟨source, hsource⟩
    · exact ⟨n, (put_other hn).symm.trans hu⟩
  · intro u hu
    exact (put_other (Ne.symm hproposed)).symm.trans hu

theorem sound_unlink (h : Sound env d) (hn : n ≠ .skill)
    (hsafe : ∀ v, d.entries n = some v → Safe env v d) : Sound env (d.put n none) := by
  apply sound_entries h
  · intro m u hu
    by_cases hm : m = n
    · subst hm
      rcases (hsafe u hu).2 with hskill | hgoes
      · exact Or.inl ⟨.skill, (put_other (Ne.symm hn)).trans hskill⟩
      · exact Or.inr hgoes
    · exact Or.inl ⟨m, (put_other hm).trans hu⟩
  · intro m u hu
    by_cases hm : m = n
    · subst hm
      cases put_self.symm.trans hu
    · exact ⟨m, (put_other hm).symm.trans hu⟩
  · intro u hu
    by_cases hm : EntryName.proposed = n
    · subst hm
      rw [Function.update_self] at hu
      cases hu
    · exact (put_other hm).symm.trans hu

theorem sound_rename (h : Sound env d) (hskill : d.entries .skill = some v)
    (hnone : d.entries .displaced = none) :
    Sound env ((d.put .displaced (some v)).put .skill none) := by
  have hdisplaced : ((d.put .displaced (some v)).put .skill none).entries .displaced = some v := rfl
  have hother : ∀ n, n ≠ .skill → n ≠ .displaced →
      ((d.put .displaced (some v)).put .skill none).entries n = d.entries n := fun n hn hn' =>
    (put_other hn).trans (put_other hn')
  apply sound_entries h
  · intro n u hu
    refine Or.inl ?_
    by_cases hn : n = .skill
    · subst hn
      obtain rfl := some.inj (hskill.symm.trans hu)
      exact ⟨.displaced, hdisplaced⟩
    · refine ⟨n, (hother n hn fun hn' => ?_).trans hu⟩
      rw [hn', hnone] at hu
      cases hu
  · intro n u hu
    by_cases hn : n = .displaced
    · subst hn
      obtain rfl := some.inj (hdisplaced.symm.trans hu)
      exact ⟨.skill, hskill⟩
    · by_cases hn' : n = .skill
      · subst hn'
        cases hu
      · exact ⟨n, (hother n hn' hn).symm.trans hu⟩
  · intro u hu
    exact (hother .proposed (by decide) (by decide)).symm.trans hu
end

section
variable {env : SaveEnv} {n : EntryName} {v : ℕ}

def Stable (P : SkillDirectory → Prop) : Prop := ∀ d d', P d → Outside d d' → P d'

theorem stable_and {P Q : SkillDirectory → Prop} (hP : Stable P) (hQ : Stable Q) :
    Stable fun d => P d ∧ Q d :=
  fun d d' h hout => ⟨hP d d' h.1 hout, hQ d d' h.2 hout⟩

theorem stable_true : Stable fun _ => True := fun _ _ _ _ => trivial

theorem stable_goes : Stable (Goes env v) := fun _ _ h hout =>
  ⟨h.1.trans_le hout.next, disposable_outside hout h.1 h.2⟩

theorem stable_safe : Stable (Safe env v) := by
  rintro d d' ⟨hlt, hskill | hgoes⟩ hout
  · refine ⟨hlt.trans_le hout.next, ?_⟩
    rcases hout.document v hskill with hkept | hreplaced
    · exact Or.inl hkept
    · exact Or.inr (Or.inr (Or.inr hreplaced))
  · exact safe_of_goes (stable_goes _ _ ⟨hlt, hgoes⟩ hout)

def Names (n : EntryName) (v : Option ℕ) (d : SkillDirectory) : Prop := d.entries n = v

theorem stable_names {v : Option ℕ} (hn : n ≠ .skill) : Stable (Names n v) :=
  fun _ _ h hout => (hout.entries n hn).trans h

def Own (v : ℕ) (d : SkillDirectory) : Prop := v < d.next ∧ v ∉ d.placed

theorem stable_own : Stable (Own v) := fun _ _ h hout =>
  ⟨h.1.trans_le hout.next, fun hp => h.2 (hout.placed v h.1 hp)⟩

variable {d : SkillDirectory}

theorem goes_of_own (h : Own v d) : Goes env v d := ⟨h.1, Or.inl h.2⟩

structure Seen (env : SaveEnv) (n : EntryName) (v : ℕ) (d : SkillDirectory) : Prop where
  lt : v < d.next
  names : n ≠ .skill → d.entries n = some v
  document : n = .skill → Safe env v d
  own : n = .proposed → Own v d

theorem stable_seen : Stable (Seen env n v) := fun d d' h hout =>
  ⟨h.lt.trans_le hout.next, fun hn => (hout.entries n hn).trans (h.names hn),
    fun hn => stable_safe d d' (h.document hn) hout, fun hn => stable_own d d' (h.own hn) hout⟩

theorem seen_of_entry (h : Sound env d) (hv : d.entries n = some v) : Seen env n v d where
  lt := h.linked_lt n v hv
  names _ := hv
  document hn := ⟨h.linked_lt n v hv, Or.inl (hn ▸ hv)⟩
  own hn := ⟨h.linked_lt n v hv, h.own v (hn ▸ hv)⟩

structure SeenFile (env : SaveEnv) (n : EntryName) (file : ℕ × List UInt8) (d : SkillDirectory) :
    Prop extends Seen env n file.1 d where
  content : (d.files file.1).content = file.2

variable {file : ℕ × List UInt8}

theorem stable_seenFile : Stable (SeenFile env n file) := fun d d' h hout =>
  ⟨stable_seen d d' h.toSeen hout, by rw [hout.files _ h.lt]; exact h.content⟩

theorem goes_of_expected (h : SeenFile env n file d)
    (hsha : env.sha256Hex file.2 = env.expectedSha256) : Goes env file.1 d := by
  refine ⟨h.lt, Or.inr (Or.inl ?_)⟩
  rw [h.content]
  exact hsha

def SeenIf (env : SaveEnv) (n : EntryName) : Option (ℕ × List UInt8) → SkillDirectory → Prop
  | none, d => n ≠ .skill → d.entries n = none
  | some file, d => SeenFile env n file d

theorem stable_seenIf {file : Option (ℕ × List UInt8)} : Stable (SeenIf env n file) := by
  intro d d' h hout
  cases file with
  | none => exact fun hn => (hout.entries n hn).trans (h hn)
  | some file => exact stable_seenFile d d' h hout
end

section
variable {env : SaveEnv} {α β : Type} {P : SkillDirectory → Prop} {n : EntryName}

def saveRule (env : SaveEnv) : Discipline SkillDirectory SaveAccess where
  inv := Sound env
  rely := Outside
  assume := Trusted
  guar _ _ _ := True

def Meets (env : SaveEnv) (P : SkillDirectory → Prop) (p : SkillProg α)
    (Q : α → SkillDirectory → Prop) (X : SkillFault → SkillDirectory → Prop) : Prop :=
  ∀ d, P d → wp (saveRule env) p Q X d

abbrev Does (env : SaveEnv) (P : SkillDirectory → Prop) (p : SkillProg α)
    (Q : α → SkillDirectory → Prop) : Prop := Meets env P p Q fun _ _ => True

variable {Q : α → SkillDirectory → Prop} {X : SkillFault → SkillDirectory → Prop} {p : SkillProg α}

theorem meets_bind {g : α → SkillProg β} {R : β → SkillDirectory → Prop} (hp : Meets env P p Q X)
    (hg : ∀ a, Meets env (Q a) (g a) R X) : Meets env P (p >>= g) R X := by
  intro d hd
  rw [wp_seq]
  exact wp_mono _ (hp d hd) (fun a d' h => hg a d' h) fun _ _ h => h

variable {P' : SkillDirectory → Prop} {Q' : α → SkillDirectory → Prop}

theorem meets_mono {X' : SkillFault → SkillDirectory → Prop} (h : Meets env P p Q X)
    (hP : ∀ d, P' d → P d) (hQ : ∀ a d, Q a d → Q' a d) (hX : ∀ e d, X e d → X' e d) :
    Meets env P' p Q' X' :=
  fun d hd => wp_mono _ (h d (hP d hd)) hQ hX

theorem meets_pre (h : Meets env P p Q X) (hP : ∀ d, P' d → P d) :
    Meets env P' p Q X := fun d hd => h d (hP d hd)

theorem meets_post (h : Meets env P p Q X) (hQ : ∀ a d, Q a d → Q' a d) : Meets env P p Q' X :=
  meets_mono h (fun _ h => h) hQ fun _ _ h => h

theorem meets_pure {a : α} (h : ∀ d, P d → Q a d) : Meets env P (pure a : SkillProg α) Q X := by
  intro d hd
  rw [Prog.pure_eq, wp_pure]
  exact h d hd

theorem meets_throw {e : SkillFault} (h : ∀ d, P d → X e d) :
    Meets env P (throw e : SkillProg α) Q X := by
  intro d hd
  rw [Prog.throw_eq, wp_fail]
  exact h d hd

theorem meets_require {b : Prop} [Decidable b] {e : SkillFault} (hX : ∀ d, P d → X e d) :
    Meets env P (Prog.require b e) (fun _ d => P d ∧ b) X :=
  fun d hd => wp_require _ (fun hb => ⟨hd, hb⟩) fun _ => hX d hd

variable {f : SkillDirectory → Except SkillFault (α × SkillDirectory)}

theorem meets_call (hP : Stable P) (hX : ∀ d, P d → X .osError d)
    (herror : ∀ d e, P d → f d = .error e → X e d)
    (hok : ∀ d a d', Sound env d → P d → f d = .ok (a, d') → Sound env d' ∧ Q a d') :
    Meets env P (systemCall f) Q X := by
  apply meets_bind (Q := fun _ => P)
  · intro d hd
    rw [wp_any]
    exact fun _ => hd
  intro succeeds
  apply meets_bind (meets_require hX)
  intro _ d hd
  unfold wp
  intro d' hsound hout _
  have hd' : P d' := hP d d' hd.1 hout
  unfold Prog.attemptStep
  split
  next a d'' hf =>
    obtain ⟨hsound', hQ⟩ := hok d' a d'' hsound hd' hf
    refine ⟨hsound', trivial, ?_⟩
    rw [Prog.ofExcept, wp_pure]
    exact hQ
  next e hf =>
    refine ⟨hsound, trivial, ?_⟩
    rw [Prog.ofExcept, wp_fail]
    exact herror d' e hd' hf

theorem does_call (hP : Stable P)
    (hok : ∀ d a d', Sound env d → P d → f d = .ok (a, d') → Sound env d' ∧ Q a d') :
    Does env P (systemCall f) Q :=
  meets_call hP (fun _ _ => trivial) (fun _ _ _ _ => trivial) hok

theorem does_fsync (hP : Stable P) : Does env P fsync fun _ => P := by
  apply does_call hP
  rintro d _ _ hsound hd ⟨⟩
  exact ⟨hsound, hd⟩

theorem does_raiseWhen {b : Prop} [Decidable b] {body : SkillProg Unit}
    (h : Does env P body fun _ _ => False) : Does env P (raiseWhen b body) fun _ d => P d ∧ ¬b := by
  intro d hd
  unfold raiseWhen
  split
  · exact wp_mono _ (h d hd) (fun _ _ h => h.elim) fun _ _ h => h
  next hb => exact meets_pure (fun _ h => ⟨h, hb⟩) d hd

variable {v w : ℕ}

theorem meets_sameNumber (access : SaveAccess) (hP : Stable P) :
    Meets env P (sameNumber access v w) (fun same d => P d ∧
      (access = .identity v w → same = true → v = w)) X := by
  intro d hd
  unfold sameNumber Prog.get wp
  intro d' hsound hout htrusted
  refine ⟨hsound, trivial, ?_⟩
  rw [wp_pure]
  refine ⟨hP d d' hd hout, ?_⟩
  rintro rfl hsame
  exact htrusted (of_decide_eq_true hsame)

theorem meets_sameIdentity (hP : Stable P) : Meets env P (sameIdentity v w)
    (fun same d => P d ∧ (same = true → v = w)) X :=
  meets_post (meets_sameNumber _ hP) fun _ _ h => ⟨h.1, h.2 rfl⟩

def ReadFault (P : SkillDirectory → Prop) (n : EntryName) (e : SkillFault) (d : SkillDirectory) :
    Prop := P d ∧ (e = .notFound → n ≠ .skill → d.entries n = none)

theorem meets_look {f : SkillDirectory → Except SkillFault (ℕ × SkillDirectory)} (hP : Stable P)
    (herror : ∀ d, f d = .error .notFound → d.entries n = none)
    (hok : ∀ d v d', f d = .ok (v, d') → d' = d ∧ d.entries n = some v) :
    Meets env P (systemCall f) (fun v d => P d ∧ Seen env n v d) (ReadFault P n) := by
  apply meets_call hP
  · exact fun d hd => ⟨hd, fun h => SkillFault.noConfusion h⟩
  · rintro d e hd hf
    exact ⟨hd, fun he _ => herror d (he ▸ hf)⟩
  · intro d v d' hsound hd hf
    obtain ⟨rfl, hv⟩ := hok d v d' hf
    exact ⟨hsound, hd, seen_of_entry hsound hv⟩

theorem meets_stat (hP : Stable P) :
    Meets env P (stat n) (fun v d => P d ∧ Seen env n v d) (ReadFault P n) := by
  apply meets_look hP
  · intro d hf
    split at hf
    · assumption
    · cases hf
  · intro d v d' hf
    split at hf
    · cases hf
    · cases hf
      exact ⟨rfl, by assumption⟩

theorem meets_readEntry {links : List ℕ} {fault : SkillFault} (hP : Stable P)
    (hfault : fault ≠ .notFound) : Meets env P (readEntry env n links fault)
      (fun file d => P d ∧ SeenFile env n file d) (ReadFault P n) := by
  have hseen : ∀ v, Stable fun d => P d ∧ Seen env n v d := fun v => stable_and hP stable_seen
  apply meets_bind (Q := fun _ => P)
  · apply meets_post (meets_look (n := n) hP ?_ ?_) (fun _ _ h => h.1)
    · intro d hf
      split at hf
      · assumption
      · split at hf
        · cases hf
        · exact absurd (Except.error.inj hf) hfault
    · intro d v d' hf
      split at hf
      · cases hf
      · split at hf
        · cases hf
          exact ⟨rfl, by assumption⟩
        · cases hf
  intro before
  apply meets_bind (meets_stat hP)
  intro opened
  apply meets_bind (meets_post (meets_sameNumber .call (hseen opened)) (fun _ _ h => h.1))
  intro same
  apply meets_bind (meets_require fun d hd => ⟨hd.1, fun h => absurd h hfault⟩)
  intro _
  apply meets_bind (Q := fun data d => P d ∧ SeenFile env n (opened, data) d)
  · have hcall : ∀ (d : SkillDirectory) (e : SkillFault), (if (d.files opened).content.length > env.maxContentBytes then
        Except.error SkillFault.path else if d.links opened ∈ links then
          .ok ((d.files opened).content, d) else .error .path : Except SkillFault _) = .error e → e = .path := by
      intro d e hf
      split at hf
      · exact (Except.error.inj hf).symm
      · split at hf
        · cases hf
        · exact (Except.error.inj hf).symm
    apply meets_mono (P := fun d => P d ∧ Seen env n opened d) _ (fun d h => h.1) (fun _ _ h => h)
      fun _ _ h => h
    apply meets_call (hseen opened)
    · exact fun d hd => ⟨hd.1, fun h => SkillFault.noConfusion h⟩
    · intro d e hd hf
      obtain rfl := hcall d e hf
      exact ⟨hd.1, fun h => SkillFault.noConfusion h⟩
    · intro d data d' hsound hd hf
      split at hf
      · cases hf
      · split at hf
        · cases hf
          exact ⟨hsound, hd.1, hd.2, rfl⟩
        · cases hf
  · exact fun data => meets_pure fun d hd => hd

theorem does_readEntry {links : List ℕ} {fault : SkillFault} (hP : Stable P)
    (hfault : fault ≠ .notFound) : Does env P (readEntry env n links fault)
      fun file d => P d ∧ SeenFile env n file d :=
  meets_mono (meets_readEntry hP hfault) (fun _ h => h) (fun _ _ h => h) fun _ _ _ => trivial

theorem does_optional (hP : Stable P) :
    Does env P (optionalRecoveryFile env n) fun file d => P d ∧ SeenIf env n file d := by
  intro d hd
  unfold optionalRecoveryFile
  rw [wp_seq, wp_toExcept]
  have hread : Meets env P (readRecoveryFile env n [1,2])
      (fun file d => P d ∧ SeenFile env n file d) (ReadFault P n) :=
    meets_readEntry hP (by decide)
  apply wp_mono _ (hread d hd)
  · exact fun file d' h => meets_pure (fun _ h => h) d' h
  · rintro e d' ⟨hd', hnone⟩
    cases e with
    | notFound =>
      exact meets_pure (fun _ h => h) d' (⟨hd', hnone rfl⟩ : P d' ∧ SeenIf env n none d')
    | _ => exact meets_throw (P := P) (fun _ _ => trivial) d' hd'

variable {source target : EntryName}

theorem does_link {Q : SkillDirectory → Prop} (hP : Stable P) (hproposed : target ≠ .proposed)
    (hok : ∀ d v, Sound env d → P d → d.entries source = some v → d.entries target = none →
      Q (d.put target (some v))) : Does env P (linkNoReplace source target) fun _ => Q := by
  apply does_call hP
  intro d _ d' hsound hd hf
  split at hf
  · cases hf
  · cases hf
  next v hsource hnone =>
    cases hf
    exact ⟨sound_link hsound hsource hnone hproposed, hok d v hsound hd hsource hnone⟩

theorem does_linkOrElse {occupied : SkillProg Unit} {Q : SkillDirectory → Prop}
    (h : Does env P (linkNoReplace source target) fun _ => Q)
    (hoccupied : Does env (fun _ => True) occupied fun _ _ => False) :
    Does env P (linkOrElse source target occupied) fun _ => Q := by
  intro d hd
  unfold linkOrElse
  rw [wp_seq, wp_toExcept]
  apply wp_mono _ (h d hd)
  · exact fun _ d' h => meets_pure (fun _ h => h) d' h
  · intro e d' _
    cases e with
    | fileExists => exact wp_mono _ (hoccupied d' trivial) (fun _ _ h => h.elim) fun _ _ h => h
    | _ => exact meets_throw (P := fun _ => True) (fun _ _ => trivial) d' trivial

theorem does_unlink {Q : SkillDirectory → Prop} (hP : Stable P) (hn : n ≠ .skill)
    (hsafe : ∀ d v, Sound env d → P d → d.entries n = some v → Safe env v d)
    (hok : ∀ d, P d → Q (d.put n none)) : Does env P (unlink n) fun _ => Q := by
  apply does_call hP
  intro d _ d' hsound hd hf
  split at hf
  · cases hf
  · cases hf
    exact ⟨sound_unlink hsound hn fun v hv => hsafe d v hsound hd hv, hok d hd⟩

theorem does_rename {Q : SkillDirectory → Prop} (hP : Stable P)
    (hnone : ∀ d, P d → d.entries .displaced = none)
    (hok : ∀ d v, P d → Q ((d.put .displaced (some v)).put .skill none)) :
    Does env P (rename .skill .displaced) fun _ => Q := by
  apply does_call hP
  intro d _ d' hsound hd hf
  split at hf
  · cases hf
  next v hskill =>
    rw [hnone d hd, if_neg fun h => by cases h] at hf
    cases hf
    exact ⟨sound_rename hsound hskill (hnone d hd), hok d v hd⟩
end

section
variable {env : SaveEnv}

theorem restore_keeps (x : ℕ) : Does env (Names .displaced (some x)) restoreDisplacedNoReplace
    fun _ _ => True := by
  have hnames : Stable (Names .displaced (some x)) := stable_names (by decide)
  have hboth : Stable fun d => Names .displaced (some x) d ∧ Safe env x d :=
    stable_and hnames stable_safe
  apply meets_bind (Q := fun _ d => Names .displaced (some x) d ∧ Safe env x d)
  · apply does_linkOrElse
    · apply does_link hnames (by decide)
      intro d v hsound hd hsource _
      obtain rfl := some.inj (hsource.symm.trans hd)
      exact ⟨(put_other (by decide)).trans hd, hsound.linked_lt _ _ hsource, Or.inl put_self⟩
    · exact meets_throw fun _ _ => trivial
  intro _
  apply meets_bind (Q := fun _ _ => True)
  · apply does_unlink hboth (by decide)
    · intro d v _ hd hv
      obtain rfl := some.inj (hv.symm.trans hd.1)
      exact hd.2
    · exact fun _ _ => trivial
  · exact fun _ => does_fsync stable_true

theorem raiseConcurrent_raises : Does env (fun _ => True) (raiseConcurrent env) fun _ _ => False :=
  meets_bind (does_readEntry stable_true (by decide)) fun _ => meets_throw fun _ _ => trivial

theorem does_any {P : SkillDirectory → Prop} {β : Type} [Input β] :
    Does env P (Prog.any β) fun _ => P := by
  intro d hd
  rw [wp_any]
  exact fun _ => hd

theorem setContent_keeps {before t : ℕ} (content : List UInt8) :
    Does env (fun d => (Names .displaced none d ∧ Goes env before d) ∧ Names .proposed (some t) d)
      (setContent t content)
      fun _ d => (Names .displaced none d ∧ Goes env before d) ∧ Names .proposed (some t) d := by
  apply does_call (stable_and (stable_and (stable_names (by decide)) stable_goes)
    (stable_names (by decide)))
  rintro d _ _ hsound ⟨⟨hdisplaced, hlt, hgoes⟩, hproposed⟩ ⟨⟩
  have hown : t ∉ d.placed := hsound.own t hproposed
  have hsame : ∀ v, Disposable env d v →
      Disposable env {d with files := Function.update d.files t ⟨true, content, 0⟩} v :=
    fun v => disposable_same rfl rfl fun u hu => Function.update_of_ne (by rintro rfl; exact hown hu) _ _
  refine ⟨⟨?_, hsound.placed_lt, hsound.linked_lt, hsound.own, hsound.installed⟩,
    ⟨hdisplaced, hlt, hsame before hgoes⟩, hproposed⟩
  intro v hv
  rcases hsound.kept v hv with hnamed | hv
  · exact Or.inl hnamed
  · exact Or.inr (hsame v hv)

theorem create_keeps {before : ℕ} :
    Does env (fun d => Names .displaced none d ∧ Goes env before d) (create .proposed) fun t d =>
      (Names .displaced none d ∧ Goes env before d) ∧ Names .proposed (some t) d := by
  apply meets_bind does_any
  intro number
  apply does_call (stable_and (stable_names (by decide)) stable_goes)
  rintro d t d' hsound ⟨hdisplaced, hlt, hgoes⟩ hf
  split at hf
  · cases hf
  next hnone =>
    split at hf
    swap
    · cases hf
    cases hf
    have hfresh : d.next ∉ d.placed := fun hp => lt_irrefl _ (hsound.placed_lt _ hp)
    have hsame : ∀ v, Disposable env d v → Disposable env {d with
        entries := Function.update d.entries .proposed (some d.next)
        files := Function.update d.files d.next ⟨true, [], 0⟩
        ino := Function.update d.ino d.next number
        next := d.next + 1} v :=
      fun v => disposable_same rfl rfl fun u hu =>
        Function.update_of_ne (Nat.ne_of_lt (hsound.placed_lt u hu)) _ _
    have hother : ∀ n, n ≠ .proposed →
        Function.update d.entries .proposed (some d.next) n = d.entries n :=
      fun n hn => Function.update_of_ne hn _ _
    have hself : Function.update d.entries .proposed (some d.next) .proposed = some d.next := rfl
    refine ⟨⟨?_, fun v hv => Nat.lt_succ_of_lt (hsound.placed_lt v hv), ?_, ?_, ?_⟩,
      ⟨(hother .displaced (by decide)).trans hdisplaced, Nat.lt_succ_of_lt hlt, hsame _ hgoes⟩,
      hself⟩
    · intro v hv
      rcases hsound.kept v hv with ⟨n, hn⟩ | hgoes
      · have hne : n ≠ .proposed := by
          rintro rfl
          rw [hnone] at hn
          cases hn
        exact Or.inl ⟨n, (hother n hne).trans hn⟩
      · exact Or.inr (hsame v hgoes)
    · intro n v hv
      by_cases hn : n = .proposed
      · subst hn
        obtain rfl := some.inj (hself.symm.trans hv)
        exact Nat.lt_succ_self _
      · exact Nat.lt_succ_of_lt (hsound.linked_lt n v ((hother n hn).symm.trans hv))
    · intro v hv
      obtain rfl := some.inj (hself.symm.trans hv)
      exact hfresh
    · intro v hv
      obtain ⟨hlt, hnew⟩ := hsound.installed v hv
      exact ⟨Nat.lt_succ_of_lt hlt, hnew⟩

theorem guardOriginal_keeps : Does env (Names .displaced none) (guardOriginal env)
    fun guard d => Names .displaced none d ∧ Goes env guard.1 d := by
  have hfree : Stable (Names .displaced none) := stable_names (by decide)
  apply meets_bind (does_readEntry hfree (by decide))
  intro before
  have hknown : Stable fun d => Names .displaced none d ∧ Goes env before.1 d :=
    stable_and hfree stable_goes
  apply meets_bind (Q := fun _ d => Names .displaced none d ∧ Goes env before.1 d)
  · apply meets_post (meets_require fun _ _ => trivial) _
    exact fun _ d hd => ⟨hd.1.1, goes_of_expected hd.1.2 hd.2⟩
  intro _
  apply meets_bind create_keeps
  intro t
  apply meets_bind (Q := fun _ d => Names .displaced none d ∧ Goes env before.1 d)
  · apply meets_bind does_any
    intro written
    apply meets_bind (setContent_keeps _)
    exact fun _ => meets_post (setContent_keeps _) (fun _ _ h => h.1)
  intro _
  apply meets_bind (does_fsync hknown)
  intro _
  -- what the second name holds lies at the document's name, until an external rename
  apply meets_bind (Q := fun _ d => (Names .displaced none d ∧ Goes env before.1 d) ∧
    ∃ v, Names .original (some v) d ∧ Safe env v d)
  · apply does_link hknown (by decide)
    intro d v hsound hd hskill _
    refine ⟨⟨(put_other (by decide)).trans hd.1, hd.2⟩, v, put_self, hsound.linked_lt _ v hskill, ?_⟩
    exact Or.inl ((put_other (by decide)).trans hskill)
  intro _
  have hguarded : Stable fun d => (Names .displaced none d ∧ Goes env before.1 d) ∧
      ∃ v, Names .original (some v) d ∧ Safe env v d := by
    rintro d d' ⟨hd, v, hv, hsafe⟩ hout
    exact ⟨hknown d d' hd hout, v, stable_names (by decide) d d' hv hout,
      stable_safe d d' hsafe hout⟩
  apply meets_bind (does_readEntry hguarded (by decide))
  intro guard
  have hread : Stable fun d => ((Names .displaced none d ∧ Goes env before.1 d) ∧
      ∃ v, Names .original (some v) d ∧ Safe env v d) ∧ SeenFile env .original guard d :=
    stable_and hguarded stable_seenFile
  apply meets_bind (meets_post (meets_sameNumber .call hread) (fun _ _ h => h.1))
  intro same
  apply meets_bind (Q := fun _ d => Names .displaced none d ∧ Goes env guard.1 d)
  · apply meets_mono (does_raiseWhen ?_) (fun d hd => hd) ?_ fun _ _ h => h
    · apply meets_pre (P := fun d => (Names .displaced none d ∧ Goes env before.1 d) ∧
        ∃ v, Names .original (some v) d ∧ Safe env v d) _ fun d hd => hd.1
      apply meets_bind (Q := fun _ _ => True)
      · apply does_unlink hguarded (by decide)
        · rintro d v - ⟨-, u, hu, hsafe⟩ hv
          obtain rfl := some.inj (hv.symm.trans hu)
          exact hsafe
        · exact fun _ _ => trivial
      · exact fun _ => meets_throw fun _ _ => trivial
    · rintro _ d ⟨⟨⟨hd, -⟩, hguard⟩, hexpected⟩
      exact ⟨hd.1, goes_of_expected hguard (not_not.mp fun hne => hexpected (Or.inr hne))⟩
  intro _
  apply meets_bind (does_fsync (stable_and hfree stable_goes))
  exact fun _ => meets_pure fun _ h => h

theorem moveAway_keeps {expected : ℕ} {fault : List UInt8 → SkillFault} {rest : SkillProg Unit}
    {Q : SkillDirectory → Prop}
    (hrest : Does env (fun d => Names .displaced (some expected) d ∧ Goes env expected d) rest
      fun _ => Q) : Does env (Goes env expected) (do
      let moved ← readRecoveryFile env .displaced [1,2]
      let same ← sameIdentity moved.1 expected
      raiseWhen (same = false) do
        restoreDisplacedNoReplace
        throw (fault moved.2)
      rest) fun _ => Q := by
  apply meets_bind (does_readEntry stable_goes (by decide))
  intro moved
  have hmoved : Stable fun d => Names .displaced (some moved.1) d ∧ Goes env expected d :=
    stable_and (stable_names (by decide)) stable_goes
  apply meets_pre (P := fun d => Names .displaced (some moved.1) d ∧ Goes env expected d) _
    fun d hd => ⟨hd.2.names (by decide), hd.1⟩
  apply meets_bind (meets_sameIdentity hmoved)
  intro same
  apply meets_bind (Q := fun _ d => Names .displaced (some expected) d ∧ Goes env expected d)
  · apply meets_mono (does_raiseWhen ?_) (fun _ h => h) ?_ fun _ _ h => h
    · apply meets_bind (meets_pre (restore_keeps moved.1) (fun _ h => h.1.1))
      exact fun _ => meets_throw fun _ _ => trivial
    · rintro _ d ⟨⟨hd, hsame⟩, htrue⟩
      rw [hsame (eq_true_of_ne_false htrue)] at hd
      exact hd
  · exact fun _ => hrest

theorem unlinkDisplaced_keeps {v : ℕ} :
    Does env (fun d => Names .displaced (some v) d ∧ Goes env v d) (unlink .displaced)
      fun _ _ => True := by
  apply does_unlink (stable_and (stable_names (by decide)) stable_goes) (by decide)
  · intro d u _ hd hu
    obtain rfl := some.inj (hu.symm.trans hd.1)
    exact safe_of_goes hd.2
  · exact fun _ _ => trivial

theorem renameAway_keeps {v : ℕ} :
    Does env (fun d => Names .displaced none d ∧ Goes env v d) (rename .skill .displaced)
      fun _ => Goes env v :=
  does_rename (stable_and (stable_names (by decide)) stable_goes) (fun _ h => h.1)
    fun _ _ h => h.2

theorem displace_keeps {guard : ℕ} :
    Does env (fun d => Names .displaced none d ∧ Goes env guard d) (displace env guard)
      fun _ _ => True := by
  apply meets_bind renameAway_keeps
  intro _
  apply meets_bind (does_fsync stable_goes)
  exact fun _ => moveAway_keeps unlinkDisplaced_keeps

theorem installProposed_keeps : Does env (fun _ => True) (installProposed env) fun _ _ => True := by
  apply meets_bind (Q := fun _ _ => True)
  · exact does_linkOrElse (does_link stable_true (by decide) fun _ _ _ _ _ _ => trivial)
      raiseConcurrent_raises
  intro _
  apply meets_bind (does_fsync stable_true)
  intro _
  apply meets_bind (meets_mono (meets_stat stable_true) (fun _ h => h) (fun _ _ _ => trivial)
    fun _ _ _ => trivial)
  intro installed
  apply meets_bind (Q := fun temporary => Own temporary)
  · exact meets_mono (meets_stat stable_true) (fun _ _ => trivial) (fun _ _ h => h.2.own rfl)
      fun _ _ _ => trivial
  intro temporary
  apply meets_bind (meets_sameIdentity stable_own)
  intro same
  apply meets_bind (Q := fun _ => Own installed)
  · apply meets_post (does_raiseWhen ?_) _
    · exact meets_pre raiseConcurrent_raises (fun _ _ => trivial)
    · rintro _ d ⟨⟨hd, hsame⟩, htrue⟩
      rw [hsame (eq_true_of_ne_false htrue)]
      exact hd
  intro _
  apply meets_bind (Q := fun _ _ => True)
  · apply does_call stable_own
    rintro d _ _ hsound hd ⟨⟩
    refine ⟨⟨hsound.kept, hsound.placed_lt, hsound.linked_lt, hsound.own, ?_⟩, trivial⟩
    intro v hv
    obtain rfl := some.inj hv
    exact hd
  intro _
  apply meets_bind (Q := fun _ _ => True)
  · apply does_unlink stable_true (by decide)
    · exact fun d v hsound _ hv => safe_of_goes ⟨hsound.linked_lt _ v hv, Or.inl (hsound.own v hv)⟩
    · exact fun _ _ => trivial
  · exact fun _ => does_fsync stable_true

theorem atomicReplace_keeps : Does env (Names .displaced none) (atomicReplace env)
    fun _ _ => True := by
  apply meets_bind guardOriginal_keeps
  intro guard
  exact meets_bind displace_keeps fun _ => installProposed_keeps
end

section
variable {env : SaveEnv}

theorem returnDisplaced_keeps : Does env (fun _ => True) (returnDisplaced env)
    fun _ => Names .displaced none := by
  have hfree : Stable (Names .displaced none) := stable_names (by decide)
  apply meets_bind (does_optional (n := .displaced) stable_true)
  intro displaced
  apply meets_bind (does_optional (n := .skill) (stable_and stable_true stable_seenIf))
  intro target
  cases displaced with
  | none => exact meets_pure fun d hd => hd.1.2 (by decide)
  | some x =>
    apply meets_bind (Q := fun _ => Names .displaced none)
    swap
    · exact fun _ => does_fsync hfree
    -- what the displaced name holds lies at the document's name as well
    have hunlink : Does env (fun d => Names .displaced (some x.1) d ∧ Safe env x.1 d)
        (unlink .displaced) fun _ => Names .displaced none := by
      apply does_unlink (stable_and (stable_names (by decide)) stable_safe) (by decide)
      · intro d v _ hd hv
        obtain rfl := some.inj (hv.symm.trans hd.1)
        exact hd.2
      · exact fun _ _ => put_self
    cases target with
    | none =>
      apply meets_bind (Q := fun _ d => Names .displaced (some x.1) d ∧ Safe env x.1 d)
      · apply meets_mono (P := Names .displaced (some x.1))
          (does_link (stable_names (by decide)) (by decide) ?_) _ (fun _ _ h => h) fun _ _ h => h
        · intro d v hsound hd hsource _
          obtain rfl := some.inj (hsource.symm.trans hd)
          exact ⟨(put_other (by decide)).trans hd, hsound.linked_lt _ _ hsource, Or.inl put_self⟩
        · exact fun d hd => hd.1.2.names (by decide)
      intro _
      apply meets_bind (does_fsync (stable_and (stable_names (by decide)) stable_safe))
      exact fun _ => hunlink
    | some t =>
      have hseen : Stable fun d => (True ∧ SeenIf env .displaced (some x) d) ∧
          SeenIf env .skill (some t) d :=
        stable_and (stable_and stable_true stable_seenIf) stable_seenIf
      apply meets_bind (meets_sameIdentity hseen)
      intro same
      apply meets_bind (meets_require fun _ _ => trivial)
      intro _
      apply meets_pre hunlink _
      rintro d ⟨⟨⟨⟨-, hx⟩, ht⟩, hsame⟩, htrue⟩
      exact ⟨hx.names (by decide), hsame htrue ▸ ht.document rfl⟩

theorem withdrawProposed_keeps {t : ℕ} :
    Does env (fun d => Names .displaced none d ∧ Own t d) (withdrawProposed env t)
      fun _ _ => True := by
  apply meets_bind (meets_pre renameAway_keeps (fun _ h => ⟨h.1, goes_of_own h.2⟩))
  intro _
  apply @moveAway_keeps env t fun _ => .manualRecovery
  have hknown : Stable fun d => Names .displaced (some t) d ∧ Goes env t d :=
    stable_and (stable_names (by decide)) stable_goes
  apply meets_bind (Q := fun _ d => Names .displaced (some t) d ∧ Goes env t d)
  · apply does_link hknown (by decide)
    exact fun d v _ hd _ _ => ⟨(put_other (by decide)).trans hd.1, hd.2⟩
  intro _
  apply meets_bind unlinkDisplaced_keeps
  exact fun _ => does_fsync stable_true

variable {P : SkillDirectory → Prop}

theorem isFile_keeps {target : ℕ} {file : Option ℕ} (hP : Stable P) :
    Does env P (isFile target file) fun same d => P d ∧ (same = true → file = some target) := by
  cases file with
  | none => exact meets_pure fun d hd => ⟨hd, fun h => by cases h⟩
  | some v =>
    apply meets_post (meets_sameIdentity hP) _
    rintro same d ⟨hd, hsame⟩
    exact ⟨hd, fun h => by rw [hsame h]⟩

theorem targetIsProposed_keeps {installed temporary : Option ℕ} {target : ℕ × List UInt8}
    (hP : Stable P) : Does env P (targetIsProposed env installed temporary target) fun same d =>
      P d ∧ (same = true → temporary = some target.1 ∨ installed = some target.1) := by
  unfold targetIsProposed
  split
  · exact meets_pure fun d hd => ⟨hd, fun h => by cases h⟩
  apply meets_bind (isFile_keeps hP)
  intro isTemporary
  cases isTemporary with
  | true => exact meets_pure fun d hd => ⟨hd.1, fun _ => Or.inl (hd.2 rfl)⟩
  | false =>
    apply meets_mono (isFile_keeps hP) (fun d hd => hd.1) ?_ fun _ _ h => h
    exact fun same d hd => ⟨hd.1, fun h => Or.inr (hd.2 h)⟩

theorem targetIsOriginal_keeps {guard : Option ℕ} {target : ℕ × List UInt8} (hP : Stable P) :
    Does env P (targetIsOriginal env guard target) fun _ => P := by
  unfold targetIsOriginal
  split
  · exact meets_pure fun _ hd => hd
  cases guard with
  | none => exact meets_pure fun _ hd => hd
  | some v => exact meets_post (meets_sameNumber .call hP) fun _ _ h => h.1

theorem settleTarget_keeps : Does env (Names .displaced none) (settleTarget env)
    fun _ _ => True := by
  have hfree : Stable (Names .displaced none) := stable_names (by decide)
  apply meets_bind (Q := fun installed d => Names .displaced none d ∧ ∀ v, installed = some v → Own v d)
  · intro d hd
    unfold wp
    intro d' hsound hout _
    refine ⟨hsound, trivial, ?_⟩
    rw [wp_pure]
    exact ⟨hfree d d' hd hout, hsound.installed⟩
  intro installed
  have hknown : Stable fun d => Names .displaced none d ∧ ∀ v, installed = some v → Own v d :=
    stable_and hfree fun d d' h hout v hv => stable_own d d' (h v hv) hout
  apply meets_bind (does_optional (n := .skill) hknown)
  intro target
  apply meets_bind (does_optional (n := .original) (stable_and hknown stable_seenIf))
  intro guard
  apply meets_bind (does_optional (n := .proposed)
    (stable_and (stable_and hknown stable_seenIf) stable_seenIf))
  intro temporary
  cases target with
  | none =>
    apply meets_bind (meets_require fun _ _ => trivial)
    intro _
    apply meets_bind (Q := fun _ _ => True)
    · exact meets_mono (does_link stable_true (by decide) fun _ _ _ _ _ _ => trivial)
        (fun _ _ => trivial) (fun _ _ h => h) fun _ _ h => h
    · exact fun _ => does_fsync stable_true
  | some t =>
    have hskill : Stable (SeenIf env .skill (some t)) := stable_seenIf
    have horiginal : Stable (SeenIf env .original guard) := stable_seenIf
    have hproposed : Stable (SeenIf env .proposed temporary) := stable_seenIf
    have hread := stable_and (stable_and (stable_and hknown hskill) horiginal) hproposed
    apply meets_bind (targetIsOriginal_keeps hread)
    intro isOriginal
    apply meets_bind (targetIsProposed_keeps hread)
    intro isProposed
    cases isProposed with
    | true =>
      apply meets_bind (meets_require fun _ _ => trivial)
      intro _
      apply meets_pre withdrawProposed_keeps _
      rintro d ⟨⟨⟨⟨⟨⟨hd, hinstalled⟩, -⟩, -⟩, htemporary⟩, hproposed⟩, -⟩
      refine ⟨hd, ?_⟩
      rcases hproposed rfl with hsame | hsame
      · obtain ⟨file, rfl, hfile⟩ := map_eq_some_iff.mp hsame
        have hseen : SeenFile env .proposed file d := htemporary
        exact hfile ▸ hseen.own rfl
      · exact hinstalled t.1 hsame
    | false =>
      apply meets_post (meets_require fun _ _ => trivial) _
      exact fun _ _ _ => trivial

theorem cleanup_keeps {n : EntryName} {sha : String} (hP : Stable P) (hn : n ≠ .skill)
    (hput : ∀ d, P d → P (d.put n none)) (hsafe : ∀ d v, Sound env d → d.entries n = some v →
      env.sha256Hex (d.files v).content = sha → Goes env v d) :
    Does env P (cleanupNamedRecoveryFile env n sha) fun _ d => P d ∧ Names n none d := by
  apply meets_bind (does_optional (n := n) hP)
  intro observed
  cases observed with
  | none => exact meets_pure fun d hd => ⟨hd.1, hd.2 hn⟩
  | some file =>
    apply meets_bind (meets_require fun _ _ => trivial)
    intro _
    have hknown : Stable fun d => (P d ∧ SeenIf env n (some file) d) ∧ env.sha256Hex file.2 = sha :=
      stable_and (stable_and hP stable_seenIf) fun _ _ h _ => h
    apply does_unlink hknown hn
    · rintro d v hsound ⟨⟨-, hseen⟩, hsha⟩ hv
      have hseen : SeenFile env n file d := hseen
      obtain rfl := some.inj (hv.symm.trans (hseen.names hn))
      exact safe_of_goes (hsafe d _ hsound hv (by rw [hseen.content]; exact hsha))
    · exact fun d hd => ⟨hput d hd.1.1, put_self⟩

theorem cleanupWitnesses_keeps (hP : Stable P)
    (hput : ∀ d n, n ≠ .displaced → P d → P (d.put n none)) :
    Does env P (cleanupWitnesses env) fun _ d => P d ∧ Names .original none d := by
  apply meets_bind (cleanup_keeps hP (by decide) (fun d => hput d _ (by decide)) ?_)
  · intro _
    apply meets_mono (cleanup_keeps (stable_and hP (stable_names (by decide))) (by decide) ?_ ?_)
      (fun _ h => h) (fun _ _ h => h.1) fun _ _ h => h
    · exact fun d hd => ⟨hput d _ (by decide) hd.1, (put_other (by decide)).trans hd.2⟩
    · exact fun d v hsound hv _ => ⟨hsound.linked_lt _ v hv, Or.inl (hsound.own v hv)⟩
  · exact fun d v hsound hv hsha => ⟨hsound.linked_lt _ v hv, Or.inr (Or.inl hsha)⟩

theorem requireNoDisplaced_keeps (hP : Stable P) :
    Does env P (requireNoDisplaced env) fun _ d => P d ∧ Names .displaced none d := by
  apply meets_bind (does_optional (n := .displaced) hP)
  intro displaced
  apply meets_post (meets_require fun _ _ => trivial) _
  rintro _ d ⟨⟨hd, hseen⟩, rfl⟩
  exact ⟨hd, hseen (by decide)⟩

def Cleared (d : SkillDirectory) : Prop := Names .displaced none d ∧ Names .original none d

theorem stable_cleared : Stable Cleared := stable_and (stable_names (by decide)) (stable_names (by decide))

theorem recovery_keeps {phase : Phase} (hphase : phase ≠ .save) :
    Does env (fun _ => True) (phase.program env) fun _ => Cleared := by
  cases phase with
  | save => exact absurd rfl hphase
  | rollback =>
    apply meets_bind returnDisplaced_keeps
    intro _
    apply meets_bind settleTarget_keeps
    intro _
    apply meets_bind (cleanupWitnesses_keeps stable_true fun _ _ _ _ => trivial)
    intro _
    apply meets_bind (requireNoDisplaced_keeps (stable_and stable_true (stable_names (by decide))))
    intro _
    exact meets_pre (does_fsync stable_cleared) (fun d h => ⟨h.2, h.1.2⟩)
  | finalise =>
    apply meets_bind (Q := fun _ => Names .displaced none)
    · exact meets_post (requireNoDisplaced_keeps stable_true) (fun _ _ h => h.2)
    intro _
    apply meets_bind (cleanupWitnesses_keeps (stable_names (by decide)) ?_)
    · exact fun _ => does_fsync stable_cleared
    · exact fun d n hn h => (put_other (Ne.symm hn)).trans h
end

section
variable {env : SaveEnv} {d : SkillDirectory} {phase : Phase} {p : SkillProg Unit}

theorem sound_quiet (env : SaveEnv) (document : Option ℕ) (files : ℕ → SkillFile) (ino : ℕ → ℕ)
    (next : ℕ) : Sound env (.quiet document files ino next) := by
  have hlt : ∀ v, document.filter (· < next) = some v → v < next := fun v hv =>
    of_decide_eq_true (filter_eq_some_iff.mp hv).2
  refine ⟨fun v hv => ?_, fun v hv => hlt v (mem_toList.mp hv), fun n v hv => ?_,
    fun v hv => ?_, fun v hv => ?_⟩
  · exact Or.inl ⟨.skill, mem_toList.mp hv⟩
  · cases n with
    | skill => exact hlt v hv
    | _ => cases hv
  · cases hv
  · cases hv

theorem saveRule_preorder : (saveRule env).Preorder := ⟨outside_refl, outside_trans⟩

theorem run_sound {document : Option ℕ} {files : ℕ → SkillFile} {ino : ℕ → ℕ} {next : ℕ}
    (h : Run env Trusted (.quiet document files ino next) d phase p) : Sound env d ∧
      wp (saveRule env) p (fun _ d => phase ≠ .save → Cleared d) (fun _ _ => True) d := by
  have hstable : ∀ phase : Phase, Stable fun d => phase ≠ .save → Cleared d :=
    fun _ d d' h hout hphase => stable_cleared d d' (h hphase) hout
  induction h with
  | start =>
    refine ⟨sound_quiet env document files ino next, ?_⟩
    exact wp_mono _ (atomicReplace_keeps _ rfl) (fun _ _ _ h => absurd rfl h) fun _ _ h => h
  | @place d phase p file number _ _ ih =>
    refine ⟨sound_place ih.1 file number, ?_⟩
    exact wp_rely _ saveRule_preorder ih.2 (outside_place file number d)
      (fun _ d d' hout h => hstable phase d d' h hout) fun _ _ _ _ _ => trivial
  | @access d phase β l f k hl _ ih =>
    have hstep := ih.2
    unfold wp at hstep
    obtain ⟨hsound, -, hrest⟩ := hstep d ih.1 (outside_refl d) hl
    exact ⟨hsound, hrest⟩
  | @input d phase β i k b _ ih =>
    have hstep := ih.2
    unfold wp at hstep
    exact ⟨ih.1, hstep b⟩
  | @recover d phase p next hnext _ ih =>
    exact ⟨ih.1, wp_mono _ (recovery_keeps hnext d trivial) (fun _ _ h _ => h) fun _ _ h => h⟩

/-- In every run in which no trusted number was taken over by a second file, every version that an
external process put in place has a name, unless the caller expected its content or a later external
rename took its place; once a recovery has returned, that name is `SKILL.md`. -/
theorem foreign_versions_kept (env : SaveEnv) (document : Option ℕ) (files : ℕ → SkillFile)
    (ino : ℕ → ℕ) (next : ℕ) :
    ∀ d phase p, Run env Trusted (.quiet document files ino next) d phase p →
      ∀ v ∈ d.placed, env.sha256Hex (d.files v).content = env.expectedSha256 ∨ v ∈ d.replaced ∨
        d.entries .skill = some v ∨
          (d.entries .original = some v ∨ d.entries .displaced = some v) ∧
            (phase ≠ .save → p ≠ .pure ()) := by
  intro d phase p h v hv
  obtain ⟨hsound, hwp⟩ := run_sound h
  rcases hsound.kept v hv with ⟨n, hn⟩ | hplaced | hsha | hreplaced
  · -- a recovery that has returned has cleared the other names
    have hcleared : n ≠ .skill → n ≠ .proposed → phase ≠ .save → p ≠ .pure () := by
      rintro hskill hproposed hphase rfl
      rw [wp_pure] at hwp
      obtain ⟨hdisplaced, horiginal⟩ := hwp hphase
      cases n with
      | skill => exact hskill rfl
      | proposed => exact hproposed rfl
      | original => cases horiginal.symm.trans hn
      | displaced => cases hdisplaced.symm.trans hn
    cases n with
    | skill => exact Or.inr (Or.inr (Or.inl hn))
    | proposed => exact absurd hv (hsound.own v hn)
    | original => exact Or.inr (Or.inr (Or.inr ⟨Or.inl hn, hcleared (by decide) (by decide)⟩))
    | displaced => exact Or.inr (Or.inr (Or.inr ⟨Or.inr hn, hcleared (by decide) (by decide)⟩))
  · exact absurd hv hplaced
  · exact Or.inl hsha
  · exact Or.inr (Or.inl hreplaced)

theorem run_playWhile {assume : SaveAccess → SkillDirectory → Prop}
    {ok : SaveAccess → SkillDirectory → Bool} (hok : ∀ l d, ok l d = true → assume l d)
    {start : SkillDirectory} (h : Run env assume start d phase p) (n : ℕ) (ins : List ℕ) :
    Run env assume start (playWhile ok n ins p d).2 phase (playWhile ok n ins p d).1 := by
  induction n generalizing ins d p with
  | zero => cases p <;> exact h
  | succ n ih =>
    cases p with
    | pure a => exact h
    | fail e => exact h
    | act l f k =>
      unfold playWhile
      split
      next hl => exact ih (.access (hok l d hl) h) ins
      next => exact h
    | choose input k =>
      cases ins with
      | nil => exact h
      | cons i ins => exact ih (.input (input.decode i) h) ins

instance : ∀ l d, Decidable (Trusted l d)
  | .call, _ => inferInstanceAs (Decidable True)
  | .identity v w, d => inferInstanceAs (Decidable (d.ino v = d.ino w → v = w))

def trusted (l : SaveAccess) (d : SkillDirectory) : Bool := decide (Trusted l d)

def sampleSave : SaveEnv where
  sha256Hex content := String.ofList (content.map fun b => Char.ofNat (b.toNat + 97))
  maxContentBytes := 64
  expectedSha256 := "b"
  data := [7]

def sampleStart : SkillDirectory := .quiet (some 0) (fun _ => ⟨true, [1], 0⟩) id 1

def foreignFile : SkillFile := ⟨true, [9], 0⟩

def interrupted : SkillProg Unit × SkillDirectory :=
  let checked := playWhile trusted 30 (List.replicate 30 1) (atomicReplace sampleSave) sampleStart
  playWhile trusted 2 [1] checked.1 (checked.2.place foreignFile 2)

def recovered : SkillProg Unit × SkillDirectory :=
  playWhile trusted 80 (List.replicate 80 1) (rollbackSaveIntent sampleSave) interrupted.2

/-- The foreign version was displaced; the recovery puts it back. -/
theorem displaced_version_returned :
    Run sampleSave Trusted sampleStart recovered.2 .rollback recovered.1 ∧
    interrupted.2.entries .displaced = some 2 ∧ recovered.1.value? = some () ∧
    (sampleSave.sha256Hex (recovered.2.files 2).content = sampleSave.expectedSha256 ∨
      2 ∈ recovered.2.replaced ∨ recovered.2.entries .skill = some 2 ∨
        (recovered.2.entries .original = some 2 ∨ recovered.2.entries .displaced = some 2) ∧
          (Phase.rollback ≠ .save → recovered.1 ≠ .pure ())) := by
  have hok : ∀ l d, trusted l d = true → Trusted l d := fun _ _ => of_decide_eq_true
  have hstart : Run sampleSave Trusted sampleStart sampleStart .save (Phase.save.program sampleSave) :=
    .start
  have hchecked := run_playWhile hok hstart 30 (List.replicate 30 1)
  have hrun : Run sampleSave Trusted sampleStart recovered.2 .rollback recovered.1 := by
    apply run_playWhile hok (.recover .rollback (by decide) _)
    · exact .save
    · exact interrupted.1
    · exact run_playWhile hok (.place _ (by decide +kernel) hchecked) _ _
  have hplayed : interrupted.2.entries .displaced = some 2 ∧ recovered.1.value? = some () ∧
      2 ∈ recovered.2.placed := by
    decide +kernel
  obtain ⟨hdisplaced, hreturned, hplaced⟩ := hplayed
  exact ⟨hrun, hdisplaced, hreturned,
    foreign_versions_kept sampleSave (some 0) _ _ 1 _ _ _ hrun 2 hplaced⟩

def untrusted (_ : SaveAccess) (_ : SkillDirectory) : Bool := true

def saved : SkillProg Unit × SkillDirectory :=
  playWhile untrusted 80 (List.replicate 80 1) (atomicReplace sampleSave) sampleStart

def targetSeen : SkillProg Unit × SkillDirectory :=
  playWhile untrusted 28 (List.replicate 28 1) (rollbackSaveIntent sampleSave) saved.2

/-- Two external renames before the one of the rollback: the second file has the installed number. -/
def renumbered : SkillDirectory := (targetSeen.2.place foreignFile 7).place foreignFile 1

def withdrawn : SkillProg Unit × SkillDirectory :=
  playWhile untrusted 80 (List.replicate 80 1) targetSeen.1 renumbered

/-- A rollback takes a foreign file with the number of the installed one for that file: it unlinks it
and returns. -/
theorem reused_number_unlinked :
    Run sampleSave (fun _ _ => True) sampleStart withdrawn.2 .rollback withdrawn.1 ∧
      withdrawn.1.value? = some () ∧ 3 ∈ withdrawn.2.placed ∧ 3 ∉ withdrawn.2.replaced ∧
        sampleSave.sha256Hex (withdrawn.2.files 3).content ≠ sampleSave.expectedSha256 ∧
          withdrawn.2.links 3 = 0 := by
  have hok : ∀ l d, untrusted l d = true → True := fun _ _ _ => trivial
  refine ⟨?_, by decide +kernel⟩
  apply run_playWhile hok (.place _ (by decide +kernel) (.place _ (by decide +kernel) _))
  apply run_playWhile hok (.recover .rollback (by decide) _)
  · exact .save
  · exact saved.1
  · exact run_playWhile hok .start _ _
end

end RaytSystem.SkillAuthoring
