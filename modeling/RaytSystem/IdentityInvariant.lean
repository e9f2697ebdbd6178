import RaytSystem.DocumentIdentity

/-! What the identity records of a workspace keep, and what the index makes of them. -/
namespace RaytSystem.Identity
open RecordTable

variable {env : IdentityEnv}

section
variable {t t' : Table Path IdentityRecord}

def ActiveAt (t : Table Path IdentityRecord) (p : Path) (d : DocumentId) : Prop :=
  ∃ revision payload, head t p = some ⟨revision, ⟨.active, payload⟩⟩ ∧ payload.documentId = d

def MovedAt (t : Table Path IdentityRecord) (p : Path) : Prop :=
  ∃ revision payload, head t p = some ⟨revision, ⟨.moved, payload⟩⟩

structure SoundIdentities (env : IdentityEnv) (t : Table Path IdentityRecord) : Prop where
  visible : ∀ p h, head t p = some h → env.visible p = true
  origin : ∀ p h, head t p = some h →
    ∃ r o, h.value.payload.documentId = env.deriveDocument r o ∧ head t o ≠ none
  distinct : ∀ p q d, ActiveAt t p d → ActiveAt t q d → p = q

structure Grows (t t' : Table Path IdentityRecord) : Prop where
  kept : ∀ p h, head t p = some h → head t' p = some h
  active : ∀ p h, head t' p = some h → head t p = some h ∨ h.value.state = .active

theorem grows_refl (t : Table Path IdentityRecord) : Grows t t :=
  ⟨fun _ _ h => h, fun _ _ h => Or.inl h⟩

theorem Grows.trans {t'' : Table Path IdentityRecord} (h : Grows t t') (h' : Grows t' t'') :
    Grows t t'' where
  kept p r hr := h'.kept p r (h.kept p r hr)
  active p r hr := by
    rcases h'.active p r hr with hr' | hr'
    · exact h.active p r hr'
    · exact Or.inr hr'

variable {p : Path} {d : DocumentId}

theorem Grows.activeAt (h : Grows t t') (hp : ActiveAt t p d) : ActiveAt t' p d := by
  obtain ⟨revision, payload, hhead, hd⟩ := hp
  exact ⟨revision, payload, h.kept p _ hhead, hd⟩

theorem Grows.not_movedAt (h : Grows t t') (hp : ¬MovedAt t p) : ¬MovedAt t' p := by
  rintro ⟨revision, payload, hhead⟩
  rcases h.active p _ hhead with hold | hactive
  · exact hp ⟨revision, payload, hold⟩
  · cases hactive

theorem activeAt_unique {d d' : DocumentId} (h : ActiveAt t p d) (h' : ActiveAt t p d') :
    d = d' := by
  obtain ⟨revision, payload, hhead, rfl⟩ := h
  obtain ⟨revision', payload', hhead', rfl⟩ := h'
  rw [hhead] at hhead'
  cases hhead'
  rfl

theorem not_movedAt_of_activeAt (h : ActiveAt t p d) : ¬MovedAt t p := by
  rintro ⟨revision, payload, hhead⟩
  obtain ⟨revision', payload', hhead', -⟩ := h
  rw [hhead] at hhead'
  cases hhead'

theorem not_movedAt_of_head (h : head t p = none) : ¬MovedAt t p := by
  rintro ⟨revision, payload, hhead⟩
  rw [h] at hhead
  cases hhead

theorem identityForPath_of_activeAt (h : SoundIdentities env t) (hp : ActiveAt t p d) :
    ∃ firstSeen, identityForPath env t p = some (d, firstSeen) := by
  obtain ⟨revision, payload, hhead, rfl⟩ := hp
  obtain ⟨r, o, horigin, -⟩ := h.origin p _ hhead
  have hpublic : env.publicId payload.documentId = true := by
    rw [horigin]
    exact env.derive_public r o
  refine ⟨payload.firstSeenAt, ?_⟩
  simp [identityForPath, hhead, hpublic, h.visible p _ hhead]

theorem activeAt_of_identityForPath {firstSeen : Time}
    (h : identityForPath env t p = some (d, firstSeen)) : ActiveAt t p d := by
  unfold identityForPath at h
  split at h
  next revision record hhead =>
    split at h
    next hactive =>
      obtain ⟨state, payload⟩ := record
      obtain rfl : state = .active := hactive.1
      exact ⟨revision, payload, hhead, (Prod.mk.inj (Option.some.inj h)).1⟩
    next => cases h
  next => cases h

theorem movedAt_or_none (h : SoundIdentities env t) (hp : identityForPath env t p = none) :
    MovedAt t p ∨ head t p = none := by
  cases hhead : head t p with
  | none => exact Or.inr rfl
  | some stored =>
    obtain ⟨revision, state, payload⟩ := stored
    cases state with
    | moved => exact Or.inl ⟨revision, payload, hhead⟩
    | active =>
      obtain ⟨firstSeen, hsome⟩ := identityForPath_of_activeAt h ⟨revision, payload, hhead, rfl⟩
      rw [hsome] at hp
      cases hp

theorem activeAt_push {payload : IdentityPayload} {q : Path} :
    ActiveAt (push t p ⟨.active, payload⟩) q d ↔
      q = p ∧ payload.documentId = d ∨ q ≠ p ∧ ActiveAt t q d := by
  by_cases hq : q = p
  · subst hq
    simp [ActiveAt, head_push]
  · simp [ActiveAt, head_push_other t _ hq, hq]

theorem grows_push (hp : head t p = none) (payload : IdentityPayload) :
    Grows t (push t p ⟨.active, payload⟩) where
  kept q h hq := by
    have hne : q ≠ p := by
      rintro rfl
      rw [hp] at hq
      cases hq
    rwa [head_push_other t _ hne]
  active q h hq := by
    by_cases hne : q = p
    · subst hne
      rw [head_push] at hq
      cases hq
      exact Or.inr rfl
    · rw [head_push_other t _ hne] at hq
      exact Or.inl hq

theorem head_push_ne_none {p q : Path} {record : IdentityRecord} (h : head t q ≠ none) :
    head (push t p record) q ≠ none := by
  by_cases hq : q = p
  · subst hq
    simp [head_push]
  · rwa [head_push_other t _ hq]

theorem sound_push (h : SoundIdentities env t) (hp : head t p = none)
    (hvisible : env.visible p = true) (payload : IdentityPayload)
    (hid : payload.documentId = env.derived p) :
    SoundIdentities env (push t p ⟨.active, payload⟩) := by
  have hfresh : ∀ q, ¬ActiveAt t q payload.documentId := by
    rintro q ⟨revision, payload', hhead, hd⟩
    obtain ⟨r, o, horigin, ho⟩ := h.origin q _ hhead
    have hsame : env.deriveDocument r o = env.derived p := by
      rw [← horigin, ← hid]
      exact hd
    exact ho (env.derive_path _ _ _ _ hsame ▸ hp)
  refine ⟨fun q r hq => ?_, fun q r hq => ?_, fun q q' d hq hq' => ?_⟩
  · by_cases hne : q = p
    · exact hne ▸ hvisible
    · rw [head_push_other t _ hne] at hq
      exact h.visible q r hq
  · by_cases hne : q = p
    · subst hne
      rw [head_push] at hq
      cases hq
      exact ⟨_, q, hid, by simp [head_push]⟩
    · rw [head_push_other t _ hne] at hq
      obtain ⟨root, o, horigin, ho⟩ := h.origin q r hq
      exact ⟨root, o, horigin, head_push_ne_none ho⟩
  · rcases activeAt_push.mp hq with ⟨hqp, hqd⟩ | ⟨-, hold⟩
    · rcases activeAt_push.mp hq' with ⟨hqp', -⟩ | ⟨-, hold'⟩
      · exact hqp.trans hqp'.symm
      · exact absurd (hqd ▸ hold') (hfresh q')
    · rcases activeAt_push.mp hq' with ⟨-, hqd'⟩ | ⟨-, hold'⟩
      · exact absurd (hqd' ▸ hold) (hfresh q)
      · exact h.distinct q q' d hold hold'

theorem ensureIdentity_sound (h : SoundIdentities env t) (hvisible : env.visible p = true)
    (hmoved : ¬MovedAt t p) (documentId : Option DocumentId)
    (hid : ∀ d, documentId = some d → ActiveAt t p d ∨ head t p = none ∧ d = env.derived p)
    (now : Time) : ∃ d seen t', ensureIdentity env t p documentId now = .ok ((d, seen), t') ∧
      SoundIdentities env t' ∧ Grows t t' ∧ identityForPath env t' p = some (d, seen) ∧
      (∀ q, q ≠ p → head t' q = head t q) ∧
      (∀ d', documentId = some d' → d = d') ∧ (head t p = none → seen = now) := by
  cases hidentity : identityForPath env t p with
  | some existing =>
    have hactive := activeAt_of_identityForPath hidentity
    have hsame : ∀ d, documentId = some d → existing.1 = d := by
      intro d hd
      rcases hid d hd with hd' | ⟨hnone, -⟩
      · exact activeAt_unique hactive hd'
      · obtain ⟨revision, payload, hhead, -⟩ := hactive
        rw [hnone] at hhead
        cases hhead
    have hall : documentId.all (· = existing.1) = true := by
      cases documentId with
      | none => rfl
      | some d => simp [hsame d rfl]
    refine ⟨existing.1, existing.2, t, ?_, h, grows_refl t, hidentity, fun _ _ => rfl, hsame, ?_⟩
    · simp only [ensureIdentity, if_pos hvisible, hidentity, if_pos hall]
    · intro hnone
      obtain ⟨revision, payload, hhead, -⟩ := hactive
      rw [hnone] at hhead
      cases hhead
  | none =>
    have hnone := (movedAt_or_none h hidentity).resolve_left hmoved
    have hsafe : documentId.getD (env.derived p) = env.derived p := by
      cases documentId with
      | none => rfl
      | some d =>
        rcases hid d rfl with ⟨revision, payload, hhead, -⟩ | ⟨-, hd⟩
        · rw [hnone] at hhead
          cases hhead
        · exact hd
    let payload : IdentityPayload :=
      { documentId := env.derived p, relativePath := p, firstSeenAt := now }
    have happend : append t p none ⟨.active, payload⟩ = some (push t p ⟨.active, payload⟩) := by
      simp [append, hnone]
    have hsound := sound_push h hnone hvisible payload rfl
    have hpublic : env.publicId (env.derived p) = true := env.derive_public _ _
    refine ⟨env.derived p, now, _, ?_, hsound, grows_push hnone payload, ?_,
      fun q hq => head_push_other t _ hq, ?_, fun _ => rfl⟩
    · simp only [ensureIdentity, if_pos hvisible, hidentity, hsafe, if_pos hpublic]
      rw [happend]
    · simp [identityForPath, head_push, payload, hpublic, hvisible]
    · intro d hd
      rw [hd] at hsafe
      exact hsafe.symm

theorem moveIdentity_sound (h : SoundIdentities env t) {old new : Path} (hold : ActiveAt t old d)
    (hnew : head t new = none) (hvisible : env.visible new = true) :
    ∃ t', moveIdentity env t old new d = .ok t' ∧ SoundIdentities env t' ∧
      ActiveAt t' new d ∧ MovedAt t' old ∧
      ∀ q, q ≠ old → q ≠ new → head t' q = head t q := by
  obtain ⟨revision, payload, hhead, rfl⟩ := hold
  have hold : ActiveAt t old payload.documentId := ⟨revision, payload, hhead, rfl⟩
  have hne : old ≠ new := by
    rintro rfl
    rw [hhead] at hnew
    cases hnew
  have hnone : identityForPath env t new = none := by simp [identityForPath, hnew]
  have hvisibleOld := h.visible old _ hhead
  let away : IdentityRecord := ⟨.moved, {payload with movedTo := some new}⟩
  let arrived : IdentityPayload :=
    { documentId := payload.documentId, relativePath := new,
      firstSeenAt := payload.firstSeenAt, movedFrom := some old }
  have hheadOld : head (push (push t old away) new ⟨.active, arrived⟩) old =
      some ⟨(t old).length + 1, away⟩ := by
    rw [head_push_other _ _ hne, head_push]
  have hother : ∀ q, q ≠ old → q ≠ new →
      head (push (push t old away) new ⟨.active, arrived⟩) q = head t q := fun q hq hq' => by
    rw [head_push_other _ _ hq', head_push_other _ _ hq]
  have hactive : ∀ q d, ActiveAt (push (push t old away) new ⟨.active, arrived⟩) q d →
      q = new ∧ d = payload.documentId ∨ q ≠ old ∧ ActiveAt t q d := by
    intro q d hq
    rcases activeAt_push.mp hq with ⟨hq, hd⟩ | ⟨-, hq⟩
    · exact Or.inl ⟨hq, hd.symm⟩
    · refine Or.inr ⟨?_, ?_⟩
      · rintro rfl
        obtain ⟨revision', payload', hhead', -⟩ := hq
        rw [head_push] at hhead'
        simp [away] at hhead'
      · obtain ⟨revision', payload', hhead', hd⟩ := hq
        by_cases hqo : q = old
        · subst hqo
          rw [head_push] at hhead'
          simp [away] at hhead'
        · rw [head_push_other _ _ hqo] at hhead'
          exact ⟨revision', payload', hhead', hd⟩
  have hgrown : ∀ o, head t o ≠ none →
      head (push (push t old away) new ⟨.active, arrived⟩) o ≠ none :=
    fun o ho => head_push_ne_none (head_push_ne_none ho)
  refine ⟨push (push t old away) new ⟨.active, arrived⟩, ?_, ⟨?_, ?_, ?_⟩, ?_, ?_, hother⟩
  · simp [moveIdentity, hvisibleOld, hvisible, hnone, hhead, hnew, away, arrived]
  · intro q r hq
    by_cases hqn : q = new
    · exact hqn ▸ hvisible
    · by_cases hqo : q = old
      · exact hqo ▸ hvisibleOld
      · exact h.visible q r (hother q hqo hqn ▸ hq)
  · intro q r hq
    obtain ⟨root, o, horigin, ho⟩ := h.origin old _ hhead
    by_cases hqn : q = new
    · subst hqn
      rw [head_push] at hq
      cases hq
      exact ⟨root, o, horigin, hgrown o ho⟩
    · by_cases hqo : q = old
      · subst hqo
        rw [hheadOld] at hq
        cases hq
        exact ⟨root, o, horigin, hgrown o ho⟩
      · obtain ⟨root', o', horigin', ho'⟩ := h.origin q r (hother q hqo hqn ▸ hq)
        exact ⟨root', o', horigin', hgrown o' ho'⟩
  · intro q q' d hq hq'
    rcases hactive q d hq with ⟨hq, hd⟩ | ⟨hqo, hq⟩
    · rcases hactive q' d hq' with ⟨hq', -⟩ | ⟨hqo', hq'⟩
      · exact hq.trans hq'.symm
      · exact absurd (h.distinct q' old d hq' (hd ▸ hold)) hqo'
    · rcases hactive q' d hq' with ⟨-, hd'⟩ | ⟨-, hq'⟩
      · exact absurd (h.distinct q old d hq (hd' ▸ hold)) hqo
      · exact h.distinct q q' d hq hq'
  · exact activeAt_push.mpr (Or.inl ⟨rfl, rfl⟩)
  · exact ⟨_, _, hheadOld⟩
end

end RaytSystem.Identity
