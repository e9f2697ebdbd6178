import RaytSystem.ControlLease

namespace RaytSystem.Control

def LeaseRow.Advances (row row' : LeaseRow) : Prop :=
  row.fencingToken < row'.fencingToken ∨
    (row'.fencingToken = row.fencingToken ∧
      (row'.ownerRunId = row.ownerRunId ∨ row'.ownerRunId = none))

def LeaseTable.Advances (t t' : LeaseTable) : Prop :=
  ∀ p row, t.row p = some row → ∃ row', t'.row p = some row' ∧ row.Advances row'

theorem row_advances_refl (row : LeaseRow) : row.Advances row := Or.inr ⟨rfl, Or.inl rfl⟩

theorem row_advances_trans {a b c : LeaseRow} (hab : a.Advances b) (hbc : b.Advances c) :
    a.Advances c := by
  rcases hab with hab | ⟨hf, ho⟩
  · rcases hbc with hbc | ⟨hf', _⟩
    · exact Or.inl (Nat.lt_trans hab hbc)
    · exact Or.inl (hf' ▸ hab)
  · rcases hbc with hbc | ⟨hf', ho'⟩
    · exact Or.inl (hf ▸ hbc)
    · refine Or.inr ⟨hf'.trans hf, ?_⟩
      rcases ho' with ho' | ho'
      · rcases ho with ho | ho
        · exact Or.inl (ho'.trans ho)
        · exact Or.inr (ho'.trans ho)
      · exact Or.inr ho'

theorem advances_refl (t : LeaseTable) : t.Advances t :=
  fun _ row h => ⟨row, h, row_advances_refl row⟩

theorem advances_trans {a b c : LeaseTable} (hab : a.Advances b) (hbc : b.Advances c) :
    a.Advances c := by
  intro p row h
  obtain ⟨row', h', hr⟩ := hab p row h
  obtain ⟨row'', h'', hr'⟩ := hbc p row' h'
  exact ⟨row'', h'', row_advances_trans hr hr'⟩

theorem put_advances (t : LeaseTable) (p : String) (r : LeaseRow)
    (h : ∀ row, t.row p = some row → row.Advances r) : t.Advances (t.put p r) := by
  intro q row hq
  by_cases hqp : q = p
  · subst hqp
    exact ⟨r, by simp [LeaseTable.put_row], h row hq⟩
  · exact ⟨row, by simp [LeaseTable.put_row, hqp, hq], row_advances_refl row⟩

variable {lease : LeaseToken} {row : LeaseRow}

theorem extendRow_advances {t : LeaseTable} (h : t.row lease.partitionKey = some row)
    (expiresAtMs nowMs : Int) : t.Advances (extendRow t lease row expiresAtMs nowMs) := by
  apply put_advances
  intro row' h'
  obtain rfl : row' = row := by simpa [h] using h'.symm
  exact Or.inr ⟨rfl, Or.inl rfl⟩

variable {t t' : LeaseTable} {p owner : String} {ttl now : Int}

/-- The four outcomes of an acquisition that does not raise: the partition was
new, its live owner re-entered, it was free, or its lease had expired. -/
theorem acquireLease_cases (h : acquireLease t p owner ttl now = .ok (lease, t')) :
    lease.partitionKey = p ∧ lease.ownerRunId = owner ∧ lease.controlEpoch = t.controlEpoch ∧
      t' = t.put p ⟨t.controlEpoch, some owner, lease.fencingToken, now + ttl, now⟩ ∧
      ((t.row p = none ∧ lease.fencingToken = 1) ∨
        ∃ row, t.row p = some row ∧
          ((row.ownerRunId = some owner ∧ now < row.expiresAtMs ∧
              lease.fencingToken = row.fencingToken) ∨
            ((row.ownerRunId = none ∨ row.expiresAtMs ≤ now) ∧
              lease.fencingToken = row.fencingToken + 1))) := by
  unfold acquireLease at h
  split at h
  · cases h
  · split at h
    next hrow =>
      cases h
      exact ⟨rfl, rfl, rfl, rfl, Or.inl ⟨hrow, rfl⟩⟩
    next row hrow =>
      split at h
      next hlive =>
        cases h
        exact ⟨rfl, rfl, rfl, rfl, Or.inr ⟨row, hrow, Or.inl ⟨hlive.1, hlive.2, rfl⟩⟩⟩
      next =>
        split at h
        next hfree =>
          cases h
          exact ⟨rfl, rfl, rfl, rfl, Or.inr ⟨row, hrow, Or.inr ⟨hfree, rfl⟩⟩⟩
        next => cases h

theorem acquireLease_advances (h : acquireLease t p owner ttl now = .ok (lease, t')) :
    t.Advances t' := by
  obtain ⟨_, _, _, rfl, hcase⟩ := acquireLease_cases h
  apply put_advances
  intro row hrow
  rcases hcase with ⟨hnone, _⟩ | ⟨row', hrow', hcase⟩
  · simp [hnone] at hrow
  · obtain rfl : row = row' := by simpa [hrow] using hrow'
    rcases hcase with ⟨ho, _, hf⟩ | ⟨_, hf⟩
    · exact Or.inr ⟨hf, Or.inl ho.symm⟩
    · exact Or.inl (by simp [hf])

theorem renewLease_cases {lease lease' : LeaseToken}
    (h : renewLease t lease ttl now = .ok (lease', t')) :
    ∃ row, t.row lease.partitionKey = some row ∧ lease.owns row = true ∧
      now < row.expiresAtMs ∧ t' = extendRow t lease row (now + ttl) now := by
  unfold renewLease at h
  split at h
  · cases h
  · split at h
    · cases h
    next row hrow =>
      split at h
      next hv =>
        cases h
        obtain ⟨ho, he⟩ := Bool.and_eq_true_iff.mp hv
        exact ⟨row, hrow, ho, of_decide_eq_true he, rfl⟩
      next => cases h

def OwnedOnTheWay (t : LeaseTable) (leases : List LeaseToken) : Prop :=
  ∀ lease ∈ leases, ∃ row t₁, t.Advances t₁ ∧
    t₁.row lease.partitionKey = some row ∧ lease.owns row = true

theorem ownedOnTheWay_cons {rest : List LeaseToken} (hrow : t.row lease.partitionKey = some row)
    (ho : lease.owns row = true) (hadv : t.Advances t') (hrest : OwnedOnTheWay t' rest) :
    OwnedOnTheWay t (lease :: rest) := by
  intro l hl
  rcases List.mem_cons.mp hl with rfl | hl
  · exact ⟨row, t, advances_refl t, hrow, ho⟩
  · obtain ⟨row', t₁, ht₁, hrow', ho'⟩ := hrest l hl
    exact ⟨row', t₁, advances_trans hadv ht₁, hrow', ho'⟩

theorem holdOne_advances {t : LeaseTable} (h : t.row lease.partitionKey = some row) (now : Int)
    (ttl : Option Int) : t.Advances (holdOne t lease row now ttl).2 := by
  cases ttl with
  | none => exact advances_refl t
  | some ttl => exact extendRow_advances h _ _

variable {leases renewed : List LeaseToken}

theorem holdEach_spec {now : Int} {ttl : Option Int}
    (h : holdEach now ttl leases t = .ok (renewed, t')) :
    t.Advances t' ∧ OwnedOnTheWay t leases := by
  induction leases generalizing t renewed with
  | nil =>
    cases h
    exact ⟨advances_refl _, by simp [OwnedOnTheWay]⟩
  | cons lease rest ih =>
    unfold holdEach at h
    split at h
    · cases h
    next row hrow =>
      split at h
      next hv =>
        have hadv := holdOne_advances hrow now ttl
        simp only at h
        split at h
        next rs t₂ hrest =>
          cases h
          obtain ⟨hadv', hall⟩ := ih hrest
          have ho := (Bool.and_eq_true_iff.mp hv).1
          exact ⟨advances_trans hadv hadv', ownedOnTheWay_cons hrow ho hadv hall⟩
        next => cases h
      next => cases h

theorem holdValidLeases_spec {now : Int} {ttl : Option Int}
    (h : holdValidLeases t leases now ttl = .ok (renewed, t')) :
    t.Advances t' ∧ OwnedOnTheWay t leases := by
  unfold holdValidLeases at h
  split at h
  · cases h
  · split at h
    · cases h
    · exact holdEach_spec h

theorem renewEach_spec (h : renewEach ttl now leases t = .ok (renewed, t')) :
    t.Advances t' ∧ OwnedOnTheWay t leases := by
  induction leases generalizing t renewed with
  | nil =>
    cases h
    exact ⟨advances_refl _, by simp [OwnedOnTheWay]⟩
  | cons lease rest ih =>
    unfold renewEach at h
    split at h
    · cases h
    next row hrow =>
      split at h
      next ho =>
        have hadv := extendRow_advances hrow (now + ttl) now
        split at h
        next rs t₂ hrest =>
          cases h
          obtain ⟨hadv', hall⟩ := ih hrest
          exact ⟨advances_trans hadv hadv', ownedOnTheWay_cons hrow ho hadv hall⟩
        next => cases h
      next => cases h

theorem renewHeldLeases_spec (h : renewHeldLeases t leases ttl now = .ok (renewed, t')) :
    t.Advances t' ∧ OwnedOnTheWay t leases := by
  unfold renewHeldLeases at h
  split at h
  · cases h
  · exact renewEach_spec h

theorem holdBody_advances {body : List HeldRenewal} (h : holdBody body t = .ok t') :
    t.Advances t' := by
  induction body generalizing t with
  | nil =>
    cases h
    exact advances_refl _
  | cons r rest ih =>
    unfold holdBody at h
    split at h
    next hr => exact advances_trans (renewHeldLeases_spec hr).1 (ih h)
    next => cases h

theorem releaseLease_advances (t : LeaseTable) (lease : LeaseToken) :
    t.Advances (releaseLease t lease).2 := by
  unfold releaseLease
  split
  · exact advances_refl t
  next row hrow =>
    split
    · apply put_advances
      intro row' h'
      obtain rfl : row' = row := by simpa [hrow] using h'.symm
      exact Or.inr ⟨rfl, Or.inr rfl⟩
    · exact advances_refl t

theorem step_advances (t : LeaseTable) (call : LeaseCall) : t.Advances (call.step t) := by
  cases call with
  | acquire p owner ttl now =>
    simp only [LeaseCall.step]
    split
    next h => exact acquireLease_advances h
    next => exact advances_refl t
  | renew lease ttl now =>
    simp only [LeaseCall.step]
    split
    next h =>
      obtain ⟨row, hrow, _, _, rfl⟩ := renewLease_cases h
      exact extendRow_advances hrow _ _
    next => exact advances_refl t
  | hold leases now ttl body bodyRaises =>
    simp only [LeaseCall.step]
    split
    next h =>
      split
      next hb =>
        split
        · exact advances_refl t
        · exact advances_trans (holdValidLeases_spec h).1 (holdBody_advances hb)
      next => exact advances_refl t
    next => exact advances_refl t
  | release lease => exact releaseLease_advances t lease

theorem run_advances (t : LeaseTable) (calls : List LeaseCall) : t.Advances (run t calls) := by
  induction calls generalizing t with
  | nil => exact advances_refl t
  | cons call rest ih => exact advances_trans (step_advances t call) (ih (call.step t))

def Dead (t : LeaseTable) (lease : LeaseToken) : Prop :=
  ∃ row, t.row lease.partitionKey = some row ∧
    (lease.fencingToken < row.fencingToken ∨
      (row.fencingToken = lease.fencingToken ∧ row.ownerRunId ≠ some lease.ownerRunId))

theorem dead_advances (hd : Dead t lease) (hadv : t.Advances t') : Dead t' lease := by
  obtain ⟨row, hrow, hd⟩ := hd
  obtain ⟨row', hrow', hr⟩ := hadv _ row hrow
  refine ⟨row', hrow', ?_⟩
  rcases hd with hlt | ⟨heq, hne⟩
  · rcases hr with hr | ⟨hf, _⟩
    · exact Or.inl (Nat.lt_trans hlt hr)
    · exact Or.inl (hf ▸ hlt)
  · rcases hr with hr | ⟨hf, ho⟩
    · exact Or.inl (heq ▸ hr)
    · refine Or.inr ⟨hf.trans heq, ?_⟩
      rcases ho with ho | ho
      · exact ho ▸ hne
      · simp [ho]

theorem owns_iff (lease : LeaseToken) (row : LeaseRow) :
    lease.owns row = true ↔ row.controlEpoch = lease.controlEpoch ∧
      row.ownerRunId = some lease.ownerRunId ∧ row.fencingToken = lease.fencingToken := by
  simp [LeaseToken.owns, and_assoc]

theorem dead_not_owns {t : LeaseTable} (hd : Dead t lease)
    (hrow : t.row lease.partitionKey = some row) : lease.owns row = false := by
  obtain ⟨row', hrow', hd⟩ := hd
  obtain rfl : row = row' := by simpa [hrow] using hrow'
  by_contra h
  obtain ⟨_, ho, hf⟩ := (owns_iff lease row).mp (by simpa using h)
  rcases hd with hlt | ⟨_, hne⟩
  · omega
  · exact hne ho

theorem verifyLease_owns {t : LeaseTable} {now : Int} (h : verifyLease t lease now = true) :
    ∃ row, t.row lease.partitionKey = some row ∧ lease.owns row = true ∧
      now < row.expiresAtMs := by
  unfold verifyLease at h
  split at h
  · cases h
  next row hrow =>
    obtain ⟨ho, he⟩ := Bool.and_eq_true_iff.mp h
    exact ⟨row, hrow, ho, of_decide_eq_true he⟩

theorem dead_not_verified {t : LeaseTable} (hd : Dead t lease) (now : Int) :
    verifyLease t lease now = false := by
  by_contra h
  obtain ⟨row, hrow, ho, _⟩ := verifyLease_owns (by simpa using h)
  rw [dead_not_owns hd hrow] at ho
  cases ho

theorem dead_not_renewed {t : LeaseTable} (hd : Dead t lease) (ttl now : Int) :
    ¬∃ r, renewLease t lease ttl now = .ok r := by
  rintro ⟨⟨lease', t'⟩, h⟩
  obtain ⟨row, hrow, ho, _⟩ := renewLease_cases h
  rw [dead_not_owns hd hrow] at ho
  cases ho

theorem dead_not_ownedOnTheWay {t : LeaseTable} (hd : Dead t lease) {leases : List LeaseToken}
    (hmem : lease ∈ leases) : ¬OwnedOnTheWay t leases := by
  intro hall
  obtain ⟨row, t₁, hadv, hrow, ho⟩ := hall lease hmem
  rw [dead_not_owns (dead_advances hd hadv) hrow] at ho
  cases ho

structure Unusable (t : LeaseTable) (lease : LeaseToken) : Prop where
  verify : ∀ now, verifyLease t lease now = false
  renew : ∀ ttl now, ¬∃ r, renewLease t lease ttl now = .ok r
  hold : ∀ leases, lease ∈ leases → ∀ now ttl, ¬∃ r, holdValidLeases t leases now ttl = .ok r
  renewHeld : ∀ leases, lease ∈ leases → ∀ ttl now,
    ¬∃ r, renewHeldLeases t leases ttl now = .ok r

theorem dead_unusable {t : LeaseTable} (hd : Dead t lease) : Unusable t lease where
  verify := dead_not_verified hd
  renew := dead_not_renewed hd
  hold := by
    rintro leases hmem now ttl ⟨⟨renewed, t'⟩, h⟩
    exact dead_not_ownedOnTheWay hd hmem (holdValidLeases_spec h).2
  renewHeld := by
    rintro leases hmem ttl now ⟨⟨renewed, t'⟩, h⟩
    exact dead_not_ownedOnTheWay hd hmem (renewHeldLeases_spec h).2

theorem releaseLease_dead {t : LeaseTable} (h : (releaseLease t lease).1 = true) :
    Dead (releaseLease t lease).2 lease := by
  unfold releaseLease at h ⊢
  split at h
  · cases h
  next row hrow =>
    split at h
    next ho =>
      rw [if_pos ho]
      refine ⟨_, LeaseTable.put_row _ _ _ _ |>.trans (if_pos rfl), Or.inr ⟨?_, nofun⟩⟩
      exact ((owns_iff lease row).mp ho).2.2
    next => cases h

theorem advances_fencing {row row' : LeaseRow} (h : row.Advances row') :
    row.fencingToken ≤ row'.fencingToken ∧
      ∀ owner, row'.ownerRunId = some owner → row.ownerRunId ≠ some owner →
        row.fencingToken < row'.fencingToken := by
  rcases h with hlt | ⟨hf, ho⟩
  · exact ⟨Nat.le_of_lt hlt, fun _ _ _ => hlt⟩
  · refine ⟨Nat.le_of_eq hf.symm, ?_⟩
    intro owner hnew hold
    rcases ho with ho | ho
    · exact absurd (ho.symm.trans hnew) hold
    · simp [ho] at hnew

/-- What an acquisition stores is what it returns: the row of the partition is the
owner's, under the returned token, until its own clock reading plus the time to
live. -/
theorem acquireLease_stored (h : acquireLease t p owner ttl now = .ok (lease, t')) :
    ∃ row', t'.row p = some row' ∧ lease.partitionKey = p ∧ lease.owns row' = true ∧
      row'.fencingToken = lease.fencingToken ∧ row'.expiresAtMs = now + ttl := by
  obtain ⟨hp, ho, he, rfl, _⟩ := acquireLease_cases h
  refine ⟨_, LeaseTable.put_row _ _ _ _ |>.trans (if_pos rfl), hp, ?_, rfl, rfl⟩
  exact (owns_iff lease _).mpr ⟨he.symm, congrArg some ho.symm, rfl⟩

theorem acquireLease_raises (h : acquireLease t p owner ttl now = .ok (lease, t'))
    (hrow : t.row p = some row) (hfree : row.ownerRunId ≠ some owner ∨ row.expiresAtMs ≤ now) :
    row.fencingToken < lease.fencingToken := by
  obtain ⟨_, _, _, _, ⟨hnone, _⟩ | ⟨row', hrow', hcase⟩⟩ := acquireLease_cases h
  · simp [hnone] at hrow
  · obtain rfl : row = row' := by simpa [hrow] using hrow'
    rcases hcase with ⟨ho, he, _⟩ | ⟨_, hf⟩
    · rcases hfree with hne | hle
      · exact absurd ho hne
      · omega
    · omega

theorem acquireLease_supersedes (h : acquireLease t p owner ttl now = .ok (lease, t'))
    (hrow : t.row p = some row) (hfree : row.ownerRunId ≠ some owner ∨ row.expiresAtMs ≤ now)
    {old : LeaseToken} (hp : old.partitionKey = p) (hle : old.fencingToken ≤ row.fencingToken) :
    Dead t' old := by
  have hlt := acquireLease_raises h hrow hfree
  obtain ⟨row', hrow', _, _, hf, _⟩ := acquireLease_stored h
  exact ⟨row', hp ▸ hrow', Or.inl (by omega)⟩

theorem verifyLease_unique {t : LeaseTable} {lease lease' : LeaseToken} {now now' : Int}
    (hp : lease.partitionKey = lease'.partitionKey) (h : verifyLease t lease now = true)
    (h' : verifyLease t lease' now' = true) :
    lease.ownerRunId = lease'.ownerRunId ∧ lease.fencingToken = lease'.fencingToken := by
  obtain ⟨row, hrow, ho, _⟩ := verifyLease_owns h
  obtain ⟨row', hrow', ho', _⟩ := verifyLease_owns h'
  obtain rfl : row = row' := by simpa [hp, hrow'] using hrow.symm
  obtain ⟨_, hown, hf⟩ := (owns_iff lease row).mp ho
  obtain ⟨_, hown', hf'⟩ := (owns_iff lease' row).mp ho'
  exact ⟨Option.some.inj (hown.symm.trans hown'), hf.symm.trans hf'⟩

/-- Fencing over every history of lease calls. Tokens grow, and grow strictly when
a partition changes hands, is taken again after a release, or is acquired by a
call that sees its lease expired; the stored row is then the new holder's, and
every token that the partition has given out before stays unusable. Two tokens of
one partition that verify at one moment, even by different clocks, are the same.
A superseded or released token stays unusable. -/
theorem lease_fencing (epoch : String) (before later : List LeaseCall) :
    let t := run (.empty epoch) before
    (∀ p row, t.row p = some row → ∃ row', (run t later).row p = some row' ∧
      row.fencingToken ≤ row'.fencingToken ∧
      ∀ owner, row'.ownerRunId = some owner → row.ownerRunId ≠ some owner →
        row.fencingToken < row'.fencingToken) ∧
    (∀ p owner ttl now lease t', acquireLease t p owner ttl now = .ok (lease, t') →
      ∃ row', t'.row p = some row' ∧ lease.partitionKey = p ∧ lease.owns row' = true ∧
        row'.fencingToken = lease.fencingToken ∧ row'.expiresAtMs = now + ttl ∧
        ∀ row, t.row p = some row → row.ownerRunId ≠ some owner ∨ row.expiresAtMs ≤ now →
          row.fencingToken < row'.fencingToken ∧
          ∀ old, old.partitionKey = p → old.fencingToken ≤ row.fencingToken →
            Unusable (run t' later) old) ∧
    (∀ lease lease' now now', lease.partitionKey = lease'.partitionKey →
      verifyLease t lease now = true → verifyLease t lease' now' = true →
      lease.ownerRunId = lease'.ownerRunId ∧ lease.fencingToken = lease'.fencingToken) ∧
    (∀ lease row, t.row lease.partitionKey = some row →
      lease.fencingToken < row.fencingToken → Unusable (run t later) lease) ∧
    (∀ lease, (releaseLease t lease).1 = true →
      Unusable (run (releaseLease t lease).2 later) lease) := by
  intro t
  refine ⟨?_, ?_, ?_, ?_, ?_⟩
  · intro p row hrow
    obtain ⟨row', hrow', hadv⟩ := run_advances t later p row hrow
    exact ⟨row', hrow', advances_fencing hadv⟩
  · intro p owner ttl now lease t' h
    obtain ⟨row', hrow', hp, hown, hf, hexp⟩ := acquireLease_stored h
    refine ⟨row', hrow', hp, hown, hf, hexp, ?_⟩
    intro row hrow hfree
    refine ⟨hf ▸ acquireLease_raises h hrow hfree, ?_⟩
    intro old hold hle
    have hdead := acquireLease_supersedes h hrow hfree hold hle
    exact dead_unusable (dead_advances hdead (run_advances t' later))
  · intro lease lease' now now' hp h h'
    exact verifyLease_unique hp h h'
  · intro lease row hrow hlt
    exact dead_unusable (dead_advances ⟨row, hrow, Or.inl hlt⟩ (run_advances t later))
  · intro lease h
    exact dead_unusable (dead_advances (releaseLease_dead h) (run_advances _ later))

/-- The lease of run A expires at 10, run B takes the partition at 20 and run C at
40: A's token has no use any more, though C's clock may stand before A's. -/
theorem expired_lease_fenced :
    let t := run (.empty "epoch") [.acquire "kb" "A" 10 0]
    ∃ lease t', acquireLease t "kb" "B" 10 20 = .ok (lease, t') ∧ lease.fencingToken = 2 ∧
      Unusable (run t' [.release lease, .acquire "kb" "C" 10 5]) ⟨"kb", "epoch", "A", 1, 10⟩ := by
  refine ⟨⟨"kb", "epoch", "B", 2, 30⟩, _, rfl, rfl, ?_⟩
  obtain ⟨_, hacquire, _⟩ := lease_fencing "epoch" [.acquire "kb" "A" 10 0]
    [.release ⟨"kb", "epoch", "B", 2, 30⟩, .acquire "kb" "C" 10 5]
  obtain ⟨_, _, _, _, _, _, hfenced⟩ := hacquire "kb" "B" 10 20 _ _ rfl
  exact (hfenced ⟨"epoch", some "A", 1, 10, 0⟩ rfl (Or.inr (by decide))).2 _ rfl (Nat.le_refl 1)

end RaytSystem.Control
