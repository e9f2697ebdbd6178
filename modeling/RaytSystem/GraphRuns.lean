import RaytSystem.GraphFacts

/-! Runs of any number of builders of one code graph. -/
namespace RaytSystem.CodeGraph
open Control Interleaving

variable {rules : GraphRules} {owner : ℕ → String} {i : ℕ} {w : GraphWorld} {lease : LeaseToken}

section
variable {α β : Type} {P : GraphWorld → Prop} {Q : α → GraphWorld → Prop}
  {X : GraphFault → GraphWorld → Prop}

theorem wp_seq {p : GraphProg β} {g : β → GraphProg α}
    (h : wp (graphRule rules owner i) p
      (fun b w' => wp (graphRule rules owner i) (g b) Q X w') X w) :
    wp (graphRule rules owner i) (p >>= g) Q X w := (wp_bind _ p g Q X w).mpr h

variable {access : GraphAccess}

theorem wp_get {f : GraphWorld → α} (hP : P w) (hstable : Stable owner i P)
    (h : ∀ w', Sound rules owner w' → P w' → Careful rules access w' → Q (f w') w') :
    wp (graphRule rules owner i) (.get access f) Q X w := by
  intro w' hs hr hc
  exact ⟨hs, (keeps_refl hs).2, h w' hs (hstable w w' hr hP) hc⟩

theorem wp_set {f : GraphWorld → GraphWorld} {Q : Unit → GraphWorld → Prop} (hP : P w)
    (hstable : Stable owner i P)
    (h : ∀ w', Sound rules owner w' → P w' → Careful rules access w' →
      Keeps rules owner i w' (f w') ∧ Q () (f w')) :
    wp (graphRule rules owner i) (.set access f) Q X w := by
  intro w' hs hr hc
  obtain ⟨⟨hs', hkeeps⟩, hQ⟩ := h w' hs (hstable w w' hr hP) hc
  exact ⟨hs', hkeeps, hQ⟩

theorem wp_readFile {f : GraphWorld → Option β} {Q : Option β → GraphWorld → Prop} (hP : P w)
    (hstable : Stable owner i P) (hread : ∀ w', Sound rules owner w' → P w' → Q (f w') w')
    (hraised : ∀ w', Sound rules owner w' → P w' → Careful rules access w' → Q none w') :
    wp (graphRule rules owner i) (readFile access f) Q X w := by
  refine wp_seq ?_
  rw [wp_any]
  intro raised
  cases raised with
  | true => exact wp_get hP hstable hraised
  | false =>
    have hplain : ∀ w', Sound rules owner w' → P w' → Careful rules .plain w' → Q (f w') w' :=
      fun w' hs hw' _ => hread w' hs hw'
    exact wp_get hP hstable hplain

theorem wp_attempt {f : GraphWorld → Except GraphFault (α × GraphWorld)} (hP : P w)
    (hstable : Stable owner i P)
    (h : ∀ w' a w'', Sound rules owner w' → P w' → f w' = .ok (a, w'') →
      Keeps rules owner i w' w'' ∧ Q a w'')
    (hX : ∀ w' e, Sound rules owner w' → P w' → f w' = .error e → X e w') :
    wp (graphRule rules owner i) (.attempt access f) Q X w := by
  intro w' hs hr _
  have hP' := hstable w w' hr hP
  unfold Prog.attemptStep
  cases hf : f w' with
  | ok r =>
    obtain ⟨a, w''⟩ := r
    obtain ⟨⟨hs', hkeeps⟩, hQ⟩ := h w' a w'' hs hP' hf
    exact ⟨hs', hkeeps, hQ⟩
  | error e => exact ⟨hs, (keeps_refl hs).2, hX w' e hs hP' hf⟩

theorem wp_readClock {Q : Int → GraphWorld → Prop} (hP : P w) (hstable : Stable owner i P)
    (htick : ∀ w' (k : ℕ), P w' → P {w' with clock := Function.update w'.clock i (w'.clock i + k)})
    (hQ : ∀ now w', P w' → w'.clock i = now → Q now w') :
    wp (graphRule rules owner i) (readClock i) Q X w := by
  refine wp_seq ?_
  rw [wp_any]
  intro passed w' hs hr _
  refine ⟨⟨hs.bound, hs.synced, hs.fenced, hs.ordered, hs.completed⟩, fun j hij => ?_, ?_⟩
  · exact ⟨fun _ hrow _ => hrow, fun _ => ⟨rfl, rfl, rfl⟩, fun hj => ⟨hj, rfl⟩,
      ⟨fun _ _ h => h, fun _ _ h => h⟩, Function.update_of_ne (Ne.symm hij) _ _⟩
  · exact hQ _ _ (htick w' passed (hstable w w' hr hP)) (Function.update_self ..)

theorem wp_each {γ : Type} {f : γ → GraphProg Unit} (xs : List γ) (hP : P w)
    (h : ∀ x w', P w' → wp (graphRule rules owner i) (f x) (fun _ => P) X w') :
    wp (graphRule rules owner i) (.each f xs) (fun _ => P) X w := by
  induction xs generalizing w with
  | nil => exact hP
  | cons x rest ih =>
    rw [Prog.each, wp_bind]
    exact wp_mono _ (h x w hP) (fun _ w' hw' => ih hw') fun _ _ he => he
end

attribute [local irreducible] wp

section
variable {X : GraphFault → GraphWorld → Prop}

def At (owner : ℕ → String) (i : ℕ) (φ : GraphWorld → Prop) (now : Int) (w : GraphWorld) : Prop :=
  Under owner i φ w ∧ w.clock i = now

variable {φ : GraphWorld → Prop}

theorem stable_at (hφ : Facts φ) (now : Int) : Stable owner i (At owner i φ now) :=
  fun w w' h hw => ⟨stable_under hφ w w' h hw.1, h.clock_own.trans hw.2⟩

theorem wp_clockUnder {Q : Int → GraphWorld → Prop} (hφ : Facts φ) (h : Under owner i φ w)
    (hQ : ∀ now w', At owner i φ now w' → Q now w') :
    wp (graphRule rules owner i) (readClock i) Q X w :=
  wp_readClock h (stable_under hφ)
    (fun w' _ hw' hm => hφ w' _ ⟨rfl, rfl, rfl⟩ ⟨fun _ _ h => h, fun _ _ h => h⟩ (hw' hm))
    fun now w' hw' hnow => hQ now w' ⟨hw', hnow⟩
end

section
variable {X : GraphFault → GraphWorld → Prop} {t t' : LeaseTable} {now : Int}

theorem hold_eq_ok {leases : List LeaseToken}
    (h : holdValidLeases t [lease] now (some leaseTtl) = .ok (leases, t')) :
    ∃ row, t.row lease.partitionKey = some row ∧ lease.owns row = true ∧
      t' = extendRow t lease row (now + leaseTtl) now := by
  rw [holdValidLeases, if_neg (List.cons_ne_nil _ _), if_neg (by decide)] at h
  simp only [holdEach] at h
  split at h
  · cases h
  next row hrow =>
    split at h
    next hlive =>
      cases h
      exact ⟨row, hrow, (Bool.and_eq_true_iff.mp hlive).1, rfl⟩
    next => cases h

theorem faultOf_ne (e : ControlError) : faultOf e ≠ .unavailable := by
  cases e <;> exact fun h => by cases h

variable {φ : GraphWorld → Prop}

theorem wp_holdLease {Q : LeaseTable → GraphWorld → Prop} (hl : IsLease owner i lease)
    (hφ : Facts φ) (h : Under owner i φ w) (hQ : ∀ t w', Holding owner i lease t w' → φ w' → Q t w')
    (hX : ∀ e w', e ≠ .unavailable → X e w') :
    wp (graphRule rules owner i) (holdLease i lease) Q X w := by
  refine wp_seq (wp_clockUnder hφ h fun now w₁ hw₁ => ?_)
  refine wp_attempt hw₁ (stable_at hφ now) (fun w' t w'' hs hw' hf => ?_) fun w' e hs hw' hf => ?_
  · split at hf
    · cases hf
    next hfree =>
      split at hf
      next leases t' hhold =>
        cases hf
        obtain ⟨row, hrow, howns, ht⟩ := hold_eq_ok hhold
        rw [hl.partition_eq] at hrow
        have ho : row.ownerRunId = some (owner i) := by
          rw [← hl.owner_eq]
          exact ((owns_iff lease row).mp howns).2.1
        have hnone : w'.writer = none := by simpa using hfree
        refine ⟨⟨sound_writer hs _, fun j hij => ⟨fun _ hrow _ => hrow, fun _ => ⟨rfl, rfl, rfl⟩,
          fun hj => ?_, ⟨fun _ _ h => h, fun _ _ h => h⟩, rfl⟩⟩, ?_⟩
        · rw [hnone] at hj
          cases hj
        · refine hQ _ _ ⟨rfl, row, _, _, hrow, howns, ho, ht⟩ ?_
          exact hφ w' _ ⟨rfl, rfl, rfl⟩ ⟨fun _ _ h => h, fun _ _ h => h⟩ (hw'.1 ⟨row, hrow, ho⟩)
      next => cases hf
  · split at hf
    · cases hf
      exact hX _ _ (by decide)
    · split at hf
      · cases hf
      next e' _ =>
        cases hf
        exact hX _ _ (faultOf_ne e')

variable {Q : Unit → GraphWorld → Prop}

theorem wp_rollbackLease (h : Holding owner i lease t w) (hQ : ∀ w', Q () w') :
    wp (graphRule rules owner i) rollbackLease Q X w := by
  refine wp_set h (stable_holding t) fun w' hs hh _ => ⟨⟨sound_writer hs _, fun j hij => ?_⟩, hQ _⟩
  refine ⟨fun _ hrow _ => hrow, fun _ => ⟨rfl, rfl, rfl⟩, fun hj => ?_,
    ⟨fun _ _ h => h, fun _ _ h => h⟩, rfl⟩
  rw [hh.writer, Option.some.injEq] at hj
  exact absurd hj hij

def Aborted (owner : ℕ → String) (i : ℕ) (lease : LeaseToken) (t : LeaseTable) (e : GraphFault)
    (w : GraphWorld) : Prop := e ≠ .unavailable ∧ Holding owner i lease t w

variable {ψ : GraphWorld → Prop} {access : GraphAccess}

theorem wp_writeBytesAtomic {f : GraphWorld → GraphWorld} (howner : Function.Injective owner)
    (hφ : Facts φ) (h : Holding owner i lease t w) (hw : φ w) (hf : ∀ w', Writes i lease w' (f w'))
    (hsound : ∀ w', Sound rules owner w' → φ w' → Careful rules access w' →
      (∀ p, (f w').current = some p → Bound rules (f w') p) ∧
        (Clean rules (f w') ∨ Pending (f w')))
    (hnext : ∀ w', φ w' → ψ (f w')) : wp (graphRule rules owner i) (writeBytesAtomic access f)
      (fun _ w' => Holding owner i lease t w' ∧ ψ w') (Aborted owner i lease t) w := by
  refine wp_seq ?_
  rw [wp_any]
  intro early
  refine wp_seq (wp_require _ (fun _ => ?_) fun _ => ⟨by decide, h⟩)
  refine wp_seq (wp_set ⟨h, hw⟩ (stable_held hφ t) fun w' hs hw' hc => ?_)
  obtain ⟨hbound, hsynced⟩ := hsound w' hs hw'.2 hc
  have hh := (hf w').holding hw'.1
  refine ⟨keeps_writes howner hs hw'.1 (hf w') hbound hsynced, wp_seq ?_⟩
  rw [wp_any]
  intro late
  exact wp_require _ (fun _ => ⟨hh, hnext w' hw'.2⟩) fun _ => ⟨by decide, hh⟩

theorem wp_commitLease {completes : Bool} (howner : Function.Injective owner)
    (hl : IsLease owner i lease) (hφ : Facts φ) (h : Holding owner i lease t w) (hw : φ w)
    (hcomplete : completes = true → ∀ w', φ w' → w'.named.map Prod.snd = w'.manifestJson)
    (hQ : ∀ w', φ w' → Q () w') : wp (graphRule rules owner i) (commitLease t completes) Q X w := by
  refine wp_set ⟨h, hw⟩ (stable_held hφ t) fun w' hs hw' _ => ?_
  obtain ⟨row, expires, now, hrow, howns, -, rfl⟩ := hw'.1.owned
  refine ⟨keeps_touches howner hs (touches_extend hl hrow howns _ _) (Or.inr hw'.1.writer) ?_,
    hQ _ (hφ w' _ ⟨rfl, rfl, rfl⟩ ⟨fun _ _ h => h, fun _ _ h => h⟩ hw'.2)⟩
  intro c hc
  cases completes with
  | false => exact hs.completed c hc
  | true =>
    rcases List.mem_cons.mp hc with rfl | hc
    · exact hcomplete rfl w' hw'.2
    · exact hs.completed c hc

theorem wp_holdingLease {completes : Bool} {body : GraphProg Unit}
    (howner : Function.Injective owner) (hl : IsLease owner i lease) (hφ : Facts φ) (hψ : Facts ψ)
    (h : Under owner i φ w)
    (hbody : ∀ t w', Holding owner i lease t w' → φ w' → wp (graphRule rules owner i) body
      (fun _ w'' => Holding owner i lease t w'' ∧ ψ w'') (Aborted owner i lease t) w')
    (hcomplete : completes = true → ∀ w', ψ w' → w'.named.map Prod.snd = w'.manifestJson)
    (hQ : ∀ w', Under owner i ψ w' → Q () w') (hX : ∀ e w', e ≠ .unavailable → X e w') :
    wp (graphRule rules owner i) (holdingLease i lease completes body) Q X w := by
  refine wp_seq (wp_holdLease hl hφ h (fun t w₁ hh hw₁ => wp_seq ?_) hX)
  rw [wp_tryCatch]
  refine wp_mono _ (hbody t w₁ hh hw₁) (fun _ w₂ hw₂ => ?_) fun e w₂ he => wp_seq ?_
  · exact wp_commitLease howner hl hψ hw₂.1 hw₂.2 hcomplete fun w₃ hw₃ => hQ w₃ fun _ => hw₃
  · refine wp_rollbackLease he.2 fun w₃ => ?_
    rw [wp_fail]
    exact hX e w₃ he.1

theorem wp_writeFencedWal {state : WalState} {sha : Option String} {completes : Bool}
    (howner : Function.Injective owner) (hl : IsLease owner i lease) (hφ : Facts φ) (hψ : Facts ψ)
    (h : Under owner i φ w) (hclean : ∀ w', φ w' → Careful rules access w' → Clean rules w')
    (hwal : ∀ w' wal journal, wal = some ⟨state, sha, lease.fencingToken⟩ → φ w' →
      ψ {w' with wal := wal, journal := journal})
    (hcomplete : completes = true → ∀ w', ψ w' → w'.named.map Prod.snd = w'.manifestJson)
    (hQ : ∀ w', Under owner i ψ w' → Q () w') (hX : ∀ e w', e ≠ .unavailable → X e w') :
    wp (graphRule rules owner i) (writeFencedWal i lease access state sha completes) Q X w := by
  refine wp_holdingLease howner hl hφ hψ h (fun t w₁ hh hw₁ => ?_) hcomplete hQ hX
  exact wp_writeBytesAtomic howner hφ hh hw₁ (fun w' => ⟨rfl, rfl, rfl, rfl, rfl, rfl, .wal, rfl⟩)
    (fun w' hs hw' hc => ⟨hs.bound, Or.inl (hclean w' hw' hc)⟩) fun w' hw' => hwal w' _ _ rfl hw'

theorem wp_renew {Q : LeaseToken → GraphWorld → Prop} (howner : Function.Injective owner)
    (hl : IsLease owner i lease) (hφ : Facts φ) (h : Under owner i φ w)
    (hQ : ∀ lease' w', Under owner i φ w' → Q lease' w')
    (hX : ∀ e w', e ≠ .unavailable → X e w') :
    wp (graphRule rules owner i) (renew i lease) Q X w := by
  refine wp_seq (wp_clockUnder hφ h fun now w₁ hw₁ => ?_)
  refine wp_attempt hw₁ (stable_at hφ now) (fun w' lease' w'' hs hw' hf => ?_)
    fun w' e hs hw' hf => ?_
  · split at hf
    · cases hf
    next hfree =>
      split at hf
      next t hrenew =>
        cases hf
        obtain ⟨row, hrow, howns, -, rfl⟩ := renewLease_cases hrenew
        rw [hl.partition_eq] at hrow
        have ho : row.ownerRunId = some (owner i) := by
          rw [← hl.owner_eq]
          exact ((owns_iff lease row).mp howns).2.1
        have hnone : w'.writer = none := by simpa using hfree
        refine ⟨keeps_touches howner hs (touches_extend hl hrow howns _ _) (Or.inl hnone)
          hs.completed, hQ _ _ fun _ => ?_⟩
        exact hφ w' _ ⟨rfl, rfl, rfl⟩ ⟨fun _ _ h => h, fun _ _ h => h⟩ (hw'.1 ⟨row, hrow, ho⟩)
      next => cases hf
  · split at hf
    · cases hf
      exact hX _ _ (by decide)
    · split at hf
      · cases hf
      next e' _ =>
        cases hf
        exact hX _ _ (faultOf_ne e')

theorem wp_acquire {Q : LeaseToken → GraphWorld → Prop} (howner : Function.Injective owner)
    (hQ : ∀ lease w', IsLease owner i lease → Q lease w') (hX : ∀ e w', X e w') :
    wp (graphRule rules owner i) (acquire i (owner i)) Q X w := by
  refine wp_seq (wp_clockUnder facts_true (fun _ => trivial) fun now w₁ hw₁ => ?_)
  refine wp_attempt hw₁ (stable_at facts_true now) (fun w' lease w'' hs _ hf => ?_)
    fun w' e _ _ _ => hX e w'
  split at hf
  · cases hf
  next hfree =>
    split at hf
    next t hacquire =>
      cases hf
      have hnone : w'.writer = none := by simpa using hfree
      obtain ⟨hpartition, hown, -, ht, -⟩ := acquireLease_cases hacquire
      refine ⟨keeps_touches howner hs ⟨acquireLease_advances hacquire, fun row hrow => ?_⟩
        (Or.inl hnone) hs.completed, hQ _ _ ⟨hpartition, hown⟩⟩
      rw [ht, LeaseTable.put_row, if_pos rfl, Option.some.injEq] at hrow
      rw [← hrow]
      exact Or.inr (Or.inl rfl)
    next => cases hf

theorem wp_release (howner : Function.Injective owner) (hl : IsLease owner i lease)
    (hQ : ∀ w', Q () w') (hX : ∀ e w', X e w') :
    wp (graphRule rules owner i) (release lease) Q X w := by
  have htrue : Stable owner i fun _ => True := fun _ _ _ _ => trivial
  refine wp_attempt trivial htrue (fun w' u w'' hs _ hf => ?_) fun w' e _ _ _ => hX e w'
  split at hf
  · cases hf
  next hfree =>
    cases hf
    have hnone : w'.writer = none := by simpa using hfree
    refine ⟨keeps_touches howner hs ⟨releaseLease_advances _ _, fun row hrow => ?_⟩ (Or.inl hnone)
      hs.completed, hQ _⟩
    unfold releaseLease at hrow
    split at hrow
    · exact Or.inl hrow
    next row' hrow' =>
      split at hrow
      · rw [hl.partition_eq, LeaseTable.put_row, if_pos rfl, Option.some.injEq] at hrow
        rw [← hrow]
        exact Or.inr (Or.inr rfl)
      · exact Or.inl hrow
end

end RaytSystem.CodeGraph
