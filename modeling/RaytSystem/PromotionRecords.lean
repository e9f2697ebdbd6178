import RaytSystem.IngestPromote
import RaytSystem.ProgramAccess

/-! The record of a promotion that has left its first states: what every access of ingestion
leaves of it. -/
namespace RaytSystem.Ingestion
open Control ImmutableStore Interleaving

section

def PromotionRow.settled (row : PromotionRow) : Bool := !row.state.replaceable

def Frozen (w w' : IngestWorld) : Prop :=
  ∀ txnId row, promotionRow w.db txnId = some row → row.settled = true →
    ∃ state, promotionRow w'.db txnId = some {row with state := state} ∧ state.replaceable = false

def Carries : IngestAccess → IngestWorld → Prop
  | .storePromotion row, w => ∀ existing, promotionRow w.db row.txnId = some existing →
      existing.settled = true → existing.sameIdentity row = true →
      existing.approvalHash = row.approvalHash →
      row.payload = existing.payload ∧
        row.partitionFencingToken = existing.partitionFencingToken ∧
        row.globalFencingToken = existing.globalFencingToken
  | _, _ => True

def Bound (w w' : IngestWorld) : Prop :=
  ∀ txnId row, promotionRow w.db txnId = some row → row.settled = true →
    ∃ row', promotionRow w'.db txnId = some row' ∧ row'.settled = true ∧
      row'.sameIdentity row = true ∧ row'.approvalHash = row.approvalHash

def Freezes (l : IngestAccess) (w w' : IngestWorld) : Prop :=
  Bound w w' ∧ (Carries l w → Frozen w w')

theorem frozen_refl (w : IngestWorld) : Frozen w w := by
  intro txnId row hrow hsettled
  exact ⟨row.state, hrow, by simpa [PromotionRow.settled] using hsettled⟩

theorem frozen_trans {a b c : IngestWorld} (hab : Frozen a b) (hbc : Frozen b c) : Frozen a c := by
  intro txnId row hrow hsettled
  obtain ⟨state, hb, hstate⟩ := hab txnId row hrow hsettled
  obtain ⟨state', hc, hstate'⟩ := hbc txnId _ hb (by simp [PromotionRow.settled, hstate])
  exact ⟨state', hc, hstate'⟩

theorem sameIdentity_iff {r row : PromotionRow} : r.sameIdentity row = true ↔
    r.operationKey = row.operationKey ∧ r.runId = row.runId ∧
      r.parentGenerationId = row.parentGenerationId ∧
      r.nextGenerationId = row.nextGenerationId ∧ r.manifestSha256 = row.manifestSha256 ∧
      r.eventId = row.eventId := by
  simp [PromotionRow.sameIdentity, and_assoc]

theorem freezes_of_frozen {l : IngestAccess} {w w' : IngestWorld} (h : Frozen w w') :
    Freezes l w w' := by
  refine ⟨?_, fun _ => h⟩
  intro txnId row hrow hsettled
  obtain ⟨state, hafter, hstate⟩ := h txnId row hrow hsettled
  exact ⟨_, hafter, by simp [PromotionRow.settled, hstate], sameIdentity_iff.mpr (by simp), rfl⟩

theorem freezes_refl (l : IngestAccess) (w : IngestWorld) : Freezes l w w :=
  freezes_of_frozen (frozen_refl w)

theorem freezes_same {l : IngestAccess} {w w' : IngestWorld}
    (h : w'.db.promotions = w.db.promotions) : Freezes l w w' := by
  refine freezes_of_frozen ?_
  intro txnId row hrow hsettled
  refine ⟨row.state, ?_, by simpa [PromotionRow.settled] using hsettled⟩
  rw [promotionRow, h]
  exact hrow

theorem set_row (db : ControlDb) (txnId : Digest) (f : PromotionRow → PromotionRow)
    (hf : ∀ r, (f r).txnId = r.txnId) (other : Digest) :
    promotionRow (setPromotion db txnId f) other =
      (promotionRow db other).map fun r => if other = txnId then f r else r := by
  unfold promotionRow setPromotion
  induction db.promotions with
  | nil => rfl
  | cons r rest ih =>
    have hid : (if r.txnId = txnId then f r else r).txnId = r.txnId := by
      split
      · exact hf r
      · rfl
    simp only [List.map_cons, List.find?_cons, hid]
    by_cases hr : r.txnId = other
    · simp [hr]
    · have hne : (r.txnId == other) = false := by simpa using hr
      simpa only [hne] using ih

variable {db : ControlDb} {row : PromotionRow}

theorem row_append {txnId : Digest} {r : PromotionRow} (h : promotionRow db txnId = some r) :
    promotionRow {db with promotions := db.promotions ++ [row]} txnId = some r := by
  unfold promotionRow at h ⊢
  rw [List.find?_append, h]
  rfl

theorem next_settled {state next : PromotionState} (h : state.replaceable = false)
    (hnext : next = state ∨ next ∈ state.next) : next.replaceable = false := by
  rcases hnext with rfl | hnext
  · exact h
  · cases state <;> simp_all [PromotionState.next, PromotionState.replaceable]

variable {w : IngestWorld}

theorem updated_frozen {txnId : Digest} {state : PromotionState}
    (h : updateRow txnId state w.db = .ok ((),db)) : Frozen w {w with db := db} := by
  unfold updateRow at h
  split at h
  · cases h
  next row hrow =>
    split at h
    · cases h
    next hlegal =>
      obtain ⟨-, rfl⟩ := Prod.mk.inj (Except.ok.inj h)
      intro other r hr hsettled
      have hstate : r.state.replaceable = false := by simpa [PromotionRow.settled] using hsettled
      have hafter := set_row w.db txnId (fun r => {r with state := state}) (fun _ => rfl) other
      rw [hr] at hafter
      by_cases ho : other = txnId
      · subst ho
        obtain rfl := Option.some.inj (hrow.symm.trans hr)
        refine ⟨state, by simpa using hafter, next_settled hstate ?_⟩
        by_contra hne
        exact hlegal (not_or.mp hne)
      · exact ⟨r.state, by simpa [ho] using hafter, hstate⟩

def PromotionRow.restamp (row r : PromotionRow) : PromotionRow :=
  {r with
    partitionFencingToken := row.partitionFencingToken
    globalFencingToken := row.globalFencingToken
    approvalHash := row.approvalHash
    payload := row.payload}

/-- What an upsert does: it appends a record, or stamps the one of its identity, whose approval
it replaces only while that is not settled. -/
theorem storeRow_cases {db db' : ControlDb} (h : storeRow row db = .ok ((),db')) :
    (promotionRow db row.txnId = none ∧ db' = {db with promotions := db.promotions ++ [row]}) ∨
      ∃ existing, promotionRow db row.txnId = some existing ∧ existing.sameIdentity row = true ∧
        (existing.settled = true → existing.approvalHash = row.approvalHash) ∧
        db' = setPromotion db row.txnId row.restamp := by
  unfold storeRow at h
  split at h
  next existing hexisting =>
    split at h
    · cases h
    next hidentity =>
      split at h
      · cases h
      next happroval =>
        obtain ⟨-, rfl⟩ := Prod.mk.inj (Except.ok.inj h)
        refine Or.inr ⟨existing, hexisting, by simpa using hidentity, ?_, rfl⟩
        intro hsettled
        by_contra hne
        exact happroval ⟨hne, by simpa [PromotionRow.settled] using hsettled⟩
  next hnone =>
    split at h
    · cases h
    · obtain ⟨-, rfl⟩ := Prod.mk.inj (Except.ok.inj h)
      exact Or.inl ⟨hnone, rfl⟩

theorem stored_frozen (h : storeRow row w.db = .ok ((),db)) :
    Frozen w {w with db := db} ↔ Carries (.storePromotion row) w := by
  rcases storeRow_cases h with ⟨hnone, rfl⟩ | ⟨existing, hexisting, hidentity, happroval, rfl⟩
  · constructor
    · intro _ r hr
      rw [hnone] at hr
      cases hr
    · intro _ other r hr hsettled
      exact ⟨r.state, row_append hr, by simpa [PromotionRow.settled] using hsettled⟩
  · have hrows := set_row w.db row.txnId row.restamp fun _ => rfl
    constructor
    · intro hfrozen r hr hsettled _ _
      obtain rfl := Option.some.inj (hexisting.symm.trans hr)
      obtain ⟨state, hafter, -⟩ := hfrozen row.txnId existing hexisting hsettled
      replace hafter := (hrows row.txnId).symm.trans hafter
      rw [hexisting] at hafter
      simp only [Option.map_some, if_true, Option.some.injEq, PromotionRow.restamp,
        PromotionRow.mk.injEq] at hafter
      tauto
    · intro hcarries other r hr hsettled
      refine ⟨r.state, (hrows other).trans ?_, by simpa [PromotionRow.settled] using hsettled⟩
      rw [hr]
      by_cases ho : other = row.txnId
      · subst ho
        obtain rfl := Option.some.inj (hexisting.symm.trans hr)
        have hsame := happroval hsettled
        obtain ⟨hpayload, hpartition, hglobal⟩ :=
          hcarries existing hexisting hsettled hidentity hsame
        simp [PromotionRow.restamp, hpayload, hpartition, hglobal, ← hsame]
      · simp [ho]

theorem stored_bound (h : storeRow row w.db = .ok ((),db)) : Bound w {w with db := db} := by
  rcases storeRow_cases h with ⟨-, rfl⟩ | ⟨existing, hexisting, -, happroval, rfl⟩
  · intro other r hr hsettled
    exact ⟨r, row_append hr, hsettled, sameIdentity_iff.mpr (by simp), rfl⟩
  · intro other r hr hsettled
    have hafter := set_row w.db row.txnId row.restamp (fun _ => rfl) other
    rw [hr] at hafter
    by_cases ho : other = row.txnId
    · subst ho
      obtain rfl := Option.some.inj (hexisting.symm.trans hr)
      refine ⟨row.restamp existing, by simpa using hafter, hsettled,
        sameIdentity_iff.mpr (by simp [PromotionRow.restamp]), (happroval hsettled).symm⟩
    · exact ⟨r, by simpa [ho] using hafter, hsettled, sameIdentity_iff.mpr (by simp), rfl⟩
end
end RaytSystem.Ingestion
