import RaytSystem.ExceptRules
import RaytSystem.PackageService

/-! What the checks of the package service establish, and rules for its accesses. -/
namespace RaytSystem.Packages
open Extraction Interleaving RecordTable PackageRevision

section

theorem lt_of_isIdentifierChar {c : ℕ} (h : isIdentifierChar c = true) : 0x20 < c ∧ c < 0x80 := by
  simp only [isIdentifierChar, isLower, isDigit, Bool.or_eq_true, Bool.and_eq_true,
    decide_eq_true_eq] at h
  rcases h with (h | h) | h
  · omega
  · omega
  · have hmem : c ∈ chars "_:.@/-" := by simpa using h
    have hall : ∀ d ∈ chars "_:.@/-", 0x20 < d ∧ d < 0x80 := by decide
    exact hall c hmem

theorem lt_of_isHexDigit {c : ℕ} (h : isHexDigit c = true) : 0x20 < c ∧ c < 0x80 := by
  simp only [isHexDigit, isDigit, Bool.or_eq_true, Bool.and_eq_true, decide_eq_true_eq] at h
  omega

def Plain (t : Text) : Prop := t ≠ [] ∧ ∀ c ∈ t, 0x20 < c ∧ c < 0x80

variable {t : Text}

theorem plain_identifier (h : isIdentifier t = true) : Plain t := by
  cases t with
  | nil => cases h
  | cons c rest =>
    simp only [isIdentifier, Bool.and_eq_true, List.all_eq_true] at h
    refine ⟨List.cons_ne_nil _ _, ?_⟩
    intro d hd
    apply lt_of_isIdentifierChar
    rcases List.mem_cons.mp hd with rfl | hd
    · simp [isIdentifierChar, h.1.1.1]
    · exact h.2 d hd

theorem plain_sha256 (h : isSha256 t = true) : Plain t := by
  simp only [isSha256, Bool.and_eq_true, beq_iff_eq, List.all_eq_true] at h
  refine ⟨?_, fun c hc => lt_of_isHexDigit (h.2 c hc)⟩
  rintro rfl
  simp at h

theorem dropWhile_none {p : CodePoint → Bool} (h : ∀ c ∈ t, p c = false) : t.dropWhile p = t := by
  cases t with
  | nil => rfl
  | cons c rest => rw [List.dropWhile_cons_of_neg (by simp [h c List.mem_cons_self])]

theorem Plain.not_space (h : Plain t) {c : ℕ} (hc : c ∈ t) : isSpace c = false := by
  have hplain : ∀ c < 0x80, 0x20 < c → isSpace c = false := by decide
  exact hplain c (h.2 c hc).2 (h.2 c hc).1

theorem Plain.trim_eq (h : Plain t) : trim t = t := by
  have hspace : ∀ c ∈ t, isWhiteSpace c = false := by
    intro c hc
    rw [isWhiteSpace, h.not_space hc, Bool.false_and]
  rw [trim, dropWhile_none hspace, dropWhile_none (by simpa using hspace), List.reverse_reverse]

theorem Plain.encodable {t : Text} (h : Plain t) : encodable t = true := by
  have hplain : ∀ c < 0x80, (!(decide (0xd800 ≤ c) && decide (c ≤ 0xdfff))) = true := by decide
  rw [Extraction.encodable, List.all_eq_true]
  exact fun c hc => hplain c (h.2 c hc).2

theorem Plain.nfc_eq (env : PackageEnv) (h : Plain t) : env.nfc t = t :=
  env.nfc_ascii t fun c hc => (h.2 c hc).2

theorem map_option_eq {f : Text → Text} {p : Text → Bool} {x : Option Text}
    (hf : ∀ t, p t = true → f t = t) (h : x.all p = true) : x.map f = x := by
  cases x with
  | none => rfl
  | some t => rw [Option.map_some, hf t (by simpa using h)]

theorem map_list_eq {f : Text → Text} {p : Text → Bool} {x : List Text}
    (hf : ∀ t, p t = true → f t = t) (h : x.all p = true) : x.map f = x := by
  have hid : ∀ t ∈ x, f t = t := fun t ht => hf t (List.all_eq_true.mp h t ht)
  rw [List.map_congr_left hid, List.map_id']

theorem installer_token : isToken installer = true ∧ encodable installer = true := by decide
end

section
variable {r : PackageRevision}

theorem mapText_accepted {f : Text → Text} (hf : ∀ t, Plain t → f t = t)
    (h : r.fieldsValid = true) : r.mapText f = r := by
  have hi : ∀ t, isIdentifier t = true → f t = t := fun t ht => hf t (plain_identifier ht)
  have hs : ∀ t, isSha256 t = true → f t = t := fun t ht => hf t (plain_sha256 ht)
  simp only [fieldsValid, Bool.and_eq_true] at h
  obtain ⟨⟨⟨⟨⟨⟨⟨⟨hid, hpackage⟩, hmanifest⟩, hcontent⟩, hprevious⟩, hreport⟩, hruns⟩, happroval⟩,
    hactor⟩ := h
  simp only [mapText, hi _ hid, hi _ hpackage, hs _ hmanifest, hs _ hcontent,
    map_option_eq hi hprevious, map_option_eq hs hreport, map_list_eq hi hruns,
    map_option_eq hi happroval, map_option_eq hi hactor]

theorem encodable_texts (h : r.fieldsValid = true) : r.texts.all encodable = true := by
  simp only [fieldsValid, Bool.and_eq_true, Option.all_eq_true_iff_get,
    List.all_eq_true] at h
  rw [List.all_eq_true]
  intro t ht
  suffices hplain : Plain t from hplain.encodable
  obtain ⟨⟨⟨⟨⟨⟨⟨⟨hid, hpackage⟩, hmanifest⟩, hcontent⟩, hprevious⟩, hreport⟩, hruns⟩, happroval⟩,
    hactor⟩ := h
  simp only [texts, List.mem_append, List.mem_cons, List.not_mem_nil, or_false,
    Option.mem_toList] at ht
  rcases ht with ((((((rfl | rfl | rfl | rfl) | ht) | ht) | ht) | ht) | ht)
  · exact plain_identifier hid
  · exact plain_identifier hpackage
  · exact plain_sha256 hmanifest
  · exact plain_sha256 hcontent
  · exact plain_identifier (by simpa [ht] using hprevious)
  · exact plain_sha256 (by simpa [ht] using hreport)
  · exact plain_identifier (hruns t ht)
  · exact plain_identifier (by simpa [ht] using happroval)
  · exact plain_identifier (by simpa [ht] using hactor)
end

section
variable {α β : Type}

theorem requires_eq_ok {b : Bool} {message : String} {u : Unit} :
    requires b message = .ok u ↔ b = true := by
  cases b <;> simp [requires]

theorem found_eq_ok {x : Option α} {message : String} {a : α} :
    found x message = .ok a ↔ x = some a := by
  cases x <;> simp [found]

theorem cleanRevision_eq_ok {r : RevisionRecord} {v : PackageRevision} :
    cleanRevision r = .ok v ↔ v = r.revision.mapText trim ∧ v.accepted = true := by
  simp only [cleanRevision]
  split
  next h =>
    constructor
    · rintro ⟨⟩
      exact ⟨rfl, h⟩
    · rintro ⟨rfl, -⟩
      rfl
  next h =>
    constructor
    · rintro ⟨⟩
    · rintro ⟨rfl, hv⟩
      exact absurd hv h

theorem clean_fields {r : RevisionRecord} {v : PackageRevision} (h : cleanRevision r = .ok v) :
    v.fieldsValid = true ∧ v.state = r.revision.state ∧
      v.packageId = trim r.revision.packageId ∧ v.revisionId = trim r.revision.revisionId := by
  obtain ⟨rfl, hv⟩ := cleanRevision_eq_ok.mp h
  rw [accepted, Bool.and_eq_true] at hv
  exact ⟨hv.1, rfl, rfl, rfl⟩
end

namespace PackageWorld
variable (w : PackageWorld)

def putRevision (id : Text) (r : RevisionRecord) : PackageWorld :=
  {w with revisions := push w.revisions id r}

def putManifest (id : Text) (r : ManifestRecord) : PackageWorld :=
  {w with manifests := push w.manifests id r}

def putActive (id : Text) (r : ActiveRecord) : PackageWorld := {w with active := push w.active id r}

def putDiscovery (id : Text) (r : DiscoveryRecord) : PackageWorld :=
  {w with discoveries := push w.discoveries id r}

def putEvent (event : PackageEvent) : PackageWorld := {w with events := w.events ++ [event]}

end PackageWorld

section
variable {α : Type} {C : PackageWorld → Prop} {w : PackageWorld} (env : PackageEnv)

abbrev Runs (C : PackageWorld → Prop) (p : PackageProg α) (Q : α → PackageWorld → Prop)
    (X : PackageFault → PackageWorld → Prop) (w : PackageWorld) : Prop :=
  wp (sequential Unit C) p Q X w

variable {X : PackageFault → PackageWorld → Prop}

theorem runs_bind {β : Type} {p : PackageProg α} {g : α → PackageProg β}
    {Q : β → PackageWorld → Prop} (h : Runs C p (fun a w' => Runs C (g a) Q X w') X w) :
    Runs C (p >>= g) Q X w :=
  (wp_bind _ p g Q X w).mpr h

theorem runs_pure {a : α} {Q : α → PackageWorld → Prop} (h : Q a w) :
    Runs C (pure a : PackageProg α) Q X w := h

theorem runs_consult {f : PackageWorld → Except PackageFault α} {Q : α → PackageWorld → Prop}
    (hC : C w) (h : ∀ a, f w = .ok a → Q a w) (hX : ∀ e, f w = .error e → X e w) :
    Runs C (consult f) Q X w := by
  apply wp_sequential_attempt hC
  · intro a w' hf
    cases hw : f w with
    | error e =>
      rw [hw] at hf
      cases hf
    | ok b =>
      rw [hw] at hf
      cases hf
      exact ⟨hC, h a hw⟩
  · intro e hf
    cases hw : f w with
    | error e' =>
      rw [hw] at hf
      cases hf
      exact hX e hw
    | ok b =>
      rw [hw] at hf
      cases hf

variable {expected : Option ℕ}

theorem appended_eq_ok {ρ : Type} {t t' : Table Text ρ} {id : Text} {texts : List Text} {r : ρ} :
    appended t id expected texts r = .ok t' ↔
      texts.all encodable = true ∧ (head t id).map Stored.revision = expected ∧ t' = push t id r := by
  unfold appended
  split
  next htexts =>
    cases happend : append t id expected r with
    | none =>
      have hnone : ¬((head t id).map Stored.revision = expected ∧ t' = push t id r) := by
        rw [← append_eq_some, happend]
        simp
      simp [htexts, hnone]
    | some t'' =>
      rw [append_eq_some] at happend
      simp [htexts, happend, eq_comm]
  next htexts => simp [htexts]

theorem runs_append {ρ : Type} {table : PackageWorld → Table Text ρ}
    {put : PackageWorld → Table Text ρ → PackageWorld} {id : Text} {r : ρ}
    {Q : Unit → PackageWorld → Prop} (texts : List Text) (hC : C w)
    (h : texts.all encodable = true → (head (table w) id).map Stored.revision = expected →
      C (put w (push (table w) id r)) ∧ Q () (put w (push (table w) id r)))
    (hX : ¬(texts.all encodable = true ∧ (head (table w) id).map Stored.revision = expected) →
      ∀ e, X e w) :
    Runs C (.attempt () fun w => (appended (table w) id expected texts r).map fun t => ((), put w t))
      Q X w := by
  apply wp_sequential_attempt hC
  · intro u w' hf
    cases happended : appended (table w) id expected texts r with
    | error e =>
      rw [happended] at hf
      cases hf
    | ok t =>
      rw [happended] at hf
      cases hf
      obtain ⟨htexts, hhead, rfl⟩ := appended_eq_ok.mp happended
      exact h htexts hhead
  · intro e hf
    apply hX
    rintro ⟨htexts, hhead⟩
    rw [appended_eq_ok.mpr ⟨htexts, hhead, rfl⟩] at hf
    cases hf

variable {Q : Unit → PackageWorld → Prop} {X : PackageFault → PackageWorld → Prop} {id : Text}
  {expected : Option ℕ}

theorem runs_appendRevision {r : RevisionRecord} (hC : C w)
    (h : r.revision.texts.all encodable = true →
      (head w.revisions id).map Stored.revision = expected →
      C (w.putRevision id (r.stored env)) ∧ Q () (w.putRevision id (r.stored env)))
    (hX : ¬(r.revision.texts.all encodable = true ∧
      (head w.revisions id).map Stored.revision = expected) → ∀ e, X e w) :
    Runs C (appendRevision env id expected r) Q X w :=
  runs_append _ hC h hX

theorem runs_appendManifest {r : ManifestRecord} (hC : C w)
    (h : encodable r.sourceRelative = true →
      (head w.manifests id).map Stored.revision = expected →
      C (w.putManifest id (r.stored env)) ∧ Q () (w.putManifest id (r.stored env)))
    (hX : ¬(encodable r.sourceRelative = true ∧
      (head w.manifests id).map Stored.revision = expected) → ∀ e, X e w) :
    Runs C (appendManifest env id expected r) Q X w :=
  runs_append [r.sourceRelative] hC (fun htext => h (by simpa using htext))
    fun hnot => hX (by simpa using hnot)

theorem runs_appendActive {r : ActiveRecord} (hC : C w)
    (h : encodable r.activatedBy = true → r.rollbackReason.all encodable = true →
      (head w.active id).map Stored.revision = expected →
      C (w.putActive id (r.stored env)) ∧ Q () (w.putActive id (r.stored env)))
    (hX : ¬(encodable r.activatedBy = true ∧ r.rollbackReason.all encodable = true ∧
      (head w.active id).map Stored.revision = expected) → ∀ e, X e w) :
    Runs C (appendActive env id expected r) Q X w := by
  have htexts : ((r.activatedBy :: r.rollbackReason.toList).all encodable = true) ↔
      encodable r.activatedBy = true ∧ r.rollbackReason.all encodable = true := by
    cases r.rollbackReason <;> simp
  refine runs_append _ hC ?_ ?_
  · intro hall hhead
    exact h (htexts.mp hall).1 (htexts.mp hall).2 hhead
  · intro hnot
    apply hX
    rintro ⟨hactor, hreason, hhead⟩
    exact hnot ⟨htexts.mpr ⟨hactor, hreason⟩, hhead⟩

theorem runs_appendDiscovery {r : DiscoveryRecord} (hC : C w)
    (h : encodable r.sourceRelative = true →
      (head w.discoveries id).map Stored.revision = expected →
      C (w.putDiscovery id r) ∧ Q () (w.putDiscovery id r))
    (hX : ¬(encodable r.sourceRelative = true ∧
      (head w.discoveries id).map Stored.revision = expected) → ∀ e, X e w) :
    Runs C (appendDiscovery id expected r) Q X w :=
  runs_append [r.sourceRelative] hC (fun htext => h (by simpa using htext))
    fun hnot => hX (by simpa using hnot)

theorem runs_appendEvent {event : PackageEvent} (hC : C w)
    (h : isToken event.actorId = true → encodable event.actorId = true →
      C (w.putEvent event) ∧ Q () (w.putEvent event))
    (hX : ¬(isToken event.actorId = true ∧ encodable event.actorId = true) → ∀ e, X e w) :
    Runs C (appendEvent event) Q X w := by
  apply wp_sequential_attempt hC
  · intro u w' hf
    split at hf
    · split at hf
      · cases hf
        exact h ‹_› ‹_›
      · cases hf
    · cases hf
  · intro e hf
    apply hX
    rintro ⟨htoken, hencodable⟩
    rw [if_pos htoken, if_pos hencodable] at hf
    cases hf
end

end RaytSystem.Packages
