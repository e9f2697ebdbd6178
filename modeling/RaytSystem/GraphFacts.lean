import RaytSystem.GraphPublication
import RaytSystem.LeaseFencing

/-! What builders of a code graph rely on, and what each of their accesses keeps. -/
namespace RaytSystem.CodeGraph
open Control Interleaving Option

variable {rules : GraphRules} {owner : ℕ → String} {i : ℕ} {w w' w'' : GraphWorld}
  {lease : LeaseToken}

def Bound (rules : GraphRules) (w : GraphWorld) (p : GraphPointer) : Prop :=
  ∃ s m, w.snapshots p.snapshotSha256 = some s ∧ w.manifests p.manifestId = some m ∧
    rules.sha256 s = p.snapshotSha256 ∧ rules.manifestId m = p.manifestId ∧
    m.snapshotSha256 = p.snapshotSha256 ∧ m.snapshotId = rules.snapshotId s ∧
    p.snapshotId = rules.snapshotId s

def Settled (w : GraphWorld) : Prop := ∀ p, w.current = some p → ∃ s m,
  w.snapshots p.snapshotSha256 = some s ∧ w.manifests p.manifestId = some m ∧
    w.manifestJson = some m

/-- What `CURRENT` names does not pass the semantic validation. -/
def Refused (rules : GraphRules) (w : GraphWorld) : Prop := ∃ p s m, w.current = some p ∧
  w.snapshots p.snapshotSha256 = some s ∧ w.manifests p.manifestId = some m ∧
    rules.accepts s m = false

def Pending (w : GraphWorld) : Prop := ∃ p wal, w.current = some p ∧ w.wal = some wal ∧
  wal.state = .prepared ∧ wal.snapshotSha256 = some p.snapshotSha256

def Clean (rules : GraphRules) (w : GraphWorld) : Prop := Settled w ∨ Refused rules w

/-- A builder whose reads in the recovery fail, or whose error goes into the write-ahead file, finds
`manifest.json` as the manifest that `CURRENT` names. -/
def Careful (rules : GraphRules) : GraphAccess → GraphWorld → Prop
  | .plain, _ => True
  | .failedRead, w => Clean rules w
  | .errorNote, w => Clean rules w

def Fenced (owner : ℕ → String) (t : LeaseTable) (e : GraphWrite) : Prop :=
  ∃ row, t.row partition = some row ∧ (e.token < row.fencingToken ∨
    (e.token = row.fencingToken ∧
      (row.ownerRunId = some (owner e.builder) ∨ row.ownerRunId = none)))

def InOrder (new old : GraphWrite) : Prop :=
  old.token < new.token ∨ (old.token = new.token ∧ old.builder = new.builder)

structure Sound (rules : GraphRules) (owner : ℕ → String) (w : GraphWorld) : Prop where
  bound : ∀ p, w.current = some p → Bound rules w p
  synced : Clean rules w ∨ Pending w
  fenced : ∀ e ∈ w.journal, Fenced owner w.leases e
  ordered : w.journal.Pairwise InOrder
  completed : ∀ c ∈ w.completions, c.1 = c.2

def Mine (owner : ℕ → String) (i : ℕ) (w : GraphWorld) : Prop :=
  ∃ row, w.leases.row partition = some row ∧ row.ownerRunId = some (owner i)

structure Grows (w w' : GraphWorld) : Prop where
  snapshots : ∀ k s, w.snapshots k = some s → w'.snapshots k = some s
  manifests : ∀ k m, w.manifests k = some m → w'.manifests k = some m

theorem grows_refl (w : GraphWorld) : Grows w w := ⟨fun _ _ h => h, fun _ _ h => h⟩

theorem grows_trans (h : Grows w w') (h' : Grows w' w'') : Grows w w'' :=
  ⟨fun k s hs => h'.snapshots k s (h.snapshots k s hs),
    fun k m hm => h'.manifests k m (h.manifests k m hm)⟩

structure SameFiles (w w' : GraphWorld) : Prop where
  current : w'.current = w.current
  manifestJson : w'.manifestJson = w.manifestJson
  wal : w'.wal = w.wal

theorem sameFiles_trans (h : SameFiles w w') (h' : SameFiles w' w'') : SameFiles w w'' :=
  ⟨h'.current.trans h.current, h'.manifestJson.trans h.manifestJson, h'.wal.trans h.wal⟩

/-- What other builders may do while builder `i` is between two accesses. -/
structure Outside (owner : ℕ → String) (i : ℕ) (w w' : GraphWorld) : Prop where
  own_row : ∀ row, w'.leases.row partition = some row → row.ownerRunId = some (owner i) →
    w.leases.row partition = some row
  quiet : Mine owner i w' → SameFiles w w'
  held : w.writer = some i → w'.writer = some i ∧ w'.leases = w.leases
  grows : Grows w w'
  clock_own : w'.clock i = w.clock i

theorem outside_refl (owner : ℕ → String) (i : ℕ) (w : GraphWorld) : Outside owner i w w :=
  ⟨fun _ h _ => h, fun _ => ⟨rfl, rfl, rfl⟩, fun h => ⟨h, rfl⟩, grows_refl w, rfl⟩

theorem mine_back (h : Outside owner i w w') (hm : Mine owner i w') : Mine owner i w := by
  obtain ⟨row, hrow, ho⟩ := hm
  exact ⟨row, h.own_row row hrow ho, ho⟩

theorem outside_trans (h : Outside owner i w w') (h' : Outside owner i w' w'') :
    Outside owner i w w'' where
  own_row row hrow ho := h.own_row row (h'.own_row row hrow ho) ho
  quiet hm := sameFiles_trans (h.quiet (mine_back h' hm)) (h'.quiet hm)
  held hw := by
    obtain ⟨hw', ht⟩ := h.held hw
    obtain ⟨hw'', ht'⟩ := h'.held hw'
    exact ⟨hw'', ht'.trans ht⟩
  grows := grows_trans h.grows h'.grows
  clock_own := h'.clock_own.trans h.clock_own

/-- The rule of builder `i`: it does what the others rely on. -/
def graphRule (rules : GraphRules) (owner : ℕ → String) (i : ℕ) : Discipline GraphWorld GraphAccess where
  inv := Sound rules owner
  rely := Outside owner i
  assume := Careful rules
  guar _ w w' := ∀ j, i ≠ j → Outside owner j w w'

theorem loseBuilder_eq (i : ℕ) (w : GraphWorld) : ∃ x, loseBuilder i w = {w with writer := x} ∧
    (x = w.writer ∨ w.writer = some i) := by
  unfold loseBuilder
  split
  next h => exact ⟨none, rfl, Or.inr h⟩
  next => exact ⟨w.writer, rfl, Or.inl rfl⟩

theorem sound_writer (h : Sound rules owner w) (x : Option ℕ) :
    Sound rules owner {w with writer := x} := ⟨h.bound, h.synced, h.fenced, h.ordered, h.completed⟩

theorem graphRule_compatible (rules : GraphRules) (owner : ℕ → String) :
    Pool.Compatible (graphRule rules owner) loseBuilder (Sound rules owner) where
  inv_eq _ := rfl
  preorder i := ⟨outside_refl owner i, outside_trans⟩
  guar _ j _ _ _ hij _ h := h j hij
  lost_inv i w h := by
    obtain ⟨x, hx, -⟩ := loseBuilder_eq i w
    rw [hx]
    exact sound_writer h x
  lost_rely i j w hij _ := by
    obtain ⟨x, hx, hwriter⟩ := loseBuilder_eq i w
    rw [hx]
    refine ⟨fun _ hrow _ => hrow, fun _ => ⟨rfl, rfl, rfl⟩, fun hj => ⟨?_, rfl⟩,
      ⟨fun _ _ h => h, fun _ _ h => h⟩, rfl⟩
    rcases hwriter with rfl | hi
    · exact hj
    · rw [hi] at hj
      exact absurd (some.inj hj) hij

section

def Facts (φ : GraphWorld → Prop) : Prop :=
  ∀ w w', SameFiles w w' → Grows w w' → φ w → φ w'

/-- A fact that builder `i` knows as long as the lease is its own. -/
def Under (owner : ℕ → String) (i : ℕ) (φ : GraphWorld → Prop) (w : GraphWorld) : Prop :=
  Mine owner i w → φ w

def Stable (owner : ℕ → String) (i : ℕ) (P : GraphWorld → Prop) : Prop :=
  ∀ w w', Outside owner i w w' → P w → P w'

variable {φ : GraphWorld → Prop}

theorem stable_under (hφ : Facts φ) : Stable owner i (Under owner i φ) :=
  fun w w' h hw hm => hφ w w' (h.quiet hm) h.grows (hw (mine_back h hm))

theorem facts_and {φ ψ : GraphWorld → Prop} (hφ : Facts φ) (hψ : Facts ψ) :
    Facts fun w => φ w ∧ ψ w :=
  fun w w' hs hg h => ⟨hφ w w' hs hg h.1, hψ w w' hs hg h.2⟩

theorem facts_true : Facts fun _ => True := fun _ _ _ _ _ => trivial

theorem facts_clean : Facts (Clean rules) := by
  rintro w w' hs hg (hsettled | ⟨p, s, m, hp, hsnap, hman, hno⟩)
  · refine Or.inl fun p hp => ?_
    obtain ⟨s, m, hsnap, hman, hjson⟩ := hsettled p (hs.current ▸ hp)
    exact ⟨s, m, hg.snapshots _ _ hsnap, hg.manifests _ _ hman, hs.manifestJson.trans hjson⟩
  · exact Or.inr ⟨p, s, m, hs.current.trans hp, hg.snapshots _ _ hsnap, hg.manifests _ _ hman, hno⟩

def Loaded (rules : GraphRules) (p : GraphPointer) (s : CodeGraphSnapshot) (m : CodeGraphManifest)
    (w : GraphWorld) : Prop :=
  w.current = some p ∧ w.snapshots p.snapshotSha256 = some s ∧ w.manifests p.manifestId = some m ∧
    rules.accepts s m = true

theorem facts_loaded (p : GraphPointer) (s : CodeGraphSnapshot) (m : CodeGraphManifest) :
    Facts (Loaded rules p s m) :=
  fun _ _ hs hg h => ⟨hs.current.trans h.1, hg.snapshots _ _ h.2.1, hg.manifests _ _ h.2.2.1, h.2.2.2⟩

theorem settled_of_loaded {p : GraphPointer} {s : CodeGraphSnapshot} {m : CodeGraphManifest}
    (hl : Loaded rules p s m w) (hc : Clean rules w) : Settled w := by
  rcases hc with hc | ⟨p', s', m', hp, hs, hm, hno⟩
  · exact hc
  · obtain ⟨hp', hs', hm', hyes⟩ := hl
    rw [hp', some.injEq] at hp
    subst hp
    rw [hs', some.injEq] at hs
    rw [hm', some.injEq] at hm
    subst hs hm
    rw [hyes] at hno
    cases hno

theorem named_of_settled (h : Settled w) {p : GraphPointer} (hp : w.current = some p) :
    w.named.map Prod.snd = w.manifestJson := by
  obtain ⟨s, m, hs, hm, hjson⟩ := h p hp
  rw [GraphWorld.named, hp, bind_some, hs, bind_some, hm, hjson]
  rfl

structure IsLease (owner : ℕ → String) (i : ℕ) (lease : LeaseToken) : Prop where
  partition_eq : lease.partitionKey = partition
  owner_eq : lease.ownerRunId = owner i

/-- The builder is in a transaction: `t` is what its commit will leave. -/
structure Holding (owner : ℕ → String) (i : ℕ) (lease : LeaseToken) (t : LeaseTable)
    (w : GraphWorld) : Prop where
  writer : w.writer = some i
  owned : ∃ row expires now, w.leases.row partition = some row ∧ lease.owns row = true ∧
    row.ownerRunId = some (owner i) ∧ t = extendRow w.leases lease row expires now

theorem Holding.mine {t : LeaseTable} (h : Holding owner i lease t w) : Mine owner i w := by
  obtain ⟨row, _, _, hrow, -, ho, -⟩ := h.owned
  exact ⟨row, hrow, ho⟩

theorem stable_holding (t : LeaseTable) : Stable owner i (Holding owner i lease t) :=
  fun w w' h hh => by
    obtain ⟨hwriter, hleases⟩ := h.held hh.writer
    exact ⟨hwriter, by rw [hleases]; exact hh.owned⟩

theorem stable_held (hφ : Facts φ) (t : LeaseTable) :
    Stable owner i fun w => Holding owner i lease t w ∧ φ w :=
  fun w w' h hw => by
    have hh := stable_holding t w w' h hw.1
    exact ⟨hh, hφ w w' (h.quiet hh.mine) h.grows hw.2⟩
end

section

def Keeps (rules : GraphRules) (owner : ℕ → String) (i : ℕ) (w w' : GraphWorld) : Prop :=
  Sound rules owner w' ∧ ∀ j, i ≠ j → Outside owner j w w'

theorem keeps_refl (h : Sound rules owner w) : Keeps rules owner i w w :=
  ⟨h, fun j _ => outside_refl owner j w⟩

def Touches (owner : ℕ → String) (i : ℕ) (t t' : LeaseTable) : Prop :=
  t.Advances t' ∧ ∀ row, t'.row partition = some row →
    t.row partition = some row ∨ row.ownerRunId = some (owner i) ∨ row.ownerRunId = none

theorem fenced_advances {t t' : LeaseTable} {e : GraphWrite} (h : Fenced owner t e)
    (ha : t.Advances t') : Fenced owner t' e := by
  obtain ⟨row, hrow, he⟩ := h
  obtain ⟨row', hrow', hr⟩ := ha _ row hrow
  refine ⟨row', hrow', ?_⟩
  rcases hr with hlt | ⟨heq, ho⟩
  · rcases he with he | ⟨he, -⟩
    · exact Or.inl (Nat.lt_trans he hlt)
    · exact Or.inl (he ▸ hlt)
  · rcases he with he | ⟨he, howner⟩
    · exact Or.inl (heq ▸ he)
    · refine Or.inr ⟨he.trans heq.symm, ?_⟩
      rcases ho with ho | ho
      · rw [ho]
        exact howner
      · exact Or.inr ho

variable {t : LeaseTable}

theorem keeps_touches (howner : Function.Injective owner) {x : Option ℕ}
    {cs : List (Option CodeGraphManifest × Option CodeGraphManifest)} (h : Sound rules owner w)
    (ht : Touches owner i w.leases t) (hx : w.writer = none ∨ w.writer = some i)
    (hcs : ∀ c ∈ cs, c.1 = c.2) :
    Keeps rules owner i w {w with leases := t, writer := x, completions := cs} := by
  refine ⟨⟨h.bound, h.synced, fun e he => fenced_advances (h.fenced e he) ht.1, h.ordered, hcs⟩,
    fun j hij => ⟨fun row hrow ho => ?_, fun _ => ⟨rfl, rfl, rfl⟩, fun hj => ?_,
      ⟨fun _ _ h => h, fun _ _ h => h⟩, rfl⟩⟩
  · rcases ht.2 row hrow with hrow | hi | hnone
    · exact hrow
    · rw [hi, some.injEq] at ho
      exact absurd (howner ho) hij
    · rw [hnone] at ho
      cases ho
  · rcases hx with hx | hx
    · rw [hx] at hj
      cases hj
    · rw [hx] at hj
      exact absurd (some.inj hj) hij

theorem touches_put {r : LeaseRow} (ha : ∀ row, t.row partition = some row → row.Advances r)
    (ho : r.ownerRunId = some (owner i) ∨ r.ownerRunId = none) :
    Touches owner i t (t.put partition r) := by
  refine ⟨put_advances t partition r ha, fun row hrow => Or.inr ?_⟩
  rw [LeaseTable.put_row, if_pos rfl, some.injEq] at hrow
  rw [← hrow]
  exact ho

theorem touches_extend {row : LeaseRow} (hl : IsLease owner i lease)
    (hrow : t.row partition = some row) (ho : lease.owns row = true) (expires now : Int) :
    Touches owner i t (extendRow t lease row expires now) := by
  unfold extendRow
  rw [hl.partition_eq]
  refine touches_put (fun row' hrow' => ?_) (Or.inl ?_)
  · rw [hrow, some.injEq] at hrow'
    subst hrow'
    exact Or.inr ⟨rfl, Or.inl rfl⟩
  · rw [← hl.owner_eq]
    exact ((owns_iff lease row).mp ho).2.1

structure Writes (i : ℕ) (lease : LeaseToken) (w w' : GraphWorld) : Prop where
  leases : w'.leases = w.leases
  writer : w'.writer = w.writer
  snapshots : w'.snapshots = w.snapshots
  manifests : w'.manifests = w.manifests
  clock : w'.clock = w.clock
  completions : w'.completions = w.completions
  journal : ∃ file, w'.journal = ⟨i, lease.fencingToken, file⟩ :: w.journal

theorem Writes.holding (h : Writes i lease w w') (hh : Holding owner i lease t w) :
    Holding owner i lease t w' :=
  ⟨h.writer.trans hh.writer, by rw [h.leases]; exact hh.owned⟩

theorem Writes.grows (h : Writes i lease w w') : Grows w w' :=
  ⟨fun _ _ hs => by rw [h.snapshots]; exact hs, fun _ _ hm => by rw [h.manifests]; exact hm⟩

theorem keeps_writes (howner : Function.Injective owner) (h : Sound rules owner w)
    (hh : Holding owner i lease t w) (hw : Writes i lease w w')
    (hbound : ∀ p, w'.current = some p → Bound rules w' p) (hsynced : Clean rules w' ∨ Pending w') :
    Keeps rules owner i w w' := by
  obtain ⟨row, _, _, hrow, howns, ho, -⟩ := hh.owned
  have htoken : row.fencingToken = lease.fencingToken := ((owns_iff lease row).mp howns).2.2
  obtain ⟨file, hjournal⟩ := hw.journal
  refine ⟨⟨hbound, hsynced, fun e he => ?_, ?_, by rw [hw.completions]; exact h.completed⟩,
    fun j hij => ⟨fun row' hrow' _ => by rw [← hw.leases]; exact hrow', fun hm => ?_, fun hj => ?_,
      hw.grows, by rw [hw.clock]⟩⟩
  · rw [hw.leases]
    rw [hjournal] at he
    rcases List.mem_cons.mp he with rfl | he
    · exact ⟨row, hrow, Or.inr ⟨htoken.symm, Or.inl ho⟩⟩
    · exact h.fenced e he
  · rw [hjournal, List.pairwise_cons]
    refine ⟨fun e he => ?_, h.ordered⟩
    obtain ⟨row', hrow', hfenced⟩ := h.fenced e he
    rw [hrow, some.injEq] at hrow'
    subst hrow'
    rcases hfenced with hlt | ⟨heq, howner' | hnone⟩
    · exact Or.inl (htoken ▸ hlt)
    · rw [ho, some.injEq] at howner'
      exact Or.inr ⟨heq.trans htoken, (howner howner').symm⟩
    · rw [ho] at hnone
      cases hnone
  · obtain ⟨row', hrow', ho'⟩ := hm
    rw [hw.leases, hrow, some.injEq] at hrow'
    subst hrow'
    rw [ho, some.injEq] at ho'
    exact absurd (howner ho') hij
  · rw [hh.writer, some.injEq] at hj
    exact absurd hj hij

theorem keeps_published (h : Sound rules owner w) (hs : SameFiles w w') (hg : Grows w w')
    (hl : w'.leases = w.leases) (hwriter : w'.writer = w.writer) (hc : w'.clock = w.clock)
    (hj : w'.journal = w.journal) (hcs : w'.completions = w.completions) :
    Keeps rules owner i w w' := by
  refine ⟨⟨fun p hp => ?_, ?_, by rw [hj, hl]; exact h.fenced, by rw [hj]; exact h.ordered,
      by rw [hcs]; exact h.completed⟩,
    fun j _ => ⟨fun row hrow _ => by rw [← hl]; exact hrow, fun _ => hs,
      fun hj => ⟨hwriter.trans hj, hl⟩, hg, by rw [hc]⟩⟩
  · obtain ⟨s, m, hsnap, hman, hrest⟩ := h.bound p (hs.current ▸ hp)
    exact ⟨s, m, hg.snapshots _ _ hsnap, hg.manifests _ _ hman, hrest⟩
  · rcases h.synced with hclean | ⟨p, wal, hp, hwal, hstate, hsha⟩
    · exact Or.inl (facts_clean w w' hs hg hclean)
    · exact Or.inr ⟨p, wal, hs.current.trans hp, hs.wal.trans hwal, hstate, hsha⟩
end

end RaytSystem.CodeGraph
