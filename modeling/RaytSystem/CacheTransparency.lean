import RaytSystem.ExceptRules
import RaytSystem.ExtractionCache

/-! When the builds with a cache and the builds without one agree. -/
namespace RaytSystem.CodeGraph
open JsonText Canonical
variable {rules : ExtractionRules} {config : CodeGraphConfig} {item : DetectedFile}
  {entry : CacheEntry} {x : FileExtraction} {α β γ ε : Type}

def Accepted (rules : ExtractionRules) (config : CodeGraphConfig) (item : DetectedFile)
    (entry : CacheEntry) (x : FileExtraction) : Prop :=
  ∃ data entries, entry = .file data 0 0 ∧ data.size ≤ 32 * 1024 * 1024 ∧
    loadsBytes data = some (.map entries) ∧ canonicalBytes rules (.map entries) = .ok data ∧
    FileExtraction.fromDict rules entries = .ok x ∧
    validateFileExtraction rules x item config.fileNodes config.fileEdges = .ok ()

def Missed (rules : ExtractionRules) (config : CodeGraphConfig) (item : DetectedFile)
    (entry : CacheEntry) : Prop :=
  loadCache rules config item entry = .ok none

def Extracts (rules : ExtractionRules) (config : CodeGraphConfig) (item : DetectedFile)
    (x : FileExtraction) : Prop :=
  extractFileIsolated rules item config.fileNodes config.fileEdges = .ok x ∧
    ∃ bytes, canonicalBytes rules (x.toDict rules) = .ok bytes

def HoldsBytes (rules : ExtractionRules) (entry : CacheEntry) (x : FileExtraction) : Prop :=
  ∃ data temporaries, entry = .file data temporaries 0 ∧
    canonicalBytes rules (x.toDict rules) = .ok data

def Blocked (rules : ExtractionRules) (config : CodeGraphConfig) (item : DetectedFile)
    (entry : CacheEntry) : Prop :=
  (∃ fault, loadCache rules config item entry = .error fault) ∨
    Missed rules config item entry ∧
      ∀ x, Extracts rules config item x → entry ≠ .absent ∧ ¬HoldsBytes rules entry x

def Taken (rules : ExtractionRules) (config : CodeGraphConfig) (useCache : Bool)
    (item : DetectedFile) (entry : CacheEntry) (x : FileExtraction) : Prop :=
  ∃ entry', takeOne rules config useCache item entry = .ok (x, entry')

theorem readEntry_ok {data : ByteArray} : readEntry entry = .ok data ↔
    entry = .file data 0 0 ∧ data.size ≤ 32 * 1024 * 1024 := by
  cases entry with
  | absent => simp [readEntry]
  | irregular => simp [readEntry]
  | file data' temporaries foreign =>
    by_cases h : temporaries + foreign = 0 ∧ data'.size ≤ 32 * 1024 * 1024
    · obtain ⟨hlinks, hsize⟩ := h
      have htemporaries : temporaries = 0 := by omega
      have hforeign : foreign = 0 := by omega
      subst htemporaries hforeign
      rw [readEntry, if_pos ⟨hlinks, hsize⟩]
      constructor
      · intro hread
        cases hread
        exact ⟨rfl, hsize⟩
      · rintro ⟨h, -⟩
        cases h
        rfl
    · rw [readEntry, if_neg h]
      constructor
      · intro hread
        cases hread
      · rintro ⟨heq, hsize⟩
        cases heq
        exact absurd ⟨rfl, hsize⟩ h

theorem jsonLoads_ok {data : ByteArray} {v : Value} :
    jsonLoads rules data = .ok v ↔ loadsBytes data = some v := by
  rw [jsonLoads]
  cases loadsBytes data <;> simp

theorem reuse_ok : reuse rules config item entry = .ok (some x) ↔
    Accepted rules config item entry x := by
  simp only [reuse, bind_eq_ok, readEntry_ok, jsonLoads_ok]
  constructor
  · rintro ⟨data, ⟨hentry, hsize⟩, v, hv, h⟩
    cases v with
    | map entries =>
      obtain ⟨bytes, hbytes, h⟩ := bind_eq_ok.mp h
      by_cases hdata : data = bytes
      · rw [if_pos hdata] at h
        obtain ⟨y, hy, h⟩ := bind_eq_ok.mp h
        obtain ⟨u, hvalid, h⟩ := bind_eq_ok.mp h
        cases h
        exact ⟨data, entries, hentry, hsize, hv, hdata ▸ hbytes, hy, hvalid⟩
      · rw [if_neg hdata] at h
        cases h
    | _ => cases h
  · rintro ⟨data, entries, hentry, hsize, hv, hbytes, hx, hvalid⟩
    refine ⟨data, ⟨hentry, hsize⟩, .map entries, hv, bind_eq_ok.mpr ⟨data, hbytes, ?_⟩⟩
    rw [if_pos rfl]
    exact bind_eq_ok.mpr ⟨x, hx, bind_eq_ok.mpr ⟨(), hvalid, rfl⟩⟩

theorem ensure_ok {holds : Bool} {message : String} : ensure holds message = .ok () ↔
    holds = true := by
  cases holds <;> simp [ensure]

theorem sameInput_of_valid {maxNodes maxEdges : ℕ}
    (h : validateFileExtraction rules x item maxNodes maxEdges = .ok ()) :
    sameInput item x = true := by
  obtain ⟨_, hfirst, -⟩ := bind_eq_ok.mp h
  have hinput := ensure_ok.mp hfirst
  rw [Bool.and_eq_true] at hinput
  exact hinput.1

theorem loadCache_ok : loadCache rules config item entry = .ok (some x) ↔
    Accepted rules config item entry x := by
  rw [← reuse_ok, loadCache]
  cases hreuse : reuse rules config item entry with
  | error fault => cases hcaught : fault.caught <;> simp [hcaught]
  | ok found =>
    cases found with
    | none => simp
    | some y =>
      obtain ⟨_, _, _, _, _, _, _, hvalid⟩ := reuse_ok.mp hreuse
      simp [Option.filter, sameInput_of_valid hvalid]

theorem storeCache_ok :
    (∃ entry', storeCache rules x entry = .ok entry') ↔
      (∃ bytes, canonicalBytes rules (x.toDict rules) = .ok bytes) ∧
        (entry = .absent ∨ HoldsBytes rules entry x) := by
  cases entry with
  | absent => simp [storeCache, bind_eq_ok, mapError_eq_ok]
  | irregular => simp [storeCache, bind_eq_ok, HoldsBytes]
  | file data temporaries foreign =>
    simp only [storeCache, bind_eq_ok, mapError_eq_ok]
    constructor
    · rintro ⟨entry', bytes, hbytes, h⟩
      refine ⟨⟨bytes, hbytes⟩, .inr ⟨data, temporaries, ?_, ?_⟩⟩
      · by_cases hforeign : foreign = 0
        · rw [hforeign]
        · simp [hforeign] at h
      · by_cases hdata : data = bytes
        · rw [hdata, hbytes]
        · simp [hdata, apply_ite (· = Except.ok entry')] at h
    · rintro ⟨-, h | ⟨data', temporaries', heq, hbytes⟩⟩
      · cases h
      · cases heq
        exact ⟨.file data 0 0, data, hbytes, by simp⟩

theorem fresh_ok (hmiss : lookCached rules config useCache item entry = .ok none) :
    Taken rules config useCache item entry x ↔
      Extracts rules config item x ∧ (entry = .absent ∨ HoldsBytes rules entry x) := by
  simp only [Taken, takeOne, bind_eq_ok, hmiss]
  constructor
  · rintro ⟨entry', found, hfound, h⟩
    cases hfound
    obtain ⟨y, hy, hstored⟩ := bind_eq_ok.mp h
    obtain ⟨stored, hstored, hpair⟩ := bind_eq_ok.mp hstored
    cases hpair
    obtain ⟨hbytes, hentry⟩ := storeCache_ok.mp ⟨entry', hstored⟩
    exact ⟨⟨mapError_eq_ok.mp hy, hbytes⟩, hentry⟩
  · rintro ⟨⟨hx, hbytes⟩, hentry⟩
    obtain ⟨stored, hstored⟩ := storeCache_ok.mpr ⟨hbytes, hentry⟩
    exact ⟨stored, none, rfl, bind_eq_ok.mpr ⟨x, mapError_eq_ok.mpr hx,
      bind_eq_ok.mpr ⟨stored, hstored, rfl⟩⟩⟩

theorem taken_cold : Taken rules config false item .absent x ↔ Extracts rules config item x := by
  rw [fresh_ok (by rfl)]
  simp

theorem taken_warm :
    Taken rules config true item entry x ↔ Accepted rules config item entry x ∨
      Missed rules config item entry ∧ Extracts rules config item x ∧
        (entry = .absent ∨ HoldsBytes rules entry x) := by
  rw [← loadCache_ok]
  cases hload : loadCache rules config item entry with
  | error fault =>
    simp [Taken, takeOne, lookCached, Missed, hload, Except.mapError, bind, Except.bind]
  | ok found =>
    cases found with
    | none =>
      rw [fresh_ok (by simp [lookCached, hload, Except.mapError])]
      simp [Missed, hload]
    | some y =>
      simp [Taken, takeOne, lookCached, Missed, hload, Except.mapError, bind, Except.bind]

theorem blocked_iff :
    Blocked rules config item entry ↔ ∀ x, ¬Taken rules config true item entry x := by
  simp only [taken_warm, Blocked, ← loadCache_ok]
  cases hload : loadCache rules config item entry with
  | error fault => simp [Missed, hload]
  | ok found =>
    cases found with
    | none => simp [Missed, hload]
    | some y => simp [Missed, hload]

section

theorem extractFiles_ok {useCache : Bool} {entries : Cache} :
    ∀ {items : List DetectedFile} {cache : Cache} {xs : List FileExtraction},
      (items.map DetectedFile.path).Nodup →
      (∀ item ∈ items, cache (cacheKey item) = entries (cacheKey item)) →
      ((∃ cache', extractFiles rules config useCache items cache = .ok (xs, cache')) ↔
        List.Forall₂ (fun item x => Taken rules config useCache item (entries (cacheKey item)) x)
          items xs) := by
  intro items
  induction items with
  | nil =>
    intro cache xs _ _
    simp [extractFiles, eq_comm]
  | cons item rest ih =>
    intro cache xs hnodup hcache
    obtain ⟨hfresh, hrest⟩ := List.nodup_cons.mp hnodup
    -- A round writes one name, which no later file has.
    have hlater (entry : CacheEntry) : ∀ item' ∈ rest,
        Function.update cache (cacheKey item) entry (cacheKey item') =
          entries (cacheKey item') := by
      intro item' hmem
      have hne : cacheKey item' ≠ cacheKey item := by
        intro heq
        exact hfresh (List.mem_map.mpr ⟨item', hmem, congrArg CacheKey.path heq⟩)
      rw [Function.update_of_ne hne]
      exact hcache item' (List.mem_cons_of_mem _ hmem)
    rw [List.forall₂_cons_left_iff]
    simp only [extractFiles, bind_eq_ok]
    constructor
    · rintro ⟨cache', ⟨x, entry⟩, hx, ⟨xs', last⟩, hxs, h⟩
      cases h
      rw [hcache item List.mem_cons_self] at hx
      exact ⟨x, xs', ⟨entry, hx⟩, (ih hrest (hlater entry)).mp ⟨last, hxs⟩, rfl⟩
    · rintro ⟨x, xs', ⟨entry, hx⟩, hxs, rfl⟩
      obtain ⟨cache', hxs⟩ := (ih hrest (hlater entry)).mpr hxs
      rw [← hcache item List.mem_cons_self] at hx
      exact ⟨cache', ⟨x, entry⟩, hx, ⟨xs', cache'⟩, hxs, rfl⟩

variable {F : Type} {create : List FileExtraction → Except BuildFault F} {detected : Detection}
  {cache : Cache}

variable {fingerprint : F}

theorem buildSnapshot_ok {useCache : Bool} :
    buildSnapshot rules config create useCache detected cache = .ok fingerprint ↔
      ∃ xs, List.Forall₂
        (fun item x => Taken rules config useCache item (cache (cacheKey item)) x)
          detected.files xs ∧ create xs = .ok fingerprint := by
  simp only [buildSnapshot, bind_eq_ok]
  constructor
  · rintro ⟨⟨xs, cache'⟩, hxs, h⟩
    exact ⟨xs, (extractFiles_ok detected.distinct fun _ _ => rfl).mp ⟨cache', hxs⟩, h⟩
  · rintro ⟨xs, hxs, h⟩
    obtain ⟨cache', hxs⟩ := (extractFiles_ok detected.distinct fun _ _ => rfl).mpr hxs
    exact ⟨⟨xs, cache'⟩, hxs, h⟩

theorem toOption_some {u : Except ε α} {a : α} : u.toOption = some a ↔ u = .ok a := by
  cases u <;> simp [Except.toOption]

theorem cold_ok : (rebuild rules config create detected emptyCache).toOption = some fingerprint ↔
      ∃ xs, List.Forall₂ (Extracts rules config) detected.files xs ∧
        create xs = .ok fingerprint := by
  have hcold (xs : List FileExtraction) : List.Forall₂
      (fun item x => Taken rules config false item (emptyCache (cacheKey item)) x)
        detected.files xs ↔ List.Forall₂ (Extracts rules config) detected.files xs := by
    simp only [emptyCache, taken_cold]
  simp only [toOption_some, rebuild, buildSnapshot_ok, hcold]

theorem warm_ok : (update rules config create detected cache).toOption = some fingerprint ↔
      ∃ xs, List.Forall₂
        (fun item x => Taken rules config true item (cache (cacheKey item)) x)
          detected.files xs ∧ create xs = .ok fingerprint := by
  rw [toOption_some, update, buildSnapshot_ok]
end

section
variable {detected : Detection} {cache : Cache}

def Transparent (rules : ExtractionRules) (config : CodeGraphConfig) (detected : Detection)
    (cache : Cache) : Prop :=
  ∀ {F : Type} (create : List FileExtraction → Except BuildFault F),
    (update rules config create detected cache).toOption =
      (rebuild rules config create detected emptyCache).toOption

variable {R : α → β → Prop} {xs : List α}

theorem exists_forall₂ (h : ∀ a ∈ xs, ∃ b, R a b) : ∃ ys, List.Forall₂ R xs ys := by
  induction xs with
  | nil => exact ⟨[], .nil⟩
  | cons a rest ih =>
    obtain ⟨b, hb⟩ := h a List.mem_cons_self
    obtain ⟨ys, hys⟩ := ih fun a' ha' => h a' (List.mem_cons_of_mem _ ha')
    exact ⟨b :: ys, .cons hb hys⟩

theorem forall₂_common {R S : α → β → Prop} {ys : List β} (hr : List.Forall₂ R xs ys)
    (hs : List.Forall₂ S xs ys) : ∀ a ∈ xs, ∃ b, R a b ∧ S a b := by
  induction hr with
  | nil => intro a ha; cases ha
  | cons hab _ ih =>
    cases hs with
    | cons hab' hs =>
      intro a' ha'
      rcases List.mem_cons.mp ha' with rfl | ha'
      · exact ⟨_, hab, hab'⟩
      · exact ih hs a' ha'

theorem member_of_forall₂ {ys : List β} (h : List.Forall₂ R xs ys) : ∀ a ∈ xs, ∃ b, R a b := by
  intro a ha
  obtain ⟨b, hb, -⟩ := forall₂_common h h a ha
  exact ⟨b, hb⟩

theorem Transparent.extractions (h : Transparent rules config detected cache)
    (xs : List FileExtraction) :
    List.Forall₂ (fun item x => Taken rules config true item (cache (cacheKey item)) x)
      detected.files xs ↔ List.Forall₂ (Extracts rules config) detected.files xs := by
  have hxs := congrArg (· = some xs) (h (F := List FileExtraction) .ok)
  simpa only [warm_ok, cold_ok, Except.ok.injEq, exists_eq_right, eq_iff_iff] using hxs

theorem Transparent.blocked (h : Transparent rules config detected cache)
    (hcold : ∃ item ∈ detected.files, ∀ x, ¬Extracts rules config item x) :
    ∃ item ∈ detected.files, Blocked rules config item (cache (cacheKey item)) := by
  by_contra hblocked
  push Not at hblocked
  simp only [blocked_iff, not_forall, not_not] at hblocked
  obtain ⟨xs, hxs⟩ := exists_forall₂ hblocked
  obtain ⟨item, hitem, hnone⟩ := hcold
  obtain ⟨x, hx⟩ := member_of_forall₂ ((h.extractions xs).mp hxs) item hitem
  exact hnone x hx

end

def sampleRules : ExtractionRules where
  canonical := ⟨id, toString, fun _ _ => "", fun _ => ""⟩
  validateNode := fun _ => none
  validateEdge := fun _ => none
  validateLocation := fun _ => none
  dumpNode := fun _ => .null
  dumpEdge := fun _ => .null
  dumpLocation := fun _ => .null
  stripControl := id
  containsSensitiveText := fun _ => false
  strOf := fun _ => ""
  unread := fun _ => .jsonDecode
  worker := fun _ _ _ => .ok (.map [("path", .str "a.py"), ("content_sha256", .str "e3b0c442"),
    ("language", .str "python"), ("extractor", .str extractorName),
    ("extractor_version", .str extractorVersion)])

end RaytSystem.CodeGraph
