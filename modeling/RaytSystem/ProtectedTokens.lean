import RaytSystem.TokenSpelling
import RaytSystem.MarkdownCodec

namespace RaytSystem.Markdown
open JsText Pattern TokenCode List

theorem eq_of_starts {a b s : JsText} {e : CodeUnit} (ha : e ∉ a) (hb : e ∉ b)
    (h : a ++ [e] <+: b ++ [e] ++ s) : a = b := by
  induction a generalizing b with
  | nil =>
    cases b with
    | nil => rfl
    | cons v b =>
      have hev : e = v := (cons_prefix_cons.mp h).1
      exact absurd (hev ▸ mem_cons_self) hb
  | cons u a ih =>
    obtain ⟨hu, ha⟩ := not_or.mp (mt mem_cons.mpr ha)
    cases b with
    | nil => exact absurd (cons_prefix_cons.mp h).1.symm hu
    | cons v b =>
      obtain ⟨-, hb'⟩ := not_or.mp (mt mem_cons.mpr hb)
      obtain ⟨rfl, hrest⟩ := cons_prefix_cons.mp h
      exact congrArg (u :: ·) (ih ha hb' hrest)

theorem not_mem_toString36 {u : CodeUnit} (h : u ∉ units "0123456789abcdefghijklmnopqrstuvwxyz")
    (i : ℕ) : u ∉ toString36 i := fun hu => h (toString36_mem hu)

theorem tokenEnd_not_mem (i : ℕ) : tokenEnd ∉ toString36 i :=
  not_mem_toString36 (by decide +kernel) i

theorem not_mem_tail {u : CodeUnit} (hstarts : u ∉ units "RAYTSYSTEM")
    (hdigits : u ∉ units "0123456789abcdefghijklmnopqrstuvwxyz") (hend : u ≠ tokenEnd) (i : ℕ) :
    u ∉ units "RAYTSYSTEM" ++ toString36 i ++ tokenSuffix := by
  intro hu
  rcases mem_append.mp hu with hu | hu
  · rcases mem_append.mp hu with hu | hu
    · exact hstarts hu
    · exact not_mem_toString36 hdigits i hu
  · exact hend (mem_singleton.mp hu)

def tokenCode : TokenCode where
  mark := tokenMark
  tail i := units "RAYTSYSTEM" ++ toString36 i ++ tokenSuffix
  mark_not_mem := not_mem_tail (by decide +kernel) (by decide +kernel) (by decide)
  tail_starts i j s h := by
    rw [append_assoc, append_assoc, append_assoc,
      prefix_append_right_inj] at h
    rw [← append_assoc] at h
    exact toString36_inj (eq_of_starts (tokenEnd_not_mem i) (tokenEnd_not_mem j) h)

theorem token_eq (i : ℕ) : tokenCode.token i = tokenAt i := rfl

def TokenText (s : JsText) : Prop := ∃ hit, hit <:+: s ∧ strayToken.Spells hit

theorem strayToken_spells {w : JsText} (h : tokenEnd ∉ w) :
    strayToken.Spells (tokenPrefix ++ w ++ tokenSuffix) := by
  refine ⟨tokenPrefix, w ++ tokenSuffix, by simp, spells_text.mpr rfl, w, tokenSuffix, rfl,
    spells_star_unit.mpr ?_, tokenSuffix, [], by simp, spells_text.mpr rfl, rfl⟩
  intro u hu
  exact decide_eq_true fun he => h (he ▸ hu)

theorem clear_of_not_tokenText {src : ℕ → JsText} {xs : List (CodeUnit ⊕ ℕ)}
    (h : ¬TokenText (spell src xs)) (n : ℕ) : tokenCode.Clear n src xs :=
  fun i _ hi => h ⟨tokenCode.token i, hi, strayToken_spells (tokenEnd_not_mem i)⟩

theorem removeStrayTokens_of_not_tokenText {s : JsText} (h : ¬TokenText s) :
    removeStrayTokens s = s := by
  have hpieces : strayToken.pieces s = s.map .inl :=
    pieces_eq_map fun hit hpart hspells => h ⟨hit, hpart, hspells⟩
  rw [removeStrayTokens, hpieces, flatMap_map]
  exact flatMap_singleton' s

section

def hits (ps : List (CodeUnit ⊕ JsText)) : List JsText :=
  ps.filterMap (Sum.elim (fun _ => none) some)

def number : ℕ → List (CodeUnit ⊕ JsText) → List (CodeUnit ⊕ ℕ)
  | _, [] => []
  | k, .inl u :: ps => .inl u :: number k ps
  | k, .inr _ :: ps => .inr k :: number (k + 1) ps

def tokensFrom : ℕ → List JsText → List ProtectedMarkdownToken
  | _, [] => []
  | k, source :: sources => ⟨tokenAt k, source⟩ :: tokensFrom (k + 1) sources

variable {ps : List (CodeUnit ⊕ JsText)}

@[simp] theorem hits_nil : hits [] = [] := rfl

@[simp] theorem hits_unit (u : CodeUnit) (ps : List (CodeUnit ⊕ JsText)) :
    hits (.inl u :: ps) = hits ps := rfl

@[simp] theorem hits_hit (hit : JsText) (ps : List (CodeUnit ⊕ JsText)) :
    hits (.inr hit :: ps) = hit :: hits ps := rfl

theorem mem_hits {hit : JsText} : hit ∈ hits ps ↔ .inr hit ∈ ps := by
  simp [hits]

theorem tokensFrom_append (k : ℕ) (a b : List JsText) :
    tokensFrom k (a ++ b) = tokensFrom k a ++ tokensFrom (k + a.length) b := by
  induction a generalizing k with
  | nil => rfl
  | cons s a ih =>
    rw [cons_append, tokensFrom, ih, tokensFrom, cons_append, length_cons,
      Nat.add_right_comm, Nat.add_assoc]

theorem length_tokensFrom (k : ℕ) (sources : List JsText) :
    (tokensFrom k sources).length = sources.length := by
  induction sources generalizing k with
  | nil => rfl
  | cons s sources ih => exact congrArg (· + 1) (ih (k + 1))

theorem getElem?_tokensFrom (k m : ℕ) (sources : List JsText) :
    (tokensFrom k sources)[m]? = sources[m]?.map fun s => ⟨tokenAt (k + m), s⟩ := by
  induction sources generalizing k m with
  | nil => rfl
  | cons s sources ih =>
    cases m with
    | zero => rfl
    | succ m =>
      simp only [tokensFrom, getElem?_cons_succ, ih]
      rw [Nat.add_assoc, Nat.add_comm 1 m]

theorem replaceWith_protect (tokens : List ProtectedMarkdownToken) (ps : List (CodeUnit ⊕ JsText)) :
    replaceWith protect tokens ps = (spell tokenCode.token (number tokens.length ps),
      tokens ++ tokensFrom tokens.length (hits ps)) := by
  induction ps generalizing tokens with
  | nil => simp [replaceWith, number, tokensFrom]
  | cons p ps ih =>
    cases p with
    | inl u => simp [replaceWith, number, ih]
    | inr hit =>
      simp only [replaceWith, protect, ih, number, spell_token, token_eq, hits_hit, tokensFrom,
        length_append, length_singleton, append_assoc, singleton_append]

theorem mem_number {k j : ℕ} : .inr j ∈ number k ps ↔ k ≤ j ∧ j < k + (hits ps).length := by
  induction ps generalizing k with
  | nil =>
    simp only [number, not_mem_nil, hits_nil, length_nil, false_iff]
    omega
  | cons p ps ih =>
    cases p with
    | inl u => simpa [number] using ih
    | inr hit =>
      simp only [number, mem_cons, Sum.inr.injEq, ih, hits_hit, length_cons]
      omega

variable {k : ℕ}

theorem spell_number {src : ℕ → JsText} {k : ℕ} {ps : List (CodeUnit ⊕ JsText)}
    (h : ∀ m hit, (hits ps)[m]? = some hit → src (k + m) = hit) :
    spell src (number k ps) = join ps := by
  induction ps generalizing k with
  | nil => rfl
  | cons p ps ih =>
    cases p with
    | inl u => exact congrArg (u :: ·) (ih h)
    | inr hit =>
      have hhead : src k = hit := h 0 hit rfl
      have htail : spell src (number (k + 1) ps) = join ps := ih fun m hit' hm => by
        have hsucc := h (m + 1) hit' hm
        rwa [← Nat.add_assoc, Nat.add_right_comm] at hsucc
      rw [number, spell_token, hhead, htail]
      rfl

theorem number_eq_append {a b : List (CodeUnit ⊕ ℕ)} (h : number k ps = a ++ b) :
    ∃ ps₁ ps₂ k', ps = ps₁ ++ ps₂ ∧ number k' ps₂ = b := by
  induction a generalizing k ps with
  | nil => exact ⟨[], ps, k, rfl, h⟩
  | cons x a ih =>
    cases ps with
    | nil => cases h
    | cons p ps =>
      have hrest : ∃ k', number k' ps = a ++ b := by
        cases p with
        | inl u => exact ⟨k, (cons.inj h).2⟩
        | inr hit => exact ⟨k + 1, (cons.inj h).2⟩
      obtain ⟨k', hk'⟩ := hrest
      obtain ⟨ps₁, ps₂, k'', rfl, hb⟩ := ih hk'
      exact ⟨p :: ps₁, ps₂, k'', rfl, hb⟩

variable {w : JsText}

theorem number_eq_units {b : List (CodeUnit ⊕ ℕ)} (h : number k ps = w.map .inl ++ b) :
    ∃ ps', ps = w.map .inl ++ ps' ∧ number k ps' = b := by
  induction w generalizing ps with
  | nil => exact ⟨ps, rfl, h⟩
  | cons u w ih =>
    cases ps with
    | nil => cases h
    | cons p ps =>
      cases p with
      | inl v =>
        obtain ⟨hv, hrest⟩ := cons.inj h
        obtain rfl := Sum.inl.inj hv
        obtain ⟨ps', rfl, hb⟩ := ih hrest
        exact ⟨ps', rfl, hb⟩
      | inr hit => cases (cons.inj h).1

theorem infix_of_number (h : w.map .inl <:+: number k ps) : w.map .inl <:+: ps := by
  obtain ⟨a, b, hab⟩ := h
  rw [append_assoc] at hab
  obtain ⟨ps₁, ps₂, k', rfl, hb⟩ := number_eq_append hab.symm
  obtain ⟨ps', rfl, -⟩ := number_eq_units hb
  exact ⟨ps₁, ps', by simp⟩

theorem infix_hit_of_number {k i : ℕ} (h : w.map .inl ++ [.inr i] <:+: number k ps) :
    ∃ hit, w.map .inl ++ [.inr hit] <:+: ps := by
  obtain ⟨a, b, hab⟩ := h
  rw [append_assoc, append_assoc] at hab
  obtain ⟨ps₁, ps₂, k', rfl, hb⟩ := number_eq_append hab.symm
  obtain ⟨ps', rfl, hrest⟩ := number_eq_units hb
  cases ps' with
  | nil => cases hrest
  | cons p ps' =>
    cases p with
    | inl v => cases (cons.inj hrest).1
    | inr hit => exact ⟨hit, ps₁, ps', by simp⟩
end

theorem foldl_restoreToken (src : ℕ → JsText) (issues : List MarkdownIssue)
    (sources : List JsText) : ∀ (k : ℕ) (xs : List (CodeUnit ⊕ ℕ)),
    tokenCode.Clear (k + sources.length) src xs →
    (∀ m s, sources[m]? = some s → src (k + m) = s ∧ Literal s) →
    (∀ j, .inr j ∈ xs ↔ k ≤ j ∧ j < k + sources.length) →
    (tokensFrom k sources).foldl restoreToken (spell tokenCode.token xs, issues) =
      (spell src xs, issues) := by
  induction sources with
  | nil =>
    intro k xs _ _ hmem
    have hnone : ∀ i, .inr i ∈ xs → tokenCode.token i = src i := by
      intro i hi
      have := (hmem i).mp hi
      simp only [length_nil] at this
      omega
    rw [tokensFrom, foldl_nil, spell_congr hnone]
  | cons s sources ih =>
    intro k xs hclear hsources hmem
    obtain ⟨hs, hliteral⟩ := hsources 0 s rfl
    rw [Nat.add_zero] at hs
    have hfirst : .inr k ∈ xs := (hmem k).mpr ⟨le_rfl, by simp⟩
    have hincluded : tokenAt k <:+: spell tokenCode.token xs :=
      infix_spell (f := tokenCode.token) hfirst
    have hreplaced : replaceAll (tokenAt k) s (spell tokenCode.token xs) =
        spell tokenCode.token (fill src k xs) := by
      have hlt : k < k + (s :: sources).length := by simp
      have hall := replaceAll_spell (hs ▸ hliteral) hclear hlt []
      rwa [hs] at hall
    have hstep : restoreToken (spell tokenCode.token xs, issues) ⟨tokenAt k, s⟩ =
        (spell tokenCode.token (fill src k xs), issues) := by
      rw [restoreToken, if_pos hincluded, hreplaced]
    have hrest : ∀ m s', sources[m]? = some s' → src (k + 1 + m) = s' ∧ Literal s' := by
      intro m s' hm
      have hsucc := hsources (m + 1) s' hm
      rwa [← Nat.add_assoc, Nat.add_right_comm] at hsucc
    have hmem' : ∀ j, .inr j ∈ fill src k xs ↔ k + 1 ≤ j ∧ j < k + 1 + sources.length := by
      intro j
      rw [mem_fill, hmem, length_cons]
      omega
    have hclear' : tokenCode.Clear (k + 1 + sources.length) src (fill src k xs) := by
      have hlength : k + 1 + sources.length = k + (s :: sources).length := by
        rw [length_cons]
        omega
      exact hlength ▸ hclear.fill k
    rw [tokensFrom, foldl_cons, hstep, ih (k + 1) _ hclear' hrest hmem', spell_fill]

end RaytSystem.Markdown
