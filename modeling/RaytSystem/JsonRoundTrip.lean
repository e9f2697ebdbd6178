import RaytSystem.JsonText

/-! Reading back what was rendered. The reader inverts the rendering of every value, so two
values with one rendering are the same, and rendering again changes nothing. -/
namespace JsonText
open RaytSystem List

section

theorem hexValue_hexDigit {n : Nat} (h : n < 16) : hexValue (hexDigit n) = some n := by
  have hall : ∀ m : Fin 16, hexValue (hexDigit m) = some m.val := by decide
  exact hall ⟨n, h⟩

theorem readHex4_low {n : Nat} (h : n < 0x20) (rest : List Char) :
    readHex4 ('0' :: '0' :: hexDigit (n / 16) :: hexDigit (n % 16) :: rest) = some (n, rest) := by
  have hzero : hexValue '0' = some 0 := by decide
  have hhigh := hexValue_hexDigit (show n / 16 < 16 by omega)
  have hlow := hexValue_hexDigit (show n % 16 < 16 by omega)
  simp only [readHex4, hzero, hhigh, hlow, Option.bind_eq_bind, Option.bind_some]
  congr 2
  omega

theorem readUnicode_low {c : Char} (h : c.toNat < 0x20) (rest : List Char) :
    readUnicode ('0' :: '0' :: hexDigit (c.toNat / 16) :: hexDigit (c.toNat % 16) :: rest) =
      some (c, rest) := by
  have hhigh : ¬(0xd800 ≤ c.toNat ∧ c.toNat ≤ 0xdbff) := by omega
  have hlow : ¬(0xdc00 ≤ c.toNat ∧ c.toNat ≤ 0xdfff) := by omega
  simp only [readUnicode, readHex4_low h, Option.bind_eq_bind, Option.bind_some, if_neg hhigh,
    if_neg hlow, Char.ofNat_toNat]

variable {rounds : Nat}

theorem readString_simple {c d : Char} (rest : List Char) (hu : d ≠ 'u')
    (hd : simpleEscape d = some c) : readString (rounds + 1) (backslash :: d :: rest) =
      (readString rounds rest).map fun r => (c :: r.1, r.2) := by
  have hquote : backslash ≠ quote := by decide
  rw [readString, if_neg hquote, if_pos rfl, readEscape, if_neg hu, hd]
  simp only [Option.map_some, Option.bind_eq_bind, Option.bind_some]
  cases readString rounds rest <;> rfl

theorem readString_written {c c' d : Char} (rest : List Char) (h : c = c') (hu : d ≠ 'u')
    (hd : simpleEscape d = some c') : readString (rounds + 1) ([backslash, d] ++ rest) =
      (readString rounds rest).map fun r => (c :: r.1, r.2) := by
  rw [h]
  exact readString_simple rest hu hd

theorem readString_escapeChar (c : Char) (rounds : Nat) (rest : List Char) :
    readString (rounds + 1) (escapeChar c ++ rest) =
      (readString rounds rest).map fun r => (c :: r.1, r.2) := by
  unfold escapeChar
  split
  next h => exact readString_written rest h (by decide) (by decide)
  next hquote =>
    split
    next h => exact readString_written rest h (by decide) (by decide)
    next hbackslash =>
      split
      next h => exact readString_written rest h (by decide) (by decide)
      next =>
        split
        next h => exact readString_written rest h (by decide) (by decide)
        next =>
          split
          next h => exact readString_written rest h (by decide) (by decide)
          next =>
            split
            next h => exact readString_written rest h (by decide) (by decide)
            next =>
              split
              next h => exact readString_written rest h (by decide) (by decide)
              next =>
                split
                next hcontrol =>
                  have hne : backslash ≠ quote := by decide
                  simp only [cons_append, nil_append]
                  rw [readString, if_neg hne, if_pos rfl, readEscape, if_pos rfl,
                    readUnicode_low hcontrol]
                  simp only [Option.bind_eq_bind, Option.bind_some]
                  cases readString rounds rest <;> rfl
                next hcontrol =>
                  rw [singleton_append, readString, if_neg hquote, if_neg hbackslash,
                    if_neg hcontrol]
                  cases readString rounds rest <;> rfl

theorem length_escapeChar_pos (c : Char) : 1 ≤ (escapeChar c).length := by
  unfold escapeChar
  repeat' split
  all_goals simp

theorem readString_render (cs rest : List Char) (h : cs.length < rounds) :
    readString rounds (cs.flatMap escapeChar ++ quote :: rest) = some (cs, rest) := by
  induction cs generalizing rounds with
  | nil =>
    obtain ⟨n, rfl⟩ : ∃ n, rounds = n + 1 := ⟨rounds - 1, by simp at h; omega⟩
    rw [flatMap_nil, nil_append, readString, if_pos rfl]
  | cons c cs ih =>
    rw [length_cons] at h
    obtain ⟨n, rfl⟩ : ∃ n, rounds = n + 1 := ⟨rounds - 1, by omega⟩
    rw [flatMap_cons, append_assoc, readString_escapeChar, ih (by omega)]
    rfl

theorem length_le_flatMap (cs : List Char) : cs.length ≤ (cs.flatMap escapeChar).length := by
  induction cs with
  | nil => exact Nat.le_refl 0
  | cons c cs ih =>
    have hpos := length_escapeChar_pos c
    rw [flatMap_cons, length_append, length_cons]
    omega

theorem readString_renderString (s : String) (rest : List Char) :
    readString (s.toList.flatMap escapeChar ++ quote :: rest).length
      (s.toList.flatMap escapeChar ++ quote :: rest) = some (s.toList, rest) := by
  apply readString_render
  have hle := length_le_flatMap s.toList
  rw [length_append, length_cons]
  omega
end

section

def Ends (rest : List Char) : Prop :=
  ∀ c ∈ rest.head?, c = ',' ∨ c = ']' ∨ c = Char.ofNat 0x7d

theorem ends_nil : Ends [] := by
  intro c hc
  cases hc

theorem ends_cons {c : Char} (rest : List Char) (h : c = ',' ∨ c = ']' ∨ c = Char.ofNat 0x7d) :
    Ends (c :: rest) := by
  intro d hd
  obtain rfl := Option.some.inj hd
  exact h

variable {rest : List Char}

theorem startsFloat_ends (h : Ends rest) : startsFloat rest = false := by
  match rest with
  | [] => rfl
  | [_] => rfl
  | c :: d :: tail =>
    have hc := h c rfl
    rcases hc with rfl | rfl | rfl <;> simp [startsFloat]

theorem dropWhile_ends (h : Ends rest) :
    rest.takeWhile Char.isDigit = [] ∧ rest.dropWhile Char.isDigit = rest := by
  cases rest with
  | nil => exact ⟨rfl, rfl⟩
  | cons c tail =>
    have hc : c.isDigit = false := by
      rcases h c rfl with rfl | rfl | rfl <;> decide
    simp [hc]

theorem takeWhile_digits {ds rest : List Char} (hds : ∀ c ∈ ds, c.isDigit = true)
    (h : Ends rest) : (ds ++ rest).takeWhile Char.isDigit = ds ∧
      (ds ++ rest).dropWhile Char.isDigit = rest := by
  obtain ⟨htake, hdrop⟩ := dropWhile_ends h
  constructor
  · rw [takeWhile_append_of_pos hds, htake, append_nil]
  · rw [dropWhile_append_of_pos hds, hdrop]

theorem toDigits_head {n : Nat} (h : 0 < n) : ∃ c cs, Nat.toDigits 10 n = c :: cs ∧ c ≠ '0' := by
  induction n using Nat.strongRecOn with
  | _ n ih =>
    rw [Nat.toDigits_eq_if (by decide)]
    split
    next hlt =>
      refine ⟨_, [], rfl, ?_⟩
      rw [ne_eq, Nat.digitChar_eq_zero]
      omega
    next hge =>
      obtain ⟨c, cs, hcs, hc⟩ := ih (n / 10) (by omega) (by omega)
      exact ⟨c, cs ++ [Nat.digitChar (n % 10)], by rw [hcs, cons_append], hc⟩

theorem toDigits_isDigit (n : Nat) : ∀ c ∈ Nat.toDigits 10 n, c.isDigit = true :=
  fun _ hc => Nat.isDigit_of_mem_toDigits (by decide) (by decide) hc

theorem readNat_toDigits (n : Nat) (h : Ends rest) :
    readNat (Nat.toDigits 10 n ++ rest) = some (n, rest) := by
  rcases Nat.eq_zero_or_pos n with rfl | hpos
  · rw [Nat.toDigits_zero, singleton_append, readNat, if_pos rfl]
  · obtain ⟨c, cs, hcs, hc⟩ := toDigits_head hpos
    have hdigits := toDigits_isDigit n
    obtain ⟨htake, hdrop⟩ := takeWhile_digits hdigits h
    have hvalue : Nat.ofDigitChars 10 (Nat.toDigits 10 n) 0 = n := Nat.ofDigitChars_ten_toDigits
    rw [hcs] at hdigits htake hdrop hvalue ⊢
    rw [cons_append] at htake hdrop ⊢
    rw [readNat, if_neg hc, if_pos (hdigits c mem_cons_self), htake, hdrop, hvalue]

theorem readNumber_renderInt (n : Int) (h : Ends rest) :
    readNumber (renderInt n ++ rest) = some (.int n, rest) := by
  unfold renderInt
  split
  next hneg =>
    rw [cons_append, readNumber, if_pos rfl, readSigned, readNat_toDigits _ h]
    simp only [Option.bind_eq_bind, Option.bind_some, startsFloat_ends h, if_true,
      Bool.false_eq_true, if_false]
    congr 3
    omega
  next hpos =>
    have hread := readNat_toDigits n.natAbs h
    obtain ⟨c, cs, hcs⟩ := exists_cons_of_ne_nil (Nat.toDigits_ne_nil : Nat.toDigits 10 n.natAbs ≠ [])
    have hdigit : c.isDigit = true := by
      apply toDigits_isDigit n.natAbs
      rw [hcs]
      exact mem_cons_self
    have hminus : c ≠ '-' := by
      rintro rfl
      exact absurd hdigit (by decide)
    rw [hcs, cons_append] at hread ⊢
    rw [readNumber, if_neg hminus, readSigned, hread]
    simp only [Option.bind_eq_bind, Option.bind_some, startsFloat_ends h, Bool.false_eq_true,
      if_false]
    congr 3
    omega
end

section

variable (v : Value)

theorem render_head : ∃ c cs, render v = c :: cs ∧ isBlank c = false ∧ c ≠ ']' := by
  cases v with
  | null => exact ⟨_, _, rfl, by decide, by decide⟩
  | bool b => cases b <;> exact ⟨_, _, rfl, by decide, by decide⟩
  | int n =>
    rw [render, renderInt]
    split
    · exact ⟨_, _, rfl, by decide, by decide⟩
    · obtain ⟨c, cs, hcs⟩ :=
        exists_cons_of_ne_nil (Nat.toDigits_ne_nil : Nat.toDigits 10 n.natAbs ≠ [])
      have hdigit : c.isDigit = true := by
        apply toDigits_isDigit n.natAbs
        rw [hcs]
        exact mem_cons_self
      refine ⟨c, cs, hcs, ?_, ?_⟩
      · cases hblank : isBlank c with
        | false => rfl
        | true =>
          simp only [isBlank, Bool.or_eq_true, beq_iff_eq] at hblank
          rcases hblank with ((rfl | rfl) | rfl) | rfl <;> exact absurd hdigit (by decide)
      · rintro rfl
        exact absurd hdigit (by decide)
  | str s => exact ⟨_, _, rfl, by decide, by decide⟩
  | list items => exact ⟨_, _, by rw [render], by decide, by decide⟩
  | map entries => exact ⟨_, _, by rw [render], by decide, by decide⟩

theorem skipSpace_cons {c : Char} (cs : List Char) (h : isBlank c = false) :
    skipSpace (c :: cs) = c :: cs := by
  rw [skipSpace, dropWhile_cons, h]
  rfl

theorem skipSpace_render (rest : List Char) : skipSpace (render v ++ rest) = render v ++ rest := by
  obtain ⟨c, cs, hcs, hblank, _⟩ := render_head v
  rw [hcs, cons_append, skipSpace_cons _ hblank]

theorem renderItems_head (items : List Value) :
    ∃ tail, renderItems (v :: items) = render v ++ tail := by
  cases items with
  | nil => exact ⟨[], by rw [renderItems, append_nil]⟩
  | cons next rest => exact ⟨_, by rw [renderItems]⟩

theorem renderEntries_head (k : String) (v : Value) (entries : List (String × Value)) :
    ∃ tail, renderEntries ((k, v) :: entries) = renderString k ++ ':' :: (render v ++ tail) := by
  cases entries with
  | nil => exact ⟨[], by rw [renderEntries, append_nil]⟩
  | cons next rest => exact ⟨_, by rw [renderEntries]⟩

theorem length_render_pos : 1 ≤ (render v).length := by
  obtain ⟨c, cs, hcs, _⟩ := render_head v
  rw [hcs, length_cons]
  omega

def ReadsBack : Prop :=
  ∀ rest fuel, Ends rest → v.Unique → 2 * (render v).length ≤ fuel →
    readValue fuel (render v ++ rest) = some (v, rest)

theorem readItems_render {items : List Value} (hne : items ≠ [])
    (hitems : ∀ v ∈ items, ReadsBack v) (hunique : ∀ v ∈ items, v.Unique) (rest : List Char)
    (fuel : Nat) (hfuel : 2 * (renderItems items).length + 1 ≤ fuel) :
    readItems fuel (renderItems items ++ ']' :: rest) = some (items, rest) := by
  induction items generalizing fuel with
  | nil => exact absurd rfl hne
  | cons v items ih =>
    obtain ⟨n, rfl⟩ : ∃ n, fuel = n + 1 := ⟨fuel - 1, by omega⟩
    have hv := hitems v mem_cons_self
    have hvu := hunique v mem_cons_self
    cases items with
    | nil =>
      rw [renderItems] at hfuel ⊢
      rw [readItems, hv _ n (ends_cons rest (by decide)) hvu (by omega)]
      simp only [Option.bind_eq_bind, Option.bind_some]
      rw [skipSpace_cons _ (by decide)]
      simp
    | cons next items =>
      rw [renderItems, length_append, length_cons] at hfuel
      have hpos := length_render_pos v
      have hrest := ih (cons_ne_nil _ _) (fun u hu => hitems u (mem_cons_of_mem _ hu))
        (fun u hu => hunique u (mem_cons_of_mem _ hu)) n (by omega)
      obtain ⟨tail, htail⟩ := renderItems_head next items
      have hskip : skipSpace (renderItems (next :: items) ++ ']' :: rest) =
          renderItems (next :: items) ++ ']' :: rest := by
        rw [htail, append_assoc, skipSpace_render]
      rw [renderItems, append_assoc, cons_append, readItems,
        hv _ n (ends_cons _ (by decide)) hvu (by omega)]
      simp only [Option.bind_eq_bind, Option.bind_some]
      rw [skipSpace_cons _ (by decide)]
      simp only [if_true, hskip, hrest, Option.bind_some]

variable {entries : List (String × Value)}

theorem readEntries_render (hne : entries ≠ []) (hentries : ∀ kv ∈ entries, ReadsBack kv.2)
    (hunique : ∀ kv ∈ entries, kv.2.Unique) (rest : List Char) (fuel : Nat)
    (hfuel : 2 * (renderEntries entries).length + 1 ≤ fuel) :
    readEntries fuel (renderEntries entries ++ Char.ofNat 0x7d :: rest) = some (entries, rest) := by
  induction entries generalizing fuel with
  | nil => exact absurd rfl hne
  | cons kv entries ih =>
    obtain ⟨k, v⟩ := kv
    obtain ⟨n, rfl⟩ : ∃ n, fuel = n + 1 := ⟨fuel - 1, by omega⟩
    have hv : ReadsBack v := hentries _ mem_cons_self
    have hvu : v.Unique := hunique _ mem_cons_self
    have hcolon : ∀ tail, skipSpace (':' :: tail) = ':' :: tail :=
      fun tail => skipSpace_cons tail (by decide)
    cases entries with
    | nil =>
      rw [renderEntries, length_append, length_cons] at hfuel
      have hread := readString_renderString k (':' :: (render v ++ Char.ofNat 0x7d :: rest))
      have htext : renderEntries [(k, v)] ++ Char.ofNat 0x7d :: rest = quote ::
          (k.toList.flatMap escapeChar ++ quote :: ':' :: (render v ++ Char.ofNat 0x7d :: rest)) := by
        simp only [renderEntries, renderString, cons_append, append_assoc,
          nil_append]
      rw [htext, readEntries, if_pos rfl, hread]
      simp only [Option.bind_eq_bind, Option.bind_some, hcolon, if_true, skipSpace_render]
      rw [hv _ n (ends_cons rest (by decide)) hvu (by omega)]
      simp only [Option.bind_some]
      rw [skipSpace_cons _ (by decide)]
      simp [String.ofList_toList]
    | cons next entries =>
      rw [renderEntries, length_append, length_cons, length_append,
        length_cons] at hfuel
      have hrest := ih (cons_ne_nil _ _) (fun u hu => hentries u (mem_cons_of_mem _ hu))
        (fun u hu => hunique u (mem_cons_of_mem _ hu)) n (by omega)
      obtain ⟨k', v'⟩ := next
      obtain ⟨tail, htail⟩ := renderEntries_head k' v' entries
      have hskip : skipSpace (renderEntries ((k', v') :: entries) ++ Char.ofNat 0x7d :: rest) =
          renderEntries ((k', v') :: entries) ++ Char.ofNat 0x7d :: rest := by
        rw [htail, append_assoc, renderString, cons_append,
          skipSpace_cons _ (by decide)]
      have hread := readString_renderString k (':' :: (render v ++ ',' ::
        (renderEntries ((k', v') :: entries) ++ Char.ofNat 0x7d :: rest)))
      have htext : renderEntries ((k, v) :: (k', v') :: entries) ++ Char.ofNat 0x7d :: rest =
          quote :: (k.toList.flatMap escapeChar ++ quote :: ':' :: (render v ++ ',' ::
            (renderEntries ((k', v') :: entries) ++ Char.ofNat 0x7d :: rest))) := by
        simp only [renderEntries, renderString, cons_append, append_assoc,
          nil_append]
      rw [htext, readEntries, if_pos rfl, hread]
      simp only [Option.bind_eq_bind, Option.bind_some, hcolon, if_true, skipSpace_render]
      rw [hv _ n (ends_cons _ (by decide)) hvu (by omega)]
      simp only [Option.bind_some]
      rw [skipSpace_cons _ (by decide)]
      simp only [if_true, hskip, hrest, Option.bind_some, String.ofList_toList]

theorem setEntries_fresh {k : String} {v : Value} (h : k ∉ entries.map Prod.fst) :
    PyDict.setEntries k v entries = entries ++ [(k, v)] := by
  induction entries with
  | nil => rfl
  | cons kv rest ih =>
    obtain ⟨hne, hrest⟩ : k ≠ kv.1 ∧ k ∉ rest.map Prod.fst := by simpa using h
    rw [PyDict.setEntries, if_neg hne.symm, ih hrest, cons_append]

theorem foldl_setEntries {pairs entries : List (String × Value)}
    (h : ((entries ++ pairs).map Prod.fst).Nodup) :
    pairs.foldl (fun d kv => PyDict.setEntries kv.1 kv.2 d) entries = entries ++ pairs := by
  induction pairs generalizing entries with
  | nil => rw [foldl_nil, append_nil]
  | cons kv rest ih =>
    have hsplit : entries ++ kv :: rest = entries ++ [kv] ++ rest := by simp
    have hfresh : kv.1 ∉ entries.map Prod.fst := by
      rw [map_append, map_cons] at h
      intro hmem
      exact (nodup_append.mp h).2.2 _ hmem _ mem_cons_self rfl
    rw [foldl_cons, setEntries_fresh hfresh, ih (hsplit ▸ h), ← hsplit]

theorem dictOf_unique {pairs : List (String × Value)} (h : (pairs.map Prod.fst).Nodup) :
    dictOf pairs = pairs := by
  rw [dictOf, foldl_setEntries (by rwa [nil_append]), nil_append]

theorem readWord_ne {word : List Char} {v : Value} {c w : Char} {cs : List Char}
    (h : c ≠ w) : readWord (w :: word) v (c :: cs) = none := by
  have hpre : (w :: word).isPrefixOf (c :: cs) = false := by
    rw [isPrefixOf_cons_cons, beq_false_of_ne h.symm, Bool.false_and]
  rw [readWord, hpre]
  rfl

theorem readsBack_int (n : Int) : ReadsBack (.int n) := by
  intro rest fuel hends _ hfuel
  have hnumber := readNumber_renderInt n hends
  obtain ⟨c, cs, hcs, _⟩ := render_head (.int n)
  have hchar : c = '-' ∨ c.isDigit = true := by
    rw [render, renderInt] at hcs
    split at hcs
    · exact Or.inl (head_eq_of_cons_eq hcs).symm
    · refine Or.inr (toDigits_isDigit n.natAbs c ?_)
      rw [hcs]
      exact mem_cons_self
  -- no other kind of value begins with a digit or a minus
  have hother : ∀ d, d ≠ '-' → d.isDigit = false → c ≠ d := by
    rintro d hd hdigit rfl
    rcases hchar with h | h
    · exact hd h
    · rw [hdigit] at h
      cases h
  have hpos := length_render_pos (.int n)
  obtain ⟨m, rfl⟩ : ∃ m, fuel = m + 1 := ⟨fuel - 1, by omega⟩
  rw [render] at hcs ⊢
  rw [hcs, cons_append] at hnumber ⊢
  rw [readValue, if_neg (hother _ (by decide) (by decide)),
    if_neg (hother _ (by decide) (by decide)), if_neg (hother _ (by decide) (by decide)),
    readWord_ne (hother _ (by decide) (by decide)), readWord_ne (hother _ (by decide) (by decide)),
    readWord_ne (hother _ (by decide) (by decide)), hnumber]
  rfl

theorem readsBack_str (s : String) : ReadsBack (.str s) := by
  intro rest fuel _ _ hfuel
  have hpos := length_render_pos (.str s)
  obtain ⟨m, rfl⟩ : ∃ m, fuel = m + 1 := ⟨fuel - 1, by omega⟩
  have hread := readString_renderString s rest
  have htext : render (.str s) ++ rest = quote :: (s.toList.flatMap escapeChar ++ quote :: rest) := by
    simp only [render, renderString, cons_append, append_assoc, nil_append]
  rw [htext, readValue, if_pos rfl, hread]
  simp only [Option.bind_eq_bind, Option.bind_some, String.ofList_toList]

theorem readsBack_list {items : List Value} (hitems : ∀ v ∈ items, ReadsBack v) :
    ReadsBack (.list items) := by
  intro rest fuel _ hunique hfuel
  cases hunique with
  | list hunique =>
    rw [render, length_cons, length_append, length_singleton] at hfuel
    obtain ⟨m, rfl⟩ : ∃ m, fuel = m + 1 := ⟨fuel - 1, by omega⟩
    have htext : render (.list items) ++ rest = '[' :: (renderItems items ++ ']' :: rest) := by
      simp only [render, cons_append, append_assoc, nil_append]
    rw [htext, readValue, if_neg (by decide), if_neg (by decide), if_pos rfl]
    cases items with
    | nil =>
      rw [renderItems, nil_append, skipSpace_cons _ (by decide)]
      rfl
    | cons v items =>
      obtain ⟨tail, htail⟩ := renderItems_head v items
      obtain ⟨c, cs, hcs, hblank, hclose⟩ := render_head v
      have hread := readItems_render (cons_ne_nil v items) hitems hunique rest m (by omega)
      rw [htail, hcs, cons_append, cons_append] at hread ⊢
      dsimp only
      rw [skipSpace_cons _ hblank, head?_cons, if_neg (fun h => hclose (Option.some.inj h)),
        hread]
      rfl

theorem readValue_map (hentries : ∀ kv ∈ entries, ReadsBack kv.2)
    (hunique : (Value.map entries).Unique) (rest : List Char) {fuel : Nat}
    (hfuel : 2 * (render (.map entries)).length ≤ fuel) :
    readValue fuel (render (.map entries) ++ rest) = some (.map entries, rest) := by
  cases hunique with
  | map hkeys hunique =>
    rw [render, length_cons, length_append, length_singleton] at hfuel
    obtain ⟨m, rfl⟩ : ∃ m, fuel = m + 1 := ⟨fuel - 1, by omega⟩
    have htext : render (.map entries) ++ rest =
        Char.ofNat 0x7b :: (renderEntries entries ++ Char.ofNat 0x7d :: rest) := by
      simp only [render, cons_append, append_assoc, nil_append]
    rw [htext, readValue, if_neg (by decide), if_pos rfl]
    cases entries with
    | nil =>
      rw [renderEntries, nil_append, skipSpace_cons _ (by decide)]
      rfl
    | cons kv entries =>
      obtain ⟨k, v⟩ := kv
      obtain ⟨tail, htail⟩ := renderEntries_head k v entries
      have hread := readEntries_render (cons_ne_nil (k, v) entries) hentries hunique rest m
        (by omega)
      rw [htail, renderString, cons_append, cons_append] at hread ⊢
      dsimp only
      rw [skipSpace_cons _ (by decide), head?_cons, if_neg (by decide), hread]
      simp only [Option.bind_eq_bind, Option.bind_some, dictOf_unique hkeys]

theorem readsBack_map (hentries : ∀ kv ∈ entries, ReadsBack kv.2) : ReadsBack (.map entries) :=
  fun rest _ _ hunique hfuel => readValue_map hentries hunique rest hfuel

theorem reads_back : ReadsBack v := by
  induction v using Value.induct with
  | null =>
    intro rest fuel _ _ hfuel
    obtain ⟨m, rfl⟩ : ∃ m, fuel = m + 1 := ⟨fuel - 1, by simp [render] at hfuel; omega⟩
    rfl
  | bool b =>
    intro rest fuel _ _ hfuel
    have hpos := length_render_pos (.bool b)
    obtain ⟨m, rfl⟩ : ∃ m, fuel = m + 1 := ⟨fuel - 1, by omega⟩
    cases b <;> rfl
  | int n => exact readsBack_int n
  | str s => exact readsBack_str s
  | list items ih => exact readsBack_list ih
  | map entries ih => exact readsBack_map ih
end

section

theorem normalItems_eq (items : List Value) : normalItems items = items.map normal := by
  induction items with
  | nil => rfl
  | cons v rest ih => rw [normalItems, ih, map_cons]

theorem normalEntries_eq (entries : List (String × Value)) :
    normalEntries entries = entries.map fun kv => (kv.1, normal kv.2) := by
  induction entries with
  | nil => rfl
  | cons kv rest ih =>
    obtain ⟨k, v⟩ := kv
    rw [normalEntries, ih, map_cons]

theorem normalEntries_keys (entries : List (String × Value)) :
    (normalEntries entries).map Prod.fst = entries.map Prod.fst := by
  rw [normalEntries_eq, map_map]
  rfl

theorem sortByKey_perm (entries : List (String × Value)) : (sortByKey entries).Perm entries :=
  perm_insertionSort _ entries

theorem normal_unique {v : Value} (h : v.Unique) : (normal v).Unique := by
  induction v using Value.induct with
  | null => exact .null
  | bool b => exact .bool b
  | int n => exact .int n
  | str s => exact .str s
  | list items ih =>
    cases h with
    | list hitems =>
      rw [normal, normalItems_eq]
      refine .list fun v hv => ?_
      obtain ⟨u, hu, rfl⟩ := mem_map.mp hv
      exact ih u hu (hitems u hu)
  | map entries ih =>
    cases h with
    | map hkeys hentries =>
      rw [normal]
      have hperm := sortByKey_perm (normalEntries entries)
      refine .map ?_ fun kv hkv => ?_
      · rw [(hperm.map Prod.fst).nodup_iff, normalEntries_keys]
        exact hkeys
      · have hmem := hperm.mem_iff.mp hkv
        rw [normalEntries_eq] at hmem
        obtain ⟨u, hu, rfl⟩ := mem_map.mp hmem
        exact ih u hu (hentries u hu)

variable {entries entries' : List (String × Value)}

theorem same_map_mem (h : Same (.map entries) (.map entries')) {k : String} {v : Value}
    (hv : (k, v) ∈ entries) : ∃ v', (k, v') ∈ entries' ∧ Same v v' := by
  unfold Same at h
  rw [normal, normal] at h
  have hsort := Value.map.inj h
  have hperm : (normalEntries entries).Perm (normalEntries entries') := by
    have hfirst := (sortByKey_perm (normalEntries entries)).symm
    rw [hsort] at hfirst
    exact hfirst.trans (sortByKey_perm _)
  have hmem : (k, normal v) ∈ normalEntries entries := by
    rw [normalEntries_eq]
    exact mem_map_of_mem (f := fun kv : String × Value => (kv.1, normal kv.2)) hv
  have hmem' := hperm.mem_iff.mp hmem
  rw [normalEntries_eq] at hmem'
  obtain ⟨⟨k', v'⟩, hkv', he⟩ := mem_map.mp hmem'
  obtain ⟨rfl, hv'⟩ := Prod.mk.inj he
  exact ⟨v', hkv', hv'.symm⟩

theorem same_map_get (h : Same (.map entries) (.map entries'))
    (hkeys : (entries'.map Prod.fst).Nodup) {k : String} {v v' : Value} (hv : (k, v) ∈ entries)
    (hv' : (k, v') ∈ entries') : Same v v' := by
  obtain ⟨u, hu, hsame⟩ := same_map_mem h hv
  have huv := inj_on_of_nodup_map hkeys hu hv' rfl
  rw [← (Prod.mk.inj huv).2]
  exact hsame

theorem same_map_forall (h : Same (.map entries) (.map entries'))
    (hkeys : (entries'.map Prod.fst).Nodup) (hsame : entries.map Prod.fst = entries'.map Prod.fst) :
    List.Forall₂ (fun kv kv' => Same kv.2 kv'.2) entries entries' := by
  have hlength : entries.length = entries'.length := by
    rw [← length_map Prod.fst, hsame, length_map]
  refine forall₂_iff_get.mpr ⟨hlength, ?_⟩
  intro i hi hi'
  have hkey : (entries.get ⟨i, hi⟩).1 = (entries'.get ⟨i, hi'⟩).1 := by
    have hget := getElem_of_eq hsame (by rwa [length_map])
    rwa [getElem_map, getElem_map] at hget
  have hmem' := get_mem entries' ⟨i, hi'⟩
  rw [← Prod.mk.eta (p := entries'.get ⟨i, hi'⟩), ← hkey] at hmem'
  exact same_map_get h hkeys (get_mem entries ⟨i, hi⟩) hmem'
end

section

variable {v v' : Value}

theorem render_injective (hv : v.Unique) (hv' : v'.Unique) (h : render v = render v') : v = v' := by
  have hread := reads_back v [] (2 * (render v).length) ends_nil hv (le_refl _)
  rw [h, reads_back v' [] _ ends_nil hv' (le_refl _)] at hread
  exact (Prod.mk.inj (Option.some.inj hread)).1.symm

theorem dumps_injective (hv : v.Unique) (hv' : v'.Unique) (h : dumps v = dumps v') : Same v v' :=
  render_injective (normal_unique hv) (normal_unique hv') (String.ofList_injective h)

theorem dumps_same (h : Same v v') : dumps v = dumps v' := by
  rw [dumps, h, dumps]

theorem loads_dumps {v : Value} (h : v.Unique) : loads (dumps v) = some (normal v) := by
  have hread := reads_back (normal v) [] (2 * (render (normal v)).length + 2) ends_nil
    (normal_unique h) (by omega)
  have hskip := skipSpace_render (normal v) []
  rw [append_nil] at hread hskip
  simp only [loads, dumps, String.toList_ofList, hskip, hread, Option.bind_eq_bind,
    Option.bind_some]
  rfl
end

end JsonText
