import RaytSystem.JsonRoundTrip

/-! Canonical JSON of Python values, and the identifiers derived from it. -/
namespace RaytSystem.Canonical
open JsonText Value Except

/-- The values that `_canonical_value` tells apart. A mapping is listed with its keys as
`str` renders them, so two keys of one mapping may be equal here. A text with a lone surrogate,
or a mapping that has one among its keys, is `lone`. -/
inductive PyValue where
  | model (fields : List (String × PyValue))
  | datetime (aware : Bool) (micros : Int)
  | enum (value : String)
  | decimal (coefficient exponent : Int)
  | float (finite : Bool)
  | str (s : String)
  | lone
  | mapping (entries : List (String × PyValue))
  | set (items : List PyValue)
  | sequence (items : List PyValue)
  | none
  | bool (b : Bool)
  | int (n : Int)
  | unsupported (typeName : String)

inductive CanonicalFault where
  | valueError (message : String)
  | typeError (message : String)
  deriving DecidableEq, Repr

structure CanonicalEnv where
  nfc : String → String
  isoformat : Int → String
  formatDecimal : Int → Int → String
  sha256Hex : ByteArray → String

variable (env : CanonicalEnv)

mutual
/-- `_canonical_value` of a value that is canonical already: its strings are normalised. -/
def recanonical : Value → Value
  | .str s => .str (env.nfc s)
  | .list items => .list (recanonicalItems items)
  | .map entries => .map (recanonicalEntries entries)
  | .null => .null
  | .bool b => .bool b
  | .int n => .int n
def recanonicalItems : List Value → List Value
  | [] => []
  | v :: rest => recanonical v :: recanonicalItems rest
def recanonicalEntries : List (String × Value) → List (String × Value)
  | [] => []
  | (k, v) :: rest => (k, recanonical v) :: recanonicalEntries rest
end

/-- `sorted(canonical_items, key=canonical_json_bytes)`; bytes of UTF-8 and characters have
one order. -/
def sortItems (items : List Value) : List Value :=
  items.insertionSort fun a b => dumps (recanonical env a) ≤ dumps (recanonical env b)

mutual
def canonicalValue : PyValue → Except CanonicalFault Value
  | .model fields => do
    let entries ← canonicalEntries fields
    pure (.map (dictOf entries))
  | .datetime aware micros =>
    if aware then .ok (.str (env.isoformat micros))
    else .error (.valueError "Canonical timestamps must be timezone-aware")
  | .enum value => .ok (.str value)
  | .decimal coefficient exponent => .ok (.str (env.formatDecimal coefficient exponent))
  | .float finite =>
    if finite then .error (.typeError "Binary floats are forbidden in canonical identity material")
    else .error (.valueError "NaN and Infinity are not canonical JSON")
  | .str s => .ok (.str (env.nfc s))
  -- `UnicodeEncodeError`, when the text is encoded
  | .lone => .error (.valueError "surrogates not allowed")
  | .mapping entries => do
    let entries ← canonicalEntries entries
    pure (.map (dictOf entries))
  | .set items => do
    let items ← canonicalItems items
    pure (.list (sortItems env items))
  | .sequence items => do
    let items ← canonicalItems items
    pure (.list items)
  | .none => .ok .null
  | .bool b => .ok (.bool b)
  | .int n => .ok (.int n)
  | .unsupported typeName =>
    .error (.typeError ("Unsupported canonical JSON value: " ++ typeName))
def canonicalItems : List PyValue → Except CanonicalFault (List Value)
  | [] => .ok []
  | v :: rest => do
    let c ← canonicalValue v
    let cs ← canonicalItems rest
    pure (c :: cs)
def canonicalEntries : List (String × PyValue) → Except CanonicalFault (List (String × Value))
  | [] => .ok []
  | (k, v) :: rest => do
    let c ← canonicalValue v
    let cs ← canonicalEntries rest
    pure ((k, c) :: cs)
end

/-- `canonical_json_bytes` of a value whose integers have 4300 digits at most, which is what
`json.loads` and the contracts' own fields give. -/
def boundedJsonBytes (v : PyValue) : Except CanonicalFault ByteArray := do
  let c ← canonicalValue env v
  pure (dumps c).toUTF8

def faultText : CanonicalFault → String
  | .valueError message => message
  | .typeError message => message

def texts (ss : List String) : PyValue := .sequence (ss.map .str)

def identityMaterial (kind : String) (identity : PyValue) : PyValue :=
  .mapping [("id_scheme_version", .str "1"), ("kind", .str kind), ("identity", identity)]

def boundedId (kind : String) (identity : PyValue) : Except CanonicalFault String := do
  let bytes ← boundedJsonBytes env (identityMaterial kind identity)
  pure (kind ++ "_" ++ env.sha256Hex bytes)

def loadsBytes (bytes : ByteArray) : Option Value := (String.fromUTF8? bytes).bind loads

mutual
def ofJson : Value → PyValue
  | .null => .none
  | .bool b => .bool b
  | .int n => .int n
  | .str s => .str s
  | .list items => .sequence (ofJsonItems items)
  | .map entries => .mapping (ofJsonEntries entries)
def ofJsonItems : List Value → List PyValue
  | [] => []
  | v :: rest => ofJson v :: ofJsonItems rest
def ofJsonEntries : List (String × Value) → List (String × PyValue)
  | [] => []
  | (k, v) :: rest => (k, ofJson v) :: ofJsonEntries rest
end

variable {env : CanonicalEnv}

theorem recanonicalEntries_eq (entries : List (String × Value)) :
    recanonicalEntries env entries = entries.map fun kv => (kv.1, recanonical env kv.2) := by
  induction entries with
  | nil => rfl
  | cons kv rest ih =>
    obtain ⟨k, v⟩ := kv
    rw [recanonicalEntries, ih, List.map_cons]

variable {v : Value}

theorem canonicalItems_ofJson {items : List Value}
    (h : ∀ v ∈ items, canonicalValue env (ofJson v) = .ok (recanonical env v)) :
    canonicalItems env (ofJsonItems items) = .ok (recanonicalItems env items) := by
  induction items with
  | nil => rfl
  | cons v rest ih =>
    rw [ofJsonItems, canonicalItems, h v List.mem_cons_self,
      ih fun u hu => h u (List.mem_cons_of_mem v hu)]
    rfl

theorem canonicalEntries_ofJson {entries : List (String × Value)}
    (h : ∀ kv ∈ entries, canonicalValue env (ofJson kv.2) = .ok (recanonical env kv.2)) :
    canonicalEntries env (ofJsonEntries entries) = .ok (recanonicalEntries env entries) := by
  induction entries with
  | nil => rfl
  | cons kv rest ih =>
    obtain ⟨k, v⟩ := kv
    have hv := h _ List.mem_cons_self
    dsimp only at hv
    rw [ofJsonEntries, canonicalEntries, hv, ih fun u hu => h u (List.mem_cons_of_mem _ hu)]
    rfl

theorem canonicalValue_ofJson (h : v.Unique) :
    canonicalValue env (ofJson v) = .ok (recanonical env v) := by
  induction v using induct with
  | null => rfl
  | bool b => rfl
  | int n => rfl
  | str s => rfl
  | list items ih =>
    cases h with
    | list hitems =>
      rw [ofJson, canonicalValue, canonicalItems_ofJson fun v hv => ih v hv (hitems v hv)]
      rfl
  | map entries ih =>
    cases h with
    | map hkeys hentries =>
      have hunique : ((recanonicalEntries env entries).map Prod.fst).Nodup := by
        rw [recanonicalEntries_eq, List.map_map]
        exact hkeys
      rw [ofJson, canonicalValue, canonicalEntries_ofJson fun kv hkv => ih kv hkv (hentries kv hkv)]
      exact congrArg (fun es => ok (map es)) (dictOf_unique hunique)

theorem mem_setEntries {k : String} {v : Value} {entries : List (String × Value)}
    {kv : String × Value} (h : kv ∈ PyDict.setEntries k v entries) : kv ∈ entries ∨ kv = (k, v) := by
  induction entries with
  | nil => exact Or.inr (List.mem_singleton.mp h)
  | cons first rest ih =>
    rw [PyDict.setEntries] at h
    split at h
    · rcases List.mem_cons.mp h with rfl | h
      · exact Or.inr rfl
      · exact Or.inl (List.mem_cons_of_mem _ h)
    · rcases List.mem_cons.mp h with rfl | h
      · exact Or.inl List.mem_cons_self
      · exact (ih h).imp_left (List.mem_cons_of_mem _)

theorem dictOf_valid {pairs : List (String × Value)} (h : ∀ kv ∈ pairs, kv.2.Unique) :
    (map (dictOf pairs)).Unique := by
  have hfold : ∀ entries : List (String × Value), (map entries).Unique →
      (map (pairs.foldl (fun d kv => PyDict.setEntries kv.1 kv.2 d) entries)).Unique := by
    induction pairs with
    | nil => exact fun _ hentries => hentries
    | cons kv rest ih =>
      intro entries hentries
      cases hentries with
      | map hkeys hvalues =>
        refine ih (fun u hu => h u (List.mem_cons_of_mem kv hu)) _ (.map ?_ ?_)
        · exact PyDict.setEntries_unique _ _ hkeys
        · intro u hu
          rcases mem_setEntries hu with hu | rfl
          · exact hvalues u hu
          · exact h kv List.mem_cons_self
  exact hfold [] (.map List.nodup_nil fun _ hu => absurd hu List.not_mem_nil)

theorem except_bind_ok {α β : Type} {x : Except CanonicalFault α} {f : α → Except CanonicalFault β}
    {b : β} (h : (x >>= f) = .ok b) : ∃ a, x = .ok a ∧ f a = .ok b := by
  cases x with
  | error e => cases h
  | ok a => exact ⟨a, rfl, h⟩

mutual
theorem canonicalValue_unique : ∀ (v : PyValue) (c : Value), canonicalValue env v = .ok c → c.Unique
  | .model fields, c, h => by
    obtain ⟨entries, hentries, hc⟩ := except_bind_ok (by simpa only [canonicalValue] using h)
    obtain rfl := ok.inj hc
    exact dictOf_valid (canonicalEntries_unique fields entries hentries)
  | .datetime aware micros, c, h => by
    rw [canonicalValue] at h
    split at h
    · obtain rfl := ok.inj h
      exact .str _
    · cases h
  | .enum value, c, h => by
    obtain rfl := ok.inj (by simpa only [canonicalValue] using h)
    exact .str _
  | .decimal _ _, c, h => by
    obtain rfl := ok.inj (by simpa only [canonicalValue] using h)
    exact .str _
  | .float finite, c, h => by
    rw [canonicalValue] at h
    split at h <;> cases h
  | .str s, c, h => by
    obtain rfl := ok.inj (by simpa only [canonicalValue] using h)
    exact .str _
  | .lone, c, h => by
    rw [canonicalValue] at h
    cases h
  | .mapping entries, c, h => by
    obtain ⟨entries', hentries, hc⟩ := except_bind_ok (by simpa only [canonicalValue] using h)
    obtain rfl := ok.inj hc
    exact dictOf_valid (canonicalEntries_unique entries entries' hentries)
  | .set items, c, h => by
    obtain ⟨items', hitems, hc⟩ := except_bind_ok (by simpa only [canonicalValue] using h)
    obtain rfl := ok.inj hc
    refine .list fun v hv => canonicalItems_unique items items' hitems v ?_
    exact (List.perm_insertionSort _ items').mem_iff.mp hv
  | .sequence items, c, h => by
    obtain ⟨items', hitems, hc⟩ := except_bind_ok (by simpa only [canonicalValue] using h)
    obtain rfl := ok.inj hc
    exact .list (canonicalItems_unique items items' hitems)
  | .none, c, h => by
    obtain rfl := ok.inj (by simpa only [canonicalValue] using h)
    exact .null
  | .bool b, c, h => by
    obtain rfl := ok.inj (by simpa only [canonicalValue] using h)
    exact .bool b
  | .int n, c, h => by
    obtain rfl := ok.inj (by simpa only [canonicalValue] using h)
    exact .int n
  | .unsupported _, c, h => by
    rw [canonicalValue] at h
    cases h
theorem canonicalItems_unique : ∀ (items : List PyValue) (cs : List Value),
    canonicalItems env items = .ok cs → ∀ c ∈ cs, c.Unique
  | [], cs, h => by
    obtain rfl := ok.inj (by simpa only [canonicalItems] using h)
    exact fun _ hc => absurd hc List.not_mem_nil
  | v :: rest, cs, h => by
    obtain ⟨c, hv, h⟩ := except_bind_ok (by simpa only [canonicalItems] using h)
    obtain ⟨cs', hrest, hcs⟩ := except_bind_ok h
    obtain rfl := ok.inj hcs
    intro u hu
    rcases List.mem_cons.mp hu with rfl | hu
    · exact canonicalValue_unique v _ hv
    · exact canonicalItems_unique rest cs' hrest u hu
theorem canonicalEntries_unique : ∀ (entries : List (String × PyValue))
    (cs : List (String × Value)), canonicalEntries env entries = .ok cs → ∀ kv ∈ cs, kv.2.Unique
  | [], cs, h => by
    obtain rfl := ok.inj (by simpa only [canonicalEntries] using h)
    exact fun _ hc => absurd hc List.not_mem_nil
  | (k, v) :: rest, cs, h => by
    obtain ⟨c, hv, h⟩ := except_bind_ok (by simpa only [canonicalEntries] using h)
    obtain ⟨cs', hrest, hcs⟩ := except_bind_ok h
    obtain rfl := ok.inj hcs
    intro u hu
    rcases List.mem_cons.mp hu with rfl | hu
    · exact canonicalValue_unique v _ hv
    · exact canonicalEntries_unique rest cs' hrest u hu
end

mutual
def writable : Value → Bool
  | .int n => decide (n.natAbs < 10 ^ maxDigits)
  | .list items => writableItems items
  | .map entries => writableEntries entries
  | _ => true
def writableItems : List Value → Bool
  | [] => true
  | v :: rest => writable v && writableItems rest
def writableEntries : List (String × Value) → Bool
  | [] => true
  | (_, v) :: rest => writable v && writableEntries rest
end

def tooManyDigits : CanonicalFault :=
  .valueError "Exceeds the limit (4300 digits) for integer string conversion"

def canonicalJsonBytes (env : CanonicalEnv) (v : PyValue) : Except CanonicalFault ByteArray := do
  let c ← canonicalValue env v
  if writable c then pure (dumps c).toUTF8 else .error tooManyDigits

def deriveId (env : CanonicalEnv) (kind : String) (identity : PyValue) :
    Except CanonicalFault String := do
  let bytes ← canonicalJsonBytes env (identityMaterial kind identity)
  pure (kind ++ "_" ++ env.sha256Hex bytes)

/-- `{"id_scheme_version":"1","identity":{"a":1},"kind":"task"}`. -/
def sampleMaterial : ByteArray :=
  (dumps (.map [("id_scheme_version", .str "1"), ("kind", .str "task"),
    ("identity", .map [("a", .int 1)])])).toUTF8

def sampleSha (bytes : ByteArray) : String :=
  if bytes = sampleMaterial then "fad7307bd3081fc46c97eec5583d36a248bf23aa15634c39514b6c30efa09d21"
  else "x" ++ String.ofList (bytes.data.toList.map fun u => Char.ofNat u.toNat)

def sampleEnv : CanonicalEnv := ⟨id, fun _ => "1970-01-01T00:00:00.000Z", fun _ _ => "0", sampleSha⟩

theorem byteChar_injective : Function.Injective fun u : UInt8 => Char.ofNat u.toNat := by
  intro u u' h
  have hvalid : ∀ w : UInt8, (Char.ofNat w.toNat).toNat = w.toNat := by
    intro w
    have hlt := w.toNat_lt
    have hchar : w.toNat.isValidChar := Or.inl (by omega)
    rw [Char.ofNat, dif_pos hchar]
    rfl
  have hnat := congrArg Char.toNat h
  dsimp only at hnat
  rw [hvalid, hvalid] at hnat
  exact UInt8.toNat_inj.mp hnat

theorem sampleSha_injective : Function.Injective sampleSha := by
  have hother : ∀ s : String,
      "x" ++ s ≠ "fad7307bd3081fc46c97eec5583d36a248bf23aa15634c39514b6c30efa09d21" := by
    intro s h
    have hhead := congrArg (fun t => t.toList.head?) h
    have hx : ("x" ++ s).toList.head? = some 'x' := by simp
    rw [hx] at hhead
    exact absurd hhead (by decide +kernel)
  intro b b' h
  unfold sampleSha at h
  split at h
  next hb =>
    split at h
    next hb' => rw [hb, hb']
    next => exact absurd h.symm (hother _)
  next =>
    split at h
    next => exact absurd h (hother _)
    next =>
      have hlist := String.ofList_injective ((String.append_right_inj "x").mp h)
      have hdata := List.map_injective_iff.mpr byteChar_injective hlist
      exact ByteArray.ext (Array.toList_inj.mp hdata)

end RaytSystem.Canonical
