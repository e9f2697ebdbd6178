import RaytSystem.MetadataIndex
import RaytSystem.TextSpans

/-! The spans of the JSON extractor: when their pointers lead back to the values that they hold. -/
namespace RaytSystem.JsonSpans
open Extraction

section

inductive Json (N : Type)
  | null
  | bool (b : Bool)
  | number (n : N)
  | text (t : Text)
  | array (items : List (Json N))
  | object (entries : List (Text × Json N))

variable {N : Type}

def hexDigit (n : ℕ) : CodePoint := if n < 10 then 48 + n else 87 + n

def escapeChar (c : CodePoint) : Text :=
  if c = 0x22 then [0x5c, 0x22]
  else if c = 0x5c then [0x5c, 0x5c]
  else if c = 0x0a then chars "\\n"
  else if c = 0x0d then chars "\\r"
  else if c = 0x09 then chars "\\t"
  else if c = 0x0c then chars "\\f"
  else if c = 0x08 then chars "\\b"
  else if c < 0x20 then chars "\\u00" ++ [hexDigit (c / 16), hexDigit (c % 16)]
  else [c]

def quoted (t : Text) : Text := 0x22 :: (t.flatMap escapeChar ++ [0x22])

def commas (ts : List Text) : Text := [0x2c].intercalate ts

variable (repr : N → Text)

mutual
def compact : Json N → Text
  | .null => chars "null"
  | .bool b => if b then chars "true" else chars "false"
  | .number n => repr n
  | .text t => quoted t
  | .array items => 0x5b :: (commas (compactItems items) ++ [0x5d])
  | .object entries =>
    let sorted := (compactEntries entries).insertionSort fun a b => a.1 ≤ b.1
    0x7b :: (commas (sorted.map fun entry => quoted entry.1 ++ 0x3a :: entry.2) ++ [0x7d])
def compactItems : List (Json N) → List Text
  | [] => []
  | item :: items => compact item :: compactItems items
def compactEntries : List (Text × Json N) → List (Text × Text)
  | [] => []
  | (key, item) :: entries => (key, compact item) :: compactEntries entries
end
end

section
variable {N : Type}

inductive JsonError
  | text (e : Ingestion.ExtractionError)
  | invalidJson | duplicateKey (key : Text) | noValues | invalidPointer
  deriving DecidableEq

attribute [local instance] text_lawful in
def rejectDuplicateKeys : List (Text × Json N) → List (Text × Json N) →
    Except JsonError (List (Text × Json N))
  | result, [] => .ok result
  | result, (key, value) :: pairs =>
    if key ∈ result.map Prod.fst then .error (.duplicateKey key)
    else rejectDuplicateKeys (result ++ [(key, value)]) pairs

mutual
def hooked : Json N → Except JsonError (Json N)
  | .array items => do
    let items ← hookedItems items
    pure (.array items)
  | .object entries => do
    let pairs ← hookedEntries entries
    let result ← rejectDuplicateKeys [] pairs
    pure (.object result)
  | .null => .ok .null
  | .bool b => .ok (.bool b)
  | .number n => .ok (.number n)
  | .text t => .ok (.text t)
def hookedItems : List (Json N) → Except JsonError (List (Json N))
  | [] => .ok []
  | item :: items => do
    let item ← hooked item
    let items ← hookedItems items
    pure (item :: items)
def hookedEntries : List (Text × Json N) → Except JsonError (List (Text × Json N))
  | [] => .ok []
  | (key, item) :: entries => do
    let item ← hooked item
    let entries ← hookedEntries entries
    pure ((key, item) :: entries)
end

structure JsonLibrary (N : Type) where
  nfc : String → String
  decode : String → Option (Json N)
  repr : N → Text
  pretty : Json N → Text

def replaceChar (c : CodePoint) (new t : Text) : Text :=
  t.flatMap fun d => if d = c then new else [d]

def jsonPointerToken (value : Text) : Text :=
  replaceChar 0x2f (chars "~1") (replaceChar 0x7e (chars "~0") value)

def decimal (n : ℕ) : Text :=
  ((if n = 0 then [0] else Nat.digits 10 n).map (48 + ·)).reverse

def isWhiteSpace (c : CodePoint) : Bool := isSpace c && !(0x1c ≤ c && c ≤ 0x1f)

def trim (t : Text) : Text := (t.dropWhile isWhiteSpace).rdropWhile isWhiteSpace

def jsonLocator (pointer : Text) : Except JsonError Text :=
  let stripped := trim pointer
  if encodable pointer = true ∧ (stripped = [] ∨ (stripped.head? = some 0x2f ∧ 0x0a ∉ stripped)) then
    .ok stripped
  else .error .invalidPointer

structure JsonSpan where
  excerpt : Text
  pointer : Text
  modality : Text := chars "structured_text"
  deriving DecidableEq

structure JsonExtraction where
  document : Text
  spans : List JsonSpan

def children : Json N → List (Text × Json N)
  | .object entries => entries.map fun entry => (jsonPointerToken entry.1, entry.2)
  | .array items => items.zipIdx.map fun entry => (decimal entry.2, entry.1)
  | value => [([], value)]

def pointerOf (token : Text) : Text := if token = [] then [] else 0x2f :: token

def jsonSpans (repr : N → Text) : List (Text × Json N) → Except JsonError (List JsonSpan)
  | [] => .ok []
  | (token, item) :: rest => do
    let pointer ← jsonLocator (pointerOf token)
    let spans ← jsonSpans repr rest
    pure ({ excerpt := compact repr item, pointer } :: spans)

variable (lib : JsonLibrary N)

def loadsUnique (text : String) : Except JsonError (Json N) :=
  match lib.decode text with
  | none => .error .invalidJson
  | some value => hooked value

def loadLines : List String → Except JsonError (List (Json N))
  | [] => .ok []
  | line :: lines => do
    if PyText.strip line = "" then loadLines lines
    else
      let value ← loadsUnique lib line
      let values ← loadLines lines
      pure (value :: values)

def loadDocument (data : ByteArray) (sourcePath : PurePath) : Except JsonError (Json N) :=
  match Ingestion.normalizedText lib.nfc data with
  | .error e => .error (.text e)
  | .ok text =>
    if suffixOf sourcePath.name = chars ".jsonl" then do
      let values ← loadLines lib (PyText.splitLines text)
      pure (.array values)
    else loadsUnique lib text

def extractJson (data : ByteArray) (sourcePath : PurePath) : Except JsonError JsonExtraction := do
  let value ← loadDocument lib data sourcePath
  let spans ← jsonSpans lib.repr (children value)
  if spans = [] then .error .noValues else pure ⟨lib.pretty value, spans⟩
end

section
variable {N : Type}

def unescapeToken : Text → Text
  | 0x7e :: 0x30 :: rest => 0x7e :: unescapeToken rest
  | 0x7e :: 0x31 :: rest => 0x2f :: unescapeToken rest
  | c :: rest => c :: unescapeToken rest
  | [] => []

def arrayIndex (token : Text) : Option ℕ :=
  let index := Nat.ofDigits 10 (token.map (· - 48)).reverse
  if decimal index = token then some index else none

def resolveTokens : List Text → Json N → Option (Json N)
  | [], value => some value
  | token :: tokens, .object entries =>
    (entries.lookup (unescapeToken token)).bind (resolveTokens tokens)
  | token :: tokens, .array items =>
    (arrayIndex token).bind fun index => items[index]?.bind (resolveTokens tokens)
  | _ :: _, _ => none

def resolve : Text → Json N → Option (Json N)
  | [], value => some value
  | c :: pointer, value => if c = 0x2f then resolveTokens (splitOn 0x2f pointer) value else none

structure Located (repr : N → Text) (value : Json N) (spans : List JsonSpan) : Prop where
  resolves : ∀ span ∈ spans, ∃ item, resolve span.pointer value = some item ∧
    compact repr item = span.excerpt
  distinct : (spans.map JsonSpan.pointer).Nodup

def keys : Json N → List Text
  | .object entries => entries.map Prod.fst
  | _ => []

def IsContainer : Json N → Prop
  | .object entries => entries ≠ []
  | .array items => items ≠ []
  | _ => False

def Kept (key : Text) : Prop := key ≠ [] ∧ key.rdropWhile isWhiteSpace = key

def PlainKey (key : Text) : Prop := Kept key ∧ encodable key = true ∧ 0x0a ∉ key
end

section

theorem jsonPointerToken_cons (c : CodePoint) (key : Text) :
    jsonPointerToken (c :: key) = (if c = 0x7e then [0x7e, 0x30] else if c = 0x2f then [0x7e, 0x31]
      else [c]) ++ jsonPointerToken key := by
  unfold jsonPointerToken replaceChar
  rw [List.flatMap_cons, List.flatMap_append]
  congr 1
  by_cases htilde : c = 0x7e
  · rw [if_pos htilde, if_pos htilde]
    rfl
  · rw [if_neg htilde, if_neg htilde, List.flatMap_singleton]
    rfl

theorem jsonPointerToken_append (s t : Text) :
    jsonPointerToken (s ++ t) = jsonPointerToken s ++ jsonPointerToken t := by
  simp [jsonPointerToken, replaceChar]

theorem unescapeToken_jsonPointerToken (key : Text) :
    unescapeToken (jsonPointerToken key) = key := by
  induction key with
  | nil => rfl
  | cons c key ih =>
    rw [jsonPointerToken_cons]
    by_cases htilde : c = 0x7e
    · rw [if_pos htilde, htilde]
      exact congrArg (0x7e :: ·) ih
    · by_cases hslash : c = 0x2f
      · rw [if_neg htilde, if_pos hslash, hslash]
        exact congrArg (0x2f :: ·) ih
      · rw [if_neg htilde, if_neg hslash, List.singleton_append, unescapeToken, ih]
        all_goals
          intro rest h
          exact absurd h htilde

theorem jsonPointerToken_injective : Function.Injective jsonPointerToken :=
  Function.LeftInverse.injective unescapeToken_jsonPointerToken

variable {c : CodePoint} {key : Text}

theorem mem_jsonPointerToken (h : c ∈ jsonPointerToken key) :
    c ≠ 0x2f ∧ (c ∈ key ∨ c = 0x7e ∨ c = 0x30 ∨ c = 0x31) := by
  induction key with
  | nil => cases h
  | cons d key ih =>
    rw [jsonPointerToken_cons, List.mem_append] at h
    rcases h with hfirst | hrest
    · by_cases htilde : d = 0x7e
      · rw [if_pos htilde] at hfirst
        simp only [List.mem_cons, List.not_mem_nil, or_false] at hfirst
        rcases hfirst with rfl | rfl <;> simp
      · by_cases hslash : d = 0x2f
        · rw [if_neg htilde, if_pos hslash] at hfirst
          simp only [List.mem_cons, List.not_mem_nil, or_false] at hfirst
          rcases hfirst with rfl | rfl <;> simp
        · rw [if_neg htilde, if_neg hslash, List.mem_singleton] at hfirst
          subst hfirst
          exact ⟨hslash, Or.inl List.mem_cons_self⟩
    · obtain ⟨hslash, hmem⟩ := ih hrest
      exact ⟨hslash, hmem.imp_left (List.mem_cons_of_mem _)⟩

theorem mem_token_of_mem (h : c ∈ key) (htilde : c ≠ 0x7e) (hslash : c ≠ 0x2f) :
    c ∈ jsonPointerToken key := by
  induction key with
  | nil => cases h
  | cons d key ih =>
    rw [jsonPointerToken_cons, List.mem_append]
    rcases List.mem_cons.mp h with rfl | hrest
    · left
      rw [if_neg htilde, if_neg hslash]
      exact List.mem_singleton_self c
    · exact Or.inr (ih hrest)

theorem jsonPointerToken_eq_nil : jsonPointerToken key = [] ↔ key = [] := by
  constructor
  · intro h
    exact jsonPointerToken_injective h
  · rintro rfl
    rfl

theorem rdropWhile_token (key : Text) : (jsonPointerToken key).rdropWhile isWhiteSpace =
    jsonPointerToken (key.rdropWhile isWhiteSpace) := by
  induction key using List.reverseRecOn with
  | nil => rfl
  | append_singleton key c ih =>
    by_cases hwhite : isWhiteSpace c = true
    · have htoken : jsonPointerToken [c] = [c] := by
        have htilde : c ≠ 0x7e := by
          rintro rfl
          cases hwhite
        have hslash : c ≠ 0x2f := by
          rintro rfl
          cases hwhite
        rw [jsonPointerToken_cons, if_neg htilde, if_neg hslash]
        rfl
      rw [jsonPointerToken_append, htoken, List.rdropWhile_concat_pos _ _ _ hwhite,
        List.rdropWhile_concat_pos _ _ _ hwhite, ih]
    · obtain ⟨front, last, htoken, hlast⟩ :
          ∃ front last, jsonPointerToken [c] = front ++ [last] ∧ ¬isWhiteSpace last = true := by
        rw [jsonPointerToken_cons]
        by_cases htilde : c = 0x7e
        · exact ⟨[0x7e], 0x30, by rw [if_pos htilde]; rfl, by decide⟩
        · by_cases hslash : c = 0x2f
          · exact ⟨[0x7e], 0x31, by rw [if_neg htilde, if_pos hslash]; rfl, by decide⟩
          · exact ⟨[], c, by rw [if_neg htilde, if_neg hslash]; rfl, hwhite⟩
      rw [jsonPointerToken_append, htoken, ← List.append_assoc,
        List.rdropWhile_concat_neg _ _ _ hlast, List.rdropWhile_concat_neg _ _ _ hwhite,
        jsonPointerToken_append, htoken, List.append_assoc]

theorem splitOn_plain {t : Text} (h : c ∉ t) : splitOn c t = [t] := by
  induction t with
  | nil => rfl
  | cons d t ih =>
    have hne : d ≠ c := by
      rintro rfl
      exact h List.mem_cons_self
    rw [splitOn, ih fun hmem => h (List.mem_cons_of_mem _ hmem)]
    exact if_neg hne

theorem resolve_token {N : Type} {token : Text} (h : 0x2f ∉ token) (value : Json N) :
    resolve (0x2f :: token) value = resolveTokens [token] value := by
  rw [resolve, if_pos rfl, splitOn_plain h]

theorem ofDigits_decimal (n : ℕ) : Nat.ofDigits 10 ((decimal n).map (· - 48)).reverse = n := by
  have hmap : ((decimal n).map (· - 48)).reverse = if n = 0 then [0] else Nat.digits 10 n := by
    have hid : ((· - 48) ∘ (48 + ·) : ℕ → ℕ) = id := by
      funext m
      exact Nat.add_sub_cancel_left 48 m
    rw [decimal, List.map_reverse, List.reverse_reverse, List.map_map, hid, List.map_id]
  rw [hmap]
  split
  next hzero => simp [hzero]
  next => exact Nat.ofDigits_digits 10 n

theorem arrayIndex_decimal (n : ℕ) : arrayIndex (decimal n) = some n := by
  unfold arrayIndex
  dsimp only
  rw [ofDigits_decimal, if_pos rfl]

theorem decimal_injective : Function.Injective decimal := by
  intro m n h
  have hindex := congrArg arrayIndex h
  rwa [arrayIndex_decimal, arrayIndex_decimal, Option.some.injEq] at hindex

theorem mem_decimal {n : ℕ} (h : c ∈ decimal n) : 48 ≤ c ∧ c < 58 := by
  rw [decimal, List.mem_reverse, List.mem_map] at h
  obtain ⟨d, hd, rfl⟩ := h
  have hdigit : d < 10 := by
    split at hd
    · rw [List.mem_singleton] at hd
      omega
    · exact Nat.digits_lt_base (by omega) hd
  exact ⟨Nat.le_add_right 48 d, Nat.add_lt_add_left hdigit 48⟩

theorem decimal_ne_nil (n : ℕ) : decimal n ≠ [] := by
  unfold decimal
  rw [Ne, List.reverse_eq_nil_iff, List.map_eq_nil_iff]
  split
  · simp
  next h => exact Nat.digits_ne_nil_iff_ne_zero.mpr h
end

theorem slash_not_white : isWhiteSpace 0x2f = false := by decide

theorem trim_pointerOf (key : Text) : trim (pointerOf (jsonPointerToken key)) =
    if key = [] then [] else 0x2f :: jsonPointerToken (key.rdropWhile isWhiteSpace) := by
  unfold pointerOf
  by_cases hempty : key = []
  · rw [hempty]
    rfl
  · rw [if_neg hempty, if_neg (mt jsonPointerToken_eq_nil.mp hempty), trim,
      List.dropWhile_cons_of_neg (by simp [slash_not_white]), ← rdropWhile_token]
    -- the slash in front stays
    have hfront : ∀ t : Text, (0x2f :: t).rdropWhile isWhiteSpace = 0x2f :: t.rdropWhile isWhiteSpace := by
      intro t
      induction t using List.reverseRecOn with
      | nil =>
        exact List.rdropWhile_concat_neg isWhiteSpace [] 0x2f (by simp [slash_not_white])
      | append_singleton t c ih =>
        rw [← List.cons_append]
        by_cases hwhite : isWhiteSpace c = true
        · rw [List.rdropWhile_concat_pos _ _ _ hwhite, List.rdropWhile_concat_pos _ _ _ hwhite, ih]
        · rw [List.rdropWhile_concat_neg _ _ _ hwhite, List.rdropWhile_concat_neg _ _ _ hwhite,
            List.cons_append]
    exact hfront _

theorem jsonLocator_ok {pointer stripped : Text} (h : jsonLocator pointer = .ok stripped) :
    stripped = trim pointer ∧ encodable pointer = true ∧ (0x0a ∉ trim pointer) := by
  unfold jsonLocator at h
  dsimp only at h
  split at h
  next hok =>
    obtain rfl := Except.ok.inj h
    refine ⟨rfl, hok.1, ?_⟩
    rcases hok.2 with hnil | hslash
    · rw [hnil]
      exact List.not_mem_nil
    · exact hslash.2
  next => cases h

theorem encodable_pointer {key : Text} :
    encodable (pointerOf (jsonPointerToken key)) = true ↔ encodable key = true := by
  have htoken : encodable (jsonPointerToken key) = true ↔ encodable key = true := by
    induction key with
    | nil => rfl
    | cons c key ih =>
      rw [jsonPointerToken_cons]
      simp only [encodable, List.all_append, List.all_cons, Bool.and_eq_true] at ih ⊢
      rw [ih]
      apply and_congr_left
      intro _
      by_cases htilde : c = 0x7e
      · simp [htilde]
      · by_cases hslash : c = 0x2f
        · simp [hslash]
        · simp [htilde, hslash]
  unfold pointerOf
  by_cases hempty : key = []
  · simp [hempty, jsonPointerToken_eq_nil.mpr]
  · rw [if_neg (mt jsonPointerToken_eq_nil.mp hempty), ← htoken]
    simp [encodable]

theorem jsonLocator_kept {key : Text} (h : Kept key) :
    (∃ pointer, jsonLocator (pointerOf (jsonPointerToken key)) = .ok pointer) ↔ PlainKey key := by
  have htrim := trim_pointerOf key
  rw [if_neg h.1, h.2] at htrim
  have hfeed : 0x0a ∉ trim (pointerOf (jsonPointerToken key)) ↔ 0x0a ∉ key := by
    rw [htrim, not_iff_not]
    constructor
    · intro hmem
      rcases List.mem_cons.mp hmem with hslash | htoken
      · cases hslash
      · rcases (mem_jsonPointerToken htoken).2 with hkey | hother
        · exact hkey
        · rcases hother with hc | hc | hc <;> cases hc
    · intro hmem
      exact List.mem_cons_of_mem _ (mem_token_of_mem hmem (by decide) (by decide))
  constructor
  · rintro ⟨pointer, hpointer⟩
    obtain ⟨-, hencodable, hno⟩ := jsonLocator_ok hpointer
    exact ⟨h, encodable_pointer.mp hencodable, hfeed.mp hno⟩
  · rintro ⟨-, hencodable, hno⟩
    refine ⟨trim (pointerOf (jsonPointerToken key)), ?_⟩
    unfold jsonLocator
    dsimp only
    have hslash : (trim (pointerOf (jsonPointerToken key))).head? = some 0x2f := by
      rw [htrim]
      rfl
    rw [if_pos ⟨encodable_pointer.mpr hencodable, Or.inr ⟨hslash, hfeed.mpr hno⟩⟩]

theorem jsonLocator_decimal (n : ℕ) :
    jsonLocator (pointerOf (decimal n)) = .ok (0x2f :: decimal n) := by
  have hrange : ∀ c ∈ 0x2f :: decimal n, 47 ≤ c ∧ c < 58 := by
    intro c hc
    rcases List.mem_cons.mp hc with rfl | hdigit
    · decide
    · exact ⟨Nat.le_of_succ_le (mem_decimal hdigit).1, (mem_decimal hdigit).2⟩
  have hwhite : ∀ c ∈ 0x2f :: decimal n, isWhiteSpace c = false := by
    intro c hc
    obtain ⟨hlow, hhigh⟩ := hrange c hc
    obtain ⟨k, hk, rfl⟩ : ∃ k < 11, c = 47 + k :=
      ⟨c - 47, Nat.sub_lt_left_of_lt_add hlow hhigh, (Nat.add_sub_of_le hlow).symm⟩
    have hall : ∀ k < 11, isWhiteSpace (47 + k) = false := by decide
    exact hall k hk
  have htrim : trim (0x2f :: decimal n) = 0x2f :: decimal n := by
    rw [trim, List.dropWhile_cons_of_neg (by simp [slash_not_white]), List.rdropWhile_eq_self_iff]
    intro hne
    rw [hwhite _ (List.getLast_mem hne)]
    nofun
  have hencodable : encodable (0x2f :: decimal n) = true := by
    rw [encodable, List.all_eq_true]
    intro c hc
    have hlow : ¬0xd800 ≤ c := Nat.not_le_of_lt (Nat.lt_trans (hrange c hc).2 (by decide))
    simp [hlow]
  have hfeed : 0x0a ∉ 0x2f :: decimal n := by
    intro hmem
    exact absurd (hrange _ hmem).1 (by decide)
  rw [pointerOf, if_neg (decimal_ne_nil n), jsonLocator]
  rw [htrim, if_pos ⟨hencodable, Or.inr ⟨rfl, hfeed⟩⟩]

section
variable {N : Type} {repr : N → Text}

def spanAt (repr : N → Text) (child : Text × Json N) : JsonSpan where
  excerpt := compact repr child.2
  pointer := trim (pointerOf child.1)

theorem jsonSpans_ok {cs : List (Text × Json N)} {spans : List JsonSpan} :
    jsonSpans repr cs = .ok spans ↔
      (∀ child ∈ cs, ∃ pointer, jsonLocator (pointerOf child.1) = .ok pointer) ∧
        spans = cs.map (spanAt repr) := by
  induction cs generalizing spans with
  | nil => simp [jsonSpans, eq_comm]
  | cons child cs ih =>
    obtain ⟨token, item⟩ := child
    simp only [jsonSpans, bind, Except.bind, pure, Except.pure, List.forall_mem_cons,
      List.map_cons]
    cases hpointer : jsonLocator (pointerOf token) with
    | error e => simp
    | ok pointer =>
      have hspan : { excerpt := compact repr item, pointer } = spanAt repr (token, item) := by
        rw [(jsonLocator_ok hpointer).1]
        rfl
      dsimp only
      rw [hspan]
      cases hrest : jsonSpans repr cs with
      | error e =>
        have hnone : ¬∀ child ∈ cs, ∃ pointer, jsonLocator (pointerOf child.1) = .ok pointer := by
          intro hall
          have hok := ih.mpr ⟨hall, rfl⟩
          rw [hrest] at hok
          cases hok
        constructor
        · intro h
          cases h
        · exact fun h => absurd h.1.2 hnone
      | ok rest =>
        obtain ⟨hall, rfl⟩ := ih.mp hrest
        constructor
        · intro h
          exact ⟨⟨⟨pointer, rfl⟩, hall⟩, (Except.ok.inj h).symm⟩
        · rintro ⟨-, rfl⟩
          rfl

variable {entries : List (Text × Json N)}

theorem rejectDuplicateKeys_unique (result pairs : List (Text × Json N))
    (h : (result.map Prod.fst).Nodup) (hok : rejectDuplicateKeys result pairs = .ok entries) :
    (entries.map Prod.fst).Nodup := by
  induction pairs generalizing result with
  | nil =>
    obtain rfl := Except.ok.inj hok
    exact h
  | cons pair pairs ih =>
    obtain ⟨key, value⟩ := pair
    rw [rejectDuplicateKeys] at hok
    split at hok
    · cases hok
    next hnew =>
      refine ih _ ?_ hok
      rw [List.map_append, List.nodup_append]
      refine ⟨h, List.nodup_singleton _, ?_⟩
      intro a ha b hb
      obtain rfl := List.mem_singleton.mp hb
      rintro rfl
      exact hnew ha

theorem hooked_object {value : Json N} (h : hooked value = .ok (.object entries)) :
    (entries.map Prod.fst).Nodup := by
  cases value with
  | object pairs =>
    rw [hooked] at h
    simp only [bind, Except.bind, pure, Except.pure] at h
    split at h
    · cases h
    · split at h
      · cases h
      next result hresult =>
        cases h
        exact rejectDuplicateKeys_unique [] _ List.nodup_nil hresult
  | array items =>
    rw [hooked] at h
    simp only [bind, Except.bind, pure, Except.pure] at h
    split at h <;> cases h
  | null => cases h
  | bool b => cases h
  | number n => cases h
  | text t => cases h

theorem loadDocument_object {lib : JsonLibrary N} {data : ByteArray} {sourcePath : PurePath}
    (h : loadDocument lib data sourcePath = .ok (.object entries)) :
    (entries.map Prod.fst).Nodup := by
  unfold loadDocument at h
  split at h
  · cases h
  · split at h
    · simp only [bind, Except.bind, pure, Except.pure] at h
      split at h <;> cases h
    · unfold loadsUnique at h
      split at h
      · cases h
      · exact hooked_object h

theorem compactEntries_eq (entries : List (Text × Json N)) :
    compactEntries repr entries = entries.map fun entry => (entry.1, compact repr entry.2) := by
  induction entries with
  | nil => rfl
  | cons entry entries ih =>
    obtain ⟨key, item⟩ := entry
    rw [compactEntries, ih]
    rfl

theorem length_le_commas {t : Text} {ts : List Text} (h : t ∈ ts) :
    t.length ≤ (commas ts).length := by
  have hmem : t ∈ ts.intersperse [0x2c] := by
    induction ts with
    | nil => cases h
    | cons first ts ih =>
      cases ts with
      | nil => exact h
      | cons second ts =>
        rw [List.intersperse_cons_cons]
        rcases List.mem_cons.mp h with rfl | hlater
        · exact List.mem_cons_self
        · exact List.mem_cons_of_mem _ (List.mem_cons_of_mem _ (ih hlater))
  exact (List.sublist_flatten_of_mem hmem).length_le

theorem compact_length {entries : List (Text × Json N)} {entry : Text × Json N}
    (h : entry ∈ entries) :
    (compact repr entry.2).length < (compact repr (.object entries)).length := by
  let texts := ((compactEntries repr entries).insertionSort fun a b => a.1 ≤ b.1).map
    fun e => quoted e.1 ++ 0x3a :: e.2
  have hmem : quoted entry.1 ++ 0x3a :: compact repr entry.2 ∈ texts := by
    refine List.mem_map.mpr ⟨(entry.1, compact repr entry.2), ?_, rfl⟩
    rw [(List.perm_insertionSort _ _).mem_iff, compactEntries_eq]
    exact List.mem_map.mpr ⟨entry, h, rfl⟩
  have hlength := length_le_commas hmem
  have hobject : compact repr (.object entries) = 0x7b :: (commas texts ++ [0x7d]) := by
    rw [compact]
  rw [hobject]
  simp only [List.length_cons, List.length_append, List.length_nil] at hlength ⊢
  omega

theorem lookup_mem (hunique : (entries.map Prod.fst).Nodup) {entry : Text × Json N}
    (h : entry ∈ entries) : entries.lookup entry.1 = some entry.2 := by
  induction entries with
  | nil => cases h
  | cons first entries ih =>
    obtain ⟨key, value⟩ := first
    rw [List.map_cons, List.nodup_cons] at hunique
    rcases List.mem_cons.mp h with rfl | hlater
    · exact List.lookup_cons_self
    · have hne : (entry.1 == key) = false := by
        rw [beq_eq_false_iff_ne]
        intro hkey
        apply hunique.1
        exact List.mem_map.mpr ⟨entry, hlater, hkey⟩
      rw [List.lookup_cons, hne]
      exact ih hunique.2 hlater

theorem mem_of_lookup {key : Text} {value : Json N} (h : entries.lookup key = some value) :
    (key, value) ∈ entries := by
  induction entries with
  | nil => cases h
  | cons first entries ih =>
    obtain ⟨k, v⟩ := first
    rw [List.lookup_cons] at h
    split at h
    next heq =>
      obtain rfl := Option.some.inj h
      rw [beq_iff_eq.mp heq]
      exact List.mem_cons_self
    next => exact List.mem_cons_of_mem _ (ih h)

theorem slash_notMem_token (key : Text) : 0x2f ∉ jsonPointerToken key :=
  fun h => (mem_jsonPointerToken h).1 rfl

theorem resolve_key (key : Text) :
    resolve (0x2f :: jsonPointerToken key) (.object entries) = entries.lookup key := by
  rw [resolve_token (slash_notMem_token key), resolveTokens, unescapeToken_jsonPointerToken]
  cases entries.lookup key <;> rfl

theorem located_object (hunique : (entries.map Prod.fst).Nodup) :
    Located repr (.object entries) ((children (.object entries)).map (spanAt repr)) ↔
      ∀ key ∈ keys (.object entries), Kept key := by
  have hspans : (children (.object entries)).map (spanAt repr) = entries.map fun entry =>
      spanAt repr (jsonPointerToken entry.1, entry.2) := by
    rw [children, List.map_map]
    rfl
  have hpointer : ∀ key item, (spanAt repr (jsonPointerToken key, item)).pointer =
      if key = [] then [] else 0x2f :: jsonPointerToken (key.rdropWhile isWhiteSpace) :=
    fun key item => trim_pointerOf key
  rw [hspans]
  constructor
  · intro hlocated
    have hresolve : ∀ entry ∈ entries, ∃ item,
        resolve (spanAt repr (jsonPointerToken entry.1, entry.2)).pointer (.object entries) =
          some item ∧ compact repr item = compact repr entry.2 := fun entry hentry =>
      hlocated.resolves _ (List.mem_map.mpr ⟨entry, hentry, rfl⟩)
    -- the pointer of an empty key is that of the document
    have hnonempty : ∀ entry ∈ entries, entry.1 ≠ [] := by
      intro entry hentry hempty
      obtain ⟨item, hitem, hsame⟩ := hresolve entry hentry
      rw [hpointer, if_pos hempty, resolve, Option.some.injEq] at hitem
      have hlength := @compact_length N repr entries entry hentry
      rw [← hsame, ← hitem] at hlength
      exact lt_irrefl _ hlength
    intro key hkey
    obtain ⟨entry, hentry, rfl⟩ := List.mem_map.mp hkey
    refine ⟨hnonempty entry hentry, ?_⟩
    -- a stripped key is another key, with the same pointer
    by_contra hstripped
    obtain ⟨item, hitem, -⟩ := hresolve entry hentry
    rw [hpointer, if_neg (hnonempty entry hentry), resolve_key] at hitem
    have hother := mem_of_lookup hitem
    have htwice : (entry.1.rdropWhile isWhiteSpace).rdropWhile isWhiteSpace =
        entry.1.rdropWhile isWhiteSpace := List.rdropWhile_idempotent _ _
    have hdistinct := hlocated.distinct
    rw [List.map_map] at hdistinct
    have hequal := List.inj_on_of_nodup_map hdistinct hentry hother
    have hkeys : entry.1 = entry.1.rdropWhile isWhiteSpace := by
      apply congrArg Prod.fst (hequal _)
      rw [Function.comp_apply, Function.comp_apply, hpointer, hpointer,
        if_neg (hnonempty entry hentry), if_neg (hnonempty _ hother), htwice]
    exact hstripped hkeys.symm
  · intro hkept
    have hplain : ∀ entry ∈ entries, (spanAt repr (jsonPointerToken entry.1, entry.2)).pointer =
        0x2f :: jsonPointerToken entry.1 := by
      intro entry hentry
      obtain ⟨hne, htrim⟩ := hkept entry.1 (List.mem_map_of_mem hentry)
      rw [hpointer, if_neg hne, htrim]
    constructor
    · intro span hspan
      obtain ⟨entry, hentry, rfl⟩ := List.mem_map.mp hspan
      refine ⟨entry.2, ?_, rfl⟩
      rw [hplain entry hentry, resolve_key, lookup_mem hunique hentry]
    · have hmap : (entries.map fun entry => spanAt repr (jsonPointerToken entry.1, entry.2)).map
          JsonSpan.pointer = (entries.map Prod.fst).map fun key => 0x2f :: jsonPointerToken key := by
        rw [List.map_map, List.map_map]
        exact List.map_congr_left hplain
      rw [hmap]
      apply hunique.map
      intro a b h
      exact jsonPointerToken_injective (List.cons.inj h).2

theorem located_array {items : List (Json N)} :
    Located repr (.array items) ((children (.array items)).map (spanAt repr)) := by
  have hpointer : ∀ entry : Json N × ℕ,
      (spanAt repr (decimal entry.2, entry.1)).pointer = 0x2f :: decimal entry.2 := fun entry =>
    (jsonLocator_ok (jsonLocator_decimal entry.2)).1.symm
  have hspans : (children (.array items)).map (spanAt repr) = items.zipIdx.map fun entry =>
      spanAt repr (decimal entry.2, entry.1) := by
    rw [children, List.map_map]
    rfl
  rw [hspans]
  constructor
  · intro span hspan
    obtain ⟨⟨item, index⟩, hentry, rfl⟩ := List.mem_map.mp hspan
    refine ⟨item, ?_, rfl⟩
    have hslash : 0x2f ∉ decimal index := fun h => absurd (mem_decimal h).1 (by decide)
    rw [hpointer, resolve_token hslash, resolveTokens, arrayIndex_decimal, Option.bind_some,
      List.mem_zipIdx_iff_getElem?.mp hentry]
    rfl
  · have hmap : (items.zipIdx.map fun entry => spanAt repr (decimal entry.2, entry.1)).map
        JsonSpan.pointer = (List.range items.length).map fun n => 0x2f :: decimal n := by
      rw [List.map_map, List.range_eq_range', ← List.zipIdx_map_snd 0 items, List.map_map]
      exact List.map_congr_left fun entry _ => hpointer entry
    rw [hmap]
    apply List.nodup_range.map
    intro a b h
    exact decimal_injective (List.cons.inj h).2

variable {lib : JsonLibrary N} {data : ByteArray} {sourcePath : PurePath} {value : Json N}

theorem extractJson_ok {e : JsonExtraction} (h : loadDocument lib data sourcePath = .ok value)
    (hcontainer : IsContainer value) : extractJson lib data sourcePath = .ok e ↔
      (∀ child ∈ children value, ∃ pointer, jsonLocator (pointerOf child.1) = .ok pointer) ∧
        e = ⟨lib.pretty value, (children value).map (spanAt lib.repr)⟩ := by
  have hchildren : (children value).map (spanAt lib.repr) ≠ [] := by
    rw [Ne, List.map_eq_nil_iff]
    cases value with
    | object entries => simpa [children, IsContainer] using hcontainer
    | array items => simpa [children, IsContainer] using hcontainer
    | null => exact hcontainer.elim
    | bool b => exact hcontainer.elim
    | number n => exact hcontainer.elim
    | text t => exact hcontainer.elim
  simp only [extractJson, h, bind, Except.bind, pure, Except.pure]
  cases hspans : jsonSpans lib.repr (children value) with
  | error fault =>
    have hnone : ¬∀ child ∈ children value, ∃ pointer,
        jsonLocator (pointerOf child.1) = .ok pointer := by
      intro hall
      have hok : jsonSpans lib.repr (children value) = .ok _ := jsonSpans_ok.mpr ⟨hall, rfl⟩
      rw [hspans] at hok
      cases hok
    constructor
    · intro hfault
      cases hfault
    · exact fun hok => absurd hok.1 hnone
  | ok spans =>
    obtain ⟨hall, rfl⟩ := jsonSpans_ok.mp hspans
    dsimp only
    rw [if_neg hchildren, Except.ok.injEq, eq_comm]
    exact (and_iff_right hall).symm

theorem located_iff (h : loadDocument lib data sourcePath = .ok value)
    (hcontainer : IsContainer value) :
    Located lib.repr value ((children value).map (spanAt lib.repr)) ↔
      ∀ key ∈ keys value, Kept key := by
  cases value with
  | object entries => exact located_object (loadDocument_object h)
  | array items => exact iff_of_true located_array (by simp [keys])
  | null => exact hcontainer.elim
  | bool b => exact hcontainer.elim
  | number n => exact hcontainer.elim
  | text t => exact hcontainer.elim

theorem children_accepted (hcontainer : IsContainer value) (hkept : ∀ key ∈ keys value, Kept key) :
    (∀ child ∈ children value, ∃ pointer, jsonLocator (pointerOf child.1) = .ok pointer) ↔
      ∀ key ∈ keys value, PlainKey key := by
  cases value with
  | object entries =>
    rw [children, keys, List.forall_mem_map, List.forall_mem_map]
    apply forall₂_congr
    intro entry hentry
    exact jsonLocator_kept (hkept entry.1 (List.mem_map_of_mem hentry))
  | array items =>
    rw [children, List.forall_mem_map]
    apply iff_of_true
    · exact fun entry _ => ⟨_, jsonLocator_decimal entry.2⟩
    · simp [keys]
  | null => exact hcontainer.elim
  | bool b => exact hcontainer.elim
  | number n => exact hcontainer.elim
  | text t => exact hcontainer.elim

/-- A container that the reader accepts is extracted, with pointers that are accepted, distinct and
lead back to the values, exactly when all its keys are plain; of an extraction, the pointers are
distinct and lead back exactly when no key is empty or ends in white space. -/
theorem json_pointers_iff (h : loadDocument lib data sourcePath = .ok value)
    (hcontainer : IsContainer value) :
    ((∃ e, extractJson lib data sourcePath = .ok e ∧ Located lib.repr value e.spans) ↔
      ∀ key ∈ keys value, PlainKey key) ∧
    ∀ e, extractJson lib data sourcePath = .ok e →
      (Located lib.repr value e.spans ↔ ∀ key ∈ keys value, Kept key) := by
  constructor
  · constructor
    · rintro ⟨e, he, hlocated⟩
      obtain ⟨hall, rfl⟩ := (extractJson_ok h hcontainer).mp he
      have hkept := (located_iff h hcontainer).mp hlocated
      exact (children_accepted hcontainer hkept).mp hall
    · intro hplain
      have hkept : ∀ key ∈ keys value, Kept key := fun key hkey => (hplain key hkey).1
      have hall := (children_accepted hcontainer hkept).mpr hplain
      exact ⟨_, (extractJson_ok h hcontainer).mpr ⟨hall, rfl⟩, (located_iff h hcontainer).mpr hkept⟩
  · intro e he
    obtain ⟨-, rfl⟩ := (extractJson_ok h hcontainer).mp he
    exact located_iff h hcontainer
end

def plainText : String := "\x7b\"a\": 1, \"b\": [2]\x7d"

def plainValue : Json ℕ := .object [(chars "a", .number 1), (chars "b", .array [.number 2])]

def emptyKeyText : String := "\x7b\"\": 1\x7d"

def sampleLibrary : JsonLibrary ℕ where
  nfc := id
  decode text :=
    if text = plainText then some plainValue
    else if text = emptyKeyText then some (.object [([], .number 1)])
    else none
  repr := decimal
  pretty value := compact decimal value

def samplePath : PurePath := parsePath (chars "sources/sample.json")

theorem load_plain :
    loadDocument sampleLibrary plainText.toUTF8 samplePath = .ok plainValue := by
  rw [loadDocument, show sampleLibrary.nfc = id from rfl, Ingestion.normalizedText_toUTF8]
  rfl

theorem load_emptyKey : loadDocument sampleLibrary emptyKeyText.toUTF8 samplePath =
    .ok (.object [([], .number 1)]) := by
  rw [loadDocument, show sampleLibrary.nfc = id from rfl, Ingestion.normalizedText_toUTF8]
  rfl

/-- A number and a list under two keys. -/
theorem plain_located : ∃ e, extractJson sampleLibrary plainText.toUTF8 samplePath = .ok e ∧
    Located decimal plainValue e.spans := by
  apply (json_pointers_iff load_plain (by simp [plainValue, IsContainer])).1.mpr
  intro key hkey
  rcases List.mem_pair.mp hkey with rfl | rfl
  · exact ⟨⟨by decide, by decide⟩, by decide, by decide⟩
  · exact ⟨⟨by decide, by decide⟩, by decide, by decide⟩

/-- The pointer of an empty key leads to the whole document. -/
theorem emptyKey_lost : ∃ e, extractJson sampleLibrary emptyKeyText.toUTF8 samplePath = .ok e ∧
    ¬Located decimal (.object [([], .number 1)]) e.spans := by
  have hextracted : extractJson sampleLibrary emptyKeyText.toUTF8 samplePath =
      .ok ⟨compact decimal (.object [([], .number 1)]), [spanAt decimal ([], .number 1)]⟩ := by
    rw [extractJson, load_emptyKey]
    rfl
  refine ⟨_, hextracted, ?_⟩
  · intro hlocated
    obtain ⟨item, hitem, hsame⟩ := hlocated.resolves _ (List.mem_singleton_self _)
    obtain rfl := Option.some.inj hitem
    revert hsame
    decide

end RaytSystem.JsonSpans
