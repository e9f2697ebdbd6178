import RaytSystem.CanonicalIdentity
import RaytSystem.JsonPointers

/-! The excerpts of a normalised document: how they are written beside their segments, and when they
are read back as they were hashed. -/
namespace RaytSystem.Excerpts
open JsonText Canonical List

section

structure Span where
  excerpt : Extraction.Text
  locator : Value
  modality : String
  unique : locator.Unique

structure Segment where
  segmentId : String
  sourceRevisionId : String
  normalizationId : String
  ordinal : ℕ
  locator : Value
  excerptSha256 : String
  modality : String

inductive PersistError where
  | canonical (e : CanonicalFault)
  | unicodeEncode
  | unsupported (message : String)
  | integrity (message : String)
  | tooLarge

def isScalar (c : ℕ) : Bool := decide c.isValidChar

def encodeText (excerpt : Extraction.Text) : Option String :=
  if excerpt.all isScalar then some (String.ofList (excerpt.map Char.ofNat)) else none

variable (env : CanonicalEnv)

def segmentIdentity (normalizationId : String) (locator : Value) (excerptSha256 : String) : PyValue :=
  .mapping [("normalization_id", .str normalizationId), ("locator", ofJson locator),
    ("excerpt_sha256", .str excerptSha256)]

variable (sourceRevisionId normalizationId : String)

def createSegment (ordinal : ℕ) (locator : Value) (excerptSha256 modality : String) :
    Except CanonicalFault Segment := do
  let segmentId ← boundedId env "seg" (segmentIdentity normalizationId locator excerptSha256)
  pure ⟨segmentId, sourceRevisionId, normalizationId, ordinal, locator, excerptSha256, modality⟩

def createSegments (sourceRevisionId normalizationId : String) :
    ℕ → List Span → Except PersistError (List (Segment × String))
  | _, [] => .ok []
  | ordinal, span :: spans =>
    match encodeText span.excerpt with
    | none => .error .unicodeEncode
    | some excerpt =>
      match createSegment env sourceRevisionId normalizationId ordinal span.locator
          (env.sha256Hex excerpt.toUTF8) span.modality with
      | .error e => .error (.canonical e)
      | .ok segment =>
        match createSegments sourceRevisionId normalizationId (ordinal + 1) spans with
        | .error e => .error e
        | .ok segments => .ok ((segment, excerpt) :: segments)

def canonicalText (v : PyValue) : Except CanonicalFault (List Char) := do
  let c ← canonicalValue env v
  pure (dumps c).toList

def recordLines : List (Segment × String) → Except CanonicalFault (List (List Char))
  | [] => .ok []
  | (segment, excerpt) :: rest => do
    let line ← canonicalText env
      (.mapping [("segment_id", .str segment.segmentId), ("excerpt", .str excerpt)])
    let lines ← recordLines rest
    pure (line :: lines)

structure Stored where
  segments : List Segment
  excerpts : List Char
  excerptsSha256 : String

def fileSha256 (file : List Char) : String := env.sha256Hex (String.ofList file).toUTF8

def normalize (spans : List Span) : Except PersistError Stored :=
  match createSegments env sourceRevisionId normalizationId 0 spans with
  | .error e => .error e
  | .ok segments =>
    if segments = [] then
      .error (.unsupported "Cannot extract evidence from an empty text source")
    else
      match recordLines env segments with
      | .error e => .error (.canonical e)
      | .ok lines =>
        let file := lines.flatMap (· ++ ['\n'])
        .ok ⟨segments.map Prod.fst, file, fileSha256 env file⟩

def fileLines : List Char → List Char → List (List Char)
  | [], line => if line = [] then [] else [line.reverse]
  | '\r' :: '\n' :: rest, line => line.reverse :: fileLines rest []
  | c :: rest, line =>
    if c = '\n' ∨ c = '\r' then line.reverse :: fileLines rest [] else fileLines rest (c :: line)

def textSize (text : List Char) : ℕ := (text.map Char.utf8Size).sum

def loadRecord (excerpts : List (String × String)) (line : List Char) :
    Except PersistError (List (String × String)) :=
  match loads (String.ofList line) with
  | none => .error (.integrity "Normalized excerpt record is invalid")
  | some (.map entries) =>
    if (∀ key ∈ entries.map Prod.fst, key = "segment_id" ∨ key = "excerpt") ∧
        "segment_id" ∈ entries.map Prod.fst ∧ "excerpt" ∈ entries.map Prod.fst then
      match entries.lookup "segment_id", entries.lookup "excerpt" with
      | some (.str segmentId), some (.str excerpt) =>
        if excerpt = "" then .error (.integrity "Normalized excerpt record has invalid values")
        else if segmentId ∈ excerpts.map Prod.fst then
          .error (.integrity "Normalized excerpt ID is duplicated")
        else .ok (excerpts ++ [(segmentId, excerpt)])
      | _, _ => .error (.integrity "Normalized excerpt record has invalid values")
    else .error (.integrity "Normalized excerpt record has invalid fields")
  | some _ => .error (.integrity "Normalized excerpt record has invalid fields")

def loadExcerpts (maxInputBytes : ℕ) (stored : Stored) :
    Except PersistError (List (String × String)) :=
  if maxInputBytes < textSize stored.excerpts then .error .tooLarge
  else if fileSha256 env stored.excerpts ≠ stored.excerptsSha256 then
    .error (.integrity "Normalized excerpts hash mismatch")
  else (fileLines stored.excerpts []).foldlM loadRecord []

def Readable (maxInputBytes : ℕ) (sourceRevisionId normalizationId : String) (spans : List Span) :
    Prop :=
  ∃ stored excerpts, normalize env sourceRevisionId normalizationId spans = .ok stored ∧
    loadExcerpts env maxInputBytes stored = .ok excerpts ∧
    ∀ segment ∈ stored.segments, ∃ excerpt, excerpts.lookup segment.segmentId = some excerpt ∧
      env.sha256Hex excerpt.toUTF8 = segment.excerptSha256
end

section
variable {env : CanonicalEnv}

def hexDigits : List Char :=
  ['0', '1', '2', '3', '4', '5', '6', '7', '8', '9', 'a', 'b', 'c', 'd', 'e', 'f']

structure Lawful (env : CanonicalEnv) : Prop where
  ascii : ∀ s : String, (∀ c ∈ s.toList, c.toNat < 128) → env.nfc s = s
  nonempty : ∀ s, env.nfc s = "" → s = ""
  digest : ∀ bytes, (env.sha256Hex bytes).toList.length = 64 ∧
    ∀ c ∈ (env.sha256Hex bytes).toList, c ∈ hexDigits

def Encodable (span : Span) : Prop := span.excerpt.all isScalar = true

def textOf (span : Span) : String := String.ofList (span.excerpt.map Char.ofNat)

def identityValue (env : CanonicalEnv) (normalizationId : String) (span : Span) : Value :=
  .map [("normalization_id", .str (env.nfc normalizationId)),
    ("locator", recanonical env span.locator),
    ("excerpt_sha256", .str (env.nfc (env.sha256Hex (textOf span).toUTF8)))]

def materialValue (env : CanonicalEnv) (normalizationId : String) (span : Span) : Value :=
  .map [("id_scheme_version", .str (env.nfc "1")), ("kind", .str (env.nfc "seg")),
    ("identity", identityValue env normalizationId span)]

def material (env : CanonicalEnv) (normalizationId : String) (span : Span) : ByteArray :=
  (dumps (materialValue env normalizationId span)).toUTF8

def segmentId (env : CanonicalEnv) (normalizationId : String) (span : Span) : String :=
  "seg" ++ "_" ++ env.sha256Hex (material env normalizationId span)

theorem canonical_identity (normalizationId digest : String) (span : Span) :
    canonicalValue env (segmentIdentity normalizationId span.locator digest) =
      .ok (.map [("normalization_id", .str (env.nfc normalizationId)),
        ("locator", recanonical env span.locator), ("excerpt_sha256", .str (env.nfc digest))]) := by
  have hkeys : dictOf [("normalization_id", .str (env.nfc normalizationId)),
      ("locator", recanonical env span.locator), ("excerpt_sha256", .str (env.nfc digest))] =
      [("normalization_id", .str (env.nfc normalizationId)),
        ("locator", recanonical env span.locator), ("excerpt_sha256", .str (env.nfc digest))] :=
    dictOf_unique (by simp)
  simp only [segmentIdentity, canonicalValue, canonicalEntries, canonicalValue_ofJson span.unique,
    bind, Except.bind, pure, Except.pure, hkeys]

theorem canonical_material (normalizationId : String) (span : Span) :
    canonicalValue env (identityMaterial "seg" (segmentIdentity normalizationId span.locator
        (env.sha256Hex (textOf span).toUTF8))) = .ok (materialValue env normalizationId span) := by
  have hidentity := @canonical_identity env normalizationId (env.sha256Hex (textOf span).toUTF8) span
  have hkeys : ∀ i : Value, dictOf [("id_scheme_version", .str (env.nfc "1")),
      ("kind", .str (env.nfc "seg")), ("identity", i)] =
      [("id_scheme_version", .str (env.nfc "1")), ("kind", .str (env.nfc "seg")), ("identity", i)] :=
    fun i => dictOf_unique (by simp)
  simp only [identityMaterial, canonicalValue, canonicalEntries, hidentity, bind, Except.bind, pure,
    Except.pure, hkeys]
  rfl

theorem createSegment_ok (sourceRevisionId normalizationId : String) (ordinal : ℕ) (span : Span) :
    createSegment env sourceRevisionId normalizationId ordinal span.locator
        (env.sha256Hex (textOf span).toUTF8) span.modality =
      .ok ⟨segmentId env normalizationId span, sourceRevisionId, normalizationId, ordinal,
        span.locator, env.sha256Hex (textOf span).toUTF8, span.modality⟩ := by
  simp only [createSegment, boundedId, boundedJsonBytes, canonical_material, bind, Except.bind, pure,
    Except.pure]
  rfl

def segmentAt (env : CanonicalEnv) (sourceRevisionId normalizationId : String) (place : Span × ℕ) :
    Segment × String :=
  (⟨segmentId env normalizationId place.1, sourceRevisionId, normalizationId, place.2,
    place.1.locator, env.sha256Hex (textOf place.1).toUTF8, place.1.modality⟩, textOf place.1)

theorem createSegments_ok {sourceRevisionId normalizationId : String} {spans : List Span}
    {ordinal : ℕ} {segments : List (Segment × String)} :
    createSegments env sourceRevisionId normalizationId ordinal spans = .ok segments ↔
      (∀ span ∈ spans, Encodable span) ∧
        segments = (spans.zipIdx ordinal).map (segmentAt env sourceRevisionId normalizationId) := by
  induction spans generalizing ordinal segments with
  | nil =>
    rw [createSegments, Except.ok.injEq, eq_comm]
    simp
  | cons span spans ih =>
    rw [createSegments, forall_mem_cons]
    by_cases hscalar : span.excerpt.all isScalar = true
    · have hencode : encodeText span.excerpt = some (textOf span) := by
        rw [encodeText, if_pos hscalar]
        rfl
      simp only [hencode, createSegment_ok]
      cases hrest : createSegments env sourceRevisionId normalizationId (ordinal + 1) spans with
      | error e =>
        have hnone : ¬∀ span ∈ spans, Encodable span := by
          intro hall
          have hok := (@ih (ordinal + 1) _).mpr ⟨hall, rfl⟩
          rw [hrest] at hok
          cases hok
        constructor
        · intro hfault
          cases hfault
        · exact fun h => absurd h.1.2 hnone
      | ok rest =>
        obtain ⟨hall, rfl⟩ := ih.mp hrest
        rw [Except.ok.injEq, eq_comm]
        exact (and_iff_right ⟨hscalar, hall⟩).symm
    · have hencode : encodeText span.excerpt = none := by
        rw [encodeText, if_neg hscalar]
      simp only [hencode]
      constructor
      · intro hfault
        cases hfault
      · exact fun h => absurd h.1.1 hscalar

def lineOf (env : CanonicalEnv) (normalizationId : String) (span : Span) : List Char :=
  render (.map [("excerpt", .str (env.nfc (textOf span))),
    ("segment_id", .str (env.nfc (segmentId env normalizationId span)))])

theorem recordOf_normal (segmentId excerpt : String) :
    normal (.map [("segment_id", .str segmentId), ("excerpt", .str excerpt)]) =
      .map [("excerpt", .str excerpt), ("segment_id", .str segmentId)] := by
  have hle : ¬"segment_id" ≤ "excerpt" := by decide
  simp [normal, normalEntries, sortByKey, insertionSort, orderedInsert, hle]

theorem canonicalText_record (segmentId excerpt : String) :
    canonicalText env (.mapping [("segment_id", .str segmentId), ("excerpt", .str excerpt)]) =
      .ok (render (.map [("excerpt", .str (env.nfc excerpt)),
        ("segment_id", .str (env.nfc segmentId))])) := by
  have hkeys : dictOf [("segment_id", .str (env.nfc segmentId)), ("excerpt", .str (env.nfc excerpt))] =
      [("segment_id", .str (env.nfc segmentId)), ("excerpt", .str (env.nfc excerpt))] :=
    dictOf_unique (by simp)
  simp only [canonicalText, canonicalValue, canonicalEntries, bind, Except.bind, pure, Except.pure,
    hkeys, dumps, recordOf_normal, String.toList_ofList]

theorem recordLines_ok (sourceRevisionId normalizationId : String) (spans : List Span) (ordinal : ℕ) :
    recordLines env ((spans.zipIdx ordinal).map (segmentAt env sourceRevisionId normalizationId)) =
      .ok (spans.map (lineOf env normalizationId)) := by
  induction spans generalizing ordinal with
  | nil => rfl
  | cons span spans ih =>
    rw [zipIdx_cons, map_cons, segmentAt, recordLines, ih (ordinal + 1)]
    simp only [canonicalText_record, bind, Except.bind, pure, Except.pure]
    rfl
end

section
variable {env : CanonicalEnv} {normalizationId : String}

theorem escapeChar_line (c : Char) : '\n' ∉ escapeChar c ∧ '\r' ∉ escapeChar c := by
  have hdigit : ∀ n < 16, hexDigit n ≠ '\n' ∧ hexDigit n ≠ '\r' := by decide
  unfold escapeChar
  split
  · decide
  · split
    · decide
    · split
      · decide
      next hfeed =>
        split
        · decide
        next hreturn =>
          split
          · decide
          · split
            · decide
            · split
              · decide
              · split
                next hlow =>
                  have hhigh := hdigit (c.toNat / 16) (by omega)
                  have hrest := hdigit (c.toNat % 16) (by omega)
                  have hmark : '\n' ≠ backslash ∧ '\r' ≠ backslash := by decide
                  simp [hhigh.1.symm, hhigh.2.symm, hrest.1.symm, hrest.2.symm, hmark]
                next => simp [Ne.symm hfeed, Ne.symm hreturn]

theorem renderString_line (s : String) : '\n' ∉ renderString s ∧ '\r' ∉ renderString s := by
  have hquote : '\n' ≠ quote ∧ '\r' ≠ quote := by decide
  have hchars := fun c : Char => escapeChar_line c
  constructor
  · simp [renderString, hquote.1, fun c => (hchars c).1]
  · simp [renderString, hquote.2, fun c => (hchars c).2]

theorem lineOf_line (span : Span) :
    '\n' ∉ lineOf env normalizationId span ∧ '\r' ∉ lineOf env normalizationId span := by
  have hbraces : '\n' ≠ Char.ofNat 0x7b ∧ '\n' ≠ Char.ofNat 0x7d ∧ '\r' ≠ Char.ofNat 0x7b ∧
      '\r' ≠ Char.ofNat 0x7d := by decide
  have hstrings := fun s : String => renderString_line s
  constructor
  · simp [lineOf, render, renderEntries, hbraces.1, hbraces.2.1, fun s => (hstrings s).1]
  · simp [lineOf, render, renderEntries, hbraces.2.2.1, hbraces.2.2.2, fun s => (hstrings s).2]

theorem fileLines_line {cs : List Char} (hfeed : '\n' ∉ cs) (hreturn : '\r' ∉ cs)
    (rest line : List Char) :
    fileLines (cs ++ '\n' :: rest) line = (line.reverse ++ cs) :: fileLines rest [] := by
  induction cs generalizing line with
  | nil =>
    rw [nil_append, fileLines, if_pos (Or.inl rfl), append_nil]
    exact fun _ h => absurd h (by decide)
  | cons c cs ih =>
    obtain ⟨hc, hcs⟩ := not_or.mp (mt mem_cons.mpr hfeed)
    obtain ⟨hc', hcs'⟩ := not_or.mp (mt mem_cons.mpr hreturn)
    have hno : ¬(c = '\n' ∨ c = '\r') := by
      rintro (rfl | rfl)
      · exact hc rfl
      · exact hc' rfl
    rw [cons_append, fileLines, if_neg hno, ih hcs hcs']
    · simp
    · exact fun _ h => absurd h.symm hc'

theorem fileLines_lines (lines : List (List Char)) (h : ∀ line ∈ lines, '\n' ∉ line ∧ '\r' ∉ line) :
    fileLines (lines.flatMap (· ++ ['\n'])) [] = lines := by
  induction lines with
  | nil => rfl
  | cons line lines ih =>
    obtain ⟨hline, hlines⟩ := forall_mem_cons.mp h
    rw [flatMap_cons, append_assoc, singleton_append,
      fileLines_line hline.1 hline.2, ih hlines]
    rfl

theorem escapeChar_plain {c : Char} (hlow : 0x30 ≤ c.toNat) (hhigh : c.toNat < 128)
    (hmark : c ≠ backslash) : escapeChar c = [c] ∧ c.utf8Size = 1 := by
  have hne : ∀ d : Char, d.toNat < 0x30 → c ≠ d := by
    rintro d hd rfl
    exact absurd hlow (not_le.mpr hd)
  have hsmall : c.val ≤ UInt32.ofNatLT 127 (by decide) :=
    UInt32.le_iff_toNat_le.mpr (Nat.le_of_lt_succ hhigh)
  constructor
  · rw [escapeChar, if_neg (hne _ (by decide)), if_neg hmark, if_neg (hne _ (by decide)),
      if_neg (hne _ (by decide)), if_neg (hne _ (by decide)), if_neg (hne _ (by decide)),
      if_neg (hne _ (by decide)), if_neg (not_lt.mpr (le_trans (by decide) hlow))]
  · rw [Char.utf8Size, if_pos hsmall]

def isPlainAscii (c : Char) : Bool := 0x30 ≤ c.toNat && c.toNat < 128 && c != backslash

theorem ascii_of_plain {cs : List Char} (h : cs.all isPlainAscii = true) :
    ∀ c ∈ cs, c.toNat < 128 ∧ escapeChar c = [c] ∧ c.utf8Size = 1 := by
  intro c hc
  have hplain := all_eq_true.mp h c hc
  simp only [isPlainAscii, Bool.and_eq_true, decide_eq_true_eq, bne_iff_ne] at hplain
  exact ⟨hplain.1.2, escapeChar_plain hplain.1.1 hplain.1.2 hplain.2⟩

theorem hexDigits_ascii : ∀ c ∈ hexDigits, c.toNat < 128 ∧ escapeChar c = [c] ∧ c.utf8Size = 1 :=
  ascii_of_plain (by decide)

theorem kind_ascii :
    ∀ c ∈ ("seg" ++ "_").toList, c.toNat < 128 ∧ escapeChar c = [c] ∧ c.utf8Size = 1 :=
  ascii_of_plain (by decide)

theorem segmentId_chars (hlaw : Lawful env) (span : Span) :
    (segmentId env normalizationId span).toList.length = 68 ∧
      ∀ c ∈ (segmentId env normalizationId span).toList,
        c.toNat < 128 ∧ escapeChar c = [c] ∧ c.utf8Size = 1 := by
  have hdigest := hlaw.digest (material env normalizationId span)
  have hlist : (segmentId env normalizationId span).toList =
      ("seg" ++ "_").toList ++ (env.sha256Hex (material env normalizationId span)).toList := by
    rw [segmentId, String.toList_append]
  rw [hlist, length_append, hdigest.1]
  refine ⟨rfl, fun c hc => ?_⟩
  rcases mem_append.mp hc with hc | hc
  · exact kind_ascii c hc
  · exact hexDigits_ascii c (hdigest.2 c hc)

theorem nfc_segmentId (hlaw : Lawful env) (span : Span) :
    env.nfc (segmentId env normalizationId span) = segmentId env normalizationId span :=
  hlaw.ascii _ fun c hc => ((segmentId_chars hlaw span).2 c hc).1

theorem nfc_empty (hlaw : Lawful env) (s : String) : env.nfc s = "" ↔ s = "" := by
  constructor
  · exact hlaw.nonempty s
  · rintro rfl
    exact hlaw.ascii "" (by simp)

theorem loads_line (span : Span) : loads (String.ofList (lineOf env normalizationId span)) =
      some (.map [("excerpt", .str (env.nfc (textOf span))),
        ("segment_id", .str (env.nfc (segmentId env normalizationId span)))]) := by
  have hunique : (Value.map [("segment_id", .str (env.nfc (segmentId env normalizationId span))),
      ("excerpt", .str (env.nfc (textOf span)))]).Unique := by
    refine .map (by simp) ?_
    intro kv hkv
    simp only [mem_cons, not_mem_nil, or_false] at hkv
    rcases hkv with rfl | rfl
    · exact .str _
    · exact .str _
  have hread := loads_dumps hunique
  rw [dumps, recordOf_normal] at hread
  exact hread

theorem loadRecord_line (hlaw : Lawful env) (excerpts : List (String × String)) (span : Span) :
    loadRecord excerpts (lineOf env normalizationId span) =
      if textOf span = "" then .error (.integrity "Normalized excerpt record has invalid values")
      else if segmentId env normalizationId span ∈ excerpts.map Prod.fst then
        .error (.integrity "Normalized excerpt ID is duplicated")
      else .ok (excerpts ++ [(segmentId env normalizationId span, env.nfc (textOf span))]) := by
  have hkeys : ("segment_id" == "excerpt") = false := by decide
  rw [loadRecord, loads_line]
  simp [lookup, hkeys, nfc_segmentId hlaw, nfc_empty hlaw]

theorem loadRecords_ok (hlaw : Lawful env) {spans : List Span}
    {excerpts result : List (String × String)} :
    (spans.map (lineOf env normalizationId)).foldlM loadRecord excerpts = .ok result ↔
      (∀ span ∈ spans, textOf span ≠ "") ∧ (spans.map (segmentId env normalizationId)).Nodup ∧
        (∀ span ∈ spans, segmentId env normalizationId span ∉ excerpts.map Prod.fst) ∧
        result = excerpts ++
          spans.map fun span => (segmentId env normalizationId span, env.nfc (textOf span)) := by
  induction spans generalizing excerpts with
  | nil =>
    simp only [map_nil, foldlM_nil, pure, Except.pure, Except.ok.injEq]
    rw [eq_comm]
    simp
  | cons span spans ih =>
    rw [map_cons, foldlM_cons, loadRecord_line hlaw]
    simp only [bind, Except.bind, forall_mem_cons, map_cons, nodup_cons]
    by_cases hempty : textOf span = ""
    · simp [hempty]
    · by_cases hin : segmentId env normalizationId span ∈ excerpts.map Prod.fst
      · simp [hempty, hin]
      · rw [if_neg hempty, if_neg hin]
        dsimp only
        rw [ih]
        simp only [map_append, map_cons, map_nil, mem_append,
          mem_singleton, append_assoc, singleton_append, not_or]
        constructor
        · rintro ⟨htexts, hnodup, hfresh, hresult⟩
          refine ⟨⟨hempty, htexts⟩, ⟨?_, hnodup⟩, ⟨hin, fun other h => (hfresh other h).1⟩, hresult⟩
          intro hmem
          obtain ⟨other, hother, hsame⟩ := mem_map.mp hmem
          exact (hfresh other hother).2 hsame
        · rintro ⟨⟨-, htexts⟩, ⟨hnew, hnodup⟩, ⟨-, hfresh⟩, hresult⟩
          refine ⟨htexts, hnodup, fun other hother => ⟨hfresh other hother, ?_⟩, hresult⟩
          exact fun hsame => hnew (hsame ▸ mem_map_of_mem hother)
end

section
variable {env : CanonicalEnv} {normalizationId : String}

def recordOverhead : ℕ := 97

def storedSize (spans : List Span) : ℕ :=
  (spans.map fun span => textSize (renderString (textOf span)) + recordOverhead).sum

theorem textSize_append (a b : List Char) : textSize (a ++ b) = textSize a + textSize b := by
  rw [textSize, map_append, sum_append, textSize, textSize]

theorem textSize_cons (c : Char) (a : List Char) : textSize (c :: a) = c.utf8Size + textSize a := by
  rw [textSize, map_cons, sum_cons, textSize]

theorem renderString_ascii {s : String}
    (h : ∀ c ∈ s.toList, c.toNat < 128 ∧ escapeChar c = [c] ∧ c.utf8Size = 1) :
    textSize (renderString s) = s.toList.length + 2 := by
  have hquote : quote.utf8Size = 1 := by decide
  have hsame : ∀ cs : List Char, (∀ c ∈ cs, c.toNat < 128 ∧ escapeChar c = [c] ∧ c.utf8Size = 1) →
      textSize (cs.flatMap escapeChar) = cs.length := by
    intro cs hcs
    induction cs with
    | nil => rfl
    | cons c cs ih =>
      obtain ⟨hc, hrest⟩ := forall_mem_cons.mp hcs
      rw [flatMap_cons, hc.2.1, singleton_append, textSize_cons, ih hrest, hc.2.2,
        length_cons, Nat.add_comm]
  rw [renderString, textSize_cons, textSize_append, hsame _ h, textSize_cons, hquote]
  change 1 + (s.toList.length + (1 + 0)) = s.toList.length + 2
  omega

theorem textSize_lineOf (hlaw : Lawful env) (span : Span) :
    textSize (lineOf env normalizationId span ++ ['\n']) =
      textSize (renderString (env.nfc (textOf span))) + recordOverhead := by
  have hid := @segmentId_chars env normalizationId hlaw span
  have hidSize := renderString_ascii hid.2
  rw [hid.1] at hidSize
  have hkeys : textSize (renderString "excerpt") = 9 ∧ textSize (renderString "segment_id") = 12 := by
    decide
  have hmarks : (Char.ofNat 0x7b).utf8Size = 1 ∧ (Char.ofNat 0x7d).utf8Size = 1 ∧
      ':'.utf8Size = 1 ∧ ','.utf8Size = 1 ∧ '\n'.utf8Size = 1 := by decide
  have hnil : textSize [] = 0 := rfl
  rw [lineOf, nfc_segmentId hlaw]
  simp only [render, renderEntries, textSize_append, textSize_cons, hidSize, hkeys.1, hkeys.2,
    hmarks.1, hmarks.2.1, hmarks.2.2.1, hmarks.2.2.2.1, hmarks.2.2.2.2, hnil, recordOverhead]
  omega

theorem textSize_file (hlaw : Lawful env) (spans : List Span) :
    textSize ((spans.map (lineOf env normalizationId)).flatMap (· ++ ['\n'])) =
      (spans.map fun span => textSize (renderString (env.nfc (textOf span))) + recordOverhead).sum := by
  induction spans with
  | nil => rfl
  | cons span spans ih =>
    rw [map_cons, flatMap_cons, textSize_append, ih, textSize_lineOf hlaw, map_cons,
      sum_cons]
end

section
variable {env : CanonicalEnv} {normalizationId : String}

def hashed (env : CanonicalEnv) (normalizationId : String) (spans : List Span) : List ByteArray :=
  spans.flatMap fun span =>
    [(textOf span).toUTF8, (env.nfc (textOf span)).toUTF8, material env normalizationId span]

def NoCollision (env : CanonicalEnv) (normalizationId : String) (spans : List Span) : Prop :=
  ∀ a ∈ hashed env normalizationId spans, ∀ b ∈ hashed env normalizationId spans,
    env.sha256Hex a = env.sha256Hex b → a = b

def SameSegment (env : CanonicalEnv) (a b : Span) : Prop :=
  textOf a = textOf b ∧ Same (recanonical env a.locator) (recanonical env b.locator)

theorem materialValue_unique (span : Span) : (materialValue env normalizationId span).Unique :=
  canonicalValue_unique _ _ (canonical_material normalizationId span)

theorem segmentId_eq_iff (hlaw : Lawful env) {spans : List Span}
    (hcollision : NoCollision env normalizationId spans) {a b : Span} (ha : a ∈ spans)
    (hb : b ∈ spans) :
    segmentId env normalizationId a = segmentId env normalizationId b ↔ SameSegment env a b := by
  have hmem : ∀ span ∈ spans, (textOf span).toUTF8 ∈ hashed env normalizationId spans ∧
      material env normalizationId span ∈ hashed env normalizationId spans := by
    intro span hspan
    constructor
    · exact mem_flatMap.mpr ⟨span, hspan, by simp⟩
    · exact mem_flatMap.mpr ⟨span, hspan, by simp⟩
  have hnfc : ∀ bytes, env.nfc (env.sha256Hex bytes) = env.sha256Hex bytes := fun bytes =>
    hlaw.ascii _ fun c hc => (hexDigits_ascii c ((hlaw.digest bytes).2 c hc)).1
  constructor
  · intro hid
    have hdigest := String.append_right_inj ("seg" ++ "_") |>.mp hid
    have hbytes := hcollision _ (hmem a ha).2 _ (hmem b hb).2 hdigest
    have hsame := dumps_injective (materialValue_unique a) (materialValue_unique b)
      (String.toByteArray_inj.mp hbytes)
    have hidentity : Same (identityValue env normalizationId a)
        (identityValue env normalizationId b) :=
      same_map_get hsame (by simp) (k := "identity") (by simp) (by simp)
    have hlocator : Same (recanonical env a.locator) (recanonical env b.locator) :=
      same_map_get hidentity (by simp) (k := "locator") (by simp) (by simp)
    have hexcerpt : Same (.str (env.nfc (env.sha256Hex (textOf a).toUTF8)))
        (.str (env.nfc (env.sha256Hex (textOf b).toUTF8))) :=
      same_map_get hidentity (by simp) (k := "excerpt_sha256") (by simp) (by simp)
    rw [hnfc, hnfc] at hexcerpt
    have htext := hcollision _ (hmem a ha).1 _ (hmem b hb).1 (Value.str.inj hexcerpt)
    exact ⟨String.toByteArray_inj.mp htext, hlocator⟩
  · rintro ⟨htext, hlocator⟩
    have hvalue : Same (materialValue env normalizationId a) (materialValue env normalizationId b) := by
      have hnormal : normal (recanonical env a.locator) = normal (recanonical env b.locator) := hlocator
      simp only [Same, materialValue, identityValue, normal, normalEntries, htext, hnormal]
    rw [segmentId, segmentId, material, material, dumps_same hvalue]
end

section
variable {env : CanonicalEnv} {sourceRevisionId normalizationId : String}

def storedOf (env : CanonicalEnv) (sourceRevisionId normalizationId : String) (spans : List Span) :
    Stored :=
  let file := (spans.map (lineOf env normalizationId)).flatMap (· ++ ['\n'])
  ⟨(spans.zipIdx.map (segmentAt env sourceRevisionId normalizationId)).map Prod.fst, file,
    fileSha256 env file⟩

variable {spans : List Span}

theorem normalize_ok {stored : Stored} :
    normalize env sourceRevisionId normalizationId spans = .ok stored ↔
      spans ≠ [] ∧ (∀ span ∈ spans, Encodable span) ∧
        stored = storedOf env sourceRevisionId normalizationId spans := by
  unfold normalize
  cases hsegments : createSegments env sourceRevisionId normalizationId 0 spans with
  | error e =>
    constructor
    · intro hfault
      cases hfault
    · rintro ⟨-, hall, -⟩
      have hok := (@createSegments_ok env sourceRevisionId normalizationId spans 0 _).mpr ⟨hall, rfl⟩
      rw [hsegments] at hok
      cases hok
  | ok segments =>
    obtain ⟨hall, rfl⟩ := createSegments_ok.mp hsegments
    dsimp only
    by_cases hnil : spans = []
    · subst hnil
      simp
    · have hne : (spans.zipIdx 0).map (segmentAt env sourceRevisionId normalizationId) ≠ [] := by
        simpa using hnil
      rw [if_neg hne, recordLines_ok]
      simp only [Except.ok.injEq]
      rw [eq_comm]
      exact (and_iff_right hnil).trans (and_iff_right hall) |>.symm

theorem loadExcerpts_ok (hlaw : Lawful env) {maxInputBytes : ℕ} {spans : List Span}
    {excerpts : List (String × String)} :
    loadExcerpts env maxInputBytes (storedOf env sourceRevisionId normalizationId spans) =
        .ok excerpts ↔
      (spans.map fun span => textSize (renderString (env.nfc (textOf span))) + recordOverhead).sum ≤
          maxInputBytes ∧ (∀ span ∈ spans, textOf span ≠ "") ∧
        (spans.map (segmentId env normalizationId)).Nodup ∧
        excerpts = spans.map fun span =>
          (segmentId env normalizationId span, env.nfc (textOf span)) := by
  have hlines : fileLines (storedOf env sourceRevisionId normalizationId spans).excerpts [] =
      spans.map (lineOf env normalizationId) := by
    apply fileLines_lines
    intro line hline
    obtain ⟨span, -, rfl⟩ := mem_map.mp hline
    exact lineOf_line span
  have hsize : textSize (storedOf env sourceRevisionId normalizationId spans).excerpts =
      (spans.map fun span =>
        textSize (renderString (env.nfc (textOf span))) + recordOverhead).sum :=
    textSize_file hlaw spans
  have hdigest : ¬fileSha256 env (storedOf env sourceRevisionId normalizationId spans).excerpts ≠
      (storedOf env sourceRevisionId normalizationId spans).excerptsSha256 := not_not.mpr rfl
  rw [loadExcerpts, hlines, hsize, if_neg hdigest]
  split
  next hlarge =>
    constructor
    · intro hfault
      cases hfault
    · exact fun h => absurd h.1 (not_le.mpr hlarge)
  next hsmall =>
    rw [loadRecords_ok hlaw, nil_append, and_iff_right (not_lt.mp hsmall)]
    simp

theorem lookup_map {α : Type} {f g : α → String} {xs : List α} (h : (xs.map f).Nodup) {x : α}
    (hx : x ∈ xs) : (xs.map fun y => (f y, g y)).lookup (f x) = some (g x) := by
  induction xs with
  | nil => cases hx
  | cons y xs ih =>
    rw [map_cons, nodup_cons] at h
    rw [map_cons, lookup_cons]
    by_cases hsame : f x = f y
    · have hxy : x = y ∨ x ∈ xs := mem_cons.mp hx
      rcases hxy with rfl | hin
      · simp
      · exact absurd (hsame ▸ mem_map_of_mem hin) h.1
    · have hin : x ∈ xs := by
        rcases mem_cons.mp hx with rfl | hin
        · exact absurd rfl hsame
        · exact hin
      rw [beq_eq_false_iff_ne.mpr hsame]
      exact ih h.2 hin

theorem readable_digest (hlaw : Lawful env) {maxInputBytes : ℕ}
    (h : Readable env maxInputBytes sourceRevisionId normalizationId spans) :
    ∀ span ∈ spans, env.sha256Hex (env.nfc (textOf span)).toUTF8 =
      env.sha256Hex (textOf span).toUTF8 := by
  obtain ⟨stored, excerpts, hnormalize, hload, hread⟩ := h
  obtain ⟨-, -, rfl⟩ := normalize_ok.mp hnormalize
  obtain ⟨-, -, hnodup, rfl⟩ := (loadExcerpts_ok hlaw).mp hload
  intro span hspan
  obtain ⟨n, hn⟩ := mem_iff_getElem?.mp hspan
  have hplace : (span, n) ∈ spans.zipIdx := mk_mem_zipIdx_iff_getElem?.mpr hn
  have hsegment : (segmentAt env sourceRevisionId normalizationId (span, n)).1 ∈
      (storedOf env sourceRevisionId normalizationId spans).segments :=
    mem_map_of_mem (mem_map_of_mem hplace)
  obtain ⟨excerpt, hlookup, hdigest⟩ := hread _ hsegment
  have hfound := lookup_map (g := fun span => env.nfc (textOf span)) hnodup hspan
  obtain rfl := Option.some.inj (hfound.symm.trans hlookup)
  exact hdigest

/-- What is extracted of a document is read back, every excerpt with the digest of its segment,
exactly when all excerpts are encodable, not empty and in normal form, no two segments are one,
and the file of the excerpts is within the limit for inputs. -/
theorem excerpts_readable_iff (hlaw : Lawful env) (maxInputBytes : ℕ) {spans : List Span}
    (hcollision : NoCollision env normalizationId spans) :
    Readable env maxInputBytes sourceRevisionId normalizationId spans ↔
      spans ≠ [] ∧
        (∀ span ∈ spans, Encodable span ∧ textOf span ≠ "" ∧ env.nfc (textOf span) = textOf span) ∧
        spans.Pairwise (fun a b => ¬SameSegment env a b) ∧ storedSize spans ≤ maxInputBytes := by
  have hids : (spans.map (segmentId env normalizationId)).Nodup ↔
      spans.Pairwise fun a b => ¬SameSegment env a b := by
    rw [List.Nodup, List.pairwise_map]
    constructor
    · intro hdistinct
      apply hdistinct.imp_of_mem
      intro a b ha hb hne hsame
      exact hne ((segmentId_eq_iff hlaw hcollision ha hb).mpr hsame)
    · intro hdistinct
      apply hdistinct.imp_of_mem
      intro a b ha hb hne hsame
      exact hne ((segmentId_eq_iff hlaw hcollision ha hb).mp hsame)
  have hsizes : (∀ span ∈ spans, env.nfc (textOf span) = textOf span) →
      (spans.map fun span =>
        textSize (renderString (env.nfc (textOf span))) + recordOverhead).sum = storedSize spans := by
    intro hnormal
    have hsame : (spans.map fun span =>
        textSize (renderString (env.nfc (textOf span))) + recordOverhead) =
        spans.map fun span => textSize (renderString (textOf span)) + recordOverhead := by
      apply List.map_congr_left
      intro span hspan
      rw [hnormal span hspan]
    rw [hsame, storedSize]
  have hmem : ∀ span ∈ spans, (textOf span).toUTF8 ∈ hashed env normalizationId spans ∧
      (env.nfc (textOf span)).toUTF8 ∈ hashed env normalizationId spans := by
    intro span hspan
    constructor
    · exact List.mem_flatMap.mpr ⟨span, hspan, by simp⟩
    · exact List.mem_flatMap.mpr ⟨span, hspan, by simp⟩
  constructor
  · intro hreadable
    have hdigest := readable_digest hlaw hreadable
    obtain ⟨stored, excerpts, hnormalize, hload, -⟩ := hreadable
    obtain ⟨hne, hencodable, rfl⟩ := normalize_ok.mp hnormalize
    obtain ⟨hsize, htexts, hnodup, -⟩ := (loadExcerpts_ok hlaw).mp hload
    have hnormal : ∀ span ∈ spans, env.nfc (textOf span) = textOf span := by
      intro span hspan
      exact String.toByteArray_inj.mp
        (hcollision _ (hmem span hspan).2 _ (hmem span hspan).1 (hdigest span hspan))
    rw [hsizes hnormal] at hsize
    exact ⟨hne, fun span hspan => ⟨hencodable span hspan, htexts span hspan, hnormal span hspan⟩,
      hids.mp hnodup, hsize⟩
  · rintro ⟨hne, hspans, hdistinct, hsize⟩
    have hnodup := hids.mpr hdistinct
    rw [← hsizes fun span hspan => (hspans span hspan).2.2] at hsize
    refine ⟨_, _, normalize_ok.mpr ⟨hne, fun span hspan => (hspans span hspan).1, rfl⟩,
      (loadExcerpts_ok hlaw).mpr ⟨hsize, fun span hspan => (hspans span hspan).2.1, hnodup, rfl⟩, ?_⟩
    intro segment hsegment
    obtain ⟨pair, hpair, rfl⟩ := List.mem_map.mp hsegment
    obtain ⟨⟨span, n⟩, hplace, rfl⟩ := List.mem_map.mp hpair
    have hspan : span ∈ spans := by
      have hplaces := List.mem_map_of_mem (f := Prod.fst) hplace
      rwa [List.zipIdx_map_fst] at hplaces
    refine ⟨_, lookup_map (g := fun span => env.nfc (textOf span)) hnodup hspan, ?_⟩
    rw [(hspans span hspan).2.2]
    rfl
end

def modelFields (schemaName kind : String) (fields : List (String × Value)) : Value :=
  .map ([("schema_name", .str schemaName), ("schema_version", .str "1.4.0"),
    ("id_scheme_version", .str "1"), ("extensions", .map []), ("kind", .str kind)] ++ fields)

def scalars (t : Extraction.Text) : String := String.ofList (t.map Char.ofNat)

def ofJsonSpan (span : JsonSpans.JsonSpan) : Span where
  excerpt := span.excerpt
  locator := modelFields "JsonLocatorV1" "json" [("pointer", .str (scalars span.pointer))]
  modality := scalars span.modality
  unique := by
    refine .map (by simp) ?_
    intro kv hkv
    simp only [cons_append, nil_append, mem_cons, not_mem_nil, or_false] at hkv
    rcases hkv with rfl | rfl | rfl | rfl | rfl | rfl
    · exact .str _
    · exact .str _
    · exact .str _
    · exact .map (by simp) (by simp)
    · exact .str _
    · exact .str _

def decomposed : String := "\"e\u0301\""

def sampleMark (bytes : ByteArray) : Char :=
  if bytes = "1".toUTF8 then '1' else if bytes = decomposed.toUTF8 then '2' else '0'

def sampleDigest (bytes : ByteArray) : String := String.ofList (replicate 64 (sampleMark bytes))

theorem sampleMark_eq {a b : ByteArray} (h : sampleDigest a = sampleDigest b) :
    sampleMark a = sampleMark b :=
  eq_of_mem_replicate (String.ofList_injective h ▸ mem_replicate.mpr ⟨by decide, rfl⟩)

def sampleNfc (s : String) : String := if s = decomposed then "\"\u00e9\"" else s

def sampleEnv : CanonicalEnv where
  nfc := sampleNfc
  isoformat _ := "1970-01-01T00:00:00.000Z"
  formatDecimal _ _ := "0"
  sha256Hex := sampleDigest

theorem sampleEnv_lawful : Lawful sampleEnv := by
  constructor
  · intro s hs
    have hne : s ≠ decomposed := by
      rintro rfl
      exact absurd (hs (Char.ofNat 0x301) (by decide)) (by decide)
    exact if_neg hne
  · intro s hs
    change sampleNfc s = "" at hs
    unfold sampleNfc at hs
    split at hs
    · exact absurd hs (by decide)
    · exact hs
  · intro bytes
    change (sampleDigest bytes).toList.length = 64 ∧
      ∀ c ∈ (sampleDigest bytes).toList, c ∈ hexDigits
    rw [sampleDigest, String.toList_ofList]
    refine ⟨length_replicate, fun c hc => ?_⟩
    rw [eq_of_mem_replicate hc, sampleMark]
    split
    · decide
    · split <;> decide

def plainSpan : Span :=
  ofJsonSpan ⟨[0x31], Extraction.chars "/a", Extraction.chars "structured_text"⟩

/-- The document of one number is read back. -/
theorem plain_readable : Readable sampleEnv 1000 "rev_1" "norm_1" [plainSpan] := by
  have hnormal : sampleEnv.nfc (textOf plainSpan) = textOf plainSpan := by decide
  have hdigests : sampleEnv.sha256Hex (textOf plainSpan).toUTF8 ≠
      sampleEnv.sha256Hex (material sampleEnv "norm_1" plainSpan) := by
    intro hsame
    have htext : textOf plainSpan = "1" := by decide
    have hmark := sampleMark_eq hsame
    rw [htext, sampleMark, if_pos rfl, sampleMark] at hmark
    split at hmark
    next hbytes =>
      -- an identity is an object
      have hobject := congrArg String.toList (String.toByteArray_inj.mp hbytes)
      rw [dumps, String.toList_ofList] at hobject
      exact absurd (List.cons.inj hobject).1 (by decide)
    next =>
      split at hmark
      · exact absurd hmark (by decide)
      · exact absurd hmark (by decide)
  have hcollision : NoCollision sampleEnv "norm_1" [plainSpan] := by
    have hcases : ∀ c ∈ hashed sampleEnv "norm_1" [plainSpan],
        c = (textOf plainSpan).toUTF8 ∨ c = material sampleEnv "norm_1" plainSpan := by
      intro c hc
      obtain ⟨span, hspan, hc⟩ := List.mem_flatMap.mp hc
      rw [List.mem_singleton.mp hspan, hnormal] at hc
      rcases List.mem_cons.mp hc with h | hc
      · exact Or.inl h
      · rcases List.mem_cons.mp hc with h | hc
        · exact Or.inl h
        · exact Or.inr (List.mem_singleton.mp hc)
    intro a ha b hb hsame
    rcases hcases a ha with hfirst | hfirst
    · rcases hcases b hb with hsecond | hsecond
      · exact hfirst.trans hsecond.symm
      · rw [hfirst, hsecond] at hsame
        exact absurd hsame hdigests
    · rcases hcases b hb with hsecond | hsecond
      · rw [hfirst, hsecond] at hsame
        exact absurd hsame.symm hdigests
      · exact hfirst.trans hsecond.symm
  apply (excerpts_readable_iff sampleEnv_lawful 1000 hcollision).mpr
  refine ⟨List.cons_ne_nil _ _, ?_, List.pairwise_singleton _ _, by decide⟩
  intro span hspan
  obtain rfl := List.mem_singleton.mp hspan
  have hencodable : plainSpan.excerpt.all isScalar = true := by decide
  exact ⟨hencodable, by decide, hnormal⟩

def accentText : String := "[\"e\\u0301\"]"

def accentLibrary : JsonSpans.JsonLibrary ℕ where
  nfc := sampleNfc
  decode text := if text = accentText then some (.array [.text [0x65, 0x301]]) else none
  repr := JsonSpans.decimal
  pretty value := JsonSpans.compact JsonSpans.decimal value

theorem load_accent : JsonSpans.loadDocument accentLibrary accentText.toUTF8 JsonSpans.samplePath =
    .ok (.array [.text [0x65, 0x301]]) := by
  have htext : Ingestion.normalizedText accentLibrary.nfc accentText.toUTF8 = .ok accentText := by
    have hnormal : sampleNfc (String.ofList (Ingestion.feedLines accentText.toList)) = accentText := by
      decide
    rw [Ingestion.normalizedText_encoded]
    exact congrArg Except.ok hnormal
  rw [JsonSpans.loadDocument, htext]
  rfl

/-- An accent that is written as an escape is stored in another form than it is hashed in. -/
theorem accent_unreadable : ∃ e,
    JsonSpans.extractJson accentLibrary accentText.toUTF8 JsonSpans.samplePath = .ok e ∧
      ∀ maxInputBytes,
        ¬Readable sampleEnv maxInputBytes "rev_1" "norm_1" (e.spans.map ofJsonSpan) := by
  have hextracted : JsonSpans.extractJson accentLibrary accentText.toUTF8 JsonSpans.samplePath =
      .ok ⟨JsonSpans.compact JsonSpans.decimal (.array [.text [0x65, 0x301]]),
        [JsonSpans.spanAt JsonSpans.decimal ([0x30], .text [0x65, 0x301])]⟩ := by
    rw [JsonSpans.extractJson, load_accent]
    rfl
  refine ⟨_, hextracted, fun maxInputBytes hreadable => ?_⟩
  have hdigest := readable_digest sampleEnv_lawful hreadable _ (List.mem_singleton_self _)
  have htext : textOf (ofJsonSpan (JsonSpans.spanAt JsonSpans.decimal
      ([0x30], .text [0x65, 0x301]))) = decomposed := by decide
  have hone : decomposed.toUTF8 ≠ "1".toUTF8 :=
    fun h => absurd (String.toByteArray_inj.mp h) (by decide)
  have hmark := sampleMark_eq hdigest
  rw [htext] at hmark
  rw [sampleMark, sampleMark, if_neg hone, if_pos rfl] at hmark
  split at hmark
  next => exact absurd hmark (by decide)
  next =>
    split at hmark
    next hstored => exact absurd (String.toByteArray_inj.mp hstored) (by decide)
    next => exact absurd hmark (by decide)

end RaytSystem.Excerpts
