import RaytSystem.Base64
import RaytSystem.CanonicalIdentity
import RaytSystem.PyText

/-! Restricted blobs: the envelope encryption of a plaintext into a file, the opening of what the
file holds, and the rotation of the file to a fresh data key. -/
namespace RaytSystem.Secrets
open JsonText Canonical PyText Base64

abbrev Bytes := List UInt8

structure EncryptedBlob where
  schemaName : String := "EncryptedBlobV1"
  schemaVersion : String := "1.4.0"
  idSchemeVersion : String := "1"
  extensions : List (String × Value)
  blobId : String
  keyProviderId : String
  keyId : String
  algorithm : String
  algorithmVersion : String
  encryptedDataKey : String
  nonce : String
  ciphertext : String
  authenticationTag : String
  plaintextSha256 : String
  associatedDataSha256 : String
  createdAt : ℤ

inductive SecretFailure where
  /-- `SecretEncryptionError` -/
  | encryption (text : String)
  /-- The model's `ValidationError`. -/
  | validation
  /-- What `canonical_json_bytes` raises. -/
  | canonical (fault : CanonicalFault)
  deriving DecidableEq

variable (b : EncryptedBlob)

def EncryptedBlob.stripped : EncryptedBlob :=
  { b with
    schemaName := trim b.schemaName
    schemaVersion := trim b.schemaVersion
    idSchemeVersion := trim b.idSchemeVersion
    blobId := trim b.blobId
    keyProviderId := trim b.keyProviderId
    keyId := trim b.keyId
    algorithm := trim b.algorithm
    algorithmVersion := trim b.algorithmVersion
    encryptedDataKey := trim b.encryptedDataKey
    nonce := trim b.nonce
    ciphertext := trim b.ciphertext
    authenticationTag := trim b.authenticationTag
    plaintextSha256 := trim b.plaintextSha256
    associatedDataSha256 := trim b.associatedDataSha256 }

def currentSchemaMajor (version : String) : Bool :=
  version.toList.takeWhile (· != '.') == ['1']

def EncryptedBlob.valid : Bool :=
  b.schemaName == "EncryptedBlobV1" && currentSchemaMajor b.schemaVersion &&
    isIdentifier b.blobId && isIdentifier b.keyProviderId &&
    isIdentifier b.keyId && b.algorithm == "aes-256-gcm" && b.algorithmVersion == "1" &&
    isNonEmptyStr b.encryptedDataKey && isNonEmptyStr b.nonce &&
    isNonEmptyStr b.ciphertext && isNonEmptyStr b.authenticationTag &&
    isSha256 b.plaintextSha256 && isSha256 b.associatedDataSha256

def EncryptedBlob.validate : Except SecretFailure EncryptedBlob :=
  if b.stripped.valid then .ok b.stripped else .error .validation

def EncryptedBlob.fields : List (String × PyValue) :=
  [("schema_name", .str b.schemaName), ("schema_version", .str b.schemaVersion),
    ("id_scheme_version", .str b.idSchemeVersion), ("extensions", ofJson (.map b.extensions)),
    ("blob_id", .str b.blobId), ("key_provider_id", .str b.keyProviderId),
    ("key_id", .str b.keyId), ("algorithm", .str b.algorithm),
    ("algorithm_version", .str b.algorithmVersion),
    ("encrypted_data_key", .str b.encryptedDataKey), ("nonce", .str b.nonce),
    ("ciphertext", .str b.ciphertext), ("authentication_tag", .str b.authenticationTag),
    ("plaintext_sha256", .str b.plaintextSha256),
    ("associated_data_sha256", .str b.associatedDataSha256),
    ("created_at", .datetime true b.createdAt)]

def EncryptedBlob.toPy : PyValue := .model b.fields

def fieldNames : List String :=
  ["schema_name", "schema_version", "id_scheme_version", "extensions", "blob_id",
    "key_provider_id", "key_id", "algorithm", "algorithm_version", "encrypted_data_key", "nonce",
    "ciphertext", "authentication_tag", "plaintext_sha256", "associated_data_sha256", "created_at"]

variable (entries : List (String × Value))

def textField (default : Option String) (key : String) : Option String :=
  match entries.lookup key with
  | none => default
  | some (.str s) => some s
  | some _ => none

def extensionsField : Option (List (String × Value)) :=
  match entries.lookup "extensions" with
  | none => some []
  | some (.map extensions) => some extensions
  | some _ => none

def EncryptedBlob.ofDocument (parseTimestamp : String → Option ℤ) : Value → Option EncryptedBlob
  | .map entries =>
    if entries.all (fun entry => fieldNames.contains entry.1) then do
      let text := textField entries none
      let createdAt ← text "created_at"
      pure {
        schemaName := ← textField entries (some "EncryptedBlobV1") "schema_name"
        schemaVersion := ← textField entries (some "1.4.0") "schema_version"
        idSchemeVersion := ← textField entries (some "1") "id_scheme_version"
        extensions := ← extensionsField entries
        blobId := ← text "blob_id"
        keyProviderId := ← text "key_provider_id"
        keyId := ← text "key_id"
        algorithm := ← text "algorithm"
        algorithmVersion := ← textField entries (some "1") "algorithm_version"
        encryptedDataKey := ← text "encrypted_data_key"
        nonce := ← text "nonce"
        ciphertext := ← text "ciphertext"
        authenticationTag := ← text "authentication_tag"
        plaintextSha256 := ← text "plaintext_sha256"
        associatedDataSha256 := ← text "associated_data_sha256"
        createdAt := ← parseTimestamp createdAt }
    else none
  | _ => none

section

structure Aead where
  encrypt : Bytes → Bytes → Bytes → Bytes → Bytes
  decrypt : Bytes → Bytes → Bytes → Bytes → Option Bytes

structure KeyProviderStatus where
  available : Bool
  keyId : Option String
  algorithm : Option String

structure KeyProvider where
  providerId : String
  kind : String
  status : KeyProviderStatus
  key : String → Option Bytes

structure SecretEnv where
  canonical : CanonicalEnv
  parseTimestamp : String → Option ℤ
  aead : Aead
  provider : KeyProvider
  restrictedEncryptionEnabled : Bool
  externalKmsEnabled : Bool
  /-- `require_approval`: approval, action, target and digest of the artifact. -/
  requireApproval : String → String → String → String → Bool

structure Draw where
  dataKey : Bytes
  dataNonce : Bytes
  keyNonce : Bytes
  dataKey_length : dataKey.length = 32
  dataNonce_length : dataNonce.length = 12
  keyNonce_length : keyNonce.length = 12

abbrev Files := List String → Option ByteArray

variable (env : SecretEnv)

def sha256Hex (data : Bytes) : String := env.canonical.sha256Hex ⟨data.toArray⟩

def integrityDomain : String := "raytsystem.encrypted_blob.integrity.v1"

def maxBlobBytes : ℕ := 1048576

variable (b : EncryptedBlob)

def canonicalText : Except SecretFailure String :=
  match canonicalValue env.canonical b.toPy with
  | .error fault => .error (.canonical fault)
  | .ok value =>
    if writable value then .ok (dumps value) else .error (.canonical tooManyDigits)

def integritySha256 (keyId nonce : String) (plaintext : Bytes) : Except SecretFailure String :=
  match boundedJsonBytes env.canonical (.mapping [("domain", .str integrityDomain),
      ("key_id", .str keyId), ("nonce", .str nonce),
      ("plaintext_sha256", .str (sha256Hex env plaintext))]) with
  | .error fault => .error (.canonical fault)
  | .ok bytes => .ok (env.canonical.sha256Hex bytes)

def status : KeyProviderStatus :=
  if env.restrictedEncryptionEnabled = false then ⟨false, none, none⟩
  else if env.provider.kind = "external_kms" ∧ env.externalKmsEnabled = false then
    ⟨false, none, none⟩
  else env.provider.status

def providerKey (keyId : String) : Except SecretFailure Bytes :=
  match env.provider.key keyId with
  | some key => .ok key
  | none => .error (.encryption "Key provider is unavailable")

def text64 (data : Bytes) : String := String.ofList (encode data)

variable (draw : Draw) (plaintext associatedData : Bytes)

def ciphertextOf : Bytes :=
  let encrypted := env.aead.encrypt draw.dataKey draw.dataNonce plaintext associatedData
  encrypted.take (encrypted.length - 16)

def tagOf : Bytes :=
  let encrypted := env.aead.encrypt draw.dataKey draw.dataNonce plaintext associatedData
  encrypted.drop (encrypted.length - 16)

variable (now : ℤ)

def decode64 (text : String) : Except SecretFailure Bytes :=
  match decode text.toList with
  | some data => .ok data
  | none => .error (.encryption "Encrypted blob authentication failed")

def aeadDecrypt (key nonce data associatedData : Bytes) : Except SecretFailure Bytes :=
  match env.aead.decrypt key nonce data associatedData with
  | some plaintext => .ok plaintext
  | none => .error (.encryption "Encrypted blob authentication failed")

def openBlob (associatedData : Bytes) : Except SecretFailure Bytes := do
  if sha256Hex env associatedData ≠ b.associatedDataSha256 then
    throw (.encryption "Encrypted blob associated data does not match")
  let wrappingKey ← providerKey env b.keyId
  let wrapped ← decode64 b.encryptedDataKey
  let dataKey ← aeadDecrypt env wrappingKey (wrapped.take 12) (wrapped.drop 12) associatedData
  let nonce ← decode64 b.nonce
  let ciphertext ← decode64 b.ciphertext
  let tag ← decode64 b.authenticationTag
  let plaintext ← aeadDecrypt env dataKey nonce (ciphertext ++ tag) associatedData
  if (← integritySha256 env b.keyId b.nonce plaintext) ≠ b.plaintextSha256 then
    throw (.encryption "Encrypted blob integrity hash failed")
  pure plaintext

def decrypt (associatedData : Bytes) (approvalId : String) : Except SecretFailure Bytes := do
  if approvalId = "" then throw (.encryption "Decrypt requires a fresh approval")
  let providerStatus := status env
  if providerStatus.available = false then
    throw (.encryption "Restricted encryption is unavailable")
  if b.keyProviderId ≠ env.provider.providerId ∨ providerStatus.keyId ≠ some b.keyId ∨
      providerStatus.algorithm ≠ some b.algorithm then
    throw (.encryption "Encrypted blob key-provider binding is invalid")
  let text ← canonicalText env b
  if env.requireApproval approvalId "decrypt_secret" b.blobId
      (env.canonical.sha256Hex text.toUTF8) = false then
    throw (.encryption "Decrypt approval authority is invalid")
  openBlob env b associatedData

variable (files : Files)

def readBlob (path : List String) : Except SecretFailure EncryptedBlob :=
  match files path with
  | none => .error (.encryption "Encrypted blob file is unavailable")
  | some data =>
    if maxBlobBytes < data.size then .error (.encryption "Encrypted blob file is unavailable")
    else
      match (loadsBytes data).bind (EncryptedBlob.ofDocument env.parseTimestamp) with
      | none => .error (.encryption "Encrypted blob file is invalid")
      | some b =>
        if b.stripped.valid then .ok b.stripped
        else .error (.encryption "Encrypted blob file is invalid")

end

section

variable (env : SecretEnv)

def Visible (s : String) : Prop := ∀ c ∈ s.toList, 0x20 < c.toNat ∧ c.toNat < 0x7f

structure Lawful (keyId : String) : Prop where
  nfc_ascii : ∀ s : String, (∀ c ∈ s.toList, c.toNat < 0x80) → env.canonical.nfc s = s
  digest : ∀ bytes, isSha256 (env.canonical.sha256Hex bytes) = true
  timestamp : ∀ t, ∃ moment, env.parseTimestamp (env.canonical.isoformat t) = some moment
  timestamp_visible : ∀ t, Visible (env.canonical.isoformat t)
  timestamp_short : ∀ t, (env.canonical.isoformat t).toList.length ≤ 64
  encrypt_length : ∀ key nonce data associatedData,
    (env.aead.encrypt key nonce data associatedData).length = data.length + 16
  decrypt_encrypt : ∀ key nonce data associatedData,
    env.aead.decrypt key nonce (env.aead.encrypt key nonce data associatedData) associatedData =
      some data
  available : (status env).available = true
  statusKey : (status env).keyId = some keyId
  statusAlgorithm : (status env).algorithm = some "aes-256-gcm"
  key : ∃ wrappingKey, env.provider.key keyId = some wrappingKey
  providerId : isIdentifier env.provider.providerId = true
  keyId_valid : isIdentifier keyId = true

theorem isSpace_visible {c : Char} (h : 0x20 < c.toNat ∧ c.toNat < 0x7f) :
    isSpace c = false := by
  simp [isSpace]
  omega

variable {s : String}

theorem trim_visible (h : Visible s) : trim s = s := by
  have hchars : ∀ c ∈ s.toList, isWhiteSpace c = false := by
    intro c hc
    rw [isWhiteSpace, isSpace_visible (h c hc), Bool.false_and]
  rw [trim, stripList, dropWhile_none hchars,
    dropWhile_none (by simpa using hchars), List.reverse_reverse, String.ofList_toList]

theorem visible_of_all (h : s.toList.all isIdentifierChar = true) : Visible s := by
  intro c hc
  have hchar := List.all_eq_true.mp h c hc
  simp only [isIdentifierChar, Bool.or_eq_true, Bool.and_eq_true, decide_eq_true_eq] at hchar
  rcases hchar with (hchar | hchar) | hchar
  · have hlow : 97 ≤ c.toNat := hchar.1
    have hhigh : c.toNat ≤ 122 := hchar.2
    omega
  · have hlow : 48 ≤ c.toNat := hchar.1
    have hhigh : c.toNat ≤ 57 := hchar.2
    omega
  · have hmem : c ∈ "_:.@/-".toList := by simpa using hchar
    have hall : "_:.@/-".toList.all (fun c => decide (0x20 < c.toNat ∧ c.toNat < 0x7f)) = true := by
      decide
    exact of_decide_eq_true (List.all_eq_true.mp hall c hmem)

theorem visible_identifier (h : isIdentifier s = true) :
    Visible s ∧ s.toList.length ≤ 256 := by
  unfold isIdentifier at h
  split at h
  · cases h
  · next first rest hs =>
    simp only [Bool.and_eq_true, decide_eq_true_eq] at h
    constructor
    · apply visible_of_all
      rw [hs, List.all_cons, h.2, Bool.and_true]
      simp [isIdentifierChar, h.1.1.1.1, h.1.1.1.2]
    · rw [hs, List.length_cons]
      have hlength := h.1.2
      omega

theorem visible_sha256 (h : isSha256 s = true) : Visible s ∧ s.toList.length = 64 := by
  simp only [isSha256, Bool.and_eq_true, beq_iff_eq] at h
  constructor
  · apply visible_of_all
    rw [List.all_eq_true]
    exact fun c hc => isIdentifierChar_of_isHexDigit (List.all_eq_true.mp h.2 c hc)
  · rw [String.length_toList]
    exact h.1

theorem visible_text64 (data : Bytes) : Visible (text64 data) := by
  intro c hc
  rw [text64, String.toList_ofList] at hc
  have hchar := encode_ascii data c hc
  omega

theorem length_text64 (data : Bytes) : (text64 data).length = 4 * ((data.length + 2) / 3) := by
  rw [text64, ← String.length_toList, String.toList_ofList, length_encode]

end

section

variable {env : SecretEnv} {keyId : String}

structure Sealed (env : SecretEnv) (keyId : String) (draw : Draw) (plaintext associatedData : Bytes)
    (b : EncryptedBlob) : Prop where
  schemaName : b.schemaName = "EncryptedBlobV1"
  schemaVersion : b.schemaVersion = "1.4.0"
  idSchemeVersion : b.idSchemeVersion = "1"
  blobId : isIdentifier b.blobId = true
  keyProviderId : b.keyProviderId = env.provider.providerId
  boundKey : b.keyId = keyId
  algorithm : b.algorithm = "aes-256-gcm"
  algorithmVersion : b.algorithmVersion = "1"
  encryptedDataKey : ∃ wrappingKey, env.provider.key keyId = some wrappingKey ∧
    b.encryptedDataKey =
      text64 (draw.keyNonce ++ env.aead.encrypt wrappingKey draw.keyNonce draw.dataKey associatedData)
  nonce : b.nonce = text64 draw.dataNonce
  ciphertext : b.ciphertext = text64 (ciphertextOf env draw plaintext associatedData)
  authenticationTag : b.authenticationTag = text64 (tagOf env draw plaintext associatedData)
  integrity : integritySha256 env keyId b.nonce plaintext = .ok b.plaintextSha256
  associated : b.associatedDataSha256 = sha256Hex env associatedData

theorem boundedJsonBytes_texts (canonical : CanonicalEnv) (texts : List (String × String)) :
    ∃ bytes, boundedJsonBytes canonical
      (.mapping (texts.map fun kv => (kv.1, .str kv.2))) = .ok bytes := by
  have hentries : ∃ entries, canonicalEntries canonical
      (texts.map fun kv => (kv.1, PyValue.str kv.2)) = .ok entries := by
    induction texts with
    | nil => exact ⟨[], rfl⟩
    | cons kv texts ih =>
      obtain ⟨entries, hentries⟩ := ih
      refine ⟨(kv.1, .str (canonical.nfc kv.2)) :: entries, ?_⟩
      rw [List.map_cons, canonicalEntries, hentries]
      rfl
  obtain ⟨entries, hentries⟩ := hentries
  refine ⟨(dumps (.map (dictOf entries))).toUTF8, ?_⟩
  rw [boundedJsonBytes, canonicalValue, hentries]
  rfl

theorem integritySha256_ok (hlaw : Lawful env keyId) (nonce : String) (plaintext : Bytes) :
    ∃ digest, integritySha256 env keyId nonce plaintext = .ok digest ∧
      isSha256 digest = true := by
  obtain ⟨bytes, hbytes⟩ := boundedJsonBytes_texts env.canonical
    [("domain", integrityDomain), ("key_id", keyId), ("nonce", nonce),
      ("plaintext_sha256", sha256Hex env plaintext)]
  refine ⟨env.canonical.sha256Hex bytes, ?_, hlaw.digest bytes⟩
  simp only [List.map_cons, List.map_nil] at hbytes
  rw [integritySha256, hbytes]

theorem length_ciphertextOf (hlaw : Lawful env keyId) (draw : Draw) (plaintext associatedData : Bytes) :
    (ciphertextOf env draw plaintext associatedData).length = plaintext.length := by
  simp only [ciphertextOf, List.length_take, hlaw.encrypt_length]
  omega

theorem length_tagOf (hlaw : Lawful env keyId) (draw : Draw) (plaintext associatedData : Bytes) :
    (tagOf env draw plaintext associatedData).length = 16 := by
  simp only [tagOf, List.length_drop, hlaw.encrypt_length]
  omega

variable {draw : Draw} {plaintext associatedData : Bytes} {b : EncryptedBlob}

theorem Sealed.digest (hlaw : Lawful env keyId)
    (h : Sealed env keyId draw plaintext associatedData b) :
    isSha256 b.plaintextSha256 = true := by
  obtain ⟨digest, hdigest, hvalid⟩ := integritySha256_ok hlaw b.nonce plaintext
  have hplaintext : b.plaintextSha256 = digest := by
    have hintegrity := h.integrity
    rw [hdigest] at hintegrity
    exact (Except.ok.inj hintegrity).symm
  rwa [hplaintext]

theorem Sealed.visible (hlaw : Lawful env keyId)
    (h : Sealed env keyId draw plaintext associatedData b) :
    Visible b.blobId ∧ Visible b.keyProviderId ∧ Visible b.keyId ∧ Visible b.encryptedDataKey ∧
      Visible b.nonce ∧ Visible b.ciphertext ∧ Visible b.authenticationTag ∧
      Visible b.plaintextSha256 ∧ Visible b.associatedDataSha256 := by
  obtain ⟨wrappingKey, -, hdataKey⟩ := h.encryptedDataKey
  refine ⟨(visible_identifier h.blobId).1, ?_, ?_, ?_, ?_, ?_, ?_, ?_, ?_⟩
  · rw [h.keyProviderId]
    exact (visible_identifier hlaw.providerId).1
  · rw [h.boundKey]
    exact (visible_identifier hlaw.keyId_valid).1
  · rw [hdataKey]
    exact visible_text64 _
  · rw [h.nonce]
    exact visible_text64 _
  · rw [h.ciphertext]
    exact visible_text64 _
  · rw [h.authenticationTag]
    exact visible_text64 _
  · exact (visible_sha256 (h.digest hlaw)).1
  · rw [h.associated]
    exact (visible_sha256 (hlaw.digest _)).1

theorem Sealed.stripped (hlaw : Lawful env keyId)
    (h : Sealed env keyId draw plaintext associatedData b) : b.stripped = b := by
  obtain ⟨hblob, hprovider, hkey, hdataKey, hnonce, hcipher, htag, hplain, hassociated⟩ :=
    h.visible hlaw
  have hname : trim "EncryptedBlobV1" = "EncryptedBlobV1" := by decide
  have hversion : trim "1.4.0" = "1.4.0" := by decide
  have hone : trim "1" = "1" := by decide
  have halgorithm : trim "aes-256-gcm" = "aes-256-gcm" := by decide
  rw [EncryptedBlob.stripped, trim_visible hblob, trim_visible hprovider, trim_visible hkey,
    trim_visible hdataKey, trim_visible hnonce, trim_visible hcipher, trim_visible htag,
    trim_visible hplain, trim_visible hassociated]
  have h1 := h.schemaName
  have h2 := h.schemaVersion
  have h3 := h.idSchemeVersion
  have h4 := h.algorithm
  have h5 := h.algorithmVersion
  cases b
  dsimp only at h1 h2 h3 h4 h5 ⊢
  rw [h1, h2, h3, h4, h5, hname, hversion, hone, halgorithm]

theorem Sealed.valid_iff (hlaw : Lawful env keyId)
    (h : Sealed env keyId draw plaintext associatedData b) :
    b.valid = true ↔ 1 ≤ plaintext.length ∧ plaintext.length ≤ 3072 := by
  obtain ⟨wrappingKey, -, hdataKey⟩ := h.encryptedDataKey
  have hdataKeyLength : b.encryptedDataKey.length = 80 := by
    rw [hdataKey, length_text64, List.length_append, hlaw.encrypt_length, draw.keyNonce_length,
      draw.dataKey_length]
  have hnonceLength : b.nonce.length = 16 := by
    rw [h.nonce, length_text64, draw.dataNonce_length]
  have htagLength : b.authenticationTag.length = 24 := by
    rw [h.authenticationTag, length_text64, length_tagOf hlaw]
  have hcipherLength : b.ciphertext.length = 4 * ((plaintext.length + 2) / 3) := by
    rw [h.ciphertext, length_text64, length_ciphertextOf hlaw]
  have hmajor : currentSchemaMajor "1.4.0" = true := by decide
  have hbounds : isNonEmptyStr b.ciphertext = true ↔
      1 ≤ plaintext.length ∧ plaintext.length ≤ 3072 := by
    simp only [isNonEmptyStr, hcipherLength, Bool.and_eq_true, decide_eq_true_eq]
    omega
  have hdataKeyBounds : isNonEmptyStr b.encryptedDataKey = true := by
    rw [isNonEmptyStr, hdataKeyLength]
    decide
  have hnonceBounds : isNonEmptyStr b.nonce = true := by
    rw [isNonEmptyStr, hnonceLength]
    decide
  have htagBounds : isNonEmptyStr b.authenticationTag = true := by
    rw [isNonEmptyStr, htagLength]
    decide
  have hprovider : isIdentifier b.keyProviderId = true := h.keyProviderId ▸ hlaw.providerId
  have hkey : isIdentifier b.keyId = true := h.boundKey ▸ hlaw.keyId_valid
  have hplain := h.digest hlaw
  have hassociated : isSha256 b.associatedDataSha256 = true := h.associated ▸ hlaw.digest _
  rw [← hbounds, EncryptedBlob.valid, h.schemaName, h.schemaVersion, h.algorithm,
    h.algorithmVersion, hmajor, h.blobId, hprovider, hkey, hdataKeyBounds, hnonceBounds, htagBounds,
    hplain, hassociated]
  simp

end

end RaytSystem.Secrets
