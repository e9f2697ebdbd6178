import RaytSystem.SecretBlobs

/-! The file of a restricted blob: what is written is read back, and what a run of rotations
leaves. -/
namespace RaytSystem.Secrets
open JsonText Canonical PyText Value

section

variable {entries : List (String × Value)}

theorem loads_line (h : (map entries).Unique) : loads (dumps (.map entries) ++ "\n") =
      some (.map (sortByKey (normalEntries entries))) := by
  have hnormal : normal (.map entries) = .map (sortByKey (normalEntries entries)) := rfl
  have hunique : (map (sortByKey (normalEntries entries))).Unique := hnormal ▸ normal_unique h
  have htext : (dumps (.map entries) ++ "\n").toList =
      render (.map (sortByKey (normalEntries entries))) ++ ['\n'] := by
    rw [String.toList_append, dumps, String.toList_ofList, hnormal]
    rfl
  have hskip := skipSpace_render (.map (sortByKey (normalEntries entries))) ['\n']
  have hfuel : 2 * (render (.map (sortByKey (normalEntries entries)))).length ≤
      2 * (render (.map (sortByKey (normalEntries entries))) ++ ['\n']).length + 2 := by
    rw [List.length_append]
    omega
  have hread := readValue_map (fun kv _ => reads_back kv.2) hunique ['\n'] hfuel
  have hend : skipSpace ['\n'] = [] := by decide
  simp only [loads, htext, hskip, hread, Option.bind_eq_bind, Option.bind_some, hend, if_true]
end

variable (entries : List (String × Value))

section

variable {env : SecretEnv} {keyId : String}

def history (version : ℤ) : Option String → List (String × Value)
  | none => [("key_version", .int version)]
  | some actor => [("key_version", .int version), ("rotated_by", .str actor)]

variable {draw : Draw} {plaintext associatedData : Bytes} {b : EncryptedBlob} {version : ℤ}
variable {actor : Option String}

end

section

structure Schedule where
  draw : ℕ → Draw
  now : ℕ → ℤ
  actor : ℕ → String
  approval : ℕ → Files → String

def Fresh (env : SecretEnv) (s : Schedule) (plaintext associatedData : Bytes) (k : ℕ) : Prop :=
  (s.draw (k + 1)).dataNonce ≠ (s.draw k).dataNonce ∧
    ciphertextOf env (s.draw (k + 1)) plaintext associatedData ≠
      ciphertextOf env (s.draw k) plaintext associatedData

instance (env : SecretEnv) (s : Schedule) (plaintext associatedData : Bytes) (k : ℕ) :
    Decidable (Fresh env s plaintext associatedData k) :=
  inferInstanceAs (Decidable (_ ∧ _))

variable {env : SecretEnv} {keyId : String} {s : Schedule} {relative : String}
variable {path : List String} {plaintext associatedData : Bytes}

def Stored (env : SecretEnv) (keyId : String) (s : Schedule) (path : List String)
    (plaintext associatedData : Bytes) (k : ℕ) (files : Files) : Prop :=
  k + 1 < 10 ^ maxDigits ∧ ∃ b actor, readBlob env files path = .ok b ∧
    Sealed env keyId (s.draw k) plaintext associatedData b ∧
    (∀ a ∈ actor, isIdentifier a = true) ∧ b.extensions = history (k + 1) actor

def sampleAead : Aead where
  encrypt key _ data _ := data.map (· + key.headD 0) ++ List.replicate 16 0
  decrypt key _ data _ := some ((data.take (data.length - 16)).map (· - key.headD 0))

def sampleEnv : SecretEnv where
  canonical := ⟨id, fun _ => "1970-01-01T00:00:00.000Z", fun _ _ => "0",
    fun _ => String.ofList (List.replicate 64 '0')⟩
  parseTimestamp _ := some 0
  aead := sampleAead
  provider := ⟨"key_provider_environment", "environment",
    ⟨true, some "key_environment", some "aes-256-gcm"⟩, fun _ => some (List.replicate 32 1)⟩
  restrictedEncryptionEnabled := true
  externalKmsEnabled := false
  requireApproval _ _ _ _ := true

end

end RaytSystem.Secrets
