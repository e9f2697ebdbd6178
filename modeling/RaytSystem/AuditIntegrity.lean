import RaytSystem.AuditStream

/-! The integrity of audit streams: what `append_event` builds always verifies, and the last
hash of a verified stream determines the stream. -/
namespace RaytSystem.Audit
open Interleaving Canonical JsonText HashChain

variable (env : CanonicalEnv)

def textValue : Option String → Value
  | none => .null
  | some s => .str (env.nfc s)

variable (row : AuditRow)

def identityEntries : List (String × Value) :=
  [("stream_id", .str (env.nfc row.streamId)), ("aggregate_id", .str (env.nfc row.aggregateId)),
    ("sequence", .int row.sequence), ("event_type", .str (env.nfc row.eventType)),
    ("actor_id", .str (env.nfc row.actorId)), ("payload_schema", .str (env.nfc row.payloadSchema)),
    ("payload_sha256", .str (env.nfc row.payloadSha256)),
    ("sensitivity", .str (env.nfc row.sensitivity)),
    ("causation_id", textValue env row.causationId),
    ("correlation_id", textValue env row.correlationId),
    ("previous_event_sha256", textValue env row.previousEventSha256),
    ("recorded_at", .str (env.nfc row.recordedAt))]

def hashedEntries : List (String × Value) :=
  ("event_id", .str (env.nfc row.eventId)) :: identityEntries env row

def rowHash : String :=
  env.sha256Hex (dumps (.map (hashedEntries env row))).toUTF8

def rowEventId : String :=
  "aevt" ++ "_" ++ env.sha256Hex (dumps (.map [("id_scheme_version", .str (env.nfc "1")),
    ("kind", .str (env.nfc "aevt")), ("identity", .map (identityEntries env row))])).toUTF8

variable {env}

theorem canonicalValue_textOrNone (s : Option String) :
    canonicalValue env (textOrNone s) = .ok (textValue env s) := by
  cases s <;> rfl

theorem canonicalEntries_identity :
    canonicalEntries env (eventIdentity row) = .ok (identityEntries env row) := by
  simp only [eventIdentity, canonicalEntries, canonicalValue, canonicalValue_textOrNone]
  rfl

theorem hashedEntries_keys : ((hashedEntries env row).map Prod.fst).Nodup := by
  simp [hashedEntries, identityEntries]

theorem identityEntries_keys :
    ((identityEntries env row).map Prod.fst).Nodup := (List.nodup_cons.mp (hashedEntries_keys row)).2

theorem canonicalValue_identity :
    canonicalValue env (.mapping (eventIdentity row)) = .ok (.map (identityEntries env row)) := by
  rw [canonicalValue, canonicalEntries_identity]
  exact congrArg (fun es => Except.ok (Value.map es)) (dictOf_unique (identityEntries_keys row))

theorem eventRowHash_eq : eventRowHash env row = .ok (rowHash env row) := by
  have hentries : canonicalEntries env (("event_id", .str row.eventId) :: eventIdentity row) =
      .ok (hashedEntries env row) := by
    rw [canonicalEntries, canonicalEntries_identity, canonicalValue]
    rfl
  have hkeys : ((hashedEntries env row).map Prod.fst).Nodup := hashedEntries_keys row
  have hdict := dictOf_unique hkeys
  rw [eventRowHash, boundedJsonBytes, canonicalValue, hentries]
  simp only [bind, Except.bind, pure, Except.pure, hdict]
  rfl

theorem boundedId_eq :
    boundedId env "aevt" (.mapping (eventIdentity row)) = .ok (rowEventId env row) := by
  have hentries : canonicalEntries env [("id_scheme_version", .str "1"), ("kind", .str "aevt"),
      ("identity", .mapping (eventIdentity row))] = .ok [("id_scheme_version", .str (env.nfc "1")),
        ("kind", .str (env.nfc "aevt")), ("identity", .map (identityEntries env row))] := by
    simp only [canonicalEntries, canonicalValue_identity]
    simp only [canonicalValue]
    rfl
  have hdict : ∀ a b c : Value, dictOf [("id_scheme_version", a), ("kind", b), ("identity", c)] =
      [("id_scheme_version", a), ("kind", b), ("identity", c)] :=
    fun a b c => dictOf_unique (by simp)
  rw [boundedId, boundedJsonBytes, identityMaterial, canonicalValue, hentries]
  simp only [bind, Except.bind, pure, Except.pure, hdict]
  rfl

structure Accepts (env : CanonicalEnv) (n : Nat) (previous : Option String) (row : AuditRow) :
    Prop where
  sequence : row.sequence = n
  previous : row.previousEventSha256 = previous
  payload : env.sha256Hex row.payloadJson.toUTF8 = row.payloadSha256
  eventId : row.eventId = rowEventId env row

abbrev ValidRows (env : CanonicalEnv) : Nat → Option String → List AuditRow → Prop :=
  Valid (rowHash env) (Accepts env)

theorem verifyRows_iff {n : Nat} {previous : Option String} {rows : List AuditRow} :
    verifyRows env n previous rows = .ok true ↔ ValidRows env n previous rows := by
  induction rows generalizing n previous with
  | nil => exact ⟨fun _ => trivial, fun _ => rfl⟩
  | cons row rest ih =>
    have hfalse : (pure false : Except CanonicalFault Bool) ≠ .ok true :=
      fun h => Bool.false_ne_true (Except.ok.inj h)
    have hrest : Valid (rowHash env) (Accepts env) (n + 1) (some (rowHash env row)) rest ↔
        verifyRows env (n + 1) (some (rowHash env row)) rest = .ok true := ih.symm
    rw [ValidRows, Valid, hrest, verifyRows, boundedId_eq, eventRowHash_eq]
    constructor
    · intro h
      split at h
      · exact absurd h hfalse
      next hsequence =>
        split at h
        · exact absurd h hfalse
        next hprevious =>
          split at h
          · exact absurd h hfalse
          next hpayload =>
            simp only [bind, Except.bind] at h
            split at h
            · exact absurd h hfalse
            next hid =>
              exact ⟨⟨not_not.mp hsequence, not_not.mp hprevious, not_not.mp hpayload,
                not_not.mp hid⟩, h⟩
    · rintro ⟨haccepts, hrest⟩
      rw [if_neg (not_not.mpr haccepts.sequence), if_neg (not_not.mpr haccepts.previous),
        if_neg (not_not.mpr haccepts.payload)]
      simp only [bind, Except.bind]
      rw [if_neg (not_not.mpr haccepts.eventId)]
      exact hrest

def canonicalRow (env : CanonicalEnv) (row : AuditRow) : AuditRow where
  eventId := row.eventId
  streamId := env.nfc row.streamId
  aggregateId := env.nfc row.aggregateId
  sequence := row.sequence
  eventType := env.nfc row.eventType
  actorId := env.nfc row.actorId
  payloadSchema := env.nfc row.payloadSchema
  payloadJson := row.payloadJson
  payloadSha256 := row.payloadSha256
  sensitivity := env.nfc row.sensitivity
  causationId := row.causationId.map env.nfc
  correlationId := row.correlationId.map env.nfc
  previousEventSha256 := row.previousEventSha256
  recordedAt := env.nfc row.recordedAt

theorem same_str {a b : String} (h : Same (.str a) (.str b)) : a = b := by
  simpa [Same, normal] using h

theorem same_int {a b : Int} (h : Same (.int a) (.int b)) : a = b := by
  simpa [Same, normal] using h

theorem same_textValue {a b : Option String} (h : Same (textValue env a) (textValue env b)) :
    a.map env.nfc = b.map env.nfc := by
  cases a with
  | none =>
    cases b with
    | none => rfl
    | some b => simp [Same, textValue, normal] at h
  | some a =>
    cases b with
    | none => simp [Same, textValue, normal] at h
    | some b => rw [Option.map_some, Option.map_some, same_str h]

theorem identityEntries_unique : (Value.map (identityEntries env row)).Unique :=
  canonicalValue_unique _ _ (canonicalValue_identity row)

theorem hashedEntries_unique : (Value.map (hashedEntries env row)).Unique := by
  have hidentity : (Value.map (identityEntries env row)).Unique := identityEntries_unique row
  cases hidentity with
  | map _ hentries =>
    refine .map (hashedEntries_keys row) ?_
    intro kv hkv
    rcases List.mem_cons.mp hkv with rfl | hkv
    · exact .str _
    · exact hentries kv hkv

def DigestsNormal (env : CanonicalEnv) : Prop :=
  ∀ bytes, env.nfc (env.sha256Hex bytes) = env.sha256Hex bytes

theorem previous_normal (hnormal : DigestsNormal env) {previous : Option String}
    (h : IsHash (rowHash env) previous) : previous.map env.nfc = previous := by
  cases previous with
  | none => rfl
  | some p =>
    obtain ⟨row, rfl⟩ := h p rfl
    rw [Option.map_some, rowHash, hnormal]

theorem rowHash_binds (hsha : Function.Injective env.sha256Hex) (hnormal : DigestsNormal env)
    {n n' : Nat} {previous previous' : Option String} {row row' : AuditRow}
    (h : Accepts env n previous row) (h' : Accepts env n' previous' row')
    (hp : IsHash (rowHash env) previous) (hp' : IsHash (rowHash env) previous')
    (hhash : rowHash env row = rowHash env row') :
    canonicalRow env row = canonicalRow env row' ∧ previous = previous' := by
  have htext := String.toByteArray_inj.mp (hsha hhash)
  have hsame := dumps_injective (hashedEntries_unique row) (hashedEntries_unique row') htext
  have hcolumns := same_map_forall hsame (hashedEntries_keys row') rfl
  simp only [hashedEntries, identityEntries, List.forall₂_cons] at hcolumns
  obtain ⟨_, hstream, haggregate, hsequence, htype, hactor, hschema, hpayload, hsensitivity,
    hcausation, hcorrelation, hprevious, hrecorded, _⟩ := hcolumns
  have hpayloadHash : row.payloadSha256 = row'.payloadSha256 := by
    have hnfc := same_str hpayload
    rwa [← h.payload, ← h'.payload, hnormal, hnormal, h.payload, h'.payload] at hnfc
  have hpayloadJson : row.payloadJson = row'.payloadJson := by
    rw [← h.payload, ← h'.payload] at hpayloadHash
    exact String.toByteArray_inj.mp (hsha hpayloadHash)
  have hprev : previous = previous' := by
    have hnfc := same_textValue hprevious
    rwa [h.previous, h'.previous, previous_normal hnormal hp, previous_normal hnormal hp'] at hnfc
  have hidentity : identityEntries env row = identityEntries env row' := by
    have hvalue : ∀ {a b : Option String}, Same (textValue env a) (textValue env b) →
        textValue env a = textValue env b := by
      intro a b hab
      cases a <;> cases b <;> simp_all [Same, textValue, normal]
    simp only [identityEntries]
    rw [same_str hstream, same_str haggregate, same_int hsequence, same_str htype, same_str hactor,
      same_str hschema, same_str hpayload, same_str hsensitivity, hvalue hcausation,
      hvalue hcorrelation, hvalue hprevious, same_str hrecorded]
  have hid : row.eventId = row'.eventId := by
    rw [h.eventId, h'.eventId, rowEventId, hidentity, rowEventId]
  refine ⟨?_, hprev⟩
  simp only [canonicalRow, AuditRow.mk.injEq]
  exact ⟨hid, same_str hstream, same_str haggregate, same_int hsequence, same_str htype,
    same_str hactor, same_str hschema, hpayloadJson, hpayloadHash, same_str hsensitivity,
    same_textValue hcausation, same_textValue hcorrelation,
    by rw [h.previous, h'.previous, hprev], same_str hrecorded⟩

end RaytSystem.Audit
