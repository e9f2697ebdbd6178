import RaytSystem.ProviderSessions

/-! Which outputs of a runtime leave a session that the next heartbeat can resume. -/
namespace RaytSystem.Sessions
open PyText EventLines RaytSystem.Runtime List

section

def Names (nesting : Nat) (line : String) (points : CodePoints) : Prop :=
  ∃ entries, loads nesting line = .ok (.map entries) ∧
    (idUnder entries "session_id" = some points ∨
      idUnder entries "session_id" = none ∧ idUnder entries "thread_id" = some points)

def FirstNamed (nesting : Nat) (stdout : String) (points : CodePoints) : Prop :=
  ∃ before line after, splitLines stdout = before ++ line :: after ∧
    (∀ other ∈ before, ∀ points', ¬Names nesting other points') ∧ Names nesting line points

variable {nesting : Nat} {line : String} {points : CodePoints}

theorem lineSessionId_some :
    lineSessionId nesting line = .ok (some points) ↔ Names nesting line points := by
  unfold lineSessionId Names
  cases loads nesting line with
  | error e => cases e <;> simp
  | ok v => cases v <;> simp [Option.or_eq_some_iff]

theorem findSessionId_some {lines : List String}
    (h : findSessionId nesting lines = .ok (some points)) :
    ∃ before line after, lines = before ++ line :: after ∧
      (∀ other ∈ before, ∀ points', ¬Names nesting other points') ∧
      Names nesting line points := by
  induction lines with
  | nil => cases h
  | cons line rest ih =>
    rw [findSessionId] at h
    cases hline : lineSessionId nesting line with
    | error e =>
      rw [hline] at h
      cases h
    | ok found =>
      rw [hline] at h
      cases found with
      | some id =>
        cases h
        exact ⟨[], line, rest, rfl, by simp, lineSessionId_some.mp hline⟩
      | none =>
        obtain ⟨before, named, after, rfl, hbefore, hnamed⟩ := ih h
        refine ⟨line :: before, named, after, rfl, ?_, hnamed⟩
        intro other hother points'
        rcases mem_cons.mp hother with rfl | hother
        · intro hnames
          rw [lineSessionId_some.mpr hnames] at hline
          cases hline
        · exact hbefore other hother points'

variable {found : Option CodePoints}

theorem findSessionId_named {before after : List String}
    (hbefore : ∀ other ∈ before, ∀ points', ¬Names nesting other points')
    (hline : Names nesting line points)
    (h : findSessionId nesting (before ++ line :: after) = .ok found) : found = some points := by
  induction before with
  | nil =>
    rw [nil_append, findSessionId, lineSessionId_some.mpr hline] at h
    cases h
    rfl
  | cons other before ih =>
    rw [cons_append, findSessionId] at h
    cases hother : lineSessionId nesting other with
    | error e =>
      rw [hother] at h
      cases h
    | ok id =>
      rw [hother] at h
      cases id with
      | some id =>
        exact absurd (lineSessionId_some.mp hother) (hbefore other mem_cons_self id)
      | none => exact ih (fun l hl => hbefore l (mem_cons_of_mem other hl)) h

theorem firstNamed_iff {stdout : String} (h : providerSessionId nesting stdout = .ok found) :
    FirstNamed nesting stdout points ↔ found = some points := by
  constructor
  · rintro ⟨before, line, after, hlines, hbefore, hline⟩
    rw [providerSessionId, hlines] at h
    exact findSessionId_named hbefore hline h
  · rintro rfl
    exact findSessionId_some h

theorem idUnder_length {entries : List (CodePoints × Value)} {key : String}
    (h : idUnder entries key = some points) : points.length ≤ 128 := by
  unfold idUnder at h
  split at h
  next s _ =>
    split at h
    next hlength =>
      cases h
      exact hlength.2
    next => cases h
  next => cases h

theorem Names.length (h : Names nesting line points) : points.length ≤ 128 := by
  obtain ⟨entries, -, hid | ⟨-, hid⟩⟩ := h
  · exact idUnder_length hid
  · exact idUnder_length hid

theorem toText_length {text : String} (h : toText points = some text) :
    text.length = points.length := by
  unfold toText at h
  split at h
  · cases h
  · cases h
    simp
end

theorem trim_of_chars {text : String} (h : ∀ c ∈ text.toList, isWhiteSpace c = false) :
    trim text = text := by
  rw [trim, stripList, dropWhile_none h, dropWhile_none (by simpa using h), reverse_reverse,
    String.ofList_toList]

theorem trim_length_le (text : String) : (trim text).length ≤ text.length := by
  have hfront := length_dropWhile_le isWhiteSpace text.toList
  have hback := length_dropWhile_le isWhiteSpace
    (text.toList.dropWhile isWhiteSpace).reverse
  rw [length_reverse] at hback
  rw [trim, String.length_ofList, stripList, length_reverse, ← String.length_toList]
  exact hback.trans hfront

theorem alnum_plain {c : Char} (h : isAlnum c = true) : c.toNat < 128 ∧ isWhiteSpace c = false := by
  have hrange : (65 ≤ c.toNat ∧ c.toNat ≤ 90) ∨ (97 ≤ c.toNat ∧ c.toNat ≤ 122) ∨
      (48 ≤ c.toNat ∧ c.toNat ≤ 57) := by
    simp only [isAlnum, Bool.or_eq_true, Bool.and_eq_true, decide_eq_true_eq] at h
    rcases h with (h | h) | h
    · exact Or.inl h
    · exact Or.inr (Or.inl h)
    · exact Or.inr (Or.inr h)
  refine ⟨by omega, ?_⟩
  have hspace : isSpace c = false := by
    simp [isSpace]
    omega
  rw [isWhiteSpace, hspace, Bool.false_and]

theorem isSession_plain {id : String} (h : isSession id = true) :
    (∀ c ∈ id.toList, c.toNat < 128 ∧ isWhiteSpace c = false) ∧ id.length ≤ 128 := by
  unfold isSession isName at h
  split at h
  · cases h
  next first rest hid =>
    simp only [Bool.and_eq_true, decide_eq_true_eq, all_eq_true] at h
    obtain ⟨⟨hfirst, hlength⟩, hrest⟩ := h
    constructor
    · intro c hc
      rw [hid] at hc
      rcases mem_cons.mp hc with rfl | hc
      · exact alnum_plain hfirst
      · rcases Bool.or_eq_true_iff.mp (hrest c hc) with halnum | hmark
        · exact alnum_plain halnum
        · have hmark : c = '.' ∨ c = '_' ∨ c = ':' ∨ c = '-' := by simpa using hmark
          rcases hmark with rfl | rfl | rfl | rfl <;> decide
    · rw [← String.length_toList, hid, length_cons]
      omega

theorem trim_session {id : String} (h : isSession id = true) : trim id = id :=
  trim_of_chars fun c hc => ((isSession_plain h).1 c hc).2

variable (env : SessionEnv)

theorem nfc_session {id : String} (h : isSession id = true) : env.nfc id = id :=
  env.nfc_ascii id fun c hc => ((isSession_plain h).1 c hc).1

def Grammatical (points : CodePoints) : Prop :=
  ∃ text, toText points = some text ∧ isSession (trim (env.nfc (trim text))) = true

def NamesGrammatical (ending : Ending) : Prop :=
  (ending.sessionStatus = .active ∨ ending.sessionStatus = .paused) →
    ∀ points, FirstNamed env.nesting ending.outcome.stdout points → Grammatical env points

section

def Sound (s : ExecutionSession) : Prop :=
  ∀ id, s.providerSessionId = some id →
    (trim id).length ≤ 512 ∧ (s.resumable = true → isSession (trim id) = true)

def Clean (s : ExecutionSession) : Prop := s.providerSessionId.all isSession = true

theorem Clean.id {s : ExecutionSession} (h : Clean s) {id : String}
    (hid : s.providerSessionId = some id) : isSession id = true := by
  rw [Clean, hid] at h
  exact h

variable {s : ExecutionSession}

theorem decode_short (h : ∀ id, s.providerSessionId = some id → (trim id).length ≤ 512) :
    decode s = .ok {s with providerSessionId := s.providerSessionId.map trim} := by
  unfold decode validate
  cases hid : s.providerSessionId with
  | none =>
    have hsame : {s with providerSessionId := none} = s := by rw [← hid]
    rw [Option.map_none, hsame]
  | some id =>
    have hlength := h id hid
    simp only
    rw [if_neg (by omega)]
    rfl

theorem decode_sound (h : Sound s) :
    decode s = .ok {s with providerSessionId := s.providerSessionId.map trim} :=
  decode_short fun id hid => (h id hid).1

theorem decode_clean {s read : ExecutionSession} (h : Sound s) (hresumable : s.resumable = true)
    (hread : decode s = .ok read) : Clean read := by
  rw [decode_sound h, Except.ok.injEq] at hread
  subst hread
  unfold Clean
  cases hid : s.providerSessionId with
  | none => rfl
  | some id =>
    have hsession : isSession (trim id) = true := (h id hid).2 hresumable
    simp only [Option.map_some, Option.all_some, hsession]

theorem encode_clean (env : SessionEnv) (h : Clean s) : Sound (encode env s) := by
  intro id hid
  obtain ⟨id', hid', rfl⟩ := Option.map_eq_some_iff.mp hid
  have hsession := h.id hid'
  rw [nfc_session env hsession, trim_session hsession]
  have hlength := (isSession_plain hsession).2
  exact ⟨by omega, fun _ => hsession⟩

theorem validate_clean (h : Clean s) : validate s = .ok s := by
  unfold validate
  cases hid : s.providerSessionId with
  | none => rfl
  | some id =>
    have hsession := h.id hid
    have hlength := (isSession_plain hsession).2
    simp only
    rw [trim_session hsession, if_neg (by omega)]
    congr 1
    rw [← hid]

theorem put_sound {env : SessionEnv} {rows rows' : List SessionRow} {now : Execution.Time}
    (hrows : ∀ row ∈ rows, Sound row.session) (h : Sound (encode env s))
    (hput : put env rows s now = .ok rows') : ∀ row ∈ rows', Sound row.session := by
  have hadd : ∀ kept : List SessionRow, (∀ row ∈ kept, Sound row.session) →
      ∀ row ∈ kept ++ [⟨encode env s, now⟩], Sound row.session := by
    intro kept hkept row hrow
    rcases mem_append.mp hrow with hrow | hrow
    · exact hkept row hrow
    · rw [mem_singleton.mp hrow]
      exact h
  unfold put at hput
  simp only at hput
  split at hput
  · cases hput
  · split at hput
    · cases hput
      exact hadd rows hrows
    · split at hput
      · cases hput
      · split at hput
        · cases hput
          exact hrows
        · cases hput
          exact hadd _ fun row hrow => hrows row (mem_filter.mp hrow).1

variable {rows : List SessionRow}

theorem mapM_decode (h : ∀ row ∈ rows, Sound row.session) :
    rows.mapM (fun row => decode row.session) = .ok (rows.map fun row =>
      {row.session with providerSessionId := row.session.providerSessionId.map trim}) := by
  induction rows with
  | nil => rfl
  | cons row rest ih =>
    have hrest := ih fun r hr => h r (mem_cons_of_mem row hr)
    rw [mapM_cons, decode_sound (h row mem_cons_self), hrest]
    rfl

theorem sessionContext_sound (h : ∀ row ∈ rows, Sound row.session) (c : SessionCompatibilityInput) :
    ∃ existing, sessionContext rows c = .ok existing ∧ ∀ s, existing = some s → Clean s := by
  have hpage : ∀ row ∈ RowListing.page rowKey (rows.filter fun row =>
      row.session.taskId = c.taskId ∧ row.session.employeeId = c.employeeId) 20 0,
      Sound row.session := by
    intro row hrow
    have hmem := mem_of_mem_drop (mem_of_mem_take hrow)
    exact h row (mem_filter.mp ((RowListing.mem_orderBy rowKey).mp hmem)).1
  refine ⟨_, by rw [sessionContext, mapM_decode hpage], ?_⟩
  intro s hs
  have hresumable := find?_some hs
  obtain ⟨row, hrow, rfl⟩ := mem_map.mp (mem_of_find?_eq_some hs)
  exact decode_clean (hpage row hrow) hresumable (decode_sound (hpage row hrow))
end

section

variable {s final : ExecutionSession}

theorem finishSession_cases {env : SessionEnv} {resumed : Bool} {runId : String} {ending : Ending}
    (hs : Clean s) (h : finishSession env s resumed runId ending = .ok final) :
    final.status = ending.sessionStatus ∧
      ((∃ points text,
          (∀ named, FirstNamed env.nesting ending.outcome.stdout named ↔ named = points) ∧
            toText points = some text ∧ final.providerSessionId = some (trim text)) ∨
        (∀ points, ¬FirstNamed env.nesting ending.outcome.stdout points) ∧
          final.providerSessionId = s.providerSessionId) := by
  unfold finishSession at h
  simp only at h
  cases hfound : providerSessionId env.nesting ending.outcome.stdout with
  | error e =>
    rw [hfound] at h
    cases h
  | ok found =>
    rw [hfound] at h
    cases found with
    | none =>
      rw [validate_clean (by exact hs)] at h
      cases h
      refine ⟨rfl, Or.inr ⟨?_, rfl⟩⟩
      intro points hnamed
      cases (firstNamed_iff hfound).mp hnamed
    | some points =>
      simp only at h
      cases htext : toText points with
      | none =>
        rw [htext] at h
        cases h
      | some text =>
        rw [htext] at h
        simp only [validate] at h
        split at h
        · cases h
        · cases h
          refine ⟨rfl, Or.inl ⟨points, text, ?_, htext, rfl⟩⟩
          intro named
          rw [firstNamed_iff hfound, Option.some.injEq, eq_comm]

theorem resumable_iff {s : ExecutionSession} :
    s.resumable = true ↔ s.status = .active ∨ s.status = .paused := by
  simp [ExecutionSession.resumable]

theorem FirstNamed.length {nesting : Nat} {stdout text : String} {points : CodePoints}
    (h : FirstNamed nesting stdout points) (htext : toText points = some text) :
    text.length ≤ 128 := by
  obtain ⟨before, line, after, -, -, hline⟩ := h
  rw [toText_length htext]
  exact hline.length

theorem stored_length (env : SessionEnv) {text : String} (h : text.length ≤ 128) :
    (trim (env.nfc (trim text))).length ≤ 512 := by
  have hstripped := trim_length_le text
  have hnormal := env.nfc_length (trim text)
  have hstored := trim_length_le (env.nfc (trim text))
  omega

theorem finishSession_sound {env : SessionEnv} {resumed : Bool} {runId : String} {ending : Ending}
    (hs : Clean s) (hnames : NamesGrammatical env ending)
    (h : finishSession env s resumed runId ending = .ok final) : Sound (encode env final) := by
  obtain ⟨hstatus, ⟨points, text, hnamed, htext, hid⟩ | ⟨-, hid⟩⟩ := finishSession_cases hs h
  · intro id hstored
    rw [encode, hid, Option.map_some, Option.some.injEq] at hstored
    subst hstored
    have hfirst := (hnamed points).mpr rfl
    refine ⟨stored_length env (hfirst.length htext), ?_⟩
    intro hresumable
    rw [resumable_iff] at hresumable
    obtain ⟨text', htext', hsession⟩ := hnames (hstatus ▸ hresumable) points hfirst
    cases htext.symm.trans htext'
    exact hsession
  · exact encode_clean env (by rw [Clean, hid]; exact hs)
end

section

variable {rows : List SessionRow}

theorem andThen_sound {write : Except SessionError (List SessionRow)}
    {next : List SessionRow → List SessionRow} (hrows : ∀ row ∈ rows, Sound row.session)
    (hwrite : ∀ rows', write = .ok rows' → ∀ row ∈ rows', Sound row.session)
    (hnext : ∀ rows', (∀ row ∈ rows', Sound row.session) → ∀ row ∈ next rows', Sound row.session) :
    ∀ row ∈ andThen rows write next, Sound row.session := by
  cases write with
  | error e => exact hrows
  | ok rows' => exact hnext rows' (hwrite rows' rfl)

variable {env : SessionEnv} {existing : Option ExecutionSession} {resolution : SessionResolution}

theorem markIncompatible_sound {rows rows' : List SessionRow} {now : Execution.Time}
    (hrows : ∀ row ∈ rows, Sound row.session) (hexisting : ∀ s, existing = some s → Clean s)
    (h : markIncompatible env rows existing resolution now = .ok rows') :
    ∀ row ∈ rows', Sound row.session := by
  unfold markIncompatible at h
  cases existing with
  | none =>
    cases h
    exact hrows
  | some s =>
    have hs := hexisting s rfl
    simp only at h
    split at h
    · cases h
      exact hrows
    · rw [validate_clean (by exact hs)] at h
      exact put_sound hrows (encode_clean env (by exact hs)) h

theorem runSession_sound {hb : Heartbeat} (hrows : ∀ row ∈ rows, Sound row.session)
    (hexisting : ∀ s, existing = some s → Clean s)
    (hnames : ∀ ending, hb.ending = some ending → NamesGrammatical env ending) :
    ∀ row ∈ runSession env rows hb existing resolution, Sound row.session := by
  let kept := if resolution.compatible = true then existing else none
  have hclean : Clean (kept.getD (createSession env hb.compatibility hb.startedAt)) := by
    cases hkept : kept with
    | none => rfl
    | some s =>
      apply hexisting s
      by_cases hcompatible : resolution.compatible = true
      · simpa [kept, hcompatible] using hkept
      · simp [kept, hcompatible] at hkept
  apply andThen_sound hrows fun rows' => markIncompatible_sound hrows hexisting
  intro rows hrows
  apply andThen_sound hrows fun rows' => put_sound hrows (encode_clean env hclean)
  intro rows hrows
  cases hending : hb.ending with
  | none => exact hrows
  | some ending =>
    simp only
    split
    · exact hrows
    next final hfinal =>
      have hfinal := finishSession_sound hclean (hnames ending hending) hfinal
      exact andThen_sound hrows (fun rows' => put_sound hrows hfinal) fun rows' h => h

theorem heartbeat_sound {hb : Heartbeat} (hrows : ∀ row ∈ rows, Sound row.session)
    (hnames : ∀ ending, hb.ending = some ending → NamesGrammatical env ending) :
    ∀ row ∈ (heartbeat env rows hb).2, Sound row.session := by
  obtain ⟨existing, hcontext, hexisting⟩ := sessionContext_sound hrows hb.compatibility
  unfold heartbeat
  rw [hcontext]
  simp only
  split
  · exact hrows
  · simp only
    split
    · exact runSession_sound hrows hexisting hnames
    · exact hrows

theorem afterAll_sound {hbs : List Heartbeat}
    (hnames : ∀ hb ∈ hbs, ∀ ending, hb.ending = some ending → NamesGrammatical env ending) :
    ∀ row ∈ afterAll env hbs, Sound row.session := by
  suffices hfold : ∀ rows : List SessionRow, (∀ row ∈ rows, Sound row.session) →
      ∀ row ∈ hbs.foldl (fun rows hb => (heartbeat env rows hb).2) rows, Sound row.session by
    exact hfold [] (by simp)
  induction hbs with
  | nil => exact fun rows hrows => hrows
  | cons hb rest ih =>
    intro rows hrows
    apply ih fun h hmem => hnames h (mem_cons_of_mem hb hmem)
    exact heartbeat_sound hrows (hnames hb mem_cons_self)

def sessionRefusal : String := "Provider session identifier is invalid"

theorem fault_session {r : RuntimeRequest} (h : r.providerSessionId.all isSession = true) :
    r.fault ≠ some sessionRefusal := by
  unfold RuntimeRequest.fault sessionRefusal
  rw [h, if_neg (show ¬true = false by decide)]
  split_ifs <;> simp

theorem heartbeat_accepts (hrows : ∀ row ∈ rows, Sound row.session) (hb : Heartbeat) :
    (heartbeat env rows hb).1 ≠ .error .malformed ∧
      (heartbeat env rows hb).1 ≠ .error (.request sessionRefusal) := by
  obtain ⟨existing, hcontext, hexisting⟩ := sessionContext_sound hrows hb.compatibility
  unfold heartbeat
  rw [hcontext]
  simp only
  split
  next text hfault =>
    refine ⟨by simp, ?_⟩
    simp only [ne_eq, Except.error.injEq, SessionError.request.injEq]
    rintro rfl
    refine fault_session ?_ hfault
    unfold Heartbeat.request
    simp only
    split
    · cases existing with
      | none => rfl
      | some s => exact hexisting s rfl
    · rfl
  next => simp
end

section

def Matches (env : SessionEnv) (s : ExecutionSession) (c : SessionCompatibilityInput) : Prop :=
  (∀ pair ∈ identityPairs s c, pair.1 = true) ∧ s.compatibilitySha256 = env.fingerprint c

variable {c : SessionCompatibilityInput}

theorem resolveSession_compatible {env : SessionEnv} {s : ExecutionSession} (h : Matches env s c) :
    (resolveSession env (some s) c).compatible = s.resumable := by
  have hnone : (identityPairs s c).find? (fun pair => !pair.1) = none := by
    rw [find?_eq_none]
    intro pair hpair
    simp [h.1 pair hpair]
  unfold resolveSession
  simp only
  rw [hnone]
  cases hresumable : s.resumable with
  | false => rfl
  | true => simp [h.2]

def Resumable (env : SessionEnv) (final : ExecutionSession) (c : SessionCompatibilityInput) :
    Prop :=
  ∃ read, decode (encode env final) = .ok read ∧
    ((resolveSession env (some read) c).compatible = true →
      ∀ r : RuntimeRequest, r.providerSessionId = read.providerSessionId →
        r.fault ≠ some sessionRefusal)

theorem root_absolute : isAbsolute "/" = true := by decide

theorem here_accepted : tokenFault .workspaceRootReadonly "." = none := by decide

def sessionRequest (id : Option String) : RuntimeRequest :=
  ⟨"x", ⟨"/", ".", .workspaceRootReadonly, root_absolute, here_accepted⟩,
    ⟨.workspaceRootReadonly, false, fun _ => rfl⟩, none, id⟩

theorem sessionRequest_fault {id : Option String}
    (h : (sessionRequest id).fault ≠ some sessionRefusal) : id.all isSession = true := by
  by_contra hid
  apply h
  have hid : id.all isSession = false := by simpa using hid
  unfold RuntimeRequest.fault sessionRequest
  simp only
  rw [if_neg (by decide), if_neg (by decide), if_neg (by simp), if_neg (by decide),
    if_neg (by decide), if_pos hid]
  rfl

/-- The session that a run leaves can be resumed exactly where the first id in its output is of
the request's grammar, or the run leaves nothing to resume. -/
theorem resumable_iff_names {env : SessionEnv} {s final : ExecutionSession} {resumed : Bool}
    {runId : String} {ending : Ending} {c : SessionCompatibilityInput} (hs : Clean s)
    (hfinal : finishSession env s resumed runId ending = .ok final)
    (hmatches : Matches env final c) : Resumable env final c ↔ NamesGrammatical env ending := by
  constructor
  · rintro ⟨read, hread, haccepts⟩ hstatus points hnamed
    obtain ⟨hended, ⟨points', text, hfirst, htext, hid⟩ | ⟨hnone, -⟩⟩ :=
      finishSession_cases hs hfinal
    · have hpoints := (hfirst points).mp hnamed
      subst hpoints
      have hencoded : (encode env final).providerSessionId = some (env.nfc (trim text)) := by
        rw [encode, hid, Option.map_some]
      have hdecoded := decode_short (s := encode env final) fun id hstored => by
        rw [hencoded, Option.some.injEq] at hstored
        subst hstored
        exact stored_length env (hnamed.length htext)
      rw [hdecoded, Except.ok.injEq] at hread
      subst hread
      have hresumable : final.resumable = true := by rwa [resumable_iff, hended]
      have hmatches : Matches env {encode env final with
          providerSessionId := (encode env final).providerSessionId.map trim} c := hmatches
      have hcompatible := resolveSession_compatible hmatches
      have hid' := haccepts (hcompatible.trans hresumable) (sessionRequest _) rfl
      have hsession := sessionRequest_fault hid'
      simp only [hencoded, Option.map_some, Option.all_some] at hsession
      exact ⟨text, htext, hsession⟩
    · exact absurd hnamed (hnone points)
  · intro hnames
    have hsound := finishSession_sound hs hnames hfinal
    refine ⟨_, decode_sound hsound, ?_⟩
    intro hcompatible r hr
    rw [resolveSession_compatible (by exact hmatches)] at hcompatible
    apply fault_session
    rw [hr]
    exact decode_clean hsound hcompatible (decode_sound hsound)

/-- No output leaves a session that makes a later heartbeat raise, as long as the ids that outputs
name are of the request's grammar; one run by itself leaves such a session exactly then. -/
theorem session_resumption (env : SessionEnv) : (∀ (hbs : List Heartbeat) (hb : Heartbeat),
      (∀ earlier ∈ hbs, ∀ ending, earlier.ending = some ending → NamesGrammatical env ending) →
      (heartbeat env (afterAll env hbs) hb).1 ≠ .error .malformed ∧
        (heartbeat env (afterAll env hbs) hb).1 ≠ .error (.request sessionRefusal)) ∧
    ∀ (s final : ExecutionSession) (resumed : Bool) (runId : String) (ending : Ending)
      (c : SessionCompatibilityInput), s.providerSessionId.all isSession = true →
      finishSession env s resumed runId ending = .ok final → Matches env final c →
      (Resumable env final c ↔ NamesGrammatical env ending) := by
  constructor
  · intro hbs hb hnames
    exact heartbeat_accepts (afterAll_sound hnames) hb
  · intro s final resumed runId ending c hs hfinal hmatches
    exact resumable_iff_names hs hfinal hmatches

def plainEnv : SessionEnv where
  nfc := id
  nfc_ascii := fun _ _ => rfl
  nfc_length := fun text => by simp only [id]; omega
  fingerprint := fun _ => "f"
  sessionId := fun _ _ => "xsession_1"
  persistable := fun _ => true
  nesting := 1000

def sampleInput : SessionCompatibilityInput where
  runtimeAdapterId := "adapter_codex_local"
  runtimeAdapterSha256 := "a"
  provider := "openai"
  model := none
  taskId := "task_1"
  employeeId := "employee_1"
  employeeConfigurationRevision := "b"
  workspaceId := "workspace_1"
  workspaceManifestSha256 := "c"
  repositoryCommit := "d"
  graphSnapshotId := "graph_1"
  graphFingerprint := "e"
  contextSnapshotSha256 := "g"
  policySha256 := "h"
  instructionBundleSha256 := "i"

def completed (stdout : String) : Heartbeat where
  compatibility := sampleInput
  prompt := "x"
  cwd := ⟨"/", ".", .workspaceRootReadonly, root_absolute, here_accepted⟩
  filesystemPolicy := ⟨.workspaceRootReadonly, false, fun _ => rfl⟩
  runId := "run_1"
  startedAt := 0
  markedAt := 0
  recordedAt := 0
  finishedAt := 0
  checkedOut := true
  ending := some ⟨⟨some 0, stdout, "completed"⟩, none, {}, 0⟩

/-- A runtime names the session `a b`, and the next heartbeat of the assignment raises. -/
theorem spaced_id_refused :
    (heartbeat plainEnv (afterAll plainEnv [completed "\x7b\"session_id\":\"a b\"\x7d"])
      (completed "")).1 = .error (.request sessionRefusal) := by
  decide +kernel
end
end RaytSystem.Sessions
