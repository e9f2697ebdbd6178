import RaytSystem.MigrationModel

/-! `SecurityMiddleware`: the checks that a changing request passes before the application sees it,
and the body that is collected for it. -/
namespace RaytSystem.WebApp
open PyText

abbrev Text := List Char

def decode (bytes : List UInt8) : Text := bytes.map fun b => Char.ofNat b.toNat

def lowerChar (c : Char) : Char :=
  let n := c.toNat
  if (0x41 ≤ n && n ≤ 0x5a) || (0xc0 ≤ n && n ≤ 0xde && n != 0xd7) then Char.ofNat (n + 32) else c

def lower (t : Text) : Text := t.map lowerChar

def isAscii (c : Char) : Bool := c.toNat < 128

structure SessionRecord where
  sessionId : Text
  csrfToken : Text
  expiresAt : Int
  /-- `token_urlsafe` -/
  ascii : csrfToken.all isAscii = true

/-- The application's hosts, in lower case, and its origins; `cookie` is the session's value that
`SimpleCookie` reads, if it reads one. -/
structure Boundary where
  allowedHosts : List Text
  allowedOrigins : List Text
  sessions : List SessionRecord
  cookie : Text → Option Text

structure Request where
  path : String
  headers : List (List UInt8 × List UInt8)
  now : Int

inductive Message
  | disconnect
  | request (body : List UInt8) (moreBody : Bool)
  | other

inductive Stop
  | rejected (status : ℕ) (code message : String) (isApi : Bool)
  /-- `compare_digest` of texts that are not ASCII. -/
  | typeError
  deriving DecidableEq

inductive Outcome
  | stopped (stop : Stop)
  | called (body : List UInt8)
  | awaiting
  deriving DecidableEq

variable (b : Boundary) (r : Request)

def rawHeader (name : String) : Option (List UInt8) :=
  (r.headers.reverse.find? fun kv => lower (decode kv.1) == name.toList).map Prod.snd

def header (name : String) : Option Text := (rawHeader r name).map decode

def isApi : Bool := startsWith r.path "/api/"

def session : Option SessionRecord :=
  ((header r "cookie").bind b.cookie).bind fun token =>
    b.sessions.find? fun s => s.sessionId == token && decide (r.now < s.expiresAt)

def compareDigest (token candidate : Text) : Except Stop Bool :=
  if token.all isAscii && candidate.all isAscii then .ok (token == candidate)
  else .error .typeError

def csrfMatches (record : SessionRecord) : Option Text → Except Stop Bool
  | none => .ok false
  | some candidate => compareDigest record.csrfToken candidate

def utf8Length (t : Text) : ℕ := (t.map fun c => c.utf8Size).sum

def keyRefused (key : Text) : Bool :=
  utf8Length key < 8 || 512 < utf8Length key || key.any (fun c => c.toNat < 32)

def jsonType (contentType : Text) : Bool :=
  lower (stripList isSpace (contentType.takeWhile (· != ';'))) ==
    "application/json".toList

def bodyLimit : ℕ :=
  if r.path = "/api/v1/documents" ∨ startsWith r.path "/api/v1/documents/" then
    12 * 1024 * 1024
  else 64 * 1024

def checkLength : Option Text → Except Stop Unit
  | none => .ok ()
  | some text =>
    match Migrations.pyInt text with
    | none => .error (.rejected 400 "body_length_invalid" "Request length is invalid." true)
    | some n =>
      if n < 0 ∨ (bodyLimit r : Int) < n then
        .error (.rejected 413 "body_too_large" "Request body is too large." true)
      else .ok ()

def guardSession (record : SessionRecord) : Except Stop Unit :=
  match csrfMatches record (header r "x-csrf-token") with
  | .error stop => .error stop
  | .ok false => .error (.rejected 403 "csrf_rejected" "Refresh the local session." true)
  | .ok true =>
    if keyRefused ((header r "idempotency-key").getD []) then
      .error (.rejected 400 "idempotency_required" "A valid idempotency key is required." true)
    else if !jsonType ((header r "content-type").getD []) then
      .error (.rejected 415 "json_required" "Only JSON requests are accepted." true)
    else checkLength r (header r "content-length")

theorem header_lawful : LawfulBEq (List Char) := inferInstance

attribute [local instance] header_lawful in
def guard : Except Stop Unit :=
  if lower ((header r "host").getD []) ∉ b.allowedHosts then
    .error (.rejected 421 "host_rejected" "Open the exact loopback URL." true)
  else if isApi r = true ∧ (session b r).isNone then
    .error (.rejected 401 "session_required" "Reopen the local interface." true)
  else if isApi r = false then
    .error (.rejected 405 "method_rejected" "Method is not available." false)
  else if (header r "origin").all (· ∉ b.allowedOrigins) then
    .error (.rejected 403 "origin_rejected" "Reopen the exact loopback URL." true)
  else match session b r with
    | none => .error (.rejected 403 "csrf_rejected" "Refresh the local session." true)
    | some record => guardSession r record

def boundedBody (limit : ℕ) : List Message → ℕ → List UInt8 → Outcome
  | [], _, _ => .awaiting
  | .disconnect :: _, _, _ => .called []
  | .other :: rest, consumed, chunks => boundedBody limit rest consumed chunks
  | .request chunk moreBody :: rest, consumed, chunks =>
    let consumed := consumed + chunk.length
    if limit < consumed then
      .stopped (.rejected 413 "body_too_large" "Request body is too large." true)
    else if moreBody then boundedBody limit rest consumed (chunks ++ chunk)
    else .called (chunks ++ chunk)

def handle (messages : List Message) : Outcome :=
  match guard b r with
  | .error stop => .stopped stop
  | .ok () => boundedBody (bodyLimit r) messages 0 []

inductive Delivered : List Message → List UInt8 → Prop
  | final (chunk : List UInt8) (rest : List Message) :
    Delivered (.request chunk false :: rest) chunk
  | more {chunk body : List UInt8} {rest : List Message} (h : Delivered rest body) :
    Delivered (.request chunk true :: rest) (chunk ++ body)
  | other {body : List UInt8} {rest : List Message} (h : Delivered rest body) :
    Delivered (.other :: rest) body

def PlainKey (key : List UInt8) : Prop :=
  8 ≤ key.length ∧ key.length ≤ 512 ∧ ∀ c ∈ key, 32 ≤ c.toNat ∧ ¬ (127 ≤ c.toNat ∧ c.toNat < 160)

structure Admissible (messages : List Message) (body : List UInt8) : Prop where
  host : lower ((header r "host").getD []) ∈ b.allowedHosts
  origin : ∃ origin ∈ header r "origin", origin ∈ b.allowedOrigins
  session : ∃ s ∈ b.sessions, r.now < s.expiresAt ∧
    (header r "cookie").bind b.cookie = some s.sessionId ∧
    header r "x-csrf-token" = some s.csrfToken
  key : ∃ key ∈ rawHeader r "idempotency-key", PlainKey key
  json : jsonType ((header r "content-type").getD []) = true
  delivered : Delivered messages body
  limit : body.length ≤ bodyLimit r

def Closed (messages : List Message) : Outcome → Prop
  | .called body => Admissible b r messages body
  | .stopped .typeError => False
  | .stopped (.rejected ..) => True
  | .awaiting => True

def Compared (s : SessionRecord) : Prop :=
  lower ((header r "host").getD []) ∈ b.allowedHosts ∧ isApi r = true ∧ session b r = some s ∧
    ∃ origin ∈ header r "origin", origin ∈ b.allowedOrigins

def Passes : Prop :=
  ∃ s, Compared b r s ∧ header r "x-csrf-token" = some s.csrfToken ∧
    keyRefused ((header r "idempotency-key").getD []) = false ∧
    jsonType ((header r "content-type").getD []) = true ∧
    checkLength r (header r "content-length") = .ok ()

def cutOff (limit : ℕ) : List Message → ℕ → Bool
  | [], _ => false
  | .disconnect :: _, _ => true
  | .other :: rest, consumed => cutOff limit rest consumed
  | .request chunk moreBody :: rest, consumed =>
    consumed + chunk.length ≤ limit && moreBody && cutOff limit rest (consumed + chunk.length)

variable {b r}

theorem guard_compared {s : SessionRecord} (h : Compared b r s) : guard b r = guardSession r s := by
  obtain ⟨hhost, hapi, hsession, origin, horigin, hallowed⟩ := h
  have hany : (header r "origin").all (· ∉ b.allowedOrigins) = false := by
    rw [Option.mem_def] at horigin
    simp [horigin, hallowed]
  unfold guard
  rw [if_neg (not_not.mpr hhost), if_neg (by simp [hsession]), if_neg (by simp [hapi]),
    if_neg (ne_true_of_eq_false hany), hsession]

theorem guard_cases (b : Boundary) (r : Request) :
    (∃ s, Compared b r s) ∨ ∃ status code message api,
      guard b r = .error (.rejected status code message api) := by
  unfold guard
  split
  · exact Or.inr ⟨_, _, _, _, rfl⟩
  next hhost =>
    split
    · exact Or.inr ⟨_, _, _, _, rfl⟩
    split
    · exact Or.inr ⟨_, _, _, _, rfl⟩
    next hapi =>
      split
      · exact Or.inr ⟨_, _, _, _, rfl⟩
      next horigin =>
        split
        · exact Or.inr ⟨_, _, _, _, rfl⟩
        next s hsession =>
          refine Or.inl ⟨s, not_not.mp hhost, Bool.eq_true_of_not_eq_false hapi, hsession, ?_⟩
          cases ho : header r "origin" with
          | none => simp [ho] at horigin
          | some origin => exact ⟨origin, rfl, by simpa [ho] using horigin⟩

theorem checkLength_error {text : Option Text} {stop : Stop}
    (h : checkLength r text = .error stop) :
    ∃ status code message api, stop = .rejected status code message api := by
  unfold checkLength at h
  repeat' split at h
  all_goals cases h
  all_goals exact ⟨_, _, _, _, rfl⟩

theorem guard_typeError_iff : guard b r = .error .typeError ↔
    ∃ s, Compared b r s ∧ ∃ token ∈ header r "x-csrf-token", token.all isAscii = false := by
  constructor
  · intro h
    rcases guard_cases b r with ⟨s, hs⟩ | ⟨_, _, _, _, hrejected⟩
    · refine ⟨s, hs, ?_⟩
      rw [guard_compared hs, guardSession] at h
      cases htoken : header r "x-csrf-token" with
      | none =>
        rw [htoken] at h
        cases h
      | some token =>
        refine ⟨token, rfl, Bool.eq_false_of_not_eq_true fun hall => ?_⟩
        simp only [htoken, csrfMatches, compareDigest, s.ascii, hall, Bool.and_self, if_true] at h
        split at h
        next stop hstop => cases hstop
        next => cases h
        next =>
          repeat' split at h
          any_goals cases h
          obtain ⟨_, _, _, _, hstop⟩ := checkLength_error h
          cases hstop
    · rw [hrejected] at h
      cases h
  · rintro ⟨s, hs, token, htoken, hall⟩
    rw [guard_compared hs, guardSession, htoken]
    simp [csrfMatches, compareDigest, hall]

theorem guard_ok_iff : guard b r = .ok () ↔ Passes b r := by
  constructor
  · intro h
    rcases guard_cases b r with ⟨s, hs⟩ | ⟨_, _, _, _, hrejected⟩
    · refine ⟨s, hs, ?_⟩
      rw [guard_compared hs, guardSession] at h
      split at h
      · cases h
      · cases h
      next hmatch =>
        split at h
        · cases h
        next hkey =>
          split at h
          · cases h
          next hjson =>
            refine ⟨?_, Bool.eq_false_of_not_eq_true hkey, by simpa using hjson, h⟩
            cases htoken : header r "x-csrf-token" with
            | none =>
              rw [htoken] at hmatch
              cases hmatch
            | some token =>
              rw [htoken, csrfMatches, compareDigest] at hmatch
              split at hmatch
              · rw [eq_of_beq (Except.ok.inj hmatch)]
              · cases hmatch
    · rw [hrejected] at h
      cases h
  · rintro ⟨s, hs, htoken, hkey, hjson, hlength⟩
    rw [guard_compared hs, guardSession, htoken]
    simp [csrfMatches, compareDigest, s.ascii, hkey, hjson, hlength]

theorem not_delivered_cutOff {limit : ℕ} {messages : List Message} {consumed : ℕ}
    (h : cutOff limit messages consumed = true) (body : List UInt8) :
    ¬ Delivered messages body := by
  intro hd
  induction hd generalizing consumed with
  | final chunk rest => simp [cutOff] at h
  | more _ ih =>
    simp only [cutOff, Bool.and_eq_true] at h
    exact ih h.2
  | other _ ih => exact ih h

theorem boundedBody_called {limit : ℕ} {messages : List Message} {chunks body : List UInt8}
    (h : boundedBody limit messages chunks.length chunks = .called body) :
    cutOff limit messages chunks.length = true ∨
      ∃ tail, Delivered messages tail ∧ body = chunks ++ tail ∧ body.length ≤ limit := by
  induction messages generalizing chunks with
  | nil => cases h
  | cons m rest ih =>
    cases m with
    | disconnect => exact Or.inl rfl
    | other =>
      rcases ih h with hcut | ⟨tail, hd, hbody⟩
      · exact Or.inl hcut
      · exact Or.inr ⟨tail, .other hd, hbody⟩
    | request chunk moreBody =>
      simp only [boundedBody, ← List.length_append] at h
      split at h
      · cases h
      next hlimit =>
        split at h
        next hmore =>
          rcases ih h with hcut | ⟨tail, hd, hbody, hle⟩
          · left
            rw [List.length_append] at hcut hlimit
            simp [cutOff, hmore, hcut, not_lt.mp hlimit]
          · right
            subst hmore
            exact ⟨chunk ++ tail, .more hd, by rw [hbody, List.append_assoc], hle⟩
        next hmore =>
          obtain rfl := Bool.eq_false_of_not_eq_true hmore
          obtain rfl := Outcome.called.inj h
          exact Or.inr ⟨chunk, .final chunk rest, rfl, not_lt.mp hlimit⟩

theorem boundedBody_cutOff {limit : ℕ} {messages : List Message} {consumed : ℕ}
    (h : cutOff limit messages consumed = true) (chunks : List UInt8) :
    boundedBody limit messages consumed chunks = .called [] := by
  induction messages generalizing consumed chunks with
  | nil => cases h
  | cons m rest ih =>
    cases m with
    | disconnect => rfl
    | other => exact ih h chunks
    | request chunk moreBody =>
      simp only [cutOff, Bool.and_eq_true, decide_eq_true_eq] at h
      simp only [boundedBody, if_neg (not_lt.mpr h.1.1), h.1.2, if_true]
      exact ih h.2 _

theorem boundedBody_delivered {limit : ℕ} {messages : List Message} {tail : List UInt8}
    (hd : Delivered messages tail) (chunks : List UInt8) (hle : (chunks ++ tail).length ≤ limit) :
    boundedBody limit messages chunks.length chunks = .called (chunks ++ tail) := by
  induction hd generalizing chunks with
  | final chunk rest =>
    rw [List.length_append] at hle
    simp [boundedBody, not_lt.mpr hle]
  | @more chunk body rest _ ih =>
    rw [← List.append_assoc] at hle
    have hfits : chunks.length + chunk.length ≤ limit := by
      rw [List.length_append, List.length_append] at hle
      omega
    have hrest := ih (chunks ++ chunk) hle
    rw [List.length_append] at hrest
    simp only [boundedBody, if_neg (not_lt.mpr hfits), if_true, hrest, List.append_assoc]
  | other _ ih => exact ih chunks hle

theorem boundedBody_stopped {limit : ℕ} {messages : List Message} {consumed : ℕ}
    {chunks : List UInt8} {stop : Stop}
    (h : boundedBody limit messages consumed chunks = .stopped stop) : stop ≠ .typeError := by
  induction messages generalizing consumed chunks with
  | nil => cases h
  | cons m rest ih =>
    cases m with
    | disconnect => cases h
    | other => exact ih h
    | request chunk moreBody =>
      simp only [boundedBody] at h
      split at h
      · obtain rfl := Outcome.stopped.inj h
        decide
      · split at h
        · exact ih h
        · cases h

theorem passes_admissible (h : Passes b r) {messages : List Message} {body : List UInt8}
    (hd : Delivered messages body) (hle : body.length ≤ bodyLimit r) :
    Admissible b r messages body ↔ ∀ key ∈ rawHeader r "idempotency-key", PlainKey key := by
  constructor
  · intro hadmissible key hkey
    obtain ⟨key', hkey', hplain⟩ := hadmissible.key
    obtain rfl := Option.some.inj (hkey.symm.trans hkey')
    exact hplain
  · intro hplain
    obtain ⟨s, ⟨hhost, -, hsession, horigin⟩, htoken, hkey, hjson, -⟩ := h
    refine ⟨hhost, horigin, ⟨s, ?_⟩, ?_, hjson, hd, hle⟩
    · obtain ⟨token, hcookie, hfind⟩ := Option.bind_eq_some_iff.mp hsession
      have hlive := List.find?_some hfind
      simp only [Bool.and_eq_true, beq_iff_eq, decide_eq_true_eq] at hlive
      exact ⟨List.mem_of_find?_eq_some hfind, hlive.2, hlive.1 ▸ hcookie, htoken⟩
    · cases hraw : rawHeader r "idempotency-key" with
      | none =>
        rw [header, hraw] at hkey
        cases hkey
      | some key => exact ⟨key, rfl, hplain key hraw⟩

/-- A changing request is handled as it should be exactly when it is not turned away by an
exception over its token, and, where it passes, its body is not cut off and its key is plain. -/
theorem handle_closed_iff (b : Boundary) (r : Request) (messages : List Message) :
    Closed b r messages (handle b r messages) ↔
      (∀ s, Compared b r s → ∀ token ∈ header r "x-csrf-token", token.all isAscii = true) ∧
      (Passes b r → cutOff (bodyLimit r) messages 0 = false ∧
        ∀ body, Delivered messages body → body.length ≤ bodyLimit r →
          ∀ key ∈ rawHeader r "idempotency-key", PlainKey key) := by
  have hascii : guard b r ≠ .error .typeError ↔
      ∀ s, Compared b r s → ∀ token ∈ header r "x-csrf-token", token.all isAscii = true := by
    rw [Ne, guard_typeError_iff]
    simp only [not_exists, not_and, Bool.not_eq_false]
  rw [← hascii, ← guard_ok_iff, handle]
  cases hguard : guard b r with
  | error stop =>
    cases stop with
    | typeError => exact iff_of_false id fun h => h.1 rfl
    | rejected => exact iff_of_true trivial ⟨nofun, nofun⟩
  | ok =>
    have hpasses := guard_ok_iff.mp hguard
    simp only [ne_eq, reduceCtorEq, not_false_eq_true, true_and, forall_const]
    cases hcut : cutOff (bodyLimit r) messages 0 with
    | true =>
      rw [boundedBody_cutOff hcut]
      exact iff_of_false (fun h => not_delivered_cutOff hcut _ h.delivered) fun h => nomatch h.1
    | false =>
      have hcalled : ∀ body, Delivered messages body → body.length ≤ bodyLimit r →
          boundedBody (bodyLimit r) messages 0 [] = .called body :=
        fun body hd hle => boundedBody_delivered hd [] hle
      rw [and_iff_right rfl]
      cases hbody : boundedBody (bodyLimit r) messages 0 [] with
      | stopped stop =>
        refine iff_of_true ?_ fun body hd hle => ?_
        · cases stop with
          | typeError => exact boundedBody_stopped hbody rfl
          | rejected => trivial
        · cases (hcalled body hd hle).symm.trans hbody
      | awaiting =>
        exact iff_of_true trivial fun body hd hle => nomatch (hcalled body hd hle).symm.trans hbody
      | called body =>
        have hlength : boundedBody (bodyLimit r) messages ([] : List UInt8).length [] =
            .called body := hbody
        rcases boundedBody_called hlength with hcut' | ⟨tail, hd, htail, hle⟩
        · cases hcut.symm.trans hcut'
        · obtain rfl : tail = body := htail.symm
          refine (passes_admissible hpasses hd hle).trans ⟨fun h _ _ _ => h, fun h => ?_⟩
          exact h tail hd hle

def ascii (s : String) : List UInt8 := s.toList.map fun c => c.toNat.toUInt8

def loopback : Boundary where
  allowedHosts := ["127.0.0.1:8000".toList]
  allowedOrigins := ["http://127.0.0.1:8000".toList]
  sessions := [⟨"session".toList, "token".toList, 100, by decide⟩]
  cookie := some

def upload : Request where
  path := "/api/v1/tasks"
  headers := [(ascii "host", ascii "127.0.0.1:8000"), (ascii "cookie", ascii "session"),
    (ascii "origin", ascii "http://127.0.0.1:8000"), (ascii "x-csrf-token", ascii "token"),
    (ascii "idempotency-key", ascii "request-1"), (ascii "content-type", ascii "application/json")]
  now := 0

/-- The client disconnects after a part of the body, and the application sees an empty one. -/
theorem upload_cut_off : handle loopback upload [.request [123] true, .disconnect] = .called [] ∧
    ¬ Closed loopback upload [.request [123] true, .disconnect]
      (handle loopback upload [.request [123] true, .disconnect]) := by
  have hcalled : handle loopback upload [.request [123] true, .disconnect] = .called [] := by decide
  have hcut : cutOff 1 [.request [123] true, .disconnect] 0 = true := by decide
  refine ⟨hcalled, fun h => ?_⟩
  rw [hcalled] at h
  exact not_delivered_cutOff hcut _ h.delivered

end RaytSystem.WebApp
