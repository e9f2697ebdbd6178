import RaytSystem.RuntimeCommands

/-! The validator and the builders of runtime commands describe one grammar, but for the working
directory of a Codex command. -/
namespace RaytSystem.Runtime
open PyText Checkpoints List

section

variable (model session : Option String)

def codexTail : List String :=
  model.elim [] (["--model", ·]) ++ session.elim ["-"] (["resume", ·, "-"])

def claudeTail : List String :=
  model.elim [] (["--model", ·]) ++ session.elim [] (["--resume", ·])

def codexArgv (executable sandbox path : String) (model session : Option String) : List String :=
  executable :: "exec" :: "--json" :: "--sandbox" :: sandbox :: "-C" :: path ::
    "--ignore-user-config" :: "-c" :: "shell_environment_policy.inherit=none" ::
      codexTail model session

def claudeArgv (executable tools : String) (model session : Option String) : List String :=
  executable :: (claudeRequired ++
    (tools :: claudeTail model session))

theorem codexCommand_eq (executable : String) (r : RuntimeRequest) : codexCommand executable r =
      codexArgv executable (codexSandbox r) r.cwd.path r.model r.providerSessionId := by
  unfold codexCommand codexArgv
  cases r.model <;> cases r.providerSessionId <;> rfl

theorem claudeCommand_eq (executable : String) (r : RuntimeRequest) : claudeCommand executable r =
      claudeArgv executable (claudeTools r) r.model r.providerSessionId := by
  unfold claudeCommand claudeArgv claudeTail
  cases r.model <;> cases r.providerSessionId <;> simp

variable {tail : List String}

theorem take_one_cons {a : String} : tail.take 1 = [a] ↔ ∃ rest, tail = a :: rest := by
  cases tail with
  | nil => simp
  | cons b rest => simp [eq_comm]

theorem codexEnd_iff : (tail = ["-"] ∨ tail.length = 3 ∧ tail.getD 0 "" = "resume" ∧
      isSession (tail.getD 1 "") = true ∧ tail.getD 2 "" = "-") ↔
      ∃ session : Option String, tail = session.elim ["-"] (["resume", ·, "-"]) ∧
        session.all isSession = true := by
  constructor
  · rintro (rfl | ⟨hlength, hresume, hsession, hend⟩)
    · exact ⟨none, rfl, rfl⟩
    · obtain ⟨a, b, c, rfl⟩ := length_eq_three.mp hlength
      simp only [getD_cons_zero, getD_cons_succ] at hresume hsession hend
      exact ⟨some b, by simp [hresume, hend], by simpa using hsession⟩
  · rintro ⟨session, rfl, hsession⟩
    cases session with
    | none => exact Or.inl rfl
    | some id => exact Or.inr ⟨rfl, rfl, by simpa using hsession, rfl⟩

/-- An optional model in front of an end that names a session or none: both validators read their
tails so, each with its own shortest length and its own reading of the end. -/
theorem modelTail_iff {n : ℕ} {message : String} {check : List String → Except String Unit}
    {ends : Option String → List String} (hn : 2 ≤ n)
    (hend : ∀ rest, check rest = .ok () ↔ ∃ session, rest = ends session ∧
      session.all isSession = true) (hlength : ∀ session, n ≤ (ends session).length + 2)
    (hother : ∀ session, (ends session).take 1 ≠ ["--model"]) :
    (if tail.take 1 = ["--model"] ∧ (tail.length < n ∨ isModel (tail.getD 1 "") = false) then
        .error message
      else check (if tail.take 1 = ["--model"] then tail.drop 2 else tail)) = .ok () ↔
      ∃ model session : Option String, tail = model.elim [] (["--model", ·]) ++ ends session ∧
        model.all isModel = true ∧ session.all isSession = true := by
  by_cases hmodel : tail.take 1 = ["--model"]
  · obtain ⟨rest, rfl⟩ := take_one_cons.mp hmodel
    rw [if_pos hmodel]
    constructor
    · intro h
      split at h
      · cases h
      next hvalid =>
        simp only [hmodel, true_and, not_or, not_lt] at hvalid
        obtain ⟨session, hrest, hsession⟩ := (hend _).mp h
        cases rest with
        | nil =>
          have hshort := hvalid.1
          simp only [length_cons, length_nil] at hshort
          omega
        | cons model rest =>
          have hname : isModel model = true := by simpa using hvalid.2
          have hrest' : rest = ends session := hrest
          exact ⟨some model, session, by rw [hrest']; rfl, by simpa using hname, hsession⟩
    · rintro ⟨model, session, htail, hname, hsession⟩
      cases model with
      | none =>
        have hends : "--model" :: rest = ends session := htail
        exact absurd (hends ▸ hmodel) (hother session)
      | some model =>
        simp only [Option.elim_some, cons_append, nil_append, cons.injEq,
          true_and] at htail
        subst htail
        have hname : isModel model = true := by simpa using hname
        have hlong := hlength session
        have hvalid : ¬(("--model" :: model :: ends session).length < n ∨
            isModel (("--model" :: model :: ends session).getD 1 "") = false) := by
          simp only [length_cons, getD_cons_succ, getD_cons_zero, hname, reduceCtorEq,
            or_false]
          omega
        rw [if_neg (fun hbad => hvalid hbad.2)]
        exact (hend _).mpr ⟨session, rfl, hsession⟩
  · rw [if_neg (fun hbad => hmodel hbad.1), if_neg hmodel, hend]
    constructor
    · rintro ⟨session, htail, hsession⟩
      exact ⟨none, session, htail, rfl, hsession⟩
    · rintro ⟨model, session, htail, -, hsession⟩
      cases model with
      | none => exact ⟨session, htail, hsession⟩
      | some model =>
        rw [htail] at hmodel
        exact absurd rfl hmodel

theorem validateCodexTail_iff :
    validateCodexTail tail = .ok () ↔ ∃ model session, tail = codexTail model session ∧
      model.all isModel = true ∧ session.all isSession = true := by
  have hend : ∀ rest : List String,
      (if rest = ["-"] then (.ok () : Except String Unit)
        else if rest.length = 3 ∧ rest.getD 0 "" = "resume" ∧ isSession (rest.getD 1 "") = true ∧
          rest.getD 2 "" = "-" then .ok ()
        else .error "Codex invocation tail is not allowlisted") = .ok () ↔
      ∃ session : Option String, rest = session.elim ["-"] (["resume", ·, "-"]) ∧
        session.all isSession = true := by
    intro rest
    rw [← codexEnd_iff]
    split
    next h => exact iff_of_true rfl (Or.inl h)
    next h =>
      split
      next h' => exact iff_of_true rfl (Or.inr h')
      next h' => exact iff_of_false nofun (not_or_intro h h')
  apply modelTail_iff (n := 3) (by omega) hend
  · intro session
    cases session with
    | none => exact le_refl 3
    | some id => exact Nat.le_add_right 3 2
  · intro session
    cases session <;> simp

theorem claudeEnd_iff (rest : List String) :
    (if rest.take 1 = ["--resume"] ∧ (rest.length ≠ 2 ∨ isSession (rest.getD 1 "") = false) then
        (.error "Claude session argument is invalid" : Except String Unit)
      else
        let tail := if rest.take 1 = ["--resume"] then [] else rest
        if tail ≠ [] then .error "Claude invocation tail is not allowlisted" else .ok ()) = .ok () ↔
      ∃ session : Option String, rest = session.elim [] (["--resume", ·]) ∧
        session.all isSession = true := by
  by_cases hresume : rest.take 1 = ["--resume"]
  · obtain ⟨ids, rfl⟩ := take_one_cons.mp hresume
    constructor
    · intro h
      split at h
      · cases h
      next hvalid =>
        simp only [hresume, true_and, not_or, not_not] at hvalid
        obtain ⟨id, rfl⟩ := length_eq_one_iff.mp (by simpa using hvalid.1)
        exact ⟨some id, rfl, by simpa using hvalid.2⟩
    · rintro ⟨session, hrest, hsession⟩
      cases session with
      | none => simp at hrest
      | some id =>
        simp only [Option.elim_some, cons.injEq, true_and] at hrest
        subst hrest
        have hid : isSession id = true := by simpa using hsession
        rw [if_neg (by simp [hid])]
        rfl
  · rw [if_neg fun hbad => hresume hbad.1]
    simp only [if_neg hresume]
    constructor
    · intro h
      split at h
      · cases h
      next hempty => exact ⟨none, not_not.mp hempty, rfl⟩
    · rintro ⟨session, rfl, -⟩
      cases session with
      | none => simp
      | some id => simp at hresume

theorem validateClaudeTail_iff :
    validateClaudeTail tail = .ok () ↔ ∃ model session, tail = claudeTail model session ∧
      model.all isModel = true ∧ session.all isSession = true := by
  apply modelTail_iff (n := 2) (le_refl 2) claudeEnd_iff
  · exact fun session => Nat.le_add_left 2 _
  · intro session
    cases session <;> simp

theorem validateCodexArgv_iff {executable : String} {rest : List String} :
    validateCodexArgv (executable :: rest) = .ok () ↔ ∃ sandbox path model session,
      executable :: rest = codexArgv executable sandbox path model session ∧
        sandbox ∈ ["read-only", "workspace-write"] ∧ isAbsolute path = true ∧
        model.all isModel = true ∧ session.all isSession = true := by
  constructor
  · intro h
    unfold validateCodexArgv at h
    split at h
    · cases h
    next hprefix =>
      split at h
      · cases h
      next hsandbox =>
        split at h
        · cases h
        next hcwd =>
          split at h
          · cases h
          next hsafety =>
            simp only [not_or, not_not, not_lt, drop_succ_cons, drop_zero] at hprefix
            simp only [not_or, not_not] at hsandbox hcwd hsafety
            obtain ⟨model, session, htail, hmodel, hsession⟩ := validateCodexTail_iff.mp h
            rcases rest with _ | ⟨a, _ | ⟨b, _ | ⟨c, _ | ⟨sandbox, _ | ⟨flag, _ | ⟨path,
              _ | ⟨d, _ | ⟨e, _ | ⟨f, rest⟩⟩⟩⟩⟩⟩⟩⟩⟩
            all_goals simp only [length_cons, length_nil] at hprefix
            all_goals try omega
            simp only [take_succ_cons, take_zero, cons.injEq, and_true] at hprefix
            simp only [getD_cons_succ, getD_cons_zero] at hsandbox hcwd
            simp only [drop_succ_cons, drop_zero, take_succ_cons, take_zero,
              cons.injEq, and_true] at hsafety htail
            obtain ⟨⟨rfl, rfl, rfl⟩, -⟩ := hprefix
            obtain ⟨rfl, hpath⟩ := hcwd
            obtain ⟨rfl, rfl, rfl⟩ := hsafety
            refine ⟨sandbox, path, model, session, ?_, hsandbox, by simpa using hpath, hmodel,
              hsession⟩
            rw [htail]
            rfl
  · rintro ⟨sandbox, path, model, session, hargv, hsandbox, hpath, hmodel, hsession⟩
    rw [hargv]
    have hlength : 1 ≤ (codexTail model session).length := by
      cases model <;> cases session <;> simp [codexTail]
    unfold validateCodexArgv codexArgv
    rw [if_neg (by simp; omega), if_neg (by exact not_not.mpr hsandbox), if_neg (by simp [hpath]),
      if_neg (by simp)]
    exact validateCodexTail_iff.mpr ⟨model, session, rfl, hmodel, hsession⟩

theorem validateClaudeArgv_iff {executable : String} {rest : List String} :
    validateClaudeArgv (executable :: rest) = .ok () ↔ ∃ tools model session,
      executable :: rest = claudeArgv executable tools model session ∧
        tools ∈ ["Read,Glob,Grep", "Read,Glob,Grep,Edit,Write"] ∧
        model.all isModel = true ∧ session.all isSession = true := by
  have hcount : claudeRequired.length = 13 := rfl
  constructor
  · intro h
    unfold validateClaudeArgv at h
    split at h
    · cases h
    next hprefix =>
      split at h
      · cases h
      next htools =>
        simp only [not_or, not_not, not_lt, drop_succ_cons, drop_zero,
          length_cons] at hprefix
        simp only [not_not] at htools
        obtain ⟨model, session, htail, hmodel, hsession⟩ := validateClaudeTail_iff.mp h
        have hrest : rest = claudeRequired ++ rest.drop 13 := by
          rw [← hprefix.1, take_append_drop]
        obtain ⟨tools, more, hmore⟩ := exists_cons_of_ne_nil
          (show rest.drop 13 ≠ [] by rw [Ne, drop_eq_nil_iff]; omega)
        rw [hmore] at hrest
        refine ⟨tools, model, session, ?_, ?_, hmodel, hsession⟩
        · have hdrop : more = claudeTail model session := by
            rw [← htail, drop_succ_cons, ← drop_drop (i := 1) (j := 13), hmore]
            rfl
          rw [claudeArgv, ← hdrop, ← hrest]
        · rw [getD_cons_succ, hrest] at htools
          exact htools
  · rintro ⟨tools, model, session, hargv, htools, hmodel, hsession⟩
    rw [hargv]
    unfold validateClaudeArgv claudeArgv
    rw [if_neg (by simp [hcount]; omega), if_neg (by exact not_not.mpr htools)]
    exact validateClaudeTail_iff.mpr ⟨model, session, rfl, hmodel, hsession⟩
end

section

def Permitted (adapter : Adapter) (executable : String) : Prop :=
  some (pathName executable) = expectedExecutable adapter.id ∧ isArgument executable = true

theorem isName_argument {further : List Char} {value : String} (h : isName further value = true)
    (hnull : Char.ofNat 0 ∉ further) : isArgument value = true ∧ value ∉ forbiddenRuntimeFlags := by
  unfold isName at h
  split at h
  · cases h
  next first rest hvalue =>
    simp only [Bool.and_eq_true, decide_eq_true_eq, all_eq_true] at h
    obtain ⟨⟨hfirst, hlength⟩, hrest⟩ := h
    have hnull' : isAlnum (Char.ofNat 0) = false := by decide
    have hclean : Char.ofNat 0 ∉ value.toList := by
      rw [hvalue]
      intro hmem
      rcases mem_cons.mp hmem with rfl | hmem
      · rw [hnull'] at hfirst
        cases hfirst
      · have hchar := hrest _ hmem
        rw [hnull', Bool.false_or, contains_eq_mem, decide_eq_true_eq] at hchar
        exact hnull hchar
    have hcount : value.length ≤ 4096 := by
      rw [← String.length_toList, hvalue, length_cons]
      omega
    have hne : value ≠ "" := by
      rintro rfl
      cases hvalue
    refine ⟨?_, ?_⟩
    · simp [isArgument, hne, hclean, hcount]
    · -- every forbidden flag begins with a dash
      have hdash : ∀ flag ∈ forbiddenRuntimeFlags, flag.toList.head? = some '-' := by decide
      intro hflag
      have hhead := hdash value hflag
      rw [hvalue, head?_cons, Option.some.injEq] at hhead
      subst hhead
      exact absurd hfirst (by decide)

def Presentable (argv : List String) : Prop :=
  (∀ item ∈ argv, isArgument item = true) ∧ ∀ item ∈ argv, item ∉ forbiddenRuntimeFlags

theorem validate_iff {adapterId expected executable : String} {rest : List String}
    (hexpected : expectedExecutable adapterId = some expected) :
    validateSafeCommandArgv adapterId (executable :: rest) = .ok () ↔
      pathName executable = expected ∧ Presentable (executable :: rest) ∧
        (if adapterId = fakeAdapter then
          if executable :: rest ≠ [executable, "--json"] then
            (.error "Fake runtime argv is not allowlisted" : Except String Unit)
          else .ok ()
        else if adapterId = codexAdapter then validateCodexArgv (executable :: rest)
        else if adapterId = claudeAdapter then validateClaudeArgv (executable :: rest)
        else .error "Runtime adapter has no command grammar") = .ok () := by
  have hitems : (executable :: rest).all isArgument = true ↔
      ∀ item ∈ executable :: rest, isArgument item = true := all_eq_true
  have hflags : (executable :: rest).any (forbiddenRuntimeFlags.contains ·) = false ↔
      ∀ item ∈ executable :: rest, item ∉ forbiddenRuntimeFlags := by
    rw [any_eq_false]
    simp only [contains_eq_mem, decide_eq_true_eq]
  unfold validateSafeCommandArgv Presentable
  rw [hexpected, ← hitems, ← hflags]
  dsimp only
  split
  next h => exact iff_of_false nofun fun h' => h h'.1
  next h =>
    rw [and_iff_right (not_not.mp h)]
    split
    next h =>
      refine iff_of_false nofun fun h' => ?_
      rw [h] at h'
      cases h'.1.1
    next h =>
      split
      next h' =>
        refine iff_of_false nofun fun h'' => ?_
        rw [h'] at h''
        cases h''.1.2
      next h' =>
        rw [and_iff_right ⟨Bool.eq_true_of_not_eq_false h, Bool.eq_false_of_not_eq_true h'⟩]

theorem expected_fake : expectedExecutable fakeAdapter = some "raytsystem-fake-runtime" := by decide

theorem expected_codex : expectedExecutable codexAdapter = some "codex" := by decide

theorem expected_claude : expectedExecutable claudeAdapter = some "claude" := by decide

theorem permitted_not_flag {adapter : Adapter} {executable : String}
    (h : some (pathName executable) = expectedExecutable adapter.id) :
    executable ∉ forbiddenRuntimeFlags := by
  have hnames : ∀ flag ∈ forbiddenRuntimeFlags, ∀ adapter : Adapter,
      some (pathName flag) ≠ expectedExecutable adapter.id := by
    intro flag hflag adapter
    cases adapter <;> revert flag <;> decide
  exact fun hflag => hnames executable hflag adapter h

theorem isAbsolute_not_flag {path : String} (h : isAbsolute path = true) :
    path ∉ forbiddenRuntimeFlags := by
  have hflags : ∀ flag ∈ forbiddenRuntimeFlags, isAbsolute flag = false := by decide
  intro hflag
  rw [hflags path hflag] at h
  cases h

theorem presentable_append {front back : List String} :
    Presentable (front ++ back) ↔ Presentable front ∧ Presentable back := by
  unfold Presentable
  simp only [forall_mem_append]
  tauto

theorem presentable_cons {item : String} {rest : List String} : Presentable (item :: rest) ↔
    (isArgument item = true ∧ item ∉ forbiddenRuntimeFlags) ∧ Presentable rest := by
  unfold Presentable
  simp only [forall_mem_cons]
  tauto

theorem presentable_model {model : Option String} (h : model.all isModel = true) :
    Presentable (model.elim [] (["--model", ·])) := by
  have hflag : Presentable ["--model"] := by unfold Presentable; decide
  cases model with
  | none => exact ⟨nofun, nofun⟩
  | some name =>
    have hname := isName_argument (show isModel name = true by simpa using h) (by decide)
    exact presentable_cons.mpr ⟨(presentable_cons.mp hflag).1,
      presentable_cons.mpr ⟨hname, ⟨nofun, nofun⟩⟩⟩

theorem presentable_session {session : Option String} (h : session.all isSession = true)
    (before : String) {alone after : List String} (hbefore : Presentable [before])
    (halone : Presentable alone) (hafter : Presentable after) :
    Presentable (session.elim alone fun id => before :: id :: after) := by
  cases session with
  | none => exact halone
  | some id =>
    have hname := isName_argument (show isSession id = true by simpa using h) (by decide)
    exact presentable_cons.mpr ⟨(presentable_cons.mp hbefore).1,
      presentable_cons.mpr ⟨hname, hafter⟩⟩

variable {argv : List String}

theorem validate_fake : validateSafeCommandArgv fakeAdapter argv = .ok () ↔
    ∃ executable, Permitted .fake executable ∧ argv = [executable, "--json"] := by
  constructor
  · intro h
    cases argv with
    | nil => rw [validateSafeCommandArgv, expected_fake] at h; cases h
    | cons executable rest =>
      obtain ⟨hname, hpresent, hgrammar⟩ := (validate_iff expected_fake).mp h
      rw [if_pos rfl] at hgrammar
      split at hgrammar
      · cases hgrammar
      next hargv =>
        refine ⟨executable, ⟨?_, (presentable_cons.mp hpresent).1.1⟩, not_not.mp hargv⟩
        rw [hname]
        exact expected_fake.symm
  · rintro ⟨executable, ⟨hname, hitem⟩, rfl⟩
    have hjson : Presentable ["--json"] := by unfold Presentable; decide
    have hflag := permitted_not_flag hname
    refine (validate_iff expected_fake).mpr ⟨?_, presentable_cons.mpr ⟨⟨hitem, hflag⟩, hjson⟩, ?_⟩
    · exact Option.some.inj (hname.trans expected_fake)
    · rw [if_pos rfl, if_neg (by simp)]

theorem validate_codex : validateSafeCommandArgv codexAdapter argv = .ok () ↔
    ∃ executable sandbox path model session,
      argv = codexArgv executable sandbox path model session ∧ Permitted .codex executable ∧
        sandbox ∈ ["read-only", "workspace-write"] ∧
        (isAbsolute path = true ∧ isArgument path = true) ∧
        model.all isModel = true ∧ session.all isSession = true := by
  have hnotFake : ¬codexAdapter = fakeAdapter := by decide
  constructor
  · intro h
    cases argv with
    | nil => rw [validateSafeCommandArgv, expected_codex] at h; cases h
    | cons executable rest =>
      obtain ⟨hname, hpresent, hgrammar⟩ := (validate_iff expected_codex).mp h
      rw [if_neg hnotFake, if_pos rfl] at hgrammar
      obtain ⟨sandbox, path, model, session, hargv, hsandbox, hpath, hmodel, hsession⟩ :=
        validateCodexArgv_iff.mp hgrammar
      have hitem : isArgument path = true := hpresent.1 path (by rw [hargv]; simp [codexArgv])
      refine ⟨executable, sandbox, path, model, session, hargv,
        ⟨?_, (presentable_cons.mp hpresent).1.1⟩, hsandbox, ⟨hpath, hitem⟩, hmodel, hsession⟩
      rw [hname]
      exact expected_codex.symm
  · rintro ⟨executable, sandbox, path, model, session, rfl, ⟨hname, hitem⟩, hsandbox,
      ⟨hpath, hpathItem⟩, hmodel, hsession⟩
    have hfixed : Presentable ["exec", "--json", "--sandbox", "-C", "--ignore-user-config", "-c",
        "shell_environment_policy.inherit=none", "read-only", "workspace-write", "resume", "-"] := by
      unfold Presentable
      decide
    have hone : ∀ item ∈ ["exec", "--json", "--sandbox", "-C", "--ignore-user-config", "-c",
        "shell_environment_policy.inherit=none", "read-only", "workspace-write", "resume", "-"],
        isArgument item = true ∧ item ∉ forbiddenRuntimeFlags :=
      fun item hmem => ⟨hfixed.1 item hmem, hfixed.2 item hmem⟩
    have hdash : Presentable ["-"] := presentable_cons.mpr ⟨hone _ (by simp), ⟨nofun, nofun⟩⟩
    have hresume : Presentable ["resume"] :=
      presentable_cons.mpr ⟨hone _ (by simp), ⟨nofun, nofun⟩⟩
    have htail : Presentable (codexTail model session) :=
      presentable_append.mpr ⟨presentable_model hmodel,
        presentable_session hsession "resume" hresume hdash hdash⟩
    have hpresent : Presentable (codexArgv executable sandbox path model session) := by
      unfold codexArgv
      simp only [presentable_cons]
      exact ⟨⟨hitem, permitted_not_flag hname⟩, hone _ (by simp), hone _ (by simp),
        hone _ (by simp), hone _ (by simp at hsandbox; rcases hsandbox with rfl | rfl <;> simp),
        hone _ (by simp), ⟨hpathItem, isAbsolute_not_flag hpath⟩, hone _ (by simp),
        hone _ (by simp), hone _ (by simp), htail⟩
    refine (validate_iff expected_codex).mpr
      ⟨Option.some.inj (hname.trans expected_codex), hpresent, ?_⟩
    rw [if_neg hnotFake, if_pos rfl]
    exact validateCodexArgv_iff.mpr
      ⟨sandbox, path, model, session, rfl, hsandbox, hpath, hmodel, hsession⟩

theorem validate_claude :
    validateSafeCommandArgv claudeAdapter argv = .ok () ↔ ∃ executable tools model session,
      argv = claudeArgv executable tools model session ∧ Permitted .claude executable ∧
        tools ∈ ["Read,Glob,Grep", "Read,Glob,Grep,Edit,Write"] ∧
        model.all isModel = true ∧ session.all isSession = true := by
  have hnotFake : ¬claudeAdapter = fakeAdapter := by decide
  have hnotCodex : ¬claudeAdapter = codexAdapter := by decide
  constructor
  · intro h
    cases argv with
    | nil => rw [validateSafeCommandArgv, expected_claude] at h; cases h
    | cons executable rest =>
      obtain ⟨hname, hpresent, hgrammar⟩ := (validate_iff expected_claude).mp h
      rw [if_neg hnotFake, if_neg hnotCodex, if_pos rfl] at hgrammar
      obtain ⟨tools, model, session, hargv, htools, hmodel, hsession⟩ :=
        validateClaudeArgv_iff.mp hgrammar
      refine ⟨executable, tools, model, session, hargv,
        ⟨?_, (presentable_cons.mp hpresent).1.1⟩, htools, hmodel, hsession⟩
      rw [hname]
      exact expected_claude.symm
  · rintro ⟨executable, tools, model, session, rfl, ⟨hname, hitem⟩, htools, hmodel, hsession⟩
    have hrequired : Presentable claudeRequired := by unfold Presentable; decide
    have htool : ∀ item ∈ ["Read,Glob,Grep", "Read,Glob,Grep,Edit,Write"],
        isArgument item = true ∧ item ∉ forbiddenRuntimeFlags := by decide
    have hresume : Presentable ["--resume"] := by unfold Presentable; decide
    have htail : Presentable (claudeTail model session) :=
      presentable_append.mpr ⟨presentable_model hmodel,
        presentable_session hsession "--resume" hresume ⟨nofun, nofun⟩ ⟨nofun, nofun⟩⟩
    have hpresent : Presentable (claudeArgv executable tools model session) := by
      rw [claudeArgv, presentable_cons, presentable_append, presentable_cons]
      exact ⟨⟨hitem, permitted_not_flag hname⟩, hrequired, htool tools htools, htail⟩
    refine (validate_iff expected_claude).mpr
      ⟨Option.some.inj (hname.trans expected_claude), hpresent, ?_⟩
    rw [if_neg hnotFake, if_neg hnotCodex, if_pos rfl]
    exact validateClaudeArgv_iff.mpr ⟨tools, model, session, rfl, htools, hmodel, hsession⟩
end
section

variable {r : RuntimeRequest}

theorem RuntimeRequest.valid_iff : r.fault = none ↔
    ¬(r.prompt.toList.all isSpace = true ∨ Char.ofNat 0 ∈ r.prompt.toList) ∧
      r.prompt.utf8ByteSize ≤ maxPromptBytes ∧ r.cwd.mode = r.filesystemPolicy.mode ∧
      r.filesystemPolicy.mode ≠ .approvedExternalRoot ∧ r.model.all isModel = true ∧
      r.providerSessionId.all isSession = true := by
  unfold RuntimeRequest.fault
  constructor
  · intro h
    split at h
    · cases h
    next hprompt =>
      split at h
      · cases h
      next hsize =>
        split at h
        · cases h
        next hmode =>
          split at h
          · cases h
          next hexternal =>
            split at h
            · cases h
            next hmodel =>
              split at h
              · cases h
              next hsession =>
                exact ⟨hprompt, not_lt.mp hsize, not_not.mp hmode, hexternal,
                  Bool.eq_true_of_not_eq_false hmodel, Bool.eq_true_of_not_eq_false hsession⟩
  · rintro ⟨hprompt, hsize, hmode, hexternal, hmodel, hsession⟩
    rw [if_neg hprompt, if_neg (not_lt.mpr hsize), if_neg (not_not.mpr hmode), if_neg hexternal,
      if_neg (by simp [hmodel]), if_neg (by simp [hsession])]

theorem isAbsolute_append {root : String} (h : isAbsolute root = true) (rest : String) :
    isAbsolute (root ++ rest) = true := by
  unfold isAbsolute startsWith at h ⊢
  rw [List.isPrefixOf_iff_prefix] at h ⊢
  rw [String.toList_append]
  exact h.trans (prefix_append _ _)

theorem ManagedCwd.path_absolute (cwd : ManagedCwd) : isAbsolute cwd.path = true := by
  unfold ManagedCwd.path
  split
  · exact cwd.rootAbsolute
  · split
    · exact isAbsolute_append cwd.rootAbsolute _
    · exact isAbsolute_append (isAbsolute_append cwd.rootAbsolute _) _

theorem plan_ok {adapterId : String} {argv built : List String} :
    buildCommand.plan adapterId argv = .ok built ↔
      validateSafeCommandArgv adapterId argv = .ok () ∧ built = argv := by
  unfold buildCommand.plan
  cases validateSafeCommandArgv adapterId argv with
  | ok u => simp [eq_comm]
  | error text => simp

variable {resolved : Option String}

theorem buildCommand_fake :
    buildCommand .fake resolved r = buildCommand.plan fakeAdapter fakeCommand := by
  cases resolved <;> rfl

theorem codexSandbox_mem (r : RuntimeRequest) :
    codexSandbox r ∈ ["read-only", "workspace-write"] := by
  unfold codexSandbox
  split <;> simp

theorem claudeTools_mem (r : RuntimeRequest) :
    claudeTools r ∈ ["Read,Glob,Grep", "Read,Glob,Grep,Edit,Write"] := by
  unfold claudeTools
  split <;> simp

theorem buildCommand_ok {adapter : Adapter} {executable : String} (hvalid : r.fault = none)
    (hpermitted : Permitted adapter executable) (hpath : isArgument r.cwd.path = true) :
    buildCommand adapter (some executable) r = .ok (match adapter with
      | .fake => fakeCommand
      | .codex => codexCommand executable r
      | .claude => claudeCommand executable r) := by
  obtain ⟨-, -, -, -, hmodel, hsession⟩ := RuntimeRequest.valid_iff.mp hvalid
  cases adapter with
  | fake =>
    have hfake : validateSafeCommandArgv fakeAdapter fakeCommand = .ok () := by decide
    exact plan_ok.mpr ⟨hfake, rfl⟩
  | codex =>
    refine plan_ok.mpr ⟨validate_codex.mpr ?_, rfl⟩
    exact ⟨executable, codexSandbox r, r.cwd.path, r.model, r.providerSessionId,
      codexCommand_eq executable r, hpermitted, codexSandbox_mem r,
      ⟨r.cwd.path_absolute, hpath⟩, hmodel, hsession⟩
  | claude =>
    refine plan_ok.mpr ⟨validate_claude.mpr ?_, rfl⟩
    exact ⟨executable, claudeTools r, r.model, r.providerSessionId, claudeCommand_eq executable r,
      hpermitted, claudeTools_mem r, hmodel, hsession⟩

def plainRequest (writes : Bool) (model session : Option String) : RuntimeRequest where
  prompt := "run"
  cwd := if writes then
      ⟨"/", ".raytsystem/workspaces/w", .taskWorktree, by decide, by decide⟩
    else ⟨"/", ".", .workspaceRootReadonly, by decide, by decide⟩
  filesystemPolicy := if writes then ⟨.taskWorktree, true, nofun⟩
    else ⟨.workspaceRootReadonly, false, fun _ => rfl⟩
  model := model
  providerSessionId := session

theorem plainRequest_valid (writes : Bool) {model session : Option String}
    (hmodel : model.all isModel = true) (hsession : session.all isSession = true) :
    (plainRequest writes model session).fault = none ∧
      isArgument (plainRequest writes model session).cwd.path = true := by
  have hprompt : ¬("run".toList.all isSpace = true ∨ Char.ofNat 0 ∈ "run".toList) := by
    decide
  have hsize : "run".utf8ByteSize ≤ maxPromptBytes := by decide
  rw [RuntimeRequest.valid_iff]
  cases writes with
  | true =>
    have hpath : isArgument (plainRequest true none none).cwd.path = true := by decide
    exact ⟨⟨hprompt, hsize, rfl, nofun, hmodel, hsession⟩, hpath⟩
  | false =>
    have hpath : isArgument (plainRequest false none none).cwd.path = true := by decide
    exact ⟨⟨hprompt, hsize, rfl, nofun, hmodel, hsession⟩, hpath⟩

variable {argv : List String}

theorem buildCommand_validated {adapter : Adapter} {resolved : Option String} {r : RuntimeRequest}
    {argv : List String} (h : buildCommand adapter resolved r = .ok argv) :
    validateSafeCommandArgv adapter.id argv = .ok () := by
  cases adapter with
  | fake =>
    rw [buildCommand_fake] at h
    obtain ⟨hvalid, rfl⟩ := plan_ok.mp h
    exact hvalid
  | codex =>
    cases resolved with
    | none => cases h
    | some executable =>
      obtain ⟨hvalid, rfl⟩ := plan_ok.mp h
      exact hvalid
  | claude =>
    cases resolved with
    | none => cases h
    | some executable =>
      obtain ⟨hvalid, rfl⟩ := plan_ok.mp h
      exact hvalid

theorem fake_built : validateSafeCommandArgv fakeAdapter argv = .ok () ↔
    ∃ executable r built, r.fault = none ∧ Permitted .fake executable ∧
      buildCommand .fake (some executable) r = .ok built ∧ argv = built.set 0 executable := by
  rw [validate_fake]
  constructor
  · rintro ⟨executable, hpermitted, rfl⟩
    have hmodel : (none : Option String).all isModel = true := rfl
    have hsession : (none : Option String).all isSession = true := rfl
    obtain ⟨hvalid, hpath⟩ := plainRequest_valid false hmodel hsession
    exact ⟨executable, _, _, hvalid, hpermitted, buildCommand_ok hvalid hpermitted hpath, rfl⟩
  · rintro ⟨executable, r, built, -, hpermitted, hbuilt, rfl⟩
    rw [buildCommand_fake] at hbuilt
    obtain ⟨-, rfl⟩ := plan_ok.mp hbuilt
    exact ⟨executable, hpermitted, rfl⟩

theorem chosen_of_mem {α : Type} {x y z : α} {f : Bool → α} (hx : f false = x) (hy : f true = y)
    (hz : z ∈ [x, y]) : ∃ writes, f writes = z := by
  simp only [mem_cons, not_mem_nil, or_false] at hz
  rcases hz with rfl | rfl
  · exact ⟨false, hx⟩
  · exact ⟨true, hy⟩

theorem claude_built : validateSafeCommandArgv claudeAdapter argv = .ok () ↔
    ∃ executable r, r.fault = none ∧ Permitted .claude executable ∧
      buildCommand .claude (some executable) r = .ok argv := by
  constructor
  · intro h
    obtain ⟨executable, tools, model, session, rfl, hpermitted, htools, hmodel, hsession⟩ :=
      validate_claude.mp h
    obtain ⟨writes, hwrites⟩ : ∃ writes, claudeTools (plainRequest writes model session) = tools :=
      chosen_of_mem rfl rfl htools
    obtain ⟨hvalid, hpath⟩ := plainRequest_valid writes hmodel hsession
    refine ⟨executable, plainRequest writes model session, hvalid, hpermitted, ?_⟩
    rw [buildCommand_ok hvalid hpermitted hpath]
    dsimp only
    rw [claudeCommand_eq, hwrites]
    rfl
  · rintro ⟨executable, r, -, -, hbuilt⟩
    exact buildCommand_validated hbuilt

theorem codex_built : validateSafeCommandArgv codexAdapter argv = .ok () ↔
    ∃ executable r built path, r.fault = none ∧ Permitted .codex executable ∧
      buildCommand .codex (some executable) r = .ok built ∧
      (isAbsolute path = true ∧ isArgument path = true) ∧ argv = built.set 6 path := by
  constructor
  · intro h
    obtain ⟨executable, sandbox, path, model, session, rfl, hpermitted, hsandbox, hpath, hmodel,
      hsession⟩ := validate_codex.mp h
    obtain ⟨writes, hwrites⟩ :
        ∃ writes, codexSandbox (plainRequest writes model session) = sandbox :=
      chosen_of_mem rfl rfl hsandbox
    obtain ⟨hvalid, hargument⟩ := plainRequest_valid writes hmodel hsession
    refine ⟨executable, plainRequest writes model session, _, path, hvalid, hpermitted,
      buildCommand_ok hvalid hpermitted hargument, hpath, ?_⟩
    dsimp only
    rw [codexCommand_eq, hwrites]
    rfl
  · rintro ⟨executable, r, built, path, hvalid, hpermitted, hbuilt, hpath, rfl⟩
    obtain ⟨-, rfl⟩ := plan_ok.mp hbuilt
    obtain ⟨-, -, -, -, hmodel, hsession⟩ := RuntimeRequest.valid_iff.mp hvalid
    rw [codexCommand_eq]
    exact validate_codex.mpr ⟨executable, codexSandbox r, path, r.model, r.providerSessionId, rfl,
      hpermitted, codexSandbox_mem r, hpath, hmodel, hsession⟩

/-- The validator accepts the commands that the adapters build, and no others but for the
executable of the fake runtime and for the directory of a Codex command. -/
theorem command_grammar :
    (∀ (adapter : Adapter) (resolved : Option String) (r : RuntimeRequest) (argv : List String),
      buildCommand adapter resolved r = .ok argv →
        validateSafeCommandArgv adapter.id argv = .ok ()) ∧
    (∀ (adapter : Adapter) (executable : String) (r : RuntimeRequest), r.fault = none →
      Permitted adapter executable → isArgument r.cwd.path = true →
        ∃ argv, buildCommand adapter (some executable) r = .ok argv) ∧
    (∀ argv, validateSafeCommandArgv fakeAdapter argv = .ok () ↔
      ∃ executable r built, r.fault = none ∧ Permitted .fake executable ∧
        buildCommand .fake (some executable) r = .ok built ∧ argv = built.set 0 executable) ∧
    (∀ argv, validateSafeCommandArgv claudeAdapter argv = .ok () ↔
      ∃ executable r, r.fault = none ∧ Permitted .claude executable ∧
        buildCommand .claude (some executable) r = .ok argv) ∧
    ∀ argv, validateSafeCommandArgv codexAdapter argv = .ok () ↔
      ∃ executable r built path, r.fault = none ∧ Permitted .codex executable ∧
        buildCommand .codex (some executable) r = .ok built ∧
        (isAbsolute path = true ∧ isArgument path = true) ∧ argv = built.set 6 path := by
  refine ⟨?_, ?_, fun argv => fake_built, fun argv => claude_built, fun argv => codex_built⟩
  · intro adapter resolved r argv h
    exact buildCommand_validated h
  · intro adapter executable r hvalid hpermitted hpath
    exact ⟨_, buildCommand_ok hvalid hpermitted hpath⟩
end

def foreignCommand : List String :=
  codexArgv "/usr/bin/codex" "workspace-write" "/tmp" none none

theorem worktree_token {cwd : ManagedCwd} (hmode : cwd.mode = .taskWorktree) :
    ∃ rest, cwd.token = joinParts (".raytsystem".toList :: rest) := by
  have hreviewed := cwd.reviewed
  have hnotRoot : ¬(cwd.mode = .workspaceRootReadonly ∧ cwd.token = ".") := by simp [hmode]
  have hmanaged : ¬cwd.mode = .approvedExternalRoot := by simp [hmode]
  unfold tokenFault at hreviewed
  rw [if_neg hnotRoot, if_neg hmanaged] at hreviewed
  split at hreviewed
  · cases hreviewed
  next parts hparts =>
    split at hreviewed
    · cases hreviewed
    next hbelow =>
      simp only [not_or, not_lt, not_not] at hbelow
      obtain ⟨hlength, hroot⟩ := hbelow
      obtain ⟨first, rest, rfl⟩ := exists_cons_of_ne_nil
        (show parts ≠ [] by rintro rfl; simp at hlength)
      have hfirst : first = ".raytsystem".toList := by
        rw [take_succ_cons, cons.injEq] at hroot
        exact hroot.1
      unfold safeRelativePath at hparts
      dsimp only at hparts
      split at hparts
      · cases hparts
      · split at hparts
        · cases hparts
        · by_cases hcanonical : (if pathParts cwd.token = [] then "."
              else joinParts (pathParts cwd.token)) = cwd.token
          · rw [if_neg (not_not.mpr hcanonical)] at hparts
            rw [Except.ok.inj hparts, if_neg (by simp)] at hcanonical
            exact ⟨rest, by rw [← hfirst, hcanonical]⟩
          · rw [if_pos hcanonical] at hparts
            cases hparts

theorem worktree_path_long {cwd : ManagedCwd} (hmode : cwd.mode = .taskWorktree) :
    4 < cwd.path.length := by
  obtain ⟨rest, htoken⟩ := worktree_token hmode
  have hlong : 11 ≤ cwd.token.length := by
    rw [htoken, ← String.length_toList, joinParts, String.toList_ofList]
    cases rest with
    | nil => simp
    | cons next more =>
      rw [intercalate_cons_cons]
      simp
  have hnotRoot : cwd.token ≠ "." := by
    intro hdot
    rw [hdot] at hlong
    exact absurd hlong (by decide)
  unfold ManagedCwd.path
  rw [if_neg hnotRoot]
  split <;> simp only [String.length_append] <;> omega

/-- The command is accepted, and no request builds it. -/
theorem foreign_command_accepted :
    validateSafeCommandArgv codexAdapter foreignCommand = .ok () ∧
      ∀ resolved r, buildCommand .codex resolved r ≠ .ok foreignCommand := by
  refine ⟨by decide, ?_⟩
  intro resolved r hbuilt
  cases resolved with
  | none => cases hbuilt
  | some executable =>
    obtain ⟨-, hargv⟩ := plan_ok.mp hbuilt
    rw [codexCommand_eq, foreignCommand, codexArgv, codexArgv] at hargv
    simp only [List.cons.injEq, true_and] at hargv
    obtain ⟨-, hsandbox, hpath, -⟩ := hargv
    have hmode : r.cwd.mode = .taskWorktree := by
      unfold codexSandbox at hsandbox
      split at hsandbox
      next h => exact h.1
      next => exact absurd hsandbox (by decide)
    have hlong := worktree_path_long hmode
    rw [← hpath] at hlong
    exact absurd hlong (by decide)

end RaytSystem.Runtime
