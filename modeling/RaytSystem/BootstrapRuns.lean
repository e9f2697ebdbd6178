import RaytSystem.BootstrapModel
import RaytSystem.ExceptRules

/-! An installation that is interrupted: from its first write to its record there is a point
from which neither the installer nor the removal goes on. -/
namespace RaytSystem.Bootstrap
open Backup WorkspaceNode List Option

section
variable {names : List String} {child : String → WorkspaceNode} {name : String} {p q : Path}
  {data : Bytes} {t t' : WorkspaceNode}

@[simp] theorem fileAt_below_file {links : ℕ} : fileAt (name :: q) (file data links) = none := rfl

@[simp] theorem fileAt_directory : fileAt [] (directory names child) = none := rfl

theorem fileAt_cons : fileAt (name :: q) (directory names child) =
    if name ∈ names then fileAt q (child name) else none := by
  unfold fileAt
  rw [locate_directory]
  split <;> rfl

theorem fileAt_fresh : fileAt q (fresh data p) = if q = p then some data else none := by
  induction p generalizing q with
  | nil =>
    cases q with
    | nil => rfl
    | cons name q => exact fileAt_below_file
  | cons name rest ih =>
    cases q with
    | nil => simp [fresh]
    | cons n q =>
      rw [fresh, fileAt_cons, ih]
      by_cases hn : n = name <;> simp [hn]

theorem put_isSome : (put data p t).isSome = writableAt p t := by
  induction p generalizing t with
  | nil => cases t <;> rfl
  | cons name rest ih =>
    cases t with
    | directory names child =>
      simp only [put, writableAt]
      split
      · rw [isSome_map, ih]
      · rfl
    | _ => rfl

theorem fileAt_put_self (h : put data p t = some t') : fileAt p t' = some data := by
  induction p generalizing t t' with
  | nil =>
    cases t <;> cases h
    rfl
  | cons name rest ih =>
    cases t with
    | directory names child =>
      simp only [put] at h
      split at h
      next hmem =>
        obtain ⟨n, hn, rfl⟩ := map_eq_some_iff.mp h
        rw [fileAt_cons, if_pos hmem, Function.update_self]
        exact ih hn
      next =>
        obtain rfl := some.inj h
        rw [fileAt_cons, if_pos (by simp), Function.update_self, fileAt_fresh, if_pos rfl]
    | _ => cases h

theorem fileAt_put_other (h : put data p t = some t') (hne : q ≠ p) : fileAt q t' = fileAt q t := by
  induction p generalizing t t' q with
  | nil =>
    obtain ⟨name, q, rfl⟩ := exists_cons_of_ne_nil hne
    cases t <;> cases h
    rfl
  | cons name rest ih =>
    cases t with
    | directory names child =>
      simp only [put] at h
      cases q with
      | nil =>
        split at h
        next =>
          obtain ⟨n, -, rfl⟩ := map_eq_some_iff.mp h
          rfl
        next =>
          obtain rfl := some.inj h
          rfl
      | cons n q =>
        split at h
        next hmem =>
          obtain ⟨node, hnode, rfl⟩ := map_eq_some_iff.mp h
          rw [fileAt_cons, fileAt_cons]
          by_cases hn : n = name
          · subst hn
            rw [Function.update_self, ih hnode fun hq => hne (by rw [hq])]
          · rw [Function.update_of_ne hn]
        next hmem =>
          obtain rfl := some.inj h
          rw [fileAt_cons, fileAt_cons]
          by_cases hn : n = name
          · subst hn
            have hq : q ≠ rest := fun hq => hne (by rw [hq])
            rw [Function.update_self, fileAt_fresh, if_neg hq, if_neg hmem, ite_self]
          · rw [Function.update_of_ne hn]
            simp [hn]
    | _ => cases h
end

section
variable {w : Write} {ws rest : List Write} {t t' : WorkspaceNode} {q : Path} {b : Bool}

theorem run_other (h : w.run t = some t') (hne : q ≠ w.path) : fileAt q t' = fileAt q t := by
  obtain ⟨data, -, hput⟩ := bind_eq_some_iff.mp h
  exact fileAt_put_other hput hne

theorem run_self (h : w.run t = some t') : (fileAt w.path t').isSome = true := by
  obtain ⟨data, -, hput⟩ := bind_eq_some_iff.mp h
  rw [fileAt_put_self hput]
  rfl

theorem runWrites_other (h : runWrites ws t = (t',b)) (hne : ∀ w ∈ ws, q ≠ w.path) :
    fileAt q t' = fileAt q t := by
  induction ws generalizing t with
  | nil =>
    cases h
    rfl
  | cons w ws ih =>
    rw [runWrites] at h
    split at h
    next =>
      cases h
      rfl
    next t₁ hrun =>
      rw [ih h fun w hw => hne w (mem_cons_of_mem _ hw)]
      exact run_other hrun (hne w mem_cons_self)

theorem runWrites_keeps (h : runWrites ws t = (t',b)) (hq : (fileAt q t).isSome = true) :
    (fileAt q t').isSome = true := by
  induction ws generalizing t with
  | nil =>
    cases h
    exact hq
  | cons w ws ih =>
    rw [runWrites] at h
    split at h
    next =>
      cases h
      exact hq
    next t₁ hrun =>
      refine ih h ?_
      by_cases hw : q = w.path
      · rw [hw]
        exact run_self hrun
      · rw [run_other hrun hw]
        exact hq

theorem runWrites_written (h : runWrites ws t = (t',true)) (hw : w ∈ ws) :
    (fileAt w.path t').isSome = true := by
  induction ws generalizing t with
  | nil => cases hw
  | cons x ws ih =>
    rw [runWrites] at h
    split at h
    · cases h
    next t₁ hrun =>
      rcases mem_cons.mp hw with rfl | hw
      · exact runWrites_keeps h (run_self hrun)
      · exact ih h hw

theorem runWrites_stops (h : runWrites ws t = (t',false)) :
    runWrites (ws ++ rest) t = (t',false) := by
  induction ws generalizing t with
  | nil => cases h
  | cons w ws ih =>
    rw [cons_append, runWrites]
    rw [runWrites] at h
    split at h
    next => exact h
    next t₁ hrun => exact ih h
end

section
variable (env : InstallEnv)

def Resumes (t : WorkspaceNode) : Prop := ∃ r id, (apply env r t).1 = .ok id

def Undone (t t' : WorkspaceNode) : Prop :=
  ∃ t'', uninstall env t' = some t'' ∧ ∀ q, fileAt q t' ≠ fileAt q t → fileAt q t'' = fileAt q t

structure AllOrNothing (r : InstallRequest) (t : WorkspaceNode) : Prop where
  raised : ∀ e, (apply env r t).1 = .error e → ∀ q, fileAt q (apply env r t).2 = fileAt q t
  crashed : ∀ id, checked env r t = .ok id → ∀ done rest t',
    writes env id t ++ rebuildWrites env = done ++ rest → done ≠ [] → rest ≠ [] →
      runWrites done t = (t',true) → Resumes env t' ∨ Undone env t t'

def Blocked (r : InstallRequest) (t : WorkspaceNode) : Prop :=
  (∃ e, checked env r t = .error e) ∨
    ∃ id p, checked env r t = .ok id ∧ (classified env id t .create).head? = some p ∧
      writableAt p t = false

def Unrecorded (t : WorkspaceNode) : Prop := (fileAt recordPath t).bind env.parseRecord = none

variable {env} {r : InstallRequest} {t t' : WorkspaceNode} {id : TemplateId} {p : Path}

theorem writes_cons {rest : List Path} (h : classified env id t .create = p :: rest) :
    ∃ others, writes env id t = createWrite env id p :: others := by
  unfold writes
  rw [h, map_cons, cons_append, cons_append]
  exact ⟨_, rfl⟩

theorem apply_stopped (hid : checked env r t = .ok id)
    (hrun : runWrites (writes env id t) t = (t',false)) :
    apply env r t = (.error "A file cannot be written",t') := by
  unfold apply
  rw [hid]
  change (if (runWrites (writes env id t) t).2 = true then _ else _ : _ × _) = _
  rw [hrun]
  rfl

theorem blocked_allOrNothing (h : Blocked env r t) : AllOrNothing env r t := by
  rcases h with ⟨e, he⟩ | ⟨id, p, hid, hhead, hp⟩
  · refine ⟨?_, ?_⟩
    · intro e' _ q
      unfold apply
      rw [he]
    · intro id hid
      rw [he] at hid
      cases hid
  · obtain ⟨rest, hrest⟩ := head?_eq_some_iff.mp hhead
    have hrun : (createWrite env id p).run t = none := by
      have hnone : (put (env.content id p) p t).isSome = false := put_isSome.trans hp
      cases hput : put (env.content id p) p t with
      | none => exact hput
      | some t' =>
        rw [hput] at hnone
        cases hnone
    obtain ⟨others, hwrites⟩ := writes_cons hrest
    refine ⟨?_, ?_⟩
    · intro e _ q
      have hstop : runWrites (writes env id t) t = (t,false) := by rw [hwrites, runWrites, hrun]
      rw [apply_stopped hid hstop]
    · intro id' hid' done rest' t' hsplit hdone _ hall
      obtain rfl : id = id' := Except.ok.inj (hid.symm.trans hid')
      obtain ⟨w, done, rfl⟩ := exists_cons_of_ne_nil hdone
      rw [hwrites] at hsplit
      obtain ⟨rfl, -⟩ := cons.inj hsplit
      rw [runWrites, hrun] at hall
      cases hall

theorem checked_eq_ok (h : checked env r t = .ok id) :
    blockers env t = [] ∧ classified env id t .conflict = [] := by
  unfold checked at h
  obtain ⟨mode, -, h⟩ := bind_eq_ok.mp h
  obtain ⟨id', -, h⟩ := bind_eq_ok.mp h
  split at h
  · cases h
  next hblockers =>
    split at h
    · cases h
    split at h
    · cases h
    split at h
    · cases h
    next hconflict =>
      obtain rfl := Except.ok.inj h
      exact ⟨not_not.mp hblockers, not_not.mp hconflict⟩

theorem config_absent (h : blockers env t = []) : fileAt configPath t = none := by
  rw [blockers, append_eq_nil_iff] at h
  by_contra hsome
  rw [if_pos (isSome_iff_ne_none.mpr hsome)] at h
  cases h.2

theorem config_created (h : checked env r t = .ok id) :
    configPath ∈ classified env id t .create := by
  obtain ⟨hblockers, hconflict⟩ := checked_eq_ok h
  have hnone := config_absent hblockers
  have hlisted : configPath ∈ sortedPaths (templateFiles id) := by
    refine (mem_insertionSort _).mpr ?_
    simp [templateFiles]
  have hclass : classifyFile env id t configPath ≠ .conflict := by
    intro hc
    have hmem : configPath ∈ classified env id t .conflict :=
      mem_filter.mpr ⟨hlisted, by simpa using hc⟩
    rw [hconflict] at hmem
    cases hmem
  refine mem_filter.mpr ⟨hlisted, ?_⟩
  unfold classifyFile at hclass ⊢
  rw [hnone] at hclass ⊢
  split at hclass
  · exact absurd rfl hclass
  next hlink =>
    rw [if_neg hlink]
    split at hclass
    next hexists => simp [hexists]
    next => exact absurd rfl hclass

theorem recordPath_not_listed (id : TemplateId) : recordPath ∉ templateFiles id := by
  cases id <;> decide

theorem fileAt_created (h : p ∈ classified env id t .create) : fileAt p t = none := by
  have hclass : classifyFile env id t p = .create := by simpa using (mem_filter.mp h).2
  unfold classifyFile at hclass
  split at hclass
  · cases hclass
  split at hclass
  next hexists =>
    unfold existsAt at hexists
    unfold fileAt
    cases hfound : locate p t with
    | none => rfl
    | some found =>
      rw [hfound, any_some] at hexists
      unfold pathExists at hexists
      rw [bind_some]
      split at hexists
      next hdangling => rw [hdangling]
      next => cases hexists
  next =>
    split at hclass
    · cases hclass
    · split at hclass <;> cases hclass

theorem stopped_not_allOrNothing (hid : checked env r t = .ok id)
    (hfirst : ∀ p, (classified env id t .create).head? = some p → writableAt p t = true)
    (hrun : runWrites (writes env id t) t = (t',false)) : ¬AllOrNothing env r t := by
  intro hall
  have hconfig := config_created hid
  cases hc : classified env id t .create with
  | nil =>
    rw [hc] at hconfig
    cases hconfig
  | cons p rest =>
    have hmem : p ∈ classified env id t .create := by
      rw [hc]
      exact mem_cons_self
    have hopen : (put (env.content id p) p t).isSome = true :=
      put_isSome.trans (hfirst p (by rw [hc]; rfl))
    obtain ⟨t₁, hput⟩ := isSome_iff_exists.mp hopen
    obtain ⟨others, hwrites⟩ := writes_cons hc
    have hrun₁ : (createWrite env id p).run t = some t₁ := hput
    have hself : (fileAt p t₁).isSome = true := run_self hrun₁
    have hsame := hall.raised
    rw [apply_stopped hid hrun] at hsame
    have hfile : fileAt p t' = none := (hsame _ rfl p).trans (fileAt_created hmem)
    rw [hwrites, runWrites, hrun₁] at hrun
    have hkept := runWrites_keeps hrun hself
    rw [hfile] at hkept
    cases hkept

/-- The configuration is written, and the record is not: the installer takes the target for an
installed one, and the removal finds no installation. -/
theorem configured_stuck (hconfig : (fileAt configPath t').isSome = true)
    (hrecord : Unrecorded env t') : ¬Resumes env t' ∧ ¬Undone env t t' := by
  refine ⟨?_, ?_⟩
  · rintro ⟨r, id, hresumed⟩
    unfold apply at hresumed
    split at hresumed
    · cases hresumed
    next id' hid =>
      rw [config_absent (checked_eq_ok hid).1] at hconfig
      cases hconfig
  · rintro ⟨t'', hundone, -⟩
    unfold uninstall at hundone
    obtain ⟨bytes, hbytes, hundone⟩ := bind_eq_some_iff.mp hundone
    obtain ⟨record, hparsed, -⟩ := bind_eq_some_iff.mp hundone
    unfold Unrecorded at hrecord
    rw [hbytes, bind_some, hparsed] at hrecord
    cases hrecord

theorem writes_configured (hid : checked env r t = .ok id) : ∃ done others : List Write,
    writes env id t = done ++ others ∧ others ≠ [] ∧ (∃ w ∈ done, w.path = configPath) ∧
      ∀ w ∈ done, recordPath ≠ w.path := by
  obtain ⟨before, after, hsplit⟩ := append_of_mem (config_created hid)
  refine ⟨(before ++ [configPath]).map (createWrite env id),
    after.map (createWrite env id) ++ (classified env id t .merge).map (mergeWrite env id) ++
      closingWrites env id t, ?_, ?_, ?_, ?_⟩
  · unfold writes
    rw [hsplit]
    simp only [map_append, map_cons, map_nil, append_assoc, cons_append,
      nil_append]
  · simp [closingWrites]
  · exact ⟨_, mem_map_of_mem (mem_append_right _ (mem_singleton_self _)), rfl⟩
  · intro w hw
    obtain ⟨p, hp, rfl⟩ := mem_map.mp hw
    have hlisted : p ∈ classified env id t .create := by
      rw [hsplit]
      rcases mem_append.mp hp with hp | hp
      · exact mem_append_left _ hp
      · rw [mem_singleton.mp hp]
        exact mem_append_right _ mem_cons_self
    rintro rfl
    exact recordPath_not_listed id
      ((mem_insertionSort _).mp (mem_filter.mp hlisted).1)

/-- An installation that passes its checks and can write its first file is not all or nothing: a
later write is refused, or it may be lost right after its configuration. -/
theorem unblocked_not_allOrNothing (hrecord : Unrecorded env t) (hid : checked env r t = .ok id)
    (hfirst : ∀ p, (classified env id t .create).head? = some p → writableAt p t = true) :
    ¬AllOrNothing env r t := by
  obtain ⟨done, others, hwrites, hothers, ⟨w, hw, hpath⟩, hpaths⟩ := writes_configured hid
  have hdone : done ≠ [] := ne_nil_of_mem hw
  obtain ⟨t', b, hrun⟩ : ∃ t' b, runWrites done t = (t',b) := ⟨_, _, rfl⟩
  cases b with
  | false =>
    have hstop : runWrites (writes env id t) t = (t',false) := by
      rw [hwrites]
      exact runWrites_stops hrun
    exact stopped_not_allOrNothing hid hfirst hstop
  | true =>
    intro hall
    have hconfig : (fileAt configPath t').isSome = true := hpath ▸ runWrites_written hrun hw
    have hrecord' : Unrecorded env t' := by
      unfold Unrecorded
      rw [runWrites_other hrun hpaths]
      exact hrecord
    obtain ⟨hresumes, hundone⟩ := configured_stuck (t := t) hconfig hrecord'
    have hsplit : writes env id t ++ rebuildWrites env = done ++ (others ++ rebuildWrites env) := by
      rw [hwrites, append_assoc]
    rcases hall.crashed id hid done _ t' hsplit hdone (by simp [hothers]) hrun with h | h
    · exact hresumes h
    · exact hundone h

/-- An installation is all or nothing where it writes nothing, and, in a target without a record
of an earlier one, only there. -/
theorem bootstrap_all_or_nothing (env : InstallEnv) (r : InstallRequest) (t : WorkspaceNode) :
    (Blocked env r t → AllOrNothing env r t) ∧
      (Unrecorded env t → AllOrNothing env r t → Blocked env r t) := by
  refine ⟨blocked_allOrNothing, ?_⟩
  intro hrecord hall
  by_contra hopen
  cases hc : checked env r t with
  | error e => exact hopen (Or.inl ⟨e, hc⟩)
  | ok id =>
    refine unblocked_not_allOrNothing hrecord hc ?_ hall
    intro p hp
    by_contra hclosed
    exact hopen (Or.inr ⟨id, p, hc, hp, Bool.eq_false_iff.mpr hclosed⟩)
end

def sampleEncode (text : Text) : Bytes := text.map fun c => UInt8.ofNat c.toNat

def sampleEnv : InstallEnv where
  pythonOk := true
  writable _ := true
  primaryType _ := .empty
  content _ p := sampleEncode ("/".intercalate p).toList
  fingerprint _ := "bootstrap_sample"
  genesis := sampleEncode "genesis".toList
  recordBytes _ := sampleEncode "record".toList
  parseRecord bytes := if bytes = sampleEncode "record".toList then some ⟨[], []⟩ else none
  sourceMap _ := sampleEncode "roots".toList
  decode bytes :=
    if bytes.all (· < 128) = true then some (bytes.map fun b => Char.ofNat b.toNat) else none
  encode := sampleEncode
  rebuilt := []

def sampleRequest : InstallRequest := ⟨"bootstrap_sample", "auto", "auto", "managed", "en"⟩

def emptyTarget : WorkspaceNode := directory [] fun _ => .special

def notesTarget : WorkspaceNode := directory ["knowledge"] fun _ => directory [] fun _ => .special

theorem templateFiles_ne_nil {id : TemplateId} : ∀ p ∈ templateFiles id, p ≠ [] := by
  cases id <;> decide

theorem classified_ne_nil {env : InstallEnv} {id : TemplateId} {t : WorkspaceNode} {k : FileClass} :
    ∀ p ∈ classified env id t k, p ≠ [] := by
  intro p hp
  exact templateFiles_ne_nil p ((mem_insertionSort _).mp (mem_filter.mp hp).1)

theorem empty_checked : checked sampleEnv sampleRequest emptyTarget = .ok .software := by
  have hconflict : classified sampleEnv .software emptyTarget .conflict = [] := by
    refine filter_eq_nil_iff.mpr ?_
    intro p hp hclass
    have hne := templateFiles_ne_nil p ((mem_insertionSort _).mp hp)
    obtain ⟨name, rest, rfl⟩ := exists_cons_of_ne_nil hne
    cases of_decide_eq_true hclass
  have hresolved : resolveTemplate "auto" "auto" .empty = .ok .software := rfl
  have hmode : parseMode "managed" = .ok .managed := rfl
  have hzones : managedZones.filter (fun zone => existsAt [zone] emptyTarget) = [] := rfl
  have hblockers : blockers sampleEnv emptyTarget = [] := rfl
  have hconfirm : sampleRequest.confirm = sampleEnv.fingerprint
      (planIdentity sampleEnv .software .managed sampleRequest emptyTarget) := rfl
  refine bind_eq_ok.mpr ⟨_, hmode, bind_eq_ok.mpr ⟨_, hresolved, ?_⟩⟩
  rw [if_neg (not_not.mpr hblockers), if_neg (not_not.mpr hconfirm), if_neg (not_not.mpr hzones),
    if_neg (not_not.mpr hconflict)]

/-- A directory with a file of its own. -/
theorem notes_kept : AllOrNothing sampleEnv sampleRequest notesTarget :=
  (bootstrap_all_or_nothing sampleEnv sampleRequest notesTarget).1 (Or.inl ⟨_, rfl⟩)

/-- An installation in an empty directory. -/
theorem fresh_install_stuck : ¬AllOrNothing sampleEnv sampleRequest emptyTarget := by
  refine unblocked_not_allOrNothing rfl empty_checked ?_
  intro p hp
  have hne := classified_ne_nil p (List.mem_of_head? hp)
  obtain ⟨name, rest, rfl⟩ := List.exists_cons_of_ne_nil hne
  rfl

end RaytSystem.Bootstrap
