import RaytSystem.MigrationModel

/-! The paths that the registry offers, and the plan that a version's path gives. -/
namespace RaytSystem.Migrations
open ConfigVersion PyText

section
variable {migrations : List Migration} {target cursor : String} {steps : List Migration}

inductive IsPath (migrations : List Migration) (target : String) : String → List Migration → Prop
  | done : IsPath migrations target target []
  | step {cursor : String} {next : Migration} {rest : List Migration} (hne : cursor ≠ target)
      (hnext : migrations.find? (·.fromVersion == cursor) = some next)
      (h : IsPath migrations target next.toVersion rest) :
      IsPath migrations target cursor (next :: rest)

def startOf (target : String) : List Migration → String
  | [] => target
  | step :: _ => step.fromVersion

theorem path_startOf (h : IsPath migrations target cursor steps) :
    startOf target steps = cursor := by
  cases h with
  | done => rfl
  | @step _ next rest hne hnext h =>
    have hfrom : (next.fromVersion == cursor) = true :=
      List.find?_some (p := fun step : Migration => step.fromVersion == cursor) hnext
    exact beq_iff_eq.mp hfrom

theorem path_next {step : Migration} {rest : List Migration}
    (h : IsPath migrations target cursor (step :: rest)) :
    step.toVersion = startOf target rest := by
  cases h with
  | step hne hnext h => exact (path_startOf h).symm

theorem path_unique {steps' : List Migration} (h : IsPath migrations target cursor steps)
    (h' : IsPath migrations target cursor steps') : steps = steps' := by
  induction h generalizing steps' with
  | done =>
    cases h' with
    | done => rfl
    | step hne => exact absurd rfl hne
  | step hne hnext h ih =>
    cases h' with
    | done => exact absurd rfl hne
    | step hne' hnext' h' =>
      obtain rfl := Option.some.inj (hnext.symm.trans hnext')
      rw [ih h']

variable {walked rest : List Migration}

theorem path_rest (h : IsPath migrations target cursor (walked ++ rest)) :
    IsPath migrations target (startOf target rest) rest := by
  induction walked generalizing cursor with
  | nil =>
    replace h : IsPath migrations target cursor rest := h
    rwa [path_startOf h]
  | cons step walked ih =>
    cases h with
    | step hne hnext h => exact ih h

theorem walk_path {n : ℕ} (h : walk migrations target n cursor = .ok steps) :
    IsPath migrations target cursor steps ∧ steps.length ≤ n := by
  induction n generalizing cursor steps with
  | zero =>
    unfold walk at h
    split at h
    next heq =>
      obtain rfl := Except.ok.inj h
      exact ⟨heq ▸ .done, Nat.zero_le _⟩
    · cases h
  | succ n ih =>
    unfold walk at h
    split at h
    next heq =>
      obtain rfl := Except.ok.inj h
      exact ⟨heq ▸ .done, Nat.zero_le _⟩
    next hne =>
      split at h
      · cases h
      next step hstep =>
        cases hrest : walk migrations target n step.toVersion with
        | error e =>
          rw [hrest] at h
          cases h
        | ok rest =>
          rw [hrest] at h
          obtain rfl := Except.ok.inj h
          obtain ⟨hpath, hlength⟩ := ih hrest
          exact ⟨.step hne hstep hpath, Nat.succ_le_succ hlength⟩

theorem path_walk {n : ℕ} (h : IsPath migrations target cursor steps) (hn : steps.length ≤ n) :
    walk migrations target n cursor = .ok steps := by
  induction h generalizing n with
  | done => cases n <;> simp [walk]
  | step hne hnext h ih =>
    cases n with
    | zero => cases hn
    | succ n =>
      simp only [walk, if_neg hne, hnext, ih (Nat.le_of_succ_le_succ hn)]
      rfl

theorem registryChain_path (h : registryChain migrations cursor target = .ok steps) :
    IsPath migrations target cursor steps := by
  unfold registryChain at h
  split at h
  next heq =>
    obtain rfl := Except.ok.inj h
    exact heq ▸ .done
  · split at h
    · exact (walk_path h).1
    · cases h

theorem registryChain_rest (h : registryChain migrations cursor target = .ok (walked ++ rest)) :
    registryChain migrations (startOf target rest) target = .ok rest := by
  have hpath := path_rest (registryChain_path h)
  by_cases hstart : startOf target rest = target
  · have hnil : rest = [] := by
      rw [hstart] at hpath
      exact path_unique hpath .done
    simp [registryChain, hnil, startOf]
  · have hne : cursor ≠ target := by
      rintro rfl
      obtain ⟨-, rfl⟩ := List.append_eq_nil_iff.mp (path_unique (registryChain_path h) .done)
      exact hstart rfl
    unfold registryChain at h
    rw [if_neg hne] at h
    split at h
    next hnodup =>
      rw [registryChain, if_neg hstart, if_pos hnodup]
      refine path_walk hpath ?_
      have hlength := (walk_path h).2
      rw [List.length_append] at hlength
      omega
    · cases h

theorem path_pending {p : Migration → Bool} {first : Migration} {todo rest : List Migration}
    {reached : String} (h : IsPath migrations target cursor steps)
    (htodo : IsPath migrations target reached todo) (hp : ∀ step ∈ todo, p step = true)
    (hfilter : steps.filter p = first :: rest) (hfirst : first.fromVersion = reached) :
    first :: rest = todo := by
  obtain ⟨skipped, later, hsteps, -, hfound, hlater⟩ := List.filter_eq_cons_iff.mp hfilter
  rw [hsteps] at h
  have hrest := path_rest h
  rw [show startOf target (first :: later) = reached from hfirst] at hrest
  obtain rfl := path_unique hrest htodo
  rw [← hlater, List.filter_eq_self.mpr fun step hstep => hp step (List.mem_cons_of_mem _ hstep)]
end

section
variable {rules : MigrationRules} {m : Found} {chain walked todo : List Migration}

structure Admitted (rules : MigrationRules) (m : Found) (step : Migration) : Prop where
  bumps : step.bumpTo = step.toVersion
  reads : readable step.toVersion.toList = true
  fits : (m.write step.toVersion.toList).length ≤ 256 * 1024
  fromInt : ∃ n, versionInt step.fromVersion = .ok n
  toInt : ∃ n, versionInt step.toVersion = .ok n
  planned : checkTarget rules step.fromVersion rules.schemaVersion = .ok ()
  named : isId step.migrationId = true ∧ trim step.migrationId = step.migrationId ∧
    isToken step.migrationId = true
  fromText : isText step.fromVersion = true ∧ trim step.fromVersion = step.fromVersion
  toText : isText step.toVersion = true

structure Regular (rules : MigrationRules) (m : Found) (chain : List Migration) : Prop where
  walks : registryChain rules.migrations (String.ofList m.version) rules.schemaVersion = .ok chain
  ids : (chain.map Migration.migrationId).Nodup
  fits : (m.write m.version).length ≤ 256 * 1024
  planned : checkTarget rules rules.schemaVersion rules.schemaVersion = .ok ()
  text : isText rules.schemaVersion = true ∧ trim rules.schemaVersion = rules.schemaVersion
  steps : ∀ step ∈ chain, Admitted rules m step

theorem regular_reached (h : Regular rules m chain) (hchain : chain = walked ++ todo) :
    startOf rules.schemaVersion todo = String.ofList m.version ∨
      ∃ step ∈ chain, startOf rules.schemaVersion todo = step.toVersion := by
  subst hchain
  have hpath := registryChain_path h.walks
  clear h
  generalize String.ofList m.version = cursor at hpath
  induction walked generalizing cursor with
  | nil => exact Or.inl (path_startOf hpath)
  | cons step walked ih =>
    cases hpath with
    | step hne hnext hpath =>
      rcases ih _ hpath with heq | ⟨step', hmem, heq⟩
      · exact Or.inr ⟨step, List.mem_cons_self, heq⟩
      · exact Or.inr ⟨step', List.mem_cons_of_mem _ hmem, heq⟩

theorem regular_start (h : Regular rules m chain) (hchain : chain = walked ++ todo) :
    checkTarget rules (startOf rules.schemaVersion todo) rules.schemaVersion = .ok () ∧
      isText (startOf rules.schemaVersion todo) = true ∧
        trim (startOf rules.schemaVersion todo) = startOf rules.schemaVersion todo := by
  cases todo with
  | nil => exact ⟨h.planned, h.text⟩
  | cons step todo =>
    have hstep := h.steps step (hchain ▸ List.mem_append_right _ List.mem_cons_self)
    exact ⟨hstep.planned, hstep.fromText⟩

def planOf (rules : MigrationRules) (payload : PlanPayload) : MigrationPlan :=
  ⟨rules.planId payload (rules.planSha256 payload), payload, rules.planSha256 payload⟩

section
attribute [local irreducible] makePlan registryChain checkTarget planPayload

variable {steps : List Migration}

theorem planFrom_eq {current target : String} (hcheck : checkTarget rules current target = .ok ())
    (hsteps : registryChain rules.migrations current target = .ok steps) :
    planFrom rules current target = makePlan rules (planPayload current target steps) := by
  unfold planFrom
  rw [hcheck, hsteps]
  rfl

theorem verifyPlan_planOf {current : String}
    (hfrom : (planPayload current rules.schemaVersion steps).fromVersion = current)
    (hto : (planPayload current rules.schemaVersion steps).toVersion = rules.schemaVersion)
    (hsteps : registryChain rules.migrations current rules.schemaVersion = .ok steps) :
    verifyPlan rules (planOf rules (planPayload current rules.schemaVersion steps)) =
      .ok steps := by
  unfold verifyPlan planOf
  simp only [hfrom, hto, hsteps, ne_eq, not_true_eq_false, if_false]
  exact if_pos ⟨rfl, rfl, rfl⟩
end

theorem makePlan_eq {payload : PlanPayload} (hfrom : isText payload.fromVersion = true)
    (hto : isText payload.toVersion = true) (hids : payload.migrationIds.all isId = true)
    (hfrom' : trim payload.fromVersion = payload.fromVersion)
    (hto' : trim payload.toVersion = payload.toVersion)
    (hids' : payload.migrationIds.map trim = payload.migrationIds) :
    makePlan rules payload = .ok (planOf rules payload) := by
  unfold makePlan planOf
  rw [hfrom, hto, hids, hfrom', hto', hids']
  rfl

theorem planFrom_ok (h : Regular rules m chain) (hchain : chain = walked ++ todo) :
    ∃ plan, planFrom rules (startOf rules.schemaVersion todo) rules.schemaVersion = .ok plan ∧
      plan.payload.toVersion = rules.schemaVersion ∧ verifyPlan rules plan = .ok todo := by
  obtain ⟨hcheck, hstart, htrim⟩ := regular_start h hchain
  have hrest := registryChain_rest (hchain ▸ h.walks)
  have hids : (todo.map Migration.migrationId).all isId = true := by
    rw [List.all_eq_true]
    intro id hid
    obtain ⟨step, hstep, rfl⟩ := List.mem_map.mp hid
    exact (h.steps step (hchain ▸ List.mem_append_right _ hstep)).named.1
  have htrims : (todo.map Migration.migrationId).map trim =
      todo.map Migration.migrationId := by
    rw [List.map_map]
    refine List.map_congr_left fun step hstep => ?_
    exact (h.steps step (hchain ▸ List.mem_append_right _ hstep)).named.2.1
  have hmake : makePlan rules
      (planPayload (startOf rules.schemaVersion todo) rules.schemaVersion todo) =
        .ok (planOf rules
          (planPayload (startOf rules.schemaVersion todo) rules.schemaVersion todo)) :=
    makePlan_eq hstart h.text.1 hids htrim h.text.2 htrims
  exact ⟨_, (planFrom_eq hcheck hrest).trans hmake, rfl, verifyPlan_planOf rfl rfl hrest⟩
end
end RaytSystem.Migrations
