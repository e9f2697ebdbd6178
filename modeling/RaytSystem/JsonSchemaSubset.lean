import RaytSystem.EvalVerdicts

/-! The JSON Schema subset of the evaluations, beside what JSON Schema says of its keywords. -/
namespace RaytSystem.JsonSchema
open Canonical Evals

/-- What the JSON reader gives: a number is an `int` or a `float`, exactly as written. -/
inductive Value
  | null
  | bool (b : Bool)
  | int (n : ℤ)
  | float (q : Rat)
  | str (s : String)
  | array (items : List Value)
  | object (members : List (String × Value))

mutual
def Value.toPy : Value → PyValue
  | .null => .none
  | .bool b => .bool b
  | .int n => .int n
  | .float _ => .float true
  | .str s => .str s
  | .array items => .sequence (itemsToPy items)
  | .object members => .mapping (membersToPy members)
def itemsToPy : List Value → List PyValue
  | [] => []
  | v :: rest => v.toPy :: itemsToPy rest
def membersToPy : List (String × Value) → List (String × PyValue)
  | [] => []
  | (key, v) :: rest => (key, v.toPy) :: membersToPy rest
end

mutual
def equalBy (scalar : Value → Value → Bool) : Value → Value → Bool
  | .array xs, .array ys => itemsEqual scalar xs ys
  | .object ms, .object ns => ms.length == ns.length && membersEqual scalar ms ns
  | v, w => scalar v w
def itemsEqual (scalar : Value → Value → Bool) : List Value → List Value → Bool
  | [], [] => true
  | x :: xs, y :: ys => equalBy scalar x y && itemsEqual scalar xs ys
  | _, _ => false
def membersEqual (scalar : Value → Value → Bool) :
    List (String × Value) → List (String × Value) → Bool
  | [], _ => true
  | (key, v) :: rest, ns =>
    (match ns.lookup key with
      | none => false
      | some w => equalBy scalar v w) && membersEqual scalar rest ns
end

def number : Value → Option Rat
  | .int n => some n
  | .float q => some q
  | _ => none

def sameScalar : Value → Value → Bool
  | .null, .null => true
  | .bool a, .bool b => a == b
  | .str a, .str b => a == b
  | v, w => match number v, number w with
    | some p, some q => p == q
    | _, _ => false

def unboolean : Value → Value
  | .bool b => .int b.toNat
  | v => v

def pyEq : Value → Value → Bool := equalBy fun v w => sameScalar (unboolean v) (unboolean w)

def jsonEq : Value → Value → Bool := equalBy sameScalar

mutual
/-- Nowhere does a boolean of one value stand against a number of the other. -/
def aligned : Value → Value → Bool
  | .array xs, .array ys => itemsAligned xs ys
  | .object ms, .object ns => membersAligned ms ns
  | .bool _, w => (number w).isNone
  | v, .bool _ => (number v).isNone
  | _, _ => true
def itemsAligned : List Value → List Value → Bool
  | x :: xs, y :: ys => aligned x y && itemsAligned xs ys
  | _, _ => true
def membersAligned : List (String × Value) → List (String × Value) → Bool
  | [], _ => true
  | (key, v) :: rest, ns =>
    (match ns.lookup key with
      | none => true
      | some w => aligned v w) && membersAligned rest ns
end

def isContainer : Value → Bool
  | .array _ => true
  | .object _ => true
  | _ => false

theorem sameScalar_eq {v w : Value} (h : isContainer v = false ∨ isContainer w = false) :
    sameScalar v w = (sameScalar (unboolean v) (unboolean w) && aligned v w) := by
  cases v with
  | bool a =>
    cases w with
    | bool b => cases a <;> cases b <;> decide
    | _ => simp [sameScalar, unboolean, number, aligned]
  | _ => cases w <;> simp_all [sameScalar, unboolean, number, aligned, isContainer]

theorem equalBy_scalar {scalar : Value → Value → Bool} {v w : Value}
    (h : isContainer v = false ∨ isContainer w = false) : equalBy scalar v w = scalar v w := by
  cases v <;> cases w <;> simp_all [equalBy, isContainer]

mutual
/-- The language finds more values equal than JSON does: those that differ only where a boolean
stands against its number. -/
theorem jsonEq_eq : ∀ v w : Value, jsonEq v w = (pyEq v w && aligned v w)
  | .array xs, .array ys => by
    have hitems := itemsEqual_eq xs ys
    simpa only [jsonEq, pyEq, equalBy, aligned] using hitems
  | .object ms, .object ns => by
    have hmembers := membersEqual_eq ms ns
    simp only [jsonEq, pyEq, equalBy, aligned, hmembers, Bool.and_assoc]
  | .array _, .null | .array _, .bool _ | .array _, .int _ | .array _, .float _ | .array _, .str _
  | .array _, .object _ => by simp [jsonEq, pyEq, equalBy, sameScalar, unboolean, number]
  | .object _, .null | .object _, .bool _ | .object _, .int _ | .object _, .float _
  | .object _, .str _ | .object _, .array _ => by
    simp [jsonEq, pyEq, equalBy, sameScalar, unboolean, number]
  | .null, w | .bool _, w | .int _, w | .float _, w | .str _, w => by
    rw [jsonEq, pyEq, equalBy_scalar (Or.inl rfl), equalBy_scalar (Or.inl rfl)]
    exact sameScalar_eq (Or.inl rfl)
theorem itemsEqual_eq : ∀ xs ys : List Value, itemsEqual sameScalar xs ys =
    (itemsEqual (fun v w => sameScalar (unboolean v) (unboolean w)) xs ys && itemsAligned xs ys)
  | [], [] => rfl
  | [], _ :: _ => rfl
  | _ :: _, [] => rfl
  | x :: xs, y :: ys => by
    have hfirst := jsonEq_eq x y
    have hrest := itemsEqual_eq xs ys
    simp only [jsonEq, pyEq] at hfirst
    rw [itemsEqual, itemsEqual, itemsAligned, hfirst, hrest]
    ac_rfl
theorem membersEqual_eq : ∀ ms ns : List (String × Value), membersEqual sameScalar ms ns =
    (membersEqual (fun v w => sameScalar (unboolean v) (unboolean w)) ms ns &&
      membersAligned ms ns)
  | [], _ => rfl
  | (key, v) :: rest, ns => by
    have hrest := membersEqual_eq rest ns
    rw [membersEqual, membersEqual, membersAligned, hrest]
    cases hlookup : ns.lookup key with
    | none => rfl
    | some w =>
      have hfirst := jsonEq_eq v w
      simp only [jsonEq, pyEq] at hfirst
      simp only [hfirst]
      ac_rfl
end

theorem pyEq_eq_jsonEq {v w : Value} (h : pyEq v w = true → aligned v w = true) :
    pyEq v w = jsonEq v w := by
  rw [jsonEq_eq]
  cases hv : pyEq v w with
  | true => rw [h hv]; rfl
  | false => rfl

variable (rules : EvalRules)

abbrev Check := Value → Except String Bool

def isInstance : String → Value → Bool
  | "object", .object _ => true
  | "array", .array _ => true
  | "string", .str _ => true
  | "integer", .int _ => true
  | "number", .int _ => true
  | "number", .float _ => true
  | "number", .bool _ => true
  | "boolean", .bool _ => true
  | "null", .null => true
  | _, _ => false

def typeHolds (v : Value) : Option Value → Except String Bool
  | none => .ok true
  | some .null => .ok true
  | some (.str name) => .ok (isInstance name v)
  | some (.object _) => .error "unhashable type"
  | some (.array _) => .error "unhashable type"
  | some _ => .ok false

def enumHolds (v : Value) : Option Value → Bool
  | none => true
  | some (.array operands) => operands.any (pyEq v)
  | some _ => false

def requiredKeys : Option Value → Except String (List String)
  | none => .ok []
  | some (.array names) =>
    names.mapM fun name => match name with
      | .str s => .ok s
      | _ => .error "JSON Schema required must be a string list"
  | some _ => .error "JSON Schema required must be a string list"

def propertiesHold (members : List (String × Check)) : List (String × Value) → Except String Bool
  | [] => .ok true
  | (key, child) :: rest =>
    match members.lookup key with
    | none => propertiesHold members rest
    | some check => do
      let holds ← check child
      if holds then propertiesHold members rest else pure false

def itemsHold (child : Value) : List Check → Except String Bool
  | [] => .ok true
  | check :: rest => do
    let holds ← check child
    if holds then itemsHold child rest else pure false

def childrenHold (v : Value) (members : List (String × Check)) (items : List Check)
    (keywords : List (String × Value)) : Except String Bool :=
  match v, keywords.lookup "items" with
  | .object _, _ => do
    let required ← requiredKeys (keywords.lookup "required")
    if required.any (fun key => (members.lookup key).isNone) then pure false
    else match keywords.lookup "properties" with
      | none => pure true
      | some (.object properties) => propertiesHold members properties
      | some _ => .error "JSON Schema properties must be an object"
  | .array _, some child => itemsHold child items
  | _, _ => .ok true

/-- One level of `_validate_json_schema_subset`, with the checks of the value's members and
items. -/
def checkLevel (v schema : Value) (members : List (String × Check)) (items : List Check) :
    Except String Bool :=
  match schema with
  | .object keywords => do
    let bytes ← canonicalBytes rules schema.toPy
    if 16384 < bytes.size then .error "JSON Schema assertion must be a bounded object"
    else if keywords.any (fun kv => !supportedKeywords.contains kv.1) then
      .error "JSON Schema assertion uses an unsupported keyword"
    else do
      let typed ← typeHolds v (keywords.lookup "type")
      if typed && (keywords.lookup "const").elim true (pyEq v) &&
          enumHolds v (keywords.lookup "enum") then
        childrenHold v members items keywords
      else pure false
  | _ => .error "JSON Schema assertion must be a bounded object"

mutual
def validates : Value → Check
  | .object members => fun schema =>
    checkLevel rules (.object members) schema (memberChecks members) []
  | .array items => fun schema => checkLevel rules (.array items) schema [] (itemChecks items)
  | v => fun schema => checkLevel rules v schema [] []
def memberChecks : List (String × Value) → List (String × Check)
  | [] => []
  | (key, v) :: rest => (key, validates v) :: memberChecks rest
def itemChecks : List Value → List Check
  | [] => []
  | v :: rest => validates v :: itemChecks rest
end

def keyword (key : String) : Value → Option Value
  | .object keywords => keywords.lookup key
  | _ => none

def hasType : String → Value → Bool
  | "integer", .float q => q.isInt
  | "number", .bool _ => false
  | name, v => isInstance name v

/-- Checking `v` against `s` comes to checking `w` against `child`. -/
inductive Meets : Value → Value → Value → Value → Prop
  | member {ms ps : List (String × Value)} {s w : Value} {p : String × Value}
    (hs : keyword "properties" s = some (.object ps)) (hp : p ∈ ps)
    (hw : ms.lookup p.1 = some w) : Meets (.object ms) s w p.2
  | item {xs : List Value} {s x child : Value} (hs : keyword "items" s = some child)
    (hx : x ∈ xs) : Meets (.array xs) s x child

inductive Valid : Value → Value → Prop
  | intro {v s : Value}
    (type : ∀ name, keyword "type" s = some (.str name) → hasType name v = true)
    (const : ∀ c, keyword "const" s = some c → jsonEq v c = true)
    (enum : ∀ cs, keyword "enum" s = some (.array cs) → ∃ c ∈ cs, jsonEq v c = true)
    (required : ∀ names, keyword "required" s = some (.array names) →
      ∀ ms, v = .object ms → ∀ key, .str key ∈ names → (ms.lookup key).isSome)
    (below : ∀ w child, Meets v s w child → Valid w child) : Valid v s

structure WellFormed (keywords : List (String × Value)) : Prop where
  supported : ∀ kv ∈ keywords, kv.1 ∈ supportedKeywords
  type : ∀ o, keywords.lookup "type" = some o → ∃ name, o = .str name
  enum : ∀ o, keywords.lookup "enum" = some o → ∃ cs, o = .array cs
  required : ∀ o, keywords.lookup "required" = some o →
    ∃ names : List String, o = .array (names.map .str)
  properties : ∀ o, keywords.lookup "properties" = some o → ∃ ps, o = .object ps

/-- Wherever the value meets a schema, the schema is well-formed and bounded, its type takes no
boolean for a number and no whole number for a fraction, and no operand that the language finds
equal to the value has a boolean where the value has a number, or a number where it has a boolean. -/
inductive Apart : Value → Value → Prop
  | intro {v : Value} {keywords : List (String × Value)} (formed : WellFormed keywords)
    (bounded : ∃ bytes, canonicalBytes rules (Value.object keywords).toPy = .ok bytes ∧
      bytes.size ≤ 16384)
    (boolean : ∀ b, v = .bool b → keywords.lookup "type" ≠ some (.str "number"))
    (whole : ∀ q, v = .float q → q.isInt = true →
      keywords.lookup "type" ≠ some (.str "integer"))
    (const : ∀ c, keywords.lookup "const" = some c → pyEq v c = true → aligned v c = true)
    (enum : ∀ cs, keywords.lookup "enum" = some (.array cs) → ∀ c ∈ cs,
      pyEq v c = true → aligned v c = true)
    (below : ∀ w child, Meets v (.object keywords) w child → Apart w child) :
    Apart v (.object keywords)

def Decides (r : Except String Bool) (P : Prop) : Prop := ∃ b, r = .ok b ∧ (b = true ↔ P)

theorem memberChecks_lookup (key : String) (ms : List (String × Value)) :
    (memberChecks rules ms).lookup key = (ms.lookup key).map (validates rules) := by
  induction ms with
  | nil => rfl
  | cons m rest ih =>
    have hstep (k : String) (w : Value) : memberChecks rules ((k, w) :: rest) =
        (k, validates rules w) :: memberChecks rules rest := by rw [memberChecks]
    rw [hstep, List.lookup_cons, List.lookup_cons, ih]
    split <;> rfl

theorem propertiesHold_decides (ms ps : List (String × Value))
    (h : ∀ p ∈ ps, ∀ w, ms.lookup p.1 = some w → Decides (validates rules w p.2) (Valid w p.2)) :
    Decides (propertiesHold (memberChecks rules ms) ps)
      (∀ p ∈ ps, ∀ w, ms.lookup p.1 = some w → Valid w p.2) := by
  induction ps with
  | nil => exact ⟨true, rfl, by simp⟩
  | cons p rest ih =>
    have hrest := ih fun p hp => h p (List.mem_cons_of_mem _ hp)
    simp only [List.forall_mem_cons, propertiesHold, memberChecks_lookup]
    cases hm : ms.lookup p.1 with
    | none => simpa using hrest
    | some w =>
      obtain ⟨b, hb, hvalid⟩ := h p List.mem_cons_self w hm
      obtain ⟨c, hc, hall⟩ := hrest
      refine ⟨b && c, ?_, ?_⟩
      · have hcheck : validates rules w p.2 = .ok b := hb
        cases b <;> simp [hcheck, hc, bind, Except.bind, pure, Except.pure]
      · rw [Bool.and_eq_true, hvalid, hall]
        simp

theorem itemsHold_decides (child : Value) (xs : List Value)
    (h : ∀ x ∈ xs, Decides (validates rules x child) (Valid x child)) :
    Decides (itemsHold child (itemChecks rules xs)) (∀ x ∈ xs, Valid x child) := by
  induction xs with
  | nil => exact ⟨true, rfl, by simp⟩
  | cons x rest ih =>
    obtain ⟨b, hb, hvalid⟩ := h x List.mem_cons_self
    obtain ⟨c, hc, hall⟩ := ih fun x hx => h x (List.mem_cons_of_mem _ hx)
    refine ⟨b && c, ?_, ?_⟩
    · cases b <;> simp [itemChecks, itemsHold, hb, hc, bind, Except.bind, pure, Except.pure]
    · rw [Bool.and_eq_true, hvalid, hall, List.forall_mem_cons]

theorem requiredKeys_names (names : List String) :
    requiredKeys (some (.array (names.map .str))) = .ok names := by
  induction names with
  | nil => rfl
  | cons name rest ih =>
    simp only [requiredKeys] at ih
    simp only [requiredKeys, List.map_cons, List.mapM_cons, ih]
    rfl

theorem isInstance_hasType (name : String) (v : Value)
    (hboolean : ∀ b, v = .bool b → name ≠ "number")
    (hwhole : ∀ q, v = .float q → q.isInt = true → name ≠ "integer") :
    isInstance name v = hasType name v := by
  unfold hasType
  split
  · next q =>
    have hq : q.isInt = false := by
      by_contra hq
      exact hwhole q rfl (by simpa using hq) rfl
    rw [hq]
    simp [isInstance]
  · next b => exact absurd rfl (hboolean b rfl)
  · rfl

def membersOf : Value → List (String × Value)
  | .object ms => ms
  | _ => []

def itemsOf : Value → List Value
  | .array xs => xs
  | _ => []

theorem validates_eq (v s : Value) : validates rules v s =
    checkLevel rules v s (memberChecks rules (membersOf v)) (itemChecks rules (itemsOf v)) := by
  cases v <;> simp [validates, membersOf, itemsOf, memberChecks, itemChecks]

def ChildrenValid (v s : Value) : Prop :=
  (∀ names, keyword "required" s = some (.array names) →
    ∀ ms, v = .object ms → ∀ key, .str key ∈ names → (ms.lookup key).isSome) ∧
  ∀ w child, Meets v s w child → Valid w child

theorem requiredKeys_total {keywords : List (String × Value)} (P : String → Prop)
    (h : ∀ o, keywords.lookup "required" = some o →
      ∃ names : List String, o = .array (names.map .str)) :
    ∃ names, requiredKeys (keywords.lookup "required") = .ok names ∧
      ((∀ os, keywords.lookup "required" = some (.array os) → ∀ key, .str key ∈ os → P key) ↔
        ∀ key ∈ names, P key) := by
  cases hr : keywords.lookup "required" with
  | none => exact ⟨[], rfl, by simp⟩
  | some o =>
    obtain ⟨names, rfl⟩ := h o hr
    exact ⟨names, requiredKeys_names names, by simp⟩

variable {rules} {keywords : List (String × Value)} {v : Value}

theorem members_decide {ms : List (String × Value)} (hform : WellFormed keywords)
    (ih : ∀ w child, Meets (.object ms) (.object keywords) w child →
      Decides (validates rules w child) (Valid w child)) :
    Decides (childrenHold (.object ms) (memberChecks rules ms) [] keywords)
      (ChildrenValid (.object ms) (.object keywords)) := by
  obtain ⟨names, hnames, hall⟩ :=
    requiredKeys_total (fun key => (ms.lookup key).isSome = true) hform.required
  have hrequired : (∀ names, keyword "required" (.object keywords) = some (.array names) →
      ∀ ms', Value.object ms = .object ms' → ∀ key, .str key ∈ names →
        (ms'.lookup key).isSome) ↔ ∀ key ∈ names, (ms.lookup key).isSome = true := by
    rw [← hall]
    simp only [keyword, Value.object.injEq, forall_eq']
  have hany : names.any (fun key => ((memberChecks rules ms).lookup key).isNone) = true ↔
      ¬∀ key ∈ names, (ms.lookup key).isSome = true := by
    simp only [memberChecks_lookup, List.any_eq_true, Option.isNone_map, not_forall,
      Option.not_isSome_iff_eq_none, Option.isNone_iff_eq_none, exists_prop]
  simp only [childrenHold, hnames, bind, Except.bind, pure, Except.pure, ChildrenValid, hrequired]
  split
  · next hmissing => exact ⟨false, rfl, iff_of_false nofun fun h => hany.mp hmissing h.1⟩
  · next hpresent =>
    rw [hany, not_not] at hpresent
    cases hp : keywords.lookup "properties" with
    | none =>
      refine ⟨true, rfl, iff_of_true rfl ⟨hpresent, ?_⟩⟩
      intro w child hmeets
      cases hmeets with
      | member hs => cases hp.symm.trans hs
    | some o =>
      obtain ⟨ps, rfl⟩ := hform.properties o hp
      obtain ⟨b, hb, hvalid⟩ := propertiesHold_decides rules ms ps
        fun p hmem w hw => ih w p.2 (.member hp hmem hw)
      refine ⟨b, hb, hvalid.trans ⟨fun h => ⟨hpresent, ?_⟩, ?_⟩⟩
      · intro w child hmeets
        cases hmeets with
        | member hs hmem hw =>
          obtain rfl := Value.object.inj (Option.some.inj (hp.symm.trans hs))
          exact h _ hmem w hw
      · exact fun h p hmem w hw => h.2 w p.2 (.member hp hmem hw)

theorem items_decide {xs : List Value}
    (ih : ∀ w child, Meets (.array xs) (.object keywords) w child →
      Decides (validates rules w child) (Valid w child)) :
    Decides (childrenHold (.array xs) [] (itemChecks rules xs) keywords)
      (ChildrenValid (.array xs) (.object keywords)) := by
  have hchildren : ChildrenValid (.array xs) (.object keywords) ↔
      ∀ child, keywords.lookup "items" = some child → ∀ x ∈ xs, Valid x child := by
    constructor
    · exact fun h child hc x hx => h.2 x child (.item hc hx)
    · intro h
      refine ⟨nofun, ?_⟩
      intro w child hmeets
      cases hmeets with
      | item hs hx => exact h child hs w hx
  rw [hchildren]
  cases hi : keywords.lookup "items" with
  | none => exact ⟨true, by simp [childrenHold, hi], by simp⟩
  | some child =>
    obtain ⟨b, hb, hvalid⟩ := itemsHold_decides rules child xs fun x hx => ih x child (.item hi hx)
    exact ⟨b, by simpa [childrenHold, hi] using hb, by simpa using hvalid⟩

theorem children_decide (hform : WellFormed keywords)
    (ih : ∀ w child, Meets v (.object keywords) w child →
      Decides (validates rules w child) (Valid w child)) :
    Decides (childrenHold v (memberChecks rules (membersOf v)) (itemChecks rules (itemsOf v))
      keywords) (ChildrenValid v (.object keywords)) := by
  cases v with
  | object ms => simpa [membersOf, itemsOf, itemChecks] using members_decide hform ih
  | array xs => simpa [membersOf, itemsOf, memberChecks] using items_decide ih
  | _ => exact ⟨true, rfl, by simpa using ⟨nofun, nofun⟩⟩

def OperandsValid (v : Value) (keywords : List (String × Value)) : Prop :=
  (∀ name, keywords.lookup "type" = some (.str name) → hasType name v = true) ∧
  (∀ c, keywords.lookup "const" = some c → jsonEq v c = true) ∧
  ∀ cs, keywords.lookup "enum" = some (.array cs) → ∃ c ∈ cs, jsonEq v c = true

theorem operands_decide (h : Apart rules v (.object keywords)) :
    ∃ typed, typeHolds v (keywords.lookup "type") = .ok typed ∧
      ((typed && (keywords.lookup "const").elim true (pyEq v) &&
        enumHolds v (keywords.lookup "enum")) = true ↔ OperandsValid v keywords) := by
  obtain ⟨⟨-, htype, henum, -, -⟩, -, hboolean, hwhole, hconst, henums, -⟩ := h
  have htyped : ∃ b, typeHolds v (keywords.lookup "type") = .ok b ∧
      (b = true ↔ ∀ name, keywords.lookup "type" = some (.str name) → hasType name v = true) := by
    cases ht : keywords.lookup "type" with
    | none => exact ⟨true, rfl, by simp⟩
    | some o =>
      obtain ⟨name, rfl⟩ := htype o ht
      refine ⟨isInstance name v, rfl, ?_⟩
      have hsame : isInstance name v = hasType name v := by
        apply isInstance_hasType
        · intro b hb hn
          exact hboolean b hb (by rw [ht, hn])
        · intro q hq hi hn
          exact hwhole q hq hi (by rw [ht, hn])
      rw [hsame]
      simp
  have hequal : (keywords.lookup "const").elim true (pyEq v) = true ↔
      ∀ c, keywords.lookup "const" = some c → jsonEq v c = true := by
    cases hc : keywords.lookup "const" with
    | none => simp
    | some c =>
      have hsame := pyEq_eq_jsonEq (hconst c hc)
      simp [hsame]
  have hlisted : enumHolds v (keywords.lookup "enum") = true ↔
      ∀ cs, keywords.lookup "enum" = some (.array cs) → ∃ c ∈ cs, jsonEq v c = true := by
    cases he : keywords.lookup "enum" with
    | none => simp [enumHolds]
    | some o =>
      obtain ⟨cs, rfl⟩ := henum o he
      have hsame := henums cs he
      simp only [enumHolds, List.any_eq_true, Option.some.injEq, Value.array.injEq, forall_eq']
      exact exists_congr fun c => and_congr_right fun hc => by
        rw [pyEq_eq_jsonEq (hsame c hc)]
  obtain ⟨b, hb, hvalid⟩ := htyped
  refine ⟨b, hb, ?_⟩
  rw [Bool.and_eq_true, Bool.and_eq_true, hvalid, hequal, hlisted, and_assoc, OperandsValid]

theorem valid_iff :
    Valid v (.object keywords) ↔ OperandsValid v keywords ∧ ChildrenValid v (.object keywords) := by
  constructor
  · intro ⟨htype, hconst, henum, hrequired, hbelow⟩
    exact ⟨⟨htype, hconst, henum⟩, hrequired, hbelow⟩
  · intro ⟨⟨htype, hconst, henum⟩, hrequired, hbelow⟩
    exact ⟨htype, hconst, henum, hrequired, hbelow⟩

/-- A schema that keeps booleans and numbers apart wherever the value meets it is checked as JSON
Schema says. -/
theorem validates_decides {s : Value} (h : Apart rules v s) :
    Decides (validates rules v s) (Valid v s) := by
  induction h with
  | @intro v keywords hform hbounded hboolean hwhole hconst henum hbelow ih =>
    obtain ⟨typed, ht, hown⟩ :=
      operands_decide ⟨hform, hbounded, hboolean, hwhole, hconst, henum, hbelow⟩
    obtain ⟨c, hc, hchildren⟩ := children_decide hform ih
    obtain ⟨bytes, hbytes, hsize⟩ := hbounded
    have hlarge : ¬16384 < bytes.size := by omega
    have hknown : keywords.any (fun kv => !supportedKeywords.contains kv.1) = false := by
      simpa using fun k w hkw => hform.supported (k, w) hkw
    rw [Decides, validates_eq, valid_iff, ← hown, ← hchildren]
    simp only [checkLevel, hbytes, bind, Except.bind, hlarge, hknown, ht, hc, if_false,
      Bool.false_eq_true, pure, Except.pure]
    split
    next htrue => exact ⟨c, rfl, by simp [htrue]⟩
    next hfalse => exact ⟨false, rfl, by simp [hfalse]⟩

def typed (name : String) : Value := .object [("type", .str name)]

def markSchema : Value := .object [("enum", .array [.bool true, .str "yes"])]

def pairSchema : Value :=
  .object [("const", .array [.int 1, .bool false]), ("items", .object [])]

def recordSchema : Value :=
  .object [("required", .array [.str "mark"]),
    ("properties", .object [("mark", markSchema), ("pair", pairSchema)])]

def recordValue : Value :=
  .object [("mark", .bool true), ("pair", .array [.int 1, .bool false])]

theorem apart_empty (v : Value) : Apart sampleRules v (.object []) :=
  .intro ⟨nofun, nofun, nofun, nofun, nofun⟩ ⟨_, rfl, by decide +kernel⟩ nofun nofun nofun nofun
    fun _ _ h => by cases h <;> simp_all [keyword]

theorem apart_mark : Apart sampleRules (.bool true) markSchema := by
  refine .intro ⟨by simp [supportedKeywords], nofun, ?_, nofun, nofun⟩ ⟨_, rfl, by decide +kernel⟩
    (fun _ _ => nofun) nofun nofun ?_ ?_
  · exact fun o ho => ⟨_, (Option.some.inj ho).symm⟩
  · intro cs hcs c hc
    obtain rfl : [.bool true, .str "yes"] = cs := Value.array.inj (Option.some.inj hcs)
    rcases List.mem_pair.mp hc with rfl | rfl <;> decide +kernel
  · intro w child hmeets
    cases hmeets

theorem apart_pair : Apart sampleRules (.array [.int 1, .bool false]) pairSchema := by
  refine .intro ⟨by simp [supportedKeywords], nofun, nofun, nofun, nofun⟩
    ⟨_, rfl, by decide +kernel⟩ nofun nofun ?_ nofun ?_
  · intro c hc
    obtain rfl : .array [.int 1, .bool false] = c := Option.some.inj hc
    decide +kernel
  · intro w child hmeets
    cases hmeets with
    | item hs hx =>
      obtain rfl : .object [] = child := Option.some.inj hs
      exact apart_empty w

theorem apart_record : Apart sampleRules recordValue recordSchema := by
  refine .intro ⟨by simp [supportedKeywords], nofun, nofun, ?_, ?_⟩
    ⟨_, rfl, by decide +kernel⟩ nofun nofun nofun nofun ?_
  · exact fun o ho => ⟨["mark"], (Option.some.inj ho).symm⟩
  · exact fun o ho => ⟨_, (Option.some.inj ho).symm⟩
  · intro w child hmeets
    cases hmeets with
    | @member _ ps _ _ p hs hp hw =>
      obtain rfl : [("mark", markSchema), ("pair", pairSchema)] = ps :=
        Value.object.inj (Option.some.inj hs)
      rcases List.mem_pair.mp hp with rfl | rfl
      · obtain rfl : .bool true = w := Option.some.inj hw
        exact apart_mark
      · obtain rfl : .array [.int 1, .bool false] = w := Option.some.inj hw
        exact apart_pair

/-- An object with nested constants. -/
theorem record_validated : validates sampleRules recordValue recordSchema = .ok true ∧
    Valid recordValue recordSchema := by
  obtain ⟨b, hb, hvalid⟩ := validates_decides apart_record
  have hok : validates sampleRules recordValue recordSchema = .ok true := by decide +kernel
  rw [hok] at hb
  exact ⟨hok, hvalid.mp (Except.ok.inj hb).symm⟩

def half : List (String × Value) := [("const", .float (1 / 2))]

/-- A fraction in a schema is refused, and a boolean passes for a number. -/
theorem half_and_boolean :
    (WellFormed half ∧ Valid (.float (1 / 2)) (.object half) ∧
      validates sampleRules (.float (1 / 2)) (.object half) =
        .error "Binary floats are forbidden in canonical identity material") ∧
    WellFormed [("type", .str "number")] ∧ ¬Valid (.bool true) (typed "number") ∧
      validates sampleRules (.bool true) (typed "number") = .ok true := by
  refine ⟨⟨⟨by simp [half, supportedKeywords], nofun, nofun, nofun, nofun⟩,
    ⟨nofun, ?_, nofun, nofun, nofun⟩, rfl⟩,
    ⟨by simp [supportedKeywords], by simp, nofun, nofun, nofun⟩, ?_, by decide +kernel⟩
  · simp [half, keyword, jsonEq, equalBy, sameScalar, number]
  · intro ⟨htype, _, _, _, _⟩
    exact absurd (htype "number" rfl) (by decide)

end RaytSystem.JsonSchema
