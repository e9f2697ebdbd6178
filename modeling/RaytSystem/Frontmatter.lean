import Mathlib
import RaytSystem.PatternMatch

/-! Text as code points, which may be unpaired surrogates, and the metadata that a document's
frontmatter gives. -/
namespace RaytSystem.Extraction

abbrev CodePoint := ℕ
abbrev Text := List CodePoint

def chars (s : String) : Text := s.toList.map Char.toNat

def encodable (text : Text) : Bool := text.all fun c => !(0xd800 ≤ c && c ≤ 0xdfff)

def utf8Length (text : Text) : ℕ :=
  (text.map fun c => if c < 0x80 then 1 else if c < 0x800 then 2 else if c < 0x10000 then 3
    else 4).sum

variable (c : CodePoint)

def isSpace : Bool :=
  (0x09 ≤ c && c ≤ 0x0d) || (0x1c ≤ c && c ≤ 0x20) || c == 0x85 || c == 0xa0 || c == 0x1680 ||
    (0x2000 ≤ c && c ≤ 0x200a) || c == 0x2028 || c == 0x2029 || c == 0x202f || c == 0x205f ||
    c == 0x3000

def isLineBreak : Bool :=
  (0x0a ≤ c && c ≤ 0x0d) || (0x1c ≤ c && c ≤ 0x1e) || c == 0x85 || c == 0x2028 || c == 0x2029

def lstrip (text : Text) : Text := text.dropWhile isSpace

def rstrip (text : Text) : Text := (text.reverse.dropWhile isSpace).reverse

def strip (text : Text) : Text := rstrip (lstrip text)

def partition (text : Text) : Text × Bool × Text :=
  match text.dropWhile (· ≠ c) with
  | [] => (text, false, [])
  | _ :: rest => (text.takeWhile (· ≠ c), true, rest)

def splitOn (c : CodePoint) : Text → List Text
  | [] => [[]]
  | x :: rest =>
    match splitOn c rest with
    | [] => [[x]]
    | part :: parts => if x = c then [] :: part :: parts else (x :: part) :: parts

def splitLinesFrom : Text → Text → List Text
  | [], [] => []
  | [], line => [line.reverse]
  | 0x0d :: 0x0a :: rest, line => line.reverse :: splitLinesFrom rest []
  | c :: rest, line =>
    if isLineBreak c then line.reverse :: splitLinesFrom rest []
    else splitLinesFrom rest (c :: line)

def splitLines (text : Text) : List Text := splitLinesFrom text []

def findFrom (pattern : Text) (position : ℕ) (text : Text) : Option ℕ :=
  (List.range (text.length + 1)).find? fun i => position ≤ i && pattern.isPrefixOf (text.drop i)

section

inductive Node
  | scalar (tag value : Text)
  | sequence (items : List Node)
  | mapping (entries : List (Node × Node))

inductive Value
  | null
  | bool (b : Bool)
  | int (n : ℤ)
  | float (repr : Text) (finite : Bool)
  | date (isoformat : Text)
  | str (text : Text)
  | list (items : List Value)
  | dict (entries : List (Value × Value))
  | other

inductive YamlFault
  | yamlError
  | other
  deriving DecidableEq

inductive Fault
  | uncaughtYaml
  | digitLimit
  | unencodable
  | integrity
  | emptyName
  | linkLimit
  | byteLimit
  | fileLimit
  | folderLimit
  deriving DecidableEq, Repr

def maxFrontmatterBytes : ℕ := 64 * 1024
def maxYamlDepth : ℕ := 32
def maxYamlNodes : ℕ := 10000
def maxYamlScalar : ℕ := 64 * 1024

/-- `date`, `str` and the other parts of the language and of the YAML library that the extraction
uses: Unicode's tables, `repr` of a container, and the loader. Folding maps one character at a time
and makes no dot and no slash. -/
structure ExtractionEnv where
  foldChar : CodePoint → Text
  isWord : CodePoint → Bool
  reprOf : Value → Option Text
  scanAliases : Text → Except YamlFault Bool
  compose : Text → Except YamlFault (Option Node)
  safeLoad : Text → Except YamlFault Value
  fold_dot : foldChar 0x2e = [0x2e]
  fold_slash : foldChar 0x2f = [0x2f]
  fold_other : ∀ c, c ≠ 0x2e → c ≠ 0x2f →
    foldChar c ≠ [] ∧ 0x2e ∉ foldChar c ∧ 0x2f ∉ foldChar c

variable (env : ExtractionEnv)

def ExtractionEnv.casefold (text : Text) : Text := text.flatMap env.foldChar

mutual

def validateYamlNode (depth : ℕ) : Node → Bool
  | .scalar _ value => depth ≤ maxYamlDepth && value.length ≤ maxYamlScalar
  | .sequence items => depth ≤ maxYamlDepth && validateYamlItems (depth + 1) items
  | .mapping entries => depth ≤ maxYamlDepth && validateYamlEntries (depth + 1) entries []

def validateYamlItems (depth : ℕ) : List Node → Bool
  | [] => true
  | item :: items => validateYamlNode depth item && validateYamlItems depth items

def validateYamlEntries (depth : ℕ) : List (Node × Node) → List (Text × Text) → Bool
  | [], _ => true
  | (.scalar tag key, value) :: entries, keys =>
    !keys.contains (tag, key) && key ≠ chars "<<" && depth ≤ maxYamlDepth &&
      key.length ≤ maxYamlScalar && validateYamlNode depth value &&
      validateYamlEntries depth entries ((tag, key) :: keys)
  | _ :: _, _ => false
end

mutual

def countNodes : Node → ℕ
  | .scalar _ _ => 1
  | .sequence items => 1 + countItems items
  | .mapping entries => 1 + countEntries entries

def countItems : List Node → ℕ
  | [] => 0
  | item :: items => countNodes item + countItems items

def countEntries : List (Node × Node) → ℕ
  | [] => 0
  | (key, value) :: entries => countNodes key + countNodes value + countEntries entries
end

mutual

def validateTree (depth : ℕ) : Value → Bool
  | .null | .bool _ | .int _ | .date _ => depth ≤ maxYamlDepth
  | .float _ finite => depth ≤ maxYamlDepth && finite
  | .str text => depth ≤ maxYamlDepth && text.length ≤ maxYamlScalar
  | .list items => depth ≤ maxYamlDepth && validateTreeItems (depth + 1) items
  | .dict entries => depth ≤ maxYamlDepth && validateTreeEntries (depth + 1) entries
  | .other => false

def validateTreeItems (depth : ℕ) : List Value → Bool
  | [] => true
  | item :: items => validateTree depth item && validateTreeItems depth items

def validateTreeEntries (depth : ℕ) : List (Value × Value) → Bool
  | [] => true
  | (.str _, child) :: entries => validateTree depth child && validateTreeEntries depth entries
  | _ :: _ => false
end

mutual

def countValues : Value → ℕ
  | .list items => 1 + countValueItems items
  | .dict entries => 1 + countValueEntries entries
  | _ => 1

def countValueItems : List Value → ℕ
  | [] => 0
  | item :: items => countValues item + countValueItems items

def countValueEntries : List (Value × Value) → ℕ
  | [] => 0
  | (_, child) :: entries => countValues child + countValueEntries entries
end

mutual

def normalizeYaml : Value → Value
  | .date isoformat => .str isoformat
  | .list items => .list (normalizeItems items)
  | .dict entries => .dict (normalizeEntries entries)
  | value => value

def normalizeItems : List Value → List Value
  | [] => []
  | item :: items => normalizeYaml item :: normalizeItems items

def normalizeEntries : List (Value × Value) → List (Value × Value)
  | [] => []
  | (key, item) :: entries => (key, normalizeYaml item) :: normalizeEntries entries
end

def textEntries (entries : List (Value × Value)) : List (Text × Value) :=
  entries.filterMap fun (key, value) => match key with
    | .str text => some (text, value)
    | _ => none

def loadPayload (data : Text) : Except Fault (Option (List (Text × Value))) :=
  match env.scanAliases data with
  | .error .yamlError => .ok none
  | .error .other => .error .uncaughtYaml
  | .ok true => .ok none
  | .ok false =>
    match env.compose data with
    | .error .yamlError => .ok none
    | .error .other => .error .uncaughtYaml
    | .ok none => .ok (some [])
    | .ok (some node) =>
      if validateYamlNode 0 node = true ∧ countNodes node ≤ maxYamlNodes then
        match env.safeLoad data with
        | .error .yamlError => .ok none
        | .error .other => .error .uncaughtYaml
        | .ok payload =>
          if validateTree 0 payload = true ∧ countValues payload ≤ maxYamlNodes then
            match normalizeYaml payload with
            | .null => .ok (some [])
            | .dict entries => .ok (some (textEntries entries))
            | _ => .ok none
          else .ok none
      else .ok none

def parseFrontmatter (text : Text) : Except Fault (List (Text × Value) × Text × List Text) :=
  let opened (ending : Text) : Bool := (chars "---" ++ ending).isPrefixOf text
  if opened [0x0a] || opened [0x0d, 0x0a] then
    let ending : Text := if opened [0x0d, 0x0a] then [0x0d, 0x0a] else [0x0a]
    let boundary := (findFrom (ending ++ chars "---" ++ ending) 3 text).or
      (findFrom (ending ++ chars "..." ++ ending) 3 text)
    match boundary with
    | none => .ok ([], text, [chars "frontmatter_unterminated"])
    | some boundary =>
      let data := (text.take boundary).drop (3 + ending.length)
      if maxFrontmatterBytes < utf8Length data then
        .ok ([], text, [chars "frontmatter_too_large"])
      else
        match loadPayload env data with
        | .error fault => .error fault
        | .ok none => .ok ([], text, [chars "frontmatter_invalid"])
        | .ok (some payload) =>
          .ok (payload, text.drop (boundary + ending.length + 3 + ending.length), [])
  else .ok ([], text, [])

variable (payload : List (Text × Value))

def getValue (key : String) : Value :=
  (payload.find? fun entry => entry.1 = chars key).elim .null Prod.snd

def Value.truthy : Value → Bool
  | .null => false
  | .bool b => b
  | .int n => n ≠ 0
  | .float repr _ => repr ≠ chars "0.0" && repr ≠ chars "-0.0"
  | .str text => text ≠ []
  | .list items => !items.isEmpty
  | .dict entries => !entries.isEmpty
  | .date _ | .other => true

def strOf : Value → Except Fault Text
  | .null => .ok (chars "None")
  | .bool b => .ok (chars (if b then "True" else "False"))
  | .int n =>
    if n.natAbs < 10 ^ 4300 then .ok (chars (toString n)) else .error .digitLimit
  | .float repr _ => .ok repr
  | .str text | .date text => .ok text
  | value => (env.reprOf value).elim (.error .digitLimit) .ok

def sortedFolded (texts : List Text) : List Text :=
  texts.insertionSort fun a b => env.casefold a ≤ env.casefold b

def strings (value : Value) : Except Fault (List Text) := do
  let candidates ← match value with
    | .str text => pure (splitOn 0x2c text)
    | .list items => items.mapM (strOf env)
    | _ => pure []
  let candidates := candidates.map fun part => (strip part).dropWhile (· = 0x23)
  pure (sortedFolded env (candidates.filter (· ≠ [])).dedup)

def Value.plain : Value → Bool
  | .str _ | .int _ | .float _ _ | .bool _ | .null => true
  | _ => false

def plainProperties : List (Text × Value) :=
  payload.filter fun entry => match entry.2 with
    | .list items => items.all Value.plain
    | value => value.plain
end

end RaytSystem.Extraction
