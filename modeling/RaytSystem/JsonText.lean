import RaytSystem.PyDict

/-! JSON documents without floats: the values, their compact rendering with sorted keys, and
the reader of the standard library. Texts are lists of characters here. -/
namespace JsonText
open RaytSystem

/-- `sys.get_int_max_str_digits()`, above which `int.__repr__` refuses. -/
def maxDigits : Nat := 4300

inductive Value where
  | null
  | bool (b : Bool)
  | int (n : Int)
  | str (s : String)
  | list (items : List Value)
  | map (entries : List (String × Value))

namespace Value

@[elab_as_elim]
theorem induct {P : Value → Prop} (null : P .null) (bool : ∀ b, P (.bool b)) (int : ∀ n, P (.int n))
    (str : ∀ s, P (.str s)) (list : ∀ items, (∀ v ∈ items, P v) → P (.list items))
    (map : ∀ entries, (∀ kv ∈ entries, P kv.2) → P (.map entries)) (v : Value) : P v := by
  refine @Value.rec P (fun items => ∀ v ∈ items, P v) (fun entries => ∀ kv ∈ entries, P kv.2)
    (fun kv => P kv.2) null bool int str list map ?_ ?_ ?_ ?_ ?_ v
  · exact fun _ h => absurd h List.not_mem_nil
  · intro head tail hhead htail v hv
    rcases List.mem_cons.mp hv with rfl | hv
    · exact hhead
    · exact htail v hv
  · exact fun _ h => absurd h List.not_mem_nil
  · intro head tail hhead htail kv hkv
    rcases List.mem_cons.mp hkv with rfl | hkv
    · exact hhead
    · exact htail kv hkv
  · exact fun _ _ h => h

inductive Unique : Value → Prop where
  | null : Unique .null
  | bool (b : Bool) : Unique (.bool b)
  | int (n : Int) : Unique (.int n)
  | str (s : String) : Unique (.str s)
  | list {items : List Value} (hitems : ∀ v ∈ items, Unique v) : Unique (.list items)
  | map {entries : List (String × Value)} (hkeys : (entries.map Prod.fst).Nodup)
      (hentries : ∀ kv ∈ entries, Unique kv.2) : Unique (.map entries)

end Value

def quote : Char := Char.ofNat 0x22
def backslash : Char := Char.ofNat 0x5c
def backspace : Char := Char.ofNat 0x08
def formFeed : Char := Char.ofNat 0x0c

def hexDigit (n : Nat) : Char := Nat.digitChar n

variable (c : Char)

def escapeChar : List Char :=
  if c = quote then [backslash, quote]
  else if c = backslash then [backslash, backslash]
  else if c = '\n' then [backslash, 'n']
  else if c = '\r' then [backslash, 'r']
  else if c = '\t' then [backslash, 't']
  else if c = formFeed then [backslash, 'f']
  else if c = backspace then [backslash, 'b']
  else if c.toNat < 0x20 then
    [backslash, 'u', '0', '0', hexDigit (c.toNat / 16), hexDigit (c.toNat % 16)]
  else [c]

def renderString (s : String) : List Char := quote :: (s.toList.flatMap escapeChar ++ [quote])

def renderInt (n : Int) : List Char :=
  if n < 0 then '-' :: Nat.toDigits 10 n.natAbs else Nat.toDigits 10 n.natAbs

mutual
def render : Value → List Char
  | .null => ['n', 'u', 'l', 'l']
  | .bool true => ['t', 'r', 'u', 'e']
  | .bool false => ['f', 'a', 'l', 's', 'e']
  | .int n => renderInt n
  | .str s => renderString s
  | .list items => '[' :: (renderItems items ++ [']'])
  | .map entries => Char.ofNat 0x7b :: (renderEntries entries ++ [Char.ofNat 0x7d])
def renderItems : List Value → List Char
  | [] => []
  | [v] => render v
  | v :: next :: rest => render v ++ ',' :: renderItems (next :: rest)
def renderEntries : List (String × Value) → List Char
  | [] => []
  | [(k, v)] => renderString k ++ ':' :: render v
  | (k, v) :: next :: rest => renderString k ++ ':' :: (render v ++ ',' :: renderEntries (next :: rest))
end

def sortByKey (entries : List (String × Value)) : List (String × Value) :=
  entries.insertionSort fun a b => a.1 ≤ b.1

mutual
def normal : Value → Value
  | .list items => .list (normalItems items)
  | .map entries => .map (sortByKey (normalEntries entries))
  | .null => .null
  | .bool b => .bool b
  | .int n => .int n
  | .str s => .str s
def normalItems : List Value → List Value
  | [] => []
  | v :: rest => normal v :: normalItems rest
def normalEntries : List (String × Value) → List (String × Value)
  | [] => []
  | (k, v) :: rest => (k, normal v) :: normalEntries rest
end

def Same (v v' : Value) : Prop := normal v = normal v'

def dumps (v : Value) : String := String.ofList (render (normal v))

def isBlank : Bool := c == ' ' || c == '\t' || c == '\n' || c == '\r'

variable (cs : List Char)

def skipSpace : List Char := cs.dropWhile isBlank

def hexValue : Option Nat :=
  if '0' ≤ c ∧ c ≤ '9' then some (c.toNat - 0x30)
  else if 'a' ≤ c ∧ c ≤ 'f' then some (c.toNat - 0x57)
  else if 'A' ≤ c ∧ c ≤ 'F' then some (c.toNat - 0x37)
  else none

def readHex4 : List Char → Option (Nat × List Char)
  | a :: b :: c :: d :: rest => do
    let a ← hexValue a
    let b ← hexValue b
    let c ← hexValue c
    let d ← hexValue d
    some (0x1000 * a + 0x100 * b + 0x10 * c + d, rest)
  | _ => none

def readLowSurrogate (high : Nat) : List Char → Option (Char × List Char)
  | c :: u :: rest => do
    if c = backslash ∧ u = 'u' then
      let (low, rest) ← readHex4 rest
      if 0xdc00 ≤ low ∧ low ≤ 0xdfff then
        some (Char.ofNat (0x10000 + 0x400 * (high - 0xd800) + (low - 0xdc00)), rest)
      else none
    else none
  | _ => none

def readUnicode : Option (Char × List Char) := do
  let (unit, rest) ← readHex4 cs
  if 0xd800 ≤ unit ∧ unit ≤ 0xdbff then readLowSurrogate unit rest
  else if 0xdc00 ≤ unit ∧ unit ≤ 0xdfff then none
  else some (Char.ofNat unit, rest)

def simpleEscape : Option Char :=
  if c = quote then some quote
  else if c = backslash then some backslash
  else if c = '/' then some '/'
  else if c = 'b' then some backspace
  else if c = 'f' then some formFeed
  else if c = 'n' then some '\n'
  else if c = 'r' then some '\r'
  else if c = 't' then some '\t'
  else none

def readEscape : List Char → Option (Char × List Char)
  | [] => none
  | c :: cs => if c = 'u' then readUnicode cs else (simpleEscape c).map fun d => (d, cs)

def readString : Nat → List Char → Option (List Char × List Char)
  | 0, _ => none
  | _ + 1, [] => none
  | rounds + 1, c :: cs =>
    if c = quote then some ([], cs)
    else if c = backslash then do
      let (d, rest) ← readEscape cs
      let (ds, rest) ← readString rounds rest
      some (d :: ds, rest)
    else if c.toNat < 0x20 then none
    else do
      let (ds, rest) ← readString rounds cs
      some (c :: ds, rest)

def startsFloat : List Char → Bool
  | [] => false
  | [_] => false
  | c :: d :: rest =>
    (c == '.' && d.isDigit) || ((c == 'e' || c == 'E') &&
      (d.isDigit || ((d == '+' || d == '-') && rest.head?.any Char.isDigit)))

def readNat : Option (Nat × List Char) :=
  match cs with
  | [] => none
  | c :: rest =>
    if c = '0' then some (0, rest)
    else if c.isDigit then
      some (Nat.ofDigitChars 10 (cs.takeWhile Char.isDigit) 0, cs.dropWhile Char.isDigit)
    else none

def readSigned (negative : Bool) (cs : List Char) : Option (Value × List Char) := do
  let (n, rest) ← readNat cs
  if startsFloat rest then none else some (.int (if negative then -(n : Int) else n), rest)

def readNumber : List Char → Option (Value × List Char)
  | [] => none
  | c :: cs => if c = '-' then readSigned true cs else readSigned false (c :: cs)

def readWord (word : List Char) (v : Value) (cs : List Char) : Option (Value × List Char) :=
  if word.isPrefixOf cs then some (v, cs.drop word.length) else none

def dictOf (pairs : List (String × Value)) : List (String × Value) :=
  pairs.foldl (fun entries kv => PyDict.setEntries kv.1 kv.2 entries) []

mutual
def readValue : Nat → List Char → Option (Value × List Char)
  | 0, _ => none
  | _ + 1, [] => none
  | fuel + 1, c :: cs =>
    if c = quote then do
      let (s, rest) ← readString cs.length cs
      some (.str (String.ofList s), rest)
    else if c = Char.ofNat 0x7b then do
      let cs := skipSpace cs
      if cs.head? = some (Char.ofNat 0x7d) then some (.map [], cs.tail)
      else do
        let (pairs, rest) ← readEntries fuel cs
        some (.map (dictOf pairs), rest)
    else if c = '[' then do
      let cs := skipSpace cs
      if cs.head? = some ']' then some (.list [], cs.tail)
      else do
        let (items, rest) ← readItems fuel cs
        some (.list items, rest)
    else
      readWord ['n', 'u', 'l', 'l'] .null (c :: cs) <|>
        readWord ['t', 'r', 'u', 'e'] (.bool true) (c :: cs) <|>
        readWord ['f', 'a', 'l', 's', 'e'] (.bool false) (c :: cs) <|>
        readNumber (c :: cs)
def readItems : Nat → List Char → Option (List Value × List Char)
  | 0, _ => none
  | fuel + 1, cs => do
    let (v, rest) ← readValue fuel cs
    match skipSpace rest with
    | [] => none
    | c :: rest =>
      if c = ',' then do
        let (items, rest) ← readItems fuel (skipSpace rest)
        some (v :: items, rest)
      else if c = ']' then some ([v], rest)
      else none
def readEntries : Nat → List Char → Option (List (String × Value) × List Char)
  | 0, _ => none
  | _ + 1, [] => none
  | fuel + 1, q :: cs =>
    if q = quote then do
      let (k, rest) ← readString cs.length cs
      match skipSpace rest with
      | [] => none
      | colon :: rest =>
        if colon = ':' then do
          let (v, rest) ← readValue fuel (skipSpace rest)
          match skipSpace rest with
          | [] => none
          | c :: rest =>
            if c = ',' then do
              let (pairs, rest) ← readEntries fuel (skipSpace rest)
              some ((String.ofList k, v) :: pairs, rest)
            else if c = Char.ofNat 0x7d then some ([(String.ofList k, v)], rest)
            else none
        else none
    else none
end

def loads (text : String) : Option Value := do
  let cs := skipSpace text.toList
  let (v, rest) ← readValue (2 * cs.length + 2) cs
  if skipSpace rest = [] then some v else none

end JsonText
