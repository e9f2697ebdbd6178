import RaytSystem.JsonText
import RaytSystem.PyText

/-! The reader of the event lines that a runtime prints: all of JSON, and the failures of the
reader that are no decoding errors. A text read from a line is a list of code points, since an
escape may name a lone surrogate. -/
namespace EventLines
open JsonText

inductive LoadFault where
  /-- `JSONDecodeError`. -/
  | decode
  /-- `RecursionError`, or the `ValueError` of a number with too many digits. -/
  | other
  deriving DecidableEq, Repr

abbrev CodePoints := List Nat

inductive Value where
  | null
  | bool (b : Bool)
  | int (n : Int)
  /-- A float; nothing reads which one. -/
  | float
  | str (s : CodePoints)
  | list (items : List Value)
  | map (entries : List (CodePoints × Value))

def isSurrogate (n : Nat) : Bool := decide (0xd800 ≤ n ∧ n ≤ 0xdfff)

variable (cs : List Char)

def readUnicode : Except LoadFault (Nat × List Char) :=
  match readHex4 cs with
  | none => .error .decode
  | some (unit, rest) =>
    if 0xd800 ≤ unit ∧ unit ≤ 0xdbff then
      match rest with
      | c :: u :: after =>
        if c = backslash ∧ u = 'u' then
          match readHex4 after with
          | none => .error .decode
          | some (low, after) =>
            if 0xdc00 ≤ low ∧ low ≤ 0xdfff then
              .ok (0x10000 + 0x400 * (unit - 0xd800) + (low - 0xdc00), after)
            else .ok (unit, rest)
        else .ok (unit, rest)
      | _ => .ok (unit, rest)
    else .ok (unit, rest)

def readEscape : List Char → Except LoadFault (Nat × List Char)
  | [] => .error .decode
  | c :: cs =>
    if c = 'u' then readUnicode cs
    else match simpleEscape c with
      | none => .error .decode
      | some d => .ok (d.toNat, cs)

def readString : Nat → List Char → Except LoadFault (CodePoints × List Char)
  | 0, _ => .error .decode
  | _ + 1, [] => .error .decode
  | rounds + 1, c :: cs =>
    if c = quote then .ok ([], cs)
    else if c = backslash then do
      let (d, rest) ← readEscape cs
      let (ds, rest) ← readString rounds rest
      .ok (d :: ds, rest)
    else if c.toNat < 0x20 then .error .decode
    else do
      let (ds, rest) ← readString rounds cs
      .ok (c.toNat :: ds, rest)

def dropFraction : List Char → List Char
  | '.' :: d :: rest => if d.isDigit then rest.dropWhile Char.isDigit else '.' :: d :: rest
  | cs => cs

def dropExponent : List Char :=
  match cs with
  | e :: s :: rest =>
    if e = 'e' ∨ e = 'E' then
      let digits := if s = '+' ∨ s = '-' then rest else s :: rest
      if digits.head?.any Char.isDigit then digits.dropWhile Char.isDigit else cs
    else cs
  | _ => cs

def readUnsigned (negative : Bool) (cs : List Char) : Except LoadFault (Value × List Char) :=
  match cs with
  | [] => .error .decode
  | c :: rest =>
    if c.isDigit = false then .error .decode
    else
      let digits := if c = '0' then ['0'] else cs.takeWhile Char.isDigit
      let rest := if c = '0' then rest else cs.dropWhile Char.isDigit
      let after := dropExponent (dropFraction rest)
      if after ≠ rest then .ok (.float, after)
      else if maxDigits < digits.length then .error .other
      else
        let n : Int := Nat.ofDigitChars 10 digits 0
        .ok (.int (if negative then -n else n), rest)

def words : List (List Char × Value) :=
  [("null".toList, .null), ("true".toList, .bool true), ("false".toList, .bool false),
    ("NaN".toList, .float), ("Infinity".toList, .float), ("-Infinity".toList, .float)]

def readAtom : Except LoadFault (Value × List Char) :=
  match words.find? fun word => word.1.isPrefixOf cs with
  | some (word, v) => .ok (v, cs.drop word.length)
  | none =>
    if cs.head? = some '-' then readUnsigned true cs.tail else readUnsigned false cs

def dictOf (pairs : List (CodePoints × Value)) : List (CodePoints × Value) :=
  pairs.foldl (fun entries kv => RaytSystem.PyDict.setEntries kv.1 kv.2 entries) []

mutual
def readValue : Nat → Nat → List Char → Except LoadFault (Value × List Char)
  | 0, _, _ => .error .other
  | _ + 1, _, [] => .error .decode
  | rounds + 1, nesting, c :: cs =>
    if c = quote then do
      let (s, rest) ← readString (cs.length + 1) cs
      .ok (.str s, rest)
    else if c = Char.ofNat 0x7b then
      match nesting with
      | 0 => .error .other
      | nesting + 1 =>
        let cs := skipSpace cs
        if cs.head? = some (Char.ofNat 0x7d) then .ok (.map [], cs.tail)
        else do
          let (pairs, rest) ← readEntries rounds nesting cs
          .ok (.map (dictOf pairs), rest)
    else if c = '[' then
      match nesting with
      | 0 => .error .other
      | nesting + 1 =>
        let cs := skipSpace cs
        if cs.head? = some ']' then .ok (.list [], cs.tail)
        else do
          let (items, rest) ← readItems rounds nesting cs
          .ok (.list items, rest)
    else readAtom (c :: cs)
def readItems : Nat → Nat → List Char → Except LoadFault (List Value × List Char)
  | 0, _, _ => .error .other
  | rounds + 1, nesting, cs => do
    let (v, rest) ← readValue rounds nesting cs
    match skipSpace rest with
    | [] => .error .decode
    | c :: rest =>
      if c = ',' then do
        let (items, rest) ← readItems rounds nesting (skipSpace rest)
        .ok (v :: items, rest)
      else if c = ']' then .ok ([v], rest)
      else .error .decode
def readEntries : Nat → Nat → List Char → Except LoadFault (List (CodePoints × Value) × List Char)
  | 0, _, _ => .error .other
  | _ + 1, _, [] => .error .decode
  | rounds + 1, nesting, q :: cs =>
    if q = quote then do
      let (k, rest) ← readString (cs.length + 1) cs
      match skipSpace rest with
      | [] => .error .decode
      | colon :: rest =>
        if colon = ':' then do
          let (v, rest) ← readValue rounds nesting (skipSpace rest)
          match skipSpace rest with
          | [] => .error .decode
          | c :: rest =>
            if c = ',' then do
              let (pairs, rest) ← readEntries rounds nesting (skipSpace rest)
              .ok ((k, v) :: pairs, rest)
            else if c = Char.ofNat 0x7d then .ok ([(k, v)], rest)
            else .error .decode
        else .error .decode
    else .error .decode
end

def codePoints (s : String) : CodePoints := s.toList.map Char.toNat

def toText (points : CodePoints) : Option String :=
  if points.any isSurrogate then none else some (String.ofList (points.map Char.ofNat))

def loads (nesting : Nat) (text : String) : Except LoadFault Value := do
  let cs := skipSpace text.toList
  let (v, rest) ← readValue (2 * cs.length + 2) nesting cs
  if skipSpace rest = [] then .ok v else .error .decode

end EventLines
