/-
Reading a JSON value from text. Of fields of one name in an object the last stands.

A number without fraction and exponent is whole if it fits 64 bits with or without sign; other
numbers are floating-point: the digits as a whole number, times or divided by a power of ten. A
number too large for that is refused.
-/
import Placement.Json
import Placement.Text.Digits

namespace Placement.Json.Reader

open Text

/-- What may stand between the parts of a value. -/
def skipSpace (cs : List Char) : List Char :=
  cs.dropWhile fun c => c == ' ' || c == '\n' || c == '\r' || c == '\t'

/-! ## Strings -/

def hexValue? (c : Char) : Option Nat :=
  if c.isDigit then some (c.toNat - 48)
  else if 'a' ≤ c && c ≤ 'f' then some (c.toNat - 87)
  else if 'A' ≤ c && c ≤ 'F' then some (c.toNat - 55)
  else none

/-- Four hexadecimal digits. -/
def hex4 : List Char → Option (Nat × List Char)
  | a :: b :: c :: d :: rest => do
    let a ← hexValue? a
    let b ← hexValue? b
    let c ← hexValue? c
    let d ← hexValue? d
    some (((a * 16 + b) * 16 + c) * 16 + d, rest)
  | _ => none

/-- The character that one escape after `\u` denotes, or the two escapes of a surrogate pair. -/
def unicodeEscape (cs : List Char) : Option (Char × List Char) := do
  let (high, rest) ← hex4 cs
  if 0xD800 ≤ high && high ≤ 0xDBFF then
    match rest with
    | '\\' :: 'u' :: rest =>
      let (low, rest) ← hex4 rest
      if 0xDC00 ≤ low && low ≤ 0xDFFF then
        some (Char.ofNat (0x10000 + (high - 0xD800) * 0x400 + (low - 0xDC00)), rest)
      else none
    | _ => none
  else if 0xDC00 ≤ high && high ≤ 0xDFFF then none
  else some (Char.ofNat high, rest)

/-- The character that an escape of one letter denotes. -/
def shortEscape? : Char → Option Char
  | '"' => some '"'
  | '\\' => some '\\'
  | '/' => some '/'
  | 'b' => some '\x08'
  | 'f' => some '\x0c'
  | 'n' => some '\n'
  | 'r' => some '\r'
  | 't' => some '\t'
  | _ => none

/-- The characters of a string up to its closing quote, escapes as written, and what follows. -/
def rawString : List Char → Option (List Char × List Char)
  | [] => none
  | '"' :: rest => some ([], rest)
  | '\\' :: c :: rest => (rawString rest).map fun (cs, r) => ('\\' :: c :: cs, r)
  | c :: rest =>
    if c.toNat < 32 then none else (rawString rest).map fun (cs, r) => (c :: cs, r)

/-- The characters that a string denotes, its escapes replaced. -/
def unescaped : Nat → List Char → Option (List Char)
  | 0, _ => none
  | _ + 1, [] => some []
  | fuel + 1, '\\' :: 'u' :: rest => do
    let (c, rest) ← unicodeEscape rest
    (unescaped fuel rest).map (c :: ·)
  | fuel + 1, '\\' :: e :: rest => do
    let c ← shortEscape? e
    (unescaped fuel rest).map (c :: ·)
  | fuel + 1, c :: rest => (unescaped fuel rest).map (c :: ·)

/-- A string behind its opening quote. -/
def stringBody (cs : List Char) : Option (String × List Char) := do
  let (raw, rest) ← rawString cs
  let chars ← unescaped (raw.length + 1) raw
  some (String.ofList chars, rest)

/-! ## Numbers -/

/-- The digits that fit 64 bits, and how many do not. -/
def significand (ds : List Char) : Nat × Nat :=
  ds.foldl (fun (n, skipped) c =>
    let next := n * 10 + (digitValue? c).getD 0
    if skipped = 0 && next < 0x10000000000000000 then (next, 0) else (n, skipped + 1)) (0, 0)

/-- Divides by powers of ten that are not too large, until the rest of the exponent is gone. -/
def scaledDown : Nat → Float → Nat → Float
  | 0, x, _ => x
  | fuel + 1, x, e =>
    if e ≤ 308 then x / Float.ofScientific 1 false e
    else if x == 0 then x
    else scaledDown fuel (x / 1e308) (e - 308)

/-- A whole number times a power of ten, `none` if it is too large. -/
def scaled? (n : Nat) (exponent : Int) : Option Float :=
  let x := Float.ofNat n
  if 0 ≤ exponent then
    if x == 0 then some x
    else if exponent ≤ 308 then
      let y := x * Float.ofScientific 1 false exponent.toNat
      if y.isInf then none else some y
    else none
  else some (scaledDown (exponent.natAbs / 308 + 1) x exponent.natAbs)

/-- The value of one or more digits. -/
def digits (cs : List Char) : Option (Nat × List Char) :=
  match cs.span Char.isDigit with
  | ([], _) => none
  | (ds, rest) => some (digitsValue ds, rest)

/-- The exponent of a number, with its sign. -/
def exponent (cs : List Char) : Option (Int × List Char) :=
  match cs with
  | '-' :: rest => (digits rest).map fun (n, r) => (-(n : Int), r)
  | '+' :: rest => (digits rest).map fun (n, r) => ((n : Int), r)
  | _ => (digits cs).map fun (n, r) => ((n : Int), r)

/-- The digits behind a point, if there is one. -/
def fraction : List Char → Option (Option (List Char) × List Char)
  | '.' :: rest =>
    match rest.span Char.isDigit with
    | ([], _) => none
    | (ds, rest) => some (some ds, rest)
  | cs => some (none, cs)

/-- The exponent behind `e` or `E`, if there is one. -/
def exponentPart : List Char → Option (Option Int × List Char)
  | 'e' :: rest => (exponent rest).map fun (n, r) => (some n, r)
  | 'E' :: rest => (exponent rest).map fun (n, r) => (some n, r)
  | cs => some (none, cs)

/-- A number without its sign. -/
def unsigned (negative : Bool) (cs : List Char) : Option (Json × List Char) := do
  let (whole, cs) ← match cs.span Char.isDigit with
    | ([], _) => none
    | ('0' :: _ :: _, _) => none
    | r => some r
  let (frac, cs) ← fraction cs
  let (exp, cs) ← exponentPart cs
  let n := digitsValue whole
  let fits := if negative then 0 < n && n ≤ 0x8000000000000000 else n < 0x10000000000000000
  if frac.isNone && exp.isNone && fits then
    some (.int (if negative then -(n : Int) else n), cs)
  else
    let fracDigits := frac.getD []
    let (kept, skipped) := significand (whole ++ fracDigits)
    let x ← scaled? kept (exp.getD 0 + skipped - fracDigits.length)
    some (.float (if negative then -x else x), cs)

/-! ## Values -/

mutual

/-- A value, after space. -/
def value : Nat → List Char → Option (Json × List Char)
  | 0, _ => none
  | fuel + 1, cs =>
    match skipSpace cs with
    | 'n' :: 'u' :: 'l' :: 'l' :: rest => some (.null, rest)
    | 't' :: 'r' :: 'u' :: 'e' :: rest => some (.bool true, rest)
    | 'f' :: 'a' :: 'l' :: 's' :: 'e' :: rest => some (.bool false, rest)
    | '"' :: rest => (stringBody rest).map fun (s, r) => (.str s, r)
    | '[' :: rest =>
      match skipSpace rest with
      | ']' :: rest => some (.arr [], rest)
      | _ => (items fuel rest).map fun (xs, r) => (.arr xs, r)
    | '\x7b' :: rest =>
      match skipSpace rest with
      | '\x7d' :: rest => some (.obj [], rest)
      | _ => (members fuel rest).map fun (fs, r) => (Json.ofFields fs, r)
    | '-' :: rest => unsigned true rest
    | cs => unsigned false cs

/-- One or more items of an array and its end. -/
def items : Nat → List Char → Option (List Json × List Char)
  | 0, _ => none
  | fuel + 1, cs => do
    let (x, cs) ← value fuel cs
    match skipSpace cs with
    | ',' :: rest => (items fuel rest).map fun (xs, r) => (x :: xs, r)
    | ']' :: rest => some ([x], rest)
    | _ => none

/-- One or more fields of an object and its end. -/
def members : Nat → List Char → Option (List (String × Json) × List Char)
  | 0, _ => none
  | fuel + 1, cs => do
    let (name, cs) ← match skipSpace cs with
      | '"' :: rest => stringBody rest
      | _ => none
    let cs ← match skipSpace cs with
      | ':' :: rest => some rest
      | _ => none
    let (v, cs) ← value fuel cs
    let field := (name, v)
    match skipSpace cs with
    | ',' :: rest => (members fuel rest).map fun (fs, r) => (field :: fs, r)
    | '\x7d' :: rest => some ([field], rest)
    | _ => none

end

end Placement.Json.Reader

namespace Placement.Json

/-- The value that a text denotes, with nothing but space around it. -/
def parse? (s : String) : Option Json :=
  let cs := s.toList
  match Reader.value (cs.length + 1) cs with
  | some (j, rest) => if (Reader.skipSpace rest).isEmpty then some j else none
  | none => none

end Placement.Json
