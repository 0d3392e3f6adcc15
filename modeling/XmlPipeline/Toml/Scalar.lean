import XmlPipeline.Toml.Scan
import XmlPipeline.Toml.Value
import XmlPipeline.Markup.Reference
set_option autoImplicit false

namespace XmlPipeline.Toml

def decimalValue (ds : List Char) : Nat :=
  ds.foldl (fun n d => n * 10 + (d.toNat - '0'.toNat)) 0

def fixedDigits (length low high : Nat) : Reader Nat := fun cs =>
  let ds := cs.take length
  let n := decimalValue ds
  if ds.length = length ∧ ds.all Char.isDigit ∧ low ≤ n ∧ n ≤ high then some (n, cs.drop length)
  else none

def daysIn (year month : Nat) : Nat :=
  if month = 2 then
    if year % 4 = 0 ∧ (year % 100 ≠ 0 ∨ year % 400 = 0) then 29 else 28
  else if month = 4 ∨ month = 6 ∨ month = 9 ∨ month = 11 then 30
  else 31

def skipDate (cs : List Char) : Option (List Char) := do
  let (year, cs) ← fixedDigits 4 0 9999 cs
  let (month, cs) ← fixedDigits 2 1 12 (← expect ['-'] cs)
  let (_, cs) ← fixedDigits 2 1 (daysIn year month) (← expect ['-'] cs)
  return cs

/-- The rest after a time. A second may be a leap second and have a fraction. -/
def skipTime (cs : List Char) : Option (List Char) := do
  let (_, cs) ← fixedDigits 2 0 23 cs
  let (_, cs) ← fixedDigits 2 0 59 (← expect [':'] cs)
  let (_, cs) ← fixedDigits 2 0 60 (← expect [':'] cs)
  match cs with
  | '.' :: d :: rest => return if d.isDigit then rest.dropWhile Char.isDigit else cs
  | _ => return cs

def skipOffset : List Char → Option (List Char)
  | 'Z' :: cs | 'z' :: cs => some cs
  | '+' :: cs | '-' :: cs => do
    let (_, cs) ← fixedDigits 2 0 23 cs
    let (_, cs) ← fixedDigits 2 0 59 (← expect [':'] cs)
    return cs
  | cs => some cs

def startsTime : List Char → Bool
  | a :: b :: ':' :: _ => a.isDigit && b.isDigit
  | _ => false

def startsDate (cs : List Char) : Bool :=
  (cs.take 4).length = 4 && (cs.take 4).all Char.isDigit && cs[4]? = some '-'

def skipMoment (cs : List Char) : Option (List Char) := do
  if startsTime cs then skipTime cs
  else
    let cs ← skipDate cs
    match cs with
    | d :: rest =>
      if (d = 'T' ∨ d = 't' ∨ d = ' ') ∧ startsTime rest then skipOffset (← skipTime rest)
      else return cs
    | [] => return cs

/-- The least number that is too large for a float of 64 bits, when it is rounded to nearest. -/
def floatLimit : Nat := Nat.pow 2 1024 - Nat.pow 2 970

/-- Whether a number times a power of ten is too large for a float. The number of digits decides,
except near the limit. -/
def overflows (ds : List Char) (exponent : Int) : Bool :=
  let n := decimalValue ds
  let magnitude : Int := (Nat.toDigits 10 n).length + exponent
  if n = 0 ∨ magnitude < 300 then false
  else if 320 < magnitude then true
  else if 0 ≤ exponent then floatLimit ≤ n * Nat.pow 10 exponent.toNat
  else floatLimit * Nat.pow 10 (-exponent).toNat ≤ n

def readExponent : Reader Int
  | '+' :: cs => (digits Char.isDigit cs).map fun (ds, rest) => ((decimalValue ds : Int), rest)
  | '-' :: cs => (digits Char.isDigit cs).map fun (ds, rest) => (-(decimalValue ds : Int), rest)
  | cs => (digits Char.isDigit cs).map fun (ds, rest) => ((decimalValue ds : Int), rest)

def isExponentMark (c : Char) : Bool := c = 'e' || c = 'E'

def decimalDigits : Reader (List Char)
  | '0' :: cs => some (['0'], cs)
  | cs => digits Char.isDigit cs

/-- A decimal number after its sign. A float without a sign, or with a plus, must not overflow. -/
def readDecimal (negative : Bool) (cs : List Char) : Option (Value × List Char) := do
  let (whole, cs) ← decimalDigits cs
  let float (ds : List Char) (exponent : Int) (rest : List Char) : Option (Value × List Char) :=
    if !negative && overflows ds exponent then none else some (.float, rest)
  match cs with
  | '.' :: cs =>
    let (fraction, cs) ← digits Char.isDigit cs
    match cs with
    | c :: rest =>
      if isExponentMark c then
        let (exponent, rest) ← readExponent rest
        float (whole ++ fraction) (exponent - fraction.length) rest
      else float (whole ++ fraction) (-fraction.length) (c :: rest)
    | [] => float (whole ++ fraction) (-fraction.length) []
  | c :: rest =>
    if isExponentMark c then
      let (exponent, rest) ← readExponent rest
      float whole exponent rest
    else integer whole (c :: rest)
  | [] => integer whole []
where
  /-- An integer is held in 64 bits. -/
  integer (ds : List Char) (rest : List Char) : Option (Value × List Char) :=
    let n : Int := if negative then -(decimalValue ds : Int) else decimalValue ds
    if -0x8000000000000000 ≤ n ∧ n < 0x8000000000000000 then some (.integer n, rest) else none

def readRadix (radix : Nat) (cs : List Char) : Option (Value × List Char) := do
  let (ds, rest) ← digits (fun c => (Markup.digitValue? radix c).isSome) cs
  let n := ds.foldl (fun n d => n * radix + (Markup.digitValue? radix d).getD 0) 0
  if n < 0x8000000000000000 then some (.integer n, rest) else none

def readSigned (negative : Bool) (cs : List Char) : Option (Value × List Char) :=
  match expect "inf".toList cs, expect "nan".toList cs with
  | some rest, _ => some (.float, rest)
  | _, some rest => some (.float, rest)
  | none, none => readDecimal negative cs

def readScalar : Reader Value
  | '+' :: cs => readSigned false cs
  | '-' :: cs => readSigned true cs
  | '0' :: 'x' :: cs => readRadix 16 cs
  | '0' :: 'o' :: cs => readRadix 8 cs
  | '0' :: 'b' :: cs => readRadix 2 cs
  | cs =>
    if startsTime cs ∨ startsDate cs then (skipMoment cs).map (.moment, ·)
    else readSigned false cs

end XmlPipeline.Toml
