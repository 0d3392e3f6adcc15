import XmlPipeline.Toml.Scan
import XmlPipeline.Markup.Reference
set_option autoImplicit false

namespace XmlPipeline.Toml

def hexValue? (ds : List Char) : Option Nat :=
  ds.foldlM (fun n d => (Markup.digitValue? 16 d).map (n * 16 + ·)) 0

def readCodePoint (length : Nat) : Reader Char := fun cs =>
  let ds := cs.take length
  if ds.length < length then none
  else
    match hexValue? ds with
    | some n => if n.isValidChar then some (Char.ofNat n, cs.drop length) else none
    | none => none

def readEscape : Reader Char
  | 'b' :: cs => some ('\x08', cs)
  | 'f' :: cs => some ('\x0c', cs)
  | 'n' :: cs => some ('\n', cs)
  | 'r' :: cs => some ('\r', cs)
  | 't' :: cs => some ('\t', cs)
  | '"' :: cs => some ('"', cs)
  | '\\' :: cs => some ('\\', cs)
  | 'u' :: cs => readCodePoint 4 cs
  | 'U' :: cs => readCodePoint 8 cs
  | _ => none

def basicText : Nat → Reader (List Char)
  | 0, _ | _, [] => none
  | fuel + 1, c :: cs =>
    if c = '"' then some ([], cs)
    else if c = '\\' then
      (readEscape cs).bind fun (e, rest) =>
        (basicText fuel rest).map fun (text, tail) => (e :: text, tail)
    else if isPlain c then (basicText fuel cs).map fun (text, tail) => (c :: text, tail)
    else none

def literalText : Reader (List Char)
  | [] => none
  | c :: cs =>
    if c = '\'' then some ([], cs)
    else if isPlain c then (literalText cs).map fun (text, tail) => (c :: text, tail)
    else none

def skipFold : Nat → List Char → List Char
  | 0, cs => cs
  | fuel + 1, cs =>
    match newline? (skipWhite cs) with
    | some rest => skipFold fuel rest
    | none => skipWhite cs

/-- A text on many lines, after its opening quotes. Up to two quotes may stand in it, and up to two
more before the three that end it. In a basic text a backslash at the end of a line drops the line
end and the white space after it. -/
def longText (quote : Char) (escapes : Bool) : Nat → Reader (List Char)
  | 0, _ | _, [] => none
  | fuel + 1, c :: cs =>
    let go (d : Char) (rest : List Char) :=
      (longText quote escapes fuel rest).map fun (text, tail) => (d :: text, tail)
    if c = quote then
      let run := (c :: cs).takeWhile (· = quote)
      let rest := (c :: cs).dropWhile (· = quote)
      if run.length < 3 then (longText quote escapes fuel rest).map fun (text, tail) =>
        (run ++ text, tail)
      else if run.length ≤ 5 then some (run.drop 3, rest)
      else none
    else if escapes ∧ c = '\\' then
      match newline? (skipWhite cs) with
      | some rest => longText quote escapes fuel (skipFold fuel rest)
      | none => (readEscape cs).bind fun (e, rest) => go e rest
    else if isPlain c then go c cs
    else (newline? (c :: cs)).bind (go '\n')

/-- The line end right after the opening quotes is no part of the text. -/
def openLong (cs : List Char) : List Char := (newline? cs).getD cs

def readText : Reader String
  | '"' :: '"' :: '"' :: cs => (longText '"' true (cs.length + 1) (openLong cs)).map fun (t, r) =>
    (String.ofList t, r)
  | '\'' :: '\'' :: '\'' :: cs =>
    (longText '\'' false (cs.length + 1) (openLong cs)).map fun (t, r) => (String.ofList t, r)
  | '"' :: cs => (basicText (cs.length + 1) cs).map fun (t, r) => (String.ofList t, r)
  | '\'' :: cs => (literalText cs).map fun (t, r) => (String.ofList t, r)
  | _ => none

end XmlPipeline.Toml
