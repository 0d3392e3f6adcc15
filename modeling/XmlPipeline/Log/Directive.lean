import XmlPipeline.Log.Pattern.Group
import XmlPipeline.Log.Record
import XmlPipeline.Text.Utf8
set_option autoImplicit false

namespace XmlPipeline.Log

structure Directive where
  verbosity : Nat := 5
  target : Option String := none
  /-- A span that has to be open. -/
  inSpan : Option String := none
  /-- Fields by name, with the values asked of them. -/
  fields : List (String × Option String) := []
  deriving DecidableEq, Repr

inductive DirectiveFault where
  | malformed
  /-- A part of the directive ends inside of a character. -/
  | cutCharacter
  deriving DecidableEq, Repr

def verbosity? (text : List Char) : Option Nat :=
  let digits := if text.head? = some '+' then text.drop 1 else text
  if digits ≠ [] ∧ digits.all Char.isDigit then
    let n := digits.foldl (fun n d => n * 10 + (d.toNat - '0'.toNat)) 0
    if n ≤ 5 then some n else none
  else
    ["off", "error", "warn", "info", "debug", "trace"].findIdx? fun name =>
      name.toList = text.map Char.toLower

def readVerbosity (text : List Char) : Except DirectiveFault Nat :=
  match verbosity? text with
  | some verbosity => .ok verbosity
  | none => .error .malformed

def skipSign : List Char → List Char
  | '+' :: cs | '-' :: cs => cs
  | cs => cs

def isDecimal (cs : List Char) : Bool :=
  let whole := cs.takeWhile Char.isDigit
  let rest := cs.dropWhile Char.isDigit
  let tail := if rest.head? = some '.' then rest.drop 1 else []
  let fraction := tail.takeWhile Char.isDigit
  let rest := if rest.head? = some '.' then tail.dropWhile Char.isDigit else rest
  (!whole.isEmpty || !fraction.isEmpty) &&
    match rest with
    | [] => true
    | c :: exponent =>
      (c = 'e' || c = 'E') && !(skipSign exponent).isEmpty && (skipSign exponent).all Char.isDigit

def isNumber (cs : List Char) : Bool :=
  let cs := skipSign cs
  isDecimal cs || ["inf", "infinity", "nan"].any fun name => name.toList = cs.map Char.toLower

def readField (text : List Char) : Except DirectiveFault (String × Option String) :=
  let name := text.takeWhile (· ≠ '=')
  if name.length = text.length then .ok (String.ofList name, none)
  else
    let value := (text.drop (name.length + 1)).takeWhile (· ≠ '=')
    if isNumber value || Pattern.isPattern value then
      .ok (String.ofList name, some (String.ofList value))
    else .error .malformed

inductive Phase where
  | start
  | levelOrTarget (start : Nat)
  | span (start : Nat)
  | field (start : Nat)
  | fields
  | target
  | level (start : Nat)

def slice (text : List Char) (start stop : Nat) : Except DirectiveFault (List Char) :=
  match (Text.cutBytes start text).bind fun (_, rest) => Text.cutBytes (stop - start) rest with
  | some (part, _) => .ok part
  | none => .error .cutCharacter

def isDirectiveStart (c : Char) : Bool :=
  c = '-' || c = ':' || c = '_' || Text.isAlphanumeric c

namespace Directive

def step (text : List Char) (d : Directive) (i : Nat) (c : Char) :
    Phase → Except DirectiveFault (Directive × Phase)
  | .start =>
    if c = '[' then .ok (d, .span (i + 1))
    else if isDirectiveStart c then .ok (d, .levelOrTarget i)
    else .error .malformed
  | .levelOrTarget start =>
    if c = '=' ∨ c = '[' then do
      let target := some (String.ofList (← slice text start i))
      return ({ d with target }, if c = '=' then .level (i + 1) else .span (i + 1))
    else .ok (d, .levelOrTarget start)
  | .span start =>
    if c = ']' ∨ c = '\x7b' then do
      let name := String.ofList (← slice text start i)
      if c = ']' then return ({ d with inSpan := some name }, .target)
      else return ({ d with inSpan := if name = "" then none else some name }, .field (i + 1))
    else .ok (d, .span start)
  | .field start =>
    if c = '\x7d' then do
      let field ← slice text start i
      if field = [] then throw .malformed
      let field ← readField field
      return ({ d with fields := d.fields ++ [field] }, .fields)
    else .ok (d, .field start)
  | .fields => if c = ']' then .ok (d, .target) else .error .malformed
  | .target => if c = '=' then .ok (d, .level (i + 1)) else .error .malformed
  | .level start => .ok (d, .level start)

def steps (text : List Char) (d : Directive) (i : Nat) (phase : Phase) :
    List Char → Except DirectiveFault (Directive × Phase)
  | [] => .ok (d, phase)
  | c :: cs =>
    (d.step text i c phase).bind fun (d, phase) => steps text d (i + c.utf8Size) phase cs

/-- A word that is no level is a target. A level that is left out lets everything through. -/
def finish (text : List Char) (d : Directive) : Phase → Except DirectiveFault Directive
  | .levelOrTarget start => do
    let word ← slice text start (Text.size text)
    match verbosity? word with
    | some verbosity => return { d with verbosity }
    | none => return { d with target := some (String.ofList word) }
  | .level start => do
    let word ← slice text start (Text.size text)
    if word = [] then return d
    return { d with verbosity := ← readVerbosity word }
  | .target => .ok d
  | _ => .error .malformed

/-- Blanks around a directive are not read, but they count where its parts are cut out. -/
def read (text : List Char) : Except DirectiveFault Directive :=
  (steps text {} 0 .start (Text.trim text)).bind fun (d, phase) => d.finish text phase

/-- A record fits a directive by the beginning of its target, and has all fields that are named.
Every record has a message. A directive that asks for a span or for values fits none. -/
def fits (d : Directive) (r : Record) : Bool :=
  d.inSpan.isNone &&
    d.fields.all (fun f => f.2.isNone && (f.1 = "message" || r.fields.any (·.1 = f.1))) &&
    match d.target with
    | none => true
    | some target => target.toList.isPrefixOf r.target.toList

def fieldNames (d : Directive) : List String := d.fields.map (·.1)

def targetLength (d : Directive) : Nat :=
  match d.target with
  | none => 0
  | some target => target.utf8ByteSize + 1

/-- A longer target is more specific, then more fields, then fields that come later in order. A
later directive takes the place of an earlier one that is alike. -/
def supersedes (d e : Directive) : Bool :=
  if d.targetLength ≠ e.targetLength then e.targetLength < d.targetLength
  else if d.fields.length ≠ e.fields.length then e.fields.length < d.fields.length
  else !decide (d.fieldNames < e.fieldNames)

end Directive

end XmlPipeline.Log
