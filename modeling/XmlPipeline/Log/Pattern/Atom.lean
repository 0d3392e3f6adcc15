import XmlPipeline.Markup.Reference
import XmlPipeline.Text.Blank
set_option autoImplicit false

/-!
The atoms of patterns: what stands for one character, or for a place between characters. Nothing is
known of characters but their numbers, so an atom that asks for more is refused.
-/

namespace XmlPipeline.Log.Pattern

structure Modes where
  anyCase : Bool := false
  /-- Atoms stand for characters. Otherwise they stand for bytes. -/
  wide : Bool := true
  /-- Blanks and comments may stand between the parts. -/
  spaced : Bool := false
  deriving DecidableEq, Repr

def skipSpace (inComment : Bool) : List Char → List Char
  | [] => []
  | c :: cs =>
    if inComment then skipSpace (c ≠ '\n') cs
    else if Text.isBlank c then skipSpace false cs
    else if c = '#' then skipSpace true cs
    else c :: cs

def Modes.skip (m : Modes) (cs : List Char) : List Char :=
  if m.spaced then skipSpace false cs else cs

inductive Atom where
  | literal (c : Char) (byNumber : Bool)
  /-- A letter for the digits, the blanks or the characters of words, or for all others. -/
  | shorthand (negated : Bool)
  | anyCharacter
  | edge
  | wordEdge
  deriving DecidableEq, Repr

def readHex (m : Modes) : Nat → Nat → List Char → Option (Nat × List Char)
  | 0, value, cs => some (value, cs)
  | length + 1, value, cs =>
    match m.skip cs with
    | [] => none
    | c :: rest =>
      (Markup.digitValue? 16 c).bind fun d => readHex m length (value * 16 + d) rest

def readNumber (m : Modes) (length : Nat) (cs : List Char) : Option (Atom × List Char) :=
  (readHex m length 0 cs).bind fun (n, rest) =>
    if n.isValidChar then some (.literal (Char.ofNat n) (length = 2), rest) else none

def control? : Char → Option Char
  | 'a' => some '\x07'
  | 'f' => some '\x0c'
  | 'n' => some '\n'
  | 'r' => some '\r'
  | 't' => some '\t'
  | 'v' => some '\x0b'
  | _ => none

def readEscape (m : Modes) : List Char → Option (Atom × List Char)
  | [] => none
  | 'x' :: cs => readNumber m 2 cs
  | 'u' :: cs => readNumber m 4 cs
  | 'U' :: cs => readNumber m 8 cs
  | c :: cs =>
    if c = 'd' ∨ c = 's' ∨ c = 'w' then some (.shorthand false, cs)
    else if c = 'D' ∨ c = 'S' ∨ c = 'W' then some (.shorthand true, cs)
    else if c = 'A' ∨ c = 'z' then some (.edge, cs)
    else if c = 'b' ∨ c = 'B' ∨ c = '<' ∨ c = '>' then some (.wordEdge, cs)
    else if c.toNat < 0x80 ∧ !c.isAlphanum then some (.literal c false, cs)
    else (control? c).map fun c => (.literal c false, cs)

namespace Atom

def ofMark : Char → Atom
  | '.' => .anyCharacter
  | '^' | '$' => .edge
  | c => .literal c false

/-- Atoms for characters may not ask for letters or cases. Atoms for bytes may not stand for a part
of a character. -/
def allowed (m : Modes) : Atom → Bool
  | .literal c byNumber => if m.wide then !m.anyCase else !byNumber || c.toNat < 0x80
  | .shorthand negated => !m.wide && !negated
  | .anyCharacter => m.wide
  | .edge => true
  | .wordEdge => !m.wide

/-- In sets places have no meaning, and a byte is a character of ASCII. -/
def allowedInSet (m : Modes) : Atom → Bool
  | .literal c _ => if m.wide then !m.anyCase else c.toNat < 0x80
  | .shorthand negated => !m.wide && !negated
  | _ => false

end Atom

end XmlPipeline.Log.Pattern
