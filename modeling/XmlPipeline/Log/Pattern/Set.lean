import XmlPipeline.Log.Pattern.Atom
set_option autoImplicit false

namespace XmlPipeline.Log.Pattern

def sideBySide : List Nat → Nat
  | [] => 0
  | [h] => h
  | h :: hs => hs.foldl max h + 1

structure OpenSet where
  /-- Nothing but hyphens has come after the bracket. -/
  fresh : Bool
  /-- The heights of the items since the last operator. -/
  items : List Nat := []
  /-- The height of all that comes before the last operator. -/
  left : Option Nat := none
  deriving DecidableEq, Repr

namespace OpenSet

def height (s : OpenSet) : Nat :=
  match s.left with
  | none => sideBySide s.items
  | some left => max left (sideBySide s.items) + 1

def add (s : OpenSet) (height : Nat) : OpenSet :=
  { s with fresh := false, items := height :: s.items }

def operate (s : OpenSet) : OpenSet := { fresh := false, left := some s.height }

end OpenSet

def openSet (m : Modes) (cs : List Char) : Option (OpenSet × List Char) :=
  match m.skip cs with
  | '^' :: rest => if m.wide then some ({ fresh := true }, rest) else none
  | rest => some ({ fresh := true }, rest)

def namedSets : List String :=
  ["alnum", "alpha", "ascii", "blank", "cntrl", "digit", "graph", "lower", "print", "punct",
   "space", "upper", "word", "xdigit"]

def readNamedSet : List Char → Option (Bool × List Char)
  | ':' :: cs =>
    let negated := cs.head? = some '^'
    let cs := if negated then cs.drop 1 else cs
    match cs.dropWhile (· ≠ ':') with
    | ':' :: ']' :: rest =>
      if String.ofList (cs.takeWhile (· ≠ ':')) ∈ namedSets then some (negated, rest) else none
    | _ => none
  | _ => none

/-- What stands after a hyphen. Only one hash is seen as the beginning of a comment. -/
def Modes.next? (m : Modes) (cs : List Char) : Option Char :=
  if m.spaced then
    match cs.dropWhile Text.isBlank with
    | '#' :: rest => (rest.dropWhile Text.isBlank).head?
    | rest => rest.head?
  else cs.head?

def readSetAtom (m : Modes) : List Char → Option (Atom × List Char)
  | [] => none
  | '\\' :: cs => readEscape m cs
  | c :: cs => some (.literal c false, cs)

def isRange : Atom → Atom → Bool
  | .literal low _, .literal high _ => low ≤ high
  | _, _ => false

def skipItem (m : Modes) (cs : List Char) : Option (List Char) := do
  let (first, cs) ← readSetAtom m cs
  if !first.allowedInSet m then none
  else
    match m.skip cs with
    | '-' :: rest =>
      if m.next? rest = some ']' ∨ m.next? rest = some '-' then some ('-' :: rest)
      else
        let (last, rest) ← readSetAtom m (m.skip rest)
        if last.allowedInSet m && isRange first last then some rest else none
    | rest => some rest

/-- Reads a set to its end, with the sets around it in `around`. Hyphens that come first, and else a
bracket that comes first, stand for themselves. -/
def readSet (m : Modes) : Nat → OpenSet → List OpenSet → List Char → Option (Nat × List Char)
  | 0, _, _, _ => none
  | fuel + 1, set, around, cs =>
    let literal := (Atom.literal '-' false).allowedInSet m
    match m.skip cs with
    | [] => none
    | c :: rest =>
      if set.fresh ∧ c = '-' then
        if literal then readSet m fuel { set.add 0 with fresh := true } around rest else none
      else if set.fresh ∧ set.items = [] ∧ c = ']' then
        if literal then readSet m fuel (set.add 0) around rest else none
      else if c = ']' then
        match around with
        | [] => some (set.height + 1, rest)
        | outer :: around => readSet m fuel (outer.add (set.height + 1)) around rest
      else if c = '[' then
        match readNamedSet rest with
        | some (negated, rest) =>
          if if m.wide then m.anyCase else negated then none
          else readSet m fuel (set.add 0) around rest
        | none =>
          (openSet m rest).bind fun (inner, rest) => readSet m fuel inner (set :: around) rest
      else if (c = '&' ∨ c = '-' ∨ c = '~') ∧ rest.head? = some c then
        readSet m fuel set.operate around (rest.drop 1)
      else (skipItem m (c :: rest)).bind fun rest => readSet m fuel (set.add 0) around rest

end XmlPipeline.Log.Pattern
