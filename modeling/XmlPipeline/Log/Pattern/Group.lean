import XmlPipeline.Log.Pattern.Set
import XmlPipeline.Text.Letters
set_option autoImplicit false

/-!
Patterns as a whole: branches of atoms, sets and groups, and what is repeated. A pattern may not be
too high. Braces are not read, because a field has no closing brace in it.
-/

namespace XmlPipeline.Log.Pattern

/-- A part of a branch. A change of modes cannot be repeated. -/
structure Part where
  height : Nat := 0
  repeatable : Bool := true
  deriving DecidableEq, Repr

structure OpenGroup where
  modes : Modes
  /-- The parts of the last branch, in reverse. -/
  parts : List Part := []
  /-- The heights of the branches before. -/
  branches : List Nat := []
  deriving DecidableEq, Repr

namespace OpenGroup

def branchHeight (g : OpenGroup) : Nat := sideBySide (g.parts.map (·.height))

def height (g : OpenGroup) : Nat := sideBySide (g.branchHeight :: g.branches)

def add (g : OpenGroup) (part : Part) : OpenGroup := { g with parts := part :: g.parts }

def branch (g : OpenGroup) : OpenGroup :=
  { g with parts := [], branches := g.branchHeight :: g.branches }

def repeat? (g : OpenGroup) : Option OpenGroup :=
  match g.parts with
  | ⟨height, true⟩ :: parts => some { g with parts := ⟨height + 1, true⟩ :: parts }
  | _ => none

end OpenGroup

def Modes.set (m : Modes) (letter : Char) (on : Bool) : Modes :=
  match letter with
  | 'i' => { m with anyCase := on }
  | 'u' => { m with wide := on }
  | 'x' => { m with spaced := on }
  | _ => m

def readModes (m : Modes) (read : List Char) : List Char → Option (Modes × Char × List Char)
  | [] => none
  | c :: cs =>
    if c = ':' ∨ c = ')' then
      if read.head? = some '-' ∨ (read = [] ∧ c = ')') then none else some (m, c, cs)
    else if c ∈ read then none
    else if c ∈ ['-', 'i', 'm', 's', 'U', 'u', 'R', 'x'] then
      readModes (m.set c ('-' ∉ read)) (c :: read) cs
    else none

def startsName (c : Char) : Bool := c = '_' || Text.isAlphabetic c

def continuesName (c : Char) : Bool :=
  c = '_' || c = '.' || c = '[' || c = ']' || Text.isAlphanumeric c

def readName (cs : List Char) : Option (List Char × List Char) :=
  match cs.takeWhile (· ≠ '>'), cs.dropWhile (· ≠ '>') with
  | c :: name, _ :: rest =>
    if startsName c && name.all continuesName then some (c :: name, rest) else none
  | _, _ => none

inductive Opening where
  | modes (modes : Modes)
  | group (modes : Modes) (name : Option (List Char))
  deriving DecidableEq, Repr

def readOpening (m : Modes) (cs : List Char) : Option (Opening × List Char) :=
  let named (cs : List Char) : Option (Opening × List Char) :=
    (readName cs).map fun (name, rest) => (.group m (some name), rest)
  match m.skip cs with
  | '?' :: 'P' :: '<' :: rest => named rest
  | '?' :: '<' :: rest => named rest
  | '?' :: rest =>
    (readModes m [] rest).map fun (m, mark, rest) =>
      (if mark = ')' then .modes m else .group m none, rest)
  | rest => some (.group m none, rest)

def readAtom (m : Modes) : List Char → Option (List Char)
  | [] => none
  | '\\' :: cs => (readEscape m cs).bind fun (atom, rest) =>
    if atom.allowed m then some rest else none
  | c :: cs => if (Atom.ofMark c).allowed m then some cs else none

/-- The height of a pattern that is read to its end, with the groups around the innermost one in
`around` and the names of groups so far in `names`. -/
def readPattern : Nat → OpenGroup → List OpenGroup → List (List Char) → List Char → Option Nat
  | 0, _, _, _, _ => none
  | fuel + 1, group, around, names, cs =>
    match group.modes.skip cs with
    | [] => if around = [] then some group.height else none
    | c :: rest =>
      if c = '(' then
        (readOpening group.modes rest).bind fun (opening, rest) =>
          match opening with
          | .modes modes =>
            readPattern fuel ({ group with modes }.add { repeatable := false }) around names rest
          | .group modes none => readPattern fuel { modes } (group :: around) names rest
          | .group modes (some name) =>
            if name ∈ names then none
            else readPattern fuel { modes } (group :: around) (name :: names) rest
      else if c = ')' then
        match around with
        | [] => none
        | outer :: around =>
          readPattern fuel (outer.add { height := group.height + 1 }) around names rest
      else if c = '|' then readPattern fuel group.branch around names rest
      else if c = '[' then
        (openSet group.modes rest).bind fun (set, rest) =>
          (readSet group.modes (rest.length + 1) set [] rest).bind fun (height, rest) =>
            readPattern fuel (group.add { height }) around names rest
      else if c = '?' ∨ c = '*' ∨ c = '+' then
        group.repeat?.bind fun group =>
          readPattern fuel group around names (if rest.head? = some '?' then rest.drop 1 else rest)
      else if c = '\x7b' then none
      else
        (readAtom group.modes (c :: rest)).bind fun rest =>
          readPattern fuel (group.add {}) around names rest

def maxHeight : Nat := 250

def isPattern (cs : List Char) : Bool :=
  (readPattern (cs.length + 1) { modes := {} } [] [] cs).any (· ≤ maxHeight)

end XmlPipeline.Log.Pattern
