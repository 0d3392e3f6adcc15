set_option autoImplicit false

/-!
Reading at the front of a text: the small parts that all of TOML is made of. A reader gives what it
has read and what follows, or fails.
-/

namespace XmlPipeline.Toml

abbrev Reader (α : Type) := List Char → Option (α × List Char)

def isWhite (c : Char) : Bool := c = ' ' || c = '\t'

def skipWhite (cs : List Char) : List Char := cs.dropWhile isWhite

def isPlain (c : Char) : Bool := c = '\t' || (0x20 ≤ c.toNat && c.toNat ≠ 0x7F)

def expect (mark : List Char) (cs : List Char) : Option (List Char) :=
  if mark.isPrefixOf cs then some (cs.drop mark.length) else none

def newline? : List Char → Option (List Char)
  | '\n' :: cs => some cs
  | '\r' :: '\n' :: cs => some cs
  | _ => none

def skipComment : List Char → List Char
  | '#' :: cs => cs.dropWhile isPlain
  | cs => cs

def lineEnd? (cs : List Char) : Option (List Char) :=
  match skipComment (skipWhite cs) with
  | [] => some []
  | rest => newline? rest

def skipLines : Nat → List Char → Option (List Char)
  | 0, cs => some cs
  | fuel + 1, cs =>
    match skipWhite cs with
    | '#' :: rest => (newline? (rest.dropWhile isPlain)).bind (skipLines fuel)
    | '\n' :: rest => skipLines fuel rest
    | '\r' :: rest => (newline? ('\r' :: rest)).bind (skipLines fuel)
    | rest => some rest

/-- A run of digits; a single underscore may stand between two of them. `owed` tells that a digit
has to come next. -/
def digitsFrom (isDigit : Char → Bool) (owed : Bool) : Reader (List Char)
  | [] => if owed then none else some ([], [])
  | c :: cs =>
    if isDigit c then (digitsFrom isDigit false cs).map fun (ds, rest) => (c :: ds, rest)
    else if owed then none
    else if c = '_' then digitsFrom isDigit true cs
    else some ([], c :: cs)

def digits (isDigit : Char → Bool) : Reader (List Char) := digitsFrom isDigit true

end XmlPipeline.Toml
