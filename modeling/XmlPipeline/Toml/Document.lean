import XmlPipeline.Toml.Scalar
import XmlPipeline.Toml.Text
set_option autoImplicit false

namespace XmlPipeline.Toml

def isBareKey (c : Char) : Bool := c.isAlphanum || c = '-' || c = '_'

def readKeyPart : Reader String
  | '"' :: cs => (basicText (cs.length + 1) cs).map fun (t, r) => (String.ofList t, r)
  | '\'' :: cs => (literalText cs).map fun (t, r) => (String.ofList t, r)
  | cs =>
    if cs.takeWhile isBareKey = [] then none
    else some (String.ofList (cs.takeWhile isBareKey), cs.dropWhile isBareKey)

def keyParts : Nat → Reader (List String)
  | 0, _ => none
  | fuel + 1, cs =>
    (readKeyPart (skipWhite cs)).bind fun (part, rest) =>
      match skipWhite rest with
      | '.' :: rest => (keyParts fuel rest).map fun (parts, tail) => (part :: parts, tail)
      | rest => some ([part], rest)

/-- Keys have fewer parts than this, and values are nested less deep. -/
def depthLimit : Nat := 80

def readKey : Reader (List String × String) := fun cs =>
  (keyParts (cs.length + 1) cs).bind fun (parts, rest) =>
    match parts.getLast? with
    | some key =>
      if parts.length < depthLimit then some ((parts.dropLast, key), rest) else none
    | none => none

def readItems (item : Reader Value) : Nat → Reader (List Value)
  | 0, _ => none
  | fuel + 1, cs =>
    (skipLines cs.length cs).bind fun cs =>
      match cs with
      | ']' :: rest => some ([], rest)
      | cs =>
        (item cs).bind fun (value, rest) =>
          (skipLines rest.length rest).bind fun rest =>
            match rest with
            | ',' :: rest => (readItems item fuel rest).map fun (vs, tail) => (value :: vs, tail)
            | ']' :: rest => some ([value], rest)
            | _ => none

def readPair (value : Reader Value) : Reader ((List String × String) × Value) := fun cs =>
  (readKey cs).bind fun (key, rest) =>
    match rest with
    | '=' :: rest => (value (skipWhite rest)).map fun (v, tail) => ((key, v), tail)
    | _ => none

def readPairs (value : Reader Value) : Nat → Table → Reader Table
  | 0, _, _ => none
  | fuel + 1, t, cs =>
    (readPair value cs).bind fun (((path, key), v), rest) =>
      (t.insert path key v).bind fun t =>
        match skipWhite rest with
        | ',' :: rest => readPairs value fuel t rest
        | '\x7d' :: rest => some (t, rest)
        | _ => none

def readValue (depth : Nat) : Reader Value
  | [] => none
  | c :: cs =>
    if c = '"' ∨ c = '\'' then (readText (c :: cs)).map fun (t, rest) => (.text t, rest)
    else if c = '[' then
      match depth with
      | 0 => none
      | depth + 1 =>
        (readItems (readValue depth) (cs.length + 1) cs).map fun (vs, rest) => (.array vs, rest)
    else if c = '\x7b' then
      match depth, skipWhite cs with
      | 0, _ => none
      | _ + 1, '\x7d' :: rest => some (.table .inline [], rest)
      | depth + 1, cs =>
        (readPairs (readValue depth) (cs.length + 1) ⟨.inline, []⟩ cs).map fun (t, rest) =>
          (.table .inline t.entries, rest)
    else if c = 't' then (expect "rue".toList cs).map (.boolean true, ·)
    else if c = 'f' then (expect "alse".toList cs).map (.boolean false, ·)
    else readScalar (c :: cs)

/-- A document that has been read in part: all of it so far, and the table that lines add to. -/
structure Draft where
  root : Table := ⟨.header, []⟩
  current : List String := []
  deriving Repr

namespace Draft

def header (d : Draft) (cs : List Char) : Option (Draft × List Char) :=
  let (open?, mark, cs) := match cs with
    | '[' :: cs => (Table.openNext, "]]".toList, cs)
    | cs => (Table.openTable, "]".toList, cs)
  (readKey cs).bind fun ((path, key), rest) =>
    (expect mark rest).bind fun rest =>
      (open? path key d.root).bind fun root =>
        (lineEnd? rest).map (⟨root, path ++ [key]⟩, ·)

def pair (d : Draft) (cs : List Char) : Option (Draft × List Char) :=
  (readPair (readValue (depthLimit - 1)) cs).bind fun (((path, key), v), rest) =>
    (Table.update false (Table.insert path key v) d.current d.root).bind fun root =>
      (lineEnd? rest).map (⟨root, d.current⟩, ·)

def line (d : Draft) (cs : List Char) : Option (Draft × List Char) :=
  match skipWhite cs with
  | '[' :: rest => d.header rest
  | c :: rest =>
    if c = '#' ∨ c = '\n' ∨ c = '\r' then (lineEnd? (c :: rest)).map (d, ·) else d.pair (c :: rest)
  | [] => some (d, [])

def lines : Nat → Draft → List Char → Option Draft
  | _, d, [] => some d
  | 0, _, _ => none
  | fuel + 1, d, cs => (d.line cs).bind fun (d, rest) => lines fuel d rest

end Draft

def readDocument (text : String) : Option Table :=
  let cs := match text.toList with
    | '\uFEFF' :: cs => cs
    | cs => cs
  (Draft.lines (cs.length + 1) {} cs).map (·.root)

end XmlPipeline.Toml
