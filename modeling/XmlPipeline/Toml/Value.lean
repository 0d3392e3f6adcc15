set_option autoImplicit false

/-!
Values of TOML, and how tables grow. A table remembers how it came about, because that decides
whether later lines may add to it.
-/

namespace XmlPipeline.Toml

inductive Origin where
  /-- Written with a header of its own, or the whole document. -/
  | header
  /-- Named on the way to a table with a header. -/
  | implied
  /-- Named on the way to a dotted key. -/
  | dotted
  /-- Written between braces. -/
  | inline
  deriving DecidableEq, Repr

/-- Of floats and of dates and times only the kind is kept. -/
inductive Value where
  | text (content : String)
  | boolean (value : Bool)
  | integer (value : Int)
  | float
  | moment
  | array (items : List Value)
  | table (origin : Origin) (entries : List (String × Value))
  /-- Tables that share one header in double brackets; the last one is being written. -/
  | tables (earlier : List (List (String × Value))) (last : List (String × Value))
  deriving Repr

structure Table where
  origin : Origin
  entries : List (String × Value)
  deriving Repr

namespace Table

def find? (key : String) (t : Table) : Option Value :=
  (t.entries.find? (·.1 = key)).map (·.2)

def set (key : String) (value : Value) (t : Table) : Table :=
  if (t.find? key).isSome then
    { t with entries := t.entries.map fun e => if e.1 = key then (key, value) else e }
  else { t with entries := t.entries ++ [(key, value)] }

/-- Changes the table that a path leads to, making tables on the way. A dotted path leads through
no table with a header, and nothing leads into an inline table. -/
def update (viaDots : Bool) (change : Table → Option Table) : List String → Table → Option Table
  | [], t => change t
  | key :: path, t =>
    match t.find? key with
    | none =>
      (update viaDots change path ⟨if viaDots then .dotted else .implied, []⟩).map fun inner =>
        t.set key (.table inner.origin inner.entries)
    | some (.table origin entries) =>
      if origin = .inline ∨ (viaDots ∧ origin = .header) then none
      else
        (update viaDots change path ⟨origin, entries⟩).map fun inner =>
          t.set key (.table inner.origin inner.entries)
    | some (.tables earlier last) =>
      (update viaDots change path ⟨.header, last⟩).map fun inner =>
        t.set key (.tables earlier inner.entries)
    | some _ => none

/-- Adds a value under a new key. Dotted keys add to dotted tables only, and others to none. -/
def insert (path : List String) (key : String) (value : Value) (t : Table) : Option Table :=
  update true (fun inner =>
    if (inner.origin == .dotted) == path.isEmpty then none
    else if (inner.find? key).isSome then none
    else some (inner.set key value)) path t

def openTable (path : List String) (key : String) (t : Table) : Option Table :=
  update false (fun outer =>
    match outer.find? key with
    | none => some (outer.set key (.table .header []))
    | some (.table .implied entries) => some (outer.set key (.table .header entries))
    | some _ => none) path t

def openNext (path : List String) (key : String) (t : Table) : Option Table :=
  update false (fun outer =>
    match outer.find? key with
    | none => some (outer.set key (.tables [] []))
    | some (.tables earlier last) => some (outer.set key (.tables (earlier ++ [last]) []))
    | some _ => none) path t

end Table

end XmlPipeline.Toml
