import XmlPipeline.Log.Directive
set_option autoImplicit false

namespace XmlPipeline.Log

def decisive (r : Record) (ds : List Directive) : Option Directive :=
  (ds.filter (·.fits r)).foldl (fun best d =>
    match best with
    | none => some d
    | some b => if d.supersedes b then some d else some b) none

structure Filter where
  directives : List Directive
  deriving Repr

namespace Filter

def standard : Filter := ⟨[{ verbosity := 2 }]⟩

def parts : List Char → List (List Char)
  | [] => [[]]
  | c :: cs =>
    match parts cs with
    | [] => [[c]]
    | p :: ps => if c = ',' then [] :: p :: ps else (c :: p) :: ps

/-- A filter without directives lets nothing through. The first faulty directive spoils all. -/
def read (text : String) : Except DirectiveFault Filter :=
  (((parts text.toList).filter (· ≠ [])).mapM Directive.read).map (⟨·⟩)

/-- The filter that a setting asks for. It is the standard one if the setting is malformed, and
there is none if the setting cannot be taken apart. -/
def ofVariable? (setting : Option String) : Option Filter :=
  match setting.map read with
  | none | some (.error .malformed) => some standard
  | some (.ok filter) => some filter
  | some (.error .cutCharacter) => none

def allows (f : Filter) (r : Record) : Bool :=
  match decisive r f.directives with
  | some d => r.level.verbosity ≤ d.verbosity
  | none => false

end Filter

end XmlPipeline.Log
