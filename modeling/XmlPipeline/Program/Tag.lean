set_option autoImplicit false

namespace XmlPipeline

inductive Scope where
  | pipeline
  | input
  | step
  deriving DecidableEq, Repr

inductive Action where
  | file
  | print
  deriving DecidableEq, Repr

inductive Tag where
  | scope (scope : Scope)
  | action (action : Action)
  deriving DecidableEq, Repr

def Scope.name : Scope → String
  | .pipeline => "pipeline"
  | .input => "input"
  | .step => "step"

def Action.name : Action → String
  | .file => "file"
  | .print => "print"

namespace Tag

def name : Tag → String
  | .scope s => s.name
  | .action a => a.name

def all : List Tag :=
  [.scope .pipeline, .scope .input, .scope .step, .action .file, .action .print]

def ofName? (name : String) : Option Tag := all.find? (·.name = name)

theorem ofName?_eq_some_iff {name : String} {tag : Tag} :
    ofName? name = some tag ↔ tag.name = name := by
  constructor
  · intro h
    simpa [ofName?] using List.find?_some h
  · rintro rfl
    rcases tag with s | a
    · cases s <;> rfl
    · cases a <;> rfl

end Tag

end XmlPipeline
