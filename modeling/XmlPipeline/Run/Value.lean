set_option autoImplicit false

namespace XmlPipeline.Run

inductive Value where
  | unit
  | text (content : String)
  deriving DecidableEq, Repr

def Value.typeName : Value → String
  | .unit => "Unit"
  | .text _ => "String"

def Value.display : Value → String
  | .unit => "()"
  | .text content => content

end XmlPipeline.Run
