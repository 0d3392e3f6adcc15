set_option autoImplicit false

namespace XmlPipeline.Markup

/-- The bytes from `start` up to, and without, `stop`. -/
structure Span where
  start : Nat
  stop : Nat
  deriving DecidableEq, Repr, Inhabited

def Span.point (offset : Nat) : Span := ⟨offset, offset⟩

structure Located (α : Type) where
  value : α
  span : Span
  deriving DecidableEq, Repr

end XmlPipeline.Markup
