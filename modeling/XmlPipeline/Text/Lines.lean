set_option autoImplicit false

namespace XmlPipeline.Text

/-- A text cut behind each line feed. The last part has none, and is not empty. -/
def splitLines : List Char → List (List Char)
  | [] => []
  | c :: cs =>
    if c = '\n' then ['\n'] :: splitLines cs
    else
      match splitLines cs with
      | [] => [[c]]
      | line :: rest => (c :: line) :: rest

def withoutEnd (line : List Char) : List Char :=
  match line.reverse with
  | '\n' :: '\r' :: rest => rest.reverse
  | '\n' :: rest => rest.reverse
  | _ => line

def lines (text : String) : List String :=
  (splitLines text.toList).map fun line => String.ofList (withoutEnd line)

def unlines (lines : List String) : String := String.join (lines.map (· ++ "\n"))

def hasPart (part : List Char) : List Char → Bool
  | [] => part.isEmpty
  | c :: cs => part.isPrefixOf (c :: cs) || hasPart part cs

/-- The text without `ending` at its end, however often it stands there. -/
def dropEnding (ending : List Char) (cs : List Char) : List Char :=
  if _h : ending ≠ [] ∧ ending.isSuffixOf cs then
    dropEnding ending (cs.take (cs.length - ending.length))
  else cs
termination_by cs.length
decreasing_by
  obtain ⟨t, rfl⟩ := List.isSuffixOf_iff_suffix.1 _h.2
  have := List.length_pos_iff.2 _h.1
  simp only [List.length_take, List.length_append]
  omega

theorem flatten_splitLines (cs : List Char) : (splitLines cs).flatten = cs := by
  induction cs with
  | nil => rfl
  | cons c cs ih =>
    rw [splitLines]
    split
    · next h => simp [ih, h]
    · split <;> simp_all

end XmlPipeline.Text
