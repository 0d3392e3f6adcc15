import XmlPipeline.Markup.Item
import XmlPipeline.Markup.Span
set_option autoImplicit false

/-!
Reading: a source as a sequence of events, each with the bytes it was read from. The names of the
elements that are open are kept, so that an end tag is reported only where it closes the innermost
of them. Main statement: the spans of the events follow one another without a gap.
-/

namespace XmlPipeline.Markup

inductive Event where
  | start (name : String)
  | empty (name : String)
  | finish (name : String)
  /-- Characters whose references are not resolved yet. -/
  | text (run : String)
  | verbatim (content : String)
  /-- A comment, a processing instruction, a declaration or a document type. -/
  | aside
  deriving DecidableEq, Repr

def tagName (content : List Char) : String := String.ofList (content.takeWhile (!isSpace ·))

/-- Blanks after the name do not count, unless there is nothing else. -/
def closeName (content : List Char) : String :=
  if content.all isSpace then String.ofList content
  else String.ofList (content.reverse.dropWhile isSpace).reverse

/-- The event that an item is, and the open names after it, innermost first. -/
def Item.event (names : List String) : Item → Except SyntaxFault (Event × List String)
  | .run text => .ok (.text (String.ofList text), names)
  | .tag content =>
    if content.getLast? = some '/' then .ok (.empty (tagName content.dropLast), names)
    else .ok (.start (tagName content), tagName content :: names)
  | .close content =>
    match names with
    | [] => .error (.unmatchedEnd (closeName content))
    | name :: outer =>
      if closeName content = name then .ok (.finish name, outer)
      else .error (.mismatchedEnd name (closeName content))
  | .verbatim content => .ok (.verbatim (String.ofList content), names)
  | .comment _ | .instruction _ | .doctype _ => .ok (.aside, names)

/-- All events up to the end of the source, or up to a fault and its offset. -/
structure Reading where
  events : List (Located Event)
  fault : Option (SyntaxFault × Nat)
  deriving DecidableEq, Repr

def Reading.from (names : List String) (offset : Nat) : List Char → Reading
  | [] => ⟨[], none⟩
  | c :: cs =>
    match h : Item.next c cs with
    | .error defect => ⟨[], some (defect.fault, offset + defect.ahead)⟩
    | .ok (item, rest) =>
      match item.event names with
      | .error fault => ⟨[], some (fault, offset)⟩
      | .ok (event, names) =>
        have := Item.length_next h
        let stop := offset + Text.size item.spelling
        let later := Reading.from names stop rest
        ⟨⟨event, offset, stop⟩ :: later.events, later.fault⟩
termination_by cs => cs.length
decreasing_by exact this

/-- The spans follow one another from byte `offset` on without a gap, and none is empty. -/
def Adjoining (offset : Nat) : List (Located Event) → Prop
  | [] => True
  | e :: later => e.span.start = offset ∧ offset < e.span.stop ∧ Adjoining e.span.stop later

theorem adjoining_from (names : List String) (offset : Nat) (cs : List Char) :
    Adjoining offset (Reading.from names offset cs).events := by
  fun_induction Reading.from names offset cs with
  | case1 => simp [Adjoining]
  | case2 => simp [Adjoining]
  | case3 => simp [Adjoining]
  | case4 names offset c cs item rest h event names' he _ stop later ih =>
    have := Text.size_pos (Item.spelling_ne_nil h)
    refine ⟨rfl, ?_, ih⟩
    show offset < offset + Text.size item.spelling
    omega

def withoutMark : List Char → List Char
  | '\uFEFF' :: cs => cs
  | cs => cs

def read (source : String) : Reading := .from [] 0 (withoutMark source.toList)

end XmlPipeline.Markup
