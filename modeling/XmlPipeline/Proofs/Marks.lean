import XmlPipeline.Markup.Document
set_option autoImplicit false

namespace XmlPipeline.Markup

inductive Mark where
  | enter (name : String) (span : Span)
  | text (content : String)
  | leave
  deriving DecidableEq, Repr

mutual

def Node.marks : Node → List Mark
  | .element name span children => .enter name span :: (Node.marksAll children ++ [.leave])
  | .text content => [.text content]

def Node.marksAll : List Node → List Mark
  | [] => []
  | n :: rest => n.marks ++ Node.marksAll rest

end

def Element.marks (e : Element) : List Mark := e.node.marks

theorem Element.marks_eq (e : Element) :
    e.marks = .enter e.name e.span :: (Node.marksAll e.children ++ [.leave]) := by
  rw [marks, node, Node.marks]

theorem Node.marksAll_append (a b : List Node) :
    Node.marksAll (a ++ b) = Node.marksAll a ++ Node.marksAll b := by
  induction a with
  | nil => rfl
  | cons n a ih => simp [Node.marksAll, ih]

theorem Node.marksAll_singleton (n : Node) : Node.marksAll [n] = n.marks := by
  simp [Node.marksAll]

mutual

theorem Node.marks_append_inj (n m : Node) {s t : List Mark} (h : n.marks ++ s = m.marks ++ t) :
    n = m ∧ s = t := by
  cases n with
  | element name span children =>
    cases m with
    | element name' span' children' =>
      simp only [Node.marks, List.cons_append, List.cons.injEq, Mark.enter.injEq,
        List.append_assoc, List.nil_append] at h
      obtain ⟨⟨rfl, rfl⟩, hrest⟩ := h
      obtain ⟨rfl, rfl⟩ := Node.marksAll_append_inj children children' hrest
      exact ⟨rfl, rfl⟩
    | text content => simp [Node.marks] at h
  | text content =>
    cases m with
    | element name span children => simp [Node.marks] at h
    | text content' =>
      simp only [Node.marks, List.cons_append, List.nil_append, List.cons.injEq,
        Mark.text.injEq] at h
      obtain ⟨rfl, rfl⟩ := h
      exact ⟨rfl, rfl⟩

theorem Node.marksAll_append_inj (ns ms : List Node) {s t : List Mark}
    (h : Node.marksAll ns ++ .leave :: s = Node.marksAll ms ++ .leave :: t) : ns = ms ∧ s = t := by
  cases ns with
  | nil =>
    cases ms with
    | nil =>
      simp only [Node.marksAll, List.nil_append, List.cons.injEq, true_and] at h
      exact ⟨rfl, h⟩
    | cons m ms => cases m <;> simp [Node.marksAll, Node.marks] at h
  | cons n ns =>
    cases ms with
    | nil => cases n <;> simp [Node.marksAll, Node.marks] at h
    | cons m ms =>
      simp only [Node.marksAll, List.append_assoc] at h
      obtain ⟨rfl, hrest⟩ := Node.marks_append_inj n m h
      obtain ⟨rfl, rfl⟩ := Node.marksAll_append_inj ns ms hrest
      exact ⟨rfl, rfl⟩

end

theorem Element.marks_append_inj {e f : Element} {s t : List Mark}
    (h : e.marks ++ s = f.marks ++ t) : e = f ∧ s = t := by
  obtain ⟨hn, hs⟩ := Node.marks_append_inj e.node f.node h
  cases e
  cases f
  simp only [Element.node, Node.element.injEq] at hn
  obtain ⟨rfl, rfl, rfl⟩ := hn
  exact ⟨rfl, hs⟩

/-- The marks that an event stands for. A run with a faulty reference has none. -/
def Event.marks : Located Event → List Mark
  | ⟨.start name, span⟩ => [.enter name span]
  | ⟨.empty name, span⟩ => [.enter name span, .leave]
  | ⟨.finish _, _⟩ => [.leave]
  | ⟨.text run, _⟩ =>
    match resolve run with
    | .ok content => [.text content]
    | .error _ => []
  | ⟨.verbatim content, _⟩ => [.text content]
  | ⟨.aside, _⟩ => []

def Event.Resolves (e : Located Event) : Prop :=
  ∀ run, e.value = .text run → ∃ content, resolve run = .ok content

/-- Leaves out the blank texts that stand in no element. `depth` elements are open at the start. -/
def significant : Nat → List Mark → List Mark
  | _, [] => []
  | depth, .enter name span :: rest => .enter name span :: significant (depth + 1) rest
  | depth, .leave :: rest => .leave :: significant (depth - 1) rest
  | 0, .text content :: rest =>
    if Text.allBlank content then significant 0 rest else .text content :: significant 0 rest
  | depth + 1, .text content :: rest => .text content :: significant (depth + 1) rest

mutual

theorem significant_marks (n : Node) (depth : Nat) (later : List Mark) :
    significant (depth + 1) (n.marks ++ later) = n.marks ++ significant (depth + 1) later := by
  cases n with
  | element name span children =>
    have h := significant_marksAll children (depth + 1) (.leave :: later)
    simp [Node.marks, significant, h]
  | text content => simp [Node.marks, significant]

theorem significant_marksAll (nodes : List Node) (depth : Nat) (later : List Mark) :
    significant (depth + 1) (Node.marksAll nodes ++ later) =
      Node.marksAll nodes ++ significant (depth + 1) later := by
  cases nodes with
  | nil => simp [Node.marksAll]
  | cons n rest =>
    rw [Node.marksAll, List.append_assoc, significant_marks, significant_marksAll,
      List.append_assoc]

end

theorem Element.significant_marks (e : Element) (depth : Nat) (later : List Mark) :
    significant depth (e.marks ++ later) = e.marks ++ significant depth later := by
  simp [marks_eq, significant, significant_marksAll]

end XmlPipeline.Markup
