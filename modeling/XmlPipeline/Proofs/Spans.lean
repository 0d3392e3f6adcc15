import Mathlib
import XmlPipeline.Proofs.Building
import XmlPipeline.Proofs.Offences
import XmlPipeline.Proofs.Places
set_option autoImplicit false

/-!
Spans: where the instructions of a program stand. Main statement: each span of a program that was
parsed covers one whole tag of that instruction's name, and the tags come in the order in which the
instructions do.
-/

namespace XmlPipeline
open Markup (Span Located Node Element Mark Event elements TagAt)

mutual

theorem filterMap_marks (n : Node) (within : Option Action) :
    n.marks.filterMap Mark.entered? = (Visit.ofNode within n).map fun v => (v.name, v.span) := by
  cases n with
  | text content => rw [Node.marks, Visit.ofNode]; rfl
  | element name span children =>
    have ih := filterMap_marksAll children (Tag.action? (Tag.ofName? name))
    rw [Node.marks, Visit.ofNode, List.map_cons, ← ih, List.filterMap_cons, List.filterMap_append]
    simp [Mark.entered?]

theorem filterMap_marksAll (nodes : List Node) (within : Option Action) :
    (Node.marksAll nodes).filterMap Mark.entered? =
      (Visit.ofNodes within nodes).map fun v => (v.name, v.span) := by
  cases nodes with
  | nil => rw [Node.marksAll, Visit.ofNodes]; rfl
  | cons n rest =>
    rw [Node.marksAll, Visit.ofNodes, List.filterMap_append, List.map_append,
      filterMap_marks n within, filterMap_marksAll rest within]

end

theorem filterMap_marksAll_of_elements_eq_nil {nodes : List Node} (h : elements nodes = []) :
    (Node.marksAll nodes).filterMap Mark.entered? = [] := by
  have hv := Visit.head?_ofNodes none nodes
  rw [h, List.head?_nil, Option.map_none, List.head?_eq_none_iff] at hv
  rw [filterMap_marksAll nodes none, hv, List.map_nil]

def Instruction.label (entry : Nat × Instruction) : String × Span :=
  (entry.2.tag.name, entry.2.span)

mutual

theorem filterMap_marks_of_mirrors (n : Node) (i : Instruction) (depth : Nat) (h : Mirrors n i) :
    n.marks.filterMap Mark.entered? = (i.preorderFrom depth).map Instruction.label := by
  cases n with
  | text content => cases i <;> exact absurd h (by simp [Mirrors])
  | element name span children =>
    cases i with
    | block scope span' body =>
      obtain ⟨rfl, rfl, hb⟩ := h
      have ih := filterMap_marksAll_of_mirrorsAll children body (depth + 1) hb
      rw [Node.marks, Instruction.preorderFrom, List.map_cons, ← ih, List.filterMap_cons,
        List.filterMap_append]
      simp [Mark.entered?, Instruction.label, Instruction.tag, Instruction.span, Tag.name]
    | act action span' payload =>
      obtain ⟨rfl, rfl, he, _⟩ := h
      have hc := filterMap_marksAll_of_elements_eq_nil he
      rw [Node.marks, Instruction.preorderFrom, List.filterMap_cons, List.filterMap_append, hc]
      rfl

theorem filterMap_marksAll_of_mirrorsAll (nodes : List Node) (is : List Instruction) (depth : Nat)
    (h : MirrorsAll nodes is) : (Node.marksAll nodes).filterMap Mark.entered? =
      (Instruction.preorderAll depth is).map Instruction.label := by
  cases nodes with
  | nil =>
    cases h
    rw [Node.marksAll, Instruction.preorderAll]
    rfl
  | cons n rest =>
    cases n with
    | text content =>
      have ih := filterMap_marksAll_of_mirrorsAll rest is depth h
      rw [Node.marksAll, Node.marks, List.filterMap_append, ih]
      rfl
    | element name span children =>
      cases is with
      | nil => cases h
      | cons i is =>
        obtain ⟨hi, his⟩ := h
        rw [Node.marksAll, Instruction.preorderAll, List.filterMap_append, List.map_append,
          filterMap_marks_of_mirrors (.element name span children) i depth hi,
          filterMap_marksAll_of_mirrorsAll rest is depth his]

end

theorem filterMap_marks_of_parseDocument {text : String} {root : Element}
    (h : Markup.parseDocument text = .ok root) :
    root.node.marks.filterMap Mark.entered? =
      (Markup.read text).events.filterMap Event.opened? := by
  obtain ⟨_, b, hrun, hfin⟩ := Markup.parseDocument_eq_ok.1 h
  obtain ⟨hm, _⟩ := Markup.Builder.marks_run hrun
  have hr := Markup.Builder.marks_of_finish hfin
  have hs : Markup.significant 0 ((Markup.read text).events.flatMap Event.marks) = root.marks := by
    rw [← hr, hm]
    rfl
  rw [← Element.marks, ← hs, Markup.filterMap_significant, Event.filterMap_flatMap_marks]

theorem Program.label_preorder {text : String} {source : Nat} {program : Program}
    (h : parse text source = .ok program) : program.root.preorder.map Instruction.label =
      (Markup.read text).events.filterMap Event.opened? := by
  obtain ⟨_, root, hd, hi, _⟩ := parse_eq_ok_iff.1 h
  have hm := (Instruction.judges_ofElement root).shape _ hi
  rw [Instruction.preorder, ← filterMap_marks_of_mirrors root.node program.root 0 hm,
    filterMap_marks_of_parseDocument hd]

/-- A byte order mark is not counted in a span, and is passed over to get at its bytes. -/
theorem spans_designate_tags (text : String) (source : Nat) (program : Program)
    (h : Program.parse text source = .ok program) :
    (∀ entry ∈ program.root.preorder, TagAt text entry.2.tag.name entry.2.span) ∧
      program.root.preorder.Pairwise fun a b =>
        a.2.span.start < b.2.span.start ∧ a.2.span.stop ≤ b.2.span.start := by
  have hl := Program.label_preorder h
  constructor
  · intro entry he
    apply Markup.tagAt_of_mem_opened
    rw [← hl]
    exact List.mem_map.2 ⟨entry, he, rfl⟩
  · have hp := Markup.pairwise_opened text
    rw [← hl, List.pairwise_map] at hp
    exact hp

theorem spans_designate_tags_quoted :
    Program.parse "\uFEFF<pipeline a='>'> <print/></pipeline>" 4 =
      .ok ⟨.block .pipeline ⟨0, 16⟩ [.act .print ⟨17, 25⟩ ""], 4⟩ ∧
    TagAt "\uFEFF<pipeline a='>'> <print/></pipeline>" "pipeline" ⟨0, 16⟩ ∧
    TagAt "\uFEFF<pipeline a='>'> <print/></pipeline>" "print" ⟨17, 25⟩ := by
  have h : Program.parse "\uFEFF<pipeline a='>'> <print/></pipeline>" 4 =
      .ok ⟨.block .pipeline ⟨0, 16⟩ [.act .print ⟨17, 25⟩ ""], 4⟩ := by
    cbv
  have htags := (spans_designate_tags _ _ _ h).1
  refine ⟨h, ?_, ?_⟩
  · exact htags (0, .block .pipeline ⟨0, 16⟩ [.act .print ⟨17, 25⟩ ""]) (.head _)
  · exact htags (1, .act .print ⟨17, 25⟩ "") (.tail _ (.head _))

end XmlPipeline
