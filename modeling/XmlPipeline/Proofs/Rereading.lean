import XmlPipeline.Proofs.Building
import XmlPipeline.Proofs.Offences
import XmlPipeline.Proofs.References
import XmlPipeline.Proofs.Writing
set_option autoImplicit false

/-!
Rereading: what comes of a source that a program was written into. Main statement: parsing it gives
the program back, with each span where the start tag stands.
-/

namespace XmlPipeline.Markup

theorem resolveFrom_escaped (cs : List Char) (offset : Nat) :
    resolveFrom offset (cs.flatMap escaped) = .ok cs := by
  induction cs generalizing offset with
  | nil => rw [List.flatMap_nil, resolveFrom]
  | cons c cs ih =>
    rw [List.flatMap_cons]
    by_cases hamp : c = '&'
    · subst hamp
      have hc : cutReference ("amp;".toList ++ cs.flatMap escaped) =
          some ("amp".toList, cs.flatMap escaped) := rfl
      show resolveFrom offset ('&' :: ("amp;".toList ++ cs.flatMap escaped)) = _
      rw [resolveFrom_reference hc rfl, ih, Except.map]
    by_cases hlt : c = '<'
    · subst hlt
      have hc : cutReference ("lt;".toList ++ cs.flatMap escaped) =
          some ("lt".toList, cs.flatMap escaped) := rfl
      show resolveFrom offset ('&' :: ("lt;".toList ++ cs.flatMap escaped)) = _
      rw [resolveFrom_reference hc rfl, ih, Except.map]
    · rw [escaped, if_neg hamp, if_neg hlt, List.singleton_append, resolveFrom_of_ne hamp, ih,
        Except.map]

/-- Texts of all characters can be written, the empty text as no run at all. -/
theorem resolve_escaped (text : String) :
    resolve (String.ofList (text.toList.flatMap escaped)) = .ok text := by
  rw [resolve, String.toList_ofList, resolveFrom_escaped, Except.map, String.ofList_toList]

end XmlPipeline.Markup

namespace XmlPipeline
open Markup (Span Node Element Reads opening escaped)

theorem Tag.plain_name (tag : Tag) : Markup.Plain tag.name := by
  rcases tag with s | a
  · cases s <;> exact ⟨by decide, by decide⟩
  · cases a <;> exact ⟨by decide, by decide⟩

namespace Instruction

mutual

def node : Instruction → Node
  | .block scope span body => .element scope.name span (nodes body)
  | .act action span payload =>
    .element action.name span (if payload = "" then [] else [.text payload])

def nodes : List Instruction → List Node
  | [] => []
  | i :: rest => i.node :: nodes rest

end

theorem reads_written_act (action : Action) (span : Span) (payload : String)
    (names : List String) (offset : Nat) :
    Reads names offset (written (.act action span payload))
      (placed offset (.act action span payload)).node.marks names := by
  have hp : Markup.Plain action.name := Tag.plain_name (.action action)
  rw [written, placed, node, Node.marks]
  apply Reads.element hp
  by_cases h : payload = ""
  · subst h
    exact Markup.reads_closing hp names _
  · have hne : payload.toList.flatMap escaped ≠ [] := by
      cases hl : payload.toList with
      | nil => exact absurd (String.toList_inj.1 hl) h
      | cons c cs => simp [Markup.escaped_ne_nil]
    rw [if_neg h, Node.marksAll_singleton, Node.marks]
    exact Markup.reads_run_closing hp names _ hne (Markup.not_mem_escaped _)
      (Markup.resolve_escaped payload)

mutual

/-- Reading what is written gives the marks of the element, wherever it stands. -/
theorem reads_written (i : Instruction) (names : List String) (offset : Nat) :
    Reads names offset i.written (i.placed offset).node.marks names := by
  cases i with
  | block scope span body =>
    have hp : Markup.Plain scope.name := Tag.plain_name (.scope scope)
    rw [written, placed, node, Node.marks]
    apply Reads.element hp
    exact (reads_writtenAll body (scope.name :: names) _).append (Markup.reads_closing hp names _)
  | act action span payload => exact reads_written_act action span payload names offset

theorem reads_writtenAll (is : List Instruction) (names : List String) (offset : Nat) :
    Reads names offset (writtenAll is) (Node.marksAll (nodes (placedAll offset is))) names := by
  cases is with
  | nil =>
    rw [placedAll]
    exact Reads.nil names offset
  | cons i rest =>
    rw [writtenAll, placedAll, nodes, Node.marksAll]
    exact (reads_written i names offset).append (reads_writtenAll rest names _)

end

mutual

theorem ofNode_node (i : Instruction) : ofNode i.node = .ok [i] := by
  cases i with
  | block scope span body =>
    have ht : Tag.ofName? scope.name = some (.scope scope) := Tag.ofName?_eq_some_iff.2 rfl
    rw [node, ofNode, ofNodes_nodes body]
    simp [assemble, ht, Except.map]
  | act action span payload =>
    have ht : Tag.ofName? action.name = some (.action action) := Tag.ofName?_eq_some_iff.2 rfl
    rw [node, ofNode]
    by_cases h : payload = ""
    · simp [assemble, ht, h, Except.map, Markup.elements, Markup.ownText, Markup.ownText?]
    · simp [assemble, ht, h, Except.map, Markup.elements, Node.element?, Markup.ownText,
        Markup.ownText?, Node.text?, String.join]

theorem ofNodes_nodes (is : List Instruction) : ofNodes (nodes is) = .ok is := by
  cases is with
  | nil => rw [nodes, ofNodes]
  | cons i rest =>
    rw [nodes, ofNodes, ofNode_node i, ofNodes_nodes rest]
    rfl

end

theorem exists_element (i : Instruction) : ∃ e : Element, e.node = i.node := by
  cases i with
  | block scope span body => exact ⟨⟨scope.name, span, nodes body⟩, by rw [node, Element.node]⟩
  | act action span payload => exact ⟨⟨action.name, span, _⟩, by rw [node, Element.node]⟩

theorem ofElement_of_node_eq {e : Element} {i : Instruction} (h : e.node = i.node) :
    ofElement e = .ok i := by
  have hn := ofNode_element e
  rw [h, ofNode_node] at hn
  rw [ofElement]
  cases ha : assemble e (ofNodes e.children) with
  | error fault => simp [ha, Except.map] at hn
  | ok j =>
    rw [ha] at hn
    simpa [Except.map] using hn.symm

theorem withoutMark_written (i : Instruction) : Markup.withoutMark i.written = i.written := by
  cases i <;> rw [written, opening] <;> rfl

theorem parseDocument_of_reads {e : Element} {text : List Char}
    (noMark : Markup.withoutMark text = text) (h : Reads [] 0 text e.marks []) :
    Markup.parseDocument (String.ofList text) = .ok e := by
  obtain ⟨events, hread, hres, hms⟩ := h
  have hr : Markup.read (String.ofList text) = ⟨events, none⟩ := by
    have hnil := hread []
    rw [List.append_nil, Markup.Reading.from.eq_1] at hnil
    rw [Markup.read, String.toList_ofList, noMark, hnil]
    simp [Markup.Reading.after]
  apply Markup.parseDocument_eq_ok.2
  rw [hr, Markup.Builder.finish_run_iff, hms]
  have hv := e.significant_marks 0 []
  rw [List.append_nil, Markup.significant, List.append_nil] at hv
  exact ⟨rfl, hres, hv⟩

theorem parseDocument_write {e : Element} {i : Instruction} (h : e.node = (i.placed 0).node) :
    Markup.parseDocument i.write = .ok e := by
  have hreads := reads_written i [] 0
  rw [← h] at hreads
  exact parseDocument_of_reads (withoutMark_written i) hreads

theorem checkRoot_of_not_empty {i : Instruction}
    (h : ¬ (i.tag = .scope .pipeline ∧ i.children = [])) : checkRoot i = .ok i := by
  unfold checkRoot
  split
  · exact absurd ⟨rfl, rfl⟩ h
  · rfl

theorem parse_write_eq {i : Instruction} (h : ¬ (i.tag = .scope .pipeline ∧ i.children = []))
    (source : Nat) : Program.parse i.write source = .ok ⟨i.placed 0, source⟩ := by
  obtain ⟨e, he⟩ := exists_element (i.placed 0)
  have hc : checkRoot (i.placed 0) = .ok (i.placed 0) := by
    apply checkRoot_of_not_empty
    rintro ⟨ht, hn⟩
    apply h
    cases i with
    | block scope span body =>
      refine ⟨ht, ?_⟩
      cases body with
      | nil => rfl
      | cons i rest => simp [placed, placedAll, children] at hn
    | act action span payload => simp [placed, tag] at ht
  exact Program.parse_eq_ok_iff.2
    ⟨rfl, e, parseDocument_write he, ofElement_of_node_eq he, hc⟩

/-- Nothing of a program is lost when it is written, but for the spans that it had before. -/
theorem parse_write (i : Instruction) (h : ¬ (i.tag = .scope .pipeline ∧ i.children = []))
    (source : Nat) :
    Program.parse i.write source = .ok ⟨i.placed 0, source⟩ ∧
      (i.placed 0).withoutSpans = i.withoutSpans ∧
      ∀ entry ∈ (i.placed 0).preorder, StandsIn i.written 0 entry.2 :=
  ⟨parse_write_eq h source, withoutSpans_placed i 0,
    fun _ he => standsIn_of_mem_preorderFrom i 0 0 he⟩

theorem parse_write_nested :
    ¬ ((block .pipeline ⟨9, 9⟩ [block .step ⟨0, 0⟩ [], act .print ⟨3, 1⟩ "é<&\n"]).tag =
        .scope .pipeline ∧
      (block .pipeline ⟨9, 9⟩ [block .step ⟨0, 0⟩ [], act .print ⟨3, 1⟩ "é<&\n"]).children =
        []) ∧
    Program.parse
        (block .pipeline ⟨9, 9⟩ [block .step ⟨0, 0⟩ [], act .print ⟨3, 1⟩ "é<&\n"]).write 7 =
      .ok ⟨block .pipeline ⟨0, 10⟩ [block .step ⟨10, 16⟩ [], act .print ⟨23, 30⟩ "é<&\n"],
        7⟩ := by
  have h : ¬ ((block .pipeline ⟨9, 9⟩ [block .step ⟨0, 0⟩ [], act .print ⟨3, 1⟩ "é<&\n"]).tag =
        .scope .pipeline ∧
      (block .pipeline ⟨9, 9⟩ [block .step ⟨0, 0⟩ [], act .print ⟨3, 1⟩ "é<&\n"]).children =
        []) := by
    simp [children]
  exact ⟨h, (parse_write _ h 7).1⟩

end Instruction

end XmlPipeline
