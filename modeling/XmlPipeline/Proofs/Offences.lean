import XmlPipeline.Program.Visit
set_option autoImplicit false

/-!
Offences: what makes an element tree no program. Main statement: a tree is classified exactly if no
visit of it is an offence, and otherwise the fault is the first offence in document order.
-/

namespace XmlPipeline.Markup

@[simp] theorem elements_nil : elements [] = [] := rfl

@[simp] theorem elements_cons_text (content : String) (nodes : List Node) :
    elements (.text content :: nodes) = elements nodes := rfl

@[simp] theorem elements_cons_element (name : String) (span : Span) (children nodes : List Node) :
    elements (.element name span children :: nodes) = ⟨name, span, children⟩ :: elements nodes :=
  rfl

theorem ownText_eq_join (nodes : List Node) :
    ownText nodes = String.join (nodes.filterMap Node.text?) := by
  rw [ownText, ownText?]
  split
  · next h => rw [h]; rfl
  · rfl

end XmlPipeline.Markup

namespace XmlPipeline
open Markup (Span Located Node Element elements ownText)

/-- An unknown name is reported before the place that it stands in. -/
def Visit.fault (v : Visit) : Located Program.Fault :=
  match Tag.ofName? v.name, v.within with
  | some _, some parent => ⟨.actionWithChildren parent v.name, v.span⟩
  | _, _ => ⟨.unknownTag v.name, v.span⟩

mutual

/-- The instruction is drawn like the element: the same names, the same places, nothing left out but
the texts in scopes. The payload of an action is all the text that stands in it directly. -/
def Mirrors : Node → Instruction → Prop
  | .element name span children, .block scope span' body =>
    scope.name = name ∧ span' = span ∧ MirrorsAll children body
  | .element name span children, .act action span' payload =>
    action.name = name ∧ span' = span ∧ elements children = [] ∧
      payload = String.join (children.filterMap Node.text?)
  | .text _, _ => False

def MirrorsAll : List Node → List Instruction → Prop
  | [], is => is = []
  | .text _ :: rest, is => MirrorsAll rest is
  | .element .. :: _, [] => False
  | .element name span children :: rest, i :: is =>
    Mirrors (.element name span children) i ∧ MirrorsAll rest is

end

structure Judges {α : Type} (visits : List Visit) (result : Except (Located Program.Fault) α)
    (Shape : α → Prop) : Prop where
  ok_iff : (∃ a, result = .ok a) ↔ ∀ v ∈ visits, v.isOffence = false
  error_iff : ∀ fault, result = .error fault ↔
    ∃ v, visits.find? Visit.isOffence = some v ∧ fault = v.fault
  shape : ∀ a, result = .ok a → Shape a

section
variable {α : Type} {visits : List Visit} {result : Except (Located Program.Fault) α}
  {Shape : α → Prop}

theorem judges_of_find?
    (herr : ∀ v, visits.find? Visit.isOffence = some v → result = .error v.fault)
    (hok : visits.find? Visit.isOffence = none → ∃ a, result = .ok a ∧ Shape a) :
    Judges visits result Shape := by
  cases hf : visits.find? Visit.isOffence with
  | some v =>
    have hr := herr v hf
    have hv := List.find?_some hf
    have hm := List.mem_of_find?_eq_some hf
    refine ⟨?_, ?_, ?_⟩
    · simp only [hr, reduceCtorEq, exists_false, false_iff]
      intro hall
      rw [hall v hm] at hv
      exact Bool.noConfusion hv
    · intro fault
      simp [hr, hf, eq_comm]
    · simp [hr]
  | none =>
    obtain ⟨a, hr, hs⟩ := hok hf
    refine ⟨?_, ?_, ?_⟩
    · simpa [hr] using hf
    · simp [hr, hf]
    · intro a' h
      rw [hr] at h
      cases h
      exact hs

theorem Judges.error_of_find? (j : Judges visits result Shape) {v : Visit}
    (h : visits.find? Visit.isOffence = some v) : result = .error v.fault :=
  (j.error_iff v.fault).2 ⟨v, h, rfl⟩

theorem Judges.ok_of_find? (j : Judges visits result Shape)
    (h : visits.find? Visit.isOffence = none) : ∃ a, result = .ok a ∧ Shape a := by
  obtain ⟨a, ha⟩ := j.ok_iff.2 (by simpa using h)
  exact ⟨a, ha, j.shape a ha⟩

end

theorem Visit.head?_ofNodes (within : Option Action) (nodes : List Node) :
    (Visit.ofNodes within nodes).head? =
      (elements nodes).head?.map fun e => ⟨e.name, e.span, within⟩ := by
  induction nodes with
  | nil => rfl
  | cons n rest ih =>
    cases n with
    | text content => exact ih
    | element name span children => simp [Visit.ofNodes, Visit.ofNode]

theorem Visit.fault_of_within {v : Visit} {parent : Action} (h : v.within = some parent)
    (children : List Node) :
    v.fault = ⟨.ofChild parent ⟨v.name, v.span, children⟩, v.span⟩ := by
  cases ht : Tag.ofName? v.name <;> simp [fault, h, ht, Program.Fault.ofChild]

/-- Elements in an action are all offences, so the first of them is the first offence. -/
theorem Visit.find?_ofNodes_within (parent : Action) (nodes : List Node) :
    (Visit.ofNodes (some parent) nodes).find? Visit.isOffence =
      (elements nodes).head?.map fun e => ⟨e.name, e.span, some parent⟩ := by
  rw [← Visit.head?_ofNodes]
  cases hv : Visit.ofNodes (some parent) nodes with
  | nil => rfl
  | cons v later =>
    have hh := Visit.head?_ofNodes (some parent) nodes
    rw [hv, List.head?_cons, eq_comm, Option.map_eq_some_iff] at hh
    obtain ⟨e, _, rfl⟩ := hh
    simp [Visit.isOffence]

theorem Visit.ofNode_node (e : Element) :
    Visit.ofNode none e.node =
      ⟨e.name, e.span, none⟩ :: Visit.ofNodes (Tag.action? (Tag.ofName? e.name)) e.children := by
  rw [Element.node, Visit.ofNode]

namespace Instruction

theorem judges_assemble {e : Element} {body : Except (Located Program.Fault) (List Instruction)}
    (j : Judges (Visit.ofNodes none e.children) body (MirrorsAll e.children)) :
    Judges (Visit.ofNode none e.node) (assemble e body) (Mirrors e.node) := by
  rw [Visit.ofNode_node]
  cases ht : Tag.ofName? e.name with
  | none =>
    have ho : Visit.isOffence ⟨e.name, e.span, none⟩ = true := by simp [Visit.isOffence, ht]
    apply judges_of_find?
    · intro v hv
      rw [List.find?_cons_of_pos ho, Option.some.injEq] at hv
      subst hv
      simp [assemble, ht, Visit.fault]
    · intro hv
      rw [List.find?_cons_of_pos ho] at hv
      simp at hv
  | some tag =>
    have ho : ¬ Visit.isOffence ⟨e.name, e.span, none⟩ = true := by simp [Visit.isOffence, ht]
    have hname := Tag.ofName?_eq_some_iff.1 ht
    cases tag with
    | scope scope =>
      apply judges_of_find?
      · intro v hv
        rw [List.find?_cons_of_neg ho] at hv
        simp [assemble, ht, j.error_of_find? hv, Except.map]
      · intro hv
        rw [List.find?_cons_of_neg ho] at hv
        obtain ⟨is, hr, hs⟩ := j.ok_of_find? hv
        refine ⟨.block scope e.span is, ?_, hname, rfl, hs⟩
        simp [assemble, ht, hr, Except.map]
    | action action =>
      apply judges_of_find?
      · intro v hv
        rw [List.find?_cons_of_neg ho, Tag.action?, Visit.find?_ofNodes_within,
          Option.map_eq_some_iff] at hv
        obtain ⟨child, hc, rfl⟩ := hv
        have hf := Visit.fault_of_within (v := ⟨child.name, child.span, some action⟩) rfl
          child.children
        simp [assemble, ht, hc, hf]
      · intro hv
        rw [List.find?_cons_of_neg ho, Tag.action?, Visit.find?_ofNodes_within,
          Option.map_eq_none_iff] at hv
        refine ⟨.act action e.span (ownText e.children), ?_, hname, rfl, ?_, ?_⟩
        · simp [assemble, ht, hv]
        · exact List.head?_eq_none_iff.1 hv
        · exact Markup.ownText_eq_join e.children

theorem ofNodes_cons_text (content : String) (rest : List Node) :
    ofNodes (.text content :: rest) = ofNodes rest := by
  rw [ofNodes, ofNode]
  cases h : ofNodes rest <;> simp [Except.map]

theorem ofNode_element (e : Element) :
    ofNode e.node = (assemble e (ofNodes e.children)).map ([·]) := by
  rw [Element.node, ofNode]

theorem judges_ofNodes_cons_element {e : Element} {rest : List Node}
    (je : Judges (Visit.ofNode none e.node) (assemble e (ofNodes e.children)) (Mirrors e.node))
    (jr : Judges (Visit.ofNodes none rest) (ofNodes rest) (MirrorsAll rest)) :
    Judges (Visit.ofNodes none (e.node :: rest)) (ofNodes (e.node :: rest))
      (MirrorsAll (e.node :: rest)) := by
  rw [Visit.ofNodes, ofNodes, ofNode_element]
  apply judges_of_find?
  · intro v hv
    rw [List.find?_append] at hv
    cases hf : (Visit.ofNode none e.node).find? Visit.isOffence with
    | some u =>
      simp only [hf, Option.some_or, Option.some.injEq] at hv
      subst hv
      simp [je.error_of_find? hf, Except.map]
    | none =>
      simp only [hf, Option.none_or] at hv
      obtain ⟨i, hi, _⟩ := je.ok_of_find? hf
      simp [hi, jr.error_of_find? hv, Except.map]
  · intro hv
    rw [List.find?_append, Option.or_eq_none_iff] at hv
    obtain ⟨i, hi, hm⟩ := je.ok_of_find? hv.1
    obtain ⟨is, his, hms⟩ := jr.ok_of_find? hv.2
    refine ⟨i :: is, ?_, hm, hms⟩
    simp [hi, his, Except.map]

theorem judges_ofNodes (nodes : List Node) :
    Judges (Visit.ofNodes none nodes) (ofNodes nodes) (MirrorsAll nodes) := by
  cases nodes with
  | nil =>
    apply judges_of_find?
    · simp [Visit.ofNodes]
    · intro _
      exact ⟨[], by rw [ofNodes], rfl⟩
  | cons n rest =>
    have jr := judges_ofNodes rest
    cases n with
    | text content =>
      rw [ofNodes_cons_text]
      exact jr
    | element name span children =>
      exact judges_ofNodes_cons_element (e := ⟨name, span, children⟩)
        (judges_assemble (judges_ofNodes children)) jr

theorem judges_ofElement (e : Element) :
    Judges (Visit.ofNode none e.node) (ofElement e) (Mirrors e.node) :=
  judges_assemble (judges_ofNodes e.children)

theorem ofNodes_eq_ok_nil_iff (nodes : List Node) :
    ofNodes nodes = .ok [] ↔ elements nodes = [] := by
  induction nodes with
  | nil => simp [ofNodes]
  | cons n rest ih =>
    cases n with
    | text content => rw [ofNodes_cons_text, ih, Markup.elements_cons_text]
    | element name span children =>
      rw [ofNodes, ofNode]
      cases assemble ⟨name, span, children⟩ (ofNodes children) with
      | error fault => simp [Except.map]
      | ok i => cases ofNodes rest <;> simp [Except.map]

theorem ofName?_eq_pipeline_iff (name : String) :
    Tag.ofName? name = some (.scope .pipeline) ↔ name = "pipeline" := by
  rw [Tag.ofName?_eq_some_iff, eq_comm]
  rfl

theorem bind_checkRoot_ofElement (e : Element) :
    (ofElement e).bind checkRoot =
      if e.name = "pipeline" ∧ elements e.children = [] then .error ⟨.emptyPipeline, e.span⟩
      else ofElement e := by
  have hn := ofName?_eq_pipeline_iff e.name
  have hb := ofNodes_eq_ok_nil_iff e.children
  rw [ofElement]
  cases ht : Tag.ofName? e.name with
  | none => simp [assemble, ht, ← hn, Except.bind]
  | some tag =>
    cases tag with
    | action action =>
      cases hh : (elements e.children).head? <;>
        simp [assemble, ht, hh, ← hn, Except.bind, checkRoot]
    | scope scope =>
      cases hr : ofNodes e.children with
      | error fault => simp [assemble, ht, ← hb, hr, Except.map, Except.bind]
      | ok body =>
        cases scope <;> cases body <;>
          simp [assemble, ht, ← hn, ← hb, hr, Except.map, Except.bind, checkRoot]

theorem eq_of_checkRoot {i j : Instruction} (h : checkRoot i = .ok j) : i = j := by
  unfold checkRoot at h
  split at h
  · cases h
  · exact Except.ok.inj h

end Instruction

namespace Program

theorem parse_eq_ok_iff {text : String} {source : Nat} {program : Program} :
    parse text source = .ok program ↔ program.source = source ∧ ∃ root,
      Markup.parseDocument text = .ok root ∧ Instruction.ofElement root = .ok program.root ∧
        Instruction.checkRoot program.root = .ok program.root := by
  obtain ⟨i, number⟩ := program
  rw [parse]
  cases hd : Markup.parseDocument text with
  | error fault =>
    have hdocument : document text source = .error ⟨.markup fault.value, fault.span, source⟩ := by
      rw [document, hd]
      rfl
    simp [hdocument, Except.bind]
  | ok root =>
    have hdocument : document text source = .ok root := by
      rw [document, hd]
      rfl
    rw [hdocument]
    cases hi : Instruction.ofElement root with
    | error fault => simp [Except.bind, hi]
    | ok j =>
      cases hc : Instruction.checkRoot j with
      | error fault =>
        simp only [Except.bind, hi, hc, reduceCtorEq, Except.ok.injEq, false_iff, not_and,
          not_exists]
        rintro _ e rfl hj
        rw [hi, Except.ok.injEq] at hj
        subst hj
        simp [hc]
      | ok k =>
        obtain rfl := Instruction.eq_of_checkRoot hc
        simp only [Except.bind, hi, hc, Except.ok.injEq, Program.mk.injEq]
        constructor
        · rintro ⟨rfl, rfl⟩
          exact ⟨rfl, root, rfl, hi, hc⟩
        · rintro ⟨rfl, e, rfl, hj, _⟩
          rw [hi, Except.ok.injEq] at hj
          exact ⟨hj, rfl⟩

theorem parse_eq (text : String) (source : Nat) :
    parse text source = (document text source).bind fun root =>
      if root.name = "pipeline" ∧ elements root.children = [] then
        .error ⟨.emptyPipeline, root.span, source⟩
      else
        match Instruction.ofElement root with
        | .ok i => .ok ⟨i, source⟩
        | .error fault => .error ⟨fault.value, fault.span, source⟩ := by
  rw [parse]
  congr 1
  funext root
  rw [Instruction.bind_checkRoot_ofElement]
  by_cases h : root.name = "pipeline" ∧ elements root.children = []
  · simp [h]
  · cases Instruction.ofElement root <;> simp [h]

end Program

/-- The first offence in document order is the one that counts, whatever else is wrong further on.
The name of an element says nothing about the elements in it when they are classified alone. -/
theorem classification_by_first_offence (e : Element) (text : String) (source : Nat) :
    Judges (Visit.ofNode none e.node) (Instruction.ofElement e) (Mirrors e.node) ∧
    Judges (Visit.ofNodes none e.children) (Instruction.childrenOf e) (MirrorsAll e.children) ∧
    Program.parse text source = (Program.document text source).bind fun root =>
      if root.name = "pipeline" ∧ elements root.children = [] then
        .error ⟨.emptyPipeline, root.span, source⟩
      else
        match Instruction.ofElement root with
        | .ok i => .ok ⟨i, source⟩
        | .error fault => .error ⟨fault.value, fault.span, source⟩ :=
  ⟨Instruction.judges_ofElement e, Instruction.judges_ofNodes e.children,
    Program.parse_eq text source⟩

end XmlPipeline
