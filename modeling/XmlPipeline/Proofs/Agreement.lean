import Mathlib.Data.List.Forall2
import XmlPipeline.Proofs.Building
import XmlPipeline.Proofs.Offences
set_option autoImplicit false

namespace XmlPipeline
open Markup (Span Located Node Element Builder Event elements ownText)

namespace Instruction

mutual

def mapSpan (f : Span → Span) : Instruction → Instruction
  | .block scope span body => .block scope (f span) (mapSpanAll f body)
  | .act action span payload => .act action (f span) payload

def mapSpanAll (f : Span → Span) : List Instruction → List Instruction
  | [] => []
  | i :: rest => i.mapSpan f :: mapSpanAll f rest

end

theorem mapSpanAll_append (f : Span → Span) (a b : List Instruction) :
    mapSpanAll f (a ++ b) = mapSpanAll f a ++ mapSpanAll f b := by
  induction a with
  | nil => rfl
  | cons i a ih => simp [mapSpanAll, ih]

theorem checkRoot_mapSpan (f : Span → Span) {i : Instruction} (h : checkRoot i = .ok i) :
    checkRoot (i.mapSpan f) = .ok (i.mapSpan f) := by
  cases i with
  | act action span payload => rfl
  | block scope span body =>
    cases scope with
    | pipeline =>
      cases body with
      | nil => cases h
      | cons i rest => rfl
    | input => rfl
    | step => rfl

theorem ofNodes_append (a b : List Node) :
    ofNodes (a ++ b) = (ofNodes a).bind fun is => (ofNodes b).map (is ++ ·) := by
  induction a with
  | nil =>
    rw [List.nil_append, ofNodes]
    cases ofNodes b <;> rfl
  | cons n a ih =>
    rw [List.cons_append, ofNodes, ofNodes, ih]
    cases ofNode n with
    | error fault => rfl
    | ok is =>
      cases ofNodes a with
      | error fault => rfl
      | ok js => cases ofNodes b <;> simp [Except.map, Except.bind]

theorem ofNodes_texts (texts : List String) : ofNodes (texts.map Node.text) = .ok [] := by
  rw [ofNodes_eq_ok_nil_iff]
  induction texts with
  | nil => rfl
  | cons text texts ih => exact ih

theorem ofNodes_append_texts (nodes : List Node) (texts : List String) :
    ofNodes (nodes ++ texts.map Node.text) = ofNodes nodes := by
  rw [ofNodes_append, ofNodes_texts]
  cases ofNodes nodes <;> simp [Except.map, Except.bind]

end Instruction

namespace Markup

theorem ownText_append (a b : List Node) : ownText (a ++ b) = ownText a ++ ownText b := by
  simp only [ownText_eq_join, List.filterMap_append, String.join_append]

theorem ownText_texts (texts : List String) :
    ownText (texts.map Node.text) = String.join texts := by
  rw [ownText_eq_join]
  congr 1
  induction texts with
  | nil => rfl
  | cons text texts ih => rw [List.map_cons, List.filterMap_cons, ih]; rfl

/-- The second element stands where `f` puts the first, and comes to the same instruction if the
first comes to one. The text in it is the same, unless it is dropped. -/
structure Element.Agrees (f : Span → Span) (e e' : Element) : Prop where
  name : e'.name = e.name
  span : e'.span = f e.span
  body : ∀ is, Instruction.ofNodes e.children = .ok is →
    Instruction.ofNodes e'.children = .ok (Instruction.mapSpanAll f is)
  payload : (∀ scope, Tag.ofName? e.name ≠ some (.scope scope)) →
    ownText e'.children = ownText e.children

namespace Element.Agrees
variable {f : Span → Span} {e e' : Element}

theorem new (f : Span → Span) (name : String) (span : Span) :
    Agrees f ⟨name, span, []⟩ ⟨name, f span, []⟩ := by
  refine ⟨rfl, rfl, ?_, fun _ => rfl⟩
  intro is h
  rw [Instruction.ofNodes] at h
  cases h
  rw [Instruction.ofNodes]
  rfl

theorem assemble (h : Agrees f e e') {i : Instruction} (hi : Instruction.ofElement e = .ok i) :
    Instruction.ofElement e' = .ok (i.mapSpan f) := by
  rw [Instruction.ofElement, Instruction.assemble] at hi ⊢
  rw [h.name, h.span]
  split at hi
  · cases hi
  · next action ht =>
    split at hi
    · cases hi
    · next hh =>
      cases hi
      -- An action holds no element, and then neither does the one that agrees with it.
      have hnil := (Instruction.ofNodes_eq_ok_nil_iff e.children).2 (List.head?_eq_none_iff.1 hh)
      have hnil' := (Instruction.ofNodes_eq_ok_nil_iff e'.children).1 (h.body [] hnil)
      have hp := h.payload (by simp [ht])
      simp [hnil', hp, Instruction.mapSpan]
  · next scope ht =>
    cases hb : Instruction.ofNodes e.children with
    | error fault => simp [hb, Except.map] at hi
    | ok body =>
      simp only [hb, Except.map, Except.ok.injEq] at hi
      subst hi
      simp [h.body body hb, Except.map, Instruction.mapSpan]

theorem ofNodes_singleton (e : Element) :
    Instruction.ofNodes [e.node] = (Instruction.ofElement e).map ([·]) := by
  rw [Instruction.ofNodes, Instruction.ofNode_element, Instruction.ofNodes, Instruction.ofElement]
  cases Instruction.assemble e (Instruction.ofNodes e.children) <;> rfl

theorem append_node {child child' : Element} (h : Agrees f e e') (hc : Agrees f child child') :
    Agrees f { e with children := e.children ++ [child.node] }
      { e' with children := e'.children ++ [child'.node] } := by
  refine ⟨h.name, h.span, ?_, ?_⟩
  · intro is his
    rw [Instruction.ofNodes_append, ofNodes_singleton] at his ⊢
    cases hb : Instruction.ofNodes e.children with
    | error fault => simp [hb, Except.bind] at his
    | ok body =>
      cases hi : Instruction.ofElement child with
      | error fault => simp [hb, hi, Except.bind, Except.map] at his
      | ok i =>
        simp only [hb, hi, Except.bind, Except.map, Except.ok.injEq] at his
        subst his
        simp [h.body body hb, hc.assemble hi, Except.bind, Except.map,
          Instruction.mapSpanAll_append, Instruction.mapSpanAll]
  · intro hs
    show ownText (e'.children ++ [child'.node]) = ownText (e.children ++ [child.node])
    rw [ownText_append, ownText_append, h.payload hs]
    rfl

theorem append_texts {texts texts' : List String} (h : Agrees f e e')
    (ht : (∀ scope, Tag.ofName? e.name ≠ some (.scope scope)) →
      String.join texts' = String.join texts) :
    Agrees f { e with children := e.children ++ texts.map Node.text }
      { e' with children := e'.children ++ texts'.map Node.text } := by
  refine ⟨h.name, h.span, ?_, ?_⟩
  · intro is his
    rw [Instruction.ofNodes_append_texts] at his ⊢
    exact h.body is his
  · intro hs
    show ownText (e'.children ++ texts'.map Node.text) = ownText (e.children ++ texts.map Node.text)
    rw [ownText_append, ownText_append, ownText_texts, ownText_texts, h.payload hs, ht hs]

end Element.Agrees

def Builder.push (texts : List String) (b : Builder) : Builder :=
  match b.openElements with
  | [] => b
  | inner :: outer =>
    { b with openElements :=
        { inner with children := inner.children ++ texts.map Node.text } :: outer }

theorem Builder.push_nil (b : Builder) : b.push [] = b := by
  obtain ⟨stack, root⟩ := b
  cases stack <;> simp [push]

theorem Builder.push_push (a c : List String) (b : Builder) :
    (b.push a).push c = b.push (a ++ c) := by
  obtain ⟨stack, root⟩ := b
  cases stack <;> simp [push]

theorem Builder.openElements_push (texts : List String) (b : Builder) :
    (b.push texts).openElements = [] ↔ b.openElements = [] := by
  obtain ⟨stack, root⟩ := b
  cases stack <;> simp [push]

theorem Builder.text_eq_ok_iff {b b₁ : Builder} {content : String} {span : Span} :
    b.text content span = .ok b₁ ↔
      (b.openElements = [] → Text.allBlank content = true) ∧ b₁ = b.push [content] := by
  obtain ⟨stack, root⟩ := b
  cases stack with
  | nil =>
    have hp : push [content] ⟨[], root⟩ = ⟨[], root⟩ := rfl
    by_cases hb : Text.allBlank content = true
    · simp only [text, hb, hp, ne_eq, not_true_eq_false, ↓reduceIte, Except.ok.injEq, true_and,
        implies_true]
      exact eq_comm
    · simp [text, hb]
  | cons inner outer =>
    have ht : text content span ⟨inner :: outer, root⟩ = .ok (push [content] ⟨inner :: outer, root⟩) :=
      rfl
    rw [ht, Except.ok.injEq]
    constructor
    · rintro rfl
      exact ⟨by simp, rfl⟩
    · rintro ⟨_, rfl⟩
      rfl

structure Builder.Agrees (f : Span → Span) (b b' : Builder) : Prop where
  openElements : List.Forall₂ (Element.Agrees f) b.openElements b'.openElements
  root : Option.Rel (Element.Agrees f) b.root b'.root

def Event.mapSpan (f : Span → Span) (e : Located Event) : Located Event := ⟨e.value, f e.span⟩

namespace Builder.Agrees
variable {f : Span → Span} {b b' b₁ : Builder}

theorem start (f : Span → Span) : Agrees f {} {} := ⟨.nil, .none⟩

theorem nil_of_nil (h : Agrees f b b') (ho : b'.openElements = []) : b.openElements = [] := by
  have hf := h.openElements
  rw [ho] at hf
  exact List.forall₂_nil_right_iff.1 hf

theorem push {texts texts' : List String} (h : Agrees f b b')
    (ht : ∀ inner outer, b.openElements = inner :: outer →
      (∀ scope, Tag.ofName? inner.name ≠ some (.scope scope)) →
        String.join texts' = String.join texts) :
    Agrees f (b.push texts) (b'.push texts') := by
  obtain ⟨stack, root⟩ := b
  obtain ⟨stack', root'⟩ := b'
  obtain ⟨ho, hr⟩ := h
  cases ho with
  | nil => exact ⟨.nil, hr⟩
  | cons hi ho => exact ⟨.cons (hi.append_texts (ht _ _ rfl)) ho, hr⟩

theorem text {content : String} {span : Span} (h : Agrees f b b')
    (hs : b.text content span = .ok b₁) (span' : Span) :
    ∃ b₁', b'.text content span' = .ok b₁' ∧ Agrees f b₁ b₁' := by
  obtain ⟨hblank, rfl⟩ := text_eq_ok_iff.1 hs
  refine ⟨b'.push [content], text_eq_ok_iff.2 ⟨?_, rfl⟩, h.push fun _ _ _ _ => rfl⟩
  intro ho
  exact hblank (h.nil_of_nil ho)

theorem attach {e e' : Element} (h : Agrees f b b') (he : e.Agrees f e')
    (hs : b.attach e = .ok b₁) : ∃ b₁', b'.attach e' = .ok b₁' ∧ Agrees f b₁ b₁' := by
  obtain ⟨stack, root⟩ := b
  obtain ⟨stack', root'⟩ := b'
  obtain ⟨ho, hr⟩ := h
  cases ho with
  | nil =>
    cases hr with
    | none =>
      cases hs
      exact ⟨_, rfl, .nil, .some he⟩
    | some hr => cases hs
  | cons hi ho =>
    cases hs
    exact ⟨_, rfl, .cons (hi.append_node he) ho, hr⟩

theorem step {e : Located Event} (h : Agrees f b b') (hs : b.step e = .ok b₁) :
    ∃ b₁', b'.step (Event.mapSpan f e) = .ok b₁' ∧ Agrees f b₁ b₁' := by
  obtain ⟨event, span⟩ := e
  cases event with
  | start name =>
    cases hs
    exact ⟨_, rfl, .cons (Element.Agrees.new f name span) h.openElements, h.root⟩
  | empty name => exact h.attach (Element.Agrees.new f name span) hs
  | finish name =>
    obtain ⟨stack, root⟩ := b
    obtain ⟨stack', root'⟩ := b'
    obtain ⟨ho, hr⟩ := h
    cases ho with
    | nil => cases hs
    | @cons inner inner' outer outer' hi ho =>
      have houter : Agrees f ⟨outer, root⟩ ⟨outer', root'⟩ := ⟨ho, hr⟩
      exact houter.attach hi hs
  | text run =>
    cases hres : resolve run with
    | error fault => simp [Builder.step, hres] at hs
    | ok content =>
      simp only [Builder.step, hres] at hs
      simp only [Event.mapSpan, Builder.step, hres]
      exact h.text hs (f span)
  | verbatim content => exact h.text hs (f span)
  | aside =>
    cases hs
    exact ⟨b', rfl, h⟩

theorem run {events : List (Located Event)} (h : Agrees f b b') (hs : b.run events = (b₁, none)) :
    ∃ b₁', b'.run (events.map (Event.mapSpan f)) = (b₁', none) ∧ Agrees f b₁ b₁' := by
  induction events generalizing b b' with
  | nil =>
    simp only [Builder.run, Prod.mk.injEq, and_true] at hs
    subst hs
    exact ⟨b', rfl, h⟩
  | cons e events ih =>
    obtain ⟨b₂, hstep, hrun⟩ := run_cons_eq_ok.1 hs
    obtain ⟨b₂', hstep', h₂⟩ := h.step hstep
    obtain ⟨b₁', hrun', h₁⟩ := ih h₂ hrun
    exact ⟨b₁', run_cons_eq_ok.2 ⟨b₂', hstep', hrun'⟩, h₁⟩

theorem finish {root : Element} (h : Agrees f b b') (hs : b.finish = .ok root) :
    ∃ root', b'.finish = .ok root' ∧ root.Agrees f root' := by
  obtain ⟨stack, root⟩ := b
  obtain ⟨stack', root'⟩ := b'
  obtain ⟨ho, hr⟩ := h
  cases ho with
  | nil =>
    cases hr with
    | none => cases hs
    | some hr =>
      cases hs
      exact ⟨_, rfl, hr⟩
  | cons hi ho => cases hs

end Builder.Agrees

theorem Builder.run_append {b b₁ : Builder} {events : List (Located Event)}
    (h : b.run events = (b₁, none)) (later : List (Located Event)) :
    b.run (events ++ later) = b₁.run later := by
  induction events generalizing b with
  | nil =>
    simp only [run, Prod.mk.injEq, and_true] at h
    rw [h, List.nil_append]
  | cons e events ih =>
    obtain ⟨b₂, hs, hr⟩ := run_cons_eq_ok.1 h
    rw [List.cons_append, run, hs]
    exact ih hr

theorem Builder.exists_run_of_append {b b₁ : Builder} {events later : List (Located Event)}
    (h : b.run (events ++ later) = (b₁, none)) :
    ∃ b₂, b.run events = (b₂, none) ∧ b₂.run later = (b₁, none) := by
  induction events generalizing b with
  | nil => exact ⟨b, rfl, h⟩
  | cons e events ih =>
    obtain ⟨b₂, hs, hr⟩ := run_cons_eq_ok.1 h
    obtain ⟨b₃, hr₃, hl⟩ := ih hr
    exact ⟨b₃, run_cons_eq_ok.2 ⟨b₂, hs, hr₃⟩, hl⟩

end Markup

end XmlPipeline
