import XmlPipeline.Program.Parse
import XmlPipeline.Proofs.Nesting
import XmlPipeline.Proofs.References
set_option autoImplicit false

/-!
The shape of a document: what stands in it outside of all elements, and which elements are never
closed. Main statement: where the source itself can be read, these two say whether there is a root,
and if not, with which fault and where. A second root is found out only where it closes, and a
missing end tag only at the end of the source, so the order in which faults are found is NOT that of
the tags.
-/

namespace XmlPipeline.Markup

/-- Events that close every element that they open, and the nodes that they stand for, each with the
place of its tag or its text. That end tags fit is known from reading. -/
inductive Balanced : List (Located Event) → List (Located Node) → Prop where
  | nil : Balanced [] []
  | aside (span : Span) {later : List (Located Event)} {items : List (Located Node)}
      (rest : Balanced later items) : Balanced (⟨.aside, span⟩ :: later) items
  | run {run content : String} (span : Span) (sound : resolve run = .ok content)
      {later : List (Located Event)} {items : List (Located Node)} (rest : Balanced later items) :
      Balanced (⟨.text run, span⟩ :: later) (⟨.text content, span⟩ :: items)
  | verbatim (content : String) (span : Span) {later : List (Located Event)}
      {items : List (Located Node)} (rest : Balanced later items) :
      Balanced (⟨.verbatim content, span⟩ :: later) (⟨.text content, span⟩ :: items)
  | empty (name : String) (span : Span) {later : List (Located Event)}
      {items : List (Located Node)} (rest : Balanced later items) :
      Balanced (⟨.empty name, span⟩ :: later) (⟨.element name span [], span⟩ :: items)
  | element (name endName : String) (span endSpan : Span) {inner later : List (Located Event)}
      {children items : List (Located Node)} (within : Balanced inner children)
      (rest : Balanced later items) :
      Balanced (⟨.start name, span⟩ :: (inner ++ ⟨.finish endName, endSpan⟩ :: later))
        (⟨.element name span (children.map (·.value)), span⟩ :: items)

/-- Events that open elements one in another and close none of these, innermost first. -/
inductive Unclosed : List (Located Event) → List Element → Prop where
  | nil : Unclosed [] []
  | start (name : String) (span : Span) {inner later : List (Located Event)}
      {children : List (Located Node)} {stack : List Element} (within : Balanced inner children)
      (rest : Unclosed later stack) :
      Unclosed (⟨.start name, span⟩ :: (inner ++ later))
        (stack ++ [⟨name, span, children.map (·.value)⟩])

/-- Outside of all elements there are `items`, and after them come the elements `stack`, which are
never closed. -/
def Outlines (events : List (Located Event)) (items : List (Located Node)) (stack : List Element) :
    Prop :=
  ∃ closed rest, events = closed ++ rest ∧ Balanced closed items ∧ Unclosed rest stack

def topElements (items : List (Located Node)) : List Element := elements (items.map (·.value))

/-- What a document can have outside of all elements: one element, and blanks. -/
structure Fits (items : List (Located Node)) : Prop where
  single : (topElements items).length ≤ 1
  blank : ∀ content span, ⟨.text content, span⟩ ∈ items → Text.allBlank content = true

end XmlPipeline.Markup

namespace XmlPipeline
open Markup (Span Located Node Element Fits topElements)

/-- What comes of a document, by what stands outside of all elements and by the elements that are
never closed, innermost first. The first item that does not fit counts before anything else. -/
inductive Verdict (source : Nat) (items : List (Located Node)) (stack : List Element) :
    Except ParseError Element → Prop where
  | secondRoot {before after : List (Located Node)} {name : String} {span place : Span}
      {children : List Node}
      (parts : items = before ++ ⟨.element name span children, place⟩ :: after)
      (fits : Fits before) (earlier : topElements before ≠ []) :
      Verdict source items stack (.error ⟨.markup .secondRoot, span, source⟩)
  | textOutsideRoot {before after : List (Located Node)} {content : String} {span : Span}
      (parts : items = before ++ ⟨.text content, span⟩ :: after) (fits : Fits before)
      (notBlank : Text.allBlank content = false) :
      Verdict source items stack (.error ⟨.markup .textOutsideRoot, span, source⟩)
  | unclosed {inner : Element} {outer : List Element} (fits : Fits items)
      (isOpen : stack = inner :: outer) :
      Verdict source items stack
        (.error ⟨.markup (.unclosedElement inner.name), inner.span, source⟩)
  | noRoot (fits : Fits items) (closed : stack = []) (none : topElements items = []) :
      Verdict source items stack (.error ⟨.markup .noRoot, ⟨0, 0⟩, source⟩)
  | root {root : Element} (fits : Fits items) (closed : stack = [])
      (one : topElements items = [root]) : Verdict source items stack (.ok root)

end XmlPipeline

namespace XmlPipeline.Markup

@[simp] theorem topElements_nil : topElements [] = [] := rfl

theorem topElements_append (a b : List (Located Node)) :
    topElements (a ++ b) = topElements a ++ topElements b := by
  simp [topElements, elements]

@[simp] theorem topElements_cons_text (content : String) (span : Span)
    (items : List (Located Node)) :
    topElements (⟨.text content, span⟩ :: items) = topElements items := rfl

@[simp] theorem topElements_cons_element (name : String) (span place : Span) (children : List Node)
    (items : List (Located Node)) :
    topElements (⟨.element name span children, place⟩ :: items) =
      ⟨name, span, children⟩ :: topElements items := rfl

namespace Builder

def complete (b : Builder) (events : List (Located Event)) : Except (Located Fault) Element :=
  match b.run events with
  | (_, some fault) => .error fault
  | (b, none) => b.finish

theorem complete_cons (b : Builder) (e : Located Event) (later : List (Located Event)) :
    b.complete (e :: later) = b.step e >>= fun b => b.complete later := by
  cases h : b.step e <;> simp [complete, run, h, bind, Except.bind]

def put (b : Builder) (item : Located Node) : Except (Located Fault) Builder :=
  match item.value with
  | .element name span children => b.attach ⟨name, span, children⟩
  | .text content => b.text content item.span

theorem foldlM_put_inside (items : List (Located Node)) (inner : Element) (outer : List Element)
    (root : Option Element) :
    items.foldlM put ⟨inner :: outer, root⟩ =
      .ok ⟨⟨inner.name, inner.span, inner.children ++ items.map (·.value)⟩ :: outer, root⟩ := by
  induction items generalizing inner with
  | nil => simp [pure, Except.pure]
  | cons item items ih =>
    have hput : put ⟨inner :: outer, root⟩ item =
        .ok ⟨⟨inner.name, inner.span, inner.children ++ [item.value]⟩ :: outer, root⟩ := by
      obtain ⟨node, place⟩ := item
      cases node <;> rfl
    rw [List.foldlM_cons, hput]
    simp [bind, Except.bind, ih]

end Builder

/-- Balanced events do what their items do when these are put in one by one. -/
theorem Balanced.complete_append {events : List (Located Event)} {items : List (Located Node)}
    (h : Balanced events items) (b : Builder) (later : List (Located Event)) :
    b.complete (events ++ later) = items.foldlM Builder.put b >>= fun b => b.complete later := by
  induction h generalizing b later with
  | nil => rfl
  | aside span rest ih =>
    rw [List.cons_append, Builder.complete_cons]
    exact ih b later
  | run span sound rest ih =>
    rw [List.cons_append, Builder.complete_cons, List.foldlM_cons, bind_assoc]
    simp only [Builder.step, sound, Builder.put, ih]
  | verbatim content span rest ih =>
    rw [List.cons_append, Builder.complete_cons, List.foldlM_cons, bind_assoc]
    simp only [Builder.step, Builder.put, ih]
  | empty name span rest ih =>
    rw [List.cons_append, Builder.complete_cons, List.foldlM_cons, bind_assoc]
    simp only [Builder.step, Builder.put, ih]
  | element name endName span endSpan within rest ihWithin ih =>
    have hinner := Builder.foldlM_put_inside
    rw [List.cons_append, List.append_assoc, Builder.complete_cons, List.foldlM_cons, bind_assoc]
    have hstart : b.step ⟨.start name, span⟩ = .ok ⟨⟨name, span, []⟩ :: b.openElements, b.root⟩ :=
      rfl
    rw [hstart]
    show Builder.complete _ _ = _
    rw [ihWithin, hinner]
    show Builder.complete _ _ = _
    rw [List.cons_append, Builder.complete_cons]
    simp only [Builder.step, Builder.put, ih, List.nil_append]

theorem Unclosed.complete_eq {events : List (Located Event)} {stack : List Element}
    (h : Unclosed events stack) (outer : List Element) (root : Option Element) :
    Builder.complete ⟨outer, root⟩ events = Builder.finish ⟨stack ++ outer, root⟩ := by
  induction h generalizing outer with
  | nil => rfl
  | @start name span inner later children stack within rest ih =>
    have hstart : Builder.step ⟨outer, root⟩ ⟨.start name, span⟩ =
        .ok ⟨⟨name, span, []⟩ :: outer, root⟩ := rfl
    rw [Builder.complete_cons, hstart]
    show Builder.complete _ _ = _
    rw [within.complete_append, Builder.foldlM_put_inside]
    show Builder.complete _ _ = _
    rw [ih, List.append_assoc]
    rfl

theorem Outlines.parseDocument_eq {text : String} {items : List (Located Node)}
    {stack : List Element} (readable : (read text).fault = none)
    (h : Outlines (read text).events items stack) :
    parseDocument text = items.foldlM Builder.put {} >>= fun b =>
      Builder.finish ⟨stack ++ b.openElements, b.root⟩ := by
  obtain ⟨closed, rest, hevents, hclosed, hrest⟩ := h
  have hcomplete : parseDocument text = Builder.complete {} (read text).events := by
    cases hrun : Builder.run {} (read text).events with
    | mk b fault? =>
      cases fault? <;> simp [parseDocument, build, Builder.complete, hrun, readable]
  rw [hcomplete, hevents, hclosed.complete_append]
  congr 1
  funext b
  exact hrest.complete_eq b.openElements b.root

theorem Builder.foldlM_put_outside {items : List (Located Node)} (root : Option Element)
    (single : (root.toList ++ topElements items).length ≤ 1)
    (blank : ∀ content span, ⟨.text content, span⟩ ∈ items → Text.allBlank content = true) :
    items.foldlM put ⟨[], root⟩ = .ok ⟨[], (root.toList ++ topElements items).head?⟩ := by
  induction items generalizing root with
  | nil => cases root <;> rfl
  | cons item items ih =>
    obtain ⟨node, place⟩ := item
    have hblank : ∀ content span, ⟨.text content, span⟩ ∈ items →
        Text.allBlank content = true := fun content span h => blank content span (.tail _ h)
    cases node with
    | text content =>
      have hput : put ⟨[], root⟩ ⟨.text content, place⟩ = .ok ⟨[], root⟩ := by
        simp [put, Builder.text, blank content place (.head _)]
      rw [List.foldlM_cons, hput]
      exact ih root single hblank
    | element name span children =>
      cases root with
      | some root => simp at single
      | none =>
        have hput : put ⟨[], none⟩ ⟨.element name span children, place⟩ =
            .ok ⟨[], some ⟨name, span, children⟩⟩ := rfl
        rw [List.foldlM_cons, hput]
        exact ih _ single hblank

theorem Fits.foldlM_put {items : List (Located Node)} (h : Fits items) :
    items.foldlM Builder.put {} = .ok ⟨[], (topElements items).head?⟩ :=
  Builder.foldlM_put_outside none h.single h.blank

end XmlPipeline.Markup

namespace XmlPipeline
open Markup (Span Located Node Element Event Builder Fits Outlines topElements)

namespace Verdict
variable {text : String} {source : Nat} {items : List (Located Node)} {stack : List Element}
  {result : Except ParseError Element}

theorem document_eq (readable : (Markup.read text).fault = none)
    (h : Outlines (Markup.read text).events items stack) (v : Verdict source items stack result) :
    Program.document text source = result := by
  rw [Program.document, h.parseDocument_eq readable]
  cases v with
  | secondRoot parts fits earlier =>
    obtain ⟨root, others, hroot⟩ := List.exists_cons_of_ne_nil earlier
    rw [parts, List.foldlM_append, fits.foldlM_put, hroot]
    rfl
  | @textOutsideRoot before after content span parts fits notBlank =>
    have hput : Builder.put ⟨[], (topElements before).head?⟩ ⟨.text content, span⟩ =
        .error ⟨.textOutsideRoot, span⟩ := by
      simp [Builder.put, Builder.text, notBlank]
    rw [parts, List.foldlM_append, fits.foldlM_put]
    show Except.mapError _ (List.foldlM Builder.put _ (_ :: after) >>= _) = _
    rw [List.foldlM_cons, hput]
    rfl
  | unclosed fits isOpen =>
    rw [fits.foldlM_put, isOpen]
    rfl
  | noRoot fits closed none =>
    rw [fits.foldlM_put, closed, none]
    rfl
  | root fits closed one =>
    rw [fits.foldlM_put, closed, one]
    rfl

end Verdict

theorem fits_or_verdict (source : Nat) (items : List (Located Node)) (stack : List Element)
    (before : List (Located Node)) (fits : Fits before) :
    Fits (before ++ items) ∨ ∃ e, Verdict source (before ++ items) stack (.error e) := by
  induction items generalizing before with
  | nil => exact .inl (by simpa using fits)
  | cons item items ih =>
    have next (h : Fits (before ++ [item])) : Fits (before ++ item :: items) ∨
        ∃ e, Verdict source (before ++ item :: items) stack (.error e) := by
      simpa using ih (before ++ [item]) h
    obtain ⟨node, place⟩ := item
    cases node with
    | element name span children =>
      by_cases earlier : topElements before = []
      · apply next
        refine ⟨?_, ?_⟩
        · simp [Markup.topElements_append, earlier]
        · intro content span' hmem
          simp only [List.mem_append, List.mem_singleton, Located.mk.injEq, reduceCtorEq,
            false_and, or_false] at hmem
          exact fits.blank content span' hmem
      · exact .inr ⟨_, .secondRoot rfl fits earlier⟩
    | text content =>
      cases hb : Text.allBlank content with
      | true =>
        apply next
        refine ⟨?_, ?_⟩
        · simpa [Markup.topElements_append] using fits.single
        · intro content' span' hmem
          simp only [List.mem_append, List.mem_singleton, Located.mk.injEq, Node.text.injEq] at hmem
          rcases hmem with hmem | ⟨rfl, _⟩
          · exact fits.blank content' span' hmem
          · exact hb
      | false => exact .inr ⟨_, .textOutsideRoot rfl fits hb⟩

theorem exists_verdict (source : Nat) (items : List (Located Node)) (stack : List Element) :
    ∃ result, Verdict source items stack result := by
  have nothing : Fits [] := ⟨by simp, by simp⟩
  rcases fits_or_verdict source items stack [] nothing with fits | ⟨e, v⟩
  · cases stack with
    | cons inner outer => exact ⟨_, .unclosed fits rfl⟩
    | nil =>
      have single := fits.single
      cases hroots : topElements items with
      | nil => exact ⟨_, .noRoot fits rfl hroots⟩
      | cons root others =>
        rw [List.nil_append, hroots] at single
        obtain rfl : others = [] := by simpa using single
        exact ⟨_, .root fits rfl hroots⟩
  · exact ⟨_, v⟩

end XmlPipeline

namespace XmlPipeline.Markup

inductive Closes : Nat → List (Located Event) → Prop where
  | none {events : List (Located Event)} {items : List (Located Node)} {stack : List Element}
      (h : Outlines events items stack) : Closes 0 events
  | more {count : Nat} (endName : String) (endSpan : Span) {inner later : List (Located Event)}
      {items : List (Located Node)} (within : Balanced inner items) (rest : Closes count later) :
      Closes (count + 1) (inner ++ ⟨.finish endName, endSpan⟩ :: later)

theorem Closes.append_left {count : Nat} (first : List (Located Event))
    {later : List (Located Event)}
    (h : ∀ {events items}, Balanced events items → ∃ items', Balanced (first ++ events) items')
    (hl : Closes count later) : Closes count (first ++ later) := by
  cases hl with
  | none outlines =>
    obtain ⟨closed, rest, rfl, hclosed, hrest⟩ := outlines
    obtain ⟨items', hitems⟩ := h hclosed
    exact .none ⟨first ++ closed, rest, by simp, hitems, hrest⟩
  | more endName endSpan within rest =>
    obtain ⟨items', hitems⟩ := h within
    rw [← List.append_assoc]
    exact .more endName endSpan hitems rest

theorem Closes.exists_outlines {events : List (Located Event)} (h : Closes 0 events) :
    ∃ items stack, Outlines events items stack := by
  cases h with
  | none outlines => exact ⟨_, _, outlines⟩

theorem exists_closes {names : List String} {events : List (Located Event)}
    (nested : Nested names events) (sound : ∀ e ∈ events, Event.Resolves e) :
    ∃ count ≤ names.length, Closes count events := by
  induction events generalizing names with
  | nil => exact ⟨0, by omega, .none ⟨[], [], rfl, .nil, .nil⟩⟩
  | cons e later ih =>
    obtain ⟨hopen, hnested⟩ := nested
    obtain ⟨count, hcount, hl⟩ := ih hnested fun e' he' => sound e' (.tail _ he')
    have he := sound e (.head _)
    obtain ⟨event, span⟩ := e
    cases event with
    | start name =>
      cases hl with
      | none outlines =>
        obtain ⟨closed, rest, rfl, hclosed, hrest⟩ := outlines
        exact ⟨0, by omega, .none ⟨[], _, rfl, .nil, .start name span hclosed hrest⟩⟩
      | @more count endName endSpan inner later items within rest =>
        have hle : count ≤ names.length := by simpa [Event.openNames] using hcount
        refine ⟨count, hle, ?_⟩
        have hfirst : ⟨.start name, span⟩ :: (inner ++ ⟨.finish endName, endSpan⟩ :: later) =
            (⟨.start name, span⟩ :: (inner ++ [⟨.finish endName, endSpan⟩])) ++ later := by simp
        rw [hfirst]
        refine rest.append_left _ fun hb => ?_
        simp only [List.cons_append, List.append_assoc, List.nil_append]
        exact ⟨_, .element name endName span endSpan within hb⟩
    | finish name =>
      cases names with
      | nil => exact absurd rfl (hopen name rfl)
      | cons outer names =>
        have hle : count ≤ names.length := hcount
        exact ⟨count + 1, by simpa using hle, .more name span .nil hl⟩
    | empty name => exact ⟨count, hcount, hl.append_left [_] fun hb => ⟨_, .empty name span hb⟩⟩
    | verbatim content =>
      exact ⟨count, hcount, hl.append_left [_] fun hb => ⟨_, .verbatim content span hb⟩⟩
    | text run =>
      obtain ⟨content, hc⟩ := he run rfl
      exact ⟨count, hcount, hl.append_left [_] fun hb => ⟨_, .run span hc hb⟩⟩
    | aside => exact ⟨count, hcount, hl.append_left [_] fun hb => ⟨_, .aside span hb⟩⟩

theorem exists_outlines {text : String} (sound : ∀ e ∈ (read text).events, Event.Resolves e) :
    ∃ items stack, Outlines (read text).events items stack := by
  have nested : Nested [] (read text).events := nested_from [] 0 (withoutMark text.toList)
  obtain ⟨count, hcount, hcloses⟩ := exists_closes nested sound
  obtain rfl : count = 0 := by simpa using hcount
  exact hcloses.exists_outlines

end XmlPipeline.Markup

namespace XmlPipeline
open Markup (Span Located Node Element Event Outlines)

/-- A document has one outline and one verdict, whatever the order in which its tags come. -/
theorem shape_decides_document (text : String) (source : Nat)
    (readable : (Markup.read text).fault = none)
    (sound : ∀ e ∈ (Markup.read text).events, Event.Resolves e) :
    (∃ items stack, Outlines (Markup.read text).events items stack) ∧
    (∀ items stack, Outlines (Markup.read text).events items stack →
      ∀ result, Program.document text source = result ↔ Verdict source items stack result) ∧
    (∀ e, Program.document text source = .error e →
      e.notes =
        if e.cause = .markup .noRoot then ["the document has no root element"] else []) := by
  obtain ⟨items, stack, outlines⟩ := Markup.exists_outlines sound
  refine ⟨⟨items, stack, outlines⟩, ?_, ?_⟩
  · intro items stack outlines result
    constructor
    · rintro rfl
      obtain ⟨result, v⟩ := exists_verdict source items stack
      rw [v.document_eq readable outlines]
      exact v
    · exact fun v => v.document_eq readable outlines
  · intro e he
    obtain ⟨result, v⟩ := exists_verdict source items stack
    have hv := v.document_eq readable outlines
    rw [he] at hv
    subst hv
    cases v <;> simp [ParseError.notes, Program.Fault.notes]

theorem shape_decides_document_after_root :
    (Markup.read "<step/><print>x").fault = none ∧
    (∀ e ∈ (Markup.read "<step/><print>x").events, Event.Resolves e) ∧
    Outlines (Markup.read "<step/><print>x").events
      [⟨.element "step" ⟨0, 7⟩ [], ⟨0, 7⟩⟩] [⟨"print", ⟨7, 14⟩, [.text "x"]⟩] ∧
    Program.document "<step/><print>x" 3 =
      .error ⟨.markup (.unclosedElement "print"), ⟨7, 14⟩, 3⟩ := by
  have hread : Markup.read "<step/><print>x" =
      ⟨[⟨.empty "step", 0, 7⟩, ⟨.start "print", 7, 14⟩, ⟨.text "x", 14, 15⟩], none⟩ := by
    decide +kernel
  have hx : Markup.resolve "x" = .ok "x" :=
    Markup.resolve_eq_ok_iff.2 (Markup.denotes_self (by decide))
  have readable : (Markup.read "<step/><print>x").fault = none := by rw [hread]
  have sound : ∀ e ∈ (Markup.read "<step/><print>x").events, Event.Resolves e := by
    rw [hread]
    intro e he run hrun
    simp only [List.mem_cons, List.not_mem_nil, or_false] at he
    rcases he with rfl | rfl | rfl
    · cases hrun
    · cases hrun
    · cases hrun
      exact ⟨"x", hx⟩
  have outlines : Outlines (Markup.read "<step/><print>x").events
      [⟨.element "step" ⟨0, 7⟩ [], ⟨0, 7⟩⟩] [⟨"print", ⟨7, 14⟩, [.text "x"]⟩] := by
    rw [hread]
    exact ⟨_, _, rfl, .empty "step" ⟨0, 7⟩ .nil,
      .start "print" ⟨7, 14⟩ (.run ⟨14, 15⟩ hx .nil) .nil⟩
  obtain ⟨_, hverdict, _⟩ := shape_decides_document _ 3 readable sound
  refine ⟨readable, sound, outlines, (hverdict _ _ outlines _).2 (.unclosed ⟨?_, ?_⟩ rfl)⟩
  · decide
  · intro content span h
    simp at h

end XmlPipeline
