import XmlPipeline.Proofs.Nesting
import XmlPipeline.Proofs.Spans
set_option autoImplicit false

/-!
Blame: what the span of a parse error points at. Main statement: it lies in the source, begins and
ends between characters, and covers what the error is about: the tag of the element, the text, or
nothing where the source itself could not be read on.
-/

namespace XmlPipeline.Markup

theorem Item.ahead_of_declaration {cs : List Char} {defect : Defect}
    (h : declaration cs = .error defect) : defect.ahead = 0 ∨
      ∃ body tail, cs = body ++ '>' :: tail ∧ defect.ahead = 2 + Text.size body := by
  unfold declaration at h
  split at h
  · left
    split at h
    · split at h
      · cases h
      · cases h
        rfl
    · cases h
      rfl
  · left
    split at h
    · split at h
      · cases h
      · cases h
        rfl
    · cases h
      rfl
  · split at h
    · split at h
      · next body tail hb =>
        split at h
        · cases h
          exact .inl rfl
        · split at h
          · cases h
            exact .inr ⟨body, tail, (eq_of_cutBalanced hb).symm, rfl⟩
          · cases h
      · cases h
        exact .inl rfl
    · cases h
      exact .inl rfl

theorem Item.ahead_of_markup {cs : List Char} {defect : Defect} (h : markup cs = .error defect) :
    defect.ahead = 0 ∨
      ∃ body tail, cs = '!' :: (body ++ '>' :: tail) ∧ defect.ahead = 2 + Text.size body := by
  unfold markup at h
  split at h
  · rcases ahead_of_declaration h with ha | ⟨body, tail, rfl, ha⟩
    · exact .inl ha
    · exact .inr ⟨body, tail, rfl, ha⟩
  · left
    split at h
    · cases h
    · cases h
      rfl
  · left
    split at h
    · cases h
      rfl
    · split at h
      · cases h
      · cases h
        rfl
  · left
    split at h
    · cases h
    · cases h
      rfl

theorem Item.exists_defect {c : Char} {cs : List Char} {defect : Defect}
    (h : next c cs = .error defect) :
    ∃ a b, c :: cs = a ++ b ∧ Text.size a = defect.ahead := by
  unfold next at h
  split at h
  · next hc =>
    rcases ahead_of_markup h with ha | ⟨body, tail, rfl, ha⟩
    · exact ⟨[], c :: cs, rfl, ha.symm⟩
    · refine ⟨'<' :: '!' :: body, '>' :: tail, by rw [hc]; rfl, ?_⟩
      have hone : ('<' : Char).utf8Size = 1 ∧ ('!' : Char).utf8Size = 1 := by decide
      simp only [Text.size_cons, hone, ha]
      omega
  · cases h

theorem exists_fault {names : List String} {offset : Nat} {cs : List Char} {fault : SyntaxFault}
    {place : Nat} (h : (Reading.from names offset cs).fault = some (fault, place)) :
    ∃ before after, cs = before ++ after ∧ place = offset + Text.size before := by
  fun_induction Reading.from names offset cs with
  | case1 => cases h
  | case2 names offset c cs defect hn =>
    obtain ⟨a, b, hab, ha⟩ := Item.exists_defect hn
    cases h
    exact ⟨a, b, hab, by rw [ha]⟩
  | case3 names offset c cs item rest hn fault' he =>
    cases h
    exact ⟨[], c :: cs, rfl, rfl⟩
  | case4 names offset c cs item rest hn event names' he _ stop later ih =>
    obtain ⟨before, after, hparts, hplace⟩ := ih h
    refine ⟨item.spelling ++ before, after, ?_, ?_⟩
    · rw [List.append_assoc, ← hparts, Item.spelling_next hn]
    · rw [hplace, Text.size_append]
      omega

theorem pointAt_of_fault {source : String} {fault : SyntaxFault} {place : Nat}
    (h : (read source).fault = some (fault, place)) : PointAt source (.point place) := by
  obtain ⟨before, after, hparts, hplace⟩ := exists_fault h
  obtain ⟨mark, hmark, hsize⟩ := uncounted_eq source
  refine ⟨mark ++ before, after, ?_, ?_, rfl⟩
  · rw [hmark, hparts, List.append_nil, List.append_assoc]
  · show Text.size (mark ++ before) = place + uncounted source
    rw [Text.size_append, hsize, hplace]
    omega

namespace Builder

/-- Why an event does not fit what has been built, and where the fault is put. -/
inductive Refuses (b : Builder) : Located Event → Located Fault → Prop where
  | empty {root : Element} (name : String) (span : Span) (isRoot : b.root = some root)
      (outside : b.openElements = []) : Refuses b ⟨.empty name, span⟩ ⟨.secondRoot, span⟩
  | closed {root inner : Element} (name : String) (span : Span) (isRoot : b.root = some root)
      (last : b.openElements = [inner]) :
      Refuses b ⟨.finish name, span⟩ ⟨.secondRoot, inner.span⟩
  | stray (name : String) (span : Span) (outside : b.openElements = []) :
      Refuses b ⟨.finish name, span⟩ ⟨.strayEnd, span⟩
  | reference {run : String} {fault : ReferenceFault} (span : Span)
      (bad : resolve run = .error fault) : Refuses b ⟨.text run, span⟩ ⟨.badReference fault, span⟩
  | text (run : String) (span : Span) : Refuses b ⟨.text run, span⟩ ⟨.textOutsideRoot, span⟩
  | verbatim (content : String) (span : Span) :
      Refuses b ⟨.verbatim content, span⟩ ⟨.textOutsideRoot, span⟩

theorem attach_error {b : Builder} {e : Element} {fault : Located Fault}
    (h : b.attach e = .error fault) : b.openElements = [] ∧ (∃ root, b.root = some root) ∧
      fault = ⟨.secondRoot, e.span⟩ := by
  unfold attach at h
  split at h
  · cases h
  · next ho =>
    split at h
    · next hr =>
      cases h
      exact ⟨by simpa using ho, Option.isSome_iff_exists.1 hr, rfl⟩
    · cases h

theorem text_error {b : Builder} {content : String} {span : Span} {fault : Located Fault}
    (h : b.text content span = .error fault) : fault = ⟨.textOutsideRoot, span⟩ := by
  unfold text at h
  split at h
  · cases h
  · split at h
    · cases h
    · cases h
      rfl

theorem refuses_of_step {b : Builder} {e : Located Event} {fault : Located Fault}
    (h : b.step e = .error fault) : b.Refuses e fault := by
  obtain ⟨event, span⟩ := e
  cases event with
  | start name => cases h
  | empty name =>
    obtain ⟨ho, ⟨root, hr⟩, rfl⟩ := attach_error h
    exact .empty name span hr ho
  | finish name =>
    cases ho : b.openElements with
    | nil =>
      simp only [step, ho, Except.error.injEq] at h
      subst h
      exact .stray name span ho
    | cons inner outer =>
      simp only [step, ho] at h
      obtain ⟨houter, ⟨root, hr⟩, rfl⟩ := attach_error h
      exact .closed name span hr (ho.trans (congrArg (inner :: ·) houter))
  | text run =>
    cases hr : resolve run with
    | error bad =>
      simp only [step, hr, Except.error.injEq] at h
      subst h
      exact .reference span hr
    | ok content =>
      simp only [step, hr] at h
      obtain rfl := text_error h
      exact .text run span
  | verbatim content =>
    obtain rfl := text_error h
    exact .verbatim content span
  | aside => cases h

theorem run_eq_some {b b' : Builder} {events : List (Located Event)} {fault : Located Fault}
    (h : b.run events = (b', some fault)) : ∃ before e after, events = before ++ e :: after ∧
      b.run before = (b', none) ∧ b'.step e = .error fault := by
  induction events generalizing b with
  | nil => simp [run] at h
  | cons e later ih =>
    cases hs : b.step e with
    | error fault' =>
      simp only [run, hs, Prod.mk.injEq, Option.some.injEq] at h
      obtain ⟨rfl, rfl⟩ := h
      exact ⟨[], e, later, rfl, rfl, hs⟩
    | ok b₁ =>
      simp only [run, hs] at h
      obtain ⟨before, e', after, rfl, hrun, hstep⟩ := ih h
      exact ⟨e :: before, e', after, rfl, run_cons_eq_ok.2 ⟨b₁, hs, hrun⟩, hstep⟩

/-- What is open and what is closed already was opened by the events. -/
theorem filterMap_marks_run {b : Builder} {events : List (Located Event)}
    (h : run {} events = (b, none)) :
    b.marks.filterMap Mark.entered? = events.filterMap Event.opened? := by
  have hm : b.marks = significant 0 (events.flatMap Event.marks) := (marks_run h).1
  rw [hm, filterMap_significant, Event.filterMap_flatMap_marks]

theorem mem_opened_of_open {b : Builder} {events : List (Located Event)} {inner : Element}
    {outer : List Element} (h : run {} events = (b, none)) (ho : b.openElements = inner :: outer) :
    (inner.name, inner.span) ∈ events.filterMap Event.opened? := by
  rw [← filterMap_marks_run h, List.mem_filterMap]
  refine ⟨.enter inner.name inner.span, ?_, rfl⟩
  simp [marks, ho, openMarks]

theorem marks_run_append {b b' : Builder} {events : List (Located Event)}
    (h : b.run events = (b', none)) (later : List Mark) :
    b'.marks ++ significant b'.depth later =
      b.marks ++ significant b.depth (events.flatMap Event.marks ++ later) := by
  induction events generalizing b with
  | nil =>
    simp only [run, Prod.mk.injEq, and_true] at h
    rw [h, List.flatMap_nil, List.nil_append]
  | cons e events ih =>
    obtain ⟨b₁, hs, hr⟩ := run_cons_eq_ok.1 h
    rw [ih hr, marks_step hs, List.flatMap_cons, List.append_assoc]

end Builder

/-- A second element, named so, has been read as a whole after the root. -/
def SecondRootAt (source name : String) (span : Span) : Prop :=
  TagAt source name span ∧ ∃ root second : Element, ∃ events later,
    (read source).events = events ++ later ∧
      significant 0 (events.flatMap Event.marks) = root.marks ++ second.marks ∧
      second.name = name ∧ second.span = span

def Fault.Shown (source : String) (span : Span) : Fault → Prop
  | .malformed _ => PointAt source span
  | .badReference fault => ∃ run, RunAt source run span ∧ resolve run = .error fault
  | .noRoot => span = ⟨0, 0⟩
  | .secondRoot => ∃ name, SecondRootAt source name span
  | .textOutsideRoot => (∃ run, RunAt source run span) ∨ ∃ content, VerbatimAt source content span
  | .unclosedElement name => TagAt source name span
  | .strayEnd | .notUtf8 => False

theorem tagAt_of_mem_prefix {source name : String} {span : Span}
    {events later : List (Located Event)} (hread : (read source).events = events ++ later)
    (h : (name, span) ∈ events.filterMap Event.opened?) : TagAt source name span := by
  apply tagAt_of_mem_opened
  rw [hread, List.filterMap_append]
  exact List.mem_append_left _ h

theorem secondRootAt {source name : String} {span : Span} {b : Builder}
    {events later : List (Located Event)} {e : Located Event} (root second : Element)
    (hread : (read source).events = events ++ e :: later) (hrun : Builder.run {} events = (b, none))
    (hmarks : b.marks ++ significant b.depth (Event.marks e) = root.marks ++ second.marks)
    (hname : second.name = name) (hspan : second.span = span)
    (htag : TagAt source name span) : SecondRootAt source name span := by
  refine ⟨htag, root, second, events ++ [e], later, by simp [hread], ?_, hname, hspan⟩
  have hm := Builder.marks_run_append hrun (Event.marks e)
  rw [List.flatMap_append, List.flatMap_singleton, ← hmarks, hm]
  rfl

theorem shown_of_refuses {source : String} {b : Builder} {events later : List (Located Event)}
    {e : Located Event} {fault : Located Fault}
    (hread : (read source).events = events ++ e :: later) (hrun : Builder.run {} events = (b, none))
    (h : b.Refuses e fault) : fault.value.Shown source fault.span := by
  have hmem : e ∈ (read source).events := by simp [hread]
  cases h with
  | @empty root name span isRoot outside =>
    have htag := tagAt_of_mem (.inr hmem)
    refine ⟨name, secondRootAt root ⟨name, span, []⟩ hread hrun ?_ rfl rfl htag⟩
    simp [Builder.marks, Builder.depth, isRoot, outside, openMarks, Event.marks, significant,
      Element.marks_eq, Node.marksAll]
  | @closed root inner name span isRoot last =>
    have htag := tagAt_of_mem_prefix hread (Builder.mem_opened_of_open hrun last)
    refine ⟨inner.name, secondRootAt root inner hread hrun ?_ rfl rfl htag⟩
    simp [Builder.marks, Builder.depth, isRoot, last, openMarks, Event.marks, significant,
      Element.marks_eq]
  | stray name span outside =>
    have hn := nested_from [] 0 (withoutMark source.toList)
    have hnames := Builder.names_run hrun
    rw [← read, hread] at hn
    refine hn.of_append.1 name rfl (hnames.symm.trans ?_)
    rw [Builder.names, outside, List.map_nil]
  | reference span bad => exact ⟨_, runAt_of_mem hmem, bad⟩
  | text run span => exact .inl ⟨run, runAt_of_mem hmem⟩
  | verbatim content span => exact .inr ⟨content, verbatimAt_of_mem hmem⟩

theorem shown_of_finish {source : String} {b : Builder} {fault : Located Fault}
    (hrun : Builder.run {} (read source).events = (b, none)) (h : b.finish = .error fault) :
    fault.value.Shown source fault.span := by
  unfold Builder.finish at h
  split at h
  · next inner outer _ ho =>
    cases h
    exact tagAt_of_mem_opened (Builder.mem_opened_of_open hrun ho)
  · cases h
  · cases h
    rfl

theorem shown_of_parseDocument {source : String} {fault : Located Fault}
    (h : parseDocument source = .error fault) : fault.value.Shown source fault.span := by
  rw [parseDocument, build] at h
  cases hrun : Builder.run {} (read source).events with
  | mk b fault? =>
    cases fault? with
    | some refused =>
      simp only [hrun, Except.error.injEq] at h
      subst h
      obtain ⟨events, e, later, hread, hrun, hstep⟩ := Builder.run_eq_some hrun
      exact shown_of_refuses hread hrun (Builder.refuses_of_step hstep)
    | none =>
      cases hf : (read source).fault with
      | some f =>
        simp only [hrun, hf, Option.map_some, Except.error.injEq] at h
        subst h
        exact pointAt_of_fault hf
      | none =>
        simp only [hrun, hf, Option.map_none] at h
        exact shown_of_finish hrun h

end XmlPipeline.Markup

namespace XmlPipeline
open Markup (Element Mark TagAt RunAt Holds)

def ParseError.Shown (text : String) (e : ParseError) : Prop :=
  match e.cause with
  | .markup fault => fault.Shown text e.span
  | .unknownTag name => TagAt text name e.span
  | .actionWithChildren _ child => TagAt text child e.span
  | .emptyPipeline => TagAt text "pipeline" e.span
  | .unreadable .. => False

theorem tagAt_of_mem_visits {text : String} {root : Element} {v : Visit}
    (h : Markup.parseDocument text = .ok root) (hv : v ∈ Visit.ofNode none root.node) :
    TagAt text v.name v.span := by
  apply Markup.tagAt_of_mem_opened
  rw [← filterMap_marks_of_parseDocument h, filterMap_marks root.node none]
  exact List.mem_map.2 ⟨v, hv, rfl⟩

theorem ParseError.shown_of_visit {text : String} {v : Visit} (source : Nat)
    (h : TagAt text v.name v.span) : ParseError.Shown text ⟨v.fault.value, v.fault.span, source⟩ := by
  unfold Visit.fault
  split
  · exact h
  · exact h

theorem ParseError.shown_of_parse {text : String} {source : Nat} {e : ParseError}
    (h : Program.parse text source = .error e) : e.Shown text := by
  rw [Program.parse_eq, Program.document] at h
  cases hd : Markup.parseDocument text with
  | error fault =>
    simp only [hd, Except.mapError, Except.bind, Except.error.injEq] at h
    subst h
    exact Markup.shown_of_parseDocument hd
  | ok root =>
    simp only [hd, Except.mapError, Except.bind] at h
    have hroot : TagAt text root.name root.span :=
      tagAt_of_mem_visits hd (v := ⟨root.name, root.span, none⟩) (by simp [Visit.ofNode_node])
    split at h
    · next hp =>
      simp only [Except.error.injEq] at h
      subst h
      rw [hp.1] at hroot
      exact hroot
    · cases hi : Instruction.ofElement root with
      | ok i => simp [hi] at h
      | error fault =>
        simp only [hi, Except.error.injEq] at h
        subst h
        obtain ⟨v, hv, rfl⟩ := ((Instruction.judges_ofElement root).error_iff fault).1 hi
        exact shown_of_visit source (tagAt_of_mem_visits hd (List.mem_of_find?_eq_some hv))

theorem ParseError.Shown.exists_holds {text : String} {e : ParseError} (h : e.Shown text) :
    ∃ before slice after, Holds text e.span before slice after := by
  obtain ⟨cause, span, source⟩ := e
  have ofTag {name : String} (ht : TagAt text name span) :
      ∃ before slice after, Holds text span before slice after := by
    obtain ⟨⟨before, slice, after, hh, _⟩, _⟩ := ht
    exact ⟨before, slice, after, hh⟩
  have ofRun {run : String} (hr : RunAt text run span) :
      ∃ before slice after, Holds text span before slice after := by
    obtain ⟨⟨before, after, hh, _⟩, _⟩ := hr
    exact ⟨before, run.toList, after, hh⟩
  cases cause with
  | unreadable path fault => exact h.elim
  | unknownTag name => exact ofTag h
  | emptyPipeline => exact ofTag h
  | actionWithChildren parent child => exact ofTag h
  | markup fault =>
    cases fault with
    | malformed fault =>
      obtain ⟨before, after, hh⟩ := h
      exact ⟨before, [], after, hh⟩
    | badReference fault =>
      obtain ⟨run, hr, _⟩ := h
      exact ofRun hr
    | strayEnd => exact h.elim
    | notUtf8 => exact h.elim
    | noRoot =>
      obtain ⟨mark, hmark, hsize⟩ := Markup.uncounted_eq text
      cases h
      refine ⟨mark, [], Markup.withoutMark text.toList, ?_, ?_, rfl⟩
      · rw [List.append_nil]
        exact hmark
      · rw [hsize, Nat.zero_add]
    | secondRoot =>
      obtain ⟨name, ht, _⟩ := h
      exact ofTag ht
    | textOutsideRoot =>
      rcases h with ⟨run, hr⟩ | ⟨content, ⟨before, after, hh⟩, _⟩
      · exact ofRun hr
      · exact ⟨before, _, after, hh⟩
    | unclosedElement name => exact ofTag h

/-- Where no byte order mark is passed over, the slice is that of the span as it stands. -/
theorem parse_errors_point_at_cause (text : String) (source : Nat) (e : ParseError)
    (h : Program.parse text source = .error e) :
    (e.span.start ≤ e.span.stop ∧ e.span.stop ≤ Text.size text.toList) ∧
      (∃ before slice after, Holds text e.span before slice after) ∧ e.Shown text := by
  have hs := ParseError.shown_of_parse h
  obtain ⟨before, slice, after, hh⟩ := hs.exists_holds
  obtain ⟨hle, hstop⟩ := hh.stop_le
  exact ⟨⟨hle, by omega⟩, ⟨before, slice, after, hh⟩, hs⟩

theorem parse_errors_point_at_cause_second_root :
    Program.parse "<step/> <print>é</print>" 2 = .error ⟨.markup .secondRoot, ⟨8, 15⟩, 2⟩ ∧
    ∃ name, Markup.SecondRootAt "<step/> <print>é</print>" name ⟨8, 15⟩ := by
  have h : Program.parse "<step/> <print>é</print>" 2 =
      .error ⟨.markup .secondRoot, ⟨8, 15⟩, 2⟩ := by
    cbv
  exact ⟨h, (parse_errors_point_at_cause _ _ _ h).2.2⟩

end XmlPipeline
