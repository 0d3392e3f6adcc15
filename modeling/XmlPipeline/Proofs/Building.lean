import XmlPipeline.Proofs.Marks
set_option autoImplicit false

/-!
Building: what a builder holds, as marks. Main statement: a source has a root exactly if its events
are the marks of that root, blank texts around it apart. This says which sources are refused, and
NOT with which fault.
-/

namespace XmlPipeline.Markup

def openMarks : List Element → List Mark
  | [] => []
  | inner :: outer =>
    openMarks outer ++ .enter inner.name inner.span :: Node.marksAll inner.children

theorem openMarks_append (node : Node) {stack : List Element} (h : stack ≠ []) :
    openMarks (Builder.append node stack) = openMarks stack ++ node.marks := by
  cases stack with
  | nil => exact absurd rfl h
  | cons inner outer =>
    simp [Builder.append, openMarks, Node.marksAll_append, Node.marksAll_singleton]

theorem Builder.length_append (node : Node) (stack : List Element) :
    (Builder.append node stack).length = stack.length := by
  cases stack <;> rfl

theorem exists_marks_openMarks (inner : Element) (outer : List Element) :
    ∃ e : Element,
      e.marks = openMarks (inner :: outer) ++ List.replicate (outer.length + 1) .leave := by
  induction h : outer.length generalizing inner outer with
  | zero =>
    obtain rfl := List.eq_nil_of_length_eq_zero h
    exact ⟨inner, by simp [openMarks, Element.marks_eq]⟩
  | succ n ih =>
    cases outer with
    | nil => simp at h
    | cons parent outer =>
      simp only [List.length_cons, Nat.add_right_cancel_iff] at h
      obtain ⟨e, he⟩ :=
        ih { parent with children := parent.children ++ [inner.node] } outer h
      refine ⟨e, he.trans ?_⟩
      have hp := openMarks_append inner.node (List.cons_ne_nil parent outer)
      rw [Builder.append] at hp
      rw [hp, ← Element.marks, Element.marks_eq]
      simp [openMarks, List.replicate_succ]

theorem openMarks_ne_marks (inner : Element) (outer : List Element) (root : Element) :
    openMarks (inner :: outer) ≠ root.marks := by
  intro h
  obtain ⟨e, he⟩ := exists_marks_openMarks inner outer
  rw [h, ← List.append_nil e.marks] at he
  have := (Element.marks_append_inj he).2
  simp at this

namespace Builder

/-- What has been read so far, as marks: the root if it is closed, and what is open. -/
def marks (b : Builder) : List Mark :=
  (match b.root with
    | none => []
    | some root => root.marks) ++ openMarks b.openElements

def depth (b : Builder) : Nat := b.openElements.length

theorem marks_attach {b b' : Builder} {e : Element} (h : b.attach e = .ok b') :
    b'.marks = b.marks ++ e.marks ∧ b'.depth = b.depth := by
  unfold attach at h
  split at h
  · next ho =>
    cases h
    exact ⟨by simp [marks, openMarks_append _ ho, Element.marks],
      by simp [depth, length_append]⟩
  · next ho =>
    simp only [ne_eq, Decidable.not_not] at ho
    cases hr : b.root with
    | none =>
      simp only [hr, Option.isSome_none, Bool.false_eq_true, ↓reduceIte, Except.ok.injEq] at h
      cases h
      exact ⟨by simp [marks, ho, hr, openMarks], by simp [depth, ho]⟩
    | some root => simp [hr] at h

theorem marks_text {b b' : Builder} {content : String} {span : Span}
    (h : b.text content span = .ok b') (later : List Mark) :
    b'.marks ++ significant b'.depth later =
      b.marks ++ significant b.depth (.text content :: later) := by
  unfold text at h
  split at h
  · next ho =>
    cases h
    obtain ⟨n, hn⟩ : ∃ n, b.openElements.length = n + 1 :=
      Nat.exists_eq_succ_of_ne_zero (by simpa using ho)
    simp [marks, depth, length_append, openMarks_append _ ho, hn, significant, Node.marks]
  · next ho =>
    simp only [ne_eq, Decidable.not_not] at ho
    split at h
    · next hb =>
      cases h
      simp [depth, ho, significant, hb]
    · simp at h

/-- A step keeps what has been read together with what is still to come. -/
theorem marks_step {b b' : Builder} {e : Located Event} (h : b.step e = .ok b')
    (later : List Mark) :
    b'.marks ++ significant b'.depth later =
      b.marks ++ significant b.depth (Event.marks e ++ later) := by
  obtain ⟨event, span⟩ := e
  cases event with
  | start name =>
    cases h
    simp [marks, depth, openMarks, Node.marksAll, Event.marks, significant]
  | empty name =>
    obtain ⟨hm, hd⟩ := marks_attach h
    simp [hm, hd, Element.marks_eq, Event.marks, significant, Node.marksAll]
  | finish name =>
    cases ho : b.openElements with
    | nil => simp [step, ho] at h
    | cons inner outer =>
      simp only [step, ho] at h
      obtain ⟨hm, hd⟩ := marks_attach h
      have hb : b.marks ++ [.leave] = ({ b with openElements := outer } : Builder).marks ++
          inner.marks := by
        simp [marks, ho, openMarks, Element.marks_eq]
      rw [hm, hd, ← hb]
      simp [depth, ho, Event.marks, significant]
  | text run =>
    cases hr : resolve run with
    | error fault => simp [step, hr] at h
    | ok content =>
      simp only [step, hr] at h
      simpa [Event.marks, hr] using marks_text h later
  | verbatim content => simpa [Event.marks] using marks_text h later
  | aside =>
    cases h
    simp [Event.marks]

theorem resolves_of_step {b b' : Builder} {e : Located Event} (h : b.step e = .ok b') :
    Event.Resolves e := by
  obtain ⟨event, span⟩ := e
  rintro run rfl
  cases hr : resolve run with
  | error fault => simp [step, hr] at h
  | ok content => exact ⟨content, rfl⟩

theorem run_cons_eq_ok {b b' : Builder} {e : Located Event} {later : List (Located Event)} :
    b.run (e :: later) = (b', none) ↔ ∃ b₁, b.step e = .ok b₁ ∧ b₁.run later = (b', none) := by
  cases h : b.step e with
  | error fault => simp [run, h]
  | ok b₁ => simp [run, h]

theorem marks_run {b b' : Builder} {events : List (Located Event)}
    (h : b.run events = (b', none)) :
    b'.marks = b.marks ++ significant b.depth (events.flatMap Event.marks) ∧
      ∀ e ∈ events, Event.Resolves e := by
  induction events generalizing b with
  | nil =>
    simp only [run, Prod.mk.injEq, and_true] at h
    subst h
    simp [significant]
  | cons e later ih =>
    obtain ⟨b₁, hs, hr⟩ := run_cons_eq_ok.1 h
    obtain ⟨hm, hl⟩ := ih hr
    refine ⟨?_, ?_⟩
    · rw [hm, marks_step hs, List.flatMap_cons]
    · simpa using ⟨resolves_of_step hs, hl⟩

theorem eq_of_marks_append {b : Builder} {root r : Element} {later : List Mark}
    (hr : b.root = some root) (h : b.marks ++ later = r.marks) :
    root = r ∧ b.openElements = [] ∧ later = [] := by
  simp only [marks, hr, List.append_assoc] at h
  rw [← List.append_nil r.marks] at h
  obtain ⟨rfl, hrest⟩ := Element.marks_append_inj h
  obtain ⟨ho, hl⟩ := List.append_eq_nil_iff.1 hrest
  refine ⟨rfl, ?_, hl⟩
  cases hs : b.openElements with
  | nil => rfl
  | cons inner outer => simp [hs, openMarks] at ho

theorem finish_of_marks_eq {b : Builder} {r : Element} (h : b.marks = r.marks) :
    b.finish = .ok r := by
  cases hr : b.root with
  | some root =>
    obtain ⟨rfl, ho, _⟩ := eq_of_marks_append hr ((List.append_nil _).trans h)
    simp [finish, ho, hr]
  | none =>
    cases ho : b.openElements with
    | nil => simp [marks, hr, ho, openMarks, Element.marks_eq] at h
    | cons inner outer =>
      simp only [marks, hr, ho, List.nil_append] at h
      exact absurd h (openMarks_ne_marks inner outer r)

theorem exists_attach_of_root_eq_none {b : Builder} (hr : b.root = none) (e : Element) :
    ∃ b', b.attach e = .ok b' := by
  by_cases ho : b.openElements = [] <;> simp [attach, ho, hr]

theorem exists_text {b : Builder} {content : String} (span : Span)
    (h : b.openElements = [] → Text.allBlank content = true) :
    ∃ b', b.text content span = .ok b' := by
  by_cases ho : b.openElements = []
  · simp [text, ho, h ho]
  · simp [text, ho]

theorem allBlank_of_significant {content : String} {later ms : List Mark}
    (h : significant 0 (.text content :: later) = ms) (hne : ms.head? ≠ some (.text content)) :
    Text.allBlank content = true := by
  by_cases hb : Text.allBlank content = true
  · exact hb
  · rw [significant, if_neg hb] at h
    rw [← h] at hne
    exact absurd rfl hne

theorem exists_step_of_nil {b : Builder} {e : Located Event} {later : List Mark}
    (he : Event.Resolves e) (h : significant 0 (Event.marks e ++ later) = []) :
    ∃ b', b.step e = .ok b' := by
  obtain ⟨event, span⟩ := e
  cases event with
  | start name => exact ⟨_, rfl⟩
  | empty name => simp [Event.marks, significant] at h
  | finish name => simp [Event.marks, significant] at h
  | text run =>
    obtain ⟨content, hc⟩ := he run rfl
    simp only [Event.marks, hc] at h
    simpa only [step, hc] using exists_text span fun _ => allBlank_of_significant h (by simp)
  | verbatim content => exact exists_text span fun _ => allBlank_of_significant h (by simp)
  | aside => exact ⟨_, rfl⟩

theorem exists_step_of_root_eq_none {b : Builder} (hr : b.root = none) {e : Located Event}
    (he : Event.Resolves e) {later : List Mark} {r : Element}
    (h : b.marks ++ significant b.depth (Event.marks e ++ later) = r.marks) :
    ∃ b', b.step e = .ok b' := by
  obtain ⟨event, span⟩ := e
  have outside (ho : b.openElements = []) :
      significant 0 (Event.marks ⟨event, span⟩ ++ later) =
        .enter r.name r.span :: (Node.marksAll r.children ++ [.leave]) := by
    simpa [marks, depth, hr, ho, openMarks, Element.marks_eq] using h
  cases event with
  | start name => exact ⟨_, rfl⟩
  | empty name => exact exists_attach_of_root_eq_none hr _
  | finish name =>
    cases ho : b.openElements with
    | nil => exact absurd (outside ho) (by simp [Event.marks, significant])
    | cons inner outer =>
      simp only [step, ho]
      exact exists_attach_of_root_eq_none (b := { b with openElements := outer }) hr inner
  | text run =>
    obtain ⟨content, hc⟩ := he run rfl
    simp only [Event.marks, hc] at outside
    simpa only [step, hc] using
      exists_text span fun ho => allBlank_of_significant (outside ho) (by simp)
  | verbatim content =>
    exact exists_text span fun ho => allBlank_of_significant (outside ho) (by simp)
  | aside => exact ⟨_, rfl⟩

/-- Where the marks to come complete a root, the next event fits. -/
theorem exists_step {b : Builder} {e : Located Event} {r : Element} {later : List Mark}
    (he : Event.Resolves e)
    (h : b.marks ++ significant b.depth (Event.marks e ++ later) = r.marks) :
    ∃ b', b.step e = .ok b' := by
  cases hr : b.root with
  | some root =>
    obtain ⟨_, ho, hl⟩ := eq_of_marks_append hr h
    rw [depth, ho] at hl
    exact exists_step_of_nil he hl
  | none => exact exists_step_of_root_eq_none hr he h

theorem exists_run {b : Builder} {events : List (Located Event)} {r : Element}
    (he : ∀ e ∈ events, Event.Resolves e)
    (h : b.marks ++ significant b.depth (events.flatMap Event.marks) = r.marks) :
    ∃ b', b.run events = (b', none) ∧ b'.finish = .ok r := by
  induction events generalizing b with
  | nil =>
    refine ⟨b, rfl, finish_of_marks_eq ?_⟩
    simpa [significant] using h
  | cons e later ih =>
    rw [List.flatMap_cons] at h
    obtain ⟨b₁, hs⟩ := exists_step (he e (by simp)) h
    obtain ⟨b', hrun, hfin⟩ := ih (fun e' h' => he e' (by simp [h'])) ((marks_step hs _).trans h)
    exact ⟨b', run_cons_eq_ok.2 ⟨b₁, hs, hrun⟩, hfin⟩

theorem marks_of_finish {b : Builder} {r : Element} (h : b.finish = .ok r) : b.marks = r.marks := by
  unfold finish at h
  split at h
  · simp at h
  · next ho hr =>
    cases h
    simp [marks, ho, hr, openMarks]
  · simp at h

/-- For events in any order, balanced or not. -/
theorem finish_run_iff {events : List (Located Event)} {r : Element} :
    (∃ b, run {} events = (b, none) ∧ b.finish = .ok r) ↔
      (∀ e ∈ events, Event.Resolves e) ∧ significant 0 (events.flatMap Event.marks) = r.marks := by
  constructor
  · rintro ⟨b, hrun, hfin⟩
    obtain ⟨hm, he⟩ := marks_run hrun
    exact ⟨he, hm.symm.trans (marks_of_finish hfin)⟩
  · rintro ⟨he, hm⟩
    exact exists_run he hm

end Builder

theorem parseDocument_eq_ok {source : String} {r : Element} :
    parseDocument source = .ok r ↔ (read source).fault = none ∧
      ∃ b, Builder.run {} (read source).events = (b, none) ∧ b.finish = .ok r := by
  cases hrun : Builder.run {} (read source).events with
  | mk b fault? =>
    cases fault? with
    | some fault => simp [parseDocument, build, hrun]
    | none => cases hf : (read source).fault <;> simp [parseDocument, build, hrun, hf]

/-- Nothing is lost, repeated, moved or put into the wrong element, and nothing else is accepted. -/
theorem parseDocument_eq_ok_iff_marks (source : String) (r : Element) :
    parseDocument source = .ok r ↔
      (read source).fault = none ∧ (∀ e ∈ (read source).events, Event.Resolves e) ∧
        significant 0 ((read source).events.flatMap Event.marks) = r.marks := by
  rw [parseDocument_eq_ok, Builder.finish_run_iff]

end XmlPipeline.Markup
