import XmlPipeline.Proofs.Cutting
import XmlPipeline.Proofs.Marks
set_option autoImplicit false

namespace XmlPipeline.Markup

/-- How many bytes at the start of a source spans do not count: those of a byte order mark. -/
def uncounted (source : String) : Nat := if source.toList.head? = some '\uFEFF' then 3 else 0

/-- The bytes of the span are those of `slice`, which stands in the source between `before` and
`after`. -/
structure Holds (source : String) (span : Span) (before slice after : List Char) : Prop where
  parts : source.toList = before ++ slice ++ after
  start : Text.size before = span.start + uncounted source
  stop : span.stop = span.start + Text.size slice

theorem Holds.stop_le {source : String} {span : Span} {before slice after : List Char}
    (h : Holds source span before slice after) :
    span.start ≤ span.stop ∧ span.stop + uncounted source ≤ Text.size source.toList := by
  have hsize := congrArg Text.size h.parts
  have hstart := h.start
  have hstop := h.stop
  simp only [Text.size_append] at hsize
  omega

/-- One whole start tag or empty element of that name, from its `<` to the first `>` that is not in
quotes. -/
def IsTag (name : String) (slice : List Char) : Prop :=
  ∃ content, slice = '<' :: (content ++ ['>']) ∧ Encloses none content ∧
    (∀ c, content.head? = some c → c ≠ '!' ∧ c ≠ '/' ∧ c ≠ '?') ∧
    ∃ c more, content ++ ['>'] = name.toList ++ c :: more ∧
      (isSpace c = true ∨ c = '/' ∨ c = '>')

def TagAt (source name : String) (span : Span) : Prop :=
  (∃ before slice after, Holds source span before slice after ∧ IsTag name slice) ∧
    (⟨.start name, span⟩ ∈ (read source).events ∨ ⟨.empty name, span⟩ ∈ (read source).events)

/-- A whole run of text: there is markup, or an end of the source, on both sides of it. -/
def RunAt (source run : String) (span : Span) : Prop :=
  (∃ before after, Holds source span before run.toList after ∧ '<' ∉ run.toList ∧
    (Text.size before = uncounted source ∨ before.getLast? = some '>') ∧
    ∀ c, after.head? = some c → c = '<') ∧
  ⟨.text run, span⟩ ∈ (read source).events

def VerbatimAt (source content : String) (span : Span) : Prop :=
  (∃ before after,
    Holds source span before ("<![CDATA[".toList ++ content.toList ++ "]]>".toList) after) ∧
  ¬ "]]>".toList <:+: content.toList ∧ ⟨.verbatim content, span⟩ ∈ (read source).events

def PointAt (source : String) (span : Span) : Prop :=
  ∃ before after, Holds source span before [] after

theorem withoutMark_of_head?_ne {cs : List Char} (h : cs.head? ≠ some '\uFEFF') :
    withoutMark cs = cs := by
  unfold withoutMark
  split
  · exact absurd rfl h
  · rfl

theorem uncounted_eq (source : String) :
    ∃ mark, source.toList = mark ++ withoutMark source.toList ∧
      Text.size mark = uncounted source := by
  by_cases h : source.toList.head? = some '\uFEFF'
  · obtain ⟨cs, hcs⟩ := List.head?_eq_some_iff.1 h
    exact ⟨['\uFEFF'], by rw [hcs]; rfl, by rw [uncounted, if_pos h]; rfl⟩
  · exact ⟨[], by rw [withoutMark_of_head?_ne h]; rfl, by rw [uncounted, if_neg h]; rfl⟩

/-- Where a text is cut, and what that part of it is an event of. -/
structure Item.Stands (cs : List Char) (offset : Nat) (e : Located Event)
    (before after : List Char) (item : Item) : Prop where
  parts : cs = before ++ (item.spelling ++ after)
  cut : Cut (item.spelling ++ after) item after
  event : ∃ names names', item.event names = .ok (e.value, names')
  start : e.span.start = offset + Text.size before
  stop : e.span.stop = e.span.start + Text.size item.spelling
  left : (∃ run, item = .run run) → before = [] ∨ before.getLast? = some '>'

theorem Item.getLast?_spelling {item : Item} (h : ∀ run, item ≠ .run run) :
    item.spelling.getLast? = some '>' := by
  cases item with
  | run text => exact absurd rfl (h text)
  | tag content => simp [spelling, List.getLast?_cons]
  | close content => simp [spelling, List.getLast?_cons]
  | verbatim content => simp [spelling, List.getLast?_cons, List.getLast?_append]
  | comment body => simp [spelling, List.getLast?_cons]
  | instruction body => simp [spelling, List.getLast?_cons]
  | doctype body => simp [spelling, List.getLast?_cons]

theorem Item.Cut.not_run_run {text rest rest' run run' : List Char} (h : Cut text (.run run) rest)
    (h' : Cut rest (.run run') rest') : False := by
  obtain ⟨ne, plain, _⟩ := h'.run_text
  have hrest := h'.spelling_append
  cases run' with
  | nil => exact ne rfl
  | cons c cs =>
    subst hrest
    obtain rfl := h.run_text.2.2 c rfl
    exact plain (by simp)

theorem exists_stands {names : List String} {offset : Nat} {cs : List Char} {e : Located Event}
    (h : e ∈ (Reading.from names offset cs).events) :
    ∃ before after item, Item.Stands cs offset e before after item := by
  fun_induction Reading.from names offset cs with
  | case1 => simp at h
  | case2 => simp at h
  | case3 => simp at h
  | case4 names offset c cs item rest hn event names' he _ stop later ih =>
    have hcut := Item.cut_next hn
    have hparts := hcut.spelling_append
    rcases List.mem_cons.1 h with rfl | h
    · refine ⟨[], rest, item, hparts.symm, by rwa [hparts], ⟨names, names', he⟩, rfl, rfl, ?_⟩
      exact fun _ => .inl rfl
    · obtain ⟨before, after, item', hs⟩ := ih h
      refine ⟨item.spelling ++ before, after, item', ?_, hs.cut, hs.event, ?_, hs.stop, ?_⟩
      · rw [← hparts, hs.parts, List.append_assoc]
      · rw [hs.start, Text.size_append]
        omega
      · rintro ⟨run', rfl⟩
        right
        rcases hs.left ⟨run', rfl⟩ with rfl | hl
        · have hrest := hs.parts
          rw [List.nil_append] at hrest
          rw [List.append_nil]
          apply Item.getLast?_spelling
          rintro run rfl
          have hnext := hs.cut
          rw [← hrest] at hnext
          exact hcut.not_run_run hnext
        · rw [List.getLast?_append, hl]
          rfl

theorem Item.Stands.holds {source : String} {e : Located Event} {before after : List Char}
    {item : Item} (h : Item.Stands (withoutMark source.toList) 0 e before after item) :
    ∃ mark, Text.size mark = uncounted source ∧
      Holds source e.span (mark ++ before) item.spelling after := by
  obtain ⟨mark, hmark, hsize⟩ := uncounted_eq source
  refine ⟨mark, hsize, ?_, ?_, h.stop⟩
  · rw [hmark, h.parts, List.append_assoc, List.append_assoc]
  · rw [Text.size_append, hsize, h.start]
    omega

theorem tagName_eq_append (content : List Char) : ∃ more, content = (tagName content).toList ++ more ∧
    ∀ c, more.head? = some c → isSpace c = true := by
  refine ⟨content.dropWhile (!isSpace ·), ?_, ?_⟩
  · rw [tagName, String.toList_ofList, List.takeWhile_append_dropWhile]
  · intro c hc
    have hd := List.head?_dropWhile_not (!isSpace ·) content
    rw [hc] at hd
    simpa using hd

/-- What an item is an event of, and what is open after it. -/
inductive Item.Means : List String → Item → Event → List String → Prop where
  | run (names : List String) (text : List Char) :
      Means names (.run text) (.text (String.ofList text)) names
  | start (names : List String) {content : List Char} (h : content.getLast? ≠ some '/') :
      Means names (.tag content) (.start (tagName content)) (tagName content :: names)
  | empty (names : List String) {content : List Char} (h : content.getLast? = some '/') :
      Means names (.tag content) (.empty (tagName content.dropLast)) names
  | finish (names : List String) (content : List Char) :
      Means (closeName content :: names) (.close content) (.finish (closeName content)) names
  | verbatim (names : List String) (content : List Char) :
      Means names (.verbatim content) (.verbatim (String.ofList content)) names
  | comment (names : List String) (body : List Char) : Means names (.comment body) .aside names
  | instruction (names : List String) (body : List Char) :
      Means names (.instruction body) .aside names
  | doctype (names : List String) (body : List Char) : Means names (.doctype body) .aside names

theorem Item.means_of_event {names names' : List String} {item : Item} {event : Event}
    (h : item.event names = .ok (event, names')) : Means names item event names' := by
  cases item with
  | run text =>
    cases h
    exact .run names text
  | tag content =>
    rw [Item.event] at h
    split at h
    · next hl =>
      cases h
      exact .empty names hl
    · next hl =>
      cases h
      exact .start names hl
  | close content =>
    cases names with
    | nil => cases h
    | cons name names =>
      rw [Item.event] at h
      split at h
      · next hn =>
        cases h
        subst hn
        exact .finish _ content
      · cases h
  | verbatim content =>
    cases h
    exact .verbatim names content
  | comment body =>
    cases h
    exact .comment names body
  | instruction body =>
    cases h
    exact .instruction names body
  | doctype body =>
    cases h
    exact .doctype names body

theorem isTag_start {content : List Char} (enclosed : Encloses none content)
    (head : ∀ c, content.head? = some c → c ≠ '!' ∧ c ≠ '/' ∧ c ≠ '?') :
    IsTag (tagName content) (Item.tag content).spelling := by
  refine ⟨content, rfl, enclosed, head, ?_⟩
  obtain ⟨more, hmore, hspace⟩ := tagName_eq_append content
  cases more with
  | nil =>
    rw [List.append_nil] at hmore
    exact ⟨'>', [], by rw [← hmore], .inr (.inr rfl)⟩
  | cons c more =>
    refine ⟨c, more ++ ['>'], ?_, .inl (hspace c rfl)⟩
    rw [← List.cons_append, ← List.append_assoc, ← hmore]

theorem isTag_empty {content : List Char} (slash : content.getLast? = some '/')
    (enclosed : Encloses none content)
    (head : ∀ c, content.head? = some c → c ≠ '!' ∧ c ≠ '/' ∧ c ≠ '?') :
    IsTag (tagName content.dropLast) (Item.tag content).spelling := by
  refine ⟨content, rfl, enclosed, head, ?_⟩
  obtain ⟨more, hmore, hspace⟩ := tagName_eq_append content.dropLast
  obtain ⟨init, rfl⟩ := List.getLast?_eq_some_iff.1 slash
  rw [List.dropLast_concat] at hmore ⊢
  cases more with
  | nil =>
    rw [List.append_nil] at hmore
    refine ⟨'/', ['>'], ?_, .inr (.inl rfl)⟩
    rw [← hmore, List.append_assoc]
    rfl
  | cons c more =>
    refine ⟨c, more ++ ['/', '>'], ?_, .inl (hspace c rfl)⟩
    rw [← List.cons_append, ← List.append_assoc, ← hmore, List.append_assoc]
    rfl

section
variable {source : String}

theorem tagAt_of_mem {name : String} {span : Span}
    (h : ⟨.start name, span⟩ ∈ (read source).events ∨ ⟨.empty name, span⟩ ∈ (read source).events) :
    TagAt source name span := by
  refine ⟨?_, h⟩
  rcases h with h | h
  · obtain ⟨before, after, item, hs⟩ := exists_stands h
    obtain ⟨mark, _, hh⟩ := hs.holds
    obtain ⟨names, names', he⟩ := hs.event
    cases Item.means_of_event he with
    | start names slash =>
      obtain ⟨enclosed, head⟩ := hs.cut.tag_content
      exact ⟨_, _, _, hh, isTag_start enclosed head⟩
  · obtain ⟨before, after, item, hs⟩ := exists_stands h
    obtain ⟨mark, _, hh⟩ := hs.holds
    obtain ⟨names, names', he⟩ := hs.event
    cases Item.means_of_event he with
    | empty names slash =>
      obtain ⟨enclosed, head⟩ := hs.cut.tag_content
      exact ⟨_, _, _, hh, isTag_empty slash enclosed head⟩

theorem runAt_of_mem {run : String} {span : Span} (h : ⟨.text run, span⟩ ∈ (read source).events) :
    RunAt source run span := by
  refine ⟨?_, h⟩
  obtain ⟨before, after, item, hs⟩ := exists_stands h
  obtain ⟨mark, hmark, hh⟩ := hs.holds
  obtain ⟨names, names', he⟩ := hs.event
  cases Item.means_of_event he with
  | run names text =>
    obtain ⟨_, plain, stop⟩ := hs.cut.run_text
    rw [String.toList_ofList]
    refine ⟨mark ++ before, after, hh, plain, ?_, stop⟩
    rcases hs.left ⟨text, rfl⟩ with rfl | hl
    · exact .inl (by rw [List.append_nil, hmark])
    · exact .inr (by rw [List.getLast?_append, hl]; rfl)

theorem verbatimAt_of_mem {content : String} {span : Span}
    (h : ⟨.verbatim content, span⟩ ∈ (read source).events) : VerbatimAt source content span := by
  obtain ⟨before, after, item, hs⟩ := exists_stands h
  obtain ⟨mark, _, hh⟩ := hs.holds
  obtain ⟨names, names', he⟩ := hs.event
  cases Item.means_of_event he with
  | verbatim names text =>
    rw [VerbatimAt]
    simp only [String.toList_ofList]
    exact ⟨⟨mark ++ before, after, hh⟩, hs.cut.verbatim_content, h⟩

end

def Event.opened? : Located Event → Option (String × Span)
  | ⟨.start name, span⟩ | ⟨.empty name, span⟩ => some (name, span)
  | _ => none

def Mark.entered? : Mark → Option (String × Span)
  | .enter name span => some (name, span)
  | _ => none

theorem tagAt_of_mem_opened {source name : String} {span : Span}
    (h : (name, span) ∈ (read source).events.filterMap Event.opened?) : TagAt source name span := by
  obtain ⟨⟨event, span'⟩, he, ho⟩ := List.mem_filterMap.1 h
  cases event with
  | start name' =>
    cases ho
    exact tagAt_of_mem (.inl he)
  | empty name' =>
    cases ho
    exact tagAt_of_mem (.inr he)
  | _ => cases ho

theorem Event.filterMap_marks (e : Located Event) :
    (Event.marks e).filterMap Mark.entered? = (Event.opened? e).toList := by
  obtain ⟨event, span⟩ := e
  cases event with
  | text run => cases h : resolve run <;> simp [Event.marks, h, Event.opened?, Mark.entered?]
  | _ => rfl

theorem Event.filterMap_flatMap_marks (events : List (Located Event)) :
    (events.flatMap Event.marks).filterMap Mark.entered? = events.filterMap Event.opened? := by
  induction events with
  | nil => rfl
  | cons e events ih =>
    rw [List.flatMap_cons, List.filterMap_append, Event.filterMap_marks, ih]
    cases h : Event.opened? e <;> simp [h]

theorem filterMap_significant (depth : Nat) (ms : List Mark) :
    (significant depth ms).filterMap Mark.entered? = ms.filterMap Mark.entered? := by
  fun_induction significant depth ms with
  | case1 => rfl
  | case2 depth name span rest ih => simp [Mark.entered?, ih]
  | case3 depth rest ih => simp [List.filterMap_cons, Mark.entered?, ih]
  | case4 content rest _ ih => simp [List.filterMap_cons, Mark.entered?, ih]
  | case5 content rest _ ih => simp [List.filterMap_cons, Mark.entered?, ih]
  | case6 content rest depth ih => simp [List.filterMap_cons, Mark.entered?, ih]

theorem pairwise_of_adjoining {offset : Nat} {events : List (Located Event)}
    (h : Adjoining offset events) : (∀ e ∈ events, offset ≤ e.span.start) ∧
      events.Pairwise fun e f => e.span.start < e.span.stop ∧ e.span.stop ≤ f.span.start := by
  induction events generalizing offset with
  | nil => simp
  | cons e later ih =>
    obtain ⟨hstart, hstop, hlater⟩ := h
    obtain ⟨hle, hp⟩ := ih hlater
    refine ⟨?_, List.pairwise_cons.2 ⟨?_, hp⟩⟩
    · intro f hf
      rcases List.mem_cons.1 hf with rfl | hf
      · omega
      · have := hle f hf
        omega
    · intro f hf
      exact ⟨by omega, hle f hf⟩

theorem Event.span_of_opened? {e : Located Event} {name : String} {span : Span}
    (h : Event.opened? e = some (name, span)) : e.span = span := by
  obtain ⟨event, span'⟩ := e
  cases event <;> cases h
  · rfl
  · rfl

/-- Tags do not overlap, and stand in a source as they follow one another in its events. -/
theorem pairwise_opened (source : String) :
    ((read source).events.filterMap Event.opened?).Pairwise fun a b =>
      a.2.start < b.2.start ∧ a.2.stop ≤ b.2.start := by
  have hp := (pairwise_of_adjoining (adjoining_from [] 0 (withoutMark source.toList))).2
  rw [List.pairwise_filterMap]
  refine hp.imp ?_
  rintro e f ⟨hne, hle⟩ ⟨name, span⟩ ha ⟨name', span'⟩ hb
  rw [Event.span_of_opened? ha] at hne hle
  rw [Event.span_of_opened? hb] at hle
  exact ⟨Nat.lt_of_lt_of_le hne hle, hle⟩

end XmlPipeline.Markup
