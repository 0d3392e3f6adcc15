import XmlPipeline.Proofs.Blame
import XmlPipeline.Proofs.Cursor
import XmlPipeline.Proofs.Lookahead
set_option autoImplicit false

/-!
The event loop: a document is built of the events that a cursor reads, each as soon as it is read.
Main statements: what comes of this is what comes of the document; the cursor and the builder have
the same elements open all the time; and the loop ends, with events that cover the source without a
gap.
-/

namespace XmlPipeline.Markup

structure Loop where
  cursor : Cursor
  builder : Builder := {}
  deriving Repr

inductive Turn where
  /-- An event is read and built, and the loop goes on. -/
  | read (event : Located RawEvent) (later : Loop)
  /-- An event is read that is not text, or does not fit. -/
  | refused (event : Located RawEvent) (fault : Located Fault)
  /-- No event can be read. -/
  | broken (fault : Located Fault)
  /-- The source has ended, and the document is what has been built. -/
  | done (span : Span) (result : Except (Located Fault) Element)

def Turn.event? : Turn → Option (Located RawEvent)
  | .read event _ | .refused event _ => some event
  | .broken _ | .done .. => none

def Turn.result? : Turn → Option (Except (Located Fault) Element)
  | .read .. => none
  | .refused _ fault | .broken fault => some (.error fault)
  | .done _ result => some result

namespace Loop

def start (source : String) : Loop := { cursor := .start (Text.bytes source.toList) }

/-- One turn. No fault is put behind byte `limit`, where the source ends. -/
def turn (limit : Nat) (l : Loop) : Turn :=
  match l.cursor.next with
  | .error (fault, place) => .broken ⟨.malformed fault, .point (min place limit)⟩
  | .ok (none, cursor) => .done ⟨l.cursor.place, cursor.place⟩ l.builder.finish
  | .ok (some raw, cursor) =>
    let span := ⟨l.cursor.place, cursor.place⟩
    match raw.decode? with
    -- A run that is no text would have a message of its own, if there were one.
    | none => .refused ⟨raw, span⟩ ⟨.notUtf8, span⟩
    | some event =>
      match l.builder.step ⟨event, span⟩ with
      | .error fault => .refused ⟨raw, span⟩ fault
      | .ok builder => .read ⟨raw, span⟩ ⟨cursor, builder⟩

inductive Reads (limit : Nat) : Loop → List (Located RawEvent) → Loop → Prop where
  | nil (l : Loop) : Reads limit l [] l
  | cons {l l' l'' : Loop} {e : Located RawEvent} {events : List (Located RawEvent)}
      (read : l.turn limit = .read e l') (later : Reads limit l' events l'') :
      Reads limit l (e :: events) l''

end Loop

def Event.rawAt (e : Located Event) : Located RawEvent := ⟨e.value.raw, e.span⟩

/-- What comes of a document that has been built in part when the rest of it is read so. -/
def Builder.conclude (b : Builder) (r : Reading) : Except (Located Fault) Element :=
  match b.run r.events, r.fault with
  | (_, some fault), _ => .error fault
  | (_, none), some (fault, place) => .error ⟨.malformed fault, .point place⟩
  | (b, none), none => b.finish

theorem parseDocument_eq_conclude (source : String) :
    parseDocument source = Builder.conclude {} (read source) := by
  rw [parseDocument, build, Builder.conclude]
  cases hrun : Builder.run {} (read source).events with
  | mk b fault? =>
    cases fault? with
    | some fault => rfl
    | none => cases hf : (read source).fault <;> rfl

theorem Reading.from_defect {c : Char} {cs : List Char} {defect : Defect}
    (h : Item.next c cs = .error defect) (names : List String) (offset : Nat) :
    Reading.from names offset (c :: cs) = ⟨[], some (defect.fault, offset + defect.ahead)⟩ := by
  rw [Reading.from]
  split
  · next h' =>
    rw [h] at h'
    cases h'
    rfl
  · next h' =>
    rw [h] at h'
    cases h'

theorem Builder.conclude_after (b : Builder) (e : Located Event) (r : Reading) :
    b.conclude (r.after [e]) =
      match b.step e with
      | .error fault => .error fault
      | .ok b' => b'.conclude r := by
  rw [conclude, Reading.after, List.singleton_append, run]
  cases b.step e <;> rfl

namespace Loop

/-- The loop is at byte `offset`, before the text `cs`, and what comes of that is what comes of the
source. Its cursor and its builder both have the elements `names` open. -/
structure Stands (source : String) (names : List String) (offset : Nat) (cs : List Char)
    (l : Loop) : Prop where
  cursor : l.cursor.At names offset cs
  builder : l.builder.names = names
  counted : offset + Text.size cs + uncounted source = Text.size source.toList
  outcome : l.builder.conclude (Reading.from names offset cs) = parseDocument source

theorem Stands.exists_innermost {source : String} {names : List String} {offset : Nat}
    {cs : List Char} {l : Loop} {name : String} (h : Stands source names offset cs l)
    (hname : names.head? = some name) :
    ∃ inner outer, l.builder.openElements = inner :: outer ∧ inner.name = name := by
  rw [← h.builder, Builder.names] at hname
  cases hopen : l.builder.openElements with
  | nil =>
    rw [hopen] at hname
    cases hname
  | cons inner outer =>
    rw [hopen, List.map_cons, List.head?_cons, Option.some.injEq] at hname
    exact ⟨inner, outer, rfl, hname⟩

theorem stands_start (source : String) :
    Stands source [] 0 (withoutMark source.toList) (start source) where
  cursor := .fresh source.toList
  builder := rfl
  counted := by
    obtain ⟨mark, hmark, hsize⟩ := uncounted_eq source
    have hsum := congrArg Text.size hmark
    rw [Text.size_append, hsize] at hsum
    omega
  outcome := (parseDocument_eq_conclude source).symm

inductive Goes (source : String) (names : List String) (offset : Nat) (cs : List Char) :
    Turn → Prop where
  | read {event : Event} {names' : List String} {stop : Nat} {rest : List Char} {l : Loop}
      (nonempty : offset < stop) (shorter : rest.length < cs.length)
      (innermost : ∀ name, event = .finish name → names.head? = some name)
      (reading : Reading.from names offset cs =
        (Reading.from names' stop rest).after [⟨event, offset, stop⟩])
      (stands : Stands source names' stop rest l) :
      Goes source names offset cs (.read ⟨event.raw, offset, stop⟩ l)
  | refused {event : Event} {stop : Nat} {fault : Located Fault} (nonempty : offset < stop)
      (innermost : ∀ name, event = .finish name → names.head? = some name)
      (outcome : parseDocument source = .error fault) :
      Goes source names offset cs (.refused ⟨event.raw, offset, stop⟩ fault)
  | broken {fault : Located Fault} (outcome : parseDocument source = .error fault) :
      Goes source names offset cs (.broken fault)
  | done (ended : cs = []) :
      Goes source names offset cs (.done (.point offset) (parseDocument source))

section
variable {source : String} {names : List String} {offset : Nat} {cs : List Char} {l : Loop}

theorem Stands.place_le (h : Stands source names offset cs l) {ahead : List Char}
    (hcs : ahead <+: cs) : offset + Text.size ahead ≤ Text.size source.toList := by
  obtain ⟨rest, rfl⟩ := hcs
  have hcounted := h.counted
  rw [Text.size_append] at hcounted
  omega

/-- An item that is read ends the document or is built, and the loop stands behind it then. -/
theorem Stands.goes_of_item (h : Stands source names offset cs l) {item : Item} {rest : List Char}
    {event : Event} {names' : List String} {c : Cursor} (cut : Item.Cut cs item rest)
    (means : item.event names = .ok (event, names'))
    (behind : c.At names' (offset + Text.size item.spelling) rest)
    (hnext : l.cursor.next = .ok (some event.raw, c)) :
    Goes source names offset cs (l.turn (Text.size source.toList)) := by
  have hpos := Text.size_pos cut.spelling_ne_nil
  have hspelling := cut.spelling_append
  have hinnermost : ∀ name, event = .finish name → names.head? = some name := by
    rintro name rfl
    cases Item.means_of_event means
    rfl
  have hreading := Reading.from_cut cut means offset
  have houtcome := h.outcome
  rw [hreading, Builder.conclude_after] at houtcome
  unfold turn
  simp only [hnext, h.cursor.place_eq, behind.place_eq, Event.decode?_raw]
  cases hstep : l.builder.step ⟨event, offset, offset + Text.size item.spelling⟩ with
  | error fault =>
    simp only [hstep] at houtcome
    exact .refused (Nat.lt_add_of_pos_right hpos) hinnermost houtcome.symm
  | ok b =>
    simp only [hstep] at houtcome
    refine .read (Nat.lt_add_of_pos_right hpos) ?_ hinnermost hreading ⟨behind, ?_, ?_, houtcome⟩
    · have hlength := congrArg List.length hspelling
      have hpos := List.length_pos_iff.2 cut.spelling_ne_nil
      rw [List.length_append] at hlength
      omega
    · rw [Builder.names_step hstep, h.builder]
      exact (Item.means_of_event means).openNames_eq.symm
    · have hcounted := h.counted
      rw [← hspelling, Text.size_append] at hcounted
      omega

/-- All that a turn can do. -/
theorem Stands.goes (h : Stands source names offset cs l) :
    Goes source names offset cs (l.turn (Text.size source.toList)) := by
  have hgives := h.cursor.gives_next
  have houtcome := h.outcome
  generalize hnext : l.cursor.next = result at hgives
  cases hgives with
  | ended place =>
    rw [Reading.from] at houtcome
    unfold turn
    simp only [hnext, h.cursor.place_eq, place]
    rw [show l.builder.finish = parseDocument source from houtcome]
    exact .done rfl
  | @defective d ds defect hcut =>
    obtain ⟨ahead, rest, hparts, hahead⟩ := Item.exists_defect hcut
    have hle : offset + Text.size ahead ≤ Text.size source.toList :=
      h.place_le ⟨rest, hparts.symm⟩
    rw [hahead] at hle
    rw [Reading.from_defect hcut] at houtcome
    unfold turn
    simp only [hnext, Nat.min_eq_left hle]
    exact .broken houtcome.symm
  | misnamed hcut means =>
    have hle : offset ≤ Text.size source.toList := h.place_le List.nil_prefix
    rw [Reading.from_misnamed (Item.cut_next hcut) means] at houtcome
    unfold turn
    simp only [hnext, Nat.min_eq_left hle]
    exact .broken houtcome.symm
  | read hcut means behind => exact h.goes_of_item (Item.cut_next hcut) means behind hnext

end

section
variable {source : String} {names : List String} {offset : Nat} {cs : List Char} {t : Turn}

theorem Goes.result_eq {result : Except (Located Fault) Element} (h : Goes source names offset cs t)
    (hresult : t.result? = some result) : result = parseDocument source := by
  cases h with
  | read => cases hresult
  | refused _ _ outcome =>
    cases hresult
    exact outcome.symm
  | broken outcome =>
    cases hresult
    exact outcome.symm
  | done =>
    cases hresult
    rfl

theorem Goes.exists_event {e : Located RawEvent} (h : Goes source names offset cs t)
    (he : t.event? = some e) : ∃ (event : Event) (stop : Nat),
      e = ⟨event.raw, offset, stop⟩ ∧ offset < stop ∧
      ∀ name, event = .finish name → names.head? = some name := by
  cases h with
  | read nonempty _ innermost =>
    cases he
    exact ⟨_, _, rfl, nonempty, innermost⟩
  | refused nonempty innermost =>
    cases he
    exact ⟨_, _, rfl, nonempty, innermost⟩
  | broken => cases he
  | done => cases he

end

end Loop

/-- The spans cut up the bytes from `start` to `stop`: each starts where the one before it stopped,
and none is empty. -/
inductive Tiles : Nat → List Span → Nat → Prop where
  | nil (place : Nat) : Tiles place [] place
  | cons {start middle stop : Nat} {spans : List Span} (nonempty : start < middle)
      (later : Tiles middle spans stop) : Tiles start (⟨start, middle⟩ :: spans) stop

theorem Tiles.length_le {start stop : Nat} {spans : List Span} (h : Tiles start spans stop) :
    start + spans.length ≤ stop := by
  induction h with
  | nil => simp
  | cons nonempty later ih =>
    rw [List.length_cons]
    omega

namespace Loop
variable {source : String} {names : List String} {offset : Nat} {cs : List Char} {l l' : Loop}
  {events : List (Located RawEvent)}

/-- The loop reads what is read of the source as a whole, event by event. -/
theorem Stands.of_reads (h : Stands source names offset cs l)
    (hr : Reads (Text.size source.toList) l events l') : ∃ names' stop rest,
      Stands source names' stop rest l' ∧ Tiles offset (events.map Located.span) stop ∧
        ∃ before, events = before.map Event.rawAt ∧
          Reading.from names offset cs = (Reading.from names' stop rest).after before := by
  induction hr generalizing names offset cs with
  | nil l => exact ⟨names, offset, cs, h, .nil offset, [], rfl, by simp [Reading.after]⟩
  | @cons l l₁ l' e events hread later ih =>
    have hgoes := h.goes
    rw [hread] at hgoes
    cases hgoes with
    | @read event _ middle _ _ nonempty _ _ reading stands =>
      obtain ⟨names', stop, rest, hstands, htiles, before, rfl, hreading⟩ := ih stands
      refine ⟨names', stop, rest, hstands, .cons nonempty htiles,
        ⟨event, offset, middle⟩ :: before, rfl, ?_⟩
      rw [reading, hreading, Reading.after_after]
      rfl

theorem Stands.exists_last {source : String} {names : List String} {offset : Nat} {cs : List Char}
    {l : Loop} (h : Stands source names offset cs l) : ∃ events last,
    Reads (Text.size source.toList) l events last ∧
      (last.turn (Text.size source.toList)).result? = some (parseDocument source) := by
  have hgoes := h.goes
  generalize hturn : l.turn (Text.size source.toList) = turn at hgoes
  cases hgoes with
  | @read event names' stop rest l₁ nonempty shorter _ _ stands =>
    -- What is left of the source is shorter than before.
    obtain ⟨events, last, hreads, hresult⟩ := stands.exists_last
    exact ⟨_, last, .cons hturn hreads, hresult⟩
  | refused _ _ outcome =>
    refine ⟨[], l, .nil l, ?_⟩
    rw [hturn, outcome]
    rfl
  | broken outcome =>
    refine ⟨[], l, .nil l, ?_⟩
    rw [hturn, outcome]
    rfl
  | done => exact ⟨[], l, .nil l, by rw [hturn]; rfl⟩
termination_by cs.length

theorem Reads.prefix_of_result {limit : Nat} {l l' last : Loop}
    {events events' : List (Located RawEvent)} {result : Except (Located Fault) Element}
    (h' : Reads limit l events' l') (h : Reads limit l events last)
    (hresult : (last.turn limit).result? = some result) : events' <+: events := by
  induction h' generalizing events with
  | nil => exact List.nil_prefix
  | cons hread later ih =>
    cases h with
    | nil =>
      rw [hread] at hresult
      cases hresult
    | cons hread' later' =>
      rw [hread] at hread'
      cases hread'
      exact List.cons_prefix_cons.2 ⟨rfl, ih later'⟩

end Loop

end XmlPipeline.Markup

namespace XmlPipeline
open Markup (Located Loop RawEvent Tiles uncounted parseDocument)

/-- The names are compared as bytes, innermost first. The last part says that no source is refused
for an end tag without an element, or for bytes that are no text. -/
theorem cursor_and_builder_agree (source : String) (events : List (Located RawEvent)) (l : Loop)
    (h : Loop.Reads (Text.size source.toList) (.start source) events l) :
    l.cursor.opened = l.builder.openElements.map (fun e => Text.bytes e.name.toList) ∧
      (∀ e, (l.turn (Text.size source.toList)).event? = some e →
        (∀ slice, e.value.slice? = some slice → ∃ text, Text.decode? slice = some text) ∧
        ∀ name, e.value = .finish name → ∃ inner outer,
          l.builder.openElements = inner :: outer ∧ Text.bytes inner.name.toList = name ∧
            ∀ text span, l.builder.step ⟨.finish text, span⟩ =
              ({ l.builder with openElements := outer } : Markup.Builder).attach inner) ∧
      (∀ result, (l.turn (Text.size source.toList)).result? = some result →
        result = parseDocument source) ∧
      ∀ span, parseDocument source ≠ .error ⟨.strayEnd, span⟩ ∧
        parseDocument source ≠ .error ⟨.notUtf8, span⟩ := by
  obtain ⟨names, stop, rest, hstands, _⟩ := (Loop.stands_start source).of_reads h
  refine ⟨?_, ?_, fun result => hstands.goes.result_eq, fun span => ⟨?_, ?_⟩⟩
  · rw [hstands.cursor.opened_eq, ← hstands.builder, Markup.Builder.names, List.map_map]
    rfl
  · intro e he
    obtain ⟨event, stop, rfl, _, hinnermost⟩ := hstands.goes.exists_event he
    refine ⟨fun slice => Markup.Event.exists_text_of_slice?, ?_⟩
    intro name hname
    obtain ⟨text, rfl, rfl⟩ := Markup.Event.exists_of_raw_eq_finish hname
    obtain ⟨inner, outer, hopen, rfl⟩ := hstands.exists_innermost (hinnermost text rfl)
    refine ⟨inner, outer, hopen, rfl, ?_⟩
    intro text span
    rw [Markup.Builder.step, hopen]
  · intro hparse
    exact Markup.shown_of_parseDocument hparse
  · intro hparse
    exact Markup.shown_of_parseDocument hparse

/-- The end tag is read from behind the `<` that ended the text. -/
theorem cursor_and_builder_agree_end_tag : ∃ l,
    Loop.Reads (Text.size "<a>é</a >".toList) (.start "<a>é</a >")
      [⟨.start [0x61], ⟨0, 3⟩⟩, ⟨.text [0xC3, 0xA9], ⟨3, 5⟩⟩] l ∧
    (l.turn (Text.size "<a>é</a >".toList)).event? = some ⟨.finish [0x61], ⟨5, 10⟩⟩ ∧
    ∃ inner outer, l.builder.openElements = inner :: outer ∧
      Text.bytes inner.name.toList = [0x61] := by
  have h : Loop.Reads (Text.size "<a>é</a >".toList) (.start "<a>é</a >")
      [⟨.start [0x61], ⟨0, 3⟩⟩, ⟨.text [0xC3, 0xA9], ⟨3, 5⟩⟩]
      ⟨⟨.markup, 6, [[0x61]], [0x2F, 0x61, 0x20, 0x3E]⟩,
        { openElements := [⟨"a", ⟨0, 3⟩, [.text "é"]⟩] }⟩ := by
    have htag : (Loop.start "<a>é</a >").turn (Text.size "<a>é</a >".toList) =
        .read ⟨.start [0x61], ⟨0, 3⟩⟩
          ⟨⟨.text, 3, [[0x61]], [0xC3, 0xA9, 0x3C, 0x2F, 0x61, 0x20, 0x3E]⟩,
            { openElements := [⟨"a", ⟨0, 3⟩, []⟩] }⟩ := by
      cbv
    refine .cons htag (.cons ?_ (.nil _))
    cbv
  have hend : (Loop.turn (Text.size "<a>é</a >".toList)
      ⟨⟨.markup, 6, [[0x61]], [0x2F, 0x61, 0x20, 0x3E]⟩,
        { openElements := [⟨"a", ⟨0, 3⟩, [.text "é"]⟩] }⟩).event? =
      some ⟨.finish [0x61], ⟨5, 10⟩⟩ := by
    cbv
  obtain ⟨_, hevent, _⟩ := cursor_and_builder_agree _ _ _ h
  obtain ⟨inner, outer, hopen, hname, _⟩ := (hevent _ hend).2 _ rfl
  exact ⟨_, h, hend, inner, outer, hopen, hname⟩

/-- Every run of the loop comes to an end. What it reads before that are the bytes of the source,
but for a byte order mark, each of them once. -/
theorem event_loop_tiles_source (source : String) : ∃ events last,
    Loop.Reads (Text.size source.toList) (.start source) events last ∧
      (last.turn (Text.size source.toList)).result? = some (parseDocument source) ∧
      events.length ≤ Text.size source.toList ∧
      events <+: (Markup.read source).events.map Markup.Event.rawAt ∧
      (∀ events' l, Loop.Reads (Text.size source.toList) (.start source) events' l →
        events' <+: events) ∧
      Tiles 0 (events.map Located.span) last.cursor.place ∧
      (∀ e, (last.turn (Text.size source.toList)).event? = some e →
        e.span.start = last.cursor.place ∧ e.span.start < e.span.stop) ∧
      ∀ span result, last.turn (Text.size source.toList) = .done span result →
        span = .point last.cursor.place ∧
          last.cursor.place + uncounted source = Text.size source.toList := by
  obtain ⟨events, last, hreads, hresult⟩ := (Loop.stands_start source).exists_last
  obtain ⟨names, stop, rest, hstands, htiles, before, hevents, hreading⟩ :=
    (Loop.stands_start source).of_reads hreads
  have hplace := hstands.cursor.place_eq
  refine ⟨events, last, hreads, hresult, ?_, ?_,
    fun events' l hr => hr.prefix_of_result hreads hresult, ?_, ?_, ?_⟩
  · have hlength := htiles.length_le
    have hcounted := hstands.counted
    rw [List.length_map] at hlength
    omega
  · rw [hevents, Markup.read, hreading, Markup.Reading.after, List.map_append]
    exact List.prefix_append _ _
  · rwa [hplace]
  · intro e he
    obtain ⟨event, stop, rfl, hnonempty, _⟩ := hstands.goes.exists_event he
    exact ⟨hplace.symm, hnonempty⟩
  · intro span result hturn
    have hgoes := hstands.goes
    rw [hturn] at hgoes
    cases hgoes with
    | done ended =>
      subst ended
      rw [hplace]
      exact ⟨rfl, hstands.counted⟩

end XmlPipeline
