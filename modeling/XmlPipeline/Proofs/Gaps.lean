import XmlPipeline.Proofs.Nesting
import XmlPipeline.Proofs.Passages
import XmlPipeline.Proofs.References
set_option autoImplicit false

namespace XmlPipeline.Markup

theorem Reading.from_cut {names names' : List String} {text rest : List Char} {item : Item}
    {event : Event} (hc : Item.Cut text item rest) (he : item.event names = .ok (event, names'))
    (offset : Nat) : Reading.from names offset text =
      (Reading.from names' (offset + Text.size item.spelling) rest).after
        [⟨event, offset, offset + Text.size item.spelling⟩] := by
  obtain ⟨c, cs, rfl, hn⟩ := hc.exists_next
  exact Reading.from_cons hn he offset

def runEvents (offset : Nat) (run : List Char) : List (Located Event) :=
  if run = [] then [] else [⟨.text (String.ofList run), offset, offset + Text.size run⟩]

theorem Reading.from_run {run rest : List Char} (plain : '<' ∉ run)
    (stop : ∀ c, rest.head? = some c → c = '<') (names : List String) (offset : Nat) :
    Reading.from names offset (run ++ rest) =
      (Reading.from names (offset + Text.size run) rest).after (runEvents offset run) := by
  by_cases hr : run = []
  · subst hr
    simp [runEvents, after]
  · rw [runEvents, if_neg hr]
    exact from_cut (.run hr plain stop) rfl offset

def Span.shift (n : Nat) (span : Span) : Span := ⟨span.start + n, span.stop + n⟩

def Reading.shift (n : Nat) (r : Reading) : Reading :=
  ⟨r.events.map fun e => ⟨e.value, e.span.shift n⟩,
    r.fault.map fun (fault, place) => (fault, place + n)⟩

theorem Reading.from_add (names : List String) (offset n : Nat) (cs : List Char) :
    Reading.from names (offset + n) cs = (Reading.from names offset cs).shift n := by
  fun_induction Reading.from names offset cs with
  | case1 names offset => rw [Reading.from]; rfl
  | case2 names offset c cs defect hn =>
    rw [Reading.from]
    split
    · next defect' hn' =>
      rw [hn] at hn'
      cases hn'
      simp only [shift, List.map_nil, Option.map_some, Nat.add_right_comm]
    · next hn' => rw [hn] at hn'; cases hn'
  | case3 names offset c cs item rest hn fault he =>
    rw [Reading.from]
    split
    · next hn' => rw [hn] at hn'; cases hn'
    · next hn' =>
      rw [hn] at hn'
      cases hn'
      simp [he, shift]
  | case4 names offset c cs item rest hn event names' he _ stop later ih =>
    have hstop : offset + n + Text.size item.spelling = stop + n := Nat.add_right_comm _ _ _
    rw [Reading.from_cut (Item.cut_next hn) he, hstop, ih]
    simp [after, shift, Span.shift, stop, later]

/-- The text is read as these events whatever follows it. -/
def Passes (names : List String) (offset : Nat) (text : List Char) (events : List (Located Event))
    (names' : List String) : Prop :=
  ∀ tail, Reading.from names offset (text ++ tail) =
    (Reading.from names' (offset + Text.size text) tail).after events

theorem Passes.nil (names : List String) (offset : Nat) : Passes names offset [] [] names := by
  intro tail
  simp [Reading.after]

theorem Passes.cons {names names' names'' : List String} {offset : Nat} {text rest more : List Char}
    {item : Item} {event : Event} {events : List (Located Event)} (hc : Item.Cut text item rest)
    (he : item.event names = .ok (event, names'))
    (hp : Passes names' (offset + Text.size item.spelling) more events names'')
    (hrun : ∀ run, item = .run run → more.head? = some '<') :
    Passes names offset (item.spelling ++ more)
      (⟨event, offset, offset + Text.size item.spelling⟩ :: events) names'' := by
  intro tail
  have hcut : Item.Cut (item.spelling ++ (more ++ tail)) item (more ++ tail) := by
    by_cases hr : ∃ run, item = .run run
    · obtain ⟨run, rfl⟩ := hr
      refine hc.of_run ?_
      intro c hcc
      have hlt := hrun run rfl
      cases more with
      | nil => cases hlt
      | cons d more =>
        rw [List.head?_cons, Option.some.injEq] at hlt
        simpa [hlt, eq_comm] using hcc
    · exact hc.of_markup (fun run h => hr ⟨run, h⟩) _
  rw [List.append_assoc, Reading.from_cut hcut he, hp, Reading.after_after, Text.size_append,
    Nat.add_assoc]
  rfl

/-- A text parted in the middle of a run. What comes before the run passes whatever follows it, and
the run is not parted inside a reference. -/
structure Parts (names : List String) (offset : Nat) (before after passed left right rest : List Char)
    (events : List (Located Event)) (names' : List String) : Prop where
  before_eq : before = passed ++ left
  after_eq : after = right ++ rest
  passes : Passes names offset passed events names'
  opened : names' = openNames names events
  early : ∀ e ∈ events, e.span.start < e.span.stop ∧ e.span.stop ≤ offset + Text.size passed
  plain : '<' ∉ left ++ right
  stop : ∀ c, rest.head? = some c → c = '<'
  closed : right = [] ∨ ClosedReferences left

theorem Parts.run {names : List String} {offset : Nat} {left right rest : List Char}
    (plain : '<' ∉ left ++ right) (stop : ∀ c, rest.head? = some c → c = '<')
    (closed : right = [] ∨ ClosedReferences left) :
    Parts names offset left (right ++ rest) [] left right rest [] names where
  before_eq := rfl
  after_eq := rfl
  passes := .nil names offset
  opened := rfl
  early := by simp
  plain := plain
  stop := stop
  closed := closed

theorem Parts.start (names : List String) (offset : Nat) (after : List Char) :
    Parts names offset [] after [] [] (after.takeWhile (· != '<')) (after.dropWhile (· != '<')) []
      names := by
  have hclosed : ClosedReferences [] := fun a b h => by simp at h
  have hparts : Parts names offset [] (after.takeWhile (· != '<') ++ after.dropWhile (· != '<')) []
      [] _ _ [] names :=
    .run (notMem_takeWhile after) (fun _ => eq_of_head?_dropWhile) (.inr hclosed)
  rwa [List.takeWhile_append_dropWhile] at hparts

theorem Parts.cons {names names' names'' : List String} {offset : Nat}
    {before after passed left right rest text more : List Char} {item : Item} {event : Event}
    {events : List (Located Event)} (hc : Item.Cut text item more)
    (he : item.event names = .ok (event, names')) (hmore : more = before ++ after)
    (hrun : ∀ run, item = .run run → before ≠ [])
    (h : Parts names' (offset + Text.size item.spelling) before after passed left right rest events
      names'') :
    Parts names offset (item.spelling ++ before) after (item.spelling ++ passed) left right rest
      (⟨event, offset, offset + Text.size item.spelling⟩ :: events) names'' where
  before_eq := by rw [h.before_eq, List.append_assoc]
  after_eq := h.after_eq
  passes := by
    refine .cons hc he h.passes ?_
    rintro run rfl
    -- Markup follows a run, and what is left of another run does not begin with markup.
    have hne := hrun run rfl
    have hstop := hc.run_text.2.2
    rw [hmore, h.before_eq] at hstop
    rw [h.before_eq] at hne
    cases passed with
    | cons c passed => rw [List.head?_cons, hstop c rfl]
    | nil =>
      cases left with
      | nil => exact absurd rfl hne
      | cons c left =>
        have hlt : c = '<' := hstop c rfl
        exact absurd (by simp [hlt]) h.plain
  opened := by
    rw [h.opened, (Item.means_of_event he).openNames_eq]
    rfl
  early := by
    intro e hm
    have hpos := Text.size_pos hc.spelling_ne_nil
    rw [Text.size_append]
    rcases List.mem_cons.1 hm with rfl | hm
    · simp only
      omega
    · have := h.early e hm
      omega
  plain := h.plain
  stop := h.stop
  closed := h.closed

/-- The event is not cut in two at this place, unless it is a run of text, and there outside its
references. -/
def Apart (place : Nat) (e : Located Event) : Prop :=
  e.span.start < place → place < e.span.stop → ∃ a b, e.value = .text (String.ofList (a ++ b)) ∧
    e.span.start + Text.size a = place ∧ ClosedReferences a

theorem eq_of_size {a b c d : List Char} (h : a ++ b = c ++ d) (hs : Text.size a = Text.size c) :
    a = c := by
  have ha : Text.cutBytes (Text.size c) (c ++ d) = some (a, b) :=
    Text.cutBytes_eq_some_iff.2 ⟨h.symm, hs⟩
  have hc : Text.cutBytes (Text.size c) (c ++ d) = some (c, d) :=
    Text.cutBytes_eq_some_iff.2 ⟨rfl, rfl⟩
  rw [ha, Option.some.injEq, Prod.mk.injEq] at hc
  exact hc.1

theorem parted_of_append_eq {a b c d : List Char} (h : a ++ b = c ++ d) :
    (∃ m, c = a ++ m ∧ b = m ++ d) ∨ ∃ m, m ≠ [] ∧ a = c ++ m ∧ d = m ++ b := by
  rcases List.append_eq_append_iff.1 h with hm | ⟨m, rfl, rfl⟩
  · exact .inl hm
  · by_cases hm : m = []
    · subst hm
      exact .inl ⟨[], by simp, rfl⟩
    · exact .inr ⟨m, hm, rfl, rfl⟩

/-- In a text that is read without a fault, each place that cuts no markup parts a run. -/
theorem exists_parts {names : List String} {offset : Nat} {cs before after : List Char}
    (hf : (Reading.from names offset cs).fault = none) (hcs : cs = before ++ after)
    (apart : ∀ e ∈ (Reading.from names offset cs).events, Apart (offset + Text.size before) e) :
    ∃ passed left right rest events names',
      Parts names offset before after passed left right rest events names' := by
  fun_induction Reading.from names offset cs generalizing before with
  | case1 names offset =>
    obtain ⟨rfl, rfl⟩ := List.append_eq_nil_iff.1 hcs.symm
    exact ⟨_, _, _, _, _, _, Parts.start names offset []⟩
  | case2 => cases hf
  | case3 => cases hf
  | case4 names offset c cs item rest hn event names' he _ stop later =>
    rename_i ih
    have hcut := Item.cut_next hn
    rw [← hcut.spelling_append] at hcs
    rcases parted_of_append_eq hcs with ⟨m, rfl, hrest⟩ | ⟨m, hm, hspelling, rfl⟩
    · by_cases hrun : (∃ run, item = .run run) ∧ m = []
      · obtain ⟨⟨run, rfl⟩, rfl⟩ := hrun
        obtain ⟨_, plain, hstop⟩ := hcut.run_text
        obtain rfl : rest = after := hrest
        rw [List.append_nil]
        exact ⟨_, _, _, _, _, _, Parts.run (by rwa [List.append_nil]) hstop (.inl rfl)⟩
      · have hplace : offset + Text.size (item.spelling ++ m) = stop + Text.size m := by
          rw [Text.size_append, ← Nat.add_assoc]
        rw [hplace] at apart
        have hlater := fun e he => apart e (List.mem_cons_of_mem _ he)
        obtain ⟨passed, left, right, rest', events, names'', hp⟩ := ih hf hrest hlater
        refine ⟨_, _, _, _, _, _, hp.cons hcut he hrest ?_⟩
        rintro run rfl rfl
        exact hrun ⟨⟨run, rfl⟩, rfl⟩
    · by_cases hb : before = []
      · subst hb
        exact ⟨_, _, _, _, _, _, Parts.start names offset (m ++ rest)⟩
      have hstart : offset < offset + Text.size before :=
        Nat.lt_add_of_pos_right (Text.size_pos hb)
      have hstop : offset + Text.size before < stop := by
        have := Text.size_pos hm
        simp only [stop, hspelling, Text.size_append]
        omega
      obtain ⟨a, b, hvalue, hsize, hclosed⟩ := apart _ List.mem_cons_self hstart hstop
      obtain rfl : event = .text (String.ofList (a ++ b)) := hvalue
      cases item with
      | run run =>
        obtain ⟨_, plain, hnext⟩ := hcut.run_text
        simp only [Item.event, Except.ok.injEq, Prod.mk.injEq, Event.text.injEq,
          String.ofList_inj] at he
        obtain ⟨rfl, rfl⟩ := he
        obtain rfl : before = a := eq_of_size hspelling.symm (Nat.add_left_cancel hsize).symm
        obtain rfl : b = m := List.append_cancel_left hspelling
        exact ⟨_, _, _, _, _, _, Parts.run plain hnext (.inr hclosed)⟩
      | _ => cases Item.means_of_event he

theorem Adjoining.filter_eq_nil {offset place : Nat} {events : List (Located Event)}
    (h : Adjoining offset events) (hp : place ≤ offset) :
    events.filter (fun e => e.span.stop ≤ place) = [] := by
  induction events generalizing offset with
  | nil => rfl
  | cons e later ih =>
    obtain ⟨_, hstop, hlater⟩ := h
    rw [List.filter_cons_of_neg (by rw [decide_eq_true_eq]; omega)]
    exact ih hlater (by omega)

theorem openNames_append (names : List String) (a b : List (Located Event)) :
    openNames names (a ++ b) = openNames (openNames names a) b := List.foldl_append

theorem openNames_filter_runEvents (names : List String) (offset : Nat) (run : List Char)
    (p : Located Event → Bool) : openNames names ((runEvents offset run).filter p) = names := by
  by_cases hr : run = []
  · rw [runEvents, if_pos hr]
    rfl
  · rw [runEvents, if_neg hr, List.filter_cons]
    split
    · rfl
    · rfl

namespace Parts
variable {names names' : List String} {offset : Nat}
  {before after passed left right rest : List Char} {events : List (Located Event)}

theorem from_eq (h : Parts names offset before after passed left right rest events names') :
    Reading.from names offset (before ++ after) =
      (Reading.from names' (offset + Text.size passed + Text.size (left ++ right)) rest).after
        (events ++ runEvents (offset + Text.size passed) (left ++ right)) := by
  rw [h.before_eq, h.after_eq, List.append_assoc, ← List.append_assoc left, h.passes,
    Reading.from_run h.plain h.stop, Reading.after_after]

theorem openNames_filter
    (h : Parts names offset before after passed left right rest events names') :
    openNames names ((Reading.from names offset (before ++ after)).events.filter
      fun e => e.span.stop ≤ offset + Text.size before) = names' := by
  have hsize := congrArg Text.size h.before_eq
  rw [Text.size_append] at hsize
  have hpassed : events.filter (fun e => e.span.stop ≤ offset + Text.size before) = events := by
    rw [List.filter_eq_self]
    intro e he
    have := h.early e he
    rw [decide_eq_true_eq]
    omega
  have hle : offset + Text.size before ≤ offset + Text.size passed + Text.size (left ++ right) := by
    rw [Text.size_append]
    omega
  have hlater := (adjoining_from names' _ rest).filter_eq_nil hle
  rw [h.from_eq, Reading.after, List.filter_append, List.filter_append, hpassed, hlater,
    List.append_nil, openNames_append, openNames_filter_runEvents, h.opened]

end Parts

/-- A place where nothing is cut in two. It is counted as spans are, without a byte order mark, and
such a mark is never after it. -/
structure Gap (source : String) (place : Nat) (before after : List Char) : Prop where
  parts : source.toList = before ++ after
  counted : Text.size before = place + uncounted source
  apart : ∀ e ∈ (read source).events, Apart place e

def openAt (source : String) (place : Nat) : List String :=
  openNames [] ((read source).events.filter fun e => e.span.stop ≤ place)

end XmlPipeline.Markup
