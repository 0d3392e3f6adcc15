import XmlPipeline.Proofs.Marks
set_option autoImplicit false

/-!
Passages: parts of a source that are read alike whatever follows them. Main statement: what stands
between a start tag and its end tag is a passage if it is one for itself. Names in tags are taken to
be plain here; NOT every name that can be read is.
-/

namespace XmlPipeline.Markup

def isPlain (c : Char) : Bool :=
  !isSpace c && !(c = '>' || c = '/' || c = '!' || c = '?' || c = '"' || c = '\'')

/-- A name that ends, in a tag, where it ends. -/
def Plain (name : String) : Prop := name.toList ≠ [] ∧ name.toList.all isPlain = true

def opening (name : String) : List Char := '<' :: (name.toList ++ ['>'])

def closing (name : String) : List Char := '<' :: '/' :: (name.toList ++ ['>'])

theorem isPlain_iff {c : Char} : isPlain c = true ↔ isSpace c = false ∧ c ≠ '>' ∧ c ≠ '/' ∧
    c ≠ '!' ∧ c ≠ '?' ∧ c ≠ '"' ∧ c ≠ '\'' := by
  simp [isPlain, and_assoc]

theorem Plain.of_mem {name : String} (h : Plain name) {c : Char} (hc : c ∈ name.toList) :
    isSpace c = false ∧ c ≠ '>' ∧ c ≠ '/' ∧ c ≠ '!' ∧ c ≠ '?' ∧ c ≠ '"' ∧ c ≠ '\'' :=
  isPlain_iff.1 (List.all_eq_true.1 h.2 c hc)

theorem cutTag_append {cs : List Char} (h : cs.all isPlain = true) (tail : List Char) :
    cutTag none (cs ++ '>' :: tail) = some (cs, tail) := by
  induction cs with
  | nil => simp [cutTag]
  | cons c cs ih =>
    rw [List.all_cons, Bool.and_eq_true] at h
    obtain ⟨_, hgt, _, _, _, hq, ha⟩ := isPlain_iff.1 h.1
    simp [cutTag, hgt, hq, ha, ih h.2]

theorem Item.next_opening {name : String} (h : Plain name) (tail : List Char) :
    Item.next '<' (name.toList ++ '>' :: tail) = .ok (.tag name.toList, tail) := by
  have hcut := cutTag_append h.2 tail
  cases hn : name.toList with
  | nil => exact absurd hn h.1
  | cons c cs =>
    obtain ⟨_, _, hs, he, hq, _⟩ := h.of_mem (by simp [hn] : c ∈ name.toList)
    rw [hn, List.cons_append] at hcut
    rw [List.cons_append]
    rw [Item.next, if_pos rfl, Item.markup]
    · rw [hcut]
    · rintro rest hr
      exact he (by injection hr)
    · rintro rest hr
      exact hs (by injection hr)
    · rintro rest hr
      exact hq (by injection hr)

theorem Item.next_closing {name : String} (h : Plain name) (tail : List Char) :
    Item.next '<' ('/' :: (name.toList ++ '>' :: tail)) = .ok (.close name.toList, tail) := by
  rw [Item.next, if_pos rfl, Item.markup, cutTag_append h.2]

theorem Item.next_run {c : Char} {cs : List Char} (h : '<' ∉ c :: cs) (tail : List Char) :
    Item.next c (cs ++ '<' :: tail) = .ok (.run (c :: cs), '<' :: tail) := by
  have hc : c ≠ '<' := fun e => h (by simp [e])
  have hcs : ∀ d ∈ cs, (d != '<') = true := fun d hd => by
    simp only [bne_iff_ne, ne_eq]
    rintro rfl
    exact h (by simp [hd])
  rw [Item.next, if_neg hc, List.takeWhile_append_of_pos hcs, List.dropWhile_append_of_pos hcs]
  simp

theorem takeWhile_of_forall {p : Char → Bool} {cs : List Char} (h : ∀ c ∈ cs, p c = true) :
    cs.takeWhile p = cs := by
  induction cs with
  | nil => rfl
  | cons c cs ih => simp [h c (by simp), ih fun d hd => h d (by simp [hd])]

theorem Plain.tagName {name : String} (h : Plain name) : tagName name.toList = name := by
  have hs : ∀ c ∈ name.toList, (!isSpace c) = true := fun c hc => by
    simp [(h.of_mem hc).1]
  rw [Markup.tagName, takeWhile_of_forall hs, String.ofList_toList]

theorem Plain.getLast?_ne {name : String} (h : Plain name) :
    name.toList.getLast? ≠ some '/' := by
  intro hl
  obtain ⟨_, _, hs, _⟩ := h.of_mem (List.mem_of_getLast? hl)
  exact hs rfl

theorem Plain.closeName {name : String} (h : Plain name) : closeName name.toList = name := by
  have hd : name.toList.reverse.dropWhile isSpace = name.toList.reverse := by
    cases hr : name.toList.reverse with
    | nil => rfl
    | cons c cs =>
      have hm : c ∈ name.toList := by
        rw [← List.mem_reverse, hr]
        simp
      simp [(h.of_mem hm).1]
  rw [Markup.closeName, hd, List.reverse_reverse, String.ofList_toList, ite_self]

theorem Plain.event_tag {name : String} (h : Plain name) (names : List String) :
    (Item.tag name.toList).event names = .ok (.start name, name :: names) := by
  rw [Item.event, if_neg h.getLast?_ne, h.tagName]

theorem Plain.event_close {name : String} (h : Plain name) (names : List String) :
    (Item.close name.toList).event (name :: names) = .ok (.finish name, names) := by
  simp [Item.event, h.closeName]

def Reading.after (events : List (Located Event)) (r : Reading) : Reading :=
  ⟨events ++ r.events, r.fault⟩

theorem Reading.after_after (a b : List (Located Event)) (r : Reading) :
    (r.after b).after a = r.after (a ++ b) := by
  simp [after]

theorem Reading.from_cons {names names' : List String} {c : Char} {cs rest : List Char}
    {item : Item} {event : Event} (hn : Item.next c cs = .ok (item, rest))
    (he : item.event names = .ok (event, names')) (offset : Nat) :
    Reading.from names offset (c :: cs) =
      (Reading.from names' (offset + Text.size item.spelling) rest).after
        [⟨event, offset, offset + Text.size item.spelling⟩] := by
  rw [Reading.from]
  split
  · next defect hn' =>
    rw [hn] at hn'
    exact absurd hn' (by simp)
  · next item' rest' hn' =>
    rw [hn] at hn'
    cases hn'
    simp [he, after]

/-- Whatever follows it, the text is read from byte `offset` on as these marks. The elements `names`
are open before it, and `names'` after it. -/
def Reads (names : List String) (offset : Nat) (text : List Char) (ms : List Mark)
    (names' : List String) : Prop :=
  ∃ events, (∀ tail, Reading.from names offset (text ++ tail) =
      (Reading.from names' (offset + Text.size text) tail).after events) ∧
    (∀ e ∈ events, Event.Resolves e) ∧ events.flatMap Event.marks = ms

theorem Reads.nil (names : List String) (offset : Nat) : Reads names offset [] [] names :=
  ⟨[], by simp [Reading.after], by simp, rfl⟩

theorem Reads.append {names names' names'' : List String} {offset : Nat} {a b : List Char}
    {as bs : List Mark} (ha : Reads names offset a as names')
    (hb : Reads names' (offset + Text.size a) b bs names'') :
    Reads names offset (a ++ b) (as ++ bs) names'' := by
  obtain ⟨es, hes, hrs, hms⟩ := ha
  obtain ⟨fs, hfs, hrs', hms'⟩ := hb
  refine ⟨es ++ fs, ?_, ?_, ?_⟩
  · intro tail
    rw [List.append_assoc, hes, hfs, Reading.after_after, Text.size_append, Nat.add_assoc]
  · intro e he
    exact (List.mem_append.1 he).elim (hrs e) (hrs' e)
  · rw [List.flatMap_append, hms, hms']

theorem reads_opening {name : String} (h : Plain name) (names : List String) (offset : Nat) :
    Reads names offset (opening name)
      [.enter name ⟨offset, offset + Text.size (opening name)⟩] (name :: names) := by
  refine ⟨[⟨.start name, offset, offset + Text.size (opening name)⟩], ?_, ?_, rfl⟩
  · intro tail
    have hn := Item.next_opening h tail
    rw [opening, List.cons_append, List.append_assoc]
    exact Reading.from_cons hn (h.event_tag names) offset
  · simp [Event.Resolves]

theorem reads_closing {name : String} (h : Plain name) (names : List String) (offset : Nat) :
    Reads (name :: names) offset (closing name) [.leave] names := by
  refine ⟨[⟨.finish name, offset, offset + Text.size (closing name)⟩], ?_, ?_, rfl⟩
  · intro tail
    have hn := Item.next_closing h tail
    rw [closing, List.cons_append, List.cons_append, List.append_assoc]
    exact Reading.from_cons hn (h.event_close names) offset
  · simp [Event.Resolves]

/-- A run of text ends at the next tag, so it is a passage only together with that. -/
theorem reads_run_closing {name : String} (h : Plain name) (names : List String) (offset : Nat)
    {run : List Char} (hne : run ≠ []) (hlt : '<' ∉ run) {content : String}
    (hc : resolve (String.ofList run) = .ok content) :
    Reads (name :: names) offset (run ++ closing name) [.text content, .leave] names := by
  obtain ⟨es, hes, hrs, hms⟩ := reads_closing h names (offset + Text.size run)
  refine ⟨⟨.text (String.ofList run), offset, offset + Text.size run⟩ :: es, ?_, ?_, ?_⟩
  · intro tail
    have hf : Reading.from (name :: names) offset (run ++ (closing name ++ tail)) =
        (Reading.from (name :: names) (offset + Text.size run) (closing name ++ tail)).after
          [⟨.text (String.ofList run), offset, offset + Text.size run⟩] := by
      cases run with
      | nil => exact absurd rfl hne
      | cons c cs => exact Reading.from_cons (Item.next_run hlt _) rfl offset
    rw [List.append_assoc, hf, hes, Reading.after_after, Text.size_append, Nat.add_assoc]
    rfl
  · intro e he run' hr
    rcases List.mem_cons.1 he with rfl | he
    · cases hr
      exact ⟨content, hc⟩
    · exact hrs e he run' hr
  · simp [Event.marks, hc, hms]

theorem Reads.element {name : String} (h : Plain name) {names : List String} {offset : Nat}
    {inner : List Char} {ms : List Mark}
    (hi : Reads (name :: names) (offset + Text.size (opening name)) (inner ++ closing name)
      (ms ++ [.leave]) names) :
    Reads names offset (opening name ++ inner ++ closing name)
      (.enter name ⟨offset, offset + Text.size (opening name)⟩ :: (ms ++ [.leave])) names := by
  rw [List.append_assoc]
  exact (reads_opening h names offset).append hi

end XmlPipeline.Markup
