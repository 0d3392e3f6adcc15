import XmlPipeline.Program.Parse
import XmlPipeline.Proofs.Agreement
import XmlPipeline.Proofs.Blame
import XmlPipeline.Proofs.Gaps
set_option autoImplicit false

/-!
Lookahead: how much of a source has to be read before its fault is known. Main statement: where a
document fails at an item of it, nothing that comes after the item makes any difference, but that a
run of text has to be seen to end.
-/

namespace XmlPipeline.Markup

/-- What stands before `rest` is read as these events, item by item. The elements `names` are open
at its beginning, and `names'` at its end. -/
inductive ReadThrough : List String → Nat → List Char → List Char → List (Located Event) →
    List String → Prop where
  | nil (names : List String) (offset : Nat) (rest : List Char) :
      ReadThrough names offset [] rest [] names
  | cons {names names' names'' : List String} {offset : Nat} {before rest : List Char} {item : Item}
      {event : Event} {events : List (Located Event)}
      (cut : Item.Cut (item.spelling ++ (before ++ rest)) item (before ++ rest))
      (means : item.event names = .ok (event, names'))
      (later : ReadThrough names' (offset + Text.size item.spelling) before rest events names'') :
      ReadThrough names offset (item.spelling ++ before) rest
        (⟨event, offset, offset + Text.size item.spelling⟩ :: events) names''

/-- The item that comes next when what is before it has been read and built without a fault. -/
structure ComesTo (source : String) (before : List Char) (item : Item) (after : List Char)
    (names : List String) (b : Builder) : Prop where
  parts : withoutMark source.toList = before ++ (item.spelling ++ after)
  through : ∃ events, ReadThrough [] 0 before (item.spelling ++ after) events names ∧
    Builder.run {} events = (b, none)
  cut : Item.Cut (item.spelling ++ after) item after

/-- The item at which a document fails: its event does not fit what has been built, or it is an end
tag that does not close what is open. -/
inductive FailsAt (source : String) (before : List Char) (item : Item) (after : List Char) :
    Located Fault → Prop where
  | refused {names names' : List String} {b : Builder} {event : Event} {fault : Located Fault}
      (comes : ComesTo source before item after names b)
      (means : item.event names = .ok (event, names'))
      (misfit : b.step ⟨event, Text.size before, Text.size before + Text.size item.spelling⟩ =
        .error fault) : FailsAt source before item after fault
  | misnamed {names : List String} {b : Builder} {fault : SyntaxFault}
      (comes : ComesTo source before item after names b)
      (means : item.event names = .error fault) :
      FailsAt source before item after ⟨.malformed fault, .point (Text.size before)⟩

/-- What has been read when an item is known. A run is known by the markup behind it. -/
def Item.reach : Item → List Char
  | .run text => text ++ ['<']
  | item => item.spelling

def SyntaxFault.IsNaming : SyntaxFault → Prop
  | .mismatchedEnd .. | .unmatchedEnd _ => True
  | _ => False

/-- The faults that are those of an item as a whole. Others are those of markup that is cut short or
unknown, or of a document in which something is missing. -/
def Fault.IsOfItem : Fault → Prop
  | .secondRoot | .textOutsideRoot | .badReference _ => True
  | .malformed fault => fault.IsNaming
  | _ => False

section
variable {names names' : List String} {offset : Nat} {cs before rest : List Char}
  {events : List (Located Event)}

theorem ReadThrough.from_eq (h : ReadThrough names offset before rest events names') :
    Reading.from names offset (before ++ rest) =
      (Reading.from names' (offset + Text.size before) rest).after events := by
  induction h with
  | nil names offset rest => simp [Reading.after]
  | cons cut means later ih =>
    rw [List.append_assoc, Reading.from_cut cut means, ih, Reading.after_after, Text.size_append,
      Nat.add_assoc]
    rfl

/-- What follows matters by its first character only, which ends a run or goes on with it. -/
theorem ReadThrough.of_head? (h : ReadThrough names offset before rest events names')
    {other : List Char} (head : other.head? = rest.head?) :
    ReadThrough names offset before other events names' := by
  induction h with
  | nil names offset rest => exact .nil names offset other
  | @cons names names' names'' offset before rest item event events cut means later ih =>
    refine .cons ?_ means (ih head)
    by_cases hrun : ∃ run, item = .run run
    · obtain ⟨run, rfl⟩ := hrun
      have hstop := cut.run_text.2.2
      refine cut.of_run fun c hc => hstop c ?_
      rw [List.head?_append] at hc ⊢
      rwa [← head]
    · exact cut.of_markup (fun run h => hrun ⟨run, h⟩) _

theorem exists_readThrough_of_events {e : Located Event} {later : List (Located Event)}
    (h : (Reading.from names offset cs).events = events ++ e :: later) :
    ∃ before item after opened opened', cs = before ++ (item.spelling ++ after) ∧
      ReadThrough names offset before (item.spelling ++ after) events opened ∧
      Item.Cut (item.spelling ++ after) item after ∧
      item.event opened = .ok (e.value, opened') ∧
      e.span =
        ⟨offset + Text.size before, offset + Text.size before + Text.size item.spelling⟩ := by
  fun_induction Reading.from names offset cs generalizing events with
  | case1 => simp at h
  | case2 => simp at h
  | case3 => simp at h
  | case4 names offset c cs item rest hn event names' he _ stop =>
    rename_i ih
    have hcut := Item.cut_next hn
    rw [← Item.spelling_next hn] at hcut ⊢
    cases events with
    | nil =>
      obtain ⟨rfl, _⟩ := List.cons.inj h
      exact ⟨[], item, rest, names, names', rfl, .nil _ _ _, hcut, he, rfl⟩
    | cons first events =>
      obtain ⟨rfl, hlater⟩ := List.cons.inj h
      obtain ⟨before, item', after, opened, opened', rfl, hthrough, hcut', hmeans, hspan⟩ :=
        ih hlater
      refine ⟨item.spelling ++ before, item', after, opened, opened', ?_, .cons hcut he hthrough,
        hcut', hmeans, ?_⟩
      · rw [List.append_assoc]
      · rw [hspan, Text.size_append, Nat.add_assoc offset]

theorem Item.not_isNaming_of_next {c : Char} {defect : Defect} (h : next c cs = .error defect) :
    ¬ defect.fault.IsNaming := by
  unfold next at h
  split at h
  · unfold markup declaration at h
    (repeat' split at h) <;> cases h <;> exact id
  · cases h

theorem exists_readThrough_of_fault {fault : SyntaxFault} {place : Nat} (naming : fault.IsNaming)
    (h : (Reading.from names offset cs).fault = some (fault, place)) :
    ∃ before item after opened, cs = before ++ (item.spelling ++ after) ∧
      ReadThrough names offset before (item.spelling ++ after)
        (Reading.from names offset cs).events opened ∧
      Item.Cut (item.spelling ++ after) item after ∧ item.event opened = .error fault ∧
      place = offset + Text.size before := by
  fun_induction Reading.from names offset cs with
  | case1 => cases h
  | case2 names offset c cs defect hn =>
    cases h
    exact absurd naming (Item.not_isNaming_of_next hn)
  | case3 names offset c cs item rest hn fault' he =>
    cases h
    have hcut := Item.cut_next hn
    rw [← Item.spelling_next hn] at hcut ⊢
    exact ⟨[], item, rest, names, rfl, .nil _ _ _, hcut, he, rfl⟩
  | case4 names offset c cs item rest hn event names' he _ stop later ih =>
    have hcut := Item.cut_next hn
    rw [← Item.spelling_next hn] at hcut ⊢
    obtain ⟨before, item', after, opened, hrest, hthrough, hcut', hmeans, hplace⟩ := ih h
    rw [hrest] at hcut ⊢
    refine ⟨item.spelling ++ before, item', after, opened, ?_, .cons hcut he hthrough, hcut',
      hmeans, ?_⟩
    · rw [List.append_assoc]
    · rw [hplace, Text.size_append, Nat.add_assoc offset]

theorem exists_failsAt {source : String} {fault : Located Fault}
    (h : parseDocument source = .error fault) (ofItem : fault.value.IsOfItem) :
    ∃ before item after, FailsAt source before item after fault := by
  rw [parseDocument, build] at h
  cases hrun : Builder.run {} (read source).events with
  | mk b refused? =>
    cases refused? with
    | some refused =>
      simp only [hrun, Except.error.injEq] at h
      subst h
      obtain ⟨events, e, later, hread, hbuilt, hstep⟩ := Builder.run_eq_some hrun
      obtain ⟨before, item, after, names, names', hparts, hthrough, hcut, hmeans, hspan⟩ :=
        exists_readThrough_of_events hread
      have hcomes : ComesTo source before item after names b :=
        ⟨hparts, ⟨events, hthrough, hbuilt⟩, hcut⟩
      obtain ⟨event, span⟩ := e
      obtain rfl : span = _ := hspan
      rw [Nat.zero_add] at hstep
      exact ⟨before, item, after, .refused hcomes hmeans hstep⟩
    | none =>
      cases hf : (read source).fault with
      | some found =>
        obtain ⟨fault, place⟩ := found
        simp only [hrun, hf, Option.map_some, Except.error.injEq] at h
        subst h
        obtain ⟨before, item, after, names, hparts, hthrough, hcut, hmeans, hplace⟩ :=
          exists_readThrough_of_fault ofItem hf
        rw [Nat.zero_add] at hplace
        subst hplace
        exact ⟨before, item, after, .misnamed ⟨hparts, ⟨_, hthrough, hrun⟩, hcut⟩ hmeans⟩
      | none =>
        simp only [hrun, hf, Option.map_none, Builder.finish] at h
        split at h
        · cases h
          exact ofItem.elim
        · cases h
        · cases h
          exact ofItem.elim

theorem Reading.from_misnamed {text : List Char} {item : Item} {fault : SyntaxFault}
    (hc : Item.Cut text item rest) (he : item.event names = .error fault) (offset : Nat) :
    Reading.from names offset text = ⟨[], some (fault, offset)⟩ := by
  obtain ⟨c, cs, rfl, hn⟩ := hc.exists_next
  rw [Reading.from]
  split
  · next hn' =>
    rw [hn] at hn'
    cases hn'
  · next hn' =>
    rw [hn] at hn'
    cases hn'
    rw [he]

end

section
variable {source : String} {before after : List Char} {item : Item} {fault : Located Fault}

theorem FailsAt.comes (h : FailsAt source before item after fault) :
    ∃ names b, ComesTo source before item after names b := by
  cases h with
  | refused comes => exact ⟨_, _, comes⟩
  | misnamed comes => exact ⟨_, _, comes⟩

theorem FailsAt.parseDocument_eq (h : FailsAt source before item after fault) {text : String}
    {tail : List Char} (parts : withoutMark text.toList = before ++ (item.spelling ++ tail))
    (cut : Item.Cut (item.spelling ++ tail) item tail) : parseDocument text = .error fault := by
  have hread {names : List String} {events : List (Located Event)}
      (hthrough : ReadThrough [] 0 before (item.spelling ++ after) events names) :
      read text = (Reading.from names (Text.size before) (item.spelling ++ tail)).after events := by
    have hhead : (item.spelling ++ tail).head? = (item.spelling ++ after).head? := by
      rw [List.head?_append_of_ne_nil _ cut.spelling_ne_nil,
        List.head?_append_of_ne_nil _ cut.spelling_ne_nil]
    rw [read, parts, (hthrough.of_head? hhead).from_eq, Nat.zero_add]
  cases h with
  | @refused names names' b event fault comes means misfit =>
    obtain ⟨events, hthrough, hbuilt⟩ := comes.through
    have hrun : Builder.run {} (read text).events = (b, some fault) := by
      rw [hread hthrough, Reading.from_cut cut means, Reading.after, Builder.run_append hbuilt]
      simp only [Reading.after, List.singleton_append, Builder.run, misfit]
    rw [parseDocument, build, hrun]
  | @misnamed names b fault comes means =>
    obtain ⟨events, hthrough, hbuilt⟩ := comes.through
    have hfault : read text = ⟨events, some (fault, Text.size before)⟩ := by
      rw [hread hthrough, Reading.from_misnamed cut means]
      simp [Reading.after]
    rw [parseDocument, build, hfault, hbuilt]
    rfl

/-- An item that is not a run is closed in the source, and a run may be its end. -/
theorem ComesTo.exists_reach {names : List String} {b : Builder}
    (h : ComesTo source before item after names b) (ended : ∀ run, item = .run run → after ≠ []) :
    ∃ rest, withoutMark source.toList = before ++ item.reach ++ rest := by
  rw [h.parts]
  cases item with
  | run text =>
    obtain ⟨c, after, rfl⟩ := List.exists_cons_of_ne_nil (ended text rfl)
    obtain rfl := h.cut.run_text.2.2 c rfl
    exact ⟨after, by simp [Item.reach, Item.spelling]⟩
  | _ => exact ⟨after, (List.append_assoc _ _ _).symm⟩

theorem ComesTo.exists_tail {names : List String} {b : Builder}
    (h : ComesTo source before item after names b) (more : List Char) :
    ∃ tail, before ++ item.reach ++ more = before ++ (item.spelling ++ tail) ∧
      Item.Cut (item.spelling ++ tail) item tail := by
  by_cases hrun : ∃ run, item = .run run
  · obtain ⟨run, rfl⟩ := hrun
    refine ⟨'<' :: more, by simp [Item.reach, Item.spelling], h.cut.of_run ?_⟩
    intro c hc
    exact (Option.some.inj hc).symm
  · have hmarkup : ∀ run, item ≠ .run run := fun run h => hrun ⟨run, h⟩
    have hreach : item.reach = item.spelling := by
      cases item with
      | run text => exact absurd rfl (hmarkup text)
      | _ => rfl
    exact ⟨more, by rw [hreach, List.append_assoc], h.cut.of_markup hmarkup more⟩

end

theorem withoutMark_append {first : List Char} (ne : first ≠ []) (rest : List Char) :
    withoutMark (first ++ rest) = withoutMark first ++ rest := by
  cases first with
  | nil => exact absurd rfl ne
  | cons c cs =>
    by_cases hc : c = '\uFEFF'
    · subst hc
      rfl
    · have hhead (ds : List Char) : (c :: ds).head? ≠ some '\uFEFF' := by simpa using hc
      rw [List.cons_append, withoutMark_of_head?_ne (hhead _), withoutMark_of_head?_ne (hhead _)]
      rfl

theorem FailsAt.exists_first {source : String} {before after : List Char} {item : Item}
    {fault : Located Fault} (h : FailsAt source before item after fault)
    (ended : ∀ run, item = .run run → after ≠ []) :
    ∃ first rest, source.toList = first ++ rest ∧
      Text.size first = uncounted source + Text.size (before ++ item.reach) ∧
      ∀ more, parseDocument (String.ofList (first ++ more)) = .error fault := by
  obtain ⟨names, b, hcomes⟩ := h.comes
  obtain ⟨rest, hrest⟩ := hcomes.exists_reach ended
  obtain ⟨mark, hmark, hsize⟩ := uncounted_eq source
  have hfirst : mark ++ (before ++ item.reach) ≠ [] := by
    have hreach : item.reach ≠ [] := by
      cases item with
      | run text => simp [Item.reach]
      | _ => exact hcomes.cut.spelling_ne_nil
    simp [hreach]
  have hparts : source.toList = mark ++ (before ++ item.reach) ++ rest := by
    rw [hmark, hrest, List.append_assoc mark]
  have hstart : withoutMark (mark ++ (before ++ item.reach)) = before ++ item.reach := by
    rw [hparts, withoutMark_append hfirst] at hrest
    exact List.append_cancel_right hrest
  refine ⟨_, rest, hparts, by rw [Text.size_append, hsize], fun more => ?_⟩
  obtain ⟨tail, htail, hcut⟩ := hcomes.exists_tail more
  refine h.parseDocument_eq ?_ hcut
  rw [String.toList_ofList, withoutMark_append hfirst, hstart, htail]

end XmlPipeline.Markup

namespace XmlPipeline
open Markup (Span Item FailsAt uncounted)

/-- Of a document that fails at an item, no more is needed for its error than the bytes up to the
end of that item, or up to the `<` behind it if it is a run of text. -/
theorem error_known_at_item (source : String) (number : Nat) (fault : Markup.Fault) (span : Span)
    (h : Program.document source number = .error ⟨.markup fault, span, number⟩)
    (ofItem : fault.IsOfItem) :
    (∃ before item after, FailsAt source before item after ⟨fault, span⟩) ∧
    ∀ before item after, FailsAt source before item after ⟨fault, span⟩ →
      (∀ run, item = .run run → after ≠ []) →
      ∃ first rest, source.toList = first ++ rest ∧
        Text.size first = uncounted source + Text.size (before ++ item.reach) ∧
        ∀ more, Program.document (String.ofList (first ++ more)) number =
          .error ⟨.markup fault, span, number⟩ := by
  have hfault : Markup.parseDocument source = .error ⟨fault, span⟩ := by
    rw [Program.document] at h
    cases hd : Markup.parseDocument source with
    | ok root => simp [hd, Except.mapError] at h
    | error found =>
      simp only [hd, Except.mapError, Except.error.injEq, ParseError.mk.injEq,
        Program.Fault.markup.injEq, and_true] at h
      obtain ⟨rfl, rfl⟩ := h
      rfl
  refine ⟨Markup.exists_failsAt hfault ofItem, ?_⟩
  intro before item after hfails ended
  obtain ⟨first, rest, hparts, hsize, hmore⟩ := hfails.exists_first ended
  refine ⟨first, rest, hparts, hsize, fun more => ?_⟩
  rw [Program.document, hmore]
  rfl

theorem failsAt_secondRoot : FailsAt "\uFEFF<a/><b></b>d" ['<', 'a', '/', '>', '<', 'b', '>']
    (.close ['b']) ['d'] ⟨.secondRoot, ⟨4, 7⟩⟩ := by
  have hempty : Item.Cut ['<', 'a', '/', '>', '<', 'b', '>', '<', '/', 'b', '>', 'd']
      (.tag ['a', '/']) ['<', 'b', '>', '<', '/', 'b', '>', 'd'] := Item.cut_next (by decide)
  have hstart : Item.Cut ['<', 'b', '>', '<', '/', 'b', '>', 'd'] (.tag ['b'])
      ['<', '/', 'b', '>', 'd'] := Item.cut_next (by decide)
  have hclose : Item.Cut ['<', '/', 'b', '>', 'd'] (.close ['b']) ['d'] :=
    Item.cut_next (by decide)
  have hthrough : Markup.ReadThrough [] 0 ['<', 'a', '/', '>', '<', 'b', '>']
      ['<', '/', 'b', '>', 'd'] [⟨.empty "a", 0, 4⟩, ⟨.start "b", 4, 7⟩] ["b"] := by
    have hempty' : (Item.tag ['a', '/']).event [] = .ok (.empty "a", []) := by decide
    have hstart' : (Item.tag ['b']).event [] = .ok (.start "b", ["b"]) := by decide
    exact .cons hempty hempty' (.cons hstart hstart' (.nil _ _ _))
  exact .refused ⟨rfl, ⟨_, hthrough, rfl⟩, hclose⟩ rfl rfl

theorem error_known_at_item_secondRoot :
    Program.document "\uFEFF<a/><b></b>d" 3 = .error ⟨.markup .secondRoot, ⟨4, 7⟩, 3⟩ ∧
    Markup.Fault.IsOfItem .secondRoot ∧
    ∀ more, Program.document (String.ofList ("\uFEFF<a/><b></b>".toList ++ more)) 3 =
      .error ⟨.markup .secondRoot, ⟨4, 7⟩, 3⟩ := by
  have h : Program.document "\uFEFF<a/><b></b>d" 3 =
      .error ⟨.markup .secondRoot, ⟨4, 7⟩, 3⟩ := by
    cbv
  obtain ⟨first, rest, hparts, hsize, hmore⟩ :=
    (error_known_at_item _ 3 _ _ h trivial).2 _ _ _ failsAt_secondRoot (by simp)
  obtain rfl : "\uFEFF<a/><b></b>".toList = first :=
    Markup.eq_of_size (b := ['d']) (d := rest) hparts hsize.symm
  exact ⟨h, trivial, hmore⟩

end XmlPipeline
