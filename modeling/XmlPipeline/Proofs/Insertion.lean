import XmlPipeline.Proofs.Agreement
import XmlPipeline.Proofs.Gaps
import XmlPipeline.Proofs.Spans
set_option autoImplicit false

/-!
Insertion: what can be put into a source without a change to its program. Main statement: a comment,
a processing instruction, or a text where texts do not count, put into a gap, does no more than move
the spans after it.
-/

namespace XmlPipeline
open Markup (Span Located Element Builder Event Reading)

namespace Markup

/-- What can be put into a gap where these elements are open, the innermost given first. -/
inductive Harmless (names : List String) : List Char → Prop where
  | comment {body : List Char} (free : ¬ "-->".toList <:+: body) :
      Harmless names ("<!--".toList ++ body ++ "-->".toList)
  | instruction {body : List Char} (free : ¬ "?>".toList <:+: body) (head : body.head? ≠ some '>') :
      Harmless names ('<' :: '?' :: body ++ "?>".toList)
  | text {text : List Char} {name : String} {scope : Scope} (innermost : names.head? = some name)
      (tag : Tag.ofName? name = some (.scope scope)) (plain : '<' ∉ text ∧ '&' ∉ text) :
      Harmless names text
  | blank {text : List Char} (outside : names = []) (blank : text.all Text.isBlank = true) :
      Harmless names text

def Span.insert (place n : Nat) (span : Span) : Span :=
  if place ≤ span.start then span.shift n else span

/-- The innermost open element gets texts that come to `content`. Where none is open, that is
blank. -/
def Builder.Gains (b : Builder) (content : List Char) (b' : Builder) : Prop :=
  ∃ texts, (String.join texts).toList = content ∧
    (b.openElements = [] → content.all Text.isBlank = true) ∧ b' = b.push texts

namespace Builder.Gains
variable {b b₁ b₂ : Builder} {content more : List Char}

theorem blank (h : b.Gains content b₁) (ho : b.openElements = []) :
    content.all Text.isBlank = true := by
  obtain ⟨_, _, hblank, _⟩ := h
  exact hblank ho

theorem trans (h : b.Gains content b₁) (h' : b₁.Gains more b₂) : b.Gains (content ++ more) b₂ := by
  obtain ⟨texts, hjoin, hblank, rfl⟩ := h
  obtain ⟨texts', hjoin', hblank', rfl⟩ := h'
  refine ⟨texts ++ texts', ?_, ?_, push_push texts texts' b⟩
  · rw [String.join_append, String.toList_append, hjoin, hjoin']
  · intro ho
    rw [List.all_append, hblank ho, hblank' ((openElements_push texts b).2 ho)]
    rfl

theorem agrees {f : Span → Span} {b' b₁' : Builder} (h : b.Gains content b₁)
    (h' : b'.Gains more b₁') (ha : Builder.Agrees f b b')
    (hsame : ∀ inner outer, b.openElements = inner :: outer →
      (∀ scope, Tag.ofName? inner.name ≠ some (.scope scope)) → more = content) :
    Builder.Agrees f b₁ b₁' := by
  obtain ⟨texts, hjoin, _, rfl⟩ := h
  obtain ⟨texts', hjoin', _, rfl⟩ := h'
  refine ha.push ?_
  intro inner outer ho hs
  rw [← String.toList_inj, hjoin, hjoin']
  exact hsame inner outer ho hs

end Builder.Gains

theorem Builder.exists_gains_of_run {b b₁ : Builder} {offset : Nat} {run : List Char}
    (h : b.run (runEvents offset run) = (b₁, none)) :
    ∃ content, Denotes run content ∧ b.Gains content b₁ := by
  by_cases hr : run = []
  · subst hr
    rw [runEvents, if_pos rfl, Builder.run, Prod.mk.injEq] at h
    refine ⟨[], .nil, [], rfl, fun _ => rfl, ?_⟩
    rw [push_nil, h.1]
  · rw [runEvents, if_neg hr] at h
    obtain ⟨b₂, hstep, hend⟩ := run_cons_eq_ok.1 h
    obtain rfl : b₂ = b₁ := (Prod.mk.inj hend).1
    cases hres : resolve (String.ofList run) with
    | error fault => simp [step, hres] at hstep
    | ok content =>
      simp only [step, hres] at hstep
      obtain ⟨hblank, rfl⟩ := text_eq_ok_iff.1 hstep
      have hd := resolve_eq_ok_iff.1 hres
      rw [String.toList_ofList] at hd
      exact ⟨content.toList, hd, [content], by simp [String.join], hblank, rfl⟩

theorem Builder.exists_run_of_denotes (b : Builder) (offset : Nat) {run content : List Char}
    (hd : Denotes run content) (hblank : b.openElements = [] → content.all Text.isBlank = true) :
    ∃ b₁, b.run (runEvents offset run) = (b₁, none) ∧ b.Gains content b₁ := by
  by_cases hr : run = []
  · subst hr
    cases hd
    exact ⟨b, rfl, [], rfl, hblank, (push_nil b).symm⟩
  · have hres : resolve (String.ofList run) = .ok (String.ofList content) := by
      rw [resolve_eq_ok_iff, String.toList_ofList, String.toList_ofList]
      exact hd
    have htext : ∀ span, b.text (String.ofList content) span =
        .ok (b.push [String.ofList content]) := by
      intro span
      refine text_eq_ok_iff.2 ⟨?_, rfl⟩
      intro ho
      rw [Text.allBlank, String.toList_ofList]
      exact hblank ho
    refine ⟨b.push [String.ofList content], ?_, [String.ofList content], by simp [String.join],
      hblank, rfl⟩
    rw [runEvents, if_neg hr]
    refine run_cons_eq_ok.2 ⟨_, ?_, rfl⟩
    simp only [step, hres]
    exact htext _

/-- Where the elements `names` are open, these events are built into what the run would be that the
two parts are of, if it stood there as one. -/
def Absorbs (f : Span → Span) (names : List String) (left right : List Char)
    (events : List (Located Event)) : Prop :=
  ∀ ⦃b b' b₁ : Builder⦄ ⦃as bs : List Char⦄, b.names = names → Builder.Agrees f b b' →
    Denotes left as → Denotes right bs → b.Gains (as ++ bs) b₁ →
      ∃ b₁', b'.run events = (b₁', none) ∧ Builder.Agrees f b₁ b₁'

theorem absorbs_aside (f : Span → Span) (names : List String) (left right : List Char)
    (offset offset' : Nat) (span : Span) :
    Absorbs f names left right (runEvents offset left ++ ⟨.aside, span⟩ :: runEvents offset' right) := by
  intro b b' b₁ as bs _ ha hl hr hg
  have hblank : b'.openElements = [] → as.all Text.isBlank = true ∧ bs.all Text.isBlank = true := by
    intro ho
    have hall := hg.blank (ha.nil_of_nil ho)
    rwa [List.all_append, Bool.and_eq_true] at hall
  obtain ⟨b₂, hrun, hgl⟩ := b'.exists_run_of_denotes offset hl fun ho => (hblank ho).1
  have hblank₂ : b₂.openElements = [] → bs.all Text.isBlank = true := by
    obtain ⟨texts, _, _, rfl⟩ := hgl
    intro ho
    exact (hblank ((Builder.openElements_push texts b').1 ho)).2
  obtain ⟨b₃, hrun', hgr⟩ := b₂.exists_run_of_denotes offset' hr hblank₂
  refine ⟨b₃, ?_, hg.agrees (hgl.trans hgr) ha fun _ _ _ _ => rfl⟩
  rw [Builder.run_append hrun]
  exact Builder.run_cons_eq_ok.2 ⟨b₂, rfl, hrun'⟩

/-- A text that may be lost: outside all elements, or straight in a scope. -/
theorem absorbs_text (f : Span → Span) {names : List String} {text : List Char}
    (plain : '&' ∉ text) (blank : names = [] → text.all Text.isBlank = true)
    (lost : ∀ name, names.head? = some name → ∃ scope, Tag.ofName? name = some (.scope scope))
    (left right : List Char) (offset : Nat) :
    Absorbs f names left right (runEvents offset (left ++ text ++ right)) := by
  intro b b' b₁ as bs hn ha hl hr hg
  have hd := (hl.append (denotes_self plain)).append hr
  have hblank : b'.openElements = [] → (as ++ text ++ bs).all Text.isBlank = true := by
    intro ho
    have hopen := ha.nil_of_nil ho
    have hall := hg.blank hopen
    have hnames : names = [] := by rw [← hn, Builder.names, hopen, List.map_nil]
    rw [List.all_append, Bool.and_eq_true] at hall
    rw [List.all_append, List.all_append, hall.1, hall.2, blank hnames]
    rfl
  obtain ⟨b₁', hrun, hg'⟩ := b'.exists_run_of_denotes offset hd hblank
  refine ⟨b₁', hrun, hg.agrees hg' ha ?_⟩
  intro inner outer ho hs
  have hhead : names.head? = some inner.name := by
    rw [← hn, Builder.names, ho]
    rfl
  obtain ⟨scope, hscope⟩ := lost inner.name hhead
  exact absurd hscope (hs scope)

section
variable {names : List String} {left right rest : List Char}

theorem exists_from_insert_aside (f : Span → Span) {item : Item} (plain : '<' ∉ left ++ right)
    (stop : ∀ c, rest.head? = some c → c = '<')
    (cut : Item.Cut (item.spelling ++ (right ++ rest)) item (right ++ rest))
    (aside : item.event names = .ok (.aside, names)) (hlt : item.spelling.head? = some '<')
    (offset : Nat) :
    ∃ between, Absorbs f names left right between ∧
      Reading.from names offset (left ++ item.spelling ++ (right ++ rest)) =
        ((Reading.from names (offset + Text.size (left ++ right)) rest).shift
          (Text.size item.spelling)).after between := by
  have hend : offset + Text.size (left ++ right) + Text.size item.spelling =
      offset + Text.size left + Text.size item.spelling + Text.size right := by
    rw [Text.size_append]
    omega
  have hstop : ∀ c, (item.spelling ++ (right ++ rest)).head? = some c → c = '<' := by
    intro c hc
    rw [List.head?_append, hlt] at hc
    exact (Option.some.inj hc).symm
  rw [List.mem_append, not_or] at plain
  rw [List.append_assoc, Reading.from_run plain.1 hstop, Reading.from_cut cut aside,
    Reading.from_run plain.2 stop, Reading.after_after, Reading.after_after, ← Reading.from_add,
    hend, List.append_assoc, List.singleton_append]
  exact ⟨_, absorbs_aside f names left right _ _ _, rfl⟩

theorem exists_from_insert_text (f : Span → Span) {text : List Char} (plain : '<' ∉ left ++ right)
    (stop : ∀ c, rest.head? = some c → c = '<') (hlt : '<' ∉ text) (hamp : '&' ∉ text)
    (blank : names = [] → text.all Text.isBlank = true)
    (lost : ∀ name, names.head? = some name → ∃ scope, Tag.ofName? name = some (.scope scope))
    (offset : Nat) :
    ∃ between, Absorbs f names left right between ∧
      Reading.from names offset (left ++ text ++ (right ++ rest)) =
        ((Reading.from names (offset + Text.size (left ++ right)) rest).shift
          (Text.size text)).after between := by
  have hend : offset + Text.size (left ++ right) + Text.size text =
      offset + Text.size (left ++ text ++ right) := by
    simp only [Text.size_append]
    omega
  have hplain : '<' ∉ left ++ text ++ right := by
    rw [List.mem_append, not_or] at plain
    simp [plain.1, plain.2, hlt]
  rw [← List.append_assoc, Reading.from_run hplain stop, ← Reading.from_add, hend]
  exact ⟨_, absorbs_text f hamp blank lost left right offset, rfl⟩

theorem notMem_of_blank {c : Char} {text : List Char} (hc : Text.isBlank c = false)
    (h : text.all Text.isBlank = true) : c ∉ text := by
  intro hm
  rw [List.all_eq_true.1 h c hm] at hc
  cases hc

theorem Harmless.exists_from_insert {inserted : List Char} (h : Harmless names inserted)
    (plain : '<' ∉ left ++ right) (stop : ∀ c, rest.head? = some c → c = '<') (f : Span → Span)
    (offset : Nat) :
    ∃ between, Absorbs f names left right between ∧
      Reading.from names offset (left ++ inserted ++ (right ++ rest)) =
        ((Reading.from names (offset + Text.size (left ++ right)) rest).shift
          (Text.size inserted)).after between := by
  cases h with
  | @comment body free =>
    have hcut : Item.Cut ((Item.comment body).spelling ++ (right ++ rest)) (.comment body)
        (right ++ rest) := by
      simpa [Item.spelling] using Item.Cut.comment free
    exact exists_from_insert_aside f plain stop hcut rfl rfl offset
  | @instruction body free head =>
    have hcut : Item.Cut ((Item.instruction body).spelling ++ (right ++ rest)) (.instruction body)
        (right ++ rest) := by
      simpa [Item.spelling] using Item.Cut.instruction free head
    exact exists_from_insert_aside f plain stop hcut rfl rfl offset
  | @text _ name scope innermost tag free =>
    refine exists_from_insert_text f plain stop free.1 free.2 ?_ ?_ offset
    · rintro rfl
      cases innermost
    · intro name' hname
      rw [innermost] at hname
      cases hname
      exact ⟨scope, tag⟩
  | blank outside blank =>
    have hlt := notMem_of_blank (c := '<') (by decide) blank
    have hamp := notMem_of_blank (c := '&') (by decide) blank
    refine exists_from_insert_text f plain stop hlt hamp (fun _ => blank) ?_ offset
    intro name hname
    rw [outside] at hname
    cases hname

end

theorem Harmless.head?_ne {inserted : List Char} (h : Harmless [] inserted) :
    inserted.head? ≠ some '\uFEFF' := by
  cases h with
  | comment free => simp
  | instruction free head => simp
  | text innermost tag plain => cases innermost
  | blank outside blank =>
    intro hh
    exact notMem_of_blank (by decide) blank (List.mem_of_head? hh)

theorem openAt_zero (source : String) : openAt source 0 = [] := by
  have hadjoining := adjoining_from [] 0 (withoutMark source.toList)
  rw [openAt, read, hadjoining.filter_eq_nil (Nat.le_refl 0)]
  rfl

theorem Gap.exists_start {source : String} {place : Nat} {before after inserted : List Char}
    (gap : Gap source place before after) (harmless : Harmless (openAt source place) inserted) :
    ∃ start, Text.size start = place ∧ withoutMark source.toList = start ++ after ∧
      withoutMark (before ++ inserted ++ after) = start ++ inserted ++ after := by
  have hcounted := gap.counted
  rw [uncounted, gap.parts] at hcounted
  rw [gap.parts]
  cases before with
  | nil =>
    have hplace : place = 0 := by
      rw [Text.size_nil] at hcounted
      omega
    subst hplace
    rw [openAt_zero] at harmless
    have hafter : after.head? ≠ some '\uFEFF' := by
      intro h
      rw [List.nil_append, if_pos h] at hcounted
      cases hcounted
    refine ⟨[], rfl, withoutMark_of_head?_ne hafter, withoutMark_of_head?_ne ?_⟩
    cases inserted with
    | nil => exact hafter
    | cons c inserted => exact harmless.head?_ne
  | cons c before =>
    by_cases hc : c = '\uFEFF'
    · subst hc
      have hsize : Text.size ('\uFEFF' :: before) = 3 + Text.size before := rfl
      have hhead : ('\uFEFF' :: before ++ after).head? = some '\uFEFF' := rfl
      rw [if_pos hhead, hsize] at hcounted
      exact ⟨before, by omega, rfl, rfl⟩
    · have hne : ∀ more, (c :: before ++ more).head? ≠ some '\uFEFF' := by
        intro more h
        exact hc (Option.some.inj h)
      rw [if_neg (hne after)] at hcounted
      refine ⟨c :: before, hcounted, withoutMark_of_head?_ne (hne after), ?_⟩
      rw [List.append_assoc]
      exact withoutMark_of_head?_ne (hne _)

theorem Event.map_insert_of_lt {place : Nat} (n : Nat) {events : List (Located Event)}
    (h : ∀ e ∈ events, e.span.start < place) :
    events.map (Event.mapSpan (Span.insert place n)) = events := by
  refine (List.map_congr_left ?_).trans (List.map_id events)
  intro e he
  rw [Event.mapSpan, Span.insert, if_neg (Nat.not_le.2 (h e he)), id]

theorem Event.map_insert_of_le {place : Nat} (n : Nat) {events : List (Located Event)}
    (h : ∀ e ∈ events, place ≤ e.span.start) :
    events.map (Event.mapSpan (Span.insert place n)) =
      events.map fun e => ⟨e.value, e.span.shift n⟩ := by
  refine List.map_congr_left ?_
  intro e he
  rw [Event.mapSpan, Span.insert, if_pos (h e he)]

/-- What comes before the gap is built as before, and what comes after it as well. -/
theorem Builder.exists_run_insert {b : Builder} {offset place n : Nat} {left right : List Char}
    {events between later : List (Located Event)} (closed : right = [] ∨ ClosedReferences left)
    (early : ∀ e ∈ events, e.span.start < place) (late : ∀ e ∈ later, place ≤ e.span.start)
    (absorbs : Absorbs (Span.insert place n) (openNames [] events) left right between)
    (h : Builder.run {} (events ++ runEvents offset (left ++ right) ++ later) = (b, none)) :
    ∃ b', Builder.run {} (events ++ between ++ later.map fun e => ⟨e.value, e.span.shift n⟩) =
      (b', none) ∧ Builder.Agrees (Span.insert place n) b b' := by
  rw [List.append_assoc] at h ⊢
  obtain ⟨b₁, hevents, hmore⟩ := exists_run_of_append h
  obtain ⟨b₂, hgap, hlater⟩ := exists_run_of_append hmore
  obtain ⟨b₁', hevents', ha₁⟩ := (Agrees.start (Span.insert place n)).run hevents
  rw [Event.map_insert_of_lt n early] at hevents'
  obtain ⟨content, hcontent, hgains⟩ := exists_gains_of_run hgap
  obtain ⟨as, bs, hleft, hright, rfl⟩ := hcontent.exists_of_parts closed
  obtain ⟨b₂', hbetween, ha₂⟩ := absorbs (names_run hevents) ha₁ hleft hright hgains
  obtain ⟨b', hlater', ha⟩ := ha₂.run hlater
  rw [Event.map_insert_of_le n late] at hlater'
  exact ⟨b', by rw [run_append hevents', run_append hbetween, hlater'], ha⟩

theorem Parts.exists_run_insert {before after passed left right rest inserted : List Char}
    {events : List (Located Event)} {names : List String} {offset : Nat} {b : Builder}
    (hp : Parts [] offset before after passed left right rest events names)
    (harmless : Harmless names inserted)
    (hf : (Reading.from [] offset (before ++ after)).fault = none)
    (hrun : Builder.run {} (Reading.from [] offset (before ++ after)).events = (b, none)) :
    (Reading.from [] offset (before ++ inserted ++ after)).fault = none ∧
      ∃ b', Builder.run {} (Reading.from [] offset (before ++ inserted ++ after)).events =
        (b', none) ∧
          Builder.Agrees (Span.insert (offset + Text.size before) (Text.size inserted)) b b' := by
  obtain ⟨between, absorbs, hfrom⟩ := harmless.exists_from_insert hp.plain hp.stop
    (Span.insert (offset + Text.size before) (Text.size inserted)) (offset + Text.size passed)
  have hinsert : before ++ inserted ++ after = passed ++ (left ++ inserted ++ (right ++ rest)) := by
    rw [hp.before_eq, hp.after_eq]
    simp only [List.append_assoc]
  have hsize := congrArg Text.size hp.before_eq
  rw [Text.size_append] at hsize
  rw [hp.from_eq] at hf hrun
  rw [hinsert, hp.passes, hfrom, Reading.after_after]
  rw [hp.opened] at absorbs
  refine ⟨Option.map_eq_none_iff.2 hf, Builder.exists_run_insert hp.closed ?_ ?_ absorbs hrun⟩
  · intro e he
    have := hp.early e he
    omega
  · intro e he
    have := (pairwise_of_adjoining (adjoining_from _ _ rest)).1 e he
    rw [Text.size_append] at this
    omega

theorem exists_parseDocument_insert {source : String} {place : Nat}
    {before after inserted : List Char} {root : Element} (gap : Gap source place before after)
    (harmless : Harmless (openAt source place) inserted) (h : parseDocument source = .ok root) :
    ∃ root', parseDocument (String.ofList (before ++ inserted ++ after)) = .ok root' ∧
      root.Agrees (Span.insert place (Text.size inserted)) root' := by
  obtain ⟨start, rfl, hold, hnew⟩ := gap.exists_start harmless
  have hread : read source = Reading.from [] 0 (start ++ after) := by rw [read, hold]
  have hread' : read (String.ofList (before ++ inserted ++ after)) =
      Reading.from [] 0 (start ++ inserted ++ after) := by
    rw [read, String.toList_ofList, hnew]
  obtain ⟨hf, b, hrun, hfin⟩ := parseDocument_eq_ok.1 h
  have apart := gap.apart
  rw [hread] at hf hrun apart
  rw [openAt, hread] at harmless
  rw [← Nat.zero_add (Text.size start)] at apart harmless ⊢
  obtain ⟨passed, left, right, rest, events, names, hp⟩ := exists_parts hf rfl apart
  rw [hp.openNames_filter] at harmless
  obtain ⟨hf', b', hrun', ha⟩ := hp.exists_run_insert harmless hf hrun
  obtain ⟨root', hfin', hroot⟩ := ha.finish hfin
  rw [← hread'] at hf' hrun'
  exact ⟨root', parseDocument_eq_ok.2 ⟨hf', b', hrun', hfin'⟩, hroot⟩

end Markup

/-- The place is anywhere in the source but inside markup or a reference. -/
theorem parse_insert (text : String) (source place : Nat) (before after inserted : List Char)
    (program : Program) (h : Program.parse text source = .ok program)
    (gap : Markup.Gap text place before after)
    (harmless : Markup.Harmless (Markup.openAt text place) inserted) :
    Program.parse (String.ofList (before ++ inserted ++ after)) source =
      .ok ⟨program.root.mapSpan (Span.insert place (Text.size inserted)), program.source⟩ := by
  obtain ⟨hsource, root, hd, hi, hc⟩ := Program.parse_eq_ok_iff.1 h
  obtain ⟨root', hd', ha⟩ := Markup.exists_parseDocument_insert gap harmless hd
  have hi' := ha.assemble hi
  have hc' := Instruction.checkRoot_mapSpan (Span.insert place (Text.size inserted)) hc
  exact Program.parse_eq_ok_iff.2 ⟨hsource, root', hd', hi', hc'⟩

theorem Markup.gap_split : Markup.Gap "<pipeline><print>ab</print><print/></pipeline>" 18
    "<pipeline><print>a".toList "b</print><print/></pipeline>".toList := by
  have hread : (Markup.read "<pipeline><print>ab</print><print/></pipeline>").events =
      [⟨.start "pipeline", 0, 10⟩, ⟨.start "print", 10, 17⟩, ⟨.text "ab", 17, 19⟩,
        ⟨.finish "print", 19, 27⟩, ⟨.empty "print", 27, 35⟩, ⟨.finish "pipeline", 35, 46⟩] := by
    cbv
  have closed : Markup.ClosedReferences ['a'] := by
    intro x y h
    cases x <;> simp at h
  refine ⟨by decide, by decide, ?_⟩
  rw [hread]
  intro e he hstart hstop
  simp only [List.mem_cons, List.not_mem_nil, or_false] at he
  rcases he with rfl | rfl | rfl | rfl | rfl | rfl
  · exact absurd hstop (by decide)
  · exact absurd hstop (by decide)
  · exact ⟨['a'], ['b'], rfl, rfl, closed⟩
  · exact absurd hstart (by decide)
  · exact absurd hstart (by decide)
  · exact absurd hstart (by decide)

theorem parse_insert_split :
    Program.parse "<pipeline><print>ab</print><print/></pipeline>" 1 =
      .ok ⟨.block .pipeline ⟨0, 10⟩ [.act .print ⟨10, 17⟩ "ab", .act .print ⟨27, 35⟩ ""], 1⟩ ∧
    Markup.Gap "<pipeline><print>ab</print><print/></pipeline>" 18 "<pipeline><print>a".toList
      "b</print><print/></pipeline>".toList ∧
    Markup.Harmless (Markup.openAt "<pipeline><print>ab</print><print/></pipeline>" 18)
      "<!--x-->".toList ∧
    Program.parse "<pipeline><print>a<!--x-->b</print><print/></pipeline>" 1 =
      .ok ⟨.block .pipeline ⟨0, 10⟩ [.act .print ⟨10, 17⟩ "ab", .act .print ⟨35, 43⟩ ""], 1⟩ := by
  have h : Program.parse "<pipeline><print>ab</print><print/></pipeline>" 1 =
      .ok ⟨.block .pipeline ⟨0, 10⟩ [.act .print ⟨10, 17⟩ "ab", .act .print ⟨27, 35⟩ ""], 1⟩ := by
    cbv
  have harmless : ∀ names, Markup.Harmless names "<!--x-->".toList := fun names =>
    .comment (by decide : ¬ "-->".toList <:+: ['x'])
  have hinsert := parse_insert _ 1 18 _ _ _ _ h Markup.gap_split (harmless _)
  exact ⟨h, Markup.gap_split, harmless _, hinsert⟩

end XmlPipeline
