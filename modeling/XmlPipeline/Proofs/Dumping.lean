import XmlPipeline.Program.Dump
import XmlPipeline.Proofs.Indentation
set_option autoImplicit false

/-!
Dumping: a tree told by its dump. Main statement: trees have the same dump, on one line or indented
on many, only if they are equal, and how many lines an indented dump has does NOT depend on what the
payloads contain. Neither dump is read back here: each part of it ends where it ends, whatever
follows.
-/

namespace XmlPipeline.Text

/-- What is written of a value cannot be mistaken for the beginning of what is written of another
one, whatever follows. -/
def SelfEnding {α β : Type} (write : α → List β) : Prop :=
  ∀ a b s t, write a ++ s = write b ++ t → a = b ∧ s = t

theorem selfEnding_quoteBy (hidden : Char → Bool) : SelfEnding (quoteBy hidden) := by
  intro a b s t h
  have hread := unquote_quoteBy hidden a s
  rw [h, unquote_quoteBy, Option.some.injEq, Prod.mk.injEq] at hread
  exact ⟨hread.1.symm, hread.2.symm⟩

theorem eq_of_quote {a b : String} (h : quote a = quote b) : a = b := by
  have hquoted := congrArg (fun text => text.toList ++ []) h
  simp only [toList_quote] at hquoted
  exact String.toList_inj.1 (selfEnding_quoteBy _ _ _ _ _ hquoted).1

theorem toList_toString (n : Nat) : (toString n).toList = Nat.toDigits 10 n := by
  rw [Nat.toString_eq_repr, Nat.toList_repr]

theorem eq_of_numeral_append {m n : Nat} {c d : Char} {s t : List Char} (hc : c.isDigit = false)
    (hd : d.isDigit = false)
    (h : (toString m).toList ++ c :: s = (toString n).toList ++ d :: t) :
    m = n ∧ c :: s = d :: t := by
  have hdigits (k : Nat) : ∀ x ∈ Nat.toDigits 10 k, x.isDigit = true := fun _ =>
    Nat.isDigit_of_mem_toDigits (by decide) (by decide)
  have hvalue (k : Nat) : Nat.ofDigitChars 10 (Nat.toDigits 10 k) 0 = k :=
    Nat.ofDigitChars_toDigits (by decide) (by decide)
  rw [toList_toString, toList_toString] at h
  obtain ⟨hm, hs⟩ := takeWhile_and_dropWhile_append (b := c :: s) (hdigits m) (by simpa using hc)
  obtain ⟨hn, ht⟩ := takeWhile_and_dropWhile_append (b := d :: t) (hdigits n) (by simpa using hd)
  rw [h] at hm hs
  refine ⟨?_, hs.symm.trans ht⟩
  rw [← hvalue m, ← hm, hn, hvalue n]

theorem splitLines_intercalate {lines : List (List Char)} {last : List Char}
    (free : ∀ line ∈ lines ++ [last], '\n' ∉ line) (ne : last ≠ []) :
    splitLines (['\n'].intercalate (lines ++ [last])) =
      lines.map (fun line => line ++ ['\n']) ++ [last] := by
  induction lines with
  | nil => simpa using splitLines_of_notMem ne (free last (by simp))
  | cons line lines ih =>
    rw [List.cons_append, List.forall_mem_cons] at free
    obtain ⟨next, rest, hnext⟩ := List.exists_cons_of_ne_nil
      (List.append_ne_nil_of_right_ne_nil lines (List.cons_ne_nil last []))
    have hrest := ih free.2
    rw [hnext] at hrest
    rw [List.cons_append, hnext, List.intercalate_cons_cons, List.append_assoc,
      List.singleton_append, splitLines_line free.1, hrest]
    rfl

end XmlPipeline.Text

namespace XmlPipeline

def Tag.variant : Tag → String
  | .scope s => s.variant
  | .action a => a.variant

theorem Tag.eq_of_variant {a b : Tag} (h : a.variant = b.variant) : a = b := by
  rcases a with (_ | _ | _) | (_ | _) <;> rcases b with (_ | _ | _) | (_ | _) <;>
    simp [variant, Scope.variant, Action.variant] at h ⊢

namespace Instruction
open Markup (Span)

theorem eq_of_span_append {a b : Span} {c d : Char} {s t : List Char} (hc : c.isDigit = false)
    (hd : d.isDigit = false) (h : a.dump.toList ++ c :: s = b.dump.toList ++ d :: t) :
    a = b ∧ c :: s = d :: t := by
  have hdots : "..".toList = ['.', '.'] := rfl
  have hdump (span : Span) (rest : List Char) : span.dump.toList ++ rest =
      (toString span.start).toList ++ '.' :: '.' :: ((toString span.stop).toList ++ rest) := by
    rw [Span.dump, String.toList_append, String.toList_append, hdots]
    simp only [List.append_assoc, List.cons_append, List.nil_append]
  rw [hdump, hdump] at h
  obtain ⟨hstart, hrest⟩ := Text.eq_of_numeral_append rfl rfl h
  rw [List.cons.injEq, List.cons.injEq] at hrest
  obtain ⟨hstop, htail⟩ := Text.eq_of_numeral_append hc hd hrest.2.2
  cases a
  cases b
  exact ⟨by congr 1, htail⟩

theorem eq_of_span_dump {a b : Span} (h : a.dump = b.dump) : a = b :=
  (eq_of_span_append (c := ',') (d := ',') (s := []) (t := []) rfl rfl (by rw [h])).1

section OnOneLine

def opening : Tag → String
  | .scope s => s.variant ++ " \x7b children: ["
  | .action a => a.variant ++ " \x7b " ++ a.field ++ ": "

def inside : Instruction → String
  | .block _ _ body => dumpAll body ++ "]"
  | .act _ _ payload => Text.quote payload

def ending (span : Span) : String := ", span: " ++ span.dump ++ " \x7d"

theorem dump_eq (i : Instruction) : i.dump = opening i.tag ++ i.inside ++ ending i.span := by
  have hspan : "], span: " = "]" ++ ", span: " := rfl
  cases i with
  | block scope span body =>
    simp only [dump, opening, inside, ending, tag, Instruction.span, hspan, String.append_assoc]
  | act action span payload =>
    simp only [dump, opening, inside, ending, tag, Instruction.span, String.append_assoc]

theorem toList_dump_append (i : Instruction) (s : List Char) : i.dump.toList ++ s =
    (opening i.tag).toList ++ (i.inside.toList ++ ((ending i.span).toList ++ s)) := by
  rw [dump_eq, String.toList_append, String.toList_append, List.append_assoc, List.append_assoc]

theorem selfEnding_opening : Text.SelfEnding fun tag => (opening tag).toList := by
  intro a b s t h
  rcases a with (_ | _ | _) | (_ | _) <;> rcases b with (_ | _ | _) | (_ | _) <;>
    simp [opening, Scope.variant, Action.variant, Action.field] at h ⊢ <;> exact h

theorem selfEnding_ending : Text.SelfEnding fun span => (ending span).toList := by
  intro a b s t h
  have hclose : " \x7d".toList = [' ', '\x7d'] := rfl
  simp only [ending, String.toList_append, hclose, List.append_assoc] at h
  obtain ⟨rfl, hrest⟩ := eq_of_span_append rfl rfl (List.append_cancel_left h)
  exact ⟨rfl, by simpa using hrest⟩

def further : List Instruction → String
  | [] => ""
  | i :: rest => ", " ++ dumpAll (i :: rest)

theorem dumpAll_cons (i : Instruction) (rest : List Instruction) :
    dumpAll (i :: rest) = i.dump ++ further rest := by
  cases rest with
  | nil => simp [dumpAll, further]
  | cons j rest => simp [dumpAll, further, String.append_assoc]

/-- No dump begins like what closes a list of them. -/
theorem head?_dumpAll_cons (i : Instruction) (rest : List Instruction) (s : List Char) :
    ((dumpAll (i :: rest)).toList ++ s).head? ≠ some ']' := by
  have hopening (tag : Tag) : ∃ c cs, (opening tag).toList = c :: cs ∧ c ≠ ']' := by
    rcases tag with (_ | _ | _) | (_ | _) <;> exact ⟨_, _, rfl, by decide⟩
  obtain ⟨c, cs, htag, hc⟩ := hopening i.tag
  rw [dumpAll_cons, String.toList_append, List.append_assoc, toList_dump_append, htag]
  simpa using hc

theorem eq_of_further {is js : List Instruction} {s t : List Char}
    (h : (further is).toList ++ ("]".toList ++ s) = (further js).toList ++ ("]".toList ++ t)) :
    (dumpAll is).toList ++ ("]".toList ++ s) = (dumpAll js).toList ++ ("]".toList ++ t) := by
  have hbracket : "]".toList = [']'] := rfl
  have hcomma : ", ".toList = [',', ' '] := rfl
  cases is with
  | nil =>
    cases js with
    | nil => exact h
    | cons j js => simp [further, hbracket, hcomma] at h
  | cons i is =>
    cases js with
    | nil => simp [further, hbracket, hcomma] at h
    | cons j js =>
      simp only [further, String.toList_append, List.append_assoc] at h
      exact List.append_cancel_left h

mutual

theorem eq_of_dump_append (i j : Instruction) (s t : List Char)
    (h : i.dump.toList ++ s = j.dump.toList ++ t) : i = j ∧ s = t := by
  rw [toList_dump_append, toList_dump_append] at h
  obtain ⟨htag, hinside⟩ := selfEnding_opening _ _ _ _ h
  cases i with
  | block scope span body =>
    cases j with
    | act => cases htag
    | block scope' span' body' =>
      cases htag
      simp only [inside, String.toList_append, List.append_assoc] at hinside
      obtain ⟨rfl, hend⟩ := eq_of_dumpAll_append body body' _ _ hinside
      obtain ⟨hspan, hrest⟩ := selfEnding_ending _ _ _ _ hend
      cases hspan
      exact ⟨rfl, hrest⟩
  | act action span payload =>
    cases j with
    | block => cases htag
    | act action' span' payload' =>
      cases htag
      simp only [inside, Text.toList_quote] at hinside
      obtain ⟨hpayload, hend⟩ := Text.selfEnding_quoteBy _ _ _ _ _ hinside
      obtain ⟨hspan, hrest⟩ := selfEnding_ending _ _ _ _ hend
      rw [String.toList_inj] at hpayload
      cases hspan
      cases hpayload
      exact ⟨rfl, hrest⟩

theorem eq_of_dumpAll_append (is js : List Instruction) (s t : List Char)
    (h : (dumpAll is).toList ++ ("]".toList ++ s) = (dumpAll js).toList ++ ("]".toList ++ t)) :
    is = js ∧ s = t := by
  have hbracket : "]".toList = [']'] := rfl
  have hempty : (dumpAll []).toList = [] := by rw [dumpAll]; rfl
  cases is with
  | nil =>
    cases js with
    | nil => exact ⟨rfl, List.append_cancel_left (List.append_cancel_left h)⟩
    | cons j js =>
      refine absurd ?_ (head?_dumpAll_cons j js ("]".toList ++ t))
      rw [← h, hempty, hbracket]
      rfl
  | cons i is =>
    cases js with
    | nil =>
      refine absurd ?_ (head?_dumpAll_cons i is ("]".toList ++ s))
      rw [h, hempty, hbracket]
      rfl
    | cons j js =>
      simp only [dumpAll_cons, String.toList_append, List.append_assoc] at h
      obtain ⟨rfl, hfurther⟩ := eq_of_dump_append i j _ _ h
      obtain ⟨rfl, hrest⟩ := eq_of_dumpAll_append is js s t (eq_of_further hfurther)
      exact ⟨rfl, hrest⟩

end

end OnOneLine

section OnLines

theorem indented_inj {width depth : Nat} {a b : String} :
    indented width depth a = indented width depth b ↔ a = b := String.append_right_inj _

def firstLine (depth : Nat) (tag : Tag) : String := indented 4 depth (tag.variant ++ " \x7b")

theorem eq_of_firstLine {depth : Nat} {a b : Tag} (h : firstLine depth a = firstLine depth b) :
    a = b := Tag.eq_of_variant ((String.append_left_inj _).1 (indented_inj.1 h))

def innerLines (depth : Nat) : Instruction → List String
  | .block _ _ [] => [indented 4 (depth + 1) "children: [],"]
  | .block _ _ (i :: rest) =>
    indented 4 (depth + 1) "children: [" :: (dumpLinesAll (depth + 2) (i :: rest) ++
      [indented 4 (depth + 1) "],"])
  | .act action _ payload =>
    [indented 4 (depth + 1) (action.field ++ ": " ++ Text.quote payload ++ ",")]

def lastLines (depth : Nat) (closing : String) (span : Span) : List String :=
  [indented 4 (depth + 1) ("span: " ++ span.dump ++ ","), indented 4 depth ("\x7d" ++ closing)]

theorem dumpLines_eq (depth : Nat) (closing : String) (i : Instruction) :
    dumpLines depth closing i =
      firstLine depth i.tag :: (i.innerLines depth ++ lastLines depth closing i.span) := by
  cases i with
  | block scope span body =>
    cases body with
    | nil => rw [dumpLines]; rfl
    | cons i rest =>
      rw [dumpLines]
      simp [innerLines, lastLines, firstLine, tag, Tag.variant, Instruction.span]
  | act action span payload => rw [dumpLines]; rfl

theorem selfEnding_lastLines (depth : Nat) (closing : String) :
    Text.SelfEnding (lastLines depth closing) := by
  intro a b s t h
  simp only [lastLines, List.cons_append, List.nil_append, List.cons.injEq, indented_inj,
    String.append_left_inj, String.append_right_inj, true_and] at h
  exact ⟨eq_of_span_dump h.1, h.2⟩

theorem ne_firstLine (depth depth' : Nat) (tag : Tag) :
    indented 4 depth "]," ≠ firstLine depth' tag := by
  intro h
  have hlast := congrArg (fun line => line.toList.getLast?) h
  have hbracket : "],".toList = [']', ','] := rfl
  have hbrace : " \x7b".toList = [' ', '\x7b'] := rfl
  simp [indented, firstLine, hbracket, hbrace, List.getLast?_append] at hlast

mutual

theorem eq_of_dumpLines_append (depth : Nat) (closing : String) (i j : Instruction)
    (s t : List String) (h : dumpLines depth closing i ++ s = dumpLines depth closing j ++ t) :
    i = j ∧ s = t := by
  rw [dumpLines_eq, dumpLines_eq, List.cons_append, List.cons_append, List.cons.injEq,
    List.append_assoc, List.append_assoc] at h
  obtain ⟨hfirst, hinner⟩ := h
  have htag := eq_of_firstLine hfirst
  cases i with
  | block scope span body =>
    cases j with
    | act => cases htag
    | block scope' span' body' =>
      cases htag
      cases body with
      | nil =>
        cases body' with
        | nil =>
          obtain ⟨hspan, hrest⟩ := selfEnding_lastLines _ _ _ _ _ _ (List.cons.inj hinner).2
          cases hspan
          exact ⟨rfl, hrest⟩
        | cons j js =>
          have hhead := indented_inj.1 (List.cons.inj hinner).1
          simp at hhead
      | cons i is =>
        cases body' with
        | nil =>
          have hhead := indented_inj.1 (List.cons.inj hinner).1
          simp at hhead
        | cons j js =>
          simp only [innerLines, List.cons_append, List.cons.injEq, List.append_assoc] at hinner
          obtain ⟨hbody, hend⟩ := eq_of_dumpLinesAll_append (depth + 2) (depth + 1) (i :: is)
            (j :: js) _ _ hinner.2
          obtain ⟨hspan, hrest⟩ := selfEnding_lastLines _ _ _ _ _ _ hend
          cases hspan
          exact ⟨by rw [hbody], hrest⟩
  | act action span payload =>
    cases j with
    | block => cases htag
    | act action' span' payload' =>
      cases htag
      obtain ⟨hpayload, hend⟩ := List.cons.inj hinner
      have hquote := (String.append_right_inj _).1 ((String.append_left_inj _).1
        (indented_inj.1 hpayload))
      obtain ⟨hspan, hrest⟩ := selfEnding_lastLines _ _ _ _ _ _ hend
      cases hspan
      cases Text.eq_of_quote hquote
      exact ⟨rfl, hrest⟩

theorem eq_of_dumpLinesAll_append (depth outer : Nat) (is js : List Instruction)
    (s t : List String)
    (h : dumpLinesAll depth is ++ ([indented 4 outer "],"] ++ s) =
      dumpLinesAll depth js ++ ([indented 4 outer "],"] ++ t)) :
    is = js ∧ s = t := by
  cases is with
  | nil =>
    cases js with
    | nil => exact ⟨rfl, List.append_cancel_left (List.append_cancel_left h)⟩
    | cons j js =>
      rw [dumpLinesAll, dumpLinesAll, dumpLines_eq] at h
      exact absurd (List.cons.inj h).1 (ne_firstLine outer depth j.tag)
  | cons i is =>
    cases js with
    | nil =>
      rw [dumpLinesAll, dumpLinesAll, dumpLines_eq] at h
      exact absurd (List.cons.inj h).1.symm (ne_firstLine outer depth i.tag)
    | cons j js =>
      rw [dumpLinesAll, dumpLinesAll, List.append_assoc, List.append_assoc] at h
      obtain ⟨rfl, hlater⟩ := eq_of_dumpLines_append depth "," i j _ _ h
      obtain ⟨rfl, hrest⟩ := eq_of_dumpLinesAll_append depth outer is js s t hlater
      exact ⟨rfl, hrest⟩

end

theorem newline_notMem_indented {width depth : Nat} {line : String} (h : '\n' ∉ line.toList) :
    '\n' ∉ (indented width depth line).toList := by
  simp [indented, h]

theorem newline_notMem_toDigits (n : Nat) : '\n' ∉ Nat.toDigits 10 n := by
  intro h
  simpa using Nat.isDigit_of_mem_toDigits (by decide) (by decide) h

theorem newline_notMem_firstLine (depth : Nat) (tag : Tag) :
    '\n' ∉ (firstLine depth tag).toList := by
  refine newline_notMem_indented ?_
  rcases tag with (_ | _ | _) | (_ | _) <;> decide

theorem newline_notMem_lastLines (depth : Nat) {closing : String} (h : '\n' ∉ closing.toList)
    (span : Span) : ∀ line ∈ lastLines depth closing span, '\n' ∉ line.toList := by
  have hstart := newline_notMem_toDigits span.start
  have hstop := newline_notMem_toDigits span.stop
  intro line hline
  simp only [lastLines, List.mem_cons, List.not_mem_nil, or_false] at hline
  rcases hline with rfl | rfl
  · refine newline_notMem_indented ?_
    simp [Span.dump, hstart, hstop]
  · refine newline_notMem_indented ?_
    simp [h]

mutual

theorem newline_notMem_dumpLines (depth : Nat) {closing : String} (h : '\n' ∉ closing.toList)
    (i : Instruction) : ∀ line ∈ dumpLines depth closing i, '\n' ∉ line.toList := by
  have hfirst := newline_notMem_firstLine depth i.tag
  have hlast := newline_notMem_lastLines depth h i.span
  rw [dumpLines_eq, List.forall_mem_cons, List.forall_mem_append]
  refine ⟨hfirst, ?_, hlast⟩
  cases i with
  | block scope span body =>
    cases body with
    | nil =>
      rw [innerLines, List.forall_mem_singleton]
      exact newline_notMem_indented (by decide)
    | cons i rest =>
      rw [innerLines, List.forall_mem_cons, List.forall_mem_append, List.forall_mem_singleton]
      refine ⟨newline_notMem_indented (by decide), ?_, newline_notMem_indented (by decide)⟩
      exact newline_notMem_dumpLinesAll (depth + 2) (i :: rest)
  | act action span payload =>
    have hfield : '\n' ∉ action.field.toList := by cases action <;> decide
    rw [innerLines, List.forall_mem_singleton]
    refine newline_notMem_indented ?_
    simp [hfield, Text.toList_quote, Text.newline_notMem_quoteBy]

theorem newline_notMem_dumpLinesAll (depth : Nat) (is : List Instruction) :
    ∀ line ∈ dumpLinesAll depth is, '\n' ∉ line.toList := by
  cases is with
  | nil => simp [dumpLinesAll]
  | cons i rest =>
    rw [dumpLinesAll, List.forall_mem_append]
    exact ⟨newline_notMem_dumpLines depth (by decide) i, newline_notMem_dumpLinesAll depth rest⟩

end

def bodyLines (i : Instruction) : List String :=
  firstLine 0 i.tag :: (i.innerLines 0 ++ [indented 4 1 ("span: " ++ i.span.dump ++ ",")])

theorem dumpLines_eq_concat (i : Instruction) : dumpLines 0 "" i = i.bodyLines ++ ["\x7d"] := by
  have hbrace : indented 4 0 ("\x7d" ++ "") = "\x7d" := rfl
  rw [dumpLines_eq, bodyLines, lastLines, hbrace, List.cons_append, List.append_assoc]
  rfl

theorem splitLines_dumpPretty (i : Instruction) : Text.splitLines i.dumpPretty.toList =
    i.bodyLines.map (fun line => line.toList ++ ['\n']) ++ [['\x7d']] := by
  have hfree := @newline_notMem_dumpLines 0 "" (by decide) i
  have hseparator : "\n".toList = ['\n'] := rfl
  have hbrace : "\x7d".toList = ['\x7d'] := rfl
  rw [dumpLines_eq_concat] at hfree
  rw [dumpPretty, String.toList_intercalate, hseparator, dumpLines_eq_concat, List.map_append,
    List.map_cons, List.map_nil, hbrace, Text.splitLines_intercalate ?_ (List.cons_ne_nil _ _),
    List.map_map]
  · rfl
  · intro line hline
    rw [← hbrace, ← List.map_singleton, ← List.map_append] at hline
    obtain ⟨text, htext, rfl⟩ := List.mem_map.1 hline
    exact hfree text htext

theorem eq_of_dumpPretty {i j : Instruction} (h : i.dumpPretty = j.dumpPretty) : i = j := by
  have hlines := splitLines_dumpPretty i
  rw [h, splitLines_dumpPretty] at hlines
  have hbody : j.bodyLines = i.bodyLines := by
    refine (List.map_inj_right fun a b hab => ?_).1 (List.append_cancel_right hlines)
    exact String.toList_inj.1 (List.append_cancel_right hab)
  refine (eq_of_dumpLines_append 0 "" i j [] [] ?_).1
  rw [dumpLines_eq_concat, dumpLines_eq_concat, hbody]

end OnLines

mutual

def withoutPayloads : Instruction → Instruction
  | .block scope span body => .block scope span (withoutPayloadsAll body)
  | .act action span _ => .act action span ""

def withoutPayloadsAll : List Instruction → List Instruction
  | [] => []
  | i :: rest => i.withoutPayloads :: withoutPayloadsAll rest

end

theorem length_dumpLines (depth : Nat) (closing : String) (i : Instruction) :
    (dumpLines depth closing i).length = 3 + (i.innerLines depth).length := by
  rw [dumpLines_eq, List.length_cons, List.length_append, lastLines, List.length_cons,
    List.length_singleton]
  omega

mutual

theorem length_dumpLines_withoutPayloads (depth : Nat) (closing : String) (i : Instruction) :
    (dumpLines depth closing i.withoutPayloads).length = (dumpLines depth closing i).length := by
  rw [length_dumpLines, length_dumpLines]
  cases i with
  | block scope span body =>
    cases body with
    | nil => rw [withoutPayloads, withoutPayloadsAll]
    | cons i rest =>
      have hbody := length_dumpLinesAll_withoutPayloads (depth + 2) (i :: rest)
      rw [withoutPayloadsAll] at hbody
      rw [withoutPayloads, withoutPayloadsAll, innerLines, innerLines, List.length_cons,
        List.length_cons, List.length_append, List.length_append, hbody]
  | act action span payload =>
    rw [withoutPayloads, innerLines, innerLines, List.length_singleton, List.length_singleton]

theorem length_dumpLinesAll_withoutPayloads (depth : Nat) (is : List Instruction) :
    (dumpLinesAll depth (withoutPayloadsAll is)).length = (dumpLinesAll depth is).length := by
  cases is with
  | nil => rfl
  | cons i rest =>
    rw [withoutPayloadsAll, dumpLinesAll, dumpLinesAll, List.length_append, List.length_append,
      length_dumpLines_withoutPayloads, length_dumpLinesAll_withoutPayloads]

end

theorem length_lines_dumpPretty (i : Instruction) :
    (Text.lines i.dumpPretty).length = (dumpLines 0 "" i).length := by
  rw [Text.lines, List.length_map, splitLines_dumpPretty, dumpLines_eq_concat]
  simp

/-- A dump tells the tree that it is of, spans included, whichever way it is laid out. An indented
one has as many lines as if there were nothing in the payloads. -/
theorem dumps_tell_tree (i j : Instruction) :
    (i.dump = j.dump ↔ i = j) ∧ (i.dumpPretty = j.dumpPretty ↔ i = j) ∧
    (i.dump = j.dump ↔ i.dumpPretty = j.dumpPretty) ∧
    (Text.lines i.dumpPretty).length = (Text.lines i.withoutPayloads.dumpPretty).length := by
  have hdump : i.dump = j.dump ↔ i = j :=
    ⟨fun h => (eq_of_dump_append i j [] [] (by rw [h])).1, congrArg dump⟩
  have hpretty : i.dumpPretty = j.dumpPretty ↔ i = j := ⟨eq_of_dumpPretty, congrArg dumpPretty⟩
  refine ⟨hdump, hpretty, hdump.trans hpretty.symm, ?_⟩
  rw [length_lines_dumpPretty, length_lines_dumpPretty, length_dumpLines_withoutPayloads]

end Instruction
end XmlPipeline
