import XmlPipeline.Proofs.Lines
import XmlPipeline.Proofs.Numerals
import XmlPipeline.Proofs.Truncation
set_option autoImplicit false

/-!
Unquoting: what has been printed is read back. Main statement: texts that are printed one after
another give a line each, and no other texts give the same bytes. Which characters are given by
number is of no account, and a reader does NOT have to know it.
-/

namespace XmlPipeline.Text
open Markup (digitValue? readDigits Radix SpellsNumber spellsNumber_toDigits)

/-- The escape of a character, given which characters are not to be shown. -/
def escapeBy (hidden : Char → Bool) (c : Char) : List Char :=
  if c = '\x00' then ['\\', '0']
  else if c = '\t' then ['\\', 't']
  else if c = '\r' then ['\\', 'r']
  else if c = '\n' then ['\\', 'n']
  else if c = '\\' ∨ c = '"' then ['\\', c]
  else if hidden c then escapeNumber c
  else [c]

def quoteBy (hidden : Char → Bool) (text : List Char) : List Char :=
  '"' :: text.flatMap (escapeBy hidden) ++ ['"']

def isHidden (c : Char) : Bool := isCombining c || !isPrintable c

theorem toList_quote (text : String) : (quote text).toList = quoteBy isHidden text.toList := by
  have hescape : escape = escapeBy isHidden := by
    funext c
    simp [escape, escapeBy, isHidden]
  rw [quote, String.toList_ofList, quoteBy, hescape]

/-- Where a reader of quoted text is: among characters, behind a backslash, behind the letter of an
escape by number, or within the number, of which it has read so much. -/
inductive Within where
  | text
  | escape
  | brace
  | number (value : Nat)

def unescaped (c : Char) : Char :=
  if c = '0' then '\x00' else if c = 't' then '\t' else if c = 'r' then '\r'
  else if c = 'n' then '\n' else c

def unquoteFrom : Within → List Char → Option (List Char × List Char)
  | _, [] => none
  | .text, c :: rest =>
    if c = '"' then some ([], rest)
    else if c = '\\' then unquoteFrom .escape rest
    else (unquoteFrom .text rest).map fun (text, tail) => (c :: text, tail)
  | .escape, c :: rest =>
    if c = 'u' then unquoteFrom .brace rest
    else (unquoteFrom .text rest).map fun (text, tail) => (unescaped c :: text, tail)
  | .brace, c :: rest => if c = '\x7b' then unquoteFrom (.number 0) rest else none
  | .number value, c :: rest =>
    if c = '\x7d' then
      (unquoteFrom .text rest).map fun (text, tail) => (Char.ofNat value :: text, tail)
    else
      match digitValue? 16 c with
      | some d => unquoteFrom (.number (value * 16 + d)) rest
      | none => none

def unquote : List Char → Option (List Char × List Char)
  | '"' :: rest => unquoteFrom .text rest
  | _ => none

def readLine (line : List Char) : Option String :=
  match unquote line with
  | some (text, ['\n']) => some (String.ofList text)
  | _ => none

def readBack (output : List UInt8) : Option (List String) :=
  (splitLines (decodeFrom none output)).mapM readLine

theorem unquoteFrom_number {value n : Nat} {digits : List Char}
    (h : readDigits 16 value digits = .ok n) (rest : List Char) :
    unquoteFrom (.number value) (digits ++ '\x7d' :: rest) =
      (unquoteFrom .text rest).map fun (text, tail) => (Char.ofNat n :: text, tail) := by
  induction digits generalizing value with
  | nil =>
    cases h
    simp [unquoteFrom]
  | cons c digits ih =>
    rw [readDigits] at h
    cases hd : digitValue? 16 c with
    | none => simp [hd] at h
    | some d =>
      have hc : c ≠ '\x7d' := by
        rintro rfl
        simp [digitValue?] at hd
      simp only [hd] at h
      split at h
      · rw [List.cons_append, unquoteFrom, if_neg hc, hd]
        exact ih h
      · cases h

theorem unquoteFrom_escapeNumber (c : Char) (rest : List Char) :
    unquoteFrom .text (escapeNumber c ++ rest) =
      (unquoteFrom .text rest).map fun (text, tail) => (c :: text, tail) := by
  have hvalid := toNat_valid c
  have hread : readDigits 16 0 (Nat.toDigits 16 c.toNat) = .ok c.toNat :=
    (spellsNumber_toDigits .hexadecimal c.toNat).readDigits_eq (by omega)
  have hnumber := unquoteFrom_number hread rest
  rw [Char.ofNat_toNat] at hnumber
  simp only [escapeNumber, List.cons_append, List.append_assoc, List.nil_append]
  simp [unquoteFrom, hnumber]

theorem escapeBy_cases (hidden : Char → Bool) (c : Char) :
    (∃ letter, escapeBy hidden c = ['\\', letter] ∧ unescaped letter = c ∧
      letter ≠ 'u' ∧ letter ≠ '\n') ∨
    escapeBy hidden c = escapeNumber c ∨
    (escapeBy hidden c = [c] ∧ c ≠ '"' ∧ c ≠ '\\' ∧ c ≠ '\n') := by
  unfold escapeBy
  split
  · next h => exact .inl ⟨'0', rfl, h.symm, by decide, by decide⟩
  split
  · next h => exact .inl ⟨'t', rfl, h.symm, by decide, by decide⟩
  split
  · next h => exact .inl ⟨'r', rfl, h.symm, by decide, by decide⟩
  split
  · next h => exact .inl ⟨'n', rfl, h.symm, by decide, by decide⟩
  split
  · next h => rcases h with rfl | rfl <;> exact .inl ⟨_, rfl, rfl, by decide, by decide⟩
  split
  · exact .inr (.inl rfl)
  · next hnewline hquoted _ =>
    rw [not_or] at hquoted
    exact .inr (.inr ⟨rfl, hquoted.2, hquoted.1, hnewline⟩)

theorem unquoteFrom_escapeBy (hidden : Char → Bool) (c : Char) (rest : List Char) :
    unquoteFrom .text (escapeBy hidden c ++ rest) =
      (unquoteFrom .text rest).map fun (text, tail) => (c :: text, tail) := by
  rcases escapeBy_cases hidden c with
    ⟨letter, hescape, hletter, hnumber, _⟩ | hescape | ⟨hescape, hquote, hbackslash, _⟩
  · rw [hescape]
    simp [unquoteFrom, hletter, hnumber]
  · rw [hescape]
    exact unquoteFrom_escapeNumber c rest
  · rw [hescape]
    simp [unquoteFrom, hquote, hbackslash]

theorem unquote_quoteBy (hidden : Char → Bool) (text rest : List Char) :
    unquote (quoteBy hidden text ++ rest) = some (text, rest) := by
  have hinner : unquoteFrom .text (text.flatMap (escapeBy hidden) ++ '"' :: rest) =
      some (text, rest) := by
    induction text with
    | nil => simp [unquoteFrom]
    | cons c text ih =>
      rw [List.flatMap_cons, List.append_assoc, unquoteFrom_escapeBy, ih]
      rfl
  simp only [quoteBy, List.cons_append, List.append_assoc, List.nil_append, unquote]
  exact hinner

theorem newline_notMem_escapeNumber (c : Char) : '\n' ∉ escapeNumber c := by
  have hdigits : '\n' ∉ Nat.toDigits 16 c.toNat := by
    intro h
    have hrange := (spellsNumber_toDigits .hexadecimal c.toNat).toNat_of_mem h
    simp at hrange
  simp [escapeNumber, hdigits]

theorem newline_notMem_escapeBy (hidden : Char → Bool) (c : Char) : '\n' ∉ escapeBy hidden c := by
  rcases escapeBy_cases hidden c with
    ⟨letter, hescape, _, _, hnewline⟩ | hescape | ⟨hescape, _, _, hnewline⟩
  · rw [hescape]
    simp [hnewline.symm]
  · rw [hescape]
    exact newline_notMem_escapeNumber c
  · rw [hescape]
    simp [hnewline.symm]

theorem newline_notMem_quoteBy (hidden : Char → Bool) (text : List Char) :
    '\n' ∉ quoteBy hidden text := by
  simp [quoteBy, newline_notMem_escapeBy]

def lineBy (hidden : Char → Bool) (text : String) : List UInt8 :=
  bytes (quoteBy hidden text.toList ++ ['\n'])

theorem readLine_quoteBy (hidden : Char → Bool) (text : String) :
    readLine (quoteBy hidden text.toList ++ ['\n']) = some text := by
  rw [readLine, unquote_quoteBy]
  simp

theorem mapM_readLine_splitLines (hidden : Char → Bool) (texts : List String) :
    (splitLines (texts.flatMap fun text => quoteBy hidden text.toList ++ ['\n'])).mapM readLine =
      some texts := by
  induction texts with
  | nil => rfl
  | cons text texts ih =>
    have hline := newline_notMem_quoteBy hidden text.toList
    rw [List.flatMap_cons, List.append_assoc, List.singleton_append, splitLines_line hline,
      List.mapM_cons, readLine_quoteBy, ih]
    rfl

theorem readBack_flatMap_lineBy (hidden : Char → Bool) (texts : List String) :
    readBack (texts.flatMap (lineBy hidden)) = some texts := by
  have hbytes : texts.flatMap (lineBy hidden) =
      bytes (texts.flatMap fun text => quoteBy hidden text.toList ++ ['\n']) := by
    rw [bytes, List.flatMap_assoc]
    rfl
  rw [readBack, hbytes, decodeFrom_bytes, mapM_readLine_splitLines]

theorem newline_notMem_bytes {cs : List Char} (h : '\n' ∉ cs) : 10 ∉ bytes cs := by
  intro hm
  obtain ⟨c, hc, hb⟩ := List.mem_flatMap.1 hm
  have hn : c.toNat = 10 := toNat_of_mem_encode hb (by decide)
  have hnewline : c = '\n' := Char.toNat_inj.1 hn
  exact h (hnewline ▸ hc)

/-- Some bytes are lines that hold some texts, one each, in quotes. -/
structure HoldsTexts (texts : List String) (output : List UInt8) : Prop where
  lines : ∃ lines : List (List UInt8), lines.length = texts.length ∧
    output = lines.flatMap (· ++ [10]) ∧
    ∀ line ∈ lines, 10 ∉ line ∧ ∃ inner, line = 34 :: inner ++ [34]
  readBack : readBack output = some texts

theorem bytes_quoteBy (hidden : Char → Bool) (text : List Char) :
    bytes (quoteBy hidden text) = 34 :: bytes (text.flatMap (escapeBy hidden)) ++ [34] := by
  have hquote : String.utf8EncodeChar '"' = [34] := by decide
  simp [quoteBy, bytes, hquote]

theorem holdsTexts_lineBy (hidden : Char → Bool) (texts : List String) :
    HoldsTexts texts (texts.flatMap (lineBy hidden)) where
  lines := by
    refine ⟨texts.map fun text => bytes (quoteBy hidden text.toList), by simp, ?_, ?_⟩
    · have hline : lineBy hidden = fun text => bytes (quoteBy hidden text.toList) ++ [10] := by
        funext text
        rw [lineBy, bytes_append]
        rfl
      rw [hline, List.flatMap_map]
    · intro line hline
      obtain ⟨text, _, rfl⟩ := List.mem_map.1 hline
      exact ⟨newline_notMem_bytes (newline_notMem_quoteBy hidden _), _, bytes_quoteBy hidden _⟩
  readBack := readBack_flatMap_lineBy hidden texts

end XmlPipeline.Text

namespace XmlPipeline.Run

def printEach : List String → State → State × List (Except Fault Value)
  | [], s => (s, [])
  | text :: rest, s =>
    let (s, result) := printValue (.text text) s
    let (s, results) := printEach rest s
    (s, result :: results)

theorem printedLine_eq_lineBy (text : String) :
    printedLine text = Text.lineBy Text.isHidden text := by
  rw [printedLine, Text.lineBy, String.toList_append, Text.toList_quote]
  rfl

theorem printEach_eq (texts : List String) {s : State} (h : s.sink.room = none) :
    (printEach texts s).1.sink.accepted =
        s.sink.accepted ++ texts.flatMap (Text.lineBy Text.isHidden) ∧
      (printEach texts s).2 = texts.map fun text => .ok (.text text) := by
  induction texts generalizing s with
  | nil => exact ⟨(List.append_nil _).symm, rfl⟩
  | cons text rest ih =>
    have hwrite : s.sink.write (Text.lineBy Text.isHidden text) =
        (s.sink.holding (Text.lineBy Text.isHidden text), .ok ()) := by
      simp [Sink.write, h, Sink.holding]
    have hprint : printValue (.text text) s =
        ({ s with sink := s.sink.holding (Text.lineBy Text.isHidden text) }, .ok (.text text)) := by
      rw [printValue, printedLine_eq_lineBy, hwrite]
    obtain ⟨haccepted, hresults⟩ :=
      @ih { s with sink := s.sink.holding (Text.lineBy Text.isHidden text) } h
    rw [printEach, hprint]
    refine ⟨haccepted.trans ?_, congrArg (.ok (.text text) :: ·) hresults⟩
    rw [List.flatMap_cons, ← List.append_assoc]
    rfl

/-- What is printed to a sink without a limit can be read back, and each print hands its text
on. -/
theorem printed_texts_read_back (texts : List String) (s : State) (h : s.sink.room = none) :
    ∃ output, (printEach texts s).1.sink.accepted = s.sink.accepted ++ output ∧
      (printEach texts s).2 = texts.map (fun text => .ok (.text text)) ∧
      Text.HoldsTexts texts output ∧
      (∀ others t, t.sink.room = none →
        (printEach others t).1.sink.accepted = t.sink.accepted ++ output → others = texts) ∧
      ∀ hidden, Text.HoldsTexts texts (texts.flatMap (Text.lineBy hidden)) := by
  obtain ⟨haccepted, hresults⟩ := printEach_eq texts h
  refine ⟨texts.flatMap (Text.lineBy Text.isHidden), haccepted, hresults,
    Text.holdsTexts_lineBy _ _, ?_, fun hidden => Text.holdsTexts_lineBy hidden texts⟩
  intro others t ht hsame
  rw [(printEach_eq others ht).1, List.append_cancel_left_eq] at hsame
  have hread := Text.readBack_flatMap_lineBy Text.isHidden others
  rw [hsame, Text.readBack_flatMap_lineBy, Option.some.injEq] at hread
  exact hread.symm

theorem printed_texts_read_back_lookalike :
    (printEach ["\n", "\\n"] { sink := {} }).1.sink.accepted =
      [34, 92, 110, 34, 10, 34, 92, 92, 110, 34, 10] ∧
    Text.HoldsTexts ["\n", "\\n"] [34, 92, 110, 34, 10, 34, 92, 92, 110, 34, 10] := by
  obtain ⟨output, haccepted, _, hholds, _⟩ :=
    printed_texts_read_back ["\n", "\\n"] { sink := {} } rfl
  have houtput : [34, 92, 110, 34, 10, 34, 92, 92, 110, 34, 10] = output := haccepted
  subst houtput
  exact ⟨haccepted, hholds⟩

end XmlPipeline.Run
