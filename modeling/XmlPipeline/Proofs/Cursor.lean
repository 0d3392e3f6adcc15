import XmlPipeline.Proofs.Places
import XmlPipeline.Proofs.Slices
set_option autoImplicit false

/-!
Cursors: a source that is read on by one event at a time, as bytes. Main statement: a cursor reads
the items of its source one after another, the slices that it cuts out are texts, and its faults are
those of the items.
-/

namespace XmlPipeline.Markup

/-- What a cursor hands over: slices of its source, which nobody has decoded yet. -/
inductive RawEvent where
  | start (name : List UInt8)
  | empty (name : List UInt8)
  | finish (name : List UInt8)
  | text (run : List UInt8)
  | verbatim (content : List UInt8)
  | aside
  deriving DecidableEq, Repr

def RawEvent.slice? : RawEvent → Option (List UInt8)
  | .start slice | .empty slice | .finish slice | .text slice | .verbatim slice => some slice
  | .aside => none

def shownName (name : List UInt8) : String := (Text.decode? name).getD ""

/-- The event, if its slice is a text. The name in an end tag is not looked at any more. -/
def RawEvent.decode? : RawEvent → Option Event
  | .start name => (Text.decode? name).map .start
  | .empty name => (Text.decode? name).map .empty
  | .finish name => some (.finish (shownName name))
  | .text run => (Text.decode? run).map .text
  | .verbatim content => (Text.decode? content).map .verbatim
  | .aside => some .aside

/-- The event that an item is whose characters are bytes, and the open names after it, innermost
first. -/
def Item.rawEvent (opened : List (List UInt8)) :
    Item → Except SyntaxFault (RawEvent × List (List UInt8))
  | .run text => .ok (.text (Text.toBytes text), opened)
  | .tag content =>
    if content.getLast? = some '/' then
      .ok (.empty (Text.toBytes (tagName content.dropLast).toList), opened)
    else
      let name := Text.toBytes (tagName content).toList
      .ok (.start name, name :: opened)
  | .close content =>
    let name := Text.toBytes (closeName content).toList
    match opened with
    | [] => .error (.unmatchedEnd (shownName name))
    | inner :: outer =>
      if name = inner then .ok (.finish name, outer)
      else .error (.mismatchedEnd (shownName inner) (shownName name))
  | .verbatim content => .ok (.verbatim (Text.toBytes content), opened)
  | .comment _ | .instruction _ | .doctype _ => .ok (.aside, opened)

/-- Where a cursor is: before a byte order mark that there may be, in text, behind a `<` that was
read together with the text before it, or at the end of a source that has ended. -/
inductive Phase where
  | fresh
  | text
  | markup
  | ended
  deriving DecidableEq, Repr

structure Cursor where
  phase : Phase
  /-- How many bytes have been read, without a byte order mark. -/
  offset : Nat
  /-- The names of the elements that are open, innermost first. -/
  opened : List (List UInt8)
  rest : List UInt8
  deriving DecidableEq, Repr

namespace Cursor

def start (source : List UInt8) : Cursor := ⟨.fresh, 0, [], source⟩

/-- The place of a cursor, where a `<` that was read with text does not count. -/
def place (c : Cursor) : Nat :=
  match c.phase with
  | .markup => c.offset - 1
  | _ => c.offset

def mark : List UInt8 := [0xEF, 0xBB, 0xBF]

def skipMark (source : List UInt8) : List UInt8 :=
  if mark.isPrefixOf source then source.drop mark.length else source

def readMarkup (c : Cursor) : Except (SyntaxFault × Nat) (Option RawEvent × Cursor) :=
  match Item.markup (Text.ofBytes c.rest) with
  | .error defect => .error (defect.fault, c.offset - 1 + defect.ahead)
  | .ok (item, tail) =>
    match item.rawEvent c.opened with
    | .error fault => .error (fault, c.offset - 1)
    | .ok (event, opened) =>
      .ok (some event, ⟨.text, c.offset + (c.rest.length - tail.length), opened, Text.toBytes tail⟩)

def readText (c : Cursor) : Except (SyntaxFault × Nat) (Option RawEvent × Cursor) :=
  let run := c.rest.takeWhile (Char.ofUInt8 · != '<')
  match c.rest.dropWhile (Char.ofUInt8 · != '<') with
  | [] =>
    if run = [] then .ok (none, { c with phase := .ended })
    else .ok (some (.text run), ⟨.ended, c.offset + run.length, c.opened, []⟩)
  | _ :: rest =>
    if run = [] then readMarkup ⟨.markup, c.offset + 1, c.opened, rest⟩
    else .ok (some (.text run), ⟨.markup, c.offset + run.length + 1, c.opened, rest⟩)

def next (c : Cursor) : Except (SyntaxFault × Nat) (Option RawEvent × Cursor) :=
  match c.phase with
  | .fresh => readText { c with phase := .text, rest := skipMark c.rest }
  | .text => c.readText
  | .markup => c.readMarkup
  | .ended => .ok (none, c)

end Cursor

def nameBytes (name : String) : List UInt8 := Text.bytes name.toList

theorem decode?_bytes (text : String) : Text.decode? (Text.bytes text.toList) = some text := by
  rw [Text.decode?, Text.decodeFrom_bytes, if_pos rfl, String.ofList_toList]

theorem shownName_nameBytes (name : String) : shownName (nameBytes name) = name := by
  rw [shownName, nameBytes, decode?_bytes, Option.getD_some]

theorem nameBytes_inj {a b : String} : nameBytes a = nameBytes b ↔ a = b := by
  constructor
  · intro h
    rw [← shownName_nameBytes a, h, shownName_nameBytes]
  · exact congrArg nameBytes

def Event.raw : Event → RawEvent
  | .start name => .start (nameBytes name)
  | .empty name => .empty (nameBytes name)
  | .finish name => .finish (nameBytes name)
  | .text run => .text (Text.bytes run.toList)
  | .verbatim content => .verbatim (Text.bytes content.toList)
  | .aside => .aside

theorem Event.decode?_raw (event : Event) : event.raw.decode? = some event := by
  cases event with
  | finish name => rw [raw, RawEvent.decode?, shownName_nameBytes]
  | aside => rfl
  | _ => simp [raw, RawEvent.decode?, nameBytes, decode?_bytes]

theorem Event.exists_text_of_slice? {event : Event} {slice : List UInt8}
    (h : event.raw.slice? = some slice) : ∃ text, Text.decode? slice = some text := by
  cases event with
  | aside => cases h
  | _ =>
    cases h
    exact ⟨_, decode?_bytes _⟩

theorem Event.exists_of_raw_eq_finish {event : Event} {bytes : List UInt8}
    (h : event.raw = .finish bytes) : ∃ name, event = .finish name ∧ nameBytes name = bytes := by
  cases event with
  | finish name =>
    cases h
    exact ⟨name, rfl, rfl⟩
  | _ => cases h

theorem Item.rawEvent_octets (item : Item) (names : List String) :
    item.octets.rawEvent (names.map nameBytes) =
      (item.event names).map fun (event, names) => (event.raw, names.map nameBytes) := by
  cases item with
  | run text => simp [octets, rawEvent, event, Except.map, Event.raw]
  | tag content =>
    have hslash : (Text.octets content).getLast? = some '/' ↔ _ :=
      Text.getLast?_octets (by decide) content
    simp only [octets, rawEvent, event, hslash]
    split
    · next hlast =>
      obtain ⟨init, rfl⟩ := List.getLast?_eq_some_iff.1 hlast
      rw [Text.octets_append, Text.octets_singleton (by decide), List.dropLast_concat,
        List.dropLast_concat, tagName_octets, Text.toBytes_octets]
      rfl
    · rw [tagName_octets, Text.toBytes_octets]
      rfl
  | close content =>
    have hname : Text.toBytes (closeName (Text.octets content)).toList =
        nameBytes (closeName content) := by
      rw [closeName_octets, Text.toBytes_octets]
      rfl
    cases names with
    | nil => simp [octets, rawEvent, event, hname, shownName_nameBytes, Except.map]
    | cons name outer =>
      simp only [octets, rawEvent, event, hname, List.map_cons, nameBytes_inj, shownName_nameBytes]
      split
      · next h => rw [h]; rfl
      · rfl
  | verbatim content => simp [octets, rawEvent, event, Except.map, Event.raw]
  | _ => rfl

namespace Cursor

/-- A cursor that is at byte `offset`, before the text `cs`, with the elements `names` open. -/
inductive At : List String → Nat → List Char → Cursor → Prop where
  | fresh (cs : List Char) : At [] 0 (withoutMark cs) (start (Text.bytes cs))
  | text (names : List String) (offset : Nat) (cs : List Char) :
      At names offset cs ⟨.text, offset, names.map nameBytes, Text.bytes cs⟩
  | markup (names : List String) (offset : Nat) (cs : List Char) :
      At names offset ('<' :: cs) ⟨.markup, offset + 1, names.map nameBytes, Text.bytes cs⟩
  | ended (names : List String) (offset : Nat) :
      At names offset [] ⟨.ended, offset, names.map nameBytes, []⟩

inductive Gives (names : List String) (offset : Nat) :
    List Char → Except (SyntaxFault × Nat) (Option RawEvent × Cursor) → Prop where
  | ended {c : Cursor} (place : c.place = offset) : Gives names offset [] (.ok (none, c))
  | defective {d : Char} {ds : List Char} {defect : Defect}
      (h : Item.next d ds = .error defect) :
      Gives names offset (d :: ds) (.error (defect.fault, offset + defect.ahead))
  | misnamed {d : Char} {ds rest : List Char} {item : Item} {fault : SyntaxFault}
      (h : Item.next d ds = .ok (item, rest)) (means : item.event names = .error fault) :
      Gives names offset (d :: ds) (.error (fault, offset))
  | read {d : Char} {ds rest : List Char} {item : Item} {event : Event} {names' : List String}
      {c : Cursor} (h : Item.next d ds = .ok (item, rest))
      (means : item.event names = .ok (event, names'))
      (behind : At names' (offset + Text.size item.spelling) rest c) :
      Gives names offset (d :: ds) (.ok (some event.raw, c))

section
variable {names : List String} {offset : Nat} {cs : List Char} {c : Cursor}

theorem At.place_eq (h : At names offset cs c) : c.place = offset := by
  cases h <;> rfl

theorem At.opened_eq (h : At names offset cs c) : c.opened = names.map nameBytes := by
  cases h <;> rfl

theorem gives_readMarkup (names : List String) (offset : Nat) (cs : List Char) (phase : Phase) :
    Gives names offset ('<' :: cs)
      (readMarkup ⟨phase, offset + 1, names.map nameBytes, Text.bytes cs⟩) := by
  have hnext : Item.next '<' cs = Item.markup cs := if_pos rfl
  have hoctets : Item.markup (Text.ofBytes (Text.bytes cs)) = _ := Item.markup_octets cs
  simp only [readMarkup, hoctets, Nat.add_sub_cancel]
  cases hcut : Item.markup cs with
  | error defect => exact .defective (hnext.trans hcut)
  | ok parts =>
    obtain ⟨item, rest⟩ := parts
    simp only [Except.map, Item.octetParts, Item.rawEvent_octets]
    cases hmeans : item.event names with
    | error fault => exact .misnamed (hnext.trans hcut) hmeans
    | ok meaning =>
      obtain ⟨event, names'⟩ := meaning
      -- What is read are the bytes of the item, its `<` among them.
      have hsize := congrArg Text.size (Item.spelling_markup hcut)
      have hstop : offset + 1 + (Text.size cs - Text.size rest) =
          offset + Text.size item.spelling := by
        have hone : ('<' : Char).utf8Size = 1 := rfl
        rw [Text.size_append, Text.size_cons, hone] at hsize
        have hpos := Text.size_pos (Item.spelling_ne_nil (hnext.trans hcut))
        omega
      refine .read (hnext.trans hcut) hmeans ?_
      simp only [Text.length_bytes, Text.length_octets, Text.toBytes_octets, hstop]
      exact .text names' _ rest

theorem takeWhile_and_dropWhile_bytes (cs : List Char) :
    (Text.bytes cs).takeWhile (Char.ofUInt8 · != '<') = Text.bytes (cs.takeWhile (· != '<')) ∧
      (Text.bytes cs).dropWhile (Char.ofUInt8 · != '<') = Text.bytes (cs.dropWhile (· != '<')) := by
  have hp : ∀ d, ¬ Text.IsAscii d → (d != '<') = true := by
    intro d hd
    rw [bne_iff_ne]
    exact ne_of_not_isAscii hd (by decide)
  obtain ⟨htake, hdrop⟩ := Text.takeWhile_and_dropWhile_octets hp cs
  rw [Text.octets, Text.ofBytes, List.takeWhile_map] at htake
  rw [Text.octets, Text.ofBytes, List.dropWhile_map] at hdrop
  have htake := congrArg Text.toBytes htake
  have hdrop := congrArg Text.toBytes hdrop
  rw [Text.toBytes_octets] at htake hdrop
  exact ⟨(Text.toBytes_ofBytes _).symm.trans htake, (Text.toBytes_ofBytes _).symm.trans hdrop⟩

/-- A run of text is read as one, whatever comes behind it. -/
theorem gives_run {d : Char} {ds : List Char} (hlt : d ≠ '<')
    (behind : At names (offset + Text.size (d :: ds.takeWhile (· != '<'))) (ds.dropWhile (· != '<'))
      c) : Gives names offset (d :: ds)
        (.ok (some (.text (Text.bytes (d :: ds.takeWhile (· != '<')))), c)) := by
  have hnext : Item.next d ds =
      .ok (.run (d :: ds.takeWhile (· != '<')), ds.dropWhile (· != '<')) := if_neg hlt
  have hread := Gives.read hnext rfl behind
  rwa [Event.raw, String.toList_ofList] at hread

theorem gives_readText (names : List String) (offset : Nat) (cs : List Char) (phase : Phase) :
    Gives names offset cs (readText ⟨phase, offset, names.map nameBytes, Text.bytes cs⟩) := by
  obtain ⟨htake, hdrop⟩ := takeWhile_and_dropWhile_bytes cs
  simp only [readText, htake, hdrop]
  cases cs with
  | nil => exact .ended rfl
  | cons d ds =>
    by_cases hlt : d = '<'
    · subst hlt
      exact gives_readMarkup names offset ds _
    · have hrun (c : Cursor) := @gives_run names offset c d ds hlt
      have hd : (d != '<') = true := bne_iff_ne.2 hlt
      have htakes : (d :: ds).takeWhile (· != '<') = d :: ds.takeWhile (· != '<') :=
        List.takeWhile_cons_of_pos hd
      have hdrops : (d :: ds).dropWhile (· != '<') = ds.dropWhile (· != '<') :=
        List.dropWhile_cons_of_pos hd
      have hne : Text.bytes (d :: ds.takeWhile (· != '<')) ≠ [] :=
        Text.bytes_ne_nil (List.cons_ne_nil _ _)
      rw [htakes, hdrops]
      cases hrest : ds.dropWhile (· != '<') with
      | nil =>
        rw [hrest] at hrun
        simp only [Text.bytes_nil, if_neg hne, Text.length_bytes]
        exact hrun _ (.ended names _)
      | cons e rest =>
        obtain rfl : e = '<' := eq_of_head?_dropWhile (by rw [hrest]; rfl)
        have hbytes : Text.bytes ('<' :: rest) = 60 :: Text.bytes rest := rfl
        rw [hrest] at hrun
        simp only [hbytes, if_neg hne, Text.length_bytes]
        exact hrun _ (.markup names _ rest)

theorem skipMark_bytes (cs : List Char) :
    skipMark (Text.bytes cs) = Text.bytes (withoutMark cs) := by
  unfold skipMark
  by_cases h : cs.head? = some '\uFEFF'
  · obtain ⟨rest, rfl⟩ := List.head?_eq_some_iff.1 h
    have hbytes : Text.bytes ('\uFEFF' :: rest) = mark ++ Text.bytes rest := rfl
    rw [hbytes, if_pos (List.isPrefixOf_iff_prefix.2 (List.prefix_append _ _)), List.drop_left]
    rfl
  · have hnot : ¬ mark.isPrefixOf (Text.bytes cs) = true := by
      rw [List.isPrefixOf_iff_prefix]
      rintro ⟨rest, hrest⟩
      have hdecode := Text.decodeFrom_bytes cs
      have hmark : mark = String.utf8EncodeChar '\uFEFF' := rfl
      rw [← hrest, hmark, Text.decodeFrom_encode] at hdecode
      rw [← hdecode] at h
      exact h rfl
    rw [if_neg hnot, withoutMark_of_head?_ne h]

theorem At.gives_next (h : At names offset cs c) : Gives names offset cs c.next := by
  cases h with
  | fresh cs =>
    simp only [next, start, skipMark_bytes]
    exact gives_readText [] 0 _ _
  | text => exact gives_readText names offset cs _
  | markup names offset cs => exact gives_readMarkup names offset cs _
  | ended => exact .ended rfl

end

end Cursor

end XmlPipeline.Markup
