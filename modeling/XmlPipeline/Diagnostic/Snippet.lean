import XmlPipeline.Diagnostic.Ink
import XmlPipeline.Markup.Span
import XmlPipeline.Text.Blank
import XmlPipeline.Text.Lines
import XmlPipeline.Text.Utf8
import XmlPipeline.Text.Width
set_option autoImplicit false

namespace XmlPipeline.Diagnostic
open Markup (Span)

structure Report where
  message : String
  path : String
  source : String
  span : Span
  notes : List String

structure SourceLine where
  number : Nat
  start : Nat
  text : List Char
  deriving Repr

def sourceLinesFrom (number start : Nat) : List (List Char) → List SourceLine
  | [] => [⟨number, start, []⟩]
  | [line] =>
    if line.getLast? = some '\n' then
      [⟨number, start, line⟩, ⟨number + 1, start + Text.size line, []⟩]
    else [⟨number, start, line⟩]
  | line :: next :: rest =>
    ⟨number, start, line⟩ :: sourceLinesFrom (number + 1) (start + Text.size line) (next :: rest)

def sourceLines (source : String) : List SourceLine :=
  sourceLinesFrom 1 0 (Text.splitLines source.toList)

def lineAt (lines : List SourceLine) (offset : Nat) : SourceLine :=
  (lines.filter (·.start ≤ offset)).getLastD ⟨1, 0, []⟩

def charactersWithin (offset : Nat) : List Char → Nat
  | [] => 0
  | c :: cs => if c.utf8Size ≤ offset then charactersWithin (offset - c.utf8Size) cs + 1 else 0

structure Cell where
  char : Char
  offset : Nat
  width : Nat
  deriving Repr

def tabWidth : Nat := 4

def cellsFrom (offset column : Nat) : List Char → List Cell
  | [] => []
  | c :: cs =>
    let width := if c = '\t' then tabWidth - column % tabWidth else Text.columns c
    ⟨c, offset, width⟩ :: cellsFrom (offset + c.utf8Size) (column + width) cs

def cells (cs : List Char) : List Cell := cellsFrom 0 0 cs

def columnsOf : List Cell → Nat
  | [] => 0
  | c :: cs => c.width + columnsOf cs

def Cell.stop (c : Cell) : Nat := c.offset + c.char.utf8Size

def Cell.show (c : Cell) : String := if c.char = '\t' then "".pushn ' ' c.width else c.char.toString

def shownText (line : List Char) : List Char :=
  Text.dropEndWhile (fun c => c = '\n' || c = '\r' || c = '\x00') line

/-- What part of a line is marked, in bytes from the start of the line. -/
inductive Mark where
  | only (start stop : Nat)
  /-- The marked part begins here, and goes on on other lines. -/
  | top (start : Nat)
  | middle
  | bottom (stop : Nat)
  deriving DecidableEq, Repr

def Mark.covers : Mark → Cell → Bool
  | .only start stop, c => max start c.offset < min stop c.stop
  | .top start, c => start ≤ c.offset
  | .middle, _ => true
  | .bottom stop, c => c.stop ≤ stop

def opensLine (start : Nat) (shown : List Char) : Bool :=
  start ≤ Text.size (shown.takeWhile Text.isBlank)

def Mark.gutter (shown : List Char) : Mark → List Ink
  | .only .. => []
  | .top start =>
    if opensLine start shown then [.plain " ", .styled .label "╭"] else [.plain "  "]
  | .middle | .bottom _ => [.plain " ", .styled .label "│"]

def spaces (n : Nat) : String := "".pushn ' ' n

def margin (pad : Nat) (border : String) : List Ink :=
  [.plain (spaces (pad + 1)), .styled .frame border]

def numberMargin (pad number : Nat) : List Ink :=
  let digits := toString number
  [.styled .frame (spaces (pad - digits.length) ++ digits), .plain " ", .styled .frame "│"]

def sourceInk (pad : Nat) (line : SourceLine) (mark : Mark) : List Ink :=
  let shown := shownText line.text
  numberMargin pad line.number ++ mark.gutter shown ++ [.plain " "] ++
    Ink.gather ((cells shown).map fun c => (mark.covers c, c.show))

def caretInk (shown : List Char) (start stop : Nat) : List Ink :=
  let columns := cells shown ++ [⟨'\x00', Text.size shown, 1⟩]
  Ink.gather (columns.filterMap fun c =>
    if Mark.covers (.only start stop) c then some (true, "".pushn '^' c.width)
    else if c.offset < stop then some (false, spaces c.width)
    else none)

def ruleInk (corner : String) (shown : List Char) (limit : Nat) : List Ink :=
  let under := (cells shown).takeWhile (·.offset < limit)
  [.plain " ", .styled .label corner,
    .styled .label ("".pushn '─' (columnsOf under) ++ "^")]

def underInk (pad : Nat) (shown : List Char) : Mark → List (List Ink)
  | .only start stop => [margin pad "│" ++ [.plain " "] ++ caretInk shown start stop]
  | .top start =>
    if opensLine start shown then [] else [margin pad "│" ++ ruleInk "╭" shown (start + 1)]
  | .middle => []
  | .bottom stop => [margin pad "│" ++ ruleInk "╰" shown stop]

def lineInk (pad : Nat) (line : SourceLine) (mark : Mark) : List (List Ink) :=
  sourceInk pad line mark :: underInk pad (shownText line.text) mark

def contextAfter : Nat := 3
def contextBefore : Nat := 1

/-- The lines between the first and the last marked one. Where more than one line in a row is not
shown, a break stands for them. -/
def middleInk (pad : Nat) (between : List SourceLine) : List (List Ink) :=
  let draw (ls : List SourceLine) := ls.flatMap fun l => lineInk pad l .middle
  if between.length ≤ contextAfter + contextBefore + 1 then draw between
  else
    draw (between.take contextAfter) ++
      [margin pad "·" ++ [.plain " ", .styled .label "│"]] ++
      draw (between.drop (between.length - contextBefore))

namespace Report

def ink (r : Report) : List (List Ink) :=
  let lines := sourceLines r.source
  let first := lineAt lines r.span.start
  let last := lineAt lines r.span.stop
  let pad := (toString last.number).length
  let start := r.span.start - first.start
  let column := charactersWithin start first.text + 1
  let single := first.number = last.number
  let empty := margin pad "│" ++ if single then [] else [.plain "  "]
  [[.styled .severity "error", .styled .message (": " ++ r.message)],
    margin pad "┌─" ++
      [.plain (" " ++ r.path ++ ":" ++ toString first.number ++ ":" ++ toString column)],
    empty] ++
    (if single then
      lineInk pad first (.only start (max (r.span.stop - first.start) (start + 1)))
    else
      lineInk pad first (.top start) ++
        middleInk pad (lines.filter fun l => first.number < l.number && l.number < last.number) ++
        lineInk pad last (.bottom (r.span.stop - last.start))) ++
    (if r.notes = [] then [] else [empty]) ++
    r.notes.map fun note =>
      [.plain (spaces (pad + 1)), .styled .frame "=", .plain (" " ++ note)]

def render (colored : Bool) (r : Report) : String :=
  Text.unlines ((r.ink.map fun inks => String.join (inks.map (Ink.render colored))) ++ [""])

end Report

end XmlPipeline.Diagnostic
