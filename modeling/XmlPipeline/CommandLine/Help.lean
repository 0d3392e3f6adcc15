import XmlPipeline.CommandLine.Options
import XmlPipeline.Text.Lines
set_option autoImplicit false

namespace XmlPipeline.CommandLine

def versionText : String := "xpl 0.1.0\n"

inductive Piece where
  | heading (text : String)
  | word (text : String)
  | plain (text : String)
  deriving DecidableEq, Repr

namespace Piece

def text : Piece → String
  | .heading text | .word text | .plain text => text

def render (styled : Bool) : Piece → String
  | .heading text => if styled then "\x1b[1m\x1b[4m" ++ text ++ "\x1b[0m" else text
  | .word text => if styled then "\x1b[1m" ++ text ++ "\x1b[0m" else text
  | .plain text => text

end Piece

structure HelpRow where
  term : List Piece
  purpose : String
  deriving Repr

namespace HelpRow

def command (name purpose : String) : HelpRow := ⟨[.word name], purpose⟩

def argument (name purpose : String) : HelpRow := ⟨[.plain name], purpose⟩

def option (short : Option Char) (long value purpose : String) : HelpRow :=
  let lead :=
    match short with
    | some c => [.word ("-" ++ String.singleton c), .plain ", "]
    | none => [.plain "    "]
  ⟨lead ++ [.word ("--" ++ long)] ++ (if value = "" then [] else [.plain (" " ++ value)]), purpose⟩

def width (row : HelpRow) : Nat := (String.join (row.term.map (·.text))).length

def line (row : HelpRow) (widest : Nat) : List Piece :=
  .plain "  " :: row.term ++ [.plain ("".pushn ' ' (widest - row.width + 2) ++ row.purpose)]

end HelpRow

structure HelpPage where
  purpose : String
  command : String
  operands : String
  sections : List (String × List HelpRow)

namespace HelpPage

def sectionLines (heading : String) (rows : List HelpRow) : List (List Piece) :=
  let widest := (rows.map (·.width)).foldl max 0
  [] :: [.heading heading] :: rows.map (·.line widest)

def lines (page : HelpPage) : List (List Piece) :=
  [.plain page.purpose] :: [] ::
    [.heading "Usage:", .plain " ", .word page.command, .plain (" " ++ page.operands)] ::
    page.sections.flatMap fun (heading, rows) => sectionLines heading rows

def render (styled : Bool) (page : HelpPage) : String :=
  Text.unlines (page.lines.map fun pieces => String.join (pieces.map (·.render styled)))

end HelpPage

def helpHelp : HelpRow := .option (some 'h') "help" "" "Print help"

def noColorHelp : HelpRow := .option none "no-color" "" "Disable colored error output"

def helpPage : Topic → HelpPage
  | .program => ⟨"XML pipeline language interpreter", "xpl", "[OPTIONS] <COMMAND>",
    [("Commands:", [
      .command "run" "Run an xpl program",
      .command "test" "Run .test.xml test files",
      .command "help" "Print this message or the help of the given subcommand(s)"]),
    ("Options:", [
      noColorHelp, helpHelp, .option (some 'V') "version" "" "Print version"])]⟩
  | .run => ⟨"Run an xpl program", "xpl run", "[OPTIONS] <FILE>",
    [("Arguments:", [.argument "<FILE>" "XML source file to execute"]),
    ("Options:", [
      .option none "check" "" "Parse only, don't execute (exit 0 if valid)",
      noColorHelp,
      .option none "ast" "" "Dump parsed instruction tree",
      .option none "tree" "" "Print an outline of the instruction tree",
      .option (some 'q') "quiet" "" "Suppress <print> output (just check for errors)",
      .option none "base-dir" "<BASE_DIR>"
        "Directory that relative <file> paths are resolved against [default: .]",
      helpHelp])]⟩
  | .test => ⟨"Run .test.xml test files", "xpl test", "[OPTIONS] <PATH>",
    [("Arguments:", [
      .argument "<PATH>" "Path to a .test.xml file or directory containing them"]),
    ("Options:", [
      .option (some 'c') "category" "<CATEGORY>"
        "Run only tests in these categories (subfolder names). Repeatable",
      noColorHelp,
      .option none "list-categories" "" "List available categories and exit",
      helpHelp])]⟩
  | .help => ⟨"Print this message or the help of the given subcommand(s)", "xpl help",
    "[COMMAND]...",
    [("Arguments:", [.argument "[COMMAND]..." "Print help for the subcommand(s)"])]⟩

def helpText (styled : Bool) (topic : Topic) : String := (helpPage topic).render styled

end XmlPipeline.CommandLine
