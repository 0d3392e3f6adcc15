import XmlPipeline.Markup.Item
import XmlPipeline.Text.Blank
import XmlPipeline.Toml.Document
set_option autoImplicit false

namespace XmlPipeline.Suite

structure Expectation where
  description : Option String := none
  output : Option String := none
  value : Option String := none
  /-- A part of the message that the run ends with. -/
  error : Option String := none
  parseError : Bool := false
  deriving DecidableEq, Repr

inductive FrontMatterFault where
  | noOpening
  | noClosing
  | badToml
  deriving DecidableEq, Repr

/-- What the reader of TOML says of bad TOML, behind a colon, is left out. -/
def FrontMatterFault.message : FrontMatterFault → String
  | .noOpening => "missing opening --- frontmatter delimiter"
  | .noClosing => "missing closing --- frontmatter delimiter"
  | .badToml => "TOML parse error"

namespace Expectation

def text? (t : Toml.Table) (key : String) : Option (Option String) :=
  match t.find? key with
  | none => some none
  | some (.text content) => some (some content)
  | some _ => none

def flag? (t : Toml.Table) (key : String) : Option Bool :=
  match t.find? key with
  | none => some false
  | some (.boolean value) => some value
  | some _ => none

def ofTable? (t : Toml.Table) : Option Expectation := do
  let description ← text? t "description"
  let output ← text? t "expect_output"
  let value ← text? t "expect_value"
  let error ← text? t "expect_error"
  let parseError ← flag? t "expect_parse_error"
  return { description, output, value, error, parseError }

def read? (toml : String) : Option Expectation := (Toml.readDocument toml).bind ofTable?

end Expectation

def afterLineEnd (cs : List Char) : List Char := (Toml.newline? cs).getD cs

/-- The TOML and the source of a test file. Byte order marks before the opening delimiter are
skipped. -/
def splitFrontMatter (content : String) :
    Except FrontMatterFault (List Char × List Char) :=
  let cs := content.toList.dropWhile (· = '\uFEFF')
  if "---".toList.isPrefixOf cs then
    match Markup.cutAt "\n---".toList (afterLineEnd (cs.drop 3)) with
    | some (toml, rest) => .ok (Text.dropEndWhile (· = '\r') toml, afterLineEnd rest)
    | none => .error .noClosing
  else .error .noOpening

def readTestFile (content : String) : Except FrontMatterFault (Expectation × String) :=
  (splitFrontMatter content).bind fun (toml, source) =>
    match Expectation.read? (String.ofList toml) with
    | some expectation => .ok (expectation, String.ofList source)
    | none => .error .badToml

end XmlPipeline.Suite
