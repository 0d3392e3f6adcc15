import XmlPipeline.Suite.Selection
set_option autoImplicit false

namespace XmlPipeline.Suite
open Files (Storage)

inductive Notice where
  | text (content : String)
  | record (record : Log.Record)
  deriving DecidableEq, Repr

def Notice.line (content : String) : Notice := .text (content ++ "\n")

structure Paint where
  colored : Bool

namespace Paint

def around (p : Paint) (code text : String) : String :=
  if p.colored then "\x1b[" ++ code ++ "m" ++ text ++ "\x1b[0m" else text

def green (p : Paint) (text : String) : String := p.around "32" text

def red (p : Paint) (text : String) : String := p.around "31" text

def bold (p : Paint) (text : String) : String := p.around "1" text

end Paint

def Outcome.isPass : Outcome → Bool
  | .pass => true
  | .fail _ => false

def TestResult.entry (paint : Paint) (r : TestResult) : String :=
  "  " ++ (if r.outcome.isPass then paint.green "PASS" else paint.red "FAIL") ++ "  " ++ r.label

def runFiles (storage : Storage) (paths : List String) : List (TestResult × List Log.Record) :=
  paths.map (runTest storage)

def entryNotices (paint : Paint) (tested : TestResult × List Log.Record) : List Notice :=
  tested.2.map .record ++ [.line (tested.1.entry paint)]

def failureNotices (r : TestResult) : List Notice :=
  match r.outcome with
  | .pass => []
  | .fail reason =>
    [.line "", .line ("  --- " ++ r.path ++ " ---")] ++
      (Text.lines reason).map fun line => .line ("  " ++ line)

def summary (paint : Paint) (results : List TestResult) : String :=
  let passed := (results.filter (·.outcome.isPass)).length
  let failed := (results.filter (!·.outcome.isPass)).length
  if failed = 0 then
    "test result: " ++ paint.green "ok" ++ ". " ++ toString passed ++ " passed, 0 failed"
  else
    "test result: " ++ paint.red "FAILED" ++ ". " ++ toString passed ++ " passed, " ++
      toString failed ++ " failed (of " ++ toString (passed + failed) ++ ")"

def closingNotices (paint : Paint) (results : List TestResult) : List Notice :=
  (if results.all (·.outcome.isPass) then []
    else [.line "", .line "failures:"] ++ results.flatMap failureNotices) ++
    [.line "", .line (summary paint results)]

structure Report where
  notices : List Notice
  results : List TestResult
  success : Bool

def Report.ofTests (opening : List Notice) (paint : Paint)
    (groups : List (List Notice × List (TestResult × List Log.Record))) : Report :=
  let results := groups.flatMap fun g => g.2.map (·.1)
  { notices := opening ++ (groups.flatMap fun g => g.1 ++ g.2.flatMap (entryNotices paint)) ++
      closingNotices paint results
    results
    success := results.all (·.outcome.isPass) }

def noTests (path : String) : Notice :=
  .line ("no " ++ testEnding ++ " files found in " ++ path)

/-- Runs the tests in a file or under a folder. For a file no category counts. -/
def runTests (storage : Storage) (path : String) (paint : Paint) (requests : List String) :
    Report :=
  if storage.isFile path then .ofTests [] paint [([], runFiles storage [path])]
  else
    let all := discover storage path
    let warnings := (selectionJournal all requests).map Notice.record
    let selected := select all requests
    if all = [] then ⟨[noTests path], [], false⟩
    else if selected = [] then ⟨warnings ++ [.line "no matching categories found"], [], false⟩
    else
      .ofTests warnings paint (selected.map fun c =>
        ([.line "", .line (paint.bold c.label)], runFiles storage c.paths))

def listCategories (storage : Storage) (path : String) : List Notice :=
  if storage.isFile path then [.line "(single file, no categories)"]
  else
    match discover storage path with
    | [] => [noTests path]
    | all =>
      .line "available categories:" :: all.map fun c =>
        .line ("  " ++ c.label ++ " (" ++ toString c.paths.length ++ " tests)")

end XmlPipeline.Suite
