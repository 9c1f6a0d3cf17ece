import Mathlib
import Sintius.Lib.NumberText
import Sintius.Lib.Regex
import Sintius.Lib.Utf16
import Sintius.Spec.Redaction

/-! The Definition of Done as a control of the pipeline: a story that the roadmap marks as
implemented must have tests that exist, that are marked as passing, and that passed in the
reports of this run. -/

namespace Sintius.DefinitionOfDone

open Js Regex Redaction

section Inventory

/-- `[A-Z0-9-]` -/
def isIdUnit (c : CodeUnit) : Bool :=
  (0x41 ≤ c.val && c.val ≤ 0x5a) || isDigit c || c == 0x2d

/-- `[ ,/]` -/
def isIdSeparator (c : CodeUnit) : Bool := c == 0x20 || c == 0x2c || c == 0x2f

/-- `/^TC-[A-Z0-9-]+$/` -/
def TEST_ID : Text → Bool
  | 0x54 :: 0x43 :: 0x2d :: id => !id.isEmpty && id.all isIdUnit
  | _ => false

/-- `TC-[A-Z0-9-]+[ ,/]*` -/
def idPattern : Regex CodeUnit Unit := do
  word "TC-"
  many1 (unit isIdUnit)
  many (unit isIdSeparator)

/-- `/^\s*(not ok|ok) \d+ - ((?:TC-[A-Z0-9-]+[ ,/]*)+)/`, from the start of a line. -/
def linePattern : Regex CodeUnit (Text × Text) := do
  many (unit isSpace)
  let status ← capture (oneOf [word "not ok", word "ok"])
  word " "
  many1 (unit isDigit)
  word " - "
  let ids ← capture (many1 idPattern)
  return (status, ids)

/-- What a line says of tests: whether it is `ok`, and for which test. -/
def lineResults (line : Text) : List (Bool × Text) :=
  match first linePattern ⟨none, line⟩ with
  | none => []
  | some ((status, ids), _) =>
    ((splitRuns isIdSeparator false ids).filter TEST_ID).map (status == ascii "ok", ·)

structure TapResults where
  passed : List Text
  failed : List Text

/-- A file of the report directory. -/
structure ReportFile where
  name : Text
  contents : Text

def tapResults (files : List ReportFile) : TapResults :=
  let results := (files.filter fun file => (ascii ".tap").isSuffixOf file.name).flatMap fun file =>
    (file.contents.splitOn 0x0a).flatMap lineResults
  { passed := (results.filter (·.1)).map (·.2)
    failed := (results.filter (!·.1)).map (·.2) }

end Inventory

section Roadmap

structure RoadmapTest where
  id : Text
  status : Text
  type : Text

structure RoadmapStory where
  id : Text
  implementation : Option Text
  tests : List RoadmapTest
  reconciliationRationale : Option Text

structure RoadmapEpic where
  id : Text
  stories : List RoadmapStory

structure Roadmap where
  epics : List RoadmapEpic

def FINANCIALLY_MATERIAL_EPICS : List Text :=
  [ascii "SUB-E005", ascii "SUB-E007", ascii "SUB-E008", ascii "SUB-E009", ascii "SUB-E012",
    ascii "SUB-E014", ascii "SUB-E017"]

structure StoryDefinitionOfDoneOptions where
  automated : Option (List Text)
  reports : Option TapResults
  financiallyMaterialEpics : Option (List Text)

/-- `text.trim()` -/
def trim (text : Text) : Text :=
  ((text.dropWhile isSpace).reverse.dropWhile isSpace).reverse

/-- `if (condition) failures.push(failure)` -/
def pushIf (condition : Bool) (failure : Text) : List Text := if condition then [failure] else []

def testFailures (automated : List Text) (reports : Option TapResults) (where_ : Text)
    (test : RoadmapTest) : List Text :=
  pushIf (test.status != ascii "passing")
      (where_ ++ ascii ": test " ++ test.id ++ ascii " is " ++ test.status ++
        ascii ", not passing") ++
    pushIf (!automated.contains test.id)
      (where_ ++ ascii ": test " ++ test.id ++ ascii " has no automated test titled with its ID") ++
    pushIf (reports.any fun reports =>
        !reports.passed.contains test.id || reports.failed.contains test.id)
      (where_ ++ ascii ": test " ++ test.id ++ ascii " did not pass in the supplied test reports")

def hasReconciliationTest (story : RoadmapStory) : Bool :=
  story.tests.any fun test => test.type == ascii "reconciliation" && test.status == ascii "passing"

/-- A rationale that is no text counts as an empty one. -/
def rationale (story : RoadmapStory) : Text := trim (story.reconciliationRationale.getD [])

def storyFailures (automated : List Text) (reports : Option TapResults)
    (financialEpics : List Text) (epic : RoadmapEpic) (story : RoadmapStory) : List Text :=
  if story.implementation ≠ some (ascii "implemented") then []
  else
    pushIf story.tests.isEmpty (story.id ++ ascii ": marked implemented with no tests") ++
      story.tests.flatMap (testFailures automated reports story.id) ++
      pushIf (financialEpics.contains epic.id && !hasReconciliationTest story &&
          (rationale story).length < 20)
        (story.id ++ ascii (": a financially material story requires a passing reconciliation " ++
          "test, or a reviewed reconciliationRationale explaining why none applies"))

/-- The failures; an option that is left out has its default. -/
def checkStoryDefinitionOfDone (roadmap : Roadmap) (options : StoryDefinitionOfDoneOptions) :
    List Text :=
  let automated := options.automated.getD []
  let financialEpics := options.financiallyMaterialEpics.getD FINANCIALLY_MATERIAL_EPICS
  roadmap.epics.flatMap fun epic =>
    epic.stories.flatMap (storyFailures automated options.reports financialEpics epic)

end Roadmap

section Output

/-- How Node's reporter says that a test point did not run, or may fail. -/
inductive Directive where
  | skip (reason : Text)
  | todo (reason : Text)

structure TestPoint where
  nesting : ℕ
  ok : Bool
  number : ℕ+
  title : Text
  directive : Option Directive

/-- Control characters, `\` and `#` are escaped. -/
def escapeUnit (c : CodeUnit) : Text :=
  if c = 0x5c ∨ c = 0x23 then [0x5c, c]
  else if c = 0x08 then ascii "\\b"
  else if c = 0x09 then ascii "\\t"
  else if c = 0x0a then ascii "\\n"
  else if c = 0x0b then ascii "\\v"
  else if c = 0x0c then ascii "\\f"
  else if c = 0x0d then ascii "\\r"
  else [c]

def tapEscape (text : Text) : Text := text.flatMap escapeUnit

/-- A reason follows the directive, if there is one. -/
def reasonText (reason : Text) : Text := if reason = [] then [] else 0x20 :: tapEscape reason

def directiveText : Option Directive → Text
  | none => []
  | some (.skip reason) => ascii " # SKIP" ++ reasonText reason
  | some (.todo reason) => ascii " # TODO" ++ reasonText reason

/-- The line of a test point. -/
def TestPoint.line (point : TestPoint) : Text :=
  List.replicate (4 * point.nesting) 0x20 ++ (if point.ok then ascii "ok" else ascii "not ok") ++
    [0x20] ++ decimalDigits point.number ++ ascii " - " ++ tapEscape point.title ++
    directiveText point.directive

/-- A line of a report: a test point, or anything else: the version, a plan, a comment, a line
of diagnostics. -/
inductive ReportLine where
  | point (point : TestPoint)
  | other (line : Text) (h : 0x0a ∉ line)

def ReportLine.text : ReportLine → Text
  | .point p => p.line
  | .other line _ => line

/-- A report that a run has written. -/
structure Report where
  name : Text
  first : ReportLine
  rest : List ReportLine

def Report.lines (report : Report) : List ReportLine := report.first :: report.rest

def Report.file (report : Report) : ReportFile where
  name := report.name
  contents := List.intercalate [0x0a] (report.lines.map ReportLine.text)

/-- The identifiers that a title begins with: its words up to the first that is none. -/
def titleIds (title : Text) : List Text :=
  (splitRuns isIdSeparator false
    (title.takeWhile fun c => isIdUnit c || isIdSeparator c)).takeWhile TEST_ID

end Output

end Sintius.DefinitionOfDone
