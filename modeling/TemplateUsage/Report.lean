import TemplateUsage.Rejection
import TemplateUsage.Text.Case

set_option autoImplicit false

/-!
# Reports

A report gathers the problems of several templates and shows them together,
with a summary. Colour is used when it is asked for, or when the terminal and
the environment allow it.
-/

namespace TemplateUsage

/-- A problem on its way into a report. -/
inductive Failure where
  /-- A failure that is not the template's, with a location if it is known. -/
  | internal (message : String) (location : Option Location)
  /-- A problem of a template, with the text it may quote. -/
  | template (diagnostic : Diagnostic) (source : Option String)
  deriving DecidableEq, Repr, Inhabited

namespace Failure

/-- The problem to report. -/
def diagnostic : Failure → Diagnostic
  | .internal message location => ⟨message, location, none, none⟩
  | .template diagnostic _ => diagnostic

/-- The file and the text that a failure brings with it. -/
def source? : Failure → Option (String × String)
  | .internal _ _ => none
  | .template diagnostic source =>
      match diagnostic.location, source with
      | some location, some text => some (location.file, text)
      | _, _ => none

/-- A failure as shown on its own, without colour. -/
def render (failure : Failure) : String :=
  match failure with
  | .internal message none => message
  | .internal message (some location) => message ++ "\n --> " ++ location.text
  | .template diagnostic _ =>
      diagnostic.render false
        (match failure.source? with
        | some (file, text) => Sources.empty.insert file text
        | none => Sources.empty)

/-- The failure of a rejected template. -/
def ofSyntaxError (error : SyntaxError) : Failure := .template error.diagnostic error.source

end Failure

/-- Problems of several templates, in the order reported, with the texts they may quote. -/
structure Report where
  sources : Sources
  diagnostics : List Diagnostic
  deriving DecidableEq, Repr, Inhabited

namespace Report

/-- The report without problems. -/
def empty : Report := ⟨Sources.empty, []⟩

/-- Sets the text of a file. -/
def addSource (report : Report) (file text : String) : Report :=
  { report with sources := report.sources.insert file text }

/-- Adds a problem. -/
def add (report : Report) (diagnostic : Diagnostic) : Report :=
  { report with diagnostics := report.diagnostics ++ [diagnostic] }

/-- Adds a failure, and its text if the file has none. -/
def addFailure (report : Report) (failure : Failure) : Report :=
  let sources :=
    match failure.source? with
    | some (file, text) => report.sources.insertNew file text
    | none => report.sources
  add ⟨sources, report.diagnostics⟩ failure.diagnostic

/-- Whether there is a problem. -/
def hasProblems (report : Report) : Bool := !report.diagnostics.isEmpty

/-- The number of problems, in words. -/
def summary (count : Nat) : List Segment :=
  [⟨.alarm, "error"⟩,
    ⟨.strong, ": " ++ toString count ++ " template" ++ (if count = 1 then "" else "s") ++
      " could not be parsed"⟩]

/-- All problems and the summary, with blank lines between them; empty without problems. -/
def render (report : Report) (colour : Bool) : String :=
  let count := report.diagnostics.length
  let problems := report.diagnostics.map fun diagnostic => diagnostic.render colour report.sources
  let last := if count = 0 then [] else [renderLines colour [summary count]]
  String.intercalate "\n\n" (problems ++ last)

end Report

/-- What decides on colour when it is not asked for. -/
structure Surroundings where
  /-- The variable that forbids colour. -/
  noColour : Option String
  /-- The variable that asks for colour or forbids it. -/
  colour : Option String
  /-- Whether messages go to a terminal. -/
  terminal : Bool
  deriving DecidableEq, Repr, Inhabited

/-- Whether messages are coloured. -/
def Surroundings.wantsColour (surroundings : Surroundings) : Bool :=
  let setting := String.ofList (Text.lower (surroundings.colour.getD "").toList)
  if surroundings.noColour.getD "" != "" then false
  else if ["0", "false", "no", "never"].contains setting then false
  else if ["1", "true", "yes", "always"].contains setting then true
  else surroundings.terminal

end TemplateUsage
