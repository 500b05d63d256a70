import TemplateUsage.CommandLine.Arguments
import TemplateUsage.CommandLine.Files
import TemplateUsage.CommandLine.JsonText
import TemplateUsage.CommandLine.Log
import TemplateUsage.Report
import TemplateUsage.Text.Utf8

set_option autoImplicit false

/-!
# Running the command

From arguments and files to what is printed and the exit status. The templates
are worked on in order; one that is rejected is reported at the end and does not
stop the others. A number that cannot be read stops the run.
-/

namespace TemplateUsage.CommandLine

/-- What a run leaves. -/
structure Outcome where
  status : Nat
  output : String
  messages : String
  deriving DecidableEq, Repr, Inhabited

/-- Usages of the templates listed so far, in the order first listed. -/
structure Listing where
  entries : List (String × List Usage)
  deriving DecidableEq, Repr, Inhabited

namespace Listing

/-- Sets the usages of a file; a file listed before keeps its place. -/
def set (listing : Listing) (file : String) (usages : List Usage) : Listing :=
  if listing.entries.any fun entry => entry.1 == file then
    ⟨listing.entries.map fun entry => if entry.1 == file then (file, usages) else entry⟩
  else ⟨listing.entries ++ [(file, usages)]⟩

end Listing

/-- The token of a usage, as a tag name if that is asked for. -/
def shownToken (options : Options) (usage : Usage) : String :=
  if options.angleBracket && usage.kind == .component then Name.toTag usage.token
  else usage.token

/-- A usage on a line of its own. -/
def usageLine (options : Options) (usage : Usage) : String :=
  let token := shownToken options usage
  match options.locations, usage.location with
  | true, some location =>
      "  " ++ token ++ "\t" ++ toString location.line ++ ":" ++
        toString location.column
  | _, _ => "  " ++ token

/-- The listing as lines. -/
def Listing.lines (options : Options) (listing : Listing) : List String :=
  listing.entries.flatMap fun (file, usages) =>
    (file ++ ":") :: usages.map (usageLine options)

/-- A usage as a JSON value. -/
def usageJson (options : Options) (usage : Usage) : String :=
  let token := JsonText.string (shownToken options usage)
  if options.locations then
    let number (part : Location → Int) : String :=
      match usage.location with
      | some location => toString (part location)
      | none => "null"
    JsonText.object 2
      [("token", token), ("kind", JsonText.string usage.kind.word), ("line", number Location.line),
        ("column", number Location.column)]
  else token

/-- The listing as a JSON object. -/
def Listing.json (options : Options) (listing : Listing) : String :=
  JsonText.object 0 (listing.entries.map fun (file, usages) =>
    (file, JsonText.array 1 (usages.map (usageJson options))))

/-- The listing as printed. -/
def Listing.render (options : Options) (listing : Listing) : String :=
  if options.json then listing.json options else String.intercalate "\n" (listing.lines options)

/-- A run under way. -/
structure Progress where
  listing : Listing
  report : Report
  /-- Lines of messages. -/
  messages : List String
  /-- Whether a source could not be read. -/
  unreadable : Bool
  deriving DecidableEq, Repr, Inhabited

namespace Progress

/-- Nothing done. -/
def start : Progress := ⟨⟨[]⟩, Report.empty, [], false⟩

/-- Records a source that cannot be read. -/
def addUnreadable (progress : Progress) (message : String) : Progress :=
  { progress with
    messages := progress.messages ++ ["template-tokens: error: " ++ message],
    unreadable := true }

/-- Works on a text. -/
def addText (progress : Progress) (options : Options) (file source : String) :
    Except NumeralError Progress :=
  let records := if options.verbose then (logRecords file source).map LogRecord.text else []
  let logged := { progress with messages := progress.messages ++ records }
  match collectUsages file source with
  | .ok usages => .ok { logged with listing := logged.listing.set file usages }
  | .error (.rejected error) =>
      .ok { logged with report := logged.report.addFailure (Failure.ofSyntaxError error) }
  | .error (.numeral error) => .error error

/-- Works on a source. -/
def addSource (progress : Progress) (options : Options) (source : Source) :
    Except NumeralError Progress :=
  let file := source.path.text
  match source.content with
  | none => .ok (progress.addUnreadable ("not a file: " ++ file))
  | some (.unreadable error) =>
      .ok (progress.addUnreadable ("could not read " ++ file ++ ": " ++ error.message source.path))
  | some (.bytes bytes) =>
      match Text.ofFileBytes bytes with
      | .error error =>
          .ok (progress.addUnreadable ("could not read " ++ file ++ ": " ++ error.message))
      | .ok text => progress.addText options file text

/-- Whether something went wrong. -/
def failed (progress : Progress) : Bool := progress.unreadable || progress.report.hasProblems

/-- What the run leaves. -/
def outcome (progress : Progress) (options : Options) (colour : Bool) : Outcome :=
  let listed := progress.listing.render options
  let problems := if progress.report.hasProblems then [progress.report.render colour] else []
  { status := if progress.failed then 1 else 0
    output := if listed.isEmpty then "" else listed ++ "\n"
    messages := String.join ((progress.messages ++ problems).map (· ++ "\n")) }

end Progress

/-- Lists the usages of the templates that paths stand for. -/
def listUsages (options : Options) (paths : List String) (look : Path → Found) (colour : Bool) :
    Except NumeralError Outcome := do
  let sources := paths.flatMap fun text =>
    let path := Path.ofText text
    (look path).sources path
  let progress ← sources.foldlM (fun done source => Progress.addSource done options source)
    Progress.start
  return progress.outcome options colour

/-- Runs the command. -/
def run (arguments : List String) (look : Path → Found) (surroundings : Surroundings) :
    Except NumeralError Outcome :=
  match Request.ofArguments arguments with
  | .error misuse => .ok ⟨2, "", usage ++ "template-tokens: error: " ++ misuse.message ++ "\n"⟩
  | .ok .help => .ok ⟨0, helpText, ""⟩
  | .ok (.list options paths) => listUsages options paths look surroundings.wantsColour

end TemplateUsage.CommandLine
