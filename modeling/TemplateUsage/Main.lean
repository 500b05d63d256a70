import TemplateUsage.CommandLine.Run

set_option autoImplicit false

/-!
# The command

Reads the arguments, the files they name and the surroundings, runs the command
and prints what it leaves.
-/

namespace TemplateUsage.CommandLine

/-- What the system says, in numbers and words. -/
def systemError : IO.Error → SystemError
  | .alreadyExists file code text | .invalidArgument file code text
  | .permissionDenied file code text | .resourceExhausted file code text
  | .inappropriateType file code text | .noSuchThing file code text =>
      ⟨code.toNat, text, file.isSome⟩
  | .interrupted _ code text | .noFileOrDirectory _ code text => ⟨code.toNat, text, true⟩
  | .otherError code text | .resourceBusy code text | .resourceVanished code text
  | .unsupportedOperation code text | .hardwareFault code text
  | .unsatisfiedConstraints code text | .illegalOperation code text
  | .protocolError code text | .timeExpired code text => ⟨code.toNat, text, false⟩
  | error => ⟨0, error.toString, false⟩

/-- What there is to read at a place on disk. -/
def readContent (place : String) : IO Content := do
  try return .bytes (← IO.FS.readBinFile place).toList
  catch error => return .unreadable (systemError error)

/-- All files that a walk below a folder finds, with the names that lead to them from
there. It goes into no folder that is a link, and passes over one that cannot be listed. -/
partial def filesBelow (names : List String) (here : String) : IO (List StoredFile) := do
  let folder := (← IO.currentDir) / here
  let mut files : List StoredFile := []
  let entries ← try folder.readDir catch _ => pure #[]
  for entry in entries do
    let way := names ++ [entry.fileName]
    if ← entry.path.isDir then
      if (← entry.path.symlinkMetadata).type != .symlink then
        files := files ++ (← filesBelow way entry.path.toString)
    else if ← entry.path.pathExists then
      if (← entry.path.metadata).type == .file then
        files := files ++ [⟨way, ← readContent entry.path.toString⟩]
  return files

/-- What stands at a path on disk. -/
def lookUp (path : Path) : IO Found := do
  let place := (← IO.currentDir) / path.text
  if ← place.isDir then return .folder (← filesBelow [] path.text)
  else if ← place.pathExists then
    if (← place.metadata).type == .file then return .file (← readContent place.toString)
    else return .nothing
  else return .nothing

/-- The paths that arguments name. -/
def namedPaths (arguments : List String) : List Path :=
  match Request.ofArguments arguments with
  | .ok (.list _ paths) => paths.map Path.ofText
  | _ => []

end TemplateUsage.CommandLine

open TemplateUsage TemplateUsage.CommandLine in
/-- The command. -/
def main (arguments : List String) : IO UInt32 := do
  let found ← (namedPaths arguments).mapM fun path => return (path, ← lookUp path)
  let surroundings : Surroundings :=
    ⟨← IO.getEnv "NO_COLOR", ← IO.getEnv "TEMPLATE_TOKENS_COLOR", ← (← IO.getStderr).isTty⟩
  match run arguments (fun path => (found.lookup path).getD .nothing) surroundings with
  | .ok outcome =>
      IO.print outcome.output
      IO.eprint outcome.messages
      return outcome.status.toUInt32
  | .error error =>
      IO.eprintln error.stopMessage
      return 1
