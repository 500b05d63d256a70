import TemplateUsage.Text.Digit
import TemplateUsage.Text.Quoted
import TemplateUsage.Text.Split

set_option autoImplicit false

/-!
# Arguments

Flags and paths of a command line. Every argument is first sorted by its form;
then the arguments are taken in order. Flags may stand anywhere, a long one may
be cut short, short ones may be joined. The paths stand together: once a flag
follows them, a further path is not recognised. After `--` there are no flags.
-/

namespace TemplateUsage.CommandLine

/-- A flag. -/
inductive Flag where
  | help
  | json
  | locations
  | angleBracket
  | verbose
  deriving DecidableEq, Repr, Inhabited

/-- The flag as messages name it. -/
def Flag.title : Flag → String
  | .help => "-h/--help"
  | .json => "--json"
  | .locations => "--locations"
  | .angleBracket => "--angle-bracket"
  | .verbose => "-v/--verbose"

/-- A way to write a flag. -/
structure Spelling where
  text : String
  flag : Flag
  deriving DecidableEq, Repr, Inhabited

/-- Every way to write a flag. -/
def spellings : List Spelling :=
  [⟨"-h", .help⟩, ⟨"--help", .help⟩, ⟨"--json", .json⟩, ⟨"--locations", .locations⟩,
    ⟨"--angle-bracket", .angleBracket⟩, ⟨"-v", .verbose⟩, ⟨"--verbose", .verbose⟩]

/-- The flag that is written in full. -/
def flag? (text : List Char) : Option Flag :=
  (spellings.find? fun spelling => spelling.text.toList == text).map Spelling.flag

/-- Why arguments are refused. -/
inductive Misuse where
  /-- The flag could be several. -/
  | ambiguous (argument : String) (matching : List String)
  /-- A value given to a flag, which takes none. -/
  | needlessValue (flag : Flag) (value : String)
  | missingPaths
  | unrecognized (arguments : List String)
  deriving DecidableEq, Repr, Inhabited

/-- Message of a refusal. -/
def Misuse.message : Misuse → String
  | .ambiguous argument matching =>
      "ambiguous option: " ++ argument ++ " could match " ++ String.intercalate ", " matching
  | .needlessValue flag value =>
      "argument " ++ flag.title ++ ": ignored explicit argument " ++ Text.quoted value
  | .missingPaths => "the following arguments are required: paths"
  | .unrecognized arguments => "unrecognized arguments: " ++ String.intercalate " " arguments

/-- An argument by its form. -/
inductive Word where
  | path (text : String)
  /-- The first `--`. -/
  | separator
  /-- A long flag, and what is assigned to it. -/
  | long (flag : Flag) (value : Option (List Char))
  /-- A short flag, and what is joined or assigned to it. -/
  | short (flag : Flag) (value : Option (List Char))
  /-- Written like a flag, but none. -/
  | unknown (text : String)
  deriving DecidableEq, Repr, Inhabited

/-- What stands before the first equals sign and what is assigned. -/
def splitAssignment (text : List Char) : List Char × Option (List Char) :=
  match text.dropWhile (· != '=') with
  | [] => (text, none)
  | _ :: value => (text.takeWhile (· != '='), some value)

/-- Digits, with a point before the last of them or without; a final line feed is overlooked. -/
def isUnsignedNumber (text : List Char) : Bool :=
  let body := if text.getLast? == some '\n' then text.dropLast else text
  match body.dropWhile Text.isDigit with
  | [] => !body.isEmpty
  | c :: decimals => c == '.' && !decimals.isEmpty && decimals.all Text.isDigit

/-- An argument that is no flag, though it starts with a hyphen. -/
def strayWord (text : String) : Word :=
  if isUnsignedNumber (text.toList.drop 1) || text.toList.contains ' ' then .path text
  else .unknown text

/-- A flag that is cut short, by the text before an equals sign. -/
def abbreviated (text : String) : Except Misuse Word :=
  let (start, value) := splitAssignment text.toList
  match spellings.filter fun spelling => start.isPrefixOf spelling.text.toList with
  | [] => .ok (strayWord text)
  | [spelling] => .ok (.long spelling.flag value)
  | several => .error (.ambiguous text (several.map Spelling.text))

/-- A short flag with something joined to it. -/
def joinedFlags (text : String) : Word :=
  match flag? (text.toList.take 2) with
  | some flag => .short flag (some (text.toList.drop 2))
  | none => strayWord text

/-- The form of an argument that starts with a hyphen. -/
def hyphenWord (text : String) : Except Misuse Word :=
  let isLong := ['-', '-'].isPrefixOf text.toList
  let (start, value) := splitAssignment text.toList
  match flag? start with
  | some flag => .ok (if isLong then .long flag value else .short flag value)
  | none =>
      if text == "-" then .ok (.path text)
      else if isLong then abbreviated text
      else .ok (joinedFlags text)

/-- The form of every argument. -/
def wordsOf : List String → Except Misuse (List Word)
  | [] => .ok []
  | text :: rest =>
      if text == "--" then .ok (.separator :: rest.map .path)
      else do
        let word ← if text.toList.head? == some '-' then hyphenWord text else .ok (.path text)
        return word :: (← wordsOf rest)

/-- A short flag and the letters after it, each a short flag of its own. The letters
from the first that is none are a value given to the flag before. -/
def joinedTo (flag : Flag) : List Char → Except Misuse (List Flag)
  | [] => .ok [flag]
  | c :: rest =>
      match flag? ['-', c] with
      | none => .error (.needlessValue flag (String.ofList (c :: rest)))
      | some next => do return flag :: (← joinedTo next rest)

/-- Flags that change what is done. -/
structure Options where
  json : Bool
  locations : Bool
  angleBracket : Bool
  verbose : Bool
  deriving DecidableEq, Repr, Inhabited

/-- No flag given. -/
def Options.plain : Options := ⟨false, false, false, false⟩

/-- What the arguments ask for. -/
inductive Request where
  | help
  | list (options : Options) (paths : List String)
  deriving DecidableEq, Repr, Inhabited

/-- Options with a flag set; `none` when help is asked for. -/
def Options.set? (options : Options) : Flag → Option Options
  | .help => none
  | .json => some { options with json := true }
  | .locations => some { options with locations := true }
  | .angleBracket => some { options with angleBracket := true }
  | .verbose => some { options with verbose := true }

/-- Where the paths stand. -/
inductive PathRun where
  | ahead
  | here
  | past
  deriving DecidableEq, Repr, Inhabited

/-- The run of paths after a flag. -/
def PathRun.afterFlag : PathRun → PathRun
  | .ahead => .ahead
  | _ => .past

/-- What was taken in so far. -/
structure Intake where
  options : Options
  run : PathRun
  paths : List String
  unrecognized : List String
  deriving DecidableEq, Repr, Inhabited

namespace Intake

/-- Nothing taken in. -/
def start : Intake := ⟨.plain, .ahead, [], []⟩

/-- Takes in a path. -/
def addPath (intake : Intake) (text : String) : Intake :=
  match intake.run with
  | .past => { intake with unrecognized := intake.unrecognized ++ [text] }
  | _ => { intake with run := .here, paths := intake.paths ++ [text] }

/-- Takes in the separator. -/
def addSeparator (intake : Intake) : Intake :=
  match intake.run with
  | .past => { intake with unrecognized := intake.unrecognized ++ ["--"] }
  | _ => intake

/-- Takes in what is written like a flag, but is none. -/
def addUnknown (intake : Intake) (text : String) : Intake :=
  { intake with
    run := intake.run.afterFlag,
    unrecognized := intake.unrecognized ++ [text] }

/-- Takes in flags; `none` when help is asked for. -/
def addFlags? (intake : Intake) (flags : List Flag) : Option Intake :=
  (flags.foldlM Options.set? intake.options).map fun options =>
    { intake with options, run := intake.run.afterFlag }

/-- The request, when all is taken in. -/
def finish (intake : Intake) : Except Misuse Request :=
  if intake.paths.isEmpty then .error .missingPaths
  else if !intake.unrecognized.isEmpty then .error (.unrecognized intake.unrecognized)
  else .ok (.list intake.options intake.paths)

end Intake

/-- The flags of an argument. What is assigned to a short flag counts as joined to
it, unless it is empty. -/
def Word.flags : Word → Except Misuse (List Flag)
  | .path _ => .ok []
  | .separator => .ok []
  | .unknown _ => .ok []
  | .long flag none => .ok [flag]
  | .long flag (some value) => .error (.needlessValue flag (String.ofList value))
  | .short flag none => .ok [flag]
  | .short flag (some []) => .error (.needlessValue flag "")
  | .short flag (some letters) => joinedTo flag letters

/-- Takes the arguments in order. -/
def takeWords (intake : Intake) : List Word → Except Misuse Request
  | [] => intake.finish
  | .path text :: rest => takeWords (intake.addPath text) rest
  | .separator :: rest => takeWords intake.addSeparator rest
  | .unknown text :: rest => takeWords (intake.addUnknown text) rest
  | word :: rest => do
      match intake.addFlags? (← word.flags) with
      | none => return .help
      | some next => takeWords next rest

/-- Reads a command line. -/
def Request.ofArguments (arguments : List String) : Except Misuse Request := do
  takeWords .start (← wordsOf arguments)

/-- How the command is used. -/
def usage : String :=
  "usage: template-tokens [-h] [--json] [--locations] [--angle-bracket] [-v]\n" ++
  "                       paths [paths ...]\n"

/-- What is shown for help. -/
def helpText : String :=
  usage ++
  "\n" ++
  "List the components, helpers and modifiers invoked by templates.\n" ++
  "\n" ++
  "positional arguments:\n" ++
  "  paths            Template files, or directories to scan for .hbs/.handlebars\n" ++
  "                   files\n" ++
  "\n" ++
  "options:\n" ++
  "  -h, --help       show this help message and exit\n" ++
  "  --json           Print a JSON object mapping each file to its tokens\n" ++
  "  --locations      Include line:column of every token\n" ++
  "  --angle-bracket  Show component tokens as tag names (my-component/bar ->\n" ++
  "                   MyComponent::Bar)\n" ++
  "  -v, --verbose    Enable debug logging\n"

end TemplateUsage.CommandLine
