import TemplateUsage.CommandLine.Path
import TemplateUsage.Text.Quoted

set_option autoImplicit false

/-!
# Files and folders

What stands at a path, and the template files that a path stands for. A file is
known by the names that lead to it; reading it gives bytes, or the system says
why not.
-/

namespace TemplateUsage.CommandLine

/-- What the system says of a file that cannot be read. -/
structure SystemError where
  number : Nat
  text : String
  /-- Whether the file could not be opened; its path is named then. -/
  opening : Bool
  deriving DecidableEq, Repr, Inhabited

/-- The message on the file at a path. -/
def SystemError.message (error : SystemError) (path : Path) : String :=
  "[Errno " ++ toString error.number ++ "] " ++ error.text ++
    if error.opening then ": " ++ Text.quoted path.text else ""

/-- What there is to read in a file. -/
inductive Content where
  | bytes (bytes : List UInt8)
  | unreadable (error : SystemError)
  deriving DecidableEq, Repr, Inhabited

instance : Coe (List UInt8) Content := ⟨.bytes⟩

/-- A file below a folder. -/
structure StoredFile where
  names : List String
  content : Content
  deriving DecidableEq, Repr, Inhabited

/-- What stands at a path. -/
inductive Found where
  /-- Nothing, or something that is neither a file nor a folder. -/
  | nothing
  | file (content : Content)
  /-- A folder with all files that a walk below it finds, in any order. -/
  | folder (files : List StoredFile)
  deriving DecidableEq, Repr, Inhabited

/-- Files and folders, each known by the names that lead to it from the root. -/
structure FileTree where
  files : List StoredFile
  folders : List (List String)
  deriving DecidableEq, Repr, Inhabited

namespace FileTree

/-- Whether names lead to a folder: the root, one that was made, or one on the way to
something. -/
def isFolder (tree : FileTree) (names : List String) : Bool :=
  names.isEmpty || tree.folders.any (names.isPrefixOf ·) ||
    tree.files.any fun file => names.isPrefixOf file.names && names != file.names

/-- Follows names from a folder, given by the names that lead to it. Only a folder can
be gone on from, and what is above the root is the root. -/
def follow? (tree : FileTree) (here : List String) : List String → Option (List String)
  | [] => some here
  | name :: rest =>
      if !tree.isFolder here then none
      else if name == ".." then follow? tree here.dropLast rest
      else follow? tree (here ++ [name]) rest

/-- The files below a folder, with the names that lead to them from there. -/
def inside (tree : FileTree) (here : List String) : List StoredFile :=
  (tree.files.filter fun file => here.isPrefixOf file.names).map fun file =>
    ⟨file.names.drop here.length, file.content⟩

/-- What stands where names lead to. -/
def foundAt (tree : FileTree) (names : List String) : Found :=
  match tree.files.find? fun file => file.names == names with
  | some file => .file file.content
  | none => if tree.isFolder names then .folder (tree.inside names) else .nothing

/-- The folder that a path starts at, given the working folder. -/
def origin (home : List String) : PathRoot → List String
  | .relative => home
  | .absolute | .doubled => []

/-- What stands at a path, given the working folder. -/
def lookFrom (tree : FileTree) (home : List String) (path : Path) : Found :=
  match tree.follow? (origin home path.root) path.names with
  | some names => tree.foundAt names
  | none => .nothing

/-- The files and folders, moved into a folder. -/
def within (tree : FileTree) (home : List String) : FileTree :=
  ⟨tree.files.map fun file => ⟨home ++ file.names, file.content⟩,
    home :: tree.folders.map (home ++ ·)⟩

/-- What stands at a path when the files stand in a working folder of their own. -/
def look (tree : FileTree) (path : Path) : Found := (tree.within ["work"]).lookFrom ["work"] path

end FileTree

/-- A template to be read: its path and what there is to read, if it is a file. -/
structure Source where
  path : Path
  content : Option Content
  deriving DecidableEq, Repr, Inhabited

/-- Order of names along the way. -/
def namesLe (a b : List String) : Bool := !decide (b < a)

/-- The sources that a path stands for: the template files below a folder, in the
order of their names, or else the path itself. -/
def Found.sources (path : Path) : Found → List Source
  | .nothing => [⟨path, none⟩]
  | .file content => [⟨path, some content⟩]
  | .folder files =>
      let sorted := files.mergeSort fun a b => namesLe a.names b.names
      (sorted.map fun file => ⟨path.below file.names, some file.content⟩).filter fun source =>
        isTemplatePath source.path.text

end TemplateUsage.CommandLine
