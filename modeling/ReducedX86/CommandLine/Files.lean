/-!
Files as a run sees them: texts by path, or a reason why there is none.

A `Directory` holds its files in memory. Paths start from it, or from the root; of what lies
outside only the usual directories and the null device are known. A path is followed name by
name, and the first name that leads nowhere decides on the reason.
-/
namespace ReducedX86.CommandLine

inductive FileError
  | notFound
  | notDirectory
  | isDirectory
  | nameTooLong
  | other (reason : String)
  deriving DecidableEq, Repr, Inhabited

def FileError.message : FileError → String
  | notFound => "No such file or directory (os error 2)"
  | notDirectory => "Not a directory (os error 20)"
  | isDirectory => "Is a directory (os error 21)"
  | nameTooLong => "File name too long (os error 36)"
  | other reason => reason

abbrev Directory := List (String × String)

namespace Directory

/-- A place, by the names that lead to it from the root. -/
abbrev Place := List String

def maxName : Nat := 255

def maxPath : Nat := 4095

/-- The place of the directory itself. -/
def home : Place := ["tmp", "run"]

def rootNames : List String :=
  ["bin", "boot", "dev", "etc", "home", "lib", "media", "mnt", "opt", "proc", "root", "run",
   "sbin", "srv", "sys", "tmp", "usr", "var"]

def isDirectory (place : Place) : Bool :=
  place.isEmpty || place == home || rootNames.any fun name => place == [name]

/-- The text of the file at a place. The null device has none. -/
def text? (files : Directory) (place : Place) : Option String :=
  if place == ["dev", "null"] then some ""
  else (files.find? fun (name, _) => place == home ++ [name]).map (·.2)

/-- The text at the end of a path that starts in a directory. A file ends a path. -/
def follow (files : Directory) (place : Place) : List String → Except FileError String
  | [] => .error .isDirectory
  | name :: rest =>
      if name == "" || name == "." then follow files place rest
      else if name == ".." then follow files place.dropLast rest
      else if maxName < name.utf8ByteSize then .error .nameTooLong
      else if isDirectory (place ++ [name]) then follow files (place ++ [name]) rest
      else match text? files (place ++ [name]) with
        | none => .error .notFound
        | some text => if rest.isEmpty then .ok text else .error .notDirectory

def read (files : Directory) (path : String) : Except FileError String :=
  if path.isEmpty then .error .notFound
  else if maxPath < path.utf8ByteSize then .error .nameTooLong
  else follow files (if path.startsWith "/" then [] else home) (path.splitOn "/")

end Directory

end ReducedX86.CommandLine
