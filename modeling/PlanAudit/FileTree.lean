/-! A tree of files, and what reading a path in it gives. -/
namespace PlanAudit

/-- Why the content of a file cannot be had. -/
inductive ReadFailure where
  | notFound
  | denied
  | notDirectory
  | isDirectory
  | notUtf8
  | other (text : String)
  deriving Repr, DecidableEq

def ReadFailure.message : ReadFailure → String
  | notFound => "No such file or directory (os error 2)"
  | denied => "Permission denied (os error 13)"
  | notDirectory => "Not a directory (os error 20)"
  | isDirectory => "Is a directory (os error 21)"
  | notUtf8 => "stream did not contain valid UTF-8"
  | other text => text

/-- How the bytes of a file are had from its path. -/
abbrev FileReader := String → Except ReadFailure ByteArray

/-- The content of a file as text. -/
def FileReader.text (read : FileReader) (path : String) : Except ReadFailure String := do
  match String.fromUTF8? (← read path) with
  | some text => return text
  | none => .error .notUtf8

/-- Files and directories below a root. An entry is named by the parts of its path, and all directories
on the way to an entry are there too. -/
structure FileTree where
  files : List (List String × ByteArray)
  directories : List (List String)

namespace FileTree

/-- What stands at a place. -/
inductive Node where
  | file (content : ByteArray)
  | directory
  | nothing

def node (tree : FileTree) (path : List String) : Node :=
  match tree.files.lookup path with
  | some content => .file content
  | none =>
    if path.isEmpty || tree.directories.any (path.isPrefixOf ·)
        || tree.files.any (path.isPrefixOf ·.1) then .directory
    else .nothing

/-- Follow the parts of a path from a place in the tree, or from outside. Only a directory has further
parts, an empty part or a dot stays there, and two dots go up. All that is known of the outside is that
it consists of directories. -/
def follow (tree : FileTree) : Option (List String) → List String → Except ReadFailure Node
  | none, [] => .ok .directory
  | some here, [] => .ok (tree.node here)
  | none, part :: parts =>
    if part.isEmpty || part = "." || part = ".." then follow tree none parts
    else .error .notFound
  | some here, part :: parts =>
    match tree.node here with
    | .nothing => .error .notFound
    | .file _ => .error .notDirectory
    | .directory =>
      if part.isEmpty || part = "." then follow tree (some here) parts
      else if part = ".." then
        follow tree (if here.isEmpty then none else some here.dropLast) parts
      else follow tree (some (here ++ [part])) parts

/-- The bytes of the file at a path. The path starts from the root of the tree, or outside if it starts
with a slash. -/
def read (tree : FileTree) : FileReader := fun path => do
  if path.isEmpty then .error .notFound
  else
    let start := if path.startsWith "/" then none else some []
    match ← tree.follow start (path.splitOn "/") with
    | .file content => return content
    | .directory => .error .isDirectory
    | .nothing => .error .notFound

end FileTree

end PlanAudit
