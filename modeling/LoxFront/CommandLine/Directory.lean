import LoxFront.CommandLine.Run

/-!
# Reading files of a directory held in memory

A `Directory` holds the content of a working directory; `Directory.read` answers a path
as a file system does. The components of the path are followed one by one, a name that
is not there or a step below a file ends the walk, and a walk that ends at a directory
has found nothing to read. Outside the working directory only its parents exist.
-/

namespace LoxFront

/-- Files by their paths from the working directory, each path the list of its names. -/
structure Directory where
  files : List (List String × List UInt8)

namespace Directory

/-- The parts of a text between its slashes; there is one more of them than of slashes. -/
def splitAtSlashes : List Char → List (List Char)
  | [] => [[]]
  | c :: cs =>
    match splitAtSlashes cs with
    | [] => [[c]]
    | part :: parts => if c = '/' then [] :: part :: parts else (c :: part) :: parts

/-- The components of a path as it is written. -/
def components (path : String) : List String := (splitAtSlashes path.toList).map String.ofList

/-- What a name can stand for. -/
inductive Node where
  | file (content : List UInt8)
  | directory

/-- What stands at a path from the working directory. A directory exists if a file lies below
it. -/
def node? (d : Directory) (names : List String) : Option Node :=
  match d.files.lookup names with
  | some content => some (.file content)
  | none => if d.files.any fun file => names.isPrefixOf file.1 then some .directory else none

/-- Where a walk stands. -/
inductive Place where
  /-- At a path from the working directory. -/
  | inside (names : List String)
  /-- At a parent of the working directory. -/
  | outside

/-- The place of the parent directory. -/
def Place.parent : Place → Place
  | inside [] | outside => outside
  | inside names => inside names.dropLast

/-- **Following the components of a path** from a directory. An empty component and a single
dot stay where they are. -/
def walk (d : Directory) : Place → List String → Except ReadError (List UInt8)
  | _, [] => .error .isADirectory
  | place, component :: rest =>
    if component = "" ∨ component = "." then d.walk place rest
    else if component = ".." then d.walk place.parent rest
    else match place with
      | .outside => .error .notFound
      | .inside names =>
        let below := names ++ [component]
        match d.node? below, rest with
        | some (.file content), [] => .ok content
        | some (.file _), _ => .error .notADirectory
        | some .directory, rest => d.walk (.inside below) rest
        | none, _ => .error .notFound

/-- Reads the file at a path as it is written. A path that begins with a slash does not start
at the working directory. -/
def read (d : Directory) (path : String) : Except ReadError (List UInt8) :=
  d.walk (if path.toList.head? = some '/' then .outside else .inside []) (components path)

/-- The directory that holds files under names written as paths. -/
def ofFiles (files : List (String × List UInt8)) : Directory :=
  ⟨files.map fun (path, content) =>
    ((components path).filter fun name => name ≠ "" ∧ name ≠ ".", content)⟩

end Directory

end LoxFront
