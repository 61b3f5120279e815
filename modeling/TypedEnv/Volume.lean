import TypedEnv.Error
import TypedEnv.Text.Cut

/-!
Paths as text, names separated by slashes, and the files and directories they lead to.  A volume
holds absolute paths, each as the list of its names from the root down; the root itself is always
there.
-/

namespace TypedEnv.Path

open TypedEnv.Text

def isAbsolute (path : String) : Bool := path.toList.head? == some '/'

/-- A path below a base.  An absolute path stands for itself, and an empty one leaves the base with
a slash at its end. -/
def join (base path : String) : String :=
  if isAbsolute path then path
  else if base.toList.getLast?.all (· == '/') then base ++ path
  else base ++ "/" ++ path

def parts (path : String) : List String :=
  (splitWhere (· == '/') path.toList).map String.ofList

def fileName? (path : String) : Option String :=
  ((parts path).filter fun part => part != "" && part != ".").getLast?.filter (· != "..")

/-- What follows the last point of the last name, if anything stands before that point. -/
def extension? (path : String) : Option String := do
  let name ← fileName? path
  match name.toList.reverse.span (· != '.') with
  | (_, []) => none
  | (_, [_]) => none
  | (extension, _) => some (String.ofList extension.reverse)

end TypedEnv.Path

namespace TypedEnv

inductive FileNode where
  | directory
  | file (bytes : List UInt8)

structure Volume where
  nodes : List (List String × FileNode)

namespace Volume

def empty : Volume := ⟨[]⟩

def node? (volume : Volume) (names : List String) : Option FileNode :=
  if names = [] then some .directory
  else (volume.nodes.find? fun node => node.1 == names).map Prod.snd

def put (volume : Volume) (names : List String) (node : FileNode) : Volume :=
  ⟨(names, node) :: volume.nodes.filter fun other => other.1 != names⟩

/-- Puts a node at the end of a path from a directory.  Directories on the way come to be.  Nothing
takes the place of a directory, and no directory the place of a file. -/
def place (volume : Volume) (node : FileNode) : List String → List String → Volume
  | here, [] =>
    match volume.node? here, node with
    | none, _ => volume.put here node
    | some (.file _), .file _ => volume.put here node
    | _, _ => volume
  | here, part :: rest =>
    let onward (volume : Volume) : Volume :=
      if part = "" ∨ part = "." then volume.place node here rest
      else if part = ".." then volume.place node here.dropLast rest
      else volume.place node (here ++ [part]) rest
    match volume.node? here with
    | some (.file _) => volume
    | some .directory => onward volume
    | none => onward (volume.put here .directory)

def remove (volume : Volume) (names : List String) : Volume :=
  ⟨volume.nodes.filter fun node => !names.isPrefixOf node.1⟩

def greatestName : Nat := 255

def greatestPath : Nat := 4095

def locate (volume : Volume) : List String → List String → Except ReadFault (List String)
  | here, [] => .ok here
  | here, part :: rest =>
    match volume.node? here with
    | none => .error .missing
    | some (.file _) => .error .notDirectory
    | some .directory =>
      if part = "" ∨ part = "." then locate volume here rest
      else if part = ".." then locate volume here.dropLast rest
      else if greatestName < part.utf8ByteSize then .error .nameTooLong
      else locate volume (here ++ [part]) rest

def walk (volume : Volume) (here parts : List String) : Except ReadFault FileNode :=
  match volume.locate here parts with
  | .error fault => .error fault
  | .ok names =>
    match volume.node? names with
    | some node => .ok node
    | none => .error .missing

/-- The node that the parts of a path lead to from a directory that was taken away: it is empty, but
the one above it can still be reached. -/
def walkOut (volume : Volume) (above : List String) : List String → Except ReadFault FileNode
  | [] => .ok .directory
  | part :: rest =>
    if part = "" ∨ part = "." then walkOut volume above rest
    else if part = ".." then volume.walk above rest
    else .error .missing

end Volume

inductive WorkingDirectory where
  | present (path : String)
  /-- Taken away while it was in use. -/
  | removed (path : String)

def WorkingDirectory.path? : WorkingDirectory → Option String
  | present path => some path
  | removed _ => none

/-- What a program finds around it: files, the directory that relative paths start from, the
environment variables, and the home directory of the user's account. -/
structure Host where
  volume : Volume
  workingDirectory : WorkingDirectory
  environment : Dict String
  accountHome : Option String

namespace Host

def absoluteNames (path : String) : List String :=
  (Path.parts path).filter (· != "")

/-- Where a path starts, as names from the root down.  A directory that was taken away is no
start. -/
def start? (host : Host) (path : String) : Option (List String) :=
  if Path.isAbsolute path then some [] else host.workingDirectory.path?.map absoluteNames

def put (host : Host) (path : String) (node : FileNode) : Host :=
  match host.start? path with
  | some start => { host with volume := host.volume.place node start (Path.parts path) }
  | none => host

def erase (host : Host) (path : String) : Host :=
  match (host.start? path).map (host.volume.locate · (Path.parts path)) with
  | some (.ok names) => { host with volume := host.volume.remove names }
  | _ => host

def removeWorkingDirectory (host : Host) : Host :=
  match host.workingDirectory with
  | .present path =>
    { host with
      volume := host.volume.remove (absoluteNames path)
      workingDirectory := .removed path }
  | .removed _ => host

def find (host : Host) (path : String) : Except ReadFault FileNode :=
  if path.toList.contains '\x00' then .error .nulInPath
  else if path = "" then .error .missing
  else if Volume.greatestPath < path.utf8ByteSize then .error .nameTooLong
  else if Path.isAbsolute path then host.volume.walk [] (Path.parts path)
  else match host.workingDirectory with
    | .present directory => host.volume.walk (absoluteNames directory) (Path.parts path)
    | .removed directory =>
      host.volume.walkOut (absoluteNames directory).dropLast (Path.parts path)

def readText (host : Host) (path : String) : Except ReadFault String :=
  match host.find path with
  | .error fault => .error fault
  | .ok .directory => .error .isDirectory
  | .ok (.file bytes) =>
    match String.fromUTF8? ⟨bytes.toArray⟩ with
    | some text => .ok text
    | none => .error .notText

end Host

end TypedEnv
