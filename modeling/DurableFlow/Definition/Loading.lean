import DurableFlow.Definition.Exchange
import DurableFlow.Source.Text
import DurableFlow.Yaml.Reader

/-!
# Loading definitions

Definitions are kept in files, as JSON or as YAML. A single file is loaded or says why not;
of a folder, the files whose names end like those of definitions are loaded in the order of
their names, and those that hold none are passed over.
-/

namespace DurableFlow

/-- The ways in which a definition is written down. -/
inductive Format where
  | json
  | yaml
deriving DecidableEq, Repr

/-- Why a definition cannot be loaded. -/
inductive LoadFault where
  /-- There is no such file or folder. -/
  | missing
  | json (error : DecodeError)
  | yaml
deriving DecidableEq, Repr

/-- The definition that a text holds. -/
def Definition.parse (format : Format) (text : String) : Except LoadFault Definition :=
  match format with
  | .json => (Source.decodeText Definition.decode text).mapError .json
  | .yaml =>
    match (Yaml.read? text).map Definition.decode with
    | some (.ok definition) => .ok definition
    | _ => .error .yaml

namespace FileName

/-- The part of a name behind its last dot, a dot at its start not being counted. -/
def ending? (name : String) : Option String :=
  match (name.splitOn ".").reverse with
  | [] | [_] | [_, ""] => none
  | last :: _ => some last

/-- The format in which a file of this name is read. -/
def format (name : String) : Format :=
  if ending? name = some "json" then .json else .yaml

/-- Whether a folder offers a file of this name as a definition. -/
def isDefinition (name : String) : Bool :=
  match ending? name with
  | some ending => ending ∈ ["json", "yaml", "yml"]
  | none => false

end FileName

/-- The files below a folder: the names on the way to each of them, and its text. -/
structure Folder where
  files : List (List String × String)

namespace Folder

/-- The folder that holds files under these paths. -/
def ofFiles (files : Fields String) : Folder where
  files := files.map fun (path, text) =>
    ((path.splitOn "/").filter fun part => part != "" && part != ".", text)

/-- Whether a place is a folder: it is the folder itself, or there are files below it. -/
def isFolder (folder : Folder) (place : List String) : Bool :=
  place.isEmpty || folder.files.any fun file => place != file.1 && place.isPrefixOf file.1

/-- One step on the way to a place. Only folders lead on, and none leads out of this one. -/
def enter? (folder : Folder) (place : List String) (part : String) : Option (List String) :=
  if !folder.isFolder place then none
  else if part = "" || part = "." then some place
  else if part = ".." then if place.isEmpty then none else some place.dropLast
  else some (place ++ [part])

/-- The place that a path stands for. -/
def place? (folder : Folder) (path : String) : Option (List String) :=
  if path.startsWith "/" then none
  else (path.splitOn "/").foldlM folder.enter? []

/-- The text at a place. -/
def text? (folder : Folder) (place : List String) : Option String :=
  folder.files.lookup place

/-- The files right in a place, in the order of their names. -/
def entries (folder : Folder) (place : List String) : Fields String :=
  Fields.ofList <| folder.files.filterMap fun (path, text) =>
    match path.getLast? with
    | some name => if path.dropLast = place then some (name, text) else none
    | none => none

end Folder

namespace Definition

/-- The definition in a file, which is read in the format that goes with its name. -/
def ofFile (name text : String) : Except LoadFault Definition := parse (FileName.format name) text

/-- Load the file at a path. -/
def loadFile (folder : Folder) (path : String) : Except LoadFault Definition :=
  match folder.place? path with
  | none => .error .missing
  | some place =>
    match folder.text? place, place.getLast? with
    | some text, some name => ofFile name text
    | _, _ => .error .missing

/-- The definitions among files, those that cannot be loaded left out. -/
def ofFiles (files : Fields String) : List Definition :=
  files.filterMap fun (name, text) =>
    if FileName.isDefinition name then (ofFile name text).toOption else none

/-- Load the files of the folder at a path. -/
def loadFolder (folder : Folder) (path : String) : Except LoadFault (List Definition) :=
  match folder.place? path with
  | none => .error .missing
  | some place =>
    if folder.isFolder place then .ok (ofFiles (folder.entries place)) else .error .missing

end Definition

end DurableFlow
