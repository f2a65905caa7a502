/-! # Files and folders in memory -/
namespace DataflowSpecializer.CommandLine
inductive FileError where
  | notFound
  | alreadyThere
  | notFolder
  | isFolder
  | nameTooLong
deriving DecidableEq, Repr

namespace FileError
def code : FileError → Nat
  | .notFound => 2
  | .alreadyThere => 17
  | .notFolder => 20
  | .isFolder => 21
  | .nameTooLong => 36

def ofCode? (n : Nat) : Option FileError :=
  [notFound, alreadyThere, notFolder, isFolder, nameTooLong].find? fun e => e.code = n

theorem ofCode?_code (e : FileError) : ofCode? e.code = some e := by
  cases e <;> decide

def words : FileError → String
  | .notFound => "No such file or directory"
  | .alreadyThere => "File exists"
  | .notFolder => "Not a directory"
  | .isFolder => "Is a directory"
  | .nameTooLong => "File name too long"

def message (e : FileError) : String := e.words ++ " (os error " ++ toString e.code ++ ")"
end FileError

structure Path where
  /-- Whether it starts at the root and not at the working folder. -/
  fromRoot : Bool
  names : List String
  /-- Whether it can only lead to a folder. -/
  endsInSlash : Bool
deriving DecidableEq, Repr

namespace Path
def maxBytes : Nat := 4095
def maxNameBytes : Nat := 255

def ofString (s : String) : Except FileError Path :=
  if maxBytes < s.utf8ByteSize then .error .nameTooLong
  else if s = "" then .error .notFound
  else .ok ⟨s.startsWith "/", (s.splitOn "/").filter (· ≠ ""), s.endsWith "/"⟩

/-- The last name; without one the path leads to where it starts. -/
def lastName (p : Path) : String := p.names.getLast?.getD "."

/-- The names that lead somewhere: all but the single dots. One that stands first is kept. -/
def steps (p : Path) : List String :=
  match p.fromRoot, p.names with
  | false, "." :: rest => "." :: rest.filter (· ≠ ".")
  | _, names => names.filter (· ≠ ".")

def parents (p : Path) : List Path :=
  (List.range p.steps.length).tail.reverse.map fun n => ⟨p.fromRoot, p.steps.take n, false⟩
end Path

inductive Entry where
  | file (text : String)
  | folder (entries : List (String × Entry))

abbrev Folder : Type := List (String × Entry)

def Folder.put (name : String) (e : Entry) : Folder → Folder
  | [] => [(name, e)]
  | (n, x) :: rest => if n = name then (n, e) :: rest else (n, x) :: put name e rest

mutual

def Entry.files (path : String) : Entry → List (String × String)
  | .file text => [(path, text)]
  | .folder entries => Folder.files (path ++ "/") entries

def Folder.files (start : String) : List (String × Entry) → List (String × String)
  | [] => []
  | (name, e) :: rest => Entry.files (start ++ name) e ++ Folder.files start rest
end

structure Spot where
  folder : Folder
  around : List (String × Folder)

namespace Spot
/-- The folder around; the root lies in itself. -/
def outer (s : Spot) : Spot :=
  match s.around with
  | [] => s
  | (name, f) :: rest => ⟨Folder.put name (.folder s.folder) f, rest⟩

def root (s : Spot) : Folder :=
  s.around.foldl (fun inner (name, f) => Folder.put name (.folder inner) f) s.folder

def inner (s : Spot) (name : String) : Spot :=
  match s.folder.lookup name with
  | some (.folder f) => ⟨f, (name, s.folder) :: s.around⟩
  | _ => s

def put (s : Spot) (name : String) (e : Entry) : Spot :=
  { s with folder := Folder.put name e s.folder }

def find (s : Spot) (name : String) : Except FileError Entry :=
  if name = "." then .ok (.folder s.folder)
  else if name = ".." then .ok (.folder s.outer.folder)
  else if Path.maxNameBytes < name.utf8ByteSize then .error .nameTooLong
  else
    match s.folder.lookup name with
    | some e => .ok e
    | none => .error .notFound

def enter (s : Spot) (name : String) : Except FileError Spot := do
  match ← s.find name with
  | .file _ => throw .notFolder
  | .folder _ => return if name = "." then s else if name = ".." then s.outer else s.inner name
end Spot

/-! ### File systems -/
structure FileSystem where
  root : Folder

namespace FileSystem
def workingNames : List String := ["tmp", "."]
def working (d : FileSystem) : Spot := workingNames.foldl Spot.inner ⟨d.root, []⟩

def holding (files : List (String × String)) : FileSystem :=
  let files : Folder := files.map fun (name, text) => (name, .file text)
  ⟨[("dev", .folder [("null", .file "")]), ("etc", .folder []),
    ("tmp", .folder [(".", .folder files)]), ("usr", .folder [])]⟩

def workingFiles (d : FileSystem) : List (String × String) := Folder.files "" d.working.folder

def folderOf (d : FileSystem) (p : Path) : Except FileError Spot :=
  p.names.dropLast.foldlM Spot.enter (if p.fromRoot then ⟨d.root, []⟩ else d.working)

def find (d : FileSystem) (p : Path) : Except FileError Entry := do
  let s ← d.folderOf p
  match p.endsInSlash, ← s.find p.lastName with
  | true, .file _ => throw .notFolder
  | _, e => return e

def leadsToFolder (d : FileSystem) (p : Path) : Bool :=
  match d.find p with
  | .ok (.folder _) => true
  | _ => false

def readFile (d : FileSystem) (path : String) : Except FileError String := do
  match ← d.find (← Path.ofString path) with
  | .file text => return text
  | .folder _ => throw .isFolder

def makeOne (d : FileSystem) (p : Path) : Except FileError FileSystem := do
  let s ← d.folderOf p
  match s.find p.lastName with
  | .error .notFound => return ⟨(s.put p.lastName (.folder [])).root⟩
  | .error e => throw e
  | .ok _ => throw .alreadyThere

def makeTree (d : FileSystem) (p : Path) (parents : List Path) : Except FileError FileSystem :=
  let accept (d : FileSystem) (e : FileError) : Except FileError FileSystem :=
    if d.leadsToFolder p then .ok d else .error e
  match d.makeOne p with
  | .ok d => .ok d
  | .error .notFound => do
    let d ← match parents with
      | [] => .ok d
      | q :: qs => makeTree d q qs
    match d.makeOne p with
    | .ok d => .ok d
    | .error e => accept d e
  | .error e => accept d e

def makeFolder (d : FileSystem) (path : String) : Except FileError FileSystem := do
  let p ← Path.ofString path
  d.makeTree p p.parents

def writeFile (d : FileSystem) (path text : String) : Except FileError FileSystem := do
  let p ← Path.ofString path
  let s ← d.folderOf p
  let written : FileSystem := ⟨(s.put p.lastName (.file text)).root⟩
  match p.endsInSlash, s.find p.lastName with
  | _, .error .nameTooLong => throw .nameTooLong
  | false, .error _ => return written
  | false, .ok (.file _) => return written
  | _, _ => throw .isFolder
end FileSystem
end DataflowSpecializer.CommandLine
