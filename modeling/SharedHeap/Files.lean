import SharedHeap.Path
import Std.Data.ExtTreeMap

/-!
Files and directories around a working directory. Nothing is known of what lies outside of it: the
root and the directories above the working one exist and are otherwise empty at first.
-/

namespace SharedHeap

inductive FileError where
  | notFound
  | notADirectory
  | isADirectory
  | nameTooLong
  | nulInName
  | notText
  deriving DecidableEq

def FileError.text : FileError → String
  | notFound => "No such file or directory (os error 2)"
  | notADirectory => "Not a directory (os error 20)"
  | isADirectory => "Is a directory (os error 21)"
  | nameTooLong => "File name too long (os error 36)"
  | nulInName => "file name contained an unexpected NUL byte"
  | notText => "stream did not contain valid UTF-8"

/-- Where a walk through directories starts. -/
inductive Base where
  | root
  /-- So many levels above the working directory. -/
  | above (levels : Nat)
  deriving DecidableEq

structure Location where
  base : Base
  /-- The names on the way from the base, the last one first. -/
  names : List String
  deriving DecidableEq

namespace Location

def start (path : String) : Location :=
  ⟨if Path.isAbsolute path then .root else .above 0, []⟩

def child (l : Location) (name : String) : Location := { l with names := name :: l.names }

/-- The directory that a location is in; the root is in itself. -/
def parent : Location → Location
  | ⟨base, _ :: names⟩ => ⟨base, names⟩
  | ⟨.root, []⟩ => ⟨.root, []⟩
  | ⟨.above levels, []⟩ => ⟨.above (levels + 1), []⟩

/-- The shortest path to a location. -/
def path (l : Location) : String :=
  let base := match l.base with
    | .root => "/"
    | .above levels => String.join (List.replicate levels "../")
  base ++ "/".intercalate l.names.reverse

end Location

inductive Entry (α : Type) where
  | directory
  | file (content : α)

/-- Files and directories by their shortest paths. Bases are directories without being listed. -/
structure Files (α : Type) where
  entries : Std.ExtTreeMap String (Entry α) := ∅

namespace Files

variable {α : Type}

def at? (fs : Files α) (l : Location) : Option (Entry α) :=
  match l.names with
  | [] => some .directory
  | _ => fs.entries[l.path]?

def put (fs : Files α) (l : Location) (e : Entry α) : Files α := ⟨fs.entries.insert l.path e⟩

def longestName : Nat := 255

def longestPath : Nat := 4095

/-- One step of a walk. It is only possible from a directory; where it ends there need not be
anything. -/
def step (fs : Files α) (l : Location) (segment : String) : Except FileError Location :=
  match fs.at? l with
  | none => .error .notFound
  | some (.file _) => .error .notADirectory
  | some .directory =>
    if Path.isIdle segment then .ok l
    else if segment = ".." then .ok l.parent
    else if longestName < segment.utf8ByteSize then .error .nameTooLong
    else .ok (l.child segment)

/-- What is wrong with a path before any walk along it. -/
def checkPath (path : String) : Except FileError Unit :=
  if path.toList.contains '\x00' then .error .nulInName
  else if path = "" then .error .notFound
  else if longestPath < path.utf8ByteSize then .error .nameTooLong
  else .ok ()

/-- The location that a path leads to; there need not be anything. -/
def locate (fs : Files α) (path : String) : Except FileError Location := do
  checkPath path
  (Path.segments path).foldlM fs.step (.start path)

def read (fs : Files α) (path : String) : Except FileError α := do
  match fs.at? (← fs.locate path) with
  | none => .error .notFound
  | some .directory => .error .isADirectory
  | some (.file content) => .ok content

/-- The location of the file at a path, which is made with this content if there is none yet. -/
def openOrCreate (fs : Files α) (path : String) (content : α) :
    Except FileError (Location × Files α) := do
  let l ← fs.locate path
  match fs.at? l with
  | none => .ok (l, fs.put l (.file content))
  | some .directory => .error .isADirectory
  | some (.file _) => .ok (l, fs)

/-- Makes the directories that a walk misses, until it ends or is not possible. -/
def makeDirectoriesFrom (fs : Files α) (l : Location) : List String → Files α
  | [] => fs
  | segment :: rest =>
    match fs.step l segment with
    | .error _ => fs
    | .ok next =>
      let fs := if (fs.at? next).isNone then fs.put next .directory else fs
      makeDirectoriesFrom fs next rest

/-- Makes every directory on a path that is not there yet, as far as possible. -/
def makeDirectories (fs : Files α) (path : String) : Files α :=
  match checkPath path with
  | .error _ => fs
  | .ok _ => fs.makeDirectoriesFrom (.start path) (Path.segments path)

/-- Opens a file, making its directory first if that helps. -/
def openInDirectory (fs : Files α) (directory file : String) (content : α) :
    Except FileError Location × Files α :=
  let path := Path.join directory file
  match fs.openOrCreate path content with
  | .ok (l, fs) => (.ok l, fs)
  | .error _ =>
    let fs := fs.makeDirectories directory
    match fs.openOrCreate path content with
    | .ok (l, fs) => (.ok l, fs)
    | .error e => (.error e, fs)

def modify (fs : Files α) (l : Location) (f : α → α) : Files α :=
  match fs.at? l with
  | some (.file content) => fs.put l (.file (f content))
  | _ => fs

/-- Puts a file at a path, in directories made for it. -/
def store (fs : Files α) (path : String) (content : α) : Files α :=
  match Path.splitFile? path with
  | none => fs
  | some (directory, file) =>
    match fs.openInDirectory directory file content with
    | (.ok l, fs) => fs.put l (.file content)
    | (.error _, fs) => fs

/-- The files in the working directory and below it, by their paths. -/
def list (fs : Files α) : List (String × α) :=
  fs.entries.toList.filterMap fun
    | (path, .file content) =>
      if Path.isAbsolute path || (Path.segments path).head? == some ".." then none
      else some (path, content)
    | (_, .directory) => none

end Files

end SharedHeap
