import GraphQL.Command.Outcome
import GraphQL.Table

/-! # Working directories

A `Directory` is a working directory as a value: the files and folders below it.

* A path is followed name by name. An empty name and `.` stay, `..` goes up, and any other name
  goes down. The way leads through folders only.
* Above the working directory nothing is known but that there are folders.
* `Directory.read` and `Directory.write` reach the file that a path leads to,
* `Directory.check` and `Directory.format` run the commands on it. -/

namespace GraphQL

set_option autoImplicit false

/-- The names that lead down from the working directory. -/
abbrev Place := List Text

/-- The folder that a place is in; none for the working directory itself. -/
def Place.parent? (place : Place) : Option Place :=
  if place.isEmpty then none else some place.dropLast

structure Directory where
  files : Table Place Text := {}
  /-- Folders beside those that the files are in -/
  folders : List Place := []

/-- Why a path leads to no file. -/
inductive PathFault where
  | missing
  | throughFile
  | folder
deriving DecidableEq, Repr

def PathFault.failure (path : Text) : PathFault → Failure
  | .missing => .system "ENOENT" ("ENOENT: no such file or directory, open '" ++ path ++ "'")
  | .throughFile => .system "ENOTDIR" ("ENOTDIR: not a directory, open '" ++ path ++ "'")
  | .folder => .system "EISDIR" "EISDIR: illegal operation on a directory, read"

namespace Directory

/-- The names of a path, which slashes separate. -/
def names : Text → List Text
  | [] => [[]]
  | u :: rest =>
    match names rest with
    | [] => [[u]]
    | name :: others => if u == unit '/' then [] :: name :: others else (u :: name) :: others

/-- The name leads nowhere else. -/
def stays (name : Text) : Bool := name.isEmpty || name == ("." : Text)

/-- The place of a file that is named from the working directory down. -/
def placeOf (path : Text) : Place := (names path).filter fun name => !stays name

/-- The directory that holds some files, each by its path, and some folders. -/
def ofFiles (files : List (Text × Text)) (folders : List Text) : Directory where
  files := files.foldl (fun table (path, content) => table.insert (placeOf path) content) {}
  folders := folders.map placeOf

def isFile (d : Directory) (place : Place) : Bool := d.files.contains place

/-- The place is a folder or on the way to one, or on the way to a file. -/
def isFolder (d : Directory) (place : Place) : Bool :=
  place.isEmpty || d.folders.any place.isPrefixOf ||
    d.files.entries.any fun entry => place.isPrefixOf entry.1.dropLast

/-- Where names lead from a place; `none` is above the working directory. -/
def follow (d : Directory) : Option Place → List Text → Except PathFault (Option Place)
  | place, [] => .ok place
  | place, name :: rest =>
    if place.any d.isFile then .error .throughFile
    else if stays name then d.follow place rest
    else if name == (".." : Text) then d.follow (place.bind Place.parent?) rest
    else
      match place.map (· ++ [name]) with
      | none => .error .missing
      | some next =>
        if d.isFile next || d.isFolder next then d.follow (some next) rest else .error .missing

def resolve (d : Directory) (path : Text) : Except PathFault (Option Place) :=
  match names path with
  | [[]] => .error .missing
  | [] :: rest => d.follow none rest
  | names => d.follow (some []) names

/-- The file that a path leads to, with its content. -/
def locate (d : Directory) (path : Text) : Except PathFault (Place × Text) :=
  match d.resolve path with
  | .error fault => .error fault
  | .ok none => .error .folder
  | .ok (some place) =>
    match d.files.get? place with
    | none => .error .folder
    | some content => .ok (place, content)

def read (d : Directory) (path : Text) : Reading :=
  match d.locate path with
  | .error fault => .error (fault.failure path)
  | .ok (_, content) => .ok content

/-- Writes the file that a path leads to, which is there already. -/
def write (d : Directory) (path content : Text) : Directory :=
  match d.locate path with
  | .error _ => d
  | .ok (place, _) => { d with files := d.files.insert place content }

def check (d : Directory) (quiet : Bool) (paths : List Text) : Outcome :=
  runCheck quiet (paths.map fun path => (path, d.read path))

def format (d : Directory) (inPlace : Bool) (path : Text) : Outcome × Directory :=
  let outcome := runFormat inPlace path (d.read path)
  match outcome.written with
  | none => (outcome, d)
  | some content => (outcome, d.write path content)

end Directory

end GraphQL
