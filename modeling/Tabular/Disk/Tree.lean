import Tabular.Disk
import Tabular.Disk.Path

/-!
# File trees

A file tree holds files under their paths from the directory in which one
stands; the directories are those above the files. A path is walked part by
part: a dot stays, two dots go up, a name goes down into a directory that is
there. Above the tree there are directories, and nothing else is known of them.
-/

namespace Tabular

structure FileTree where
  files : List (List (List Char) × String)

namespace FileTree

/-- A place on the way along a path. -/
inductive Place where
  | directory (path : List (List Char))
  | file (text : String)
  /-- Outside of the tree. -/
  | outside

/-- Goes down by a name. -/
def enter (t : FileTree) (path : List (List Char)) (name : List Char) : Except ReadFault Place :=
  let target := path ++ [name]
  if 255 < (String.ofList name).utf8ByteSize then .error .nameTooLong
  else
    match t.files.find? fun f => f.1 == target with
    | some f => .ok (.file f.2)
    | none =>
      if t.files.any fun f => target.isPrefixOf f.1 then .ok (.directory target)
      else .error .notFound

/-- One part of a path. -/
def step (t : FileTree) (place : Place) (part : List Char) : Except ReadFault Place :=
  match place with
  | .file _ => .error .notDirectory
  | .outside => if part = [] || part = ['.'] || part = ['.', '.'] then .ok .outside
      else .error .notFound
  | .directory path =>
    if part = [] || part = ['.'] then .ok place
    else if part = ['.', '.'] then
      if path.isEmpty then .ok .outside else .ok (.directory path.dropLast)
    else t.enter path part

def find (t : FileTree) (path : String) : Except ReadFault Place :=
  if path.isEmpty then .error .notFound
  else if 4096 ≤ path.utf8ByteSize then .error .nameTooLong
  else if path.toList.contains '\x00' then .error (.other "file name contained an unexpected NUL byte")
  else
    let start : Place := if Path.isAbsolute path then .outside else .directory []
    (Path.split path.toList).foldlM t.step start

def read (t : FileTree) (path : String) : Except ReadFault String := do
  match ← t.find path with
  | .file text => .ok text
  | .directory _ | .outside => .error .isDirectory

def disk (t : FileTree) : Disk := ⟨t.read⟩

/-- The tree of some files, given by their paths. -/
def ofList (files : List (String × String)) : FileTree :=
  ⟨files.map fun f => ((Path.split f.1.toList).filter fun p => p ≠ [] && p ≠ ['.'], f.2)⟩

end FileTree

end Tabular
