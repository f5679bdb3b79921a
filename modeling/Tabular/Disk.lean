/-!
# Files

What the program needs of a file system: the text of the file at a path, or why
there is none. A path is a text whose parts are separated by slashes.
-/

namespace Tabular

/-- Why no text can be read at a path. -/
inductive ReadFault where
  | notFound
  | notDirectory
  | isDirectory
  | nameTooLong
  | notUtf8
  /-- Any other refusal of the system, in its words. -/
  | other (message : String)
  deriving DecidableEq, Repr

def ReadFault.message : ReadFault → String
  | notFound => "No such file or directory (os error 2)"
  | notDirectory => "Not a directory (os error 20)"
  | isDirectory => "Is a directory (os error 21)"
  | nameTooLong => "File name too long (os error 36)"
  | notUtf8 => "stream did not contain valid UTF-8"
  | other message => message

/-- The files that can be read. -/
structure Disk where
  read : String → Except ReadFault String

/-- Whether there is something at a path, a file or a directory. -/
def Disk.has (disk : Disk) (path : String) : Bool :=
  match disk.read path with
  | .ok _ => true
  | .error .isDirectory => true
  | .error .notUtf8 => true
  | .error _ => false

end Tabular
