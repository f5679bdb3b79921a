/-!
# Paths

A path is a text whose parts are separated by slashes. Parts that are empty or a
single dot mean nothing, except that a path may begin with a dot or with the
root's slash. Nothing else is resolved: two dots stay as they are.
-/

namespace Tabular.Path

/-- The parts of a path between its slashes. -/
def split : List Char → List (List Char)
  | [] => [[]]
  | c :: rest =>
    match c == '/', split rest with
    | true, parts => [] :: parts
    | false, part :: parts => (c :: part) :: parts
    | false, [] => [[c]]

def unsplit : List (List Char) → List Char
  | [] => []
  | [part] => part
  | part :: parts => part ++ '/' :: unsplit parts

/-- Drops parts without meaning from the end, but never the first part. -/
def dropEmptyEnd (parts : List (List Char)) : List (List Char) :=
  match parts with
  | [] => []
  | first :: rest => first :: (rest.reverse.dropWhile fun p => p = [] || p = ['.']).reverse

/-- Whether a path begins at the root. -/
def isAbsolute (path : String) : Bool := path.toList.head? == some '/'

/-- The directory of a path: what is left without its last part. A path of one
part has the empty one. -/
def parent (path : String) : String :=
  let parts := dropEmptyEnd (split path.toList)
  let above := if parts = [[]] then [] else dropEmptyEnd parts.dropLast
  if above = [[]] then "/" else String.ofList (unsplit above)

def join (directory path : String) : String :=
  if isAbsolute path || directory.isEmpty then path
  else if directory.toList.getLast? == some '/' then directory ++ path
  else directory ++ "/" ++ path

end Tabular.Path
