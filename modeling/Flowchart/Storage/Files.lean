/-!
# Files

* `percentEncoded`: a text as a part of a path.
* `Files`: the texts of files under their paths, which are relative to a directory. A path may lead out
  of the directory.
-/

namespace Flowchart

/-- The characters that stand for themselves in a part of a path. -/
def isUnreserved (c : Char) : Bool :=
  c.isAlphanum || c == '_' || c == '.' || c == '-' || c == '~'

def upperHexDigit (n : Nat) : Char := ((Nat.toDigits 16 n).headD '0').toUpper

/-- A byte as a percent sign and two digits. -/
def percentByte (byte : UInt8) : List Char :=
  ['%', upperHexDigit (byte.toNat / 16), upperHexDigit (byte.toNat % 16)]

/-- A text as a part of a path: the bytes of all but the plainest characters are encoded. -/
def percentEncoded (text : String) : String :=
  String.ofList (text.toList.flatMap fun c =>
    if isUnreserved c then [c] else (String.utf8EncodeChar c).flatMap percentByte)

/-- The parts of a path, in order. One that starts at the root has a slash as its first part. -/
abbrev Path := List String

namespace Path

/-- The part that stands for the root. -/
def root : String := "/"

/-- Adds a part to a path that is given from its end. Parts that lead nowhere are dropped, and those
that lead back cancel the part before them. -/
def step (reversed : Path) (part : String) : Path :=
  if part == "." || part == "" then reversed
  else if part == ".." then
    match reversed with
    | last :: rest =>
      if last == ".." then part :: reversed else if last == root then reversed else rest
    | [] => [part]
  else part :: reversed

/-- The shortest path to the same place. -/
def normal (path : Path) : Path := (path.foldl step []).reverse

/-- The parts of a written path. -/
def ofText (text : String) : Path :=
  normal ((if text.startsWith "/" then [root] else []) ++ text.splitOn "/")

def text : Path → String
  | [] => ""
  | first :: rest =>
    if first == root then root ++ "/".intercalate rest else "/".intercalate (first :: rest)

end Path

/-- The texts of files under their paths. -/
abbrev Files := List (Path × String)

namespace Files

def read? (files : Files) (path : Path) : Option String := files.lookup path.normal

def erase (files : Files) (path : Path) : Files := files.filter fun file => file.1 ≠ path.normal

/-- Writes a file; one that was there is replaced in its place. -/
def write (files : Files) (path : Path) (text : String) : Files :=
  if (files.read? path).isSome then
    files.map fun file => if file.1 = path.normal then (file.1, text) else file
  else files ++ [(path.normal, text)]

/-- The names and texts of the files in a directory. -/
def inDirectory (files : Files) (directory : Path) : List (String × String) :=
  files.filterMap fun (path, text) =>
    match path.reverse with
    | name :: parents => if parents.reverse = directory.normal then some (name, text) else none
    | [] => none

/-- The paths of all files, sorted. -/
def paths (files : Files) : List String :=
  (files.map fun file => Path.text file.1).mergeSort fun a b => !(b < a)

end Files

end Flowchart
