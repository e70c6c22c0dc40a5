import Risclet.Text.Display

/-! # File trees

The files that a run of the compiler finds and leaves, as a value: directories and files by the
names on the way to them from one directory, the place where paths begin.  `read` and `create`
follow a path part by part, and refuse it for the same reasons as a file system: a part that is
missing, a file where a directory has to be, a directory where a file has to be, a name that is
too long.  A file that is opened for writing loses its content, and what is written to it comes
afterwards.

Above the place where paths begin there are directories all the way up.  Names that lead there
have two dots in front, one pair for each step up.  Names from the very top have a slash in front.
-/
namespace Risclet

/-- Why a path cannot be read or written. -/
inductive FileFault where
  | missing
  | notDirectory
  | isDirectory
  | nameTooLong
  /-- The path holds the character zero, which no path can. -/
  | embeddedNull
  /-- Another refusal by the system, with its number and its words. -/
  | other (code : Nat) (words : String)
deriving DecidableEq, Repr

/-- A path that was refused. -/
structure FileError where
  fault : FileFault
  path : String
deriving DecidableEq, Repr

namespace FileFault

/-- The system's number for a fault and its words. -/
def code? : FileFault → Option (Nat × String)
  | missing => some (2, "No such file or directory")
  | notDirectory => some (20, "Not a directory")
  | isDirectory => some (21, "Is a directory")
  | nameTooLong => some (36, "File name too long")
  | embeddedNull => none
  | other code words => some (code, words)

end FileFault

/-- The wording of a refusal. -/
def FileError.message (e : FileError) : String :=
  match e.fault.code? with
  | some (code, words) =>
    "[Errno " ++ toString code ++ "] " ++ words ++ ": " ++ Text.display e.path
  | none => "embedded null byte"

/-- Directories and files, each by the names on the way to it. -/
structure FileTree where
  dirs : List (List String)
  files : List (List String × ByteArray)

namespace FileTree

/-- The tree without directories and files. -/
def empty : FileTree := ⟨[], []⟩

/-- Where following a path has got to. -/
inductive Place where
  /-- At a directory. -/
  | dir (names : List String)
  /-- At a file. -/
  | file (names : List String)
deriving DecidableEq, Repr

/-- Whether names lead to the very top. -/
def isTop (names : List String) : Bool :=
  names == ["/"]

/-- Whether names lead to where paths begin, or straight up from there. -/
def isAbove (names : List String) : Bool :=
  names.all (· == "..")

/-- Whether names lead to a place below where paths begin. -/
def isInside (names : List String) : Bool :=
  names.head? != some "/" && names.head? != some ".."

/-- The names of the directory that a directory is in. -/
def parent (names : List String) : List String :=
  if isTop names then names else if isAbove names then names ++ [".."] else names.dropLast

/-- Whether there is a directory. -/
def isDir (t : FileTree) (names : List String) : Bool :=
  isTop names || isAbove names || t.dirs.contains names

/-- The content of a file. -/
def content? (t : FileTree) (names : List String) : Option ByteArray :=
  t.files.lookup names

/-- The greatest number of bytes in a name. -/
def maxName : Nat := 255

/-- The greatest number of bytes in a path. -/
def maxPath : Nat := 4095

/-- The parts of a path: what stands between slashes. -/
def parts (path : String) : List String :=
  go [] path.toList
where
  /-- The parts of what follows, where `current` has been read of the first of them. -/
  go (current : List Char) : List Char → List String
    | [] => finish current
    | c :: rest => if c = '/' then finish current ++ go [] rest else go (current ++ [c]) rest
  /-- A part that has been read, unless it is empty. -/
  finish (current : List Char) : List String :=
    if current.isEmpty then [] else [String.ofList current]

/-- Where a path begins. -/
def origin (path : String) : Place :=
  if path.toList.head? = some '/' then .dir ["/"] else .dir []

/-- Follows one part of a path. -/
def step (t : FileTree) (place : Place) (name : String) : Except FileFault Place :=
  match place with
  | .file _ => .error .notDirectory
  | .dir names =>
    if name = "." then .ok (.dir names)
    else if name = ".." then .ok (.dir (parent names))
    else if maxName < name.utf8ByteSize then .error .nameTooLong
    else
      let names := names ++ [name]
      if (t.content? names).isSome then .ok (.file names)
      else if t.isDir names then .ok (.dir names)
      else .error .missing

/-- Follows the parts of a path, one after the other. -/
def follow (t : FileTree) (place : Place) : List String → Except FileFault Place
  | [] => .ok place
  | name :: names => do
    let place ← t.step place name
    t.follow place names

/-- What is wrong with a path wherever it leads. -/
def checkPath (path : String) : Except FileFault Unit :=
  if path.toList.contains (Char.ofNat 0) then .error .embeddedNull
  else if path = "" then .error .missing
  else if maxPath < path.utf8ByteSize then .error .nameTooLong
  else .ok ()

/-- Whether a path says by a slash at its end that it leads to a directory. -/
def wantsDirectory (path : String) : Bool :=
  path.toList.getLast? == some '/'

/-- The content of the file that a path leads to. -/
def lookUp (t : FileTree) (path : String) : Except FileFault ByteArray := do
  checkPath path
  match ← t.follow (origin path) (parts path) with
  | .dir _ => .error .isDirectory
  | .file names =>
    if wantsDirectory path then .error .notDirectory
    else
      match t.content? names with
      | some bytes => .ok bytes
      | none => .error .missing

/-- Reads a file. -/
def read (t : FileTree) (path : String) : Except FileError ByteArray :=
  (t.lookUp path).mapError (⟨·, path⟩)

/-- Files with the content of one set: changed in its place, or put at the end. -/
def setContent (names : List String) (bytes : ByteArray) :
    List (List String × ByteArray) → List (List String × ByteArray)
  | [] => [(names, bytes)]
  | (key, old) :: rest =>
    if key = names then (key, bytes) :: rest else (key, old) :: setContent names bytes rest

/-- The file that a path to write to leads to; it need not exist, but its directory has to. -/
def target (t : FileTree) (path : String) : Except FileFault (List String) := do
  checkPath path
  let names := parts path
  match ← t.follow (origin path) names.dropLast, names.getLast? with
  | .file _, _ => .error .notDirectory
  | .dir _, none => .error .isDirectory
  | .dir dir, some name =>
    if wantsDirectory path then .error .isDirectory
    else
      match t.step (.dir dir) name with
      | .ok (.file file) => .ok file
      | .ok (.dir _) => .error .isDirectory
      | .error .missing => .ok (dir ++ [name])
      | .error fault => .error fault

/-- The tree with the content of one file set. -/
def set (t : FileTree) (names : List String) (bytes : ByteArray) : FileTree :=
  { t with files := setContent names bytes t.files }

/-- Opens a file for writing: the place that the path leads to, and the tree in which the file there
is empty. -/
def create (t : FileTree) (path : String) : Except FileError (List String × FileTree) :=
  match t.target path with
  | .ok names => .ok (names, t.set names ByteArray.empty)
  | .error fault => .error ⟨fault, path⟩

/-- The directories on the way to a place, itself among them, but not where paths begin. -/
def ancestors : List String → List (List String)
  | [] => []
  | name :: names => [name] :: (ancestors names).map (name :: ·)

/-- Puts a directory into the tree, with those on the way to it. -/
def addDir (t : FileTree) (path : String) : FileTree :=
  { t with dirs := t.dirs ++ ancestors (parts path) }

/-- Puts a file into the tree, with the directories on the way to it. -/
def addFile (t : FileTree) (path : String) (bytes : ByteArray) : FileTree :=
  { dirs := t.dirs ++ ancestors (parts path).dropLast
    files := setContent (parts path) bytes t.files }

/-- The files below where paths begin, with their paths. -/
def listing (t : FileTree) : List (String × ByteArray) :=
  (t.files.filter (fun f => isInside f.1)).map (fun f => ("/".intercalate f.1, f.2))

end FileTree
end Risclet
