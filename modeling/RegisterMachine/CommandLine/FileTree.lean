/-!
# Trees of files

A path is followed name by name, from the working directory or, with a leading slash, from the
root. Empty names and single dots stay where they are, and two dots go up. Of the directories above
the working directory nothing is known, so they are taken to be empty.

A directory can be opened but not read.
-/

namespace RegisterMachine.CommandLine

/-- A failure of the operating system: its description and its number. -/
structure SystemError where
  description : String
  number : Nat
deriving DecidableEq

namespace SystemError

def notFound : SystemError := ⟨"No such file or directory", 2⟩

def notADirectory : SystemError := ⟨"Not a directory", 20⟩

def isADirectory : SystemError := ⟨"Is a directory", 21⟩

def nameTooLong : SystemError := ⟨"File name too long", 36⟩

def message (e : SystemError) : String :=
  e.description ++ " (os error " ++ toString e.number ++ ")"

end SystemError

inductive Reading where
  | contents (bytes : ByteArray)
  | cannotOpen (e : SystemError)
  | cannotRead (e : SystemError)

/-- A file or a directory with all that is in it. -/
inductive FileTree where
  | file (bytes : ByteArray)
  | directory (entries : List (String × FileTree))

namespace FileTree

def unknown : FileTree := directory []

def maxName : Nat := 255

def maxPath : Nat := 4095

/-- Follows names from a place on; `above` are the directories that it is in, nearest first. -/
def follow (here : FileTree) (above : List FileTree) : List String → Except SystemError FileTree
  | [] => .ok here
  | name :: names =>
    match here with
    | file _ => .error .notADirectory
    | directory entries =>
      if name = "" ∨ name = "." then
        here.follow above names
      else if name = ".." then
        (above.headD unknown).follow above.tail names
      else if maxName < name.utf8ByteSize then
        .error .nameTooLong
      else
        match entries.lookup name with
        | none => .error .notFound
        | some next => next.follow (here :: above) names

/-- What a path leads to from a working directory. -/
def find (here : FileTree) (path : String) : Except SystemError FileTree :=
  if path = "" then
    .error .notFound
  else if maxPath < path.utf8ByteSize then
    .error .nameTooLong
  else if path.startsWith "/" then
    unknown.follow [] (path.splitOn "/")
  else
    here.follow [] (path.splitOn "/")

def read (here : FileTree) (path : String) : Reading :=
  match here.find path with
  | .error e => .cannotOpen e
  | .ok (file bytes) => .contents bytes
  | .ok (directory _) => .cannotRead .isADirectory

end FileTree

end RegisterMachine.CommandLine
