import CompletionSnippets.FileSystem

/-!
# Directories

A directory holds files under relative paths, and the directories that lie on the
way to them. Reading gives the bytes of a file; writing gives the directory with
one file replaced or added. Of what lies outside, the directories around and a few
that every system has are known to be there, and the device that holds nothing.
-/
namespace CompletionSnippets

namespace FileFault

def notFound : FileFault := ⟨"No such file or directory (os error 2)".toList⟩

def notDirectory : FileFault := ⟨"Not a directory (os error 20)".toList⟩

def isDirectory : FileFault := ⟨"Is a directory (os error 21)".toList⟩

def nameTooLong : FileFault := ⟨"File name too long (os error 36)".toList⟩

end FileFault

/-- The names on the way to a file. -/
abbrev Path := List Text

/-- The files of a directory and of those in it. -/
structure Directory where
  files : List (Path × ByteArray) := []

/-- What a path leads to: a directory, the device that holds nothing and keeps
nothing, or a file that is there or may be made. -/
inductive Place where
  | directory
  | nullDevice
  | file (path : Path) (content : Option ByteArray)

/-- What a path is followed for. -/
inductive Access where
  | reading
  | writing
deriving DecidableEq, Repr

namespace Path

/-- The outermost directory of the system; no name holds a slash. -/
def root : Path := [['/']]

/-- The directory around: two dots stand for the one around the directory at hand,
and there is none around the outermost. -/
def parent (path : Path) : Path :=
  if path = root then root
  else if path.all (· == ['.', '.']) then path ++ [['.', '.']]
  else path.dropLast

/-- Whether the path leads to a directory that is there whatever files there are. -/
def isStandardDirectory (path : Path) : Bool :=
  path.all (· == ['.', '.']) ||
    [root, root ++ ["dev".toList], root ++ ["tmp".toList]].contains path

def nullDevice : Path := root ++ ["dev".toList, "null".toList]

end Path

namespace Directory

/-- The longest name that a file may have, in bytes. -/
def nameLimit : Nat := 255

/-- The longest path that may be written, in bytes. -/
def pathLimit : Nat := 4095

def blockSize : Nat := 4096

def holdsDirectory (d : Directory) (path : Path) : Bool :=
  path.isStandardDirectory || d.files.any fun file => path != file.1 && path.isPrefixOf file.1

/-- Where the names lead from a directory. An empty name and a dot stay where they
are, two dots go to the directory around. A name with a slash behind it can be no
file to write, whatever it leads to. -/
def walk (d : Directory) (access : Access) (here : Path) : Path → Except FileFault Place
  | [] => .ok .directory
  | name :: rest =>
    if name = [] || name = ['.'] then walk d access here rest
    else if name = ['.', '.'] then walk d access here.parent rest
    else if access = .writing && !rest.isEmpty && rest.all List.isEmpty then .ok .directory
    else if nameLimit < name.utf8Length then .error .nameTooLong
    else
      let path : Path := here ++ [name]
      if d.holdsDirectory path then walk d access path rest
      else match d.files.lookup path, rest with
        | content, [] => .ok (if path = .nullDevice then .nullDevice else .file path content)
        | some _, _ => .error .notDirectory
        | none, _ => .error (if path = .nullDevice then .notDirectory else .notFound)

/-- What a written path leads to. -/
def place (d : Directory) (access : Access) (written : Text) : Except FileFault Place :=
  if written.isEmpty then .error .notFound
  else if pathLimit < written.utf8Length then .error .nameTooLong
  else walk d access (if written.head? = some '/' then .root else []) (written.splitOn '/')

def read (d : Directory) (written : Text) : Except FileFault ByteArray :=
  match d.place .reading written with
  | .error fault => .error fault
  | .ok .directory => .error .isDirectory
  | .ok .nullDevice => .ok .empty
  | .ok (.file _ none) => .error .notFound
  | .ok (.file _ (some content)) => .ok content

/-- The size that is told of what is at a path. Directories take a block. -/
def size (d : Directory) (written : Text) : Except FileFault Nat :=
  match d.place .reading written with
  | .error fault => .error fault
  | .ok .directory => .ok blockSize
  | .ok .nullDevice => .ok 0
  | .ok (.file _ none) => .error .notFound
  | .ok (.file _ (some content)) => .ok content.size

/-- The directory with the given bytes in the file at a path. -/
def write (d : Directory) (written : Text) (content : ByteArray) :
    Except FileFault Directory :=
  match d.place .writing written with
  | .error fault => .error fault
  | .ok .directory => .error .isDirectory
  | .ok .nullDevice => .ok d
  | .ok (.file path _) =>
    .ok { files := (path, content) :: d.files.filter fun file => file.1 != path }

/-- Directories as the states of a file system. -/
def fileSystem : FileSystem Directory where
  size := size
  read := read
  map := read
  write d written content :=
    match d.write written content with
    | .ok d => (.ok (), d)
    | .error fault => (.error fault, d)

end Directory
end CompletionSnippets
