import CompletionSnippets.Text

/-!
# File systems

A run asks for files by paths, as they are written, and may get a fault for an answer. What is
relied on is said of the files behind the paths, of which several may lead to the same one:
whatever is read of a file is what the file holds, what is written goes to the file that the
path leads to, and no other file is touched, not even by an attempt that fails. A path that
leads to a device or to a directory leads to no file.
-/
namespace CompletionSnippets

/-- Why a file cannot be read or written, in the words of the system. -/
structure FileFault where
  words : Text
deriving DecidableEq, Repr

/-- What can be done with the files of a state. -/
structure FileSystem (σ : Type) where
  /-- The size in bytes that the system tells. -/
  size : σ → Text → Except FileFault Nat
  read : σ → Text → Except FileFault ByteArray
  /-- The bytes as they are mapped to memory. -/
  map : σ → Text → Except FileFault ByteArray
  write : σ → Text → ByteArray → Except FileFault Unit × σ

/-- The files behind the paths, and what they hold. -/
structure FileView (σ : Type) where
  File : Type
  /-- The file that a path leads to, whether it is there or would be made. -/
  leads : σ → Text → Option File
  content : σ → File → Option ByteArray

namespace FileSystem

variable {σ : Type}

/-- The file system does to the files what can be relied on. -/
structure Lawful (fs : FileSystem σ) (view : FileView σ) : Prop where
  size_eq : ∀ {s path file size}, view.leads s path = some file → fs.size s path = .ok size →
    ∃ bytes, view.content s file = some bytes ∧ bytes.size = size
  read_eq : ∀ {s path file bytes}, view.leads s path = some file → fs.read s path = .ok bytes →
    view.content s file = some bytes
  map_eq : ∀ {s path file bytes}, view.leads s path = some file → fs.map s path = .ok bytes →
    view.content s file = some bytes
  write_holds : ∀ {s s' path file bytes}, view.leads s path = some file →
    fs.write s path bytes = (.ok (), s') →
    view.leads s' path = some file ∧ view.content s' file = some bytes
  write_other : ∀ {s s' path file bytes result}, view.leads s path ≠ some file →
    fs.write s path bytes = (result, s') → view.content s' file = view.content s file

end FileSystem
end CompletionSnippets
