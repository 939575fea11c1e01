import CompletionSnippets.FileSystem
import CompletionSnippets.Notice

/-!
# Machines

A run works through what a machine lets it do, in any monad: it reads its input, writes files,
prints, complains, leaves notices and looks at the clock. Over the states of a file system that
is a computation on scenes, in which all that a run does to its machine can be seen.
-/
namespace CompletionSnippets

/-- What a run can do. -/
structure Machine (m : Type → Type) where
  stdin : m (Except FileFault ByteArray)
  size : Text → m (Except FileFault Nat)
  read : Text → m (Except FileFault ByteArray)
  map : Text → m (Except FileFault ByteArray)
  write : Text → ByteArray → m (Except FileFault Unit)
  print : Text → m Unit
  complain : Text → m Unit
  note : Notice → m Unit
  /-- The time in milliseconds. -/
  clock : m Nat

namespace Machine

variable {m : Type → Type} [Monad m]

/-- The size from which on files are mapped to memory. -/
def mapThreshold : Nat := 64 * 1024

/-- The bytes of a file. A file that is said to be empty is not even opened. -/
def contents (machine : Machine m) (path : Text) : m (Except FileFault ByteArray) := do
  match ← machine.size path with
  | .error fault => return .error fault
  | .ok size =>
    if size = 0 then return .ok .empty
    else if mapThreshold ≤ size then machine.map path
    else machine.read path

end Machine

/-- A machine at work: its files and what it was given, and what came of it so far. -/
structure Scene (σ : Type) where
  files : σ
  stdin : Except FileFault ByteArray
  /-- What the clock shows, by the number of times it was looked at before. -/
  times : Nat → Nat
  looks : Nat := 0
  printed : Text := []
  complaints : Text := []
  notices : List Notice := []

namespace FileSystem

/-- The machine with these files. -/
def machine {σ : Type} (fs : FileSystem σ) : Machine (StateM (Scene σ)) where
  stdin scene := (scene.stdin, scene)
  size path scene := (fs.size scene.files path, scene)
  read path scene := (fs.read scene.files path, scene)
  map path scene := (fs.map scene.files path, scene)
  write path bytes scene :=
    let (result, files) := fs.write scene.files path bytes
    (result, { scene with files })
  print t scene := ((), { scene with printed := scene.printed ++ t })
  complain t scene := ((), { scene with complaints := scene.complaints ++ t })
  note n scene := ((), { scene with notices := scene.notices ++ [n] })
  clock scene := (scene.times scene.looks, { scene with looks := scene.looks + 1 })

end FileSystem
end CompletionSnippets
