import CompletionSnippets.BuiltIn

/-!
# The program

Runs on the machine that the process is on.
-/
open CompletionSnippets CommandLine

/-- The number of an error of the operating system, which may come with its sign turned. -/
def errorNumber (code : UInt32) : Nat :=
  (if code.toNat < 0x80000000 then code else 0 - code).toNat

def faultOf : IO.Error → FileFault
  | .noFileOrDirectory _ code details | .inappropriateType _ code details
  | .invalidArgument _ code details | .permissionDenied _ code details
  | .resourceExhausted _ code details =>
    ⟨s!"{details.capitalize} (os error {errorNumber code})".toList⟩
  | e => ⟨(toString e).toList⟩

def attempt {α : Type} (action : IO α) : IO (Except FileFault α) := do
  try return .ok (← action) catch e => return .error (faultOf e)

partial def readAll (stream : IO.FS.Stream) (read : ByteArray) : IO ByteArray := do
  let more ← stream.read 65536
  if more.isEmpty then return read else readAll stream (read ++ more)

def severityLabel : Severity → String
  | .debug => "DEBUG"
  | .warning => "WARN "
  | .error => "ERROR"

/-- The machine that the process is on. A file's size is that of the bytes in it. -/
def processMachine : Machine IO where
  stdin := attempt do readAll (← IO.getStdin) .empty
  size path := attempt do return (← IO.FS.readBinFile (String.ofList path)).size
  read path := attempt (IO.FS.readBinFile (String.ofList path))
  map path := attempt (IO.FS.readBinFile (String.ofList path))
  write path bytes := attempt (IO.FS.writeBinFile (String.ofList path) bytes)
  print t := IO.print (String.ofList t)
  complain t := IO.eprint (String.ofList t)
  note n := IO.eprintln s!"[{severityLabel n.severity}] {String.ofList n.message}"
  clock := IO.monoMsNow

def main (arguments : List String) : IO UInt32 := do
  return .ofNat (← run processMachine Libraries.builtIn (arguments.map String.toList))
