import ScriptHost.Files.Operations
import ScriptHost.Native
import ScriptHost.Config

/-!
# The platform

What surrounds the runtimes of a host: the clock, the files, the environment variables, the output
streams and the facts about the machine.

## Main definitions

* `Platform`: the surroundings of a host.
* `Platform.workingDirectory`, `Platform.homeDirectory`, `Platform.temporaryDirectory`: directories
  by their paths.
* `Platform.print`: writing a line to a stream.
-/

namespace ScriptHost

/-- A processor. -/
structure Processor where
  /-- The model. -/
  model : String
  /-- The clock rate in megahertz. -/
  speed : Nat

/-- Facts about the machine. -/
structure Machine where
  /-- The release of the operating system. -/
  release : String := "unknown"
  /-- The name of the machine. -/
  hostname : String := "localhost"
  /-- Seconds since the machine was started. -/
  uptime : Nat := 1
  /-- Bytes of memory. -/
  totalMemory : Nat := Nat.pow 2 30
  /-- Bytes of memory that are free. -/
  freeMemory : Nat := Nat.pow 2 29
  /-- The processors. -/
  processors : List Processor := [⟨"processor", 1000⟩]
  /-- The number of the process. -/
  processId : Nat := 1

/-- The surroundings of a host. -/
structure Platform where
  /-- The time by the clock. -/
  clock : Time := 0
  /-- The files. -/
  files : FileTree := .empty
  /-- The working directory. -/
  cwd : Place := []
  /-- The environment variables. -/
  environment : Table String String := .empty
  /-- What was written to standard output. -/
  output : String := ""
  /-- What was written to standard error. -/
  errors : String := ""
  /-- The machine. -/
  machine : Machine := {}

namespace Platform

instance : Inhabited Platform := ⟨{}⟩

/-- The version of the runtime. -/
def version : String := "0.1.0"

/-- The name of the platform. -/
def name : String := "linux"

/-- The name of the processor architecture. -/
def architecture : String := "x64"

/-- The name of the operating system. -/
def systemType : String := "Linux"

/-- The order of bytes in a word. -/
def endianness : String := "LE"

/-- The end of a line. -/
def lineEnd : String := "\n"

/-- The path of the working directory, while there is such a directory. -/
def workingDirectory (p : Platform) : Except IoFailure String :=
  if p.files.isDirectory p.cwd then .ok (Place.path p.cwd) else .error (.system Errno.notFound)

/-- The path of the working directory as paths are resolved against it: the root if it is gone. -/
def resolutionBase (p : Platform) : String := p.workingDirectory.toOption.getD Path.separator

/-- The home directory of the user: `HOME` if it says anything. -/
def homeDirectory (p : Platform) : String :=
  match p.environment.get? "HOME" with
  | some home => if home.isEmpty then "/root" else home
  | none => "/root"

/-- The directory for temporary files: `TMPDIR` without one separator at its end, unless it is
nothing else. -/
def temporaryDirectory (p : Platform) : String :=
  let dir := ((p.environment.get? "TMPDIR").getD "/tmp").toList
  String.ofList (
    if (dir.getLast? == some '/' || dir.getLast? == some '\\') && dir.length ≠ 1 then dir.dropLast
    else dir)

/-- Writes a text and a line end to a stream. -/
def print (p : Platform) (stream : Stream) (line : String) : Platform :=
  match stream with
  | .output => { p with output := p.output ++ line ++ "\n" }
  | .error => { p with errors := p.errors ++ line ++ "\n" }

end Platform

end ScriptHost
