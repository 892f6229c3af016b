import ScriptHost.Timer.Scheduler

/-!
# Native functions

The functions that the library gives to scripts, by family. A native function is named by a value
of `Native`; what it does is defined family by family in the modules below `ScriptHost.Native`.

## Main definitions

* `Native`: the native functions.
* `Stream`: the two output streams.
* `Export`: a function with the name and the number of parameters that scripts see.
-/

namespace ScriptHost

/-- An output stream. -/
inductive Stream where
  /-- Standard output. -/
  | output
  /-- Standard error. -/
  | error
deriving DecidableEq

/-- The functions on timers. -/
inductive TimerFunction where
  /-- Starts a timer of a kind. -/
  | set (kind : TimerKind)
  /-- Cancels a timer of a kind. -/
  | clear (kind : TimerKind)
deriving DecidableEq

/-- The functions on modules. -/
inductive ModuleFunction where
  /-- Loads a module. -/
  | require
  /-- Resolves a specifier without loading. -/
  | resolve
deriving DecidableEq

/-- The functions of the process object. -/
inductive ProcessFunction where
  /-- Queues a callback before the next timer. -/
  | nextTick
  /-- Records an exit code and stops the loop. -/
  | exit
  /-- The working directory. -/
  | cwd
deriving DecidableEq

/-- The functions of the buffer class and of buffers. -/
inductive BufferFunction where
  /-- A buffer of a text or of numbers. -/
  | ofValue
  /-- A buffer of a size. -/
  | alloc
  /-- The length in bytes. -/
  | byteLength
  /-- Whether a value is a buffer. -/
  | isBuffer
  /-- Buffers put together. -/
  | concat
  /-- The text of a buffer. -/
  | text
  /-- A part of a buffer. -/
  | slice
  /-- Whether two buffers have the same bytes. -/
  | equals
deriving DecidableEq

/-- The functions on files. -/
inductive FileFunction where
  /-- Whether a path leads to an entry. -/
  | doesExist
  /-- Reads a file. -/
  | read
  /-- Writes a file. -/
  | write
  /-- Writes at the end of a file. -/
  | append
  /-- Makes a directory. -/
  | makeDirectory
  /-- Lists a directory. -/
  | list
  /-- Removes a file. -/
  | unlink
  /-- Removes a directory. -/
  | removeDirectory
  /-- Renames an entry. -/
  | rename
  /-- The path free of links. -/
  | realPath
deriving DecidableEq

/-- The functions on the operating system. -/
inductive SystemFunction where
  /-- The name of the platform. -/
  | platform
  /-- The name of the processor architecture. -/
  | architecture
  /-- The name of the operating system. -/
  | type
  /-- The release of the operating system. -/
  | release
  /-- The name of the machine. -/
  | hostname
  /-- The home directory. -/
  | homedir
  /-- The directory for temporary files. -/
  | tmpdir
  /-- Seconds since the machine was started. -/
  | uptime
  /-- Bytes of memory. -/
  | totalmem
  /-- Bytes of memory that are free. -/
  | freemem
  /-- The processors. -/
  | cpus
  /-- The order of bytes in a word. -/
  | endianness
deriving DecidableEq

/-- The functions on paths. -/
inductive PathFunction where
  /-- The last component. -/
  | basename
  /-- All but the last component. -/
  | dirname
  /-- The ending. -/
  | extname
  /-- Whether a path starts at the root. -/
  | isAbsolute
  /-- Parts put together. -/
  | join
  /-- The canonical form. -/
  | normalize
  /-- Where paths lead. -/
  | resolve
  /-- The path from one to another. -/
  | relative
deriving DecidableEq

/-- The functions on values. -/
inductive UtilFunction where
  /-- Lays out a template. -/
  | format
  /-- The inspected form of a value. -/
  | inspect
  /-- Whether a value can be called. -/
  | isFunction
  /-- Whether a value is a number. -/
  | isNumber
  /-- Whether a value is a text. -/
  | isString
  /-- Whether a value is undefined. -/
  | isUndefined
deriving DecidableEq

/-- A native function. -/
inductive Native where
  /-- A function on timers. -/
  | timer (f : TimerFunction)
  /-- A function on modules. -/
  | module (f : ModuleFunction)
  /-- A function of the process object. -/
  | process (f : ProcessFunction)
  /-- Prints a line. -/
  | print (stream : Stream)
  /-- A function on buffers. -/
  | buffer (f : BufferFunction)
  /-- A function on files. -/
  | file (f : FileFunction)
  /-- A function on the operating system. -/
  | system (f : SystemFunction)
  /-- A function on paths. -/
  | path (f : PathFunction)
  /-- A function on values. -/
  | util (f : UtilFunction)
deriving DecidableEq

/-- A native function with the name and the number of parameters that scripts see. -/
structure Export where
  /-- The name of the property and of the function. -/
  name : String
  /-- The number of parameters. -/
  arity : Nat
  /-- The function. -/
  native : Native

namespace Export

/-- The functions on timers, on the global object. -/
def timers : List Export :=
  [⟨"setTimeout", 2, .timer (.set .timeout)⟩, ⟨"clearTimeout", 1, .timer (.clear .timeout)⟩,
   ⟨"setInterval", 2, .timer (.set .interval)⟩, ⟨"clearInterval", 1, .timer (.clear .interval)⟩]

/-- The function that loads modules. -/
def require : Export := ⟨"require", 2, .module .require⟩

/-- The function that resolves specifiers, on the one that loads modules. -/
def resolve : Export := ⟨"resolve", 2, .module .resolve⟩

/-- The functions of the process object. -/
def process : List Export :=
  [⟨"nextTick", 1, .process .nextTick⟩, ⟨"exit", 1, .process .exit⟩, ⟨"cwd", 0, .process .cwd⟩]

/-- The functions of the console. -/
def console : List Export :=
  [⟨"log", 0, .print .output⟩, ⟨"info", 0, .print .output⟩, ⟨"debug", 0, .print .output⟩,
   ⟨"warn", 0, .print .error⟩, ⟨"error", 0, .print .error⟩]

/-- The functions of the buffer class. -/
def bufferClass : List Export :=
  [⟨"from", 2, .buffer .ofValue⟩, ⟨"alloc", 2, .buffer .alloc⟩,
   ⟨"byteLength", 2, .buffer .byteLength⟩, ⟨"isBuffer", 1, .buffer .isBuffer⟩,
   ⟨"concat", 1, .buffer .concat⟩]

/-- The functions that every buffer has. -/
def buffer : List Export :=
  [⟨"toString", 1, .buffer .text⟩, ⟨"slice", 2, .buffer .slice⟩, ⟨"equals", 1, .buffer .equals⟩]

/-- The functions of the module `fs`. -/
def files : List Export :=
  [⟨"existsSync", 1, .file .doesExist⟩, ⟨"readFileSync", 2, .file .read⟩,
   ⟨"writeFileSync", 2, .file .write⟩, ⟨"appendFileSync", 2, .file .append⟩,
   ⟨"mkdirSync", 2, .file .makeDirectory⟩, ⟨"readdirSync", 1, .file .list⟩,
   ⟨"unlinkSync", 1, .file .unlink⟩, ⟨"rmdirSync", 2, .file .removeDirectory⟩,
   ⟨"renameSync", 2, .file .rename⟩, ⟨"realpathSync", 1, .file .realPath⟩]

/-- The functions of the module `os`. -/
def system : List Export :=
  [⟨"platform", 0, .system .platform⟩, ⟨"arch", 0, .system .architecture⟩,
   ⟨"type", 0, .system .type⟩, ⟨"release", 0, .system .release⟩,
   ⟨"hostname", 0, .system .hostname⟩, ⟨"homedir", 0, .system .homedir⟩,
   ⟨"tmpdir", 0, .system .tmpdir⟩, ⟨"uptime", 0, .system .uptime⟩,
   ⟨"totalmem", 0, .system .totalmem⟩, ⟨"freemem", 0, .system .freemem⟩,
   ⟨"cpus", 0, .system .cpus⟩, ⟨"endianness", 0, .system .endianness⟩]

/-- The functions of the module `path`. -/
def paths : List Export :=
  [⟨"basename", 2, .path .basename⟩, ⟨"dirname", 1, .path .dirname⟩,
   ⟨"extname", 1, .path .extname⟩, ⟨"isAbsolute", 1, .path .isAbsolute⟩,
   ⟨"join", 0, .path .join⟩, ⟨"normalize", 1, .path .normalize⟩,
   ⟨"resolve", 0, .path .resolve⟩, ⟨"relative", 2, .path .relative⟩]

/-- The functions of the module `util`. -/
def util : List Export :=
  [⟨"format", 1, .util .format⟩, ⟨"inspect", 1, .util .inspect⟩,
   ⟨"isFunction", 1, .util .isFunction⟩, ⟨"isNumber", 1, .util .isNumber⟩,
   ⟨"isString", 1, .util .isString⟩, ⟨"isUndefined", 1, .util .isUndefined⟩]

end Export

end ScriptHost
