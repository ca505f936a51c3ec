import RecordBuffer.Buffer.Sort
import RecordBuffer.Limits

/-!
# Command lines

Arguments are read from left to right: bundles of short flags, long names,
values attached or in the next argument, and files, in any order. The first
failure counts. A value in an argument of its own is only looked at when the
next known argument has been met, or at the end.
-/

namespace RecordBuffer.CommandLine

/-- A switch without a value. -/
inductive Flag where
  | reverse
  | numeric
  | foldCase
  | unique
  | stable
  | zeroTerminated
  | mapped
  deriving DecidableEq, Repr, Inhabited

/-- A switch with a value. -/
inductive Parameter where
  | output
  | bufferSize
  | maxSize
  | chunkSize
  deriving DecidableEq, Repr, Inhabited

/-- What a name on the command line stands for. -/
inductive Switch where
  | flag (flag : Flag)
  | parameter (parameter : Parameter)
  | help
  deriving DecidableEq, Repr, Inhabited

/-- The switch that a letter stands for. -/
def Switch.ofLetter? : Char → Option Switch
  | 'r' => some (.flag .reverse)
  | 'n' => some (.flag .numeric)
  | 'f' => some (.flag .foldCase)
  | 'u' => some (.flag .unique)
  | 's' => some (.flag .stable)
  | 'o' => some (.parameter .output)
  | 'z' => some (.flag .zeroTerminated)
  | 'h' => some .help
  | _ => none

/-- The switch that a long name stands for. Long names are not abbreviated. -/
def Switch.ofName? : String → Option Switch
  | "reverse" => some (.flag .reverse)
  | "numeric-sort" => some (.flag .numeric)
  | "ignore-case" => some (.flag .foldCase)
  | "unique" => some (.flag .unique)
  | "stable" => some (.flag .stable)
  | "output" => some (.parameter .output)
  | "zero-terminated" => some (.flag .zeroTerminated)
  | "mmap" => some (.flag .mapped)
  | "buffer-size" => some (.parameter .bufferSize)
  | "max-size" => some (.parameter .maxSize)
  | "chunk-size" => some (.parameter .chunkSize)
  | "help" => some .help
  | _ => none

/-- Why a command line is not carried out. -/
inductive UsageError where
  | unknownArgument
  | repeatedArgument
  | missingValue
  | invalidValue
  | unexpectedValue
  /-- Help was asked for. -/
  | helpRequested
  deriving DecidableEq, Repr, Inhabited

/-- The text that reports a usage error. -/
def UsageError.message : UsageError → String
  | unknownArgument => "unexpected argument"
  | repeatedArgument => "an argument cannot be used multiple times"
  | missingValue => "a value is required but none was supplied"
  | invalidValue => "invalid value: not a size"
  | unexpectedValue => "unexpected value for a flag"
  | helpRequested => "help requested"

/-- What a command line asks for. -/
structure Options where
  reverse : Bool
  numeric : Bool
  foldCase : Bool
  unique : Bool
  stable : Bool
  zeroTerminated : Bool
  mapped : Bool
  output : Option String
  bufferSize : Nat
  maxSize : Nat
  chunkSize : Nat
  files : List String
  deriving DecidableEq, Repr, Inhabited

/-- A size in decimal digits, of which there is at least one, behind an optional plus. -/
def parseSize? (text : String) : Option Nat :=
  let digits := match text.toList with
    | '+' :: rest => rest
    | all => all
  if digits.isEmpty ∨ ¬ digits.all Char.isDigit then none
  else
    let size := digits.foldl (fun size digit => size * 10 + (digit.toNat - '0'.toNat)) 0
    if size ≤ Limits.maxSize then some size else none

/-- What was understood so far. -/
structure Progress where
  flags : List Flag := []
  output : Option String := none
  bufferSize : Option Nat := none
  maxSize : Option Nat := none
  chunkSize : Option Nat := none
  files : List String := []
  /-- A parameter that was named, with its value once that has been met. -/
  pending : Option (Parameter × Option String) := none
  deriving Repr, Inhabited

namespace Progress

/-- Give a parameter its only value. -/
def assign (progress : Progress) (parameter : Parameter) (value : String) :
    Except UsageError Progress := do
  let size (old : Option Nat) : Except UsageError (Option Nat) :=
    if old.isSome then .error .repeatedArgument
    else
      match parseSize? value with
      | none => .error .invalidValue
      | some size => .ok (some size)
  match parameter with
  | .output =>
      if progress.output.isSome then throw .repeatedArgument
      return { progress with output := some value }
  | .bufferSize => return { progress with bufferSize := ← size progress.bufferSize }
  | .maxSize => return { progress with maxSize := ← size progress.maxSize }
  | .chunkSize => return { progress with chunkSize := ← size progress.chunkSize }

/-- Look at the pending parameter. -/
def settle (progress : Progress) : Except UsageError Progress :=
  match progress.pending with
  | none => .ok progress
  | some (_, none) => .error .missingValue
  | some (parameter, some value) => { progress with pending := none }.assign parameter value

/-- Raise a flag for the first time. -/
def raise (progress : Progress) (flag : Flag) : Except UsageError Progress := do
  let progress ← progress.settle
  if flag ∈ progress.flags then throw .repeatedArgument
  return { progress with flags := flag :: progress.flags }

/-- Meet a parameter with its value attached, or one whose value is to come. -/
def name (progress : Progress) (parameter : Parameter) (attached : Option String) :
    Except UsageError Progress := do
  let progress ← progress.settle
  match attached with
  | some value => progress.assign parameter value
  | none => return { progress with pending := some (parameter, none) }

/-- Meet the request for help. -/
def help (progress : Progress) : Except UsageError Progress := do
  let _ ← progress.settle
  throw .helpRequested

/-- Meet a file. -/
def file (progress : Progress) (path : String) : Except UsageError Progress := do
  let progress ← progress.settle
  return { progress with files := progress.files ++ [path] }

/-- Meet a bundle of letters. What follows the letter of a parameter is its value, without an
equals sign in front. -/
def letters (progress : Progress) : List Char → Except UsageError Progress
  | [] => .ok progress
  | letter :: rest =>
      match Switch.ofLetter? letter with
      | none => .error .unknownArgument
      | some .help => progress.help
      | some (.flag flag) => do (← progress.raise flag).letters rest
      | some (.parameter parameter) =>
          progress.name parameter (match rest with
            | [] => none
            | '=' :: value => some (String.ofList value)
            | value => some (String.ofList value))

/-- Meet a long name, with its value attached behind an equals sign or not. -/
def long (progress : Progress) (text : List Char) : Except UsageError Progress :=
  let attached := match text.dropWhile (· ≠ '=') with
    | [] => none
    | _ :: value => some (String.ofList value)
  match Switch.ofName? (String.ofList (text.takeWhile (· ≠ '='))), attached with
  | none, _ => .error .unknownArgument
  | some (.parameter parameter), attached => progress.name parameter attached
  | some (.flag _), some _ | some .help, some _ => .error .unexpectedValue
  | some (.flag flag), none => progress.raise flag
  | some .help, none => progress.help

/-- Meet an argument that is no name: the value of the pending parameter, or else a file. -/
def plain (progress : Progress) (text : String) : Except UsageError Progress :=
  match progress.pending with
  | some (parameter, none) => .ok { progress with pending := some (parameter, some text) }
  | _ => progress.file text

/-- Read arguments. After two dashes alone, all that follow are files. -/
def read (progress : Progress) : List String → Except UsageError Progress
  | [] => progress.settle
  | argument :: rest =>
      match argument.toList with
      | ['-', '-'] => do (← rest.foldlM file progress).settle
      | '-' :: '-' :: text => do (← progress.long text).read rest
      | '-' :: letter :: more => do (← progress.letters (letter :: more)).read rest
      | _ => do (← progress.plain argument).read rest

/-- What was asked for, with defaults for what was not mentioned. -/
def options (progress : Progress) : Options where
  reverse := .reverse ∈ progress.flags
  numeric := .numeric ∈ progress.flags
  foldCase := .foldCase ∈ progress.flags
  unique := .unique ∈ progress.flags
  stable := .stable ∈ progress.flags
  zeroTerminated := .zeroTerminated ∈ progress.flags
  mapped := .mapped ∈ progress.flags
  output := progress.output
  bufferSize := progress.bufferSize.getD Buffer.defaultInitialSize
  maxSize := progress.maxSize.getD 0
  chunkSize := progress.chunkSize.getD Buffer.defaultChunkSize
  files := progress.files

end Progress

/-- Read a command line. -/
def parse (arguments : List String) : Except UsageError Options :=
  (Progress.read {} arguments).map Progress.options

/-- The text that describes the command line. -/
def helpText : String :=
  "Sort records in place inside a record buffer

Usage: recsort [OPTIONS] [FILE]...

Arguments:
  [FILE]...  Input files

Options:
  -r, --reverse              Reverse the result of comparisons
  -n, --numeric-sort         Compare according to numerical value
  -f, --ignore-case          Fold lower case to upper case characters
  -u, --unique               Output only the first of an equal run
  -s, --stable               Stabilize sort by disabling last-resort comparison
  -o, --output <FILE>        Write result to FILE instead of stdout
  -z, --zero-terminated      Records are NUL terminated, not newline terminated
      --mmap                 Stage records in a memory-mapped temp file instead of the heap
      --buffer-size <BYTES>  Initial buffer size in bytes [default: 64]
      --max-size <BYTES>     Maximum buffer size in bytes (0 for the default) [default: 0]
      --chunk-size <N>       Records per chunk in the chunk-sort phase [default: 1024]
  -h, --help                 Print help
"

end RecordBuffer.CommandLine
