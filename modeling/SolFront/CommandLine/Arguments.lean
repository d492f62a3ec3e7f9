import SolFront.CommandLine.Switch
import SolFront.Text.Split

/-!
# Arguments of the command line

Arguments are read from left to right into words: flags, settings with or without their values, and
input files. A request for help or for the version, and a switch that nobody knows, ends the
reading at once. All other faults are found when everything has been read.

A setting takes its value from behind an equals sign or, in the short form, from the rest of its
argument, and otherwise from the next argument unless that is a switch. Behind `--` there are only
input files.
-/

namespace SolFront.CommandLine

/-! ## Words -/

/-- Something that the command line says. -/
inductive Word where
  | flag (f : Flag)
  | setting (s : Setting) (value : Option String)
  | file (path : String)
  deriving DecidableEq, Inhabited, Repr

/-- The switch that a word is about. -/
def Word.switch? : Word → Option Switch
  | .flag f => some (.flag f)
  | .setting s _ => some (.setting s)
  | .file _ => none

/-- How the reading of arguments ends. -/
inductive Ending where
  /-- Everything has been read. The last setting may still lack its value. -/
  | finished (awaiting : Option Setting)
  | shortHelp
  | longHelp
  | version
  | unknown (name : String)
  deriving DecidableEq, Inhabited, Repr

/-- The words read and how the reading ends. -/
structure Reading where
  words : List Word
  ending : Ending
  deriving DecidableEq, Inhabited, Repr

/-- The reading with words before it. -/
def Reading.after (words : List Word) (r : Reading) : Reading :=
  { r with words := words ++ r.words }

/-- What comes after an argument. -/
inductive Next where
  | goOn
  | await (s : Setting)
  | stop (ending : Ending)
  deriving DecidableEq, Inhabited, Repr

/-! ## Reading -/

/-- The value without the equals signs before it. -/
def valueOf (cs : List Char) : Option String :=
  some (String.ofList (cs.dropWhile (· == '=')))

/-- Reads a switch by its long name. A flag takes no value, and one given to it is ignored. -/
def readLong (body : List Char) : List Word × Next :=
  let name := String.ofList (body.takeWhile (· != '='))
  let value := body.dropWhile (· != '=')
  if name = "help" then ([], .stop .longHelp)
  else if name = "version" then ([], .stop .version)
  else match Switch.all.find? (·.long == name) with
    | some (.setting s) =>
      if value = [] then ([], .await s) else ([.setting s (valueOf value)], .goOn)
    | some (.flag f) => ([.flag f], .goOn)
    | none => ([], .stop (.unknown ("--" ++ name)))

/-- Reads switches by their short names. -/
def readShort : List Char → List Word × Next
  | [] => ([], .goOn)
  | c :: cs =>
    if c = 'h' then ([], .stop .shortHelp)
    else if c = 'V' then ([], .stop .version)
    else match Switch.all.find? (·.short? == some c) with
      | some (.setting s) => if cs = [] then ([], .await s) else ([.setting s (valueOf cs)], .goOn)
      | some (.flag f) => (.flag f :: (readShort cs).1, (readShort cs).2)
      | none => ([], .stop (.unknown (String.ofList ['-', c])))

/-- Reads a switch. -/
def readSwitch (arg : List Char) : List Word × Next :=
  if Text.startsWith ['-', '-'] arg then readLong (arg.dropWhile (· == '-'))
  else readShort (arg.dropWhile (· == '-'))

/-- Whether the argument is a switch. A single hyphen is a file. -/
def isSwitch (arg : String) : Bool :=
  Text.startsWith ['-'] arg.toList && arg != "-"

/-- The word for a setting that has got no value. -/
def withoutValue (awaiting : Option Setting) : List Word :=
  (awaiting.map fun s => .setting s none).toList

/-- The word for an argument that is no switch. -/
def plainWord (awaiting : Option Setting) (arg : String) : Word :=
  match awaiting with
  | some s => .setting s (some arg)
  | none => .file arg

/-- Reads arguments. `awaiting` is the setting whose value may come next. -/
def read (awaiting : Option Setting) : List String → Reading
  | [] => ⟨withoutValue awaiting, .finished awaiting⟩
  | arg :: args =>
    if !isSwitch arg then (read none args).after [plainWord awaiting arg]
    else if arg = "--" then ⟨withoutValue awaiting ++ args.map .file, .finished awaiting⟩
    else
      let (words, next) := readSwitch arg.toList
      let words := withoutValue awaiting ++ words
      match next with
      | .goOn => (read none args).after words
      | .await s => (read (some s) args).after words
      | .stop ending => ⟨words, ending⟩

/-! ## What words say -/

/-- Whether the flag is set. -/
def hasFlag (words : List Word) (f : Flag) : Bool :=
  words.contains (.flag f)

/-- The values of a setting in order. -/
def given (words : List Word) (s : Setting) : List String :=
  words.filterMap fun
    | .setting t value => if t = s then value else none
    | _ => none

/-- The values of a setting in order, or its default if there are none. -/
def values (words : List Word) (s : Setting) : List String :=
  if given words s = [] then s.default?.toList else given words s

/-- The input files in order. -/
def files (words : List Word) : List String :=
  words.filterMap fun
    | .file path => some path
    | _ => none

/-- How often a switch occurs. -/
def occurrences (words : List Word) (s : Switch) : Nat :=
  words.countP fun word => word.switch? == some s

/-- The switches that occur. -/
def used (words : List Word) : List Switch :=
  Switch.all.filter fun s => occurrences words s != 0

/-- The switches that occur or have a default. -/
def usedOrDefault (words : List Word) : List Switch :=
  Switch.all.filter fun s => occurrences words s != 0 || s.hasDefault

/-! ## Numbers of runs -/

/-- Why a text is no number of runs. -/
inductive RunsFailure where
  | empty
  | badDigit
  | tooLarge
  deriving DecidableEq, Inhabited, Repr

/-- The failure in words. -/
def RunsFailure.message : RunsFailure → String
  | empty => "cannot parse integer from empty string"
  | badDigit => "invalid digit found in string"
  | tooLarge => "number too large to fit in target type"

/-- The number that goes on with the digits. The first fault counts. -/
def continueRuns (value : Nat) : List Char → Except RunsFailure UInt64
  | [] => .ok (.ofNat value)
  | c :: cs =>
    if !c.isDigit then .error .badDigit
    else
      let value := 10 * value + (c.toNat - '0'.toNat)
      if UInt64.size ≤ value then .error .tooLarge else continueRuns value cs

/-- Reads a number of runs. A plus sign may stand before the digits. -/
def readRuns (text : String) : Except RunsFailure UInt64 :=
  match text.toList with
  | [] => .error .empty
  | ['+'] => .error .badDigit
  | '+' :: cs => continueRuns 0 cs
  | cs => continueRuns 0 cs

/-! ## Arguments -/

/-- What the program is asked to do. -/
structure Arguments where
  inputFiles : List String
  basePath : Option String
  includePaths : List String
  outputDirectory : String
  bytecode : Bool
  abi : Bool
  optimize : Bool
  optimizeRuns : UInt64
  standardJson : Bool
  prettyJson : Bool
  verbose : Bool
  /-- The compiler to run. -/
  solc : Option String
  deriving DecidableEq, Inhabited, Repr

/-- What is wrong with a command line, and the switches to show in the usage. -/
inductive Refusal where
  | unknown (name : String) (used : List Switch)
  | noValue (s : Setting) (used : List Switch)
  | badRuns (e : RunsFailure)
  | repeated (s : Switch) (used : List Switch)
  deriving DecidableEq, Inhabited, Repr

/-- The fault in one sentence. -/
def Refusal.brief : Refusal → String
  | unknown name _ =>
    "error: Found argument '" ++ name ++ "' which wasn't expected, or isn't valid in this context"
  | noValue s _ =>
    "error: The argument '" ++ (Switch.setting s).shown ++
      "' requires a value but none was supplied"
  | badRuns e =>
    "error: Invalid value for '" ++ (Switch.setting .optimizeRuns).shown ++ "': " ++ e.message
  | repeated s _ =>
    "error: The argument '" ++ s.shown ++
      "' was provided more than once, but cannot be used multiple times"

/-- The fault with the usage of the program. -/
def Refusal.message : Refusal → String
  | badRuns e => (badRuns e).brief
  | unknown name used => withUsage (unknown name used).brief used
  | noValue s used => withUsage (noValue s used).brief used
  | repeated s used => withUsage (repeated s used).brief used
where
  /-- A fault with the usage that shows the given switches. -/
  withUsage (fault : String) (used : List Switch) : String :=
    fault ++ "\n\nUSAGE:\n    " ++ usageOf used ++ "\n\nFor more information try --help"

/-- What a command line asks for. -/
inductive Wish where
  | run (arguments : Arguments)
  | shortHelp
  | longHelp
  | version
  deriving DecidableEq, Inhabited, Repr

/-- The number of runs. Every number that is given must be one. -/
def runsOf (words : List Word) : Except Refusal UInt64 :=
  match (values words .optimizeRuns).mapM readRuns with
  | .error e => .error (.badRuns e)
  | .ok runs => .ok (runs.headD 0)

/-- The arguments that the words stand for. -/
def collect (words : List Word) (runs : UInt64) : Arguments where
  inputFiles := files words
  basePath := (values words .basePath).head?
  includePaths := values words .includePath
  outputDirectory := (values words .outputDirectory).headD ""
  bytecode := hasFlag words .bytecode
  abi := hasFlag words .abi
  optimize := hasFlag words .optimize
  optimizeRuns := runs
  standardJson := hasFlag words .standardJson
  prettyJson := hasFlag words .prettyJson
  verbose := hasFlag words .verbose
  solc := (values words .solc).head?

/-- The first switch that occurs more often than it may. -/
def firstRepeated? (words : List Word) : Option Switch :=
  Switch.all.find? fun s => !s.repeatable && 1 < occurrences words s

/-- The arguments, if there is no fault in the words. The last setting must have some value, though
perhaps one that is given elsewhere or a default. -/
def check (words : List Word) (awaiting : Option Setting) : Except Refusal Arguments :=
  match awaiting.filter fun s => values words s = [] with
  | some s => .error (.noValue s (usedOrDefault words))
  | none =>
    match runsOf words with
    | .error e => .error e
    | .ok runs =>
      match firstRepeated? words with
      | some s => .error (.repeated s (usedOrDefault words))
      | none => .ok (collect words runs)

/-- Reads a command line. -/
def parse (args : List String) : Except Refusal Wish :=
  let reading := read none args
  match reading.ending with
  | .shortHelp => .ok .shortHelp
  | .longHelp => .ok .longHelp
  | .version => .ok .version
  | .unknown name => .error (.unknown name (used reading.words))
  | .finished awaiting => (check reading.words awaiting).map .run

end SolFront.CommandLine
