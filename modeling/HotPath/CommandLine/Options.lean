import HotPath.Text.Numeral
import HotPath.Workload.Run

/-!
# Options of the command line

The options that the program knows, their names, and how their values are
read.
-/

namespace HotPath

/-- What was asked for on the command line. -/
structure Options where
  workload : Workload := .counter
  calls : Option UInt32 := none
  iterations : Option UInt32 := none
  threshold : UInt64 := 1000
  workers : Option UInt64 := none
  noOptimize : Bool := false
  printBytecode : Bool := false
  json : Bool := false
  logLevel : Option String := none
deriving DecidableEq, Repr, Inhabited

/-- Why a command line is not carried out. -/
inductive UsageError where
  /-- There is no such option, or an argument stands on its own. -/
  | unknownArgument
  /-- A value is missing or is none of those that the option takes. -/
  | invalidValue
  /-- A value does not read as what the option takes. -/
  | valueValidation
  /-- A flag was given a value. -/
  | tooManyValues
  /-- An option was given twice. -/
  | argumentConflict
  /-- The help was asked for. -/
  | displayHelp
  /-- The version was asked for. -/
  | displayVersion
deriving DecidableEq, Repr, Inhabited

/-- The options that take a value. -/
inductive Setting where
  | workload
  | calls
  | iterations
  | threshold
  | workers
  | logLevel
deriving DecidableEq, Repr, Inhabited

/-- The options that take no value. -/
inductive Flag where
  | noOptimize
  | printBytecode
  | json
  | help
  | version
deriving DecidableEq, Repr, Inhabited

/-- An option that may be given. -/
inductive Switch where
  | setting (setting : Setting)
  | flag (flag : Flag)
deriving DecidableEq, Repr, Inhabited

namespace Switch

/-- The option with a long name, which is written behind two dashes. -/
def ofLong? : String → Option Switch
  | "workload" => some (setting .workload)
  | "calls" => some (setting .calls)
  | "iterations" => some (setting .iterations)
  | "threshold" => some (setting .threshold)
  | "workers" => some (setting .workers)
  | "log-level" => some (setting .logLevel)
  | "no-optimize" => some (flag .noOptimize)
  | "print-bytecode" => some (flag .printBytecode)
  | "json" => some (flag .json)
  | "help" => some (flag .help)
  | "version" => some (flag .version)
  | _ => none

/-- The option with a short name, which is written behind one dash. -/
def ofShort? : Char → Option Switch
  | 'w' => some (setting .workload)
  | 'c' => some (setting .calls)
  | 'n' => some (setting .iterations)
  | 'h' => some (flag .help)
  | 'V' => some (flag .version)
  | _ => none

end Switch

namespace Options

/-- Read a 32-bit number. It is read as an integer first, so a signed zero is a zero. -/
def readWord32? (text : String) : Option UInt32 := do
  let n ← Text.readInt? text
  if 0 ≤ n ∧ n.toNat < UInt32.size then some (UInt32.ofNat n.toNat) else none

/-- Read a 64-bit number. -/
def readWord64? (text : String) : Option UInt64 := do
  let n ← Text.readNat? text
  if n < UInt64.size then some (UInt64.ofNat n) else none

/-- A value that has been read, or else the error that it does not read. -/
def required {α : Type} (error : UsageError) : Option α → Except UsageError α
  | some value => .ok value
  | none => .error error

/-- Set an option to the value that a text stands for. -/
def set (o : Options) (setting : Setting) (text : String) : Except UsageError Options :=
  match setting with
  | .workload => do
    return { o with workload := ← required .invalidValue (Workload.ofText? text) }
  | .calls => do return { o with calls := some (← required .valueValidation (readWord32? text)) }
  | .iterations => do
    return { o with iterations := some (← required .valueValidation (readWord32? text)) }
  | .threshold => do
    return { o with threshold := ← required .valueValidation (readWord64? text) }
  | .workers => do
    return { o with workers := some (← required .valueValidation (readWord64? text)) }
  | .logLevel => .ok { o with logLevel := some text }

/-- Set a flag, or do what it asks for. -/
def raise (o : Options) : Flag → Except UsageError Options
  | .noOptimize => .ok { o with noOptimize := true }
  | .printBytecode => .ok { o with printBytecode := true }
  | .json => .ok { o with json := true }
  | .help => .error .displayHelp
  | .version => .error .displayVersion

/-- The number of calls, or that of the workload if none was given. -/
def effectiveCalls (o : Options) : UInt32 := o.calls.getD o.workload.defaultCalls

/-- The size, or that of the workload if none was given. -/
def effectiveIterations (o : Options) : UInt32 := o.iterations.getD o.workload.defaultIterations

/-- The settings of the optimizer. One number sets both the workers and the size of the gate. -/
def settings (o : Options) : Settings :=
  let settings := ({} : Settings).withThreshold o.threshold.toNat
  match o.workers with
  | some workers => (settings.withWorkers workers.toNat).withJobs workers.toNat
  | none => settings

/-- What to run. -/
def plan (o : Options) : Plan where
  workload := o.workload
  calls := o.effectiveCalls
  iterations := o.effectiveIterations
  optimize := !o.noOptimize
  settings := o.settings

end Options

end HotPath
