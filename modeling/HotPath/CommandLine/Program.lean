import HotPath.Code.Listing
import HotPath.CommandLine.Grammar
import HotPath.CommandLine.LogFilter

/-!
# The command

`respond` maps the arguments of a command line to what the command prints and the
status it exits with: 0 after a successful run, 2 when the run did not succeed
or the arguments are no good, 1 for any other failure. The three parts of it
are available one by one for a caller that times the run.
-/

namespace HotPath

/-- A failure other than that of the program that was run. -/
inductive CommandError where
  /-- The code of a workload could not be put together. -/
  | assembly (error : CodeError)
  /-- A worker of the optimizer could not be started. -/
  | optimizer (worker : Nat) (reason : String)
  /-- The log filter makes no sense. -/
  | logLevel (text : String)
deriving DecidableEq, Repr, Inhabited

/-- The wording of a failure. -/
def CommandError.message : CommandError → String
  | assembly error => "failed to assemble workload: " ++ error.message
  | optimizer worker reason =>
    "optimizer error: failed to spawn optimizer worker " ++ toString worker ++ ": " ++ reason
  | logLevel text => "invalid log level '" ++ text ++ "'"

namespace CommandLine

/-- What a command comes to. -/
structure Response where
  exit : UInt8
  stdout : String := ""
  stderr : String := ""
deriving DecidableEq, Repr, Inhabited

/-- The text that `--help` prints. -/
def usage : String :=
  Text.unlines [
    "Run bytecode workloads on the tiered VM",
    "",
    "Usage: tiervm [OPTIONS]",
    "",
    "Options:",
    "  -w, --workload <WORKLOAD>      counter, countdown, array-sum or fib [default: counter]",
    "  -c, --calls <CALLS>            Calls from main into the worker function",
    "  -n, --iterations <ITERATIONS>  Loop length, array length or Fibonacci argument",
    "      --threshold <THRESHOLD>    Calls before a function is optimized [default: 1000]",
    "      --workers <WORKERS>        Optimizer worker threads",
    "      --no-optimize              Run without the background optimizer",
    "      --print-bytecode           Print the module (and published functions) as a listing",
    "      --json                     Print the report as JSON",
    "      --log-level <LOG_LEVEL>    Log filter",
    "  -h, --help                     Print help",
    "  -V, --version                  Print version"]

/-- What to tell about a command line that is not carried out. -/
def explain : UsageError → Response
  | .displayHelp => { exit := 0, stdout := usage }
  | .displayVersion => { exit := 0, stdout := "tiervm 0.1.0\n" }
  | .unknownArgument => { exit := 2, stderr := "error: unexpected argument\n" }
  | .invalidValue => { exit := 2, stderr := "error: a value is missing or not allowed\n" }
  | .valueValidation => { exit := 2, stderr := "error: invalid value\n" }
  | .tooManyValues => { exit := 2, stderr := "error: unexpected value\n" }
  | .argumentConflict => { exit := 2, stderr := "error: an argument was given twice\n" }

/-- What to tell about a failure. -/
def refuse (error : CommandError) : Response :=
  { exit := 1, stderr := "Error: " ++ error.message ++ "\n" }

/-- What is wrong with options that were read without a problem. -/
def check (o : Options) : Except CommandError Unit :=
  match o.logLevel with
  | some text => if LogFilter.isFilter text then .ok () else .error (.logLevel text)
  | none => .ok ()

/-- The listings that surround the report of a run: the program before it, then each published
version. -/
def listings (run : Run) : String :=
  let versions := run.published.map fun f =>
    "; optimized\n" ++ f.listing (some run.program) ++ "\n"
  run.program.listing ++ "\n" ++ String.join versions

/-- What to print about a run. -/
def present (o : Options) (run : Run) : Response :=
  let listings := if o.printBytecode then listings run else ""
  let report := if o.json then run.report.document.pretty ++ "\n" else run.report.text
  { exit := if run.report.result.isSuccess then 0 else 2
    stdout := listings ++ report }

/-- What a command comes to, with the time of its run left at zero. -/
def respond (arguments : List String) : Response :=
  match parse arguments with
  | .error error => explain error
  | .ok o =>
    match check o with
    | .error error => refuse error
    | .ok _ => present o o.plan.run

end CommandLine

end HotPath
