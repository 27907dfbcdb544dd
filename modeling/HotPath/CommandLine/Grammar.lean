import HotPath.CommandLine.Options

/-!
# Reading a command line

Arguments are read from left to right and the first problem ends it. A value that is
attached to its option (`--calls=5`, `-c5`, `-c=5`) is read at once. A value that stands on
its own is only set aside, together with its option; it is read when the next
known option comes, or at the end. So an unknown argument that follows a bad
value is what gets reported.

A value on its own never starts with a dash, except for a dash alone. Behind two
dashes alone no further argument is allowed.
-/

namespace HotPath

namespace CommandLine

/-- How far a command line has been read. -/
structure Reading where
  options : Options := {}
  /-- The options that have been given and read. -/
  given : List Switch := []
  /-- The option that was given last if its value has not been read, with its value if that is
  there already. -/
  waiting : Option (Setting × Option String) := none
deriving Repr

namespace Reading

/-- Note that an option has been given; none may be given twice. -/
def mark (r : Reading) (switch : Switch) : Except UsageError Reading :=
  if switch ∈ r.given then .error .argumentConflict
  else .ok { r with given := switch :: r.given }

/-- Read the value of an option. A missing value is reported before a repeated option, and that
before a bad value. -/
def assign (r : Reading) (setting : Setting) : Option String → Except UsageError Reading
  | none => .error .invalidValue
  | some text => do
    let r ← r.mark (.setting setting)
    return { r with options := ← r.options.set setting text }

/-- Read the value that was set aside. -/
def resolve (r : Reading) : Except UsageError Reading :=
  match r.waiting with
  | some (setting, text) => { r with waiting := none }.assign setting text
  | none => .ok r

/-- An option that takes a value was given, with its value attached or without. -/
def takeSetting (r : Reading) (setting : Setting) (attached : Option String) :
    Except UsageError Reading := do
  let r ← r.resolve
  match attached with
  | some text => r.assign setting (some text)
  | none => return { r with waiting := some (setting, none) }

/-- A flag was given. -/
def takeFlag (r : Reading) (flag : Flag) : Except UsageError Reading := do
  let r ← r.resolve
  let r ← r.mark (.flag flag)
  return { r with options := ← r.options.raise flag }

/-- An option was given by its long name. -/
def takeLong (r : Reading) (name : String) (attached : Option String) :
    Except UsageError Reading :=
  match Switch.ofLong? name, attached with
  | some (.setting setting), _ => r.takeSetting setting attached
  | some (.flag flag), none => r.takeFlag flag
  | some (.flag _), some _ => .error .tooManyValues
  | none, _ => .error .unknownArgument

/-- The value attached to a short option; an equals sign in front of it is dropped. -/
def attachedValue : List Char → Option String
  | [] => none
  | '=' :: text => some (String.ofList text)
  | text => some (String.ofList text)

/-- One or more options were given by their short names behind one dash. -/
def takeShort (r : Reading) : List Char → Except UsageError Reading
  | [] => .ok r
  | name :: rest =>
    match Switch.ofShort? name with
    | some (.setting setting) => r.takeSetting setting (attachedValue rest)
    | some (.flag flag) => do (← r.takeFlag flag).takeShort rest
    | none => .error .unknownArgument

/-- An argument that is no option: the value that an option waits for, or else out of place. -/
def takePlain (r : Reading) (text : String) : Except UsageError Reading :=
  match r.waiting with
  | some (setting, none) => .ok { r with waiting := some (setting, some text) }
  | _ => .error .unknownArgument

/-- The name and the attached value of a long option. -/
def splitLong (text : List Char) : String × Option String :=
  match text.dropWhile (· ≠ '=') with
  | [] => (String.ofList text, none)
  | _ :: value => (String.ofList (text.takeWhile (· ≠ '=')), some (String.ofList value))

/-- Read one argument that is not two dashes alone. -/
def take (r : Reading) (argument : String) : Except UsageError Reading :=
  match argument.toList with
  | '-' :: '-' :: text =>
    let (name, attached) := splitLong text
    r.takeLong name attached
  | '-' :: name :: rest => r.takeShort (name :: rest)
  | _ => r.takePlain argument

/-- Read all arguments. -/
def takeAll (r : Reading) : List String → Except UsageError Reading
  | [] => r.resolve
  | argument :: rest =>
    if argument = "--" then
      if rest.isEmpty then r.resolve else .error .unknownArgument
    else do (← r.take argument).takeAll rest

end Reading

/-- Read the arguments of a command line. -/
def parse (arguments : List String) : Except UsageError Options :=
  (Reading.takeAll {} arguments).map Reading.options

end CommandLine

end HotPath
