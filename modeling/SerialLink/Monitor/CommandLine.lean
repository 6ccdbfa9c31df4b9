-- The command line. Arguments are read from left to right. A value that stands
-- as an argument of its own is filed with the next option, so an unknown
-- option behind it is told first.
import SerialLink.Monitor.Config

namespace SerialLink

/-- What a command line asks for. -/
structure CommandLine where
  config : Option String := none
  device : Option String := none
  /-- List the devices that are attached. -/
  list : Bool := false
  /-- Payload to send, in hexadecimal. -/
  send : Option String := none
  /-- Check frames, with the standard layout where none is configured. -/
  diagnostics : Bool := false
  logLevel : Option String := none
  deriving DecidableEq

/-- The command line wins over what was configured; its diagnostics only fill a gap. -/
def MonitorConfig.apply (c : MonitorConfig) (line : CommandLine) : MonitorConfig :=
  { c with
    device := line.device.or c.device
    logLevel := line.logLevel.getD c.logLevel
    connection := { c.connection with
      diagnostics :=
        if line.diagnostics then c.connection.diagnostics.or (some {})
        else c.connection.diagnostics } }

/-- Why a command line is not carried out. -/
inductive UsageError
  | help | version
  /-- An option was given twice. -/
  | conflict
  | unknownArgument
  /-- The value of an option is missing, or is empty where that makes no sense. -/
  | invalidValue
  /-- A value was given to an option that takes none. -/
  | tooManyValues
  deriving DecidableEq

def UsageError.name : UsageError → String
  | .help => "DisplayHelp"
  | .version => "DisplayVersion"
  | .conflict => "ArgumentConflict"
  | .unknownArgument => "UnknownArgument"
  | .invalidValue => "InvalidValue"
  | .tooManyValues => "TooManyValues"

namespace CommandLine

/-! ## Options -/

inductive Flag
  | list | diagnostics | help | version
  deriving DecidableEq

inductive Setting
  | config | device | send | logLevel
  deriving DecidableEq

/-- The options by their long names. -/
def longOption? (name : List Char) : Option (Flag ⊕ Setting) :=
  match String.ofList name with
  | "list" => some (.inl .list)
  | "diagnostics" => some (.inl .diagnostics)
  | "help" => some (.inl .help)
  | "version" => some (.inl .version)
  | "config" => some (.inr .config)
  | "device" => some (.inr .device)
  | "send" => some (.inr .send)
  | "log-level" => some (.inr .logLevel)
  | _ => none

/-- The options by their letters. -/
def shortOption? : Char → Option (Flag ⊕ Setting)
  | 'l' => some (.inl .list)
  | 'h' => some (.inl .help)
  | 'V' => some (.inl .version)
  | 'c' => some (.inr .config)
  | 'd' => some (.inr .device)
  | _ => none

def get? (line : CommandLine) : Setting → Option String
  | .config => line.config
  | .device => line.device
  | .send => line.send
  | .logLevel => line.logLevel

def set (line : CommandLine) (value : String) : Setting → CommandLine
  | .config => { line with config := some value }
  | .device => { line with device := some value }
  | .send => { line with send := some value }
  | .logLevel => { line with logLevel := some value }

/-! ## Reading -/

/-- How far a command line has been read. -/
structure Progress where
  line : CommandLine := {}
  /-- The option given last, if it is not filed yet, and its value once that is known. -/
  pending : Option (Setting × Option String) := none
  /-- Options have ended. -/
  ended : Bool := false

namespace Progress

/-- Files a value. A path must not be empty. -/
def file (p : Progress) (setting : Setting) (value : String) : Except UsageError Progress :=
  if (p.line.get? setting).isSome then .error .conflict
  else if setting = .config ∧ value = "" then .error .invalidValue
  else .ok { p with line := p.line.set value setting }

def settle (p : Progress) : Except UsageError Progress :=
  match p.pending with
  | none => .ok p
  | some (_, none) => .error .invalidValue
  | some (setting, some value) => { p with pending := none }.file setting value

/-- Takes in an option without a value. -/
def raise (p : Progress) (flag : Flag) : Except UsageError Progress := do
  let p ← p.settle
  match flag with
  | .help => .error .help
  | .version => .error .version
  | .list =>
    if p.line.list then .error .conflict else pure { p with line := { p.line with list := true } }
  | .diagnostics =>
    if p.line.diagnostics then .error .conflict
    else pure { p with line := { p.line with diagnostics := true } }

/-- Takes in an option with a value that is attached to it, or whose value is still to come. -/
def give (p : Progress) (setting : Setting) (attached : Option (List Char)) :
    Except UsageError Progress := do
  let p ← p.settle
  match attached with
  | some value => p.file setting (String.ofList value)
  | none => pure { p with pending := some (setting, none) }

/-- The value behind the letter of an option, with or without an equals sign. -/
def attachedValue : List Char → Option (List Char)
  | [] => none
  | '=' :: value => some value
  | value => some value

/-- Takes in the letters behind a single dash. -/
def takeLetters (p : Progress) : List Char → Except UsageError Progress
  | [] => .ok p
  | letter :: rest =>
    match shortOption? letter with
    | none => .error .unknownArgument
    | some (.inl flag) => do takeLetters (← p.raise flag) rest
    | some (.inr setting) => p.give setting (attachedValue rest)

/-- Takes in what stands behind two dashes. -/
def takeName (p : Progress) (body : List Char) : Except UsageError Progress :=
  let name := body.takeWhile (· ≠ '=')
  let value := (body.dropWhile (· ≠ '=')).tail?
  match longOption? name, value with
  | none, _ => .error .unknownArgument
  | some (.inl flag), none => p.raise flag
  | some (.inl _), some _ => .error .tooManyValues
  | some (.inr setting), value => p.give setting value

/-- Takes in an argument that is no option: it is a value if one is awaited. -/
def takePlain (p : Progress) (argument : String) : Except UsageError Progress :=
  match p.pending with
  | some (setting, none) => .ok { p with pending := some (setting, some argument) }
  | _ => .error .unknownArgument

def take (p : Progress) (argument : String) : Except UsageError Progress :=
  if p.ended then .error .unknownArgument
  else
    match argument.toList with
    | ['-', '-'] => .ok { p with ended := true }
    | '-' :: '-' :: body => p.takeName body
    | '-' :: letter :: rest => p.takeLetters (letter :: rest)
    | _ => p.takePlain argument

end Progress

/-- Reads the arguments behind the program's name. -/
def parse (arguments : List String) : Except UsageError CommandLine := do
  let p ← (← arguments.foldlM Progress.take {}).settle
  pure p.line

end CommandLine

end SerialLink
