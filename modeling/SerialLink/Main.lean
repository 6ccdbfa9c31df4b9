-- The monitor as a program: it reads the command line, the configuration file
-- and the environment, and says what it finds.
import SerialLink.Monitor.Attached
import SerialLink.Monitor.Help
import SerialLink.Monitor.Load
import SerialLink.Monitor.LogLevel
import SerialLink.Monitor.Payload

namespace SerialLink.Monitor

/-- The text at a path, if it can be read. -/
def readText (path : String) : IO (Option String) := do
  try
    let text ← IO.FS.readFile path
    pure (some text)
  catch _ => pure none

/-- The configuration file that is asked for. -/
def findFile (wanted : Option String) : IO (Option ConfigFile) := do
  match wanted with
  | none => pure none
  | some path =>
    let text ← readText path
    pure (text.map fun text => { ending := ConfigFile.endingOf path, text })

/-- What the program does once everything is read: the lines that it prints, or why it ends. Ports
of the machine are not looked for, so no device is attached. -/
def outcome (line : CommandLine) (file : Option ConfigFile)
    (environment : List (String × String)) : Except MonitorError (List String) := do
  let config ← MonitorConfig.load line (fun _ => file) environment
  let _ ← LogLevel.parse config.logLevel
  if line.list then pure (listing {} [])
  else
    let _ ← line.send.mapM parsePayload
    let device ← choose {} [] config.device
    pure [device.description]

/-- Runs the program and tells its exit code. -/
def runProgram (arguments : List String) : IO UInt32 := do
  match CommandLine.parse arguments with
  | .error .help =>
    helpLines.forM fun l => IO.println l
    pure 0
  | .error .version =>
    IO.println versionLine
    pure 0
  | .error e =>
    IO.eprintln ("error: " ++ e.name)
    pure 2
  | .ok line =>
    let file ← findFile line.config
    let block ← readText "/proc/self/environ"
    match outcome line file (Settings.Environment.ofBlock (block.getD "")) with
    | .ok lines =>
      lines.forM fun l => IO.println l
      pure 0
    | .error e =>
      IO.eprintln ("Error: " ++ e.message)
      pure 1

end SerialLink.Monitor

def main (arguments : List String) : IO UInt32 := SerialLink.Monitor.runProgram arguments
