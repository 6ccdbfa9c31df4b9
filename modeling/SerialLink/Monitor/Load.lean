-- Where the monitor's configuration comes from: a file, then the environment,
-- then the command line, each winning over what came before it.
import SerialLink.Document.Config
import SerialLink.Monitor.CommandLine
import SerialLink.Monitor.Error
import SerialLink.Settings.Dialect
import SerialLink.Settings.Environment
import SerialLink.Settings.JsonFile
import SerialLink.Settings.Path
import SerialLink.Settings.Toml.Document

namespace SerialLink

/-- A configuration file: the ending of its name says what it is written in. -/
structure ConfigFile where
  ending : String
  text : String

/-- The ending of a path: what stands behind the last point of its last name, unless that point is
the first character. -/
def ConfigFile.endingOf (path : String) : String :=
  let name := path.toList.reverse.takeWhile (· ≠ '/')
  if (name.dropWhile (· ≠ '.')).length ≤ 1 then ""
  else String.ofList (name.takeWhile (· ≠ '.')).reverse

/-- The settings of a file. -/
def ConfigFile.entries? (file : ConfigFile) : Option Settings.Entries :=
  match file.ending with
  | "toml" => Settings.Toml.parse? file.text
  | "json" => Settings.ofJsonFile? file.text
  | _ => none

/-- The settings of the file that is asked for; there are none if none is. -/
def fileEntries (wanted : Option String) (files : String → Option ConfigFile) :
    Except MonitorError Settings.Entries :=
  match wanted with
  | none => .ok []
  | some path =>
    match (files path).bind ConfigFile.entries? with
    | some entries => .ok entries
    | none => .error .readingConfiguration

/-- The configuration that file and environment make up. -/
def MonitorConfig.ofSettings (settings : Settings.Value) : Except MonitorError MonitorConfig :=
  match MonitorConfig.read Settings.Value.dialect settings with
  | some config => .ok config
  | none => .error .parsingConfiguration

/-- The configuration that holds in the end. `files` is what is found at a path. -/
def MonitorConfig.load (line : CommandLine) (files : String → Option ConfigFile)
    (environment : List (String × String)) : Except MonitorError MonitorConfig := do
  let file ← fileEntries line.config files
  let settings := Settings.layered [file, Settings.Environment.entries environment]
  let config ← MonitorConfig.ofSettings settings
  pure (config.apply line)

end SerialLink
