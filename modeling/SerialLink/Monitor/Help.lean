-- What the monitor tells about itself and its command line.
import SerialLink.Monitor.CommandLine

namespace SerialLink.Monitor

def programName : String := "serial-monitor"

/-- The program and its version. -/
def versionLine : String := programName ++ " 0.1.0"

def helpLines : List String :=
  ["Monitor a USB serial sensor stream",
   "",
   "Usage: " ++ programName ++ " [OPTIONS]",
   "",
   "Options:",
   "  -c, --config <CONFIG>        Configuration file (TOML)",
   "  -d, --device <DEVICE>        Device identifier to open " ++
      "(default: first device with a known driver)",
   "  -l, --list                   List attached USB serial devices and exit",
   "      --send <HEX>             Hex payload written once connected",
   "      --diagnostics            Check sensor frames for sub-index gaps using the default layout",
   "      --log-level <LOG_LEVEL>  Log level (trace, debug, info, warn, error)",
   "  -h, --help                   Print help",
   "  -V, --version                Print version"]

end SerialLink.Monitor
