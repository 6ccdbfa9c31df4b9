-- The devices that are attached: which of them the monitor opens, and how it
-- lists them.
import SerialLink.Driver
import SerialLink.Monitor.Error

namespace SerialLink.Monitor

/-- The device to open: the one asked for, or the first one that has a driver. -/
def choose (prober : Prober) (attached : List DeviceInfo) (wanted : Option String) :
    Except MonitorError DeviceInfo :=
  match prober.select attached wanted, wanted with
  | some device, _ => .ok device
  | none, some identifier => .error (.deviceNotFound identifier)
  | none, none => .error .noDevice

/-- A device in one line: how it is called, its numbers, its driver. -/
def listed (prober : Prober) (device : DeviceInfo) : String :=
  let id (n : UInt16) := String.ofList (Text.Hexadecimal.padded 4 n.toNat)
  let driver := match prober.probe device with
    | some kind => kind.name ++ " @ " ++ kind.lineParameters.text
    | none => "no driver"
  device.description ++ "  " ++ id device.vendorId ++ ":" ++ id device.productId ++ "  " ++ driver

/-- The list of the devices, in lines. -/
def listing (prober : Prober) (attached : List DeviceInfo) : List String :=
  if attached.isEmpty then ["No USB serial devices found"] else attached.map (listed prober)

end SerialLink.Monitor
