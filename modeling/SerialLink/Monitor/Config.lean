-- What the monitor can be told to do.
import SerialLink.Connection.Basic
import SerialLink.Event.Hotplug
import SerialLink.Net.Address

namespace SerialLink

structure MonitorConfig where
  /-- Least level of what is logged. -/
  logLevel : String := "info"
  /-- Identifier of the device to open; the first one that has a driver where none is set. -/
  device : Option String := none
  /-- Where the figures are offered, if anywhere. -/
  metricsAddress : Option Net.SocketAddress := none
  connection : ConnectionConfig := {}
  hotplug : HotplugConfig := .standard
  deriving DecidableEq

end SerialLink
