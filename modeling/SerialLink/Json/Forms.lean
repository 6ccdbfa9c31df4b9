-- The JSON forms of the library's types: how each is written, and how those
-- are read that only JSON documents tell.
import SerialLink.Document.Config
import SerialLink.Json.Dialect
import SerialLink.Json.Parser
import SerialLink.Json.Printer

namespace SerialLink

open Json (Value)

/-! ## Writing -/

def Stream.Layout.toJson (l : Stream.Layout) : Value :=
  .record
    [("markers", .array [.natural l.markers.1.toNat, .natural l.markers.2.toNat]),
     ("sequence_offset", .natural l.sequenceOffset),
     ("sub_index_offset", .natural l.subIndexOffset)]

def ConnectionConfig.toJson (c : ConnectionConfig) : Value :=
  .record
    [("ring_capacity", .natural c.ringCapacity),
     ("read_buffer_size", .optional .natural c.readBufferSize),
     ("drain_interval_ms", .natural c.drainInterval),
     ("write_timeout_ms", .natural c.writeTimeout),
     ("diagnostics", .optional Stream.Layout.toJson c.diagnostics)]

def HotplugConfig.toJson (c : HotplugConfig) : Value :=
  .record [("poll_interval_ms", .natural c.pollInterval)]

def MonitorConfig.toJson (c : MonitorConfig) : Value :=
  .record
    [("log_level", .text c.logLevel),
     ("device", .optional .text c.device),
     ("metrics_addr", .optional (fun a => .text a.text) c.metricsAddress),
     ("connection", c.connection.toJson),
     ("hotplug", c.hotplug.toJson)]

def Stream.LossSummary.toJson (s : Stream.LossSummary) : Value :=
  .record
    [("total_loss_count", .natural s.totalLoss),
     ("max_loss_count", .natural s.maxLoss),
     ("max_no_problem_count", .natural s.maxClean),
     ("total_frame_count", .natural s.totalFrames)]

def LineParameters.toJson (p : LineParameters) : Value :=
  .record
    [("baud_rate", .natural p.baudRate.toNat),
     ("data_bits", .text p.dataBits.name),
     ("stop_bits", .text p.stopBits.name),
     ("parity", .text p.parity.name)]

def DeviceInfo.toJson (d : DeviceInfo) : Value :=
  .record
    [("identifier", .text d.identifier),
     ("vendor_id", .natural d.vendorId.toNat),
     ("product_id", .natural d.productId.toNat),
     ("product_name", .optional .text d.productName),
     ("device_class", .optional (fun c => .natural c.toNat) d.deviceClass)]

def DeviceEvent.toJson (e : DeviceEvent) : Value :=
  .record [("device_id", .text e.deviceId), ("kind", .text e.kind.name)]

/-! ## Reading -/

def DataBits.ofJson? : Value → Option DataBits := Value.oneOf? all name

def StopBits.ofJson? : Value → Option StopBits := Value.oneOf? all name

def Parity.ofJson? : Value → Option Parity := Value.oneOf? all name

def DriverKind.ofJson? : Value → Option DriverKind := Value.oneOf? all name

def DeviceEventKind.ofJson? : Value → Option DeviceEventKind := Value.oneOf? all name

def ConnectionState.ofJson? : Value → Option ConnectionState := Value.oneOf? all name

def Stream.Layout.ofJson? : Value → Option Stream.Layout := Stream.Layout.read Value.dialect

def ConnectionConfig.ofJson? : Value → Option ConnectionConfig :=
  ConnectionConfig.read Value.dialect

def HotplugConfig.ofJson? : Value → Option HotplugConfig := HotplugConfig.read Value.dialect

def MonitorConfig.ofJson? : Value → Option MonitorConfig := MonitorConfig.read Value.dialect

def Json.Value.half? : Value → Option Nat := Value.dialect.upTo 0xFFFFFFFF

def Json.Value.quarter? (value : Value) : Option UInt16 :=
  (Value.dialect.upTo 65535 value).map UInt16.ofNat

def Stream.LossSummary.ofJson? (value : Value) : Option Stream.LossSummary := do
  let fields ← value.fields?
    ["total_loss_count", "max_loss_count", "max_no_problem_count", "total_frame_count"] false
  let totalLoss ← fields.required "total_loss_count" Value.dialect.word
  let maxLoss ← fields.required "max_loss_count" Value.half?
  let maxClean ← fields.required "max_no_problem_count" Value.half?
  let totalFrames ← fields.required "total_frame_count" Value.dialect.word
  pure { totalLoss, maxLoss, maxClean, totalFrames }

def LineParameters.ofJson? (value : Value) : Option LineParameters := do
  let fields ← value.fields? ["baud_rate", "data_bits", "stop_bits", "parity"] false
  let baudRate ← fields.required "baud_rate" Value.half?
  let dataBits ← fields.required "data_bits" DataBits.ofJson?
  let stopBits ← fields.required "stop_bits" StopBits.ofJson?
  let parity ← fields.required "parity" Parity.ofJson?
  pure { baudRate := UInt32.ofNat baudRate, dataBits, stopBits, parity }

def DeviceInfo.ofJson? (value : Value) : Option DeviceInfo := do
  let fields ← value.fields?
    ["identifier", "vendor_id", "product_id", "product_name", "device_class"] false
  let identifier ← fields.required "identifier" Value.text?
  let vendorId ← fields.required "vendor_id" Value.quarter?
  let productId ← fields.required "product_id" Value.quarter?
  let productName ← fields.withDefault "product_name" none (Value.dialect.optional Value.text?)
  let deviceClass ←
    fields.withDefault "device_class" none (Value.dialect.optional Value.dialect.byte)
  pure { identifier, vendorId, productId, productName, deviceClass }

def DeviceEvent.ofJson? (value : Value) : Option DeviceEvent := do
  let fields ← value.fields? ["device_id", "kind"] false
  let deviceId ← fields.required "device_id" Value.text?
  let kind ← fields.required "kind" DeviceEventKind.ofJson?
  pure { deviceId, kind }

end SerialLink
