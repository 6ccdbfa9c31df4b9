-- The settings as documents of any kind tell them. Every field may be left
-- out, but for the interval of a hotplug section that is there.
import SerialLink.Document.Dialect
import SerialLink.Monitor.Config

namespace SerialLink

open Document (Dialect Fields)

variable {V : Type}

/-! ## Field names, in order -/

def Stream.Layout.fieldNames : List String := ["markers", "sequence_offset", "sub_index_offset"]

def ConnectionConfig.fieldNames : List String :=
  ["ring_capacity", "read_buffer_size", "drain_interval_ms", "write_timeout_ms", "diagnostics"]

def HotplugConfig.fieldNames : List String := ["poll_interval_ms"]

def MonitorConfig.fieldNames : List String :=
  ["log_level", "device", "metrics_addr", "connection", "hotplug"]

/-! ## Reading -/

def Document.Dialect.word (d : Dialect V) : V → Option Nat := d.upTo wordMax

def Document.Dialect.byte (d : Dialect V) (value : V) : Option UInt8 :=
  (d.upTo 255 value).map UInt8.ofNat

def Stream.Layout.readMarkers (d : Dialect V) (value : V) : Option (UInt8 × UInt8) := do
  let (first, second) ← d.pair value
  pure (← d.byte first, ← d.byte second)

def Stream.Layout.read (d : Dialect V) (value : V) : Option Stream.Layout := do
  let fields ← d.fields Stream.Layout.fieldNames true value
  let standard : Stream.Layout := {}
  let markers ← fields.withDefault "markers" standard.markers (Stream.Layout.readMarkers d)
  let sequenceOffset ← fields.withDefault "sequence_offset" standard.sequenceOffset d.word
  let subIndexOffset ← fields.withDefault "sub_index_offset" standard.subIndexOffset d.word
  pure { markers, sequenceOffset, subIndexOffset }

def ConnectionConfig.read (d : Dialect V) (value : V) : Option ConnectionConfig := do
  let fields ← d.fields ConnectionConfig.fieldNames true value
  let standard : ConnectionConfig := {}
  let ringCapacity ← fields.withDefault "ring_capacity" standard.ringCapacity d.word
  let readBufferSize ←
    fields.withDefault "read_buffer_size" standard.readBufferSize (d.optional d.word)
  let drainInterval ← fields.withDefault "drain_interval_ms" standard.drainInterval d.word
  let writeTimeout ← fields.withDefault "write_timeout_ms" standard.writeTimeout d.word
  let diagnostics ←
    fields.withDefault "diagnostics" standard.diagnostics (d.optional (Stream.Layout.read d))
  pure { ringCapacity, readBufferSize, drainInterval, writeTimeout, diagnostics }

def HotplugConfig.read (d : Dialect V) (value : V) : Option HotplugConfig := do
  let fields ← d.fields HotplugConfig.fieldNames false value
  let pollInterval ← fields.required "poll_interval_ms" d.word
  pure { pollInterval }

def Net.SocketAddress.read (d : Dialect V) (value : V) : Option Net.SocketAddress :=
  (d.text value).bind Net.SocketAddress.parse?

def MonitorConfig.read (d : Dialect V) (value : V) : Option MonitorConfig := do
  let fields ← d.fields MonitorConfig.fieldNames true value
  let standard : MonitorConfig := {}
  let logLevel ← fields.withDefault "log_level" standard.logLevel d.text
  let device ← fields.withDefault "device" standard.device (d.optional d.text)
  let metricsAddress ← fields.withDefault "metrics_addr" standard.metricsAddress
    (d.optional (Net.SocketAddress.read d))
  let connection ← fields.withDefault "connection" standard.connection (ConnectionConfig.read d)
  let hotplug ← fields.withDefault "hotplug" standard.hotplug (HotplugConfig.read d)
  pure { logLevel, device, metricsAddress, connection, hotplug }

end SerialLink
