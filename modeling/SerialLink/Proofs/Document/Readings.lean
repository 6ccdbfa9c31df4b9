-- A configuration is read from what its document tells of it and from nothing
-- else: each field from the value that is told for it, or it is the standard
-- one.
import SerialLink.Json.Forms
import SerialLink.Proofs.Json.Told

namespace SerialLink.Document

open Json (Value)

/-- A field as it is told, or the standard value. -/
def orStandard {α : Type} (standard : α) (read : Value → Option α) : Option Value → Option α
  | some value => read value
  | none => some standard

@[simp] theorem orStandard_some {α : Type} (standard : α) (read : Value → Option α)
    (value : Value) : orStandard standard read (some value) = read value := rfl

theorem withDefault_eq {α : Type} {fields : Fields Value} (names : List String) {name : String}
    (hname : name ∈ names) (standard : α) (read : Value → Option α) :
    fields.withDefault name standard read =
      orStandard standard read (if name ∈ names then fields.get? name else none) := by
  rw [if_pos hname]
  unfold Fields.withDefault orStandard
  cases fields.get? name <;> rfl

theorem orStandard_holds {α : Type} {P : α → Prop} {standard a : α} {read : Value → Option α}
    {told : Option Value} (hstandard : P standard) (hread : ∀ {v a}, read v = some a → P a)
    (h : orStandard standard read told = some a) : P a := by
  cases told with
  | none => exact Option.some.inj h ▸ hstandard
  | some v => exact hread h

theorem orStandard_without {α : Type} {standard a : α} {read : Value → Option α}
    {told : Option Value} (h : orStandard standard read told = some a) (gone : Bool) :
    orStandard standard read (if gone then none else told) =
      some (if gone then standard else a) := by
  cases gone
  · exact h
  · rfl

end SerialLink.Document

namespace SerialLink

open Json (Value)
open Document (Dialect orStandard orStandard_without withDefault_eq)

variable {told told' : String → Option Value} {v : Value} {gone : String → Bool}

/-! ## Frame layouts -/

namespace Stream.Layout

/-- The layout is told so. -/
structure Told (told : String → Option Value) (l : Stream.Layout) : Prop where
  markers : orStandard ({} : Stream.Layout).markers (readMarkers Value.dialect)
    (told "markers") = some l.markers
  sequenceOffset : orStandard ({} : Stream.Layout).sequenceOffset Value.dialect.word
    (told "sequence_offset") = some l.sequenceOffset
  subIndexOffset : orStandard ({} : Stream.Layout).subIndexOffset Value.dialect.word
    (told "sub_index_offset") = some l.subIndexOffset

theorem ofJson?_eq_some_iff {l : Stream.Layout} :
    ofJson? v = some l ↔ ∃ told, v.told? fieldNames true = some told ∧ Told told l := by
  simp only [ofJson?, read, Value.told?, Value.dialect_fields, Option.bind_eq_bind,
    Option.bind_eq_some_iff, Option.map_eq_some_iff]
  constructor
  · rintro ⟨fields, h, markers, hmarkers, sequenceOffset, hsequence, subIndexOffset, hsub, hl⟩
    cases hl
    rw [withDefault_eq fieldNames (by decide)] at hmarkers hsequence hsub
    exact ⟨_, ⟨fields, h, rfl⟩, hmarkers, hsequence, hsub⟩
  · rintro ⟨_, ⟨fields, h, rfl⟩, hmarkers, hsequence, hsub⟩
    rw [← withDefault_eq fieldNames (by decide)] at hmarkers hsequence hsub
    exact ⟨fields, h, _, hmarkers, _, hsequence, _, hsub, rfl⟩

/-- The layout with the standard values for some fields. -/
def reset (gone : String → Bool) (l : Stream.Layout) : Stream.Layout :=
  let standard : Stream.Layout := {}
  { markers := if gone "markers" then standard.markers else l.markers
    sequenceOffset := if gone "sequence_offset" then standard.sequenceOffset else l.sequenceOffset
    subIndexOffset :=
      if gone "sub_index_offset" then standard.subIndexOffset else l.subIndexOffset }

theorem Told.reset {l : Stream.Layout} (h : Told told l) :
    Told (fun name => if gone name then none else told name) (l.reset gone) where
  markers := orStandard_without h.markers _
  sequenceOffset := orStandard_without h.sequenceOffset _
  subIndexOffset := orStandard_without h.subIndexOffset _

end Stream.Layout

/-! ## Connections -/

namespace ConnectionConfig

/-- The configuration of a connection is told so. -/
structure Told (told : String → Option Value) (c : ConnectionConfig) : Prop where
  ringCapacity : orStandard ({} : ConnectionConfig).ringCapacity Value.dialect.word
    (told "ring_capacity") = some c.ringCapacity
  readBufferSize : orStandard ({} : ConnectionConfig).readBufferSize
    (Value.dialect.optional Value.dialect.word) (told "read_buffer_size") = some c.readBufferSize
  drainInterval : orStandard ({} : ConnectionConfig).drainInterval Value.dialect.word
    (told "drain_interval_ms") = some c.drainInterval
  writeTimeout : orStandard ({} : ConnectionConfig).writeTimeout Value.dialect.word
    (told "write_timeout_ms") = some c.writeTimeout
  diagnostics : orStandard ({} : ConnectionConfig).diagnostics
    (Value.dialect.optional Stream.Layout.ofJson?) (told "diagnostics") = some c.diagnostics

theorem ofJson?_eq_some_iff {c : ConnectionConfig} :
    ofJson? v = some c ↔ ∃ told, v.told? fieldNames true = some told ∧ Told told c := by
  simp only [ofJson?, read, Value.told?, Value.dialect_fields, Option.bind_eq_bind,
    Option.bind_eq_some_iff, Option.map_eq_some_iff]
  constructor
  · rintro ⟨fields, h, ringCapacity, hring, readBufferSize, hread, drainInterval, hdrain,
      writeTimeout, hwrite, diagnostics, hdiagnostics, hc⟩
    cases hc
    rw [withDefault_eq fieldNames (by decide)] at hring hread hdrain hwrite hdiagnostics
    exact ⟨_, ⟨fields, h, rfl⟩, hring, hread, hdrain, hwrite, hdiagnostics⟩
  · rintro ⟨_, ⟨fields, h, rfl⟩, hring, hread, hdrain, hwrite, hdiagnostics⟩
    rw [← withDefault_eq fieldNames (by decide)] at hring hread hdrain hwrite hdiagnostics
    exact ⟨fields, h, _, hring, _, hread, _, hdrain, _, hwrite, _, hdiagnostics, rfl⟩

/-- The configuration with the standard values for some fields. -/
def reset (gone : String → Bool) (c : ConnectionConfig) : ConnectionConfig :=
  let standard : ConnectionConfig := {}
  { ringCapacity := if gone "ring_capacity" then standard.ringCapacity else c.ringCapacity
    readBufferSize :=
      if gone "read_buffer_size" then standard.readBufferSize else c.readBufferSize
    drainInterval := if gone "drain_interval_ms" then standard.drainInterval else c.drainInterval
    writeTimeout := if gone "write_timeout_ms" then standard.writeTimeout else c.writeTimeout
    diagnostics := if gone "diagnostics" then standard.diagnostics else c.diagnostics }

theorem Told.reset {c : ConnectionConfig} (h : Told told c) :
    Told (fun name => if gone name then none else told name) (c.reset gone) where
  ringCapacity := orStandard_without h.ringCapacity _
  readBufferSize := orStandard_without h.readBufferSize _
  drainInterval := orStandard_without h.drainInterval _
  writeTimeout := orStandard_without h.writeTimeout _
  diagnostics := orStandard_without h.diagnostics _

end ConnectionConfig

/-! ## Watching -/

namespace HotplugConfig

/-- The interval has to be told. -/
theorem ofJson?_eq_some_iff {c : HotplugConfig} :
    ofJson? v = some c ↔ ∃ told, v.told? fieldNames false = some told ∧
      (told "poll_interval_ms").bind Value.dialect.word = some c.pollInterval := by
  simp only [ofJson?, read, Value.told?, Value.dialect_fields, Option.bind_eq_bind,
    Option.bind_eq_some_iff, Option.map_eq_some_iff]
  constructor
  · rintro ⟨fields, h, pollInterval, hpoll, hc⟩
    cases hc
    exact ⟨_, ⟨fields, h, rfl⟩, Option.bind_eq_some_iff.mp hpoll⟩
  · rintro ⟨_, ⟨fields, h, rfl⟩, hpoll⟩
    exact ⟨fields, h, _, Option.bind_eq_some_iff.mpr hpoll, rfl⟩

end HotplugConfig

/-! ## The monitor -/

namespace MonitorConfig

/-- The configuration of the monitor is told so. -/
structure Told (told : String → Option Value) (c : MonitorConfig) : Prop where
  logLevel : orStandard ({} : MonitorConfig).logLevel Value.text? (told "log_level") =
    some c.logLevel
  device : orStandard ({} : MonitorConfig).device (Value.dialect.optional Value.text?)
    (told "device") = some c.device
  metricsAddress : orStandard ({} : MonitorConfig).metricsAddress
    (Value.dialect.optional (Net.SocketAddress.read Value.dialect)) (told "metrics_addr") =
      some c.metricsAddress
  connection : orStandard ({} : MonitorConfig).connection ConnectionConfig.ofJson?
    (told "connection") = some c.connection
  hotplug : orStandard ({} : MonitorConfig).hotplug HotplugConfig.ofJson? (told "hotplug") =
    some c.hotplug

theorem ofJson?_eq_some_iff {c : MonitorConfig} :
    ofJson? v = some c ↔ ∃ told, v.told? fieldNames true = some told ∧ Told told c := by
  simp only [ofJson?, read, Value.told?, Value.dialect_fields, Option.bind_eq_bind,
    Option.bind_eq_some_iff, Option.map_eq_some_iff]
  constructor
  · rintro ⟨fields, h, logLevel, hlevel, device, hdevice, metricsAddress, haddress, connection,
      hconnection, hotplug, hhotplug, hc⟩
    cases hc
    rw [withDefault_eq fieldNames (by decide)] at hlevel hdevice haddress hconnection hhotplug
    exact ⟨_, ⟨fields, h, rfl⟩, hlevel, hdevice, haddress, hconnection, hhotplug⟩
  · rintro ⟨_, ⟨fields, h, rfl⟩, hlevel, hdevice, haddress, hconnection, hhotplug⟩
    rw [← withDefault_eq fieldNames (by decide)] at hlevel hdevice haddress hconnection hhotplug
    exact ⟨fields, h, _, hlevel, _, hdevice, _, haddress, _, hconnection, _, hhotplug, rfl⟩

/-- The configuration with the standard values for some fields. -/
def reset (gone : String → Bool) (c : MonitorConfig) : MonitorConfig :=
  let standard : MonitorConfig := {}
  { logLevel := if gone "log_level" then standard.logLevel else c.logLevel
    device := if gone "device" then standard.device else c.device
    metricsAddress := if gone "metrics_addr" then standard.metricsAddress else c.metricsAddress
    connection := if gone "connection" then standard.connection else c.connection
    hotplug := if gone "hotplug" then standard.hotplug else c.hotplug }

theorem Told.reset {c : MonitorConfig} (h : Told told c) :
    Told (fun name => if gone name then none else told name) (c.reset gone) where
  logLevel := orStandard_without h.logLevel _
  device := orStandard_without h.device _
  metricsAddress := orStandard_without h.metricsAddress _
  connection := orStandard_without h.connection _
  hotplug := orStandard_without h.hotplug _

end MonitorConfig

end SerialLink
