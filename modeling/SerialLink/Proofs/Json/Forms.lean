-- The types of the library survive their JSON form: what is printed is read as
-- the same value, and only values of the type are read.
import SerialLink.Proofs.Document.Readings
import SerialLink.Proofs.Json.ReadBack
import SerialLink.Proofs.Net.Addresses

namespace SerialLink.Json

/-- How the values of a type are written as JSON, how they are read, and which of them have each
number within the width of its field. -/
structure Form (α : Type) where
  write : α → Value
  read? : Value → Option α
  InWidth : α → Prop

namespace Form

variable {α : Type}

def print (f : Form α) (a : α) : String := (f.write a).toText

def parse? (f : Form α) (text : String) : Option α := (Value.parse? text).bind f.read?

/-- The printed text of what a text means. -/
def canonical? (f : Form α) (text : String) : Option String := (f.parse? text).map f.print

/-- Values of the type are read as they were written, and nothing else is read. -/
structure Faithful (f : Form α) : Prop where
  read_write : ∀ {a : α}, f.InWidth a → f.read? (f.write a) = some a
  inWidth_of_read : ∀ {value : Value} {a : α}, f.read? value = some a → f.InWidth a

namespace Faithful

variable {f : Form α} {a b : α} {text : String}

theorem parse_print (h : f.Faithful) (ha : f.InWidth a) : f.parse? (f.print a) = some a := by
  rw [parse?, print, Value.parse_toText, Option.bind_some, h.read_write ha]

theorem inWidth_of_parse (h : f.Faithful) (ha : f.parse? text = some a) : f.InWidth a := by
  obtain ⟨value, -, hread⟩ := Option.bind_eq_some_iff.mp ha
  exact h.inWidth_of_read hread

theorem print_inj (h : f.Faithful) (ha : f.InWidth a) (hb : f.InWidth b)
    (heq : f.print a = f.print b) : a = b := by
  have hread := h.parse_print ha
  rw [heq, h.parse_print hb] at hread
  exact (Option.some.inj hread).symm

/-- Printing is stable: a printed text is its own canonical form. -/
theorem canonical_print (h : f.Faithful) (ha : f.InWidth a) :
    f.canonical? (f.print a) = some (f.print a) := by
  rw [canonical?, h.parse_print ha, Option.map_some]

end Faithful

end Form

end SerialLink.Json

namespace SerialLink

open Json (Value Form)
open Document (Dialect Fields orStandard orStandard_holds)

/-! ## Values within their widths -/

def Stream.Layout.InWidth (l : Stream.Layout) : Prop :=
  l.sequenceOffset ≤ wordMax ∧ l.subIndexOffset ≤ wordMax

def ConnectionConfig.InWidth (c : ConnectionConfig) : Prop :=
  c.ringCapacity ≤ wordMax ∧ (∀ n ∈ c.readBufferSize, n ≤ wordMax) ∧ c.drainInterval ≤ wordMax ∧
    c.writeTimeout ≤ wordMax ∧ ∀ l ∈ c.diagnostics, l.InWidth

abbrev HotplugConfig.InWidth (c : HotplugConfig) : Prop := c.pollInterval ≤ wordMax

def MonitorConfig.InWidth (c : MonitorConfig) : Prop :=
  c.connection.InWidth ∧ c.hotplug.InWidth

def Stream.LossSummary.InWidth (s : Stream.LossSummary) : Prop :=
  s.totalLoss ≤ wordMax ∧ s.maxLoss ≤ 0xFFFFFFFF ∧ s.maxClean ≤ 0xFFFFFFFF ∧
    s.totalFrames ≤ wordMax

/-! ## Names -/

theorem DataBits.ofJson_text (b : DataBits) : DataBits.ofJson? (.text b.name) = some b := by
  cases b <;> rfl

theorem StopBits.ofJson_text (b : StopBits) : StopBits.ofJson? (.text b.name) = some b := by
  cases b <;> rfl

theorem Parity.ofJson_text (p : Parity) : Parity.ofJson? (.text p.name) = some p := by
  cases p <;> rfl

theorem DriverKind.ofJson_text (k : DriverKind) : DriverKind.ofJson? (.text k.name) = some k := by
  cases k <;> rfl

theorem DeviceEventKind.ofJson_text (k : DeviceEventKind) :
    DeviceEventKind.ofJson? (.text k.name) = some k := by
  cases k <;> rfl

theorem ConnectionState.ofJson_text (s : ConnectionState) :
    ConnectionState.ofJson? (.text s.name) = some s := by
  cases s <;> rfl

/-! ## Records -/

theorem orStandard_le {limit standard n : Nat} {told : Option Value} (hstandard : standard ≤ limit)
    (h : orStandard standard (Value.dialect.upTo limit) told = some n) : n ≤ limit :=
  orStandard_holds (P := (· ≤ limit)) hstandard Value.le_of_upTo h

theorem Stream.Layout.ofJson_toJson {l : Stream.Layout} (h : l.InWidth) :
    Stream.Layout.ofJson? l.toJson = some l := by
  obtain ⟨hsequence, hsub⟩ := h
  simp [Stream.Layout.ofJson?, Stream.Layout.read, Stream.Layout.toJson, Value.dialect_fields,
    Value.fields?_record, Fields.withDefault, Fields.get?, Stream.Layout.readMarkers,
    Value.dialect_pair, Value.byte_natural, Dialect.word, Value.upTo_natural, hsequence, hsub]

theorem Stream.Layout.inWidth_of_ofJson {value : Value} {l : Stream.Layout}
    (h : Stream.Layout.ofJson? value = some l) : l.InWidth := by
  obtain ⟨told, -, hl⟩ := Stream.Layout.ofJson?_eq_some_iff.mp h
  exact ⟨orStandard_le (by decide) hl.sequenceOffset, orStandard_le (by decide) hl.subIndexOffset⟩

theorem ConnectionConfig.ofJson_toJson {c : ConnectionConfig} (h : c.InWidth) :
    ConnectionConfig.ofJson? c.toJson = some c := by
  obtain ⟨hring, hread, hdrain, hwrite, hdiagnostics⟩ := h
  have hbuffer : Value.dialect.optional Value.dialect.word
      (Value.optional Value.natural c.readBufferSize) = some c.readBufferSize :=
    Value.optional_optional (fun _ => rfl) fun n hn => Value.upTo_natural (hread n hn)
  have hlayout : Value.dialect.optional (Stream.Layout.read Value.dialect)
      (Value.optional Stream.Layout.toJson c.diagnostics) = some c.diagnostics :=
    Value.optional_optional (fun _ => rfl) fun l hl =>
      Stream.Layout.ofJson_toJson (hdiagnostics l hl)
  simp only [Dialect.word] at hbuffer
  simp [ConnectionConfig.ofJson?, ConnectionConfig.read, ConnectionConfig.toJson,
    Value.dialect_fields, Value.fields?_record, Fields.withDefault, Fields.get?, Dialect.word,
    Value.upTo_natural, hring, hbuffer, hdrain, hwrite, hlayout]

theorem ConnectionConfig.inWidth_of_ofJson {value : Value} {c : ConnectionConfig}
    (h : ConnectionConfig.ofJson? value = some c) : c.InWidth := by
  obtain ⟨told, -, hc⟩ := ConnectionConfig.ofJson?_eq_some_iff.mp h
  exact ⟨orStandard_le (by decide) hc.ringCapacity,
    orStandard_holds nofun (Value.optional_holds Value.le_of_upTo) hc.readBufferSize,
    orStandard_le (by decide) hc.drainInterval, orStandard_le (by decide) hc.writeTimeout,
    orStandard_holds nofun (Value.optional_holds Stream.Layout.inWidth_of_ofJson) hc.diagnostics⟩

theorem HotplugConfig.ofJson_toJson {c : HotplugConfig} (h : c.InWidth) :
    HotplugConfig.ofJson? c.toJson = some c := by
  simp [HotplugConfig.ofJson?, HotplugConfig.read, HotplugConfig.toJson, Value.dialect_fields,
    Value.fields?_record, Fields.required, Fields.get?, Dialect.word, Value.upTo_natural,
    show c.pollInterval ≤ wordMax from h]

theorem HotplugConfig.inWidth_of_ofJson {value : Value} {c : HotplugConfig}
    (h : HotplugConfig.ofJson? value = some c) : c.InWidth := by
  obtain ⟨told, -, hpoll⟩ := HotplugConfig.ofJson?_eq_some_iff.mp h
  obtain ⟨value, -, hvalue⟩ := Option.bind_eq_some_iff.mp hpoll
  exact Value.le_of_upTo hvalue

theorem MonitorConfig.ofJson_toJson {c : MonitorConfig} (h : c.InWidth) :
    MonitorConfig.ofJson? c.toJson = some c := by
  have hdevice : Value.dialect.optional Value.dialect.text (Value.optional .text c.device) =
      some c.device := Value.optional_optional (fun _ => rfl) fun _ _ => rfl
  have haddress : Value.dialect.optional (Net.SocketAddress.read Value.dialect)
      (Value.optional (fun a => .text a.text) c.metricsAddress) = some c.metricsAddress :=
    Value.optional_optional (fun _ => rfl) fun a _ => a.parse_text
  have hconnection : ConnectionConfig.read Value.dialect c.connection.toJson = some c.connection :=
    ConnectionConfig.ofJson_toJson h.1
  have hhotplug : HotplugConfig.read Value.dialect c.hotplug.toJson = some c.hotplug :=
    HotplugConfig.ofJson_toJson h.2
  simp [MonitorConfig.ofJson?, MonitorConfig.read, MonitorConfig.toJson, Value.dialect_fields,
    Value.fields?_record, Fields.withDefault, Fields.get?, Value.dialect_text, hdevice, haddress,
    hconnection, hhotplug]

theorem MonitorConfig.inWidth_of_ofJson {value : Value} {c : MonitorConfig}
    (h : MonitorConfig.ofJson? value = some c) : c.InWidth := by
  obtain ⟨told, -, hc⟩ := MonitorConfig.ofJson?_eq_some_iff.mp h
  have hconnection : ConnectionConfig.InWidth {} :=
    ⟨by decide, nofun, by decide, by decide, nofun⟩
  have hhotplug : HotplugConfig.standard.InWidth := by decide
  exact ⟨orStandard_holds hconnection ConnectionConfig.inWidth_of_ofJson hc.connection,
    orStandard_holds hhotplug HotplugConfig.inWidth_of_ofJson hc.hotplug⟩

theorem Stream.LossSummary.ofJson_toJson {s : Stream.LossSummary} (h : s.InWidth) :
    Stream.LossSummary.ofJson? s.toJson = some s := by
  obtain ⟨htotal, hloss, hclean, hframes⟩ := h
  simp [Stream.LossSummary.ofJson?, Stream.LossSummary.toJson, Value.fields?_record,
    Fields.required, Fields.get?, Dialect.word, Value.half?, Value.upTo_natural, htotal, hloss,
    hclean, hframes]

theorem Stream.LossSummary.inWidth_of_ofJson {value : Value} {s : Stream.LossSummary}
    (h : Stream.LossSummary.ofJson? value = some s) : s.InWidth := by
  simp only [Stream.LossSummary.ofJson?, Option.bind_eq_bind, Option.bind_eq_some_iff] at h
  obtain ⟨fields, -, totalLoss, htotal, maxLoss, hloss, maxClean, hclean, totalFrames, hframes,
    hs⟩ := h
  cases hs
  exact ⟨Value.required_le htotal, Value.required_le hloss, Value.required_le hclean,
    Value.required_le hframes⟩

theorem LineParameters.ofJson_toJson (p : LineParameters) :
    LineParameters.ofJson? p.toJson = some p := by
  have hbaud : Value.half? (.natural p.baudRate.toNat) = some p.baudRate.toNat :=
    Value.upTo_natural (Nat.le_of_lt_succ p.baudRate.toNat_lt)
  simp [LineParameters.ofJson?, LineParameters.toJson, Value.fields?_record, Fields.required,
    Fields.get?, hbaud, DataBits.ofJson_text, StopBits.ofJson_text, Parity.ofJson_text]

theorem DeviceInfo.ofJson_toJson (d : DeviceInfo) : DeviceInfo.ofJson? d.toJson = some d := by
  have hname : Value.dialect.optional Value.text? (Value.optional .text d.productName) =
      some d.productName := Value.optional_optional (fun _ => rfl) fun _ _ => rfl
  have hclass : Value.dialect.optional Value.dialect.byte
      (Value.optional (fun c : UInt8 => .natural c.toNat) d.deviceClass) = some d.deviceClass :=
    Value.optional_optional (fun _ => rfl) fun c _ => Value.byte_natural c
  have htext : ∀ s : String, (Value.text s).text? = some s := fun _ => rfl
  simp [DeviceInfo.ofJson?, DeviceInfo.toJson, Value.fields?_record, Fields.required,
    Fields.withDefault, Fields.get?, Value.quarter_natural, htext, hname, hclass]

theorem DeviceEvent.ofJson_toJson (e : DeviceEvent) : DeviceEvent.ofJson? e.toJson = some e := by
  have htext : ∀ s : String, (Value.text s).text? = some s := fun _ => rfl
  simp [DeviceEvent.ofJson?, DeviceEvent.toJson, Value.fields?_record, Fields.required,
    Fields.get?, htext, DeviceEventKind.ofJson_text]

/-! ## All types -/

namespace Json

/-- The types that have a JSON form. -/
inductive Kind
  | monitorConfig | connectionConfig | layout | hotplugConfig | lossSummary | lineParameters
  | deviceInfo | deviceEvent | dataBits | stopBits | parity | driverKind | deviceEventKind
  | connectionState

namespace Kind

abbrev Carrier : Kind → Type
  | monitorConfig => MonitorConfig
  | connectionConfig => ConnectionConfig
  | layout => Stream.Layout
  | hotplugConfig => HotplugConfig
  | lossSummary => Stream.LossSummary
  | lineParameters => LineParameters
  | deviceInfo => DeviceInfo
  | deviceEvent => DeviceEvent
  | dataBits => DataBits
  | stopBits => StopBits
  | parity => Parity
  | driverKind => DriverKind
  | deviceEventKind => DeviceEventKind
  | connectionState => ConnectionState

/-- How the values of each type are written and read. -/
def form : (k : Kind) → Form k.Carrier
  | monitorConfig => ⟨MonitorConfig.toJson, MonitorConfig.ofJson?, MonitorConfig.InWidth⟩
  | connectionConfig =>
    ⟨ConnectionConfig.toJson, ConnectionConfig.ofJson?, ConnectionConfig.InWidth⟩
  | layout => ⟨Stream.Layout.toJson, Stream.Layout.ofJson?, Stream.Layout.InWidth⟩
  | hotplugConfig => ⟨HotplugConfig.toJson, HotplugConfig.ofJson?, HotplugConfig.InWidth⟩
  | lossSummary =>
    ⟨Stream.LossSummary.toJson, Stream.LossSummary.ofJson?, Stream.LossSummary.InWidth⟩
  | lineParameters => ⟨LineParameters.toJson, LineParameters.ofJson?, fun _ => True⟩
  | deviceInfo => ⟨DeviceInfo.toJson, DeviceInfo.ofJson?, fun _ => True⟩
  | deviceEvent => ⟨DeviceEvent.toJson, DeviceEvent.ofJson?, fun _ => True⟩
  | dataBits => ⟨fun b => .text b.name, DataBits.ofJson?, fun _ => True⟩
  | stopBits => ⟨fun b => .text b.name, StopBits.ofJson?, fun _ => True⟩
  | parity => ⟨fun p => .text p.name, Parity.ofJson?, fun _ => True⟩
  | driverKind => ⟨fun k => .text k.name, DriverKind.ofJson?, fun _ => True⟩
  | deviceEventKind => ⟨fun k => .text k.name, DeviceEventKind.ofJson?, fun _ => True⟩
  | connectionState => ⟨fun s => .text s.name, ConnectionState.ofJson?, fun _ => True⟩

theorem form_faithful (k : Kind) : k.form.Faithful := by
  cases k with
  | monitorConfig => exact ⟨MonitorConfig.ofJson_toJson, MonitorConfig.inWidth_of_ofJson⟩
  | connectionConfig =>
    exact ⟨ConnectionConfig.ofJson_toJson, ConnectionConfig.inWidth_of_ofJson⟩
  | layout => exact ⟨Stream.Layout.ofJson_toJson, Stream.Layout.inWidth_of_ofJson⟩
  | hotplugConfig => exact ⟨HotplugConfig.ofJson_toJson, HotplugConfig.inWidth_of_ofJson⟩
  | lossSummary =>
    exact ⟨Stream.LossSummary.ofJson_toJson, Stream.LossSummary.inWidth_of_ofJson⟩
  | lineParameters => exact ⟨fun {p} _ => p.ofJson_toJson, fun _ => trivial⟩
  | deviceInfo => exact ⟨fun {d} _ => d.ofJson_toJson, fun _ => trivial⟩
  | deviceEvent => exact ⟨fun {e} _ => e.ofJson_toJson, fun _ => trivial⟩
  | dataBits => exact ⟨fun {b} _ => b.ofJson_text, fun _ => trivial⟩
  | stopBits => exact ⟨fun {b} _ => b.ofJson_text, fun _ => trivial⟩
  | parity => exact ⟨fun {p} _ => p.ofJson_text, fun _ => trivial⟩
  | driverKind => exact ⟨fun {k} _ => k.ofJson_text, fun _ => trivial⟩
  | deviceEventKind => exact ⟨fun {k} _ => k.ofJson_text, fun _ => trivial⟩
  | connectionState => exact ⟨fun {s} _ => s.ofJson_text, fun _ => trivial⟩

end Kind

/-- The types survive their JSON form. A value is read back from its text; what any text is read as
is read back from the text printed of it, and that text is stable; and equal texts are texts of
equal values. -/
theorem every_type_survives_its_json_form (k : Kind) :
    (∀ v, k.form.InWidth v → k.form.parse? (k.form.print v) = some v) ∧
    (∀ text v, k.form.parse? text = some v →
      k.form.InWidth v ∧ k.form.parse? (k.form.print v) = some v ∧
        k.form.canonical? (k.form.print v) = some (k.form.print v)) ∧
    (∀ v w, k.form.InWidth v → k.form.InWidth w → k.form.print v = k.form.print w → v = w) := by
  have hform := k.form_faithful
  refine ⟨fun v hv => hform.parse_print hv, fun text v hread => ?_, fun v w => hform.print_inj⟩
  have hv := hform.inWidth_of_parse hread
  exact ⟨hv, hform.parse_print hv, hform.canonical_print hv⟩

/-- A configuration with escapes and an address, a text with an array in it, and two texts that
differ. -/
theorem a_configuration_survives_its_json_form :
    let f := Kind.monitorConfig.form
    let address := Net.SocketAddress.long ⟨[0x2001, 0, 0, 0, 0, 0, 0, 1], rfl⟩ 3 9
    let v : MonitorConfig := { logLevel := "\"\\\n", metricsAddress := some address }
    let w : MonitorConfig := { hotplug := { pollInterval := 7 } }
    f.parse? (f.print v) = some v ∧ f.canonical? (f.print w) = some (f.print w) ∧
      f.print v ≠ f.print w := by
  intro f address v w
  have hv : f.InWidth v :=
    ⟨⟨by decide, nofun, by decide, by decide, nofun⟩, by decide⟩
  have hread : f.parse? "\x7b \"hotplug\" : [7] \x7d" = some w := rfl
  have hlaw := every_type_survives_its_json_form .monitorConfig
  have hw := hlaw.2.1 _ w hread
  exact ⟨hlaw.1 v hv, hw.2.2, fun heq => absurd (hlaw.2.2 v w hv hw.1 heq) (by decide)⟩

end Json

end SerialLink
