-- What a configuration is read from: each field from the value that settings
-- tell for it, or it is the standard one.
import SerialLink.Document.Config
import SerialLink.Proofs.Settings.Layers
import SerialLink.Settings.Dialect

namespace SerialLink.Settings.Value

open Document (Fields)

variable {names : List String} {cut : Bool} {name : String} {index : Nat} {fields : Fields Value}
variable {v : Value} {a b : Address} {α β : Type} {read : Value → Option α} {standard x : α}

/-! ## Fields -/

theorem get?_zip (hnames : names.Nodup) (hname : names[index]? = some name) (items : List Value) :
    Fields.get? (names.zip items) name = items[index]? := by
  induction names generalizing index items with
  | nil => cases hname
  | cons first names ih =>
    obtain ⟨hfirst, hrest⟩ := List.nodup_cons.mp hnames
    cases items with
    | nil => rfl
    | cons item items =>
      cases index with
      | zero =>
        cases hname
        simp [Fields.get?]
      | succ index =>
        rw [List.getElem?_cons_succ] at hname
        have hother : first ≠ name := fun h => hfirst (h ▸ List.mem_of_getElem? hname)
        rw [List.getElem?_cons_succ, ← ih hrest hname items]
        simp [Fields.get?, hother]

/-- A record tells a field under its name in a table, and at its place in a list. -/
theorem get?_fields (h : dialect.fields names cut v = some fields) (hnames : names.Nodup)
    (hname : names[index]? = some name) : fields.get? name = v.field? name index := by
  cases v with
  | table entries =>
    cases h
    exact (Option.or_none).symm
  | list items =>
    cases h
    exact get?_zip hnames hname items
  | _ => cases h

theorem told?_field : told? [.field name index] v = (v.field? name index).bind (told? []) := rfl

theorem told?_nothing : told? a .nothing = none := by
  cases a with
  | nil => rfl
  | cons place rest => cases place <;> rfl

theorem told?_append : told? (a ++ b) v = (told? a v).bind (told? b) := by
  induction a generalizing v with
  | nil =>
    cases v with
    | nothing => exact told?_nothing
    | _ => rfl
  | cons place rest ih =>
    have hrest : told? (rest ++ b) = fun w => (told? rest w).bind (told? b) := funext fun _ => ih
    cases place <;> simp only [List.cons_append, told?, Option.bind_assoc, hrest]

theorem isNothing_of_told {w : Value} (h : told? a v = some w) : w.isNothing = false := by
  induction a generalizing v with
  | nil =>
    cases v with
    | nothing => cases h
    | _ => cases h; rfl
  | cons place rest ih =>
    cases place with
    | field n index =>
      obtain ⟨u, -, hu⟩ := Option.bind_eq_some_iff.mp h
      exact ih hu
    | item index =>
      obtain ⟨u, -, hu⟩ := Option.bind_eq_some_iff.mp h
      exact ih hu

/-! ## Readings -/

/-- A value is read from what settings tell at an address; where they tell nothing there, it is the
standard one. -/
def ReadAt (a : Address) (read : Value → Option α) (standard : α) (v : Value) (x : α) : Prop :=
  (told? a v).elim (some standard) read = some x

theorem readAt_whole (h : read v = some x) (hnothing : ∀ y, read .nothing = some y → y = standard) :
    ReadAt [] read standard v x := by
  cases v with
  | nothing => exact congrArg some (hnothing x h).symm
  | _ => exact h

/-- A field that may be left out. -/
theorem readAt_field (h : dialect.fields names cut v = some fields) (hnames : names.Nodup)
    (hname : names[index]? = some name) (hx : fields.withDefault name standard read = some x)
    (hnothing : ∀ y, read .nothing = some y → y = standard) :
    ReadAt [.field name index] read standard v x := by
  rw [Fields.withDefault, get?_fields h hnames hname] at hx
  rw [ReadAt, told?_field]
  cases hfield : v.field? name index with
  | none => simpa [hfield] using hx
  | some w => exact readAt_whole (by simpa [hfield] using hx) hnothing

/-- A field that has to be told, which is why the standard value never stands for it. -/
theorem readAt_required (h : dialect.fields names cut v = some fields) (hnames : names.Nodup)
    (hname : names[index]? = some name) (hx : fields.required name read = some x)
    (hnothing : read .nothing = none) : ReadAt [.field name index] read standard v x := by
  rw [Fields.required, get?_fields h hnames hname] at hx
  obtain ⟨w, hfield, hw⟩ := Option.bind_eq_some_iff.mp hx
  rw [ReadAt, told?_field, hfield]
  exact readAt_whole hw fun y hy => by rw [hnothing] at hy; cases hy

/-- A field inside a record. -/
theorem ReadAt.inner {readRecord : Value → Option β} {record r : β}
    (h : ReadAt a readRecord record v r)
    (hinner : ∀ w, readRecord w = some r → ReadAt b read standard w x)
    (hstandard : record = r → standard = x) : ReadAt (a ++ b) read standard v x := by
  rw [ReadAt] at h ⊢
  rw [told?_append]
  cases htold : told? a v with
  | none =>
    rw [htold] at h
    exact congrArg some (hstandard (Option.some.inj h))
  | some w =>
    rw [htold] at h
    exact hinner w h

end SerialLink.Settings.Value

namespace SerialLink

open Settings (Value)
open Settings.Value (ReadAt dialect readAt_field readAt_required readAt_whole)

variable {v : Value}

/-! ## Records -/

namespace Stream.Layout

/-- The layout is read so. -/
structure ReadFrom (v : Value) (l : Stream.Layout) : Prop where
  markers : ReadAt [.field "markers" 0] (readMarkers dialect) ({} : Stream.Layout).markers v
    l.markers
  sequenceOffset : ReadAt [.field "sequence_offset" 1] dialect.word
    ({} : Stream.Layout).sequenceOffset v l.sequenceOffset
  subIndexOffset : ReadAt [.field "sub_index_offset" 2] dialect.word
    ({} : Stream.Layout).subIndexOffset v l.subIndexOffset

theorem readFrom {l : Stream.Layout} (h : read dialect v = some l) : ReadFrom v l := by
  simp only [read, Option.bind_eq_bind, Option.bind_eq_some_iff] at h
  obtain ⟨fields, hfields, markers, hmarkers, sequenceOffset, hsequence, subIndexOffset, hsub, hl⟩
    := h
  cases hl
  exact {
    markers := readAt_field hfields (by decide) rfl hmarkers nofun
    sequenceOffset := readAt_field hfields (by decide) rfl hsequence nofun
    subIndexOffset := readAt_field hfields (by decide) rfl hsub nofun }

/-- The two markers are the first two items of a list. -/
theorem readFrom_markers {markers : UInt8 × UInt8} (h : readMarkers dialect v = some markers)
    (standard : UInt8 × UInt8) :
    ReadAt [.item 0] dialect.byte standard.1 v markers.1 ∧
      ReadAt [.item 1] dialect.byte standard.2 v markers.2 := by
  simp only [readMarkers, Option.bind_eq_bind, Option.bind_eq_some_iff] at h
  obtain ⟨⟨first, second⟩, hpair, firstByte, hfirst, secondByte, hsecond, hmarkers⟩ := h
  cases hmarkers
  match v, hpair with
  | .list (first :: second :: rest), hpair =>
    cases hpair
    exact ⟨readAt_whole hfirst nofun, readAt_whole hsecond nofun⟩

end Stream.Layout

namespace ConnectionConfig

/-- The configuration of a connection is read so. -/
structure ReadFrom (v : Value) (c : ConnectionConfig) : Prop where
  ringCapacity : ReadAt [.field "ring_capacity" 0] dialect.word
    ({} : ConnectionConfig).ringCapacity v c.ringCapacity
  readBufferSize : ReadAt [.field "read_buffer_size" 1] (dialect.optional dialect.word)
    ({} : ConnectionConfig).readBufferSize v c.readBufferSize
  drainInterval : ReadAt [.field "drain_interval_ms" 2] dialect.word
    ({} : ConnectionConfig).drainInterval v c.drainInterval
  writeTimeout : ReadAt [.field "write_timeout_ms" 3] dialect.word
    ({} : ConnectionConfig).writeTimeout v c.writeTimeout
  diagnostics : ReadAt [.field "diagnostics" 4] (dialect.optional (Stream.Layout.read dialect))
    ({} : ConnectionConfig).diagnostics v c.diagnostics

theorem readFrom {c : ConnectionConfig} (h : read dialect v = some c) : ReadFrom v c := by
  simp only [read, Option.bind_eq_bind, Option.bind_eq_some_iff] at h
  obtain ⟨fields, hfields, ringCapacity, hring, readBufferSize, hread, drainInterval, hdrain,
    writeTimeout, hwrite, diagnostics, hdiagnostics, hc⟩ := h
  cases hc
  exact {
    ringCapacity := readAt_field hfields (by decide) rfl hring nofun
    readBufferSize := readAt_field hfields (by decide) rfl hread fun _ h => (Option.some.inj h).symm
    drainInterval := readAt_field hfields (by decide) rfl hdrain nofun
    writeTimeout := readAt_field hfields (by decide) rfl hwrite nofun
    diagnostics := readAt_field hfields (by decide) rfl hdiagnostics
      fun _ h => (Option.some.inj h).symm }

end ConnectionConfig

namespace HotplugConfig

theorem readFrom {c : HotplugConfig} (h : read dialect v = some c) :
    ReadAt [.field "poll_interval_ms" 0] dialect.word HotplugConfig.standard.pollInterval v
      c.pollInterval := by
  simp only [read, Option.bind_eq_bind, Option.bind_eq_some_iff] at h
  obtain ⟨fields, hfields, pollInterval, hpoll, hc⟩ := h
  cases hc
  exact readAt_required hfields (by decide) rfl hpoll rfl

end HotplugConfig

namespace MonitorConfig

/-- The configuration of the monitor is read so. -/
structure ReadFrom (v : Value) (c : MonitorConfig) : Prop where
  logLevel : ReadAt [.field "log_level" 0] Value.text? ({} : MonitorConfig).logLevel v c.logLevel
  device : ReadAt [.field "device" 1] (dialect.optional Value.text?)
    ({} : MonitorConfig).device v c.device
  metricsAddress : ReadAt [.field "metrics_addr" 2]
    (dialect.optional (Net.SocketAddress.read dialect)) ({} : MonitorConfig).metricsAddress v
    c.metricsAddress
  connection : ReadAt [.field "connection" 3] (ConnectionConfig.read dialect)
    ({} : MonitorConfig).connection v c.connection
  hotplug : ReadAt [.field "hotplug" 4] (HotplugConfig.read dialect)
    ({} : MonitorConfig).hotplug v c.hotplug

theorem readFrom {c : MonitorConfig} (h : read dialect v = some c) : ReadFrom v c := by
  simp only [read, Option.bind_eq_bind, Option.bind_eq_some_iff] at h
  obtain ⟨fields, hfields, logLevel, hlevel, device, hdevice, metricsAddress, haddress, connection,
    hconnection, hotplug, hhotplug, hc⟩ := h
  cases hc
  exact {
    logLevel := readAt_field hfields (by decide) rfl hlevel nofun
    device := readAt_field hfields (by decide) rfl hdevice fun _ h => (Option.some.inj h).symm
    metricsAddress := readAt_field hfields (by decide) rfl haddress
      fun _ h => (Option.some.inj h).symm
    connection := readAt_field hfields (by decide) rfl hconnection nofun
    hotplug := readAt_field hfields (by decide) rfl hhotplug nofun }

end MonitorConfig

end SerialLink
