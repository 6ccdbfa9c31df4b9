-- Where a setting of the monitor comes from: the command line, else the
-- environment, else the file, else the standard value. A layout of frames is
-- never replaced by the command line; it fills in the standard one.
import SerialLink.Monitor.Load
import SerialLink.Proofs.Settings.Readings

namespace SerialLink

/-! ## Command lines -/

/-- Both command lines, of which the second one wins. -/
def CommandLine.followedBy (first second : CommandLine) : CommandLine where
  config := second.config.or first.config
  device := second.device.or first.device
  list := first.list || second.list
  send := second.send.or first.send
  diagnostics := first.diagnostics || second.diagnostics
  logLevel := second.logLevel.or first.logLevel

theorem CommandLine.followedBy_self (line : CommandLine) : line.followedBy line = line := by
  simp [followedBy]

namespace MonitorConfig

open Settings (Address Entries Path layered)
open Settings.Environment (entries)
open Settings.Value (ReadAt dialect told?)

section Apply

variable {c : MonitorConfig} {line : CommandLine}

/-- A command line replaces no layout. -/
theorem diagnostics_apply : (c.apply line).connection.diagnostics =
    c.connection.diagnostics.or (if line.diagnostics then some {} else none) := by
  unfold apply
  cases line.diagnostics
  · exact Option.or_none.symm
  · rfl

theorem apply_followedBy (c : MonitorConfig) (first second : CommandLine) :
    (c.apply first).apply second = c.apply (first.followedBy second) := by
  have hdevice : second.device.or (first.device.or c.device) =
      (second.device.or first.device).or c.device := Option.or_assoc.symm
  have hlevel : second.logLevel.getD (first.logLevel.getD c.logLevel) =
      (second.logLevel.or first.logLevel).getD c.logLevel := by
    cases second.logLevel <;> rfl
  have hlayout : ((c.apply first).apply second).connection.diagnostics =
      (c.apply (first.followedBy second)).connection.diagnostics := by
    rw [diagnostics_apply, diagnostics_apply, diagnostics_apply, Option.or_assoc]
    cases hfirst : first.diagnostics <;> cases hsecond : second.diagnostics <;>
      simp [CommandLine.followedBy, hfirst, hsecond]
  simp only [apply, CommandLine.followedBy, hdevice, hlevel] at hlayout ⊢
  rw [hlayout]

end Apply

/-! ## Leaves -/

/-- The settings that are no records. -/
inductive Leaf
  | logLevel | device | metricsAddress
  | ringCapacity | readBufferSize | drainInterval | writeTimeout
  | firstMarker | secondMarker | sequenceOffset | subIndexOffset
  | pollInterval

/-- Where the layout of frames is told. -/
def layoutAddress : Address := [.field "connection" 3, .field "diagnostics" 4]

namespace Leaf

abbrev Kind : Leaf → Type
  | logLevel => String
  | device => Option String
  | metricsAddress => Option Net.SocketAddress
  | readBufferSize => Option Nat
  | firstMarker | secondMarker => UInt8
  | ringCapacity | drainInterval | writeTimeout | sequenceOffset | subIndexOffset
  | pollInterval => Nat

def address : Leaf → Address
  | logLevel => [.field "log_level" 0]
  | device => [.field "device" 1]
  | metricsAddress => [.field "metrics_addr" 2]
  | ringCapacity => [.field "connection" 3, .field "ring_capacity" 0]
  | readBufferSize => [.field "connection" 3, .field "read_buffer_size" 1]
  | drainInterval => [.field "connection" 3, .field "drain_interval_ms" 2]
  | writeTimeout => [.field "connection" 3, .field "write_timeout_ms" 3]
  | firstMarker => layoutAddress ++ [.field "markers" 0, .item 0]
  | secondMarker => layoutAddress ++ [.field "markers" 0, .item 1]
  | sequenceOffset => layoutAddress ++ [.field "sequence_offset" 1]
  | subIndexOffset => layoutAddress ++ [.field "sub_index_offset" 2]
  | pollInterval => [.field "hotplug" 4, .field "poll_interval_ms" 0]

def read : (leaf : Leaf) → Settings.Value → Option leaf.Kind
  | logLevel => dialect.text
  | device => dialect.optional dialect.text
  | metricsAddress => dialect.optional (Net.SocketAddress.read dialect)
  | readBufferSize => dialect.optional dialect.word
  | firstMarker | secondMarker => dialect.byte
  | ringCapacity | drainInterval | writeTimeout | sequenceOffset | subIndexOffset
  | pollInterval => dialect.word

def standard : (leaf : Leaf) → leaf.Kind
  | logLevel => ({} : MonitorConfig).logLevel
  | device => ({} : MonitorConfig).device
  | metricsAddress => ({} : MonitorConfig).metricsAddress
  | ringCapacity => ({} : ConnectionConfig).ringCapacity
  | readBufferSize => ({} : ConnectionConfig).readBufferSize
  | drainInterval => ({} : ConnectionConfig).drainInterval
  | writeTimeout => ({} : ConnectionConfig).writeTimeout
  | firstMarker => ({} : Stream.Layout).markers.1
  | secondMarker => ({} : Stream.Layout).markers.2
  | sequenceOffset => ({} : Stream.Layout).sequenceOffset
  | subIndexOffset => ({} : Stream.Layout).subIndexOffset
  | pollInterval => HotplugConfig.standard.pollInterval

def inLayout : Leaf → Bool
  | firstMarker | secondMarker | sequenceOffset | subIndexOffset => true
  | _ => false

/-- What a configuration has there; there may be no layout. -/
def value? : (leaf : Leaf) → MonitorConfig → Option leaf.Kind
  | logLevel, c => some c.logLevel
  | device, c => some c.device
  | metricsAddress, c => some c.metricsAddress
  | ringCapacity, c => some c.connection.ringCapacity
  | readBufferSize, c => some c.connection.readBufferSize
  | drainInterval, c => some c.connection.drainInterval
  | writeTimeout, c => some c.connection.writeTimeout
  | firstMarker, c => c.connection.diagnostics.map (·.markers.1)
  | secondMarker, c => c.connection.diagnostics.map (·.markers.2)
  | sequenceOffset, c => c.connection.diagnostics.map (·.sequenceOffset)
  | subIndexOffset, c => c.connection.diagnostics.map (·.subIndexOffset)
  | pollInterval, c => some c.hotplug.pollInterval

/-- What a command line sets there. -/
def given : (leaf : Leaf) → CommandLine → Option leaf.Kind
  | logLevel, line => line.logLevel
  | device, line => line.device.map some
  | _, _ => none

/-- What a source tells there. -/
def told? (leaf : Leaf) (source : Entries) : Option Settings.Value :=
  Settings.Value.told? leaf.address (layered [source])

/-- The setting of the later source, else that of the earlier one, else the standard value. -/
def configured? (leaf : Leaf) (earlier later : Entries) : Option leaf.Kind :=
  match leaf.told? later, leaf.told? earlier with
  | some v, _ => leaf.read v
  | none, some v => leaf.read v
  | none, none => some leaf.standard

/-- Two sources are merged here: the later one wins. -/
def Merged (leaf : Leaf) (earlier later : Entries) : Prop :=
  Settings.Value.told? leaf.address (layered [earlier, later]) =
    (leaf.told? later).or (leaf.told? earlier)

variable {leaf : Leaf} {v : Settings.Value} {c : MonitorConfig}

theorem address_ne_nil : leaf.address ≠ [] := by cases leaf <;> exact List.cons_ne_nil _ _

theorem configured?_eq (earlier later : Entries) : leaf.configured? earlier later =
    ((leaf.told? later).or (leaf.told? earlier)).elim (some leaf.standard) leaf.read := by
  unfold configured?
  cases leaf.told? later <;> cases leaf.told? earlier <;> rfl

end Leaf

/-! ## Readings -/

section Readings

variable {v : Settings.Value} {c : MonitorConfig} {l : Stream.Layout} {α : Type} {standard x : α}

theorem readAt_layout (h : MonitorConfig.read dialect v = some c) :
    ReadAt layoutAddress (dialect.optional (Stream.Layout.read dialect)) none v
      c.connection.diagnostics :=
  (readFrom h).connection.inner (fun _ hw => (ConnectionConfig.readFrom hw).diagnostics)
    (congrArg ConnectionConfig.diagnostics)

theorem layout_of_optional {w : Settings.Value}
    (h : dialect.optional (Stream.Layout.read dialect) w = some (some l)) :
    Stream.Layout.read dialect w = some l := by
  unfold Document.Dialect.optional at h
  split at h
  · cases h
  · simpa using h

theorem readAt_inLayout {b : Address} {read : Settings.Value → Option α}
    (h : MonitorConfig.read dialect v = some c) (hl : c.connection.diagnostics = some l)
    (hinner : ∀ w, Stream.Layout.read dialect w = some l → ReadAt b read standard w x) :
    ReadAt (layoutAddress ++ b) read standard v x := by
  have hlayout := readAt_layout h
  rw [hl] at hlayout
  exact hlayout.inner (fun w hw => hinner w (layout_of_optional hw)) nofun

/-- A layout is configured just where settings tell one. -/
theorem isSome_layout (h : MonitorConfig.read dialect v = some c) :
    c.connection.diagnostics.isSome = (told? layoutAddress v).isSome := by
  have hlayout := readAt_layout h
  unfold ReadAt at hlayout
  cases htold : told? layoutAddress v with
  | none =>
    rw [htold] at hlayout
    rw [← Option.some.inj hlayout]
    rfl
  | some w =>
    have hthere : dialect.isNull w = false := Settings.Value.isNothing_of_told htold
    rw [htold, Option.elim_some, Document.Dialect.optional, hthere] at hlayout
    obtain ⟨l, -, hl⟩ := Option.map_eq_some_iff.mp hlayout
    rw [← hl]
    rfl

theorem readAt_leaf {leaf : Leaf} {x : leaf.Kind} (h : MonitorConfig.read dialect v = some c)
    (hx : leaf.value? c = some x) : ReadAt leaf.address leaf.read leaf.standard v x := by
  have hc := readFrom h
  cases leaf with
  | logLevel => cases hx; exact hc.logLevel
  | device => cases hx; exact hc.device
  | metricsAddress => cases hx; exact hc.metricsAddress
  | ringCapacity =>
    cases hx
    exact hc.connection.inner (fun w hw => (ConnectionConfig.readFrom hw).ringCapacity)
      (congrArg ConnectionConfig.ringCapacity)
  | readBufferSize =>
    cases hx
    exact hc.connection.inner (fun w hw => (ConnectionConfig.readFrom hw).readBufferSize)
      (congrArg ConnectionConfig.readBufferSize)
  | drainInterval =>
    cases hx
    exact hc.connection.inner (fun w hw => (ConnectionConfig.readFrom hw).drainInterval)
      (congrArg ConnectionConfig.drainInterval)
  | writeTimeout =>
    cases hx
    exact hc.connection.inner (fun w hw => (ConnectionConfig.readFrom hw).writeTimeout)
      (congrArg ConnectionConfig.writeTimeout)
  | firstMarker =>
    obtain ⟨l, hl, rfl⟩ := Option.map_eq_some_iff.mp hx
    refine readAt_inLayout (b := [.field "markers" 0, .item 0]) h hl fun w hw => ?_
    exact (Stream.Layout.readFrom hw).markers.inner (b := [.item 0])
      (fun w hw => (Stream.Layout.readFrom_markers hw _).1) (congrArg Prod.fst)
  | secondMarker =>
    obtain ⟨l, hl, rfl⟩ := Option.map_eq_some_iff.mp hx
    refine readAt_inLayout (b := [.field "markers" 0, .item 1]) h hl fun w hw => ?_
    exact (Stream.Layout.readFrom hw).markers.inner (b := [.item 1])
      (fun w hw => (Stream.Layout.readFrom_markers hw _).2) (congrArg Prod.snd)
  | sequenceOffset =>
    obtain ⟨l, hl, rfl⟩ := Option.map_eq_some_iff.mp hx
    exact readAt_inLayout h hl fun w hw => (Stream.Layout.readFrom hw).sequenceOffset
  | subIndexOffset =>
    obtain ⟨l, hl, rfl⟩ := Option.map_eq_some_iff.mp hx
    exact readAt_inLayout h hl fun w hw => (Stream.Layout.readFrom hw).subIndexOffset
  | pollInterval =>
    cases hx
    exact hc.hotplug.inner (fun w hw => HotplugConfig.readFrom hw)
      (congrArg HotplugConfig.pollInterval)

/-- Where nothing tells a layout, nothing tells a part of it. -/
theorem told?_inLayout {leaf : Leaf} (hleaf : leaf.inLayout = true)
    (h : told? layoutAddress v = none) : told? leaf.address v = none := by
  cases leaf with
  | firstMarker | secondMarker | sequenceOffset | subIndexOffset =>
    rw [Leaf.address, Settings.Value.told?_append, h, Option.bind_none]
  | _ => cases hleaf

end Readings

/-! ## Command lines over leaves -/

section Given

variable {c : MonitorConfig} {line : CommandLine} {leaf : Leaf}

/-- A command line does to a leaf what it sets there, and a layout that it fills in is standard. -/
theorem value?_apply (hleaf : leaf.inLayout = true → (c.apply line).connection.diagnostics.isSome) :
    leaf.value? (c.apply line) = (leaf.given line).or
      (if leaf.inLayout && c.connection.diagnostics.isNone then some leaf.standard
        else leaf.value? c) := by
  cases leaf with
  | logLevel | device =>
    cases hline : line.logLevel <;> cases hdevice : line.device <;>
      simp [Leaf.value?, Leaf.given, Leaf.inLayout, apply, hline, hdevice]
  | firstMarker | secondMarker | sequenceOffset | subIndexOffset =>
    have hthere := hleaf rfl
    cases hl : c.connection.diagnostics <;> cases hline : line.diagnostics <;>
      simp_all [Leaf.value?, Leaf.given, Leaf.inLayout, Leaf.standard, apply]
  | _ => rfl

theorem exists_value (h : leaf.inLayout = true → c.connection.diagnostics.isSome) :
    ∃ x, leaf.value? c = some x := by
  cases leaf with
  | firstMarker | secondMarker | sequenceOffset | subIndexOffset =>
    obtain ⟨l, hl⟩ := Option.isSome_iff_exists.mp (h rfl)
    exact ⟨_, congrArg (Option.map _) hl⟩
  | _ => exact ⟨_, rfl⟩

end Given

/-! ## Layers -/

/-- A source tells a layout of frames, or a part of one. -/
def tellsLayout (source : Entries) : Bool := (told? layoutAddress (layered [source])).isSome

/-- The layout that two sources make up. -/
def configuredLayout? (earlier later : Entries) : Option Stream.Layout := do
  let first ← Leaf.firstMarker.configured? earlier later
  let second ← Leaf.secondMarker.configured? earlier later
  let sequenceOffset ← Leaf.sequenceOffset.configured? earlier later
  let subIndexOffset ← Leaf.subIndexOffset.configured? earlier later
  pure { markers := (first, second), sequenceOffset, subIndexOffset }

/-- Two sources are merged in the layout: it is there where one of them tells it. -/
structure LayoutMerged (earlier later : Entries) : Prop where
  told : (told? layoutAddress (layered [earlier, later])).isSome =
    (tellsLayout later || tellsLayout earlier)
  leaf : ∀ leaf : Leaf, leaf.inLayout = true → leaf.Merged earlier later

/-- The file tells the records around a leaf by name, and no variable replaces one of them or sets
a mere part of the leaf. -/
def Leaf.Separate (leaf : Leaf) (file : Entries) (environment : List (String × String)) : Prop :=
  leaf.address.Clear file environment ∧ leaf.address.SetWhole environment

instance (leaf : Leaf) (file : Entries) (environment : List (String × String)) :
    Decidable (leaf.Separate file environment) := inferInstanceAs (Decidable (_ ∧ _))

/-- The same for the layout and all of its leaves. -/
def LayoutSeparate (file : Entries) (environment : List (String × String)) : Prop :=
  layoutAddress.Clear file environment ∧
    ∀ leaf : Leaf, leaf.inLayout = true → leaf.Separate file environment

variable {c : MonitorConfig} {line : CommandLine} {leaf : Leaf} {earlier later : Entries}
variable {file : Entries} {environment : List (String × String)}

/-- File and environment are merged in a leaf that is set apart. -/
theorem Leaf.Separate.merged (h : leaf.Separate file environment) :
    leaf.Merged file (entries environment) :=
  h.1.told?_layered leaf.address_ne_nil h.2

/-- A file may tell a record as the list of its fields, but a variable for one of them makes a new
table of the record, and what the list tells of the others is lost. -/
example : ¬ Leaf.readBufferSize.Merged [("connection", .list [.integer 10, .integer 20])]
    [("connection.ring_capacity", .text "7")] := fun h =>
  absurd (congrArg Option.isSome h) (by decide +kernel)

theorem LayoutSeparate.merged (h : LayoutSeparate file environment) :
    LayoutMerged file (entries environment) where
  told := h.1.isSome_layered (List.cons_ne_nil _ _)
  leaf leaf hin := (h.2 leaf hin).merged

theorem configured?_of_value {x : leaf.Kind} (hleaf : leaf.Merged earlier later)
    (h : MonitorConfig.read dialect (layered [earlier, later]) = some c)
    (hx : leaf.value? c = some x) : leaf.configured? earlier later = some x := by
  rw [Leaf.configured?_eq, ← hleaf]
  exact readAt_leaf h hx

theorem value?_of_merged (hleaf : leaf.Merged earlier later)
    (h : MonitorConfig.read dialect (layered [earlier, later]) = some c)
    (hthere : leaf.inLayout = true → (c.apply line).connection.diagnostics.isSome) :
    leaf.value? (c.apply line) = (leaf.given line).or (leaf.configured? earlier later) := by
  rw [value?_apply hthere]
  split
  · rename_i hfilled
    obtain ⟨hin, hnone⟩ := (Bool.and_eq_true _ _).mp hfilled
    have htold : told? layoutAddress (layered [earlier, later]) = none := by
      rw [← Option.not_isSome_iff_eq_none, ← isSome_layout h]
      simpa using hnone
    rw [Leaf.configured?_eq, ← hleaf, told?_inLayout hin htold]
    rfl
  · rename_i hfilled
    have hlayout : leaf.inLayout = true → c.connection.diagnostics.isSome := fun hin => by
      simpa [hin, Option.isSome_iff_ne_none] using hfilled
    obtain ⟨x, hx⟩ := exists_value hlayout
    rw [hx, configured?_of_value hleaf h hx]

theorem layout_of_merged (hmerged : LayoutMerged earlier later)
    (h : MonitorConfig.read dialect (layered [earlier, later]) = some c) :
    if tellsLayout later || tellsLayout earlier then
      ∃ l, configuredLayout? earlier later = some l ∧ c.connection.diagnostics = some l
    else c.connection.diagnostics = none := by
  have htold := (isSome_layout h).trans hmerged.told
  split
  · rename_i hsome
    obtain ⟨l, hl⟩ := Option.isSome_iff_exists.mp (htold.trans hsome)
    have hfirst := configured?_of_value (hmerged.leaf .firstMarker rfl) h
      (congrArg (Option.map _) hl)
    have hsecond := configured?_of_value (hmerged.leaf .secondMarker rfl) h
      (congrArg (Option.map _) hl)
    have hsequence := configured?_of_value (hmerged.leaf .sequenceOffset rfl) h
      (congrArg (Option.map _) hl)
    have hsub := configured?_of_value (hmerged.leaf .subIndexOffset rfl) h
      (congrArg (Option.map _) hl)
    refine ⟨l, ?_, hl⟩
    rw [configuredLayout?, hfirst, hsecond, hsequence, hsub]
    rfl
  · rename_i hnone
    exact Option.not_isSome_iff_eq_none.mp (htold ▸ hnone)

theorem load_eq_ok_iff {files : String → Option ConfigFile} :
    load line files environment = .ok c ↔ ∃ file base, fileEntries line.config files = .ok file ∧
      MonitorConfig.read dialect (layered [file, entries environment]) = some base ∧
      c = base.apply line := by
  unfold load ofSettings
  cases hfile : fileEntries line.config files with
  | error e => simp [bind, Except.bind]
  | ok file =>
    cases hread : MonitorConfig.read dialect (layered [file, entries environment]) <;>
      simp [hread, bind, Except.bind, pure, Except.pure, eq_comm]

/-- Wherever sources are merged leaf by leaf, a setting is that of the command line, else of the
environment, else of the file, else the standard one. A configured layout stays whatever the
command line says, and one that it asks for where there is none is the standard one. Nothing else
depends on the command line, and of two command lines one after the other the second one wins.
Sources are merged where the file tells records by name and no variable replaces a record. -/
theorem settings_come_in_layers {files : String → Option ConfigFile}
    (h : load line files environment = .ok c) :
    ∃ file, fileEntries line.config files = .ok file ∧
      (∀ leaf : Leaf, leaf.Merged file (entries environment) →
        (leaf.inLayout = true → c.connection.diagnostics.isSome) →
        leaf.value? c = (leaf.given line).or (leaf.configured? file (entries environment))) ∧
      (LayoutMerged file (entries environment) →
        if tellsLayout (entries environment) || tellsLayout file then
          ∃ l, configuredLayout? file (entries environment) = some l ∧
            c.connection.diagnostics = some l
        else c.connection.diagnostics = if line.diagnostics then some {} else none) ∧
      (∀ other : CommandLine, fileEntries other.config files = .ok file →
        ∃ c', load other files environment = .ok c' ∧
          c'.metricsAddress = c.metricsAddress ∧ c'.hotplug = c.hotplug ∧
          { c'.connection with diagnostics := none } = { c.connection with diagnostics := none }) ∧
      (∀ (base : MonitorConfig) (first second : CommandLine),
        (base.apply first).apply first = base.apply first ∧
        (base.apply first).apply second = base.apply (first.followedBy second)) ∧
      (∀ leaf : Leaf, leaf.Separate file environment → leaf.Merged file (entries environment)) ∧
      (LayoutSeparate file environment → LayoutMerged file (entries environment)) := by
  obtain ⟨file, base, hfile, hbase, rfl⟩ := load_eq_ok_iff.mp h
  refine ⟨file, hfile, fun leaf hleaf => value?_of_merged hleaf hbase, fun hmerged => ?_,
    fun other hother => ?_, fun base first second => ⟨?_, apply_followedBy base first second⟩,
    fun leaf => Leaf.Separate.merged, LayoutSeparate.merged⟩
  · have hlayout := layout_of_merged hmerged hbase
    rw [diagnostics_apply]
    split at hlayout
    · rename_i htold
      obtain ⟨l, hconfigured, hl⟩ := hlayout
      rw [if_pos htold, hl]
      exact ⟨l, hconfigured, rfl⟩
    · rename_i htold
      rw [if_neg htold, hlayout, Option.none_or]
  · exact ⟨base.apply other, load_eq_ok_iff.mpr ⟨file, base, hother, hbase, rfl⟩, rfl, rfl, rfl⟩
  · rw [apply_followedBy, CommandLine.followedBy_self]

/-! A file, a variable and a command line that each have something to say. -/

def sampleFile : ConfigFile where
  ending := "json"
  text := "\x7b\"log_level\":\"warn\",\"device\":\"a\"\x7d"

def sampleEnvironment : List (String × String) := [("SERIAL_MONITOR__LOG_LEVEL", "debug")]

def sampleLine : CommandLine :=
  { config := some "monitor.json", device := some "b", diagnostics := true }

def sampleEntries : Entries :=
  (fileEntries sampleLine.config fun _ => some sampleFile).toOption.getD []

def sampleConfig : MonitorConfig :=
  { logLevel := "debug", device := some "b", connection := { diagnostics := some {} } }

/-- The level is that of the variable, the device that of the command line, the layout standard. -/
theorem a_variable_wins_over_a_file :
    load sampleLine (fun _ => some sampleFile) sampleEnvironment = .ok sampleConfig ∧
      ∃ file, fileEntries sampleLine.config (fun _ => some sampleFile) = .ok file ∧
        Leaf.logLevel.value? sampleConfig =
          Leaf.logLevel.configured? file (entries sampleEnvironment) ∧
        Leaf.device.value? sampleConfig = some (some "b") ∧
        LayoutMerged file (entries sampleEnvironment) := by
  -- one evaluation for all of it, as each one has to read the names of the variables anew
  have hfacts : load sampleLine (fun _ => some sampleFile) sampleEnvironment = .ok sampleConfig ∧
      Leaf.logLevel.Separate sampleEntries sampleEnvironment ∧
      Leaf.device.Separate sampleEntries sampleEnvironment ∧
      layoutAddress.Clear sampleEntries sampleEnvironment ∧
      Leaf.firstMarker.Separate sampleEntries sampleEnvironment ∧
      Leaf.secondMarker.Separate sampleEntries sampleEnvironment ∧
      Leaf.sequenceOffset.Separate sampleEntries sampleEnvironment ∧
      Leaf.subIndexOffset.Separate sampleEntries sampleEnvironment := by decide +kernel
  obtain ⟨hload, hlevel, hdevice, hclear, hfirst, hsecond, hsequence, hsub⟩ := hfacts
  have hlayout : LayoutSeparate sampleEntries sampleEnvironment := by
    refine ⟨hclear, fun leaf hin => ?_⟩
    cases leaf with
    | firstMarker => exact hfirst
    | secondMarker => exact hsecond
    | sequenceOffset => exact hsequence
    | subIndexOffset => exact hsub
    | _ => cases hin
  obtain ⟨file, hfile, hleaf, -, -, -, hmerged, hlayoutMerged⟩ := settings_come_in_layers hload
  have hentries : sampleEntries = file := by rw [sampleEntries, hfile]; rfl
  rw [hentries] at hlevel hdevice hlayout
  exact ⟨hload, file, hfile, hleaf .logLevel (hmerged _ hlevel) (fun h => absurd h (by decide)),
    hleaf .device (hmerged _ hdevice) (fun h => absurd h (by decide)), hlayoutMerged hlayout⟩

end MonitorConfig

end SerialLink
