-- The records inside a configuration document. What is read from one of them
-- goes into the configuration as a part, and the rest does not depend on it.
import SerialLink.Proofs.Document.Readings

namespace SerialLink

open Json (Value)

/-! ## One record in another -/

section Inner

variable {x x' v v' : Value}

theorem ConnectionConfig.exchange_diagnostics {c : ConnectionConfig}
    (h : Value.Exchanged fieldNames "diagnostics" x x' v v') (hv : ofJson? v = some c) :
    Value.dialect.optional Stream.Layout.ofJson? x = some c.diagnostics ∧
      ∀ d, Value.dialect.optional Stream.Layout.ofJson? x' = some d →
        ofJson? v' = some { c with diagnostics := d } := by
  obtain ⟨told, htold, hc⟩ := ofJson?_eq_some_iff.mp hv
  obtain ⟨hx, htold'⟩ := h.told? (by decide) (by decide) htold
  refine ⟨by simpa [hx] using hc.diagnostics, fun d hd => ?_⟩
  refine ofJson?_eq_some_iff.mpr ⟨_, htold', ?_⟩
  exact {
    ringCapacity := by simpa using hc.ringCapacity
    readBufferSize := by simpa using hc.readBufferSize
    drainInterval := by simpa using hc.drainInterval
    writeTimeout := by simpa using hc.writeTimeout
    diagnostics := by simpa using hd }

theorem MonitorConfig.exchange_connection {c : MonitorConfig}
    (h : Value.Exchanged fieldNames "connection" x x' v v') (hv : ofJson? v = some c) :
    ConnectionConfig.ofJson? x = some c.connection ∧
      ∀ k, ConnectionConfig.ofJson? x' = some k → ofJson? v' = some { c with connection := k } := by
  obtain ⟨told, htold, hc⟩ := ofJson?_eq_some_iff.mp hv
  obtain ⟨hx, htold'⟩ := h.told? (by decide) (by decide) htold
  refine ⟨by simpa [hx] using hc.connection, fun k hk => ?_⟩
  refine ofJson?_eq_some_iff.mpr ⟨_, htold', ?_⟩
  exact {
    logLevel := by simpa using hc.logLevel
    device := by simpa using hc.device
    metricsAddress := by simpa using hc.metricsAddress
    connection := by simpa using hk
    hotplug := by simpa using hc.hotplug }

theorem MonitorConfig.exchange_hotplug {c : MonitorConfig}
    (h : Value.Exchanged fieldNames "hotplug" x x' v v') (hv : ofJson? v = some c) :
    HotplugConfig.ofJson? x = some c.hotplug ∧
      ∀ k, HotplugConfig.ofJson? x' = some k → ofJson? v' = some { c with hotplug := k } := by
  obtain ⟨told, htold, hc⟩ := ofJson?_eq_some_iff.mp hv
  obtain ⟨hx, htold'⟩ := h.told? (by decide) (by decide) htold
  refine ⟨by simpa [hx] using hc.hotplug, fun k hk => ?_⟩
  refine ofJson?_eq_some_iff.mpr ⟨_, htold', ?_⟩
  exact {
    logLevel := by simpa using hc.logLevel
    device := by simpa using hc.device
    metricsAddress := by simpa using hc.metricsAddress
    connection := by simpa using hc.connection
    hotplug := by simpa using hk }

end Inner

end SerialLink

namespace SerialLink.Document

open Json (Value)

/-! ## The records of a document -/

/-- Where a record may be in a configuration document. -/
inductive Place
  | top | connection | diagnostics | hotplug

namespace Place

/-- The fields of the record there. -/
def names : Place → List String
  | top => MonitorConfig.fieldNames
  | connection => ConnectionConfig.fieldNames
  | diagnostics => Stream.Layout.fieldNames
  | hotplug => HotplugConfig.fieldNames

/-- What is read there. -/
abbrev Part : Place → Type
  | top => MonitorConfig
  | connection => ConnectionConfig
  | diagnostics => Option Stream.Layout
  | hotplug => HotplugConfig

def read? : (p : Place) → Value → Option p.Part
  | top => MonitorConfig.ofJson?
  | connection => ConnectionConfig.ofJson?
  | diagnostics => Value.dialect.optional Stream.Layout.ofJson?
  | hotplug => HotplugConfig.ofJson?

def part : (p : Place) → MonitorConfig → p.Part
  | top, c => c
  | connection, c => c.connection
  | diagnostics, c => c.connection.diagnostics
  | hotplug, c => c.hotplug

def withPart : (p : Place) → p.Part → MonitorConfig → MonitorConfig
  | top, b, _ => b
  | connection, b, c => { c with connection := b }
  | diagnostics, b, c => { c with connection := { c.connection with diagnostics := b } }
  | hotplug, b, c => { c with hotplug := b }

theorem withPart_part (p : Place) (c : MonitorConfig) : p.withPart (p.part c) c = c := by
  cases p <;> rfl

/-- One document has `x` at the place, the other one has `x'` there and is else the same. -/
inductive Exchanged : Place → (x x' v v' : Value) → Prop
  | top (x x' : Value) : Exchanged .top x x' x x'
  | connection {x x' v v' : Value} :
    Value.Exchanged MonitorConfig.fieldNames "connection" x x' v v' →
      Exchanged .connection x x' v v'
  | diagnostics {x x' y y' v v' : Value} :
    Value.Exchanged ConnectionConfig.fieldNames "diagnostics" x x' y y' →
      Value.Exchanged MonitorConfig.fieldNames "connection" y y' v v' →
        Exchanged .diagnostics x x' v v'
  | hotplug {x x' v v' : Value} :
    Value.Exchanged MonitorConfig.fieldNames "hotplug" x x' v v' → Exchanged .hotplug x x' v v'

/-- The document has `x` at the place. -/
def Holds (p : Place) (x v : Value) : Prop := p.Exchanged x x v v

variable {p : Place} {x x' v v' : Value} {c : MonitorConfig}

theorem Exchanged.symm (h : p.Exchanged x x' v v') : p.Exchanged x' x v' v := by
  cases h with
  | top => exact .top ..
  | connection h => exact .connection h.symm
  | diagnostics h hconnection => exact .diagnostics h.symm hconnection.symm
  | hotplug h => exact .hotplug h.symm

/-- The record is read as the part that the configuration has there, and whatever is read of the
record in its place becomes that part. -/
theorem Exchanged.read (h : p.Exchanged x x' v v') (hv : MonitorConfig.ofJson? v = some c) :
    p.read? x = some (p.part c) ∧
      ∀ b, p.read? x' = some b → MonitorConfig.ofJson? v' = some (p.withPart b c) := by
  cases h with
  | top => exact ⟨hv, fun b hb => hb⟩
  | connection h => exact MonitorConfig.exchange_connection h hv
  | diagnostics h hconnection =>
    obtain ⟨hy, hset⟩ := MonitorConfig.exchange_connection hconnection hv
    obtain ⟨hx, hinner⟩ := ConnectionConfig.exchange_diagnostics h hy
    exact ⟨hx, fun d hd => hset _ (hinner d hd)⟩
  | hotplug h => exact MonitorConfig.exchange_hotplug h hv

/-- Records that are read alike may take each other's place. -/
theorem Exchanged.ofJson?_eq (h : p.Exchanged x x' v v') (hread : p.read? x = p.read? x') :
    MonitorConfig.ofJson? v = MonitorConfig.ofJson? v' := by
  have hhalf : ∀ {x x' v v' : Value} {c}, p.Exchanged x x' v v' → p.read? x = p.read? x' →
      MonitorConfig.ofJson? v = some c → MonitorConfig.ofJson? v' = some c := by
    rintro x x' v v' c h hread hv
    obtain ⟨hx, hset⟩ := h.read hv
    rw [hset _ (hread ▸ hx), withPart_part]
  exact Option.ext fun c => ⟨hhalf h hread, hhalf h.symm hread.symm⟩

/-- A record that is not read spoils the document. -/
theorem Holds.ofJson?_eq_none (h : p.Holds x v) (hread : p.read? x = none) :
    MonitorConfig.ofJson? v = none := by
  cases hv : MonitorConfig.ofJson? v with
  | none => rfl
  | some c =>
    rw [(Exchanged.read h hv).1] at hread
    cases hread

/-! ## Reading a record -/

/-- A record may be told in part, but for the one that says how to watch. -/
def cut : Place → Bool
  | hotplug => false
  | _ => true

/-- The record is told so. -/
def Told : (p : Place) → (String → Option Value) → p.Part → Prop
  | top, told, b => MonitorConfig.Told told b
  | connection, told, b => ConnectionConfig.Told told b
  | diagnostics, told, b => ∃ l, b = some l ∧ Stream.Layout.Told told l
  | hotplug, told, b =>
    (told "poll_interval_ms").bind Value.dialect.word = some (HotplugConfig.pollInterval b)

theorem names_nodup (p : Place) : p.names.Nodup := by
  cases p <;> decide

variable {told : String → Option Value}

/-- A record is read from what is told of it. -/
theorem read?_eq_some_iff {b : p.Part} (hnull : x.isNull = false) :
    p.read? x = some b ↔ ∃ told, x.told? p.names p.cut = some told ∧ p.Told told b := by
  cases p with
  | top => exact MonitorConfig.ofJson?_eq_some_iff
  | connection => exact ConnectionConfig.ofJson?_eq_some_iff
  | diagnostics =>
    have hread : diagnostics.read? x = (Stream.Layout.ofJson? x).map some :=
      if_neg (ne_true_of_eq_false hnull)
    rw [hread, Option.map_eq_some_iff]
    simp only [Stream.Layout.ofJson?_eq_some_iff]
    constructor
    · rintro ⟨l, ⟨told, htold, hl⟩, rfl⟩
      exact ⟨told, htold, l, rfl, hl⟩
    · rintro ⟨told, htold, l, rfl, hl⟩
      exact ⟨l, ⟨told, htold, hl⟩, rfl⟩
  | hotplug => exact HotplugConfig.ofJson?_eq_some_iff

/-- Records that tell the same are read alike. -/
theorem read?_congr (hnull : x.isNull = false) (hnull' : x'.isNull = false)
    (h : x.told? p.names p.cut = x'.told? p.names p.cut) : p.read? x = p.read? x' :=
  Option.ext fun b => by rw [read?_eq_some_iff hnull, read?_eq_some_iff hnull', h]

/-- What no record can be is not read. -/
theorem read?_eq_none (hnull : x.isNull = false) (h : x.told? p.names p.cut = none) :
    p.read? x = none := by
  refine Option.eq_none_iff_forall_ne_some.mpr fun b hb => ?_
  obtain ⟨told, htold, -⟩ := (read?_eq_some_iff hnull).mp hb
  rw [h] at htold
  cases htold

/-- The part with the standard values for some fields. -/
def reset : (p : Place) → (String → Bool) → p.Part → p.Part
  | top, gone, b => MonitorConfig.reset gone b
  | connection, gone, b => ConnectionConfig.reset gone b
  | diagnostics, gone, b => Option.map (Stream.Layout.reset gone) b
  | hotplug, _, b => b

theorem Told.reset {b : p.Part} {gone : String → Bool} (hcut : p.cut = true) (h : p.Told told b) :
    p.Told (fun name => if gone name then none else told name) (p.reset gone b) := by
  cases p with
  | top => exact MonitorConfig.Told.reset h
  | connection => exact ConnectionConfig.Told.reset h
  | diagnostics =>
    obtain ⟨l, rfl, hl⟩ := h
    exact ⟨_, rfl, hl.reset⟩
  | hotplug => cases hcut

variable {members members' : List (Json.Text × Value)} {b : p.Part}

/-- Fields that are left out have their standard values, and the others stay. -/
theorem read?_sublist (hcut : p.cut = true) (h : members'.Sublist members)
    (hb : p.read? (.object members) = some b) :
    p.read? (.object members') = some (p.reset (Value.leftOut members members') b) := by
  obtain ⟨told, htold, hb⟩ := (read?_eq_some_iff rfl).mp hb
  have htold' := Value.told?_sublist p.names_nodup h htold
  exact (read?_eq_some_iff rfl).mpr ⟨_, htold', hb.reset hcut⟩

/-- How often to look has to be told. -/
theorem read?_hotplug_eq_none (h : some "poll_interval_ms" ∉ members.map Prod.fst) :
    hotplug.read? (.object members) = none := by
  refine Option.eq_none_iff_forall_ne_some.mpr fun b hb => ?_
  obtain ⟨told, htold, hpoll⟩ := (read?_eq_some_iff rfl).mp hb
  have hnone := Value.told?_absent hotplug.names_nodup htold h
  have hpoll' : (told "poll_interval_ms").bind Value.dialect.word = some b.pollInterval := hpoll
  rw [hnone] at hpoll'
  cases hpoll'

end Place

end SerialLink.Document
