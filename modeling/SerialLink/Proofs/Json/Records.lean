-- What the fields of a record are read as: numbers within their limits, and
-- nothing twice. A record that is written with distinct names tells its members.
import Mathlib.Data.List.Nodup
import SerialLink.Json.Forms

namespace SerialLink.Json

open Document (Fields)

namespace Value

theorem toldOnce_iff {names : List String} {members : List (String × Value)} :
    toldOnce names members = true ↔
      ∀ name ∈ names, (members.map Prod.fst).count name ≤ 1 := by
  simp [toldOnce, List.count, List.countP_map, ← List.countP_eq_length_filter, Function.comp_def]

theorem namedMembers?_record (members : List (String × Value)) :
    namedMembers? (members.map fun (name, value) => (some name, value)) = some members := by
  induction members with
  | nil => rfl
  | cons m members ih =>
    unfold namedMembers? at ih ⊢
    rw [List.map_cons, List.mapM_cons, ih]
    rfl

/-- A record with distinct names tells its members. -/
theorem fields?_record {names : List String} {cut : Bool} {members : List (String × Value)}
    (h : (members.map Prod.fst).Nodup) : (record members).fields? names cut = some members := by
  have honce : toldOnce names members = true :=
    toldOnce_iff.mpr fun name _ => List.nodup_iff_count_le_one.mp h name
  simp [record, fields?, namedMembers?_record, honce]

theorem dialect_fields : dialect.fields = fields? := rfl

theorem dialect_text (s : String) : dialect.text (text s) = some s := rfl

theorem dialect_pair (first second : Value) :
    dialect.pair (.array [first, second]) = some (first, second) := rfl

theorem upTo_natural {limit n : Nat} (h : n ≤ limit) :
    dialect.upTo limit (natural n) = some n := by
  have hn : (natural n).natural? = some n := rfl
  simp [Document.Dialect.upTo, dialect, hn, h]

theorem le_of_upTo {limit n : Nat} {value : Value} (h : dialect.upTo limit value = some n) :
    n ≤ limit := by
  simpa using (Option.filter_eq_some_iff.mp h).2

theorem byte_natural (b : UInt8) : dialect.byte (natural b.toNat) = some b := by
  have hb : b.toNat < 256 := b.toNat_lt
  rw [Document.Dialect.byte, upTo_natural (Nat.le_of_lt_succ hb), Option.map_some,
    UInt8.ofNat_toNat]

theorem quarter_natural (n : UInt16) : (natural n.toNat).quarter? = some n := by
  have hn : n.toNat < 65536 := n.toNat_lt
  rw [quarter?, upTo_natural (Nat.le_of_lt_succ hn), Option.map_some, UInt16.ofNat_toNat]

/-- What is there is read as it was written, unless it is written as null. -/
theorem optional_optional {α : Type} {write : α → Value} {read : Value → Option α} {o : Option α}
    (hwrite : ∀ a, (write a).isNull = false) (hread : ∀ a ∈ o, read (write a) = some a) :
    dialect.optional read (optional write o) = some o := by
  cases o with
  | none => rfl
  | some a => simp [Document.Dialect.optional, dialect, optional, hwrite, hread]

theorem required_le {fields : Fields Value} {name : String} {limit n : Nat}
    (h : fields.required name (dialect.upTo limit) = some n) : n ≤ limit := by
  obtain ⟨value, -, hvalue⟩ := Option.bind_eq_some_iff.mp h
  exact le_of_upTo hvalue

theorem optional_holds {α : Type} {P : α → Prop} {read : Value → Option α} {value : Value}
    {o : Option α} (hread : ∀ {value a}, read value = some a → P a)
    (h : dialect.optional read value = some o) : ∀ a ∈ o, P a := by
  unfold Document.Dialect.optional at h
  split at h
  · cases h
    exact nofun
  · obtain ⟨a, ha, rfl⟩ := Option.map_eq_some_iff.mp h
    rintro b hb
    obtain rfl := Option.some.inj hb
    exact hread ha

end Value

end SerialLink.Json
