-- What a document tells of a record: a value for some of the fields. Of an
-- object neither the order of its members counts nor those that are no fields,
-- and an array tells the fields that come first.
import Mathlib.Logic.Function.Basic
import SerialLink.Proofs.Json.Records

namespace SerialLink.Json.Value

open Document (Fields)

/-- The values that a record tells for its fields. -/
def told? (names : List String) (cut : Bool) (v : Value) : Option (String → Option Value) :=
  (v.fields? names cut).map fun fields name => if name ∈ names then fields.get? name else none

/-- The document can be one of a record with these fields. -/
def IsRecord (names : List String) (cut : Bool) : Value → Prop
  | .object members =>
    (∀ m ∈ members, m.1 ≠ none) ∧ ∀ name ∈ names, (members.map Prod.fst).count (some name) ≤ 1
  | .array items => items.length = names.length ∨ cut = true ∧ items.length < names.length
  | _ => False

/-- The document holds `x` for the field `name`. -/
def Tells (names : List String) (v : Value) (name : String) (x : Value) : Prop :=
  match v with
  | .object members => name ∈ names ∧ (some name, x) ∈ members
  | .array items => (name, x) ∈ names.zip items
  | _ => False

/-- A field that is told at most once is found. -/
theorem get?_eq_some_iff {fields : Fields Value} {name : String} {x : Value}
    (h : (fields.map Prod.fst).count name ≤ 1) :
    fields.get? name = some x ↔ (name, x) ∈ fields := by
  induction fields with
  | nil => simp [Fields.get?]
  | cons f fields ih =>
    obtain ⟨n, y⟩ := f
    rw [List.map_cons, List.count_cons] at h
    by_cases hn : n = name
    · subst hn
      have hnone : n ∉ fields.map Prod.fst := List.count_eq_zero.mp (by simpa using h)
      have hmem : (n, x) ∉ fields := fun hx => hnone (List.mem_map_of_mem hx)
      simp [Fields.get?, hmem, eq_comm]
    · have hget : Fields.get? ((n, y) :: fields) name = Fields.get? fields name := by
        simp [Fields.get?, hn]
      rw [hget, ih (by omega)]
      simp [Ne.symm hn]

theorem nodup_zip {names : List String} (hnames : names.Nodup) (items : List Value) :
    ((names.zip items).map Prod.fst).Nodup := by
  have hkeys : (names.zip items).map Prod.fst = names.take items.length := by
    induction names generalizing items with
    | nil => simp
    | cons name names ih => cases items <;> simp [ih (List.nodup_cons.mp hnames).2]
  rw [hkeys]
  exact hnames.sublist (List.take_sublist ..)

/-! ## Records -/

section Members

variable {members : List (Text × Value)}

theorem exists_named (h : ∀ m ∈ members, m.1 ≠ none) :
    ∃ fields : Fields Value, members = fields.map fun (name, value) => (some name, value) := by
  induction members with
  | nil => exact ⟨[], rfl⟩
  | cons m members ih =>
    obtain ⟨fields, rfl⟩ := ih fun n hn => h n (List.mem_cons_of_mem _ hn)
    obtain ⟨name, hname⟩ := Option.ne_none_iff_exists'.mp (h m List.mem_cons_self)
    obtain ⟨_, value⟩ := m
    cases hname
    exact ⟨(name, value) :: fields, rfl⟩

theorem namedMembers?_eq_none {m : Text × Value} (hm : m ∈ members) (hname : m.1 = none) :
    namedMembers? members = none := by
  unfold namedMembers?
  induction members with
  | nil => cases hm
  | cons first members ih =>
    rw [List.mapM_cons]
    rcases List.mem_cons.mp hm with rfl | hrest
    · simp [hname]
    · simp [ih hrest]

theorem count_named (fields : Fields Value) (name : String) :
    ((fields.map fun (n, v) => ((some n : Text), v)).map Prod.fst).count (some name) =
      (fields.map Prod.fst).count name := by
  simp [List.count, List.countP_map, Function.comp_def]

end Members

variable {names : List String} {cut : Bool} {v : Value}

theorem told?_of_isRecord (hnames : names.Nodup) (h : v.IsRecord names cut) :
    ∃ told, v.told? names cut = some told ∧
      ∀ name x, told name = some x ↔ v.Tells names name x := by
  unfold told?
  cases v with
  | object members =>
    obtain ⟨hnamed, honce⟩ := h
    obtain ⟨fields, rfl⟩ := exists_named hnamed
    have honce' : ∀ name ∈ names, (fields.map Prod.fst).count name ≤ 1 := fun name hname =>
      count_named fields name ▸ honce name hname
    have hfields : (Value.record fields).fields? names cut = some fields := by
      simp [record, fields?, namedMembers?_record, toldOnce_iff.mpr honce']
    refine ⟨_, congrArg (Option.map _) hfields, fun name x => ?_⟩
    by_cases hname : name ∈ names
    · simp [hname, get?_eq_some_iff (honce' name hname), Tells]
    · simp [hname, Tells]
  | array items =>
    have hfields : (Value.array items).fields? names cut = some (names.zip items) := if_pos h
    have hkeys := List.nodup_iff_count_le_one.mp (nodup_zip hnames items)
    refine ⟨_, congrArg (Option.map _) hfields, fun name x => ?_⟩
    by_cases hname : name ∈ names
    · simp [hname, get?_eq_some_iff (hkeys name), Tells]
    · have hnone : (name, x) ∉ names.zip items := fun hmem => hname (List.of_mem_zip hmem).1
      simp [hname, Tells, hnone]
  | _ => exact h.elim

theorem told?_of_not_isRecord (h : ¬ v.IsRecord names cut) : v.told? names cut = none := by
  unfold told?
  cases v with
  | object members =>
    by_cases hnamed : ∀ m ∈ members, m.1 ≠ none
    · obtain ⟨fields, rfl⟩ := exists_named hnamed
      have honce : toldOnce names fields ≠ true := by
        rw [Ne, toldOnce_iff]
        rintro hcount
        exact h ⟨hnamed, fun name hname => count_named fields name ▸ hcount name hname⟩
      simp [fields?, namedMembers?_record, honce]
    · simp only [not_forall, not_not] at hnamed
      obtain ⟨m, hm, hname⟩ := hnamed
      simp [fields?, namedMembers?_eq_none hm hname]
  | array items => exact congrArg (Option.map _) (if_neg h)
  | _ => rfl

/-- What is told of a record is what its document holds. -/
theorem told?_eq_some_iff {told : String → Option Value} (hnames : names.Nodup) :
    v.told? names cut = some told ↔
      v.IsRecord names cut ∧ ∀ name x, told name = some x ↔ v.Tells names name x := by
  by_cases h : v.IsRecord names cut
  · obtain ⟨told', htold', hspec⟩ := told?_of_isRecord hnames h
    rw [htold', Option.some.injEq]
    constructor
    · rintro rfl
      exact ⟨h, hspec⟩
    · rintro ⟨-, hspec'⟩
      exact funext fun name => Option.ext fun x => (hspec name x).trans (hspec' name x).symm
  · simp [told?_of_not_isRecord h, h]

theorem told?_congr {v' : Value} (hnames : names.Nodup)
    (hrecord : v.IsRecord names cut ↔ v'.IsRecord names cut)
    (htells : ∀ name x, v.Tells names name x ↔ v'.Tells names name x) :
    v.told? names cut = v'.told? names cut :=
  Option.ext fun told => by simp only [told?_eq_some_iff hnames, hrecord, htells]

/-! ## Changes -/

theorem told?_perm {members members' : List (Text × Value)} (hnames : names.Nodup)
    (h : members.Perm members') :
    (object members).told? names cut = (object members').told? names cut := by
  refine told?_congr hnames ?_ fun name x => ?_
  · simp only [IsRecord, h.mem_iff, (h.map Prod.fst).count_eq]
  · simp only [Tells, h.mem_iff]

/-- A member that is no field may be put in anywhere. -/
theorem told?_insert {front back : List (Text × Value)} {name : String} {x : Value}
    (hnames : names.Nodup) (hname : name ∉ names) :
    (object (front ++ (some name, x) :: back)).told? names cut =
      (object (front ++ back)).told? names cut := by
  have hne : ∀ n ∈ names, name ≠ n := fun n hn heq => hname (heq ▸ hn)
  refine told?_congr hnames (and_congr ?_ (forall₂_congr fun n hn => ?_)) fun n y =>
    and_congr_right fun hn => ?_
  · simp [or_imp, forall_and]
  · simp [hne n hn]
  · simp [(hne n hn).symm]

/-- The fields that come first may be told as an array. -/
theorem told?_list {items : List Value} (hnames : names.Nodup)
    (hlength : items.length ≤ names.length) :
    (array items).told? names true = (record (names.zip items)).told? names true := by
  have harray : (array items).IsRecord names true := by
    simpa [IsRecord] using Nat.eq_or_lt_of_le hlength
  have hrecord : (record (names.zip items)).IsRecord names true := by
    refine ⟨List.forall_mem_map.mpr fun _ _ => nofun, fun name _ => ?_⟩
    rw [count_named]
    exact List.nodup_iff_count_le_one.mp (nodup_zip hnames items) name
  refine told?_congr hnames (iff_of_true harray hrecord) fun name x => ?_
  have hmem : (name, x) ∈ names.zip items → name ∈ names := fun h => (List.of_mem_zip h).1
  simp only [record, Tells]
  simpa using hmem

/-- No field may be told twice. -/
theorem told?_repeated (cut : Bool) {members : List (Text × Value)} {name : String}
    (hname : name ∈ names) (h : 1 < (members.map Prod.fst).count (some name)) :
    (object members).told? names cut = none :=
  told?_of_not_isRecord fun hrecord => Nat.not_lt.mpr (hrecord.2 name hname) h

/-- A field whose name no member has is not told. -/
theorem told?_absent {members : List (Text × Value)} {told : String → Option Value} {name : String}
    (hnames : names.Nodup) (htold : (object members).told? names cut = some told)
    (h : some name ∉ members.map Prod.fst) : told name = none := by
  refine Option.eq_none_iff_forall_ne_some.mpr fun x hx => h ?_
  exact List.mem_map_of_mem ((((told?_eq_some_iff hnames).mp htold).2 name x).mp hx).2

/-- Whether a field is told by the first members, but not by the second. -/
def leftOut (members members' : List (Text × Value)) (name : String) : Bool :=
  decide (some name ∈ members.map Prod.fst ∧ some name ∉ members'.map Prod.fst)

/-- Members that are left out take their fields with them. -/
theorem told?_sublist {members members' : List (Text × Value)} {told : String → Option Value}
    (hnames : names.Nodup) (h : members'.Sublist members)
    (htold : (object members).told? names cut = some told) :
    (object members').told? names cut =
      some fun name => if leftOut members members' name then none else told name := by
  obtain ⟨⟨hnamed, honce⟩, hspec⟩ := (told?_eq_some_iff hnames).mp htold
  refine (told?_eq_some_iff hnames).mpr ⟨⟨fun m hm => hnamed m (h.subset hm), fun name hname =>
    Nat.le_trans ((h.map Prod.fst).count_le (some name)) (honce name hname)⟩, fun name x => ?_⟩
  by_cases hkept : some name ∈ members'.map Prod.fst
  · rw [if_neg (by simp [leftOut, hkept]), hspec]
    refine and_congr_right fun hname => ⟨fun hx => ?_, fun hx => h.subset hx⟩
    -- A member of that name was kept, and it is the only one.
    obtain ⟨⟨_, y⟩, hy, rfl⟩ := List.mem_map.mp hkept
    have htwo := (hspec name y).mpr ⟨hname, h.subset hy⟩
    rw [(hspec name x).mpr ⟨hname, hx⟩] at htwo
    exact Option.some.inj htwo ▸ hy
  · have hnot : ¬ (Value.object members').Tells names name x :=
      fun hx => hkept (List.mem_map_of_mem hx.2)
    refine iff_of_false ?_ hnot
    by_cases hgone : some name ∈ members.map Prod.fst
    · rw [if_pos (by simp only [leftOut, decide_eq_true_eq]; exact ⟨hgone, hkept⟩)]
      exact nofun
    · rw [told?_absent hnames htold hgone, ite_self]
      exact nofun

/-- Two records that differ in the value of one field. -/
inductive Exchanged (names : List String) (name : String) (x x' : Value) : Value → Value → Prop
  | member (front back : List (Text × Value)) :
    Exchanged names name x x' (.object (front ++ (some name, x) :: back))
      (.object (front ++ (some name, x') :: back))
  | item (front back : List Value) (h : names[front.length]? = some name) :
    Exchanged names name x x' (.array (front ++ x :: back)) (.array (front ++ x' :: back))

section Exchanged

variable {v' : Value} {name : String} {x x' : Value}

theorem Exchanged.symm (h : Exchanged names name x x' v v') : Exchanged names name x' x v' v := by
  cases h with
  | member front back => exact .member front back
  | item front back h => exact .item front back h

theorem Exchanged.isRecord (h : Exchanged names name x x' v v') :
    v.IsRecord names cut ↔ v'.IsRecord names cut := by
  cases h with
  | member front back => simp [IsRecord, or_imp, forall_and]
  | item front back h => simp [IsRecord]

/-- An item stands for the field in its place. -/
theorem zip_around {front : List Value} (h : names[front.length]? = some name) :
    ∃ before after : List String, ∀ (x : Value) (back : List Value),
      names.zip (front ++ x :: back) = before.zip front ++ (name, x) :: after.zip back := by
  obtain ⟨hlength, rfl⟩ := List.getElem?_eq_some_iff.mp h
  refine ⟨names.take front.length, names.drop (front.length + 1), fun x back => ?_⟩
  have hnames : names = names.take front.length ++
      names[front.length] :: names.drop (front.length + 1) := by
    rw [← List.drop_eq_getElem_cons hlength, List.take_append_drop]
  have hfront : (names.take front.length).length = front.length := by simp; omega
  conv_lhs => rw [hnames]
  rw [List.zip_append hfront, List.zip_cons_cons]

theorem Exchanged.tells (hname : name ∈ names) (h : Exchanged names name x x' v v') :
    v.Tells names name x := by
  cases h with
  | member front back => exact ⟨hname, by simp⟩
  | item front back h =>
    obtain ⟨before, after, hzip⟩ := zip_around h
    simp [Tells, hzip]

theorem Exchanged.tells_other (h : Exchanged names name x x' v v') {n : String} (hn : n ≠ name)
    (y : Value) : v.Tells names n y ↔ v'.Tells names n y := by
  cases h with
  | member front back => simp [Tells, hn]
  | item front back h =>
    obtain ⟨before, after, hzip⟩ := zip_around h
    simp [Tells, hzip, hn]

/-- Each tells what the other tells but for that field. -/
theorem Exchanged.told? (h : Exchanged names name x x' v v') {told : String → Option Value}
    (hnames : names.Nodup) (hname : name ∈ names) (htold : v.told? names cut = some told) :
    told name = some x ∧ v'.told? names cut = some (Function.update told name (some x')) := by
  obtain ⟨hrecord, hspec⟩ := (told?_eq_some_iff hnames).mp htold
  refine ⟨(hspec name x).mpr (h.tells hname), ?_⟩
  refine (told?_eq_some_iff hnames).mpr ⟨h.isRecord.mp hrecord, fun n y => ?_⟩
  by_cases hn : n = name
  · subst hn
    obtain ⟨told', -, hspec'⟩ := told?_of_isRecord hnames (h.isRecord.mp hrecord)
    rw [Function.update_self, ← hspec', (hspec' n x').mpr (h.symm.tells hname)]
  · rw [Function.update_of_ne hn, hspec, h.tells_other hn]

end Exchanged

end SerialLink.Json.Value
