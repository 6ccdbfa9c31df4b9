-- Sources in layers. Where no setting of the environment replaces a record as a
-- whole and the file tells its records by name, the two are merged place by place.
import SerialLink.Proofs.Settings.Places
import SerialLink.Settings.Environment

namespace SerialLink.Settings

/-! ## Places in records -/

/-- One step to a setting. A record is told as a table, or as the list of its fields in order, so
a field has a name and a number. -/
inductive Place
  | field (name : String) (index : Nat)
  | item (index : Nat)

/-- The steps from the whole of the settings to one of them, through records and lists. -/
abbrev Address := List Place

/-- The step of a path that leads to a place, where records are tables. -/
def Place.step : Place → Step
  | .field name _ => .child name
  | .item index => .item index

def Address.path (a : Address) : Path := a.map Place.step

theorem Address.forward_path (a : Address) : a.path.Forward := by
  intro i hi
  obtain ⟨place, -, hplace⟩ := List.mem_map.mp hi
  cases place with
  | field name index => cases hplace
  | item index =>
    cases hplace
    exact Int.natCast_nonneg index

namespace Value

/-- What a record tells of one of its fields. -/
def field? (name : String) (index : Nat) (v : Value) : Option Value :=
  (valueAt? name v.entries).or v.items[index]?

/-- The value that settings tell at an address; that there is nothing tells no value. -/
def told? : Address → Value → Option Value
  | [], .nothing => none
  | [], v => some v
  | .field name index :: rest, v => (v.field? name index).bind (told? rest)
  | .item index :: rest, v => v.items[index]?.bind (told? rest)

/-- No record on the way to an address is told as a list. -/
def NamedAlong : Address → Value → Prop
  | [], _ => True
  | .field name _ :: rest, v =>
    v.items = [] ∧ ∀ w ∈ valueAt? name v.entries, NamedAlong rest w
  | .item index :: rest, v => ∀ w ∈ v.items[index]?, NamedAlong rest w

instance decidableNamedAlong : (a : Address) → (v : Value) → Decidable (NamedAlong a v)
  | [], _ => .isTrue trivial
  | .field name _ :: rest, v =>
    haveI := decidableNamedAlong rest
    inferInstanceAs (Decidable (v.items = [] ∧ ∀ w ∈ valueAt? name v.entries, NamedAlong rest w))
  | .item index :: rest, v =>
    haveI := decidableNamedAlong rest
    inferInstanceAs (Decidable (∀ w ∈ v.items[index]?, NamedAlong rest w))

variable {a : Address} {q : Path} {v : Value}

theorem namedAlong_of_empty (hentries : v.entries = []) (hitems : v.items = []) :
    NamedAlong a v := by
  cases a with
  | nil => trivial
  | cons place rest =>
    cases place with
    | field name index =>
      refine ⟨hitems, fun w hw => ?_⟩
      rw [hentries] at hw
      cases hw
    | item index =>
      intro w hw
      rw [hitems] at hw
      cases hw

/-- Where records are tables, an address is a path. -/
theorem told?_eq_at? (h : NamedAlong a v) : told? a v = at? a.path v := by
  induction a generalizing v with
  | nil => cases v <;> rfl
  | cons place rest ih =>
    cases place with
    | field name index =>
      obtain ⟨hitems, hrest⟩ := h
      have hfield : v.field? name index = valueAt? name v.entries := by
        simp [field?, hitems]
      rw [told?, hfield]
      exact Option.bind_congr fun w hw => ih (hrest w hw)
    | item index =>
      rw [told?]
      exact Option.bind_congr fun w hw => ih (h w hw)

theorem NamedAlong.getD {o : Option Value} (h : ∀ w, o = some w → NamedAlong a w) :
    NamedAlong a (o.getD .nothing) := by
  cases o with
  | none => exact namedAlong_of_empty rfl rfl
  | some w => exact h w rfl

/-- What is set beside the way to an address, or at its end, leaves tables on the way. -/
theorem NamedAlong.setAt {value : Value} (h : NamedAlong a v) (hq : q.Spares a.path) :
    NamedAlong a (setAt value q v) := by
  induction a generalizing q v with
  | nil => trivial
  | cons place rest ih =>
    cases place with
    | field n index =>
      obtain ⟨hitems, hrest⟩ := h
      obtain ⟨m, q, rfl, hway⟩ := Path.spares_child hq
      refine ⟨rfl, fun w hw => ?_⟩
      simp only [Value.setAt, modifyChild, entries, valueAt?_putEntry] at hw
      split at hw
      · rename_i hm
        subst hm
        cases hw
        exact ih (.getD hrest) (hway rfl)
      · exact hrest w hw
    | item index =>
      obtain ⟨j, q, rfl, hj, hway⟩ := Path.spares_item hq (Int.natCast_nonneg index)
      intro w hw
      rw [Value.setAt, items_modifyItem hj] at hw
      split at hw
      · rename_i hm
        cases hw
        exact ih (.getD h) (hway (by omega))
      · split at hw
        · exact h w hw
        · split at hw
          · cases hw
            exact namedAlong_of_empty rfl rfl
          · cases hw

/-! ## Sources -/

/-- Over any settings a source decides what is seen of them, or it leaves that as it was. -/
theorem putAll_decides {β : Type} {P : Value → Prop} {see : Value → Option β} {source : Entries}
    (hkeep : ∀ entry ∈ source, ∀ root, P root → P (put entry.2 (Path.ofKey entry.1) root))
    (hsee : ∀ entry ∈ source,
      (∀ root, P root → see (put entry.2 (Path.ofKey entry.1) root) = see root) ∨
      ∃ b, ∀ root, P root → see (put entry.2 (Path.ofKey entry.1) root) = some b) :
    (∀ root, P root → see (putAll root source) = see root) ∨
      ∃ b, ∀ root, P root → see (putAll root source) = some b := by
  induction source with
  | nil => exact .inl fun root _ => rfl
  | cons entry rest ih =>
    have hput := hkeep entry List.mem_cons_self
    rcases ih (fun e he => hkeep e (List.mem_cons_of_mem _ he))
        (fun e he => hsee e (List.mem_cons_of_mem _ he)) with hrest | ⟨b, hrest⟩
    · rcases hsee entry List.mem_cons_self with hfirst | ⟨b, hfirst⟩
      · exact .inl fun root h => (hrest _ (hput root h)).trans (hfirst root h)
      · exact .inr ⟨b, fun root h => (hrest _ (hput root h)).trans (hfirst root h)⟩
    · exact .inr ⟨b, fun root h => hrest _ (hput root h)⟩

/-- So two layers show what the later one shows, and else what the earlier one shows. -/
theorem see_layered {β : Type} {P : Value → Prop} (see : Value → Option β)
    {earlier later : Entries}
    (hempty : P (.table [])) (hnone : see (.table []) = none) (hearlier : P (layered [earlier]))
    (hkeep : ∀ entry ∈ later, ∀ root, P root → P (put entry.2 (Path.ofKey entry.1) root))
    (hsee : ∀ entry ∈ later,
      (∀ root, P root → see (put entry.2 (Path.ofKey entry.1) root) = see root) ∨
      ∃ b, ∀ root, P root → see (put entry.2 (Path.ofKey entry.1) root) = some b) :
    see (layered [earlier, later]) = (see (layered [later])).or (see (layered [earlier])) := by
  have hboth : layered [earlier, later] = putAll (layered [earlier]) later := rfl
  have hlater : layered [later] = putAll (.table []) later := rfl
  rw [hboth, hlater]
  rcases putAll_decides hkeep hsee with h | ⟨b, h⟩
  · rw [h _ hearlier, h _ hempty, hnone, Option.none_or]
  · rw [h _ hearlier, h _ hempty, Option.some_or]

end Value

namespace Address

open Value

variable {a : Address} {file : Entries} {environment : List (String × String)}

/-- The file tells the records on the way to an address by name, and no variable replaces one. -/
structure Clear (a : Address) (file : Entries) (environment : List (String × String)) : Prop where
  named : NamedAlong a (layered [file])
  spared : ∀ entry ∈ Environment.entries environment, (Path.ofKey entry.1).landing.Spares a.path

instance : Decidable (a.Clear file environment) :=
  decidable_of_iff (NamedAlong a (layered [file]) ∧
      ∀ entry ∈ Environment.entries environment, (Path.ofKey entry.1).landing.Spares a.path)
    ⟨fun h => ⟨h.1, h.2⟩, fun h => ⟨h.named, h.spared⟩⟩

/-- No variable sets a mere part of the value at an address. -/
def SetWhole (a : Address) (environment : List (String × String)) : Prop :=
  ∀ entry ∈ Environment.entries environment,
    a.path <+: (Path.ofKey entry.1).landing → (Path.ofKey entry.1).landing = a.path

instance : Decidable (a.SetWhole environment) :=
  inferInstanceAs (Decidable (∀ entry ∈ Environment.entries environment, _ → _))

theorem exists_text {entry : String × Value} (h : entry ∈ Environment.entries environment) :
    ∃ s, entry.2 = .text s := by
  obtain ⟨⟨name, text⟩, -, hentry⟩ := List.mem_filterMap.mp h
  obtain ⟨key, -, rfl⟩ := Option.map_eq_some_iff.mp hentry
  exact ⟨text, rfl⟩

theorem told?_empty (ha : a ≠ []) : told? a (.table []) = none := by
  cases a with
  | nil => exact absurd rfl ha
  | cons place rest => cases place <;> rfl

/-- What a variable puts somewhere, as long as records are told by name. -/
theorem told?_put {entry : String × Value} (h : entry ∈ Environment.entries environment)
    (hspared : (Path.ofKey entry.1).landing.Spares a.path) :
    ∃ s, ∀ root, NamedAlong a root →
      NamedAlong a (put entry.2 (Path.ofKey entry.1) root) ∧
      told? a (put entry.2 (Path.ofKey entry.1) root) =
        at? a.path (setAt (.text s) (Path.ofKey entry.1).landing root) := by
  obtain ⟨s, hs⟩ := exists_text h
  refine ⟨s, fun root hroot => ?_⟩
  rw [hs, put_text (Path.ofKey_ne_nil entry.1)]
  have hkept : NamedAlong a (setAt (.text s) (Path.ofKey entry.1).landing root) :=
    hroot.setAt hspared
  exact ⟨hkept, told?_eq_at? hkept⟩

/-- What is seen of a value, if each variable that sets it or a part of it settles that. -/
theorem Clear.see_layered {β : Type} (f : Value → β) (h : a.Clear file environment) (ha : a ≠ [])
    (hset : ∀ entry ∈ Environment.entries environment, a.path <+: (Path.ofKey entry.1).landing →
      ∀ s, ∃ b, ∀ root,
        (at? a.path (setAt (.text s) (Path.ofKey entry.1).landing root)).map f = some b) :
    (told? a (layered [file, Environment.entries environment])).map f =
      ((told? a (layered [Environment.entries environment])).map f).or
        ((told? a (layered [file])).map f) := by
  refine Value.see_layered (P := NamedAlong a) (fun v => (told? a v).map f)
    (namedAlong_of_empty rfl rfl) (congrArg (Option.map f) (told?_empty ha)) h.named
    (fun entry hentry root hroot => ?_) (fun entry hentry => ?_)
  · obtain ⟨s, hput⟩ := told?_put hentry (h.spared entry hentry)
    exact (hput root hroot).1
  · obtain ⟨s, hput⟩ := told?_put hentry (h.spared entry hentry)
    rcases h.spared entry hentry with hapart | hbelow
    · refine .inl fun root hroot => ?_
      rw [(hput root hroot).2, at?_setAt_apart hapart, told?_eq_at? hroot]
    · obtain ⟨b, hb⟩ := hset entry hentry hbelow s
      refine .inr ⟨b, fun root hroot => ?_⟩
      rw [(hput root hroot).2, hb root]

/-- A value that variables set as a whole or not at all is that of the environment, and else that
of the file. -/
theorem Clear.told?_layered (h : a.Clear file environment) (ha : a ≠ [])
    (hwhole : a.SetWhole environment) :
    told? a (layered [file, Environment.entries environment]) =
      (told? a (layered [Environment.entries environment])).or (told? a (layered [file])) := by
  have hseen := h.see_layered id ha fun entry hentry hbelow s =>
    ⟨.text s, fun root => by
      rw [hwhole entry hentry hbelow, at?_setAt_self a.forward_path, Option.map_id_apply]⟩
  simpa only [Option.map_id_apply] using hseen

/-- A record is told where the environment or the file tells a part of it. -/
theorem Clear.isSome_layered (h : a.Clear file environment) (ha : a ≠ []) :
    (told? a (layered [file, Environment.entries environment])).isSome =
      ((told? a (layered [Environment.entries environment])).isSome ||
        (told? a (layered [file])).isSome) := by
  have hseen := h.see_layered (fun _ => ()) ha fun entry hentry hbelow s => ⟨(), fun root => by
    have hthere := isSome_at?_setAt (s := s) a.forward_path hbelow root
    obtain ⟨v, hv⟩ := Option.isSome_iff_exists.mp hthere
    rw [hv]
    rfl⟩
  simpa only [Option.isSome_or, Option.isSome_map] using congrArg Option.isSome hseen

end Address

end SerialLink.Settings
