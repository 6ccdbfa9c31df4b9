-- What settings tell at a path, and what setting one of them changes: the path
-- that is set, and none that forks off it.
import SerialLink.Proofs.Driver.Entries
import SerialLink.Settings.Path

namespace SerialLink.Settings

/-! ## Paths -/

namespace Path

/-- Where a value is put. A name at the end of a path is taken in small letters. -/
def landing : Path → Path
  | [] => []
  | [.child name] => [.child (lowered name)]
  | step :: rest => step :: landing rest

/-- The paths part at some step, into two names or into two places counted from the front. -/
def Apart : Path → Path → Prop
  | .child n :: p, .child m :: q => n ≠ m ∨ Apart p q
  | .item i :: p, .item j :: q => 0 ≤ i ∧ 0 ≤ j ∧ (i ≠ j ∨ Apart p q)
  | _, _ => False

/-- All items on the way are counted from the front. -/
def Forward (p : Path) : Prop := ∀ i, Step.item i ∈ p → 0 ≤ i

/-- What is set at `q` replaces nothing on the way to `p`: it parts from the way, or goes it to its
end. -/
def Spares (q p : Path) : Prop := p.Apart q ∨ p <+: q

instance decidableApart : (p q : Path) → Decidable (p.Apart q)
  | .child n :: p, .child m :: q =>
    haveI := decidableApart p q
    inferInstanceAs (Decidable (n ≠ m ∨ Apart p q))
  | .item i :: p, .item j :: q =>
    haveI := decidableApart p q
    inferInstanceAs (Decidable (0 ≤ i ∧ 0 ≤ j ∧ (i ≠ j ∨ Apart p q)))
  | [], _ => .isFalse id
  | .child _ :: _, [] | .child _ :: _, .item _ :: _ => .isFalse id
  | .item _ :: _, [] | .item _ :: _, .child _ :: _ => .isFalse id

instance (q p : Path) : Decidable (q.Spares p) := inferInstanceAs (Decidable (_ ∨ _))

variable {p q : Path} {n : String} {i : Int}

theorem spares_child (h : q.Spares (.child n :: p)) :
    ∃ m rest, q = .child m :: rest ∧ (n = m → Spares rest p) := by
  rcases h with h | ⟨tail, rfl⟩
  · match q, h with
    | .child m :: q, h => exact ⟨m, q, rfl, fun hn => .inl (h.resolve_left (absurd hn))⟩
  · exact ⟨n, p ++ tail, rfl, fun _ => .inr (List.prefix_append p tail)⟩

theorem spares_item (h : q.Spares (.item i :: p)) (hi : 0 ≤ i) :
    ∃ j rest, q = .item j :: rest ∧ 0 ≤ j ∧ (i = j → Spares rest p) := by
  rcases h with h | ⟨tail, rfl⟩
  · match q, h with
    | .item j :: q, ⟨_, hj, h⟩ =>
      exact ⟨j, q, rfl, hj, fun hij => .inl (h.resolve_left (absurd hij))⟩
  · exact ⟨i, p ++ tail, rfl, hi, fun _ => .inr (List.prefix_append p tail)⟩

theorem ofKey_ne_nil (key : String) : ofKey key ≠ [] := by
  unfold ofKey
  dsimp only
  cases readName key.toList with
  | none => exact List.cons_ne_nil _ _
  | some pair =>
    obtain ⟨name, rest⟩ := pair
    cases hsteps : readSteps rest.length rest <;> simp [hsteps]

end Path

namespace Value

/-! ## What is told -/

/-- The value that settings tell at a path; that there is nothing tells no value. -/
def at? : Path → Value → Option Value
  | [], .nothing => none
  | [], v => some v
  | .child name :: rest, v => (valueAt? name v.entries).bind (at? rest)
  | .item index :: rest, v => v.items[index.toNat]?.bind (at? rest)

/-- The settings with a value at a path. -/
def setAt (value : Value) : Path → Value → Value
  | [], _ => value
  | .child name :: rest, v => modifyChild name (setAt value rest) v
  | .item index :: rest, v => modifyItem index (setAt value rest) v

variable {p q : Path} {v : Value} {f : Value → Value} {n m : String} {i j : Int}

theorem at?_nothing (p : Path) : at? p .nothing = none := by
  cases p with
  | nil => rfl
  | cons step rest => cases step <;> rfl

theorem at?_getD (p : Path) (o : Option Value) : at? p (o.getD .nothing) = o.bind (at? p) := by
  cases o with
  | none => exact at?_nothing p
  | some v => rfl

theorem at?_child (h : n = m) :
    at? (.child n :: p) (modifyChild m f v) = at? p (f ((valueAt? n v.entries).getD .nothing)) := by
  subst h
  simp [at?, modifyChild, entries, valueAt?_putEntry]

theorem at?_child_other (h : n ≠ m) :
    at? (.child n :: p) (modifyChild m f v) = at? (.child n :: p) v := by
  simp only [at?, modifyChild, entries, valueAt?_putEntry, if_neg h.symm]

/-- The items of a list that was made long enough, with nothing in the new places. -/
theorem items_modifyItem (hi : 0 ≤ i) (k : Nat) : (modifyItem i f v).items[k]? =
    if i.toNat = k then some (f ((v.items[k]?).getD .nothing))
    else if k < v.items.length then v.items[k]?
    else if k < i.toNat then some .nothing else none := by
  have hitems : (modifyItem i f v).items =
      (v.items ++ List.replicate (i.toNat + 1 - v.items.length) Value.nothing).modify i.toNat f := by
    simp only [modifyItem, if_pos hi]
    rfl
  rw [hitems, List.getElem?_modify, List.getElem?_append, List.getElem?_replicate]
  by_cases hk : i.toNat = k
  · subst hk
    by_cases hin : i.toNat < v.items.length
    · simp [hin]
    · have hnew : i.toNat - v.items.length < i.toNat + 1 - v.items.length := by omega
      simp [hin, hnew]
  · by_cases hin : k < v.items.length
    · simp [hk, hin]
    · have hnew : k - v.items.length < i.toNat + 1 - v.items.length ↔ k < i.toNat := by omega
      simp [hk, hin, hnew]

theorem at?_item (hi : 0 ≤ i) :
    at? (.item i :: p) (modifyItem i f v) = at? p (f ((v.items[i.toNat]?).getD .nothing)) := by
  rw [at?, items_modifyItem hi, if_pos rfl]
  rfl

theorem at?_item_other (hi : 0 ≤ i) (hj : 0 ≤ j) (h : i ≠ j) :
    at? (.item i :: p) (modifyItem j f v) = at? (.item i :: p) v := by
  rw [at?, items_modifyItem hj, if_neg (by omega), at?]
  split
  · rfl
  · rename_i hout
    rw [List.getElem?_eq_none (by omega)]
    split
    · exact at?_nothing p
    · rfl

theorem at?_setAt_apart {value : Value} (h : p.Apart q) (v : Value) :
    at? p (setAt value q v) = at? p v := by
  induction p generalizing q v with
  | nil => exact h.elim
  | cons step p ih =>
    cases step with
    | child n =>
      match q, h with
      | .child m :: q, h =>
        by_cases hn : n = m
        · have hrest : Path.Apart p q := h.resolve_left (absurd hn)
          rw [setAt, at?_child hn, ih hrest, at?_getD, at?]
        · rw [setAt, at?_child_other hn]
    | item i =>
      match q, h with
      | .item j :: q, ⟨hi, hj, h⟩ =>
        by_cases hij : i = j
        · have hrest : Path.Apart p q := h.resolve_left (absurd hij)
          subst hij
          rw [setAt, at?_item hi, ih hrest, at?_getD, at?]
        · rw [setAt, at?_item_other hi hj hij]

/-- What is set below a path is what the path leads to, or a part of it. -/
theorem at?_setAt_below (value : Value) (hp : p.Forward) (tail : Path) (v : Value) :
    ∃ w, at? p (setAt value (p ++ tail) v) = at? [] (setAt value tail w) := by
  induction p generalizing v with
  | nil => exact ⟨v, rfl⟩
  | cons step p ih =>
    have hrest : Path.Forward p := fun i hi => hp i (List.mem_cons_of_mem _ hi)
    cases step with
    | child n =>
      obtain ⟨w, hw⟩ := ih hrest ((valueAt? n v.entries).getD .nothing)
      exact ⟨w, (at?_child rfl).trans hw⟩
    | item i =>
      obtain ⟨w, hw⟩ := ih hrest ((v.items[i.toNat]?).getD .nothing)
      exact ⟨w, (at?_item (hp i List.mem_cons_self)).trans hw⟩

/-- A text that was set at a path is told there. -/
theorem at?_setAt_self {s : String} (hp : p.Forward) (v : Value) :
    at? p (setAt (.text s) p v) = some (.text s) := by
  obtain ⟨w, hw⟩ := at?_setAt_below (.text s) hp [] v
  rwa [List.append_nil] at hw

/-- Something is told at a path below which a text was set. -/
theorem isSome_at?_setAt {s : String} (hp : p.Forward) (h : p <+: q) (v : Value) :
    (at? p (setAt (.text s) q v)).isSome := by
  obtain ⟨tail, rfl⟩ := h
  obtain ⟨w, hw⟩ := at?_setAt_below (.text s) hp tail v
  rw [hw]
  cases tail with
  | nil => rfl
  | cons step tail => cases step <;> rfl

/-- Where a text is put, it is set; only the last name is taken in small letters. -/
theorem put_text {s : String} (hq : q ≠ []) (root : Value) :
    put (.text s) q root = setAt (.text s) q.landing root := by
  induction q generalizing root with
  | nil => exact absurd rfl hq
  | cons step rest ih =>
    cases rest with
    | nil => cases step <;> simp [put, assign, Path.landing, setAt, modifyChild]
    | cons next rest =>
      have hput : put (.text s) (next :: rest) = setAt (.text s) (Path.landing (next :: rest)) :=
        funext (ih (List.cons_ne_nil _ _))
      cases step <;> simp only [put, Path.landing, setAt, hput]

end Value

end SerialLink.Settings
