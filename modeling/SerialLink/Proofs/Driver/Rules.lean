-- A probe table as the list of rules that it was made from. The last rule for
-- a key decides, a product before a class and the first table before the
-- second, so a class of the first table is asked before a product of the
-- second.
import Mathlib.Data.Finset.Dedup
import Mathlib.Data.Finset.Card
import Mathlib.Data.List.Induction
import SerialLink.Proofs.Driver.Entries

namespace SerialLink

/-! ## Rules -/

/-- What a rule is for. -/
inductive RuleKey
  | product (vendorId productId : UInt16)
  | deviceClass (deviceClass : UInt8)
  deriving DecidableEq

/-- One entry that a table is made with. -/
structure Rule where
  key : RuleKey
  kind : DriverKind
  deriving DecidableEq

/-- The vendor and the product that a rule is for. -/
def RuleKey.product? : RuleKey → Option (UInt16 × UInt16)
  | .product vendorId productId => some (vendorId, productId)
  | .deviceClass _ => none

/-- The driver that the last rule for a key names. -/
def lastFor? (rules : List Rule) (key : RuleKey) : Option DriverKind :=
  ((rules.filter (·.key = key)).getLast?).map (·.kind)

/-- A rule is for a device: for its product, or for the class that it reports. -/
def Rule.IsFor (r : Rule) (d : DeviceInfo) : Prop :=
  r.key = .product d.vendorId d.productId ∨ ∃ c ∈ d.deviceClass, r.key = .deviceClass c

instance (r : Rule) (d : DeviceInfo) : Decidable (r.IsFor d) := inferInstanceAs (Decidable (_ ∨ _))

/-- The rules of each key come in the same order. -/
def SameByKey (rules others : List Rule) : Prop :=
  ∀ key, others.filter (·.key = key) = rules.filter (·.key = key)

namespace ProbeTable

/-- One more rule in a table. -/
def add (t : ProbeTable) (r : Rule) : ProbeTable :=
  match r.key with
  | .product vendorId productId => t.withProduct vendorId productId r.kind
  | .deviceClass c => t.withClass c r.kind

/-- The table that is made from an empty one with these rules. -/
def ofRules (rules : List Rule) : ProbeTable := rules.foldl add {}

/-- Two tables that answer alike. -/
structure Alike (t t' : ProbeTable) : Prop where
  find : ∀ d, t'.find d = t.find d
  size : t'.size = t.size
  isEmpty : t'.isEmpty = t.isEmpty

end ProbeTable

/-! ## One more rule -/

section Snoc

variable (rules : List Rule) (r : Rule)

theorem lastFor?_snoc (key : RuleKey) :
    lastFor? (rules ++ [r]) key = if r.key = key then some r.kind else lastFor? rules key := by
  unfold lastFor?
  rw [List.filter_append]
  by_cases h : r.key = key <;> simp [h]

theorem ofRules_snoc :
    ProbeTable.ofRules (rules ++ [r]) = (ProbeTable.ofRules rules).add r := by
  unfold ProbeTable.ofRules
  rw [List.foldl_append]
  rfl

end Snoc

/-- What stands in a table, by the rules that it was made from. -/
structure ProbeTable.Holds (t : ProbeTable) (rules : List Rule) : Prop where
  product : ∀ vendorId productId,
    valueAt? (vendorId, productId) t.products = lastFor? rules (.product vendorId productId)
  deviceClass : ∀ c, valueAt? c t.classes = lastFor? rules (.deviceClass c)
  once : (t.products.map (·.1)).Nodup
  keys : ∀ key, key ∈ t.products.map (·.1) ↔ key ∈ rules.filterMap (·.key.product?)

theorem ProbeTable.Holds.add {t : ProbeTable} {rules : List Rule} (h : t.Holds rules) (r : Rule) :
    (t.add r).Holds (rules ++ [r]) := by
  obtain ⟨key, kind⟩ := r
  cases key with
  | product vendorId productId =>
    constructor
    case product =>
      intro v p
      rw [lastFor?_snoc, ← h.product]
      simp only [ProbeTable.add, withProduct, valueAt?_putEntry, RuleKey.product.injEq,
        Prod.mk.injEq]
    case deviceClass =>
      intro c
      rw [lastFor?_snoc, if_neg (by intro h; cases h)]
      exact h.deviceClass c
    case once => exact nodup_putEntry _ _ _ h.once
    case keys =>
      intro key
      rw [List.filterMap_append, List.mem_append, ← h.keys, or_comm]
      simp only [ProbeTable.add, withProduct, mem_keys_putEntry]
      simp [RuleKey.product?]
  | deviceClass c =>
    constructor
    case product =>
      intro v p
      rw [lastFor?_snoc, if_neg (by intro h; cases h)]
      exact h.product v p
    case deviceClass =>
      intro c'
      rw [lastFor?_snoc, ← h.deviceClass]
      simp only [ProbeTable.add, withClass, valueAt?_putEntry, RuleKey.deviceClass.injEq]
    case once => exact h.once
    case keys =>
      intro key
      rw [List.filterMap_append, List.mem_append, ← h.keys]
      simp [ProbeTable.add, withClass, RuleKey.product?]

/-! ## Any rules -/

section Table

variable (rules : List Rule)

theorem holds_ofRules : (ProbeTable.ofRules rules).Holds rules := by
  induction rules using List.reverseRecOn with
  | nil => exact ⟨fun _ _ => rfl, fun _ => rfl, List.nodup_nil, fun _ => Iff.rfl⟩
  | append_singleton rules r ih =>
    rw [ofRules_snoc]
    exact ih.add r

theorem find_ofRules (d : DeviceInfo) :
    (ProbeTable.ofRules rules).find d =
      (lastFor? rules (.product d.vendorId d.productId)).or
        (d.deviceClass.bind fun c => lastFor? rules (.deviceClass c)) := by
  unfold ProbeTable.find
  rw [(holds_ofRules rules).product]
  simp only [(holds_ofRules rules).deviceClass]

theorem size_ofRules :
    (ProbeTable.ofRules rules).size = (rules.filterMap (·.key.product?)).toFinset.card := by
  have hholds := holds_ofRules rules
  have hsame : (rules.filterMap (·.key.product?)).toFinset =
      ((ProbeTable.ofRules rules).products.map (·.1)).toFinset := by
    ext key
    rw [List.mem_toFinset, List.mem_toFinset, hholds.keys]
  rw [hsame, List.toFinset_card_of_nodup hholds.once, List.length_map]
  rfl

/-- There is a rule for a key just when the last of them names a driver. -/
theorem lastFor?_isSome_iff (key : RuleKey) :
    (lastFor? rules key).isSome ↔ ∃ r ∈ rules, r.key = key := by
  unfold lastFor?
  rw [Option.isSome_map, List.getLast?_isSome, Ne, List.filter_eq_nil_iff]
  simp

theorem find_isSome_iff (d : DeviceInfo) :
    ((ProbeTable.ofRules rules).find d).isSome ↔ ∃ r ∈ rules, r.IsFor d := by
  rw [find_ofRules, Option.isSome_or, Bool.or_eq_true, lastFor?_isSome_iff]
  simp only [Option.isSome_bind, Option.any_eq_true, lastFor?_isSome_iff]
  constructor
  · rintro (⟨r, hr, hkey⟩ | ⟨c, hc, r, hr, hkey⟩)
    · exact ⟨r, hr, Or.inl hkey⟩
    · exact ⟨r, hr, Or.inr ⟨c, hc, hkey⟩⟩
  · rintro ⟨r, hr, hkey | ⟨c, hc, hkey⟩⟩
    · exact Or.inl ⟨r, hr, hkey⟩
    · exact Or.inr ⟨c, hc, r, hr, hkey⟩

theorem isEmpty_ofRules : (ProbeTable.ofRules rules).isEmpty = rules.isEmpty := by
  induction rules using List.reverseRecOn with
  | nil => rfl
  | append_singleton rules r ih =>
    rw [ofRules_snoc]
    unfold ProbeTable.isEmpty ProbeTable.add
    split <;> simp [ProbeTable.withProduct, ProbeTable.withClass, isEmpty_putEntry]

end Table

/-! ## Rules in another order -/

section Order

variable {rules others : List Rule}

theorem lastFor?_congr (h : SameByKey rules others) (key : RuleKey) :
    lastFor? others key = lastFor? rules key := by
  unfold lastFor?
  rw [h key]

theorem mem_congr (h : SameByKey rules others) (r : Rule) : r ∈ others ↔ r ∈ rules := by
  have hfilter := congrArg (r ∈ ·) (h r.key)
  simpa using hfilter

/-- A table tells only of the order in which the rules of one key came. -/
theorem alike_of_sameByKey (h : SameByKey rules others) :
    (ProbeTable.ofRules rules).Alike (ProbeTable.ofRules others) where
  find d := by
    rw [find_ofRules, find_ofRules]
    simp only [lastFor?_congr h]
  size := by
    rw [size_ofRules, size_ofRules]
    congr 1
    ext key
    simp [mem_congr h]
  isEmpty := by
    rw [isEmpty_ofRules, isEmpty_ofRules, Bool.eq_iff_iff, List.isEmpty_iff, List.isEmpty_iff]
    simp only [List.eq_nil_iff_forall_not_mem, mem_congr h]

theorem sameByKey_swap (before after : List Rule) {r r' : Rule} (h : r.key ≠ r'.key) :
    SameByKey (before ++ r :: r' :: after) (before ++ r' :: r :: after) := by
  intro key
  rw [List.filter_append, List.filter_append]
  congr 1
  by_cases hr : r.key = key
  · have hr' : r'.key ≠ key := fun hr' => h (hr.trans hr'.symm)
    simp [hr, hr']
  · simp [List.filter_cons, hr]

/-- Where no key comes twice, any order will do. -/
theorem sameByKey_of_perm (h : rules.Perm others) (hkeys : (rules.map (·.key)).Nodup) :
    SameByKey rules others := by
  have hkeys' : (others.map (·.key)).Nodup := (h.map _).nodup_iff.mp hkeys
  intro key
  -- Of either list at most one rule is left, for two of them would be apart by their keys.
  have happart {l : List Rule} (hl : (l.map (·.key)).Nodup) :
      (l.filter (·.key = key)).Pairwise (·.key ≠ ·.key) :=
    (List.pairwise_map.mp hl).sublist List.filter_sublist
  refine (h.filter _).symm.eq_of_pairwise ?_ (happart hkeys') (happart hkeys)
  intro r r' hr hr' hne _
  have hkey := (List.mem_filter.mp hr).2
  have hkey' := (List.mem_filter.mp hr').2
  rw [decide_eq_true_iff] at hkey hkey'
  exact absurd (hkey.trans hkey'.symm) hne

end Order

/-! ## The law -/

/-- How the tables of these rules choose a driver. -/
structure FollowsRules (first second : List Rule) : Prop where
  /-- The last rule for the product decides, else the last one for the class, if one is told. -/
  find : ∀ d, (ProbeTable.ofRules first).find d =
    (lastFor? first (.product d.vendorId d.productId)).or
      (d.deviceClass.bind fun c => lastFor? first (.deviceClass c))
  /-- The second table is asked where the first has no answer, not even by the class. -/
  probe : ∀ d, (Prober.mk (.ofRules first) (.ofRules second)).probe d =
    (((lastFor? first (.product d.vendorId d.productId)).or
      (d.deviceClass.bind fun c => lastFor? first (.deviceClass c))).or
      (lastFor? second (.product d.vendorId d.productId))).or
      (d.deviceClass.bind fun c => lastFor? second (.deviceClass c))
  /-- For a device that the first table knows the second may hold what it will. -/
  first_decides : ∀ d, (∃ r ∈ first, r.IsFor d) → ∃ kind, ∀ t : ProbeTable,
    (Prober.mk (.ofRules first) t).probe d = some kind
  /-- Neighbours with different keys may change places, -/
  swapped : ∀ before r r' after, first = before ++ r :: r' :: after → r.key ≠ r'.key →
    (ProbeTable.ofRules first).Alike (.ofRules (before ++ r' :: r :: after))
  /-- and where all keys differ the rules may come in any order. -/
  rearranged : ∀ rules, first.Perm rules → (first.map (·.key)).Nodup →
    (ProbeTable.ofRules first).Alike (.ofRules rules)
  size : (ProbeTable.ofRules first).size = (first.filterMap (·.key.product?)).toFinset.card
  /-- Without a wish the first device is chosen that a rule of either table is for. -/
  select : ∀ devices, (Prober.mk (.ofRules first) (.ofRules second)).select devices none =
    devices.find? fun d => (first ++ second).any fun r => decide (r.IsFor d)

/-- Two tables choose as one list of rules in four parts would. -/
theorem tables_are_ordered_rules (first second : List Rule) : FollowsRules first second where
  find := find_ofRules first
  probe d := by
    unfold Prober.probe
    rw [find_ofRules, find_ofRules]
    simp only [Option.or_assoc]
  first_decides d h := by
    obtain ⟨kind, hkind⟩ := Option.isSome_iff_exists.mp ((find_isSome_iff first d).mpr h)
    refine ⟨kind, fun t => ?_⟩
    unfold Prober.probe
    rw [hkind, Option.some_or]
  swapped before r r' after hsplit hkey := by
    rw [hsplit]
    exact alike_of_sameByKey (sameByKey_swap before after hkey)
  rearranged rules hperm hkeys := alike_of_sameByKey (sameByKey_of_perm hperm hkeys)
  size := size_ofRules first
  select devices := by
    unfold Prober.select Prober.probe
    apply congrArg fun known => devices.find? known
    funext d
    rw [Bool.eq_iff_iff, Option.isSome_or, Bool.or_eq_true, find_isSome_iff, find_isSome_iff]
    simp

/-- A class of the first table comes before a product of the second, and a later rule before an
earlier one. -/
example :
    let first : List Rule := [⟨.deviceClass 2, .ftdi⟩, ⟨.product 1 1, .prolific⟩,
      ⟨.deviceClass 2, .cdcAcm⟩]
    let second : List Rule := [⟨.product 7 7, .ch34x⟩]
    (Prober.mk (.ofRules first) (.ofRules second)).probe ⟨"usb", 7, 7, none, some 2⟩ =
      some .cdcAcm := by
  decide

end SerialLink
