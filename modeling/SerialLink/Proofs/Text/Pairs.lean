-- Bytes as pairs of hexadecimal digits. A row of codes stands for bytes just
-- when it is made of such pairs; otherwise its length is odd, or there is a
-- first code in it that is none of a digit.
import SerialLink.Text.Hexadecimal

namespace SerialLink.Text.Hexadecimal

/-! ## Digits -/

/-- The character is the digit with this value, in either case. -/
def Denotes (c : Char) (n : Nat) : Prop := n < 16 ∧ c.toLower = Nat.digitChar n

/-- The character whose value is a byte. -/
def character (b : UInt8) : Char := Char.ofNat b.toNat

/-- The byte is the code of a digit. -/
def IsDigit (b : UInt8) : Prop := ∃ n, Denotes (character b) n

variable {c : Char} {n position i : Nat} {b : UInt8} {codes data : Bytes} {e : ReadError}

theorem le_toLower (c : Char) : c.toNat ≤ c.toLower.toNat := by
  unfold Char.toLower
  split
  · rename_i h
    have hle := UInt32.le_iff_toNat_le.mp h.2
    have hadd : (c.val + ('a'.val - 'A'.val)).toNat = c.val.toNat + 32 := by
      rw [UInt32.toNat_add]
      have : 'Z'.val.toNat = 90 := rfl
      have : ('a'.val - 'A'.val).toNat = 32 := rfl
      omega
    exact Nat.le_trans (Nat.le_add_right _ 32) (Nat.le_of_eq hadd.symm)
  · exact Nat.le_refl _

theorem Denotes.ascii (h : Denotes c n) : c.toNat < 128 := by
  have hsmall : ∀ n < 16, (Nat.digitChar n).toNat < 128 := by decide
  calc c.toNat ≤ c.toLower.toNat := le_toLower c
    _ = (Nat.digitChar n).toNat := by rw [h.2]
    _ < 128 := hsmall n h.1

theorem ascii_of_digitValue? (h : digitValue? c = some n) : n < 16 ∧ c.toNat < 128 := by
  have hle : ∀ {c d : Char}, c ≤ d ↔ c.toNat ≤ d.toNat := UInt32.le_iff_toNat_le
  have h0 : '0'.toNat = 48 := rfl
  have h9 : '9'.toNat = 57 := rfl
  have ha : 'a'.toNat = 97 := rfl
  have hf : 'f'.toNat = 102 := rfl
  have hA : 'A'.toNat = 65 := rfl
  have hF : 'F'.toNat = 70 := rfl
  unfold digitValue? at h
  simp only [hle] at h
  split at h
  · cases h; omega
  · split at h
    · cases h; omega
    · split at h
      · cases h; omega
      · cases h

/-- A property of all characters in ASCII, found value by value. -/
theorem forall_ascii {P : Char → Prop} (h : ∀ k < 128, P (Char.ofNat k)) (hc : c.toNat < 128) :
    P c := by
  rw [← Char.ofNat_toNat c]
  exact h _ hc

theorem digitValue?_eq_some_iff : digitValue? c = some n ↔ Denotes c n := by
  have hall := @forall_ascii c
    (fun c => ∀ n < 16, (digitValue? c = some n ↔ c.toLower = Nat.digitChar n)) (by decide +kernel)
  constructor
  · intro h
    obtain ⟨hn, hc⟩ := ascii_of_digitValue? h
    exact ⟨hn, (hall hc n hn).mp h⟩
  · intro h
    exact (hall h.ascii n h.1).mpr h.2

theorem digit_eq_digitChar : ∀ n < 16, digit n = Nat.digitChar n := by decide

theorem denotes_iff : Denotes c n ↔ n < 16 ∧ c.toLower = digit n :=
  and_congr_right fun hn => by rw [digit_eq_digitChar n hn]

theorem byteValue?_eq_some_iff : byteValue? b = some n ↔ Denotes (character b) n :=
  digitValue?_eq_some_iff

theorem byteValue?_eq_none_iff : byteValue? b = none ↔ ¬ IsDigit b := by
  rw [Option.eq_none_iff_forall_ne_some, IsDigit, not_exists]
  exact forall_congr' fun n => not_congr byteValue?_eq_some_iff

/-! ## Pairs -/

/-- The codes of two digits for each byte, the high one first. -/
inductive Pairs : Bytes → Bytes → Prop
  | nil : Pairs [] []
  | pair {high low b : UInt8} {codes data : Bytes} : Denotes (character high) (b.toNat / 16) →
      Denotes (character low) (b.toNat % 16) → Pairs codes data →
      Pairs (high :: low :: codes) (b :: data)

theorem Pairs.length (h : Pairs codes data) : codes.length = 2 * data.length := by
  induction h with
  | nil => rfl
  | pair _ _ _ ih => simp only [List.length_cons, ih]; omega

theorem Pairs.digits (h : Pairs codes data) : ∀ b ∈ codes, IsDigit b := by
  induction h with
  | nil => exact nofun
  | pair hhigh hlow _ ih =>
    intro b hb
    rcases List.mem_cons.mp hb with rfl | hb
    · exact ⟨_, hhigh⟩
    · rcases List.mem_cons.mp hb with rfl | hb
      · exact ⟨_, hlow⟩
      · exact ih b hb

/-- Two digits are those of the byte that they make. -/
theorem denotes_halves {high low : UInt8} {h l : Nat} (hhigh : Denotes (character high) h)
    (hlow : Denotes (character low) l) :
    Denotes (character high) ((UInt8.ofNat (16 * h + l)).toNat / 16) ∧
      Denotes (character low) ((UInt8.ofNat (16 * h + l)).toNat % 16) := by
  have hh := hhigh.1
  have hl := hlow.1
  have hvalue : (UInt8.ofNat (16 * h + l)).toNat = 16 * h + l := by
    simp only [UInt8.toNat_ofNat']
    omega
  have hdiv : (16 * h + l) / 16 = h := by omega
  have hmod : (16 * h + l) % 16 = l := by omega
  rw [hvalue, hdiv, hmod]
  exact ⟨hhigh, hlow⟩

theorem ofNat_halves (b : UInt8) : UInt8.ofNat (16 * (b.toNat / 16) + b.toNat % 16) = b := by
  rw [Nat.div_add_mod, UInt8.ofNat_toNat]

/-- In small letters the codes read as the digits that the bytes are written with. -/
theorem pairs_iff_toLower :
    Pairs codes data ↔ codes.map (fun b => (character b).toLower) = ofBytes data := by
  constructor
  · intro h
    induction h with
    | nil => rfl
    | @pair high low b codes data hhigh hlow _ ih =>
      rw [ofBytes, List.flatMap_cons, ofByte, List.map_cons, List.map_cons, ih,
        (denotes_iff.mp hhigh).2, (denotes_iff.mp hlow).2]
      rfl
  · intro h
    induction data generalizing codes with
    | nil => exact List.map_eq_nil_iff.mp h ▸ .nil
    | cons b data ih =>
      have hb := b.toNat_lt
      match codes, h with
      | [_], h => simp [ofBytes, ofByte] at h
      | high :: low :: codes, h =>
        simp only [ofBytes, List.flatMap_cons, ofByte, List.map_cons, List.cons_append,
          List.nil_append, List.cons.injEq] at h
        obtain ⟨hhigh, hlow, hrest⟩ := h
        exact .pair (denotes_iff.mpr ⟨by omega, hhigh⟩) (denotes_iff.mpr ⟨by omega, hlow⟩)
          (ih hrest)

/-! ## The first bad code -/

/-- The first code that is none of a digit. -/
structure FirstBad (codes : Bytes) (i : Nat) (b : UInt8) : Prop where
  there : codes[i]? = some b
  bad : ¬ IsDigit b
  before : ∀ j < i, ∀ d, codes[j]? = some d → IsDigit d

theorem FirstBad.unique {i' : Nat} {b' : UInt8} (h : FirstBad codes i b)
    (h' : FirstBad codes i' b') : i = i' ∧ b = b' := by
  have hi : i = i' := by
    rcases Nat.lt_trichotomy i i' with hlt | heq | hlt
    · exact absurd (h'.before i hlt b h.there) h.bad
    · exact heq
    · exact absurd (h.before i' hlt b' h'.there) h'.bad
  subst hi
  exact ⟨rfl, Option.some.inj (h.there.symm.trans h'.there)⟩

theorem FirstBad.behind {high low : UInt8} (hhigh : IsDigit high) (hlow : IsDigit low)
    (h : FirstBad codes i b) : FirstBad (high :: low :: codes) (i + 2) b := by
  refine ⟨h.there, h.bad, fun j hj d hd => ?_⟩
  match j, hd with
  | 0, hd => exact Option.some.inj hd ▸ hhigh
  | 1, hd => exact Option.some.inj hd ▸ hlow
  | j + 2, hd => exact h.before j (by omega) d hd

theorem FirstBad.not_pairs (h : FirstBad codes i b) : ¬ Pairs codes data := fun hpairs =>
  h.bad (hpairs.digits b (List.mem_of_getElem? h.there))

/-! ## Reading -/

theorem readPairs_of_pairs (h : Pairs codes data) : readPairs position codes = .ok data := by
  induction h generalizing position with
  | nil => rfl
  | @pair high low b codes data hhigh hlow _ ih =>
    simp only [readPairs, byteValue?_eq_some_iff.mpr hhigh, byteValue?_eq_some_iff.mpr hlow, ih,
      ofNat_halves]

theorem pairs_of_readPairs (heven : codes.length % 2 = 0)
    (h : readPairs position codes = .ok data) : Pairs codes data := by
  fun_induction readPairs position codes generalizing data with
  | case1 => cases h
  | case2 => cases h
  | case3 position high low rest x y hy hx bytes hrest ih =>
    cases h
    obtain ⟨hhigh, hlow⟩ :=
      denotes_halves (byteValue?_eq_some_iff.mp hx) (byteValue?_eq_some_iff.mp hy)
    have heven' : rest.length % 2 = 0 := by simp only [List.length_cons] at heven; omega
    exact .pair hhigh hlow (ih heven' hrest)
  | case4 => cases h
  | case5 codes _ hno =>
    cases h
    match codes, heven with
    | [], _ => exact .nil
    | high :: low :: rest, _ => exact (hno high low rest rfl).elim

theorem firstBad_of_readPairs (h : readPairs position codes = .error e) :
    ∃ i b, FirstBad codes i b ∧ e = .badDigit b (position + i) := by
  fun_induction readPairs position codes generalizing e with
  | case1 position high low rest hx =>
    cases h
    have hbefore : ∀ j < 0, ∀ d, (high :: low :: rest)[j]? = some d → IsDigit d :=
      fun j hj => absurd hj (Nat.not_lt_zero j)
    exact ⟨0, high, ⟨rfl, byteValue?_eq_none_iff.mp hx, hbefore⟩, rfl⟩
  | case2 position high low rest x hy hx =>
    cases h
    have hhigh : IsDigit high := ⟨x, byteValue?_eq_some_iff.mp hx⟩
    refine ⟨1, low, ⟨rfl, byteValue?_eq_none_iff.mp hy, fun j hj d hd => ?_⟩, rfl⟩
    obtain rfl : j = 0 := by omega
    exact Option.some.inj hd ▸ hhigh
  | case3 => cases h
  | case4 position high low rest x y hy hx e' hrest ih =>
    cases h
    obtain ⟨i, b, hbad, rfl⟩ := ih hrest
    refine ⟨i + 2, b, hbad.behind ⟨x, byteValue?_eq_some_iff.mp hx⟩
      ⟨y, byteValue?_eq_some_iff.mp hy⟩, ?_⟩
    rw [Nat.add_assoc, Nat.add_comm 2 i]
  | case5 => cases h

theorem toBytes_of_even (heven : codes.length % 2 = 0) : toBytes codes = readPairs 0 codes :=
  if_neg (by omega)

theorem toBytes_eq_ok_iff : toBytes codes = .ok data ↔ Pairs codes data := by
  by_cases hodd : codes.length % 2 = 1
  · rw [toBytes, if_pos hodd]
    refine iff_of_false nofun fun h => ?_
    have := h.length
    omega
  · rw [toBytes_of_even (by omega)]
    exact ⟨pairs_of_readPairs (by omega), readPairs_of_pairs⟩

/-- An odd number of codes is told whatever they are, and else the first bad one. -/
theorem toBytes_eq_error_iff : toBytes codes = .error e ↔
    (codes.length % 2 = 1 ∧ e = .oddLength) ∨
      (codes.length % 2 = 0 ∧ ∃ i b, FirstBad codes i b ∧ e = .badDigit b i) := by
  by_cases hodd : codes.length % 2 = 1
  · rw [toBytes, if_pos hodd]
    simp [hodd, eq_comm]
  · have heven : codes.length % 2 = 0 := by omega
    rw [toBytes_of_even heven]
    simp only [heven, true_and, Nat.zero_ne_one, false_and, false_or]
    constructor
    · intro h
      simpa using firstBad_of_readPairs h
    · rintro ⟨i, b, hbad, rfl⟩
      -- The row is not read as bytes, so a first bad code is told, and there is only one.
      cases hread : readPairs 0 codes with
      | ok data => exact absurd (pairs_of_readPairs heven hread) hbad.not_pairs
      | error e =>
        obtain ⟨i', b', hbad', rfl⟩ := firstBad_of_readPairs hread
        obtain ⟨rfl, rfl⟩ := hbad.unique hbad'
        rw [Nat.zero_add]

/-- Any digits are pairs of digits if their number is even. -/
theorem exists_pairs_iff :
    (∃ data, Pairs codes data) ↔ codes.length % 2 = 0 ∧ ∀ b ∈ codes, IsDigit b := by
  constructor
  · rintro ⟨data, h⟩
    exact ⟨by have := h.length; omega, h.digits⟩
  · rintro ⟨heven, hdigits⟩
    cases hread : readPairs 0 codes with
    | ok data => exact ⟨data, pairs_of_readPairs heven hread⟩
    | error e =>
      obtain ⟨i, b, hbad, -⟩ := firstBad_of_readPairs hread
      exact absurd (hdigits b (List.mem_of_getElem? hbad.there)) hbad.bad

end SerialLink.Text.Hexadecimal
