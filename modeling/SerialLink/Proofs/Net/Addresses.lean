-- Every socket address is read back from its canonical text. The text of a long
-- address leaves out its longest row of zeros, and the reader fills in as many
-- as are missing.
import SerialLink.Net.Address
import SerialLink.Proofs.Text.Digits

namespace SerialLink.Net

open Text (Spells)

/-! ## Numbers -/

/-- No digit of the radix comes first. -/
def Stops (radix : Nat) (text : List Char) : Prop :=
  ∀ c ∈ text.head?, (Text.Hexadecimal.digitValue? c).filter (· < radix) = none

theorem stops_nil (radix : Nat) : Stops radix [] := nofun

theorem stops_mark {c : Char} (hc : c ∈ ['.', ':', '[', ']', '%']) (radix : Nat)
    (rest : List Char) : Stops radix (c :: rest) := by
  rintro d hd
  obtain rfl := Option.some.inj hd
  simp only [List.mem_cons, List.not_mem_nil, or_false] at hc
  rcases hc with rfl | rfl | rfl | rfl | rfl <;> rfl

section Numbers

variable {n : Nat} {digits : List Nat} {rest : List Char}

theorem leadingDigits_append {radix : Nat} (hradix : radix ≤ 16) (hd : ∀ d ∈ digits, d < radix)
    (hrest : Stops radix rest) :
    leadingDigits radix (digits.map Nat.digitChar ++ rest) = digits := by
  induction digits with
  | nil =>
    cases rest with
    | nil => rfl
    | cons c rest => simp [leadingDigits, hrest c rfl]
  | cons d digits ih =>
    have hd' := hd d List.mem_cons_self
    have hvalue := Text.hexadecimal_digitValue (show d < 16 by omega)
    have hmore := ih fun e he => hd e (List.mem_cons_of_mem _ he)
    unfold leadingDigits at hmore ⊢
    rw [List.map_cons, List.cons_append, List.map_cons, hvalue, Option.filter_some,
      if_pos (by simpa using hd'), List.takeWhile_cons]
    exact congrArg (d :: ·) hmore

/-- A number is read as it was written. -/
theorem readNumber_written (form : NumberForm) (hs : Spells form.radix n digits)
    (hradix : form.radix ≤ 16) (hlimit : n ≤ form.limit)
    (hmost : ∀ m ∈ form.most, digits.length ≤ m) (hrest : Stops form.radix rest) :
    readNumber form (Nat.toDigits form.radix n ++ rest) = some (n, rest) := by
  have hlead := leadingDigits_append hradix hs.below hrest
  have hvalue : digits.foldl (fun n d => form.radix * n + d) 0 = n := hs.value
  have hany : digits.isEmpty = false := by simpa using hs.any
  have hlength : (form.most.any fun m => decide (m < digits.length)) = false := by
    cases hm : form.most with
    | none => rfl
    | some m => simpa using hmost m hm
  have hzero : (digits.head? == some 0 && decide (1 < digits.length)) = false := by
    by_cases h : digits.head? = some 0
    · rw [hs.leading h]
      rfl
    · simp [h]
  unfold readNumber
  dsimp only
  rw [hs.text, hlead, hvalue, List.drop_left' (List.length_map _), hany, hlength, Bool.and_assoc,
    hzero]
  simp [hlimit]

end Numbers

/-- Where no digit comes first, no number is read. -/
theorem readNumber_stops (form : NumberForm) {text : List Char} (hradix : form.radix ≤ 16)
    (h : Stops form.radix text) : readNumber form text = none := by
  have hlead : leadingDigits form.radix ([].map Nat.digitChar ++ text) = [] :=
    leadingDigits_append hradix nofun h
  rw [List.map_nil, List.nil_append] at hlead
  simp [readNumber, hlead]

/-- What is read is taken from the front. -/
theorem suffix_of_readNumber {form : NumberForm} {n : Nat} {text rest : List Char}
    (h : readNumber form text = some (n, rest)) : rest <:+ text := by
  unfold readNumber at h
  dsimp only at h
  split at h
  · cases h
  · obtain ⟨_, rfl⟩ := Prod.mk.inj (Option.some.inj h)
    exact List.drop_suffix ..

theorem readByte {b : UInt8} {rest : List Char} (hrest : Stops 10 rest) :
    readNumber byteForm (Nat.toDigits 10 b.toNat ++ rest) = some (b.toNat, rest) := by
  obtain ⟨digits, hs⟩ := Text.spells (by decide : 1 < 10) b.toNat
  have hb : b.toNat < 256 := b.toNat_lt
  refine readNumber_written byteForm hs (by decide) (Nat.le_of_lt_succ hb) ?_ hrest
  rintro m hm
  obtain rfl := Option.some.inj hm
  have hlength := (Nat.length_toDigits_le_iff (b := 10) (n := b.toNat) (k := 3) (by decide)
    (by decide)).mpr (by omega)
  rwa [hs.text, List.length_map] at hlength

theorem readGroup {g : UInt16} {rest : List Char} (hrest : Stops 16 rest) :
    readNumber groupForm (Nat.toDigits 16 g.toNat ++ rest) = some (g.toNat, rest) := by
  obtain ⟨digits, hs⟩ := Text.spells (by decide : 1 < 16) g.toNat
  have hg : g.toNat < 65536 := g.toNat_lt
  refine readNumber_written groupForm hs (by decide) (Nat.le_of_lt_succ hg) ?_ hrest
  rintro m hm
  obtain rfl := Option.some.inj hm
  have hlength := (Nat.length_toDigits_le_iff (b := 16) (n := g.toNat) (k := 4) (by decide)
    (by decide)).mpr (by omega)
  rwa [hs.text, List.length_map] at hlength

theorem readPort_written (port : UInt16) :
    readPort (':' :: Nat.toDigits 10 port.toNat) = some (port, []) := by
  obtain ⟨digits, hs⟩ := Text.spells (by decide : 1 < 10) port.toNat
  have hport : port.toNat < 65536 := port.toNat_lt
  have hread : readNumber portForm (Nat.toDigits 10 port.toNat ++ []) = some (port.toNat, []) :=
    readNumber_written portForm hs (by decide) (Nat.le_of_lt_succ hport) nofun
      (stops_nil 10)
  rw [List.append_nil] at hread
  simp [readPort, skip, hread]

/-! ## Four bytes -/

theorem toList_fourBytes (x : FourBytes) : x.text.toList =
    Nat.toDigits 10 x.a.toNat ++ '.' :: (Nat.toDigits 10 x.b.toNat ++ '.' ::
      (Nat.toDigits 10 x.c.toNat ++ '.' :: Nat.toDigits 10 x.d.toNat)) := by
  simp [FourBytes.text, toString, String.toList_append]

theorem readFourBytes_written (x : FourBytes) {rest : List Char} (hrest : Stops 10 rest) :
    readFourBytes (x.text.toList ++ rest) = some (x, rest) := by
  have hdot : ∀ rest, Stops 10 ('.' :: rest) := stops_mark (by simp) 10
  rw [toList_fourBytes]
  simp [readFourBytes, readByte, hdot, hrest, skip, List.append_assoc]

theorem readFourBytes_stops {text : List Char} (h : Stops 10 text) : readFourBytes text = none := by
  simp [readFourBytes, readNumber_stops byteForm (by decide) h]

/-- There are no four bytes without a point. -/
theorem readFourBytes_without {text : List Char} (h : '.' ∉ text) : readFourBytes text = none := by
  unfold readFourBytes
  cases hread : readNumber byteForm text with
  | none => rfl
  | some p =>
    have hrest : '.' ∉ p.2 := fun hmem => h ((suffix_of_readNumber hread).mem hmem)
    have hskip : skip '.' p.2 = none := by
      cases hp : p.2 with
      | nil => rfl
      | cons c rest =>
        rw [hp] at hrest
        simp only [List.mem_cons, not_or] at hrest
        simp [skip, Ne.symm hrest.1]
    simp [hskip]

/-! ## Groups -/

/-- Groups, each behind a colon. -/
def colonGroups (groups : List UInt16) : List Char :=
  groups.flatMap fun g => ':' :: Nat.toDigits 16 g.toNat

theorem toList_groupsText (g : UInt16) (rest : List UInt16) :
    (groupsText (g :: rest)).toList = Nat.toDigits 16 g.toNat ++ colonGroups rest := by
  have hparts : ∀ groups : List UInt16, (groupsText groups).toList =
      [':'].intercalate (groups.map fun g => Nat.toDigits 16 g.toNat) := by
    intro groups
    simp [groupsText, String.toList_intercalate, Function.comp_def, Text.Hexadecimal.ofNat]
  rw [hparts]
  induction rest generalizing g with
  | nil => simp [List.intercalate, colonGroups]
  | cons h rest ih =>
    have hmore := ih h
    rw [List.map_cons] at hmore
    rw [List.map_cons, List.map_cons, List.intercalate_cons_cons, hmore]
    simp [colonGroups]

/-- What a row of groups does not go on with: the end of the address, or the mark of the zeros
that are left out. -/
inductive Breaks : List Char → Prop
  | bracket {rest : List Char} : Breaks (']' :: rest)
  | percent {rest : List Char} : Breaks ('%' :: rest)
  | zeros {rest : List Char} : Breaks (':' :: ':' :: rest)

section Groups

variable {g : UInt16} {groups : List UInt16} {rest : List Char} {left : Nat}

theorem Breaks.stops (h : Breaks rest) (radix : Nat) : Stops radix rest := by
  cases h <;> exact stops_mark (by simp) radix _

theorem readGroups_break (h : Breaks rest) (first : Bool) (left : Nat) :
    readGroups first left rest = ([], false, rest) := by
  have hnumber := readNumber_stops groupForm (by decide) (h.stops 16)
  have hbytes := readFourBytes_stops (h.stops 10)
  cases left with
  | zero => rfl
  | succ left =>
    cases first with
    | true => simp [readGroups, hbytes, hnumber]
    | false =>
      cases h with
      | bracket => simp [readGroups, skip]
      | percent => simp [readGroups, skip]
      | @zeros rest =>
        have hcolon := stops_mark (c := ':') (by simp)
        have hnumber' : readNumber groupForm (':' :: rest) = none :=
          readNumber_stops groupForm (by decide) (hcolon 16 rest)
        simp [readGroups, skip, readFourBytes_stops (hcolon 10 rest), hnumber']

/-- One group is read, then those behind it. -/
theorem readGroups_cons {first : Bool} {text tail : List Char} {g : UInt16}
    (hbody : (if first then some text else skip ':' text) =
      some (Nat.toDigits 16 g.toNat ++ tail))
    (hbytes : readFourBytes (Nat.toDigits 16 g.toNat ++ tail) = none) (htail : Stops 16 tail) :
    readGroups first (left + 1) text =
      (g :: (readGroups false left tail).1, (readGroups false left tail).2) := by
  simp [readGroups, hbody, hbytes, readGroup htail]

/-- Four bytes are read as the last two groups. -/
theorem readGroups_fourBytes {first : Bool} {text body : List Char} {x : FourBytes}
    (hbody : (if first then some text else skip ':' text) = some body)
    (hbytes : readFourBytes body = some (x, rest)) (hleft : left ≠ 0) :
    readGroups first (left + 1) text = ([groupOf x.a x.b, groupOf x.c x.d], true, rest) := by
  simp [readGroups, hbody, hbytes, hleft]

theorem point_notMem_digits {radix : Nat} (hone : 1 < radix) (hradix : radix ≤ 16) (n : Nat) :
    '.' ∉ Nat.toDigits radix n := by
  obtain ⟨digits, hs⟩ := Text.spells hone n
  have hchar : ∀ d < 16, Nat.digitChar d ≠ '.' := by decide
  rw [hs.text]
  rintro hmem
  obtain ⟨d, hd, heq⟩ := List.mem_map.mp hmem
  exact hchar d (Nat.lt_of_lt_of_le (hs.below d hd) hradix) heq

theorem point_notMem_group (g : UInt16) : '.' ∉ Nat.toDigits 16 g.toNat :=
  point_notMem_digits (by decide) (by decide) g.toNat

theorem point_notMem_colonGroups (groups : List UInt16) : '.' ∉ colonGroups groups := by
  simp only [colonGroups, List.mem_flatMap, List.mem_cons, not_exists, not_and, not_or]
  exact fun g _ => ⟨by decide, point_notMem_group g⟩

theorem stops_colonGroups (hrest : Breaks rest) :
    Stops 16 (colonGroups groups ++ rest) := by
  cases groups with
  | nil => exact hrest.stops 16
  | cons g groups => exact stops_mark (by simp) 16 _

/-- The groups behind the first one are read as they were written. -/
theorem readGroups_colons (hrest : Breaks rest) (hdot : '.' ∉ rest)
    (hleft : groups.length ≤ left) :
    readGroups false left (colonGroups groups ++ rest) = (groups, false, rest) := by
  induction groups generalizing left with
  | nil => exact readGroups_break hrest false left
  | cons g groups ih =>
    obtain ⟨left, rfl⟩ := Nat.exists_eq_add_of_lt (Nat.lt_of_succ_le hleft)
    have hbytes : readFourBytes (Nat.toDigits 16 g.toNat ++ (colonGroups groups ++ rest)) = none :=
      readFourBytes_without (by
        simp [point_notMem_group, point_notMem_colonGroups, hdot])
    have hskip : skip ':' (colonGroups (g :: groups) ++ rest) =
        some (Nat.toDigits 16 g.toNat ++ (colonGroups groups ++ rest)) := by
      simp [colonGroups, skip]
    rw [readGroups_cons (by simpa using hskip) hbytes (stops_colonGroups hrest),
      ih (Nat.le_add_right ..)]

/-- A row of groups is read as it was written. -/
theorem readGroups_written (hrest : Breaks rest) (hdot : '.' ∉ rest)
    (hleft : groups.length ≤ left) :
    readGroups true left ((groupsText groups).toList ++ rest) = (groups, false, rest) := by
  cases groups with
  | nil => exact readGroups_break hrest true left
  | cons g groups =>
    obtain ⟨left, rfl⟩ := Nat.exists_eq_add_of_lt (Nat.lt_of_succ_le hleft)
    have hbytes : readFourBytes (Nat.toDigits 16 g.toNat ++ (colonGroups groups ++ rest)) = none :=
      readFourBytes_without (by
        simp [point_notMem_group, point_notMem_colonGroups, hdot])
    rw [toList_groupsText, List.append_assoc,
      readGroups_cons rfl hbytes (stops_colonGroups hrest),
      readGroups_colons hrest hdot (Nat.le_add_right ..)]

end Groups

/-! ## The row of zeros -/

/-- Every group of the row is zero. -/
def ZeroRun.In (run : ZeroRun) (groups : List UInt16) : Prop :=
  ∀ i, run.start ≤ i → i < run.start + run.length → groups[i]? = some 0

theorem ZeroRun.In.append {run : ZeroRun} {groups : List UInt16} (h : run.In groups)
    (more : List UInt16) : run.In (groups ++ more) := by
  intro i hlow hhigh
  have hi := h i hlow hhigh
  rw [List.getElem?_append_left (List.getElem?_eq_some_iff.mp hi).1, hi]

theorem ZeroRun.empty_in (groups : List UInt16) : ZeroRun.In {} groups :=
  fun _ _ hhigh => absurd hhigh (Nat.not_lt_zero _)

/-- A row that ends with the groups seen goes on with the next zero, or starts with it. -/
theorem ZeroRun.In.extend {run : ZeroRun} {seen : List UInt16} (h : run.In seen)
    (hends : run.length ≠ 0 → run.start + run.length = seen.length) :
    let next := if run.length = 0 then { start := seen.length, length := 1 }
      else { run with length := run.length + 1 }
    next.In (seen ++ [0]) ∧ next.start + next.length = (seen ++ [0]).length := by
  dsimp only
  split
  case isTrue hzero =>
    refine ⟨fun i hlow hhigh => ?_, by simp⟩
    obtain rfl : i = seen.length := by simp at hlow hhigh; omega
    simp
  case isFalse hzero =>
    have hend := hends hzero
    refine ⟨fun i hlow hhigh => ?_, by simp; omega⟩
    by_cases hi : i < run.start + run.length
    · exact h.append [0] i hlow hi
    · obtain rfl : i = seen.length := by simp at hhigh; omega
      simp

/-- The row that is found is a row of zeros. `seen` are the groups passed so far, and the current
row ends with them. -/
theorem longestRun_in (seen rest : List UInt16) {current longest : ZeroRun}
    (hcurrent : current.In seen)
    (hends : current.length ≠ 0 → current.start + current.length = seen.length)
    (hlongest : longest.In seen) :
    (longestRun seen.length current longest rest).In (seen ++ rest) := by
  induction rest generalizing seen current longest with
  | nil => simpa [longestRun] using hlongest
  | cons g rest ih =>
    have hlength : seen.length + 1 = (seen ++ [g]).length := by simp
    rw [show seen ++ g :: rest = (seen ++ [g]) ++ rest by simp]
    by_cases hg : g = 0
    · subst hg
      obtain ⟨hin, hstop⟩ := hcurrent.extend hends
      simp only [longestRun, if_pos]
      generalize (if current.length = 0 then ZeroRun.mk seen.length 1
        else { current with length := current.length + 1 }) = next at hin hstop ⊢
      rw [hlength]
      refine ih (seen ++ [0]) hin (fun _ => hstop) ?_
      split
      · exact hin
      · exact hlongest.append [0]
    · simp only [longestRun, if_neg hg]
      rw [hlength]
      exact ih (seen ++ [g]) (ZeroRun.empty_in _) (fun h => absurd rfl h) (hlongest.append [g])

/-- A row of zeros can be left out: its length tells what stood there. -/
theorem ZeroRun.In.filled {run : ZeroRun} {groups : List UInt16} (h : run.In groups) :
    groups.take run.start ++ List.replicate run.length 0 ++
      groups.drop (run.start + run.length) = groups := by
  have hzeros : (groups.drop run.start).take run.length = List.replicate run.length 0 := by
    refine List.ext_getElem? fun i => ?_
    by_cases hi : i < run.length
    · simp [hi, h (run.start + i) (by omega) (by omega)]
    · rw [List.getElem?_eq_none (by simp; omega), List.getElem?_eq_none (by simp; omega)]
  rw [← hzeros, ← List.drop_drop, List.append_assoc, List.take_append_drop,
    List.take_append_drop]

/-! ## Eight groups -/

theorem ofList?_groups (x : EightGroups) : EightGroups.ofList? x.groups = some x :=
  dif_pos x.eight

theorem groupOf_groupBytes (g : UInt16) : groupOf (groupBytes g).1 (groupBytes g).2 = g := by
  have hg : g.toNat < 65536 := g.toNat_lt
  apply UInt16.toNat_inj.mp
  simp [groupOf, groupBytes]
  omega

section EightGroups

variable {rest : List Char}

/-- Eight groups are read from their row. -/
theorem readEightGroups_row (x : EightGroups) (hrest : Breaks rest) (hdot : '.' ∉ rest) :
    readEightGroups ((groupsText x.groups).toList ++ rest) = some (x, rest) := by
  have hread : readGroups true 8 _ = _ :=
    readGroups_written hrest hdot (Nat.le_of_eq x.eight)
  simp [readEightGroups, hread, x.eight, ofList?_groups]

/-- Eight groups are put together from those read in front of the zeros and those behind. -/
theorem readEightGroups_around (x : EightGroups) {text tail : List Char} {front back : List UInt16}
    {bytes : Bool} {zeros : Nat} (hgroups : front ++ List.replicate zeros 0 ++ back = x.groups)
    (hzeros : 1 < zeros) (hfront : readGroups true 8 text = (front, false, ':' :: ':' :: tail))
    (hback : readGroups true (7 - front.length) tail = (back, bytes, rest)) :
    readEightGroups text = some (x, rest) := by
  have height : front.length + zeros + back.length = 8 := by
    rw [← x.eight, ← hgroups]
    simp [Nat.add_assoc]
  have hmissing : 8 - front.length - back.length = zeros := by omega
  have hnot : front.length ≠ 8 := by omega
  rw [List.append_assoc] at hgroups
  simp [readEightGroups, hfront, hnot, skip, hback, hmissing, hgroups, ofList?_groups]

/-- Eight groups are read from the groups around the zeros that are left out. -/
theorem readEightGroups_zeros (x : EightGroups) {front back : List UInt16} {zeros : Nat}
    (hgroups : front ++ List.replicate zeros 0 ++ back = x.groups) (hzeros : 1 < zeros)
    (hrest : Breaks rest) (hdot : '.' ∉ rest) :
    readEightGroups ((groupsText front ++ "::" ++ groupsText back).toList ++ rest) =
      some (x, rest) := by
  have height : front.length + zeros + back.length = 8 := by
    rw [← x.eight, ← hgroups]
    simp [Nat.add_assoc]
  have hback : readGroups true (7 - front.length) ((groupsText back).toList ++ rest) =
      (back, false, rest) := readGroups_written hrest hdot (by omega)
  have hpoint : '.' ∉ ':' :: ':' :: ((groupsText back).toList ++ rest) := by
    cases back with
    | nil => simpa [groupsText] using hdot
    | cons g back =>
      rw [toList_groupsText]
      simp [point_notMem_group, point_notMem_colonGroups, hdot]
  have hfront : readGroups true 8 ((groupsText front).toList ++
      ':' :: ':' :: ((groupsText back).toList ++ rest)) = (front, false, _) :=
    readGroups_written .zeros hpoint (by omega)
  have htext : (groupsText front ++ "::" ++ groupsText back).toList ++ rest =
      (groupsText front).toList ++ ':' :: ':' :: ((groupsText back).toList ++ rest) := by
    simp [String.toList_append]
  rw [htext]
  exact readEightGroups_around x hgroups hzeros hfront hback

/-- Groups that stand for a short address are read from its four bytes. -/
theorem readEightGroups_fourBytes (x : EightGroups) {high low : UInt16}
    (hgroups : x.groups = [0, 0, 0, 0, 0, 0xFFFF, high, low]) (hrest : Breaks rest) :
    readEightGroups (("::ffff:" ++ FourBytes.text ⟨(groupBytes high).1, (groupBytes high).2,
      (groupBytes low).1, (groupBytes low).2⟩).toList ++ rest) = some (x, rest) := by
  obtain ⟨four, hfour⟩ : ∃ four, four = FourBytes.mk (groupBytes high).1 (groupBytes high).2
    (groupBytes low).1 (groupBytes low).2 := ⟨_, rfl⟩
  obtain ⟨tail, htail⟩ : ∃ tail, tail = four.text.toList ++ rest := ⟨_, rfl⟩
  have htext : ("::ffff:" ++ four.text).toList ++ rest =
      ':' :: ':' :: (Nat.toDigits 16 (0xFFFF : UInt16).toNat ++ (':' :: tail)) := by
    rw [String.toList_append, List.append_assoc, ← htail]
    rfl
  have hlast : readGroups false 6 (':' :: tail) = ([high, low], true, rest) := by
    have hbytes := readFourBytes_written four (hrest.stops 10)
    rw [readGroups_fourBytes (by simp [skip]) (htail ▸ hbytes) (by decide), hfour]
    simp [groupOf_groupBytes]
  -- The first character is no decimal digit.
  have hmark : readFourBytes (Nat.toDigits 16 (0xFFFF : UInt16).toNat ++ (':' :: tail)) = none :=
    readFourBytes_stops (fun c hc => by
      obtain rfl := Option.some.inj hc
      decide)
  have hback : readGroups true 7 (Nat.toDigits 16 (0xFFFF : UInt16).toNat ++ (':' :: tail)) =
      ([0xFFFF, high, low], true, rest) := by
    rw [readGroups_cons rfl hmark (stops_mark (by simp) 16 _), hlast]
  have hfilled : [] ++ List.replicate 5 0 ++ [0xFFFF, high, low] = x.groups := hgroups.symm
  rw [← hfour, htext]
  exact readEightGroups_around x hfilled (by decide) (readGroups_break .zeros true 8) hback

theorem readEightGroups_written (x : EightGroups) (hrest : Breaks rest) (hdot : '.' ∉ rest) :
    readEightGroups (x.text.toList ++ rest) = some (x, rest) := by
  unfold EightGroups.text
  split
  case h_1 high low hgroups => exact readEightGroups_fourBytes x hgroups hrest
  case h_2 =>
    dsimp only
    split
    case isTrue hrun =>
      have hin := longestRun_in [] x.groups (ZeroRun.empty_in []) (fun h => absurd rfl h)
        (ZeroRun.empty_in [])
      exact readEightGroups_zeros x hin.filled hrun hrest hdot
    case isFalse => exact readEightGroups_row x hrest hdot

end EightGroups

/-! ## Addresses -/

/-- The number of an interface behind its mark; zero is not written. -/
def scopeMark (scope : UInt32) : List Char :=
  if scope = 0 then [] else '%' :: Nat.toDigits 10 scope.toNat

theorem readScope_written (scope : UInt32) (rest : List Char) :
    readScope (scopeMark scope ++ ']' :: rest) = (scope, ']' :: rest) := by
  by_cases hzero : scope = 0
  · simp [scopeMark, hzero, readScope, skip]
  · obtain ⟨digits, hs⟩ := Text.spells (by decide : 1 < 10) scope.toNat
    have hscope : scope.toNat < 4294967296 := scope.toNat_lt
    have hread : readNumber scopeForm (Nat.toDigits 10 scope.toNat ++ ']' :: rest) =
        some (scope.toNat, ']' :: rest) :=
      readNumber_written scopeForm hs (by decide) (Nat.le_of_lt_succ hscope) nofun
        (stops_mark (by simp) 10 rest)
    simp [scopeMark, hzero, readScope, skip, hread]

theorem breaks_scopeMark (scope : UInt32) (rest : List Char) :
    Breaks (scopeMark scope ++ ']' :: rest) := by
  unfold scopeMark
  split
  · exact .bracket
  · exact .percent

theorem toList_short (address : FourBytes) (port : UInt16) :
    (SocketAddress.short address port).text.toList =
      address.text.toList ++ ':' :: Nat.toDigits 10 port.toNat := by
  simp [SocketAddress.text, toString, String.toList_append]

theorem toList_long (address : EightGroups) (scope : UInt32) (port : UInt16) :
    (SocketAddress.long address scope port).text.toList =
      '[' :: (address.text.toList ++
        (scopeMark scope ++ ']' :: ':' :: Nat.toDigits 10 port.toNat)) := by
  by_cases h : scope = 0 <;>
    simp [h, scopeMark, SocketAddress.text, toString, String.toList_append]

theorem readShort_written (address : FourBytes) (port : UInt16) :
    readShort (SocketAddress.short address port).text.toList =
      some (.short address port, []) := by
  have haddress := readFourBytes_written address
    (stops_mark (c := ':') (by simp) 10 (Nat.toDigits 10 port.toNat))
  simp [toList_short, readShort, haddress, readPort_written]

theorem readLong_written (address : EightGroups) (scope : UInt32) (port : UInt16) :
    readLong (SocketAddress.long address scope port).text.toList =
      some (.long address scope port, []) := by
  have hdot : '.' ∉ scopeMark scope ++ ']' :: ':' :: Nat.toDigits 10 port.toNat := by
    have hpoint : ∀ n, '.' ∉ Nat.toDigits 10 n := point_notMem_digits (by decide) (by decide)
    simp only [scopeMark]
    split <;> simp [hpoint]
  have haddress := readEightGroups_written address (breaks_scopeMark scope _) hdot
  simp [toList_long, readLong, skip, haddress, readScope_written, readPort_written]

/-- Every address is read back from its text. -/
theorem SocketAddress.parse_text (address : SocketAddress) :
    SocketAddress.parse? address.text = some address := by
  cases address with
  | short address port => simp [SocketAddress.parse?, readShort_written]
  | long address scope port =>
    have hbracket : readFourBytes (SocketAddress.long address scope port).text.toList = none := by
      rw [toList_long]
      exact readFourBytes_stops (stops_mark (by simp) 10 _)
    simp [SocketAddress.parse?, readShort, hbracket, readLong_written]

end SerialLink.Net
