-- What the scanner makes of a text that is put together. A text that can be
-- scanned stands for its tokens wherever something follows that no number goes
-- on with, so tokens may be written one behind the other, with blanks between.
import Mathlib.Tactic.IntervalCases
import SerialLink.Json.Printer
import SerialLink.Json.Token
import SerialLink.Proofs.Text.Digits

namespace SerialLink.Json

/-! ## Texts one behind the other -/

namespace Scan

/-- Where the scanner comes to behind a text, and the tokens that end in it. -/
def after : Scan → List Char → Option (Scan × List Token)
  | s, [] => some (s, [])
  | s, c :: rest =>
    (s.step c).bind fun p => (p.1.after rest).map fun q => (q.1, p.2 ++ q.2)

/-- The tokens of a text that ends here. -/
def settled : Scan × List Token → Option (List Token)
  | (.between, tokens) => some tokens
  | (.number n, tokens) => n.finish.map fun number => tokens ++ [.number number]
  | _ => none

theorem after_append {s t : Scan} {front : List Char} {tokens : List Token}
    (hf : s.after front = some (t, tokens)) (back : List Char) :
    s.after (front ++ back) = (t.after back).map fun p => (p.1, tokens ++ p.2) := by
  induction front generalizing s tokens with
  | nil =>
    obtain ⟨rfl, rfl⟩ := Prod.mk.inj (Option.some.inj hf)
    simp
  | cons c rest ih =>
    obtain ⟨⟨v, first⟩, hp, hf⟩ := Option.bind_eq_some_iff.mp hf
    obtain ⟨⟨w, more⟩, hq, hf⟩ := Option.map_eq_some_iff.mp hf
    obtain ⟨rfl, rfl⟩ := Prod.mk.inj hf
    rw [List.cons_append, after, hp, Option.bind_some, ih hq, Option.map_map]
    simp [Function.comp_def, List.append_assoc]

theorem settled_behind (tokens : List Token) (p : Option (Scan × List Token)) :
    (p.map fun q => (q.1, tokens ++ q.2)).bind settled =
      (p.bind settled).map (tokens ++ ·) := by
  rcases p with _ | ⟨s, more⟩
  · rfl
  · cases s <;> simp [settled, Function.comp_def, List.append_assoc]

end Scan

theorem scanFrom_eq (s : Scan) (before : List Token) (text : List Char) :
    scanFrom s before text =
      ((s.after text).bind Scan.settled).map (before.reverse ++ ·) := by
  induction text generalizing s before with
  | nil => cases s <;> simp [scanFrom, Scan.after, Scan.settled, Function.comp_def]
  | cons c rest ih =>
    have hstep : scanFrom s before (c :: rest) = (s.step c).bind fun (t, more) =>
        scanFrom t (more.reverse ++ before) rest := by
      cases h : s.step c <;> cases s <;> simp [scanFrom, h]
    rw [hstep, Scan.after]
    cases s.step c with
    | none => rfl
    | some p =>
      simp only [Option.bind_some, ih]
      cases p.1.after rest with
      | none => rfl
      | some q =>
        obtain ⟨t, more⟩ := q
        cases t <;> simp [Scan.settled, Function.comp_def, List.append_assoc]

theorem scan_eq (text : List Char) : scan text = (Scan.between.after text).bind Scan.settled := by
  rw [scan, scanFrom_eq]
  simp

/-- A character that no number goes on with. -/
def Ends (c : Char) : Prop := ∀ n : Numeral, n.extend c = none

theorem ends_of_isSpace {c : Char} (h : isSpace c = true) : Ends c := by
  simp only [isSpace, Bool.or_eq_true, beq_iff_eq] at h
  rintro ⟨stage⟩
  rcases h with ((rfl | rfl) | rfl) | rfl <;> cases stage <;> rfl

theorem ends_of_mark {c : Char} (h : c ∈ [',', ':', ']', '\x7d']) : Ends c := by
  simp only [List.mem_cons, List.not_mem_nil, or_false] at h
  rintro ⟨stage⟩
  rcases h with rfl | rfl | rfl | rfl <;> cases stage <;> rfl

/-- A text that can be scanned stands for its tokens where a character follows that ends a
number. -/
theorem scan_append {front back : List Char} {c : Char} {tokens : List Token}
    (hf : scan front = some tokens) (hc : Ends c) :
    scan (front ++ c :: back) = (scan (c :: back)).map (tokens ++ ·) := by
  rw [scan_eq] at hf
  obtain ⟨⟨s, before⟩, hs, hsettled⟩ := Option.bind_eq_some_iff.mp hf
  rw [scan_eq, scan_eq, Scan.after_append hs]
  cases s with
  | between =>
    obtain rfl := Option.some.inj hsettled
    exact Scan.settled_behind _ _
  | number n =>
    obtain ⟨number, hfinish, rfl⟩ := Option.map_eq_some_iff.mp hsettled
    -- The character ends the number and is then read as between tokens.
    have hends : (Scan.number n).after (c :: back) = (Scan.between.after (c :: back)).map fun p =>
        (p.1, [.number number] ++ p.2) := by
      simp only [Scan.after, Scan.step, hc n, hfinish]
      cases Scan.start c <;> simp [Function.comp_def]
    rw [hends, Option.map_map, ← Scan.settled_behind]
    simp [Function.comp_def, List.append_assoc]
  | _ => cases hsettled

theorem scan_mark {c : Char} {token : Token} (h : Scan.start c = some (.between, some token))
    (back : List Char) : scan (c :: back) = (scan back).map (token :: ·) := by
  have hstep : Scan.between.after (c :: back) = (Scan.between.after back).map fun p =>
      (p.1, [token] ++ p.2) := by
    simp [Scan.after, Scan.step, h]
  rw [scan_eq, hstep, Scan.settled_behind, ← scan_eq]
  rfl

theorem scan_blank {c : Char} (h : isSpace c = true) (back : List Char) :
    scan (c :: back) = scan back := by
  have hstart : Scan.start c = some (.between, none) := by
    unfold Scan.start
    rw [if_pos h]
  have hstep : Scan.between.after (c :: back) = (Scan.between.after back).map fun p =>
      (p.1, [] ++ p.2) := by
    simp [Scan.after, Scan.step, hstart]
  rw [scan_eq, hstep, Scan.settled_behind, ← scan_eq]
  simp

theorem scan_blanks {blanks : List Char} (h : ∀ c ∈ blanks, isSpace c = true)
    (back : List Char) : scan (blanks ++ back) = scan back := by
  induction blanks with
  | nil => rfl
  | cons c rest ih =>
    rw [List.cons_append, scan_blank (h c List.mem_cons_self)]
    exact ih fun d hd => h d (List.mem_cons_of_mem _ hd)

/-- Blanks between two texts that can be scanned keep their tokens apart. -/
theorem scan_apart {front blanks back : List Char} {tokens : List Token}
    (hf : scan front = some tokens) (h : ∀ c ∈ blanks, isSpace c = true) (hany : blanks ≠ []) :
    scan (front ++ (blanks ++ back)) = (scan back).map (tokens ++ ·) := by
  obtain ⟨c, rest, rfl⟩ := List.exists_cons_of_ne_nil hany
  rw [List.cons_append, scan_append hf (ends_of_isSpace (h c List.mem_cons_self)),
    ← List.cons_append, scan_blanks h]

/-! ## Scalars -/

section Numbers

variable {n : Numeral} {digits : List Nat} {s : Scan}

/-- The scanner goes on with a number, and no token ends. -/
theorem after_number {c : Char} {m : Numeral} (h : n.extend c = some m) (rest : List Char) :
    (Scan.number n).after (c :: rest) = (Scan.number m).after rest := by
  simp [Scan.after, Scan.step, h]

theorem after_whole (hstage : n.stage = .whole) (hdigits : ∀ d ∈ digits, d < 10)
    (rest : List Char) :
    (Scan.number n).after (digits.map Nat.digitChar ++ rest) =
      (Scan.number { n with
        coefficient := digits.foldl (fun k d => 10 * k + d) n.coefficient }).after rest := by
  induction digits generalizing n with
  | nil => rfl
  | cons d digits ih =>
    have hd := Text.decimal_digitValue (hdigits d List.mem_cons_self)
    have hextend : n.extend (Nat.digitChar d) = some (n.push d) := by
      unfold Numeral.extend
      rw [hd, hstage]
    rw [List.map_cons, List.cons_append, after_number hextend,
      ih (n := n.push d) hstage fun e he => hdigits e (List.mem_cons_of_mem _ he)]
    rfl

/-- The digits of a number behind its sign, if it has one. -/
theorem after_coefficient (hstage : n.stage = .sign) (hzero : n.coefficient = 0) (k : Nat)
    (rest : List Char) :
    (Scan.number n).after (Text.Decimal.ofNat k ++ rest) =
      (Scan.number { n with
        stage := if k = 0 then .zero else .whole
        coefficient := k }).after rest := by
  obtain ⟨digits, hs⟩ := Text.spells (by decide : 1 < 10) k
  rw [Text.Decimal.ofNat, hs.text]
  by_cases hk : k = 0
  · have hextend : n.extend (Nat.digitChar 0) = some { n with stage := .zero } := by
      simp [Numeral.extend, hstage, Text.decimal_digitValue (by decide : 0 < 10)]
    rw [hs.zero hk, List.map_singleton, List.singleton_append, after_number hextend, if_pos hk,
      hk, ← hzero]
  · obtain ⟨d, more, rfl⟩ := List.exists_cons_of_ne_nil hs.any
    have hd : d ≠ 0 := by
      rintro rfl
      refine hk ?_
      rw [← hs.value, hs.leading rfl]
      rfl
    have hextend : n.extend (Nat.digitChar d) = some { n.push d with stage := .whole } := by
      obtain ⟨d, rfl⟩ := Nat.exists_eq_succ_of_ne_zero hd
      simp [Numeral.extend, hstage, Text.decimal_digitValue (hs.below _ List.mem_cons_self)]
    have hvalue : more.foldl (fun k d => 10 * k + d) (n.push d).coefficient = k := by
      rw [← hs.value, Numeral.push, hzero]
      rfl
    rw [List.map_cons, List.cons_append, after_number hextend,
      after_whole rfl fun e he => hs.below e (List.mem_cons_of_mem _ he), if_neg hk, hvalue]
    rfl

/-- The digits of an exponent behind its sign, if it has one. -/
theorem after_exponent (hstage : n.stage = .mark ∨ n.stage = .markSign ∨ n.stage = .exponent)
    (hdigits : ∀ d ∈ digits, d < 10) (hany : digits ≠ []) (rest : List Char) :
    (Scan.number n).after (digits.map Nat.digitChar ++ rest) =
      (Scan.number { n with
        stage := .exponent
        exponent := digits.foldl (fun k d => 10 * k + d) n.exponent }).after rest := by
  induction digits generalizing n with
  | nil => exact absurd rfl hany
  | cons d digits ih =>
    have hd := Text.decimal_digitValue (hdigits d List.mem_cons_self)
    have hextend : n.extend (Nat.digitChar d) = some (n.pushExponent d) := by
      rcases hstage with hstage | hstage | hstage <;> simp [Numeral.extend, hd, hstage]
    rw [List.map_cons, List.cons_append, after_number hextend]
    by_cases hmore : digits = []
    · subst hmore
      rfl
    · rw [ih (n := n.pushExponent d) (Or.inr (Or.inr rfl))
        (fun e he => hdigits e (List.mem_cons_of_mem _ he)) hmore]
      rfl

theorem signed_eq (n : Int) : signed n =
    (if decide (n < 0) = true then ['-'] else []) ++ (Text.Decimal.ofNat n.natAbs ++ []) := by
  unfold signed
  rw [List.append_nil]
  split <;> simp_all

/-- A number of which the sign and the digits before the point have been read. -/
def wholeNumeral (negative : Bool) (k : Nat) : Numeral :=
  { stage := if k = 0 then .zero else .whole, negative, coefficient := k }

/-- A number begins with its sign, if it has one, and its first digits. -/
theorem after_written (negative : Bool) (k : Nat) (rest : List Char) :
    Scan.between.after ((if negative then ['-'] else []) ++ (Text.Decimal.ofNat k ++ rest)) =
      (Scan.number (wholeNumeral negative k)).after rest := by
  cases negative with
  | true =>
    have hminus : Scan.between.after ('-' :: (Text.Decimal.ofNat k ++ rest)) =
        (Scan.number { stage := .sign, negative := true }).after
          (Text.Decimal.ofNat k ++ rest) := by
      simp [Scan.after, Scan.step, Scan.start, isSpace]
    rw [if_pos rfl, List.singleton_append, hminus, after_coefficient rfl rfl]
    rfl
  | false =>
    -- Between tokens, a digit begins a number without a sign.
    have hdigit : ∀ d < 10, ∃ m, Scan.start (Nat.digitChar d) = some (.number m, none) ∧
        ({ stage := .sign } : Numeral).extend (Nat.digitChar d) = some m := by
      intro d hd
      interval_cases d <;> exact ⟨_, rfl, rfl⟩
    have hbegin : Scan.between.after (Text.Decimal.ofNat k ++ rest) =
        (Scan.number { stage := .sign }).after (Text.Decimal.ofNat k ++ rest) := by
      obtain ⟨digits, hs⟩ := Text.spells (by decide : 1 < 10) k
      obtain ⟨d, more, rfl⟩ := List.exists_cons_of_ne_nil hs.any
      obtain ⟨m, hstart, hextend⟩ := hdigit d (hs.below d List.mem_cons_self)
      rw [Text.Decimal.ofNat, hs.text, List.map_cons, List.cons_append, after_number hextend]
      simp [Scan.after, Scan.step, hstart]
    rw [if_neg (by decide), List.nil_append, hbegin, after_coefficient rfl rfl]
    rfl

theorem finish_whole (n : Int) :
    (wholeNumeral (decide (n < 0)) n.natAbs).finish = some (.integer n) := by
  cases n with
  | ofNat k => cases k <;> rfl
  | negSucc k =>
    rw [decide_eq_true (Int.negSucc_lt_zero k)]
    rfl

/-- The exponent of a number that has been read up to its mark. -/
theorem after_mark (negative : Bool) (k : Nat) (exponent : Int) :
    ∃ n, (Scan.number (wholeNumeral negative k)).after ('e' :: signed exponent) =
        some (.number n, []) ∧ n.finish = some (.decimal negative k exponent) := by
  have hmark : (wholeNumeral negative k).extend 'e' =
      some { stage := .mark, negative, coefficient := k } := by
    unfold wholeNumeral
    split <;> rfl
  have hsign : ({ stage := .mark, negative, coefficient := k } : Numeral).extend '-' =
      some { stage := .markSign, negative, coefficient := k, negativeExponent := true } := rfl
  obtain ⟨digits, hs⟩ := Text.spells (by decide : 1 < 10) exponent.natAbs
  have hvalue : digits.foldl (fun k d => 10 * k + d) 0 = exponent.natAbs := hs.value
  rw [after_number hmark, signed_eq, Text.Decimal.ofNat, hs.text]
  cases exponent with
  | ofNat e =>
    refine ⟨_, after_exponent (Or.inl rfl) hs.below hs.any [], ?_⟩
    simp [Numeral.finish, hvalue]
  | negSucc e =>
    rw [decide_eq_true (Int.negSucc_lt_zero e), if_pos rfl, List.singleton_append]
    refine ⟨_, (after_number hsign _).trans
      (after_exponent (Or.inr (Or.inl rfl)) hs.below hs.any []), ?_⟩
    simp only [Numeral.finish, hvalue]
    rfl

/-- A number is read as it was written. -/
theorem scan_number (n : Number) : scan n.written = some [.number n] := by
  rw [scan_eq]
  cases n with
  | integer n =>
    rw [Number.written, signed_eq, after_written]
    simp [Scan.after, Scan.settled, finish_whole]
  | decimal negative coefficient exponent =>
    obtain ⟨n, hn, hfinish⟩ := after_mark negative coefficient exponent
    rw [Number.written, List.append_assoc, after_written, hn]
    simp [Scan.settled, hfinish]

end Numbers

/-! ## Strings -/

section Strings

variable {c : Char} {codes : List Nat}

theorem after_plain (hspace : ¬ c.toNat < 0x20) (hquote : c ≠ '"') (hslash : c ≠ '\\')
    (rest : List Char) :
    (Scan.string codes).after (c :: rest) = (Scan.string (c.toNat :: codes)).after rest := by
  simp [Scan.after, Scan.step, hquote, hslash, hspace]

theorem after_escape {code : Nat} (hc : escapeCode? c = some code) (hu : c ≠ 'u')
    (rest : List Char) :
    (Scan.string codes).after ('\\' :: c :: rest) = (Scan.string (code :: codes)).after rest := by
  simp [Scan.after, Scan.step, hc, hu, Function.comp_def]

/-- A control character in four digits. -/
theorem after_unit {n : Nat} (hn : n < 0x20) (rest : List Char) :
    (Scan.string codes).after ('\\' :: 'u' :: (Text.Hexadecimal.padded 4 n ++ rest)) =
      (Scan.string (n :: codes)).after rest := by
  have hpadded : ∀ n < 0x20, Text.Hexadecimal.padded 4 n =
      [Nat.digitChar 0, Nat.digitChar 0, Nat.digitChar (n / 16), Nat.digitChar (n % 16)] := by
    decide
  rw [hpadded n hn]
  simp [Scan.after, Scan.step, Text.hexadecimal_digitValue (show 0 < 16 by decide),
    Text.hexadecimal_digitValue (show n / 16 < 16 by omega),
    Text.hexadecimal_digitValue (show n % 16 < 16 by omega), Nat.div_add_mod,
    Function.comp_def]

/-- A character is read as it was written. -/
theorem after_escapedChar (c : Char) (codes : List Nat) (rest : List Char) :
    (Scan.string codes).after (escapedChar c ++ rest) =
      (Scan.string (c.toNat :: codes)).after rest := by
  unfold escapedChar
  split
  case h_8 hquote hslash _ _ _ _ _ =>
    split
    · exact after_unit ‹_› rest
    · exact after_plain ‹_› hquote hslash rest
  all_goals exact after_escape rfl (by decide) rest

theorem after_escaped (chars : List Char) (codes : List Nat) (rest : List Char) :
    (Scan.string codes).after (chars.flatMap escapedChar ++ rest) =
      (Scan.string ((chars.map Char.toNat).reverse ++ codes)).after rest := by
  induction chars generalizing codes with
  | nil => rfl
  | cons c chars ih =>
    rw [List.flatMap_cons, List.append_assoc, after_escapedChar, ih]
    simp

/-- No character is half of a pair. -/
theorem not_half (c : Char) : ¬ (0xD800 ≤ c.toNat ∧ c.toNat < 0xE000) := by
  have hvalid : c.toNat < 0xD800 ∨ 0xDFFF < c.toNat ∧ c.toNat < 0x110000 := c.valid
  omega

theorem joinUnits_chars (chars : List Char) : joinUnits (chars.map Char.toNat) = some chars := by
  induction chars with
  | nil => rfl
  | cons c rest ih =>
    have hc := not_half c
    cases rest with
    | nil => simp [joinUnits, hc]
    | cons d rest =>
      rw [List.map_cons, List.map_cons, joinUnits, if_neg (by omega), if_neg hc, ← List.map_cons,
        ih, Option.map_some, Char.ofNat_toNat]

/-- A string is read as it was written. -/
theorem scan_string (s : Text) : scan s.written = some [.string s] := by
  have hopen : ∀ rest, Scan.between.after ('"' :: rest) = (Scan.string []).after rest := by
    intro rest
    simp [Scan.after, Scan.step, Scan.start, isSpace]
  have hclose : ∀ codes, (Scan.string codes).after ['"'] =
      some (.between, [.string (textOfUnits codes.reverse)]) := fun codes => rfl
  rw [scan_eq]
  cases s with
  | some s =>
    rw [Text.written, hopen, after_escaped, hclose, List.append_nil, List.reverse_reverse,
      textOfUnits, joinUnits_chars, Option.map_some, String.ofList_toList]
    rfl
  | none => rfl

end Strings

end SerialLink.Json
