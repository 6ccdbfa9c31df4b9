-- Dumps. The lines that show data are a payload that means the data, whatever
-- blanks stand between the lines and whatever case the digits have; and a
-- payload is, but for blanks and case, what its data is shown as.
import SerialLink.Proofs.Monitor.Payloads
import SerialLink.Proofs.Monitor.Rows

namespace SerialLink.Monitor

open Text (isBlank)
open Text.Hexadecimal (character Denotes digit ofByte ofBytes denotes_iff forall_ascii le_toLower
  pairs_iff_toLower)

variable {text : String} {data : Bytes}

/-! ## Digits of a dump -/

theorem mem_ofBytes {d : Char} (hd : d ∈ ofBytes data) : ∃ n < 16, d = digit n := by
  obtain ⟨b, -, hb⟩ := List.mem_flatMap.mp hd
  have hsize := b.toNat_lt
  simp only [ofByte, List.mem_cons, List.not_mem_nil, or_false] at hb
  rcases hb with rfl | rfl
  · exact ⟨_, by omega, rfl⟩
  · exact ⟨_, by omega, rfl⟩

theorem of_mem_ofBytes {P : Char → Prop} (h : ∀ n < 16, P (digit n)) {d : Char}
    (hd : d ∈ ofBytes data) : P d := by
  obtain ⟨n, hn, rfl⟩ := mem_ofBytes hd
  exact h n hn

theorem ascii_of_mem_ofBytes {d : Char} (hd : d ∈ ofBytes data) : d.toNat < 128 :=
  of_mem_ofBytes (P := fun d => d.toNat < 128) (by decide) hd

theorem toLower_of_mem_ofBytes {d : Char} (hd : d ∈ ofBytes data) : d.toLower = d :=
  of_mem_ofBytes (P := fun d => d.toLower = d) (by decide) hd

theorem not_blank_of_toLower {c : Char} (hc : c.toLower ∈ ofBytes data) : isBlank c = false := by
  obtain ⟨n, hn, hdigit⟩ := mem_ofBytes hc
  have hdenotes : Denotes c n := denotes_iff.mpr ⟨hn, hdigit⟩
  -- the blanks in ASCII are few, so they are tried and not the digits
  have hblank := @forall_ascii c (fun c => isBlank c = true → ∀ n < 16, c.toLower ≠ digit n)
    (by decide +kernel) hdenotes.ascii
  exact Bool.eq_false_iff.mpr fun h => hblank h n hn hdigit

theorem length_ofBytes (data : Bytes) : (ofBytes data).length = 2 * data.length := by
  induction data with
  | nil => rfl
  | cons b data ih =>
    rw [ofBytes, List.flatMap_cons, List.length_append, ← ofBytes, ih, List.length_cons]
    simp only [ofByte, List.length_cons, List.length_nil]
    omega

/-! ## Payloads in small letters -/

/-- In UTF-8 a character beyond ASCII begins with a code beyond ASCII. -/
theorem first_code {c : Char} (hc : 128 ≤ c.toNat) :
    ∃ b rest, String.utf8EncodeChar c = b :: rest ∧ 128 ≤ b.toNat := by
  have hv : c.val.toNat = c.toNat := rfl
  unfold String.utf8EncodeChar
  simp only [hv]
  rw [if_neg (by omega)]
  split
  · exact ⟨_, _, rfl, by simp only [UInt8.toNat_ofNat']; omega⟩
  · split
    · exact ⟨_, _, rfl, by simp only [UInt8.toNat_ofNat']; omega⟩
    · exact ⟨_, _, rfl, by simp only [UInt8.toNat_ofNat']; omega⟩

theorem codes_ascii {c : Char} (hc : c.toNat < 128) (cs : List Char) :
    ∃ b, codes (c :: cs) = b :: codes cs ∧ character b = c := by
  have hv : c.val.toNat = c.toNat := rfl
  refine ⟨UInt8.ofNat c.toNat, ?_, ?_⟩
  · rw [codes, List.flatMap_cons, String.utf8EncodeChar]
    simp only [hv]
    rw [if_pos (by omega)]
    rfl
  · rw [character, UInt8.toNat_ofNat', Nat.mod_eq_of_lt (by omega), Char.ofNat_toNat]

theorem toNat_character (b : UInt8) : (character b).toNat = b.toNat := by
  have hall : ∀ k < 256, (Char.ofNat k).toNat = k := by decide +kernel
  exact hall _ b.toNat_lt

/-- A text in ASCII may be told from the codes, in either case. -/
theorem codes_toLower {small : List Char} (hsmall : ∀ d ∈ small, d.toNat < 128) (cs : List Char) :
    (codes cs).map (fun b => (character b).toLower) = small ↔ cs.map Char.toLower = small := by
  induction cs generalizing small with
  | nil => rfl
  | cons c cs ih =>
    by_cases hc : c.toNat < 128
    · obtain ⟨b, hcodes, hb⟩ := codes_ascii hc cs
      rw [hcodes, List.map_cons, List.map_cons, hb]
      cases small with
      | nil => simp
      | cons d small =>
        rw [List.cons.injEq, List.cons.injEq, ih fun d hd => hsmall d (List.mem_cons_of_mem _ hd)]
    · -- The character does not end up in ASCII, and neither does its first code.
      obtain ⟨b, rest, hcode, hb⟩ := first_code (Nat.le_of_not_lt hc)
      rw [codes, List.flatMap_cons, hcode, List.cons_append, List.map_cons, List.map_cons]
      cases small with
      | nil => simp
      | cons d small =>
        have hd := hsmall d List.mem_cons_self
        have hlower := le_toLower c
        have hlower' := toNat_character b ▸ le_toLower (character b)
        refine iff_of_false (fun h => ?_) fun h => ?_
        · rw [← (List.cons.inj h).1] at hd
          omega
        · rw [← (List.cons.inj h).1] at hd
          omega

/-- A payload means some data just when it is the digits of the data, but for blanks and case. -/
theorem parsePayload_iff_toLower :
    parsePayload text = .ok data ↔ (withoutBlanks text).map Char.toLower = ofBytes data := by
  rw [parsePayload_eq_ok_iff, ← codes_withoutBlanks, pairs_iff_toLower]
  exact codes_toLower (fun _ => ascii_of_mem_ofBytes) _

/-! ## Lines -/

theorem digits_hexLines (data : Bytes) : (hexLines data).flatMap String.toList = ofBytes data := by
  calc (hexLines data).flatMap String.toList
    _ = (rows lineWidth data).flatMap ofBytes := by simp [hexLines, List.flatMap_map]
    _ = ofBytes ((rows lineWidth data).flatMap id) := List.flatMap_assoc.symm
    _ = ofBytes data := by rw [List.flatMap_id, flatten_rows (by decide)]

/-- The text holds the lines in order, with blanks before, between and behind them and with each
letter in either case. -/
inductive Shows : List String → List Char → Prop
  | nothing : Shows [] []
  | blank {c : Char} {lines : List String} {text : List Char} : isBlank c = true →
      Shows lines text → Shows lines (c :: text)
  | line {line : String} {digits : List Char} {lines : List String} {text : List Char} :
      digits.map Char.toLower = line.toList → Shows lines text →
      Shows (line :: lines) (digits ++ text)

theorem Shows.digits {lines : List String} {text : List Char} (h : Shows lines text)
    (hlines : ∀ d ∈ lines.flatMap String.toList, ∃ data, d ∈ ofBytes data) :
    (text.filter fun c => !isBlank c).map Char.toLower = lines.flatMap String.toList := by
  induction h with
  | nothing => rfl
  | blank hc _ ih => simp [hc, ih hlines]
  | @line line digits lines text hdigits _ ih =>
    have hkept : (digits.filter fun c => !isBlank c) = digits := by
      refine List.filter_eq_self.mpr fun c hc => ?_
      have hmem : c.toLower ∈ line.toList := hdigits ▸ List.mem_map_of_mem hc
      obtain ⟨data, hdata⟩ := hlines _ (List.mem_flatMap.mpr ⟨line, List.mem_cons_self, hmem⟩)
      rw [not_blank_of_toLower hdata, Bool.not_false]
    have hrest := ih fun d hd => hlines d (List.mem_append_right _ hd)
    rw [List.filter_append, hkept, List.map_append, hdigits, hrest, List.flatMap_cons]

/-- The lines one behind the other show themselves. -/
theorem shows_self {lines : List String} (hlines : ∀ d ∈ lines.flatMap String.toList,
    d.toLower = d) : Shows lines (lines.flatMap String.toList) := by
  induction lines with
  | nil => exact .nothing
  | cons line lines ih =>
    have hline : line.toList.map Char.toLower = line.toList :=
      (List.map_congr_left fun d hd => hlines d (List.mem_append_left _ hd)).trans (List.map_id' _)
    exact .line hline (ih fun d hd => hlines d (List.mem_append_right _ hd))

theorem parsePayload_of_shows (h : Shows (hexLines data) text.toList) :
    parsePayload text = .ok data := by
  have hdigits := h.digits fun d hd => ⟨data, digits_hexLines data ▸ hd⟩
  rw [digits_hexLines] at hdigits
  exact parsePayload_iff_toLower.mpr hdigits

theorem parsePayload_hexLines (data : Bytes) :
    parsePayload (String.ofList ((hexLines data).flatMap String.toList)) = .ok data := by
  refine parsePayload_of_shows ?_
  rw [String.toList_ofList]
  exact shows_self fun d hd => toLower_of_mem_ofBytes (digits_hexLines data ▸ hd)

theorem getElem?_hexLines {i : Nat} {line : String} (h : (hexLines data)[i]? = some line) :
    ∃ row, (rows lineWidth data)[i]? = some row ∧ line.length = 2 * row.length := by
  rw [hexLines, List.getElem?_map, Option.map_eq_some_iff] at h
  obtain ⟨row, hrow, rfl⟩ := h
  exact ⟨row, hrow, by rw [String.length_ofList, length_ofBytes]⟩

theorem length_hexLines (data : Bytes) : (hexLines data).length = (data.length + 15) / 16 := by
  rw [hexLines, List.length_map, length_rows (by decide)]
  rfl

/-- What data is shown as and what a payload means undo each other. The lines are full but for the
last one, and there are as many as it takes, so different data is shown differently. -/
theorem a_dump_is_undone_by_reading_it :
    (∀ (data : Bytes) (text : String), Shows (hexLines data) text.toList →
      parsePayload text = .ok data) ∧
    (∀ text data, parsePayload text = .ok data →
      (hexLines data).flatMap String.toList = (withoutBlanks text).map Char.toLower) ∧
    (∀ (data : Bytes) i line, (hexLines data)[i]? = some line →
      (i + 1 < (hexLines data).length → line.length = 32) ∧
        (i + 1 = (hexLines data).length → 2 ≤ line.length ∧ line.length ≤ 32)) ∧
    (∀ data, (hexLines data).length = (data.length + 15) / 16) ∧
    Function.Injective hexLines := by
  refine ⟨fun _ _ => parsePayload_of_shows, fun text data h => ?_, fun data i line hline => ?_,
    length_hexLines, fun data data' h => ?_⟩
  · rw [digits_hexLines, parsePayload_iff_toLower.mp h]
  · obtain ⟨row, hrow, hlength⟩ := getElem?_hexLines hline
    obtain ⟨hany, hmost, hfull⟩ := length_of_row (by decide) hrow
    have hwidth : lineWidth = 16 := rfl
    rw [hwidth] at hmost
    refine ⟨fun hnext => ?_, fun _ => by omega⟩
    rw [hexLines, List.length_map] at hnext
    rw [hlength, hfull hnext, hwidth]
  · have hsame := parsePayload_hexLines data
    rw [h, parsePayload_hexLines data'] at hsame
    exact (Except.ok.inj hsame).symm

/-- A dump of two lines, with a capital letter in it and a line break of two characters. -/
theorem a_dump_of_seventeen_bytes_is_read :
    Shows (hexLines ((List.range 17).map UInt8.ofNat))
      "000102030405060708090A0b0c0d0e0f\r\n10".toList ∧
    parsePayload "000102030405060708090A0b0c0d0e0f\r\n10" =
      .ok ((List.range 17).map UInt8.ofNat) := by
  have hlines : hexLines ((List.range 17).map UInt8.ofNat) =
      ["000102030405060708090a0b0c0d0e0f", "10"] := by
    decide +kernel
  have hshows : Shows (hexLines ((List.range 17).map UInt8.ofNat))
      "000102030405060708090A0b0c0d0e0f\r\n10".toList := by
    have htext : "000102030405060708090A0b0c0d0e0f\r\n10".toList =
        "000102030405060708090A0b0c0d0e0f".toList ++ '\r' :: '\n' :: ("10".toList ++ []) := by
      decide +kernel
    rw [hlines, htext]
    exact .line (by decide +kernel) (.blank rfl (.blank rfl (.line (by decide +kernel) .nothing)))
  exact ⟨hshows, a_dump_is_undone_by_reading_it.1 _ _ hshows⟩

end SerialLink.Monitor
