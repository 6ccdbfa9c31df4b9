-- Payloads. A payload is read from the codes that are left of it without its
-- blanks and from nothing else, so blanks may stand anywhere in it.
import SerialLink.Monitor.Payload
import SerialLink.Proofs.Text.Pairs

namespace SerialLink.Monitor

open Text (isBlank)
open Text.Hexadecimal (ReadError Pairs IsDigit FirstBad character toBytes toBytes_eq_ok_iff
  toBytes_eq_error_iff exists_pairs_iff)

/-- What a text without its blanks takes in UTF-8. -/
def compact (text : String) : Bytes :=
  (String.ofList (text.toList.filter fun c => !isBlank c)).toUTF8.data.toList

variable {text : String} {data : Bytes} {e : MonitorError}

theorem codes_withoutBlanks (text : String) : codes (withoutBlanks text) = compact text := by
  simp [codes, withoutBlanks, compact, List.utf8Encode]

theorem parsePayload_eq (text : String) :
    parsePayload text = (toBytes (compact text)).mapError (.invalidPayload text) := by
  rw [parsePayload, codes_withoutBlanks]

theorem parsePayload_eq_ok_iff : parsePayload text = .ok data ↔ Pairs (compact text) data := by
  rw [parsePayload_eq, ← toBytes_eq_ok_iff]
  cases toBytes (compact text) with
  | ok read => constructor <;> (intro h; cases h; rfl)
  | error cause => exact iff_of_false (fun h => by cases h) (fun h => by cases h)

theorem parsePayload_eq_error_iff : parsePayload text = .error e ↔
    ∃ cause, toBytes (compact text) = .error cause ∧ e = .invalidPayload text cause := by
  rw [parsePayload_eq]
  cases toBytes (compact text) with
  | ok read =>
    refine iff_of_false (fun h => by cases h) ?_
    rintro ⟨cause, h, -⟩
    cases h
  | error cause =>
    constructor
    · intro h
      cases h
      exact ⟨cause, rfl, rfl⟩
    · rintro ⟨_, h, rfl⟩
      cases h
      rfl

theorem compact_blanks (front back : String) {blanks : String}
    (hblanks : ∀ c ∈ blanks.toList, isBlank c = true) :
    compact (front ++ blanks ++ back) = compact (front ++ back) := by
  have hnone : (blanks.toList.filter fun c => !isBlank c) = [] :=
    List.filter_eq_nil_iff.mpr fun c hc => by simp [hblanks c hc]
  simp [compact, hnone]

/-- A payload is hexadecimal text with blanks anywhere. It is read just when its codes without the
blanks are an even number of digits, as the bytes that the pairs of digits make; an odd number is
told whatever the codes are, and else the first code that is none of a digit. -/
theorem a_payload_is_hexadecimal_but_for_its_blanks :
    (∀ text data, parsePayload text = .ok data ↔ Pairs (compact text) data) ∧
    (∀ text, (∃ data, parsePayload text = .ok data) ↔
      (compact text).length % 2 = 0 ∧ ∀ b ∈ compact text, IsDigit b) ∧
    (∀ text e, parsePayload text = .error e ↔
      ((compact text).length % 2 = 1 ∧ e = .invalidPayload text .oddLength) ∨
        ((compact text).length % 2 = 0 ∧
          ∃ i b, FirstBad (compact text) i b ∧ e = .invalidPayload text (.badDigit b i))) ∧
    (∀ text b i, (MonitorError.invalidPayload text (.badDigit b i)).message =
      "invalid hex payload: " ++ text ++ ": " ++
        ("Invalid character " ++ Text.quoted (character b) ++ s!" at position {i}")) ∧
    (∃ read : Bytes → Except ReadError Bytes,
      (∀ text, parsePayload text = (read (compact text)).mapError (.invalidPayload text)) ∧
      ∀ front blanks back : String, (∀ c ∈ blanks.toList, isBlank c = true) →
        parsePayload (front ++ blanks ++ back) =
          (read (compact (front ++ back))).mapError (.invalidPayload (front ++ blanks ++ back))) := by
  refine ⟨fun _ _ => parsePayload_eq_ok_iff, fun text => ?_, fun text e => ?_, fun text b i => ?_,
    toBytes, parsePayload_eq, fun front blanks back hblanks => ?_⟩
  · rw [← exists_pairs_iff]
    exact exists_congr fun data => parsePayload_eq_ok_iff
  · rw [parsePayload_eq_error_iff]
    constructor
    · rintro ⟨cause, hcause, rfl⟩
      rcases toBytes_eq_error_iff.mp hcause with ⟨hodd, rfl⟩ | ⟨heven, i, b, hbad, rfl⟩
      · exact .inl ⟨hodd, rfl⟩
      · exact .inr ⟨heven, i, b, hbad, rfl⟩
    · rintro (⟨hodd, rfl⟩ | ⟨heven, i, b, hbad, rfl⟩)
      · exact ⟨_, toBytes_eq_error_iff.mpr (.inl ⟨hodd, rfl⟩), rfl⟩
      · exact ⟨_, toBytes_eq_error_iff.mpr (.inr ⟨heven, i, b, hbad, rfl⟩), rfl⟩
  · rfl
  · rw [parsePayload_eq, compact_blanks front back hblanks]

/-- The first of the two codes of a letter beyond ASCII is told as the character of its value. -/
example : parsePayload "é0 z" = .error (.invalidPayload "é0 z" (.badDigit 0xC3 0)) := rfl

/-- A blank of three codes between the two digits of a byte. -/
theorem a_blank_may_part_a_byte :
    (∀ c ∈ "\u2003".toList, isBlank c = true) ∧
      parsePayload ("4" ++ "\u2003" ++ "1") = .ok [0x41] := by
  obtain ⟨-, -, -, -, read, hread, hblanks⟩ := a_payload_is_hexadecimal_but_for_its_blanks
  have hblank : ∀ c ∈ "\u2003".toList, isBlank c = true :=
    List.all_eq_true.mp (by decide)
  have hplain : parsePayload ("4" ++ "1") = .ok [0x41] := rfl
  refine ⟨hblank, ?_⟩
  rw [hread] at hplain
  rw [hblanks "4" "\u2003" "1" hblank]
  cases hvalue : read (compact ("4" ++ "1")) with
  | ok data =>
    rw [hvalue] at hplain
    exact hplain
  | error cause =>
    rw [hvalue] at hplain
    cases hplain

end SerialLink.Monitor
