-- The framing of a port of the platform. Line parameters that the platform does
-- not have are refused alike when a port is opened and when an open one is set
-- up anew; but the open port has taken on the speed and the data bits by then.
import SerialLink.Port.Native

namespace SerialLink

/-- The platform has this framing. -/
def LineParameters.Offered (p : LineParameters) : Prop :=
  p.stopBits ≠ .onePointFive ∧ p.parity ≠ .mark ∧ p.parity ≠ .space

instance (p : LineParameters) : Decidable p.Offered := inferInstanceAs (Decidable (_ ∧ _))

namespace NativePort

/-- What is told of a framing that the platform does not have; the stop bits are looked at first. -/
def refusal? (p : LineParameters) : Option String :=
  match p.stopBits, p.parity with
  | .onePointFive, _ => some "1.5 stop bits"
  | _, .mark => some "Mark parity"
  | _, .space => some "Space parity"
  | _, _ => none

/-- The settings behind a call that was refused. Stop bits that the platform has were set before
the parity was looked at. -/
def halfSet (settings p : LineParameters) : LineParameters :=
  { p with
    stopBits := if p.stopBits = .onePointFive then settings.stopBits else p.stopBits
    parity := settings.parity }

variable {port : NativePort} {p : LineParameters}

theorem refusal?_eq_none_iff : refusal? p = none ↔ p.Offered := by
  obtain ⟨speed, dataBits, stopBits, parity⟩ := p
  cases stopBits <;> cases parity <;> simp [refusal?, LineParameters.Offered]

theorem exists_refusal_iff : (∃ text, refusal? p = some text) ↔ ¬ p.Offered := by
  rw [← refusal?_eq_none_iff, ← Option.ne_none_iff_exists']

theorem setParameters_eq (hopen : port.closed = false) (p : LineParameters) :
    port.setParameters p =
      match refusal? p with
      | some text => (.error (.invalidParameters text),
          { port with settings := halfSet port.settings p })
      | none => (.ok (), { port with settings := p }) := by
  obtain ⟨speed, dataBits, stopBits, parity⟩ := p
  cases stopBits <;> cases parity <;>
    simp [setParameters, hopen, refusal?, halfSet, checkStopBits, checkParity]

theorem openAt_eq (path : String) (p : LineParameters) (present : Bool) :
    openAt path p present =
      match refusal? p with
      | some text => .error (.invalidParameters text)
      | none => if present then .ok { path, settings := p }
          else .error (.openFailed (path ++ ": No such file or directory")) := by
  obtain ⟨speed, dataBits, stopBits, parity⟩ := p
  cases stopBits <;> cases parity <;> cases present <;> rfl

theorem halfSet_eq_iff {settings p : LineParameters} : halfSet settings p = settings ↔
    p.baudRate = settings.baudRate ∧ p.dataBits = settings.dataBits ∧
      (p.stopBits = .onePointFive ∨ p.stopBits = settings.stopBits) := by
  obtain ⟨speed, dataBits, stopBits, parity⟩ := settings
  by_cases hstop : p.stopBits = .onePointFive <;> simp [halfSet, hstop]

/-! ## Calls one after the other -/

/-- A row of calls. -/
def setAll (port : NativePort) (calls : List LineParameters) : NativePort :=
  calls.foldl (fun port p => (port.setParameters p).2) port

theorem offered_halfSet {settings : LineParameters} (h : settings.Offered) (p : LineParameters) :
    (halfSet settings p).Offered := by
  refine ⟨?_, h.2⟩
  unfold halfSet
  dsimp only
  split
  · exact h.1
  · assumption

theorem offered_setParameters (h : port.settings.Offered) (p : LineParameters) :
    (port.setParameters p).2.settings.Offered := by
  cases hclosed : port.closed with
  | true => rwa [setParameters, if_pos hclosed]
  | false =>
    rw [setParameters_eq hclosed]
    cases htext : refusal? p with
    | some text => exact offered_halfSet h p
    | none => exact refusal?_eq_none_iff.mp htext

theorem offered_setAll (h : port.settings.Offered) (calls : List LineParameters) :
    (port.setAll calls).settings.Offered := by
  induction calls generalizing port with
  | nil => exact h
  | cons p calls ih => exact ih (offered_setParameters h p)

theorem offered_of_openAt {path : String} {present : Bool}
    (h : openAt path p present = .ok port) : port.settings.Offered := by
  rw [openAt_eq] at h
  cases htext : refusal? p with
  | some text =>
    rw [htext] at h
    cases h
  | none =>
    rw [htext] at h
    cases present with
    | true =>
      cases h
      exact refusal?_eq_none_iff.mp htext
    | false => cases h

/-! ## One call -/

theorem setParameters_refused_iff (hopen : port.closed = false) {text : String} :
    (port.setParameters p).1 = .error (.invalidParameters text) ↔ refusal? p = some text := by
  rw [setParameters_eq hopen]
  cases refusal? p <;> simp

theorem openAt_refused_iff {path text : String} {present : Bool} :
    openAt path p present = .error (.invalidParameters text) ↔ refusal? p = some text := by
  rw [openAt_eq]
  cases refusal? p with
  | some text' => simp
  | none => cases present <;> simp

/-- What an open port makes of line parameters. Those that the platform has are its settings from
then on. Any others are refused, with the text that opening a port with them is refused with,
whether there is a port or not; but the speed and the data bits are set by then, and so are the
stop bits if it is the parity that is refused. So a refused call leaves the settings as they were
just where it asks for the speed and the data bits, and perhaps the stop bits, that are set anyway.
The framing of a port stays one that the platform has, however often it is set. -/
theorem a_refused_framing_is_set_in_part (hopen : port.closed = false) (p : LineParameters) :
    ((∃ text, (port.setParameters p).1 = .error (.invalidParameters text)) ↔ ¬ p.Offered) ∧
    (p.Offered → port.setParameters p = (.ok (), { port with settings := p })) ∧
    (¬ p.Offered → (port.setParameters p).2 = { port with settings := halfSet port.settings p }) ∧
    (¬ p.Offered → ((port.setParameters p).2.settings = port.settings ↔
      p.baudRate = port.settings.baudRate ∧ p.dataBits = port.settings.dataBits ∧
        (p.stopBits = .onePointFive ∨ p.stopBits = port.settings.stopBits))) ∧
    (∀ path present text, (port.setParameters p).1 = .error (.invalidParameters text) ↔
      openAt path p present = .error (.invalidParameters text)) ∧
    (∀ path asked present calls, openAt path asked present = .ok port →
      (port.setAll calls).settings.Offered) := by
  refine ⟨?_, fun hoffered => ?_, fun hno => ?_, fun hno => ?_, fun path present text => ?_,
    fun path asked present calls h => offered_setAll (offered_of_openAt h) calls⟩
  · simp only [setParameters_refused_iff hopen, exists_refusal_iff]
  · rw [setParameters_eq hopen, refusal?_eq_none_iff.mpr hoffered]
  · obtain ⟨text, htext⟩ := exists_refusal_iff.mpr hno
    rw [setParameters_eq hopen, htext]
  · obtain ⟨text, htext⟩ := exists_refusal_iff.mpr hno
    rw [setParameters_eq hopen, htext]
    exact halfSet_eq_iff
  · rw [setParameters_refused_iff hopen, openAt_refused_iff]

/-- A port that is opened at 9600 and then asked for seven data bits with mark parity at 115200. -/
theorem a_mark_parity_is_refused :
    let port : NativePort := { path := "/dev/ttyUSB0", settings := .eightNOne 9600 }
    let asked : LineParameters := ⟨115200, .seven, .two, .mark⟩
    port.closed = false ∧ ¬ asked.Offered ∧
      openAt "/dev/ttyUSB0" (.eightNOne 9600) true = .ok port ∧
      openAt "/dev/ttyUSB0" asked true = .error (.invalidParameters "Mark parity") ∧
      (port.setParameters asked).1 = .error (.invalidParameters "Mark parity") ∧
      (port.setParameters asked).2 = { port with settings := ⟨115200, .seven, .two, .none⟩ } ∧
      (port.setAll [asked, asked]).settings.Offered := by
  intro port asked
  have hno : ¬ asked.Offered := by decide
  have hrefused : openAt "/dev/ttyUSB0" asked true = .error (.invalidParameters "Mark parity") := rfl
  obtain ⟨-, -, hset, -, halike, hkept⟩ := @a_refused_framing_is_set_in_part port rfl asked
  exact ⟨rfl, hno, rfl, hrefused, (halike _ true _).mpr hrefused, hset hno,
    hkept _ (.eightNOne 9600) true [asked, asked] rfl⟩

/-- A refused call need not leave the settings as they were. -/
theorem a_refused_call_may_change_the_speed :
    ¬ ∀ (port : NativePort) (p : LineParameters), port.closed = false →
      (∃ text, (port.setParameters p).1 = .error (.invalidParameters text)) →
        (port.setParameters p).2.settings = port.settings := by
  intro h
  let port : NativePort := { path := "/dev/ttyUSB0", settings := .eightNOne 9600 }
  have hsame := h port ⟨115200, .seven, .two, .mark⟩ rfl ⟨"Mark parity", rfl⟩
  exact absurd (congrArg LineParameters.baudRate hsame) (by decide)

end NativePort

end SerialLink
