import Usim.Lib.Runs
import Usim.Sdl3Mouse

/-!
# The mouse of the C# port

The classes `Mouse` and `Iob` beside `sdl3-mouse.c` and `iob.c`, under the same events. The
symbols of the microcode are loaded and the IOB and the microcode are wired. The counts, the
last position and the events for the window are left out.
-/

namespace Usim

/-- The flags of `MouseButtons`. -/
def MouseButton.flag : MouseButton → Word
  | .left => 1
  | .middle => 2
  | .right => 4

/-- The bit of the flag of a button. -/
def MouseButton.index : MouseButton → ℕ
  | .left => 0
  | .middle => 1
  | .right => 2

/-- A flag is set. -/
theorem MouseButton.and_flag_ne_zero (w : Word) (b : MouseButton) :
    w &&& b.flag ≠ 0 ↔ w.getLsbD b.index = true := by
  have hflag : b.flag = BitVec.twoPow 32 b.index := by cases b <;> rfl
  have hlt : b.index < 32 := by cases b <;> decide
  rw [hflag, Lib.and_twoPow_ne_zero w hlt]

/-- The bit of a button in the register at 0764104. -/
def MouseButton.bit : MouseButton → ℕ
  | .left => 12
  | .middle => 13
  | .right => 14

/-- The class `Iob`, with the interrupts of `UCode`. -/
structure SharpIob where
  /-- `_csr`. -/
  csr : Word
  /-- `_scancode`. -/
  scancode : Word
  /-- `_mouseX`. -/
  mouseX : Word
  /-- `_mouseY`. -/
  mouseY : Word
  /-- `InterruptStatusReg` and `InterruptPendingFlag` of `_ucode`. -/
  ucode : Interrupts

namespace SharpIob

/-- `UCode.AssertUnibusInterrupt`, with `SetInterruptStatusReg`. -/
def assertUnibusInterrupt (vector : Word) (i : Interrupts) : Interrupts :=
  if i.statusReg &&& 0x400 ≠ 0 then
    let newValue := (i.statusReg &&& ~~~0x3FC) ||| 0x8000 ||| (vector &&& 0x3FC)
    ⟨newValue, decide (newValue &&& 0xC000 ≠ 0)⟩
  else i

/-- `SetKeyboardReady`. -/
def setKeyboardReady (scancode : Word) (i : SharpIob) : SharpIob :=
  let csr := i.csr ||| ((1 : Word) <<< 5)
  { i with
    scancode := scancode
    csr := csr
    ucode := if csr &&& 0x4 ≠ 0 then assertUnibusInterrupt 0xB0 i.ucode else i.ucode }

/-- `SetMouseReady`. -/
def setMouseReady (x y : Word) (tailPressed middlePressed headPressed : Bool) (i : SharpIob) :
    SharpIob :=
  let csr := i.csr ||| ((1 : Word) <<< 4)
  { i with
    mouseX := x &&& 0x7777
    mouseY := ((if tailPressed then 1 else 0 : Word) <<< 12) |||
      ((if middlePressed then 1 else 0 : Word) <<< 13) |||
      ((if headPressed then 1 else 0 : Word) <<< 14) ||| (y &&& 0x7777)
    csr := csr
    ucode := if csr &&& 0x2 ≠ 0 then assertUnibusInterrupt 0xB4 i.ucode else i.ucode }

/-- `Read` and `Write` of the keyboard registers and the CSR. -/
def answer (i : SharpIob) : ProcessorAccess → Option HalfWord × SharpIob
  | .readLow =>
    (some ((i.scancode &&& 0xFFFF).setWidth 16), { i with csr := i.csr &&& ~~~((1 : Word) <<< 5) })
  | .readHigh => (some (((i.scancode >>> 16) &&& 0xFFFF).setWidth 16), i)
  | .readCsr => (some (i.csr.setWidth 16), i)
  | .writeCsr v => (none, { i with csr := (i.csr &&& ~~~0xF) ||| (v.setWidth 32 &&& 0xF) })

/-- `Read` of the mouse register y. -/
def readMouseY (i : SharpIob) : HalfWord × SharpIob :=
  (i.mouseY.setWidth 16, { i with csr := i.csr &&& ~~~((1 : Word) <<< 4) })

end SharpIob

/-- The class `Mouse`, with the A memory of `_ucode` and `_iob`. -/
structure SharpMouse where
  /-- `X`. -/
  x : ℤ
  /-- `Y`. -/
  y : ℤ
  buttons : Word
  maxX : ℤ
  maxY : ℤ
  /-- `_prevCursorState`. -/
  prevCursorState : Word
  amem : Fin 1024 → Word
  iob : SharpIob
  /-- The calls of `OnWarp`. -/
  warps : List (Word × Word)

/-- `DtpFix`. -/
def SharpMouse.dtpFix (x : ℤ) : Word :=
  (BitVec.ofInt 32 x &&& (((1 : Word) <<< 24) - 1)) ||| ((5 : Word) <<< 25)

namespace SharpMouse

variable (sym : MouseSymbols)

/-- `WarpIfNeeded`. -/
def warpIfNeeded (m : SharpMouse) : SharpMouse :=
  let state := m.amem sym.aMouseCursorState &&& (((1 : Word) <<< 24) - 1)
  { m with
    warps :=
      if state ≠ m.prevCursorState ∧ state = 3 then
        m.warps ++ [(m.amem sym.aMouseX &&& (((1 : Word) <<< 24) - 1),
          m.amem sym.aMouseY &&& (((1 : Word) <<< 24) - 1))]
      else m.warps
    prevCursorState := state }

/-- `InjectPosition`. -/
def injectPosition (m : SharpMouse) : SharpMouse :=
  let amem := Function.update m.amem sym.aMouseX (dtpFix m.x)
  let amem := Function.update amem sym.aMouseY (dtpFix m.y)
  { m with amem := Function.update amem sym.aMouseWakeup (amem sym.aVTrue) }

/-- `ReportToIob`. -/
def reportToIob (m : SharpMouse) : SharpMouse :=
  let m := (m.warpIfNeeded sym).injectPosition sym
  { m with
    iob := m.iob.setMouseReady 0 0 (m.buttons &&& MouseButton.left.flag ≠ 0)
      (m.buttons &&& MouseButton.middle.flag ≠ 0) (m.buttons &&& MouseButton.right.flag ≠ 0) }

/-- `MoveTo`. -/
def moveTo (x y : ℤ) (m : SharpMouse) : SharpMouse :=
  { m with x := max 0 (min x (m.maxX - 1)), y := max 0 (min y (m.maxY - 1)) }.reportToIob sym

/-- The flag of a button, `MouseButtons.None` for a button that the guest does not have. -/
def flagOf : Option MouseButton → Word
  | some button => button.flag
  | none => 0

/-- `SetButton`. -/
def setButton (button : Option MouseButton) (pressed : Bool) (m : SharpMouse) : SharpMouse :=
  { m with
    buttons := if pressed then m.buttons ||| flagOf button
      else m.buttons &&& ~~~flagOf button }.reportToIob sym

/-- One event, with the value that the processor reads. -/
def step (m : SharpMouse) : MouseEvent → Option HalfWord × SharpMouse
  | .motion x y => (none, m.moveTo sym x y)
  | .buttonDown button => (none, m.setButton sym button true)
  | .buttonUp button => (none, m.setButton sym button false)
  | .key scancode => (none, { m with iob := m.iob.setKeyboardReady scancode })
  | .keyboard a =>
    let (v, iob) := m.iob.answer a
    (v, { m with iob := iob })
  | .readMouseY =>
    let (v, iob) := m.iob.readMouseY
    (some v, { m with iob := iob })
  | .readMouseX => (some (m.iob.mouseX.setWidth 16), m)
  | .writeAmem a v => (none, { m with amem := Function.update m.amem a v })

/-- The mouse in the middle of the screen, with any A memory and interrupts. -/
def start (maxX maxY : ℤ) (amem : Fin 1024 → Word) (interrupts : Interrupts) : SharpMouse where
  x := maxX / 2
  y := maxY / 2
  buttons := 0
  maxX := maxX
  maxY := maxY
  prevCursorState := 0
  amem := amem
  iob := ⟨0, 0, 0, 0, interrupts⟩
  warps := []

end SharpMouse

/-! ### The same events -/

/-- The C program and the port under the same events. -/
structure MousePort where
  mouse : Sdl3Mouse
  sharp : SharpMouse
  /-- The buttons that are down. -/
  held : MouseButton → Bool
  /-- What the processor has read from the C program. -/
  value : Option HalfWord
  /-- What it has read from the port. -/
  sharpValue : Option HalfWord

/-- The buttons that are down after an event. -/
def MouseEvent.hold (held : MouseButton → Bool) : MouseEvent → MouseButton → Bool
  | .buttonDown (some button) => Function.update held button true
  | .buttonUp (some button) => Function.update held button false
  | _ => held

/-- A motion inside the screen, and a code that does not boot. -/
def MouseEvent.Plain (maxX maxY : ℤ) : MouseEvent → Prop
  | .motion x y => 0 ≤ x ∧ x < maxX ∧ 0 ≤ y ∧ y < maxY
  | .key scancode => scancode ≠ coldBootScancode ∧ scancode ≠ warmBootScancode
  | _ => True

/-- A button that the guest has goes down or up. -/
def MouseEvent.MovesButton : MouseEvent → Prop
  | .buttonDown button => button ≠ none
  | .buttonUp button => button ≠ none
  | _ => False

namespace MousePort

variable (sym : MouseSymbols)

/-- One event. -/
def next (s : MousePort) (e : MouseEvent) : MousePort :=
  let (value, mouse) := s.mouse.step sym e
  let (sharpValue, sharp) := s.sharp.step sym e
  ⟨mouse, sharp, e.hold s.held, value, sharpValue⟩

/-- One event, as a step of a run. -/
def step (e : MouseEvent) (s : MousePort) : Except Empty MousePort := .ok (s.next sym e)

/-- Both programs start with the same A memory and interrupts. -/
def start (maxX maxY : ℤ) (amem : Fin 1024 → Word) (interrupts : Interrupts) : MousePort :=
  ⟨.start amem interrupts, .start maxX maxY amem interrupts, fun _ => false, none, none⟩

/-- The values read, A memory, the CSR and the interrupts are the same, and in both programs
the bit of a button is 1 exactly while the button is down. -/
structure Faithful (s : MousePort) : Prop where
  value : s.value = s.sharpValue
  amem : s.sharp.amem = s.mouse.amem
  csr : s.sharp.iob.csr = s.mouse.iob.keyboard.csr
  interrupts : s.sharp.iob.ucode = s.mouse.iob.keyboard.interrupts
  bit : ∀ b : MouseButton, s.mouse.iob.mouseY.getLsbD b.bit = s.held b
  sharpBit : ∀ b : MouseButton, s.sharp.iob.mouseY.getLsbD b.bit = s.held b

end MousePort

/-! ### What is the same in every run -/

/-- Everything but the buttons is the same. -/
structure SameMouse (m : Sdl3Mouse) (t : SharpMouse) : Prop where
  x : t.x = m.mouseX
  y : t.y = m.mouseY
  prevstate : t.prevCursorState = m.prevstate
  amem : t.amem = m.amem
  warps : t.warps = m.warps
  csr : t.iob.csr = m.iob.keyboard.csr
  scancode : t.iob.scancode = m.iob.keyboard.scancode
  interrupts : t.iob.ucode = m.iob.keyboard.interrupts
  mouseX : t.iob.mouseX.setWidth 16 = m.iob.mouseX

namespace SameMouse

variable {sym : MouseSymbols} {m : Sdl3Mouse} {t : SharpMouse}

/-- An interrupt of the port. -/
theorem assertUnibusInterrupt_eq (v : Word) (i : Interrupts) :
    SharpIob.assertUnibusInterrupt v i = assertUnibusInterrupt v i := rfl

/-- An enable bit is not changed by the ready bits. -/
theorem enabled_iff (csr : Word) :
    ((csr ||| ((1 : Word) <<< 5)) &&& 0x4 ≠ 0 ↔ csr.getLsbD 2 = true) ∧
      ((csr ||| ((1 : Word) <<< 4)) &&& 0x2 ≠ 0 ↔ csr.getLsbD 1 = true) := by
  constructor
  · change _ &&& BitVec.twoPow 32 2 ≠ 0 ↔ _
    rw [Lib.and_twoPow_ne_zero _ (by decide)]
    simp
  · change _ &&& BitVec.twoPow 32 1 ≠ 0 ↔ _
    rw [Lib.and_twoPow_ne_zero _ (by decide)]
    simp

/-- The half of a word that a register holds. -/
theorem setWidth_and_half (w : Word) : (w &&& 0xFFFF).setWidth 16 = w.setWidth 16 :=
  Lib.setWidth_and_lowBits w 0xFFFF rfl (by decide)

/-- Both programs report the mouse. -/
theorem report (h : SameMouse m t) : SameMouse (m.setMouseReady sym) (t.reportToIob sym) := by
  obtain ⟨hx, hy, hprev, hamem, hwarps, hcsr, hscancode, hinterrupts, hmouseX⟩ := h
  constructor
  case x => exact hx
  case y => exact hy
  case prevstate =>
    change t.amem sym.aMouseCursorState &&& _ = _
    rw [hamem]
    rfl
  case amem =>
    simp only [SharpMouse.reportToIob, SharpMouse.injectPosition, SharpMouse.warpIfNeeded, hamem,
      hx, hy]
    rfl
  case warps =>
    change (if t.amem sym.aMouseCursorState &&& _ ≠ t.prevCursorState ∧ _ then _ else _) = _
    rw [hamem, hprev, hwarps]
    rfl
  case csr =>
    change t.iob.csr ||| _ = _
    rw [hcsr]
    rfl
  case scancode => exact hscancode
  case interrupts =>
    change (if (t.iob.csr ||| ((1 : Word) <<< 4)) &&& 0x2 ≠ 0 then
      SharpIob.assertUnibusInterrupt 0xB4 t.iob.ucode else t.iob.ucode) = _
    rw [hcsr, hinterrupts, assertUnibusInterrupt_eq]
    simp only [(enabled_iff _).2]
    rfl
  case mouseX =>
    change ((0 : Word) &&& 0x7777).setWidth 16 =
      ((0 : Word) <<< 12 ||| (0 : Word) <<< 14 ||| (0 &&& 0x7777)).setWidth 16
    decide

/-- A code that does not boot. -/
theorem key (h : SameMouse m t) {scancode : Word} (hcold : scancode ≠ coldBootScancode)
    (hwarm : scancode ≠ warmBootScancode) :
    SameMouse { m with iob.keyboard := m.iob.keyboard.setKeyboardReady scancode }
      { t with iob := t.iob.setKeyboardReady scancode } := by
  have hpresent : m.iob.keyboard.setKeyboardReady scancode = m.iob.keyboard.present scancode :=
    if_neg (not_or.mpr ⟨hcold, hwarm⟩)
  rw [hpresent]
  refine { h with csr := ?_, scancode := rfl, interrupts := ?_ }
  · change t.iob.csr ||| _ = _
    rw [h.csr]
    rfl
  · change (if (t.iob.csr ||| ((1 : Word) <<< 5)) &&& 0x4 ≠ 0 then _ else t.iob.ucode) = _
    rw [h.csr, h.interrupts, assertUnibusInterrupt_eq]
    simp only [(enabled_iff _).1]
    rfl

/-- The processor accesses a keyboard register or the CSR. -/
theorem answer (h : SameMouse m t) (a : ProcessorAccess) :
    (t.iob.answer a).1 = (m.iob.keyboard.answer a).1 ∧
      SameMouse { m with iob.keyboard := (m.iob.keyboard.answer a).2 }
        { t with iob := (t.iob.answer a).2 } := by
  cases a with
  | readLow =>
    refine ⟨?_, { h with csr := ?_ }⟩
    · change some ((t.iob.scancode &&& 0xFFFF).setWidth 16) = _
      rw [h.scancode, setWidth_and_half]
      rfl
    · change t.iob.csr &&& _ = _
      rw [h.csr]
      rfl
  | readHigh =>
    refine ⟨?_, { h with }⟩
    change some (((t.iob.scancode >>> 16) &&& 0xFFFF).setWidth 16) = _
    rw [h.scancode, setWidth_and_half]
    rfl
  | readCsr =>
    refine ⟨?_, { h with }⟩
    change some (t.iob.csr.setWidth 16) = _
    rw [h.csr]
    rfl
  | writeCsr v =>
    refine ⟨rfl, { h with csr := ?_ }⟩
    change (t.iob.csr &&& _) ||| _ = _
    rw [h.csr]
    rfl

end SameMouse

/-- The level of a button in `sdl3-mouse.c`. -/
def Sdl3Mouse.level (m : Sdl3Mouse) : MouseButton → Word
  | .left => m.mouseTail
  | .middle => m.mouseMiddle
  | .right => m.mouseHead

namespace MousePort

open Lib

variable {sym : MouseSymbols} {s : MousePort}

/-- Levels in the register at 0764104, with the position 0. -/
def packedLevels (level : MouseButton → Word) : Word :=
  (level .left <<< 12) ||| (level .middle <<< 13) ||| (level .right <<< 14) ||| (0 &&& 0x7777)

/-- What is known after a motion: everything but the buttons is the same, the port has the
buttons that are down, and the C program has levels that are 0 for these. -/
structure Ported (maxX maxY : ℤ) (s : MousePort) : Prop where
  same : SameMouse s.mouse s.sharp
  maxX : s.sharp.maxX = maxX
  maxY : s.sharp.maxY = maxY
  buttons : ∀ b : MouseButton, s.sharp.buttons.getLsbD b.index = s.held b
  sharpMouseY : s.sharp.iob.mouseY = packedLevels fun b => if s.held b then 1 else 0
  level : ∀ b : MouseButton, s.mouse.level b = 0 ∨ s.mouse.level b = 1 ∧ s.held b = false
  mouseY : s.mouse.iob.mouseY = (packedLevels s.mouse.level).setWidth 16

/-- The bits of levels. -/
theorem getLsbD_packedLevels {f : MouseButton → Word} (h : ∀ b, f b = 0 ∨ f b = 1)
    (b : MouseButton) : (packedLevels f).getLsbD b.bit = decide (f b = 1) ∧
      ((packedLevels f).setWidth 16).getLsbD b.bit = decide (f b = 1) := by
  have hleft := h .left
  have hmiddle := h .middle
  have hright := h .right
  unfold packedLevels
  rcases hleft with hl | hl <;> rcases hmiddle with hm | hm <;> rcases hright with hr | hr <;>
    rw [hl, hm, hr] <;> cases b <;> simp only [hl, hm, hr] <;> decide

/-- The bits of the port. -/
theorem Ported.sharpBit {maxX maxY : ℤ} (h : Ported maxX maxY s) (b : MouseButton) :
    s.sharp.iob.mouseY.getLsbD b.bit = s.held b := by
  have hlevels : ∀ b, (if s.held b then (1 : Word) else 0) = 0 ∨
      (if s.held b then (1 : Word) else 0) = 1 := by
    intro b
    cases s.held b
    exacts [.inl rfl, .inr rfl]
  rw [h.sharpMouseY, (getLsbD_packedLevels hlevels b).1]
  cases s.held b <;> rfl

/-- The bits of the C program. -/
theorem Ported.bit {maxX maxY : ℤ} (h : Ported maxX maxY s) (b : MouseButton) :
    s.mouse.iob.mouseY.getLsbD b.bit = decide (s.mouse.level b = 1) := by
  rw [h.mouseY]
  exact (getLsbD_packedLevels (fun b => (h.level b).imp_right And.left) b).2

/-- What a report sends of the buttons. -/
theorem mouseY_reportToIob (t : SharpMouse) (held : MouseButton → Bool)
    (h : ∀ b : MouseButton, t.buttons.getLsbD b.index = held b) :
    (t.reportToIob sym).iob.mouseY = packedLevels fun b => if held b then 1 else 0 := by
  have hflag : ∀ b : MouseButton, decide (t.buttons &&& b.flag ≠ 0) = held b := by
    intro b
    rw [Bool.eq_iff_iff, decide_eq_true_iff, b.and_flag_ne_zero, h b]
  change
    ((if decide (t.buttons &&& MouseButton.left.flag ≠ 0) = true then 1 else 0 : Word) <<< 12) |||
    ((if decide (t.buttons &&& MouseButton.middle.flag ≠ 0) = true then 1 else 0 : Word) <<< 13) |||
    ((if decide (t.buttons &&& MouseButton.right.flag ≠ 0) = true then 1 else 0 : Word) <<< 14) |||
    (0 &&& 0x7777) = _
  rw [hflag, hflag, hflag]
  rfl

/-- What a report of the C program sends of the buttons. -/
theorem mouseY_setMouseReady (m : Sdl3Mouse) :
    (m.setMouseReady sym).iob.mouseY = (packedLevels m.level).setWidth 16 := rfl

variable {maxX maxY : ℤ}

/-- A motion inside the screen gives both programs its position. -/
theorem same_motion {m : Sdl3Mouse} {t : SharpMouse} {x y : ℤ} (hx : 0 ≤ x ∧ x < t.maxX)
    (hy : 0 ≤ y ∧ y < t.maxY) (hprev : t.prevCursorState = m.prevstate) (hamem : t.amem = m.amem)
    (hwarps : t.warps = m.warps) (hcsr : t.iob.csr = m.iob.keyboard.csr)
    (hscancode : t.iob.scancode = m.iob.keyboard.scancode)
    (hinterrupts : t.iob.ucode = m.iob.keyboard.interrupts)
    (hmouseX : t.iob.mouseX.setWidth 16 = m.iob.mouseX) :
    SameMouse (m.motion sym x y) (t.moveTo sym x y) := by
  have hclampX : max 0 (min x (t.maxX - 1)) = x := by omega
  have hclampY : max 0 (min y (t.maxY - 1)) = y := by omega
  unfold SharpMouse.moveTo
  rw [hclampX, hclampY]
  exact SameMouse.report ⟨rfl, rfl, hprev, hamem, hwarps, hcsr, hscancode, hinterrupts, hmouseX⟩

/-- Everything but the buttons stays the same. -/
theorem Ported.same_next (h : Ported maxX maxY s) {e : MouseEvent} (he : e.Plain maxX maxY) :
    SameMouse (s.next sym e).mouse (s.next sym e).sharp := by
  have hs := h.same
  cases e with
  | motion x y =>
    obtain ⟨hx0, hx, hy0, hy⟩ := he
    exact same_motion ⟨hx0, h.maxX ▸ hx⟩ ⟨hy0, h.maxY ▸ hy⟩ hs.prevstate hs.amem hs.warps hs.csr
      hs.scancode hs.interrupts hs.mouseX
  | buttonDown button | buttonUp button =>
    refine SameMouse.report ?_
    cases button with
    | none => exact { hs with }
    | some b => cases b <;> exact { hs with }
  | key scancode => exact hs.key he.1 he.2
  | keyboard a => exact (hs.answer a).2
  | readMouseY =>
    refine { hs with csr := ?_ }
    change s.sharp.iob.csr &&& _ = _
    rw [hs.csr]
    rfl
  | readMouseX => exact hs
  | writeAmem a v =>
    refine { hs with amem := ?_ }
    change Function.update s.sharp.amem a v = _
    rw [hs.amem]
    rfl

/-- A report leaves the levels. -/
theorem level_setMouseReady (m : Sdl3Mouse) (b : MouseButton) :
    (m.setMouseReady sym).level b = m.level b := by
  cases b <;> rfl

/-- The buttons after a report. -/
theorem ported_report {m : Sdl3Mouse} {t : SharpMouse} {held : MouseButton → Bool}
    {value sharpValue : Option HalfWord}
    (hsame : SameMouse (m.setMouseReady sym) (t.reportToIob sym))
    (hx : t.maxX = maxX) (hy : t.maxY = maxY)
    (hbuttons : ∀ b : MouseButton, t.buttons.getLsbD b.index = held b)
    (hlevel : ∀ b : MouseButton, m.level b = 0 ∨ m.level b = 1 ∧ held b = false) :
    Ported maxX maxY ⟨m.setMouseReady sym, t.reportToIob sym, held, value, sharpValue⟩ where
  same := hsame
  maxX := hx
  maxY := hy
  buttons := hbuttons
  sharpMouseY := mouseY_reportToIob t held hbuttons
  level := fun b => by
    change (m.setMouseReady sym).level b = 0 ∨ (m.setMouseReady sym).level b = 1 ∧ held b = false
    rw [level_setMouseReady]
    exact hlevel b
  mouseY := mouseY_setMouseReady m

/-- The flags and the levels after a button has gone down or up. -/
theorem Ported.setLevel (h : Ported maxX maxY s) (b : MouseButton) (pressed : Bool) :
    (∀ b', (if pressed then s.sharp.buttons ||| b.flag
        else s.sharp.buttons &&& ~~~b.flag).getLsbD b'.index =
          Function.update s.held b pressed b') ∧
      ∀ b', (s.mouse.setLevel (some b) (if pressed then 0 else 1)).level b' = 0 ∨
        (s.mouse.setLevel (some b) (if pressed then 0 else 1)).level b' = 1 ∧
          Function.update s.held b pressed b' = false := by
  constructor
  · intro b'
    have hbit : b.flag.getLsbD b'.index = decide (b' = b) := by cases b <;> cases b' <;> rfl
    have hlt : b'.index < 32 := by cases b' <;> decide
    have hflag : (if pressed then s.sharp.buttons ||| b.flag
        else s.sharp.buttons &&& ~~~b.flag).getLsbD b'.index =
        if b' = b then pressed else s.sharp.buttons.getLsbD b'.index := by
      cases pressed with
      | true =>
        rw [if_pos rfl, BitVec.getLsbD_or, hbit]
        by_cases hb : b' = b <;> simp only [hb, decide_true, decide_false, Bool.or_true,
          Bool.or_false, if_true, if_false]
      | false =>
        rw [if_neg Bool.false_ne_true, BitVec.getLsbD_and, BitVec.getLsbD_not, hbit]
        by_cases hb : b' = b <;> simp only [hb, hlt, decide_true, decide_false, Bool.not_true,
          Bool.not_false, Bool.and_false, Bool.and_true, if_true, if_false]
    rw [hflag, h.buttons, Function.update_apply]
  · intro b'
    by_cases hb : b' = b
    · subst hb
      rw [Function.update_self]
      cases pressed
      · exact .inr ⟨by cases b' <;> rfl, rfl⟩
      · exact .inl (by cases b' <;> rfl)
    · have hother : (s.mouse.setLevel (some b) (if pressed then 0 else 1)).level b' =
          s.mouse.level b' := by
        cases b <;> cases b' <;> first | rfl | exact absurd rfl hb
      rw [hother, Function.update_of_ne hb]
      exact h.level b'

/-- The correspondence is kept by every event. -/
theorem Ported.next (h : Ported maxX maxY s) {e : MouseEvent} (he : e.Plain maxX maxY) :
    Ported maxX maxY (s.next sym e) := by
  have hsame : SameMouse (s.next sym e).mouse (s.next sym e).sharp := h.same_next he
  cases e with
  | motion x y =>
    refine ported_report hsame h.maxX h.maxY h.buttons fun b => ?_
    cases b
    exacts [h.level .left, h.level .middle, h.level .right]
  | buttonDown button =>
    cases button with
    | none =>
      refine ported_report hsame h.maxX h.maxY (fun b => ?_) h.level
      change (s.sharp.buttons ||| 0#32).getLsbD b.index = s.held b
      rw [BitVec.or_zero, h.buttons]
    | some b => exact ported_report hsame h.maxX h.maxY (h.setLevel b true).1 (h.setLevel b true).2
  | buttonUp button =>
    cases button with
    | none =>
      refine ported_report hsame h.maxX h.maxY (fun b => ?_) h.level
      change (s.sharp.buttons &&& ~~~0).getLsbD b.index = s.held b
      have hones : ~~~(0 : Word) = BitVec.allOnes 32 := by decide
      rw [hones, BitVec.and_allOnes, h.buttons]
    | some b =>
      exact ported_report hsame h.maxX h.maxY (h.setLevel b false).1 (h.setLevel b false).2
  | key scancode => exact { h with same := hsame }
  | keyboard a => cases a <;> exact { h with same := hsame }
  | readMouseY => exact { h with same := hsame }
  | readMouseX => exact { h with }
  | writeAmem a v => exact { h with same := hsame }

/-- No button has been moved: all levels are 0, and the values read are the same. -/
structure Quiet (maxX maxY : ℤ) (s : MousePort) : Prop where
  ported : Ported maxX maxY s
  held : ∀ b, s.held b = false
  level : ∀ b : MouseButton, s.mouse.level b = 0
  value : s.value = s.sharpValue

/-- The registers of the buttons are the same. -/
theorem Quiet.mouseY (h : Quiet maxX maxY s) :
    s.mouse.iob.mouseY = s.sharp.iob.mouseY.setWidth 16 := by
  have hlevel : s.mouse.level = fun _ => 0 := funext h.level
  have hheld : s.held = fun _ => false := funext h.held
  rw [h.ported.mouseY, h.ported.sharpMouseY, hlevel, hheld]
  rfl

/-- Nothing is wrong while no button is moved. -/
theorem Quiet.faithful (h : Quiet maxX maxY s) : s.Faithful where
  value := h.value
  amem := h.ported.same.amem
  csr := h.ported.same.csr
  interrupts := h.ported.same.interrupts
  bit := fun b => by
    rw [h.ported.bit, h.level, h.held]
    rfl
  sharpBit := h.ported.sharpBit

/-- An event that moves no button. -/
theorem Quiet.next (h : Quiet maxX maxY s) {e : MouseEvent} (he : e.Plain maxX maxY)
    (hmoves : ¬e.MovesButton) : Quiet maxX maxY (s.next sym e) := by
  have hported : Ported maxX maxY (s.next sym e) := h.ported.next he
  have hlevel : ∀ b, (s.next sym e).mouse.level b = s.mouse.level b := by
    intro b
    cases e with
    | buttonDown button | buttonUp button =>
      obtain rfl := not_not.mp hmoves
      cases b <;> rfl
    | motion | key | keyboard | readMouseY | readMouseX | writeAmem => cases b <;> rfl
  have hheld : (s.next sym e).held = s.held := by
    cases e with
    | buttonDown button | buttonUp button =>
      obtain rfl := not_not.mp hmoves
      rfl
    | motion | key | keyboard | readMouseY | readMouseX | writeAmem => rfl
  have hvalue : (s.next sym e).value = (s.next sym e).sharpValue := by
    cases e with
    | keyboard a => exact (h.ported.same.answer a).1.symm
    | readMouseY => exact congrArg some h.mouseY
    | readMouseX => exact congrArg some h.ported.same.mouseX.symm
    | motion | buttonDown | buttonUp | key | writeAmem => rfl
  exact ⟨hported, fun b => hheld ▸ h.held b, fun b => (hlevel b).trans (h.level b), hvalue⟩

/-- A button that is moved has the wrong bit in the C program. -/
theorem not_movesButton_of_faithful (h : Ported maxX maxY s) {e : MouseEvent}
    (he : e.Plain maxX maxY) (hnext : (s.next sym e).Faithful) : ¬e.MovesButton := by
  have hported : Ported maxX maxY (s.next sym e) := h.next he
  have hbit := fun b => (hported.bit b).symm.trans (hnext.bit b)
  cases e with
  | buttonDown button =>
    intro hmoves
    obtain ⟨b, rfl⟩ := Option.ne_none_iff_exists'.mp hmoves
    have hheld : (s.next sym (.buttonDown (some b))).held b = true := Function.update_self _ _ _
    have hlevel : (s.next sym (.buttonDown (some b))).mouse.level b = 0 := by cases b <;> rfl
    have hwrong := hbit b
    rw [hheld, hlevel] at hwrong
    exact absurd hwrong (by decide)
  | buttonUp button =>
    intro hmoves
    obtain ⟨b, rfl⟩ := Option.ne_none_iff_exists'.mp hmoves
    have hheld : (s.next sym (.buttonUp (some b))).held b = false := Function.update_self _ _ _
    have hlevel : (s.next sym (.buttonUp (some b))).mouse.level b = 1 := by cases b <;> rfl
    have hwrong := hbit b
    rw [hheld, hlevel] at hwrong
    exact absurd hwrong (by decide)
  | motion | key | keyboard | readMouseY | readMouseX | writeAmem => exact id

/-- The first motion. -/
theorem quiet_motion {x y : ℤ} (he : (MouseEvent.motion x y).Plain maxX maxY)
    (amem : Fin 1024 → Word) (interrupts : Interrupts) :
    Quiet maxX maxY ((start maxX maxY amem interrupts).next sym (.motion x y)) := by
  obtain ⟨hx0, hx, hy0, hy⟩ := he
  have hsame : SameMouse ((Sdl3Mouse.start amem interrupts).motion sym x y)
      ((SharpMouse.start maxX maxY amem interrupts).moveTo sym x y) :=
    same_motion ⟨hx0, hx⟩ ⟨hy0, hy⟩ rfl rfl rfl rfl rfl rfl rfl
  refine ⟨ported_report hsame rfl rfl (fun b => ?_) fun b => .inl ?_, fun _ => rfl, fun b => ?_,
    rfl⟩
  · change (0 : Word).getLsbD b.index = false
    exact BitVec.getLsbD_zero
  · cases b <;> rfl
  · cases b <;> rfl

/-- In a run that begins with a motion, with motions inside the screen and codes that do not
boot, the C program and the port are the same and show the buttons that are down, if and only
if no button goes down or up. -/
theorem sdl3_iob_port {x y : ℤ} {es : List MouseEvent} (amem : Fin 1024 → Word)
    (interrupts : Interrupts) (hplain : ∀ e ∈ .motion x y :: es, e.Plain maxX maxY) :
    Always (step sym) Faithful (.motion x y :: es) (start maxX maxY amem interrupts) ↔
      ∀ e ∈ es, ¬e.MovesButton := by
  rw [List.forall_mem_cons] at hplain
  have hquiet := @quiet_motion sym maxX maxY x y hplain.1 amem interrupts
  have hrun : Always (step sym) Faithful es
      ((start maxX maxY amem interrupts).next sym (.motion x y)) ↔
      EveryStep (step sym) (fun e _ => ¬e.MovesButton) es
        ((start maxX maxY amem interrupts).next sym (.motion x y)) := by
    refine always_iff_everyStep_of_everyAttempt (E := fun e _ => e.Plain maxX maxY)
      (fun _ => Quiet.faithful) ?_ ?_ (everyAttempt_of_forall_mem hplain.2) hquiet
    · rintro e s _ he hs ⟨⟩ hmoves
      exact hs.next he hmoves
    · rintro e s _ he hs ⟨⟩ hnext
      exact not_movesButton_of_faithful hs.ported he hnext
  refine Iff.trans ?_ (hrun.trans (everyStep_iff_forall_mem fun e s => ⟨s.next sym e, rfl⟩))
  constructor
  · exact fun h => h.2 _ rfl
  · intro h
    refine ⟨⟨rfl, rfl, rfl, rfl, fun b => ?_, fun b => ?_⟩, ?_⟩
    · change (0 : HalfWord).getLsbD b.bit = false
      exact BitVec.getLsbD_zero
    · change (0 : Word).getLsbD b.bit = false
      exact BitVec.getLsbD_zero
    · rintro _ ⟨⟩
      exact h

/-- In every such run everything but the buttons is the same, the port shows exactly the
buttons that are down, and the C program never shows one of these. -/
theorem port_shows_buttons {x y : ℤ} {es : List MouseEvent} (amem : Fin 1024 → Word)
    (interrupts : Interrupts) (hplain : ∀ e ∈ .motion x y :: es, e.Plain maxX maxY) :
    Always (step sym) (fun s => SameMouse s.mouse s.sharp ∧ ∀ b : MouseButton,
      s.sharp.iob.mouseY.getLsbD b.bit = s.held b ∧
        (s.held b = true → s.mouse.iob.mouseY.getLsbD b.bit = false))
      es ((start maxX maxY amem interrupts).next sym (.motion x y)) := by
  rw [List.forall_mem_cons] at hplain
  have hported := (@quiet_motion sym maxX maxY x y hplain.1 amem interrupts).ported
  have hrun : Always (step sym) (Ported maxX maxY) es
      ((start maxX maxY amem interrupts).next sym (.motion x y)) := by
    refine always_of_everyAttempt ?_ (everyAttempt_of_forall_mem hplain.2) hported
    rintro e s _ he hs ⟨⟩
    exact hs.next he
  refine hrun.mono fun s hs => ⟨hs.same, fun b => ⟨hs.sharpBit b, fun hheld => ?_⟩⟩
  rw [hs.bit b]
  rcases hs.level b with hzero | ⟨-, hup⟩
  · rw [hzero]
    rfl
  · rw [hheld] at hup
    cases hup

/-- The microcode variables at the first five words of A memory. -/
def firstWords : MouseSymbols := ⟨0, 1, 2, 3, 4⟩

/-- The left button goes down. -/
theorem left_button_down_reads_zero :
    (∀ e ∈ [MouseEvent.motion 10 20, .buttonDown (some .left)], e.Plain 768 963) ∧
      ¬Always (step firstWords) Faithful [.motion 10 20, .buttonDown (some .left)]
        (start 768 963 (fun _ => 0) ⟨0, false⟩) := by
  constructor
  · simp [MouseEvent.Plain]
  · intro h
    have hdown := ((h.2 _ rfl).2 _ rfl).bit .left
    exact absurd hdown (by decide)

/-- The interrupts of the mouse are enabled and the mouse registers are read. -/
theorem sdl3_iob_port_motions :
    Always (step firstWords) Faithful
      [.motion 10 20, .keyboard (.writeCsr 0o6), .motion 11 20, .key 0o76200123, .readMouseY,
        .keyboard .readLow]
      (start 768 963 (fun _ => 0) ⟨0o2000, false⟩) := by
  refine (sdl3_iob_port _ _ ?_).mpr ?_
  · simp [MouseEvent.Plain]
    decide
  · simp [MouseEvent.MovesButton]

end MousePort

end Usim
