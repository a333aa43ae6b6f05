import Usim.UnibusInterrupts

/-!
# The SDL3 mouse

`sdl3-mouse.c` writes the position of the mouse into variables of the microcode in A memory
and reports the buttons to the IOB. The scale of the screen is 1.
-/

namespace Usim

/-- The buttons of the mouse: 1, 2 and 3 of SDL. -/
inductive MouseButton
  | left | middle | right
  deriving DecidableEq

/-- The addresses of the microcode variables, which `sdl3_mouse_init` looks up. -/
structure MouseSymbols where
  aMouseX : Fin 1024
  aMouseY : Fin 1024
  aMouseWakeup : Fin 1024
  aVTrue : Fin 1024
  aMouseCursorState : Fin 1024

/-- The keyboard and mouse registers of the IOB. -/
structure Sdl3Iob where
  /-- The keyboard registers, with `iob_csr` and the interrupts. -/
  keyboard : IobKeyboard
  /-- `iob_mouse_x`. -/
  mouseX : HalfWord
  /-- `iob_mouse_y`. -/
  mouseY : HalfWord

namespace Sdl3Iob

/-- `iob_set_mouse_ready`. The positions are masked with a hexadecimal 7777. -/
def setMouseReady (i : Sdl3Iob) (r : MouseReport) : Sdl3Iob :=
  { i with
    mouseX := ((r.mouseRawx <<< 12) ||| (r.mouseRawy <<< 14) ||| (r.mouseX &&& 0x7777)).setWidth 16
    mouseY := ((r.mouseTail <<< 12) ||| (r.mouseMiddle <<< 13) ||| (r.mouseHead <<< 14) |||
      (r.mouseY &&& 0x7777)).setWidth 16
    keyboard.csr := i.keyboard.csr ||| 0o20
    keyboard.interrupts :=
      if i.keyboard.csr.getLsbD 1 then assertUnibusInterrupt 0o264 i.keyboard.interrupts
      else i.keyboard.interrupts }

/-- `iob_unibus_read` of 0764104, which clears CSR<4>. -/
def readMouseY (i : Sdl3Iob) : HalfWord × Sdl3Iob :=
  (i.mouseY, { i with keyboard.csr := i.keyboard.csr &&& ~~~0o20 })

end Sdl3Iob

/-- The registers of the IOB among the devices that request Unibus interrupts. -/
def UnibusRequesters.iob {δ : Type} (s : UnibusRequesters δ) : Sdl3Iob :=
  ⟨{ s.keyboard with interrupts := s.interrupts }, s.mouseX, s.mouseY⟩

/-- A report of the mouse to the IOB. -/
theorem UnibusRequesters.iob_setMouseReady {δ : Type} (s : UnibusRequesters δ) (r : MouseReport) :
    (s.setMouseReady r).iob = s.iob.setMouseReady r := by
  have hcsr : (s.keyboard.csr ||| 0o20).getLsbD 1 = s.keyboard.csr.getLsbD 1 := by
    simp
  unfold setMouseReady Sdl3Iob.setMouseReady iob
  simp only [hcsr]
  split <;> rfl

/-- The processor reads or writes a keyboard register. -/
def IobKeyboard.answer (i : IobKeyboard) : ProcessorAccess → Option HalfWord × IobKeyboard
  | .readLow => (some i.readLow.1, i.readLow.2)
  | .readHigh => (some i.readHigh.1, i.readHigh.2)
  | .readCsr => (some i.readCsr.1, i.readCsr.2)
  | .writeCsr v => (none, i.writeCsr v)

/-- What happens to the mouse and the IOB. -/
inductive MouseEvent
  /-- The mouse moves. -/
  | motion (x y : ℤ)
  /-- A button goes down; none is a button that the guest does not have. -/
  | buttonDown (button : Option MouseButton)
  | buttonUp (button : Option MouseButton)
  /-- The keyboard delivers a code. -/
  | key (scancode : Word)
  | keyboard (a : ProcessorAccess)
  | readMouseY
  | readMouseX
  /-- The microcode writes a word of A memory. -/
  | writeAmem (a : Fin 1024) (v : Word)

/-- The variables of `sdl3-mouse.c`, A memory and the IOB. -/
structure Sdl3Mouse where
  mouseX : ℤ
  mouseY : ℤ
  mouseTail : Word
  mouseMiddle : Word
  mouseHead : Word
  /-- `prevstate`. -/
  prevstate : Word
  amem : Fin 1024 → Word
  iob : Sdl3Iob
  /-- The calls of `SDL_WarpMouseInWindow`. -/
  warps : List (Word × Word)

/-- `DTP_FIX_VAL`. -/
def dtpFixVal (x : Word) : Word := x &&& (((1 : Word) <<< 24) - 1)

/-- `DTP_FIX`. -/
def dtpFix (x : Word) : Word := dtpFixVal x ||| ((5 : Word) <<< 25)

namespace Sdl3Mouse

variable (sym : MouseSymbols)

/-- `sdl3_mouse_warp_if_needed`. The state 3 is `Son`. -/
def warpIfNeeded (m : Sdl3Mouse) : Sdl3Mouse :=
  let state := dtpFixVal (m.amem sym.aMouseCursorState)
  { m with
    warps :=
      if state ≠ m.prevstate ∧ state = 3 then
        m.warps ++ [(dtpFixVal (m.amem sym.aMouseX), dtpFixVal (m.amem sym.aMouseY))]
      else m.warps
    prevstate := state }

/-- `sdl3_mouse_set_mouse_ready`. -/
def setMouseReady (m : Sdl3Mouse) : Sdl3Mouse :=
  let m := m.warpIfNeeded sym
  let amem := Function.update m.amem sym.aMouseX (dtpFix (BitVec.ofInt 32 m.mouseX))
  let amem := Function.update amem sym.aMouseY (dtpFix (BitVec.ofInt 32 m.mouseY))
  let amem := Function.update amem sym.aMouseWakeup (amem sym.aVTrue)
  { m with
    amem := amem
    iob := m.iob.setMouseReady ⟨0, 0, 0, 0, m.mouseHead, m.mouseMiddle, m.mouseTail⟩ }

/-- The switch of the two button handlers. -/
def setLevel (button : Option MouseButton) (level : Word) (m : Sdl3Mouse) : Sdl3Mouse :=
  match button with
  | some .left => { m with mouseTail := level }
  | some .middle => { m with mouseMiddle := level }
  | some .right => { m with mouseHead := level }
  | none => m

/-- `sdl3_mouse_motion`. -/
def motion (x y : ℤ) (m : Sdl3Mouse) : Sdl3Mouse :=
  { m with mouseX := x, mouseY := y }.setMouseReady sym

/-- `sdl3_mouse_button_down`. -/
def buttonDown (button : Option MouseButton) (m : Sdl3Mouse) : Sdl3Mouse :=
  (m.setLevel button 0).setMouseReady sym

/-- `sdl3_mouse_button_up`. -/
def buttonUp (button : Option MouseButton) (m : Sdl3Mouse) : Sdl3Mouse :=
  (m.setLevel button 1).setMouseReady sym

/-- One event, with the value that the processor reads. -/
def step (m : Sdl3Mouse) : MouseEvent → Option HalfWord × Sdl3Mouse
  | .motion x y => (none, m.motion sym x y)
  | .buttonDown button => (none, m.buttonDown sym button)
  | .buttonUp button => (none, m.buttonUp sym button)
  | .key scancode =>
    (none, { m with iob.keyboard := m.iob.keyboard.setKeyboardReady scancode })
  | .keyboard a =>
    let (v, keyboard) := m.iob.keyboard.answer a
    (v, { m with iob.keyboard := keyboard })
  | .readMouseY =>
    let (v, iob) := m.iob.readMouseY
    (some v, { m with iob := iob })
  | .readMouseX => (some m.iob.mouseX, m)
  | .writeAmem a v => (none, { m with amem := Function.update m.amem a v })

/-- The program starts, with any A memory and interrupts. -/
def start (amem : Fin 1024 → Word) (interrupts : Interrupts) : Sdl3Mouse where
  mouseX := 0
  mouseY := 0
  mouseTail := 0
  mouseMiddle := 0
  mouseHead := 0
  prevstate := 0
  amem := amem
  iob := ⟨⟨0, 0, interrupts, 0⟩, 0, 0⟩
  warps := []

end Sdl3Mouse

end Usim
