import Usim.Interrupts
import Usim.State

/-!
# The TV interfaces

The screen and the control registers of `tv.c` and `colortv.c`, with the
interrupt that the 60 Hz clock asks for. What only the display reads, and the
log messages, are left out.
-/

namespace Usim

/-- The monitors between which `tv_init` chooses. -/
inductive Monitor
  | cpt
  | other
  deriving DecidableEq, Repr

/-- `tv_width`. -/
def Monitor.width : Monitor → ℕ
  | cpt => 768
  | other => 768

/-- `tv_height`. -/
def Monitor.height : Monitor → ℕ
  | cpt => 896
  | other => 963

/-- The globals of `tv.c`. -/
structure Tv where
  /-- `tv_mode`. -/
  mode : Word
  /-- `tv_screen_buffer[0100000]`. -/
  screenBuffer : Fin 0o100000 → Word
  /-- `tv_foreground`. -/
  foreground : Word
  /-- `tv_background`. -/
  background : Word
  /-- `tv_vert_spacing`. -/
  vertSpacing : Word
  /-- `tv_sync_ptr`, which has 12 bits. -/
  syncPtr : BitVec 12
  /-- `tv_sync_ram[4096]`. -/
  syncRam : BitVec 12 → BitVec 8

/-- An access of a device register: what becomes of it, or that there is no such
register, whereupon Xbus NXM is set. -/
abbrev RegisterAccess (α : Type) := Option α

namespace Tv

/-- The globals at the start. -/
def init : Tv := ⟨0, fun _ => 0, 0xffffffff, 0xff000000, 0, 0, fun _ => 0⟩

/-- `tv_is_sync_prom_enabled`. -/
def isSyncPromEnabled (t : Tv) : Bool := !t.vertSpacing.getLsbD 7

/-- `tv_is_black_on_white`. -/
def isBlackOnWhite (t : Tv) : Bool := t.mode.getLsbD 2

/-- `tv_is_interrupt_enabled`. -/
def isInterruptEnabled (t : Tv) : Bool := t.mode.getLsbD 3

/-- `tv_assert_interrupt`. -/
def assertInterrupt (t : Tv) (i : Interrupts) : Tv × Interrupts :=
  if t.isInterruptEnabled then ({ t with mode := t.mode ||| (1 <<< 4) }, assertXbusInterrupt i)
  else (t, i)

/-- `tv_screen_read`. -/
def screenRead (t : Tv) (offset : Fin 0o100000) : Word := t.screenBuffer offset

/-- `tv_screen_write`. -/
def screenWrite (t : Tv) (offset : Fin 0o100000) (v : Word) : Tv :=
  { t with screenBuffer := Function.update t.screenBuffer offset v }

/-- `tv_control_read`. -/
def controlRead (t : Tv) (offset : Word) : RegisterAccess Word :=
  if offset = 0 then some t.mode
  else if offset = 1 then
    if t.isSyncPromEnabled then some 0 else some ((t.syncRam t.syncPtr).setWidth 32)
  else none

/-- `tv_control_write`. When the colours are switched, every word on the screen is
read and written back, which leaves the screen buffer. -/
def controlWrite (t : Tv) (offset v : Word) : RegisterAccess Tv :=
  if offset = 0 then
    let t := { t with mode := v }
    some { t with
      foreground := if t.isBlackOnWhite then 0xff000000 else 0xffffffff
      background := if t.isBlackOnWhite then 0xffffffff else 0xff000000 }
  else if offset = 1 then
    if t.isSyncPromEnabled then some t
    else some { t with syncRam := Function.update t.syncRam t.syncPtr (v.setWidth 8) }
  else if offset = 2 then some { t with syncPtr := v.setWidth 12 }
  else if offset = 3 then some { t with vertSpacing := v }
  else none

/-- The mode register exists. -/
theorem ne_zero_of_controlWrite {t : Tv} {offset v : Word} (h : t.controlWrite offset v = none) :
    offset ≠ 0 := by
  rintro rfl
  cases h

end Tv

/-- The globals of `colortv.c`. -/
structure ColorTv where
  /-- `colortv_mode`. -/
  mode : Word
  /-- `colortv_screen_buffer[0100000]`. -/
  screenBuffer : Fin 0o100000 → Word
  /-- `colortv_color_map[64]`. -/
  colorMap : BitVec 6 → Word
  /-- `colortv_vsync`. -/
  vsync : Bool
  /-- `colortv_hsync`. -/
  hsync : Bool
  /-- `sync_prom_enb`. -/
  syncPromEnb : Bool
  /-- `colortv_vert_spacing`. -/
  vertSpacing : Word
  /-- `colortv_sync_ptr`, which has 12 bits. -/
  syncPtr : BitVec 12
  /-- `colortv_sync_ram[4096]`. -/
  syncRam : BitVec 12 → BitVec 8

namespace ColorTv

/-- The globals at the start. -/
def init : ColorTv := ⟨0, fun _ => 0, fun _ => 0, false, false, false, 0, 0, fun _ => 0⟩

/-- `colortv_is_interrupt_enabled`. -/
def isInterruptEnabled (t : ColorTv) : Bool := t.mode.getLsbD 3

/-- `colortv_assert_interrupt`. -/
def assertInterrupt (t : ColorTv) (i : Interrupts) : ColorTv × Interrupts :=
  if t.isInterruptEnabled then ({ t with mode := t.mode ||| (1 <<< 4) }, assertXbusInterrupt i)
  else (t, i)

/-- `colortv_screen_read`. -/
def screenRead (t : ColorTv) (offset : Fin 0o100000) : Word := t.screenBuffer offset

/-- `colortv_screen_write`. -/
def screenWrite (t : ColorTv) (offset : Fin 0o100000) (v : Word) : ColorTv :=
  { t with screenBuffer := Function.update t.screenBuffer offset v }

/-- `colortv_control_read`. -/
def controlRead (t : ColorTv) (offset : Word) : RegisterAccess Word :=
  if offset = 0 then
    some (t.mode ||| (if t.syncPromEnb then 0o200 else 0) ||| (if t.hsync then 0o100 else 0) |||
      (if t.vsync then 0o40 else 0))
  else if offset = 1 then
    if t.syncPromEnb then some 0 else some ((t.syncRam t.syncPtr).setWidth 32)
  else none

/-- A colour of the map with one of its channels replaced; the fourth channel is
not defined. -/
def loadColor (currentValue channel value : Word) : Option Word :=
  if channel = 0 then some ((currentValue &&& (0x0000FFFF : Word)) ||| (value <<< 16))
  else if channel = 1 then some ((currentValue &&& (0x00FF00FF : Word)) ||| (value <<< 8))
  else if channel = 2 then some ((currentValue &&& (0x00FFFF00 : Word)) ||| value)
  else none

/-- `colortv_control_write` at offset 4, the colour map. The colour values are reversed. -/
def writeColorMap (t : ColorTv) (v : Word) : Except ErrCall ColorTv :=
  let colorChannelValue := 255 - ((v >>> 8) &&& 0xFF)
  let colorChannel := (v >>> 6) &&& 0x03
  let location := v.setWidth 6
  match loadColor (t.colorMap location) colorChannel colorChannelValue with
  | some newValue =>
    .ok { t with colorMap := Function.update t.colorMap location (0xFF000000 ||| newValue) }
  | none => .error ⟨"color_channel is %u\n", [colorChannel.toNat]⟩

/-- `colortv_control_write`. -/
def controlWrite (t : ColorTv) (offset v : Word) : Except ErrCall (RegisterAccess ColorTv) :=
  if offset = 0 then .ok (some { t with mode := v &&& 0o37 })
  else if offset = 1 then
    if t.syncPromEnb then .ok (some t)
    else .ok (some { t with syncRam := Function.update t.syncRam t.syncPtr (v.setWidth 8) })
  else if offset = 2 then .ok (some { t with syncPtr := v.setWidth 12 })
  else if offset = 3 then
    .ok (some { t with syncPromEnb := !v.getLsbD 7, vertSpacing := v &&& 0o177 })
  else if offset = 4 then (t.writeColorMap v).map some
  else .ok none

/-- The mode register exists. -/
theorem ne_zero_of_controlWrite {t : ColorTv} {offset v : Word}
    (h : t.controlWrite offset v = .ok none) : offset ≠ 0 := by
  rintro rfl
  cases h

end ColorTv

end Usim
