import Usim.CSharp.UCode
import Usim.FrameRendering
import Usim.Lib.Bytes

/-!
# The displays of the C# port

The classes `Tv` and `ColorTv`, with the frame buffers that the backend shows. The log messages
are left out.
-/

namespace Usim

open Lib

/-- The bytes of a colour in a frame buffer: B, G, R, A. -/
def bgra (color : Word) (k : ℕ) : Byte := (color >>> (8 * k)).setWidth 8

/-- Store a colour. -/
def storeBgra (frameBuffer : ℕ → Byte) (byteIndex : ℕ) (color : Word) : ℕ → Byte :=
  updates frameBuffer ((List.range 4).map fun k => (byteIndex + k, bgra color k))

/-- What a pixel looks like, when the colours of other pixels are stored. -/
theorem storeBgra_apply (frameBuffer : ℕ → Byte) (p : ℕ) (color : Word) (n : ℕ) {k : ℕ}
    (hk : k < 4) :
    storeBgra frameBuffer (p * 4) color (n * 4 + k) =
      if n = p then bgra color k else frameBuffer (n * 4 + k) := by
  unfold storeBgra
  split
  · case isTrue h =>
    subst h
    exact updates_range_last hk fun j hj _ => by omega
  · case isFalse h => exact updates_range_of_ne fun j hj => by omega

/-- The class `Tv`. -/
structure SharpTv where
  /-- What `Width` and `Height` come from. -/
  monitor : Monitor
  /-- `FrameBuffer`, of 0x8000 * 32 * 4 bytes. -/
  frameBuffer : ℕ → Byte
  /-- `_screenBuffer`. -/
  screenBuffer : Fin 0x8000 → Word
  /-- `_syncRam`. -/
  syncRam : BitVec 12 → Byte
  /-- `_mode`. -/
  mode : Word
  /-- `_syncPtr`, which has 12 bits. -/
  syncPtr : BitVec 12
  /-- `_vertSpacing`. -/
  vertSpacing : Word
  /-- `_foreground`. -/
  foreground : Word
  /-- `_background`. -/
  background : Word

namespace SharpTv

/-- `Black`. -/
def black : Word := 0xFF000000

/-- `White`. -/
def white : Word := 0xFFFFFFFF

/-- `Reset`. -/
def reset (t : SharpTv) : SharpTv :=
  { t with
    mode := 0
    screenBuffer := fun _ => 0
    background := black
    foreground := white
    frameBuffer := fun _ => 0 }

/-- The constructor. -/
def new (monitor : Monitor) : SharpTv :=
  reset
    { monitor := monitor, frameBuffer := fun _ => 0, screenBuffer := fun _ => 0
      syncRam := fun _ => 0, mode := 0, syncPtr := 0, vertSpacing := 0, foreground := 0
      background := 0 }

/-- `ScreenRead`. -/
def screenRead (t : SharpTv) (offset : Fin 0x8000) : Word := t.screenBuffer offset

/-- One turn of the loop of `ScreenWrite`, on `word` and `FrameBuffer`. -/
def drawPixel (foreground background : Word) (pixelBase : ℕ) (s : Word × (ℕ → Byte)) (i : ℕ) :
    Word × (ℕ → Byte) :=
  (s.1 >>> 1,
    storeBgra s.2 ((pixelBase + i) * 4) (if s.1 &&& 1 ≠ 0 then foreground else background))

/-- `ScreenWrite`. -/
def screenWrite (t : SharpTv) (offset : Fin 0x8000) (v : Word) : SharpTv :=
  { t with
    screenBuffer := Function.update t.screenBuffer offset v
    frameBuffer :=
      ((List.range 32).foldl (drawPixel t.foreground t.background (offset * 32))
        (v, t.frameBuffer)).2 }

/-- `IsBlackOnWhite`. -/
def isBlackOnWhite (t : SharpTv) : Bool := decide (t.mode &&& 0x4 ≠ 0)

/-- `IsSyncPromEnabled`. -/
def isSyncPromEnabled (t : SharpTv) : Bool := decide (t.vertSpacing &&& 0x80 = 0)

/-- `ControlRead`. -/
def controlRead (t : SharpTv) (offset : Word) : RegisterAccess Word :=
  if offset = 0 then some t.mode
  else if offset = 1 then
    if t.isSyncPromEnabled then some 0 else some ((t.syncRam t.syncPtr).setWidth 32)
  else none

/-- The loop of `ControlWrite` that redraws the screen; the monitors have less than 0x8000
words. -/
def redraw (t : SharpTv) : SharpTv :=
  (List.range (t.monitor.width * t.monitor.height / 32)).foldl
    (fun t i => t.screenWrite (Fin.ofNat _ i) (t.screenRead (Fin.ofNat _ i))) t

/-- `ControlWrite`. -/
def controlWrite (t : SharpTv) (offset v : Word) : RegisterAccess SharpTv :=
  if offset = 0 then
    let wasBow := t.isBlackOnWhite
    let t := { t with mode := v }
    let isBow := t.isBlackOnWhite
    let t := { t with
      foreground := if isBow then black else white
      background := if isBow then white else black }
    some (if wasBow ≠ isBow then t.redraw else t)
  else if offset = 1 then
    if t.isSyncPromEnabled then some t
    else some { t with syncRam := Function.update t.syncRam t.syncPtr (v.setWidth 8) }
  else if offset = 2 then some { t with syncPtr := v.setWidth 12 }
  else if offset = 3 then some { t with vertSpacing := v }
  else none

end SharpTv

/-- The class `ColorTv`. -/
structure SharpColorTv where
  /-- `FrameBuffer`, of 576 * 454 * 4 bytes. -/
  frameBuffer : ℕ → Byte
  /-- `_screenBuffer`. -/
  screenBuffer : Fin 0x8000 → Word
  /-- `_colorMap`. -/
  colorMap : BitVec 6 → Word
  /-- `_syncRam`. -/
  syncRam : BitVec 12 → Byte
  /-- `_mode`. -/
  mode : Word
  /-- `_syncPtr`, which has 12 bits. -/
  syncPtr : BitVec 12
  /-- `_vertSpacing`. -/
  vertSpacing : Word
  /-- `_syncPromEnabled`. -/
  syncPromEnabled : Bool
  /-- `_hsync`. -/
  hsync : Bool
  /-- `_vsync`. -/
  vsync : Bool

/-- The variables of `UnpackFrameBuffer`, with `FrameBuffer`. -/
structure Unpacking where
  wordIndex : ℕ
  bitsInWord : ℕ
  word : Word
  frameBuffer : ℕ → Byte

namespace SharpColorTv

/-- `Width`. -/
def width : ℕ := 576

/-- `Height`. -/
def height : ℕ := 454

/-- The constructor. -/
def new : SharpColorTv :=
  ⟨fun _ => 0, fun _ => 0, fun _ => 0, fun _ => 0, 0, 0, 0, false, false, false⟩

/-- `Reset`, which is empty. -/
def reset (t : SharpColorTv) : SharpColorTv := t

/-- `_screenBuffer[wordIndex]`. -/
def screenWord (t : SharpColorTv) (wordIndex : ℕ) : Except Thrown Word :=
  if h : wordIndex < 0x8000 then .ok (t.screenBuffer ⟨wordIndex, h⟩)
  else .error (.indexOutOfRange wordIndex)

/-- The four assignments to `FrameBuffer`. -/
def storeColor (frameBuffer : ℕ → Byte) (byteIndex : ℕ) (color : Word) :
    Except Thrown (ℕ → Byte) :=
  if byteIndex + 3 < 576 * 454 * 4 then .ok (storeBgra frameBuffer byteIndex color)
  else .error (.indexOutOfRange byteIndex)

/-- One turn of the inner loop of `UnpackFrameBuffer`. -/
def unpackPixel (t : SharpColorTv) (y : ℕ) (s : Unpacking) (x : ℕ) : Except Thrown Unpacking := do
  let color := t.colorMap ((s.word &&& 0xF).setWidth 6)
  let frameBuffer ← storeColor s.frameBuffer ((y * width + x) * 4) color
  let bitsInWord := s.bitsInWord + 4
  if bitsInWord = 32 then
    let word ← t.screenWord (s.wordIndex + 1)
    return ⟨s.wordIndex + 1, 0, word, frameBuffer⟩
  else return ⟨s.wordIndex, bitsInWord, s.word >>> 4, frameBuffer⟩

/-- `UnpackFrameBuffer`: the frame buffer afterwards. -/
def unpackFrameBuffer (t : SharpColorTv) : Except Thrown (ℕ → Byte) := do
  let word ← t.screenWord 0
  let s ← (List.range height).foldlM
    (fun s y => (List.range width).foldlM (t.unpackPixel y) s) ⟨0, 0, word, t.frameBuffer⟩
  return s.frameBuffer

end SharpColorTv

end Usim
