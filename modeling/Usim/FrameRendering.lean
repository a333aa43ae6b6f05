import Mathlib.Tactic.Ring
import Usim.Lib.Raster
import Usim.Lib.Masks
import Usim.Tv

/-!
# Drawing a frame

The loops of `sdl3_video_present_main` and `sdl3_video_present_color` of `sdl3-video.c` between
the lock of the texture and its release. The calls of SDL and the flags `colortv_vsync` and
`colortv_hsync` are left out.
-/

namespace Usim

open Lib

/-- The words of memory from a screen buffer on. -/
def memoryAt (screenBuffer : Fin 0o100000 → Word) (beyond : ℕ → Word) (k : ℕ) : Word :=
  if h : k < 0o100000 then screenBuffer ⟨k, h⟩ else beyond k

/-- Within the buffer. -/
theorem memoryAt_of_lt {screenBuffer : Fin 0o100000 → Word} {beyond : ℕ → Word} {k : ℕ}
    (h : k < 0o100000) : memoryAt screenBuffer beyond k = screenBuffer ⟨k, h⟩ := dif_pos h

/-- The variables of the loops that draw a frame. -/
structure Present where
  /-- What has been stored through `pixels`, by the distance in words from the first pixel. -/
  texture : ℕ → Option Word
  /-- `pixels`, as a distance from the first pixel. -/
  pixels : ℕ
  /-- `screen_buffer`, as a distance from the start of the buffer. -/
  screenBuffer : ℕ
  /-- `screen_word`. -/
  screenWord : Word
  /-- `bit_counter`. -/
  bitCounter : ℕ
  /-- The words that have been read through `screen_buffer`. -/
  reads : List ℕ

namespace Present

/-- Before the first row. -/
def start : Present := ⟨fun _ => none, 0, 0, 0, 0, []⟩

variable (memory : ℕ → Word) (bits : ℕ) (colour : Word → Word)

/-- `screen_word = *screen_buffer`. -/
def fetch (s : Present) : Present :=
  { s with screenWord := memory s.screenBuffer, reads := s.reads ++ [s.screenBuffer] }

/-- One turn of the inner loop, for pixels of `bits` bits. -/
def pixel (s : Present) : Present :=
  let s := { s with
    texture := Function.update s.texture s.pixels (some (colour s.screenWord))
    screenWord := s.screenWord >>> bits
    pixels := s.pixels + 1
    bitCounter := s.bitCounter + bits }
  if s.bitCounter = 32 then
    fetch memory { s with bitCounter := 0, screenBuffer := s.screenBuffer + 1 }
  else s

/-- One turn of the outer loop. -/
def row (width : ℕ) (diff : Word) (s : Present) : Present :=
  let s := fetch memory { s with bitCounter := 0 }
  let s := (List.range width).foldl (fun s _ => pixel memory bits colour s) s
  { s with pixels := s.pixels + diff.toNat }

/-- The difference added to `pixels` behind each row, in `uint32_t`. -/
def diff (width pitch : ℕ) : Word := BitVec.ofNat 32 width - BitVec.ofNat 32 (pitch / 4)

/-- The loops. -/
def frame (width height pitch : ℕ) : Present :=
  (List.range height).foldl (fun s _ => row memory bits colour width (diff width pitch) s) start

end Present

/-- `sdl3_video_present_main`. -/
def sdl3VideoPresentMain (t : Tv) (beyond : ℕ → Word) (width height pitch : ℕ) : Present :=
  Present.frame (memoryAt t.screenBuffer beyond) 1
    (fun screenWord => if screenWord &&& 1 ≠ 0 then t.foreground else t.background)
    width height pitch

/-- `sdl3_video_present_color`, which shifts only a word that it does not fetch anew. -/
def sdl3VideoPresentColor (t : ColorTv) (beyond : ℕ → Word) (width height pitch : ℕ) : Present :=
  Present.frame (memoryAt t.screenBuffer beyond) 4
    (fun screenWord => t.colorMap ((screenWord &&& 0xF).setWidth 6)) width height pitch

namespace Present

variable {memory : ℕ → Word} {bits per m : ℕ} {colour : Word → Word}

/-- The colour of pixel `n`, where `per` pixels share a word. -/
def shade (memory : ℕ → Word) (bits per : ℕ) (colour : Word → Word) (n : ℕ) : Word :=
  colour (memory (n / per) >>> (n % per * bits))

/-- The texture after the first `n` pixels. -/
def painted (memory : ℕ → Word) (bits per : ℕ) (colour : Word → Word) (width stride n : ℕ) :
    ℕ → Option Word :=
  updates (fun _ => none)
    ((List.range n).map fun j =>
      (rasterIndex width stride j, some (shade memory bits per colour j)))

/-- One more pixel. -/
theorem painted_succ {width stride n : ℕ} :
    painted memory bits per colour width stride (n + 1) =
      Function.update (painted memory bits per colour width stride n)
        (rasterIndex width stride n) (some (shade memory bits per colour n)) := by
  unfold painted updates
  rw [List.range_succ, List.map_append, List.foldl_append]
  rfl

/-- What holds before pixel `x` of row `y`, where a row takes `m` words. -/
structure Before (memory : ℕ → Word) (bits per m : ℕ) (colour : Word → Word) (width stride y x : ℕ)
    (s : Present) : Prop where
  texture : s.texture = painted memory bits per colour width stride (y * width + x)
  pixels : s.pixels = y * stride + x
  screenBuffer : s.screenBuffer = y * m + x / per
  bitCounter : s.bitCounter = x % per * bits
  screenWord : s.screenWord = memory s.screenBuffer >>> s.bitCounter
  reads : ∀ k, k ∈ s.reads ↔ k ≤ s.screenBuffer

/-- What holds before row `y`. -/
structure BeforeRow (memory : ℕ → Word) (bits per m : ℕ) (colour : Word → Word)
    (width stride y : ℕ) (s : Present) : Prop where
  texture : s.texture = painted memory bits per colour width stride (y * width)
  pixels : s.pixels = y * stride
  screenBuffer : s.screenBuffer = y * m
  reads : ∀ k, k ∈ s.reads ↔ 0 < y ∧ k ≤ s.screenBuffer

/-- The next pixel of the same word, or the first of the next word. -/
theorem next_pixel (hper : per * bits = 32) (x : ℕ) :
    if x % per * bits + bits = 32 then (x + 1) % per = 0 ∧ (x + 1) / per = x / per + 1
    else (x + 1) % per = x % per + 1 ∧ (x + 1) / per = x / per := by
  have hpos : 0 < per := Nat.pos_of_ne_zero (by rintro rfl; omega)
  have hbits : 0 < bits := Nat.pos_of_ne_zero (by rintro rfl; omega)
  have hlt := Nat.mod_lt x hpos
  have hx := Nat.div_add_mod x per
  have hlast : x % per * bits + bits = 32 ↔ x % per + 1 = per := by
    rw [← Nat.succ_mul, ← hper]
    exact Nat.mul_left_inj hbits.ne'
  split
  · case isTrue h =>
    have hnext : x + 1 = per * (x / per + 1) := by
      rw [Nat.mul_succ]
      have := hlast.mp h
      omega
    constructor
    · rw [hnext, Nat.mul_mod_right]
    · rw [hnext, Nat.mul_div_cancel_left _ hpos]
  · case isFalse h =>
    have hnot := mt hlast.mpr h
    have hnext : x + 1 = (x % per + 1) + per * (x / per) := by omega
    constructor
    · rw [hnext, Nat.add_mul_mod_self_left, Nat.mod_eq_of_lt (by omega)]
    · rw [hnext, Nat.add_mul_div_left _ _ hpos, Nat.div_eq_of_lt (by omega), Nat.zero_add]

section Loops

variable {width stride y x : ℕ} {s : Present}

/-- One turn of the inner loop. -/
theorem Before.pixel (hper : per * bits = 32) (hx : x < width)
    (h : Before memory bits per m colour width stride y x s) (hwidth : width = per * m) :
    Before memory bits per m colour width stride y (x + 1) (s.pixel memory bits colour) := by
  have hpos : 0 < per := Nat.pos_of_ne_zero (by rintro rfl; omega)
  have hplace : (y * width + x) / per = y * m + x / per ∧ (y * width + x) % per = x % per := by
    have hrow : y * width + x = x + per * (y * m) := by rw [hwidth]; ring
    constructor
    · rw [hrow, Nat.add_mul_div_left _ _ hpos, Nat.add_comm]
    · rw [hrow, Nat.add_mul_mod_self_left]
  have hcolour : colour s.screenWord = shade memory bits per colour (y * width + x) := by
    rw [shade, hplace.1, hplace.2, h.screenWord, h.screenBuffer, h.bitCounter]
  have htexture : Function.update s.texture s.pixels (some (colour s.screenWord)) =
      painted memory bits per colour width stride (y * width + (x + 1)) := by
    rw [← Nat.add_assoc, painted_succ, rasterIndex_mul_add hx, ← h.texture, ← h.pixels, hcolour]
  have hnext := next_pixel hper x
  rw [← h.bitCounter] at hnext
  unfold Present.pixel
  dsimp only
  split
  · case isTrue hfull =>
    rw [if_pos hfull] at hnext
    refine ⟨htexture, ?_, ?_, ?_, ?_, ?_⟩
    · show s.pixels + 1 = y * stride + (x + 1)
      rw [h.pixels, Nat.add_assoc]
    · show s.screenBuffer + 1 = y * m + (x + 1) / per
      rw [h.screenBuffer, hnext.2, Nat.add_assoc]
    · show 0 = (x + 1) % per * bits
      rw [hnext.1, Nat.zero_mul]
    · exact (BitVec.ushiftRight_zero _).symm
    · intro k
      show k ∈ s.reads ++ [s.screenBuffer + 1] ↔ k ≤ s.screenBuffer + 1
      rw [List.mem_append, List.mem_singleton, h.reads]
      omega
  · case isFalse hpart =>
    rw [if_neg hpart] at hnext
    refine ⟨htexture, ?_, ?_, ?_, ?_, h.reads⟩
    · show s.pixels + 1 = y * stride + (x + 1)
      rw [h.pixels, Nat.add_assoc]
    · show s.screenBuffer = y * m + (x + 1) / per
      rw [h.screenBuffer, hnext.2]
    · show s.bitCounter + bits = (x + 1) % per * bits
      rw [hnext.1, Nat.succ_mul, h.bitCounter]
    · show s.screenWord >>> bits = memory s.screenBuffer >>> (s.bitCounter + bits)
      rw [h.screenWord, BitVec.shiftRight_add]

/-- One turn of the outer loop. -/
theorem BeforeRow.row {diff : Word} (hper : per * bits = 32)
    (hstride : stride = width + diff.toNat) (hwidth : width = per * m)
    (h : BeforeRow memory bits per m colour width stride y s) :
    BeforeRow memory bits per m colour width stride (y + 1)
      (s.row memory bits colour width diff) := by
  have hpos : 0 < per := Nat.pos_of_ne_zero (by rintro rfl; omega)
  have hfirst : Before memory bits per m colour width stride y 0
      (fetch memory { s with bitCounter := 0 }) := by
    refine ⟨?_, h.pixels, ?_, ?_, ?_, ?_⟩
    · exact h.texture
    · show s.screenBuffer = y * m + 0 / per
      rw [h.screenBuffer, Nat.zero_div, Nat.add_zero]
    · show 0 = 0 % per * bits
      rw [Nat.zero_mod, Nat.zero_mul]
    · exact (BitVec.ushiftRight_zero _).symm
    · intro k
      show k ∈ s.reads ++ [s.screenBuffer] ↔ k ≤ s.screenBuffer
      rw [List.mem_append, List.mem_singleton, h.reads]
      have hzero : y = 0 → s.screenBuffer = 0 := by
        rintro rfl
        rw [h.screenBuffer, Nat.zero_mul]
      omega
  have hlast := foldl_range_of_step (f := fun s _ => Present.pixel memory bits colour s) hfirst
    fun x hx s hs => hs.pixel hper hx hwidth
  have hwords : width / per = m := by rw [hwidth, Nat.mul_div_cancel_left _ hpos]
  refine ⟨?_, ?_, ?_, ?_⟩
  · rw [Nat.succ_mul]
    exact hlast.texture
  · show _ + diff.toNat = (y + 1) * stride
    rw [hlast.pixels, Nat.succ_mul, Nat.add_assoc, ← hstride]
  · show _ = (y + 1) * m
    rw [Nat.succ_mul, ← hwords]
    exact hwords ▸ hlast.screenBuffer
  · intro k
    exact (hlast.reads k).trans (iff_and_self.mpr fun _ => Nat.succ_pos y)

/-- What a frame stores and reads. -/
theorem beforeRow_frame {height pitch : ℕ} (hper : per * bits = 32)
    (hstride : stride = width + (diff width pitch).toNat) (hwidth : width = per * m) :
    BeforeRow memory bits per m colour width stride height
      (frame memory bits colour width height pitch) := by
  apply foldl_range_of_step
  · refine ⟨?_, ?_, ?_, ?_⟩
    · rw [Nat.zero_mul]
      rfl
    · exact (Nat.zero_mul _).symm
    · exact (Nat.zero_mul _).symm
    · intro k
      exact iff_of_false (List.not_mem_nil) (by omega)
  · intro y _ s hs
    exact hs.row hper hstride hwidth

end Loops

/-- Pixel `(x, y)` has the colour `c (y * width + x)` and is stored at the word
`y * (pitch / 4) + x` of the texture, nothing else is stored, and what is read is in the screen
buffer. -/
structure Draws (c : ℕ → Word) (width height pitch : ℕ) (s : Present) : Prop where
  pixel : ∀ y < height, ∀ x < width, s.texture (y * (pitch / 4) + x) = some (c (y * width + x))
  elsewhere : ∀ i, (∀ y < height, ∀ x < width, i ≠ y * (pitch / 4) + x) → s.texture i = none
  reads : ∀ k ∈ s.reads, k < 0o100000

/-- A screen of whole words in the screen buffer, and a texture with room for its rows. -/
structure Geometry (per width height pitch : ℕ) : Prop where
  words : per ∣ width
  fits : width * height ≤ 0o100000 * per
  pitch_words : 4 ∣ pitch
  room : 4 * width ≤ pitch
  /-- The pitch is an `int`. -/
  pitch_lt : pitch < 2 ^ 31

section Law

variable {width height pitch stride : ℕ}

/-- A number of a pixel. -/
theorem pixel_lt {y x : ℕ} (hy : y < height) (hx : x < width) :
    y * width + x < width * height := by
  calc y * width + x < y * width + width := by omega
    _ = (y + 1) * width := (Nat.succ_mul y width).symm
    _ ≤ height * width := Nat.mul_le_mul_right _ hy
    _ = width * height := Nat.mul_comm _ _

/-- The place of a pixel among disjoint rows holds its colour. -/
theorem painted_pixel (hstride : width ≤ stride) {y x : ℕ} (hy : y < height) (hx : x < width) :
    painted memory bits per colour width stride (height * width) (y * stride + x) =
      some (shade memory bits per colour (y * width + x)) := by
  rw [← rasterIndex_mul_add hx]
  apply updates_range_last
  · rw [Nat.mul_comm height]
    exact pixel_lt hy hx
  · intro j hj _ heq
    have := rasterIndex_injective (by omega) hstride heq
    omega

/-- A word in no row is not stored. -/
theorem painted_elsewhere {i : ℕ} (hi : ∀ y < height, ∀ x < width, i ≠ y * stride + x) :
    painted memory bits per colour width stride (height * width) i = none := by
  apply updates_range_of_ne
  intro n hn heq
  have hwidth : 0 < width := Nat.pos_of_ne_zero (by rintro rfl; omega)
  exact hi (n / width) ((Nat.div_lt_iff_lt_mul hwidth).mpr hn) (n % width)
    (Nat.mod_lt n hwidth) heq.symm

/-- Behind a row that fills the pitch the pointer stays; behind any other one it goes on by what
the subtraction leaves. -/
theorem toNat_diff (hroom : 4 * width ≤ pitch) (hpitch : pitch < 2 ^ 31) :
    (diff width pitch).toNat = if pitch / 4 = width then 0 else 2 ^ 32 + width - pitch / 4 := by
  unfold diff
  rw [BitVec.toNat_sub, BitVec.toNat_ofNat, BitVec.toNat_ofNat]
  split <;> omega

/-- A frame is drawn as it should be if and only if it is one row, or its rows fill the pitch,
and the screen buffer goes on behind it. -/
theorem draws_frame_iff (hper : per * bits = 32) (hgeometry : Geometry per width height pitch) :
    Draws (shade memory bits per colour) width height pitch
        (frame memory bits colour width height pitch) ↔
      (width = 0 ∨ height ≤ 1 ∨ pitch = 4 * width) ∧ width * height < 0o100000 * per := by
  obtain ⟨m, hwidth⟩ := hgeometry.words
  have hpos : 0 < per := Nat.pos_of_ne_zero (by rintro rfl; omega)
  have hframe : BeforeRow memory bits per m colour width (width + (diff width pitch).toNat) height
      (frame memory bits colour width height pitch) := beforeRow_frame hper rfl hwidth
  have hdiff := toNat_diff hgeometry.room hgeometry.pitch_lt
  have hwords : width * height = per * (height * m) := by rw [hwidth]; ring
  -- the words that are read are those of the frame and the one behind it
  have hreads : (∀ k ∈ (frame memory bits colour width height pitch).reads, k < 0o100000) ↔
      width * height < 0o100000 * per := by
    rw [hwords, Nat.mul_comm per, Nat.mul_lt_mul_right hpos]
    constructor
    · intro h
      rcases Nat.eq_zero_or_pos height with rfl | hheight
      · omega
      · exact h _ ((hframe.reads _).mpr ⟨hheight, hframe.screenBuffer.ge⟩)
    · intro h k hk
      have hle := ((hframe.reads k).mp hk).2
      rw [hframe.screenBuffer] at hle
      omega
  constructor
  · intro h
    refine ⟨?_, hreads.mp h.reads⟩
    by_contra hnot
    push Not at hnot
    obtain ⟨hcolumns, hrows, hpitch⟩ := hnot
    have hsecond := h.pixel 1 (by omega) 0 (by omega)
    have hne : pitch / 4 ≠ width := by
      have := hgeometry.pitch_words
      omega
    rw [if_neg hne] at hdiff
    have hroom := hgeometry.room
    have hlt := hgeometry.pitch_lt
    -- the second row begins far behind the texture
    have hnone : painted memory bits per colour width (width + (diff width pitch).toNat)
        (height * width) (1 * (pitch / 4) + 0) = none := by
      apply painted_elsewhere
      intro y _ x hx heq
      rcases Nat.eq_zero_or_pos y with rfl | hy
      · omega
      · have := Nat.mul_le_mul_right (width + (diff width pitch).toNat) hy
        omega
    rw [hframe.texture, hnone] at hsecond
    cases hsecond
  · rintro ⟨hrows, hlt⟩
    have hplace (y : ℕ) (hy : y < height) (x : ℕ) (hx : x < width) :
        y * (width + (diff width pitch).toNat) + x = y * (pitch / 4) + x := by
      rcases hrows with rfl | hone | rfl
      · omega
      · obtain rfl : y = 0 := by omega
        omega
      · rw [hdiff, if_pos (by omega), Nat.mul_div_cancel_left _ (by decide), Nat.add_zero]
    refine ⟨?_, ?_, hreads.mpr hlt⟩
    · intro y hy x hx
      rw [hframe.texture, ← hplace y hy x hx]
      exact painted_pixel (Nat.le_add_right _ _) hy hx
    · intro i hi
      rw [hframe.texture]
      apply painted_elsewhere
      intro y hy x hx
      rw [hplace y hy x hx]
      exact hi y hy x hx

/-- The colours matter on the screen only. -/
theorem Draws.congr {c c' : ℕ → Word} {s : Present} (hc : ∀ n < width * height, c n = c' n) :
    Draws c width height pitch s ↔ Draws c' width height pitch s := by
  have hpixel (y x : ℕ) (hy : y < height) (hx : x < width) :
      c (y * width + x) = c' (y * width + x) := hc _ (pixel_lt hy hx)
  constructor
  · rintro ⟨h, helsewhere, hreads⟩
    refine ⟨fun y hy x hx => ?_, helsewhere, hreads⟩
    rw [h y hy x hx, hpixel y x hy hx]
  · rintro ⟨h, helsewhere, hreads⟩
    refine ⟨fun y hy x hx => ?_, helsewhere, hreads⟩
    rw [h y hy x hx, hpixel y x hy hx]

end Law

end Present

/-- Bit `n` of the screen buffer. -/
def Tv.bit (t : Tv) (n : ℕ) : Bool := (t.screenBuffer (Fin.ofNat _ (n / 32))).getLsbD (n % 32)

/-- The colour of pixel `n`. -/
def Tv.shade (t : Tv) (n : ℕ) : Word := if t.bit n then t.foreground else t.background

/-- Nibble `n` of a screen buffer, the low one of a word first. -/
def nibble (screenBuffer : Fin 0o100000 → Word) (n : ℕ) : BitVec 4 :=
  (screenBuffer (Fin.ofNat _ (n / 8)) >>> (n % 8 * 4)).setWidth 4

/-- The colour of pixel `n`. -/
def ColorTv.shade (t : ColorTv) (n : ℕ) : Word := t.colorMap ((nibble t.screenBuffer n).setWidth 6)

/-- The mask of a nibble. -/
theorem setWidth_and_lowNibble (w : Word) :
    (w &&& 0xF).setWidth 6 = (w.setWidth 4 : BitVec 4).setWidth 6 := by
  apply BitVec.eq_of_toNat_eq
  have hmask : w.toNat &&& 15 = w.toNat % 2 ^ 4 := Nat.and_two_pow_sub_one_eq_mod w.toNat 4
  rw [BitVec.toNat_setWidth, BitVec.toNat_setWidth, BitVec.toNat_setWidth, BitVec.toNat_and]
  show (w.toNat &&& 15) % 2 ^ 6 = _
  rw [hmask]

namespace Present

variable {width height pitch : ℕ}

/-- The monochrome frame. -/
theorem draws_presentMain_iff (t : Tv) (beyond : ℕ → Word)
    (hgeometry : Geometry 32 width height pitch) :
    Draws t.shade width height pitch (sdl3VideoPresentMain t beyond width height pitch) ↔
      (width = 0 ∨ height ≤ 1 ∨ pitch = 4 * width) ∧ width * height < 0o100000 * 32 := by
  refine Iff.trans (Draws.congr ?_) (draws_frame_iff (by decide) hgeometry)
  intro n hn
  have hword : n / 32 < 0o100000 := by
    have := hgeometry.fits
    omega
  have hindex : Fin.ofNat 0o100000 (n / 32) = ⟨n / 32, hword⟩ := Fin.ext (Nat.mod_eq_of_lt hword)
  have hbit : (t.screenBuffer ⟨n / 32, hword⟩ >>> (n % 32 * 1)) &&& 1 ≠ 0 ↔ t.bit n = true := by
    rw [Tv.bit, hindex, Nat.mul_one]
    show _ &&& BitVec.twoPow 32 0 ≠ 0 ↔ _
    rw [and_twoPow_ne_zero _ (by decide), BitVec.getLsbD_ushiftRight, Nat.add_zero]
  rw [Present.shade, memoryAt_of_lt hword, Tv.shade, if_congr hbit rfl rfl]

/-- The colour frame. -/
theorem draws_presentColor_iff (t : ColorTv) (beyond : ℕ → Word)
    (hgeometry : Geometry 8 width height pitch) :
    Draws t.shade width height pitch (sdl3VideoPresentColor t beyond width height pitch) ↔
      (width = 0 ∨ height ≤ 1 ∨ pitch = 4 * width) ∧ width * height < 0o100000 * 8 := by
  refine Iff.trans (Draws.congr ?_) (draws_frame_iff (by decide) hgeometry)
  intro n hn
  have hword : n / 8 < 0o100000 := by
    have := hgeometry.fits
    omega
  have hindex : Fin.ofNat 0o100000 (n / 8) = ⟨n / 8, hword⟩ := Fin.ext (Nat.mod_eq_of_lt hword)
  rw [Present.shade, memoryAt_of_lt hword, ColorTv.shade, nibble, hindex]
  exact congrArg t.colorMap (setWidth_and_lowNibble _).symm

end Present

end Usim
