import Usim.CSharp.Displays
import Usim.Lib.Runs

/-!
# Frames

`ColorTv.UnpackFrameBuffer` of the port beside the two functions of `sdl3-video.c` that draw a
frame.
-/

namespace Usim

open Lib

namespace SharpColorTv

/-- The colour of pixel `n`. -/
def shade (t : SharpColorTv) (n : ℕ) : Word := t.colorMap ((nibble t.screenBuffer n).setWidth 6)

/-- The frame buffer comes to hold the colours of the pixels in the order of their bytes. -/
def Unpacks (t : SharpColorTv) : Prop :=
  ∃ frameBuffer, t.unpackFrameBuffer = .ok frameBuffer ∧ ∀ y < height, ∀ x < width, ∀ k < 4,
    frameBuffer (4 * (y * width + x) + k) = bgra (t.shade (y * width + x)) k

/-- What holds after `n` pixels. -/
structure Unpacked (t : SharpColorTv) (n : ℕ) (s : Unpacking) : Prop where
  wordIndex : s.wordIndex = n / 8
  bitsInWord : s.bitsInWord = n % 8 * 4
  word : s.word = t.screenBuffer (Fin.ofNat _ (n / 8)) >>> (n % 8 * 4)
  frameBuffer : ∀ j < n, ∀ k < 4, s.frameBuffer (j * 4 + k) = bgra (t.shade j) k

variable {t : SharpColorTv}

/-- A word of the buffer. -/
theorem screenWord_eq {i : ℕ} (h : i < 0x8000) :
    t.screenWord i = .ok (t.screenBuffer (Fin.ofNat _ i)) := by
  have hindex : Fin.ofNat 0x8000 i = ⟨i, h⟩ := Fin.ext (Nat.mod_eq_of_lt h)
  rw [screenWord, dif_pos h, hindex]

/-- One pixel. -/
theorem Unpacked.pixel {y x : ℕ} {s : Unpacking} (h : Unpacked t (y * width + x) s)
    (hy : y < height) (hx : x < width) :
    ∃ s', t.unpackPixel y s x = .ok s' ∧ Unpacked t (y * width + (x + 1)) s' := by
  have hlt := Present.pixel_lt hy hx
  rw [← Nat.add_assoc]
  generalize hn : y * width + x = n at h hlt ⊢
  replace hlt : n < 576 * 454 := hlt
  have hstore : storeColor s.frameBuffer (n * 4) (t.shade n) =
      .ok (storeBgra s.frameBuffer (n * 4) (t.shade n)) := if_pos (by omega)
  have hcolour : t.colorMap ((s.word &&& 0xF).setWidth 6) = t.shade n := by
    rw [setWidth_and_lowNibble, h.word]
    rfl
  have hframe (j : ℕ) (hj : j < n + 1) (k : ℕ) (hk : k < 4) :
      storeBgra s.frameBuffer (n * 4) (t.shade n) (j * 4 + k) = bgra (t.shade j) k := by
    rw [storeBgra_apply _ _ _ _ hk]
    split
    · case isTrue heq => rw [heq]
    · case isFalse hne => exact h.frameBuffer j (by omega) k hk
  have hper : 8 * 4 = 32 := rfl
  have hnext := Present.next_pixel hper n
  rw [← h.bitsInWord] at hnext
  unfold unpackPixel
  dsimp only
  rw [hn, hcolour, hstore]
  by_cases hfull : s.bitsInWord + 4 = 32
  · rw [if_pos hfull] at hnext
    have hword : t.screenWord (s.wordIndex + 1) =
        .ok (t.screenBuffer (Fin.ofNat _ (s.wordIndex + 1))) := by
      apply screenWord_eq
      rw [h.wordIndex]
      omega
    have hindex : s.wordIndex + 1 = (n + 1) / 8 := by rw [h.wordIndex, hnext.2]
    refine ⟨⟨s.wordIndex + 1, 0, t.screenBuffer (Fin.ofNat _ (s.wordIndex + 1)),
      storeBgra s.frameBuffer (n * 4) (t.shade n)⟩, ?_, hindex, ?_, ?_, hframe⟩
    · show (if s.bitsInWord + 4 = 32 then _ else _) = _
      rw [if_pos hfull, hword]
      rfl
    · rw [hnext.1]
    · rw [hindex, hnext.1, Nat.zero_mul, BitVec.ushiftRight_zero]
  · rw [if_neg hfull] at hnext
    refine ⟨⟨s.wordIndex, s.bitsInWord + 4, s.word >>> 4,
      storeBgra s.frameBuffer (n * 4) (t.shade n)⟩, ?_, ?_, ?_, ?_, hframe⟩
    · show (if s.bitsInWord + 4 = 32 then _ else _) = _
      rw [if_neg hfull]
      rfl
    · rw [h.wordIndex, hnext.2]
    · rw [hnext.1, Nat.succ_mul, h.bitsInWord]
    · rw [hnext.1, hnext.2, Nat.succ_mul, h.word, BitVec.shiftRight_add]

/-- One row. -/
theorem Unpacked.row {y : ℕ} {s : Unpacking} (h : Unpacked t (y * width) s) (hy : y < height) :
    ∃ s', (List.range width).foldlM (t.unpackPixel y) s = .ok s' ∧
      Unpacked t ((y + 1) * width) s' := by
  rw [Nat.succ_mul]
  rw [← Nat.add_zero (y * width)] at h
  apply exists_foldlM_range_of_step (P := fun x s => Unpacked t (y * width + x) s) h
  intro x hx s hs
  exact hs.pixel hy hx

/-- `UnpackFrameBuffer` never leaves the screen buffer. -/
theorem unpacks (t : SharpColorTv) : t.Unpacks := by
  have hfirst : Unpacked t (0 * width)
      ⟨0, 0, t.screenBuffer (Fin.ofNat _ 0), t.frameBuffer⟩ := by
    rw [Nat.zero_mul]
    exact ⟨rfl, rfl, (BitVec.ushiftRight_zero _).symm, fun j hj => nomatch hj⟩
  obtain ⟨s, hs, hunpacked⟩ := exists_foldlM_range_of_step
    (P := fun y s => Unpacked t (y * width) s) (n := height)
    (f := fun s y => (List.range width).foldlM (t.unpackPixel y) s) hfirst
    fun y hy s hs => hs.row hy
  refine ⟨s.frameBuffer, ?_, ?_⟩
  · exact bind_eq_ok (screenWord_eq (by decide)) (bind_eq_ok hs rfl)
  · intro y hy x hx k hk
    rw [Nat.mul_comm 4]
    apply hunpacked.frameBuffer _ _ k hk
    rw [Nat.mul_comm height]
    exact Present.pixel_lt hy hx

end SharpColorTv

/-- Every frame is drawn as it should be, in C and in the port, if and only if the rows of the
C textures of more than one row fill the pitch and the screen buffers go on behind the frames. -/
theorem frames_drawn_iff (t : Tv) (c : ColorTv) (s : SharpColorTv) (beyond beyond' : ℕ → Word)
    {width height pitch width' height' pitch' : ℕ}
    (hmain : Present.Geometry 32 width height pitch)
    (hcolour : Present.Geometry 8 width' height' pitch') :
    (Present.Draws t.shade width height pitch
          (sdl3VideoPresentMain t beyond width height pitch) ∧
        Present.Draws c.shade width' height' pitch'
          (sdl3VideoPresentColor c beyond' width' height' pitch') ∧
        s.Unpacks) ↔
      ((width = 0 ∨ height ≤ 1 ∨ pitch = 4 * width) ∧ width * height < 0o100000 * 32) ∧
        (width' = 0 ∨ height' ≤ 1 ∨ pitch' = 4 * width') ∧ width' * height' < 0o100000 * 8 := by
  have hmain_iff := Present.draws_presentMain_iff t beyond hmain
  have hcolour_iff := Present.draws_presentColor_iff c beyond' hcolour
  constructor
  · rintro ⟨h, h', -⟩
    exact ⟨hmain_iff.mp h, hcolour_iff.mp h'⟩
  · rintro ⟨h, h'⟩
    exact ⟨hmain_iff.mpr h, hcolour_iff.mpr h', s.unpacks⟩

/-- The frame of the CPT monitor and the colour frame, in textures without padding. -/
theorem frames_drawn_cpt :
    Present.Geometry 32 768 896 (4 * 768) ∧ Present.Geometry 8 576 454 (4 * 576) ∧
      Present.Draws Tv.init.shade 768 896 (4 * 768)
        (sdl3VideoPresentMain Tv.init (fun _ => 0) 768 896 (4 * 768)) := by
  have hmain : Present.Geometry 32 768 896 (4 * 768) :=
    ⟨by decide, by decide, by decide, by decide, by decide⟩
  have hcolour : Present.Geometry 8 576 454 (4 * 576) :=
    ⟨by decide, by decide, by decide, by decide, by decide⟩
  have hdrawn := (frames_drawn_iff .init .init .new (fun _ => 0) (fun _ => 0) hmain hcolour).mpr
    (by decide)
  exact ⟨hmain, hcolour, hdrawn.1⟩

/-- The frame of the CPT monitor in a texture whose pitch is the next power of two: the rows
behind the first one are not stored where they belong. -/
theorem not_frame_drawn :
    Present.Geometry 32 768 896 4096 ∧
      ¬Present.Draws Tv.init.shade 768 896 4096
        (sdl3VideoPresentMain Tv.init (fun _ => 0) 768 896 4096) := by
  have hgeometry : Present.Geometry 32 768 896 4096 :=
    ⟨by decide, by decide, by decide, by decide, by decide⟩
  refine ⟨hgeometry, fun h => ?_⟩
  have hrows := ((Present.draws_presentMain_iff .init (fun _ => 0) hgeometry).mp h).1
  omega

end Usim
