import Usim.CSharp.Displays
import Usim.TvBitmap

/-!
# What the display shows

The bitmap of `tv.c`, the frame buffer of the port and the frame that `sdl3-video.c` draws, after
the same calls.
-/

namespace Usim

open Lib

/-- A stored colour, as a word. -/
theorem wordAt_storeBgra (frameBuffer : ℕ → Byte) (p : ℕ) (color : Word) (n : ℕ) :
    wordAt (storeBgra frameBuffer (p * 4) color) (n * 4) =
      if n = p then color else wordAt frameBuffer (n * 4) := by
  have hbyte (k : ℕ) (hk : k < 4) := storeBgra_apply frameBuffer p color n hk
  have hfirst : storeBgra frameBuffer (p * 4) color (n * 4) =
      if n = p then bgra color 0 else frameBuffer (n * 4) := hbyte 0 (by decide)
  unfold wordAt
  rw [hbyte 3 (by decide), hbyte 2 (by decide), hbyte 1 (by decide), hfirst]
  split
  · exact append_le32 color
  · rfl

/-- A cleared frame buffer. -/
theorem wordAt_zero (pos : ℕ) : wordAt (fun _ => 0) pos = 0 := by
  show (0#8 ++ 0#8 ++ 0#8 ++ 0#8 : BitVec 32) = 0
  decide

namespace SharpTv

/-- The screen behind the fields. -/
def screen (t : SharpTv) : Screen :=
  ⟨t.mode, t.screenBuffer, t.foreground, t.background, fun n => wordAt t.frameBuffer (n * 4)⟩

/-- A call of a method; a control register that does not exist leaves everything. -/
def next : TvOperation → SharpTv → SharpTv
  | .reset, t => t.reset
  | .screenWrite offset v, t => t.screenWrite offset v
  | .controlWrite offset v, t => (t.controlWrite offset v).getD t
  | .screenRead _, t => t
  | .controlRead _, t => t

/-- `ScreenWrite` writes and draws a word. -/
theorem screen_screenWrite (t : SharpTv) (offset : Fin 0x8000) (v : Word) :
    (t.screenWrite offset v).screen = t.screen.write offset v := by
  have hpicture : (t.screenWrite offset v).screen.picture = (t.screen.write offset v).picture := by
    funext n
    exact look_drawn (fun (f : ℕ → Byte) n => wordAt f (n * 4)) (fun f p c => storeBgra f (p * 4) c)
      wordAt_storeBgra t.foreground t.background v offset t.frameBuffer n
  exact congrArg (Screen.mk t.mode (Function.update t.screenBuffer offset v) t.foreground
    t.background) hpicture

/-- The loop redraws the words of the monitor. -/
theorem screen_redraw (t : SharpTv) :
    t.redraw.screen = t.screen.redraw t.monitor.words := by
  apply foldl_range_of_step (P := fun i (t' : SharpTv) => t'.screen = t.screen.redraw i)
  · unfold Screen.redraw
    rfl
  · intro i hi t' ht'
    have hbuffer : t'.screenBuffer = t.screenBuffer := congrArg Screen.buffer ht'
    rw [screen_screenWrite, ht', Screen.redraw_succ _ (hi.trans t.monitor.words_lt), screenRead,
      hbuffer]
    rfl

/-- The redraw leaves the monitor. -/
theorem monitor_redraw (t : SharpTv) : t.redraw.monitor = t.monitor := by
  apply foldl_range_of_step (P := fun _ (t' : SharpTv) => t'.monitor = t.monitor) rfl
  intro i _ t' ht'
  exact ht'

/-- The black-on-white bit. -/
theorem isBlackOnWhite_eq (t : SharpTv) : t.isBlackOnWhite = t.mode.getLsbD 2 :=
  decide_and_eq_getLsbD t.mode 0x4 2 (by decide) (by decide)

/-- A cleared frame buffer shows nothing. -/
theorem screen_reset (t : SharpTv) : t.reset.screen = Screen.clear white black := by
  have hpicture : t.reset.screen.picture = fun _ => 0 := funext fun n => wordAt_zero (n * 4)
  exact congrArg (Screen.mk 0 (fun _ => 0) white black) hpicture

/-- A control register other than the mode is not behind the screen. -/
theorem controlWrite_of_ne_zero {t t' : SharpTv} {offset v : Word} (h0 : offset ≠ 0)
    (h : t.controlWrite offset v = some t') : t'.screen = t.screen ∧ t'.monitor = t.monitor := by
  rw [controlWrite, if_neg h0] at h
  split at h
  · split at h
    · cases h
      exact ⟨rfl, rfl⟩
    · cases h
      exact ⟨rfl, rfl⟩
  · split at h
    · cases h
      exact ⟨rfl, rfl⟩
    · split at h
      · cases h
        exact ⟨rfl, rfl⟩
      · cases h

/-- The mode register. -/
theorem controlWrite_zero (t : SharpTv) (v : Word) :
    ∃ t', t.controlWrite 0 v = some t' ∧ t'.screen = t.screen.setMode t.monitor.words v ∧
      t'.monitor = t.monitor := by
  let coloured : SharpTv := { t with
    mode := v
    foreground := if decide (v &&& 0x4 ≠ 0) then SharpTv.black else SharpTv.white
    background := if decide (v &&& 0x4 ≠ 0) then SharpTv.white else SharpTv.black }
  have hbow : coloured.isBlackOnWhite = v.getLsbD 2 := isBlackOnWhite_eq coloured
  have hscreen : coloured.screen = t.screen.withMode v := by
    have hforeground : coloured.foreground = modeColour v true := by
      rw [modeColour_true, ← hbow]
      rfl
    have hbackground : coloured.background = modeColour v false := by
      rw [modeColour_false, ← hbow]
      rfl
    unfold screen
    rw [hforeground, hbackground]
    rfl
  refine ⟨if t.isBlackOnWhite ≠ coloured.isBlackOnWhite then coloured.redraw else coloured, rfl,
    ?_, ?_⟩
  · unfold Screen.setMode
    rw [hbow, isBlackOnWhite_eq]
    by_cases hswitch : t.mode.getLsbD 2 ≠ v.getLsbD 2
    · rw [if_pos hswitch, screen_redraw, hscreen]
      exact (if_pos hswitch).symm
    · rw [if_neg hswitch, hscreen]
      exact (if_neg hswitch).symm
  · split
    · exact monitor_redraw coloured
    · rfl

/-- The class refines the screen, whose colours after a reset are those of mode 0; the monitor
stays. -/
theorem screen_next (op : TvOperation) (t : SharpTv) :
    (t.next op).screen = t.screen.next t.monitor.words white black op ∧
      (t.next op).monitor = t.monitor := by
  cases op with
  | reset => exact ⟨screen_reset t, rfl⟩
  | screenWrite offset v => exact ⟨screen_screenWrite t offset v, rfl⟩
  | screenRead offset => exact ⟨rfl, rfl⟩
  | controlRead offset => exact ⟨rfl, rfl⟩
  | controlWrite offset v =>
    show ((t.controlWrite offset v).getD t).screen =
        (if offset = 0 then t.screen.setMode t.monitor.words v else t.screen) ∧
      ((t.controlWrite offset v).getD t).monitor = t.monitor
    by_cases h0 : offset = 0
    · obtain ⟨t', hwrite, hscreen⟩ := t.controlWrite_zero v
      rw [if_pos h0, h0, hwrite]
      exact hscreen
    · rw [if_neg h0]
      cases hwrite : t.controlWrite offset v with
      | none => exact ⟨rfl, rfl⟩
      | some t' => exact controlWrite_of_ne_zero h0 hwrite

end SharpTv

/-- The display of `tv.c` without SDL3, with SDL3, and of the port. -/
structure Displays where
  bitmapTv : BitmapTv
  tv : Tv
  sharpTv : SharpTv

namespace Displays

/-- The displays at the start. -/
def start (monitor : Monitor) : Displays := ⟨.init, .init, .new monitor⟩

/-- The same call everywhere. -/
def next (monitor : Monitor) (s : Displays) (op : TvOperation) : Displays :=
  ⟨s.bitmapTv.next monitor op, s.tv.next op, s.sharpTv.next op⟩

/-- The displays after some calls. -/
def run (monitor : Monitor) (ops : List TvOperation) : Displays :=
  ops.foldl (next monitor) (start monitor)

/-- Every pixel of the bitmap and of the frame buffer has the colour that the mode gives to its
bit in the screen buffer, and the frame drawn with SDL3 is the same. -/
structure Shown (monitor : Monitor) (s : Displays) : Prop where
  bitmap : ∀ i < monitor.width * monitor.height,
    s.bitmapTv.bitmap i = modeColour s.bitmapTv.tv.mode (s.bitmapTv.tv.bit i)
  frameBuffer : ∀ i < monitor.width * monitor.height,
    wordAt s.sharpTv.frameBuffer (i * 4) = modeColour s.sharpTv.mode (s.sharpTv.screen.bit i)
  image : ∀ beyond, ∀ i < monitor.width * monitor.height,
    (sdl3VideoPresentMain s.tv beyond monitor.width monitor.height (4 * monitor.width)).texture i =
        some (s.bitmapTv.bitmap i) ∧
      wordAt s.sharpTv.frameBuffer (i * 4) = s.bitmapTv.bitmap i

/-- What the same calls keep: each display follows what has been drawn, the buffers and modes
agree, and the colours with SDL3 are those without, unless a reset left both apart. -/
structure Follows (monitor : Monitor) (d : Drawing) (s : Displays) : Prop where
  bitmapTv : s.bitmapTv.screen.Follows monitor.words 0xffffff 0x000000 d
  sharpTv : s.sharpTv.screen.Follows monitor.words white black d
  monitor : s.sharpTv.monitor = monitor
  tv : s.tv.contents = s.bitmapTv.screen.contents
  sharp : s.sharpTv.screen.contents = s.bitmapTv.screen.contents
  colours : d.coloured = true →
    s.tv.foreground = modeColour s.tv.mode true ∧ s.tv.background = modeColour s.tv.mode false

variable {monitor : Monitor} {d : Drawing} {s : Displays}

/-- One call. -/
theorem Follows.next (h : s.Follows monitor d) (op : TvOperation) :
    (s.next monitor op).Follows monitor (d.next op) := by
  have hbitmap := s.bitmapTv.screen_next monitor op
  obtain ⟨hsharp, hmonitor⟩ := s.sharpTv.screen_next op
  rw [h.monitor] at hsharp
  refine ⟨?_, ?_, hmonitor.trans h.monitor, ?_, ?_, ?_⟩
  · show (s.bitmapTv.next monitor op).screen.Follows _ _ _ _
    rw [hbitmap]
    exact h.bitmapTv.next monitor.words_lt op
  · show (s.sharpTv.next op).screen.Follows _ _ _ _
    rw [hsharp]
    exact h.sharpTv.next monitor.words_lt op
  · show (s.tv.next op).contents = (s.bitmapTv.next monitor op).screen.contents
    rw [hbitmap, Screen.contents_next, Tv.contents_next, h.tv]
  · show (s.sharpTv.next op).screen.contents = (s.bitmapTv.next monitor op).screen.contents
    rw [hbitmap, hsharp, Screen.contents_next, Screen.contents_next, h.sharp]
  · intro hcoloured
    show (s.tv.next op).foreground = modeColour (s.tv.next op).mode true ∧
      (s.tv.next op).background = modeColour (s.tv.next op).mode false
    cases op with
    | reset => cases hcoloured
    | screenWrite offset v => exact h.colours hcoloured
    | screenRead offset => exact h.colours hcoloured
    | controlRead offset => exact h.colours hcoloured
    | controlWrite offset v =>
      have hnext : s.tv.next (.controlWrite offset v) =
          (s.tv.controlWrite offset v).getD s.tv := rfl
      rw [hnext]
      rcases s.tv.controlWrite_cases offset v with
        ⟨_, tv, hwrite, hmode, _, hforeground, hbackground⟩ | ⟨h0, hkeep⟩
      · rw [hwrite, Option.getD_some, hmode]
        exact ⟨hforeground, hbackground⟩
      · have hold : d.coloured = true := by
          rwa [Drawing.next, if_neg h0] at hcoloured
        cases hwrite : s.tv.controlWrite offset v with
        | none => exact h.colours hold
        | some tv =>
          obtain ⟨hmode, _, hforeground, hbackground⟩ := hkeep tv hwrite
          rw [Option.getD_some, hmode, hforeground, hbackground]
          exact h.colours hold

/-- The start. -/
theorem follows_start (monitor : Monitor) : (start monitor).Follows monitor .start := by
  have hcolours : Tv.init.foreground = modeColour Tv.init.mode true ∧
      Tv.init.background = modeColour Tv.init.mode false := by decide
  refine ⟨Screen.follows_start, ?_, rfl, rfl, rfl, fun _ => hcolours⟩
  show (SharpTv.new monitor).screen.Follows _ _ _ _
  rw [SharpTv.new, SharpTv.screen_reset]
  exact Screen.follows_start

/-- Every run. -/
theorem follows_run (monitor : Monitor) (ops : List TvOperation) :
    (run monitor ops).Follows monitor (Drawing.after ops) := by
  induction ops using List.reverseRecOn with
  | nil => exact follows_start monitor
  | append_singleton ops op ih =>
    unfold run Drawing.after at ih ⊢
    rw [List.foldl_append, List.foldl_append]
    exact ih.next op

/-- A pixel of the screen is in one of its words. -/
theorem div_lt_words {i : ℕ} (hi : i < monitor.width * monitor.height) :
    i / 32 < monitor.words := by
  have hwhole : monitor.width * monitor.height = monitor.words * 32 := by cases monitor <;> rfl
  rw [hwhole] at hi
  exact (Nat.div_lt_iff_lt_mul (by decide)).mpr hi

/-- The words of the screen consist of its pixels. -/
theorem lt_of_div_lt_words {i : ℕ} (hi : i / 32 < monitor.words) :
    i < monitor.width * monitor.height := by
  have hwhole : monitor.width * monitor.height = monitor.words * 32 := by cases monitor <;> rfl
  rw [hwhole]
  exact (Nat.div_lt_iff_lt_mul (by decide)).mp hi

/-- The frame with SDL3 shows the colours of the mode, while the colours are those of a mode. -/
theorem Follows.image (h : s.Follows monitor d) (hcoloured : d.coloured = true)
    (beyond : ℕ → Word) {i : ℕ} (hi : i < monitor.width * monitor.height) :
    (sdl3VideoPresentMain s.tv beyond monitor.width monitor.height (4 * monitor.width)).texture i =
      some (modeColour s.bitmapTv.tv.mode (s.bitmapTv.tv.bit i)) := by
  have hgeometry : Present.Geometry 32 monitor.width monitor.height (4 * monitor.width) := by
    cases monitor with
    | cpt => exact ⟨by decide, by decide, by decide, by decide, by decide⟩
    | other => exact ⟨by decide, by decide, by decide, by decide, by decide⟩
  have hroom : monitor.width * monitor.height < 0o100000 * 32 := by cases monitor <;> decide
  have hdraws := (Present.draws_presentMain_iff s.tv beyond hgeometry).mpr
    ⟨Or.inr (Or.inr rfl), hroom⟩
  have hwidth : 0 < monitor.width := by cases monitor <;> decide
  have hpixel := hdraws.pixel (i / monitor.width)
    ((Nat.div_lt_iff_lt_mul hwidth).mpr (by rwa [Nat.mul_comm])) (i % monitor.width)
    (Nat.mod_lt i hwidth)
  rw [Nat.mul_div_cancel_left _ (by decide), Nat.div_add_mod'] at hpixel
  obtain ⟨hforeground, hbackground⟩ := h.colours hcoloured
  have hmode : s.tv.mode = s.bitmapTv.tv.mode := congrArg Prod.fst h.tv
  have hbuffer : s.tv.screenBuffer = s.bitmapTv.tv.screenBuffer := congrArg Prod.snd h.tv
  have hbit : s.tv.bit i = s.bitmapTv.tv.bit i := by rw [Tv.bit, Tv.bit, hbuffer]
  rw [hpixel, Tv.shade, hforeground, hbackground, hbit, hmode]
  cases s.bitmapTv.tv.bit i <;> rfl

/-- After any calls, the displays show what they should if and only if every word of the screen
has been drawn since the last reset in the colours of a mode. -/
theorem shown_iff (monitor : Monitor) (ops : List TvOperation) :
    (run monitor ops).Shown monitor ↔
      ∀ k < monitor.words, (Drawing.after ops).drawn k = true := by
  have h := follows_run monitor ops
  have hright := h.bitmapTv.right_iff (by decide) (by decide)
  constructor
  · intro hshown
    apply hright.mp
    intro k hk n hn
    exact hshown.bitmap n (lt_of_div_lt_words (hn ▸ hk))
  · intro hdrawn
    have hcoloured : (Drawing.after ops).coloured = true :=
      h.bitmapTv.coloured_of_drawn 0 (hdrawn 0 (by cases monitor <;> decide))
    have hbitmap (i : ℕ) (hi : i < monitor.width * monitor.height) :=
      hright.mpr hdrawn (i / 32) (div_lt_words hi) i rfl
    have hframe (i : ℕ) (hi : i < monitor.width * monitor.height) :=
      h.sharpTv.drawn (i / 32) (div_lt_words hi) (hdrawn _ (div_lt_words hi)) i rfl
    have hmode : (run monitor ops).sharpTv.mode = (run monitor ops).bitmapTv.tv.mode :=
      congrArg Prod.fst h.sharp
    have hbuffer : (run monitor ops).sharpTv.screenBuffer =
        (run monitor ops).bitmapTv.tv.screenBuffer := congrArg Prod.snd h.sharp
    refine ⟨hbitmap, hframe, fun beyond i hi => ⟨?_, ?_⟩⟩
    · rw [h.image hcoloured beyond hi]
      exact congrArg some (hbitmap i hi).symm
    · have hbit :
          (run monitor ops).sharpTv.screen.bit i = (run monitor ops).bitmapTv.screen.bit i :=
        congrArg (fun buffer : Fin 0o100000 → Word =>
          (buffer (Fin.ofNat _ (i / 32))).getLsbD (i % 32)) hbuffer
      calc wordAt (run monitor ops).sharpTv.frameBuffer (i * 4)
          = modeColour (run monitor ops).sharpTv.mode ((run monitor ops).sharpTv.screen.bit i) :=
            hframe i hi
        _ = modeColour (run monitor ops).bitmapTv.tv.mode
              ((run monitor ops).bitmapTv.screen.bit i) := by rw [hmode, hbit]
        _ = (run monitor ops).bitmapTv.bitmap i := (hbitmap i hi).symm

/-- A white pixel that is written after a reset has no alpha in the bitmap. -/
theorem not_shown_reset : ¬(run .other [.reset, .screenWrite 0 1]).Shown .other := by
  intro h
  have hfirst := h.bitmap 0 (by decide)
  revert hfirst
  decide

end Displays

end Usim
