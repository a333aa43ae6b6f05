import Usim.FrameRendering

/-!
# The bitmap of the display

`tv.c` in a build without SDL3, which keeps `tv_bitmap` beside the screen buffer, and an abstract
screen that it refines: a buffer with a picture of it. The rectangle that `accumulate_update`
collects for the display is left out.
-/

namespace Usim

open Lib

/-- The globals of `tv.c` with `tv_bitmap[1024 * 1024]`. -/
structure BitmapTv where
  tv : Tv
  bitmap : ℕ → Word

/-- `tv_reset` with SDL3, which leaves the colours. -/
def Tv.reset (t : Tv) : Tv := { t with mode := 0, screenBuffer := fun _ => 0 }

namespace BitmapTv

/-- The globals at the start. -/
def init : BitmapTv := ⟨.init, fun _ => 0⟩

/-- `tv_reset`. -/
def reset (t : BitmapTv) : BitmapTv where
  tv := { t.tv.reset with background := 0x000000, foreground := 0xffffff }
  bitmap := fun _ => 0

/-- One turn of the loop of `tv_screen_write`, on `v` and `tv_bitmap`. -/
def drawPixel (foreground background : Word) (offset : ℕ) (s : Word × (ℕ → Word)) (i : ℕ) :
    Word × (ℕ → Word) :=
  (s.1 >>> 1,
    Function.update s.2 (offset + i) (if s.1 &&& 1 ≠ 0 then foreground else background))

/-- `tv_screen_write`. -/
def screenWrite (t : BitmapTv) (offset : Fin 0o100000) (v : Word) : BitmapTv where
  tv := t.tv.screenWrite offset v
  bitmap := ((List.range 32).foldl (drawPixel t.tv.foreground t.tv.background (offset * 32))
    (v, t.bitmap)).2

/-- The loop of `tv_control_write` that redraws the screen; the monitors have fewer words than
the screen buffer. -/
def redraw (monitor : Monitor) (t : BitmapTv) : BitmapTv :=
  (List.range (monitor.width * monitor.height / 32)).foldl
    (fun t i => t.screenWrite (Fin.ofNat _ i) (t.tv.screenRead (Fin.ofNat _ i))) t

/-- `tv_control_write`. -/
def controlWrite (monitor : Monitor) (t : BitmapTv) (offset v : Word) : RegisterAccess BitmapTv :=
  (t.tv.controlWrite offset v).map fun tv =>
    -- is color switched?
    if offset = 0 ∧ t.tv.isBlackOnWhite ≠ tv.isBlackOnWhite then { t with tv := tv }.redraw monitor
    else { t with tv := tv }

end BitmapTv

/-- A call of a function of `tv.c`, or of a method of its port. -/
inductive TvOperation
  | reset
  | screenWrite (offset : Fin 0o100000) (v : Word)
  | screenRead (offset : Fin 0o100000)
  | controlWrite (offset v : Word)
  | controlRead (offset : Word)

/-- The call of `tv.c` without SDL3; a control register that does not exist leaves everything. -/
def BitmapTv.next (monitor : Monitor) : TvOperation → BitmapTv → BitmapTv
  | .reset, t => t.reset
  | .screenWrite offset v, t => t.screenWrite offset v
  | .controlWrite offset v, t => (t.controlWrite monitor offset v).getD t
  | .screenRead _, t => t
  | .controlRead _, t => t

/-- The call of `tv.c` with SDL3. -/
def Tv.next : TvOperation → Tv → Tv
  | .reset, t => t.reset
  | .screenWrite offset v, t => t.screenWrite offset v
  | .controlWrite offset v, t => (t.controlWrite offset v).getD t
  | .screenRead _, t => t
  | .controlRead _, t => t

/-- `BLACK`. -/
def black : Word := 0xff000000

/-- `WHITE`. -/
def white : Word := 0xffffffff

/-- The colour that a mode gives to a bit. -/
def modeColour (mode : Word) (bit : Bool) : Word :=
  if mode.getLsbD 2 = bit then black else white

/-- A screen buffer with a picture of it. -/
structure Screen where
  mode : Word
  buffer : Fin 0o100000 → Word
  foreground : Word
  background : Word
  picture : ℕ → Word

namespace Screen

/-- The colour of a bit. -/
def ink (s : Screen) (bit : Bool) : Word := if bit then s.foreground else s.background

/-- Bit `n` of the buffer. -/
def bit (s : Screen) (n : ℕ) : Bool := (s.buffer (Fin.ofNat _ (n / 32))).getLsbD (n % 32)

/-- A word is written and drawn. -/
def write (s : Screen) (offset : Fin 0o100000) (v : Word) : Screen :=
  { s with
    buffer := Function.update s.buffer offset v
    picture := fun n => if n / 32 = offset then s.ink (v.getLsbD (n % 32)) else s.picture n }

/-- The first words are drawn. -/
def redraw (s : Screen) (words : ℕ) : Screen :=
  { s with picture := fun n => if n / 32 < words then s.ink (s.bit n) else s.picture n }

/-- The mode is set, with its colours. -/
def withMode (s : Screen) (v : Word) : Screen :=
  { s with mode := v, foreground := modeColour v true, background := modeColour v false }

/-- The mode is written: the screen is redrawn when the colours are switched. -/
def setMode (words : ℕ) (s : Screen) (v : Word) : Screen :=
  if s.mode.getLsbD 2 ≠ v.getLsbD 2 then (s.withMode v).redraw words else s.withMode v

/-- The screen is cleared, with colours of the implementation. -/
def clear (foreground background : Word) : Screen :=
  ⟨0, fun _ => 0, foreground, background, fun _ => 0⟩

/-- A call. -/
def next (words : ℕ) (foreground background : Word) : TvOperation → Screen → Screen
  | .reset, _ => clear foreground background
  | .screenWrite offset v, s => s.write offset v
  | .controlWrite offset v, s => if offset = 0 then s.setMode words v else s
  | .screenRead _, s => s
  | .controlRead _, s => s

/-- The words of the buffer are drawn one after the other. -/
theorem redraw_succ (s : Screen) {i : ℕ} (hi : i < 0o100000) :
    s.redraw (i + 1) = (s.redraw i).write (Fin.ofNat _ i) (s.buffer (Fin.ofNat _ i)) := by
  have hindex : (Fin.ofNat 0o100000 i : ℕ) = i := Nat.mod_eq_of_lt hi
  have hbuffer : Function.update s.buffer (Fin.ofNat _ i) (s.buffer (Fin.ofNat _ i)) = s.buffer :=
    Function.update_eq_self _ _
  have hpicture : (s.redraw (i + 1)).picture =
      ((s.redraw i).write (Fin.ofNat _ i) (s.buffer (Fin.ofNat _ i))).picture := by
    funext n
    show (if n / 32 < i + 1 then s.ink (s.bit n) else s.picture n) =
      if n / 32 = (Fin.ofNat 0o100000 i : ℕ) then
        s.ink ((s.buffer (Fin.ofNat _ i)).getLsbD (n % 32))
        else if n / 32 < i then s.ink (s.bit n) else s.picture n
    rw [hindex]
    by_cases heq : n / 32 = i
    · rw [if_pos heq, if_pos (by omega), ← heq]
      rfl
    · rw [if_neg heq]
      by_cases hlt : n / 32 < i
      · rw [if_pos hlt, if_pos (by omega)]
      · rw [if_neg hlt, if_neg (by omega)]
  unfold redraw write at hpicture ⊢
  rw [hbuffer]
  exact congrArg (Screen.mk s.mode s.buffer s.foreground s.background) hpicture

end Screen

/-- The loop that draws the bits of a word, into what `look` looks at. -/
theorem look_drawn {F : Type} (look : F → ℕ → Word) (store : F → ℕ → Word → F)
    (hstore : ∀ f p c n, look (store f p c) n = if n = p then c else look f n)
    (foreground background v : Word) (offset : ℕ) (f : F) (n : ℕ) :
    look ((List.range 32).foldl (fun (s : Word × F) i => (s.1 >>> 1,
        store s.2 (offset * 32 + i) (if s.1 &&& 1 ≠ 0 then foreground else background)))
        (v, f)).2 n =
      if n / 32 = offset then if v.getLsbD (n % 32) then foreground else background
      else look f n := by
  let colour (n : ℕ) : Word := if v.getLsbD (n % 32) then foreground else background
  have hloop := foldl_range_of_step (n := 32) (s := (v, f))
    (P := fun i (s : Word × F) => s.1 = v >>> i ∧
      ∀ n, look s.2 n = if n / 32 = offset ∧ n % 32 < i then colour n else look f n)
    (f := fun s i => (s.1 >>> 1,
      store s.2 (offset * 32 + i) (if s.1 &&& 1 ≠ 0 then foreground else background)))
    ⟨(BitVec.ushiftRight_zero v).symm, fun n => by rw [if_neg (by omega)]⟩ (by
    rintro i hi s ⟨hword, hlook⟩
    have hbit : s.1 &&& 1 ≠ 0 ↔ v.getLsbD i = true := by
      show s.1 &&& BitVec.twoPow 32 0 ≠ 0 ↔ _
      rw [and_twoPow_ne_zero _ (by decide), hword, BitVec.getLsbD_ushiftRight, Nat.add_zero]
    refine ⟨?_, fun n => ?_⟩
    · show s.1 >>> 1 = v >>> (i + 1)
      rw [hword, BitVec.shiftRight_add]
    · show look (store s.2 (offset * 32 + i) _) n = _
      rw [hstore, hlook, if_congr hbit rfl rfl]
      by_cases heq : n = offset * 32 + i
      · have hn : n % 32 = i := by omega
        have hdrawn : n / 32 = offset ∧ n % 32 < i + 1 := by omega
        rw [if_pos heq, if_pos hdrawn]
        show _ = if v.getLsbD (n % 32) then foreground else background
        rw [hn]
      · have hsame : n / 32 = offset ∧ n % 32 < i + 1 ↔ n / 32 = offset ∧ n % 32 < i := by omega
        rw [if_neg heq, if_congr hsame rfl rfl])
  rw [hloop.2 n]
  have hall : n / 32 = offset ∧ n % 32 < 32 ↔ n / 32 = offset :=
    and_iff_left (Nat.mod_lt n (by decide))
  exact if_congr hall rfl rfl

namespace BitmapTv

/-- The screen behind the globals. -/
def screen (t : BitmapTv) : Screen :=
  ⟨t.tv.mode, t.tv.screenBuffer, t.tv.foreground, t.tv.background, t.bitmap⟩

/-- `tv_screen_write` writes and draws a word. -/
theorem screen_screenWrite (t : BitmapTv) (offset : Fin 0o100000) (v : Word) :
    (t.screenWrite offset v).screen = t.screen.write offset v := by
  have hpicture : (t.screenWrite offset v).bitmap = (t.screen.write offset v).picture := by
    funext n
    exact look_drawn (fun (f : ℕ → Word) n => f n) (fun f p c => Function.update f p c)
      (fun f p c n => Function.update_apply f p c n) t.tv.foreground t.tv.background v offset
      t.bitmap n
  unfold screen
  rw [hpicture]
  rfl

/-- The loop redraws the words of the monitor. -/
theorem screen_redraw (monitor : Monitor) (t : BitmapTv) :
    (t.redraw monitor).screen = t.screen.redraw (monitor.width * monitor.height / 32) := by
  apply foldl_range_of_step (P := fun i (t' : BitmapTv) => t'.screen = t.screen.redraw i)
  · unfold Screen.redraw
    rfl
  · intro i hi t' ht'
    have hlt : i < 0o100000 := by
      cases monitor with
      | cpt => exact Nat.lt_trans hi (by decide)
      | other => exact Nat.lt_trans hi (by decide)
    have hbuffer : t'.tv.screenBuffer = t.tv.screenBuffer := congrArg Screen.buffer ht'
    rw [screen_screenWrite, ht', Screen.redraw_succ _ hlt, Tv.screenRead, hbuffer]
    rfl

end BitmapTv

/-- The words of the screen of a monitor. -/
def Monitor.words (monitor : Monitor) : ℕ := monitor.width * monitor.height / 32

/-- The screen fits the screen buffer. -/
theorem Monitor.words_lt (monitor : Monitor) : monitor.words < 0o100000 := by
  cases monitor <;> decide

/-- A colour of a mode is chosen by `tv_control_write`. -/
theorem modeColour_true (mode : Word) :
    modeColour mode true = if mode.getLsbD 2 then 0xff000000 else 0xffffffff := rfl

/-- The other colour. -/
theorem modeColour_false (mode : Word) :
    modeColour mode false = if mode.getLsbD 2 then 0xffffffff else 0xff000000 := by
  unfold modeColour
  cases mode.getLsbD 2 <;> rfl

namespace Tv

/-- A write of a control register leaves the mode, the buffer and the colours, or sets the mode
with its colours. -/
theorem controlWrite_cases (t : Tv) (offset v : Word) :
    (offset = 0 ∧ ∃ t', t.controlWrite offset v = some t' ∧ t'.mode = v ∧
        t'.screenBuffer = t.screenBuffer ∧ t'.foreground = modeColour v true ∧
        t'.background = modeColour v false) ∨
      offset ≠ 0 ∧ ∀ t', t.controlWrite offset v = some t' → t'.mode = t.mode ∧
        t'.screenBuffer = t.screenBuffer ∧ t'.foreground = t.foreground ∧
        t'.background = t.background := by
  by_cases h0 : offset = 0
  · left
    rw [modeColour_true, modeColour_false, controlWrite, if_pos h0]
    exact ⟨h0, _, rfl, rfl, rfl, rfl, rfl⟩
  · right
    refine ⟨h0, fun t' ht' => ?_⟩
    rw [controlWrite, if_neg h0] at ht'
    split at ht'
    · split at ht'
      · cases ht'
        exact ⟨rfl, rfl, rfl, rfl⟩
      · cases ht'
        exact ⟨rfl, rfl, rfl, rfl⟩
    · split at ht'
      · cases ht'
        exact ⟨rfl, rfl, rfl, rfl⟩
      · split at ht'
        · cases ht'
          exact ⟨rfl, rfl, rfl, rfl⟩
        · cases ht'

end Tv

/-- `tv.c` without SDL3 refines the screen, whose colours after a reset have no alpha. -/
theorem BitmapTv.screen_next (monitor : Monitor) (op : TvOperation) (t : BitmapTv) :
    (t.next monitor op).screen = t.screen.next monitor.words 0xffffff 0x000000 op := by
  cases op with
  | reset => rfl
  | screenWrite offset v => exact screen_screenWrite t offset v
  | screenRead offset => rfl
  | controlRead offset => rfl
  | controlWrite offset v =>
    show ((t.controlWrite monitor offset v).getD t).screen =
      if offset = 0 then t.screen.setMode monitor.words v else t.screen
    unfold BitmapTv.controlWrite
    rcases t.tv.controlWrite_cases offset v with
      ⟨h0, tv, hwrite, hmode, hbuffer, hforeground, hbackground⟩ | ⟨h0, hkeep⟩
    · have hbow : tv.isBlackOnWhite = v.getLsbD 2 := by rw [Tv.isBlackOnWhite, hmode]
      have hscreen : ({ t with tv := tv } : BitmapTv).screen = t.screen.withMode v := by
        unfold screen
        rw [hmode, hbuffer, hforeground, hbackground]
        rfl
      rw [hwrite, if_pos h0]
      show (if offset = 0 ∧ t.tv.isBlackOnWhite ≠ tv.isBlackOnWhite then
        BitmapTv.redraw monitor { t with tv := tv } else { t with tv := tv }).screen = _
      unfold Screen.setMode
      rw [hbow]
      by_cases hswitch : t.tv.isBlackOnWhite ≠ v.getLsbD 2
      · rw [if_pos ⟨h0, hswitch⟩, screen_redraw, hscreen]
        exact (if_pos hswitch).symm
      · rw [if_neg (fun h => hswitch h.2), hscreen]
        exact (if_neg hswitch).symm
    · rw [if_neg h0]
      cases hwrite : t.tv.controlWrite offset v with
      | none => rfl
      | some tv =>
        obtain ⟨hmode, hbuffer, hforeground, hbackground⟩ := hkeep tv hwrite
        show (if offset = 0 ∧ _ then _ else _ : BitmapTv).screen = _
        rw [if_neg (fun h => h0 h.1)]
        unfold screen
        rw [hmode, hbuffer, hforeground, hbackground]

/-- What the calls have drawn since the last reset, or since the start: the words written while
the colours were those of a mode, and the whole screen where the colours were switched. -/
structure Drawing where
  /-- Black on white. -/
  bow : Bool
  /-- The colours are those of a mode: no reset, or a mode written behind it. -/
  coloured : Bool
  drawn : ℕ → Bool

namespace Drawing

/-- The start has the colours of mode 0, and nothing is drawn. -/
def start : Drawing := ⟨false, true, fun _ => false⟩

/-- A call. -/
def next : TvOperation → Drawing → Drawing
  | .reset, _ => ⟨false, false, fun _ => false⟩
  | .screenWrite offset _, d =>
    { d with drawn := fun k => d.drawn k || d.coloured && k == (offset : ℕ) }
  | .controlWrite offset v, d =>
    if offset = 0 then ⟨v.getLsbD 2, true, fun k => d.drawn k || d.bow != v.getLsbD 2⟩ else d
  | .screenRead _, d => d
  | .controlRead _, d => d

end Drawing

/-- What some calls have drawn. -/
def Drawing.after (ops : List TvOperation) : Drawing := ops.foldl (fun d op => d.next op) .start

/-- The mode and the buffer after a call, whatever is drawn. -/
def nextContents : TvOperation → Word × (Fin 0o100000 → Word) → Word × (Fin 0o100000 → Word)
  | .reset, _ => (0, fun _ => 0)
  | .screenWrite offset v, c => (c.1, Function.update c.2 offset v)
  | .controlWrite offset v, c => if offset = 0 then (v, c.2) else c
  | .screenRead _, c => c
  | .controlRead _, c => c

/-- The mode and the buffer. -/
def Tv.contents (t : Tv) : Word × (Fin 0o100000 → Word) := (t.mode, t.screenBuffer)

/-- The mode and the buffer with SDL3. -/
theorem Tv.contents_next (t : Tv) (op : TvOperation) :
    (t.next op).contents = nextContents op t.contents := by
  cases op with
  | reset => rfl
  | screenWrite offset v => rfl
  | screenRead offset => rfl
  | controlRead offset => rfl
  | controlWrite offset v =>
    show ((t.controlWrite offset v).getD t).contents = if offset = 0 then _ else t.contents
    rcases t.controlWrite_cases offset v with ⟨h0, t', hwrite, hmode, hbuffer, _⟩ | ⟨h0, hkeep⟩
    · rw [if_pos h0, hwrite, Option.getD_some, contents, hmode, hbuffer]
      rfl
    · rw [if_neg h0]
      cases hwrite : t.controlWrite offset v with
      | none => rfl
      | some t' =>
        obtain ⟨hmode, hbuffer, _⟩ := hkeep t' hwrite
        rw [Option.getD_some, contents, contents, hmode, hbuffer]

namespace Screen

/-- The mode and the buffer. -/
def contents (s : Screen) : Word × (Fin 0o100000 → Word) := (s.mode, s.buffer)

/-- The mode and the buffer of a screen. -/
theorem contents_next (words : ℕ) (foreground background : Word) (op : TvOperation) (s : Screen) :
    (s.next words foreground background op).contents = nextContents op s.contents := by
  cases op with
  | reset => rfl
  | screenWrite offset v => rfl
  | screenRead offset => rfl
  | controlRead offset => rfl
  | controlWrite offset v =>
    show (if offset = 0 then s.setMode words v else s).contents =
      if offset = 0 then (v, s.buffer) else s.contents
    by_cases h0 : offset = 0
    · rw [if_pos h0, if_pos h0, setMode]
      split
      · rfl
      · rfl
    · rw [if_neg h0, if_neg h0]

/-- Word `k` of the screen looks as the mode wants. -/
def Right (s : Screen) (k : ℕ) : Prop :=
  ∀ n, n / 32 = k → s.picture n = modeColour s.mode (s.bit n)

/-- What is drawn is right, and the rest has colours of a reset, or none. -/
structure Follows (words : ℕ) (foreground background : Word) (d : Drawing) (s : Screen) : Prop where
  bow : s.mode.getLsbD 2 = d.bow
  coloured : d.coloured = true →
    s.foreground = modeColour s.mode true ∧ s.background = modeColour s.mode false
  colourless : d.coloured = false → s.foreground = foreground ∧ s.background = background
  coloured_of_drawn : ∀ k, d.drawn k = true → d.coloured = true
  drawn : ∀ k < words, d.drawn k = true → s.Right k
  undrawn : ∀ k < words, d.drawn k = false → ∀ n, n / 32 = k →
    s.picture n = 0 ∨ s.picture n = foreground ∨ s.picture n = background

variable {words : ℕ} {foreground background : Word} {d : Drawing} {s : Screen}

/-- Colours of the mode. -/
theorem Follows.ink (h : s.Follows words foreground background d) (hcoloured : d.coloured = true)
    (bit : Bool) : s.ink bit = modeColour s.mode bit := by
  obtain ⟨hforeground, hbackground⟩ := h.coloured hcoloured
  cases bit with
  | true => exact hforeground
  | false => exact hbackground

/-- A word that is written is read back. -/
theorem bit_write (offset : Fin 0o100000) (v : Word) {n : ℕ} (hn : n / 32 < 0o100000) :
    (s.write offset v).bit n = if n / 32 = offset then v.getLsbD (n % 32) else s.bit n := by
  have hindex : Fin.ofNat 0o100000 (n / 32) = offset ↔ n / 32 = offset := by
    rw [Fin.ext_iff]
    show n / 32 % 0o100000 = offset ↔ _
    rw [Nat.mod_eq_of_lt hn]
  show (Function.update s.buffer offset v (Fin.ofNat _ (n / 32))).getLsbD (n % 32) = _
  rw [Function.update_apply, if_congr hindex rfl rfl]
  split <;> rfl

/-- A word is written. -/
theorem Follows.write (h : s.Follows words foreground background d) (hwords : words < 0o100000)
    (offset : Fin 0o100000) (v : Word) :
    (s.write offset v).Follows words foreground background (d.next (.screenWrite offset v)) := by
  have hother {k : ℕ} (hk : k ≠ offset) {n : ℕ} (hn : n / 32 = k) :
      (s.write offset v).picture n = s.picture n := if_neg (by omega)
  refine ⟨h.bow, h.coloured, h.colourless, ?_, ?_, ?_⟩
  · intro k hk
    rcases Bool.or_eq_true_iff.mp hk with hold | hnew
    · exact h.coloured_of_drawn k hold
    · exact (Bool.and_eq_true_iff.mp hnew).1
  · intro k hlt hk n hn
    rw [bit_write offset v (by omega)]
    by_cases heq : k = offset
    · have hcoloured : d.coloured = true := by
        rcases Bool.or_eq_true_iff.mp hk with hold | hnew
        · exact h.coloured_of_drawn k hold
        · exact (Bool.and_eq_true_iff.mp hnew).1
      rw [if_pos (by omega)]
      exact (if_pos (by omega)).trans (h.ink hcoloured _)
    · rw [hother heq hn, if_neg (by omega)]
      refine h.drawn k hlt ?_ n hn
      rcases Bool.or_eq_true_iff.mp hk with hold | hnew
      · exact hold
      · exact absurd (beq_iff_eq.mp (Bool.and_eq_true_iff.mp hnew).2) heq
  · intro k hlt hk n hn
    obtain ⟨hold, hnew⟩ := Bool.or_eq_false_iff.mp hk
    by_cases heq : k = offset
    · have hcolourless : d.coloured = false := by
        rcases Bool.and_eq_false_iff.mp hnew with hcolourless | hne
        · exact hcolourless
        · exact absurd heq (beq_eq_false_iff_ne.mp hne)
      obtain ⟨hforeground, hbackground⟩ := h.colourless hcolourless
      have hpicture : (s.write offset v).picture n = s.ink (v.getLsbD (n % 32)) :=
        if_pos (by omega)
      rw [hpicture, ← hforeground, ← hbackground]
      cases v.getLsbD (n % 32) with
      | true => exact Or.inr (Or.inl rfl)
      | false => exact Or.inr (Or.inr rfl)
    · rw [hother heq hn]
      exact h.undrawn k hlt hold n hn

/-- The mode is written. -/
theorem Follows.setMode (h : s.Follows words foreground background d) (v : Word) :
    (s.setMode words v).Follows words foreground background
      ⟨v.getLsbD 2, true, fun k => d.drawn k || d.bow != v.getLsbD 2⟩ := by
  unfold Screen.setMode
  rw [h.bow]
  by_cases hswitch : d.bow = v.getLsbD 2
  · -- the picture stays, and the colours with it
    have hcolour (bit : Bool) : modeColour s.mode bit = modeColour v bit := by
      unfold modeColour
      rw [h.bow, hswitch]
    have hsame (k : ℕ) : (d.drawn k || d.bow != v.getLsbD 2) = d.drawn k := by
      rw [hswitch, bne_self_eq_false, Bool.or_false]
    rw [if_neg (not_not.mpr hswitch)]
    refine ⟨rfl, fun _ => ⟨rfl, rfl⟩, (fun hnot => nomatch hnot), fun _ _ => rfl, ?_, ?_⟩
    · intro k hlt hk n hn
      show s.picture n = modeColour v (s.bit n)
      rw [← hcolour]
      exact h.drawn k hlt ((hsame k).symm.trans hk) n hn
    · intro k hlt hk
      exact h.undrawn k hlt ((hsame k).symm.trans hk)
  · rw [if_pos hswitch]
    have hall (k : ℕ) : (d.drawn k || d.bow != v.getLsbD 2) = true := by
      rw [bne_iff_ne.mpr hswitch, Bool.or_true]
    refine ⟨rfl, fun _ => ⟨rfl, rfl⟩, (fun hnot => nomatch hnot), fun _ _ => rfl, ?_, ?_⟩
    · intro k hlt _ n hn
      have hdrawn : ((s.withMode v).redraw words).picture n = (s.withMode v).ink (s.bit n) :=
        if_pos (by omega)
      rw [hdrawn]
      show _ = modeColour v (s.bit n)
      cases s.bit n with
      | true => rfl
      | false => rfl
    · intro k _ hk
      exact nomatch (hall k).symm.trans hk

/-- One call. -/
theorem Follows.next (h : s.Follows words foreground background d) (hwords : words < 0o100000)
    (op : TvOperation) :
    (s.next words foreground background op).Follows words foreground background (d.next op) := by
  cases op with
  | reset =>
    show (clear foreground background).Follows _ _ _ ⟨false, false, fun _ => false⟩
    exact ⟨BitVec.getLsbD_zero, (fun hcoloured => nomatch hcoloured), fun _ => ⟨rfl, rfl⟩,
      (fun k hk => nomatch hk), (fun k _ hk => nomatch hk), fun k _ _ n _ => Or.inl rfl⟩
  | screenWrite offset v => exact h.write hwords offset v
  | screenRead offset => exact h
  | controlRead offset => exact h
  | controlWrite offset v =>
    show Follows _ _ _ (if offset = 0 then _ else d) (if offset = 0 then _ else s)
    by_cases h0 : offset = 0
    · rw [if_pos h0, if_pos h0]
      exact h.setMode v
    · rw [if_neg h0, if_neg h0]
      exact h

/-- The start, whose colours are those of mode 0. -/
theorem follows_start : (clear white black).Follows words foreground background .start := by
  exact ⟨rfl, fun _ => ⟨rfl, rfl⟩, (fun hcolourless => nomatch hcolourless),
    (fun k hk => nomatch hk), (fun k _ hk => nomatch hk), fun k _ _ n _ => Or.inl rfl⟩

/-- Where a reset leaves no colour of a mode, the picture is right on the screen if and only if
every word of it has been drawn. -/
theorem Follows.right_iff (h : s.Follows words foreground background d)
    (hforeground : foreground ≠ black ∧ foreground ≠ white)
    (hbackground : background ≠ black ∧ background ≠ white) :
    (∀ k < words, s.Right k) ↔ ∀ k < words, d.drawn k = true := by
  constructor
  · intro hright k hk
    by_contra hnot
    have hpicture := hright k hk (k * 32) (Nat.mul_div_cancel _ (by decide))
    have hcolour : s.picture (k * 32) = black ∨ s.picture (k * 32) = white := by
      rw [hpicture, modeColour]
      split
      · exact Or.inl rfl
      · exact Or.inr rfl
    rcases h.undrawn k hk (Bool.eq_false_iff.mpr hnot) (k * 32)
      (Nat.mul_div_cancel _ (by decide)) with hnone | hreset | hreset
    · rw [hnone] at hcolour
      revert hcolour
      decide
    · rw [hreset] at hcolour
      exact hcolour.elim hforeground.1 hforeground.2
    · rw [hreset] at hcolour
      exact hcolour.elim hbackground.1 hbackground.2
  · intro hdrawn k hk
    exact h.drawn k hk (hdrawn k hk)

end Screen

end Usim
