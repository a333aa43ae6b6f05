import Mathlib.Data.Fin.Basic
import Mathlib.Data.Set.Basic
import Usim.IobKeyboard
import Usim.Lib.Runs

/-!
# The key codes of the SDL3 keyboard

`sdl3_keyboard_key_down` and `sdl3_keyboard_key_up` turn the events of the host keys into
codes for the guest. The host has any number of keys. The state of the keyboard that SDL
gives is the one after the event.
-/

namespace Usim

/-- `Cadet_Scancode`, which is 7 bits wide. -/
abbrev CadetScancode : Type := BitVec 7

/-- `cadet_scancode_null`, of the keys that are not mapped. -/
def cadetScancodeNull : CadetScancode := 0

/-- `cadet_scancode_rubout`. -/
def cadetScancodeRubout : CadetScancode := 0o23

/-- `cadet_scancode_return`. -/
def cadetScancodeReturn : CadetScancode := 0o136

/-- `cadet_scancode_1`. -/
def cadetScancode1 : CadetScancode := 0o121

/-- `cadet_scancode_2`. -/
def cadetScancode2 : CadetScancode := 0o61

/-- `cadet_scancode_d`. -/
def cadetScancodeD : CadetScancode := 0o163

/-- The modifiers of an all-keys-up code. -/
inductive CadetModifier
  | repeatKey | modeLock | altLock | hyper | super | metaKey | control | capsLock | top | greek
  | shift
  deriving DecidableEq

namespace CadetModifier

/-- The modifiers, in the order of their bits in the code. -/
def all : List CadetModifier :=
  [repeatKey, modeLock, altLock, hyper, super, metaKey, control, capsLock, top, greek, shift]

/-- The key of a modifier. -/
def scancode : CadetModifier → CadetScancode
  | repeatKey => 0
  | modeLock => 0o3
  | altLock => 0o15
  | hyper => 0o145
  | super => 0o5
  | metaKey => 0o45
  | control => 0o20
  | capsLock => 0o125
  | top => 0o104
  | greek => 0o44
  | shift => 0o24

/-- The bit of a modifier in an all-keys-up code. -/
def bit : CadetModifier → ℕ
  | repeatKey => 10
  | modeLock => 9
  | altLock => 8
  | hyper => 7
  | super => 6
  | metaKey => 5
  | control => 4
  | capsLock => 3
  | top => 2
  | greek => 1
  | shift => 0

/-- A lock key, whose state is tracked by a toggle. -/
def isLock : CadetModifier → Bool
  | modeLock | altLock | capsLock => true
  | _ => false

/-- The modifier of a key, if it is one. -/
def ofScancode (c : CadetScancode) : Option CadetModifier := all.find? (·.scancode = c)

end CadetModifier

namespace CadetModifier

/-- A modifier that is down while a host key of it is down. The code of `repeatKey` is
`cadet_scancode_null`, so that no host key is mapped to it. -/
def momentary (m : CadetModifier) : Bool := !m.isLock && m ≠ repeatKey

/-- The modifier of its key. -/
@[simp] theorem ofScancode_scancode (m : CadetModifier) : ofScancode m.scancode = some m := by
  cases m <;> rfl

/-- Every modifier has its own key. -/
theorem scancode_injective (m m' : CadetModifier) (h : m.scancode = m'.scancode) : m = m' := by
  rw [← Option.some_inj, ← ofScancode_scancode m, h, ofScancode_scancode]

/-- The key of the modifier that is found. -/
theorem scancode_of_ofScancode {c : CadetScancode} {m : CadetModifier}
    (h : ofScancode c = some m) : m.scancode = c := by
  simpa using List.find?_some h

/-- A key of no modifier. -/
theorem scancode_ne {c : CadetScancode} (h : ofScancode c = none) (m : CadetModifier) :
    m.scancode ≠ c := by
  rintro rfl
  rw [ofScancode_scancode] at h
  cases h

/-- No other modifier has the code of the keys that are not mapped. -/
theorem eq_repeatKey {m : CadetModifier} (h : m.scancode = cadetScancodeNull) : m = repeatKey :=
  scancode_injective m repeatKey h

end CadetModifier

/-- The key of a lock. -/
def IsLockKey (c : CadetScancode) : Prop := ∃ m : CadetModifier, m.isLock ∧ m.scancode = c

/-- `key_map` and `sdl3_special_key_scancode`. -/
structure Sdl3KeyConfig (n : ℕ) where
  keyMap : Fin n → CadetScancode
  specialKey : Option (Fin n)

/-- The state of the keyboard, with the variables of `sdl3-keyboard.c`. -/
structure Sdl3Keys (n : ℕ) where
  /-- `SDL_GetKeyboardState`. -/
  keyboardState : Fin n → Bool
  disableUpCodesForBoot : Bool
  capsLockDown : Bool
  altLockDown : Bool
  modeLockDown : Bool

/-- What the handlers of the key events ask for. -/
inductive Sdl3KeyAction
  | enqueue (scancode : Word)
  | setScalemodeLinear
  | setScalemodeNearest
  | saveState

/-- A host key goes down, perhaps again while it is down, or goes up. -/
inductive Sdl3KeyEvent (n : ℕ)
  | keyDown (key : Fin n)
  | keyUp (key : Fin n)

/-- `sdl3_keyboard_new_scancode`. -/
def newScancode : Word := (0b11111 <<< 19) ||| (0b001 <<< 16)

/-- The up-down code of a key that goes down. -/
def downCode (cadetScancode : CadetScancode) : Word :=
  newScancode ||| (cadetScancode.setWidth 32 &&& 0x7F)

/-- The up-down code of a key that goes up. -/
def upCode (cadetScancode : CadetScancode) : Word :=
  newScancode ||| (1 <<< 8) ||| (cadetScancode.setWidth 32 &&& 0x7F)

/-- The all-keys-up code with the given modifiers. -/
def allKeysUpCode (down : CadetModifier → Bool) : Word :=
  CadetModifier.all.foldl (fun w m => if down m then w ||| ((1 : Word) <<< m.bit) else w)
    (newScancode ||| (1 <<< 15))

/-- The flags of the search of `sdl3_keyboard_key_up`. -/
structure HeldSearch where
  aNonModifierKeyIsDown : Bool
  aModifierKeyIsDown : Bool
  /-- `repeat` to `shift`. -/
  down : CadetModifier → Bool

/-- A key of the search that is down. -/
def HeldSearch.visit (f : HeldSearch) (cadetScancode : CadetScancode) : HeldSearch :=
  if cadetScancode = cadetScancodeNull then f
  else
    match CadetModifier.ofScancode cadetScancode with
    | some m =>
      if m.isLock then f
      else { f with aModifierKeyIsDown := true, down := Function.update f.down m true }
    | none => { f with aNonModifierKeyIsDown := true }

namespace Sdl3KeyConfig

variable {n : ℕ} (cfg : Sdl3KeyConfig n)

/-- The loop of `sdl3_keyboard_are_all_ctrl_and_meta_down_for_boot`. -/
def bootLoop (state : Fin n → Bool) : List (Fin n) → ℕ → ℕ → Bool
  | [], nctrl, nmeta => 2 ≤ nctrl && 2 ≤ nmeta
  | i :: rest, nctrl, nmeta =>
    if cfg.keyMap i = CadetModifier.control.scancode then
      if !state i then false else bootLoop state rest (nctrl + 1) nmeta
    else if cfg.keyMap i = CadetModifier.metaKey.scancode then
      if !state i then false else bootLoop state rest nctrl (nmeta + 1)
    else bootLoop state rest nctrl nmeta

/-- `sdl3_keyboard_are_all_ctrl_and_meta_down_for_boot`. -/
def areAllCtrlAndMetaDownForBoot (state : Fin n → Bool) : Bool :=
  cfg.bootLoop state (List.finRange n) 0 0

/-- The special key is down. -/
def specialKeyDown (state : Fin n → Bool) : Bool :=
  match cfg.specialKey with
  | none => false
  | some k => state k

/-- The key completes a boot combination. -/
def bootCombination (state : Fin n → Bool) (cadetScancode : CadetScancode) : Bool :=
  (cfg.areAllCtrlAndMetaDownForBoot state || cfg.specialKeyDown state) &&
    (cadetScancode = cadetScancodeRubout || cadetScancode = cadetScancodeReturn)

/-- The loop of `sdl3_keyboard_key_up` over the keys. -/
def searchLoop (state : Fin n → Bool) : List (Fin n) → HeldSearch → HeldSearch
  | [], f => f
  | i :: rest, f =>
    if f.aNonModifierKeyIsDown then f
    else if !state i then searchLoop state rest f
    else searchLoop state rest (f.visit (cfg.keyMap i))

end Sdl3KeyConfig

namespace Sdl3Keys

variable {n : ℕ} (cfg : Sdl3KeyConfig n) (s : Sdl3Keys n)

/-- The toggles, as `sdl3_keyboard_key_up` puts them in the flags. -/
def lock : CadetModifier → Bool
  | .modeLock => s.modeLockDown
  | .altLock => s.altLockDown
  | .capsLock => s.capsLockDown
  | _ => false

/-- A lock key reverses its toggle. -/
def toggle (cadetScancode : CadetScancode) : Sdl3Keys n :=
  { s with
    capsLockDown :=
      if cadetScancode = CadetModifier.capsLock.scancode then !s.capsLockDown else s.capsLockDown
    altLockDown :=
      if cadetScancode = CadetModifier.altLock.scancode then !s.altLockDown else s.altLockDown
    modeLockDown :=
      if cadetScancode = CadetModifier.modeLock.scancode then !s.modeLockDown
      else s.modeLockDown }

/-- The machine control combinations. -/
def machineControl (cadetScancode : CadetScancode) : List Sdl3KeyAction :=
  if cadetScancode = cadetScancode1 then [.setScalemodeLinear]
  else if cadetScancode = cadetScancode2 then [.setScalemodeNearest]
  else if cadetScancode = cadetScancodeD then [.saveState]
  else []

/-- `sdl3_keyboard_key_down`. -/
def keyDown (key : Fin n) : List Sdl3KeyAction × Sdl3Keys n :=
  let cadetScancode := cfg.keyMap key
  if cadetScancode = cadetScancodeNull then ([], s)
  else
    let s := s.toggle cadetScancode
    let cmcm := cfg.areAllCtrlAndMetaDownForBoot s.keyboardState
    let specialKeyDown := cfg.specialKeyDown s.keyboardState
    let boot := cmcm || specialKeyDown
    let sendColdBoot := boot && cadetScancode = cadetScancodeRubout
    let sendWarmBoot := boot && cadetScancode = cadetScancodeReturn
    if specialKeyDown then
      (machineControl cadetScancode, { s with disableUpCodesForBoot := true })
    else if sendColdBoot then
      ([.enqueue (downCode cadetScancode), .enqueue coldBootScancode],
        { s with disableUpCodesForBoot := true })
    else if sendWarmBoot then
      ([.enqueue (downCode cadetScancode), .enqueue warmBootScancode],
        { s with disableUpCodesForBoot := true })
    else ([.enqueue (downCode cadetScancode)], { s with disableUpCodesForBoot := false })

/-- The search of `sdl3_keyboard_key_up`. -/
def search : HeldSearch :=
  cfg.searchLoop s.keyboardState (List.finRange n)
    { aNonModifierKeyIsDown := false
      aModifierKeyIsDown := s.modeLockDown || s.altLockDown || s.capsLockDown
      down := s.lock }

/-- `sdl3_keyboard_key_up`. -/
def keyUp (key : Fin n) : List Sdl3KeyAction × Sdl3Keys n :=
  if s.disableUpCodesForBoot then ([], s)
  else
    let cadetScancode := cfg.keyMap key
    if cadetScancode = cadetScancodeNull then ([], s)
    else
      let f := s.search cfg
      let sendUpDownCode :=
        if f.aNonModifierKeyIsDown then true else if f.aModifierKeyIsDown then false else true
      if sendUpDownCode then ([.enqueue (upCode cadetScancode)], s)
      else ([.enqueue (allKeysUpCode f.down)], s)

/-- A key goes down on the keyboard. -/
def press (key : Fin n) : Sdl3Keys n :=
  { s with keyboardState := Function.update s.keyboardState key true }

/-- A key goes up on the keyboard. -/
def release (key : Fin n) : Sdl3Keys n :=
  { s with keyboardState := Function.update s.keyboardState key false }

/-- A key event. -/
def handle : Sdl3KeyEvent n → List Sdl3KeyAction × Sdl3Keys n
  | .keyDown key => (s.press key).keyDown cfg key
  | .keyUp key => (s.release key).keyUp cfg key

/-- When the program starts no key is down. -/
def start : Sdl3Keys n := ⟨fun _ => false, false, false, false, false⟩

/-- The cadet keys that the host holds: a lock key while its toggle is on, any other key
while a host key mapped to it is down. -/
def held : Set CadetScancode :=
  { c | (∃ m, s.lock m = true ∧ m.scancode = c) ∨
    ¬IsLockKey c ∧ c ≠ cadetScancodeNull ∧ ∃ k, s.keyboardState k = true ∧ cfg.keyMap k = c }

end Sdl3Keys

/-- The codes that are enqueued. -/
def Sdl3KeyAction.code? : Sdl3KeyAction → Option Word
  | .enqueue scancode => some scancode
  | _ => none

/-- What the guest makes of a code: bit 15 is set in an all-keys-up code, and bit 8 in the
up-down code of a key that goes up. -/
def guestKeys (pressed : Set CadetScancode) (w : Word) : Set CadetScancode :=
  if w.getLsbD 15 then { c | ∃ m : CadetModifier, w.getLsbD m.bit = true ∧ m.scancode = c }
  else if w.getLsbD 8 then pressed \ {w.setWidth 7}
  else insert (w.setWidth 7) pressed

/-- The keyboard, with the keys that the guest takes for pressed. -/
structure KeyedGuest (n : ℕ) where
  keys : Sdl3Keys n
  pressed : Set CadetScancode

namespace KeyedGuest

variable {n : ℕ} (cfg : Sdl3KeyConfig n)

/-- A key event, and the codes of it. -/
def next (s : KeyedGuest n) (e : Sdl3KeyEvent n) : KeyedGuest n where
  keys := (s.keys.handle cfg e).2
  pressed := ((s.keys.handle cfg e).1.filterMap Sdl3KeyAction.code?).foldl guestKeys s.pressed

/-- A key event, as a step of a run. -/
def step (e : Sdl3KeyEvent n) (s : KeyedGuest n) : Except Empty (KeyedGuest n) := .ok (s.next cfg e)

/-- No key is down. -/
def start : KeyedGuest n := ⟨.start, ∅⟩

/-- The guest takes exactly the keys that the host holds for pressed. -/
def InStep (s : KeyedGuest n) : Prop := s.pressed = s.keys.held cfg

/-- The event completes no boot combination. -/
def NoBoot : Sdl3KeyEvent n → KeyedGuest n → Prop
  | .keyDown key, s => cfg.bootCombination (s.keys.press key).keyboardState (cfg.keyMap key) = false
  | .keyUp _, _ => True

end KeyedGuest

/-! ### The search -/

namespace HeldSearch

open CadetModifier

variable {f : HeldSearch} {c : CadetScancode} {m : CadetModifier}

/-- A key of no modifier. -/
theorem visit_nonModifier (h : ofScancode c = none) :
    f.visit c = { f with aNonModifierKeyIsDown := true } := by
  have hnull : c ≠ cadetScancodeNull := fun hc => scancode_ne h repeatKey hc.symm
  simp only [visit, if_neg hnull, h]

/-- The key of a modifier that is down with it. -/
theorem visit_momentary (h : m.momentary = true) :
    f.visit m.scancode =
      { f with aModifierKeyIsDown := true, down := Function.update f.down m true } := by
  simp only [momentary, Bool.and_eq_true, Bool.not_eq_true', decide_eq_true_eq] at h
  have hnull : m.scancode ≠ cadetScancodeNull := fun hc => h.2 (eq_repeatKey hc)
  simp only [visit, if_neg hnull, ofScancode_scancode, h.1, Bool.false_eq_true, if_false]

/-- The key of a lock, and one that is not mapped. -/
theorem visit_ignored (h : m.momentary = false) : f.visit m.scancode = f := by
  by_cases hnull : m.scancode = cadetScancodeNull
  · rw [visit, if_pos hnull]
  · have hlock : m.isLock = true := by
      by_contra hlock
      have hrepeat : m ≠ repeatKey := fun hm => hnull (hm ▸ rfl)
      simp [momentary, hlock, hrepeat] at h
    simp only [visit, if_neg hnull, ofScancode_scancode, hlock, if_true]

end HeldSearch

namespace Sdl3KeyConfig

open CadetModifier

variable {n : ℕ} {cfg : Sdl3KeyConfig n} {state : Fin n → Bool}

/-- What the search over the keys `is` finds. Unless a non-modifier key is down it sees all
keys. -/
structure Finds (cfg : Sdl3KeyConfig n) (state : Fin n → Bool) (is : List (Fin n))
    (f g : HeldSearch) : Prop where
  nonModifier : g.aNonModifierKeyIsDown = true ↔ f.aNonModifierKeyIsDown = true ∨
    ∃ i ∈ is, state i = true ∧ ofScancode (cfg.keyMap i) = none
  down : g.aNonModifierKeyIsDown = false → ∀ m : CadetModifier, g.down m = true ↔ f.down m = true ∨
    m.momentary = true ∧ ∃ i ∈ is, state i = true ∧ cfg.keyMap i = m.scancode
  modifier : g.aNonModifierKeyIsDown = false → (g.aModifierKeyIsDown = true ↔
    f.aModifierKeyIsDown = true ∨
      ∃ m : CadetModifier, m.momentary = true ∧
        ∃ i ∈ is, state i = true ∧ cfg.keyMap i = m.scancode)

/-- A key that changes nothing. -/
theorem Finds.skip {i : Fin n} {is : List (Fin n)} {f g : HeldSearch} (h : cfg.Finds state is f g)
    (hnone : state i = true → ofScancode (cfg.keyMap i) ≠ none)
    (hmomentary : state i = true →
      ∀ m : CadetModifier, cfg.keyMap i = m.scancode → m.momentary = false) :
    cfg.Finds state (i :: is) f g := by
  have hkey : ∀ m : CadetModifier, m.momentary = true →
      ((∃ j ∈ i :: is, state j = true ∧ cfg.keyMap j = m.scancode) ↔
        ∃ j ∈ is, state j = true ∧ cfg.keyMap j = m.scancode) := by
    intro m hm
    rw [List.exists_mem_cons_iff]
    refine or_iff_right ?_
    rintro ⟨hi, hc⟩
    rw [hmomentary hi m hc] at hm
    cases hm
  constructor
  · rw [h.nonModifier, List.exists_mem_cons_iff]
    refine or_congr_right (or_iff_right ?_).symm
    exact fun hi => hnone hi.1 hi.2
  · intro hg m
    rw [h.down hg m]
    exact or_congr_right (and_congr_right fun hm => (hkey m hm).symm)
  · intro hg
    rw [h.modifier hg]
    exact or_congr_right (exists_congr fun m => and_congr_right fun hm => (hkey m hm).symm)

/-- A non-modifier key that is down. -/
theorem Finds.stop {i : Fin n} {is : List (Fin n)} {f g : HeldSearch}
    (hi : state i = true) (hnone : ofScancode (cfg.keyMap i) = none)
    (hg : g.aNonModifierKeyIsDown = true) : cfg.Finds state (i :: is) f g where
  nonModifier := ⟨fun _ => .inr ⟨i, List.mem_cons_self, hi, hnone⟩, fun _ => hg⟩
  down := fun h => absurd h (by simp [hg])
  modifier := fun h => absurd h (by simp [hg])

/-- A modifier that is down. -/
theorem Finds.mark {i : Fin n} {is : List (Fin n)} {f g : HeldSearch} {m : CadetModifier}
    (h : cfg.Finds state is
      { f with aModifierKeyIsDown := true, down := Function.update f.down m true } g)
    (hi : state i = true) (hc : cfg.keyMap i = m.scancode) (hm : m.momentary = true) :
    cfg.Finds state (i :: is) f g := by
  constructor
  · rw [h.nonModifier, List.exists_mem_cons_iff, hc, ofScancode_scancode]
    simp
  · intro hg m'
    rw [h.down hg m', List.exists_mem_cons_iff, hc]
    by_cases hmm : m' = m
    · subst hmm
      simp [hm, hi]
    · have hne : m.scancode ≠ m'.scancode := fun he => hmm (scancode_injective m m' he).symm
      simp [Function.update_of_ne hmm, hne]
  · intro hg
    rw [h.modifier hg]
    simp only [true_or, true_iff]
    exact .inr ⟨m, hm, i, List.mem_cons_self, hi, hc⟩

/-- The loop over the keys. -/
theorem finds_searchLoop (is : List (Fin n)) (f : HeldSearch) :
    cfg.Finds state is f (cfg.searchLoop state is f) := by
  induction is generalizing f with
  | nil => exact ⟨by simp [searchLoop], by simp [searchLoop], by simp [searchLoop]⟩
  | cons i is ih =>
    rw [searchLoop]
    by_cases hf : f.aNonModifierKeyIsDown = true
    · rw [if_pos hf]
      exact ⟨by simp [hf], by simp [hf], by simp [hf]⟩
    · rw [if_neg hf]
      cases hi : state i with
      | false => exact (ih f).skip (by simp [hi]) (by simp [hi])
      | true =>
        simp only [Bool.not_true, Bool.false_eq_true, if_false]
        cases hc : ofScancode (cfg.keyMap i) with
        | none =>
          refine Finds.stop hi hc ?_
          rw [HeldSearch.visit_nonModifier hc]
          exact (ih _).nonModifier.mpr (.inl rfl)
        | some m =>
          have hkey := (scancode_of_ofScancode hc).symm
          rw [hkey]
          cases hm : m.momentary with
          | false =>
            rw [HeldSearch.visit_ignored hm]
            refine (ih f).skip (fun _ => by simp [hc]) fun _ m' hm' => ?_
            rwa [← scancode_injective m m' (hkey ▸ hm')]
          | true =>
            rw [HeldSearch.visit_momentary hm]
            exact (ih _).mark hi hkey hm

end Sdl3KeyConfig

/-! ### What the guest makes of the codes -/

/-- The code of a key that goes down. -/
theorem guestKeys_downCode (pressed : Set CadetScancode) (c : CadetScancode) :
    guestKeys pressed (downCode c) = insert c pressed := by
  have hcode : ∀ c : CadetScancode, (downCode c).getLsbD 15 = false ∧
      (downCode c).getLsbD 8 = false ∧ (downCode c).setWidth 7 = c := by decide
  obtain ⟨hallUp, hup, hkey⟩ := hcode c
  simp only [guestKeys, hallUp, hup, hkey, Bool.false_eq_true, if_false]

/-- The up-down code of a key that goes up. -/
theorem guestKeys_upCode (pressed : Set CadetScancode) (c : CadetScancode) :
    guestKeys pressed (upCode c) = pressed \ {c} := by
  have hcode : ∀ c : CadetScancode, (upCode c).getLsbD 15 = false ∧
      (upCode c).getLsbD 8 = true ∧ (upCode c).setWidth 7 = c := by decide
  obtain ⟨hallUp, hup, hkey⟩ := hcode c
  simp only [guestKeys, hallUp, hup, hkey, Bool.false_eq_true, if_false, if_true]

/-- The bits that the modifiers set. -/
theorem getLsbD_foldl_modifiers (down : CadetModifier → Bool) (ms : List CadetModifier) (w : Word)
    {j : ℕ} (hj : j < 32) :
    (ms.foldl (fun w m => if down m then w ||| ((1 : Word) <<< m.bit) else w) w).getLsbD j =
      (w.getLsbD j || ms.any fun m => down m && m.bit = j) := by
  induction ms generalizing w with
  | nil => simp
  | cons m ms ih =>
    rw [List.foldl_cons, ih, List.any_cons, ← Bool.or_assoc]
    congr 1
    cases down m with
    | false => simp
    | true =>
      have hbit : ((1 : Word) <<< m.bit).getLsbD j = decide (m.bit = j) := by
        change (1#32 <<< m.bit).getLsbD j = _
        rw [← BitVec.twoPow_eq, BitVec.getLsbD_twoPow]
        by_cases h : m.bit = j
        · simp [h, hj]
        · simp [h]
      simp only [if_true, BitVec.getLsbD_or, hbit, Bool.true_and]

/-- The all-keys-up code. -/
theorem guestKeys_allKeysUpCode (pressed : Set CadetScancode) (down : CadetModifier → Bool) :
    guestKeys pressed (allKeysUpCode down) = { c | ∃ m, down m = true ∧ m.scancode = c } := by
  have hbit : ∀ m : CadetModifier, (allKeysUpCode down).getLsbD m.bit = down m := by
    intro m
    have hlt : m.bit < 32 := by cases m <;> decide
    have hbase : (newScancode ||| (1 <<< 15)).getLsbD m.bit = false := by cases m <;> rfl
    rw [allKeysUpCode, getLsbD_foldl_modifiers down _ _ hlt, hbase]
    cases m <;> simp [CadetModifier.all, CadetModifier.bit]
  have hallUp : (allKeysUpCode down).getLsbD 15 = true := by
    rw [allKeysUpCode, getLsbD_foldl_modifiers down _ _ (j := 15) (by decide)]
    rfl
  simp only [guestKeys, hallUp, if_true, hbit]

/-! ### What the host holds -/

namespace Sdl3Keys

open CadetModifier

variable {n : ℕ} {cfg : Sdl3KeyConfig n} {s : Sdl3Keys n} {key : Fin n} {c : CadetScancode}
  {m : CadetModifier}

/-- Only the lock keys have toggles. -/
theorem isLock_of_lock (h : s.lock m = true) : m.isLock = true := by
  cases m <;> first | rfl | cases h

/-- A key of no modifier is held while a host key is down. -/
theorem mem_held_of_none (hc : ofScancode c = none) :
    c ∈ s.held cfg ↔ ∃ k, s.keyboardState k = true ∧ cfg.keyMap k = c := by
  have hnull : c ≠ cadetScancodeNull := fun h => scancode_ne hc repeatKey h.symm
  constructor
  · rintro (⟨m, -, hm⟩ | ⟨-, -, hk⟩)
    · exact absurd hm (scancode_ne hc m)
    · exact hk
  · intro hk
    exact .inr ⟨fun ⟨m, _, hm⟩ => scancode_ne hc m hm, hnull, hk⟩

/-- A modifier is held by its toggle or by a host key. -/
theorem mem_held_scancode : m.scancode ∈ s.held cfg ↔ s.lock m = true ∨
    m.momentary = true ∧ ∃ k, s.keyboardState k = true ∧ cfg.keyMap k = m.scancode := by
  constructor
  · rintro (⟨m', hlock, hm⟩ | ⟨hlock, hnull, hk⟩)
    · exact .inl (scancode_injective m' m hm ▸ hlock)
    · have hnotLock : m.isLock = false := Bool.not_eq_true _ ▸ fun h => hlock ⟨m, h, rfl⟩
      have hrepeat : m ≠ repeatKey := fun h => hnull (h ▸ rfl)
      refine .inr ⟨?_, hk⟩
      rw [momentary, hnotLock, Bool.not_false, Bool.true_and]
      exact decide_eq_true hrepeat
  · rintro (hlock | ⟨hm, hk⟩)
    · exact .inl ⟨m, hlock, rfl⟩
    · simp only [momentary, Bool.and_eq_true, Bool.not_eq_true', decide_eq_true_eq] at hm
      refine .inr ⟨?_, fun hnull => hm.2 (eq_repeatKey hnull), hk⟩
      rintro ⟨m', hlock, hm'⟩
      rw [scancode_injective m' m hm', hm.1] at hlock
      cases hlock

/-- A non-modifier key is down. -/
def NonModifierDown (cfg : Sdl3KeyConfig n) (s : Sdl3Keys n) : Prop :=
  ∃ k, s.keyboardState k = true ∧ ofScancode (cfg.keyMap k) = none

/-- The search of the keyboard. -/
theorem finds_search : cfg.Finds s.keyboardState (List.finRange n)
    ⟨false, s.modeLockDown || s.altLockDown || s.capsLockDown, s.lock⟩ (s.search cfg) :=
  Sdl3KeyConfig.finds_searchLoop _ _

/-- The search sees the non-modifier keys. -/
theorem search_nonModifier :
    (s.search cfg).aNonModifierKeyIsDown = true ↔ s.NonModifierDown cfg := by
  rw [finds_search.nonModifier]
  simp [NonModifierDown]

/-- Unless there is one, it sees the modifiers that are held. -/
theorem search_down (h : ¬s.NonModifierDown cfg) :
    { c | ∃ m, (s.search cfg).down m = true ∧ m.scancode = c } = s.held cfg := by
  have hnone : (s.search cfg).aNonModifierKeyIsDown = false :=
    Bool.not_eq_true _ ▸ fun hd => h (search_nonModifier.mp hd)
  have hdown : ∀ m, (s.search cfg).down m = true ↔ m.scancode ∈ s.held cfg := by
    intro m
    rw [mem_held_scancode, finds_search.down hnone m]
    simp
  ext c
  constructor
  · rintro ⟨m, hm, rfl⟩
    exact (hdown m).mp hm
  · intro hc
    cases hmod : ofScancode c with
    | none =>
      obtain ⟨k, hk, rfl⟩ := (mem_held_of_none hmod).mp hc
      exact absurd ⟨k, hk, hmod⟩ h
    | some m =>
      obtain rfl := scancode_of_ofScancode hmod
      exact ⟨m, (hdown m).mpr hc, rfl⟩

/-- Unless there is one, it sees whether a modifier is held. -/
theorem search_modifier (h : ¬s.NonModifierDown cfg) :
    (s.search cfg).aModifierKeyIsDown = true ↔ (s.held cfg).Nonempty := by
  have hnone : (s.search cfg).aNonModifierKeyIsDown = false :=
    Bool.not_eq_true _ ▸ fun hd => h (search_nonModifier.mp hd)
  have hlock : (s.modeLockDown || s.altLockDown || s.capsLockDown) = true ↔
      ∃ m, s.lock m = true := by
    simp only [Bool.or_eq_true]
    constructor
    · rintro ((hl | hl) | hl)
      exacts [⟨modeLock, hl⟩, ⟨altLock, hl⟩, ⟨capsLock, hl⟩]
    · rintro ⟨m, hm⟩
      cases m
      case modeLock => exact .inl (.inl hm)
      case altLock => exact .inl (.inr hm)
      case capsLock => exact .inr hm
      all_goals cases hm
  rw [finds_search.modifier hnone, hlock, ← exists_or]
  simp only [List.mem_finRange, true_and, ← mem_held_scancode]
  constructor
  · rintro ⟨m, hm⟩
    exact ⟨_, hm⟩
  · rintro ⟨c, hc⟩
    have hdown := hc
    rw [← search_down h] at hdown
    obtain ⟨m, -, rfl⟩ := hdown
    exact ⟨m, hc⟩

/-- A key event leaves the other cadet keys. -/
theorem mem_held_congr {t : Sdl3Keys n} (hlock : ∀ m, m.scancode = c → t.lock m = s.lock m)
    (hstate : ∀ k, cfg.keyMap k = c → t.keyboardState k = s.keyboardState k) :
    c ∈ t.held cfg ↔ c ∈ s.held cfg := by
  refine or_congr (exists_congr fun m => and_congr_left fun hm => ?_)
    (and_congr_right fun _ => and_congr_right fun _ => exists_congr fun k =>
      and_congr_left fun hk => ?_)
  · rw [hlock m hm]
  · rw [hstate k hk]

/-- A key that goes up leaves the other cadet keys. -/
theorem mem_held_release (hc : c ≠ cfg.keyMap key) :
    c ∈ (s.release key).held cfg ↔ c ∈ s.held cfg := by
  refine mem_held_congr (fun m _ => by cases m <;> rfl) fun k hk => ?_
  exact Function.update_of_ne (fun h => hc (by rw [← hk, h])) _ _

/-- A key that goes up adds none. -/
theorem held_release_subset : (s.release key).held cfg ⊆ s.held cfg := by
  rintro c (⟨m, hlock, hm⟩ | ⟨hlock, hnull, k, hk, hkey⟩)
  · refine .inl ⟨m, ?_, hm⟩
    cases m <;> exact hlock
  · refine .inr ⟨hlock, hnull, k, ?_, hkey⟩
    by_cases hne : k = key
    · simp [release, hne] at hk
    · change Function.update _ _ _ _ = _ at hk
      rwa [Function.update_of_ne hne] at hk

/-- A lock key reverses its own toggle. -/
theorem lock_toggle : (s.toggle c).lock m =
    if m.isLock = true ∧ c = m.scancode then !s.lock m else s.lock m := by
  cases m
  case modeLock | altLock | capsLock =>
    simp only [lock, toggle, CadetModifier.isLock, true_and]
  all_goals rfl

/-- A key that goes down leaves the other cadet keys. -/
theorem mem_held_press (hc : c ≠ cfg.keyMap key) :
    c ∈ (s.press key).held cfg ↔ c ∈ s.held cfg := by
  refine mem_held_congr (fun m _ => by cases m <;> rfl) fun k hk => ?_
  exact Function.update_of_ne (fun h => hc (by rw [← hk, h])) _ _

/-- Its toggle leaves them too. -/
theorem mem_held_toggle {c' : CadetScancode} (hc : c ≠ c') :
    c ∈ (s.toggle c').held cfg ↔ c ∈ s.held cfg := by
  refine mem_held_congr (fun m hm => ?_) fun _ _ => rfl
  rw [lock_toggle, if_neg fun h => hc (by rw [h.2, hm])]

/-- No key that is not mapped is held. -/
theorem null_notMem_held : cadetScancodeNull ∉ s.held cfg := by
  rintro (⟨m, hlock, hm⟩ | ⟨-, hnull, -⟩)
  · rw [eq_repeatKey hm] at hlock
    cases hlock
  · exact hnull rfl

/-- A lock key that goes down is held if its toggle was off. -/
theorem mem_held_press_lock (hm : m.isLock = true) (hkey : cfg.keyMap key = m.scancode) :
    cfg.keyMap key ∈ ((s.press key).toggle (cfg.keyMap key)).held cfg ↔ s.lock m = false := by
  have hmomentary : m.momentary = false := by rw [momentary, hm, Bool.not_true, Bool.false_and]
  have hlock : (s.press key).lock m = s.lock m := by cases m <;> rfl
  rw [hkey, mem_held_scancode, hmomentary, lock_toggle, if_pos ⟨hm, rfl⟩, hlock]
  simp

/-- Any other key that goes down is held. -/
theorem mem_held_press_self (hlock : ¬IsLockKey (cfg.keyMap key))
    (hnull : cfg.keyMap key ≠ cadetScancodeNull) :
    cfg.keyMap key ∈ ((s.press key).toggle (cfg.keyMap key)).held cfg :=
  .inr ⟨hlock, hnull, key, by simp [toggle, press], rfl⟩

/-- What the host holds does not depend on whether up codes are sent. -/
theorem held_disableUpCodes (b : Bool) :
    held cfg { s with disableUpCodesForBoot := b } = s.held cfg := by
  ext c
  exact mem_held_congr (fun m _ => by cases m <;> rfl) fun _ _ => rfl

end Sdl3Keys

namespace KeyedGuest

open Sdl3Keys

variable {n : ℕ} {cfg : Sdl3KeyConfig n} {s : KeyedGuest n} {key : Fin n}

/-- The lock of the key is on. -/
def LockOn (c : CadetScancode) (s : KeyedGuest n) : Prop :=
  ∃ m, s.keys.lock m = true ∧ m.scancode = c

/-- After the event the guest is still in step. A mapped key goes down, without the special
key, that is no lock which is on; or, under the special key, that is no lock and is held. A
mapped key goes up that is not held any more, or no non-modifier key is down; or, where up codes
are disabled, that is not held or still held. -/
def StaysInStep (cfg : Sdl3KeyConfig n) : Sdl3KeyEvent n → KeyedGuest n → Prop
  | .keyDown key, s => cfg.keyMap key ≠ cadetScancodeNull →
    if cfg.specialKeyDown (s.keys.press key).keyboardState then
      ¬IsLockKey (cfg.keyMap key) ∧ cfg.keyMap key ∈ s.keys.held cfg
    else ¬s.LockOn (cfg.keyMap key)
  | .keyUp key, s => cfg.keyMap key ≠ cadetScancodeNull →
    if s.keys.disableUpCodesForBoot then
      cfg.keyMap key ∈ s.keys.held cfg → cfg.keyMap key ∈ (s.keys.release key).held cfg
    else (s.keys.release key).NonModifierDown cfg →
      cfg.keyMap key ∉ (s.keys.release key).held cfg

/-- Only lock keys have locks that are on. -/
theorem LockOn.isLockKey {c : CadetScancode} (h : s.LockOn c) : IsLockKey c :=
  h.imp fun _ hm => ⟨isLock_of_lock hm.1, hm.2⟩

/-- A lock key is held while it is on. -/
theorem mem_held_iff_lockOn {c : CadetScancode} (h : IsLockKey c) :
    c ∈ s.keys.held cfg ↔ s.LockOn c :=
  or_iff_left fun hkey => hkey.1 h

/-- Two sets that agree on all other keys. -/
theorem eq_iff_of_ne {a b : Set CadetScancode} {c : CadetScancode}
    (h : ∀ c', c' ≠ c → (c' ∈ a ↔ c' ∈ b)) : a = b ↔ (c ∈ a ↔ c ∈ b) := by
  constructor
  · rintro rfl
    rfl
  · intro hc
    ext c'
    by_cases hne : c' = c
    · rw [hne, hc]
    · exact h c' hne

/-- A key goes down that completes no boot combination. -/
theorem keyDown_of_noBoot {s : Sdl3Keys n} (hnull : cfg.keyMap key ≠ cadetScancodeNull)
    (hboot : cfg.bootCombination s.keyboardState (cfg.keyMap key) = false) :
    s.keyDown cfg key =
      if cfg.specialKeyDown s.keyboardState then
        (machineControl (cfg.keyMap key),
          { s.toggle (cfg.keyMap key) with disableUpCodesForBoot := true })
      else
        ([.enqueue (downCode (cfg.keyMap key))],
          { s.toggle (cfg.keyMap key) with disableUpCodesForBoot := false }) := by
  have hstate : (s.toggle (cfg.keyMap key)).keyboardState = s.keyboardState := rfl
  rw [Sdl3KeyConfig.bootCombination, Bool.and_or_distrib_left, Bool.or_eq_false_iff] at hboot
  simp only [keyDown, if_neg hnull, hstate, hboot.1, hboot.2, Bool.false_eq_true, if_false]

/-- The machine control combinations enqueue nothing. -/
theorem filterMap_machineControl (c : CadetScancode) :
    (machineControl c).filterMap Sdl3KeyAction.code? = [] := by
  unfold machineControl
  split_ifs <;> rfl

/-- A key goes up while a non-modifier key is down, or no key at all is held. -/
theorem keyUp_upCode {s : Sdl3Keys n} (hnull : cfg.keyMap key ≠ cadetScancodeNull)
    (h : s.disableUpCodesForBoot = false)
    (hcase : s.NonModifierDown cfg ∨ s.held cfg = ∅) :
    s.keyUp cfg key = ([.enqueue (upCode (cfg.keyMap key))], s) := by
  simp only [keyUp, h, Bool.false_eq_true, if_false, if_neg hnull]
  cases hnone : (s.search cfg).aNonModifierKeyIsDown with
  | true => rfl
  | false =>
    have hnot : ¬s.NonModifierDown cfg := by
      rw [← search_nonModifier, hnone]
      exact Bool.false_ne_true
    have hempty := hcase.resolve_left hnot
    have hmod : (s.search cfg).aModifierKeyIsDown = false := by
      rw [← Bool.not_eq_true, search_modifier hnot, hempty]
      exact Set.not_nonempty_empty
    rw [hmod]
    rfl

/-- A key goes up while only modifiers are held. -/
theorem keyUp_allKeysUpCode {s : Sdl3Keys n} (hnull : cfg.keyMap key ≠ cadetScancodeNull)
    (h : s.disableUpCodesForBoot = false) (hnone : ¬s.NonModifierDown cfg)
    (hheld : (s.held cfg).Nonempty) :
    s.keyUp cfg key = ([.enqueue (allKeysUpCode (s.search cfg).down)], s) := by
  have hfalse : (s.search cfg).aNonModifierKeyIsDown = false := by
    rw [← Bool.not_eq_true, search_nonModifier]
    exact hnone
  simp only [keyUp, h, Bool.false_eq_true, if_false, if_neg hnull, hfalse,
    (search_modifier hnone).mpr hheld, if_true]

/-- A key that is not mapped changes nothing. -/
theorem inStep_of_null {e : Sdl3KeyEvent n} (h : s.InStep cfg)
    (hnull : cfg.keyMap key = cadetScancodeNull) (he : e = .keyDown key ∨ e = .keyUp key) :
    (s.next cfg e).InStep cfg := by
  have hheld : ∀ t : Sdl3Keys n, (∀ c, c ≠ cfg.keyMap key → (c ∈ t.held cfg ↔
      c ∈ s.keys.held cfg)) → s.keys.held cfg = t.held cfg := by
    intro t ht
    refine (eq_iff_of_ne (c := cfg.keyMap key) fun c hc => (ht c hc).symm).mpr ?_
    rw [hnull]
    exact iff_of_false null_notMem_held null_notMem_held
  rcases he with rfl | rfl
  · have hhandle : s.keys.handle cfg (.keyDown key) = ([], s.keys.press key) := by
      simp only [handle, keyDown, if_pos hnull]
    rw [InStep, next, hhandle]
    exact h.trans (hheld _ fun c hc => mem_held_press hc)
  · have hhandle : s.keys.handle cfg (.keyUp key) = ([], s.keys.release key) := by
      simp only [handle, keyUp, if_pos hnull, ite_self]
    rw [InStep, next, hhandle]
    exact h.trans (hheld _ fun c hc => mem_held_release hc)

/-- A key goes down. -/
theorem inStep_keyDown_iff (h : s.InStep cfg) (hboot : NoBoot cfg (.keyDown key) s) :
    (s.next cfg (.keyDown key)).InStep cfg ↔ StaysInStep cfg (.keyDown key) s := by
  by_cases hnull : cfg.keyMap key = cadetScancodeNull
  · exact iff_of_true (inStep_of_null h hnull (.inl rfl)) fun hmapped => absurd hnull hmapped
  have hothers : ∀ c, c ≠ cfg.keyMap key →
      (c ∈ ((s.keys.press key).toggle (cfg.keyMap key)).held cfg ↔ c ∈ s.keys.held cfg) :=
    fun c hc => (mem_held_toggle hc).trans (mem_held_press hc)
  have hself : cfg.keyMap key ∈ ((s.keys.press key).toggle (cfg.keyMap key)).held cfg ↔
      ¬s.LockOn (cfg.keyMap key) := by
    by_cases hlock : IsLockKey (cfg.keyMap key)
    · obtain ⟨m, hm, hkey⟩ := hlock
      rw [mem_held_press_lock hm hkey.symm, ← Bool.not_eq_true, not_iff_not]
      constructor
      · exact fun hon => ⟨m, hon, hkey⟩
      · rintro ⟨m', hon, hkey'⟩
        rwa [CadetModifier.scancode_injective m m' (hkey.trans hkey'.symm)]
    · exact iff_of_true (mem_held_press_self hlock hnull) fun hon => hlock hon.isLockKey
  have hhandle := keyDown_of_noBoot (s := s.keys.press key) hnull hboot
  simp only [StaysInStep]
  rw [forall_prop_of_true hnull, InStep, next, handle, hhandle]
  by_cases hspecial : cfg.specialKeyDown (s.keys.press key).keyboardState = true
  · rw [if_pos hspecial, if_pos hspecial, filterMap_machineControl, held_disableUpCodes]
    change s.pressed = _ ↔ _
    rw [h, eq_iff_of_ne fun c hc => (hothers c hc).symm, hself]
    by_cases hlock : IsLockKey (cfg.keyMap key)
    · rw [mem_held_iff_lockOn hlock]
      exact iff_of_false iff_not_self fun hkey => hkey.1 hlock
    · have hoff : ¬s.LockOn (cfg.keyMap key) := fun hon => hlock hon.isLockKey
      simp only [hoff, hlock, not_false_eq_true, iff_true, true_and]
  · rw [if_neg hspecial, if_neg hspecial, held_disableUpCodes]
    change guestKeys s.pressed _ = _ ↔ _
    rw [guestKeys_downCode, h, eq_iff_of_ne (c := cfg.keyMap key), hself]
    · simp
    · intro c hc
      rw [hothers c hc, Set.mem_insert_iff, or_iff_right hc]

/-- A key goes up. -/
theorem inStep_keyUp_iff (h : s.InStep cfg) :
    (s.next cfg (.keyUp key)).InStep cfg ↔ StaysInStep cfg (.keyUp key) s := by
  by_cases hnull : cfg.keyMap key = cadetScancodeNull
  · exact iff_of_true (inStep_of_null h hnull (.inr rfl)) fun hmapped => absurd hnull hmapped
  have hothers : ∀ c, c ≠ cfg.keyMap key →
      (c ∈ s.keys.held cfg ↔ c ∈ (s.keys.release key).held cfg) :=
    fun c hc => (mem_held_release hc).symm
  have hremoved : s.keys.held cfg \ {cfg.keyMap key} = (s.keys.release key).held cfg ↔
      cfg.keyMap key ∉ (s.keys.release key).held cfg := by
    rw [eq_iff_of_ne (c := cfg.keyMap key)]
    · simp
    · intro c hc
      rw [← hothers c hc, Set.mem_sdiff_singleton, and_iff_left hc]
  simp only [StaysInStep]
  rw [forall_prop_of_true hnull, InStep, next, handle]
  cases hdisabled : s.keys.disableUpCodesForBoot with
  | true =>
    have hup : (s.keys.release key).keyUp cfg key = ([], s.keys.release key) := by
      rw [keyUp]
      exact if_pos hdisabled
    rw [hup, if_pos rfl]
    change s.pressed = _ ↔ _
    rw [h, eq_iff_of_ne hothers]
    exact ⟨Iff.mp, fun hstill => ⟨hstill, fun hheld => held_release_subset hheld⟩⟩
  | false =>
    have henabled : (s.keys.release key).disableUpCodesForBoot = false := hdisabled
    rw [if_neg Bool.false_ne_true]
    by_cases hnone : (s.keys.release key).NonModifierDown cfg
    · rw [keyUp_upCode hnull henabled (.inl hnone), forall_prop_of_true hnone]
      change guestKeys s.pressed _ = _ ↔ _
      rw [guestKeys_upCode, h, hremoved]
    · refine iff_of_true ?_ fun hdown => absurd hdown hnone
      rcases Set.eq_empty_or_nonempty ((s.keys.release key).held cfg) with hempty | hheld
      · rw [keyUp_upCode hnull henabled (.inr hempty)]
        change guestKeys s.pressed _ = _
        rw [guestKeys_upCode, h, hremoved, hempty]
        exact Set.notMem_empty _
      · rw [keyUp_allKeysUpCode hnull henabled hnone hheld]
        change guestKeys s.pressed _ = _
        rw [guestKeys_allKeysUpCode, search_down hnone]

/-- A key event that completes no boot combination. -/
theorem inStep_next_iff {e : Sdl3KeyEvent n} (h : s.InStep cfg) (hboot : NoBoot cfg e s) :
    (s.next cfg e).InStep cfg ↔ StaysInStep cfg e s := by
  cases e with
  | keyDown key => exact inStep_keyDown_iff h hboot
  | keyUp key => exact inStep_keyUp_iff h

/-- No key is down and nothing is pressed. -/
theorem inStep_start : (start : KeyedGuest n).InStep cfg := by
  refine (Set.eq_empty_of_forall_notMem ?_).symm
  rintro c (⟨m, hlock, -⟩ | ⟨-, -, k, hk, -⟩)
  · cases m <;> cases hlock
  · cases hk

/-- In a run without boot combinations, the guest takes exactly the keys that the host holds
for pressed after every event, if and only if every event leaves it in step. -/
theorem guest_in_step {es : List (Sdl3KeyEvent n)} (h : s.InStep cfg)
    (hboot : Lib.EveryAttempt (step cfg) (NoBoot cfg) es s) :
    Lib.Always (step cfg) (InStep cfg) es s ↔
      Lib.EveryStep (step cfg) (StaysInStep cfg) es s := by
  refine Lib.always_iff_everyStep_of_everyAttempt (fun _ hs => hs) ?_ ?_ hboot h
  · rintro e s _ he hs ⟨⟩ hstays
    exact (inStep_next_iff hs he).mpr hstays
  · rintro e s _ he hs ⟨⟩ hnext
    exact (inStep_next_iff hs he).mp hnext

/-- What holds in every state of a run holds after its first event. -/
theorem always_next {P : KeyedGuest n → Prop} {e : Sdl3KeyEvent n} {es : List (Sdl3KeyEvent n)}
    (h : Lib.Always (step cfg) P (e :: es) s) : Lib.Always (step cfg) P es (s.next cfg e) :=
  h.2 _ rfl

/-- The key A (scancode 4) and the shift keys (225 and 229), as they are mapped by default. -/
def shiftKeys : Sdl3KeyConfig 512 where
  keyMap k :=
    if k = 4 then 0o123
    else if k = 225 ∨ k = 229 then CadetModifier.shift.scancode
    else cadetScancodeNull
  specialKey := none

/-- With these keys there is no boot combination. -/
theorem noBoot_shiftKeys (e : Sdl3KeyEvent 512) (s : KeyedGuest 512) : NoBoot shiftKeys e s := by
  cases e with
  | keyDown key =>
    have hkey : shiftKeys.keyMap key ≠ cadetScancodeRubout ∧
        shiftKeys.keyMap key ≠ cadetScancodeReturn := by
      unfold shiftKeys
      dsimp only
      split_ifs <;> decide
    simp [NoBoot, Sdl3KeyConfig.bootCombination, hkey]
  | keyUp key => trivial

/-- A mapped key goes down. -/
theorem keys_keyDown_shiftKeys (s : KeyedGuest 512) (key : Fin 512)
    (hnull : shiftKeys.keyMap key ≠ cadetScancodeNull) :
    (s.next shiftKeys (.keyDown key)).keys.keyboardState =
        Function.update s.keys.keyboardState key true ∧
      (s.next shiftKeys (.keyDown key)).keys.disableUpCodesForBoot = false := by
  have hhandle :=
    keyDown_of_noBoot (s := s.keys.press key) hnull (noBoot_shiftKeys (.keyDown key) s)
  rw [if_neg (by exact Bool.false_ne_true)] at hhandle
  rw [next, handle, hhandle]
  exact ⟨rfl, rfl⟩

/-- While A is down, a shift key goes up although the other one is down: the guest takes shift
for released. -/
theorem shift_released_under_shift :
    Lib.EveryAttempt (step shiftKeys) (NoBoot shiftKeys)
        [.keyDown 4, .keyDown 225, .keyDown 229, .keyUp 229] start ∧
      ¬Lib.Always (step shiftKeys) (InStep shiftKeys)
        [.keyDown 4, .keyDown 225, .keyDown 229, .keyUp 229] start := by
  refine ⟨Lib.everyAttempt_of_forall noBoot_shiftKeys, fun h => ?_⟩
  have hrun := always_next (always_next (always_next h))
  have hkeys := keys_keyDown_shiftKeys
    ((start.next shiftKeys (.keyDown 4)).next shiftKeys (.keyDown 225)) 229 (by decide)
  rw [(keys_keyDown_shiftKeys _ 225 (by decide)).1, (keys_keyDown_shiftKeys _ 4 (by decide)).1]
    at hkeys
  generalize ((start.next shiftKeys (.keyDown 4)).next shiftKeys (.keyDown 225)).next shiftKeys
    (.keyDown 229) = s at hrun hkeys
  obtain ⟨hstate, henabled⟩ := hkeys
  have hlast : InStep shiftKeys (s.next shiftKeys (.keyUp 229)) := (always_next hrun).head
  have hstays := (inStep_keyUp_iff hrun.head).mp hlast (by decide)
  rw [henabled, if_neg Bool.false_ne_true] at hstays
  have hdown : ∀ k : Fin 512, k ≠ 229 →
      (s.keys.release 229).keyboardState k = s.keys.keyboardState k :=
    fun k hk => Function.update_of_ne hk _ _
  refine hstays ⟨4, ?_, rfl⟩ (.inr ⟨?_, by decide, 225, ?_, rfl⟩)
  · rw [hdown 4 (by decide), hstate]
    decide
  · rintro ⟨m, hlock, hkey⟩
    rw [CadetModifier.scancode_injective m .shift hkey] at hlock
    cases hlock
  · rw [hdown 225 (by decide), hstate]
    decide

/-- With these keys every key goes down in step. -/
theorem staysInStep_keyDown_shiftKeys (s : KeyedGuest 512) (key : Fin 512) :
    StaysInStep shiftKeys (.keyDown key) s := by
  intro _
  rw [if_neg (by exact Bool.false_ne_true)]
  rintro ⟨m, hlock, hkey⟩
  have hm := isLock_of_lock hlock
  unfold shiftKeys at hkey
  dsimp only at hkey
  cases m <;> cases hm <;> split_ifs at hkey <;> exact absurd hkey (by decide)

/-- A goes down, a shift key goes down and up. -/
theorem guest_in_step_shift :
    Lib.Always (step shiftKeys) (InStep shiftKeys)
      [.keyDown 4, .keyDown 225, .keyUp 225] start := by
  refine (guest_in_step inStep_start (Lib.everyAttempt_of_forall noBoot_shiftKeys)).mpr ?_
  intro s hs
  refine ⟨staysInStep_keyDown_shiftKeys _ _, fun t ht => ⟨staysInStep_keyDown_shiftKeys _ _, ?_⟩⟩
  have hkeys := keys_keyDown_shiftKeys (start.next shiftKeys (.keyDown 4)) 225 (by decide)
  rw [(keys_keyDown_shiftKeys _ 4 (by decide)).1] at hkeys
  obtain rfl := Except.ok.inj hs
  obtain rfl := Except.ok.inj ht
  generalize (start.next shiftKeys (.keyDown 4)).next shiftKeys (.keyDown 225) = s at hkeys
  obtain ⟨hstate, henabled⟩ := hkeys
  refine fun _ _ => ⟨fun _ => ?_, trivial⟩
  rw [henabled, if_neg Bool.false_ne_true]
  rintro - (⟨m, hlock, hkey⟩ | ⟨-, -, k, hk, hkey⟩)
  · rw [CadetModifier.scancode_injective m .shift hkey] at hlock
    cases hlock
  · change Function.update _ _ _ _ = _ at hk
    rw [hstate] at hk
    have hk4 : k = 4 := by
      by_contra hne
      by_cases h225 : k = 225
      · simp [h225] at hk
      · simp [h225, hne, start, Sdl3Keys.start] at hk
    rw [hk4] at hkey
    exact absurd hkey (by decide)

end KeyedGuest

end Usim
