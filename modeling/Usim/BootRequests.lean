import Mathlib.Data.Fintype.Basic
import Mathlib.Data.Finset.Card
import Usim.Sdl3KeyCodes
import Usim.Sdl3Keyboard

/-!
# Boot requests from the keyboard

When `sdl3_keyboard_key_down` enqueues the cold-boot and the warm-boot code, against what the keys
that are held ask for.
-/

namespace Usim

open Lib

/-- The codes in a key queue, the oldest first. -/
structure Sdl3Queue.Contains (q : Sdl3Queue) (codes : List Word) : Prop where
  ring : RingHolds queueCapacity q.queue q.queueRead codes
  nelem : q.queueNelem = codes.length
  write : q.queueWrite = (q.queueRead + codes.length) % queueCapacity

/-- A code goes to the end of a queue that has room. -/
theorem Sdl3Queue.Contains.enqueue {q : Sdl3Queue} {codes : List Word} (h : q.Contains codes)
    (hroom : codes.length < queueCapacity) (scancode : Word) :
    (q.enqueue scancode).Contains (codes ++ [scancode]) := by
  have hnelem : q.queueNelem ≠ queueCapacity := by
    rw [h.nelem]
    exact Nat.ne_of_lt hroom
  have hwrite : q.queueWrite < queueCapacity := h.write ▸ Nat.mod_lt _ (by decide)
  have hpush := h.ring.push (a := scancode) hroom
  rw [← h.write] at hpush
  rw [enqueue_of_room hnelem hwrite]
  constructor
  case ring => exact hpush
  case nelem => rw [h.nelem, List.length_append, List.length_singleton]
  case write =>
    rw [h.write, Nat.mod_add_mod, List.length_append, List.length_singleton, Nat.add_assoc]

/-- The codes of a queue are determined by its cells. -/
theorem Sdl3Queue.Contains.unique {q : Sdl3Queue} {codes codes' : List Word} (h : q.Contains codes)
    (h' : q.Contains codes') : codes = codes' := by
  apply List.ext_getElem (h.nelem.symm.trans h'.nelem)
  intro i hi hi'
  rw [← h.ring.entry i _ (List.getElem?_eq_getElem hi),
    ← h'.ring.entry i _ (List.getElem?_eq_getElem hi')]

/-- The codes that a handler asks for go to the queue one after the other. -/
def Sdl3Queue.enqueueAll (q : Sdl3Queue) (actions : List Sdl3KeyAction) : Sdl3Queue :=
  (actions.filterMap Sdl3KeyAction.code?).foldl Sdl3Queue.enqueue q

/-- A queue with enough room takes all of them. -/
theorem Sdl3Queue.Contains.foldl_enqueue {q : Sdl3Queue} {codes : List Word} (h : q.Contains codes)
    {added : List Word} (hroom : codes.length + added.length ≤ queueCapacity) :
    (added.foldl Sdl3Queue.enqueue q).Contains (codes ++ added) := by
  induction added generalizing q codes with
  | nil => rwa [List.append_nil]
  | cons scancode added ih =>
    rw [List.length_cons] at hroom
    have hnext := ih (h.enqueue (by omega) scancode) (by
      rw [List.length_append, List.length_singleton]
      omega)
    rwa [List.append_assoc, List.singleton_append] at hnext

section Boot

variable {n : ℕ} (cfg : Sdl3KeyConfig n)

/-- Every host key that is mapped to a key is held, and there are at least two of them. -/
def AllHeld (state : Fin n → Bool) (c : CadetScancode) : Prop :=
  (∀ i, cfg.keyMap i = c → state i = true) ∧ ∃ i j, i ≠ j ∧ cfg.keyMap i = c ∧ cfg.keyMap j = c

/-- The keys that are held are those of a boot request. -/
def RequestHeld (state : Fin n → Bool) : Prop :=
  (∃ k ∈ cfg.specialKey, state k = true) ∨
    AllHeld cfg state CadetModifier.control.scancode ∧
      AllHeld cfg state CadetModifier.metaKey.scancode

/-- A boot code goes to any queue that has room exactly if the key that goes down is the one for it
and the keys of a boot request are held. -/
def BootRequested (s : Sdl3Keys n) (key : Fin n) (target : CadetScancode) (boot : Word) : Prop :=
  ∀ (q : Sdl3Queue) (codes : List Word), q.Contains codes → codes.length + 2 ≤ queueCapacity →
    ∃ added, (q.enqueueAll (s.keyDown cfg key).1).Contains (codes ++ added) ∧
      (boot ∈ added ↔ cfg.keyMap key = target ∧ RequestHeld cfg s.keyboardState)

variable {cfg} {s : Sdl3Keys n} {key : Fin n} {state : Fin n → Bool}

/-! ### The control and meta keys -/

/-- The loop finds no key of the two kinds that is up, and counts those that are down. -/
theorem bootLoop_eq_true {is : List (Fin n)} {nctrl nmeta : ℕ} :
    cfg.bootLoop state is nctrl nmeta = true ↔
      ((∀ i ∈ is, cfg.keyMap i = CadetModifier.control.scancode → state i = true) ∧
        2 ≤ nctrl + is.countP (cfg.keyMap · = CadetModifier.control.scancode)) ∧
      (∀ i ∈ is, cfg.keyMap i = CadetModifier.metaKey.scancode → state i = true) ∧
        2 ≤ nmeta + is.countP (cfg.keyMap · = CadetModifier.metaKey.scancode) := by
  have hne : CadetModifier.control.scancode ≠ CadetModifier.metaKey.scancode := by decide
  induction is generalizing nctrl nmeta with
  | nil =>
    rw [Sdl3KeyConfig.bootLoop, Bool.and_eq_true, decide_eq_true_iff, decide_eq_true_iff]
    exact and_congr (and_iff_right (List.forall_mem_nil _)).symm
      (and_iff_right (List.forall_mem_nil _)).symm
  | cons i is ih =>
    have hpos {c : CadetScancode} (h : cfg.keyMap i = c) :
        (i :: is).countP (fun j => decide (cfg.keyMap j = c)) =
          is.countP (fun j => decide (cfg.keyMap j = c)) + 1 :=
      List.countP_cons_of_pos (decide_eq_true h)
    have hneg {c : CadetScancode} (h : cfg.keyMap i ≠ c) :
        (i :: is).countP (fun j => decide (cfg.keyMap j = c)) =
          is.countP (fun j => decide (cfg.keyMap j = c)) :=
      List.countP_cons_of_neg (by rwa [decide_eq_true_iff])
    rw [Sdl3KeyConfig.bootLoop, List.forall_mem_cons, List.forall_mem_cons]
    by_cases hctrl : cfg.keyMap i = CadetModifier.control.scancode
    · have hmeta : cfg.keyMap i ≠ CadetModifier.metaKey.scancode := hctrl ▸ hne
      rw [if_pos hctrl, hpos hctrl, hneg hmeta]
      cases hstate : state i with
      | false => exact iff_of_false Bool.false_ne_true fun h => nomatch h.1.1.1 hctrl
      | true =>
        have hhead : cfg.keyMap i = CadetModifier.metaKey.scancode → true = true := fun _ => rfl
        rw [if_neg (by decide)]
        apply ih.trans
        rw [and_iff_right (fun _ => rfl), and_iff_right hhead, Nat.add_assoc, Nat.add_comm 1]
    · by_cases hmeta : cfg.keyMap i = CadetModifier.metaKey.scancode
      · rw [if_neg hctrl, if_pos hmeta, hneg hctrl, hpos hmeta]
        cases hstate : state i with
        | false => exact iff_of_false Bool.false_ne_true fun h => nomatch h.2.1.1 hmeta
        | true =>
          have hhead : cfg.keyMap i = CadetModifier.control.scancode → true = true := fun _ => rfl
          rw [if_neg (by decide)]
          apply ih.trans
          rw [and_iff_right hhead, and_iff_right (fun _ => rfl), Nat.add_assoc nmeta,
            Nat.add_comm 1]
      · rw [if_neg hctrl, if_neg hmeta, hneg hctrl, hneg hmeta]
        apply ih.trans
        rw [and_iff_right (fun h => absurd h hctrl), and_iff_right (fun h => absurd h hmeta)]

/-- A list of all keys has two of a kind if it counts two of them. -/
theorem two_le_countP_finRange {p : Fin n → Bool} :
    2 ≤ (List.finRange n).countP p ↔ ∃ i j, i ≠ j ∧ p i = true ∧ p j = true := by
  have hnodup : ((List.finRange n).filter p).Nodup := (List.nodup_finRange n).filter p
  have hmem (i : Fin n) : i ∈ ((List.finRange n).filter p).toFinset ↔ p i = true := by
    rw [List.mem_toFinset, List.mem_filter, and_iff_right (List.mem_finRange i)]
  rw [List.countP_eq_length_filter, ← List.toFinset_card_of_nodup hnodup]
  change 1 < _ ↔ _
  rw [Finset.one_lt_card]
  constructor
  · rintro ⟨i, hi, j, hj, hij⟩
    exact ⟨i, j, hij, (hmem i).mp hi, (hmem j).mp hj⟩
  · rintro ⟨i, j, hij, hi, hj⟩
    exact ⟨i, (hmem i).mpr hi, j, (hmem j).mpr hj, hij⟩

/-- The keys that `sdl3_keyboard_are_all_ctrl_and_meta_down_for_boot` looks for. -/
theorem areAllCtrlAndMetaDownForBoot_eq_true :
    cfg.areAllCtrlAndMetaDownForBoot state = true ↔
      AllHeld cfg state CadetModifier.control.scancode ∧
        AllHeld cfg state CadetModifier.metaKey.scancode := by
  rw [Sdl3KeyConfig.areAllCtrlAndMetaDownForBoot, bootLoop_eq_true, Nat.zero_add, Nat.zero_add,
    two_le_countP_finRange, two_le_countP_finRange]
  simp only [AllHeld, List.mem_finRange, true_imp_iff, decide_eq_true_eq]

/-- The special key is one of the keys that are held. -/
theorem specialKeyDown_eq_true :
    cfg.specialKeyDown state = true ↔ ∃ k ∈ cfg.specialKey, state k = true := by
  rw [Sdl3KeyConfig.specialKeyDown]
  cases cfg.specialKey with
  | none =>
    refine iff_of_false Bool.false_ne_true ?_
    rintro ⟨_, hk, -⟩
    cases hk
  | some k =>
    constructor
    · intro h
      exact ⟨k, rfl, h⟩
    · rintro ⟨_, hk, h⟩
      cases hk
      exact h

/-! ### The boot codes -/

/-- The keys of a boot request are those that `sdl3_keyboard_key_down` tests. -/
theorem requestHeld_iff : RequestHeld cfg state ↔
    cfg.specialKeyDown state = true ∨ cfg.areAllCtrlAndMetaDownForBoot state = true := by
  rw [RequestHeld, specialKeyDown_eq_true, areAllCtrlAndMetaDownForBoot_eq_true]

/-- The codes of a key that goes down. -/
theorem filterMap_keyDown : (s.keyDown cfg key).1.filterMap Sdl3KeyAction.code? =
    if cfg.keyMap key = cadetScancodeNull ∨ cfg.specialKeyDown s.keyboardState = true then []
    else downCode (cfg.keyMap key) ::
      if cfg.areAllCtrlAndMetaDownForBoot s.keyboardState = true then
        if cfg.keyMap key = cadetScancodeRubout then [coldBootScancode]
        else if cfg.keyMap key = cadetScancodeReturn then [warmBootScancode]
        else []
      else [] := by
  have htoggle (c : CadetScancode) : (s.toggle c).keyboardState = s.keyboardState := rfl
  unfold Sdl3Keys.keyDown
  dsimp only
  by_cases hnull : cfg.keyMap key = cadetScancodeNull
  · rw [if_pos hnull, if_pos (.inl hnull)]
    rfl
  · rw [if_neg hnull, htoggle]
    cases hspecial : cfg.specialKeyDown s.keyboardState with
    | true =>
      rw [if_pos rfl, if_pos (.inr rfl)]
      exact KeyedGuest.filterMap_machineControl _
    | false =>
      rw [if_neg Bool.false_ne_true, if_neg (not_or.mpr ⟨hnull, Bool.false_ne_true⟩)]
      cases cfg.areAllCtrlAndMetaDownForBoot s.keyboardState with
      | false => rfl
      | true =>
        by_cases hrubout : cfg.keyMap key = cadetScancodeRubout
        · rw [if_pos rfl, if_pos hrubout, if_pos (by simpa using hrubout)]
          rfl
        · by_cases hreturn : cfg.keyMap key = cadetScancodeReturn
          · rw [if_pos rfl, if_neg hrubout, if_pos hreturn, if_neg (by simpa using hrubout),
              if_pos (by simpa using hreturn)]
            rfl
          · rw [if_pos rfl, if_neg hrubout, if_neg hreturn, if_neg (by simpa using hrubout),
              if_neg (by simpa using hreturn)]
            rfl

/-- A boot code is no code of a key that goes down. -/
theorem downCode_ne (c : CadetScancode) :
    downCode c ≠ coldBootScancode ∧ downCode c ≠ warmBootScancode := by
  revert c
  decide

/-- A boot code is requested as it should exactly if it is among the codes of the key when it
should. -/
theorem bootRequested_iff {target : CadetScancode} {boot : Word} :
    BootRequested cfg s key target boot ↔
      (boot ∈ (s.keyDown cfg key).1.filterMap Sdl3KeyAction.code? ↔
        cfg.keyMap key = target ∧ RequestHeld cfg s.keyboardState) := by
  have hlength : ((s.keyDown cfg key).1.filterMap Sdl3KeyAction.code?).length ≤ 2 := by
    rw [filterMap_keyDown]
    split_ifs <;> simp
  constructor
  · intro h
    have hempty : Sdl3Queue.init.Contains [] := ⟨ringHolds_nil (by decide), rfl, rfl⟩
    obtain ⟨added, hcontains, hiff⟩ := h .init [] hempty (by decide)
    have hadded := (hempty.foldl_enqueue (by
      rw [List.length_nil, Nat.zero_add]
      exact hlength.trans (by decide))).unique hcontains
    rw [List.nil_append, List.nil_append] at hadded
    rwa [hadded]
  · intro h q codes hcontains hroom
    exact ⟨_, hcontains.foldl_enqueue (by omega), h⟩

/-- The boot codes go to the queue when they are asked for exactly if the special key is up or the
key that goes down is none of the two for a boot. -/
theorem boots_requested_iff (cfg : Sdl3KeyConfig n) (s : Sdl3Keys n) (key : Fin n) :
    BootRequested cfg s key cadetScancodeRubout coldBootScancode ∧
        BootRequested cfg s key cadetScancodeReturn warmBootScancode ↔
      ¬(cfg.specialKeyDown s.keyboardState = true ∧
        (cfg.keyMap key = cadetScancodeRubout ∨ cfg.keyMap key = cadetScancodeReturn)) := by
  have hcold : coldBootScancode ≠ downCode (cfg.keyMap key) := (downCode_ne _).1.symm
  have hwarm : warmBootScancode ≠ downCode (cfg.keyMap key) := (downCode_ne _).2.symm
  have hcodes : coldBootScancode ≠ warmBootScancode := by decide
  have hkeys : cadetScancodeRubout ≠ cadetScancodeReturn := by decide
  have hrubout : cadetScancodeNull ≠ cadetScancodeRubout := by decide
  have hreturn : cadetScancodeNull ≠ cadetScancodeReturn := by decide
  rw [bootRequested_iff, bootRequested_iff, filterMap_keyDown, requestHeld_iff]
  cases hspecial : cfg.specialKeyDown s.keyboardState with
  | true =>
    -- nothing is enqueued, whatever the key is for
    simp
  | false =>
    by_cases hnull : cfg.keyMap key = cadetScancodeNull
    · simp [hnull, hrubout, hreturn]
    · cases cfg.areAllCtrlAndMetaDownForBoot s.keyboardState with
      | false => simp [hnull, hcold, hwarm]
      | true =>
        by_cases hkey : cfg.keyMap key = cadetScancodeRubout
        · simp [hkey, hrubout.symm, hkeys, hcodes.symm, hkey ▸ hwarm]
        · by_cases hkey' : cfg.keyMap key = cadetScancodeReturn
          · simp [hkey', hreturn.symm, hkeys.symm, hcodes, hkey' ▸ hcold]
          · simp [hnull, hkey, hkey', hcold, hwarm]

/-- A key map with one key for a cold boot, and a special key. -/
def bootKeys : Sdl3KeyConfig 512 where
  keyMap := fun i => if i = 42 then cadetScancodeRubout else cadetScancodeNull
  specialKey := some 69

/-- The key for a cold boot goes down while the special key is held. -/
def bootState : Sdl3Keys 512 := ⟨fun i => i = 42 ∨ i = 69, false, false, false, false⟩

/-- The special key is held when the key for a cold boot goes down, and no boot code goes to the
queue. -/
theorem not_bootRequested :
    ¬BootRequested bootKeys bootState 42 cadetScancodeRubout coldBootScancode := by
  rw [bootRequested_iff, filterMap_keyDown, if_pos (.inr rfl)]
  intro h
  exact absurd (h.mpr ⟨rfl, .inl ⟨69, rfl, rfl⟩⟩) List.not_mem_nil

end Boot

end Usim
