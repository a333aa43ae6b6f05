import Usim.ChaosReceive
import Usim.IobKeyboard
import Usim.TapeController

/-!
# Unibus interrupts

The keyboard, the mouse, the interval timer, the Chaosnet interface and the tape
controller request Unibus interrupts, with SDL3. They share bit 15 of the interrupt
status register and the vector in bits 9-2, where a request that is accepted replaces
the vector of the one before it.
-/

namespace Usim

open Lib

/-! ### The register -/

/-- What the CADR program is to process: whether an interrupt awaits processing, and the vector. -/
structure AwaitedInterrupt where
  awaiting : Bool
  /-- Bits 9-2, at their places. -/
  vector : Word
  deriving DecidableEq, Repr

namespace AwaitedInterrupt

/-- An interrupt is accepted. -/
def accept (vector : Word) : AwaitedInterrupt := ⟨true, vector &&& 0o1774⟩

/-- A value is written to simulate an interrupt, or to clear one. -/
def simulate (v : HalfWord) : AwaitedInterrupt := ⟨v.getLsbD 15, v.setWidth 32 &&& 0o1774⟩

end AwaitedInterrupt

namespace Interrupts

/-- What the register tells. -/
def awaited (i : Interrupts) : AwaitedInterrupt := ⟨i.unibus, i.vector⟩

variable {i : Interrupts}

/-- While interrupts are enabled every request is accepted, with its own vector. -/
theorem awaited_assertUnibusInterrupt (h : i.enabled = true) (v : Word) :
    (assertUnibusInterrupt v i).awaited = .accept v ∧
      (assertUnibusInterrupt v i).enabled = true := by
  have haccepts : i.statusReg &&& 0o2000 ≠ 0 :=
    (and_mask_ne_zero i.statusReg 0o2000 10 (by decide) rfl).mpr h
  have hstored : (i.statusReg &&& ~~~0o1774) ||| 0o100000 ||| (v &&& 0o1774) =
      (i.statusReg &&& ~~~0o1774) ||| (v &&& 0o1774) ||| 0o100000 := by
    rw [BitVec.or_assoc, BitVec.or_assoc, BitVec.or_comm (0o100000 : Word)]
  have hrequest : (0o100000 : Word).getLsbD 15 = true := by decide
  have hothers : (0o100000 : Word) &&& 0o1774 = 0#32 := by decide
  have hmask : (0o1774 : Word).getLsbD 10 = false := by decide
  have hunibus :
      ((i.statusReg &&& ~~~0o1774) ||| (v &&& 0o1774) ||| 0o100000).getLsbD 15 = true := by
    rw [BitVec.getLsbD_or, hrequest, Bool.or_true]
  have hvector : ((i.statusReg &&& ~~~0o1774) ||| (v &&& 0o1774) ||| 0o100000) &&& 0o1774 =
      v &&& 0o1774 := by
    rw [BitVec.and_or_distrib_right, merge_and_of_le _ _ _ (by decide) (by decide), hothers,
      BitVec.or_zero]
  have henabled : ((i.statusReg &&& ~~~0o1774) ||| (v &&& 0o1774) ||| 0o100000).getLsbD 10 =
      true := by
    rw [BitVec.getLsbD_or, getLsbD_merge _ _ _ (by decide), hmask, if_neg Bool.false_ne_true]
    exact Bool.or_eq_true_iff.mpr (.inl h)
  unfold assertUnibusInterrupt
  rw [if_pos haccepts, hstored]
  exact ⟨congrArg₂ AwaitedInterrupt.mk hunibus hvector, henabled⟩

/-- A write of 0766040 leaves what is awaited. -/
theorem awaited_writeLevel (v : Word) :
    (writeInterruptStatusReg 0o36001 v i).awaited = i.awaited ∧
      (writeInterruptStatusReg 0o36001 v i).enabled = v.getLsbD 10 := by
  have hrequest : (0o36001 : Word).getLsbD 15 = false := by decide
  have henable : (0o36001 : Word).getLsbD 10 = true := by decide
  have hunibus := getLsbD_merge i.statusReg v 0o36001 (k := 15) (by decide)
  have hvector := merge_and_of_disjoint i.statusReg v 0o36001 (m := 0o1774) (by decide) (by decide)
  have henabled := getLsbD_merge i.statusReg v 0o36001 (k := 10) (by decide)
  rw [hrequest, if_neg Bool.false_ne_true] at hunibus
  rw [henable, if_pos rfl] at henabled
  exact ⟨congrArg₂ AwaitedInterrupt.mk hunibus hvector, henabled⟩

/-- A write of 0766042 simulates an interrupt or clears it. -/
theorem awaited_writeVector (v : HalfWord) :
    (writeInterruptStatusReg 0o101774 (v.setWidth 32) i).awaited = .simulate v ∧
      (writeInterruptStatusReg 0o101774 (v.setWidth 32) i).enabled = i.enabled := by
  have hrequest : (0o101774 : Word).getLsbD 15 = true := by decide
  have henable : (0o101774 : Word).getLsbD 10 = false := by decide
  have hunibus := getLsbD_merge i.statusReg (v.setWidth 32) 0o101774 (k := 15) (by decide)
  have hvector := merge_and_of_le i.statusReg (v.setWidth 32) 0o101774 (m := 0o1774) (by decide)
    (by decide)
  have henabled := getLsbD_merge i.statusReg (v.setWidth 32) 0o101774 (k := 10) (by decide)
  rw [hrequest, if_pos rfl, BitVec.getLsbD_setWidth] at hunibus
  rw [henable, if_neg Bool.false_ne_true] at henabled
  exact ⟨congrArg₂ AwaitedInterrupt.mk hunibus hvector, henabled⟩

/-- The line of the Xbus has no part in it. -/
theorem awaited_assertXbusInterrupt :
    (assertXbusInterrupt i).awaited = i.awaited ∧ (assertXbusInterrupt i).enabled = i.enabled := by
  have hothers : (0o40000 : Word) &&& 0o1774 = 0#32 := by decide
  have henable : (0o40000 : Word).getLsbD 10 = false := by decide
  have hvector : (i.statusReg ||| 0o40000) &&& 0o1774 = i.statusReg &&& 0o1774 := by
    rw [BitVec.and_or_distrib_right, hothers, BitVec.or_zero]
  have henabled : (i.statusReg ||| 0o40000).getLsbD 10 = i.statusReg.getLsbD 10 := by
    rw [BitVec.getLsbD_or, henable, Bool.or_false]
  exact ⟨congrArg₂ AwaitedInterrupt.mk (unibus_assertXbusInterrupt i) hvector, henabled⟩

theorem awaited_deassertXbusInterrupt :
    (deassertXbusInterrupt i).awaited = i.awaited ∧
      (deassertXbusInterrupt i).enabled = i.enabled := by
  have hothers : (~~~0o40000 : Word) &&& 0o1774 = 0o1774 := by decide
  have hrequest : (~~~0o40000 : Word).getLsbD 15 = true := by decide
  have henable : (~~~0o40000 : Word).getLsbD 10 = true := by decide
  have hunibus : (i.statusReg &&& ~~~0o40000).getLsbD 15 = i.statusReg.getLsbD 15 := by
    rw [BitVec.getLsbD_and, hrequest, Bool.and_true]
  have hvector : (i.statusReg &&& ~~~0o40000) &&& 0o1774 = i.statusReg &&& 0o1774 := by
    rw [BitVec.and_assoc, hothers]
  have henabled : (i.statusReg &&& ~~~0o40000).getLsbD 10 = i.statusReg.getLsbD 10 := by
    rw [BitVec.getLsbD_and, henable, Bool.and_true]
  unfold deassertXbusInterrupt
  split
  · exact ⟨congrArg₂ AwaitedInterrupt.mk hunibus hvector, henabled⟩
  · exact ⟨rfl, rfl⟩

end Interrupts

/-! ### The devices -/

/-- What the mouse reports, in C `int`s. -/
structure MouseReport where
  mouseX : Word
  mouseRawx : Word
  mouseY : Word
  mouseRawy : Word
  mouseHead : Word
  mouseMiddle : Word
  mouseTail : Word

/-- The devices that request Unibus interrupts. -/
structure UnibusRequesters (δ : Type) where
  /-- The keyboard registers of the IOB, with `iob_csr`. -/
  keyboard : IobKeyboard
  /-- `iob_mouse_x`. -/
  mouseX : HalfWord
  /-- `iob_mouse_y`. -/
  mouseY : HalfWord
  uch11 : Uch11
  /-- The tape controller and the busses, with the interrupts. -/
  tape : TapeSystem δ

/-- What happens to the devices. -/
inductive InterruptEvent (δ : Type)
  /-- `iob_set_keyboard_ready`. -/
  | key (scancode : Word)
  /-- `iob_set_mouse_ready`. -/
  | mouse (report : MouseReport)
  /-- `interval_timer_over`. -/
  | timer
  /-- A packet for this host is taken from the local Chaosnet program. -/
  | packet (packet : ChaosPacket)
  /-- `uch11_xmit_done_intr`. -/
  | xmitDone
  | writeChaosCsr (v : HalfWord)
  | readChaosBuffer
  /-- A word of MTC is written. The thread answers GO later. -/
  | writeMtc (v : HalfWord)
  /-- The thread of the tape controller comes to `tape_controller_assert_unibus_interrupt`. -/
  | tapeInterrupt
  /-- The processor accesses the keyboard registers or the CSR of the IOB. -/
  | keyboard (a : ProcessorAccess)
  | readMouseY
  /-- `bus_interface_write`. -/
  | busInterface (uaddr : Word) (v : HalfWord)
  /-- The line of the Xbus is raised or lowered. -/
  | xbus (line : Bool)
  /-- `tape_controller_bus_reset`. -/
  | busReset
  /-- Any other access, which leaves the busses as given except for the interrupts. -/
  | access (b : BusGlobals δ)

namespace UnibusRequesters

variable {δ : Type}

/-- The interrupts. -/
def interrupts (s : UnibusRequesters δ) : Interrupts := s.tape.bus.interrupts

/-- Change the interrupts. -/
def setInterrupts (s : UnibusRequesters δ) (i : Interrupts) : UnibusRequesters δ :=
  { s with tape.bus := s.tape.bus.onInterrupts fun _ => i }

/-- Change the keyboard registers. -/
def onKeyboard (s : UnibusRequesters δ) (f : IobKeyboard → IobKeyboard) : UnibusRequesters δ :=
  let keyboard := f { s.keyboard with interrupts := s.interrupts }
  { s with keyboard := keyboard }.setInterrupts keyboard.interrupts

/-- Change the Chaosnet interface. -/
def onUch11 (s : UnibusRequesters δ) (f : Uch11 → Uch11) : UnibusRequesters δ :=
  let uch11 := f { s.uch11 with interrupts := s.interrupts }
  { s with uch11 := uch11 }.setInterrupts uch11.interrupts

/-- `iob_set_mouse_ready`. The positions are masked with a hexadecimal 7777. -/
def setMouseReady (s : UnibusRequesters δ) (r : MouseReport) : UnibusRequesters δ :=
  let s := { s with
    mouseX := ((r.mouseRawx <<< 12) ||| (r.mouseRawy <<< 14) ||| (r.mouseX &&& 0x7777)).setWidth 16
    mouseY := ((r.mouseTail <<< 12) ||| (r.mouseMiddle <<< 13) ||| (r.mouseHead <<< 14) |||
      (r.mouseY &&& 0x7777)).setWidth 16
    keyboard.csr := s.keyboard.csr ||| 0o20 }
  if s.keyboard.csr.getLsbD 1 then s.setInterrupts (assertUnibusInterrupt 0o264 s.interrupts) else s

/-- `iob_unibus_read` of 0764104, which clears CSR<4>. -/
def readMouseY (s : UnibusRequesters δ) : HalfWord × UnibusRequesters δ :=
  (s.mouseY, { s with keyboard.csr := s.keyboard.csr &&& ~~~0o20 })

/-- `interval_timer_over`. -/
def intervalTimerOver (s : UnibusRequesters δ) : UnibusRequesters δ :=
  s.setInterrupts (assertUnibusInterrupt 0o274 s.interrupts)

variable (c : Uch11Config) (lashup : Lashup δ)

/-- One event. -/
def step (s : UnibusRequesters δ) : InterruptEvent δ → UnibusRequesters δ
  | .key scancode => s.onKeyboard (·.setKeyboardReady scancode)
  | .mouse report => s.setMouseReady report
  | .timer => s.intervalTimerOver
  | .packet packet => s.onUch11 (·.receivePacket packet)
  | .xmitDone => s.onUch11 Uch11.xmitDoneIntr
  | .writeChaosCsr v => s.onUch11 (·.setCsr c v)
  | .readChaosBuffer => s.onUch11 (·.getRcvBuffer.2)
  | .writeMtc v => { s with tape := (s.tape.updateMtc v).2 }
  | .tapeInterrupt => { s with tape := s.tape.assertInterrupt }
  | .keyboard a => s.onKeyboard (·.access a)
  | .readMouseY => s.readMouseY.2
  | .busInterface uaddr v => { s with tape.bus := busInterfaceWrite lashup uaddr v s.tape.bus }
  | .xbus line => s.setInterrupts
      (if line then assertXbusInterrupt s.interrupts else deassertXbusInterrupt s.interrupts)
  | .busReset => { s with tape := s.tape.onController TapeController.busReset }
  | .access b => { s with tape.bus := b.onInterrupts fun _ => s.interrupts }

/-- A run. -/
def run (s : UnibusRequesters δ) (es : List (InterruptEvent δ)) : UnibusRequesters δ :=
  es.foldl (step c lashup) s

end UnibusRequesters

/-! ### Requests -/

namespace Uch11

variable {u : Uch11}

/-- A word of the CSR presents a packet again that is still in the receive buffer. -/
def presentsAgain (u : Uch11) (v : HalfWord) : Bool :=
  v.getLsbD 4 && !Reception.clears v && !u.rcvBufferEmpty && decide (0 < u.rcvBufferSize)

/-- The interrupt of `uch11_rx_pkt`. -/
theorem interrupts_rxPkt (hsize : 0 < u.rcvBufferSize) :
    u.rxPkt.interrupts =
      if u.receiveEnable then assertUnibusInterrupt 0o270 u.interrupts else u.interrupts := by
  unfold rxPkt
  simp only [if_pos hsize]
  rfl

/-- The part of `uch11_set_csr` that enables the receiver presents a packet. -/
theorem interrupts_enabledBy (u : Uch11) (v : HalfWord) :
    (u.enabledBy v).interrupts =
      if u.receiveEnable && !u.rcvBufferEmpty && decide (0 < u.rcvBufferSize) then
        assertUnibusInterrupt 0o270 u.interrupts
      else u.interrupts := by
  have hpresents (w : Uch11) (hw : w.receiveEnable = u.receiveEnable)
      (hempty : w.rcvBufferEmpty = u.rcvBufferEmpty) (hsize : w.rcvBufferSize = u.rcvBufferSize)
      (hsame : w.interrupts = u.interrupts) :
      (if w.receiveEnable then w.receiverEnabled else w).interrupts =
        if u.receiveEnable && !u.rcvBufferEmpty && decide (0 < u.rcvBufferSize) then
          assertUnibusInterrupt 0o270 u.interrupts
        else u.interrupts := by
    rw [← hw, ← hempty, ← hsize, ← hsame]
    cases henable : w.receiveEnable with
    | false => rfl
    | true =>
      unfold receiverEnabled
      cases w.rcvBufferEmpty with
      | true => rfl
      | false =>
        simp only [Bool.false_eq_true, if_false, if_true, Bool.not_false, Bool.true_and,
          decide_eq_true_eq]
        split
        · rename_i hfull
          rw [interrupts_rxPkt hfull, henable, if_pos rfl]
        · rfl
  unfold enabledBy
  simp only
  split
  · exact hpresents _ (transmitterClear_receiveEnable u) rfl rfl rfl
  · exact hpresents _ rfl rfl rfl rfl

/-- The interrupt of `uch11_set_csr`. -/
theorem interrupts_setCsr (c : Uch11Config) (u : Uch11) (v : HalfWord) :
    (u.setCsr c v).interrupts =
      if u.presentsAgain v then assertUnibusInterrupt 0o270 u.interrupts else u.interrupts := by
  have hlast : (u.setCsr c v).interrupts = ((u.clearedBy c v).enabledBy v).interrupts := by
    change (if ((u.clearedBy c v).enabledBy v).transmitEnable then _ else _ : Uch11).interrupts = _
    split <;> rfl
  have hcleared : (u.clearedBy c v).interrupts = u.interrupts := by
    unfold clearedBy reset forceReconnect receiverClear
    simp only
    split_ifs <;> rfl
  rw [hlast, interrupts_enabledBy, hcleared]
  by_cases hclears : Reception.clears v = true
  · obtain ⟨-, hsize, -⟩ := clearedBy_of_clears (c := c) (u := u) hclears
    simp only [presentsAgain, hsize, hclears, Nat.lt_irrefl, decide_false, Bool.and_false,
      Bool.not_true, Bool.false_and]
  · rw [clearedBy_of_not_clears hclears]
    have henable : Uch11.receiveEnable
        { u with csr := (u.csr &&& csrMask) ||| (v &&& ~~~csrMask) } = v.getLsbD 4 :=
      masked_receiveEnable u.csr v
    rw [henable, presentsAgain, Bool.eq_false_iff.mpr hclears, Bool.not_false, Bool.and_true]

end Uch11

namespace UnibusRequesters

variable {δ : Type}

/-- The vector of the interrupt that a device requests in an event, if it is enabled to. -/
def request (s : UnibusRequesters δ) : InterruptEvent δ → Option Word
  | .key _ => if s.keyboard.csr.getLsbD 2 then some 0o260 else none
  | .mouse _ => if s.keyboard.csr.getLsbD 1 then some 0o264 else none
  | .timer => some 0o274
  | .packet _ => if s.uch11.receiveEnable then some 0o270 else none
  | .xmitDone => if s.uch11.transmitEnable then some 0o270 else none
  | .writeChaosCsr v => if s.uch11.presentsAgain v then some 0o270 else none
  | .writeMtc v => if !v.getLsbD 12 && !v.getLsbD 0 && v.getLsbD 6 then some 0o224 else none
  | .tapeInterrupt => if s.tape.controller.mtc.intEnb then some 0o224 else none
  | _ => none

/-- What an event brings: an interrupt with the vector of the request, or what the software
writes into 0766042. -/
def brings (s : UnibusRequesters δ) : InterruptEvent δ → Option AwaitedInterrupt
  | .busInterface uaddr v => if uaddr = 0o766042 then some (.simulate v) else none
  | e => (s.request e).map .accept

/-- What the events of a run bring, in order. -/
def brought (c : Uch11Config) (lashup : Lashup δ) :
    UnibusRequesters δ → List (InterruptEvent δ) → List AwaitedInterrupt
  | _, [] => []
  | s, e :: es => (s.brings e).toList ++ brought c lashup (s.step c lashup e) es

end UnibusRequesters

/-- The event does not disable Unibus interrupts: a word written into 0766040 has bit 02000. -/
def InterruptEvent.KeepsEnabled {δ : Type} (e : InterruptEvent δ) : Prop :=
  ∀ v, e = .busInterface 0o766040 v → v.getLsbD 10 = true

/-- From one state of the register to the next, with interrupts enabled: what the event brings
replaces what was awaited, and anything else leaves it. -/
structure Replaces (i i' : Interrupts) (a : Option AwaitedInterrupt) : Prop where
  awaited : i'.awaited = a.getD i.awaited
  enabled : i'.enabled = true

section Replaces

variable {i i' : Interrupts}

theorem replaces_none (h : i.enabled = true) (heq : i' = i) : Replaces i i' none :=
  ⟨congrArg Interrupts.awaited heq, heq ▸ h⟩

/-- A device that is enabled requests. -/
theorem replaces_request (h : i.enabled = true) (p : Bool) (v : Word) :
    Replaces i (if p then assertUnibusInterrupt v i else i)
      ((if p then some v else none).map .accept) := by
  cases p with
  | false => exact replaces_none h rfl
  | true =>
    obtain ⟨hawaited, henabled⟩ := Interrupts.awaited_assertUnibusInterrupt h v
    exact ⟨hawaited, henabled⟩

end Replaces

section BusInterface

variable {δ : Type} (lashup : Lashup δ)

/-- The second machine has no part in the interrupts. -/
theorem interrupts_lashupDebuggerXmt (request : LashupRequest) (b : BusGlobals δ) :
    (lashupDebuggerXmt lashup request b).2.interrupts = b.interrupts := by
  unfold lashupDebuggerXmt
  split
  · rfl
  · simp only
    split <;> rfl

theorem interrupts_busInterfaceWriteModifier (v : HalfWord) (b : BusGlobals δ) :
    (busInterfaceWriteModifier lashup v b).interrupts = b.interrupts := by
  have hkeeps (f : BusInterface → BusInterface) (b' : BusGlobals δ) :
      (b'.onInterface f).interrupts = b'.interrupts := rfl
  unfold busInterfaceWriteModifier
  simp only
  split_ifs <;> simp only [interrupts_lashupDebuggerXmt, hkeeps]

/-- Of the registers of the bus interface two change the interrupts. -/
theorem interrupts_busInterfaceWrite (uaddr : Word) (v : HalfWord) (b : BusGlobals δ) :
    (busInterfaceWrite lashup uaddr v b).interrupts =
      if uaddr = 0o766040 then writeInterruptStatusReg 0o36001 (v.setWidth 32) b.interrupts
      else if uaddr = 0o766042 then
        writeInterruptStatusReg 0o101774 (v.setWidth 32) b.interrupts
      else b.interrupts := by
  unfold busInterfaceWrite
  by_cases hlevel : uaddr = 0o766040
  · rw [if_pos hlevel, if_pos hlevel]
    rfl
  rw [if_neg hlevel, if_neg hlevel]
  by_cases hvector : uaddr = 0o766042
  · rw [if_pos hvector, if_pos hvector]
    rfl
  rw [if_neg hvector, if_neg hvector]
  have hxmt (request : LashupRequest) := interrupts_lashupDebuggerXmt lashup request b
  split_ifs
  · rfl
  · simp only
    split
    · exact hxmt _
    · exact hxmt _
  · exact hxmt _
  · exact interrupts_busInterfaceWriteModifier lashup v b
  · rfl
  · rfl
  · unfold BusState.onInterface BusState.interrupts
    rfl

end BusInterface

namespace UnibusRequesters

variable {δ : Type} {c : Uch11Config} {lashup : Lashup δ} {s : UnibusRequesters δ}

/-- The interrupts after a change of the keyboard registers. -/
theorem interrupts_onKeyboard (f : IobKeyboard → IobKeyboard) :
    (s.onKeyboard f).interrupts = (f { s.keyboard with interrupts := s.interrupts }).interrupts :=
  rfl

theorem interrupts_onUch11 (f : Uch11 → Uch11) :
    (s.onUch11 f).interrupts = (f { s.uch11 with interrupts := s.interrupts }).interrupts :=
  rfl

/-- One event. -/
theorem replaces_step (h : s.interrupts.enabled = true) {e : InterruptEvent δ}
    (he : e.KeepsEnabled) :
    Replaces s.interrupts (s.step c lashup e).interrupts (s.brings e) := by
  cases e with
  | key scancode =>
    have hrequest := replaces_request h (s.keyboard.csr.getLsbD 2) 0o260
    rw [step, interrupts_onKeyboard]
    unfold IobKeyboard.setKeyboardReady
    split <;> exact hrequest
  | mouse report =>
    have hcsr : (s.keyboard.csr ||| 0o20).getLsbD 1 = s.keyboard.csr.getLsbD 1 := by
      have hbit : (0o20 : Word).getLsbD 1 = false := by decide
      rw [BitVec.getLsbD_or, hbit, Bool.or_false]
    have hrequest := replaces_request h (s.keyboard.csr.getLsbD 1) 0o264
    have hinterrupts : (s.setMouseReady report).interrupts =
        if s.keyboard.csr.getLsbD 1 then assertUnibusInterrupt 0o264 s.interrupts
        else s.interrupts := by
      unfold setMouseReady
      simp only [hcsr]
      split <;> rfl
    rw [step, hinterrupts]
    exact hrequest
  | timer => exact replaces_request h true 0o274
  | packet packet =>
    have hsize : 0 < packet.words + 3 := Nat.succ_pos _
    rw [step, interrupts_onUch11, Uch11.receivePacket, Uch11.interrupts_rxPkt hsize]
    exact replaces_request h s.uch11.receiveEnable 0o270
  | xmitDone => exact replaces_request h s.uch11.transmitEnable 0o270
  | writeChaosCsr v =>
    rw [step, interrupts_onUch11, Uch11.interrupts_setCsr]
    exact replaces_request h (s.uch11.presentsAgain v) 0o270
  | readChaosBuffer =>
    refine replaces_none h ?_
    rw [step, interrupts_onUch11]
    unfold Uch11.getRcvBuffer
    split <;> rfl
  | writeMtc v =>
    have hinterrupts : (s.step c lashup (.writeMtc v)).interrupts =
        if !v.getLsbD 12 && !v.getLsbD 0 && v.getLsbD 6 then
          assertUnibusInterrupt 0o224 s.interrupts
        else s.interrupts := by
      change (s.tape.updateMtc v).2.bus.interrupts = _
      unfold TapeSystem.updateMtc
      cases v.getLsbD 12 <;> cases v.getLsbD 0 <;> cases v.getLsbD 6 <;> rfl
    rw [hinterrupts]
    exact replaces_request h _ 0o224
  | tapeInterrupt =>
    have hinterrupts : (s.step c lashup .tapeInterrupt).interrupts =
        if s.tape.controller.mtc.intEnb then assertUnibusInterrupt 0o224 s.interrupts
        else s.interrupts := by
      change (tapeAssertUnibusInterrupt s.tape.controller.mtc.intEnb s.tape.bus).interrupts = _
      cases s.tape.controller.mtc.intEnb <;> rfl
    rw [hinterrupts]
    exact replaces_request h _ 0o224
  | keyboard a => exact replaces_none h (by cases a <;> rfl)
  | readMouseY => exact replaces_none h rfl
  | busInterface uaddr v =>
    have hwrite : (s.step c lashup (.busInterface uaddr v)).interrupts = _ :=
      interrupts_busInterfaceWrite lashup uaddr v s.tape.bus
    rw [hwrite, brings]
    by_cases hlevel : uaddr = 0o766040
    · have hne : ¬uaddr = 0o766042 := by
        rw [hlevel]
        decide
      have hbit : (v.setWidth 32).getLsbD 10 = true := by
        rw [BitVec.getLsbD_setWidth, he v (congrArg (InterruptEvent.busInterface · v) hlevel)]
        rfl
      obtain ⟨hawaited, henabled⟩ :=
        Interrupts.awaited_writeLevel (i := s.tape.bus.interrupts) (v.setWidth 32)
      rw [if_pos hlevel, if_neg hne]
      exact ⟨hawaited, henabled.trans hbit⟩
    rw [if_neg hlevel]
    split
    · obtain ⟨hawaited, henabled⟩ :=
        Interrupts.awaited_writeVector (i := s.tape.bus.interrupts) v
      exact ⟨hawaited, henabled.trans h⟩
    · exact replaces_none h rfl
  | xbus line =>
    cases line with
    | true =>
      obtain ⟨hawaited, henabled⟩ := Interrupts.awaited_assertXbusInterrupt (i := s.interrupts)
      exact ⟨hawaited, henabled.trans h⟩
    | false =>
      obtain ⟨hawaited, henabled⟩ := Interrupts.awaited_deassertXbusInterrupt (i := s.interrupts)
      exact ⟨hawaited, henabled.trans h⟩
  | busReset => exact replaces_none h rfl
  | access b => exact replaces_none h rfl

/-- The last of what the events bring is what is awaited. -/
theorem getLastD_toList_append {α : Type} (o : Option α) (l : List α) (d : α) :
    (o.toList ++ l).getLastD d = l.getLastD (o.getD d) := by
  cases o with
  | none => rfl
  | some a => cases l <;> rfl

/-- In every run with Unibus interrupts enabled bit 15 and bits 9-2 show the last interrupt that a
device requested, or what the software has written into 0766042 since. -/
theorem unibus_interrupts_replace (c : Uch11Config) (lashup : Lashup δ) (s : UnibusRequesters δ)
    (es : List (InterruptEvent δ)) (henabled : s.interrupts.enabled = true)
    (hkeeps : ∀ e ∈ es, e.KeepsEnabled) :
    (s.run c lashup es).interrupts.awaited =
        (s.brought c lashup es).getLastD s.interrupts.awaited ∧
      (s.run c lashup es).interrupts.enabled = true := by
  induction es generalizing s with
  | nil => exact ⟨rfl, henabled⟩
  | cons e es ih =>
    have hstep := @replaces_step _ c lashup _ henabled _ (hkeeps e List.mem_cons_self)
    have hrest := ih (s.step c lashup e) hstep.enabled
      fun e' he' => hkeeps e' (List.mem_cons_of_mem e he')
    rw [brought, getLastD_toList_append, ← hstep.awaited]
    exact hrest

/-- The devices with Unibus interrupts enabled, and those of the keyboard and the mouse. -/
def listening : UnibusRequesters Unit where
  keyboard := { csr := 0o6, scancode := 0, interrupts := ⟨0, false⟩, boots := 0 }
  mouseX := 0
  mouseY := 0
  uch11 := .init ⟨0, false⟩ false
  tape := {
    controller := {
      mts := ⟨false, false, false, false, false, false, false⟩
      mtc := ⟨false, false, false, 0, true, false, 0⟩
      mtbrc := 0
      mtcma := 0
      mtd := 0
      mtrd := 0
      drives := fun unit => .unconfigured (BitVec.ofNat 32 unit) }
    bus := {
      amem := fun _ => 0
      mdReg := 0
      vmaok := true
      promdisabled := false
      interruptPendingFlag := false
      dev := {
        mainMemory := ⟨1, fun _ _ => 0⟩
        devices := {
          interruptStatusReg := 0o2000
          busInterface := ⟨0, false, false, 0, false, 0⟩
          unibusMapping := ⟨fun _ => 0, fun _ => 0⟩
          devices := () } } } }

/-- The interface at 0 without a second machine. -/
def localUch11 : Uch11Config := ⟨.local, 0, 0, false, 0⟩

def noLashup : Lashup Unit := ⟨0, fun _ d => (none, d)⟩

/-- A key, its interrupt cleared, and the timer. -/
theorem unibus_interrupts_replace_key_timer :
    (listening.run localUch11 noLashup
        [.key 7, .busInterface 0o766042 0, .timer]).interrupts.awaited = ⟨true, 0o274⟩ :=
  (unibus_interrupts_replace localUch11 noLashup listening
    [.key 7, .busInterface 0o766042 0, .timer] (by decide) (by
      intro e he v hv
      subst hv
      revert he
      simp)).1.trans (by decide)

/-- The interrupt of a key is replaced by that of the mouse before the software has cleared it. -/
theorem unibus_interrupt_lost :
    ¬∀ (es es' : List (InterruptEvent Unit)) (v : Word), (∀ e ∈ es ++ es', e.KeepsEnabled) →
      (∀ e ∈ es', ∀ uaddr w, e ≠ .busInterface uaddr w) →
      (listening.run localUch11 noLashup es).interrupts.awaited = ⟨true, v⟩ →
      (listening.run localUch11 noLashup (es ++ es')).interrupts.awaited = ⟨true, v⟩ := by
  intro h
  have hkey : (listening.run localUch11 noLashup [.key 7]).interrupts.awaited = ⟨true, 0o260⟩ := by
    decide
  have hmouse := h [.key 7] [.mouse ⟨0, 0, 0, 0, 0, 0, 0⟩] 0o260
    (fun e he v hv => by
      subst hv
      revert he
      simp)
    (fun e he uaddr w hw => by
      subst hw
      revert he
      simp) hkey
  exact absurd hmouse (by decide)

end UnibusRequesters

end Usim
