import Usim.Interrupts
import Mathlib.Logic.Function.Basic

/-!
# The Chaosnet interface

The command and status register and the two packet buffers of `uch11.c`. How a packet
leaves or enters depends on the backend. The delays of the reconnection to a daemon
are left out.
-/

namespace Usim

/-- `uch11_backend`. -/
inductive Uch11Backend
  | daemon | local | udp
  deriving DecidableEq, Repr

/-- What is set up before the interface runs. -/
structure Uch11Config where
  backend : Uch11Backend
  /-- `uch11_myaddr`. -/
  myaddr : HalfWord
  /-- The address of `ucfg.chaos_servername`. -/
  serveraddr : HalfWord
  hybridUdpAndLocal : Bool
  udpBridgeChaddr : HalfWord

/-- The globals of `uch11.c`. -/
structure Uch11 where
  csr : HalfWord
  bitCount : ℤ
  lostCount : ℕ
  xmitBuffer : ℕ → HalfWord
  xmitBufferSize : ℕ
  xmitBufferPtr : ℕ
  rcvBuffer : ℕ → HalfWord
  rcvBufferPtr : ℕ
  rcvBufferSize : ℕ
  rcvBufferEmpty : Bool
  /-- `chaosd_fd` is open. -/
  chaosdOpen : Bool
  interrupts : Interrupts

namespace Uch11

/-- `CHAOS_CSR_LOOP_BACK` is set. -/
def loopBack (u : Uch11) : Bool := u.csr.getLsbD 1

/-- `CHAOS_CSR_RECEIVE_ENABLE` is set. -/
def receiveEnable (u : Uch11) : Bool := u.csr.getLsbD 4

/-- `CHAOS_CSR_TRANSMIT_ENABLE` is set. -/
def transmitEnable (u : Uch11) : Bool := u.csr.getLsbD 5

/-- `CHAOS_CSR_RECEIVE_DONE` is set. -/
def receiveDone (u : Uch11) : Bool := u.csr.getLsbD 15

/-- `uch11_rx_pkt`. -/
def rxPkt (u : Uch11) : Uch11 :=
  let u := { u with rcvBufferPtr := 0, bitCount := (u.rcvBufferSize * 2 * 8 : ℤ) - 1 }
  if 0 < u.rcvBufferSize then
    { u with
      csr := u.csr ||| 0o100000
      interrupts := if u.receiveEnable then assertUnibusInterrupt 0o270 u.interrupts
        else u.interrupts }
  else u

/-- `uch11_xmit_done_intr`. -/
def xmitDoneIntr (u : Uch11) : Uch11 :=
  { u with
    csr := u.csr ||| 0o200
    interrupts := if u.transmitEnable then assertUnibusInterrupt 0o270 u.interrupts
      else u.interrupts }

/-- `uch11_get_bit_count`. -/
def getBitCount (u : Uch11) : ℤ := if 0 < u.rcvBufferSize then u.bitCount else 0o7777

/-- `uch11_get_rcv_buffer`. -/
def getRcvBuffer (u : Uch11) : HalfWord × Uch11 :=
  if u.rcvBufferPtr < u.rcvBufferSize then
    let rcvBufferPtr := u.rcvBufferPtr + 1
    (u.rcvBuffer u.rcvBufferPtr,
      { u with
        rcvBufferPtr := rcvBufferPtr
        rcvBufferEmpty := rcvBufferPtr = u.rcvBufferSize || u.rcvBufferEmpty })
  else (0, { u with csr := u.csr &&& ~~~0o100000, rcvBufferSize := 0 })

/-- `uch11_put_xmit_buffer`. -/
def putXmitBuffer (u : Uch11) (v : HalfWord) : Uch11 :=
  let u := if u.xmitBufferPtr < 4096 then
      { u with
        xmitBuffer := Function.update u.xmitBuffer u.xmitBufferPtr v
        xmitBufferPtr := u.xmitBufferPtr + 1 }
    else u
  { u with csr := u.csr &&& ~~~0o200 }

/-- `uch11_get_csr`. The lost count is shifted out of the bits that it is masked with. -/
def getCsr (u : Uch11) : HalfWord := u.csr ||| BitVec.ofNat 16 ((u.lostCount <<< 9) &&& 0o17)

/-- `uch11_force_reconect`, which closes the connection to the daemon. -/
def forceReconnect (c : Uch11Config) (u : Uch11) : Uch11 :=
  if c.backend = .daemon then { u with chaosdOpen := false } else u

/-- The bits of the CSR that a write does not change: transmit done, lost count, CRC
error, receive done and receiver clear. -/
def csrMask : HalfWord := 0o200 ||| 0o4000 ||| 0o40000 ||| 0o100000 ||| 0o10

/-- The part of `uch11_set_csr` for `CHAOS_CSR_RESET`. -/
def reset (c : Uch11Config) (u : Uch11) : Uch11 :=
  { u with
    rcvBufferPtr := 0, rcvBufferSize := 0, xmitBufferPtr := 0, lostCount := 0, bitCount := 0
    csr := (u.csr &&& ~~~(0o20000 ||| 0o100000)) ||| 0o200 }.forceReconnect c

/-- The part for `CHAOS_CSR_RECEIVER_CLEAR`. -/
def receiverClear (u : Uch11) : Uch11 :=
  { u with
    rcvBufferPtr := 0, rcvBufferSize := 0, lostCount := 0, bitCount := 0
    csr := u.csr &&& ~~~0o100000 }

/-- The part for `CHAOS_CSR_TRANSMITTER_CLEAR` and a 1 written as transmit done. -/
def transmitterClear (u : Uch11) : Uch11 :=
  { u with xmitBufferPtr := 0, csr := (u.csr &&& ~~~0o100) ||| 0o200 }

/-- The part for `CHAOS_CSR_RECEIVE_ENABLE`: a full buffer is presented again. -/
def receiverEnabled (u : Uch11) : Uch11 :=
  let u := if u.rcvBufferEmpty then { u with rcvBufferPtr := 0, rcvBufferSize := 0 } else u
  if 0 < u.rcvBufferSize then u.rxPkt else u

/-- `uch11_set_csr`. -/
def setCsr (c : Uch11Config) (u : Uch11) (v : HalfWord) : Uch11 :=
  let u := { u with csr := (u.csr &&& csrMask) ||| (v &&& ~~~csrMask) }
  let u := if u.csr.getLsbD 13 then u.reset c else u
  let u := if v.getLsbD 3 then u.receiverClear else u
  let u := if v.getLsbD 8 || v.getLsbD 7 then u.transmitterClear else u
  let u := if u.receiveEnable then u.receiverEnabled else u
  if u.transmitEnable then { u with csr := u.csr ||| 0o200 } else u

/-- The interface after `uch11_init`. -/
def init (interrupts : Interrupts) (chaosdOpen : Bool) : Uch11 :=
  { csr := 0, bitCount := 0, lostCount := 0, xmitBuffer := fun _ => 0, xmitBufferSize := 0
    xmitBufferPtr := 0, rcvBuffer := fun _ => 0, rcvBufferPtr := 0, rcvBufferSize := 0
    rcvBufferEmpty := true, chaosdOpen := chaosdOpen, interrupts := interrupts }

end Uch11

end Usim
