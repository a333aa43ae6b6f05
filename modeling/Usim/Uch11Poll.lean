import Usim.ChaosReceive
import Usim.Lib.Bytes
import Usim.Uch11Transmit

/-!
# Reception from the network

`chaos_poll_udp` and `chaos_poll_chaosd`. What the sockets deliver is an input of a poll, and
so is the outcome of `uch11_reconnect`. An access outside the receive buffer ends the
computation.
-/

namespace Usim

open Lib

/-- A byte of an array of half words. The low byte of a word comes first. -/
def byteAt (buffer : ℕ → HalfWord) (k : ℕ) : Byte := (buffer (k / 2)).extractLsb' (8 * (k % 2)) 8

/-- The half words of an array of bytes. -/
def halfWords (bytes : ℕ → Byte) : ℕ → HalfWord := fun i => bytes (2 * i + 1) ++ bytes (2 * i)

/-- `recv` or `read` of these bytes into an array. -/
def recvBytes (buffer : ℕ → HalfWord) (bs : List Byte) : ℕ → HalfWord :=
  halfWords fun k => bs.getD k (byteAt buffer k)

/-- `memmove` of `n` bytes from byte 4 on to the start. -/
def moveDown (buffer : ℕ → HalfWord) (n : ℕ) : ℕ → HalfWord :=
  halfWords fun k => byteAt buffer (if k < n then k + 4 else k)

/-- `ntohs_buf` of an array into itself. -/
def ntohsBuf (buffer : ℕ → HalfWord) (len : ℕ) : ℕ → HalfWord :=
  fun i => if 2 * i < len then ntohs (buffer i) else buffer i

/-- An access to `n` bytes from a byte on. -/
def Uch11Array.accessBytes (a : Uch11Array) (index n : ℕ) : Except OutOfBounds Unit :=
  if index + n ≤ 2 * a.words then .ok () else .error ⟨a, max (index / 2) a.words⟩

/-- What `poll` and `recv` of the datagram socket return. -/
inductive UdpPoll
  /-- `poll` fails, or times out. -/
  | nothing
  /-- `recv` returns a datagram, or fails. -/
  | datagram (bytes : Option (List Byte))

/-- What `poll` and `read` of the connection to the daemon return. -/
inductive ChaosdPoll
  /-- `poll` fails, or times out. -/
  | nothing
  /-- Whether the four bytes of the header are read, the length in them, and the packet. -/
  | readable (header : Bool) (len : HalfWord) (packet : Option (List Byte))

/-- What the network has for a poll. A backend looks at its own part. -/
structure PollInput where
  udp : UdpPoll
  chaosd : ChaosdPoll
  /-- `uch11_reconnect` calls `uch11_init`, which opens the connection or does not. -/
  reconnect : Option Bool

namespace Uch11

/-- The receive buffer is full, and not yet read to the end. -/
def bufferInUse (u : Uch11) : Bool := !u.rcvBufferEmpty && u.receiveDone

/-- A packet that is in the receive buffer is presented if it is for this host. -/
def acceptPacket (u : Uch11) (mine : HalfWord → Bool) : Except OutOfBounds Uch11 := do
  Uch11Array.rcvBuffer.access ((u.rcvBufferSize : ℤ) - 3)
  if mine (u.rcvBuffer (u.rcvBufferSize - 3)) then pure u.rxPkt
  else pure { u with rcvBufferSize := 0, rcvBufferEmpty := true }

/-- The part of `chaos_poll_udp` behind `recv`. -/
def receiveDatagram (c : Uch11Config) (u : Uch11) (datagram : List Byte) :
    Except OutOfBounds Uch11 :=
  let bs := datagram.take 8192
  let ret := bs.length
  let rcvBuffer := recvBytes u.rcvBuffer bs
  let u := { u with rcvBuffer := rcvBuffer }
  if ret = 0 ∨ 514 < ret then pure u
  -- the version and the function
  else if byteAt rcvBuffer 0 ≠ 1 ∨ byteAt rcvBuffer 1 ≠ 1 then pure u
  else do
    -- the length of the copy is computed as a `size_t`
    Uch11Array.rcvBuffer.accessBytes 4 (BitVec.ofNat 64 ret - 4).toNat
    let len := ret - 4
    Uch11Array.rcvBuffer.accessRange 0 ((len + 1) / 2)
    { u with
      rcvBuffer := ntohsBuf (moveDown rcvBuffer len) len
      rcvBufferSize := (len + 1) / 2
      rcvBufferEmpty := false }.acceptPacket fun destAddr => destAddr = c.myaddr || destAddr = 0

/-- A packet arrives that is tossed. -/
def toss (u : Uch11) : Uch11 := { u with lostCount := u.lostCount + 1 }

/-- `chaos_poll_udp` behind the poll for local traffic. -/
def pollSocket (c : Uch11Config) (input : UdpPoll) (u : Uch11) : Except OutOfBounds Uch11 :=
  if !u.chaosdOpen then pure u
  else match input with
    | .nothing => pure u
    | .datagram bytes =>
      if u.bufferInUse then pure u.toss
      else match bytes with
        | none => pure u
        | some datagram => u.receiveDatagram c datagram

/-- The poll for local traffic of `chaos_poll_udp`. -/
def pollHybrid (c : Uch11Config) (u : Uch11) (queuehead : List ChaosPacket) :
    Uch11 × List ChaosPacket :=
  if c.hybridUdpAndLocal then u.pollLocal c queuehead else (u, queuehead)

/-- `chaos_poll_udp`. -/
def pollUdp (c : Uch11Config) (input : UdpPoll) (u : Uch11) (queuehead : List ChaosPacket) :
    Except OutOfBounds (Uch11 × List ChaosPacket) :=
  let r := u.pollHybrid c queuehead
  (r.1.pollSocket c input).map fun u => (u, r.2)

/-- `uch11_init` in `uch11_reconnect`. -/
def reconnected (u : Uch11) : Option Bool → Uch11
  | none => u
  | some opened =>
    { u with chaosdOpen := opened, rcvBufferEmpty := opened || u.rcvBufferEmpty }

/-- The part of `chaos_poll_chaosd` behind the header. -/
def receiveFromChaosd (c : Uch11Config) (u : Uch11) (len : HalfWord) (packet : Option (List Byte)) :
    Except OutOfBounds Uch11 :=
  if 8192 < len then pure (u.forceReconnect c)
  else match packet with
    | none => pure (u.forceReconnect c)
    | some bytes =>
      let bs := bytes.take len.toNat
      let u := { u with rcvBuffer := recvBytes u.rcvBuffer bs }
      if bs.length = 0 then pure u
      else { u with
        rcvBufferSize := (bs.length + 1) / 2
        rcvBufferEmpty := false }.acceptPacket fun destAddr => destAddr = c.myaddr

/-- `chaos_poll_chaosd`. -/
def pollChaosd (c : Uch11Config) (reconnect : Option Bool) (input : ChaosdPoll) (u : Uch11) :
    Except OutOfBounds Uch11 :=
  let u := u.reconnected reconnect
  if !u.chaosdOpen then pure u
  else match input with
    | .nothing => pure u
    | .readable header len packet =>
      if u.bufferInUse then pure (if 8192 < len then u.toss.forceReconnect c else u.toss)
      else if !header then pure (u.forceReconnect c)
      else u.receiveFromChaosd c len packet

/-- `uch11_poll`. -/
def poll (c : Uch11Config) (input : PollInput) (u : Uch11) (queuehead : List ChaosPacket) :
    Except OutOfBounds (Uch11 × List ChaosPacket) :=
  match c.backend with
  | .local => pure (u.pollLocal c queuehead)
  | .daemon => (u.pollChaosd c input.reconnect input.chaosd).map fun u => (u, queuehead)
  | .udp => u.pollUdp c input.udp queuehead

end Uch11

end Usim
