import Mathlib.Data.Finset.Card
import Mathlib.Order.Interval.Finset.Nat
import Usim.ConnectionOrder

/-!
# The transmit window of a local connection

The packets of the server wait in `chaos_connection_queue` while the window is full,
and the packets of the other side acknowledge them. Several threads may send at a
time. The state records the numbers of the packets that were sent to the other side
and that it has not acknowledged yet.
-/

namespace Usim

/-- Open connection. -/
def opnop : Word := 0o2

/-- The connection that an RFC opens, with the `OPNOP` on its way. -/
def openConnection (serveraddr index : HalfWord) (rfc : ChaosPacket) : Option ChaosHost :=
  let conn := { allconn serveraddr index with faddr := rfc.saddr, fidx := rfc.sidx }
  let (answer, conn) := conn.allocatePacket opnop 4
  let answer := { answer with ackn := rfc.pkn }.withReceipt rfc.pkn conn.rwsize
  let host : ChaosHost := ⟨{ conn with racked := rfc.pkn }, []⟩
  (host.connectionQueue answer).map fun h => { h with conn.state := .listen }

/-- `chaos_queue_file_pkt`, up to the start of the server. -/
def chaosQueueFilePkt (serveraddr index : HalfWord) (rfc : ChaosPacket) : Option ChaosHost :=
  openConnection serveraddr index rfc

/-- `chaos_queue_mini_pkt`, up to the start of the server. -/
def chaosQueueMiniPkt (serveraddr index : HalfWord) (rfc : ChaosPacket) : Option ChaosHost :=
  (openConnection serveraddr index rfc).map fun h => { h with conn.rlast := 1 }

/-- What `chaos_connection_queue` does when its wait for the other side times out. -/
def ChaosHost.retransmit (h : ChaosHost) : ChaosHost :=
  match h.conn.lastpacket with
  | none => h
  | some packet => { h with conn := { h.conn with lastpacket := none } }.chaosQueue packet

/-- A packet in `chaos_connection_queue`, and whether its thread waits on `twcond`. -/
structure SendingPacket where
  packet : ChaosPacket
  waits : Bool

/-- What happens on a connection. -/
inductive WindowEvent
  /-- A thread of the server calls `chaos_allocate_packet` and fills the packet in. -/
  | allocate (opcode : Word) (len : ℕ) (op : BitVec 8) (cdata : ℕ → HalfWord)
  /-- The thread of packet `k` tests whether the window is full. -/
  | attempt (k : ℕ)
  /-- The wait of the thread of packet `k` times out. -/
  | timeout (k : ℕ)
  /-- The server calls `chaos_connection_dequeue`. -/
  | dequeue
  /-- A packet of the other side arrives. -/
  | arrive (packet : ChaosPacket)

/-- A connection, the packets being sent on it, and those sent. -/
structure TransmitState where
  host : ChaosHost
  sending : List SendingPacket
  /-- The numbers of the packets sent and not acknowledged. -/
  unacked : Finset HalfWord

/-- The packet is one for the other side, of an existing connection. -/
structure ChaosPacket.IsFrom (p : ChaosPacket) (faddr fidx : HalfWord) : Prop where
  saddr : p.saddr = faddr
  sidx : p.sidx = fidx
  not_back : p.daddr ≠ faddr
  not_cls : p.op ≠ clsop.setWidth 8

namespace TransmitState

/-- Nothing was sent but the `OPNOP`. -/
def start (h : ChaosHost) : TransmitState :=
  { host := h, sending := [], unacked := {h.conn.tlast} }

/-- The numbers not acknowledged after a packet was sent. -/
def unackedWith (s : TransmitState) (packet : ChaosPacket) : Finset HalfWord :=
  if packet.op ≠ stsop.setWidth 8 ∧ cmpGt packet.pkn s.host.conn.tacked then
    insert packet.pkn s.unacked
  else s.unacked

/-- The acknowledgment may have moved. -/
def received (s : TransmitState) (h : ChaosHost) : TransmitState :=
  { s with host := h, unacked := s.unacked.filter fun n => cmpGt n h.conn.tacked }

/-- The thread of a packet goes on, or waits for room. -/
def attempt (k : ℕ) (s : TransmitState) : TransmitState :=
  match s.sending[k]? with
  | none => s
  | some x =>
    match s.host.connectionQueue x.packet with
    | none => { s with sending := s.sending.set k { x with waits := true } }
    | some h => { host := h, sending := s.sending.eraseIdx k, unacked := s.unackedWith x.packet }

/-- A thread that has waited for five seconds. -/
def timeout (k : ℕ) (s : TransmitState) : TransmitState :=
  match s.sending[k]? with
  | none => s
  | some x =>
    if x.waits then
      { s with host := s.host.retransmit, sending := s.sending.set k { x with waits := false } }
    else s

/-- One event. -/
def next (e : WindowEvent) (s : TransmitState) : TransmitState :=
  match e with
  | .allocate opcode len op cdata =>
    let (packet, conn) := s.host.conn.allocatePacket opcode len
    { s with
      host.conn := conn
      sending := s.sending ++ [⟨{ packet with op := op, cdata := cdata }, false⟩] }
  | .attempt k => s.attempt k
  | .timeout k => s.timeout k
  | .dequeue =>
    match s.host.connectionDequeue with
    | none => s
    | some (_, h) => s.received h
  | .arrive packet =>
    match s.host.sendToLocal packet with
    | none => s
    | some h => s.received h

/-- One event, as a step of a run. -/
def step (e : WindowEvent) (s : TransmitState) : Except Empty TransmitState := .ok (s.next e)

/-- A packet that is no status packet was queued to the other side. -/
def Sends (s s' : TransmitState) : Prop :=
  ∃ p ∈ s'.host.recvqueue.drop s.host.recvqueue.length, p.op ≠ stsop.setWidth 8

/-- The acknowledgment moves forward, if at all, and not past the last packet sent; and when
a packet is sent, no more than a window is not acknowledged. -/
structure InWindow (s s' : TransmitState) : Prop where
  forward : s'.host.conn.tacked = s.host.conn.tacked ∨ cmpGt s'.host.conn.tacked s.host.conn.tacked
  notPast : ¬cmpGt s'.host.conn.tacked s'.host.conn.tlast
  window : Sends s s' → s'.unacked.card ≤ s'.host.conn.twsize.toNat

/-- An acknowledgment that is taken over is not past the last packet sent. -/
def AckArrives (p : ChaosPacket) (s : TransmitState) : Prop :=
  cmpGt p.ackn s.host.conn.tacked → ¬cmpGt p.ackn s.host.conn.tlast

/-- The condition on an event. A packet sent before the connection is open finds room in the
window, and no number is 2^15 or more ahead of the acknowledgment. A packet is repeated when no
more than a window is not acknowledged. The packet taken from the queue acknowledges no less
than was acknowledged before, and nothing that was not sent; and what a `SNSOP` or `STSOP`
acknowledges was sent. -/
def Accountable : WindowEvent → TransmitState → Prop
  | .allocate _ _ _ _, _ => True
  | .attempt k, s => ∀ x ∈ s.sending[k]?, x.packet.op ≠ stsop.setWidth 8 →
    s.host.conn.chtfull = false →
      (s.host.conn.state ≠ .opened →
        (s.unackedWith x.packet).card ≤ s.host.conn.twsize.toNat) ∧
      (cmpGt x.packet.pkn s.host.conn.tlast → ¬cmpGt s.host.conn.tacked x.packet.pkn)
  | .timeout k, s => ∀ x ∈ s.sending[k]?, x.waits = true →
    ∀ p ∈ s.host.conn.lastpacket, p.op ≠ stsop.setWidth 8 →
      s.unacked.card ≤ s.host.conn.twsize.toNat
  | .dequeue, s => ∀ p ∈ s.host.conn.queuehead.head?,
    (p.ackn = s.host.conn.tacked ∨ cmpGt p.ackn s.host.conn.tacked) ∧
      ¬cmpGt p.ackn s.host.conn.tlast
  | .arrive p, s => p.op = snsop.setWidth 8 ∨ p.op = stsop.setWidth 8 → AckArrives p s

end TransmitState

namespace ChaosHost

variable {h : ChaosHost} {p : ChaosPacket}

/-- What the receive side changes: it sends status packets only, and leaves the numbers of the
packets sent. -/
structure Answers (h h' : ChaosHost) : Prop where
  tlast : h'.conn.tlast = h.conn.tlast
  faddr : h'.conn.faddr = h.conn.faddr
  fidx : h'.conn.fidx = h.conn.fidx
  state : h.conn.state ≠ .closed → h'.conn.state ≠ .closed
  status : ∃ l, h'.recvqueue = h.recvqueue ++ l ∧ ∀ p ∈ l, p.op = stsop.setWidth 8

/-- Nothing is sent. -/
theorem Answers.silent {h h' : ChaosHost} (htlast : h'.conn.tlast = h.conn.tlast)
    (hfaddr : h'.conn.faddr = h.conn.faddr) (hfidx : h'.conn.fidx = h.conn.fidx)
    (hstate : h.conn.state ≠ .closed → h'.conn.state ≠ .closed)
    (hqueue : h'.recvqueue = h.recvqueue) : Answers h h' where
  tlast := htlast
  faddr := hfaddr
  fidx := hfidx
  state := hstate
  status := ⟨[], hqueue.trans (List.append_nil _).symm, fun _ hq => absurd hq List.not_mem_nil⟩

/-- A packet for the other side waits if the window is full. -/
theorem connectionQueue_remote (hd : p.daddr = h.conn.faddr) :
    h.connectionQueue p =
      if h.conn.chtfull && p.op ≠ stsop.setWidth 8 then none
      else some ({ h with conn := { h.conn with
        tlast := if p.op ≠ stsop.setWidth 8 ∧ p.didx = h.conn.fidx ∧ cmpGt p.pkn h.conn.tlast
          then p.pkn else h.conn.tlast
        lastpacket := some p } }.chaosQueue p) := by
  rw [connectionQueue, if_pos hd]

/-- What the server gets from the queue. -/
theorem answers_acknowledge (h : ChaosHost) (p : ChaosPacket) :
    Answers h (h.acknowledge p) ∧ (h.acknowledge p).conn.tacked = p.ackn ∧
      (h.acknowledge p).conn.twsize = h.conn.twsize := by
  unfold acknowledge
  generalize (if cmpGt p.pkn h.conn.rlast then p.pkn else h.conn.rlast) = rlast
  simp only
  split
  · refine ⟨⟨rfl, rfl, rfl, id, [_], rfl, ?_⟩, rfl, rfl⟩
    intro q hq
    rw [List.mem_singleton.mp hq]
    rfl
  · exact ⟨.silent rfl rfl rfl id rfl, rfl, rfl⟩

/-- A packet for this side is kept. -/
theorem answers_connectionQueue (hd : p.daddr ≠ h.conn.faddr) :
    ∃ h', h.connectionQueue p = some h' ∧ Answers h h' ∧ h'.conn.tacked = h.conn.tacked := by
  rw [connectionQueue, if_neg hd]
  simp only
  split
  · exact ⟨_, rfl, .silent rfl rfl rfl id rfl, rfl⟩
  · exact ⟨_, rfl, .silent rfl rfl rfl id rfl, rfl⟩

/-- A status packet is sent. -/
theorem answers_status (hop : p.op = stsop.setWidth 8) (hd : p.daddr = h.conn.faddr) :
    ∃ h', h.connectionQueue p = some h' ∧ Answers h h' ∧ h'.conn.tacked = h.conn.tacked := by
  refine ⟨_, connectionQueue_status hop hd, ⟨rfl, rfl, rfl, id, [p], rfl, ?_⟩, rfl⟩
  intro q hq
  rw [List.mem_singleton.mp hq, hop]

/-- The opcodes that acknowledge when they arrive. -/
def Acknowledging (p : ChaosPacket) : Prop := p.op = snsop.setWidth 8 ∨ p.op = stsop.setWidth 8

instance (p : ChaosPacket) : Decidable (Acknowledging p) := inferInstanceAs (Decidable (_ ∨ _))

/-- What arrives from the other side. -/
theorem answers_sendToLocal {faddr fidx : HalfWord} (hp : p.IsFrom faddr fidx)
    (haddr : h.conn.faddr = faddr) (hidx : h.conn.fidx = fidx) :
    ∃ h', h.sendToLocal p = some h' ∧ Answers h h' ∧ h'.conn.tacked =
      if Acknowledging p ∧ cmpGt p.ackn h.conn.tacked then p.ackn else h.conn.tacked := by
  have hback : p.daddr ≠ h.conn.faddr := haddr ▸ hp.not_back
  have hsns_rfc : snsop.setWidth 8 ≠ rfcop.setWidth 8 := by decide
  have hsts_rfc : stsop.setWidth 8 ≠ rfcop.setWidth 8 := by decide
  have hsts_sns : stsop.setWidth 8 ≠ snsop.setWidth 8 := by decide
  unfold sendToLocal
  by_cases hrfc : p.op = rfcop.setWidth 8
  · have hnot : ¬(Acknowledging p ∧ cmpGt p.ackn h.conn.tacked) := by
      rintro ⟨hsns | hsts, -⟩
      · exact hsns_rfc (hsns.symm.trans hrfc)
      · exact hsts_rfc (hsts.symm.trans hrfc)
    rw [if_pos hrfc, if_neg hnot]
    split
    · exact ⟨_, rfl, .silent rfl rfl rfl id rfl, rfl⟩
    · exact answers_connectionQueue hback
  rw [if_neg hrfc]
  by_cases hsns : p.op = snsop.setWidth 8
  · have hack : Acknowledging p := Or.inl hsns
    simp only [if_pos hsns, hack, true_and]
    obtain ⟨h', hqueue, hanswers, htacked⟩ := answers_status
      (h := { h with conn := { h.conn with
        faddr := p.saddr, fidx := p.sidx
        tacked := if cmpGt p.ackn h.conn.tacked then p.ackn else h.conn.tacked } })
      (p := { pkalloc with
        op := stsop.setWidth 8, len := 4, daddr := p.saddr, didx := p.sidx, saddr := h.conn.laddr
        sidx := h.conn.lidx, pkn := p.pkn, ackn := h.conn.racked }.withReceipt h.conn.racked
          h.conn.rwsize) rfl rfl
    exact ⟨h', hqueue, ⟨hanswers.tlast, hanswers.faddr.trans (hp.saddr.trans haddr.symm),
      hanswers.fidx.trans (hp.sidx.trans hidx.symm), hanswers.state, hanswers.status⟩, htacked⟩
  rw [if_neg hsns]
  by_cases hsts : p.op = stsop.setWidth 8
  · have hack : Acknowledging p := Or.inr hsts
    simp only [if_pos hsts, hack, true_and]
    refine ⟨_, rfl, .silent rfl rfl rfl (fun _ hclosed => ?_) rfl, rfl⟩
    cases hclosed
  have hnot : ¬(Acknowledging p ∧ cmpGt p.ackn h.conn.tacked) := fun hack =>
    hack.1.elim hsns hsts
  rw [if_neg hsts, if_neg hp.not_cls, if_neg hnot]
  unfold receiveData
  split
  · simp only
    obtain ⟨h', hqueue, hanswers, htacked⟩ := answers_status
      (h := { h with conn := { (h.conn.allocatePacket stsop 4).2 with
        racked := (h.conn.allocatePacket stsop 4).2.rlast } })
      (p := { (h.conn.allocatePacket stsop 4).1 with pkn := p.pkn }.withReceipt
        (h.conn.allocatePacket stsop 4).2.rlast (h.conn.allocatePacket stsop 4).2.rwsize) rfl rfl
    exact ⟨h', hqueue, ⟨hanswers.tlast, hanswers.faddr, hanswers.fidx, hanswers.state,
      hanswers.status⟩, htacked⟩
  · exact answers_connectionQueue hback

end ChaosHost

namespace TransmitState

variable {s s' : TransmitState} {h : ChaosHost} {faddr fidx : HalfWord}

/-- What was sent and not acknowledged lies between the acknowledgment and the last packet
sent. -/
structure Counted (faddr fidx : HalfWord) (s : TransmitState) : Prop where
  tacked : ¬cmpGt s.host.conn.tacked s.host.conn.tlast
  unacked : ∀ n ∈ s.unacked, cmpGt n s.host.conn.tacked ∧ ¬cmpGt n s.host.conn.tlast
  address : s.host.conn.faddr = faddr
  index : s.host.conn.fidx = fidx
  state : s.host.conn.state ≠ .closed
  sending : ∀ x ∈ s.sending, x.packet.daddr = faddr ∧ x.packet.didx = fidx

/-- The distance of the acknowledgment from the last packet sent bounds what is not
acknowledged. -/
theorem Counted.card_le (hs : Counted faddr fidx s) :
    s.unacked.card ≤ (s.host.conn.tlast - s.host.conn.tacked).toNat := by
  have htacked := hs.tacked
  rw [cmpGt_iff] at htacked
  have hcard := Finset.card_le_card_of_injOn (s := s.unacked)
    (t := Finset.Icc 1 (s.host.conn.tlast - s.host.conn.tacked).toNat)
    (fun n => (n - s.host.conn.tacked).toNat) ?_ ?_
  · rwa [Nat.card_Icc, Nat.add_sub_cancel] at hcard
  · intro n hn
    obtain ⟨hlater, hsent⟩ := hs.unacked n hn
    rw [cmpGt_iff] at hlater hsent
    rw [Finset.mem_coe, Finset.mem_Icc]
    constructor <;> bv_omega
  · intro n _ m _ heq
    exact sub_left_inj.mp (BitVec.eq_of_toNat_eq heq)

/-- If the window is not full, one more packet fits. -/
theorem Counted.card_lt (hs : Counted faddr fidx s) (hopen : s.host.conn.state = .opened)
    (hroom : s.host.conn.chtfull = false) : s.unacked.card < s.host.conn.twsize.toNat := by
  have hcard := hs.card_le
  have htacked := hs.tacked
  rw [cmpGt_iff] at htacked
  unfold ChaosConnection.chtfull at hroom
  rw [hopen, decide_eq_true rfl, Bool.true_and, decide_eq_false_iff_not, not_le,
    BitVec.toInt_eq_toNat_of_lt (by omega)] at hroom
  omega

/-- Nothing but status packets was sent. -/
theorem not_sends_of_status {l : List ChaosPacket} (hl : ∀ p ∈ l, p.op = stsop.setWidth 8)
    (hqueue : s'.host.recvqueue = s.host.recvqueue ++ l) : ¬Sends s s' := by
  rintro ⟨p, hp, hop⟩
  rw [hqueue, List.drop_left] at hp
  exact hop (hl p hp)

/-- Nothing is queued to the other side. -/
theorem not_sends_of_eq (hqueue : s'.host.recvqueue = s.host.recvqueue) : ¬Sends s s' :=
  not_sends_of_status (l := []) (fun _ hp => absurd hp List.not_mem_nil)
    (hqueue.trans (List.append_nil _).symm)

/-- A packet that was sent. -/
theorem sends_iff {p : ChaosPacket} (hqueue : s'.host.recvqueue = s.host.recvqueue ++ [p]) :
    Sends s s' ↔ p.op ≠ stsop.setWidth 8 := by
  unfold Sends
  rw [hqueue, List.drop_left]
  simp only [List.mem_singleton, exists_eq_left]

/-- Where no acknowledgment arrives and nothing is sent, nothing has to be counted. -/
theorem Counted.inWindow_of_same (hs : Counted faddr fidx s)
    (htacked : s'.host.conn.tacked = s.host.conn.tacked)
    (htlast : s'.host.conn.tlast = s.host.conn.tlast)
    (hqueue : s'.host.recvqueue = s.host.recvqueue) : InWindow s s' := by
  refine ⟨Or.inl htacked, ?_, fun hsends => absurd hsends (not_sends_of_eq hqueue)⟩
  rw [htacked, htlast]
  exact hs.tacked

/-- Where an acknowledgment arrives, it has to be in order. -/
theorem inWindow_received (ha : ChaosHost.Answers s.host h) :
    InWindow s (s.received h) ↔
      (h.conn.tacked = s.host.conn.tacked ∨ cmpGt h.conn.tacked s.host.conn.tacked) ∧
        ¬cmpGt h.conn.tacked s.host.conn.tlast := by
  obtain ⟨l, hqueue, hl⟩ := ha.status
  rw [← ha.tlast]
  exact ⟨fun hw => ⟨hw.forward, hw.notPast⟩, fun hw =>
    ⟨hw.1, hw.2, fun hsends => absurd hsends (not_sends_of_status hl hqueue)⟩⟩

/-- What is not acknowledged after an acknowledgment. -/
theorem Counted.received (hs : Counted faddr fidx s) (ha : ChaosHost.Answers s.host h)
    (hsent : ¬cmpGt h.conn.tacked s.host.conn.tlast) : Counted faddr fidx (s.received h) where
  tacked := by
    change ¬cmpGt h.conn.tacked h.conn.tlast
    rwa [ha.tlast]
  unacked := by
    intro n hn
    obtain ⟨hmem, hlater⟩ := Finset.mem_filter.mp hn
    change cmpGt n h.conn.tacked ∧ ¬cmpGt n h.conn.tlast
    rw [ha.tlast]
    exact ⟨hlater, (hs.unacked n hmem).2⟩
  address := ha.faddr.trans hs.address
  index := ha.fidx.trans hs.index
  state := ha.state hs.state
  sending := hs.sending

/-- A packet that is allocated is for the other side. -/
theorem Counted.allocate (hs : Counted faddr fidx s) (opcode : Word) (len : ℕ) (op : BitVec 8)
    (cdata : ℕ → HalfWord) : Counted faddr fidx (s.next (.allocate opcode len op cdata)) where
  tacked := hs.tacked
  unacked := hs.unacked
  address := hs.address
  index := hs.index
  state := hs.state
  sending := by
    intro x hx
    rcases List.mem_append.mp hx with hx | hx
    · exact hs.sending x hx
    · rw [List.mem_singleton.mp hx]
      exact ⟨hs.address, hs.index⟩

/-- The state while a packet waits for room. -/
theorem Counted.setSending (hs : Counted faddr fidx s) {k : ℕ} {x : SendingPacket}
    (hx : x ∈ s.sending) (waits : Bool) {h : ChaosHost}
    (htacked : h.conn.tacked = s.host.conn.tacked)
    (htlast : h.conn.tlast = s.host.conn.tlast) (hfaddr : h.conn.faddr = s.host.conn.faddr)
    (hfidx : h.conn.fidx = s.host.conn.fidx) (hstate : h.conn.state = s.host.conn.state) :
    Counted faddr fidx
      { s with host := h, sending := s.sending.set k { x with waits := waits } } where
  tacked := by
    simp only [htacked, htlast]
    exact hs.tacked
  unacked := by
    simp only [htacked, htlast]
    exact hs.unacked
  address := hfaddr.trans hs.address
  index := hfidx.trans hs.index
  state := by
    simp only [hstate]
    exact hs.state
  sending := by
    intro y hy
    rcases List.mem_or_eq_of_mem_set hy with hy | rfl
    · exact hs.sending y hy
    · exact hs.sending x hx

/-- A packet is queued to the other side. -/
theorem Counted.sent (hs : Counted faddr fidx s) {k : ℕ} {x : SendingPacket} {tlast : HalfWord}
    (htlast : tlast = if x.packet.op ≠ stsop.setWidth 8 ∧
      cmpGt x.packet.pkn s.host.conn.tlast then x.packet.pkn else s.host.conn.tlast)
    (hahead : ¬cmpGt s.host.conn.tacked tlast) (lastpacket : Option ChaosPacket)
    (recvqueue : List ChaosPacket) :
    Counted faddr fidx
      { host := ⟨{ s.host.conn with tlast := tlast, lastpacket := lastpacket }, recvqueue⟩
        sending := s.sending.eraseIdx k, unacked := s.unackedWith x.packet } where
  tacked := hahead
  unacked := by
    intro n hn
    change cmpGt n s.host.conn.tacked ∧ ¬cmpGt n tlast
    have htacked := hs.tacked
    have hkept (hmem : n ∈ s.unacked) : cmpGt n s.host.conn.tacked ∧ ¬cmpGt n tlast := by
      obtain ⟨hlater, hsent⟩ := hs.unacked n hmem
      refine ⟨hlater, ?_⟩
      rw [htlast] at hahead ⊢
      split
      · rename_i hnext
        rw [if_pos hnext] at hahead
        have hnext' := hnext.2
        rw [cmpGt_iff] at hahead htacked hlater hsent hnext' ⊢
        bv_omega
      · exact hsent
    unfold unackedWith at hn
    split at hn
    · rename_i hcounts
      rcases Finset.mem_insert.mp hn with rfl | hmem
      · refine ⟨hcounts.2, ?_⟩
        rw [htlast]
        split
        · rw [cmpGt_iff]
          bv_omega
        · rename_i hnext
          exact fun hgt => hnext ⟨hcounts.1, hgt⟩
      · exact hkept hmem
    · exact hkept hn
  address := hs.address
  index := hs.index
  state := hs.state
  sending := fun y hy => hs.sending y (List.mem_of_mem_eraseIdx hy)

/-- A thread that tests the window. -/
theorem Counted.attempt (hs : Counted faddr fidx s) (k : ℕ) :
    (InWindow s (s.attempt k) ↔ Accountable (.attempt k) s) ∧
      (Accountable (.attempt k) s → Counted faddr fidx (s.attempt k)) := by
  unfold TransmitState.attempt
  simp only [Accountable]
  cases hk : s.sending[k]? with
  | none =>
    exact ⟨⟨fun _ _ hx => (nomatch hx), fun _ => hs.inWindow_of_same rfl rfl rfl⟩, fun _ => hs⟩
  | some x =>
    have hx := List.mem_of_getElem? hk
    obtain ⟨hdaddr, hdidx⟩ := hs.sending x hx
    have hidx : x.packet.didx = s.host.conn.fidx := hdidx.trans hs.index.symm
    simp only [Option.mem_some_iff, forall_eq']
    rw [ChaosHost.connectionQueue_remote (hdaddr.trans hs.address.symm)]
    by_cases hop : x.packet.op = stsop.setWidth 8
    · -- a status packet does not wait and takes no number
      have hnone : ¬(s.host.conn.chtfull && decide (x.packet.op ≠ stsop.setWidth 8)) = true := by
        simp [hop]
      have hsame : (if x.packet.op ≠ stsop.setWidth 8 ∧ x.packet.didx = s.host.conn.fidx ∧
          cmpGt x.packet.pkn s.host.conn.tlast then x.packet.pkn else s.host.conn.tlast) =
            s.host.conn.tlast := if_neg fun h => h.1 hop
      rw [if_neg hnone, hsame]
      refine ⟨⟨fun _ hne => absurd hop hne, fun _ => ?_⟩, fun _ => ?_⟩
      · refine ⟨Or.inl rfl, hs.tacked, fun hsends => ?_⟩
        exact absurd hop ((sends_iff rfl).mp hsends)
      · exact hs.sent (if_neg fun h => h.1 hop).symm hs.tacked _ _
    cases hfull : s.host.conn.chtfull with
    | true =>
      have hwaits : (true && decide (x.packet.op ≠ stsop.setWidth 8)) = true := by simp [hop]
      rw [if_pos hwaits]
      exact ⟨⟨fun _ _ hroom => (nomatch hroom), fun _ => hs.inWindow_of_same rfl rfl rfl⟩,
        fun _ => hs.setSending hx true rfl rfl rfl rfl rfl⟩
    | false =>
      rw [Bool.false_and, if_neg Bool.false_ne_true]
      simp only [ne_eq, hop, not_false_eq_true, hidx, true_and, forall_const]
      generalize htlast : (if cmpGt x.packet.pkn s.host.conn.tlast then x.packet.pkn
        else s.host.conn.tlast) = tlast
      have hahead :
          (cmpGt x.packet.pkn s.host.conn.tlast → ¬cmpGt s.host.conn.tacked x.packet.pkn) ↔
          ¬cmpGt s.host.conn.tacked tlast := by
        rw [← htlast]
        by_cases hnext : cmpGt x.packet.pkn s.host.conn.tlast
        · rw [if_pos hnext]
          exact ⟨fun h => h hnext, fun h _ => h⟩
        · rw [if_neg hnext]
          exact ⟨fun _ => hs.tacked, fun _ h => absurd h hnext⟩
      rw [hahead]
      refine ⟨⟨fun hw => ?_, fun hc => ?_⟩, fun hc => ?_⟩
      · exact ⟨fun _ => hw.window ((sends_iff rfl).mpr hop), hw.notPast⟩
      · refine ⟨Or.inl rfl, hc.2, fun _ => ?_⟩
        by_cases hopen : s.host.conn.state = .opened
        · have hroom := hs.card_lt hopen hfull
          have hgrows : (s.unackedWith x.packet).card ≤ s.unacked.card + 1 := by
            unfold unackedWith
            split
            · exact Finset.card_insert_le _ _
            · exact Nat.le_succ _
          exact hgrows.trans hroom
        · exact hc.1 hopen
      · refine hs.sent ?_ hc.2 _ _
        simp only [ne_eq, hop, not_false_eq_true, true_and, htlast]

/-- A thread whose wait times out. -/
theorem Counted.timeout (hs : Counted faddr fidx s) (k : ℕ) :
    (InWindow s (s.timeout k) ↔ Accountable (.timeout k) s) ∧
      Counted faddr fidx (s.timeout k) := by
  unfold TransmitState.timeout ChaosHost.retransmit
  simp only [Accountable]
  cases hk : s.sending[k]? with
  | none => exact ⟨⟨fun _ _ hx => (nomatch hx), fun _ => hs.inWindow_of_same rfl rfl rfl⟩, hs⟩
  | some x =>
    have hx := List.mem_of_getElem? hk
    simp only [Option.mem_some_iff, forall_eq']
    cases hwaits : x.waits with
    | false =>
      rw [if_neg Bool.false_ne_true]
      exact ⟨⟨fun _ hw => (nomatch hw), fun _ => hs.inWindow_of_same rfl rfl rfl⟩, hs⟩
    | true =>
      rw [if_pos rfl]
      cases hlast : s.host.conn.lastpacket with
      | none =>
        exact ⟨⟨fun _ _ _ hp => (nomatch hp), fun _ => hs.inWindow_of_same rfl rfl rfl⟩,
          hs.setSending hx false rfl rfl rfl rfl rfl⟩
      | some p =>
        simp only [Option.mem_some_iff, forall_eq', forall_const]
        refine ⟨⟨fun hw hop => ?_, fun hc => ?_⟩, hs.setSending hx false rfl rfl rfl rfl rfl⟩
        · exact hw.window ((sends_iff rfl).mpr hop)
        · exact ⟨Or.inl rfl, hs.tacked, fun hsends => hc ((sends_iff rfl).mp hsends)⟩

/-- The server takes a packet from the queue. -/
theorem Counted.dequeue (hs : Counted faddr fidx s) :
    (InWindow s (s.next .dequeue) ↔ Accountable .dequeue s) ∧
      (Accountable .dequeue s → Counted faddr fidx (s.next .dequeue)) := by
  simp only [next, Accountable, ChaosHost.connectionDequeue, if_neg hs.state]
  cases hqueue : s.host.conn.queuehead with
  | nil =>
    exact ⟨⟨fun _ _ hp => absurd hp (Option.not_mem_none _),
      fun _ => hs.inWindow_of_same rfl rfl rfl⟩, fun _ => hs⟩
  | cons p rest =>
    obtain ⟨ha, htacked, -⟩ := ChaosHost.answers_acknowledge
      { s.host with conn := { s.host.conn with queuehead := rest } } p
    have hanswers : ChaosHost.Answers s.host ({ s.host with
        conn := { s.host.conn with queuehead := rest } }.acknowledge p) :=
      ⟨ha.tlast, ha.faddr, ha.fidx, ha.state, ha.status⟩
    simp only [List.head?_cons, Option.mem_some_iff, forall_eq']
    rw [inWindow_received hanswers, htacked]
    exact ⟨Iff.rfl, fun hc => hs.received hanswers (htacked ▸ hc.2)⟩

/-- A packet of the other side arrives. -/
theorem Counted.arrive (hs : Counted faddr fidx s) {p : ChaosPacket} (hp : p.IsFrom faddr fidx) :
    (InWindow s (s.next (.arrive p)) ↔ Accountable (.arrive p) s) ∧
      (Accountable (.arrive p) s → Counted faddr fidx (s.next (.arrive p))) := by
  obtain ⟨h', hsend, hanswers, htacked⟩ :=
    ChaosHost.answers_sendToLocal (h := s.host) hp hs.address hs.index
  simp only [next, Accountable, hsend]
  rw [inWindow_received hanswers, htacked]
  by_cases hack : ChaosHost.Acknowledging p ∧ cmpGt p.ackn s.host.conn.tacked
  · rw [if_pos hack] at htacked ⊢
    refine ⟨⟨fun hw _ _ => hw.2, fun hc => ⟨Or.inr hack.2, hc hack.1 hack.2⟩⟩, fun hc => ?_⟩
    exact hs.received hanswers (htacked ▸ hc hack.1 hack.2)
  · rw [if_neg hack] at htacked ⊢
    refine ⟨⟨fun _ hop hgt => absurd ⟨hop, hgt⟩ hack, fun _ => ⟨Or.inl rfl, hs.tacked⟩⟩,
      fun _ => ?_⟩
    exact hs.received hanswers (htacked ▸ hs.tacked)

/-- An event of the connection. -/
def IsEvent (faddr fidx : HalfWord) : WindowEvent → Prop
  | .arrive p => p.IsFrom faddr fidx
  | _ => True

/-- One event keeps the window exactly if it meets the condition, and then goes on so. -/
theorem Counted.next (hs : Counted faddr fidx s) {e : WindowEvent} (he : IsEvent faddr fidx e) :
    (InWindow s (s.next e) ↔ Accountable e s) ∧
      (Accountable e s → Counted faddr fidx (s.next e)) := by
  cases e with
  | allocate opcode len op cdata =>
    exact ⟨⟨fun _ => trivial, fun _ => hs.inWindow_of_same rfl rfl rfl⟩,
      fun _ => hs.allocate opcode len op cdata⟩
  | attempt k => exact hs.attempt k
  | timeout k => exact ⟨(hs.timeout k).1, fun _ => (hs.timeout k).2⟩
  | dequeue => exact hs.dequeue
  | arrive p => exact hs.arrive he

/-- The `OPNOP` of a new connection is sent with number 1. -/
theorem openConnection_eq (serveraddr index : HalfWord) (rfc : ChaosPacket) :
    ∃ h, openConnection serveraddr index rfc = some h ∧ h.conn.tlast = 1 ∧ h.conn.tacked = 0 ∧
      h.conn.faddr = rfc.saddr ∧ h.conn.fidx = rfc.sidx ∧ h.conn.state = .listen := by
  have hop : opnop.setWidth 8 ≠ stsop.setWidth 8 := by decide
  have hnumber : ({ allconn serveraddr index with
      faddr := rfc.saddr, fidx := rfc.sidx } : ChaosConnection).nextNumber opnop = 1 := by
    change (if (if opnop = stsop then (0 : HalfWord) else 0 + 1) = 0 then 1
      else if opnop = stsop then (0 : HalfWord) else 0 + 1) = 1
    decide
  have hnext : cmpGt 1 0 = true := by decide
  simp only [openConnection, ChaosConnection.allocatePacket, hnumber, ChaosPacket.withReceipt]
  rw [ChaosHost.connectionQueue_remote rfl]
  simp only [ChaosConnection.chtfull, allconn, reduceCtorEq, decide_false, Bool.false_and,
    Bool.false_eq_true, if_false, ne_eq, hop, not_false_eq_true, hnext, true_and, if_true]
  exact ⟨_, rfl, rfl, rfl, rfl, rfl, rfl⟩

/-- A new connection is counted. -/
theorem counted_start {serveraddr index : HalfWord} {rfc : ChaosPacket}
    (hopen : chaosQueueFilePkt serveraddr index rfc = some h ∨
      chaosQueueMiniPkt serveraddr index rfc = some h) :
    Counted rfc.saddr rfc.sidx (start h) := by
  obtain ⟨h', hopen', htlast, htacked, hfaddr, hfidx, hstate⟩ :=
    openConnection_eq serveraddr index rfc
  have hstart : h.conn.tlast = 1 ∧ h.conn.tacked = 0 ∧ h.conn.faddr = rfc.saddr ∧
      h.conn.fidx = rfc.sidx ∧ h.conn.state = .listen := by
    unfold chaosQueueFilePkt chaosQueueMiniPkt at hopen
    rw [hopen'] at hopen
    obtain hopen | hopen := hopen
    · cases hopen
      exact ⟨htlast, htacked, hfaddr, hfidx, hstate⟩
    · cases hopen
      exact ⟨htlast, htacked, hfaddr, hfidx, hstate⟩
  obtain ⟨htlast, htacked, hfaddr, hfidx, hstate⟩ := hstart
  refine ⟨?_, ?_, hfaddr, hfidx, ?_, fun _ hx => nomatch hx⟩
  · change ¬cmpGt h.conn.tacked h.conn.tlast
    rw [htlast, htacked]
    decide
  · intro n hn
    rw [Finset.mem_singleton.mp hn]
    change cmpGt h.conn.tlast h.conn.tacked ∧ ¬cmpGt h.conn.tlast h.conn.tlast
    rw [htlast, htacked]
    decide
  · change h.conn.state ≠ .closed
    rw [hstate]
    decide

/-- In every run of a connection, from its opening RFC on, every event keeps the window if and
only if every event is accountable. -/
theorem transmit_window {serveraddr index : HalfWord} {rfc : ChaosPacket}
    (hopen : chaosQueueFilePkt serveraddr index rfc = some h ∨
      chaosQueueMiniPkt serveraddr index rfc = some h)
    {es : List WindowEvent} (hes : ∀ e ∈ es, IsEvent rfc.saddr rfc.sidx e) :
    Lib.EveryStep step (fun e s => InWindow s (s.next e)) es (start h) ↔
      Lib.EveryStep step Accountable es (start h) := by
  refine Lib.everyStep_iff_of_forall (E := IsEvent rfc.saddr rfc.sidx)
    (I := Counted rfc.saddr rfc.sidx) ?_ ?_ hes (counted_start hopen)
  · intro e s s' he hs _
    exact (hs.next he).1
  · intro e s s' he hs hstep hc
    cases hstep
    exact (hs.next he).2 hc

/-- A packet from address 0401 to the server 0177001. -/
def examplePacket (op : BitVec 8) (pkn ackn : HalfWord) : ChaosPacket :=
  { pkalloc with
    op := op, daddr := 0o177001, saddr := 0o401, sidx := 7, pkn := pkn, ackn := ackn
    cdata := fun _ => 5 }

/-- It is one of the connection. -/
theorem isEvent_examplePacket {op : BitVec 8} (hop : op ≠ clsop.setWidth 8) (pkn ackn : HalfWord) :
    IsEvent 0o401 7 (.arrive (examplePacket op pkn ackn)) :=
  ⟨rfl, rfl, by change (0o177001 : HalfWord) ≠ 0o401; decide, hop⟩

/-- The connection of an RFC to the file server. -/
def exampleConnection : ChaosHost :=
  (chaosQueueFilePkt 0o177001 0o401 (examplePacket 0o1 0 0)).getD ⟨allconn 0o177001 0o401, []⟩

/-- The RFC opens it. -/
theorem chaosQueueFilePkt_example :
    chaosQueueFilePkt 0o177001 0o401 (examplePacket 0o1 0 0) = some exampleConnection := rfl

/-- The first data packet acknowledges the `OPNOP`, and the server sends one. -/
theorem transmit_window_exchange : Lib.EveryStep step (fun e s => InWindow s (s.next e))
    [.arrive (examplePacket 0o200 1 1), .dequeue, .allocate 0o200 4 0o200 fun _ => 0, .attempt 0]
    (start exampleConnection) := by
  refine (transmit_window (Or.inl chaosQueueFilePkt_example) ?_).mpr ?_
  · simp only [List.forall_mem_cons]
    exact ⟨isEvent_examplePacket (by decide) 1 1, trivial, trivial, trivial, fun _ he => nomatch he⟩
  · rintro _ ⟨⟩
    refine ⟨fun hop => absurd hop (by decide), ?_⟩
    rintro _ ⟨⟩
    refine ⟨?_, ?_⟩
    · rintro p ⟨⟩
      exact ⟨Or.inr rfl, by decide⟩
    rintro _ ⟨⟩
    refine ⟨trivial, ?_⟩
    rintro _ ⟨⟩
    refine ⟨?_, trivial⟩
    rintro x ⟨⟩ - -
    exact ⟨fun _ => by decide, fun _ => by decide⟩

/-- A data packet that was sent before the other side had got the `OPNOP` is taken from the queue
after a status packet acknowledged it. -/
theorem transmit_window_backwards : ¬Lib.EveryStep step (fun e s => InWindow s (s.next e))
    [.arrive (examplePacket 0o200 1 0), .arrive (examplePacket 0o7 0 1), .dequeue]
    (start exampleConnection) := by
  intro h
  have hlast := ((((h _ rfl).2 _ rfl).2 _ rfl).1).forward
  exact absurd hlast (by decide)

end TransmitState

end Usim
