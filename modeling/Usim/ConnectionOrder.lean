import Mathlib.Data.List.Range
import Usim.ChaosConnection
import Usim.Lib.Runs

/-!
# Order of delivery on a local connection

The packets of the other side of a connection arrive in any order and any number
of times, between the calls of `chaos_connection_dequeue` by the server. Packets
are counted from 0 on, packet `k` carrying the number `cn_rlast + 1 + k` modulo
2^16. The state records which packets arrived, and which of them is which in the
queue and among those returned, since two packets may have equal contents.
-/

namespace Usim

/-- What happens on a connection. -/
inductive DeliveryEvent
  /-- Packet `k` of the other side arrives. -/
  | arrive (k : ℕ)
  /-- The server calls `chaos_connection_dequeue`. -/
  | dequeue

/-- A connection, what arrived on it and what the server got from it. -/
structure Delivery where
  host : ChaosHost
  /-- Which packet each member of `queuehead` is. -/
  queued : List ℕ
  arrived : List ℕ
  /-- The packets returned. -/
  returned : List ChaosPacket
  /-- Which packet each of those returned is. -/
  order : List ℕ

/-- A packet that `chaos_send_to_local` treats as data of a connection. -/
structure ChaosPacket.IsData (p : ChaosPacket) : Prop where
  not_rfc : p.op ≠ rfcop.setWidth 8
  not_sns : p.op ≠ snsop.setWidth 8
  not_sts : p.op ≠ stsop.setWidth 8
  not_cls : p.op ≠ clsop.setWidth 8

/-- A number is later than another if it is up to 2^15 ahead of it. -/
theorem cmpGt_iff {a b : HalfWord} : cmpGt a b ↔ 2 ^ 15 ≤ (b - a).toNat := by
  rw [cmpGt, BitVec.msb_eq_decide, decide_eq_true_iff]

/-- Of the numbers that are not duplicates, only the next one is not out of order. -/
theorem eq_next_iff {last number : HalfWord} (h : ¬cmpGt last number) (hne : last ≠ number) :
    number = last + 1 ↔ ¬cmpGt number (last + 1) := by
  rw [cmpGt_iff] at h ⊢
  bv_omega

namespace ChaosHost

/-- Taking notice of a packet moves the last number received to the packet's, if that
is later, and touches neither queue. -/
theorem acknowledge_conn (h : ChaosHost) (packet : ChaosPacket) :
    (h.acknowledge packet).conn.rlast =
        (if cmpGt packet.pkn h.conn.rlast then packet.pkn else h.conn.rlast) ∧
      (h.acknowledge packet).conn.queuehead = h.conn.queuehead ∧
      (h.acknowledge packet).conn.state = h.conn.state ∧
      (h.acknowledge packet).conn.faddr = h.conn.faddr := by
  unfold acknowledge
  generalize (if cmpGt packet.pkn h.conn.rlast then packet.pkn else h.conn.rlast) = rlast
  simp only
  split <;> exact ⟨rfl, rfl, rfl, rfl⟩

/-- A status packet goes to the other side without waiting. -/
theorem connectionQueue_status {h : ChaosHost} {p : ChaosPacket} (hop : p.op = stsop.setWidth 8)
    (hd : p.daddr = h.conn.faddr) :
    h.connectionQueue p =
      some ({ h with conn := { h.conn with lastpacket := some p } }.chaosQueue p) := by
  simp [connectionQueue, hd, hop]

/-- A data packet for this side is queued exactly if it has the next number, and changes
no number. -/
theorem sendToLocal_data {h : ChaosHost} {p : ChaosPacket} (hp : p.IsData)
    (hd : p.daddr ≠ h.conn.faddr) :
    ∃ h', h.sendToLocal p = some h' ∧
      h'.conn.queuehead =
        (if p.pkn = h.conn.rlast + 1 then h.conn.queuehead ++ [p] else h.conn.queuehead) ∧
      h'.conn.rlast = h.conn.rlast ∧ h'.conn.state = h.conn.state ∧
      h'.conn.faddr = h.conn.faddr := by
  rw [sendToLocal, if_neg hp.not_rfc, if_neg hp.not_sns, if_neg hp.not_sts, if_neg hp.not_cls,
    receiveData]
  by_cases hdup : cmpGt h.conn.rlast p.pkn || h.conn.rlast = p.pkn
  · have hne : p.pkn ≠ h.conn.rlast + 1 := by
      simp only [Bool.or_eq_true, decide_eq_true_iff, cmpGt_iff] at hdup
      bv_omega
    rw [if_pos hdup, if_neg hne]
    exact ⟨_, connectionQueue_status rfl rfl, rfl, rfl, rfl, rfl⟩
  · rw [if_neg hdup, connectionQueue, if_neg hd]
    simp only [Bool.or_eq_true, decide_eq_true_iff, not_or] at hdup
    have hnext := eq_next_iff hdup.1 hdup.2
    by_cases hgt : cmpGt p.pkn (h.conn.rlast + 1)
    · simp only [if_pos hgt, if_neg (hnext.not.mpr (not_not.mpr hgt))]
      exact ⟨_, rfl, rfl, rfl, rfl, rfl⟩
    · simp only [if_neg hgt, if_pos (hnext.mpr hgt)]
      exact ⟨_, rfl, rfl, rfl, rfl, rfl⟩

end ChaosHost

namespace Delivery

variable (peer : ℕ → ChaosPacket)

/-- One event. The packet that arrives is queued for the server when the queue grows. -/
def next (e : DeliveryEvent) (s : Delivery) : Delivery :=
  match e with
  | .arrive k =>
    let host := (s.host.sendToLocal (peer k)).getD s.host
    { s with
      host := host
      queued := if s.host.conn.queuehead.length < host.conn.queuehead.length then
        s.queued ++ [k] else s.queued
      arrived := k :: s.arrived }
  | .dequeue =>
    match s.host.connectionDequeue with
    | some (some packet, host) =>
      { s with
        host := host, queued := s.queued.tail, returned := s.returned ++ [packet]
        order := s.order ++ s.queued.take 1 }
    | some (none, host) => { s with host := host }
    | none => s

/-- One event, as a step of a run. -/
def step (e : DeliveryEvent) (s : Delivery) : Except Empty Delivery := .ok (s.next peer e)

/-- The state after `n` further calls of `chaos_connection_dequeue`. -/
def dequeues : ℕ → Delivery → Delivery
  | 0, s => s
  | n + 1, s => dequeues n (s.next peer .dequeue)

/-- Nothing has happened yet. -/
def start (h : ChaosHost) : Delivery :=
  { host := h, queued := [], arrived := [], returned := [], order := [] }

/-- What the server has got, and gets if it keeps dequeuing, are the first packets of the
other side, each once and in order, with every packet that arrived after all before it. -/
structure InOrder (s : Delivery) : Prop where
  packets : s.returned = s.order.map peer
  inOrder : ∀ n, ∃ j, (dequeues peer n s).order = List.range j
  complete : ∀ k, (∀ i ≤ k, i ∈ s.arrived) → ∃ n, k ∈ (dequeues peer n s).order

/-- The last number received moves forward in the cyclic order, if at all. -/
def Forward (e : DeliveryEvent) (s : Delivery) : Prop :=
  (s.next peer e).host.conn.rlast = s.host.conn.rlast ∨
    cmpGt (s.next peer e).host.conn.rlast s.host.conn.rlast

/-- An arriving packet that is numbered as the next one is the next one to be returned,
with nothing queued before it and none arrived just after it; and while a packet is
queued, its successor does not arrive. -/
def Timely : DeliveryEvent → Delivery → Prop
  | .arrive k, s =>
    ((peer k).pkn = s.host.conn.rlast + 1 →
      s.host.conn.queuehead = [] ∧ k = s.order.length ∧ k + 1 ∉ s.arrived) ∧
    (s.host.conn.queuehead ≠ [] → k ≠ s.order.length + 1)
  | .dequeue, _ => True

/-- In every state of the run the packets are in order, and every step of it moves the last
number received forward. -/
def Delivers (es : List DeliveryEvent) (s : Delivery) : Prop :=
  Lib.Always (step peer) (InOrder peer) es s ∧ Lib.EveryStep (step peer) (Forward peer) es s

/-- The other side of a connection that is not closed and has nothing queued: its packets
are data, addressed to this side and numbered on from the last one received. -/
structure PeerOf (h : ChaosHost) : Prop where
  not_closed : h.conn.state ≠ .closed
  nothing_queued : h.conn.queuehead = []
  numbers : ∀ k, (peer k).pkn = h.conn.rlast + BitVec.ofNat 16 (k + 1)
  data : ∀ k, (peer k).IsData
  addressed : ∀ k, (peer k).daddr ≠ h.conn.faddr

/-- The queue holds the packets it is said to hold, and so does the list of those returned,
and the connection goes on as it was opened. -/
structure Tracks (h : ChaosHost) (s : Delivery) : Prop where
  not_closed : s.host.conn.state ≠ .closed
  faddr : s.host.conn.faddr = h.conn.faddr
  queue : s.host.conn.queuehead = s.queued.map peer
  packets : s.returned = s.order.map peer

/-- The first `n` packets are returned and the next one is queued or has not arrived. -/
structure Level (h : ChaosHost) (n : ℕ) (s : Delivery) : Prop extends Tracks peer h s where
  order : s.order = List.range n
  rlast : s.host.conn.rlast = h.conn.rlast + BitVec.ofNat 16 n
  window : s.queued = [] ∧ n ∉ s.arrived ∨ s.queued = [n] ∧ n ∈ s.arrived ∧ n + 1 ∉ s.arrived
  arrived : ∀ i < n, i ∈ s.arrived

variable {peer} {h : ChaosHost} {s : Delivery}

/-- An arriving packet is queued exactly if it has the next number. -/
theorem Tracks.next_arrive (hp : PeerOf peer h) (ht : Tracks peer h s) (k : ℕ) :
    Tracks peer h (s.next peer (.arrive k)) ∧
      (s.next peer (.arrive k)).queued =
        (if (peer k).pkn = s.host.conn.rlast + 1 then s.queued ++ [k] else s.queued) ∧
      (s.next peer (.arrive k)).arrived = k :: s.arrived ∧
      (s.next peer (.arrive k)).order = s.order ∧
      (s.next peer (.arrive k)).host.conn.rlast = s.host.conn.rlast := by
  obtain ⟨h', hsend, hqueue, hrlast, hstate, hfaddr⟩ :=
    ChaosHost.sendToLocal_data (h := s.host) (hp.data k) (by rw [ht.faddr]; exact hp.addressed k)
  have hhost : (s.next peer (.arrive k)).host = h' := by
    simp only [next, hsend, Option.getD_some]
  have hqueued : (s.next peer (.arrive k)).queued =
      if (peer k).pkn = s.host.conn.rlast + 1 then s.queued ++ [k] else s.queued := by
    change (if s.host.conn.queuehead.length <
      (s.next peer (.arrive k)).host.conn.queuehead.length then s.queued ++ [k] else s.queued) = _
    rw [hhost, hqueue]
    by_cases hnext : (peer k).pkn = s.host.conn.rlast + 1
    · rw [if_pos hnext, if_pos hnext, if_pos (by simp)]
    · rw [if_neg hnext, if_neg hnext, if_neg (Nat.lt_irrefl _)]
  refine ⟨⟨?_, ?_, ?_, ht.packets⟩, hqueued, rfl, rfl, by rw [hhost, hrlast]⟩
  · rw [hhost, hstate]
    exact ht.not_closed
  · rw [hhost, hfaddr, ht.faddr]
  · rw [hhost, hqueue, hqueued, ht.queue]
    split
    · rw [List.map_append, List.map_singleton]
    · rfl

/-- With nothing queued the server waits. -/
theorem Tracks.next_dequeue_nil (ht : Tracks peer h s) (hq : s.queued = []) :
    s.next peer .dequeue = s := by
  have hqueue : s.host.conn.queuehead = [] := by rw [ht.queue, hq, List.map_nil]
  simp only [next, ChaosHost.connectionDequeue, if_neg ht.not_closed, hqueue]

/-- Otherwise it gets the first packet of the queue. -/
theorem Tracks.next_dequeue_cons (ht : Tracks peer h s) {q : ℕ} {qs : List ℕ}
    (hq : s.queued = q :: qs) :
    Tracks peer h (s.next peer .dequeue) ∧
      (s.next peer .dequeue).queued = qs ∧
      (s.next peer .dequeue).arrived = s.arrived ∧
      (s.next peer .dequeue).order = s.order ++ [q] ∧
      (s.next peer .dequeue).host.conn.rlast =
        (if cmpGt (peer q).pkn s.host.conn.rlast then (peer q).pkn else s.host.conn.rlast) := by
  have hqueue : s.host.conn.queuehead = peer q :: qs.map peer := by
    rw [ht.queue, hq, List.map_cons]
  have hnext : s.next peer .dequeue =
      { s with
        host := { s.host with conn := { s.host.conn with queuehead := qs.map peer } }
          |>.acknowledge (peer q)
        queued := qs, returned := s.returned ++ [peer q], order := s.order ++ [q] } := by
    simp only [next, ChaosHost.connectionDequeue, if_neg ht.not_closed, hqueue, hq, List.tail_cons,
      List.take_succ_cons, List.take_zero]
  obtain ⟨hrlast, hhead, hstate, hfaddr⟩ := ChaosHost.acknowledge_conn
    { s.host with conn := { s.host.conn with queuehead := qs.map peer } } (peer q)
  rw [hnext]
  refine ⟨⟨?_, ?_, hhead, ?_⟩, rfl, rfl, rfl, hrlast⟩
  · exact hstate ▸ ht.not_closed
  · exact hfaddr.trans ht.faddr
  · simp only [ht.packets, List.map_append, List.map_singleton]

/-- The queues are as recorded after every event. -/
theorem Tracks.next (hp : PeerOf peer h) (ht : Tracks peer h s) (e : DeliveryEvent) :
    Tracks peer h (s.next peer e) := by
  cases e with
  | arrive k => exact (ht.next_arrive hp k).1
  | dequeue =>
    cases hq : s.queued with
    | nil => rwa [ht.next_dequeue_nil hq]
    | cons q qs => exact (ht.next_dequeue_cons hq).1

/-- Further calls return what is queued, in order. -/
theorem Tracks.dequeues_order (ht : Tracks peer h s) (n : ℕ) :
    (dequeues peer n s).order = s.order ++ s.queued.take n := by
  induction n generalizing s with
  | zero => rw [List.take_zero, List.append_nil]; rfl
  | succ n ih =>
    cases hq : s.queued with
    | nil =>
      rw [dequeues, ht.next_dequeue_nil hq, ih ht, hq, List.take_nil, List.take_nil]
    | cons q qs =>
      obtain ⟨ht', hqueued, -, horder, -⟩ := ht.next_dequeue_cons hq
      rw [dequeues, ih ht', hqueued, horder, List.take_succ_cons, List.append_assoc]
      rfl

/-- What is returned in any run is what arrived, and the last number received moves
forward only. -/
theorem Tracks.forward (hp : PeerOf peer h) (ht : Tracks peer h s) (e : DeliveryEvent) :
    Forward peer e s := by
  cases e with
  | arrive k => exact .inl (ht.next_arrive hp k).2.2.2.2
  | dequeue =>
    cases hq : s.queued with
    | nil => exact .inl (by rw [ht.next_dequeue_nil hq])
    | cons q qs =>
      have hrlast := (ht.next_dequeue_cons hq).2.2.2.2
      by_cases hgt : cmpGt (peer q).pkn s.host.conn.rlast
      · rw [if_pos hgt] at hrlast
        exact .inr (by rw [hrlast]; exact hgt)
      · rw [if_neg hgt] at hrlast
        exact .inl hrlast

/-- In such a state the server has got, and will get, what arrived in order. -/
theorem Level.inOrder {n : ℕ} (hl : Level peer h n s) : InOrder peer s := by
  refine ⟨hl.packets, fun m => ?_, fun k hk => ?_⟩
  · rw [hl.dequeues_order, hl.order]
    rcases hl.window with ⟨hq, -⟩ | ⟨hq, -⟩
    · exact ⟨n, by rw [hq, List.take_nil, List.append_nil]⟩
    · cases m with
      | zero => exact ⟨n, by rw [List.take_zero, List.append_nil]⟩
      | succ m => exact ⟨n + 1, by rw [hq, List.range_succ, List.take_succ_cons, List.take_nil]⟩
  · rcases hl.window with ⟨hq, hnot⟩ | ⟨hq, -, hnot⟩
    · have hkn : k < n := by
        by_contra hge
        exact hnot (hk n (Nat.le_of_not_lt hge))
      exact ⟨0, hl.order ▸ List.mem_range.mpr hkn⟩
    · have hkn : k < n + 1 := by
        by_contra hge
        exact hnot (hk (n + 1) (Nat.le_of_not_lt hge))
      refine ⟨1, ?_⟩
      rw [hl.dequeues_order, hl.order, hq, List.take_succ_cons, List.take_nil, ← List.range_succ]
      exact List.mem_range.mpr hkn

/-- Packet `n` has the next number when `n` packets are returned, and packet `n + 1` has not. -/
theorem Level.number_eq_next_iff {n k : ℕ} (hp : PeerOf peer h) (hl : Level peer h n s) :
    (peer k).pkn = s.host.conn.rlast + 1 ↔ BitVec.ofNat 16 k = BitVec.ofNat 16 n := by
  rw [hp.numbers, hl.rlast, BitVec.ofNat_add, BitVec.add_assoc]
  constructor
  · intro h
    exact (BitVec.add_left_inj _).mp ((BitVec.add_right_inj _).mp h)
  · intro h
    rw [h]
    rfl

/-- A timely event leads to a state of the same kind. -/
theorem Level.next {n : ℕ} (hp : PeerOf peer h) (hl : Level peer h n s) {e : DeliveryEvent}
    (he : Timely peer e s) : ∃ m, Level peer h m (s.next peer e) := by
  cases e with
  | arrive k =>
    obtain ⟨ht, hqueued, harrived, horder, hrlast⟩ := hl.next_arrive hp k
    have hlen : s.order.length = n := by rw [hl.order, List.length_range]
    obtain ⟨hnext, hsucc⟩ := he
    rw [hlen] at hnext hsucc
    refine ⟨n, ⟨ht, horder.trans hl.order, hrlast.trans hl.rlast, ?_, fun i hi => ?_⟩⟩
    · rw [hqueued, harrived]
      by_cases hpkn : (peer k).pkn = s.host.conn.rlast + 1
      · obtain ⟨hempty, rfl, hnot⟩ := hnext hpkn
        rw [hl.queue, List.map_eq_nil_iff] at hempty
        rw [if_pos hpkn, hempty]
        exact .inr ⟨rfl, List.mem_cons_self .., by simpa using hnot⟩
      · have hkn : k ≠ n := by
          rintro rfl
          exact hpkn ((hl.number_eq_next_iff hp).mpr rfl)
        rw [if_neg hpkn]
        rcases hl.window with ⟨hq, hnot⟩ | ⟨hq, hmem, hnot⟩
        · exact .inl ⟨hq, by simpa [hnot] using hkn.symm⟩
        · have hks : k ≠ n + 1 := hsucc (by rw [hl.queue, hq]; simp)
          exact .inr ⟨hq, List.mem_cons_of_mem _ hmem, by simpa [hnot] using hks.symm⟩
    · rw [harrived]
      exact List.mem_cons_of_mem _ (hl.arrived i hi)
  | dequeue =>
    rcases hl.window with ⟨hq, hnot⟩ | ⟨hq, hmem, hnot⟩
    · exact ⟨n, by rw [hl.next_dequeue_nil hq]; exact hl⟩
    · obtain ⟨ht, hqueued, harrived, horder, hrlast⟩ := hl.next_dequeue_cons hq
      refine ⟨n + 1, ⟨ht, ?_, ?_, .inl ⟨hqueued, harrived ▸ hnot⟩, fun i hi => ?_⟩⟩
      · rw [horder, hl.order, List.range_succ]
      · rw [hrlast, hp.numbers, hl.rlast, if_pos]
        rw [cmpGt_iff, BitVec.ofNat_add]
        bv_omega
      · rw [harrived]
        rcases Nat.lt_succ_iff_lt_or_eq.mp hi with hi | rfl
        · exact hl.arrived i hi
        · exact hmem

/-- What follows the first `n` numbers in a longer range counts on from `n`. -/
theorem eq_add_of_range_append {n j i q : ℕ} {l : List ℕ} (h : List.range n ++ l = List.range j)
    (hq : l[i]? = some q) : q = n + i := by
  have hle : (List.range n).length ≤ n + i := by
    rw [List.length_range]
    exact Nat.le_add_right n i
  have hget : (List.range j)[n + i]? = some q := by
    rw [← h, List.getElem?_append_right hle, List.length_range, Nat.add_sub_cancel_left, hq]
  obtain ⟨hlt, heq⟩ := List.getElem?_eq_some_iff.mp hget
  rw [← heq, List.getElem_range]

/-- The packet after the next one does not have the next number. -/
theorem Level.number_succ_ne {n : ℕ} (hp : PeerOf peer h) (hl : Level peer h n s) :
    (peer (n + 1)).pkn ≠ s.host.conn.rlast + 1 := by
  intro hpkn
  have hnumber := congrArg BitVec.toNat ((hl.number_eq_next_iff hp).mp hpkn)
  rw [BitVec.toNat_ofNat, BitVec.toNat_ofNat] at hnumber
  omega

/-- Any other event loses or repeats a packet. -/
theorem Level.timely {n : ℕ} (hp : PeerOf peer h) (hl : Level peer h n s) {e : DeliveryEvent}
    (he : InOrder peer (s.next peer e)) : Timely peer e s := by
  cases e with
  | dequeue => trivial
  | arrive k =>
    obtain ⟨ht, hqueued, harrived, horder, hrlast⟩ := hl.next_arrive hp k
    have hlen : s.order.length = n := by rw [hl.order, List.length_range]
    have hget (m : ℕ) : (dequeues peer m (s.next peer (.arrive k))).order =
        List.range n ++ (s.next peer (.arrive k)).queued.take m := by
      rw [ht.dequeues_order, horder, hl.order]
    -- nothing but the packets returned and queued can ever be returned
    have hbound {j : ℕ} (hall : ∀ i ≤ j, i ∈ (s.next peer (.arrive k)).arrived)
        (hq : ∀ q ∈ (s.next peer (.arrive k)).queued, q < j) (hj : n ≤ j) : False := by
      obtain ⟨m, hm⟩ := he.complete j hall
      rw [hget, List.mem_append, List.mem_range] at hm
      rcases hm with hm | hm
      · exact absurd hm (Nat.not_lt.mpr hj)
      · exact Nat.lt_irrefl j (hq j (List.mem_of_mem_take hm))
    rw [Timely, hlen]
    constructor
    · intro hpkn
      rw [if_pos hpkn] at hqueued
      rcases hl.window with ⟨hq, hnot⟩ | ⟨hq, hmem, hnot⟩
      · obtain ⟨j, hj⟩ := he.inOrder 1
        rw [hget, hqueued, hq, List.nil_append, List.take_succ_cons, List.take_nil] at hj
        have hkn : k = n := eq_add_of_range_append (i := 0) hj rfl
        refine ⟨by rw [hl.queue, hq, List.map_nil], hkn, fun hsucc => ?_⟩
        refine hbound (j := n + 1) (fun i hi => ?_) ?_ (Nat.le_succ n)
        · rw [harrived]
          rcases Nat.lt_or_ge i n with hi' | hi'
          · exact List.mem_cons_of_mem _ (hl.arrived i hi')
          · rcases (by omega : i = k ∨ i = k + 1) with rfl | rfl
            · exact List.mem_cons_self ..
            · exact List.mem_cons_of_mem _ hsucc
        · rw [hqueued, hq]
          simp [hkn]
      · obtain ⟨j, hj⟩ := he.inOrder 2
        rw [hget, hqueued, hq] at hj
        have hkn : k = n + 1 := eq_add_of_range_append (i := 1) hj rfl
        exact absurd (hkn ▸ hpkn) (hl.number_succ_ne hp)
    · intro hne hkn
      rcases hl.window with ⟨hq, -⟩ | ⟨hq, hmem, -⟩
      · exact hne (by rw [hl.queue, hq, List.map_nil])
      · rw [if_neg (hkn ▸ hl.number_succ_ne hp), hq] at hqueued
        refine hbound (j := n + 1) (fun i hi => ?_) ?_ (Nat.le_succ n)
        · rw [harrived]
          rcases Nat.lt_or_ge i n with hi' | hi'
          · exact List.mem_cons_of_mem _ (hl.arrived i hi')
          · rcases (by omega : i = k ∨ i = n) with rfl | rfl
            · exact List.mem_cons_self ..
            · exact List.mem_cons_of_mem _ hmem
        · rw [hqueued]
          simp

/-- At first nothing is returned and nothing queued. -/
theorem level_start (hp : PeerOf peer h) : Level peer h 0 (start h) where
  not_closed := hp.not_closed
  faddr := rfl
  queue := hp.nothing_queued
  packets := rfl
  order := rfl
  rlast := (BitVec.add_zero _).symm
  window := .inl ⟨rfl, List.not_mem_nil⟩
  arrived := fun i hi => absurd hi (Nat.not_lt_zero i)

/-- The last number received moves forward in every run. -/
theorem forward_run (hp : PeerOf peer h) (es : List DeliveryEvent) (ht : Tracks peer h s) :
    Lib.EveryStep (step peer) (Forward peer) es s := by
  refine Lib.everyStep_of_step (I := Tracks peer h) ?_ (fun e s s' ht _ => ht.forward hp e) ht
  rintro e s s' ht ⟨⟩
  exact ht.next hp e

/-- A local connection delivers in order and exactly once, and its last number received
moves forward, in exactly those runs whose arrivals are all timely. -/
theorem connection_delivers {peer : ℕ → ChaosPacket} {h : ChaosHost} (hp : PeerOf peer h)
    (es : List DeliveryEvent) :
    Delivers peer es (start h) ↔ Lib.EveryStep (step peer) (Timely peer) es (start h) := by
  have hlevel := level_start hp
  rw [Delivers, and_iff_left (forward_run hp es hlevel.toTracks)]
  refine Lib.always_iff_everyStep (I := fun s => ∃ n, Level peer h n s)
    (fun s ⟨n, hl⟩ => hl.inOrder) ?_ ?_ ⟨0, hlevel⟩
  · rintro e s s' ⟨n, hl⟩ ⟨⟩ he
    exact hl.next hp he
  · rintro e s s' ⟨n, hl⟩ ⟨⟩ he
    exact hl.timely hp he

/-- Data packets of one word each, numbered from 2 on. -/
def examplePeer (k : ℕ) : ChaosPacket :=
  { pkalloc with
    op := 0o200, len := 2, daddr := 0o177001, didx := 0o401, saddr := 0o177040, sidx := 0o402
    pkn := 1 + BitVec.ofNat 16 (k + 1), cdata := fun _ => BitVec.ofNat 16 k }

/-- The connection behind a `MINI` server after the request. -/
def exampleHost : ChaosHost :=
  { conn := { allconn 0o177001 0o401 with
      state := .opened, faddr := 0o177040, fidx := 0o402, rlast := 1, racked := 1 }
    recvqueue := [] }

/-- The packets above belong to that connection. -/
theorem peerOf_example : PeerOf examplePeer exampleHost where
  not_closed := by decide
  nothing_queued := rfl
  numbers := fun _ => rfl
  data := fun _ => ⟨by simp [examplePeer, rfcop], by simp [examplePeer, snsop],
    by simp [examplePeer, stsop], by simp [examplePeer, clsop]⟩
  addressed := fun _ => by simp [examplePeer, exampleHost]

/-- Packets taken one by one are delivered. -/
theorem connection_delivers_one_by_one :
    Delivers examplePeer [.arrive 0, .dequeue, .arrive 1] (start exampleHost) :=
  (connection_delivers peerOf_example [.arrive 0, .dequeue, .arrive 1]).mpr (by
    rintro s ⟨⟩
    refine ⟨⟨fun _ => ⟨rfl, rfl, List.not_mem_nil⟩, fun h => absurd rfl h⟩, ?_⟩
    rintro s ⟨⟩
    refine ⟨trivial, ?_⟩
    rintro s ⟨⟩
    exact ⟨⟨fun _ => ⟨rfl, rfl, by decide⟩, fun h => absurd rfl h⟩, trivial⟩)

/-- Two packets arrive in order before the server takes the first: the second is lost. -/
theorem connection_delivers_not_both :
    ¬Delivers examplePeer [.arrive 0, .arrive 1] (start exampleHost) := by
  rintro ⟨⟨-, h⟩, -⟩
  obtain ⟨-, h⟩ := h _ rfl
  have hin : InOrder examplePeer _ := h _ rfl
  have ht := ((level_start peerOf_example).toTracks.next peerOf_example (.arrive 0)).next
    peerOf_example (.arrive 1)
  obtain ⟨n, hn⟩ := hin.complete 1 (by decide)
  rw [ht.dequeues_order] at hn
  have hmem := (List.mem_append.mp hn).resolve_left List.not_mem_nil
  exact absurd (List.mem_of_mem_take hmem) (by decide)

end Delivery

end Usim
