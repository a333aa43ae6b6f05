import Mathlib.Data.Finset.Basic
import Usim.CSharp.ChaosNetwork
import Usim.ConnectionTable

/-!
# Connection indices

The connections of `ChaosNetwork` have the indices of a counter of 16 bits, under which the
table keeps them. The record keeps which connections were created and not removed from the
table since. With the connection table of `chutil.c`, this gives when local indices
identify connections.
-/

namespace Usim

open Lib

namespace SharpNetwork

variable {net net' : SharpNetwork} {k : ℕ} {index : HalfWord}
  {f : SharpConnection → SharpConnection}

/-- A connection is created by the event. -/
def creates : NetworkEvent → Bool
  | .createConnection => true
  | .incoming packet answer => packet.opcode = PacketOpcode.rfcop && answer.isSome
  | _ => false

/-- The connection that the event removes from the table. -/
def removed : NetworkEvent → SharpNetwork → Option ℕ
  | .closeConnection index, net => net.connections index
  | .cleanup index, net =>
    (net.connections index).filter fun k => (net.objects k).state = .csclosed
  | _, _ => none

/-- The table and the indices are the same. -/
structure SameTable (net net' : SharpNetwork) : Prop where
  created : net'.created = net.created
  connections : net'.connections = net.connections
  next : net'.nextConnectionIndex = net.nextConnectionIndex
  localIndex : ∀ k, (net'.objects k).localIndex = (net.objects k).localIndex

theorem SameTable.rfl : SameTable net net := ⟨Eq.refl _, Eq.refl _, Eq.refl _, fun _ => Eq.refl _⟩

theorem sameTable_modify (hf : (f (net.objects k)).localIndex = (net.objects k).localIndex) :
    SameTable net (net.modify k f) := by
  refine ⟨rfl, rfl, rfl, fun j => ?_⟩
  by_cases hj : j = k
  · rw [hj, objects_modify_self, hf]
  · rw [objects_modify_of_ne hj]

theorem sameTable_call (hf : (f (net.objects k)).localIndex = (net.objects k).localIndex) :
    SameTable net (net.call k f) := by
  unfold call
  split
  · exact sameTable_modify hf
  · exact .rfl

theorem SameTable.trans {net'' : SharpNetwork} (h : SameTable net net')
    (h' : SameTable net' net'') : SameTable net net'' :=
  ⟨h'.created.trans h.created, h'.connections.trans h.connections, h'.next.trans h.next,
    fun k => (h'.localIndex k).trans (h.localIndex k)⟩

/-- An event that creates a connection. -/
theorem sameTable_of_creates {e : NetworkEvent} (h : creates e = true) :
    SameTable net.createConnection (net.next e) := by
  have hrfc : ∀ packet answer, answer.isSome →
      SameTable net.createConnection (net.handleRFC packet answer) := by
    intro packet answer hsome
    have hrequested : SameTable net.createConnection (net.requested packet) := sameTable_modify rfl
    match answer with
    | some true =>
      exact hrequested.trans (sameTable_modify (SharpConnection.extends_accept _).localIndex)
    | some false =>
      exact hrequested.trans (sameTable_modify (SharpConnection.extends_reject _ _).localIndex)
  cases e with
  | createConnection => exact .rfl
  | incoming packet answer =>
    simp only [creates, Bool.and_eq_true, decide_eq_true_eq] at h
    change SameTable _ (net.processIncomingPacket packet answer)
    unfold processIncomingPacket
    rw [if_pos h.1]
    exact hrfc packet answer h.2
  | _ => cases h

/-- An event that removes a connection from the table. -/
theorem sameTable_of_removed {e : NetworkEvent} (h : removed e net = some k) :
    ∃ index, net.connections index = some k ∧ SameTable (net.tryRemove index) (net.next e) := by
  cases e with
  | closeConnection index =>
    refine ⟨index, h, ?_⟩
    simp only [next, closeConnection]
    rw [show net.connections index = some k from h]
    exact @sameTable_modify (net.tryRemove index) _ _
      (SharpConnection.extends_close none _).localIndex
  | cleanup index =>
    obtain ⟨hk, hclosed⟩ := Option.filter_eq_some_iff.mp h
    refine ⟨index, hk, ?_⟩
    simp only [next, cleanupConnection, hk]
    rw [if_pos (of_decide_eq_true hclosed)]
    exact .rfl
  | _ => cases h

/-- Any other event. -/
theorem sameTable_next {e : NetworkEvent} (hcreates : creates e = false)
    (hremoved : removed e net = none) : SameTable net (net.next e) := by
  cases e with
  | createConnection => cases hcreates
  | «open» k remoteHost contactName data =>
    exact sameTable_call (SharpConnection.extends_open _ _ _ _).localIndex
  | accept k => exact sameTable_call (SharpConnection.extends_accept _).localIndex
  | reject k reason => exact sameTable_call (SharpConnection.extends_reject _ _).localIndex
  | close k reason => exact sameTable_call (SharpConnection.extends_close _ _).localIndex
  | send k data => exact sameTable_call (SharpConnection.extends_send _ _).localIndex
  | receive k => exact sameTable_call (SharpConnection.extends_receive _).localIndex
  | closeConnection index =>
    simp only [next, closeConnection]
    rw [show net.connections index = none from hremoved]
    exact .rfl
  | incoming packet answer =>
    change SameTable _ (net.processIncomingPacket packet answer)
    unfold processIncomingPacket
    split_ifs with hrfc
    · cases answer with
      | none => exact ⟨rfl, rfl, rfl, fun _ => rfl⟩
      | some answer =>
        rw [creates, Option.isSome_some, Bool.and_true] at hcreates
        exact absurd hrfc (of_decide_eq_false hcreates)
    · exact ⟨rfl, rfl, rfl, fun _ => rfl⟩
    · cases net.destination packet with
      | none => exact .rfl
      | some k => exact sameTable_modify (extends_deliver packet _).localIndex
  | outgoing => exact ⟨rfl, rfl, rfl, fun _ => rfl⟩
  | iteration index =>
    change SameTable _ (net.processConnection index)
    unfold processConnection
    cases net.connections index with
    | none => exact .rfl
    | some k =>
      have hsent : SameTable net { net with
          outgoingPackets := net.outgoingPackets ++ (net.objects k).processConnection.1 } :=
        ⟨rfl, rfl, rfl, fun _ => rfl⟩
      exact hsent.trans (sameTable_modify rfl)
  | cleanup index =>
    change SameTable _ (net.cleanupConnection index)
    unfold cleanupConnection
    cases hk : net.connections index with
    | none => exact .rfl
    | some k =>
      have hopen := Option.filter_eq_none_iff.mp hremoved k hk
      dsimp only
      rw [if_neg fun hclosed => hopen (decide_eq_true hclosed)]
      exact .rfl

end SharpNetwork

/-- The network, and the connections that were created and not removed since. -/
structure IndexedNetwork where
  net : SharpNetwork
  live : Finset ℕ

namespace IndexedNetwork

variable {s : IndexedNetwork} {e : NetworkEvent} {es : List NetworkEvent} {k : ℕ}

def start (localAddress : HalfWord) : IndexedNetwork := { net := .start localAddress, live := ∅ }

/-- One event. -/
def next (e : NetworkEvent) (s : IndexedNetwork) : IndexedNetwork :=
  { net := s.net.next e
    live :=
      if SharpNetwork.creates e then insert s.net.created s.live
      else match SharpNetwork.removed e s.net with
        | some k => s.live.erase k
        | none => s.live }

/-- One event, as a step of a run. -/
def step (e : NetworkEvent) (s : IndexedNetwork) : Except Empty IndexedNetwork := .ok (s.next e)

/-- The live connections have distinct indices and are in the table. -/
structure Identifies (s : IndexedNetwork) : Prop where
  nonzero : ∀ k ∈ s.live, (s.net.objects k).localIndex ≠ 0
  distinct : ∀ k ∈ s.live, ∀ l ∈ s.live,
    (s.net.objects k).localIndex = (s.net.objects l).localIndex → k = l
  registered : ∀ k ∈ s.live, s.net.connections (s.net.objects k).localIndex = some k

/-- A new connection is no multiple of 65536 after a live one, and not the last before such a
multiple. -/
def Unwrapped (e : NetworkEvent) (s : IndexedNetwork) : Prop :=
  SharpNetwork.creates e → ¬65536 ∣ s.net.created + 1 ∧
    ∀ k ∈ s.live, ¬65536 ∣ s.net.created - k

/-- The indices are those of the counter. -/
structure Counted (s : IndexedNetwork) : Prop where
  next : s.net.nextConnectionIndex = BitVec.ofNat 16 (s.net.created + 1)
  localIndex : ∀ k < s.net.created, (s.net.objects k).localIndex = BitVec.ofNat 16 (k + 1)
  live : ∀ k ∈ s.live, k < s.net.created

/-- The live connections are in the table, none of them under 0. -/
def Kept (s : IndexedNetwork) : Prop :=
  ∀ k ∈ s.live, ¬65536 ∣ k + 1 ∧ s.net.connections (BitVec.ofNat 16 (k + 1)) = some k

theorem ofNat_inj {m n : ℕ} :
    BitVec.ofNat 16 m = BitVec.ofNat 16 n ↔ m % 65536 = n % 65536 := by
  rw [← BitVec.toNat_inj, BitVec.toNat_ofNat, BitVec.toNat_ofNat]

theorem Counted.identifies_iff (h : Counted s) : Identifies s ↔ Kept s := by
  have hindex : ∀ k ∈ s.live, (s.net.objects k).localIndex = BitVec.ofNat 16 (k + 1) :=
    fun k hk => h.localIndex k (h.live k hk)
  have hzero : ∀ k : ℕ, BitVec.ofNat 16 (k + 1) = 0 ↔ 65536 ∣ k + 1 := by
    intro k
    rw [Nat.dvd_iff_mod_eq_zero]
    exact ofNat_inj (n := 0)
  constructor
  · intro hid k hk
    have hregistered := hid.registered k hk
    have hnonzero := hid.nonzero k hk
    rw [hindex k hk] at hregistered hnonzero
    exact ⟨fun hdvd => hnonzero ((hzero k).mpr hdvd), hregistered⟩
  · intro hkept
    refine ⟨fun k hk => ?_, fun k hk l hl heq => ?_, fun k hk => ?_⟩
    · rw [hindex k hk]
      exact fun heq => (hkept k hk).1 ((hzero k).mp heq)
    · rw [hindex k hk, hindex l hl] at heq
      have hsame := (hkept k hk).2
      rw [heq, (hkept l hl).2] at hsame
      exact (Option.some.inj hsame).symm
    · rw [hindex k hk]
      exact (hkept k hk).2

theorem counted_start (localAddress : HalfWord) : Counted (start localAddress) :=
  ⟨rfl, fun _ hk => absurd hk (Nat.not_lt_zero _), fun _ hk => absurd hk (Finset.notMem_empty _)⟩

theorem kept_start (localAddress : HalfWord) : Kept (start localAddress) :=
  fun _ hk => absurd hk (Finset.notMem_empty _)

/-- The record of an event that creates a connection. -/
theorem live_of_creates (h : SharpNetwork.creates e = true) :
    (s.next e).live = insert s.net.created s.live := if_pos h

/-- The record of an event that does not. -/
theorem live_of_not_creates (h : SharpNetwork.creates e = false) :
    (s.next e).live = match SharpNetwork.removed e s.net with
      | some k => s.live.erase k
      | none => s.live := by
  unfold next
  rw [h, if_neg Bool.false_ne_true]

/-- Every event goes on with the counter. -/
theorem Counted.next_counted (h : Counted s) (e : NetworkEvent) : Counted (s.next e) := by
  cases hcreates : SharpNetwork.creates e with
  | true =>
    have hsame := @SharpNetwork.sameTable_of_creates s.net _ hcreates
    have hcreated : (s.next e).net.created = s.net.created + 1 := hsame.created
    refine ⟨?_, fun k hk => ?_, fun k hk => ?_⟩
    · rw [hcreated]
      refine hsame.next.trans ?_
      change s.net.nextConnectionIndex + 1 = _
      rw [h.next, BitVec.ofNat_add (s.net.created + 1) 1]
      rfl
    · rw [hcreated] at hk
      refine (hsame.localIndex k).trans ?_
      by_cases hkc : k = s.net.created
      · rw [hkc, SharpNetwork.objects_createConnection]
        exact h.next
      · rw [SharpNetwork.objects_createConnection_of_ne hkc]
        exact h.localIndex k (by omega)
    · rw [hcreated]
      rw [live_of_creates hcreates] at hk
      obtain rfl | hk := Finset.mem_insert.mp hk
      · exact Nat.lt_succ_self _
      · exact Nat.lt_succ_of_lt (h.live k hk)
  | false =>
    have hlive := live_of_not_creates (s := s) hcreates
    cases hremoved : SharpNetwork.removed e s.net with
    | some k =>
      rw [hremoved] at hlive
      obtain ⟨index, -, hsame⟩ := SharpNetwork.sameTable_of_removed hremoved
      have hcreated : (s.next e).net.created = s.net.created := hsame.created
      refine ⟨?_, fun j hj => ?_, fun j hj => ?_⟩
      · rw [hcreated]
        exact hsame.next.trans h.next
      · rw [hcreated] at hj
        exact (hsame.localIndex j).trans (h.localIndex j hj)
      · rw [hlive] at hj
        rw [hcreated]
        exact h.live j (Finset.mem_of_mem_erase hj)
    | none =>
      rw [hremoved] at hlive
      have hsame := SharpNetwork.sameTable_next hcreates hremoved
      have hcreated : (s.next e).net.created = s.net.created := hsame.created
      refine ⟨?_, fun j hj => ?_, fun j hj => ?_⟩
      · rw [hcreated]
        exact hsame.next.trans h.next
      · rw [hcreated] at hj
        exact (hsame.localIndex j).trans (h.localIndex j hj)
      · rw [hlive] at hj
        rw [hcreated]
        exact h.live j hj

/-- A new connection leaves the live ones in the table exactly if its index is new. -/
theorem Counted.kept_create (h : Counted s) (hkept : Kept s)
    (hcreates : SharpNetwork.creates e = true) : Kept (s.next e) ↔ Unwrapped e s := by
  have hsame := @SharpNetwork.sameTable_of_creates s.net _ hcreates
  have htable : (s.next e).net.connections = Function.update s.net.connections
      (BitVec.ofNat 16 (s.net.created + 1)) (some s.net.created) := by
    rw [← h.next]
    exact hsame.connections
  have hindex : ∀ k ∈ s.live, (BitVec.ofNat 16 (k + 1) = BitVec.ofNat 16 (s.net.created + 1) ↔
      65536 ∣ s.net.created - k) := by
    intro k hk
    have hlt := h.live k hk
    rw [ofNat_inj]
    omega
  unfold Kept Unwrapped
  rw [live_of_creates hcreates, htable]
  constructor
  · intro hall _
    refine ⟨(hall _ (Finset.mem_insert_self _ _)).1, fun k hk hdvd => ?_⟩
    have hkept := (hall k (Finset.mem_insert_of_mem hk)).2
    rw [(hindex k hk).mpr hdvd, Function.update_self] at hkept
    exact absurd (Option.some.inj hkept) (h.live k hk).ne'
  · intro hunwrapped k hk
    obtain ⟨hlast, hagain⟩ := hunwrapped hcreates
    obtain rfl | hk := Finset.mem_insert.mp hk
    · exact ⟨hlast, Function.update_self _ _ _⟩
    · refine ⟨(hkept k hk).1, ?_⟩
      rw [Function.update_of_ne fun heq => hagain k hk ((hindex k hk).mp heq)]
      exact (hkept k hk).2

/-- One event leaves the live connections in the table exactly if it meets the condition. -/
theorem Counted.kept_iff (h : Counted s) (hkept : Kept s) (e : NetworkEvent) :
    Kept (s.next e) ↔ Unwrapped e s := by
  cases hcreates : SharpNetwork.creates e with
  | true => exact h.kept_create hkept hcreates
  | false =>
    have hnever : Unwrapped e s := fun h => absurd (hcreates.symm.trans h) Bool.false_ne_true
    refine ⟨fun _ => hnever, fun _ => ?_⟩
    have hlive := live_of_not_creates (s := s) hcreates
    cases hremoved : SharpNetwork.removed e s.net with
    | some k =>
      rw [hremoved] at hlive
      obtain ⟨index, hk, hsame⟩ := SharpNetwork.sameTable_of_removed hremoved
      have htable : (s.next e).net.connections = Function.update s.net.connections index none :=
        hsame.connections
      intro j hj
      rw [hlive] at hj
      obtain ⟨hjk, hj⟩ := Finset.mem_erase.mp hj
      obtain ⟨hnonzero, hregistered⟩ := hkept j hj
      refine ⟨hnonzero, ?_⟩
      rw [htable, Function.update_of_ne fun heq => ?_]
      · exact hregistered
      · rw [heq, hk] at hregistered
        exact hjk (Option.some.inj hregistered).symm
    | none =>
      rw [hremoved] at hlive
      have hsame := SharpNetwork.sameTable_next hcreates hremoved
      have htable : (s.next e).net.connections = s.net.connections := hsame.connections
      unfold Kept
      rw [hlive, htable]
      exact hkept

/-- In every run of the network the live connections have distinct indices and keep their
entries in the table if and only if the indices of new connections do not wrap onto them. -/
theorem always_identifies (localAddress : HalfWord) :
    Lib.Always step Identifies es (start localAddress) ↔
      Lib.EveryStep step Unwrapped es (start localAddress) := by
  refine Lib.always_iff_everyStep (I := fun s => Counted s ∧ Kept s)
    (fun s hs => hs.1.identifies_iff.mpr hs.2) ?_ ?_
    ⟨counted_start localAddress, kept_start localAddress⟩
  · rintro e s s' ⟨hs, hkept⟩ hstep hc
    cases hstep
    exact ⟨hs.next_counted e, (hs.kept_iff hkept e).mpr hc⟩
  · rintro e s s' ⟨hs, hkept⟩ hstep hid
    cases hstep
    exact (hs.kept_iff hkept e).mp ((hs.next_counted e).identifies_iff.mp hid)

end IndexedNetwork

/-- The local indices identify the connections in every state of exactly those runs in which no
connection gets the index of one that is still live: with `allconn` the one 256 allocations
before, with `CreateConnection` the one 65536 before, or the index 0. -/
theorem connection_indices (serveraddr localAddress : HalfWord) (es : List TableEvent)
    (es' : List NetworkEvent) :
    (Lib.Always (TableRun.step serveraddr) (fun s => s.table.Identifies) es TableRun.start ↔
      Lib.EveryStep (TableRun.step serveraddr) TableRun.Unwrapped es TableRun.start) ∧
    (Lib.Always IndexedNetwork.step IndexedNetwork.Identifies es' (.start localAddress) ↔
      Lib.EveryStep IndexedNetwork.step IndexedNetwork.Unwrapped es' (.start localAddress)) :=
  ⟨TableRun.always_identifies, IndexedNetwork.always_identifies localAddress⟩

/-- Connections opened and closed again, `n` of them. -/
def churn : ℕ → List TableEvent
  | 0 => []
  | n + 1 => .allconn true :: .rlsconn 1 :: churn n

/-- The connection of the first allocation is in slot 0, and slot 1 is free. -/
structure FirstStays (s : TableRun) : Prop where
  first : (s.table.chconntab 0).isSome
  allocation : s.allocation 0 = 0
  free : s.table.freeSlot = some 1

/-- Another connection comes and goes. -/
theorem FirstStays.again {s : TableRun} (h : FirstStays s) (serveraddr : HalfWord) :
    let s' := (s.next serveraddr (.allconn true)).next serveraddr (.rlsconn 1)
    FirstStays s' ∧ s'.allocations = s.allocations + 1 := by
  have hfree := ConnectionTable.eq_none_of_freeSlot h.free
  have hnext : s.next serveraddr (.allconn true) =
      { table := s.table.allocate serveraddr 1
        allocations := s.allocations + 1
        allocation := Function.update s.allocation 1 s.allocations } := by
    simp only [TableRun.next, ConnectionTable.allconn, h.free, if_true]
  have htab : ((s.table.allocate serveraddr 1).rlsconn 1).chconntab = s.table.chconntab := by
    change Function.update (Function.update s.table.chconntab 1 _) 1 none = _
    rw [Function.update_idem, ← hfree, Function.update_eq_self]
  rw [hnext]
  refine ⟨⟨?_, ?_, ?_⟩, rfl⟩
  · change (((s.table.allocate serveraddr 1).rlsconn 1).chconntab 0).isSome
    rw [htab]
    exact h.first
  · have hne : (0 : Fin chnconns) ≠ 1 := by decide
    exact (Function.update_of_ne hne s.allocations s.allocation).trans h.allocation
  · change (List.finRange chnconns).find?
      (fun i => (((s.table.allocate serveraddr 1).rlsconn 1).chconntab i).isNone) = _
    rw [htab]
    exact h.free

/-- The 256th allocation after the first has its index. -/
theorem FirstStays.wraps {s : TableRun} (h : FirstStays s) {serveraddr : HalfWord} {n : ℕ}
    (hn : s.allocations + n = 256) :
    ¬Lib.EveryStep (TableRun.step serveraddr) TableRun.Unwrapped
      (churn n ++ [.allconn true]) s := by
  induction n generalizing s with
  | zero =>
    intro hall
    refine (hall _ rfl).1 rfl (by rw [h.free]; rfl) 0 h.first ?_
    rw [h.allocation]
    omega
  | succ n ih =>
    intro hall
    obtain ⟨hagain, hallocations⟩ := h.again serveraddr
    exact ih hagain (by omega) ((hall _ rfl).2 _ rfl).2

/-- A connection stays open while 255 others come and go. -/
theorem connection_index_again : ¬Lib.Always (TableRun.step 0o401) (fun s => s.table.Identifies)
    (.allconn true :: (churn 255 ++ [.allconn true])) TableRun.start := by
  rw [TableRun.always_identifies]
  intro hall
  have hfirst : FirstStays (TableRun.start.next 0o401 (.allconn true)) := ⟨rfl, rfl, rfl⟩
  exact hfirst.wraps rfl (hall _ rfl).2

end Usim
