import Usim.Ncp.Calls

/-!
# What a host keeps

A host with one connection in its table keeps what holds of the connection when it carries
out the effects of a function, when packets are transmitted and received, and when the clock
ticks.
-/

namespace Usim.Ncp

open Lib

/-! ### A host with one connection -/

/-- The table of connections holds one connection, at its first place. -/
structure Holds (e : Ends) (h : Host ℤ) (c : Connection ℤ) : Prop where
  conntab : h.conntab = Function.update (fun _ => none) 0 (some c)
  myaddr : h.myaddr = e.me
  xcAddr : h.xcAddr = e.me
  listeners : ∀ l ∈ h.lsnlist, l.sidx.toNat % 256 = 0

/-- The packets on their way to the interface, the one being transmitted first. -/
def Host.queue {S : Type} (h : Host S) : List (Packet S) := h.xcTpkt.toList ++ h.xcList

variable {e : Ends} {sent written taken : List Message} {peerRead peerLast : ℤ}
  {c c' : Connection ℤ} {h h' : Host ℤ} {bag : List (Packet ℤ)} {p : Packet ℤ}

theorem Holds.conn (hh : Holds e h c) : h.conntab 0 = some c := by
  rw [hh.conntab, Function.update_self]

theorem Holds.conn_of_ne (hh : Holds e h c) {k : ℕ} (hk : k ≠ 0) : h.conntab k = none := by
  rw [hh.conntab, Function.update_of_ne hk]

/-- The connection is stored. -/
theorem Holds.setConn (hh : Holds e h c) (c' : Connection ℤ) : Holds e (h.setConn 0 c') c' where
  conntab := by rw [Host.setConn, hh.conntab, Function.update_idem]
  myaddr := hh.myaddr
  xcAddr := hh.xcAddr
  listeners := hh.listeners

/-- What the host is besides does not matter. -/
theorem Holds.congr (hh : Holds e h c) (hconntab : h'.conntab = h.conntab)
    (hmyaddr : h'.myaddr = h.myaddr) (hxcAddr : h'.xcAddr = h.xcAddr)
    (hlsnlist : h'.lsnlist = h.lsnlist) : Holds e h' c where
  conntab := hconntab ▸ hh.conntab
  myaddr := hmyaddr ▸ hh.myaddr
  xcAddr := hxcAddr ▸ hh.xcAddr
  listeners := hlsnlist ▸ hh.listeners

/-- Only the index of the connection is found in the table. -/
theorem Holds.lookup (hh : Holds e h c) (hlidx : c.lidx = e.lidx) (idx : HalfWord) :
    h.lookup idx = if idx = e.lidx then some (0, c) else none := by
  rw [Host.lookup]
  by_cases hk : idx.toNat % 256 = 0
  · simp only [hk, hh.conn]
    rw [if_pos (by decide)]
    by_cases hidx : idx = e.lidx
    · simp [hidx, hlidx]
    · simp [Option.filter, hlidx, hidx, Ne.symm hidx]
  · have hidx : idx ≠ e.lidx := by
      rintro rfl
      exact hk e.lidx_slot
    simp [hh.conn_of_ne hk, hidx]

/-- Only one's own address is one's own. -/
theorem Host.eq_of_isMe {S : Type} {h : Host S} {a : HalfWord} (ha : h.isMe a = true) :
    a = h.myaddr := by
  have heq : (a.toNat : ℤ) = h.myaddr.toInt := of_decide_eq_true ha
  rw [BitVec.toInt_eq_toNat_cond] at heq
  apply BitVec.eq_of_toNat_eq
  have h₁ := a.isLt
  have h₂ := h.myaddr.isLt
  split at heq <;> omega

theorem Holds.isMe_peer (hh : Holds e h c) : h.isMe e.peer = false := by
  by_contra hne
  exact e.peer_ne ((Host.eq_of_isMe (Bool.not_eq_false _ ▸ hne)).trans hh.myaddr)

/-! ### Effects -/

/-- No numbered packet goes before one that is a window behind it. -/
def Orderly (e : Ends) (ps : List (Packet ℤ)) : Prop :=
  (numbers ps).Pairwise fun m n : ℤ => m < n + max 1 e.peerWindow.toNat

/-- What holds of the packets transmitted and of those queued behind them. -/
structure Line (e : Ends) (written : List Message) (wire : List (Packet ℤ)) (h : Host ℤ) :
    Prop where
  orderly : Orderly e (wire ++ h.xcList)
  number_le : ∀ n ∈ numbers wire, n ≤ written.length
  last : ∀ p ∈ h.xcTpkt, ∃ ps, wire = ps ++ [p]

variable {wire pending : List (Packet ℤ)}

/-- Packets that are behind the others by less than a window. -/
theorem Orderly.append {ps qs : List (Packet ℤ)} {last : ℤ} (h : Orderly e ps)
    (hle : ∀ n ∈ numbers (ps ++ qs), n ≤ last)
    (hqs : ∀ n ∈ numbers qs, last < n + max 1 e.peerWindow.toNat) : Orderly e (ps ++ qs) := by
  rw [numbers_append] at hle
  rw [Orderly, numbers_append, List.pairwise_append]
  refine ⟨h, List.pairwise_of_forall_mem_list fun m hm n hn => ?_, fun m hm n hn => ?_⟩
  · exact lt_of_le_of_lt (hle m (List.mem_append_right _ hm)) (hqs n hn)
  · exact lt_of_le_of_lt (hle m (List.mem_append_left _ hm)) (hqs n hn)

/-- The packets transmitted and queued are as before. -/
theorem Line.congr (h' : Line e written wire h) {host : Host ℤ} (hxcList : host.xcList = h.xcList)
    (hxcTpkt : host.xcTpkt = h.xcTpkt) : Line e written wire host where
  orderly := hxcList ▸ h'.orderly
  number_le := h'.number_le
  last := hxcTpkt ▸ h'.last

/-- More is written. -/
theorem Line.mono (h' : Line e written wire h) (more : List Message) :
    Line e (written ++ more) wire h where
  orderly := h'.orderly
  number_le n hn := by
    have := h'.number_le n hn
    rw [List.length_append]
    omega
  last := h'.last

/-- What holds of a host that has transmitted some packets and has others still to be handed
over: of its connection, to which a path leads, and which has read and received at least as
much as at the start of the path. -/
structure HostSound (v : View) (start : EndState) (wire : List (Packet ℤ)) (h : Host ℤ)
    (pending : List (Packet ℤ)) (log : Log) (c : Connection ℤ) : Prop where
  holds : Holds v.ends h c
  sound : Sound v.ends v.sent v.peerRead v.peerLast c (pending ++ h.queue) log.written log.taken
  peer : v.Peer log
  rread_le : start.conn.rread ≤ c.rread
  rlast_le : start.conn.rlast ≤ c.rlast
  line : Line v.ends log.written wire h
  path : Path v start ⟨c, pending ++ h.queue, log⟩

variable {v : View} {start : EndState} {log : Log} {es : List (Effect ℤ)}

/-- The path goes on. -/
theorem HostSound.step (hs : HostSound v start wire h pending log c) {s : EndState}
    (hstep : Step v ⟨c, pending ++ h.queue, log⟩ s) : Path v start s :=
  hs.path.tail ⟨hs.sound, hs.peer, hstep⟩

/-- A list of packets with stamped ones behind it. -/
theorem perm_stamp (ps qs : List (Packet ℤ)) (f : Packet ℤ → Packet ℤ)
    (hf : ∀ p, (f p).plain = p.plain) :
    ((qs ++ ps.map f).map Packet.plain).Perm ((ps ++ qs).map Packet.plain) := by
  rw [List.map_append, List.map_append, List.map_map]
  rw [show Packet.plain ∘ f = Packet.plain from funext hf]
  exact List.perm_append_comm

/-- `sendctl` queues a packet or throws it away. -/
theorem HostSound.sendctl (hs : HostSound v start wire h (p :: pending) log c)
    (hcont : contpkt p.op = false) : HostSound v start wire (h.sendctl p) pending log c := by
  have hfree : HostSound v start wire h pending log c :=
    { hs with
      sound :=
        { hs.sound with
          transmit := Transmit.free hs.sound.transmit fun _ hc => by rw [hcont] at hc; cases hc }
      path := hs.step (.free p) }
  rw [Host.sendctl]
  split
  · exact hfree
  · cases hroute : h.route p.daddr with
    | none => exact hfree
    | some dest =>
      have hbag : ((pending ++ ({ h with xcList := { p with xdest := dest } :: h.xcList } :
          Host ℤ).queue).map Packet.plain).Perm (((p :: pending) ++ h.queue).map Packet.plain) := by
        simp only [Host.queue, List.map_append, List.map_cons, List.cons_append]
        have hplain : ({ p with xdest := dest } : Packet ℤ).plain = p.plain := rfl
        rw [hplain, ← List.append_assoc, ← List.append_assoc]
        exact List.perm_middle
      refine ⟨hs.holds.congr rfl rfl rfl rfl, hs.sound.rearrange hbag, hs.peer, hs.rread_le,
        hs.rlast_le, ⟨?_, hs.line.number_le, hs.line.last⟩, hs.step (.rearrange hbag)⟩
      have horderly := hs.line.orderly
      rw [Orderly, numbers_append] at horderly ⊢
      rwa [numbers_cons_of_not (show contpkt ({ p with xdest := dest } : Packet ℤ).op = false
        from hcont)]

/-- `xmitdone` keeps a packet for retransmission or frees it. -/
theorem HostSound.xmitdone (hs : HostSound v start wire h (p :: pending) log c) :
    ∃ thead, HostSound v start wire (h.xmitdone p) pending log { c with thead := thead } := by
  have hown := hs.sound.transmit.own p List.mem_cons_self
  have hfree (hp : c.Alive → contpkt p.op = true → p.pkn ≤ c.trecvd) :
      ∃ thead, HostSound v start wire h pending log { c with thead := thead } :=
    ⟨c.thead, hs.holds, { hs.sound with transmit := Transmit.free hs.sound.transmit hp },
      hs.peer, hs.rread_le, hs.rlast_le, hs.line, hs.step (.free p)⟩
  rw [Host.xmitdone, hs.holds.lookup hs.sound.lidx]
  by_cases hidx : p.sidx = v.ends.lidx
  · rw [if_pos hidx]
    simp only
    split_ifs with hkeep
    · obtain ⟨-, hcont, -, hlater⟩ := hkeep
      exact ⟨_, hs.holds.setConn _,
        { hs.sound with
          transmit := Transmit.keep hs.sound.transmit hcont (later_int.mp hlater) h.clock
          receive := hs.sound.receive.congr (Or.inl rfl) rfl rfl rfl rfl rfl rfl },
        hs.peer, hs.rread_le, hs.rlast_le, hs.line.congr rfl rfl, hs.step (.keep p h.clock)⟩
    · refine hfree fun ha hcont => ?_
      by_contra hlt
      exact hkeep ⟨hown.fc, hcont, ha, later_int.mpr (by omega)⟩
  · rw [if_neg hidx]
    exact hfree fun _ hcont => absurd (hown.sidx hcont) hidx

/-- New packets and those sent again are behind the others by less than a window. -/
theorem HostSound.orderly_append {ps : List (Packet ℤ)}
    (hs : HostSound v start wire h (ps ++ pending) log c)
    (hps : ∀ p ∈ ps, contpkt p.op = true → c.trecvd < p.pkn) (time xdest : HalfWord) :
    Orderly v.ends
      (wire ++ (h.xcList ++ ps.map fun q => { q with time := time, xdest := xdest })) := by
  have htransmit := hs.sound.transmit
  have hnumbers : numbers (ps.map fun q => { q with time := time, xdest := xdest }) =
      numbers ps := by
    rw [numbers, List.filter_map, List.map_map]
    rfl
  have hown : ∀ n ∈ numbers (ps ++ pending ++ h.queue), n ≤ log.written.length := by
    intro n hn
    obtain ⟨q, hq, hcont, rfl⟩ := mem_numbers.mp hn
    exact (htransmit.own q (List.mem_append_left _ hq)).pkn_le hcont
  have hle : ∀ n ∈ numbers (wire ++ h.xcList ++ ps.map fun q =>
      { q with time := time, xdest := xdest }), n ≤ log.written.length := by
    intro n hn
    rw [numbers_append, numbers_append, hnumbers] at hn
    rcases List.mem_append.mp hn with hn | hn
    · rcases List.mem_append.mp hn with hn | hn
      · exact hs.line.number_le n hn
      · refine hown n ?_
        rw [Host.queue, numbers_append, numbers_append h.xcTpkt.toList]
        exact List.mem_append_right _ (List.mem_append_right _ hn)
    · refine hown n ?_
      rw [List.append_assoc, numbers_append]
      exact List.mem_append_left _ hn
  rw [← List.append_assoc]
  refine hs.line.orderly.append hle fun n hn => ?_
  rw [hnumbers] at hn
  obtain ⟨q, hq, hcont, rfl⟩ := mem_numbers.mp hn
  have hlate := hps q hq hcont
  have htlast := htransmit.tlast
  have hwithin := htransmit.within
  have htacked := htransmit.tacked_le
  omega

/-- Packets are handed to `xmitdone`. -/
theorem HostSound.xmitdones (ps : List (Packet ℤ))
    (hs : HostSound v start wire h (ps ++ pending) log c) :
    ∃ thead, HostSound v start wire (ps.foldl Host.xmitdone h) pending log
      { c with thead := thead } := by
  induction ps generalizing h c with
  | nil => exact ⟨c.thead, hs⟩
  | cons p ps ih =>
    obtain ⟨thead₁, hs₁⟩ := HostSound.xmitdone hs
    obtain ⟨thead₂, hs₂⟩ := ih hs₁
    exact ⟨thead₂, hs₂⟩

/-- `senddata` queues packets, or fakes their transmission. -/
theorem HostSound.senddata (ps : List (Packet ℤ))
    (hs : HostSound v start wire h (ps ++ pending) log c)
    (hps : ∀ p ∈ ps, contpkt p.op = true → c.trecvd < p.pkn) :
    ∃ thead, HostSound v start wire (h.senddata ps) pending log { c with thead := thead } := by
  cases ps with
  | nil => exact ⟨c.thead, hs⟩
  | cons p ps =>
    have hown := hs.sound.transmit.own p List.mem_cons_self
    simp only [Host.senddata, hown.daddr, hs.holds.isMe_peer]
    rw [if_neg (by decide)]
    cases hroute : h.route v.ends.peer with
    | none => exact HostSound.xmitdones (p :: ps) hs
    | some dest =>
      have hbag := perm_stamp (p :: ps) (pending ++ h.queue)
        (fun q => { q with time := h.clock, xdest := dest }) fun q => rfl
      rw [Host.queue, List.append_assoc, List.append_assoc, ← List.append_assoc (p :: ps)] at hbag
      exact ⟨c.thead, hs.holds.congr rfl rfl rfl rfl, hs.sound.rearrange hbag, hs.peer,
        hs.rread_le, hs.rlast_le,
        ⟨hs.orderly_append hps h.clock dest, hs.line.number_le, hs.line.last⟩,
        hs.step (.rearrange hbag)⟩

/-- The effects of a function are carried out. -/
theorem HostSound.perform (hs : HostSound v start wire h (sending es) log c)
    (hes : Controls c.trecvd es) :
    ∃ thead, HostSound v start wire (es.foldl Host.perform h) [] log
      { c with thead := thead } := by
  induction es generalizing h c with
  | nil => exact ⟨c.thead, hs⟩
  | cons x es ih =>
    rw [← List.singleton_append] at hes
    have htail : Controls c.trecvd es :=
      ⟨fun q hq => hes.1 q (List.mem_append_right [x] hq),
        fun q hq => hes.2 q (sending_append [x] es ▸ List.mem_append_right _ hq)⟩
    obtain ⟨thead, hs₁⟩ : ∃ thead, HostSound v start wire (h.perform x) (sending es) log
        { c with thead := thead } := by
      cases x with
      | ctl p => exact ⟨c.thead, HostSound.sendctl hs (hes.1 p List.mem_cons_self)⟩
      | write p =>
        refine HostSound.senddata [p] hs fun q hq => hes.2 q ?_
        exact List.mem_append_left (sending es) hq
      | data ps =>
        refine HostSound.senddata ps hs fun q hq => hes.2 q ?_
        exact List.mem_append_left (sending es) hq
      | read p => exact ⟨c.thead, hs⟩
      | accept bs => exact ⟨c.thead, hs⟩
      | stream bs => exact ⟨c.thead, hs⟩
    obtain ⟨thead', hs'⟩ := ih hs₁ htail
    exact ⟨thead', hs'⟩

/-- What holds of a host after a call, before its effects are carried out. -/
theorem HostSound.called (hs : HostSound v start wire h [] log c)
    {r : Connection ℤ × List (Effect ℤ)} (hcall : Call v c r) :
    HostSound v start wire (h.setConn 0 r.1) (sending r.2) (log.note r.2) r.1 := by
  have hout := hcall.outcome hs.sound hs.peer
  exact ⟨hs.holds.setConn _, hout.sound, hs.peer.note _, hs.rread_le.trans hout.rread_le,
    hs.rlast_le.trans hout.rlast_le, (hs.line.mono _).congr rfl rfl, hs.step (.call hcall)⟩

/-- A function is called on the connection. -/
theorem HostSound.onConn (hs : HostSound v start wire h [] log c)
    {f : Connection ℤ → Connection ℤ × List (Effect ℤ)} (hcall : Call v c (f c)) :
    ∃ thead, HostSound v start wire (h.onConn 0 f).1 [] (log.note (h.onConn 0 f).2)
      { (f c).1 with thead := thead } := by
  simp only [Host.onConn, hs.holds.conn]
  exact (hs.called hcall).perform (hcall.outcome hs.sound hs.peer).controls

/-- Effects of a packet that has arrived are carried out, with the connection as before. -/
theorem HostSound.performs (hs : HostSound v start wire h [] log c) (hes : Silent es)
    (hcall : Call v c (c, es)) :
    ∃ c', HostSound v start wire (es.foldl Host.perform h) [] log c' := by
  have hsame : h.setConn 0 c = h := by
    rw [Host.setConn, ← hs.holds.conn, Function.update_eq_self]
  have hcalled := hs.called hcall
  rw [hes, hsame] at hcalled
  obtain ⟨thead, hs'⟩ := hcalled.perform (hcall.outcome hs.sound hs.peer).controls
  exact ⟨_, hs'⟩

/-! ### Packets that arrive -/

/-- The connection and the queue are as before. -/
theorem HostSound.congr (hs : HostSound v start wire h [] log c)
    (hconntab : h'.conntab = h.conntab) (hmyaddr : h'.myaddr = h.myaddr)
    (hxcAddr : h'.xcAddr = h.xcAddr) (hlsnlist : ∀ l ∈ h'.lsnlist, l ∈ h.lsnlist)
    (hxcList : h'.xcList = h.xcList) (hxcTpkt : h'.xcTpkt = h.xcTpkt) :
    HostSound v start wire h' [] log c := by
  have hqueue : h'.queue = h.queue := by rw [Host.queue, Host.queue, hxcList, hxcTpkt]
  exact
    { hs with
      holds :=
        ⟨hconntab ▸ hs.holds.conntab, hmyaddr ▸ hs.holds.myaddr, hxcAddr ▸ hs.holds.xcAddr,
          fun l hl => hs.holds.listeners l (hlsnlist l hl)⟩
      sound := hqueue ▸ hs.sound
      line := hs.line.congr hxcList hxcTpkt
      path := hqueue ▸ hs.path }

/-- A call that writes and reads nothing for the user. -/
theorem HostSound.onConn_silent (hs : HostSound v start wire h [] log c)
    {f : Connection ℤ → Connection ℤ × List (Effect ℤ)} (hcall : Call v c (f c))
    (hsilent : Silent (f c).2) :
    ∃ thead, HostSound v start wire (h.onConn 0 f).1 [] log { (f c).1 with thead := thead } := by
  obtain ⟨thead, hs'⟩ := hs.onConn hcall
  have heffects : (h.onConn 0 f).2 = (f c).2 := by simp only [Host.onConn, hs.holds.conn]
  rw [heffects, hsilent] at hs'
  exact ⟨thead, hs'⟩

section Silent

variable {S : Type}

theorem silent_sendlos (p : Packet S) (myname text : List Byte) :
    Silent (p.sendlos myname text) := by
  rw [Packet.sendlos]
  split
  · exact silent_nil
  · exact silent_ctl _

theorem silent_chretran (c : Connection S) (clock : HalfWord) (age : ℕ) :
    Silent (c.chretran clock age).2 := by
  rw [Connection.chretran]
  split
  · exact silent_nil
  · exact silent_data _

variable [SerialNumber S] [DecidableEq S]

theorem silent_rcvdata (c : Connection S) (p : Packet S) : Silent (c.rcvdata p).2 := by
  rw [Connection.rcvdata]
  split
  · exact silent_nil
  · rw [Connection.enqueue]
    split
    · exact silent_ctl _
    · split
      · split
        · exact silent_ctl _
        · exact silent_nil
      · exact silent_nil

/-- What a received packet does is nothing that the user writes or reads. -/
theorem silent_rcvpkt (c : Connection S) (clock : HalfWord) (shorttime : ℕ) (myname : List Byte)
    (p : Packet S) : Silent (c.rcvpkt clock shorttime myname p).2 := by
  rw [Connection.rcvpkt]
  split
  · split_ifs
    · exact silent_ctl _
    · exact silent_nil
    · exact silent_sendlos p _ _
  · rw [Connection.rcvopened]
    split_ifs
    · exact silent_rcvdata _ p
    · exact silent_nil
    · exact silent_ctl _
    · exact silent_nil
    · exact silent_nil
    · exact silent_nil
    · exact silent_chretran _ _ _
    · exact silent_sendlos p _ _
  · exact silent_sendlos p _ _

end Silent

/-- A packet is answered with a LOS, if at all. -/
theorem HostSound.sendlos (hs : HostSound v start wire h [] log c) (hp : v.arrives p)
    (myname text : List Byte) :
    ∃ c', HostSound v start wire ((p.sendlos myname text).foldl Host.perform h) [] log c' :=
  hs.performs (silent_sendlos p myname text) (.sendlos myname text p hp)

/-- The connection is found for an RFC that it has had already. -/
theorem Holds.rfcConn (hh : Holds e h c) (p : Packet ℤ) :
    h.rfcConn p = if c.fidx = p.sidx ∧ c.faddr = p.saddr then some (0, c) else none := by
  have hrange : List.range chnconns = 0 :: (List.range 19).map (· + 1) := by decide
  have hrest : ((List.range 19).map (· + 1)).findSome? (fun k =>
      ((h.conntab k).filter fun c => decide (c.fidx = p.sidx ∧ c.faddr = p.saddr)).map
        fun c => (k, c)) = none := by
    rw [List.findSome?_eq_none_iff]
    intro k hk
    obtain ⟨i, -, rfl⟩ := List.mem_map.mp hk
    rw [hh.conn_of_ne (Nat.succ_ne_zero i)]
    rfl
  rw [Host.rfcConn, hrange, List.findSome?_cons, hrest, hh.conn]
  split_ifs with hfound <;> simp [Option.filter, hfound]

/-- A first packet of the other end is an RFC only if that end opens the connection. -/
theorem Peer.first_of_rfc (hpeer : Peer e sent written peerRead peerLast)
    (hp : Own e.flip peerRead peerLast sent p) (hop : p.op = rfcop) : e.first = opnop := by
  have hcont : contpkt p.op = true := by rw [hop]; decide
  have hdata : isData p.op = false := by rw [hop]; decide
  obtain ⟨hpos, hmessage⟩ := hp.number hcont
  have hzero := (hpeer.opening _ _ hmessage).mp hdata
  have hfirst := hpeer.ops _ _ hmessage
  rw [if_pos hzero] at hfirst
  rcases e.first_eq with heq | heq
  · have hflip : e.flip.first = opnop := by
      rw [Ends.flip]
      exact if_pos heq
    rw [hflip] at hfirst
    exact absurd (hop.symm.trans hfirst) (by decide)
  · exact heq

/-- An RFC of the other end. -/
theorem HostSound.rcvrfc (hs : HostSound v start wire h [] log c) (harrives : v.arrives p)
    (hop : p.op = rfcop) : ∃ c', HostSound v start wire (h.rcvrfc p) [] log c' := by
  have hp := v.own p harrives
  have hfirst := Peer.first_of_rfc hs.peer hp hop
  rw [Host.rcvrfc, hs.holds.rfcConn]
  by_cases hfound : c.fidx = p.sidx ∧ c.faddr = p.saddr
  · rw [if_pos hfound]
    simp only
    split
    · obtain ⟨thead, hs'⟩ := hs.onConn_silent (f := fun c => c.chretran h.clock (h.hz >>> 4))
        (.chretran _ _) (silent_chretran c _ _)
      exact ⟨_, hs'⟩
    · exact ⟨c, hs⟩
  · rw [if_neg hfound]
    simp only
    have hlisten : c.state = .listen := by
      by_contra hne
      exact hfound ⟨(hs.sound.fidx hfirst hne).trans (hp.sidx (by rw [hop]; decide)).symm,
        (hs.sound.addr hne).2.1.trans hp.saddr.symm⟩
    cases hfind : h.lsnlist.find? fun l => concmp p.cdata l.cdata with
    | some l =>
      have hslot := hs.holds.listeners l (List.mem_of_find?_eq_some hfind)
      have hs₁ : HostSound v start wire
          { h with lsnlist := h.lsnlist.eraseP fun l => concmp p.cdata l.cdata } [] log c :=
        hs.congr rfl rfl rfl (fun l hl => List.mem_of_mem_eraseP hl) rfl rfl
      have hcall := Call.lsnmatch h.clock p harrives hop hlisten
      rw [← hs.holds.myaddr] at hcall
      obtain ⟨thead, hs'⟩ := hs₁.onConn_silent
        (f := fun c => (c.lsnmatch h.clock h.myaddr p, [])) hcall silent_nil
      simp only [hslot]
      exact ⟨_, hs'⟩
    | none =>
      simp only
      cases hservice : h.services.find? fun s => concmp p.cdata s.1 with
      | some s => exact hs.performs (silent_ctl _) (.answer s.2 p harrives)
      | none =>
        simp only
        split_ifs
        · exact hs.sendlos harrives _ _
        · exact ⟨c, hs⟩
        · exact ⟨c, hs.congr rfl rfl rfl (fun l hl => hl) rfl rfl⟩

/-- A packet of the other end. -/
theorem HostSound.rcvpkt (hs : HostSound v start wire h [] log c) (harrives : v.arrives p) :
    ∃ c', HostSound v start wire (h.rcvpkt p) [] log c' := by
  have hp := v.own p harrives
  have hheard : HostSound v start wire h.heard [] log c := by
    rw [Host.heard]
    split
    · exact hs
    · exact hs.congr rfl rfl rfl (fun l hl => hl) rfl rfl
  have hkind : p.op ≠ rutop ∧ p.op ≠ mntop ∧ p.op ≠ brdop := by
    rcases hp.kind with hcont | hop | hop | hop | hop
    · refine ⟨?_, ?_, ?_⟩ <;> rintro heq <;> rw [heq] at hcont <;> exact absurd hcont (by decide)
    all_goals rw [hop]; decide
  rw [Host.rcvpkt]
  generalize h.heard = h₁ at hheard
  rw [if_neg fun hforward => hforward.2.1 (hp.daddr.trans hheard.holds.xcAddr.symm),
    if_neg hkind.1, if_neg hkind.2.1]
  split_ifs with hrfc hbrd
  · exact hheard.rcvrfc harrives hrfc
  · exact ⟨c, hheard⟩
  · rw [hheard.holds.lookup hheard.sound.lidx]
    by_cases hidx : p.didx = v.ends.lidx
    · rw [if_pos hidx]
      simp only
      obtain ⟨thead, hs'⟩ := hheard.onConn_silent
        (f := fun c => c.rcvpkt h₁.clock (h₁.hz >>> 4) h₁.myname p)
        (.rcvpkt _ _ _ p harrives) (silent_rcvpkt c _ _ _ p)
      exact ⟨_, hs'⟩
    · rw [if_neg hidx]
      exact hheard.sendlos harrives _ _

/-! ### Calls of the user and the clock -/

/-- A host after a call, with what the call did for the user. -/
def Ran (v : View) (start : EndState) (wire : List (Packet ℤ)) (log : Log)
    (r : Host ℤ × List (Effect ℤ)) : Prop :=
  ∃ c, HostSound v start wire r.1 [] (log.note r.2) c

/-- Nothing has happened. -/
theorem HostSound.ran (hs : HostSound v start wire h [] log c) :
    Ran v start wire log (h, []) :=
  ⟨c, log.note_nil.symm ▸ hs⟩

/-- One call after another. -/
theorem Ran.trans {es' : List (Effect ℤ)} (hr : Ran v start wire (log.note es) (h, es')) :
    Ran v start wire log (h, es ++ es') := by
  obtain ⟨c, hs⟩ := hr
  exact ⟨c, log.note_append es es' ▸ hs⟩

/-- A function is called on the connection, and nothing else. -/
theorem HostSound.ran_onConn (hs : HostSound v start wire h [] log c)
    {f : Connection ℤ → Connection ℤ × List (Effect ℤ)} (hcall : Call v c (f c)) :
    Ran v start wire log (h.onConn 0 f) := by
  obtain ⟨thead, hs'⟩ := hs.onConn hcall
  exact ⟨_, hs'⟩

/-- A listener is removed, or the connection closed. -/
theorem HostSound.chClose (hs : HostSound v start wire h [] log c) (hop : p.op = clsop) :
    Ran v start wire log (h.chClose 0 (some p)) := by
  rw [Host.chClose, hs.holds.conn]
  simp only
  split
  · exact HostSound.ran (c := c)
      (hs.congr rfl rfl rfl (fun l hl => List.mem_of_mem_eraseP hl) rfl rfl)
  · exact hs.ran_onConn (f := fun c => c.chClose (some p)) (.close p hop)

theorem state_chWrite_getD {S : Type} [SerialNumber S] (c : Connection S) (p : Packet S)
    (hop : isData p.op = true) : ((c.chWrite p).getD (c, [])).1.state = c.state := by
  rw [c.chWrite_getD (Or.inl hop)]
  split_ifs <;> rfl

theorem state_chretran {S : Type} [SerialNumber S] (c : Connection S) (clock : HalfWord)
    (age : ℕ) : (c.chretran clock age).1.state = c.state := by
  rw [Connection.chretran]
  split <;> rfl

theorem Sound.state_flushOutput (h : Sound e sent peerRead peerLast c bag written taken)
    (clock : HalfWord) (hz : ℕ) : (Host.flushOutput clock hz c).1.state = c.state := by
  rw [Host.flushOutput]
  cases hout : c.toutput with
  | none => rfl
  | some p =>
    simp only
    split
    · exact state_chWrite_getD { c with toutput := none } p
        (by rw [isData, (h.toutput p hout).1, Bool.true_or])
    · rfl

/-- `ch_clock`, for one entry of the table. -/
theorem HostSound.clockConn (hs : HostSound v start wire h [] log c) (probing : Bool) (k : ℕ) :
    Ran v start wire log (Host.clockConn probing h k) := by
  by_cases hk : k = 0
  · subst hk
    simp only [Host.clockConn, hs.holds.conn]
    split
    · have halive : c.state = .opened ∨ c.state = .rfcsent := by assumption
      rw [← hs.sound.state_flushOutput h.clock h.hz] at halive
      obtain ⟨thead₁, hs₁⟩ := hs.onConn (f := Host.flushOutput h.clock h.hz) (.flushOutput _ _)
      generalize (Host.flushOutput h.clock h.hz c).1 = c₁ at *
      generalize h.onConn 0 (Host.flushOutput h.clock h.hz) = r₁ at *
      obtain ⟨h₁, es₁⟩ := r₁
      rw [show c₁.state = ({ c₁ with thead := thead₁ } : Connection ℤ).state from rfl] at halive
      generalize ({ c₁ with thead := thead₁ } : Connection ℤ) = c₁ at *
      rw [← state_chretran c₁ h₁.clock h₁.hz] at halive
      obtain ⟨thead₂, hs₂⟩ := hs₁.onConn (f := fun c => c.chretran h₁.clock h₁.hz) (.chretran _ _)
      simp only
      generalize (c₁.chretran h₁.clock h₁.hz).1 = c₂ at *
      generalize h₁.onConn 0 (fun c => c.chretran h₁.clock h₁.hz) = r₂ at *
      obtain ⟨h₂, es₂⟩ := r₂
      rw [List.append_assoc]
      refine Ran.trans (Ran.trans ?_)
      cases probing with
      | false => exact hs₂.ran
      | true =>
        have hlisten : c₂.state ≠ .listen := by rcases halive with heq | heq <;> rw [heq] <;> decide
        exact hs₂.ran_onConn (f := Host.probe h₂.clock h₂.hz) (.probe _ _ hlisten)
    · exact hs.ran
  · simp only [Host.clockConn, hs.holds.conn_of_ne hk]
    exact hs.ran

/-- `ch_clock`, over entries of the table. -/
theorem Ran.clockConns (probing : Bool) (ks : List ℕ) (es : List (Effect ℤ))
    (hs : Ran v start wire log (h, es)) :
    Ran v start wire log
      (ks.foldl (fun (h, es) k =>
        ((Host.clockConn probing h k).1, es ++ (Host.clockConn probing h k).2)) (h, es)) := by
  induction ks generalizing h es with
  | nil => exact hs
  | cons k ks ih =>
    obtain ⟨c, hs⟩ := hs
    exact ih _ (Ran.trans (hs.clockConn probing k))

/-- Neither the connection nor the queue changes. -/
theorem HostSound.nextTimes (hs : HostSound v start wire h [] log c) :
    HostSound v start wire h.nextTimes.2 [] log c := by
  simp only [Host.nextTimes]
  split_ifs <;> exact hs.congr rfl rfl rfl (fun l hl => hl) rfl rfl

/-- A tick of the clock. -/
theorem HostSound.chClock (hs : HostSound v start wire h [] log c) :
    Ran v start wire log h.chClock := by
  have htick : HostSound v start wire h.tick [] log c :=
    hs.congr rfl rfl rfl (fun l hl => hl) rfl rfl
  rw [Host.chClock]
  split
  · exact htick.ran
  · exact Ran.clockConns _ _ _ htick.nextTimes.ran

/-- `ch_swrite`, its loop. -/
theorem HostSound.swriteLoop (n : ℕ) (hs : HostSound v start wire h [] log c) (bs : List Byte) :
    Ran v start wire log ((h.swriteLoop 0 n bs).1, (h.swriteLoop 0 n bs).2.1) := by
  induction n generalizing h log c bs with
  | zero => exact hs.ran
  | succ n ih =>
    simp only [Host.swriteLoop, hs.holds.conn]
    split
    · exact hs.ran
    · have hturn : ¬ (c.writable = false ∨ bs = [] ∨ c.chtfull = true) := by assumption
      rw [not_or, not_or, Bool.not_eq_false, Bool.not_eq_true] at hturn
      obtain ⟨thead, hs₁⟩ := hs.onConn (f := Connection.swriteTurn h.clock bs)
        (.swriteTurn _ _ hturn.1 hturn.2.2)
      exact Ran.trans (ih hs₁ _)

/-- The end of a file is not the first packet of the other end. -/
theorem HostSound.rread_chRead_eof (hs : HostSound v start wire h [] log c)
    {ps : List (Packet ℤ)} (hrhead : c.rhead = p :: ps) (hop : p.op = eofop) :
    1 < c.chRead.1.rread := by
  have hcont : contpkt p.op = true := by rw [hop]; decide
  have hread : c.chRead.1.rread = p.pkn := by
    rw [Connection.chRead, hrhead]
    simp only
    rw [if_pos hcont]
    split_ifs <;> rfl
  obtain ⟨hpos, hmessage⟩ :=
    (hs.sound.receive.carried p (List.mem_append_left _ (hrhead ▸ List.mem_cons_self))).number hcont
  have hnot := (Peer.opening hs.peer _ _ hmessage).not.mp (by
    rw [show p.message.op = eofop from hop]
    decide)
  omega

/-- `ch_sread`, its loop. -/
theorem HostSound.sreadLoop (nchars n : ℕ) (hs : HostSound v start wire h [] log c) (done : ℕ) :
    Ran v start wire log ((h.sreadLoop 0 nchars n done).1, (h.sreadLoop 0 nchars n done).2.1) := by
  induction n generalizing h log c done with
  | zero => exact hs.ran
  | succ n ih =>
    simp only [Host.sreadLoop, hs.holds.conn, Option.bind_some]
    cases hrhead : c.rhead with
    | nil => exact hs.ran
    | cons p ps =>
      have hhead : ∀ {b : Bool}, streamop p.op = b → ∀ q ∈ c.rhead.head?, streamop q.op = b := by
        intro b hb q hq
        rw [hrhead] at hq
        cases hq
        exact hb
      simp only [List.head?_cons]
      split_ifs with hdone heof hpart hstream
      · exact hs.ran
      · exact hs.ran
      · have hcall : Call v c c.chRead := .read (Or.inr (hhead (by rw [heof]; decide)))
        obtain ⟨thead₁, hs₁⟩ := hs.onConn (f := Connection.chRead) hcall
        obtain ⟨thead₂, hs₂⟩ := hs₁.onConn (f := Connection.sendsts)
          (.sendsts (hs.rread_chRead_eof hrhead heof))
        obtain ⟨thead₃, hs₃⟩ := hs₂.onConn_silent (f := fun c => ({ c with eofseen := true }, []))
          .eofSeen silent_nil
        exact Ran.trans ⟨_, hs₃⟩
      · have hop : streamop p.op = true := by
          simpa [streamop, or_assoc] using hstream
        obtain ⟨thead, hs₁⟩ := hs.onConn (f := Connection.sreadTurn (nchars - done))
          (.sreadTurn _ (hhead hop))
        exact Ran.trans (ih hs₁ _)
      · have hop : streamop p.op = false := by
          simpa [streamop, and_assoc] using hstream
        obtain ⟨thead, hs₁⟩ := hs.onConn (f := Connection.chRead) (.read (Or.inr (hhead hop)))
        exact Ran.trans (ih hs₁ _)

end Usim.Ncp
