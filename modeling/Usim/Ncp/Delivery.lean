import Usim.Ncp.HostLaws

/-!
# Delivery between two hosts

The invariant of two hosts with one connection between them, with numbers that never wrap.
Each step at one host keeps what holds of both, since the numbers of a host never go back and
what it has written is only added to.
-/

namespace Usim.Ncp

open Lib

/-! ### One station -/

variable {e : Ends}

/-- The last number among those of the packets. -/
def lastNumber (ps : List (Packet ℤ)) : ℤ := (numbers ps).foldr max 0

theorem le_lastNumber {ps : List (Packet ℤ)} {n : ℤ} (hn : n ∈ numbers ps) : n ≤ lastNumber ps := by
  rw [lastNumber]
  generalize numbers ps = ns at hn
  induction ns with
  | nil => cases hn
  | cons m ns ih =>
    rw [List.foldr_cons]
    rcases List.mem_cons.mp hn with rfl | hn
    · exact le_max_left _ _
    · exact (ih hn).trans (le_max_right _ _)

theorem lastNumber_le {ps : List (Packet ℤ)} {k : ℤ} (hk : 0 ≤ k) (hps : ∀ n ∈ numbers ps, n ≤ k) :
    lastNumber ps ≤ k := by
  rw [lastNumber]
  generalize numbers ps = ns at hps
  induction ns with
  | nil => exact hk
  | cons m ns ih =>
    exact max_le (hps m List.mem_cons_self) (ih fun n hn => hps n (List.mem_cons_of_mem m hn))

theorem lastNumber_nonneg (ps : List (Packet ℤ)) : 0 ≤ lastNumber ps := by
  rw [lastNumber]
  induction numbers ps with
  | nil => exact le_rfl
  | cons m ns ih => exact ih.trans (le_max_right _ _)

theorem lastNumber_mono (ps qs : List (Packet ℤ)) : lastNumber ps ≤ lastNumber (ps ++ qs) :=
  lastNumber_le (lastNumber_nonneg _) fun _ hn =>
    le_lastNumber (numbers_append ps qs ▸ List.mem_append_left _ hn)

/-- The messages that may have arrived: those up to the last number transmitted. -/
def Station.sent (s : Station ℤ) : List Message := s.log.written.take (lastNumber s.wire).toNat

/-- A transmitted packet carries one of the messages that may have arrived. -/
theorem Own.take {rread rlast : ℤ} {written : List Message} {p : Packet ℤ} {k : ℤ}
    (h : Own e rread rlast written p) (hk : contpkt p.op = true → p.pkn ≤ k) :
    Own e rread rlast (written.take k.toNat) p :=
  { h with
    number := fun hcont => by
      obtain ⟨hpos, hmessage⟩ := h.number hcont
      have hle := hk hcont
      exact ⟨hpos, by rw [List.getElem?_take_of_lt (by omega), hmessage]⟩ }

/-- What holds of a station with its connection, when the other end has sent these messages and
has read and received up to these numbers. -/
structure StationSound (e : Ends) (sent : List Message) (peerRead peerLast : ℤ)
    (s : Station ℤ) (c : Connection ℤ) : Prop where
  holds : Holds e s.host c
  sound : Sound e sent peerRead peerLast c s.host.queue s.log.written s.log.taken
  wire : ∀ p ∈ s.wire, Own e c.rread c.rlast s.log.written p
  line : Line e s.log.written s.wire s.host

variable {sent : List Message} {peerRead peerLast peerRead' peerLast' : ℤ}
  {s s' : Station ℤ} {c c' : Connection ℤ} {incoming : List (Packet ℤ)} {v : View}

/-- The other end goes on. -/
theorem StationSound.mono (h : StationSound e sent peerRead peerLast s c)
    (hread : peerRead ≤ peerRead') (hlast : peerLast ≤ peerLast') (more : List Message) :
    StationSound e (sent ++ more) peerRead' peerLast' s c where
  holds := h.holds
  sound :=
    { h.sound with
      receive := h.sound.receive.mono more
      tacked_le := h.sound.tacked_le.trans hread
      trecvd_le := h.sound.trecvd_le.trans hlast }
  wire := h.wire
  line := h.line

/-- The connection of a station, with its queue and its log. -/
def Station.endState (s : Station ℤ) (c : Connection ℤ) : EndState := ⟨c, s.host.queue, s.log⟩

/-- A station goes on: its numbers do not go back, messages are only added to those that may
have arrived, what it transmits was queued, and a path leads on. -/
structure Advances (v : View) (s s' : Station ℤ) (c c' : Connection ℤ) : Prop where
  rread_le : c.rread ≤ c'.rread
  rlast_le : c.rlast ≤ c'.rlast
  sent : ∃ more, s'.sent = s.sent ++ more
  wire : ∃ ps, s'.wire = s.wire ++ ps ∧ ∀ p ∈ ps, p ∈ s.host.queue
  path : Path v (s.endState c) (s'.endState c')

/-- Nothing has happened. -/
theorem Advances.refl (v : View) (s : Station ℤ) (c : Connection ℤ) : Advances v s s c c where
  rread_le := le_rfl
  rlast_le := le_rfl
  sent := ⟨[], (List.append_nil _).symm⟩
  wire := ⟨[], (List.append_nil _).symm, fun _ hp => absurd hp List.not_mem_nil⟩
  path := .refl

/-- The last number transmitted is one of those given. -/
theorem StationSound.last_le (h : StationSound e sent peerRead peerLast s c) :
    lastNumber s.wire ≤ s.log.written.length :=
  lastNumber_le (Int.natCast_nonneg _) h.line.number_le

/-- Only more messages may have arrived. -/
theorem StationSound.sent_append (h : StationSound e sent peerRead peerLast s c)
    (hwritten : ∃ more, s'.log.written = s.log.written ++ more)
    (hwire : ∃ ps, s'.wire = s.wire ++ ps) : ∃ more, s'.sent = s.sent ++ more := by
  obtain ⟨more, hmore⟩ := hwritten
  obtain ⟨ps, hps⟩ := hwire
  have hle := h.last_le
  have hmono : (lastNumber s.wire).toNat ≤ (lastNumber s'.wire).toNat := by
    have := lastNumber_mono s.wire ps
    rw [hps]
    omega
  obtain ⟨k, hk⟩ := Nat.exists_eq_add_of_le hmono
  refine ⟨(s'.log.written.drop (lastNumber s.wire).toNat).take k, ?_⟩
  rw [Station.sent, Station.sent, hk, List.take_add, hmore,
    List.take_append_of_le_length (by omega)]

/-- What holds of the host of a station. -/
theorem StationSound.hostSound (h : StationSound v.ends v.sent v.peerRead v.peerLast s c)
    (hpeer : v.Peer s.log) : HostSound v (s.endState c) s.wire s.host [] s.log c :=
  ⟨h.holds, h.sound, hpeer, le_rfl, le_rfl, h.line, .refl⟩

/-- A station after a call. -/
theorem StationSound.note (h : StationSound v.ends v.sent v.peerRead v.peerLast s c)
    {r : Host ℤ × List (Effect ℤ)} (hr : Ran v (s.endState c) s.wire s.log r) :
    ∃ c', StationSound v.ends v.sent v.peerRead v.peerLast (s.note r) c' ∧
      Advances v s (s.note r) c c' := by
  obtain ⟨c', hc'⟩ := hr
  exact ⟨c', ⟨hc'.holds, hc'.sound,
      fun p hp => (h.wire p hp).mono hc'.rread_le hc'.rlast_le (writtenOf r.2), hc'.line⟩,
    hc'.rread_le, hc'.rlast_le, h.sent_append ⟨_, rfl⟩ ⟨[], (List.append_nil _).symm⟩,
    ⟨[], (List.append_nil _).symm, fun p hp => absurd hp List.not_mem_nil⟩, hc'.path⟩

/-- A station whose host has changed. -/
theorem StationSound.host (h : StationSound v.ends v.sent v.peerRead v.peerLast s c)
    {host : Host ℤ} (hs : ∃ c', HostSound v (s.endState c) s.wire host [] s.log c') :
    ∃ c', StationSound v.ends v.sent v.peerRead v.peerLast { s with host := host } c' ∧
      Advances v s { s with host := host } c c' := by
  obtain ⟨c', hc'⟩ := hs
  refine ⟨c', ⟨hc'.holds, hc'.sound, fun p hp => ?_, hc'.line⟩, hc'.rread_le, hc'.rlast_le,
    ⟨[], (List.append_nil _).symm⟩,
    ⟨[], (List.append_nil _).symm, fun p hp => absurd hp List.not_mem_nil⟩, hc'.path⟩
  have hown := (h.wire p hp).mono hc'.rread_le hc'.rlast_le []
  rwa [List.append_nil] at hown

/-- The interface is done with a packet, which is to be handed to `xmitdone`. -/
theorem StationSound.transmitted (h : StationSound v.ends v.sent v.peerRead v.peerLast s c)
    (hpeer : v.Peer s.log) {p : Packet ℤ} (hp : s.host.xcTpkt = some p) :
    HostSound v (s.endState c) s.wire { s.host with xcTpkt := none } [p] s.log c := by
  have hqueue : s.host.queue = [p] ++ ({ s.host with xcTpkt := none } : Host ℤ).queue := by
    rw [Host.queue, hp]
    rfl
  refine ⟨h.holds.congr rfl rfl rfl rfl, hqueue ▸ h.sound, hpeer, le_rfl, le_rfl,
    ⟨h.line.orderly, h.line.number_le, fun q hq => by cases hq⟩, ?_⟩
  rw [← hqueue]
  exact .refl

/-- The interface begins to transmit a packet. -/
theorem StationSound.xmitnext (h : StationSound v.ends v.sent v.peerRead v.peerLast s c)
    (hidle : s.host.xcTpkt = none) :
    StationSound v.ends v.sent v.peerRead v.peerLast
        { s with host := s.host.xmitnext, wire := s.wire ++ s.host.xmitnext.xcTpkt.toList } c ∧
      Advances v s
        { s with host := s.host.xmitnext, wire := s.wire ++ s.host.xmitnext.xcTpkt.toList }
        c c := by
  have hqueue : s.host.xmitnext.queue = s.host.queue := by
    rw [Host.queue, Host.queue, hidle, Host.xmitnext]
    cases s.host.xcList <;> rfl
  have hnext : ∀ p ∈ s.host.xmitnext.xcTpkt.toList, p ∈ s.host.queue :=
    fun p hp => hqueue ▸ List.mem_append_left _ hp
  have hown : ∀ p ∈ s.host.xmitnext.xcTpkt.toList, Own v.ends c.rread c.rlast s.log.written p :=
    fun p hp => h.sound.transmit.own p (List.mem_append_left _ (hnext p hp))
  refine ⟨⟨h.holds.congr rfl rfl rfl rfl, ?_, ?_, ⟨?_, ?_, ?_⟩⟩, le_rfl, le_rfl,
    h.sent_append ⟨[], (List.append_nil _).symm⟩ ⟨_, rfl⟩, ⟨_, rfl, hnext⟩, ?_⟩
  · exact hqueue.symm ▸ h.sound
  · intro p hp
    exact (List.mem_append.mp hp).elim (h.wire p) (hown p)
  · have horderly := h.line.orderly
    rw [List.append_assoc]
    cases hlist : s.host.xcList with
    | nil =>
      rw [hlist] at horderly
      simpa [Host.xmitnext, hlist] using horderly
    | cons p ps =>
      rw [hlist] at horderly
      simpa [Host.xmitnext, hlist] using horderly
  · intro n hn
    rw [numbers_append] at hn
    rcases List.mem_append.mp hn with hn | hn
    · exact h.line.number_le n hn
    · obtain ⟨p, hp, hcont, rfl⟩ := mem_numbers.mp hn
      exact (hown p hp).pkn_le hcont
  · intro p hp
    exact ⟨s.wire, by rw [Option.mem_def.mp hp, Option.toList_some]⟩
  · rw [Station.endState, Station.endState, hqueue]
    exact .refl

/-- The user reads or writes packets, as in record mode. The end of a file is written in any
mode. -/
def Action.record : Action → Bool
  | .write op _ => decide (op ≠ eofop)
  | .read => true
  | _ => false

/-- The user may write. -/
theorem StationSound.write_call (h : StationSound v.ends v.sent v.peerRead v.peerLast s c)
    {op : Byte} {data : List Byte} (hrecord : v.record = (Action.write op data).record)
    (hcan : s.canWrite op data = true) :
    Call v c ((c.chWrite { Packet.cleared with
      op := op, cdata := data, len := data.length }).getD (c, [])) := by
  simp only [Station.canWrite, h.holds.conn, Option.elim_some, Bool.and_eq_true,
    Bool.not_eq_true'] at hcan
  obtain ⟨⟨hdata, -⟩, hfull⟩ := hcan
  refine .write _ ?_ hdata rfl hfull
  rw [hrecord, Action.record, decide_eq_true_eq]
  exact (em (op = eofop)).symm

/-- Each action keeps what holds of the station. -/
theorem StationSound.act (h : StationSound v.ends v.sent v.peerRead v.peerLast s c)
    (hpeer : v.Peer s.log) (a : Action) (hrecord : v.record = a.record)
    (harrives : ∀ n p, a = .deliver n → incoming[n]? = some p → v.arrives p) :
    ∃ c', StationSound v.ends v.sent v.peerRead v.peerLast (s.act incoming a) c' ∧
      Advances v s (s.act incoming a) c c' := by
  have hs := h.hostSound hpeer
  have hsame : ∃ c', StationSound v.ends v.sent v.peerRead v.peerLast s c' ∧
      Advances v s s c c' := ⟨c, h, .refl v s c⟩
  cases a with
  | write op data =>
    simp only [Station.act]
    split
    · exact h.note (hs.ran_onConn
        (f := fun c => (c.chWrite { Packet.cleared with
          op := op, cdata := data, len := data.length }).getD (c, []))
        (h.write_call hrecord (by assumption)))
    · exact hsame
  | read =>
    exact h.note (hs.ran_onConn (f := Connection.chRead) (.read (Or.inl hrecord)))
  | swrite bs => exact h.note (hs.swriteLoop (bs.length + 1) bs)
  | sflush => exact h.note (hs.ran_onConn (f := Connection.chSflush) .sflush)
  | sread nchars =>
    have hrun := hs.sreadLoop nchars
      (((s.host.conntab 0).elim 0 fun c => c.rhead.length) + 1) 0
    exact h.note hrun
  | accept => exact h.note (hs.ran_onConn (f := Connection.chAccept) .accept)
  | close data => exact h.note (hs.chClose rfl)
  | start =>
    simp only [Station.act]
    split
    · exact ⟨c, h.xmitnext (Option.isNone_iff_eq_none.mp (by assumption))⟩
    · exact hsame
  | done =>
    simp only [Station.act]
    cases htpkt : s.host.xcTpkt with
    | none => exact hsame
    | some p =>
      obtain ⟨thead, hs'⟩ := (h.transmitted hpeer htpkt).xmitdone
      exact h.host ⟨_, hs'⟩
  | deliver n =>
    simp only [Station.act]
    cases hp : incoming[n]? with
    | none => exact hsame
    | some p => exact h.host (hs.rcvpkt (harrives n p rfl hp))
  | tick => exact h.note hs.chClock
  | reroute routetab =>
    exact h.host ⟨c, hs.congr rfl rfl rfl (fun l hl => hl) rfl rfl⟩

/-! ### The two ends -/

namespace Setup

variable (u : Setup)

/-- The unique number that a host gives to its first connection. -/
def uniq (i : Side) : Word := if (u.site i).uniq + 1 = 0 then 1 else (u.site i).uniq + 1

/-- The index of the connection at one end. -/
def index (i : Side) : HalfWord := (u.uniq i).setWidth 8 ++ BitVec.ofNat 8 0

/-- The receive window of one end. A listener without one has the default. -/
def window : Side → HalfWord
  | .opener => (u.site .opener).rwsize
  | .acceptor =>
    if (u.site .acceptor).rwsize = 0 then chdrwsize else (u.site .acceptor).rwsize

/-- The opcode of the first packet of one end. -/
def first : Side → Byte
  | .opener => rfcop
  | .acceptor => opnop

theorem index_slot (i : Side) : (u.index i).toNat % 256 = 0 := by
  rw [index, BitVec.toNat_append]
  simp [Nat.shiftLeft_eq]

theorem myaddr_ne (i : Side) : (u.site i.other).myaddr ≠ (u.site i).myaddr := by
  cases i with
  | opener => exact u.addr_ne.symm
  | acceptor => exact u.addr_ne

/-- The fixed data of one end. -/
def ends (i : Side) : Ends where
  me := (u.site i).myaddr
  peer := (u.site i.other).myaddr
  lidx := u.index i
  fidx := u.index i.other
  window := u.window i
  peerWindow := u.window i.other
  first := first i
  first_eq := by cases i <;> simp [first]
  peer_ne := u.myaddr_ne i
  peer_ne_zero := u.addr_ne_zero _
  me_ne_zero := u.addr_ne_zero i
  lidx_slot := u.index_slot i
  fidx_slot := u.index_slot _

theorem ends_other (i : Side) : u.ends i.other = (u.ends i).flip := by
  cases i <;> simp [ends, Ends.flip, first, Side.other, rfcop, opnop]

end Setup

/-- What holds of the two hosts, with their connections. -/
def NetSound (u : Setup) (net : Net ℤ) (conn : Side → Connection ℤ) : Prop :=
  ∀ i, StationSound (u.ends i) (net.get i.other).sent (conn i.other).rread
    (conn i.other).rlast (net.get i) (conn i)

variable {u : Setup} {net : Net ℤ} {conn : Side → Connection ℤ}

/-- What is known of the other end. -/
theorem NetSound.peer (h : NetSound u net conn) (i : Side) :
    Peer (u.ends i) (net.get i.other).sent (net.get i).log.written (conn i.other).rread
      (conn i.other).rlast := by
  have hother := h i.other
  rw [Side.other_other] at hother
  have hlast := hother.sound.receive.rlast_le
  refine ⟨hother.sound.receive.rread_le, hlast.trans ?_, fun n m hm => ?_⟩
  · exact_mod_cast List.length_take_le' _ _
  · rw [← u.ends_other]
    refine hother.sound.transmit.ops n m ?_
    rw [Station.sent, List.getElem?_take] at hm
    exact (Option.ite_none_right_eq_some.mp hm).2

/-- What the other end has transmitted carries what may have arrived. -/
theorem NetSound.transmitted (h : NetSound u net conn) (i : Side) :
    ∀ p ∈ (net.get i.other).wire,
      Own (u.ends i).flip (conn i.other).rread (conn i.other).rlast (net.get i.other).sent p :=
  fun p hp => u.ends_other i ▸ ((h i.other).wire p hp).take fun hcont =>
    le_lastNumber (mem_numbers.mpr ⟨p, hp, hcont, rfl⟩)

/-- What is known at the end where something happens. -/
def NetSound.view (h : NetSound u net conn) (e : Event) : View where
  ends := u.ends e.side
  sent := (net.get e.side.other).sent
  peerRead := (conn e.side.other).rread
  peerLast := (conn e.side.other).rlast
  arrives p := ∃ n, e.action = .deliver n ∧ (net.get e.side.other).wire[n]? = some p
  own := fun p ⟨_, _, hp⟩ => h.transmitted e.side p (List.mem_of_getElem? hp)
  record := e.action.record

/-- One step keeps what holds of the two hosts, of which only the one goes on. -/
theorem NetSound.step (h : NetSound u net conn) (e : Event) :
    ∃ conn', NetSound u (net.step e) conn' ∧
      Advances (h.view e) (net.get e.side) ((net.step e).get e.side) (conn e.side)
        (conn' e.side) ∧
      (net.step e).get e.side.other = net.get e.side.other ∧
      conn' e.side.other = conn e.side.other := by
  obtain ⟨c', hs', hadv⟩ := StationSound.act (v := h.view e) (h e.side) (h.peer e.side) e.action
    rfl fun n p ha hp => ⟨n, ha, hp⟩
  obtain ⟨i, a⟩ := e
  obtain ⟨more, hmore⟩ := hadv.sent
  refine ⟨Function.update conn i c', fun j => ?_, ?_, Net.get_other_set _ _ _,
    Function.update_of_ne i.other_ne _ _⟩
  · rcases j.eq_or_other i with rfl | rfl
    · rw [Net.step, Net.get_set, Net.get_other_set, Function.update_self,
        Function.update_of_ne j.other_ne]
      exact hs'
    · have hother := (h i.other).mono (Side.other_other i ▸ hadv.rread_le)
        (Side.other_other i ▸ hadv.rlast_le) more
      rw [Side.other_other] at hother ⊢
      rw [Net.step, Net.get_set, Net.get_other_set, Function.update_self,
        Function.update_of_ne i.other_ne, hmore]
      exact hother
  · rw [Net.step, Net.get_set, Function.update_self]
    exact hadv

/-- A run keeps what holds of the two hosts. -/
theorem NetSound.run (h : NetSound u net conn) (es : List Event) :
    ∃ conn', NetSound u (net.run es) conn' := by
  induction es generalizing net conn with
  | nil => exact ⟨conn, h⟩
  | cons e es ih =>
    obtain ⟨conn', h', -⟩ := h.step e
    exact ih h'

/-- What each step of an end keeps is kept by a run. -/
theorem NetSound.run_keeps (h : NetSound u net conn) (es : List Event) {i : Side}
    {P : EndState → Prop} (hP : P ((net.get i).endState (conn i)))
    (hstep : ∀ (v : View) (s s' : EndState), v.ends = u.ends i → v.Sound s → v.Peer s.log →
      Step v s s' → P s → P s') :
    ∃ conn', NetSound u (net.run es) conn' ∧ P (((net.run es).get i).endState (conn' i)) := by
  induction es generalizing net conn with
  | nil => exact ⟨conn, h, hP⟩
  | cons e es ih =>
    obtain ⟨conn', h', hadv, hget, hconn⟩ := h.step e
    refine ih h' ?_
    rcases i.eq_or_other e.side with rfl | rfl
    · exact hadv.path.keeps (fun s s' => hstep (h.view e) s s' rfl) hP
    · rw [hget, hconn]
      exact hP

/-! ### The start -/

/-- The first place of the empty table is free. -/
theorem Site.allconn_boot {S : Type} [SerialNumber S] (t : Site) :
    (t.boot : Host S).allconn =
      some (0, Connection.cleared ((if t.uniq + 1 = 0 then 1 else t.uniq + 1).setWidth 8 ++
        BitVec.ofNat 8 0), { t.boot with uniq := if t.uniq + 1 = 0 then 1 else t.uniq + 1 }) := by
  have hfree : (t.boot : Host S).freeConn = some 0 := by
    rw [Host.freeConn, show List.range chnconns = 0 :: (List.range 19).map (· + 1) by decide]
    rfl
  rw [Host.allconn, hfree]
  rfl

/-- A connection that has neither sent nor received anything. -/
theorem Transmit.begin (e : Ends) {c : Connection ℤ} (htlast : c.tlast = 0) (htrecvd : c.trecvd = 0)
    (htacked : c.tacked = 0) (htwsize : c.twsize = 0) (hthead : c.thead = []) :
    Transmit e c [] [] := by
  refine ⟨htlast, htacked.ge, by omega, by omega, ?_, by omega, ?_, ?_, ?_, ?_, ?_, ?_⟩
  · rw [htwsize]
    exact Nat.zero_le _
  · exact fun i m hm => by cases hm
  · rw [hthead]
    exact fun p hp => by cases hp
  · rw [hthead]
    exact List.nodup_nil
  · rw [hthead]
    exact List.Pairwise.nil
  · rw [hthead]
    exact fun p hp => by cases hp
  · intro _ n hn hle
    omega

/-- A connection that has received nothing. -/
theorem Receive.begin (e : Ends) (sent : List Message) {c : Connection ℤ} (hrlast : c.rlast = 0)
    (hracked : c.racked = 0) (hrread : c.rread = 0) (hrhead : c.rhead = [])
    (hroutorder : c.routorder = []) (hstate : c.state = .listen ∨ c.state = .rfcsent) :
    Receive e c sent [] := by
  refine ⟨hracked.ge, by omega, by omega, by omega, ?_, ?_, ?_, Or.inr ⟨?_, fun _ => hrhead⟩, ?_,
    ?_, ?_, ?_, fun _ => ⟨hrlast, hrhead, hroutorder⟩⟩
  · rw [hrhead, hroutorder]
    exact fun p hp => by cases hp
  · rw [hrhead]
    trivial
  · rw [hrhead, hrread, hrlast]
    rfl
  · rw [hrhead]
    exact fun p hp => by cases hp
  · rw [hroutorder]
    exact List.Pairwise.nil
  · rw [hroutorder]
    exact fun p hp => by cases hp
  · rw [hrread]
    rfl
  · intro heq
    rcases hstate with hstate | hstate <;> rw [hstate] at heq <;> rcases heq with heq | heq <;>
      cases heq

namespace Setup

variable (u : Setup)

section Start

variable (S : Type) [SerialNumber S]

/-- The connection that `ch_listen` sets up. -/
def listener : Connection S :=
  { Connection.cleared (u.index .acceptor) with
    state := .listen, rwsize := (u.site .acceptor).rwsize }

/-- The host that has called `ch_listen`. -/
def listeningHost : Host S :=
  Host.setConn { (u.site .acceptor).boot with
    uniq := u.uniq .acceptor
    lsnlist := [(u.listener S).setpkt { Packet.cleared with
      op := lsnop, cdata := u.contact, len := u.contact.length }] } 0 (u.listener S)

theorem start_acceptor [DecidableEq S] : (u.start.acceptor : Station S) =
    Station.idle (u.listeningHost S) := by
  simp only [start, Host.chListen, Site.allconn_boot]
  rfl

/-- The connection that `ch_open` sets up. -/
def caller : Connection S :=
  { Connection.cleared (u.index .opener) with
    laddr := (u.site .opener).myaddr, faddr := (u.site .acceptor).myaddr, state := .rfcsent
    rwsize := (u.site .opener).rwsize, rsts := (u.site .opener).rwsize >>> 1
    active := (u.site .opener).clock }

/-- The RFC that `ch_open` sends. -/
def request : Packet S :=
  { Packet.cleared with op := rfcop, cdata := u.rfc, len := u.rfc.length }

/-- The host that is about to send the RFC. -/
def callingHost : Host S :=
  Host.setConn { (u.site .opener).boot with uniq := u.uniq .opener } 0 (u.caller S)

theorem start_opener [DecidableEq S] : (u.start.opener : Station S) =
    (Station.idle (u.site .opener).boot).note
      ((u.callingHost S).onConn 0 fun c => c.number (u.request S)) := by
  simp only [start, Host.chOpen, Site.allconn_boot]
  rfl

end Start

/-- The listener has sent and received nothing. -/
theorem listening (sent : List Message) {peerRead peerLast : ℤ} (hread : 0 ≤ peerRead)
    (hlast : 0 ≤ peerLast) :
    StationSound (u.ends .acceptor) sent peerRead peerLast (u.start.acceptor : Station ℤ)
      (u.listener ℤ) := by
  rw [u.start_acceptor ℤ]
  refine ⟨⟨rfl, rfl, rfl, fun l hl => ?_⟩, ?_, fun p hp => absurd hp List.not_mem_nil,
    List.Pairwise.nil, fun n hn => absurd hn List.not_mem_nil, fun p hp => by cases hp⟩
  · rw [List.mem_singleton.mp hl]
    exact u.index_slot .acceptor
  · exact
      { transmit := Transmit.begin _ rfl rfl rfl rfl rfl
        receive := Receive.begin _ sent rfl rfl rfl rfl rfl (Or.inl rfl)
        tacked_le := hread, trecvd_le := hlast, lidx := rfl
        addr := fun hne => absurd rfl hne
        fidx := fun _ hne => absurd rfl hne
        listening := fun _ => ⟨rfl, rfl⟩
        answer := rfl
        toutput := fun p hp => by cases hp
        phase := by
          rw [if_neg (by simp [ends, first, rfcop, opnop])]
          exact fun heq => by cases heq
        begun := fun ha => ha.elim (fun heq => by cases heq) (fun heq => by cases heq)
        unbegun := fun _ => rfl }

/-- What is known before anything is sent. -/
def outset : View where
  ends := u.ends .opener
  sent := []
  peerRead := 0
  peerLast := 0
  arrives _ := False
  own _ h := h.elim
  record := false

/-- The connection of `ch_open`, with the RFC on its way. -/
def calling : EndState where
  conn := ((u.caller ℤ).number (u.request ℤ)).1
  bag := sending ((u.caller ℤ).number (u.request ℤ)).2
  log := { written := [(u.request ℤ).message], taken := [], accepted := [], streamed := [] }

/-- The RFC is the first packet of the caller. -/
theorem calling_sound :
    HostSound u.outset u.calling [] ((u.callingHost ℤ).setConn 0 u.calling.conn) u.calling.bag
      u.calling.log u.calling.conn := by
  have htransmit := (Transmit.begin (u.ends .opener) (c := u.caller ℤ) rfl rfl rfl rfl rfl).number
    (p := u.request ℤ) (by rw [if_pos rfl]; rfl) (by simp [caller, Connection.cleared]) le_rfl
    (fun heq => by cases heq) (fun _ => rfl) rfl rfl rfl
  have hqueue : ((u.callingHost ℤ).setConn 0 u.calling.conn : Host ℤ).queue = [] := rfl
  have hsound : u.outset.Sound u.calling :=
    { transmit := htransmit
      receive := Receive.begin _ [] rfl rfl rfl rfl rfl (Or.inr rfl)
      tacked_le := le_rfl, trecvd_le := le_rfl, lidx := rfl
      addr := fun _ => ⟨rfl, rfl, rfl⟩
      fidx := fun hfirst => by simp [outset, ends, first, rfcop, opnop] at hfirst
      listening := fun heq => by cases heq
      answer := rfl
      toutput := fun p hp => by cases hp
      phase := by
        rw [if_pos (show u.outset.ends.first = rfcop from rfl)]
        exact ⟨fun heq => (by cases heq), fun heq => by cases heq⟩
      begun := fun _ => List.cons_ne_nil _ _
      unbegun := fun heq => by rcases heq with heq | heq <;> cases heq }
  refine ⟨⟨Function.update_idem _ _ _, rfl, rfl, fun l hl => absurd hl List.not_mem_nil⟩, ?_,
    ⟨le_rfl, Int.natCast_nonneg _, fun i m hm => by cases hm⟩, le_rfl, le_rfl,
    ⟨List.Pairwise.nil, fun n hn => absurd hn List.not_mem_nil, fun p hp => by cases hp⟩, ?_⟩
  · rw [hqueue, List.append_nil]
    exact hsound
  · rw [hqueue, List.append_nil]
    exact .refl

/-- `senddata` is the last that `ch_open` does. -/
theorem calling_controls :
    Controls u.calling.conn.trecvd ((u.caller ℤ).number (u.request ℤ)).2 :=
  controls_write (Int.lt_add_one_iff.mpr le_rfl)

/-- The caller of `ch_open` has sent an RFC. -/
theorem called :
    ∃ c, StationSound (u.ends .opener) [] 0 0 (u.start.opener : Station ℤ) c ∧
      0 ≤ c.rread ∧ 0 ≤ c.rlast ∧
      Path u.outset u.calling ((u.start.opener : Station ℤ).endState c) := by
  obtain ⟨thead, hs⟩ := HostSound.perform u.calling_sound u.calling_controls
  rw [u.start_opener ℤ]
  exact ⟨_, ⟨hs.holds, hs.sound, fun p hp => absurd hp List.not_mem_nil, hs.line⟩, hs.rread_le,
    hs.rlast_le, hs.path⟩

/-- The connections at the start. -/
def connections (c : Connection ℤ) : Side → Connection ℤ
  | .opener => c
  | .acceptor => u.listener ℤ

/-- What holds of the two hosts at the start. -/
theorem sound : ∃ c, NetSound u (u.start : Net ℤ) (u.connections c) ∧
    Path u.outset u.calling ((u.start.opener : Station ℤ).endState c) := by
  obtain ⟨c, hc, hread, hlast, hpath⟩ := u.called
  refine ⟨c, fun i => ?_, hpath⟩
  cases i with
  | opener => exact hc
  | acceptor => exact u.listening _ hread hlast

end Setup

end Usim.Ncp
