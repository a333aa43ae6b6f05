import Usim.Ncp.WordHosts

/-!
# Runs with 16-bit numbers

Two hosts whose numbers are kept in words go through the same run as two with numbers that
never wrap, as long as no packet is delivered that is older than half the range of a word.
-/

namespace Usim.Ncp

open Lib

/-- A station whose numbers are kept in words. -/
def Station.toWords (s : Station ℤ) : Station HalfWord :=
  { s with host := s.host.toWords, wire := s.wire.map Packet.toWords }

/-- Two hosts whose numbers are kept in words. -/
def Net.toWords (net : Net ℤ) : Net HalfWord where
  opener := net.opener.toWords
  acceptor := net.acceptor.toWords

/-- If a packet is delivered, then it is not older than half the range of a word. -/
def Net.timely (net : Net ℤ) (e : Event) : Bool :=
  match e.action with
  | .deliver n =>
    ((net.get e.side.other).wire[n]?).all fun p =>
      ((net.get e.side).host.conntab 0).all fun c => c.timely p
  | _ => true

/-- No packet is delivered in a run that is older than half the range of a word. -/
def Net.timelyRun : Net ℤ → List Event → Bool
  | _, [] => true
  | net, e :: es => net.timely e && (net.step e).timelyRun es

theorem Net.get_toWords (net : Net ℤ) (i : Side) : net.toWords.get i = (net.get i).toWords := by
  cases i <;> rfl

theorem Net.set_toWords (net : Net ℤ) (s : Station ℤ) (i : Side) :
    net.toWords.set s.toWords i = (net.set s i).toWords := by
  cases i <;> rfl

/-! ### What a call does for the user -/

theorem writtenOf_toWords (es : List (Effect ℤ)) :
    writtenOf (es.map Effect.toWords) = writtenOf es := by
  rw [writtenOf, writtenOf, List.filterMap_map]
  congr 1
  funext x
  cases x <;> rfl

theorem takenOf_toWords (es : List (Effect ℤ)) : takenOf (es.map Effect.toWords) = takenOf es := by
  rw [takenOf, takenOf, List.filterMap_map]
  congr 1
  funext x
  cases x <;> rfl

theorem acceptedOf_toWords (es : List (Effect ℤ)) :
    acceptedOf (es.map Effect.toWords) = acceptedOf es := by
  rw [acceptedOf, acceptedOf, List.flatMap_map]
  congr 1
  funext x
  cases x <;> rfl

theorem streamedOf_toWords (es : List (Effect ℤ)) :
    streamedOf (es.map Effect.toWords) = streamedOf es := by
  rw [streamedOf, streamedOf, List.flatMap_map]
  congr 1
  funext x
  cases x <;> rfl

theorem Station.note_toWords (s : Station ℤ) (r : Host ℤ × List (Effect ℤ)) :
    s.toWords.note (callToWords r) = (s.note r).toWords := by
  have hlog : s.log.note (r.2.map Effect.toWords) = s.log.note r.2 := by
    simp only [Log.note, writtenOf_toWords, takenOf_toWords, acceptedOf_toWords,
      streamedOf_toWords]
  rw [Station.note, Station.note, callToWords, show s.toWords.log = s.log from rfl, hlog]
  rfl

/-! ### One station -/

variable {e : Ends} {sent : List Message} {peerRead peerLast : ℤ} {s : Station ℤ}
  {c : Connection ℤ} {incoming : List (Packet ℤ)} {v : View}

/-- A packet on its way to the interface is not older than half the range of a word: those
that went before it are beyond it by less than a window. -/
theorem StationSound.trecvd_lt (h : StationSound e sent peerRead peerLast s c) (hw : e.Narrow)
    (hlast : peerLast ≤ lastNumber s.wire) {p : Packet ℤ} (hp : p ∈ s.host.queue)
    (hcont : contpkt p.op = true) : c.trecvd < p.pkn + 2 ^ 15 := by
  have hwindow := hw.peerWindow
  have hpos : 1 ≤ p.pkn :=
    ((h.sound.transmit.own p (List.mem_append_left _ hp)).number hcont).1
  have horderly := h.line.orderly
  have hbefore : ∀ n ∈ numbers s.wire, n < p.pkn + max 1 e.peerWindow.toNat := by
    intro n hn
    rcases List.mem_append.mp hp with hp | hp
    · obtain ⟨ps, hps⟩ := h.line.last p (Option.mem_toList.mp hp)
      have hnumbers : numbers s.wire = numbers ps ++ [p.pkn] := by
        rw [hps, numbers_append, numbers_cons_of_cont hcont]
        rfl
      rw [Orderly, numbers_append, hnumbers] at horderly
      rw [hnumbers] at hn
      rcases List.mem_append.mp hn with hn | hn
      · exact (List.pairwise_append.mp (List.pairwise_append.mp horderly).1).2.2 n hn p.pkn
          List.mem_cons_self
      · rw [List.mem_singleton.mp hn]
        omega
    · rw [Orderly, numbers_append] at horderly
      exact (List.pairwise_append.mp horderly).2.2 n hn p.pkn
        (mem_numbers.mpr ⟨p, hp, hcont, rfl⟩)
  have htop : lastNumber s.wire ≤ p.pkn + 2 ^ 15 - 1 := by
    refine lastNumber_le (by omega) fun n hn => ?_
    have := hbefore n hn
    omega
  have := h.sound.trecvd_le
  omega

/-- Each action does the same at a station whose numbers are kept in words. -/
theorem StationSound.act_toWords (h : StationSound v.ends v.sent v.peerRead v.peerLast s c)
    (hw : v.ends.Narrow) (hpeer : v.Peer s.log)
    (hsent : (v.sent.length : ℤ) ≤ c.rread + max 1 v.ends.window.toNat)
    (hlast : v.peerLast ≤ lastNumber s.wire) (a : Action) (hrecord : v.record = a.record)
    (harrives : ∀ n p, a = .deliver n → incoming[n]? = some p → v.arrives p)
    (htime : ∀ n p, a = .deliver n → incoming[n]? = some p → c.timely p = true) :
    s.toWords.act (incoming.map Packet.toWords) a = (s.act incoming a).toWords := by
  have hs := h.hostSound hpeer
  cases a with
  | write op data =>
    have hcan : s.toWords.canWrite op data = s.canWrite op data := by
      rw [Station.canWrite, Station.canWrite,
        show s.toWords.host.conntab 0 = some c.toWords from h.holds.conn_toWords, h.holds.conn,
        Option.elim_some, Option.elim_some, (h.sound.transmit.compact hw).chtfull_toWords]
    simp only [Station.act, hcan]
    split
    · have hwrite : s.canWrite op data = true := by assumption
      have hcall := h.write_call hrecord hwrite
      have hp : Packet.toWords { Packet.cleared with
          op := op, cdata := data, len := data.length } =
          { Packet.cleared with op := op, cdata := data, len := data.length } := by
        rw [← Packet.toWords_cleared]
        rfl
      have hwords := c.chWrite_getD_toWords { Packet.cleared with
        op := op, cdata := data, len := data.length }
      rw [hp] at hwords
      rw [← Station.note_toWords]
      exact congrArg s.toWords.note (hs.onConn_toWords
        (f := fun c => (c.chWrite { Packet.cleared with
          op := op, cdata := data, len := data.length }).getD (c, []))
        (g := fun c => (c.chWrite { Packet.cleared with
          op := op, cdata := data, len := data.length }).getD (c, [])) hw hcall hwords)
    · rfl
  | read =>
    exact (congrArg s.toWords.note (hs.onConn_toWords (f := Connection.chRead)
      (g := Connection.chRead) hw (.read (Or.inl hrecord))
      (hs.sound.headNear hw).chRead_toWords)).trans (s.note_toWords _)
  | swrite bs =>
    have hrun := hs.swriteLoop_toWords (bs.length + 1) hw bs
    simp only [Station.act]
    rw [show s.toWords.host.chSwrite 0 bs = _ from hrun]
    exact s.note_toWords ((s.host.chSwrite 0 bs).1, (s.host.chSwrite 0 bs).2.1)
  | sflush =>
    exact (congrArg s.toWords.note (hs.onConn_toWords (f := Connection.chSflush)
      (g := Connection.chSflush) hw .sflush
      (h.sound.transmit.compact hw).chSflush_toWords)).trans (s.note_toWords _)
  | sread nchars =>
    have hfuel : ((s.toWords.host.conntab 0).elim 0 fun c => c.rhead.length) =
        (s.host.conntab 0).elim 0 fun c => c.rhead.length := by
      rw [show s.toWords.host.conntab 0 = some c.toWords from h.holds.conn_toWords, h.holds.conn]
      exact List.length_map _
    have hrun := hs.sreadLoop_toWords nchars
      (((s.host.conntab 0).elim 0 fun c => c.rhead.length) + 1) hw 0
    simp only [Station.act, Host.chSread]
    rw [hfuel, show s.toWords.host = s.host.toWords from rfl, hrun]
    exact s.note_toWords ((s.host.chSread 0 nchars).1, (s.host.chSread 0 nchars).2.1)
  | accept =>
    exact (congrArg s.toWords.note (hs.onConn_toWords (f := Connection.chAccept)
      (g := Connection.chAccept) hw .accept
      (hs.sound.headNear hw).chAccept_toWords)).trans (s.note_toWords _)
  | close data =>
    have hp : Packet.toWords { Packet.cleared with
        op := clsop, cdata := data, len := data.length } =
        { Packet.cleared with op := clsop, cdata := data, len := data.length } := by
      rw [← Packet.toWords_cleared]
      rfl
    have hclose := hs.chClose_toWords (p := { Packet.cleared with
      op := clsop, cdata := data, len := data.length }) hw rfl
    rw [hp] at hclose
    exact (congrArg s.toWords.note hclose).trans (s.note_toWords _)
  | start =>
    simp only [Station.act]
    rw [show s.toWords.host.xcTpkt.isNone = s.host.xcTpkt.isNone from Option.isNone_map,
      show s.toWords.host.xmitnext = s.host.xmitnext.toWords from s.host.xmitnext_toWords]
    split
    · have hwire : s.wire.map Packet.toWords ++ s.host.xmitnext.toWords.xcTpkt.toList =
          (s.wire ++ s.host.xmitnext.xcTpkt.toList).map Packet.toWords := by
        rw [List.map_append]
        cases s.host.xmitnext with | mk _ _ _ _ _ _ _ _ _ _ _ _ _ _ xcTpkt _ _ _ =>
        cases xcTpkt <;> rfl
      exact congrArg (fun wire => { s.toWords with
        host := s.host.xmitnext.toWords, wire := wire }) hwire
    · rfl
  | done =>
    simp only [Station.act]
    cases htpkt : s.host.xcTpkt with
    | none =>
      rw [show s.toWords.host.xcTpkt = none by
        rw [show s.toWords.host.xcTpkt = s.host.xcTpkt.map Packet.toWords from rfl, htpkt]
        rfl]
    | some p =>
      rw [show s.toWords.host.xcTpkt = some p.toWords by
        rw [show s.toWords.host.xcTpkt = s.host.xcTpkt.map Packet.toWords from rfl, htpkt]
        rfl]
      have hidle := h.transmitted hpeer htpkt
      exact congrArg (fun host => { s.toWords with host := host })
        (hidle.xmitdone_toWords hw (h.trecvd_lt hw hlast
          (List.mem_append_left _ (Option.mem_toList.mpr htpkt))))
  | deliver n =>
    simp only [Station.act, List.getElem?_map]
    cases hp : incoming[n]? with
    | none => rfl
    | some p =>
      exact congrArg (fun host => { s.toWords with host := host })
        (hs.rcvpkt_toWords hw (harrives n p rfl hp) hsent (htime n p rfl hp))
  | tick =>
    exact (congrArg s.toWords.note (hs.chClock_toWords hw)).trans (s.note_toWords _)
  | reroute routetab => rfl

/-! ### The two hosts -/

variable {u : Setup} {net : Net ℤ} {conn : Side → Connection ℤ}

/-- The windows of both users are less than half the range of a word. -/
def Setup.Narrow (u : Setup) : Prop := ∀ i, (u.window i).toNat < 2 ^ 15

theorem Setup.Narrow.ends (hu : u.Narrow) (i : Side) : (u.ends i).Narrow := ⟨hu i, hu i.other⟩

/-- The other end is ahead of what the user has read by a window at most. -/
theorem NetSound.sent_le (h : NetSound u net conn) (i : Side) :
    ((net.get i.other).log.written.length : ℤ) ≤ (conn i).rread + max 1 (u.window i).toNat := by
  have hother := h i.other
  have htlast := hother.sound.transmit.tlast
  have hwithin := hother.sound.transmit.within
  have hread := hother.sound.tacked_le
  rw [Side.other_other] at hread
  rw [show (u.ends i.other).peerWindow = u.window i.other.other from rfl,
    Side.other_other] at hwithin
  omega

/-- Nothing has been received beyond the last number transmitted. -/
theorem NetSound.rlast_le (h : NetSound u net conn) (i : Side) :
    (conn i).rlast ≤ lastNumber (net.get i.other).wire := by
  have hlast := (h i).sound.receive.rlast_le
  have hnonneg := lastNumber_nonneg (net.get i.other).wire
  have hlength := List.length_take_le (lastNumber (net.get i.other).wire).toNat
    (net.get i.other).log.written
  rw [Station.sent] at hlast
  omega

/-- A step does the same with numbers in words. -/
theorem NetSound.step_toWords (h : NetSound u net conn) (hu : u.Narrow) (e : Event)
    (htime : net.timely e = true) : net.toWords.step e = (net.step e).toWords := by
  have hsent : ((net.get e.side.other).sent.length : ℤ) ≤
      (conn e.side).rread + max 1 (u.ends e.side).window.toNat := by
    have hle := h.sent_le e.side
    have hlength := List.length_take_le' (lastNumber (net.get e.side.other).wire).toNat
      (net.get e.side.other).log.written
    rw [Station.sent]
    exact (Int.ofNat_le.mpr hlength).trans hle
  have hlast := h.rlast_le e.side.other
  rw [Side.other_other] at hlast
  have hact := StationSound.act_toWords (v := h.view e) (h e.side) (hu.ends e.side) (h.peer e.side)
    hsent hlast e.action rfl (fun n p ha hp => ⟨n, ha, hp⟩) fun n p ha hp => by
      simpa [Net.timely, ha, hp, (h e.side).holds.conn] using htime
  rw [Net.step, Net.step, net.get_toWords, net.get_toWords, ← net.set_toWords]
  exact congrArg (fun s => net.toWords.set s e.side) hact

/-- A run does the same with numbers in words. -/
theorem NetSound.toWords_run (h : NetSound u net conn) (hu : u.Narrow) (es : List Event)
    (htime : net.timelyRun es = true) : net.toWords.run es = (net.run es).toWords := by
  induction es generalizing net conn with
  | nil => rfl
  | cons e es ih =>
    obtain ⟨hfirst, hrest⟩ := Bool.and_eq_true_iff.mp htime
    obtain ⟨conn', h', -⟩ := h.step e
    rw [Net.run, List.foldl_cons, h.step_toWords hu e hfirst]
    exact ih h' hrest

namespace Setup

variable (u : Setup)

theorem listener_toWords : (u.listener ℤ).toWords = u.listener HalfWord := by
  rw [listener, listener, ← Connection.toWords_cleared]
  rfl

theorem caller_toWords : (u.caller ℤ).toWords = u.caller HalfWord := by
  rw [caller, caller, ← Connection.toWords_cleared]
  rfl

theorem request_toWords : (u.request ℤ).toWords = u.request HalfWord := by
  rw [request, request, ← Packet.toWords_cleared]
  rfl

theorem listeningHost_toWords : (u.listeningHost ℤ).toWords = u.listeningHost HalfWord := by
  rw [listeningHost, listeningHost, ← Host.setConn_toWords, u.listener_toWords,
    ← u.listener_toWords, ← Packet.toWords_cleared]
  rfl

theorem callingHost_conn (S : Type) [SerialNumber S] :
    (u.callingHost S).conntab 0 = some (u.caller S) := by
  simp only [callingHost, Host.setConn, Function.update_self]

theorem callingHost_toWords : (u.callingHost ℤ).toWords = u.callingHost HalfWord := by
  rw [callingHost, callingHost, ← Host.setConn_toWords, u.caller_toWords]
  rfl

/-- The two hosts begin alike. -/
theorem start_toWords (hu : u.Narrow) : (u.start : Net ℤ).toWords = u.start := by
  have hopener : (u.start.opener : Station ℤ).toWords = u.start.opener := by
    have hperform := HostSound.perform_toWords u.calling_sound (hu.ends .opener)
      u.calling_controls
    have hnumber := (u.caller ℤ).number_toWords (u.request ℤ)
    rw [u.caller_toWords, u.request_toWords] at hnumber
    have hconn : (u.callingHost HalfWord).onConn 0 (fun c => c.number (u.request HalfWord)) =
        callToWords ((u.callingHost ℤ).onConn 0 fun c => c.number (u.request ℤ)) := by
      rw [← Host.setConn_toWords, u.callingHost_toWords] at hperform
      simp only [Host.onConn, u.callingHost_conn, hnumber]
      exact Prod.ext hperform rfl
    rw [u.start_opener ℤ, u.start_opener HalfWord, hconn, ← Station.note_toWords]
    rfl
  have hacceptor : (u.start.acceptor : Station ℤ).toWords = u.start.acceptor := by
    rw [u.start_acceptor ℤ, u.start_acceptor HalfWord, ← u.listeningHost_toWords]
    rfl
  exact congrArg₂ Net.mk hopener hacceptor

/-- What two hosts with 16-bit numbers reach, in terms of numbers that never wrap. -/
theorem reached (hu : u.Narrow) (es : List Event)
    (htime : (u.start : Net ℤ).timelyRun es = true) :
    ∃ (net : Net ℤ) (conn : Side → Connection ℤ), NetSound u net conn ∧
      (u.start : Net HalfWord).run es = net.toWords := by
  obtain ⟨c, h, -⟩ := u.sound
  obtain ⟨conn', h'⟩ := h.run es
  refine ⟨_, conn', h', ?_⟩
  rw [← u.start_toWords hu, h.toWords_run hu es htime]

end Setup

theorem neighbours_narrow : neighbours.Narrow := by
  intro i
  cases i <;> decide

end Usim.Ncp
