import Usim.Ncp.WordRuns

/-!
# What two hosts guarantee

Properties of every run of two hosts with 16-bit numbers, whatever is lost, repeated or
reordered between them, if no packet is delivered that is older than half the range of a
word.
-/

namespace Usim.Ncp

open Lib

namespace Setup

variable (u : Setup)

/-! ### What the user reads -/

/-- What the user of one end has read is what the user of the other end has written first, in
its order and without a gap or a repetition. -/
theorem taken_isPrefix (hu : u.Narrow) (es : List Event)
    (htime : (u.start : Net ℤ).timelyRun es = true) (i : Side) :
    (((u.start : Net HalfWord).run es).get i).log.taken <+:
      dataOf (((u.start : Net HalfWord).run es).get i.other).log.written := by
  obtain ⟨net, conn, h, hrun⟩ := u.reached hu es htime
  have htaken : (net.get i).log.taken <+: dataOf (net.get i.other).log.written := by
    rw [(h i).sound.receive.taken]
    exact ((List.take_prefix _ _).trans (List.take_prefix _ _)).filter _
  rw [hrun, net.get_toWords, net.get_toWords]
  exact htaken

theorem taken_isPrefix_neighbours :
    (((neighbours.start : Net HalfWord).run conversation).get .acceptor).log.taken <+:
      dataOf (((neighbours.start : Net HalfWord).run conversation).get .opener).log.written :=
  neighbours.taken_isPrefix neighbours_narrow conversation (by decide) .acceptor

/-! ### The counters -/

/-- The data that wait at an end to be read, those out of order among them, are never more
than a window. -/
theorem buffered_le (hu : u.Narrow) (es : List Event)
    (htime : (u.start : Net ℤ).timelyRun es = true) (i : Side) :
    ∃ c : Connection HalfWord,
      (((u.start : Net HalfWord).run es).get i).host.conntab 0 = some c ∧
      (c.rhead.filter fun p => isData p.op).length + c.routorder.length ≤
        max 1 (u.window i).toNat := by
  obtain ⟨net, conn, h, hrun⟩ := u.reached hu es htime
  refine ⟨(conn i).toWords, ?_, ?_⟩
  · rw [hrun, net.get_toWords]
    exact (h i).holds.conn_toWords
  have hreceive := (h i).sound.receive
  have hcount := hreceive.count
  have hsent := h.sent_le i
  have hlast := (h.peer i.other).last_le
  rw [Side.other_other] at hlast
  have hout : ((conn i).routorder.length : ℤ) ≤
      (net.get i.other).log.written.length - (conn i).rlast := by
    refine hreceive.outorder_asc.length_le hlast fun p hp => ?_
    obtain ⟨hdata, hlt⟩ := hreceive.outorder p hp
    have hpkn := (hreceive.carried p (List.mem_append_right _ hp)).pkn_le
      (contpkt_of_isData hdata)
    have hlength := List.length_take_le' (lastNumber (net.get i.other).wire).toNat
      (net.get i.other).log.written
    rw [Station.sent] at hpkn
    omega
  have hdata : ((conn i).toWords.rhead.filter fun p => isData p.op).length =
      (dataPackets (conn i).rhead).length := by
    rw [show (conn i).toWords.rhead = (conn i).rhead.map Packet.toWords from rfl,
      List.filter_map, List.length_map]
    rfl
  rw [hdata, show (conn i).toWords.routorder.length = (conn i).routorder.length from
    List.length_map _]
  omega

theorem buffered_le_neighbours :
    ∃ c : Connection HalfWord,
      (((neighbours.start : Net HalfWord).run conversation).get .acceptor).host.conntab 0 = some c ∧
      (c.rhead.filter fun p => isData p.op).length + c.routorder.length ≤
        max 1 (neighbours.window .acceptor).toNat :=
  neighbours.buffered_le neighbours_narrow conversation (by decide) .acceptor

/-! ### What is kept for retransmission -/

end Setup

end Usim.Ncp
