import Usim.CSharp.FileCommands
import Usim.CSharp.PacketCodec
import Usim.Lib.CText

/-!
# Reading a file from the FILE server

A sequence of `READ` commands for a file that is open: what their packets deliver, once they are
decoded, and when the end of the file is announced.
-/

namespace Usim

open Lib Lib.Paths

namespace FileServer

/-! ### Commands and packets -/

/-- A `READ` command, with the host at its time. -/
structure ReadCommand where
  host : Host
  data : List Byte
  isRead : ∃ first rest, commandParts host.invalid data = first :: rest ∧
    first.map host.upper = "READ".toList

namespace ReadCommand

/-- The count that a command asks for. -/
def count (c : ReadCommand) : ℤ :=
  let parts := commandParts c.host.invalid c.data
  if parts.length > 1 then (tryParse (getPart parts 1)).getD 256 else 256

/-- `new byte[count]` throws. -/
def refused (c : ReadCommand) : Bool := c.count < 0 || !(c.host.newBytes c.count.toNat).isOk

/-- How many of the bytes that are left a command takes. -/
def taken (c : ReadCommand) (left : ℕ) : ℕ := if c.refused then 0 else min c.count.toNat left

/-- A command answers as it should where so many bytes are left: at the end its buffer can be made,
and elsewhere it cannot, or it asks for some bytes and gets at most 65535. -/
def Fits (c : ReadCommand) (left : ℕ) : Prop :=
  if left = 0 then c.refused = false
  else c.refused = true ∨ 0 < c.count ∧ min c.count.toNat left ≤ 65535

end ReadCommand

/-- Something holds of every command of a sequence and what is left when its turn comes, where so
many bytes are left before the first one. -/
def Throughout (P : ReadCommand → ℕ → Prop) : ℕ → List ReadCommand → Prop
  | _, [] => True
  | left, c :: cs => P c left ∧ Throughout P (left - c.taken left) cs

/-- The commands of a sequence, one after the other. -/
def processReads (server : FileServer) (commands : List ReadCommand) (s : Session) : Session :=
  commands.foldl (fun s c => processCommand c.host server c.data s) s

/-- A session with an open file. -/
def reading (content : List Byte) (position : ℕ) (sent : List Sent) : Session :=
  ⟨some ⟨content, position, false⟩, none, sent, []⟩

/-- How far the file of a session has been read. -/
def Session.position (s : Session) : ℕ := (s.currentFile.map FileStream.position).getD 0

/-- What is sent, with the packet that `Send` makes of it. -/
def sentPackets : SharpConnection → List Sent → List (Sent × SharpPacket)
  | _, [] => []
  | c, x :: xs =>
    let (length, c') := c.send x.bytes
    if length < 0 then sentPackets c' xs
    else (x, c.packet PacketOpcode.datop x.bytes) :: sentPackets c' xs

/-- The bytes of a file in a packet, as it is decoded. -/
def fileData : Sent × SharpPacket → List Byte
  | (.data _, p) => ((SharpPacket.fromBytes p.toBytes).map SharpPacket.data).getD []
  | (.response _, _) => []

/-- A command after others sends the response `EOF` exactly if no byte was left for it. -/
def EndAnnounced (server : FileServer) (content : List Byte) (position : ℕ)
    (before : List ReadCommand) (c : ReadCommand) : Prop :=
  let s := processReads server before (reading content position [])
  .response "EOF".toList ∈ (processCommand c.host server c.data s).sent.drop s.sent.length ↔
    content.drop s.position = []

/-- The packets of a sequence of reads deliver what the reads passed. -/
def Delivered (server : FileServer) (conn : SharpConnection) (content : List Byte) (position : ℕ)
    (commands : List ReadCommand) : Prop :=
  let s := processReads server commands (reading content position [])
  (sentPackets conn s.sent).flatMap fileData = (content.drop position).take (s.position - position)

/-- The packets deliver what was read, and the response `EOF` goes out for those reads before which
no byte was left. -/
structure Delivers (server : FileServer) (conn : SharpConnection) (content : List Byte)
    (position : ℕ) (commands : List ReadCommand) : Prop where
  data : Delivered server conn content position commands
  eof : ∀ before c after, commands = before ++ c :: after →
    EndAnnounced server content position before c

/-! ### One command -/

variable {server : FileServer} {conn : SharpConnection} {content : List Byte} {position : ℕ}
  {sent : List Sent} {c : ReadCommand} {commands : List ReadCommand}

/-- The bytes that a command reads. -/
def bytesRead (content : List Byte) (position : ℕ) (c : ReadCommand) : List Byte :=
  (content.drop position).take c.count.toNat

/-- A `READ` is handled by `HandleRead`. -/
theorem processCommand_eq (c : ReadCommand) (s : Session) :
    processCommand c.host server c.data s =
      match (handleRead c.host (commandParts c.host.invalid c.data)).run s with
      | .ok _ s => s
      | .error message s =>
        { s with
          sent := s.sent ++ [.response ("ERROR: ".toList ++ ("Error: ".toList ++ message))] } := by
  obtain ⟨first, rest, hparts, hcmd⟩ := c.isRead
  have hdispatch : dispatch c.host server (first.map c.host.upper) (first :: rest) =
      handleRead c.host (first :: rest) := by
    rw [hcmd, dispatch, if_neg (by decide), if_neg (by decide), if_pos rfl]
  unfold processCommand
  rw [hparts]
  dsimp only
  rw [hdispatch]
  cases (handleRead c.host (first :: rest)).run s with
  | ok _ s' => rfl
  | error message s' => rfl

/-- `HandleRead` of a command for an open file. -/
theorem handleRead_eq (c : ReadCommand) :
    (handleRead c.host (commandParts c.host.invalid c.data)).run (reading content position sent) =
      EStateM.run (if c.count < 0 then throw "Arithmetic operation resulted in an overflow.".toList
        else do
          call (c.host.newBytes c.count.toNat)
          modify fun s => { s with
            currentFile := some ⟨content, position + (bytesRead content position c).length, false⟩ }
          if (bytesRead content position c).length > 0 then
            send (.data (bytesRead content position c))
          else sendResponse "EOF".toList : Handler Unit) (reading content position sent) := by
  by_cases hcount : c.count < 0
  · rw [if_pos hcount]
    change EStateM.run (if c.count < 0 then _ else _ : Handler Unit) _ = _
    rw [if_pos hcount]
    rfl
  · rw [if_neg hcount]
    change EStateM.run (if c.count < 0 then _ else _ : Handler Unit) _ = _
    rw [if_neg hcount]
    rfl

/-- What a command reads and sends if its buffer can be made. -/
theorem processCommand_read (hc : c.refused = false) :
    processCommand c.host server c.data (reading content position sent) =
      reading content (position + (bytesRead content position c).length)
        (sent ++ [if (bytesRead content position c).length > 0 then
          .data (bytesRead content position c) else .response "EOF".toList]) := by
  obtain ⟨hcount, hbytes⟩ := Bool.or_eq_false_iff.mp hc
  rw [processCommand_eq, handleRead_eq, if_neg (of_decide_eq_false hcount)]
  cases hnew : c.host.newBytes c.count.toNat with
  | error message =>
    rw [hnew] at hbytes
    cases hbytes
  | ok _ =>
    rw [call_ok_bind]
    by_cases hpos : (bytesRead content position c).length > 0
    · rw [if_pos hpos, if_pos hpos]
      rfl
    · rw [if_neg hpos, if_neg hpos]
      rfl

/-- What a command sends if its buffer cannot be made. -/
theorem processCommand_refused (server : FileServer) (content : List Byte) (position : ℕ)
    (sent : List Sent) (hc : c.refused = true) :
    ∃ message, processCommand c.host server c.data (reading content position sent) =
      reading content position (sent ++ [.response ("ERROR: ".toList ++ message)]) := by
  rw [processCommand_eq, handleRead_eq]
  by_cases hcount : c.count < 0
  · rw [if_pos hcount]
    exact ⟨_, rfl⟩
  · rw [if_neg hcount]
    cases hnew : c.host.newBytes c.count.toNat with
    | error message => exact ⟨_, rfl⟩
    | ok _ =>
      have hok := Bool.or_eq_true_iff.mp hc
      rw [hnew] at hok
      exact absurd hok (by simp [hcount, Except.isOk, Except.toBool])

/-- How many bytes a command reads. -/
theorem length_bytesRead (content : List Byte) (position : ℕ) (hc : c.refused = false) :
    (bytesRead content position c).length = c.taken (content.length - position) := by
  rw [bytesRead, List.length_take, List.length_drop, ReadCommand.taken, hc,
    if_neg Bool.false_ne_true]

/-- The part of what is sent that a client gets. -/
def decoded : Sent → List Byte
  | .data bytes => bytes.take (bytes.length % 65536)
  | .response _ => []

/-- The packet with some data comes back with as much of it as its length field says. -/
theorem fileData_packet (conn : SharpConnection) (x : Sent) :
    fileData (x, conn.packet PacketOpcode.datop x.bytes) = decoded x := by
  cases x with
  | response message => rfl
  | data bytes =>
    have hdecode : SharpPacket.fromBytes (conn.packet PacketOpcode.datop bytes).toBytes =
        some { conn.packet PacketOpcode.datop bytes with
          data := bytes.take (BitVec.ofNat 16 bytes.length).toNat } :=
      SharpPacket.fromBytes_eq_some.mpr ⟨0, BitVec.ofNat 16 bytes.length, bytes, rfl, rfl⟩
    change ((SharpPacket.fromBytes (conn.packet PacketOpcode.datop bytes).toBytes).map
      SharpPacket.data).getD [] = _
    rw [hdecode]
    exact congrArg bytes.take (BitVec.toNat_ofNat bytes.length 16)

/-- What the packets of an open connection deliver. -/
theorem flatMap_sentPackets (hopen : conn.state = .csopen) (xs : List Sent) :
    (sentPackets conn xs).flatMap fileData = xs.flatMap decoded := by
  induction xs generalizing conn with
  | nil => rfl
  | cons x xs ih =>
    have hsend : conn.send x.bytes = ((x.bytes.length : ℤ),
        conn.enqueue (conn.packet PacketOpcode.datop x.bytes)) := by
      rw [SharpConnection.send, if_neg (fun h => h hopen)]
    rw [sentPackets, hsend]
    dsimp only
    rw [if_neg (by omega), List.flatMap_cons, List.flatMap_cons, fileData_packet]
    exact congrArg (decoded x ++ ·) (ih hopen)

/-- A command goes on by what it takes and sends one thing. That is `EOF` exactly if its buffer was
made and nothing was read. -/
theorem processCommand_step (server : FileServer) (content : List Byte) (position : ℕ)
    (sent : List Sent) (c : ReadCommand) :
    ∃ x, processCommand c.host server c.data (reading content position sent) =
        reading content (position + c.taken (content.length - position)) (sent ++ [x]) ∧
      (x = .response "EOF".toList ↔
        c.refused = false ∧ c.taken (content.length - position) = 0) ∧
      decoded x = ((content.drop position).take (c.taken (content.length - position))).take
        (c.taken (content.length - position) % 65536) := by
  cases hc : c.refused with
  | true =>
    obtain ⟨message, hprocess⟩ := processCommand_refused server content position sent hc
    have htaken : c.taken (content.length - position) = 0 := by
      rw [ReadCommand.taken, if_pos hc]
    refine ⟨.response ("ERROR: ".toList ++ message), ?_, ?_, ?_⟩
    · rw [hprocess, htaken, Nat.add_zero]
    · constructor
      · intro heq
        injection heq with heq
        have hsecond : some 'R' = some 'O' := congrArg (fun t : Text => t[1]?) heq
        exact absurd hsecond (by decide)
      · rintro ⟨hfalse, -⟩
        cases hfalse
    · rw [htaken]
      rfl
  | false =>
    have hlength := length_bytesRead content position hc
    have hbytes : bytesRead content position c =
        (content.drop position).take (c.taken (content.length - position)) := by
      rw [← hlength, bytesRead, List.length_take, ← List.take_eq_take_min]
    refine ⟨if (bytesRead content position c).length > 0 then .data (bytesRead content position c)
      else .response "EOF".toList, ?_, ?_, ?_⟩
    · rw [processCommand_read hc, hlength]
    · rw [hlength]
      by_cases hpos : c.taken (content.length - position) > 0
      · rw [if_pos hpos]
        constructor
        · intro heq
          cases heq
        · rintro ⟨-, hzero⟩
          omega
      · rw [if_neg hpos]
        exact ⟨fun _ => ⟨rfl, by omega⟩, fun _ => rfl⟩
    · by_cases hpos : (bytesRead content position c).length > 0
      · rw [if_pos hpos, decoded, hlength, hbytes]
      · rw [if_neg hpos, ← hlength, Nat.eq_zero_of_not_pos hpos]
        rfl

/-! ### Sequences -/

/-- How many bytes a sequence of commands takes. -/
def total : ℕ → List ReadCommand → ℕ
  | _, [] => 0
  | left, c :: cs => c.taken left + total (left - c.taken left) cs

theorem taken_le (c : ReadCommand) (left : ℕ) : c.taken left ≤ left := by
  unfold ReadCommand.taken
  split
  · exact Nat.zero_le left
  · exact Nat.min_le_right _ _

theorem total_le (left : ℕ) (cs : List ReadCommand) : total left cs ≤ left := by
  induction cs generalizing left with
  | nil => exact Nat.zero_le left
  | cons c cs ih =>
    have htaken := taken_le c left
    have hrest := ih (left - c.taken left)
    rw [total]
    omega

/-- What holds throughout holds wherever a sequence is cut. -/
theorem throughout_iff {P : ReadCommand → ℕ → Prop} {left : ℕ} {cs : List ReadCommand} :
    Throughout P left cs ↔
      ∀ before c after, cs = before ++ c :: after → P c (left - total left before) := by
  induction cs generalizing left with
  | nil =>
    refine ⟨fun _ before c after h => ?_, fun _ => trivial⟩
    cases before <;> cases h
  | cons c cs ih =>
    rw [Throughout, ih]
    constructor
    · rintro ⟨hhead, htail⟩ before c' after heq
      cases before with
      | nil =>
        injection heq with hc
        rw [total, Nat.sub_zero, ← hc]
        exact hhead
      | cons _ before =>
        injection heq with hc hcs
        subst hc
        rw [total, ← Nat.sub_sub]
        exact htail before c' after hcs
    · intro h
      refine ⟨h [] c cs rfl, fun before c' after heq => ?_⟩
      have hcut := h (c :: before) c' after (by rw [heq, List.cons_append])
      rwa [total, ← Nat.sub_sub] at hcut

theorem throughout_and {P Q : ReadCommand → ℕ → Prop} {left : ℕ} {cs : List ReadCommand} :
    Throughout (fun c left => P c left ∧ Q c left) left cs ↔
      Throughout P left cs ∧ Throughout Q left cs := by
  induction cs generalizing left with
  | nil => exact ⟨fun _ => ⟨trivial, trivial⟩, fun _ => trivial⟩
  | cons c cs ih =>
    rw [Throughout, Throughout, Throughout, ih]
    exact and_and_and_comm

/-- A sequence reads on from where it starts. The packets deliver what was read exactly if no
command takes more than a packet holds. -/
theorem processReads_eq (server : FileServer) (content : List Byte) (position : ℕ)
    (sent : List Sent) (cs : List ReadCommand) :
    ∃ news, processReads server cs (reading content position sent) =
        reading content (position + total (content.length - position) cs) (sent ++ news) ∧
      (news.flatMap decoded).length ≤ total (content.length - position) cs ∧
      (news.flatMap decoded =
          (content.drop position).take (total (content.length - position) cs) ↔
        Throughout (fun c left => c.taken left ≤ 65535) (content.length - position) cs) := by
  induction cs generalizing position sent with
  | nil =>
    refine ⟨[], ?_, Nat.le_refl 0, ⟨fun _ => trivial, fun _ => rfl⟩⟩
    rw [List.append_nil]
    rfl
  | cons c cs ih =>
    obtain ⟨x, hstep, -, hdecoded⟩ := processCommand_step server content position sent c
    have hle := taken_le c (content.length - position)
    have htotal := total_le (content.length - position - c.taken (content.length - position)) cs
    obtain ⟨news, hrun, hlength, hiff⟩ :=
      ih (position + c.taken (content.length - position)) (sent ++ [x])
    rw [← Nat.sub_sub] at hrun hlength hiff
    rw [← List.drop_drop] at hiff
    rw [total, Throughout]
    generalize c.taken (content.length - position) = taken at *
    generalize total (content.length - position - taken) cs = rest at *
    have hread : ((content.drop position).take taken).length = taken := by
      rw [List.length_take, List.length_drop]
      omega
    refine ⟨x :: news, ?_, ?_, ?_⟩
    · change processReads server cs (processCommand c.host server c.data _) = _
      rw [hstep, hrun, List.append_assoc, List.singleton_append, Nat.add_assoc]
    · rw [List.flatMap_cons, List.length_append, hdecoded, List.length_take]
      omega
    · rw [List.flatMap_cons, hdecoded, List.take_add]
      by_cases hfits : taken ≤ 65535
      · rw [Nat.mod_eq_of_lt (by omega), List.take_take, Nat.min_self, List.append_cancel_left_eq,
          hiff]
        exact (and_iff_right hfits).symm
      · refine iff_of_false (fun heq => ?_) fun h => hfits h.1
        -- what is lost here is not made up for later
        have hlengths := congrArg List.length heq
        have hmod := Nat.mod_lt taken (show 0 < 65536 by decide)
        rw [List.length_append, List.length_append, List.length_take, hread, List.length_take,
          List.length_drop, List.length_drop] at hlengths
        omega

/-- When a command fits: it takes no more than a packet holds, and its buffer is made and nothing
read exactly at the end. -/
theorem ReadCommand.fits_iff (c : ReadCommand) {left : ℕ} :
    c.Fits left ↔ c.taken left ≤ 65535 ∧ (c.refused = false ∧ c.taken left = 0 ↔ left = 0) := by
  unfold ReadCommand.Fits ReadCommand.taken
  cases hc : c.refused with
  | true => simp
  | false =>
    have hcount : 0 ≤ c.count := by
      have hnonneg := of_decide_eq_false (Bool.or_eq_false_iff.mp hc).1
      omega
    simp only [Bool.false_eq_true, if_false, true_and, false_or]
    split
    · exact iff_of_true trivial ⟨by omega, fun _ => ‹_›, fun _ => by omega⟩
    · constructor
      · rintro ⟨hpos, htaken⟩
        exact ⟨htaken, by omega, by omega⟩
      · rintro ⟨htaken, hend⟩
        refine ⟨?_, htaken⟩
        by_contra hnone
        have hleft := hend.mp (by omega)
        contradiction

/-- The end is announced as it should exactly if the buffer is made and nothing read at the end. -/
theorem endAnnounced_iff {before : List ReadCommand} :
    EndAnnounced server content position before c ↔
      (c.refused = false ∧
        c.taken (content.length - position - total (content.length - position) before) = 0 ↔
          content.length - position - total (content.length - position) before = 0) := by
  obtain ⟨news, hrun, -, -⟩ := processReads_eq server content position [] before
  rw [EndAnnounced, hrun]
  obtain ⟨x, hstep, hx, -⟩ := processCommand_step server content
    (position + total (content.length - position) before) ([] ++ news) c
  have hend : content.drop (position + total (content.length - position) before) = [] ↔
      content.length - position - total (content.length - position) before = 0 := by
    rw [List.drop_eq_nil_iff]
    omega
  rw [hstep, Nat.sub_sub, ← hx]
  change (_ ∈ ([] ++ news ++ [x]).drop ([] ++ news).length ↔
    content.drop (position + total (content.length - position) before) = []) ↔ _
  rw [List.drop_left, List.mem_singleton, hend, eq_comm, Nat.sub_sub]

/-- The packets deliver what was read exactly if no command takes more than a packet holds. -/
theorem delivered_iff (server : FileServer) (hopen : conn.state = .csopen) (content : List Byte)
    (position : ℕ) (commands : List ReadCommand) :
    Delivered server conn content position commands ↔
      Throughout (fun c left => c.taken left ≤ 65535) (content.length - position) commands := by
  obtain ⟨news, hrun, -, hdata⟩ := processReads_eq server content position [] commands
  have hposition : (reading content (position + total (content.length - position) commands)
      ([] ++ news)).position - position = total (content.length - position) commands :=
    Nat.add_sub_cancel_left _ _
  rw [Delivered, hrun, hposition, ← hdata]
  exact Eq.congr_left (flatMap_sentPackets hopen news)

/-- The packets of a sequence of reads deliver what was read, and `EOF` goes out where it should,
exactly if every command fits. -/
theorem delivers_iff (server : FileServer) (conn : SharpConnection) (hopen : conn.state = .csopen)
    (content : List Byte) (position : ℕ) (commands : List ReadCommand) :
    Delivers server conn content position commands ↔
      Throughout ReadCommand.Fits (content.length - position) commands := by
  have hfits : ReadCommand.Fits = fun c left => c.taken left ≤ 65535 ∧
      (c.refused = false ∧ c.taken left = 0 ↔ left = 0) := by
    funext c left
    exact propext c.fits_iff
  rw [hfits, throughout_and, ← delivered_iff server hopen, throughout_iff]
  constructor
  · intro h
    refine ⟨h.data, fun before c after heq => ?_⟩
    exact endAnnounced_iff.mp (h.eof before c after heq)
  · rintro ⟨hdata, hends⟩
    refine ⟨hdata, fun before c after heq => ?_⟩
    exact endAnnounced_iff.mpr (hends before c after heq)

/-- A `READ` of no bytes. -/
def readNone : ReadCommand where
  host := permissive
  data := chars "READ 0"
  isRead := ⟨"READ".toList, ["0".toList], by rfl, by rfl⟩

/-- A `READ` of more bytes than a packet holds. -/
def readMuch : ReadCommand where
  host := permissive
  data := chars "READ 65536"
  isRead := ⟨"READ".toList, ["65536".toList], by rfl, by rfl⟩

/-- An open connection. -/
def openConnection : SharpConnection := { SharpConnection.construct 1 0o401 with state := .csopen }

theorem delivers_iff_readNone : Delivers siteServer openConnection [1, 2, 3] 0 [readNone] ↔
    Throughout ReadCommand.Fits 3 [readNone] :=
  delivers_iff siteServer openConnection rfl [1, 2, 3] 0 [readNone]

/-- A read of no bytes announces the end of a file of three bytes, and of 65536 bytes that are read
at once none is delivered. -/
theorem not_delivers : ¬Delivers siteServer openConnection [1, 2, 3] 0 [readNone] ∧
    ¬Delivers siteServer openConnection (List.replicate 65536 0) 0 [readMuch] := by
  constructor
  · intro h
    have hend := endAnnounced_iff.mp (h.eof [] readNone [] rfl)
    exact absurd (hend.mp ⟨by rfl, by rfl⟩) (by decide)
  · intro h
    have hdata := (delivered_iff siteServer rfl _ _ _).mp h.data
    rw [List.length_replicate] at hdata
    have hfits : readMuch.taken 65536 ≤ 65535 := hdata.1
    have htaken : readMuch.taken 65536 = 65536 := by rfl
    omega

end FileServer

end Usim
