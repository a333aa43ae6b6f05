import Mathlib.Data.List.Basic
import Usim.BusInterface
import Usim.Lib.Runs

/-!
# The answers of the two-machine lashup

The debugger sends each request from a new socket and takes the first datagram that reaches
it before the timeout. The debuggee answers every request that it receives with one reply, to
the port from which it was sent. Requests and replies are numbered, which the datagrams are
not, may be lost, and arrive whenever they do.
-/

namespace Usim

/-- `lashup_debugger_port`, 0 where the system chooses a port, and `lashup_target_port`. -/
structure LashupConfig where
  debuggerPort : ℕ
  targetPort : ℕ

/-- The processor reads or writes 0766100. -/
inductive LashupAccess
  | read
  | write (v : HalfWord)
  deriving DecidableEq

/-- The request of `lashup_debugger_read` and `lashup_debugger_write`. -/
def LashupAccess.request (uaddr : Word) : LashupAccess → LashupRequest
  | .read => ⟨'r', uaddr, 0⟩
  | .write v => ⟨'w', uaddr, v⟩

/-- What the processor reads. -/
def LashupAccess.value (o : Option LashupReply) : LashupAccess → HalfWord
  | .read => (o.map (·.data)).getD 0
  | .write _ => 0

/-- `debuggee_bus_error_status` after an access that was sent to `uaddr`. -/
def LashupAccess.mirrored (uaddr : Word) (o : Option LashupReply) : LashupAccess → HalfWord
  | .read => (o.map (·.busErrorStatus)).getD 0o10
  | .write _ =>
    if o.isSome ∧ uaddr = 0o766044 then 0 else (o.map (·.busErrorStatus)).getD 0o10

section Exchange

variable {δ : Type} {lashup : Lashup δ} {b : BusGlobals δ}

/-- A read of 0766100 by the bus interface. -/
theorem busInterfaceRead_lashup (htarget : lashup.targetPort ≠ 0) (pv : HalfWord) :
    let o := (lashup.exchange (LashupAccess.read.request b.interface.getDebuggeeUaddr)
      b.dev.devices.devices).1
    (busInterfaceRead lashup 0o766100 pv b).1 = LashupAccess.read.value o ∧
      (busInterfaceRead lashup 0o766100 pv b).2.interface = { b.interface with
        debuggeeBusErrorStatus :=
          LashupAccess.read.mirrored b.interface.getDebuggeeUaddr o } := by
  intro o
  have hread : busInterfaceRead lashup 0o766100 pv b =
      lashupDebuggerRead lashup b.interface.getDebuggeeUaddr b := rfl
  have ho : (lashup.exchange ⟨'r', b.interface.getDebuggeeUaddr, 0⟩ b.dev.devices.devices).1 = o :=
    rfl
  rw [hread, lashupDebuggerRead, lashupDebuggerXmt, if_neg htarget]
  simp only [ho]
  cases o <;> exact ⟨rfl, rfl⟩

/-- A write of 0766100 by the bus interface. -/
theorem busInterfaceWrite_lashup (htarget : lashup.targetPort ≠ 0) (v : HalfWord) :
    let o := (lashup.exchange ((LashupAccess.write v).request b.interface.getDebuggeeUaddr)
      b.dev.devices.devices).1
    (busInterfaceWrite lashup 0o766100 v b).interface = { b.interface with
      debuggeeBusErrorStatus :=
        (LashupAccess.write v).mirrored b.interface.getDebuggeeUaddr o } := by
  intro o
  have hwrite : busInterfaceWrite lashup 0o766100 v b =
      (let r := lashupDebuggerXmt lashup ⟨'w', b.interface.getDebuggeeUaddr, v⟩ b
      if r.1.isSome ∧ b.interface.getDebuggeeUaddr = 0o766044 then
        r.2.onInterface ({ · with debuggeeBusErrorStatus := 0 })
      else r.2) := rfl
  have ho : (lashup.exchange ⟨'w', b.interface.getDebuggeeUaddr, v⟩ b.dev.devices.devices).1 = o :=
    rfl
  rw [hwrite, lashupDebuggerXmt, if_neg htarget]
  simp only [ho, LashupAccess.mirrored]
  cases o with
  | none => rfl
  | some reply =>
    by_cases huaddr : b.interface.getDebuggeeUaddr = 0o766044
    · simp only [huaddr, Option.isSome_some, true_and, if_true]
      rfl
    · simp only [huaddr, and_false, if_false]
      rfl

end Exchange

/-- A datagram under way. -/
structure LashupDatagram (α : Type) where
  /-- The number of the access. -/
  number : ℕ
  /-- The port of the debugger. -/
  port : ℕ
  content : α

/-- An access that waits for its reply. -/
structure LashupWait where
  number : ℕ
  /-- The port of the socket. -/
  port : ℕ
  access : LashupAccess
  uaddr : Word

/-- An access that is done. -/
structure LashupDone where
  number : ℕ
  access : LashupAccess
  success : Bool
  value : HalfWord

/-- The debugger, the datagrams under way and the debuggee. -/
structure LashupNet (δ : Type) where
  interface : BusInterface
  /-- `reply`. -/
  reply : LashupReply
  waiting : Option LashupWait
  requests : List (LashupDatagram LashupRequest)
  replies : List (LashupDatagram LashupReply)
  debuggee : δ
  /-- The number of accesses begun. -/
  number : ℕ
  /-- What the debuggee has answered to each access. -/
  answered : ℕ → Option LashupReply
  /-- The accesses done, the last one first. -/
  done : List LashupDone

/-- What happens. -/
inductive LashupEvent
  /-- The processor writes 0766114 and has written the first bit of 0766110. -/
  | setAddress (addr17 : Bool) (addr : HalfWord)
  /-- The processor accesses 0766100. The socket is opened, where the system may choose the
  given port, or it cannot be opened. -/
  | access (a : LashupAccess) (socket : Option ℕ)
  /-- A request reaches the debuggee, which answers. -/
  | serve (i : ℕ)
  | loseRequest (i : ℕ)
  | loseReply (i : ℕ)
  /-- A reply reaches the debugger, where the waiting socket takes it if it has its port. A
  datagram that the socket does not take before its timeout is one that is lost. -/
  | arrive (i : ℕ)
  /-- The timeout has passed, or the request cannot be sent. -/
  | giveUp

/-- The event cannot happen now. -/
inductive LashupRefusal
  | notNow

namespace LashupNet

variable {δ : Type} (cfg : LashupConfig) (answer : LashupRequest → δ → LashupReply × δ)

/-- `lashup_debugger_xmt` is left without the socket, before the status is set. -/
def failAtOnce (a : LashupAccess) (s : LashupNet δ) : LashupNet δ :=
  { s with
    number := s.number + 1
    done := ⟨s.number, a, false, 0⟩ :: s.done }

/-- The request is sent. -/
def sendRequest (a : LashupAccess) (port : ℕ) (s : LashupNet δ) : LashupNet δ :=
  let uaddr := s.interface.getDebuggeeUaddr
  { s with
    number := s.number + 1
    waiting := some ⟨s.number, port, a, uaddr⟩
    requests := s.requests ++ [⟨s.number, port, a.request uaddr⟩] }

/-- The socket is closed, with or without a reply. -/
def finish (w : LashupWait) (o : Option LashupReply) (s : LashupNet δ) : LashupNet δ :=
  { s with
    interface.debuggeeBusErrorStatus := w.access.mirrored w.uaddr o
    reply := o.getD s.reply
    waiting := none
    done := ⟨w.number, w.access, o.isSome, w.access.value o⟩ :: s.done }

/-- The debuggee answers a request. -/
def serveRequest (i : ℕ) (q : LashupDatagram LashupRequest) (s : LashupNet δ) : LashupNet δ :=
  let (reply, debuggee) := answer q.content s.debuggee
  { s with
    requests := s.requests.eraseIdx i
    replies := s.replies ++ [⟨q.number, q.port, reply⟩]
    debuggee := debuggee
    answered := Function.update s.answered q.number (some reply) }

/-- A reply reaches the debugger. -/
def takeReply (r : LashupDatagram LashupReply) (s : LashupNet δ) : LashupNet δ :=
  match s.waiting with
  | some w => if r.port = w.port then s.finish w (some r.content) else s
  | none => s

/-- One event. -/
def step (e : LashupEvent) (s : LashupNet δ) : Except LashupRefusal (LashupNet δ) :=
  match e with
  | .setAddress addr17 addr =>
    if s.waiting.isSome then .error .notNow
    else .ok { s with interface := { s.interface with addr17 := addr17, addr := addr } }
  | .access a socket =>
    if s.waiting.isSome then .error .notNow
    else if cfg.targetPort = 0 then .ok (s.failAtOnce a)
    else
      match socket with
      | none => .ok (s.failAtOnce a)
      | some port =>
        .ok (s.sendRequest a (if cfg.debuggerPort = 0 then port else cfg.debuggerPort))
  | .serve i =>
    match s.requests[i]? with
    | none => .error .notNow
    | some q => .ok (s.serveRequest answer i q)
  | .loseRequest i => .ok { s with requests := s.requests.eraseIdx i }
  | .loseReply i => .ok { s with replies := s.replies.eraseIdx i }
  | .arrive i =>
    match s.replies[i]? with
    | none => .error .notNow
    | some r => .ok ({ s with replies := s.replies.eraseIdx i }.takeReply r)
  | .giveUp =>
    match s.waiting with
    | none => .error .notNow
    | some w => .ok (s.finish w none)

/-- Nothing has been sent. -/
def start (interface : BusInterface) (debuggee : δ) : LashupNet δ where
  interface := interface
  reply := ⟨0, 0⟩
  waiting := none
  requests := []
  replies := []
  debuggee := debuggee
  number := 0
  answered := fun _ => none
  done := []

/-- Each successful read has returned the data of the debuggee's answer to it. -/
def ReadsAnswered (s : LashupNet δ) : Prop :=
  ∀ d ∈ s.done, d.success = true → d.access = .read →
    ∃ r, s.answered d.number = some r ∧ d.value = r.data

/-- The status mirrored at 0766104 is that of the debuggee's answer to the last access, or 010
if it failed. -/
def StatusMirrored (s : LashupNet δ) : Prop :=
  ∀ d ∈ s.done.head?, if d.success then
      ∃ r, s.answered d.number = some r ∧ s.interface.debuggeeBusErrorStatus = r.busErrorStatus
    else s.interface.debuggeeBusErrorStatus = 0o10

/-- Answers belong to their questions. -/
def AnswersBelong (s : LashupNet δ) : Prop := s.ReadsAnswered ∧ s.StatusMirrored

/-- The status mirrored is 010 already when an access fails at once, and a reply that reaches the
waiting socket says what the debuggee has answered to its request. -/
def SaysOwn (cfg : LashupConfig) : LashupEvent → LashupNet δ → Prop
  | .access _ socket, s => cfg.targetPort = 0 ∨ socket = none →
      s.interface.debuggeeBusErrorStatus = 0o10
  | .arrive i, s => ∀ w ∈ s.waiting, ∀ r ∈ s.replies[i]?, r.port = w.port →
      ∃ own, s.answered w.number = some own ∧ (w.access = .read → r.content.data = own.data) ∧
        w.access.mirrored w.uaddr (some r.content) = own.busErrorStatus
  | _, _ => True

/-- The target port is configured and the socket can be opened, and a reply that reaches the
waiting socket is one to its own request. -/
def ReachesOwn (cfg : LashupConfig) : LashupEvent → LashupNet δ → Prop
  | .access _ socket, _ => cfg.targetPort ≠ 0 ∧ socket ≠ none
  | .arrive i, s => ∀ w ∈ s.waiting, ∀ r ∈ s.replies[i]?, r.port = w.port → r.number = w.number
  | _, _ => True

/-- What is known of the datagrams: each access has sent at most one request, and a request under
way has no answer yet. -/
structure Inv (answer : LashupRequest → δ → LashupReply × δ) (s : LashupNet δ) : Prop where
  requests : ∀ q ∈ s.requests, q.number < s.number ∧ s.answered q.number = none
  nodup : (s.requests.map (·.number)).Nodup
  replies : ∀ r ∈ s.replies, s.answered r.number = some r.content
  fresh : ∀ k, s.number ≤ k → s.answered k = none
  /-- The request of a waiting access is its own, and so is the answer. -/
  question : ∀ w ∈ s.waiting,
    (∀ q ∈ s.requests, q.number = w.number → q.content = w.access.request w.uaddr) ∧
      ∀ r, s.answered w.number = some r → ∃ d, r = (answer (w.access.request w.uaddr) d).1

variable {cfg : LashupConfig} {answer : LashupRequest → δ → LashupReply × δ} {s : LashupNet δ}

/-- Nothing is under way at the start. -/
theorem inv_start (interface : BusInterface) (debuggee : δ) :
    (start interface debuggee).Inv answer where
  requests := fun _ h => (nomatch h)
  nodup := List.nodup_nil
  replies := fun _ h => (nomatch h)
  fresh := fun _ _ => rfl
  question := fun _ h => (nomatch h)

/-- A request is sent. -/
theorem Inv.sendRequest (h : s.Inv answer) (a : LashupAccess) (port : ℕ) :
    (s.sendRequest a port).Inv answer where
  requests := by
    intro q hq
    rcases List.mem_append.mp hq with hq | hq
    · exact ⟨Nat.lt_succ_of_lt (h.requests q hq).1, (h.requests q hq).2⟩
    · rw [List.mem_singleton.mp hq]
      exact ⟨Nat.lt_succ_self _, h.fresh _ (Nat.le_refl _)⟩
  nodup := by
    change ((s.requests ++ [_]).map _).Nodup
    rw [List.map_append, List.nodup_append]
    refine ⟨h.nodup, List.nodup_singleton _, ?_⟩
    intro k hk k' hk'
    obtain ⟨q, hq, rfl⟩ := List.mem_map.mp hk
    rw [List.mem_singleton.mp hk']
    exact Nat.ne_of_lt (h.requests q hq).1
  replies := h.replies
  fresh := fun k hk => h.fresh k (Nat.le_of_succ_le hk)
  question := by
    intro w hw
    obtain rfl := Option.mem_some.mp hw
    constructor
    · intro q hq hnumber
      rcases List.mem_append.mp hq with hq | hq
      · exact absurd hnumber (Nat.ne_of_lt (h.requests q hq).1)
      · rw [List.mem_singleton.mp hq]
    · intro r hr
      change s.answered s.number = _ at hr
      rw [h.fresh _ (Nat.le_refl _)] at hr
      cases hr

/-- The debuggee answers. -/
theorem Inv.serveRequest (h : s.Inv answer) {i : ℕ} {q : LashupDatagram LashupRequest}
    (hq : s.requests[i]? = some q) : (s.serveRequest answer i q).Inv answer := by
  have hmem := List.mem_of_getElem? hq
  have hother : ∀ q' ∈ s.requests.eraseIdx i, q'.number ≠ q.number := by
    intro q' hq' heq
    obtain ⟨j, hj, hget⟩ := List.mem_eraseIdx_iff_getElem?.mp hq'
    have hlt : j < (s.requests.map (·.number)).length := by
      rw [List.length_map]
      exact (List.getElem?_eq_some_iff.mp hget).1
    refine hj ((List.getElem?_inj hlt h.nodup).mp ?_)
    rw [List.getElem?_map, List.getElem?_map, hget, hq, Option.map_some, Option.map_some, heq]
  constructor
  case requests =>
    intro q' hq'
    have hold := h.requests q' (List.mem_of_mem_eraseIdx hq')
    refine ⟨hold.1, ?_⟩
    change Function.update _ _ _ _ = _
    rw [Function.update_of_ne (hother q' hq')]
    exact hold.2
  case nodup => exact h.nodup.sublist ((List.eraseIdx_sublist _ _).map _)
  case replies =>
    intro r hr
    change Function.update _ _ _ _ = _
    rcases List.mem_append.mp hr with hr | hr
    · have hne : r.number ≠ q.number := by
        intro heq
        have hnone := (h.requests q hmem).2
        rw [← heq, h.replies r hr] at hnone
        cases hnone
      rw [Function.update_of_ne hne]
      exact h.replies r hr
    · rw [List.mem_singleton.mp hr]
      exact Function.update_self _ _ _
  case fresh =>
    intro k hk
    have hlt : q.number < s.number := (h.requests q hmem).1
    change Function.update _ _ _ _ = _
    rw [Function.update_of_ne (Nat.ne_of_gt (Nat.lt_of_lt_of_le hlt hk))]
    exact h.fresh k hk
  case question =>
    intro w hw
    obtain ⟨hown, hanswer⟩ := h.question w hw
    refine ⟨fun q' hq' => hown q' (List.mem_of_mem_eraseIdx hq'), fun r hr => ?_⟩
    change Function.update _ _ _ _ = _ at hr
    by_cases hnumber : w.number = q.number
    · rw [hnumber, Function.update_self] at hr
      refine ⟨s.debuggee, ?_⟩
      rw [← hown q hmem hnumber.symm]
      exact (Option.some.inj hr).symm
    · rw [Function.update_of_ne hnumber] at hr
      exact hanswer r hr

/-- Datagrams are taken out. -/
theorem Inv.erase (h : s.Inv answer) (i j : ℕ) :
    Inv answer { s with requests := s.requests.eraseIdx i, replies := s.replies.eraseIdx j } where
  requests := fun q hq => h.requests q (List.mem_of_mem_eraseIdx hq)
  nodup := h.nodup.sublist ((List.eraseIdx_sublist _ _).map _)
  replies := fun r hr => h.replies r (List.mem_of_mem_eraseIdx hr)
  fresh := h.fresh
  question := fun w hw =>
    ⟨fun q hq => (h.question w hw).1 q (List.mem_of_mem_eraseIdx hq), (h.question w hw).2⟩

/-- An access ends. -/
theorem Inv.finish (h : s.Inv answer) (w : LashupWait) (o : Option LashupReply) :
    (s.finish w o).Inv answer :=
  ⟨h.requests, h.nodup, h.replies, h.fresh, fun _ hw => (nomatch hw)⟩

/-- The access fails at once. -/
theorem Inv.failAtOnce (h : s.Inv answer) (hw : s.waiting = none) (a : LashupAccess) :
    (s.failAtOnce a).Inv answer where
  requests := fun q hq => ⟨Nat.lt_succ_of_lt (h.requests q hq).1, (h.requests q hq).2⟩
  nodup := h.nodup
  replies := h.replies
  fresh := fun k hk => h.fresh k (Nat.le_of_succ_le hk)
  question := by
    intro w hmem
    change w ∈ s.waiting at hmem
    rw [hw] at hmem
    cases hmem

/-! ### Each event -/

/-- An access fails at once. -/
theorem answersBelong_failAtOnce (h : s.AnswersBelong) (a : LashupAccess) :
    (s.failAtOnce a).AnswersBelong ↔ s.interface.debuggeeBusErrorStatus = 0o10 := by
  constructor
  · exact fun hfail => hfail.2 _ rfl
  · intro hstatus
    refine ⟨fun d hd hsuccess => ?_, fun d hd => ?_⟩
    · rcases List.mem_cons.mp hd with rfl | hd
      · cases hsuccess
      · exact h.1 d hd hsuccess
    · obtain rfl := Option.some.inj hd
      exact hstatus

/-- An access ends without a reply. -/
theorem answersBelong_giveUp (h : s.AnswersBelong) (w : LashupWait) :
    (s.finish w none).AnswersBelong := by
  refine ⟨fun d hd hsuccess => ?_, fun d hd => ?_⟩
  · rcases List.mem_cons.mp hd with rfl | hd
    · cases hsuccess
    · exact h.1 d hd hsuccess
  · obtain rfl := Option.some.inj hd
    change w.access.mirrored w.uaddr none = 0o10
    cases w.access <;> rfl

/-- An access ends with a reply. -/
theorem answersBelong_finish (h : s.AnswersBelong) (w : LashupWait) (c : LashupReply) :
    (s.finish w (some c)).AnswersBelong ↔
      ∃ own, s.answered w.number = some own ∧ (w.access = .read → c.data = own.data) ∧
        w.access.mirrored w.uaddr (some c) = own.busErrorStatus := by
  constructor
  · rintro ⟨hreads, hstatus⟩
    obtain ⟨own, hown, hmirrored⟩ := hstatus _ rfl
    refine ⟨own, hown, fun hread => ?_, hmirrored⟩
    obtain ⟨r, hr, hvalue⟩ := hreads _ List.mem_cons_self rfl hread
    obtain rfl := Option.some.inj (hown.symm.trans hr)
    rw [← hvalue]
    change _ = w.access.value (some c)
    rw [hread]
    rfl
  · rintro ⟨own, hown, hdata, hmirrored⟩
    refine ⟨fun d hd hsuccess hread => ?_, fun d hd => ?_⟩
    · rcases List.mem_cons.mp hd with rfl | hd
      · refine ⟨own, hown, ?_⟩
        change w.access.value (some c) = own.data
        change w.access = .read at hread
        rw [← hdata hread, hread]
        rfl
      · exact h.1 d hd hsuccess hread
    · obtain rfl := Option.some.inj hd
      exact ⟨own, hown, hmirrored⟩

/-- Answers once made stay. -/
theorem answersBelong_serveRequest (h : s.AnswersBelong) {i : ℕ} {q : LashupDatagram LashupRequest}
    (hnone : s.answered q.number = none) : (s.serveRequest answer i q).AnswersBelong := by
  have hkeep : ∀ k r, s.answered k = some r → (s.serveRequest answer i q).answered k = some r := by
    intro k r hr
    have hne : k ≠ q.number := by
      rintro rfl
      rw [hnone] at hr
      cases hr
    exact (Function.update_of_ne hne _ _).trans hr
  refine ⟨fun d hd hsuccess hread => ?_, fun d hd => ?_⟩
  · obtain ⟨r, hr, hvalue⟩ := h.1 d hd hsuccess hread
    exact ⟨r, hkeep _ _ hr, hvalue⟩
  · have hstatus := h.2 d hd
    split at hstatus
    · rename_i hsuccess
      obtain ⟨r, hr, hmirrored⟩ := hstatus
      rw [if_pos hsuccess]
      exact ⟨r, hkeep _ _ hr, hmirrored⟩
    · rename_i hfailed
      rw [if_neg hfailed]
      exact hstatus

/-- No socket waits for the reply. -/
theorem takeReply_idle (hw : s.waiting = none) (r : LashupDatagram LashupReply) :
    s.takeReply r = s := by
  simp only [takeReply, hw]

/-- The reply reaches the waiting socket if it has its port. -/
theorem takeReply_waiting {w : LashupWait} (hw : s.waiting = some w)
    (r : LashupDatagram LashupReply) :
    s.takeReply r = if r.port = w.port then s.finish w (some r.content) else s := by
  simp only [takeReply, hw]

/-- What an event does: the invariant is kept, and answers still belong to their questions if and
only if the event says what the debuggee has answered. -/
theorem Inv.step (hI : s.Inv answer) (h : s.AnswersBelong) {e : LashupEvent} {s' : LashupNet δ}
    (hstep : step cfg answer e s = .ok s') :
    s'.Inv answer ∧ (s'.AnswersBelong ↔ SaysOwn cfg e s) := by
  cases e with
  | setAddress addr17 addr =>
    by_cases hw : s.waiting.isSome = true
    · simp only [LashupNet.step, hw, if_true] at hstep
      cases hstep
    · simp only [LashupNet.step, hw] at hstep
      cases hstep
      exact ⟨{ hI with }, iff_of_true h trivial⟩
  | access a socket =>
    by_cases hw : s.waiting.isSome = true
    · simp only [LashupNet.step, hw, if_true] at hstep
      cases hstep
    · have hnone : s.waiting = none := Option.not_isSome_iff_eq_none.mp hw
      simp only [LashupNet.step, hw, Bool.false_eq_true, if_false] at hstep
      by_cases htarget : cfg.targetPort = 0
      · rw [if_pos htarget] at hstep
        cases hstep
        refine ⟨hI.failAtOnce hnone a, (answersBelong_failAtOnce h a).trans ?_⟩
        exact ⟨fun hstatus _ => hstatus, fun hsays => hsays (.inl htarget)⟩
      · rw [if_neg htarget] at hstep
        cases socket with
        | none =>
          cases hstep
          refine ⟨hI.failAtOnce hnone a, (answersBelong_failAtOnce h a).trans ?_⟩
          exact ⟨fun hstatus _ => hstatus, fun hsays => hsays (.inr rfl)⟩
        | some port =>
          cases hstep
          refine ⟨hI.sendRequest a _, iff_of_true h ?_⟩
          rintro (hzero | hsocket)
          · exact absurd hzero htarget
          · cases hsocket
  | serve i =>
    cases hq : s.requests[i]? with
    | none =>
      simp only [LashupNet.step, hq] at hstep
      cases hstep
    | some q =>
      simp only [LashupNet.step, hq] at hstep
      cases hstep
      exact ⟨hI.serveRequest hq, iff_of_true (answersBelong_serveRequest h
        (hI.requests q (List.mem_of_getElem? hq)).2) trivial⟩
  | loseRequest i =>
    cases hstep
    have herase := hI.erase i s.replies.length
    rw [List.eraseIdx_of_length_le (Nat.le_refl _)] at herase
    exact ⟨herase, iff_of_true h trivial⟩
  | loseReply i =>
    cases hstep
    have herase := hI.erase s.requests.length i
    rw [List.eraseIdx_of_length_le (Nat.le_refl _)] at herase
    exact ⟨herase, iff_of_true h trivial⟩
  | arrive i =>
    cases hr : s.replies[i]? with
    | none =>
      simp only [LashupNet.step, hr] at hstep
      cases hstep
    | some r =>
      simp only [LashupNet.step, hr] at hstep
      cases hstep
      have herase := hI.erase s.requests.length i
      rw [List.eraseIdx_of_length_le (Nat.le_refl _)] at herase
      rcases Option.eq_none_or_eq_some s.waiting with hw | ⟨w, hw⟩
      · rw [takeReply_idle (by exact hw)]
        refine ⟨herase, iff_of_true h fun w hmem => ?_⟩
        rw [hw] at hmem
        cases hmem
      · rw [takeReply_waiting (by exact hw)]
        by_cases hport : r.port = w.port
        · rw [if_pos hport]
          refine ⟨herase.finish w _, (answersBelong_finish h w r.content).trans ?_⟩
          constructor
          · intro hown w' hw' r' hr' _
            obtain rfl := Option.some.inj (hw.symm.trans hw')
            obtain rfl := Option.some.inj (hr.symm.trans hr')
            exact hown
          · exact fun hsays => hsays w hw r hr hport
        · rw [if_neg hport]
          refine ⟨herase, iff_of_true h fun w' hw' r' hr' hport' => ?_⟩
          obtain rfl := Option.some.inj (hw.symm.trans hw')
          obtain rfl := Option.some.inj (hr.symm.trans hr')
          exact absurd hport' hport
  | giveUp =>
    cases hw : s.waiting with
    | none =>
      simp only [LashupNet.step, hw] at hstep
      cases hstep
    | some w =>
      simp only [LashupNet.step, hw] at hstep
      cases hstep
      exact ⟨hI.finish w none, iff_of_true (answersBelong_giveUp h w) trivial⟩

/-- At the start nothing has been asked. -/
theorem answersBelong_start (interface : BusInterface) (debuggee : δ) :
    (start interface debuggee).AnswersBelong :=
  ⟨fun _ hd => (nomatch hd), fun _ hd => (nomatch hd)⟩

/-- Answers belong to their questions in every state of exactly those runs in which each access
that fails at once finds the status 010, and each reply that the debugger takes says what the
debuggee has answered to its request. -/
theorem answers_belong_iff {es : List LashupEvent} (interface : BusInterface) (debuggee : δ) :
    Lib.Always (step cfg answer) AnswersBelong es (start interface debuggee) ↔
      Lib.EveryStep (step cfg answer) (SaysOwn cfg) es (start interface debuggee) := by
  refine Lib.always_iff_everyStep (I := fun s => s.Inv answer ∧ s.AnswersBelong)
    (fun s hs => hs.2) ?_ ?_ ⟨inv_start interface debuggee, answersBelong_start interface debuggee⟩
  · intro e s s' hs hstep hsays
    obtain ⟨hI, hiff⟩ := hs.1.step hs.2 hstep
    exact ⟨hI, hiff.mpr hsays⟩
  · intro e s s' hs hstep hbelong
    exact (hs.1.step hs.2 hstep).2.mp hbelong

/-- The debuggee's own reply says what it has answered. -/
theorem Inv.saysOwn (hI : s.Inv answer)
    (hclears : ∀ v d, (answer ⟨'w', 0o766044, v⟩ d).1.busErrorStatus = 0) {e : LashupEvent}
    (h : ReachesOwn cfg e s) : SaysOwn cfg e s := by
  cases e with
  | access a socket => exact fun hor => (hor.elim h.1 h.2).elim
  | arrive i =>
    intro w hw r hr hport
    have hnumber := h w hw r hr hport
    have hown := hI.replies r (List.mem_of_getElem? hr)
    rw [hnumber] at hown
    refine ⟨r.content, hown, fun _ => rfl, ?_⟩
    obtain ⟨d, hd⟩ := (hI.question w hw).2 _ hown
    cases ha : w.access with
    | read => rfl
    | write v =>
      by_cases huaddr : w.uaddr = 0o766044
      · have hzero := hclears v d
        rw [ha, huaddr] at hd
        rw [LashupAccess.mirrored, if_pos ⟨rfl, huaddr⟩, hd]
        exact hzero.symm
      · exact if_neg fun hand => huaddr hand.2
  | setAddress | serve | loseRequest | loseReply | giveUp => trivial

/-- Where the target port is configured, all sockets can be opened and no reply to an earlier
request reaches the socket of a later one, answers belong to their questions in every state of
every run. A debuggee that answers a write of its 0766044 has cleared its status. -/
theorem answers_belong {es : List LashupEvent} (interface : BusInterface) (debuggee : δ)
    (hclears : ∀ v d, (answer ⟨'w', 0o766044, v⟩ d).1.busErrorStatus = 0)
    (hown : Lib.EveryStep (step cfg answer) (ReachesOwn cfg) es (start interface debuggee)) :
    Lib.Always (step cfg answer) AnswersBelong es (start interface debuggee) := by
  refine (answers_belong_iff interface debuggee).mpr ?_
  refine hown.of_step (I := fun s => s.Inv answer ∧ s.AnswersBelong) ?_ ?_
    ⟨inv_start interface debuggee, answersBelong_start interface debuggee⟩
  · intro e s s' hs hstep hreaches
    obtain ⟨hI, hiff⟩ := hs.1.step hs.2 hstep
    exact ⟨hI, hiff.mpr (hs.1.saysOwn hclears hreaches)⟩
  · exact fun e s s' hs _ hreaches => hs.1.saysOwn hclears hreaches

/-- A debuggee that answers every read with the address. -/
def echoAddress (request : LashupRequest) (debuggee : Unit) : LashupReply × Unit :=
  (⟨0, request.uaddr.setWidth 16⟩, debuggee)

/-- The bus interface at power up. -/
def clearedInterface : BusInterface := ⟨0, false, false, 0, false, 0⟩

/-- The first read, of 2, times out. The second one, of 4, gets the answer of the first. -/
theorem late_reply_answers_next_read :
    ¬Lib.Always (step ⟨5000, 5001⟩ echoAddress) AnswersBelong
      [.setAddress false 1, .access .read (some 0), .giveUp, .setAddress false 2,
        .access .read (some 0), .serve 0, .serve 0, .arrive 0] (start clearedInterface ()) := by
  intro h
  have hlast := (((((((h.2 _ rfl).2 _ rfl).2 _ rfl).2 _ rfl).2 _ rfl).2 _ rfl).2 _ rfl).2 _ rfl
  obtain ⟨r, hr, hvalue⟩ := hlast.1 _ List.mem_cons_self rfl rfl
  obtain rfl := Option.some.inj hr
  exact absurd hvalue (by decide)

/-- Both reads are answered in time. -/
theorem answers_belong_two_reads :
    Lib.Always (step ⟨5000, 5001⟩ echoAddress) AnswersBelong
      [.setAddress false 1, .access .read (some 0), .serve 0, .arrive 0, .setAddress false 2,
        .access .read (some 0), .serve 0, .arrive 0] (start clearedInterface ()) := by
  refine answers_belong clearedInterface () (fun _ _ => rfl) ?_
  have hopened : (⟨5000, 5001⟩ : LashupConfig).targetPort ≠ 0 ∧ some 0 ≠ none :=
    ⟨by decide, by simp⟩
  rintro _ ⟨⟩
  refine ⟨trivial, ?_⟩
  rintro _ ⟨⟩
  refine ⟨hopened, ?_⟩
  rintro _ ⟨⟩
  refine ⟨trivial, ?_⟩
  rintro _ ⟨⟩
  refine ⟨by rintro _ ⟨⟩ _ ⟨⟩ -; rfl, ?_⟩
  rintro _ ⟨⟩
  refine ⟨trivial, ?_⟩
  rintro _ ⟨⟩
  refine ⟨hopened, ?_⟩
  rintro _ ⟨⟩
  refine ⟨trivial, ?_⟩
  rintro _ ⟨⟩
  exact ⟨by rintro _ ⟨⟩ _ ⟨⟩ -; rfl, trivial⟩

end LashupNet

end Usim
