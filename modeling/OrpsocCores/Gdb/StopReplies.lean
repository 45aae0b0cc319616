import OrpsocCores.Foundation.Trace
import OrpsocCores.Gdb.Connection

/-!
# Stop replies

A client that has released the processor with a `c` or `s` waits for a stop reply.
It may send an interrupt character in the meantime; the processor may also stall by
itself.  Either way there is to be exactly one stop reply before the next request is
served.

When the processor stalls by itself while an interrupt character is on its way, the
character arrives in front of the acknowledgement of the stop reply.  `put_packet`
takes every byte but `+` for a refusal and sends the stop reply again.
`stopReplies_once` says that this is all that can go wrong: whatever the client
sends and whenever the processor stalls, each `c` and `s` is followed by one stop
reply as long as the loop of `put_packet` reads nothing but `+` after one.
-/

set_option autoImplicit false

namespace OrpsocCores.Gdb

open Trace

/-! ## What the log is to be like -/

/-- A request that releases the processor. -/
def RspBuf.resumes (buf : RspBuf) : Bool :=
  requestKind (buf.chars 0) = .continuing ∨ requestKind (buf.chars 0) = .stepping

namespace LogEntry

/-- The number of stop replies since the last `c` or `s`, and none if another request
has been served since. -/
def count (stops : Option Nat) : LogEntry → Option Nat
  | .served buf => if buf.resumes then some 0 else none
  | .sent body => if isStopReply body then stops.map (· + 1) else stops

/-- No request is served before a stop reply that is due, and no stop reply is sent
twice. -/
def Due (stops : Option Nat) : LogEntry → Prop
  | .served _ => stops = none ∨ stops = some 1
  | .sent body => isStopReply body = true → stops = none ∨ stops = some 0

end LogEntry

/-- Each `c` and `s` is followed by exactly one stop reply before the next request. -/
inductive OnceEach : Option Nat → List LogEntry → Prop
  | nil {stops : Option Nat} : OnceEach stops []
  | cons {stops : Option Nat} {entry : LogEntry} {rest : List LogEntry} (due : entry.Due stops)
      (more : OnceEach (entry.count stops) rest) : OnceEach stops (entry :: rest)

theorem onceEach_cons {stops : Option Nat} {entry : LogEntry} {rest : List LogEntry} :
    OnceEach stops (entry :: rest) ↔ entry.Due stops ∧ OnceEach (entry.count stops) rest := by
  refine ⟨?_, fun both => .cons both.1 both.2⟩
  rintro (_ | ⟨due, more⟩)
  exact ⟨due, more⟩

instance : (stops : Option Nat) → (entry : LogEntry) → Decidable (entry.Due stops)
  | stops, .served _ => inferInstanceAs (Decidable (stops = none ∨ stops = some 1))
  | stops, .sent body =>
      inferInstanceAs (Decidable (isStopReply body = true → stops = none ∨ stops = some 0))

instance decidableOnceEach : (stops : Option Nat) → (log : List LogEntry) →
    Decidable (OnceEach stops log)
  | _, [] => .isTrue .nil
  | stops, entry :: rest =>
      have := decidableOnceEach (entry.count stops) rest
      decidable_of_iff (entry.Due stops ∧ OnceEach (entry.count stops) rest) onceEach_cons.symm

/-- The count at the end of a log. -/
def stopsAfter (log : List LogEntry) : Option Nat := log.foldl LogEntry.count none

@[simp] theorem stopsAfter_append (log : List LogEntry) (entry : LogEntry) :
    stopsAfter (log ++ [entry]) = entry.count (stopsAfter log) := by
  rw [stopsAfter, List.foldl_append]
  rfl

/-- A log and what is added to it. -/
theorem OnceEach.append {log more : List LogEntry} {stops : Option Nat}
    (once : OnceEach stops log) (further : OnceEach (log.foldl LogEntry.count stops) more) :
    OnceEach stops (log ++ more) := by
  induction once with
  | nil => exact further
  | cons due once ih => exact .cons due (ih further)

/-- One more entry. -/
theorem OnceEach.snoc {log : List LogEntry} {entry : LogEntry} (once : OnceEach none log)
    (due : entry.Due (stopsAfter log)) : OnceEach none (log ++ [entry]) :=
  once.append (.cons due .nil)

/-! ## What the client does -/

/-- The client sends the interrupt character only while it waits for a stop. -/
def Connection.Polite (l : Connection) : ConnectionEvent → Prop
  | .interrupt => l.awaitsStop = true
  | _ => True

/-- What the loop of `put_packet` reads after a stop reply is a `+`. -/
def Connection.Permits (l : Connection) : ConnectionEvent → Prop
  | .acknowledge => ∀ body ∈ l.unacknowledged.head?, isStopReply body = true →
      ∀ ch ∈ l.toServer.head?, ch = chr '+'
  | _ => True

instance (l : Connection) : (event : ConnectionEvent) → Decidable (l.Polite event)
  | .interrupt => inferInstanceAs (Decidable (l.awaitsStop = true))
  | .server | .acknowledge | .cpu _ _ | .receive | .request _ => .isTrue trivial

instance (l : Connection) : (event : ConnectionEvent) → Decidable (l.Permits event)
  | .acknowledge => inferInstanceAs (Decidable (∀ body ∈ l.unacknowledged.head?,
      isStopReply body = true → ∀ ch ∈ l.toServer.head?, ch = chr '+'))
  | .server | .cpu _ _ | .receive | .interrupt | .request _ => .isTrue trivial

/-! ## What the server sends -/

namespace RspServer

/-- The process runs, and a client is there. -/
structure Attached (s : RspServer) : Prop where
  running : s.running = true
  connected : s.connected = true

/-- The server waits for the processor to stall.  A trap that is pending is one
that it knows of. -/
structure Waits (s : RspServer) : Prop extends Attached s where
  clientWaiting : s.clientWaiting = true
  seen : s.sigval = targetSignalTrap → s.stallState = .stalled

/-- The stop has been reported. -/
structure Stopped (s : RspServer) : Prop where
  clientWaiting : s.clientWaiting = false
  stallState : s.stallState = .stalled

variable (host : Host) (s : RspServer)

variable {s}

theorem Attached.getNpc (attached : s.Attached) : (s.getNpc host).1.Attached := by
  unfold RspServer.getNpc
  -- the codes of the debug accesses do not end a connection
  simp only [EnumErrors.not_code_pos, if_false]
  split_ifs <;> exact ⟨attached.running, attached.connected⟩

theorem Attached.setNpc (attached : s.Attached) (addr : BitVec 32) :
    (s.setNpc host addr).Attached := by
  obtain ⟨running, connected⟩ := attached.getNpc host
  unfold RspServer.setNpc
  dsimp only
  split_ifs <;> exact ⟨running, connected⟩

theorem Attached.rspCheckForException (attached : s.Attached) :
    (s.rspCheckForException host).Attached := by
  unfold RspServer.rspCheckForException getDebugRegisters
  dsimp only
  split_ifs <;> exact ⟨attached.running, attached.connected⟩

theorem Attached.answerStop (attached : s.Attached) (ppc : BitVec 32) :
    (s.answerStop host ppc).Attached := by
  unfold RspServer.answerStop
  split_ifs
  · obtain ⟨running, connected⟩ := (attached.rspCheckForException host).setNpc host ppc
    exact ⟨running, connected⟩
  · obtain ⟨running, connected⟩ := attached.setNpc host ppc
    exact ⟨running, connected⟩
  · exact ⟨attached.running, attached.connected⟩
  · exact attached

theorem Attached.reportStop (attached : s.Attached) (ppc : BitVec 32) :
    (s.reportStop host ppc).1.Attached := by
  have read : ((s.rspCheckForException host).readPpc host ppc).1.Attached := by
    obtain ⟨running, connected⟩ := attached.rspCheckForException host
    unfold readPpc
    split_ifs <;> exact ⟨running, connected⟩
  exact read.answerStop host _

/-- The client hears nothing of a look at the processor. -/
theorem Waits.rspCheckForException (waits : s.Waits) :
    (s.rspCheckForException host).sent = s.sent ∧ (s.rspCheckForException host).Waits ∧
      (s.target.cpu.stalled = true → (s.rspCheckForException host).stallState = .stalled) := by
  unfold RspServer.rspCheckForException getDebugRegisters
  dsimp only
  split_ifs with stalled
  · exact ⟨rfl, ⟨⟨waits.running, waits.connected⟩, waits.clientWaiting, fun _ => rfl⟩, fun _ => rfl⟩
  · exact ⟨rfl, ⟨⟨waits.running, waits.connected⟩, waits.clientWaiting, fun _ => rfl⟩, fun _ => rfl⟩
  · exact ⟨rfl, waits, fun yes => absurd yes stalled⟩

theorem Waits.readPpc (waits : s.Waits) (ppc : BitVec 32) :
    (s.readPpc host ppc).1.sent = s.sent ∧ (s.readPpc host ppc).1.Waits ∧
      (s.readPpc host ppc).1.stallState = s.stallState := by
  unfold RspServer.readPpc
  split_ifs
  · exact ⟨rfl, ⟨⟨waits.running, waits.connected⟩, waits.clientWaiting, waits.seen⟩, rfl⟩
  · exact ⟨rfl, waits, rfl⟩

/-- A stop that is known is reported with a stop reply. -/
theorem Waits.answerStop (waits : s.Waits) (ppc : BitVec 32) :
    (s.answerStop host ppc = s ∧ s.stallState ≠ .stalled) ∨
      ∃ body, isStopReply body = true ∧ (s.answerStop host ppc).sent = s.sent ++ [body] ∧
        (s.answerStop host ppc).Stopped := by
  have reply (s : RspServer) : ∃ body, isStopReply body = true ∧
      s.rspReportException.sent = s.sent ++ [body] := ⟨_, rfl, rfl⟩
  unfold RspServer.answerStop
  split_ifs with hit unnoticed stalled
  · exact absurd (waits.seen hit.1) unnoticed
  · obtain ⟨body, isReply, sent⟩ := reply (s.setNpc host ppc)
    rw [s.setNpc_sent host] at sent
    exact .inr ⟨body, isReply, sent, rfl,
      (s.setNpc_stallState host ppc).trans (not_not.mp unnoticed)⟩
  · obtain ⟨body, isReply, sent⟩ := reply s
    exact .inr ⟨body, isReply, sent, rfl, stalled⟩
  · exact .inl ⟨rfl, stalled⟩

/-- The server goes on waiting for a processor that runs, or it reports the stop. -/
theorem Waits.reportStop (waits : s.Waits) (ppc : BitVec 32) :
    (s.replies (s.reportStop host ppc).1 = [] ∧ (s.reportStop host ppc).1.Waits ∧
        (s.reportStop host ppc).1.stallState ≠ .stalled ∧ s.target.cpu.stalled = false) ∨
      ∃ body, isStopReply body = true ∧ s.replies (s.reportStop host ppc).1 = [body] ∧
        (s.reportStop host ppc).1.Stopped := by
  obtain ⟨checked, waits, noticed⟩ := waits.rspCheckForException host
  obtain ⟨read, waits, stallState⟩ := waits.readPpc host ppc
  have silent := read.trans checked
  rcases waits.answerStop host ((s.rspCheckForException host).readPpc host ppc).2 with
    ⟨same, unknown⟩ | ⟨body, isReply, sent, stopped⟩
  · left
    rw [RspServer.reportStop, same]
    refine ⟨replies_of_sent (silent.trans (List.append_nil _).symm), waits, unknown, ?_⟩
    exact Bool.eq_false_iff.mpr fun stalled => unknown (stallState.trans (noticed stalled))
  · right
    rw [silent] at sent
    exact ⟨body, isReply, replies_of_sent sent, stopped⟩

/-- A request that releases the processor is not answered. -/
theorem Attached.served {buf : RspBuf} (attached : s.Attached) (resumes : buf.resumes = true) :
    s.replies (s.rspClientRequest host buf) = [] ∧ (s.rspClientRequest host buf).Waits := by
  have resumed (request : Char) : (s.resumeAddr host buf request).1.sent = s.sent ∧
      (s.resumeAddr host buf request).1.Attached := by
    unfold resumeAddr
    split
    · exact ⟨s.getNpc_sent host, attached.getNpc host⟩
    · split
      · exact ⟨rfl, attached⟩
      · exact ⟨s.getNpc_sent host, attached.getNpc host⟩
  -- the signal is cleared together with the stall
  have quiet : targetSignalNone ≠ targetSignalTrap := by decide
  rcases of_decide_eq_true resumes with kind | kind
  · obtain ⟨sent, attached⟩ := resumed 'c'
    obtain ⟨running, connected⟩ := attached.setNpc host (s.resumeAddr host buf 'c').2
    rw [rspClientRequest, kind]
    refine ⟨replies_of_sent ?_, ⟨?_, ?_⟩, rfl, fun trap => absurd trap quiet⟩
    · simp [rspContinue, rspContinueGeneric, putDebugRegisters, setStallState, sent]
    · simp [rspContinue, rspContinueGeneric, putDebugRegisters, setStallState, running]
    · simp [rspContinue, rspContinueGeneric, putDebugRegisters, setStallState, connected]
  · obtain ⟨sent, attached⟩ := resumed 's'
    obtain ⟨running, connected⟩ := attached.setNpc host (s.resumeAddr host buf 's').2
    rw [rspClientRequest, kind]
    refine ⟨replies_of_sent ?_, ⟨?_, ?_⟩, rfl, fun trap => absurd trap quiet⟩
    · simp [rspStep, rspStepGeneric, putDebugRegisters, setStallState, sent]
    · simp [rspStep, rspStepGeneric, putDebugRegisters, setStallState, running]
    · simp [rspStep, rspStepGeneric, putDebugRegisters, setStallState, connected]

variable (s)

/-- An interrupt is answered with a stop reply. -/
theorem rspInterrupt_stopped :
    ∃ body, isStopReply body = true ∧ s.replies s.rspInterrupt = [body] ∧
      s.rspInterrupt.Stopped :=
  ⟨_, rfl, replies_of_sent rfl, rfl, rfl⟩

end RspServer

namespace Session

variable (host : Host) (x : Session)

theorem beforeInput_attached (running : x.server.running = true) :
    (x.beforeInput host).server.Attached := by
  have there : x.server.connect.Attached := by
    unfold RspServer.connect
    split_ifs with connected
    · exact ⟨running, connected⟩
    · exact ⟨running, rfl⟩
  unfold beforeInput
  dsimp only
  split_ifs
  · exact there.reportStop host x.ppc
  · exact there

theorem beforeInput_waits (waits : x.server.Waits) :
    (x.server.replies (x.beforeInput host).server = [] ∧ (x.beforeInput host).server.Waits ∧
        (x.beforeInput host).server.stallState ≠ .stalled ∧
        x.server.target.cpu.stalled = false) ∨
      ∃ body, isStopReply body = true ∧
        x.server.replies (x.beforeInput host).server = [body] ∧
        (x.beforeInput host).server.Stopped := by
  have connected : x.server.connect = x.server := if_pos waits.connected
  have pass : x.beforeInput host =
      ⟨(x.server.reportStop host x.ppc).1, (x.server.reportStop host x.ppc).2⟩ := by
    rw [beforeInput, connected]
    exact if_pos waits.clientWaiting
  rw [pass]
  exact waits.reportStop host x.ppc

theorem beforeInput_stopped (stopped : x.server.Stopped) :
    x.server.replies (x.beforeInput host).server = [] ∧ (x.beforeInput host).server.Stopped := by
  have connect : x.server.connect.sent = x.server.sent ∧ x.server.connect.Stopped := by
    unfold RspServer.connect
    split_ifs
    · exact ⟨rfl, stopped⟩
    · exact ⟨rfl, rfl, stopped.stallState⟩
  have pass : x.beforeInput host = ⟨x.server.connect, x.ppc⟩ :=
    if_neg (by simp [connect.2.clientWaiting])
  rw [pass]
  exact ⟨RspServer.replies_of_sent (connect.1.trans (List.append_nil _).symm), connect.2⟩

end Session

/-! ## The invariant -/

namespace Connection

/-- How the server stands after a number of stop replies. -/
inductive Standing (l : Connection) : Option Nat → Prop
  | idle : Standing l none
  | released (waits : l.session.server.Waits) (quiet : l.unacknowledged = [])
      (unknown : l.polled = true → l.session.server.stallState ≠ .stalled) : Standing l (some 0)
  | answered (stopped : l.session.server.Stopped) (last : l.unacknowledged.length ≤ 1) :
      Standing l (some 1)

/-- What is on its way is of no concern. -/
theorem Standing.of_eq {l l' : Connection} {stops : Option Nat} (standing : l.Standing stops)
    (session : l'.session = l.session) (unacknowledged : l'.unacknowledged = l.unacknowledged)
    (polled : l'.polled = l.polled) : l'.Standing stops := by
  cases standing with
  | idle => exact .idle
  | released waits quiet unknown =>
      refine .released (session ▸ waits) (unacknowledged ▸ quiet) ?_
      rw [polled, session]
      exact unknown
  | answered stopped last => exact .answered (session ▸ stopped) (unacknowledged ▸ last)

/-- Nothing has gone wrong so far. -/
structure Orderly (l : Connection) : Prop where
  once : OnceEach none l.log
  standing : l.Standing (stopsAfter l.log)
  connected : l.polled = true → l.session.server.connected = true

variable (host : Host) {l : Connection}

theorem Orderly.opened (x : Session) (packet : RspBuf) : (opened x packet).Orderly :=
  ⟨.nil, .idle, nofun⟩

@[simp] theorem transmit_nil : l.transmit [] = { l with unacknowledged := [] } := by
  simp [transmit]

@[simp] theorem transmit_log (body : List Byte) (bodies : List (List Byte)) :
    (l.transmit (body :: bodies)).log = l.log ++ [.sent body] := rfl

/-- Whatever is sent when nothing is due. -/
theorem Orderly.transmit_idle (l : Connection) (once : OnceEach none l.log)
    (idle : stopsAfter l.log = none) (connected : l.polled = true → l.session.server.connected = true)
    (bodies : List (List Byte)) : (l.transmit bodies).Orderly := by
  have standing {l : Connection} (idle : stopsAfter l.log = none) :
      l.Standing (stopsAfter l.log) := idle ▸ .idle
  cases bodies with
  | nil =>
      rw [transmit_nil]
      exact ⟨once, standing idle, connected⟩
  | cons body bodies =>
      refine ⟨once.snoc fun _ => .inl idle, standing ?_, connected⟩
      rw [transmit_log, stopsAfter_append, idle, LogEntry.count, Option.map_none, ite_self]

theorem stopsAfter_transmit (released : stopsAfter l.log = some 0) {body : List Byte}
    (isReply : isStopReply body = true) : stopsAfter (l.transmit [body]).log = some 1 := by
  rw [transmit_log, stopsAfter_append, released, LogEntry.count, if_pos isReply]
  rfl

/-- The stop reply that is due. -/
theorem Orderly.transmit_stop (l : Connection) (once : OnceEach none l.log)
    (due : stopsAfter l.log = none ∨ stopsAfter l.log = some 0)
    (connected : l.polled = true → l.session.server.connected = true)
    (stopped : l.session.server.Stopped) {body : List Byte} (isReply : isStopReply body = true) :
    (l.transmit [body]).Orderly := by
  rcases due with idle | released
  · exact .transmit_idle l once idle connected [body]
  · refine ⟨once.snoc fun _ => .inr released, ?_, connected⟩
    rw [stopsAfter_transmit released isReply]
    exact .answered stopped (le_refl 1)

/-- The part of the loop that looks at the processor. -/
theorem Orderly.poll (orderly : l.Orderly) (running : l.session.server.running = true) :
    (l.poll host).Orderly := by
  obtain ⟨once, standing, -⟩ := orderly
  have connected := (l.session.beforeInput_attached host running).connected
  rw [Connection.poll]
  generalize counted : stopsAfter l.log = stops at standing
  cases standing with
  | idle =>
      exact .transmit_idle { l with session := l.session.beforeInput host, polled := true } once
        counted (fun _ => connected) _
  | released waits =>
      rcases l.session.beforeInput_waits host waits with
        ⟨silent, waits, unknown, -⟩ | ⟨body, isReply, sent, stopped⟩
      · rw [silent, transmit_nil]
        exact ⟨once, counted ▸ .released waits rfl fun _ => unknown, fun _ => connected⟩
      · rw [sent]
        exact .transmit_stop { l with session := l.session.beforeInput host, polled := true } once
          (.inr counted) (fun _ => connected) stopped isReply
  | answered stopped =>
      obtain ⟨silent, stopped⟩ := l.session.beforeInput_stopped host stopped
      rw [silent, transmit_nil]
      exact ⟨once, counted ▸ .answered stopped (Nat.zero_le 1), fun _ => connected⟩

/-- A request is served, and no stop reply is due. -/
theorem Orderly.served (l : Connection) (once : OnceEach none l.log)
    (due : stopsAfter l.log = none ∨ stopsAfter l.log = some 1) (unpolled : l.polled = false)
    (idle : l.session.server.clientWaiting = false) (attached : l.session.server.Attached)
    (buf : RspBuf) :
    ({ l with log := l.log ++ [LogEntry.served buf] }.handle host (.packet buf)).Orderly := by
  have served : l.session.server.handleInput host (.packet buf) =
      l.session.server.rspClientRequest host buf := if_neg (by simp [idle])
  have more : OnceEach none (l.log ++ [LogEntry.served buf]) := once.snoc due
  have counted : stopsAfter (l.log ++ [LogEntry.served buf]) =
      if buf.resumes then some 0 else none := stopsAfter_append l.log (.served buf)
  have between {p : Prop} (polled : l.polled = true) : p :=
    absurd (unpolled.symm.trans polled) (by decide)
  rw [handle, served]
  by_cases resumes : buf.resumes = true
  · obtain ⟨silent, waits⟩ := attached.served host resumes
    rw [if_pos resumes] at counted
    dsimp only
    rw [silent, transmit_nil]
    refine ⟨more, ?_, between⟩
    dsimp only
    rw [counted]
    exact .released waits rfl between
  · rw [if_neg resumes] at counted
    refine .transmit_idle _ ?_ ?_ ?_ _
    · exact more
    · exact counted
    · exact between

/-- An interrupt character that the loop looks at. -/
theorem look_interrupt {rest : List Byte} (queue : l.toServer = etx :: rest)
    (unknown : l.session.server.stallState ≠ .stalled) :
    ∃ body, isStopReply body = true ∧ l.session.server.rspInterrupt.Stopped ∧
      l.look host = { l with
        toServer := rest
        session := { l.session with server := l.session.server.rspInterrupt } }.transmit [body] := by
  obtain ⟨body, isReply, sent, stopped⟩ := l.session.server.rspInterrupt_stopped
  have handled : l.session.server.handleInput host .interrupt = l.session.server.rspInterrupt :=
    if_pos unknown
  refine ⟨body, isReply, stopped, ?_⟩
  rw [← sent, look, queue]
  dsimp only
  rw [if_pos ⟨rfl, unknown⟩, handle, handled]

/-- The part of the loop that looks at the input. -/
theorem Orderly.look (orderly : l.Orderly) (unpolled : l.polled = false)
    (attached : l.session.server.Attached) : (l.look host).Orderly := by
  have same := orderly
  obtain ⟨once, standing, -⟩ := orderly
  by_cases interrupts : ∃ rest, l.toServer = etx :: rest ∧ l.session.server.stallState ≠ .stalled
  · obtain ⟨rest, queue, unknown⟩ := interrupts
    -- a stop that has been reported is one that the server knows of
    have due : stopsAfter l.log = none ∨ stopsAfter l.log = some 0 := by
      generalize stopsAfter l.log = stops at standing
      cases standing with
      | idle => exact .inl rfl
      | released => exact .inr rfl
      | answered stopped => exact absurd stopped.stallState unknown
    obtain ⟨body, isReply, stopped, looked⟩ := look_interrupt host queue unknown
    rw [looked]
    exact .transmit_stop { l with
      toServer := rest
      session := { l.session with server := l.session.server.rspInterrupt } } once due
      (fun _ => attached.connected) stopped isReply
  · unfold Connection.look
    split
    · exact same
    · rename_i ch rest queue
      have other : ¬ (ch = etx ∧ l.session.server.stallState ≠ .stalled) :=
        fun both => interrupts ⟨rest, both.1 ▸ queue, both.2⟩
      rw [if_neg other]
      split_ifs with reads
      · split
        · rename_i buf _ unread _
          have due : stopsAfter l.log = none ∨ stopsAfter l.log = some 1 := by
            generalize stopsAfter l.log = stops at standing
            cases standing with
            | idle => exact .inl rfl
            | released waits => exact absurd (waits.clientWaiting.symm.trans reads.1) (by decide)
            | answered => exact .inr rfl
          exact .served host { l with packet := buf, toServer := unread } once due unpolled reads.1
            attached buf
        · exact same
      · exact same

/-- The second part of a pass begins. -/
theorem Orderly.unpolled (orderly : l.Orderly) : { l with polled := false }.Orderly := by
  obtain ⟨once, standing, -⟩ := orderly
  refine ⟨once, ?_, nofun⟩
  dsimp only
  generalize stopsAfter l.log = stops at standing ⊢
  cases standing with
  | idle => exact .idle
  | released waits quiet => exact .released waits quiet nofun
  | answered stopped last => exact .answered stopped last

theorem Orderly.proceed (orderly : l.Orderly) : (l.proceed host).Orderly := by
  unfold Connection.proceed
  split_ifs with ready polled
  · have connected := orderly.connected polled
    exact orderly.unpolled.look host rfl ⟨ready.1, connected⟩
  · exact orderly.poll host ready.1
  · exact orderly

/-- `put_packet` reads a byte: the packet is sent again, or it is the next one's
turn. -/
theorem Orderly.acknowledge (orderly : l.Orderly) (permitted : l.Permits .acknowledge) :
    l.acknowledge.Orderly := by
  have same := orderly
  obtain ⟨once, standing, connected⟩ := orderly
  unfold Connection.acknowledge
  split
  · rename_i body bodies ch rest waiting queue
    have accepted : isStopReply body = true → ch = chr '+' := by
      intro isReply
      rw [Permits, waiting, queue] at permitted
      exact permitted body rfl isReply ch rfl
    generalize counted : stopsAfter l.log = stops at standing
    cases standing with
    | idle =>
        split_ifs
        · exact .transmit_idle { l with toServer := rest } once counted connected bodies
        · exact .transmit_idle { l with toServer := rest } once counted connected (body :: bodies)
    | released waits quiet =>
        rw [quiet] at waiting
        cases waiting
    | answered stopped last =>
        obtain rfl : bodies = [] := by
          rw [waiting, List.length_cons] at last
          exact List.length_eq_zero_iff.mp (by omega)
        split_ifs with plus
        · rw [transmit_nil]
          exact ⟨once, counted ▸ .answered stopped (Nat.zero_le 1), connected⟩
        · have other : isStopReply body ≠ true := fun isReply => plus (accepted isReply)
          refine ⟨once.snoc fun isReply => absurd isReply other, ?_, connected⟩
          have counted : stopsAfter (l.log ++ [.sent body]) = some 1 := by
            rw [stopsAfter_append, counted, LogEntry.count, if_neg other]
          rw [transmit_log, counted]
          exact .answered stopped (le_refl 1)
  · exact same

/-- **One thing that any of the three does.** -/
theorem Orderly.step (orderly : l.Orderly) {event : ConnectionEvent}
    (permitted : l.Permits event) : (l.step host event).Orderly := by
  have same := orderly
  obtain ⟨once, standing, connected⟩ := orderly
  cases event with
  | server => exact same.proceed host
  | acknowledge => exact same.acknowledge permitted
  | cpu spr stalls =>
      rw [Connection.step, Session.run]
      split_ifs
      · exact same
      · refine ⟨once, ?_, connected⟩
        dsimp only
        generalize stopsAfter l.log = stops at standing ⊢
        cases standing with
        | idle => exact .idle
        | released waits quiet unknown =>
            exact .released ⟨⟨waits.running, waits.connected⟩, waits.clientWaiting, waits.seen⟩ quiet
              unknown
        | answered stopped last =>
            exact .answered ⟨stopped.clientWaiting, stopped.stallState⟩ last
  | receive =>
      rw [Connection.step, Connection.receive]
      split
      · exact ⟨once, standing.of_eq rfl rfl rfl, connected⟩
      · exact same
  | interrupt => exact ⟨once, standing.of_eq rfl rfl rfl, connected⟩
  | request frame => exact ⟨once, standing.of_eq rfl rfl rfl, connected⟩

/-- The stop replies are as they should be: each `c` and `s` has one before the next
request is served, and one that is due is sent within a pass of the loop if the
processor has stalled or an interrupt character is there. -/
structure StopsReported (l : Connection) : Prop where
  once : OnceEach none l.log
  prompt : stopsAfter l.log = some 0 →
    l.session.server.target.cpu.stalled = true ∨ l.toServer.head? = some etx →
    stopsAfter ((l.proceed host).proceed host).log = some 1

/-- The stop reply that was due has been sent. -/
def Reported (l : Connection) : Prop := stopsAfter l.log = some 1 ∧ l.unacknowledged ≠ []

/-- The server waits for the acknowledgement. -/
theorem Reported.proceed (reported : l.Reported) : l.proceed host = l :=
  if_neg fun ready => reported.2 ready.2

/-- What the first part of a pass does for a client that waits. -/
theorem poll_cases (waits : l.session.server.Waits) (released : stopsAfter l.log = some 0) :
    (l.poll host).Reported ∨
      (l.session.server.target.cpu.stalled = false ∧
        l.poll host = { l with
          session := l.session.beforeInput host
          polled := true
          unacknowledged := [] } ∧
        (l.session.beforeInput host).server.stallState ≠ .stalled ∧
        (l.session.beforeInput host).server.running = true) := by
  rcases l.session.beforeInput_waits host waits with
    ⟨silent, waits, unknown, runs⟩ | ⟨body, isReply, sent, -⟩
  · right
    rw [Connection.poll, silent, transmit_nil]
    exact ⟨runs, rfl, unknown, waits.running⟩
  · left
    rw [Connection.poll, sent]
    exact ⟨stopsAfter_transmit released isReply, List.cons_ne_nil _ _⟩

/-- What the second part does. -/
theorem look_reports (interrupts : l.toServer.head? = some etx)
    (unknown : l.session.server.stallState ≠ .stalled) (released : stopsAfter l.log = some 0) :
    (l.look host).Reported := by
  obtain ⟨rest, queue⟩ := List.head?_eq_some_iff.mp interrupts
  obtain ⟨body, isReply, -, looked⟩ := look_interrupt host queue unknown
  rw [looked]
  exact ⟨stopsAfter_transmit released isReply, List.cons_ne_nil _ _⟩

theorem look_waits (waits : l.session.server.Waits) (other : l.toServer.head? ≠ some etx) :
    l.look host = l := by
  unfold Connection.look
  split
  · rfl
  · rename_i ch rest queue
    have apart : ¬ (ch = etx ∧ l.session.server.stallState ≠ .stalled) := by
      rintro ⟨rfl, -⟩
      rw [queue] at other
      exact other rfl
    rw [if_neg apart, if_neg (by simp [waits.clientWaiting])]

theorem Orderly.stopsReported (orderly : l.Orderly) : l.StopsReported host := by
  refine ⟨orderly.once, fun released stops => ?_⟩
  have standing := released ▸ orderly.standing
  obtain ⟨waits, quiet, unknown⟩ : l.session.server.Waits ∧ l.unacknowledged = [] ∧
      (l.polled = true → l.session.server.stallState ≠ .stalled) := by
    cases standing with
    | released waits quiet unknown => exact ⟨waits, quiet, unknown⟩
  have ready : l.session.server.running = true ∧ l.unacknowledged = [] := ⟨waits.running, quiet⟩
  cases between : l.polled with
  | false =>
      have first : l.proceed host = l.poll host := by
        rw [Connection.proceed, if_pos ready, if_neg (by simp [between])]
      rw [first]
      rcases poll_cases host waits released with reported | ⟨runs, silent, unknown, running⟩
      · rw [reported.proceed]
        exact reported.1
      · have interrupts : l.toServer.head? = some etx := by
          rcases stops with stalled | interrupts
          · exact absurd (runs.symm.trans stalled) (by decide)
          · exact interrupts
        rw [silent, Connection.proceed, if_pos ⟨running, rfl⟩, if_pos rfl]
        have reported : (({ l with
            session := l.session.beforeInput host
            polled := false
            unacknowledged := [] } : Connection).look host).Reported :=
          look_reports host interrupts unknown released
        exact reported.1
  | true =>
      have first : l.proceed host = { l with polled := false }.look host := by
        rw [Connection.proceed, if_pos ready, if_pos between]
      rw [first]
      by_cases interrupts : l.toServer.head? = some etx
      · have reported : ({ l with polled := false }.look host).Reported :=
          look_reports host interrupts (unknown between) released
        rw [reported.proceed]
        exact reported.1
      · -- the processor has stalled since the server looked at it
        have stalled := stops.resolve_right interrupts
        have looked : { l with polled := false }.look host = { l with polled := false } :=
          look_waits host waits interrupts
        rw [looked, Connection.proceed, if_pos ready, if_neg Bool.noConfusion]
        rcases poll_cases host (l := { l with polled := false }) waits released with
          reported | ⟨runs, -⟩
        · exact reported.1
        · exact absurd (runs.symm.trans stalled) (by decide)

end Connection

/-- **Stop replies.**  Each `c` and `s` is followed by exactly one stop reply before
the next request is served, and none is lost, in every interleaving of the server, a
client and the processor in which the loop of `put_packet` reads nothing but `+`
after a stop reply. -/
theorem stopReplies_once (host : Host) (x : Session) (packet : RspBuf)
    (events : List ConnectionEvent)
    (permitted : Always (Connection.step host) Connection.Permits (.opened x packet) events) :
    (after (Connection.step host) (.opened x packet) events).StopsReported host :=
  (Always.invariant Connection.Orderly (fun _ _ orderly permitted => orderly.step host permitted)
    (.opened x packet) permitted).stopsReported host

/-! ## Two ways to stop -/

/-- A server whose processor is stalled. -/
def quietSession : Session := ⟨idleServer.rspInit idleHost, 0⟩

/-- The processor stalls while an interrupt character is on its way. -/
def crossing : List ConnectionEvent :=
  [.request (frameOf (str "c")), .server, .server, .interrupt, .cpu (fun _ => 0) true, .server,
    .acknowledge]

/-- The interrupt character is taken for a refusal of the stop reply. -/
theorem crossing_sends_again :
    Always (Connection.step idleHost) Connection.Polite (.opened quietSession (packetBuf ""))
        crossing ∧
      ¬ (after (Connection.step idleHost) (.opened quietSession (packetBuf ""))
        crossing).StopsReported idleHost :=
  ⟨by decide +kernel, fun reported => absurd reported.once (by decide +kernel)⟩

/-- The processor stalls by itself, and the next time it is interrupted, both times
after the first part of a pass. -/
def oneByOne : List ConnectionEvent :=
  [.request (frameOf (str "c")), .server, .server, .server, .cpu (fun _ => 0) true, .server, .server,
    .receive, .acknowledge, .request (frameOf (str "s")), .server, .server, .interrupt, .server,
    .receive, .acknowledge]

theorem oneByOne_answered_once :
    Always (Connection.step idleHost) Connection.Polite (.opened quietSession (packetBuf ""))
        oneByOne ∧
      (after (Connection.step idleHost) (.opened quietSession (packetBuf ""))
        oneByOne).StopsReported idleHost :=
  ⟨by decide +kernel,
    stopReplies_once idleHost quietSession (packetBuf "") oneByOne (by decide +kernel)⟩

end OrpsocCores.Gdb
