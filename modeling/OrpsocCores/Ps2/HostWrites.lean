import OrpsocCores.Ps2.Transmit
import Mathlib.Data.List.Forall2

/-!
# The bytes of the host

The host presents a byte with `obf_set_i`.  The byte waits in a register until the module
is idle, is loaded in the state of the request, and then sent.  `obf_o` rises only with the
request, so that a host that looks at it may present a second byte while the first one
still waits: the second one takes its place.

When a frame is aborted the data line stays as the last bit has left it, because
`ps2_data_out` is only written while the module transmits.

`host_writes` has the two conditions: no byte is presented over a promised one that waits,
and no frame is aborted with the data line low.
-/

set_option autoImplicit false

namespace OrpsocCores.Ps2

open Regs

variable {debounceBits watchdogBits : Nat}

/-! ## Bytes and frames of a run -/

namespace Regs

section Signals

variable (r : Regs debounceBits watchdogBits)

/-- A byte is in the register, or in the state of the request and not yet past it. -/
def waiting : Bool := if r.state = .writeRequest then !r.wdtCao else r.obfSet

/-- The byte in the register. -/
def pending : List Byte := if r.obfSet then [r.dataIReg] else []

/-- A frame is on the line. -/
def sends : Bool := r.writing && r.state ≠ .writeRequest

/-- The watchdog ends the frame, and not the device. -/
def aborts : Bool := r.wdtCao && !(r.state = .stop && r.acknowledged)

/-- The watchdog aborts a frame while the module pulls the data line. -/
def LeavesLow : Prop :=
  r.writing = true ∧ r.wdtCao = true ∧
    (r.state = .start ∨ (r.state = .data ∨ r.state = .parity) ∧ r.shiftReg.getLsbD 0 = false)

end Signals

end Regs

/-- The bytes that are not replaced while they wait. -/
def nextQueue (i : Inputs) (r : Regs debounceBits watchdogBits) (queue : List Byte) : List Byte :=
  if i.obfSetI then (if r.waiting then queue.dropLast else queue) ++ [i.dataI] else queue

/-- The bits of a frame on the data line, at the falling edges of the clock. -/
def nextCarried (r : Regs debounceBits watchdogBits) (carried : List Bool) : List Bool :=
  if r.sends then carried ++ if r.ps2ClkFall then [r.ps2DataOut] else [] else []

/-- The frames that have ended, with their bits unless the watchdog has aborted them. -/
def nextEnded (r : Regs debounceBits watchdogBits) (carried : List Bool)
    (ended : List (Option (List Bool))) : List (Option (List Bool)) :=
  ended ++
    if r.writing && !r.nextWriting then [if r.aborts then none else some (nextCarried r carried)]
    else []

section Histories

variable (inputs : Nat → Inputs) (s : Regs debounceBits watchdogBits)

def queue : Nat → List Byte
  | 0 => []
  | n + 1 => nextQueue (inputs n) (cycle inputs s n) (queue n)

def carried : Nat → List Bool
  | 0 => []
  | n + 1 => nextCarried (cycle inputs s n) (carried n)

def ended : Nat → List (Option (List Bool))
  | 0 => []
  | n + 1 => nextEnded (cycle inputs s n) (carried inputs s n) (ended n)

/-- The bytes that the host has presented. -/
def presented : Nat → List Byte
  | 0 => []
  | n + 1 => presented n ++ if (inputs n).obfSetI then [(inputs n).dataI] else []

/-- The bytes that it has presented while `obf_o` was low. -/
def promised : Nat → List Byte
  | 0 => []
  | n + 1 =>
      promised n ++
        if (inputs n).obfSetI && !(cycle inputs s n).obfO then [(inputs n).dataI] else []

/-- The last byte has been presented while `obf_o` was low. -/
def lastPromised : Nat → Bool
  | 0 => false
  | n + 1 => if (inputs n).obfSetI then !(cycle inputs s n).obfO else lastPromised n

/-- A byte is presented over a promised one that waits. -/
def Overwrites (n : Nat) : Prop :=
  (inputs n).obfSetI = true ∧ (cycle inputs s n).waiting = true ∧ lastPromised inputs s n = true

end Histories

instance (inputs : Nat → Inputs) (s : Regs debounceBits watchdogBits) (n : Nat) :
    Decidable (Overwrites inputs s n) :=
  inferInstanceAs (Decidable (_ ∧ _))

/-- The bits of a whole frame: behind the parity the line is let go until the device
acknowledges. -/
def PutOnLine (byte : Byte) (bits : List Bool) : Prop :=
  ∃ k, 11 ≤ k ∧ bits = (List.range k).map (frameBit byte)

/-- Bytes and their frames. -/
def Frames : List Byte → List (Option (List Bool)) → Prop :=
  List.Forall₂ fun byte frame => ∀ bits ∈ frame, PutOnLine byte bits

/-- Every promised byte has its frame, in order, and no frame is without a byte: those that have
ended, with the bits of the byte unless the watchdog has aborted them, the one that is under way,
and the one of the byte that waits. -/
def Delivers (inputs : Nat → Inputs) (s : Regs debounceBits watchdogBits) (n : Nat) : Prop :=
  ∃ served coming : List Byte,
    (promised inputs s n).Sublist (served ++ coming) ∧
    (served ++ coming).Sublist (presented inputs n) ∧
    Frames served (ended inputs s n) ∧
    coming.length = (if (cycle inputs s n).writing then 1 else 0) +
      if (cycle inputs s n).obfSet && (cycle inputs s n).state ≠ .writeRequest then 1 else 0

/-- Behind a cycle in which the module is idle both lines are let go. -/
def Releases (inputs : Nat → Inputs) (s : Regs debounceBits watchdogBits) (n : Nat) : Prop :=
  (cycle inputs s n).state = .idle → (cycle inputs s n).writing = false →
    (cycle inputs s (n + 1)).ps2ClkOut = true ∧ (cycle inputs s (n + 1)).ps2DataOut = true

/-! ## What is served -/

/-- The transmitter, by the bytes that wait for it and the frames that have ended. -/
inductive Serving (queue : List Byte) (ended : List (Option (List Bool))) (carried : List Bool)
    (r : Regs debounceBits watchdogBits) : Prop
  | reads (served : List Byte) (writes : r.writing = false) (state : r.state ≠ .writeRequest)
      (frames : Frames served ended) (split : queue = served ++ r.pending)
  | requests (served : List Byte) (byte : Byte) (requested : Requested byte r)
      (frames : Frames served ended) (split : queue = served ++ [byte])
  | sends (served : List Byte) (byte : Byte) (k : Nat) (sending : Sending byte k r)
      (shows : r.ps2ClkFall = true → r.ps2DataOut = frameBit byte k)
      (bits : carried = (List.range k).map (frameBit byte))
      (frames : Frames served ended) (split : queue = served ++ byte :: r.pending)

variable {r : Regs debounceBits watchdogBits} {i : Inputs} {byte : Byte}
  {queued front : List Byte} {frames : List (Option (List Bool))} {bits : List Bool}

/-- Outside the request a byte waits only in the register. -/
theorem pending_step (state : r.state ≠ .writeRequest) :
    (r.step i).pending = if i.obfSetI then [i.dataI] else r.pending := by
  unfold pending
  cases write : i.obfSetI with
  | true => simp [Regs.step, write]
  | false => simp [Regs.step, write, state]

theorem nextQueue_pending (state : r.state ≠ .writeRequest) :
    nextQueue i r (front ++ r.pending) = front ++ (r.step i).pending := by
  rw [pending_step state, nextQueue]
  cases write : i.obfSetI with
  | false => rfl
  | true =>
      rw [if_pos rfl, if_pos rfl]
      unfold waiting pending
      cases full : r.obfSet with
      | true => simp [state]
      | false => simp [state]

/-- The request is entered from idle, with a byte. -/
theorem nextState_ne (state : r.state ≠ .writeRequest)
    (accepts : r.state = .idle → r.obfSet = false) :
    r.nextState ≠ .writeRequest := by
  unfold nextState
  cases now : r.state with
  | idle =>
      rw [accepts now]
      cases r.ps2ClkFall <;> simp
  | writeRequest => exact absurd now state
  | start => cases r.wdtCao <;> cases r.ps2ClkFall <;> simp
  | data => cases r.wdtCao <;> cases r.ps2ClkFall && r.shiftCao <;> simp
  | parity => cases r.wdtCao <;> cases r.ps2ClkFall <;> simp
  | stop => cases r.writing <;> cases r.acknowledged || r.wdtCao <;> simp

theorem nextWriting_reads (writes : r.writing = false)
    (accepts : r.state = .idle → r.obfSet = false) : r.nextWriting = false := by
  cases now : r.state with
  | idle => simp [nextWriting, now, writes, accepts now]
  | _ => simp [nextWriting, now, writes]

/-- A frame that has not ended. -/
theorem nextEnded_of_writes (goesOn : r.nextWriting = r.writing) :
    nextEnded r bits frames = frames := by
  rw [nextEnded, goesOn, Bool.and_not_self, if_neg Bool.false_ne_true, List.append_nil]

/-- A cycle while nothing is transmitted. -/
theorem Serving.step_reads {served : List Byte} (writes : r.writing = false)
    (state : r.state ≠ .writeRequest) (ok : Frames served frames)
    (split : queued = served ++ r.pending) :
    Serving (nextQueue i r queued) (nextEnded r bits frames) (nextCarried r bits) (r.step i) := by
  have ended' : nextEnded r bits frames = frames := by simp [nextEnded, writes]
  rw [ended', split, nextQueue_pending state]
  by_cases accepts : r.state = .idle ∧ r.obfSet = true
  · obtain ⟨idle, full⟩ := accepts
    have full' : (r.step i).obfSet = true := by simp [Regs.step, full, idle]
    have byte' : (r.step i).pending = [(r.step i).dataIReg] := if_pos full'
    refine .requests served (r.step i).dataIReg ⟨?_, ?_, ?_⟩ ok (by rw [byte'])
    · simp [Regs.step, nextState, idle, full, writes]
    · simp [Regs.step, nextWriting, idle, full]
    · rw [full', if_pos rfl]
  · have empty : r.state = .idle → r.obfSet = false := fun idle =>
      Bool.eq_false_iff.mpr fun full => accepts ⟨idle, full⟩
    exact .reads served (nextWriting_reads writes empty) (nextState_ne state empty) ok rfl

/-- A cycle of the request. -/
theorem Serving.step_requests {served : List Byte} (requested : Requested byte r)
    (ok : Frames served frames) (split : queued = served ++ [byte]) :
    Serving (nextQueue i r queued) (nextEnded r bits frames) (nextCarried r bits) (r.step i) := by
  have state := requested.state
  have ended' : nextEnded r bits frames = frames :=
    nextEnded_of_writes (by simp [nextWriting, state])
  rw [ended', split]
  rcases Bool.eq_false_or_eq_true r.wdtCao with expired | running
  · have behind : (r.step i).pending = if i.obfSetI then [i.dataI] else [] := by
      unfold pending
      cases write : i.obfSetI with
      | true => simp [Regs.step, write]
      | false => simp [Regs.step, write, state]
    refine .sends served byte 0 (requested.expire expired) (fun _ => requested.ps2DataOut) ?_ ok ?_
    · simp [nextCarried, Regs.sends, state]
    · rw [behind, nextQueue, waiting, if_pos state, expired]
      cases i.obfSetI with
      | true => simp
      | false => simp
  · refine .requests served _ (requested.wait running) ok ?_
    rw [nextQueue, waiting, if_pos state, running]
    cases i.obfSetI with
    | true => simp
    | false => simp

/-- An expiry of the watchdog ends a frame. -/
theorem sending_abort {k : Nat} (sending : Sending byte k r) (expired : r.wdtCao = true) :
    (r.step i).state = .idle ∧ (r.step i).writing = false := by
  cases sending with
  | start state _ _ _ => simp [Regs.step, nextState, nextWriting, state, expired]
  | data state _ _ _ _ _ => simp [Regs.step, nextState, nextWriting, state, expired]
  | parity state _ _ _ => simp [Regs.step, nextState, nextWriting, state, expired]
  | stop state writes _ => simp [Regs.step, nextState, nextWriting, state, expired, writes]

/-- No falling edge comes behind another. -/
theorem ps2ClkFall_step (fall : r.ps2ClkFall = true) : (r.step i).ps2ClkFall = false := by
  have state : r.debounceState = .fall := of_decide_eq_true fall
  simp [ps2ClkFall, Regs.step, nextDebounceState, state]

/-- A frame ends with its byte served. -/
theorem nextEnded_of_ends (writes : r.writing = true) (ends : r.nextWriting = false)
    {served : List Byte} (ok : Frames served frames)
    (put : r.aborts = false → PutOnLine byte (nextCarried r bits)) :
    Frames (served ++ [byte]) (nextEnded r bits frames) := by
  rw [nextEnded, writes, ends, Bool.not_false, Bool.and_self, if_pos rfl]
  refine List.rel_append ok (.cons ?_ .nil)
  intro frame isFrame
  cases aborted : r.aborts with
  | true => simp [aborted] at isFrame
  | false =>
      obtain rfl : nextCarried r bits = frame := by simpa [aborted] using isFrame
      exact put aborted

/-- A cycle of a frame. -/
theorem Serving.step_sends {served : List Byte} {k : Nat} (sending : Sending byte k r)
    (shows : r.ps2ClkFall = true → r.ps2DataOut = frameBit byte k)
    (isBits : bits = (List.range k).map (frameBit byte)) (ok : Frames served frames)
    (split : queued = served ++ byte :: r.pending) :
    Serving (nextQueue i r queued) (nextEnded r bits frames) (nextCarried r bits) (r.step i) := by
  have writes := sending.writes
  have state := sending.state_ne
  have queue' : nextQueue i r queued = served ++ byte :: (r.step i).pending := by
    rw [split, ← List.singleton_append, ← List.append_assoc, nextQueue_pending state,
      List.append_assoc, List.singleton_append]
  have carried' : nextCarried r bits =
      (List.range (if r.ps2ClkFall then k + 1 else k)).map (frameBit byte) := by
    rw [nextCarried, Regs.sends, writes, decide_eq_true state, Bool.true_and, if_pos rfl, isBits]
    rcases Bool.eq_false_or_eq_true r.ps2ClkFall with fall | still
    · rw [fall, if_pos rfl, if_pos rfl, shows fall, List.range_succ, List.map_append]
      rfl
    · rw [still, if_neg Bool.false_ne_true, if_neg Bool.false_ne_true, List.append_nil]
  rw [queue']
  by_cases last : r.state = .stop ∧ r.acknowledged = true
  · -- the device acknowledges
    obtain ⟨stop, ack⟩ := last
    have fall : r.ps2ClkFall = true := (Bool.and_eq_true_iff.mp ack).1
    obtain ⟨idle, ends⟩ : (r.step i).state = .idle ∧ (r.step i).writing = false :=
      sending.acknowledge stop ack
    refine .reads (served ++ [byte]) ends (by simp [idle]) ?_ (by simp)
    refine nextEnded_of_ends writes ends ok fun _ => ⟨k + 1, ?_, ?_⟩
    · exact Nat.succ_le_succ (sending.stop_iff.mp stop)
    · rw [carried', fall, if_pos rfl]
  · rcases Bool.eq_false_or_eq_true r.wdtCao with expired | running
    · -- the watchdog aborts the frame
      obtain ⟨idle, ends⟩ : (r.step i).state = .idle ∧ (r.step i).writing = false :=
        sending_abort sending expired
      have aborted : r.aborts = true := by
        rw [aborts, expired, Bool.true_and, Bool.not_eq_true', Bool.eq_false_iff]
        exact fun both => last (by simpa using both)
      refine .reads (served ++ [byte]) ends (by simp [idle]) ?_ (by simp)
      exact nextEnded_of_ends writes ends ok fun other => absurd other (by simp [aborted])
    · -- the frame goes on
      rcases Bool.eq_false_or_eq_true r.ps2ClkFall with fall | still
      · have noAck : r.state = .stop → r.ps2DataSyn = true := by
          intro stop
          cases ack : r.ps2DataSyn with
          | true => rfl
          | false => exact absurd ⟨stop, by simp [acknowledged, fall, ack]⟩ last
        have sending' : Sending byte (k + 1) (r.step i) := sending.fall running fall noAck
        rw [nextEnded_of_writes (sending'.writes.trans writes.symm), carried', fall, if_pos rfl]
        exact .sends served byte (k + 1) sending'
          (fun again => absurd again (by simp [ps2ClkFall_step fall])) rfl ok rfl
      · have sending' : Sending byte k (r.step i) := sending.wait running still
        rw [nextEnded_of_writes (sending'.writes.trans writes.symm), carried', still,
          if_neg Bool.false_ne_true]
        exact .sends served byte k sending' (fun _ => sending.ps2DataOut) rfl ok rfl

/-- **A cycle**, whatever the module does. -/
theorem Serving.step (serving : Serving queued frames bits r) :
    Serving (nextQueue i r queued) (nextEnded r bits frames) (nextCarried r bits) (r.step i) := by
  cases serving with
  | reads served writes state ok split => exact step_reads writes state ok split
  | requests served byte requested ok split => exact step_requests requested ok split
  | sends served byte k sending shows isBits ok split =>
      exact step_sends sending shows isBits ok split

theorem serving_reset (dataOReg : Byte) :
    Serving [] [] [] (reset dataOReg : Regs debounceBits watchdogBits) :=
  .reads [] rfl (fun request => nomatch request) .nil rfl

/-- **What is served at a cycle of a run.** -/
theorem Serving.run {s : Regs debounceBits watchdogBits} (fresh : Serving [] [] [] s)
    (inputs : Nat → Inputs) (n : Nat) :
    Serving (queue inputs s n) (ended inputs s n) (carried inputs s n) (cycle inputs s n) := by
  induction n with
  | zero => exact fresh
  | succ n ih => exact ih.step

/-- What is served, in numbers. -/
theorem Serving.split (serving : Serving queued frames bits r) :
    ∃ served coming, queued = served ++ coming ∧ Frames served frames ∧
      coming.length = (if r.writing then 1 else 0) +
        if r.obfSet && r.state ≠ .writeRequest then 1 else 0 := by
  have count : r.pending.length = if r.obfSet then 1 else 0 := by
    unfold pending
    cases r.obfSet <;> rfl
  cases serving with
  | reads served writes state ok split =>
      exact ⟨served, r.pending, split, ok, by simp [count, writes, state]⟩
  | requests served byte requested ok split =>
      exact ⟨served, [byte], split, ok, by simp [requested.writes, requested.state]⟩
  | sends served byte k sending _ _ ok split =>
      refine ⟨served, byte :: r.pending, split, ok, ?_⟩
      simp [count, sending.writes, sending.state_ne, Nat.add_comm]

/-! ## What is not lost -/

variable {inputs : Nat → Inputs} {s : Regs debounceBits watchdogBits} {n : Nat}

/-- A byte that waits has been presented before. -/
theorem waiting_of_step (noWrite : i.obfSetI = false) (waits : (r.step i).waiting = true) :
    r.waiting = true := by
  by_cases request : r.state = .writeRequest
  · cases expired : r.wdtCao with
    | false => simp [waiting, request, expired]
    | true =>
        have behind : (r.step i).state = .start := by
          simp [Regs.step, nextState, request, expired]
        have empty : (r.step i).obfSet = false := by simp [Regs.step, request, noWrite]
        simp [waiting, behind, empty] at waits
  · cases full : r.obfSet with
    | true => simp [waiting, request, full]
    | false =>
        have empty : (r.step i).obfSet = false := by simp [Regs.step, full, noWrite]
        have behind : (r.step i).state ≠ .writeRequest := nextState_ne request fun _ => full
        simp [waiting, behind, empty] at waits

/-- The queue has the promised bytes, also without the last one if that is not promised, and only
bytes that have been presented. -/
structure Tracks (inputs : Nat → Inputs) (s : Regs debounceBits watchdogBits) (n : Nat) :
    Prop where
  promised : (promised inputs s n).Sublist (queue inputs s n)
  others : (cycle inputs s n).waiting = true → lastPromised inputs s n = false →
    (Ps2.promised inputs s n).Sublist (queue inputs s n).dropLast
  presented : (queue inputs s n).Sublist (presented inputs n)

/-- A cycle in which no byte is presented. -/
theorem Tracks.step_quiet (tracks : Tracks inputs s n) (noWrite : (inputs n).obfSetI = false) :
    Tracks inputs s (n + 1) := by
  have queue' : queue inputs s (n + 1) = queue inputs s n := by simp [queue, nextQueue, noWrite]
  have promised' : Ps2.promised inputs s (n + 1) = Ps2.promised inputs s n := by
    simp [Ps2.promised, noWrite]
  have last' : lastPromised inputs s (n + 1) = lastPromised inputs s n := by
    simp [lastPromised, noWrite]
  have presented' : Ps2.presented inputs (n + 1) = Ps2.presented inputs n := by
    simp [Ps2.presented, noWrite]
  refine ⟨?_, ?_, ?_⟩
  · rw [promised', queue']
    exact tracks.promised
  · rw [promised', queue', last']
    exact fun waits => tracks.others (waiting_of_step noWrite waits)
  · rw [presented', queue']
    exact tracks.presented

/-- A cycle in which a byte is presented, over none that is promised. -/
theorem Tracks.step_write (tracks : Tracks inputs s n) (write : (inputs n).obfSetI = true)
    (kept : ¬ Overwrites inputs s n) : Tracks inputs s (n + 1) := by
  let rest := if (cycle inputs s n).waiting then (queue inputs s n).dropLast else queue inputs s n
  have queue' : queue inputs s (n + 1) = rest ++ [(inputs n).dataI] := by
    simp [queue, nextQueue, write, rest]
  have front : (Ps2.promised inputs s n).Sublist rest := by
    unfold rest
    split
    · next waits =>
        have notPromised : lastPromised inputs s n = false :=
          Bool.eq_false_iff.mpr fun last => kept ⟨write, waits, last⟩
        exact tracks.others waits notPromised
    · exact tracks.promised
  have back : rest.Sublist (queue inputs s n) := by
    unfold rest
    split
    · exact List.dropLast_sublist _
    · exact List.Sublist.refl _
  have dropped : (queue inputs s (n + 1)).dropLast = rest := by rw [queue', List.dropLast_concat]
  refine ⟨?_, fun _ last => ?_, ?_⟩
  · rw [Ps2.promised, queue', write, Bool.true_and]
    refine front.append ?_
    split
    · exact List.Sublist.refl _
    · exact List.nil_sublist _
  · rw [dropped, Ps2.promised]
    rw [lastPromised, write, if_pos rfl] at last
    rw [last, Bool.and_false, if_neg Bool.false_ne_true, List.append_nil]
    exact front
  · rw [queue', Ps2.presented, write, if_pos rfl]
    exact (back.trans tracks.presented).append (List.Sublist.refl _)

/-- **A run without an overwritten byte loses none.** -/
theorem tracks_run (kept : ∀ m < n, ¬ Overwrites inputs s m) : Tracks inputs s n := by
  induction n with
  | zero => exact ⟨List.Sublist.refl _, fun _ _ => List.Sublist.refl _, List.Sublist.refl _⟩
  | succ n ih =>
      have tracks := ih fun m before => kept m (Nat.lt_succ_of_lt before)
      rcases Bool.eq_false_or_eq_true (inputs n).obfSetI with write | quiet
      · exact tracks.step_write write (kept n (Nat.lt_succ_self n))
      · exact tracks.step_quiet quiet

/-! ## The lines behind a frame -/

/-- A frame that ends otherwise than with the data line low lets it go. -/
theorem ps2DataOut_step (kept : ¬ r.LeavesLow) (before : r.writing = false → r.ps2DataOut = true)
    (reads : (r.step i).writing = false) : (r.step i).ps2DataOut = true := by
  have reads' : r.nextWriting = false := reads
  change r.nextPs2DataOut = true
  rcases Bool.eq_false_or_eq_true r.writing with writes | reading
  · have aborted (state : r.state = .data ∨ r.state = .parity) (expired : r.wdtCao = true) :
        r.nextPs2DataOut = true := by
      have out : r.nextPs2DataOut = r.shiftReg.getLsbD 0 := by
        rcases state with state | state <;> simp [nextPs2DataOut, writes, state]
      rw [out]
      exact Bool.of_not_eq_false fun low => kept ⟨writes, expired, .inr ⟨state, low⟩⟩
    cases state : r.state with
    | idle => simp [nextWriting, state, writes] at reads'
    | writeRequest => simp [nextWriting, state, writes] at reads'
    | start =>
        have expired : r.wdtCao = true := by simpa [nextWriting, state, writes] using reads'
        exact absurd ⟨writes, expired, .inl state⟩ kept
    | data => exact aborted (.inl state) (by simpa [nextWriting, state, writes] using reads')
    | parity => exact aborted (.inr state) (by simpa [nextWriting, state, writes] using reads')
    | stop => simp [nextPs2DataOut, writes, state]
  · simp [nextPs2DataOut, reading, before reading]

/-- A frame that is aborted with the data line low leaves it so. -/
theorem leavesLow_step (low : r.LeavesLow) :
    (r.step i).state = .idle ∧ (r.step i).writing = false ∧ (r.step i).ps2DataOut = false := by
  obtain ⟨writes, expired, state | ⟨state | state, bit⟩⟩ := low
  · simp [Regs.step, nextState, nextWriting, nextPs2DataOut, state, expired, writes]
  · simp [Regs.step, nextState, nextWriting, nextPs2DataOut, state, expired, writes, ← bit]
  · simp [Regs.step, nextState, nextWriting, nextPs2DataOut, state, expired, writes, ← bit]

/-- The data line is let go, unless a frame is on it or was aborted with it low. -/
theorem ps2DataOut_run (fresh : s.ps2DataOut = true) (kept : ∀ m, ¬ (cycle inputs s m).LeavesLow)
    (n : Nat) : (cycle inputs s n).writing = false → (cycle inputs s n).ps2DataOut = true := by
  induction n with
  | zero => exact fun _ => fresh
  | succ n ih => exact ps2DataOut_step (kept n) ih

/-- The lines are let go in idle exactly when no frame is aborted with the data line low. -/
theorem releases_iff (fresh : s.ps2DataOut = true) :
    (∀ n, Releases inputs s n) ↔ ∀ n, ¬ (cycle inputs s n).LeavesLow := by
  constructor
  · intro releases n low
    obtain ⟨idle, reads, pulled⟩ : (cycle inputs s (n + 1)).state = .idle ∧
        (cycle inputs s (n + 1)).writing = false ∧
        (cycle inputs s (n + 1)).ps2DataOut = false := leavesLow_step low
    have stays : (cycle inputs s (n + 2)).ps2DataOut = (cycle inputs s (n + 1)).ps2DataOut := by
      have next : (cycle inputs s (n + 2)).ps2DataOut =
          (cycle inputs s (n + 1)).nextPs2DataOut := rfl
      rw [next, nextPs2DataOut, reads, if_neg Bool.false_ne_true]
    have free := (releases (n + 1) idle reads).2
    rw [stays, pulled] at free
    exact Bool.false_ne_true free
  · intro kept n idle reads
    constructor
    · simp [cycle, Regs.step, idle]
    · have free := ps2DataOut_run fresh kept n reads
      simp [cycle, Regs.step, nextPs2DataOut, reads, free]

/-- **Every promised byte is put on the line once and in order, or aborted by the watchdog, in
every run in which none is overwritten while it waits; and in idle both lines are let go in the
runs in which no frame is aborted with the data line low, and in no others.** -/
theorem host_writes (inputs : Nat → Inputs) (dataOReg : Byte) :
    (∀ n, (∀ m < n, ¬ Overwrites inputs (reset dataOReg : Regs debounceBits watchdogBits) m) →
        Delivers inputs (reset dataOReg : Regs debounceBits watchdogBits) n) ∧
      ((∀ n, Releases inputs (reset dataOReg : Regs debounceBits watchdogBits) n) ↔
        ∀ n, ¬ (cycle inputs (reset dataOReg : Regs debounceBits watchdogBits) n).LeavesLow) := by
  refine ⟨fun n kept => ?_, releases_iff rfl⟩
  obtain ⟨served, coming, split, frames, count⟩ := ((serving_reset dataOReg).run inputs n).split
  have tracks := tracks_run kept
  refine ⟨served, coming, ?_, ?_, frames, count⟩
  · rw [← split]
    exact tracks.promised
  · rw [← split]
    exact tracks.presented

theorem host_writes_lightsSet : Delivers lightsSet (reset 0 : Regs 2 4) 250 :=
  (host_writes lightsSet 0).1 250 (by decide +kernel)

/-- A host that presents two bytes, one behind the other. -/
def twoBytes (n : Nat) : Inputs :=
  { released with dataI := if n = 0 then 0xf4 else 0xed, obfSetI := n < 2 }

/-- The first of two bytes is lost, although `obf_o` is low behind it. -/
theorem first_byte_lost :
    ¬ ∀ (inputs : Nat → Inputs) (dataOReg : Byte),
      (∀ n, Delivers inputs (reset dataOReg : Regs 8 8) n) ∧
        ∀ n, Releases inputs (reset dataOReg : Regs 8 8) n := by
  intro claim
  obtain ⟨served, coming, promised, -, frames, count⟩ := (claim twoBytes 0).1 3
  have none : served = [] := List.forall₂_nil_right_iff.mp frames
  have one : coming.length = 1 := count
  have two := promised.length_le
  rw [none, List.nil_append, one] at two
  exact absurd two (by decide)

end OrpsocCores.Ps2
