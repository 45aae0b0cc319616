import OrpsocCores.Ps2.Receive

/-!
# What a PS/2 port tells its host

`Port` is the receiving side as a host may think of it: the bits of the frame that has begun,
the last byte, and the three flags.  A frame is eleven bits, and it is whole one cycle before
the host sees it.  A frame begins when nothing is transmitted and nothing waits to be, and it
is dropped when the watchdog expires.

`host_sees_port`: in every run from a reset, whatever the device puts on the lines and the host
on the ports, the main state machine, the shift register, its counter and the flags of
`ps2.v` do what the port does.  A transmission leaves the receiving side as it is, except for
`frame_err`, which it shares.
-/

set_option autoImplicit false

namespace OrpsocCores.Ps2

open Regs

/-! ## The port -/

/-- The byte of a frame. -/
def frameByte (bits : List Bool) : Byte :=
  (BitVec.ofBoolListLE ((List.range 8).map fun j => bits.getD (1 + j) false)).setWidth 8

/-- The byte of a frame and its parity bit have an odd number of ones. -/
def oddParity (bits : List Bool) : Bool := reduceXor (frameByte bits) ^^ bits.getD 9 false

/-- The receiving side of a port. -/
structure Port where
  taken : List Bool
  dataO : Byte
  ibf : Bool
  parityErr : Bool
  frameErr : Bool
  deriving DecidableEq

/-- What a cycle has for the receiving side. -/
structure Event where
  /-- The data line, at a falling edge of the clock. -/
  sample : Option Bool
  expired : Bool
  /-- A transmission waits or runs. -/
  transmits : Bool
  /-- A transmission is within its frame. -/
  transmitsFrame : Bool
  ibfClrI : Bool
  errClrI : Bool

namespace Port

variable (p : Port) (e : Event)

/-- A frame has ended in the cycle before. -/
def whole : Bool := p.taken.length = 11

/-- A frame has begun, and not ended. -/
def inFrame : Bool := p.taken ≠ [] ∧ p.taken.length ≠ 11

def nextTaken : List Bool :=
  if p.whole then []
  else if p.taken = [] then if e.transmits then [] else e.sample.toList
  else if e.expired then []
  else p.taken ++ e.sample.toList

def step : Port where
  taken := p.nextTaken e
  dataO := if p.whole then frameByte p.taken else p.dataO
  ibf := if e.ibfClrI then false else if p.whole && oddParity p.taken then true else p.ibf
  parityErr :=
    if e.errClrI then false else if p.whole && !oddParity p.taken then true else p.parityErr
  frameErr :=
    if e.errClrI then false
    else if (p.inFrame || e.transmitsFrame) && e.expired then true
    else p.frameErr

end Port

/-! ## The registers behind it -/

section Registers

variable {debounceBits watchdogBits : Nat} (r : Regs debounceBits watchdogBits)

/-- The state is one of those that the watchdog guards. -/
def Regs.inFrame : Bool := r.state = .start || r.state = .data || r.state = .parity

/-- What a cycle of `ps2.v` has for the receiving side. -/
def Regs.event (i : Inputs) : Event where
  sample := if r.ps2ClkFall then some r.ps2DataSyn else none
  expired := r.wdtCao
  transmits := r.obfSet || r.writing
  transmitsFrame := r.writing && r.inFrame
  ibfClrI := i.ibfClrI
  errClrI := i.errClrI

/-- The main state machine is where the bits of a frame have brought it. -/
inductive At (taken : List Bool) : Prop
  | receiving (reads : r.writing = false) (receiving : Receiving taken r)
  | stop (reads : r.writing = false) (state : r.state = .stop) (count : taken.length = 11)
      (holds : Holds r.shiftReg 9 taken)
  | transmitting (writes : r.writing = true) (state : r.state ≠ .idle) (none : taken = [])

/-- The registers are those of a port. -/
structure Follows (p : Port) : Prop where
  machine : At r p.taken
  dataO : r.dataO = p.dataO
  ibf : r.ibfO = p.ibf
  parityErr : r.parityErrO = p.parityErr
  frameErr : r.frameErrO = p.frameErr

end Registers

variable {debounceBits watchdogBits : Nat} {r : Regs debounceBits watchdogBits} {i : Inputs}
  {p : Port} {taken : List Bool}

/-! ## The state machine -/

theorem Holds.frameByte (holds : Holds r.shiftReg 9 taken) :
    r.shiftByte = frameByte taken ∧ r.shiftReg.msb = taken.getD 9 false := by
  constructor
  · apply BitVec.eq_of_getLsbD_eq
    intro j inside
    rw [getLsbD_shiftByte _ inside, Ps2.frameByte, BitVec.getLsbD_setWidth,
      BitVec.getLsbD_ofBoolListLE, decide_eq_true inside, Bool.true_and]
    have bit := holds j (by omega)
    rw [Nat.sub_self, Nat.zero_add] at bit
    rw [bit, List.getD_eq_getElem?_getD (l := (List.range 8).map _)]
    simp [inside]
  · exact holds 8 (by omega)

/-- A transmission goes on, or leaves the state machine idle. -/
theorem transmitting_step (writes : r.writing = true) (busy : r.state ≠ .idle) :
    r.nextWriting = true ∧ r.nextState ≠ .idle ∨
      r.nextWriting = false ∧ r.nextState = .idle := by
  cases state : r.state with
  | idle => exact absurd state busy
  | writeRequest =>
      cases expired : r.wdtCao <;> simp [nextWriting, nextState, state, writes, expired]
  | start | parity =>
      cases expired : r.wdtCao <;> cases fall : r.ps2ClkFall <;>
        simp [nextWriting, nextState, state, writes, expired, fall]
  | data =>
      cases expired : r.wdtCao <;> cases last : r.ps2ClkFall && r.shiftCao <;>
        simp [nextWriting, nextState, state, writes, expired, last]
  | stop =>
      cases ends : r.acknowledged || r.wdtCao <;>
        simp [nextWriting, nextState, state, writes, ends]

theorem Receiving.length_le (receiving : Receiving taken r) : taken.length ≤ 10 := by
  cases receiving with
  | idle _ count | start _ count | parity _ count _ => omega
  | data k inByte _ count _ _ => omega

theorem Receiving.inFrame_eq (receiving : Receiving taken r) :
    r.inFrame = decide (taken ≠ []) := by
  cases receiving with
  | idle state count => simp [Regs.inFrame, state, List.length_eq_zero_iff.mp count]
  | start state count | parity state count _ =>
      simp [Regs.inFrame, state, List.ne_nil_of_length_eq_add_one count]
  | data _ _ state count _ _ =>
      simp [Regs.inFrame, state, List.ne_nil_of_length_eq_add_one count]

theorem whole_iff : p.whole = true ↔ p.taken.length = 11 := decide_eq_true_iff

theorem reads_step (reads : r.writing = false) (noTransmit : r.state = .idle → r.obfSet = false) :
    (r.step i).writing = false := by
  show r.nextWriting = false
  cases state : r.state with
  | idle => simp [nextWriting, state, reads, noTransmit state]
  | _ => simp [nextWriting, state, reads]

/-- The watchdog expires within a frame. -/
theorem Receiving.expire (receiving : Receiving taken r) (begun : taken ≠ [])
    (expired : r.wdtCao = true) : (r.step i).state = .idle := by
  show r.nextState = .idle
  cases receiving with
  | idle state count => exact absurd (List.length_eq_zero_iff.mp count) begun
  | start state _ | data _ _ state _ _ _ | parity state _ _ => simp [nextState, state, expired]

/-- The last falling edge of a frame. -/
theorem Receiving.last (receiving : Receiving taken r) (reads : r.writing = false)
    (running : r.wdtCao = false) (fall : r.ps2ClkFall = true) (count : taken.length = 10)
    (sample : Bool) :
    (r.step i).state = .stop ∧ Holds (r.step i).shiftReg 9 (taken ++ [sample]) := by
  cases receiving with
  | idle _ none | start _ none => omega
  | data k inByte _ some _ _ => omega
  | parity state _ holds =>
      have keeps : (r.step i).shiftReg = r.shiftReg := by
        simp [Regs.step, nextShiftReg_reads reads (by simp [state]), shiftInRead, state]
      refine ⟨by simp [Regs.step, nextState, state, running, fall], ?_⟩
      rw [keeps]
      intro j inside
      rw [holds j inside, List.getD_eq_getElem?_getD, List.getD_eq_getElem?_getD,
        List.getElem?_append_left (by omega)]

theorem Receiving.next_idle (receiving : Receiving p.taken r) (reads : r.writing = false)
    (none : p.taken = []) : At (r.step i) (p.nextTaken (r.event i)) := by
  have state := receiving.idle_iff.mpr none
  have notWhole : ¬ p.whole = true := by simp [Port.whole, none]
  rw [Port.nextTaken, if_neg notWhole, if_pos none]
  cases obfSet : r.obfSet with
  | true =>
      rw [if_pos (by simp [event, obfSet])]
      exact .transmitting (by simp [Regs.step, nextWriting, state, obfSet])
        (by simp [Regs.step, nextState, state, reads, obfSet]) rfl
  | false =>
      rw [if_neg (by simp [event, obfSet, reads])]
      refine .receiving (reads_step reads fun _ => obfSet) ?_
      rw [none] at receiving
      cases fall : r.ps2ClkFall with
      | true =>
          simpa [event, fall] using
            receiving.fall reads (fun _ => obfSet) (absurd rfl) fall (by decide)
      | false =>
          simpa [event, fall] using receiving.wait reads (fun _ => obfSet) (absurd rfl) fall

theorem Receiving.next_inFrame (receiving : Receiving p.taken r) (reads : r.writing = false)
    (begun : p.taken ≠ []) : At (r.step i) (p.nextTaken (r.event i)) := by
  have short := receiving.length_le
  have notWhole : ¬ p.whole = true := by rw [whole_iff]; omega
  have busy : r.state = .idle → r.obfSet = false :=
    fun idle => absurd (receiving.idle_iff.mp idle) begun
  have reads' : (r.step i).writing = false := reads_step reads busy
  rw [Port.nextTaken, if_neg notWhole, if_neg begun]
  cases expired : r.wdtCao with
  | true =>
      rw [if_pos (by simp [event, expired])]
      exact .receiving reads' (.idle (receiving.expire begun expired) rfl)
  | false =>
      rw [if_neg (by simp [event, expired])]
      have noTransmit : p.taken = [] → r.obfSet = false := fun none => absurd none begun
      cases fall : r.ps2ClkFall with
      | false =>
          refine .receiving reads' ?_
          simpa [event, fall] using receiving.wait reads noTransmit (fun _ => expired) fall
      | true =>
          simp only [event, fall, if_true, Option.toList_some]
          obtain more | all : p.taken.length < 10 ∨ p.taken.length = 10 := by omega
          case inl =>
            exact .receiving reads' (receiving.fall reads noTransmit (fun _ => expired) fall more)
          case inr =>
            obtain ⟨state, holds⟩ := receiving.last (i := i) reads expired fall all r.ps2DataSyn
            exact .stop reads' state (by simp [all]) holds

/-- **A cycle takes the state machine where the port says.** -/
theorem At.step (machine : At r p.taken) : At (r.step i) (p.nextTaken (r.event i)) := by
  cases machine with
  | receiving reads receiving =>
      by_cases none : p.taken = []
      case pos => exact receiving.next_idle reads none
      case neg => exact receiving.next_inFrame reads none
  | stop reads state count holds =>
      rw [Port.nextTaken, if_pos (whole_iff.mpr count)]
      refine .receiving (reads_step reads ?_) (.idle ?_ rfl)
      · simp [state]
      · simp [Regs.step, nextState, state, reads]
  | transmitting writes busy none =>
      have notWhole : ¬ p.whole = true := by simp [Port.whole, none]
      rw [Port.nextTaken, if_neg notWhole, if_pos none, if_pos (by simp [event, writes])]
      rcases transmitting_step writes busy with ⟨goesOn, state⟩ | ⟨ends, state⟩
      · exact .transmitting goesOn state rfl
      · exact .receiving ends (.idle state rfl)

/-! ## The outputs -/

theorem At.received_eq (machine : At r p.taken) : r.received = p.whole := by
  cases machine with
  | receiving reads receiving =>
      have short := receiving.length_le
      have notWhole : ¬ p.taken.length = 11 := by omega
      simp [Regs.received, Port.whole, receiving.before_stop, notWhole]
  | stop reads state count _ => simp [Regs.received, Port.whole, reads, state, count]
  | transmitting writes _ none => simp [Regs.received, Port.whole, writes, none]

theorem At.inFrame_eq (machine : At r p.taken) :
    r.inFrame = (p.inFrame || r.writing && r.inFrame) := by
  cases machine with
  | receiving reads receiving =>
      have short := receiving.length_le
      have notWhole : ¬ p.taken.length = 11 := by omega
      simp [Port.inFrame, receiving.inFrame_eq, reads, notWhole]
  | stop reads state count _ => simp [Port.inFrame, Regs.inFrame, reads, state, count]
  | transmitting writes _ none => simp [Port.inFrame, writes, none]

/-- What the shift register holds at the end of a frame. -/
theorem At.frame (machine : At r p.taken) (whole : p.whole = true) :
    r.shiftByte = frameByte p.taken ∧
      (r.shiftReg.msb = !r.shiftParity ↔ oddParity p.taken = true) := by
  have count := whole_iff.mp whole
  cases machine with
  | receiving _ receiving =>
      have short := receiving.length_le
      omega
  | transmitting _ _ none => simp [none] at count
  | stop _ _ _ holds =>
      obtain ⟨shiftByte, msb⟩ := holds.frameByte
      refine ⟨shiftByte, ?_⟩
      rw [shiftParity, shiftByte, msb, oddParity]
      cases reduceXor (frameByte p.taken) <;> cases p.taken.getD 9 false <;> decide

theorem nextDataOReg_eq : r.nextDataOReg = if r.received then r.shiftByte else r.dataO := by
  by_cases stop : r.state = .stop ∧ r.writing = false
  case pos => simp [nextDataOReg, Regs.received, stop]
  case neg =>
    have none : r.received = false := by
      rw [Regs.received]
      cases writes : r.writing <;> simp_all
    rw [nextDataOReg, if_neg stop, none]
    rfl

/-- **A cycle of the registers is one of the port.** -/
theorem Follows.step (follows : Follows r p) : Follows (r.step i) (p.step (r.event i)) := by
  obtain ⟨machine, dataO, ibf, parityErr, frameErr⟩ := follows
  have received := machine.received_eq
  refine ⟨machine.step, ?_, ?_, ?_, ?_⟩
  · show r.nextDataOReg = if p.whole then frameByte p.taken else p.dataO
    rw [nextDataOReg_eq, received, dataO]
    cases whole : p.whole with
    | true => rw [(machine.frame whole).1]
    | false => rfl
  · show r.nextIbf i = _
    rw [nextIbf, received, Port.step]
    cases whole : p.whole with
    | true => simp [event, (machine.frame whole).2, ← ibf, ibfO]
    | false => simp [event, ← ibf, ibfO]
  · show r.nextParityErr i = _
    rw [nextParityErr, received, Port.step]
    cases whole : p.whole with
    | true => simp [event, (machine.frame whole).2, ← parityErr, parityErrO]
    | false => simp [event, ← parityErr, parityErrO]
  · show r.nextFrameErr i = _
    have guarded : (r.state = .start || r.state = .data || r.state = .parity) =
        (p.inFrame || r.writing && r.inFrame) := machine.inFrame_eq
    rw [nextFrameErr, guarded, ← Regs.frameErrO, frameErr]
    rfl

/-! ## Runs -/

/-- The port in a run. -/
def port (inputs : Nat → Inputs) (s : Regs debounceBits watchdogBits) (p : Port) : Nat → Port
  | 0 => p
  | n + 1 => (port inputs s p n).step ((cycle inputs s n).event (inputs n))

/-- A port after a reset. -/
def Port.reset (dataO : Byte) : Port := ⟨[], dataO, false, false, false⟩

theorem follows_reset (dataO : Byte) :
    Follows (reset dataO : Regs debounceBits watchdogBits) (Port.reset dataO) :=
  ⟨.receiving rfl (.idle rfl rfl), rfl, rfl, rfl, rfl⟩

theorem Follows.run {s : Regs debounceBits watchdogBits} (follows : Follows s p)
    (inputs : Nat → Inputs) (n : Nat) : Follows (cycle inputs s n) (port inputs s p n) := by
  induction n with
  | zero => exact follows
  | succ n ih => exact ih.step

/-- **The host sees a port**, at every cycle of every run from a reset. -/
theorem host_sees_port (inputs : Nat → Inputs) (dataO : Byte) (n : Nat) :
    let r := cycle inputs (reset dataO : Regs debounceBits watchdogBits) n
    let p := port inputs (reset dataO : Regs debounceBits watchdogBits) (.reset dataO) n
    r.dataO = p.dataO ∧ r.ibfO = p.ibf ∧ r.parityErrO = p.parityErr ∧
      r.frameErrO = p.frameErr := by
  intro r p
  obtain ⟨_, dataO, ibf, parityErr, frameErr⟩ : Follows r p := (follows_reset dataO).run inputs n
  exact ⟨dataO, ibf, parityErr, frameErr⟩

end OrpsocCores.Ps2
