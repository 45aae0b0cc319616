import OrpsocCores.Ps2.Model

/-!
# Receiving

The main state machine, the shift counter and the shift register are three processes, and
what keeps them together is the number of falling edges of the clock since the receiver
was idle (`Receiving`): it gives the state, the counter, and the bits that have arrived in
the shift register.

A frame of eleven falling edges is received wherever these lie, as long as the watchdog
does not expire between them, and an expiry leaves nothing behind (`frames_received`).
-/

set_option autoImplicit false

namespace OrpsocCores.Ps2

open Regs

variable {debounceBits watchdogBits : Nat}

/-- The data line at the falling edges of the clock before a cycle. -/
def samples (inputs : Nat → Inputs) (s : Regs debounceBits watchdogBits) : Nat → List Bool
  | 0 => []
  | n + 1 =>
      samples inputs s n ++
        if (cycle inputs s n).ps2ClkFall then [(cycle inputs s n).ps2DataSyn] else []

/-- The last bits in the shift register are the samples behind the start bit. -/
def Holds (shiftReg : BitVec 9) (bits : Nat) (samples : List Bool) : Prop :=
  ∀ j < bits, shiftReg.getLsbD (9 - bits + j) = samples.getD (1 + j) false

/-- The receiver, by the samples since it was idle. -/
inductive Receiving (samples : List Bool) (r : Regs debounceBits watchdogBits) : Prop
  | idle (state : r.state = .idle) (count : samples.length = 0)
  | start (state : r.state = .start) (count : samples.length = 1)
  | data (k : Nat) (inByte : k < 8) (state : r.state = .data) (count : samples.length = k + 2)
      (shiftCnt : r.shiftCnt = BitVec.ofNat 3 k) (holds : Holds r.shiftReg (k + 1) samples)
  | parity (state : r.state = .parity) (count : samples.length = 10)
      (holds : Holds r.shiftReg 9 samples)

/-- What a reception leaves alone until it is over. -/
structure Kept (s r : Regs debounceBits watchdogBits) : Prop where
  reads : r.writing = false
  dataO : r.dataO = s.dataO
  ibf : r.ibfO = s.ibfO
  parityErr : r.parityErrO = s.parityErrO
  frameErr : r.frameErrO = s.frameErrO

variable {r s : Regs debounceBits watchdogBits} {i : Inputs} {taken : List Bool}

/-- A shift takes the sample behind those that are held. -/
theorem Holds.shifted {bits : Nat} (holds : Holds r.shiftReg bits taken) (room : bits < 9)
    (count : taken.length = bits + 1) (sample : Bool) :
    Holds (r.shifted sample) (bits + 1) (taken ++ [sample]) := by
  intro j inside
  rcases Nat.lt_or_ge j bits with before | last
  · have place : 9 - (bits + 1) + j + 1 = 9 - bits + j := by omega
    rw [getLsbD_shifted _ _ (by omega), place, holds j before, List.getD_eq_getElem?_getD,
      List.getD_eq_getElem?_getD, List.getElem?_append_left (by omega)]
  · obtain rfl : j = bits := by omega
    have place : 9 - (j + 1) + j = 8 := by omega
    rw [place, getLsbD_shifted_top, List.getD_eq_getElem?_getD,
      List.getElem?_append_right (by omega), show 1 + j - taken.length = 0 by omega]
    rfl

/-! ## A cycle -/

/-- The shift register while nothing is transmitted. -/
theorem nextShiftReg_reads (reads : r.writing = false) (running : r.state ≠ .writeRequest) :
    r.nextShiftReg = if r.shiftInRead then r.shifted r.ps2DataSyn else r.shiftReg := by
  have noLoad : r.shiftLoad = false := by simp [shiftLoad, running]
  have noParity : r.shiftCalcParity = false := by simp [shiftCalcParity, reads]
  simp [nextShiftReg, noLoad, noParity, reads]

/-- A cycle before the end of a frame keeps what the last frames have left. -/
theorem Kept.step (kept : Kept s r) (before : r.state ≠ .stop)
    (noTransmit : r.state = .idle → r.obfSet = false)
    (noExpiry : r.state ≠ .idle → r.wdtCao = false)
    (noClear : i.ibfClrI = false ∧ i.errClrI = false) : Kept s (r.step i) := by
  obtain ⟨reads, dataO, ibf, parityErr, frameErr⟩ := kept
  have notReceived : r.received = false := by simp [received, before]
  refine ⟨?_, ?_, ?_, ?_, ?_⟩
  · change r.nextWriting = false
    cases state : r.state with
    | idle => simp [nextWriting, state, reads, noTransmit state]
    | _ => simp [nextWriting, state, reads]
  · rw [← dataO]
    simp [Regs.dataO, Regs.step, nextDataOReg, before]
  · rw [← ibf]
    simp [ibfO, Regs.step, nextIbf, noClear, notReceived]
  · rw [← parityErr]
    simp [parityErrO, Regs.step, nextParityErr, noClear, notReceived]
  · rw [← frameErr]
    by_cases waits : r.state = .idle
    · simp [frameErrO, Regs.step, nextFrameErr, noClear, waits]
    · simp [frameErrO, Regs.step, nextFrameErr, noClear, noExpiry waits]

theorem Receiving.before_stop (receiving : Receiving taken r) : r.state ≠ .stop := by
  cases receiving with
  | idle state _ => simp [state]
  | start state _ => simp [state]
  | data _ _ state _ _ _ => simp [state]
  | parity state _ _ => simp [state]

theorem Receiving.idle_iff (receiving : Receiving taken r) : r.state = .idle ↔ taken = [] := by
  rw [← List.length_eq_zero_iff]
  cases receiving with
  | idle state count => simp [state, count]
  | start state count => simp [state, count]
  | data k _ state count _ _ => simp [state, count]
  | parity state count _ => simp [state, count]

/-- A cycle without a falling edge. -/
theorem Receiving.wait (receiving : Receiving taken r) (reads : r.writing = false)
    (noTransmit : taken = [] → r.obfSet = false) (noExpiry : taken ≠ [] → r.wdtCao = false)
    (still : r.ps2ClkFall = false) : Receiving taken (r.step i) := by
  have keeps : r.state ≠ .writeRequest → (r.step i).shiftReg = r.shiftReg := by
    intro running
    simp [Regs.step, nextShiftReg_reads reads running, shiftInRead, still]
  cases receiving with
  | idle state count =>
      have quiet := noTransmit (List.length_eq_zero_iff.mp count)
      exact .idle (by simp [Regs.step, nextState, state, quiet, still]) count
  | start state count =>
      have running := noExpiry (List.ne_nil_of_length_eq_add_one count)
      exact .start (by simp [Regs.step, nextState, state, running, still]) count
  | data k inByte state count shiftCnt holds =>
      have running := noExpiry (List.ne_nil_of_length_eq_add_one count)
      refine .data k inByte ?_ count ?_ (by rwa [keeps (by simp [state])])
      · simp [Regs.step, nextState, state, running, still]
      · simp [Regs.step, nextShiftCnt, state, still, shiftCnt]
  | parity state count holds =>
      have running := noExpiry (List.ne_nil_of_length_eq_add_one count)
      refine .parity ?_ count (by rwa [keeps (by simp [state])])
      simp [Regs.step, nextState, state, running, still]

/-- A falling edge before the last one. -/
theorem Receiving.fall (receiving : Receiving taken r) (reads : r.writing = false)
    (noTransmit : taken = [] → r.obfSet = false) (noExpiry : taken ≠ [] → r.wdtCao = false)
    (fall : r.ps2ClkFall = true) (more : taken.length < 10) :
    Receiving (taken ++ [r.ps2DataSyn]) (r.step i) := by
  have shifts : r.state = .start ∨ r.state = .data →
      (r.step i).shiftReg = r.shifted r.ps2DataSyn := by
    rintro (state | state)
    · simp [Regs.step, nextShiftReg_reads reads (by simp [state]), shiftInRead, fall, state]
    · simp [Regs.step, nextShiftReg_reads reads (by simp [state]), shiftInRead, fall, state]
  have longer : (taken ++ [r.ps2DataSyn]).length = taken.length + 1 := List.length_append
  cases receiving with
  | idle state count =>
      have quiet := noTransmit (List.length_eq_zero_iff.mp count)
      exact .start (by simp [Regs.step, nextState, state, quiet, fall]) (by omega)
  | start state count =>
      have running := noExpiry (List.ne_nil_of_length_eq_add_one count)
      have none : Holds r.shiftReg 0 taken := fun j inside => absurd inside (Nat.not_lt_zero j)
      refine .data 0 (by omega) ?_ (by omega) ?_ ?_
      · simp [Regs.step, nextState, state, running, fall]
      · simp [Regs.step, nextShiftCnt, state]
      · rw [shifts (.inl state)]
        exact none.shifted (by omega) count r.ps2DataSyn
  | data k inByte state count shiftCnt holds =>
      have running := noExpiry (List.ne_nil_of_length_eq_add_one count)
      have held : Holds (r.step i).shiftReg (k + 2) (taken ++ [r.ps2DataSyn]) := by
        rw [shifts (.inr state)]
        exact holds.shifted (by omega) count r.ps2DataSyn
      have cao := shiftCao_eq r inByte shiftCnt
      rcases Nat.lt_or_ge k 7 with inside | last
      · refine .data (k + 1) (by omega) ?_ (by omega) ?_ held
        · simp [Regs.step, nextState, state, running, fall, cao, Nat.ne_of_lt inside]
        · simp [Regs.step, nextShiftCnt, state, fall, shiftCnt, BitVec.ofNat_add]
      · obtain rfl : k = 7 := by omega
        exact .parity (by simp [Regs.step, nextState, state, running, fall, cao]) (by omega) held
  | parity state count holds => omega

/-! ## A frame -/

/-- The bits of a frame. -/
def frame (startBit : Bool) (byte : Byte) (parityBit stopBit : Bool) : List Bool :=
  startBit :: (List.range 8).map byte.getLsbD ++ [parityBit, stopBit]

/-- A run that begins without a transmission and leaves the flags alone. -/
structure Listens (inputs : Nat → Inputs) (s : Regs debounceBits watchdogBits) (n : Nat) :
    Prop where
  idle : s.state = .idle
  reads : s.writing = false
  noTransmit : ∀ m < n, samples inputs s m = [] → (cycle inputs s m).obfSet = false
  noClear : ∀ m < n, (inputs m).ibfClrI = false ∧ (inputs m).errClrI = false

/-- The watchdog does not expire behind the first falling edge. -/
def Runs (inputs : Nat → Inputs) (s : Regs debounceBits watchdogBits) (n : Nat) : Prop :=
  ∀ m < n, samples inputs s m ≠ [] → (cycle inputs s m).wdtCao = false

variable {inputs : Nat → Inputs} {n : Nat} {byte : Byte} {parityBit : Bool}

theorem Listens.le {m : Nat} (listens : Listens inputs s n) (before : m ≤ n) :
    Listens inputs s m :=
  ⟨listens.idle, listens.reads,
    fun k inside => listens.noTransmit k (Nat.lt_of_lt_of_le inside before),
    fun k inside => listens.noClear k (Nat.lt_of_lt_of_le inside before)⟩

theorem Runs.le {m : Nat} (runs : Runs inputs s n) (before : m ≤ n) : Runs inputs s m :=
  fun k inside => runs k (Nat.lt_of_lt_of_le inside before)

/-- **A run before the last falling edge.** -/
theorem Listens.receiving (listens : Listens inputs s n) (runs : Runs inputs s n)
    (before : (samples inputs s n).length ≤ 10) :
    Receiving (samples inputs s n) (cycle inputs s n) ∧ Kept s (cycle inputs s n) := by
  induction n with
  | zero => exact ⟨.idle listens.idle rfl, listens.reads, rfl, rfl, rfl, rfl⟩
  | succ n ih =>
      rw [samples] at before ⊢
      have shorter : (samples inputs s n).length ≤ 10 := by
        rw [List.length_append] at before
        omega
      obtain ⟨receiving, kept⟩ := ih (listens.le (Nat.le_succ n)) (runs.le (Nat.le_succ n)) shorter
      have noTransmit := listens.noTransmit n (Nat.lt_succ_self n)
      have noExpiry := runs n (Nat.lt_succ_self n)
      constructor
      · rcases Bool.eq_false_or_eq_true (cycle inputs s n).ps2ClkFall with fall | still
        · rw [fall, if_pos rfl] at before ⊢
          rw [List.length_append, List.length_singleton] at before
          exact receiving.fall kept.reads noTransmit noExpiry fall (by omega)
        · rw [still, if_neg Bool.false_ne_true, List.append_nil]
          exact receiving.wait kept.reads noTransmit noExpiry still
      · exact kept.step receiving.before_stop
          (fun idle => noTransmit (receiving.idle_iff.mp idle))
          (fun busy => noExpiry (fun empty => busy (receiving.idle_iff.mpr empty)))
          (listens.noClear n (Nat.lt_succ_self n))

/-- What a frame leaves: the byte, and a flag by its parity. -/
structure Received (s : Regs debounceBits watchdogBits) (byte : Byte) (parityBit : Bool)
    (r : Regs debounceBits watchdogBits) : Prop where
  idle : r.state = .idle
  reads : r.writing = false
  dataO : r.dataO = byte
  odd : (reduceXor byte ^^ parityBit) = true → r.ibfO = true ∧ r.parityErrO = s.parityErrO
  even : (reduceXor byte ^^ parityBit) = false → r.parityErrO = true ∧ r.ibfO = s.ibfO

/-- The cycle behind the last falling edge. -/
theorem received_of_stop (kept : Kept s r) (state : r.state = .stop)
    (shiftByte : r.shiftByte = byte)
    (msb : r.shiftReg.msb = parityBit) (noClear : i.ibfClrI = false ∧ i.errClrI = false) :
    Received s byte parityBit (r.step i) := by
  obtain ⟨reads, -, ibf, parityErr, -⟩ := kept
  have received : r.received = true := by simp [Regs.received, reads, state]
  have parity : r.shiftParity = reduceXor byte := by rw [shiftParity, shiftByte]
  refine ⟨?_, ?_, ?_, ?_, ?_⟩
  · simp [Regs.step, nextState, state, reads]
  · simp [Regs.step, nextWriting, state, reads]
  · simp [dataO, Regs.step, nextDataOReg, state, reads, shiftByte]
  · intro odd
    have right : parityBit = !reduceXor byte := by
      revert odd
      cases reduceXor byte <;> cases parityBit <;> simp
    constructor
    · simp [ibfO, Regs.step, nextIbf, noClear, received, msb, parity, right]
    · rw [← parityErr]
      simp [parityErrO, Regs.step, nextParityErr, noClear, msb, parity, right]
  · intro even
    have wrong : parityBit = reduceXor byte := by
      revert even
      cases reduceXor byte <;> cases parityBit <;> simp
    constructor
    · simp [parityErrO, Regs.step, nextParityErr, noClear, received, msb, parity, wrong]
    · rw [← ibf]
      simp [ibfO, Regs.step, nextIbf, noClear, msb, parity, wrong]

/-- The samples of a frame in the shift register are its byte and its parity bit. -/
theorem Holds.frame {startBit stopBit last : Bool} (holds : Holds r.shiftReg 9 taken)
    (isFrame : taken ++ [last] = frame startBit byte parityBit stopBit) :
    r.shiftByte = byte ∧ r.shiftReg.msb = parityBit := by
  have split : Ps2.frame startBit byte parityBit stopBit =
      (startBit :: (List.range 8).map byte.getLsbD ++ [parityBit]) ++ [stopBit] := by
    simp [Ps2.frame]
  obtain ⟨rfl, -⟩ := List.append_inj' (isFrame.trans split) rfl
  constructor
  · apply BitVec.eq_of_getLsbD_eq
    intro j inside
    have bit := holds j (by omega)
    rw [Nat.sub_self, Nat.zero_add, Nat.add_comm 1 j, List.cons_append, List.getD_cons_succ,
      List.getD_eq_getElem?_getD, List.getElem?_append_left (by simpa using inside)] at bit
    rw [getLsbD_shiftByte _ inside, bit]
    simp [inside]
  · exact holds 8 (by omega)

/-- The frames of a run are received. -/
def Receives (inputs : Nat → Inputs) (s : Regs debounceBits watchdogBits) : Prop :=
  ∀ (n : Nat) (startBit : Bool) (byte : Byte) (parityBit stopBit : Bool),
    Listens inputs s (n + 2) → Runs inputs s (n + 1) → (cycle inputs s n).ps2ClkFall = true →
      samples inputs s (n + 1) = frame startBit byte parityBit stopBit →
        Received s byte parityBit (cycle inputs s (n + 2))

/-- **A run to the end of a frame.** -/
theorem receives (inputs : Nat → Inputs) (s : Regs debounceBits watchdogBits) :
    Receives inputs s := by
  intro n startBit byte parityBit stopBit listens runs fall isFrame
  rw [samples, fall, if_pos rfl] at isFrame
  have count : (samples inputs s n).length = 10 := by
    have lengths := congrArg List.length isFrame
    simpa [frame] using lengths
  obtain ⟨receiving, kept⟩ := (listens.le (Nat.le_add_right n 2)).receiving
    (runs.le (Nat.le_succ n)) (Nat.le_of_eq count)
  have running : (cycle inputs s n).wdtCao = false :=
    runs n (Nat.lt_succ_self n) (List.ne_nil_of_length_eq_add_one count)
  obtain ⟨state, holds⟩ : (cycle inputs s n).state = .parity ∧
      Holds (cycle inputs s n).shiftReg 9 (samples inputs s n) := by
    cases receiving with
    | idle _ none => omega
    | start _ one => omega
    | data k inByte _ some _ _ => omega
    | parity state _ holds => exact ⟨state, holds⟩
  obtain ⟨shiftByte, msb⟩ := holds.frame isFrame
  have kept' : Kept s (cycle inputs s (n + 1)) :=
    kept.step (by simp [state]) (by simp [state]) (fun _ => running) (listens.noClear n (by omega))
  have state' : (cycle inputs s (n + 1)).state = .stop := by
    simp [cycle, Regs.step, nextState, state, running, fall]
  have keeps : (cycle inputs s (n + 1)).shiftReg = (cycle inputs s n).shiftReg := by
    simp [cycle, Regs.step, nextShiftReg_reads kept.reads (by simp [state]), shiftInRead, state]
  refine received_of_stop kept' state' ?_ ?_ (listens.noClear (n + 1) (by omega))
  · rw [Regs.shiftByte, keeps]
    exact shiftByte
  · rw [keeps]
    exact msb

/-- What an expiry of the watchdog within a frame leaves: an error, and a receiver that is idle. -/
structure Aborted (inputs : Nat → Inputs) (s r : Regs debounceBits watchdogBits) : Prop where
  idle : r.state = .idle
  reads : r.writing = false
  frameErr : r.frameErrO = true
  dataO : r.dataO = s.dataO
  ibf : r.ibfO = s.ibfO
  next : Receives inputs r

/-- **Every frame that begins in idle is received unless the watchdog expires within it, and an
expiry, at whichever edge, leaves the receiver ready for the next frame.** -/
theorem frames_received (inputs : Nat → Inputs) (s : Regs debounceBits watchdogBits) :
    Receives inputs s ∧
      ∀ n, Listens inputs s (n + 1) → Runs inputs s n → (cycle inputs s n).wdtCao = true →
        1 ≤ (samples inputs s n).length → (samples inputs s n).length ≤ 10 →
          Aborted (fun m => inputs (n + 1 + m)) s (cycle inputs s (n + 1)) := by
  refine ⟨receives inputs s, ?_⟩
  intro n listens runs expired begun inFrame
  obtain ⟨receiving, kept⟩ := (listens.le (Nat.le_succ n)).receiving runs inFrame
  have noClear := listens.noClear n (Nat.lt_succ_self n)
  have within : (cycle inputs s n).state = .start ∨ (cycle inputs s n).state = .data ∨
      (cycle inputs s n).state = .parity := by
    cases receiving with
    | idle _ none => omega
    | start state _ => exact .inl state
    | data _ _ state _ _ _ => exact .inr (.inl state)
    | parity state _ _ => exact .inr (.inr state)
  obtain ⟨reads, dataO, ibf, -, -⟩ := kept
  have next : ∀ (inputs : Nat → Inputs) (r : Regs debounceBits watchdogBits), Receives inputs r :=
    receives
  rcases within with state | state | state
  all_goals
    refine ⟨?_, ?_, ?_, ?_, ?_, next _ _⟩
    · simp [cycle, Regs.step, nextState, state, expired]
    · simp [cycle, Regs.step, nextWriting, state, reads]
    · simp [cycle, frameErrO, Regs.step, nextFrameErr, state, expired, noClear]
    · rw [← dataO]
      simp [cycle, Regs.dataO, Regs.step, nextDataOReg, state]
    · rw [← ibf]
      simp [cycle, ibfO, Regs.step, nextIbf, Regs.received, state, noClear]

/-- A keyboard that sends a scan code, with a clock of sixteen cycles. -/
def keyPressed (n : Nat) : Inputs where
  ps2Clk := n / 8 % 2 = 0
  ps2Data := (frame false 0x1c false true).getD ((n / 8 - 1) / 2) true
  dataI := 0
  ibfClrI := false
  obfSetI := false
  errClrI := false

theorem frames_received_keyPressed :
    Received (reset 0 : Regs 2 8) 0x1c false (cycle keyPressed (reset 0) 173) ∧
      Aborted (fun m => keyPressed (19 + m)) (reset 0 : Regs 2 2)
        (cycle keyPressed (reset 0) 19) :=
  ⟨(frames_received keyPressed (reset 0)).1 171 false 0x1c false true
      ⟨rfl, rfl, by decide +kernel, by decide +kernel⟩ (by unfold Runs; decide +kernel)
      (by decide +kernel) (by decide +kernel),
    (frames_received keyPressed (reset 0)).2 18 ⟨rfl, rfl, by decide +kernel, by decide +kernel⟩
      (by unfold Runs; decide +kernel) (by decide +kernel) (by decide +kernel) (by decide +kernel)⟩

end OrpsocCores.Ps2
