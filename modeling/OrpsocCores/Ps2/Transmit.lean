import OrpsocCores.Ps2.Receive

/-!
# Transmitting

To transmit a byte, the module pulls the clock line until the watchdog expires, and then
lets the device make the clock.  As in a reception, the number of falling edges behind
that expiry gives the state, the counter and what is left in the shift register
(`Sending`).

The watchdog is not restarted when the module begins to pull.  It may expire before the
debouncer has reported the falling edge of that very pull, and the edge is then counted
as the first one of the device.  Without such an edge, the data line carries the bits of
the frame, one between any two edges of the device (`transmits`).
-/

set_option autoImplicit false

namespace OrpsocCores.Ps2

open Regs

variable {debounceBits watchdogBits : Nat}

/-- A bit of the frame of a byte: the start bit, the byte, its odd parity, and the line let go. -/
def frameBit (byte : Byte) (k : Nat) : Bool :=
  (frame false byte (!reduceXor byte) true).getD k true

section FrameBit

variable {byte : Byte} {j k : Nat}

theorem frameBit_start : frameBit byte 0 = false := rfl

theorem frameBit_data (inside : j < 8) : frameBit byte (1 + j) = byte.getLsbD j := by
  rw [frameBit, frame, Nat.add_comm, List.cons_append, List.getD_cons_succ,
    List.getD_eq_getElem?_getD, List.getElem?_append_left (by simpa using inside)]
  simp [inside]

theorem frameBit_parity : frameBit byte 9 = !reduceXor byte := by
  simp [frameBit, frame]

theorem frameBit_stop (behind : 10 ≤ k) : frameBit byte k = true := by
  rcases Nat.lt_or_ge k 11 with stop | later
  · obtain rfl : k = 10 := by omega
    simp [frameBit, frame]
  · have count : (frame false byte (!reduceXor byte) true).length ≤ k := by
      simpa [frame] using later
    rw [frameBit, List.getD_eq_getElem?_getD, List.getElem?_eq_none count]
    rfl

end FrameBit

variable {r s : Regs debounceBits watchdogBits} {i : Inputs} {byte : Byte} {k : Nat}

/-! ## A cycle of a transmission -/

/-- The shift register holds the bits of the frame from one on. -/
def Loaded (byte : Byte) (k : Nat) (shiftReg : BitVec 9) : Prop :=
  ∀ j < 9, shiftReg.getLsbD j = frameBit byte (k + j)

/-- The transmitter with a byte in the state of a request. -/
structure Requested (byte : Byte) (r : Regs debounceBits watchdogBits) : Prop where
  state : r.state = .writeRequest
  writes : r.writing = true
  byte : if r.obfSet then r.dataIReg = byte else r.shiftByte = byte

/-- The transmitter, by the falling edges since the request. -/
inductive Sending (byte : Byte) (k : Nat) (r : Regs debounceBits watchdogBits) : Prop
  | start (state : r.state = .start) (writes : r.writing = true) (count : k = 0)
      (byte : r.shiftByte = byte)
  | data (state : r.state = .data) (writes : r.writing = true) (first : 1 ≤ k) (last : k ≤ 8)
      (shiftCnt : r.shiftCnt = BitVec.ofNat 3 (k - 1)) (loaded : Loaded byte k r.shiftReg)
  | parity (state : r.state = .parity) (writes : r.writing = true) (count : k = 9)
      (loaded : Loaded byte k r.shiftReg)
  | stop (state : r.state = .stop) (writes : r.writing = true) (behind : 10 ≤ k)

theorem Sending.writes (sending : Sending byte k r) : r.writing = true := by
  cases sending <;> assumption

theorem Sending.state_ne (sending : Sending byte k r) : r.state ≠ .writeRequest := by
  cases sending with
  | start state _ _ _ => simp [state]
  | data state _ _ _ _ _ => simp [state]
  | parity state _ _ _ => simp [state]
  | stop state _ _ => simp [state]

/-- Shifts bring the bits of the frame, one by one. -/
theorem Loaded.shifted (loaded : Loaded byte k r.shiftReg) (first : 1 ≤ k) :
    Loaded byte (k + 1) (r.shifted true) := by
  intro j inside
  rcases Nat.lt_or_ge j 8 with before | last
  · rw [getLsbD_shifted _ _ before, loaded (j + 1) (by omega)]
    congr 1
    omega
  · obtain rfl : j = 8 := by omega
    rw [getLsbD_shifted_top, frameBit_stop (by omega)]

/-- The byte with its parity is the frame behind the start bit. -/
theorem loaded_of_parity (shiftByte : r.shiftByte = byte) :
    Loaded byte 1 (BitVec.cons (!r.shiftParity) r.shiftByte) := by
  intro j inside
  rw [BitVec.getLsbD_cons]
  rcases Nat.lt_or_ge j 8 with before | last
  · rw [if_neg (Nat.ne_of_lt before), shiftByte, frameBit_data before]
  · obtain rfl : j = 8 := by omega
    rw [if_pos rfl, shiftParity, shiftByte, frameBit_parity]

/-- **What a transmitter puts on the data line.** -/
theorem Sending.ps2DataOut (sending : Sending byte k r) :
    (r.step i).ps2DataOut = frameBit byte k := by
  cases sending with
  | start state writes count _ =>
      subst count
      simp [Regs.step, nextPs2DataOut, writes, state, frameBit_start]
  | data state writes _ _ _ loaded =>
      have out : (r.step i).ps2DataOut = r.shiftReg.getLsbD 0 := by
        simp [Regs.step, nextPs2DataOut, writes, state]
      rw [out, loaded 0 (by omega), Nat.add_zero]
  | parity state writes _ loaded =>
      have out : (r.step i).ps2DataOut = r.shiftReg.getLsbD 0 := by
        simp [Regs.step, nextPs2DataOut, writes, state]
      rw [out, loaded 0 (by omega), Nat.add_zero]
  | stop state writes behind =>
      rw [frameBit_stop behind]
      simp [Regs.step, nextPs2DataOut, writes, state]

/-- A cycle of the request loads the byte. -/
theorem Requested.load (requested : Requested byte r) : (r.step i).shiftByte = byte := by
  obtain ⟨state, writes, held⟩ := requested
  have keeps : r.obfSet = false → r.nextShiftReg = r.shiftReg := by
    intro empty
    simp [nextShiftReg, shiftLoad, shiftCalcParity, shiftInWrite, state, writes, empty]
  rcases Bool.eq_false_or_eq_true r.obfSet with full | empty
  · rw [full, if_pos rfl] at held
    simp [shiftByte, Regs.step, nextShiftReg, shiftLoad, state, full, held]
  · rw [empty, if_neg Bool.false_ne_true] at held
    rw [← held, shiftByte, shiftByte]
    exact congrArg _ (keeps empty)

/-- The request goes on until the watchdog expires, with the byte that is presented last. -/
theorem Requested.wait (requested : Requested byte r) (running : r.wdtCao = false) :
    Requested (if i.obfSetI then i.dataI else byte) (r.step i) := by
  have loaded : (r.step i).shiftByte = byte := requested.load
  obtain ⟨state, writes, -⟩ := requested
  have again : (r.step i).obfSet = i.obfSetI := by simp [Regs.step, state]
  refine ⟨?_, ?_, ?_⟩
  · simp [Regs.step, nextState, state, running]
  · simp [Regs.step, nextWriting, state, writes]
  · rw [again]
    split
    · next write => simp [Regs.step, write]
    · exact loaded

/-- The expiry of the watchdog ends the request. -/
theorem Requested.expire (requested : Requested byte r) (expired : r.wdtCao = true) :
    Sending byte 0 (r.step i) := by
  have loaded : (r.step i).shiftByte = byte := requested.load
  obtain ⟨state, writes, -⟩ := requested
  refine .start ?_ ?_ rfl loaded
  · simp [Regs.step, nextState, state, expired]
  · simp [Regs.step, nextWriting, state, writes]

/-- The start bit is on the data line from the request on. -/
theorem Requested.ps2DataOut (requested : Requested byte r) : (r.step i).ps2DataOut = false := by
  simp [Regs.step, nextPs2DataOut, requested.state, requested.writes]

/-- The shift register behind the start bit of a transmission. -/
theorem nextShiftReg_writes (writes : r.writing = true) (running : r.state ≠ .writeRequest)
    (behind : r.state ≠ .start) :
    r.nextShiftReg = if r.shiftInWrite then r.shifted true else r.shiftReg := by
  have noLoad : r.shiftLoad = false := by simp [shiftLoad, running]
  have noParity : r.shiftCalcParity = false := by simp [shiftCalcParity, behind]
  simp [nextShiftReg, noLoad, noParity, writes]

/-- In the state of the start bit the parity is put in front of the byte. -/
theorem shiftReg_start (state : r.state = .start) (writes : r.writing = true) :
    (r.step i).shiftReg = BitVec.cons (!r.shiftParity) r.shiftByte := by
  simp [Regs.step, nextShiftReg, shiftLoad, shiftCalcParity, state, writes]

/-- A cycle of a transmission without a falling edge. -/
theorem Sending.wait (sending : Sending byte k r) (running : r.wdtCao = false)
    (still : r.ps2ClkFall = false) : Sending byte k (r.step i) := by
  have writes := sending.writes
  have keeps : r.state ≠ .start → (r.step i).shiftReg = r.shiftReg := by
    intro behind
    simp [Regs.step, nextShiftReg_writes writes sending.state_ne behind, shiftInWrite, still]
  cases sending with
  | start state _ count byte =>
      refine .start ?_ ?_ count ?_
      · simp [Regs.step, nextState, state, running, still]
      · simp [Regs.step, nextWriting, state, running, writes]
      · rw [← byte]
        apply BitVec.eq_of_getLsbD_eq
        intro j inside
        rw [getLsbD_shiftByte _ inside, shiftReg_start state writes, BitVec.getLsbD_cons,
          if_neg (Nat.ne_of_lt inside)]
  | data state _ first last shiftCnt loaded =>
      refine .data ?_ ?_ first last ?_ (by rwa [keeps (by simp [state])])
      · simp [Regs.step, nextState, state, running, still]
      · simp [Regs.step, nextWriting, state, running, writes]
      · simp [Regs.step, nextShiftCnt, state, still, shiftCnt]
  | parity state _ count loaded =>
      refine .parity ?_ ?_ count (by rwa [keeps (by simp [state])])
      · simp [Regs.step, nextState, state, running, still]
      · simp [Regs.step, nextWriting, state, running, writes]
  | stop state _ behind =>
      refine .stop ?_ ?_ behind
      · simp [Regs.step, nextState, state, running, still, writes, acknowledged]
      · simp [Regs.step, nextWriting, state, running, still, writes, acknowledged]

/-- A falling edge that the device does not acknowledge with. -/
theorem Sending.fall (sending : Sending byte k r) (running : r.wdtCao = false)
    (fall : r.ps2ClkFall = true) (noAck : r.state = .stop → r.ps2DataSyn = true) :
    Sending byte (k + 1) (r.step i) := by
  have writes := sending.writes
  have shifts : r.state = .data ∨ r.state = .parity →
      (r.step i).shiftReg = r.shifted true := by
    rintro (state | state)
    · simp [Regs.step, nextShiftReg_writes writes sending.state_ne, shiftInWrite, fall, state]
    · simp [Regs.step, nextShiftReg_writes writes sending.state_ne, shiftInWrite, fall, state]
  cases sending with
  | start state _ count byte =>
      subst count
      refine .data ?_ ?_ (by omega) (by omega) ?_ ?_
      · simp [Regs.step, nextState, state, running, fall]
      · simp [Regs.step, nextWriting, state, running, writes]
      · simp [Regs.step, nextShiftCnt, state]
      · rw [shiftReg_start state writes]
        exact loaded_of_parity byte
  | data state _ first last shiftCnt loaded =>
      have writes' : (r.step i).writing = true := by
        simp [Regs.step, nextWriting, state, running, writes]
      have cao := shiftCao_eq r (show k - 1 < 8 by omega) shiftCnt
      have loaded' : Loaded byte (k + 1) (r.step i).shiftReg := by
        rw [shifts (.inl state)]
        exact loaded.shifted first
      rcases Nat.lt_or_ge k 8 with inside | final
      · have notFull : k - 1 ≠ 7 := by omega
        refine .data ?_ writes' (by omega) (by omega) ?_ loaded'
        · simp [Regs.step, nextState, state, running, fall, cao, notFull]
        · have next : k + 1 - 1 = k - 1 + 1 := by omega
          simp [Regs.step, nextShiftCnt, state, fall, shiftCnt, next, BitVec.ofNat_add]
      · obtain rfl : k = 8 := by omega
        refine .parity ?_ writes' rfl loaded'
        simp [Regs.step, nextState, state, running, fall, cao]
  | parity state _ count loaded =>
      refine .stop ?_ ?_ (by omega)
      · simp [Regs.step, nextState, state, running, fall]
      · simp [Regs.step, nextWriting, state, running, writes]
  | stop state _ behind =>
      have more := noAck state
      refine .stop ?_ ?_ (by omega)
      · simp [Regs.step, nextState, state, running, writes, more, acknowledged]
      · simp [Regs.step, nextWriting, state, running, writes, more, acknowledged]

theorem Sending.stop_iff (sending : Sending byte k r) : r.state = .stop ↔ 10 ≤ k := by
  cases sending with
  | start state _ count _ => simp [state, count]
  | data state _ _ last _ _ =>
      simp [state]
      omega
  | parity state _ count _ => simp [state, count]
  | stop state _ behind => simp [state, behind]

/-- The falling edge that the device acknowledges with. -/
theorem Sending.acknowledge (sending : Sending byte k r) (state : r.state = .stop)
    (ack : r.acknowledged = true) : (r.step i).state = .idle ∧ (r.step i).writing = false := by
  constructor
  · simp [Regs.step, nextState, state, ack, sending.writes]
  · simp [Regs.step, nextWriting, state, ack]

/-! ## The falling edges of the clock -/

variable {inputs : Nat → Inputs} {n : Nat}

/-- What the debouncer has seen in front of a falling edge. -/
theorem fall_cause (fall : (r.step i).ps2ClkFall = true) :
    r.debounceState = .stable ∧ r.ps2ClkClean = true ∧ r.ps2ClkSyn = false := by
  have next : r.nextDebounceState = .fall := of_decide_eq_true fall
  unfold nextDebounceState at next
  cases state : r.debounceState with
  | stable =>
      rw [state] at next
      cases syn : r.ps2ClkSyn with
      | false =>
          cases clean : r.ps2ClkClean with
          | false => simp [syn, clean] at next
          | true => exact ⟨rfl, rfl, rfl⟩
      | true => cases clean : r.ps2ClkClean <;> simp [syn, clean] at next
  | waitStable =>
      rw [state] at next
      cases cao : r.debounceCao <;> simp [cao] at next
  | rise => simp [state] at next
  | fall => simp [state] at next

/-- A falling edge reports a line that was low three cycles before. -/
theorem line_low_of_fall (fall : (cycle inputs s (n + 3)).ps2ClkFall = true) :
    (cycle inputs s n).ps2ClkIo (inputs n) = false :=
  (fall_cause fall).2.2

/-- The debouncer lets the clean clock be while it waits. -/
theorem ps2ClkClean_step (quiet : r.debounceState = .waitStable ∨ r.debounceState = .stable) :
    (r.step i).ps2ClkClean = r.ps2ClkClean := by
  rcases quiet with state | state
  · simp [Regs.step, nextPs2ClkClean, state]
  · simp [Regs.step, nextPs2ClkClean, state]

/-- The debouncer reports no falling edge in the four cycles behind one. -/
theorem fall_apart {f m : Nat} (fall : (cycle inputs s f).ps2ClkFall = true) (behind : f < m)
    (fall' : (cycle inputs s m).ps2ClkFall = true) : f + 4 < m := by
  have isFall : (cycle inputs s f).debounceState = .fall := of_decide_eq_true fall
  have waits : (cycle inputs s (f + 1)).debounceState = .waitStable := by
    simp [cycle, Regs.step, nextDebounceState, isFall]
  have waits' : (cycle inputs s (f + 2)).debounceState = .waitStable ∨
      (cycle inputs s (f + 2)).debounceState = .stable := by
    have next : (cycle inputs s (f + 2)).debounceState =
        (cycle inputs s (f + 1)).nextDebounceState := rfl
    rw [next, nextDebounceState, waits]
    cases (cycle inputs s (f + 1)).debounceCao with
    | true => exact .inr rfl
    | false => exact .inl rfl
  have clean₁ : (cycle inputs s (f + 1)).ps2ClkClean = false := by
    simp [cycle, Regs.step, nextPs2ClkClean, isFall]
  have clean₂ : (cycle inputs s (f + 2)).ps2ClkClean = false :=
    (ps2ClkClean_step (.inl waits)).trans clean₁
  have clean₃ : (cycle inputs s (f + 3)).ps2ClkClean = false :=
    (ps2ClkClean_step waits').trans clean₂
  -- an edge needs a clean clock that is high in the cycle before
  have edge : ∀ k, (cycle inputs s (k + 1)).ps2ClkFall = true →
      (cycle inputs s k).ps2ClkClean = true :=
    fun k fall => (fall_cause fall).2.1
  refine Nat.lt_of_not_le fun near => ?_
  obtain rfl | rfl | rfl | rfl : m = f + 1 ∨ m = f + 2 ∨ m = f + 3 ∨ m = f + 4 := by omega
  · simp [ps2ClkFall, waits] at fall'
  · exact absurd (edge (f + 1) fall') (by simp [clean₁])
  · exact absurd (edge (f + 2) fall') (by simp [clean₂])
  · exact absurd (edge (f + 3) fall') (by simp [clean₃])

/-- A falling edge that the device makes: it pulls the line in the cycle that the edge reports. -/
def deviceFall (inputs : Nat → Inputs) (s : Regs debounceBits watchdogBits) (n : Nat) : Bool :=
  (cycle inputs s n).ps2ClkFall && !(inputs (n - 3)).ps2Clk

/-- The number of the device's falling edges behind one cycle and before another. -/
def deviceFalls (inputs : Nat → Inputs) (s : Regs debounceBits watchdogBits) (c : Nat) : Nat → Nat
  | 0 => 0
  | n + 1 => deviceFalls inputs s c n + if c < n ∧ deviceFall inputs s n then 1 else 0

/-- The module's own pull of the clock is reported behind the request, as if the device had
begun. -/
def OwnFall (inputs : Nat → Inputs) (s : Regs debounceBits watchdogBits) (n : Nat) : Prop :=
  (cycle inputs s n).state = .start ∧ (cycle inputs s n).writing = true ∧
    (cycle inputs s n).ps2ClkFall = true ∧ (inputs (n - 3)).ps2Clk = true

instance (inputs : Nat → Inputs) (s : Regs debounceBits watchdogBits) (n : Nat) :
    Decidable (OwnFall inputs s n) :=
  inferInstanceAs (Decidable (_ ∧ _))

theorem deviceFalls_mono {c m : Nat} (before : m ≤ n) :
    deviceFalls inputs s c m ≤ deviceFalls inputs s c n := by
  induction before with
  | refl => exact Nat.le_refl _
  | step _ ih => exact Nat.le_trans ih (Nat.le_add_right _ _)

theorem deviceFalls_eq_zero {c : Nat} (before : n ≤ c + 1) : deviceFalls inputs s c n = 0 := by
  induction n with
  | zero => rfl
  | succ n ih => rw [deviceFalls, ih (by omega), if_neg (by omega)]

theorem exists_deviceFall {c : Nat} (some : 1 ≤ deviceFalls inputs s c n) :
    ∃ f, c < f ∧ f < n ∧ (cycle inputs s f).ps2ClkFall = true := by
  induction n with
  | zero => exact absurd some (Nat.not_succ_le_zero 0)
  | succ n ih =>
      rw [deviceFalls] at some
      by_cases here : c < n ∧ deviceFall inputs s n
      · exact ⟨n, here.1, Nat.lt_succ_self n, (Bool.and_eq_true_iff.mp here.2).1⟩
      · rw [if_neg here] at some
        obtain ⟨f, behind, before, fall⟩ := ih some
        exact ⟨f, behind, Nat.lt_succ_of_lt before, fall⟩

/-! ## The run of a transmission -/

/-- A run in which a byte is accepted from idle in one cycle, and the watchdog ends the request
in another and does not expire since. -/
structure Transmission (inputs : Nat → Inputs) (s : Regs debounceBits watchdogBits) (a c : Nat)
    (byte : Byte) (n : Nat) : Prop where
  idle : (cycle inputs s a).state = .idle
  reads : (cycle inputs s a).writing = false
  pending : (cycle inputs s a).obfSet = true
  byte : (cycle inputs s a).dataIReg = byte
  noWrite : ∀ m ≤ n, a ≤ m → (inputs m).obfSetI = false
  request : a < c
  pulls : ∀ m < c, a < m → (cycle inputs s m).wdtCao = false
  expires : (cycle inputs s c).wdtCao = true
  within : ∀ m ≤ n, c < m → (cycle inputs s m).wdtCao = false

variable {a c : Nat}

/-- The run of the request. -/
theorem Transmission.requested (transmission : Transmission inputs s a c byte n) {m : Nat}
    (behind : a < m) (before : m ≤ c) (inRun : m ≤ n + 1) : Requested byte (cycle inputs s m) := by
  induction behind with
  | refl =>
      have noWrite := transmission.noWrite a (by omega) (Nat.le_refl a)
      have state := transmission.idle
      have pending := transmission.pending
      refine ⟨?_, ?_, ?_⟩
      · simp [cycle, Regs.step, nextState, state, pending, transmission.reads]
      · simp [cycle, Regs.step, nextWriting, state, pending]
      · have full : (cycle inputs s (a + 1)).obfSet = true := by
          simp [cycle, Regs.step, state, pending]
        rw [full, if_pos rfl]
        simp [cycle, Regs.step, noWrite, transmission.byte]
  | @step m behind ih =>
      have behind' : a < m := behind
      have noWrite := transmission.noWrite m (by omega) (by omega)
      have next : Requested (if (inputs m).obfSetI then (inputs m).dataI else byte)
          (cycle inputs s (m + 1)) :=
        (ih (by omega) (by omega)).wait (transmission.pulls m (by omega) behind')
      rwa [noWrite, if_neg Bool.false_ne_true] at next

/-- A falling edge in the midst of a transmission is one of the device. -/
theorem deviceFall_of_fall (later : c < n) (noOwn : ¬ OwnFall inputs s n)
    (sending : Sending byte (deviceFalls inputs s c n) (cycle inputs s n))
    (running : ∀ m, c < m → m < n → (cycle inputs s m).state ≠ .writeRequest)
    (fall : (cycle inputs s n).ps2ClkFall = true) : deviceFall inputs s n = true := by
  rw [deviceFall, fall, Bool.true_and, Bool.not_eq_true']
  rcases Nat.eq_zero_or_pos (deviceFalls inputs s c n) with none | some
  · -- before the first edge the state is that of the start bit
    rw [none] at sending
    have state : (cycle inputs s n).state = .start := by
      cases sending with
      | start state _ _ _ => exact state
      | data _ _ first _ _ _ => omega
      | parity _ _ count _ => omega
      | stop _ _ count => omega
    refine Bool.eq_false_iff.mpr fun released => ?_
    exact noOwn ⟨state, sending.writes, fall, released⟩
  · -- behind it the module has let go of the clock for more than the three cycles
    obtain ⟨f, behind, before, first⟩ := exists_deviceFall some
    have apart := fall_apart first before fall
    obtain ⟨m, rfl⟩ : ∃ m, n = m + 4 := ⟨n - 4, by omega⟩
    have released : (cycle inputs s (m + 1)).ps2ClkOut = true :=
      decide_eq_true (running m (by omega) (by omega))
    have low : (cycle inputs s (m + 1)).ps2ClkIo (inputs (m + 1)) = false := line_low_of_fall fall
    rwa [ps2ClkIo, released, Bool.true_and] at low

/-- **The run behind the request**, until the device acknowledges. -/
theorem Transmission.sending (transmission : Transmission inputs s a c byte n)
    (noOwn : ∀ m ≤ n, c < m → ¬ OwnFall inputs s m) {m : Nat} (behind : c < m)
    (inRun : m ≤ n + 1) (before : deviceFalls inputs s c m ≤ 10) :
    Sending byte (deviceFalls inputs s c m) (cycle inputs s m) := by
  induction m using Nat.strongRecOn with
  | _ m ih =>
      obtain ⟨m, rfl⟩ : ∃ k, m = k + 1 := ⟨m - 1, by omega⟩
      rcases Nat.eq_or_lt_of_le (Nat.le_of_lt_succ behind) with rfl | later
      · rw [deviceFalls_eq_zero (Nat.le_refl _)]
        have requested := transmission.requested transmission.request (Nat.le_refl c) (by omega)
        exact requested.expire transmission.expires
      · have fewer : ∀ k ≤ m, deviceFalls inputs s c k ≤ 10 := fun k inside =>
          Nat.le_trans (deviceFalls_mono (Nat.le_succ_of_le inside)) before
        have sending := ih m (Nat.lt_succ_self m) later (by omega) (fewer m (Nat.le_refl m))
        have running := transmission.within m (by omega) later
        rcases Bool.eq_false_or_eq_true (cycle inputs s m).ps2ClkFall with fall | still
        · have device : deviceFall inputs s m = true :=
            deviceFall_of_fall later (noOwn m (by omega) later) sending
              (fun k behind inside => (ih k (by omega) behind (by omega)
                (fewer k (Nat.le_of_lt inside))).state_ne) fall
          rw [deviceFalls, if_pos ⟨later, device⟩] at before ⊢
          refine sending.fall running fall fun stop => ?_
          have last := sending.stop_iff.mp stop
          omega
        · have noFall : deviceFall inputs s m = false := by rw [deviceFall, still, Bool.false_and]
          rw [deviceFalls, noFall, if_neg (by simp), Nat.add_zero]
          exact sending.wait running still

/-- Between the edges of the device, two cycles behind them, the data line carries the bits of
the frame, and when the device acknowledges the last one the transmitter is idle. -/
structure Transmits (inputs : Nat → Inputs) (s : Regs debounceBits watchdogBits) (a c : Nat)
    (byte : Byte) (n : Nat) : Prop where
  line : a ≤ n → deviceFalls inputs s c (n + 1) ≤ 10 →
    (cycle inputs s (n + 2)).ps2DataIo (inputs (n + 2)) =
      (frameBit byte (deviceFalls inputs s c (n + 1)) && (inputs (n + 2)).ps2Data)
  acknowledged : deviceFalls inputs s c n = 10 → deviceFall inputs s n = true →
    (cycle inputs s n).ps2DataSyn = false →
      (cycle inputs s (n + 1)).state = .idle ∧ (cycle inputs s (n + 1)).writing = false

/-- **A byte that is accepted from idle is transmitted, in every run without an edge of the
module's own pull behind the request.** -/
theorem transmits (transmission : Transmission inputs s a c byte n)
    (noOwn : ∀ m ≤ n, c < m → ¬ OwnFall inputs s m) : Transmits inputs s a c byte n := by
  constructor
  · intro accepted before
    rw [ps2DataIo]
    congr 1
    rcases Nat.lt_or_ge n c with early | late
    · rw [deviceFalls_eq_zero (by omega), frameBit_start]
      exact (transmission.requested (Nat.lt_succ_of_le accepted) early (Nat.le_refl _)).ps2DataOut
    · exact (transmission.sending noOwn (Nat.lt_succ_of_le late) (Nat.le_refl _) before).ps2DataOut
  · intro count device ack
    have later : c < n := by
      refine Nat.lt_of_not_le fun early => ?_
      rw [deviceFalls_eq_zero (by omega)] at count
      omega
    have sending := transmission.sending noOwn later (Nat.le_succ n) (by omega)
    have fall : (cycle inputs s n).ps2ClkFall = true := (Bool.and_eq_true_iff.mp device).1
    exact sending.acknowledge (sending.stop_iff.mpr (Nat.le_of_eq count.symm))
      (by simp [Regs.acknowledged, fall, ack])

/-- A host that sets the lights of a keyboard, which makes a clock of sixteen cycles and
acknowledges. -/
def lightsSet (n : Nat) : Inputs where
  ps2Clk := n < 80 || (n - 80) / 8 % 2 = 1
  ps2Data := n < 235
  dataI := 0xed
  ibfClrI := false
  obfSetI := n = 40
  errClrI := false

theorem transmits_lightsSet :
    Transmits lightsSet (reset 0 : Regs 2 4) 41 71 0xed 131 ∧
      Transmits lightsSet (reset 0 : Regs 2 4) 41 71 0xed 243 :=
  ⟨transmits ⟨by decide +kernel, by decide +kernel, by decide +kernel, by decide +kernel,
      by decide +kernel, by decide, by decide +kernel, by decide +kernel, by decide +kernel⟩
      (by decide +kernel),
    transmits ⟨by decide +kernel, by decide +kernel, by decide +kernel, by decide +kernel,
      by decide +kernel, by decide, by decide +kernel, by decide +kernel, by decide +kernel⟩
      (by decide +kernel)⟩

/-! ## An own edge that is counted -/

/-- Nobody does anything. -/
def released : Inputs := ⟨true, true, 0, false, false, false⟩

/-- The module while nobody does anything, by its timers. -/
def resting (debounceCnt wdtCnt : Nat) : Regs 8 8 :=
  { (reset 0 : Regs 8 8) with
    ps2ClkR := ⟨true, true⟩
    ps2DataR := ⟨true, true⟩
    ps2ClkClean := true
    debounceCnt := BitVec.ofNat 8 debounceCnt
    wdtCnt := BitVec.ofNat 8 wdtCnt }

theorem msb_ofNat {k : Nat} (small : k < 256) : (BitVec.ofNat 8 k).msb = decide (128 ≤ k) := by
  rw [BitVec.msb_eq_decide, BitVec.toNat_ofNat, Nat.mod_eq_of_lt small]

/-- A cycle moves only the timers. -/
theorem resting_step {d w : Nat} (inside : d ≤ 128) (running : w < 128) :
    (resting d w).step released =
      if d < 128 then resting (d + 1) w else resting 0 (w + 1) := by
  have cao : (resting d w).debounceCao = decide (128 ≤ d) := msb_ofNat (by omega)
  have expired : (resting d w).wdtCao = false :=
    (msb_ofNat (by omega)).trans (decide_eq_false (by omega))
  have step : (resting d w).step released =
      { resting d w with
        debounceCnt := if 128 ≤ d then 0 else BitVec.ofNat 8 d + 1
        wdtCnt := if 128 ≤ d then BitVec.ofNat 8 w + 1 else BitVec.ofNat 8 w } := by
    have fall : (resting d w).ps2ClkFall = false := rfl
    have rise : (resting d w).ps2ClkRise = false := rfl
    have reset : (resting d w).wdtRst = false := rfl
    simp only [Regs.step, cao, expired, fall, rise, reset, Bool.or_false, Bool.false_or,
      decide_eq_true_eq, Bool.false_eq_true, if_false]
    rfl
  rw [step]
  by_cases more : d < 128
  · rw [if_pos more, if_neg (by omega), if_neg (by omega), resting, resting, BitVec.ofNat_add]
    rfl
  · rw [if_neg more, if_pos (by omega), if_pos (by omega), resting, resting, BitVec.ofNat_add]
    rfl

theorem cycle_resting {d w k : Nat} (more : d + k ≤ 128) (running : w < 128) :
    cycle (fun _ => released) (resting d w) k = resting (d + k) w := by
  induction k with
  | zero => rfl
  | succ k ih =>
      rw [cycle, ih (by omega), resting_step (by omega) running, if_pos (by omega), Nat.add_assoc]

theorem cycle_periods {w k : Nat} (running : w + k ≤ 128) :
    cycle (fun _ => released) (resting 0 w) (129 * k) = resting 0 (w + k) := by
  induction k with
  | zero => rfl
  | succ k ih =>
      rw [Nat.mul_succ, cycle_add, ih (by omega), show 129 = 128 + 1 from rfl, cycle,
        cycle_resting (by omega) (by omega), resting_step (by omega) (by omega),
        if_neg (by omega), Nat.add_assoc]

/-- Without an edge of the device nothing is counted. -/
theorem deviceFalls_of_released (released : ∀ m, (inputs m).ps2Clk = true) (n : Nat) :
    deviceFalls inputs s c n = 0 := by
  induction n with
  | zero => rfl
  | succ n ih => rw [deviceFalls, ih, deviceFall, released, Bool.not_true, Bool.and_false,
      if_neg (by simp)]

/-- A host that presents a byte two cycles before the watchdog expires. -/
def lateByte (n : Nat) : Inputs :=
  if n = 16514 then { released with dataI := 0x01, obfSetI := true } else released

theorem lateByte_ps2Clk (n : Nat) : (lateByte n).ps2Clk = true := by
  unfold lateByte
  split
  · rfl
  · rfl

theorem cycle_lateByte (k : Nat) :
    cycle lateByte (reset 0) (16514 + k) =
      cycle (fun m => lateByte (16514 + m)) (resting 127 127) k := by
  have before : cycle lateByte (reset 0 : Regs 8 8) 16514 = resting 127 127 := by
    have quiet : ∀ m < 16514, lateByte m = released := fun m early => if_neg (Nat.ne_of_lt early)
    have first : cycle (fun _ => released) (reset 0 : Regs 8 8) 133 = resting 0 1 := by
      decide +kernel
    have rest : (16514 : Nat) = 133 + (129 * 126 + 127) := rfl
    rw [cycle_congr quiet, rest, cycle_add, first, cycle_add, cycle_periods (by decide),
      cycle_resting (by decide) (by decide)]
  rw [cycle_add, before]

/-- The start bit of a byte that is presented shortly before the watchdog expires is gone before
the device has made an edge. -/
theorem own_fall_counted :
    ¬ ∀ (inputs : Nat → Inputs) (a c : Nat) (byte : Byte) (n : Nat),
      Transmission inputs (reset 0 : Regs 8 8) a c byte n →
        Transmits inputs (reset 0 : Regs 8 8) a c byte n := by
  intro claim
  have transmission : Transmission lateByte (reset 0 : Regs 8 8) 16515 16516 0x01 16520 := by
    refine ⟨?_, ?_, ?_, ?_, ?_, by decide, ?_, ?_, ?_⟩
    · rw [cycle_lateByte 1]
      decide +kernel
    · rw [cycle_lateByte 1]
      decide +kernel
    · rw [cycle_lateByte 1]
      decide +kernel
    · rw [cycle_lateByte 1]
      decide +kernel
    · intro m _ late
      rw [lateByte, if_neg (by omega)]
      rfl
    · intro m before behind
      omega
    · rw [cycle_lateByte 2]
      decide +kernel
    · have running : ∀ k ≤ 6, 2 < k →
          (cycle (fun m => lateByte (16514 + m)) (resting 127 127) k).wdtCao = false := by
        decide +kernel
      intro m inRun late
      obtain ⟨k, rfl⟩ : ∃ k, m = 16514 + k := ⟨m - 16514, by omega⟩
      rw [cycle_lateByte]
      exact running k (by omega) (by omega)
  have broken := (claim lateByte 16515 16516 0x01 16520 transmission).line (by decide)
  rw [deviceFalls_of_released lateByte_ps2Clk, cycle_lateByte 8] at broken
  exact absurd (broken (by decide)) (by decide +kernel)

end OrpsocCores.Ps2
