import Mathlib.Algebra.Ring.Nat
import Mathlib.Data.Nat.Find
import OrpsocCores.Foundation.Descent
import OrpsocCores.Ps2.HostWrites

/-!
# A byte that waits is sent

A frame that is received ends with the device's next edges, or with the watchdog, which
needs nothing but time.  Then a byte that waits has the request, and the request ends
with the watchdog, too: while the module pulls the clock there is at most one falling
edge to restart it.

Only a device can keep a byte waiting, with edges behind a frame of the module that it
does not acknowledge.
-/

set_option autoImplicit false

namespace OrpsocCores.Ps2

open Regs

variable {debounceBits watchdogBits : Nat} {inputs : Nat → Inputs}
  {s : Regs debounceBits watchdogBits} {n : Nat}

/-! ## The watchdog -/

/-- A counter whose highest bit is low has room. -/
theorem toNat_add_one {w : Nat} {x : BitVec w} (bits : 0 < w) (low : x.msb = false) :
    (x + 1).toNat = x.toNat + 1 ∧ x.toNat + 1 < 2 ^ w := by
  have half : 2 * x.toNat < 2 ^ w := BitVec.msb_eq_false_iff_two_mul_lt.mp low
  have even : 2 ^ 1 ≤ 2 ^ w := Nat.pow_le_pow_right (by decide) bits
  have room : x.toNat + 1 < 2 ^ w := by omega
  refine ⟨?_, room⟩
  rw [BitVec.toNat_add, BitVec.ofNat_eq_ofNat, BitVec.toNat_ofNat,
    Nat.mod_eq_of_lt (by omega : 1 < 2 ^ w), Nat.mod_eq_of_lt room]

/-- Behind an edge that is reported the debouncer waits for its counter. -/
theorem waitStable_of_edge (edge : (cycle inputs s n).ps2ClkFall = true ∨
      (cycle inputs s n).ps2ClkRise = true)
    (never : ∀ m ≥ n, (cycle inputs s m).debounceCao = false) {m : Nat} (later : n < m) :
    (cycle inputs s m).debounceState = .waitStable := by
  induction later with
  | refl =>
      rcases edge with edge | edge
      · have state : (cycle inputs s n).debounceState = .fall := of_decide_eq_true edge
        simp [cycle, Regs.step, nextDebounceState, state]
      · have state : (cycle inputs s n).debounceState = .rise := of_decide_eq_true edge
        simp [cycle, Regs.step, nextDebounceState, state]
  | @step m later ih =>
      simp [cycle, Regs.step, nextDebounceState, ih, never m (Nat.le_of_lt later)]

/-- The counter of the debouncer runs over and over. -/
theorem exists_debounceCao (bits : 0 < debounceBits) (inputs : Nat → Inputs)
    (s : Regs debounceBits watchdogBits) (n : Nat) :
    ∃ m ≥ n, (cycle inputs s m).debounceCao = true := by
  by_contra none
  have never : ∀ m ≥ n, (cycle inputs s m).debounceCao = false := by
    intro m late
    exact Bool.eq_false_iff.mpr fun carry => none ⟨m, late, carry⟩
  -- from some cycle on no edge is reported
  obtain ⟨k, late, quiet⟩ : ∃ k ≥ n, ∀ m ≥ k,
      (cycle inputs s m).ps2ClkFall = false ∧ (cycle inputs s m).ps2ClkRise = false := by
    by_cases some : ∃ k ≥ n, (cycle inputs s k).ps2ClkFall = true ∨
        (cycle inputs s k).ps2ClkRise = true
    · obtain ⟨k, late, edge⟩ := some
      refine ⟨k + 1, Nat.le_succ_of_le late, fun m later => ?_⟩
      have waits := waitStable_of_edge edge (fun j after => never j (Nat.le_trans late after)) later
      simp [ps2ClkFall, ps2ClkRise, waits]
    · refine ⟨n, Nat.le_refl n, fun m after => ?_⟩
      constructor
      · exact Bool.eq_false_iff.mpr fun edge => some ⟨m, after, .inl edge⟩
      · exact Bool.eq_false_iff.mpr fun edge => some ⟨m, after, .inr edge⟩
  let room := fun m => 2 ^ debounceBits - (cycle inputs s m).debounceCnt.toNat
  have counts : ∀ m ≥ k, room (m + 1) < room m := by
    intro m after
    have low := never m (Nat.le_trans late after)
    have next : (cycle inputs s (m + 1)).debounceCnt = (cycle inputs s m).debounceCnt + 1 := by
      simp [cycle, Regs.step, quiet m after, low]
    obtain ⟨value, inside⟩ := toNat_add_one bits low
    simp only [room, next, value]
    omega
  exact Descent.not_recurring room (fun _ => True) (fun m after => Nat.le_of_lt (counts m after))
    (fun m after _ => counts m after) fun m _ => ⟨m, Nat.le_refl m, trivial⟩

/-- Sooner or later the watchdog expires or a falling edge restarts it. -/
theorem exists_expiry_or_fall (bits : 0 < debounceBits) (dog : 0 < watchdogBits)
    (inputs : Nat → Inputs) (s : Regs debounceBits watchdogBits) (n : Nat) :
    ∃ m ≥ n, (cycle inputs s m).wdtCao = true ∨ (cycle inputs s m).ps2ClkFall = true := by
  by_contra none
  have never : ∀ m ≥ n, (cycle inputs s m).wdtCao = false ∧
      (cycle inputs s m).ps2ClkFall = false := by
    intro m late
    constructor
    · exact Bool.eq_false_iff.mpr fun expired => none ⟨m, late, .inl expired⟩
    · exact Bool.eq_false_iff.mpr fun fall => none ⟨m, late, .inr fall⟩
  have next : ∀ m ≥ n, (cycle inputs s (m + 1)).wdtCnt =
      if (cycle inputs s m).debounceCao then (cycle inputs s m).wdtCnt + 1
      else (cycle inputs s m).wdtCnt := by
    intro m late
    simp [cycle, Regs.step, wdtRst, never m late]
  let room := fun m => 2 ^ watchdogBits - (cycle inputs s m).wdtCnt.toNat
  have counts : ∀ m ≥ n, (cycle inputs s m).debounceCao = true → room (m + 1) < room m := by
    intro m late carry
    obtain ⟨value, inside⟩ := toNat_add_one dog (never m late).1
    simp only [room, next m late, if_pos carry, value]
    omega
  refine Descent.not_recurring room _ (fun m late => ?_) counts
    fun m _ => exists_debounceCao bits inputs s m
  rcases Bool.eq_false_or_eq_true (cycle inputs s m).debounceCao with carry | still
  · exact Nat.le_of_lt (counts m late carry)
  · simp [room, next m late, still]

/-! ## The request -/

/-- While the module pulls the clock the debouncer sees it low, three cycles later. -/
theorem ps2ClkSyn_of_request (request : (cycle inputs s n).state = .writeRequest) :
    (cycle inputs s (n + 3)).ps2ClkSyn = false := by
  have pulled : (cycle inputs s (n + 1)).ps2ClkOut = false := by
    simp [cycle, Regs.step, request]
  have sampled : (cycle inputs s (n + 2)).ps2ClkR.r1 = false := by
    have next : (cycle inputs s (n + 2)).ps2ClkR.r1 =
        (cycle inputs s (n + 1)).ps2ClkIo (inputs (n + 1)) := rfl
    rw [next, ps2ClkIo, pulled, Bool.false_and]
  exact sampled

/-- The debouncer reports no rising edge of a line that it sees low. -/
theorem not_rise (low : (cycle inputs s n).ps2ClkSyn = false) :
    (cycle inputs s (n + 1)).debounceState ≠ .rise := by
  have next : (cycle inputs s (n + 1)).debounceState = (cycle inputs s n).nextDebounceState := rfl
  rw [next]
  unfold nextDebounceState
  cases (cycle inputs s n).debounceState with
  | stable =>
      cases (cycle inputs s n).ps2ClkClean with
      | true => simp [low]
      | false => simp [low]
  | rise => simp
  | fall => simp
  | waitStable =>
      cases (cycle inputs s n).debounceCao with
      | true => simp
      | false => simp

/-- **The request ends.** -/
theorem exists_expiry_of_request (bits : 0 < debounceBits) (dog : 0 < watchdogBits)
    (request : (cycle inputs s n).state = .writeRequest) :
    ∃ m ≥ n, (cycle inputs s m).wdtCao = true ∧
      ∀ k, n ≤ k → k < m → (cycle inputs s k).wdtCao = false := by
  have some : ∃ m ≥ n, (cycle inputs s m).wdtCao = true := by
    by_contra none
    have never : ∀ m ≥ n, (cycle inputs s m).wdtCao = false := by
      intro m late
      exact Bool.eq_false_iff.mpr fun expired => none ⟨m, late, expired⟩
    have requests : ∀ m ≥ n, (cycle inputs s m).state = .writeRequest := by
      intro m late
      induction late with
      | refl => exact request
      | @step m late ih => simp [cycle, Regs.step, nextState, ih, never m late]
    have falls : ∀ m ≥ n, ∃ k ≥ m, (cycle inputs s k).ps2ClkFall = true := by
      intro m late
      obtain ⟨k, after, expired | fall⟩ := exists_expiry_or_fall bits dog inputs s m
      · exact absurd expired (by simp [never k (Nat.le_trans late after)])
      · exact ⟨k, after, fall⟩
    have low : ∀ m ≥ n + 3, (cycle inputs s m).ps2ClkSyn = false := by
      intro m late
      obtain ⟨j, rfl⟩ := Nat.exists_eq_add_of_le' (Nat.le_trans (Nat.le_add_left 3 n) late)
      exact ps2ClkSyn_of_request (requests j (by omega))
    obtain ⟨f, late, fall⟩ := falls (n + 4) (by omega)
    -- no rising edge is reported any more, so that the clean clock stays low behind this one
    have clean : ∀ m > f, (cycle inputs s m).ps2ClkClean = false := by
      intro m later
      induction later with
      | refl =>
          have state : (cycle inputs s f).debounceState = .fall := of_decide_eq_true fall
          simp [cycle, Regs.step, nextPs2ClkClean, state]
      | @step m later ih =>
          have after : f < m := later
          obtain ⟨j, rfl⟩ : ∃ j, m = j + 1 := ⟨m - 1, by omega⟩
          have noRise : (cycle inputs s (j + 1)).debounceState ≠ .rise :=
            not_rise (low j (by omega))
          have next : (cycle inputs s (j + 2)).ps2ClkClean =
              (cycle inputs s (j + 1)).nextPs2ClkClean := rfl
          rw [next]
          unfold nextPs2ClkClean
          cases state : (cycle inputs s (j + 1)).debounceState with
          | rise => exact absurd state noRise
          | fall => rfl
          | stable => exact ih
          | waitStable => exact ih
    obtain ⟨g, later, again⟩ := falls (f + 2) (by omega)
    obtain ⟨h, rfl⟩ := Nat.exists_eq_add_of_le' (Nat.le_trans (Nat.le_add_left 1 (f + 1)) later)
    have high : (cycle inputs s h).ps2ClkClean = true := (fall_cause again).2.1
    rw [clean h (by omega)] at high
    exact Bool.false_ne_true high
  refine ⟨Nat.find some, (Nat.find_spec some).1, (Nat.find_spec some).2, fun k late before => ?_⟩
  exact Bool.eq_false_iff.mpr fun expired => Nat.find_min some before ⟨late, expired⟩

/-! ## A byte in the register -/

/-- Edges that are left of a frame, as far as the state tells. -/
def edgesLeft (r : Regs debounceBits watchdogBits) : Nat :=
  match r.state with
  | .start => 11
  | .data => 10 - r.shiftCnt.toNat
  | .parity => 2
  | .stop => 1
  | .idle | .writeRequest => 0

/-- An edge behind a frame of the module is its acknowledge. -/
def Acknowledges (r : Regs debounceBits watchdogBits) : Prop :=
  r.state = .stop → r.writing = true → r.ps2ClkFall = true → r.acknowledged = true

variable {r : Regs debounceBits watchdogBits} {i : Inputs}

/-- A frame that goes on has no more edges left than before, and fewer behind an edge. -/
theorem edgesLeft_step (acknowledges : Acknowledges r) (idle : r.state ≠ .idle)
    (request : r.state ≠ .writeRequest) (goesOn : (r.step i).state ≠ .idle) :
    r.wdtCao = false ∧ edgesLeft (r.step i) + (if r.ps2ClkFall then 1 else 0) ≤ edgesLeft r := by
  have state' : (r.step i).state = r.nextState := rfl
  have running (expires : r.wdtCao = true → r.nextState = .idle) : r.wdtCao = false :=
    Bool.eq_false_iff.mpr fun expired => goesOn (state'.trans (expires expired))
  cases state : r.state with
  | idle => exact absurd state idle
  | writeRequest => exact absurd state request
  | start =>
      have noExpiry := running fun expired => by simp [nextState, state, expired]
      refine ⟨noExpiry, ?_⟩
      have count : (r.step i).shiftCnt = 0 := by simp [Regs.step, nextShiftCnt, state]
      cases fall : r.ps2ClkFall with
      | true => simp [edgesLeft, state', nextState, state, noExpiry, fall, count]
      | false => simp [edgesLeft, state', nextState, state, noExpiry, fall]
  | data =>
      have noExpiry := running fun expired => by simp [nextState, state, expired]
      refine ⟨noExpiry, ?_⟩
      have bound := r.shiftCnt.isLt
      cases fall : r.ps2ClkFall with
      | false =>
          have count : (r.step i).shiftCnt = r.shiftCnt := by
            simp [Regs.step, nextShiftCnt, state, fall]
          simp [edgesLeft, state', nextState, state, noExpiry, fall, count]
      | true =>
          have count : (r.step i).shiftCnt = r.shiftCnt + 1 := by
            simp [Regs.step, nextShiftCnt, state, fall]
          cases full : r.shiftCao with
          | true =>
              simp [edgesLeft, state', nextState, state, noExpiry, fall, full]
              omega
          | false =>
              have notFull : r.shiftCnt ≠ BitVec.allOnes 3 := of_decide_eq_false full
              have less : r.shiftCnt.toNat ≠ 7 := fun seven => notFull (BitVec.eq_of_toNat_eq seven)
              simp [edgesLeft, state', nextState, state, noExpiry, fall, full, count,
                BitVec.toNat_add]
              omega
  | parity =>
      have noExpiry := running fun expired => by simp [nextState, state, expired]
      refine ⟨noExpiry, ?_⟩
      cases fall : r.ps2ClkFall with
      | true => simp [edgesLeft, state', nextState, state, noExpiry, fall]
      | false => simp [edgesLeft, state', nextState, state, noExpiry, fall]
  | stop =>
      cases writes : r.writing with
      | false => exact absurd (by simp [state', nextState, state, writes]) goesOn
      | true =>
          have noExpiry := running fun expired => by simp [nextState, state, writes, expired]
          cases fall : r.ps2ClkFall with
          | true =>
              have ack := acknowledges state writes fall
              exact absurd (by simp [state', nextState, state, writes, ack]) goesOn
          | false =>
              have noAck : r.acknowledged = false := by simp [acknowledged, fall]
              refine ⟨noExpiry, ?_⟩
              simp [edgesLeft, state', nextState, state, writes, noExpiry, noAck]

/-- Until the module is idle a byte stays in the register. -/
theorem pending_kept (full : (cycle inputs s n).obfSet = true)
    (state : (cycle inputs s n).state ≠ .writeRequest) {m : Nat} (after : n ≤ m)
    (busy : ∀ k, n ≤ k → k < m → (cycle inputs s k).state ≠ .idle) :
    (cycle inputs s m).obfSet = true ∧ (cycle inputs s m).state ≠ .writeRequest := by
  induction after with
  | refl => exact ⟨full, state⟩
  | @step m after ih =>
      obtain ⟨full, state⟩ := ih fun k late before => busy k late (Nat.lt_succ_of_lt before)
      have notIdle := busy m after (Nat.lt_succ_self m)
      refine ⟨by simp [cycle, Regs.step, full, state], ?_⟩
      exact nextState_ne state fun idle => absurd idle notIdle

/-- **A frame ends**, and the module is idle with the byte that waits behind it. -/
theorem exists_idle (bits : 0 < debounceBits) (dog : 0 < watchdogBits)
    (acknowledges : ∀ m ≥ n, Acknowledges (cycle inputs s m))
    (full : (cycle inputs s n).obfSet = true) (state : (cycle inputs s n).state ≠ .writeRequest) :
    ∃ m ≥ n, (cycle inputs s m).state = .idle ∧ (cycle inputs s m).obfSet = true := by
  have some : ∃ m ≥ n, (cycle inputs s m).state = .idle := by
    by_contra none
    have busy : ∀ m ≥ n, (cycle inputs s m).state ≠ .idle :=
      fun m late idle => none ⟨m, late, idle⟩
    have step : ∀ m ≥ n, (cycle inputs s m).wdtCao = false ∧
        edgesLeft (cycle inputs s (m + 1)) + (if (cycle inputs s m).ps2ClkFall then 1 else 0) ≤
          edgesLeft (cycle inputs s m) := by
      intro m late
      have kept := pending_kept full state late fun k after _ => busy k after
      exact edgesLeft_step (acknowledges m late) (busy m late) kept.2
        (busy (m + 1) (Nat.le_succ_of_le late))
    refine Descent.not_recurring (n := n) (fun m => edgesLeft (cycle inputs s m))
      (fun m => (cycle inputs s m).ps2ClkFall = true) (fun m late => ?_) (fun m late fall => ?_)
      fun m late => ?_
    · exact Nat.le_trans (Nat.le_add_right _ _) (step m late).2
    · have fewer := (step m late).2
      rwa [fall, if_pos rfl] at fewer
    · obtain ⟨k, after, expired | fall⟩ := exists_expiry_or_fall bits dog inputs s m
      · exact absurd expired (by simp [(step k (Nat.le_trans late after)).1])
      · exact ⟨k, after, fall⟩
  obtain ⟨late, idle⟩ := Nat.find_spec some
  refine ⟨Nat.find some, late, idle, (pending_kept full state late fun k after before idle' => ?_).1⟩
  exact Nat.find_min some before ⟨after, idle'⟩

/-- Nothing is presented, and the queue stays. -/
theorem queue_kept {m : Nat} (after : n ≤ m)
    (quiet : ∀ k, n ≤ k → k < m → (inputs k).obfSetI = false) :
    queue inputs s m = queue inputs s n := by
  induction after with
  | refl => rfl
  | @step m after ih =>
      rw [queue, nextQueue, quiet m after (Nat.lt_succ_self m), if_neg Bool.false_ne_true]
      exact ih fun k late before => quiet k late (Nat.lt_succ_of_lt before)

/-- An idle module does not transmit. -/
theorem Serving.reads_of_idle {queued : List Byte} {frames : List (Option (List Bool))}
    {bits : List Bool} (serving : Serving queued frames bits r) (idle : r.state = .idle) :
    r.writing = false := by
  cases serving with
  | reads served writes state ok split => exact writes
  | requests served byte requested ok split => exact absurd requested.state (by simp [idle])
  | sends served byte k sending shows isBits ok split =>
      cases sending with
      | start state => exact absurd state (by simp [idle])
      | data state => exact absurd state (by simp [idle])
      | parity state => exact absurd state (by simp [idle])
      | stop state => exact absurd state (by simp [idle])

/-- The request lasts until the watchdog expires. -/
theorem request_lasts (request : (cycle inputs s n).state = .writeRequest) {m : Nat} (after : n ≤ m)
    (running : ∀ k, n ≤ k → k < m → (cycle inputs s k).wdtCao = false) :
    (cycle inputs s m).state = .writeRequest := by
  induction after with
  | refl => exact request
  | @step m after ih =>
      have still := ih fun k late before => running k late (Nat.lt_succ_of_lt before)
      simp [cycle, Regs.step, nextState, still, running m after (Nat.lt_succ_self m)]

/-- A byte that waits has the request. -/
theorem exists_request (bits : 0 < debounceBits) (dog : 0 < watchdogBits)
    (fresh : Serving [] [] [] s) (acknowledges : ∀ m ≥ n, Acknowledges (cycle inputs s m))
    (waits : (cycle inputs s n).waiting = true) :
    ∃ m ≥ n, (cycle inputs s m).state = .writeRequest := by
  by_cases now : (cycle inputs s n).state = .writeRequest
  · exact ⟨n, Nat.le_refl n, now⟩
  · have full : (cycle inputs s n).obfSet = true := by
      rwa [waiting, if_neg now] at waits
    obtain ⟨m, late, idle, full'⟩ := exists_idle bits dog acknowledges full now
    have reads := (fresh.run inputs m).reads_of_idle idle
    refine ⟨m + 1, Nat.le_succ_of_le late, ?_⟩
    simp [cycle, Regs.step, nextState, idle, full', reads]

/-- **A byte that waits gets its frame**, from a device that acknowledges: in every run from the
reset a frame begins later, and if nothing is presented until then it is the frame of the byte
that was presented last. -/
theorem waiting_sent (bits : 0 < debounceBits) (dog : 0 < watchdogBits) (inputs : Nat → Inputs)
    (dataOReg : Byte)
    (acknowledges : ∀ m ≥ n,
      Acknowledges (cycle inputs (reset dataOReg : Regs debounceBits watchdogBits) m))
    (waits : (cycle inputs (reset dataOReg : Regs debounceBits watchdogBits) n).waiting = true) :
    ∃ m > n, ∃ byte,
      Sending byte 0 (cycle inputs (reset dataOReg : Regs debounceBits watchdogBits) m) ∧
        ((∀ k, n ≤ k → k < m → (inputs k).obfSetI = false) →
          (queue inputs (reset dataOReg : Regs debounceBits watchdogBits) n).getLast? =
            some byte) := by
  have fresh : Serving [] [] [] (reset dataOReg : Regs debounceBits watchdogBits) :=
    serving_reset dataOReg
  obtain ⟨a, late, request⟩ := exists_request bits dog fresh acknowledges waits
  obtain ⟨c, after, expired, running⟩ := exists_expiry_of_request bits dog request
  have still := request_lasts request after running
  refine ⟨c + 1, by omega, ?_⟩
  cases fresh.run inputs c with
  | reads served writes state ok split => exact absurd still state
  | sends served byte k sending shows isBits ok split => exact absurd still sending.state_ne
  | requests served byte requested ok split =>
      refine ⟨byte, requested.expire expired, fun quiet => ?_⟩
      have kept : queue inputs (reset dataOReg : Regs debounceBits watchdogBits) c =
          queue inputs (reset dataOReg) n :=
        queue_kept (Nat.le_trans late after) fun k later before =>
          quiet k later (Nat.lt_succ_of_lt before)
      rw [← kept, split, List.getLast?_append, List.getLast?_singleton]
      rfl

end OrpsocCores.Ps2
