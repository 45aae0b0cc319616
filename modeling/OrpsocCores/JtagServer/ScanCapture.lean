import OrpsocCores.JtagServer.TaskRuns

/-!
# What `do_scan_chain` captures

The clock generator takes the value of `TDO` in the first call with the pin high, which
is the call that raises it, and `do_scan_chain` takes it over when the clock period is
done, several calls later (`Sampling`).  Until then the value is pending: the bits in the
result are those of the rising edges so far, without a pending one (`Capturing`).

`scanChain_scans` puts the edges of the task and the captured bits together.
-/

set_option autoImplicit false

namespace OrpsocCores.JtagServer

variable {tckPeriod t : Nat}

/-! ## The sample of a bit -/

/-- The clock generator within a bit, before and after it has taken a sample. -/
def Sampling (clk : ClockGen) (capturedTdo : Byte) : Option Byte → Prop
  | none => clk.curPeriod = 0 ∧ (clk.tckLow = false → clk.captureDone = false)
  | some sample => 0 < clk.curPeriod ∧ clk.captureDone = true ∧ capturedTdo = sample

theorem Sampling.restart (clk : ClockGen) (capturedTdo : Byte) :
    Sampling (genClkRestart clk) capturedTdo none :=
  ⟨rfl, fun high => nomatch high⟩

/-- What a call of the clock generator does for a bit: it goes on, and takes a sample when it
raises the pin, or it is done with a sample. -/
inductive Sampled (pending : Option Byte) (tck : Bool) (tdo : Byte) (tick : Tick) : Prop
  | goesOn (pending' : Option Byte) (status : tick.status = .inProgress)
      (sampling : Sampling tick.clk tick.capturedTdo pending')
      (samples : pending'.toList =
        pending.toList ++ if tck = false ∧ tick.tck = true then [tdo] else [])
  | done (sample : Byte) (pending : pending = some sample) (status : tick.status = .done)
      (still : tick.tck = tck) (captured : tick.capturedTdo = sample)

variable {clk : ClockGen} {tck : Bool} {capturedTdo : Byte} {pending : Option Byte}

/-- In the low phase of a bit, and with the first call of its high phase, nothing is taken. -/
theorem Sampling.eq_none (sampling : Sampling clk capturedTdo pending)
    (first : clk.curPeriod = 0) : pending = none := by
  cases pending with
  | none => rfl
  | some sample => exact absurd first (Nat.ne_of_gt sampling.1)

theorem Sampling.exists_eq_some (sampling : Sampling clk capturedTdo pending)
    (some_calls : 0 < clk.curPeriod) :
    ∃ sample, pending = some sample ∧ clk.captureDone = true ∧ capturedTdo = sample := by
  cases pending with
  | none => exact absurd sampling.1 (Nat.ne_of_gt some_calls)
  | some sample => exact ⟨sample, rfl, sampling.2⟩

/-- **A call of the clock generator for a bit.** -/
theorem Sampling.call (inPhase : InPhase tckPeriod clk tck t)
    (sampling : Sampling clk capturedTdo pending) (positive : 0 < tckPeriod) (tdo : Byte) :
    Sampled pending tck tdo (genClk tckPeriod t 1 tck tdo capturedTdo true clk) := by
  rcases Nat.lt_or_ge clk.curPeriod (1 * tckPeriod) with more | enough
  · have small : clk.curPeriod % (tckPeriod + 1) = clk.curPeriod := Nat.mod_eq_of_lt (by omega)
    have low_call : clk.tckLow = true → clk.curPeriod = 0 →
        Sampled pending tck tdo (genClk tckPeriod t 1 tck tdo capturedTdo true clk) := by
      intro low first
      rw [genClk_low low more]
      refine .goesOn none rfl ⟨first, fun _ => rfl⟩ ?_
      rw [sampling.eq_none first]
      simp
    cases inPhase with
    | fresh _ low first => exact low_call low first
    | low _ low whole _ => exact low_call low (small.symm.trans whole)
    | high begun high since pin =>
        rw [genClk_high begun high more]
        rw [small] at pin
        rcases Nat.eq_zero_or_pos clk.curPeriod with first | later
        · obtain rfl := sampling.eq_none first
          have fresh : clk.captureDone = false := sampling.2 high
          refine .goesOn (some tdo) rfl ⟨Nat.succ_pos _, by simp, by simp [fresh]⟩ ?_
          simp [pin.mpr first]
        · obtain ⟨sample, rfl, taken, captured⟩ := sampling.exists_eq_some later
          have stays : ¬ tck = false := fun falls => Nat.ne_of_gt later (pin.mp falls)
          refine .goesOn (some sample) rfl ⟨Nat.succ_pos _, by simp [taken], ?_⟩ ?_
          · simp [taken, captured]
          · simp [stays]
  · obtain ⟨clk', done⟩ : ∃ clk', genClk tckPeriod t 1 tck tdo capturedTdo true clk =
        ⟨.done, clk', tck, capturedTdo⟩ := genClk_done enough _ _ _
    obtain ⟨sample, taken, -, captured⟩ := sampling.exists_eq_some (show 0 < clk.curPeriod by omega)
    rw [done]
    exact .done sample taken rfl rfl captured

/-! ## The result -/

/-- The bits of the samples in an array of bytes, in bytes before one, with zero for the bits
without a sample. -/
def Holds (bufferIn : Vector Byte xfertMaxSize) (samples : List Byte) (bytes : Nat) : Prop :=
  ∀ m < bytes, ∀ b < 8, (bufferIn.getD m 0).getLsbD b = decide (samples.getD (8 * m + b) 0 ≠ 0)

section Holds

variable {bufferIn : Vector Byte xfertMaxSize} {samples : List Byte} {i j : Nat}

theorem getD_setIfInBounds (fits : i < xfertMaxSize) (byte : Byte) (m : Nat) :
    (bufferIn.setIfInBounds i byte).getD m 0 = if m = i then byte else bufferIn.getD m 0 := by
  simp only [Vector.getD, Vector.toArray_setIfInBounds, Array.getD_eq_getD_getElem?,
    Array.getElem?_setIfInBounds]
  by_cases here : m = i
  · subst here
    simp [fits]
  · have other : i ≠ m := fun same => here same.symm
    rw [if_neg other, if_neg here]

/-- The byte with a bit for a sample. -/
def putBit (byte : Byte) (j : Nat) (sample : Byte) : Byte :=
  let bit : Byte := 1 <<< j
  if sample ≠ 0 then byte ||| bit else byte &&& ~~~bit

theorem getLsbD_putBit (byte sample : Byte) {b : Nat} (inside : b < 8) :
    (putBit byte j sample).getLsbD b =
      if b = j then decide (sample ≠ 0) else byte.getLsbD b := by
  have bit : ((1 <<< j : Nat) : Byte).getLsbD b = decide (b = j) := by
    rw [BitVec.natCast_eq_ofNat, BitVec.getLsbD_ofNat, Nat.one_shiftLeft, Nat.testBit_two_pow]
    simp [inside, eq_comm]
  unfold putBit
  dsimp only
  by_cases set : sample = 0
  · rw [if_neg (fun other => other set), BitVec.getLsbD_and, BitVec.getLsbD_not, bit]
    by_cases here : b = j
    · simp [set, here]
    · simp [inside, here]
  · rw [if_pos set, BitVec.getLsbD_or, bit]
    by_cases here : b = j
    · simpa [here] using set
    · simp [here]

/-- A byte has no bits behind the samples. -/
theorem getD_behind {k : Nat} (behind : samples.length ≤ k) : samples.getD k 0 = 0 := by
  rw [List.getD_eq_getElem?_getD, List.getElem?_eq_none behind]
  rfl

/-- A byte is cleared before its first bit. -/
theorem Holds.clear (holds : Holds bufferIn samples i) (behind : samples.length ≤ 8 * i)
    (fits : i < xfertMaxSize) : Holds (bufferIn.setIfInBounds i 0) samples (i + 1) := by
  intro m inside b small
  rw [getD_setIfInBounds fits]
  by_cases here : m = i
  · have none : samples.getD (8 * m + b) 0 = 0 := getD_behind (by omega)
    rw [if_pos here, none]
    simp
  · rw [if_neg here]
    exact holds m (by omega) b small

/-- A bit of the byte at hand. -/
theorem Holds.put (holds : Holds bufferIn samples (i + 1)) (next : samples.length = 8 * i + j)
    (small : j < 8) (fits : i < xfertMaxSize) (sample : Byte) :
    Holds (bufferIn.setIfInBounds i (putBit (bufferIn.getD i 0) j sample)) (samples ++ [sample])
      (i + 1) := by
  intro m inside b inByte
  rw [getD_setIfInBounds fits]
  have others : 8 * m + b ≠ 8 * i + j →
      (samples ++ [sample]).getD (8 * m + b) 0 = samples.getD (8 * m + b) 0 := by
    intro other
    rcases Nat.lt_or_ge (8 * m + b) samples.length with before | behind
    · rw [List.getD_eq_getElem?_getD, List.getElem?_append_left before,
        List.getD_eq_getElem?_getD]
    · have longer : (samples ++ [sample]).length ≤ 8 * m + b := by
        rw [List.length_append, List.length_singleton]
        omega
      rw [getD_behind behind, getD_behind longer]
  by_cases here : m = i
  · subst here
    rw [if_pos rfl, getLsbD_putBit _ _ inByte]
    by_cases bit : b = j
    · subst bit
      rw [if_pos rfl, ← next]
      simp
    · rw [if_neg bit, others (by omega)]
      exact holds m inside b inByte
  · rw [if_neg here, others (by omega)]
    exact holds m inside b inByte

end Holds

/-! ## A call -/

section Calls

variable {nbBits : Nat} {buffer : Vector Byte xfertMaxSize} {flipTms : Bool}
  {samples : List Byte} {s : Server}

/-- The number of bits in a byte. -/
theorem scanBitsInByte_eq (some_bits : 0 < nbBits) {i : Nat} (inside : i < (nbBits + 7) / 8) :
    Server.scanBitsInByte ((nbBits + 7) / 8 : Nat) nbBits i = (min 8 (nbBits - 8 * i) : Nat) := by
  have rem : (nbBits : Int).tmod 8 = (nbBits % 8 : Nat) := by
    rw [Int.tmod_eq_emod_of_nonneg (by omega)]
    omega
  unfold Server.scanBitsInByte
  rw [rem]
  split
  · split <;> omega
  · omega

/-- `do_scan_chain` between two calls: the samples of the bits so far, and a pending one of the
bit at hand. -/
structure Capturing (nbBits : Nat) (samples : List Byte) (pending : Option Byte) (s : Server) :
    Prop where
  counted : samples.length = min nbBits (8 * s.chain.i + s.chain.j)
  small : s.chain.j ≤ 8
  between : min 8 (nbBits - 8 * s.chain.i) ≤ s.chain.j → pending = none
  holds : Holds s.packet.bufferIn samples (s.chain.i + if s.chain.start then 0 else 1)
  sampling : Sampling s.clk s.chain.capturedTdo pending

/-- The byte at hand is cleared, unless a bit of it has begun. -/
theorem Capturing.load (capturing : Capturing nbBits samples pending s)
    (first : s.chain.start = true → s.chain.j = 0) (fits : s.chain.i < xfertMaxSize) :
    Holds (scanResult s) samples (s.chain.i + 1) := by
  unfold scanResult
  have holds := capturing.holds
  have counted := capturing.counted
  rcases Bool.eq_false_or_eq_true s.chain.start with start | start
  · rw [start] at holds ⊢
    have none := first start
    exact holds.clear (by omega) fits
  · rw [start] at holds ⊢
    exact holds

/-- **A call of `do_scan_chain`, in what it captures.** -/
theorem Capturing.call (capturing : Capturing nbBits samples pending s)
    (state : ScanShifting tckPeriod t ((nbBits + 7) / 8 : Nat) nbBits buffer flipTms s)
    (positive : 0 < tckPeriod) (some_bits : 0 < nbBits) (fits : (nbBits + 7) / 8 ≤ xfertMaxSize)
    (inside : s.chain.i < (nbBits + 7) / 8) {tdo : Byte} {s' : Server}
    (call : s.doScanChain tckPeriod t ((nbBits + 7) / 8 : Nat) nbBits buffer tdo flipTms =
      (.inProgress, s')) :
    ∃ samples' pending', Capturing nbBits samples' pending' s' ∧
      samples' ++ pending'.toList =
        samples ++ pending.toList ++ (emitted s.pins s'.pins).map fun _ => tdo := by
  have holds := capturing.load state.shifting.first (by omega)
  have counted := capturing.counted
  have small := capturing.small
  have inside' : (s.chain.i : Int) < ((nbBits + 7) / 8 : Nat) := by omega
  rw [doScanChain_eq inside' state.shifting.first state.shifting.loaded] at call
  dsimp only at call
  rw [scanBitsInByte_eq some_bits inside] at call
  by_cases inByte : s.chain.j < min 8 (nbBits - 8 * s.chain.i)
  · have inPhase : InPhase tckPeriod s.clk s.pins.tck t := by
      have count : scanCount ((nbBits + 7) / 8 : Nat) nbBits s.chain.i =
          min 8 (nbBits - 8 * s.chain.i) := by
        rw [scanCount, scanBitsInByte_eq some_bits inside]
        rfl
      have ready := state.ready
      rw [scanWork, Int.toNat_natCast, bits_bit inside (by rwa [count])] at ready
      exact ready
    have sampled := capturing.sampling.call inPhase positive tdo
    rw [if_pos (by omega)] at call
    generalize genClk tckPeriod t 1 s.pins.tck tdo s.chain.capturedTdo true s.clk = tick
      at sampled call
    cases sampled with
    | goesOn pending' status sampling samples' =>
        rw [status] at call
        obtain rfl := (Prod.mk.inj call).2
        refine ⟨samples, pending', ⟨counted, small, ?_, holds, sampling⟩, ?_⟩
        · intro behind
          exact absurd inByte (Nat.not_lt.mpr behind)
        · rw [samples', List.append_assoc, emitted]
          congr 2
          dsimp only
          split
          · rfl
          · rfl
    | done sample taken status still captured =>
        rw [status] at call
        obtain rfl := (Prod.mk.inj call).2
        subst captured
        have next : samples.length = 8 * s.chain.i + s.chain.j := by omega
        refine ⟨samples ++ [tick.capturedTdo], none,
          ⟨?_, ?_, fun _ => rfl, ?_, Sampling.restart _ _⟩, ?_⟩
        · rw [List.length_append, List.length_singleton]
          dsimp only
          omega
        · dsimp only
          omega
        · exact holds.put next (by omega) (by omega) tick.capturedTdo
        · simp [emitted, taken, still]
  · rw [if_neg (by omega)] at call
    obtain rfl := (Prod.mk.inj call).2
    obtain rfl := capturing.between (Nat.not_lt.mp inByte)
    refine ⟨samples, none, ⟨?_, Nat.zero_le 8, fun _ => rfl, holds, capturing.sampling⟩, ?_⟩
    · dsimp only
      omega
    · simp [emitted]

/-- The edges of a scan chain, by their numbers. -/
theorem sessions_scanWork (some_bits : 0 < nbBits) :
    (scanWork ((nbBits + 7) / 8 : Nat) nbBits buffer flipTms 0 0).sessions =
      (List.range nbBits).map fun k =>
        (1, ⟨decide (k + 1 = nbBits) && flipTms, (buffer.getD (k / 8) 0).getLsbD (k % 8)⟩) := by
  have count : ∀ i < (nbBits + 7) / 8,
      scanCount ((nbBits + 7) / 8 : Nat) nbBits i = min 8 (nbBits - 8 * i) := by
    intro i inside
    rw [scanCount, scanBitsInByte_eq some_bits inside]
    rfl
  have full : ∀ i, i + 1 < (nbBits + 7) / 8 →
      scanCount ((nbBits + 7) / 8 : Nat) nbBits i = 8 := by
    intro i before
    rw [count i (by omega)]
    omega
  have last : scanCount ((nbBits + 7) / 8 : Nat) nbBits ((nbBits + 7) / 8 - 1) =
      nbBits - 8 * ((nbBits + 7) / 8 - 1) := by
    rw [count _ (by omega)]
    omega
  have bytes : 0 + ((nbBits + 7) / 8 - 1) + 1 = (nbBits + 7) / 8 := by omega
  have numbered : (scanWork ((nbBits + 7) / 8 : Nat) nbBits buffer flipTms 0 0).sessions = _ :=
    bits_eq full last (by omega) bytes
  have whole : 8 * ((nbBits + 7) / 8 - 1) + (nbBits - 8 * ((nbBits + 7) / 8 - 1)) = nbBits := by
    omega
  rw [numbered, whole, Nat.mul_zero, ← List.range_eq_range']
  refine List.map_congr_left fun k inside => ?_
  have below : k < nbBits := List.mem_range.mp inside
  have isLast : ((k % 8 : Nat) : Int) = Server.scanBitsInByte ((nbBits + 7) / 8 : Nat) nbBits
      (k / 8) - 1 ∧ ((k / 8 : Nat) : Int) = ((nbBits + 7) / 8 : Nat) - 1 ↔ k + 1 = nbBits := by
    rw [scanBitsInByte_eq some_bits (by omega)]
    omega
  rw [scanEdge]
  simp only [isLast]

end Calls

/-! ## The run of a scan chain -/

/-- A call of `doJTAG` in its state `SCAN_CHAIN`. -/
def scanCall (tckPeriod : Nat) (arrival : Nat → Option JtagCmd) (tdo : Nat → Byte) (t : Nat)
    (s : Server) : Status × Server :=
  let s' := s.doJTAG tckPeriod t (arrival t) (tdo t)
  (if s'.cmdInProgress then .inProgress else .done, s')

/-- `doJTAG` in the midst of a scan chain. -/
structure InScan (tckPeriod t nbBits : Nat) (samples : List Byte) (pending : Option Byte)
    (s : Server) : Prop where
  state : s.jtagState = .scanChain
  inProgress : s.cmdInProgress = true
  bytes : s.packet.length = ((nbBits + 7) / 8 : Nat)
  bits : s.packet.nbBits = nbBits
  shifting : ScanShifting tckPeriod t ((nbBits + 7) / 8 : Nat) nbBits s.packet.bufferOut s.tmsFlip s
  capturing : Capturing nbBits samples pending s

/-- What is left of it. -/
def Server.scanLeft (nbBits : Nat) (s : Server) : Work :=
  scanWork ((nbBits + 7) / 8 : Nat) nbBits s.packet.bufferOut s.tmsFlip s.chain.i s.chain.j

/-- What a call in the midst of a scan chain does: it goes on, or it is the last one. -/
inductive Scanned (tckPeriod t nbBits : Nat) (arrival : Nat → Option JtagCmd) (tdo : Nat → Byte)
    (collected : List Byte) (s : Server) : Prop
  | goesOn (s' : Server) (samples : List Byte) (pending : Option Byte)
      (call : scanCall tckPeriod arrival tdo t s = (.inProgress, s'))
      (inScan : InScan tckPeriod (t + 1) nbBits samples pending s')
      (advanced : Advanced tckPeriod t (s.scanLeft nbBits) (s'.scanLeft nbBits) s s')
      (captured : samples ++ pending.toList =
        collected ++ (emitted s.pins s'.pins).map fun _ => tdo t)
  | done (s' : Server) (call : scanCall tckPeriod arrival tdo t s = (.done, s'))
      (still : s'.pins.tck = s.pins.tck) (nothing : (s.scanLeft nbBits).sessions = [])
      (holds : Holds s'.packet.bufferIn collected ((nbBits + 7) / 8))

variable {nbBits : Nat} {samples : List Byte} {s : Server}

/-- **A call in the midst of a scan chain.** -/
theorem InScan.call (inScan : InScan tckPeriod t nbBits samples pending s)
    (positive : 0 < tckPeriod) (some_bits : 0 < nbBits) (arrival : Nat → Option JtagCmd)
    (tdo : Nat → Byte) :
    Scanned tckPeriod t nbBits arrival tdo (samples ++ pending.toList) s := by
  obtain ⟨state, inProgress, bytes, bits, shifting, capturing⟩ := inScan
  have fits : (nbBits + 7) / 8 ≤ xfertMaxSize := by
    have fits := s.packet.fits
    omega
  have branch : s.doJTAG tckPeriod t (arrival t) (tdo t) = _ :=
    Server.doJTAG_scanChain state inProgress
  rw [bytes, bits] at branch
  have shifting' : ScanShifting tckPeriod t ((nbBits + 7) / 8 : Nat) nbBits s.packet.bufferOut
      s.tmsFlip s.lowered :=
    ⟨shifting.ready, shifting.shifting⟩
  have capturing' : Capturing nbBits samples pending s.lowered :=
    ⟨capturing.counted, capturing.small, capturing.between, capturing.holds, capturing.sampling⟩
  rcases Nat.lt_or_ge s.chain.i ((nbBits + 7) / 8) with inside | outside
  · obtain ⟨chain, clk, pins, bufferIn, call, advanced, next⟩ :=
      doScanChain_call shifting' rfl (show s.chain.i < _ from inside) (tdo t)
    obtain ⟨samples', pending', captured, collected⟩ :=
      capturing'.call shifting' positive some_bits fits inside call
    rw [call] at branch
    let s' : Server :=
      { s with
        chain := chain
        clk := clk
        pins := pins
        packet := { s.packet with bufferIn := bufferIn } }
    have goes : scanCall tckPeriod arrival tdo t s = (.inProgress, s') := by
      rw [scanCall, branch]
      exact Prod.ext (if_pos inProgress) rfl
    exact .goesOn s' samples' pending' goes ⟨state, inProgress, bytes, bits, next, captured⟩
      ⟨advanced.edges, advanced.ready, advanced.sooner⟩ collected
  · have behind : (((nbBits + 7) / 8 : Nat) : Int).toNat ≤ s.lowered.chain.i := outside
    rw [doScanChain_end behind] at branch
    obtain rfl : pending = none := capturing.between (by omega)
    let s' : Server :=
      { s with
        pins := ⟨false, false, s.pins.tck⟩
        chain := { s.chain with i := 0, j := 0, start := true }
        cmdInProgress := false
        sent := s.sent ++ [s.packet]
        jtagState := .checkCmd }
    have ends : scanCall tckPeriod arrival tdo t s = (.done, s') := by
      rw [scanCall, branch]
      rfl
    refine .done s' ends rfl (bits_end outside) ?_
    intro m inside
    rw [Option.toList_none, List.append_nil]
    exact capturing.holds m (by omega)

/-- What a way to the end of a scan chain shows: the edges that were left, and in the result of
its last call the bits collected before and those of its rising edges. -/
def Shows (tckPeriod nbBits : Nat) (tdo : Nat → Byte) (collected : List Byte) (t : Nat) (s : Server)
    (states : List Server) : Prop :=
  edgesOn t s.pins (states.map Server.pins) = rest tckPeriod s.clk (s.scanLeft nbBits).sessions ∧
    ∃ last ∈ states.getLast?, Holds last.packet.bufferIn (collected ++
      (risingEdges t s.pins (states.map Server.pins)).map fun rise => tdo rise.t)
      ((nbBits + 7) / 8)

/-- **The run to the end of a scan chain.** -/
theorem InScan.finishes (inScan : InScan tckPeriod t nbBits samples pending s)
    (positive : 0 < tckPeriod) (some_bits : 0 < nbBits) (arrival : Nat → Option JtagCmd)
    (tdo : Nat → Byte) :
    ∃ states, Finishes (scanCall tckPeriod arrival tdo) t s states ∧
      Shows tckPeriod nbBits tdo (samples ++ pending.toList) t s states := by
  refine Finishes.rule
    (I := fun (a : List Byte × Option Byte) t s => InScan tckPeriod t nbBits a.1 a.2 s)
    (P := fun a => Shows tckPeriod nbBits tdo (a.1 ++ a.2.toList))
    (fun t s => calls tckPeriod s.clk t (s.scanLeft nbBits)) ?_ (a := (samples, pending)) inScan
  intro (samples, pending) t s inScan
  cases inScan.call positive some_bits arrival tdo with
  | goesOn s' samples' pending' call inScan' advanced captured =>
      refine .inr ⟨(samples', pending'), s', call, inScan', advanced.sooner, ?_⟩
      rintro states ⟨edges, last, isLast, holds⟩
      refine ⟨?_, last, ?_, ?_⟩
      · rw [List.map_cons, edgesOn_cons, edges]
        exact advanced.edges
      · rw [List.getLast?_cons, isLast]
        rfl
      · rw [captured] at holds
        rw [List.map_cons, risingEdges, List.map_append, List.map_map, ← List.append_assoc]
        exact holds
  | done s' call still nothing holds =>
      have none : emitted s.pins s'.pins = [] := by
        rw [emitted, still]
        simp
      refine .inl ⟨s', call, ?_, s', rfl, ?_⟩
      · rw [nothing, List.map_singleton, edgesOn_cons, none]
        rfl
      · rw [List.map_singleton, risingEdges, none]
        simpa [risingEdges] using holds

/-- `doJTAG` in front of a scan chain: its static variables are at their start, and the clock
generator has not made an edge since its restart. -/
structure BeforeScan (t nbBits : Nat) (s : Server) : Prop where
  state : s.jtagState = .scanChain
  inProgress : s.cmdInProgress = true
  bytes : s.packet.length = ((nbBits + 7) / 8 : Nat)
  bits : s.packet.nbBits = nbBits
  atStart : s.chain.AtStart
  resting : Resting s.clk s.pins.tck t
  ready : s.clk.tckLow = true ∨ t = s.clk.time + 1 ∧ s.clk.captureDone = false

theorem BeforeScan.inScan (before : BeforeScan t nbBits s) :
    InScan tckPeriod t nbBits [] none s := by
  obtain ⟨i, j, start⟩ := before.atStart
  have ready : s.clk.tckLow = true ∨ t = s.clk.time + 1 := before.ready.imp_right And.left
  refine ⟨before.state, before.inProgress, before.bytes, before.bits,
    ⟨before.resting.ready ready _, ?_⟩, ?_⟩
  · rw [j, start]
    exact Shifting.behindByte scanWork_empty _ _
  · refine ⟨by simp [i, j], by omega, fun _ => rfl, ?_, before.resting.none, fun high => ?_⟩
    · rw [i, start]
      intro m inside
      exact absurd inside (Nat.not_lt_zero m)
    · exact (before.ready.resolve_left (by simp [high])).2

/-- **A server that receives a scan chain, in the low phase of its clock, is in front of it.** -/
theorem beforeScan_of_receive (state : s.jtagState = .checkCmd) (waits : s.cmdInProgress = false)
    (atStart : s.chain.AtStart) (resting : Resting s.clk s.pins.tck t) (low : s.clk.tckLow = true)
    (positive : 0 < tckPeriod) {packet : JtagCmd} {flipTms : Bool}
    (task : packet.task =
      some (.scanChain ((nbBits + 7) / 8 : Nat) nbBits packet.bufferOut flipTms)) (tdo : Byte) :
    BeforeScan (t + 1) nbBits (s.doJTAG tckPeriod t (some packet) tdo) := by
  rw [Server.doJTAG_checkCmd state waits]
  rcases dispatch_cases (s.checkForCommand (some packet)) with
    ⟨none, -⟩ | ⟨isTask, -⟩ | ⟨isTask, -⟩ | ⟨flip, isTask, dispatched⟩
  · exact absurd (none.symm.trans task) (by simp)
  · exact absurd (isTask.symm.trans task) (by simp)
  · exact absurd (isTask.symm.trans task) (by simp)
  · obtain ⟨bytes, bits, -⟩ := Task.scanChain.inj (Option.some.inj (isTask.symm.trans task))
    have more : s.clk.curPeriod < 5 * tckPeriod := by
      rw [resting.none]
      omega
    have periods : 0 < 5 * tckPeriod := by omega
    obtain ⟨clk, call, resting', ready⟩ := resting.tick low periods 0xff 0 false
    have fresh : clk.captureDone = false := by
      rw [genClk_low low more] at call
      rw [← (Tick.mk.inj call).2.1]
    rw [dispatched, Server.tapReset, Server.resetTap]
    dsimp only
    rw [show (s.checkForCommand (some packet)).clk = s.clk from rfl,
      show (s.checkForCommand (some packet)).pins.tck = s.pins.tck from rfl, call]
    exact ⟨rfl, rfl, bytes, bits, atStart, resting', ready.imp_right fun since => ⟨since, fresh⟩⟩

/-- The scan chain finishes with the bits of `buffer_out` on `TDI` and, if it flips, `TMS` high
with the last of them; the bits of `buffer_in` are what `TDO` was in the calls of the rising
edges, and those behind them are zero. -/
def Scans (tckPeriod t nbBits : Nat) (arrival : Nat → Option JtagCmd) (tdo : Nat → Byte)
    (s : Server) : Prop :=
  ∃ states last rises,
    Finishes (scanCall tckPeriod arrival tdo) t s states ∧
    states.getLast? = some last ∧
    risingEdges t s.pins (states.map Server.pins) = rises ∧
    rises.map Rise.edge = ((List.range nbBits).map fun k =>
      ⟨decide (k + 1 = nbBits) && s.tmsFlip, (s.packet.bufferOut.getD (k / 8) 0).getLsbD (k % 8)⟩) ∧
    (∀ k, ∀ rise ∈ rises[k]?,
      (last.packet.bufferIn.getD (k / 8) 0).getLsbD (k % 8) = decide (tdo rise.t ≠ 0)) ∧
    ∀ k, nbBits ≤ k → k < 8 * ((nbBits + 7) / 8) →
      (last.packet.bufferIn.getD (k / 8) 0).getLsbD (k % 8) = false

/-- **`do_scan_chain` scans.** -/
theorem scanChain_scans (before : BeforeScan t nbBits s) (positive : 0 < tckPeriod)
    (some_bits : 0 < nbBits) (arrival : Nat → Option JtagCmd) (tdo : Nat → Byte) :
    Scans tckPeriod t nbBits arrival tdo s := by
  obtain ⟨states, finishes, edges, last, isLast, holds⟩ :=
    before.inScan.finishes positive some_bits arrival tdo
  obtain ⟨i, j, -⟩ := before.atStart
  rw [rest_of_resting before.resting, Server.scanLeft, i, j, sessions_scanWork some_bits,
    script_bits positive] at edges
  generalize rises_eq : risingEdges t s.pins (states.map Server.pins) = rises at holds
  rw [edgesOn, rises_eq] at edges
  have count : rises.length = nbBits := by
    have lengths := congrArg List.length edges
    rwa [List.length_map, List.length_map, List.length_range] at lengths
  have collected : ∀ k < 8 * ((nbBits + 7) / 8),
      (last.packet.bufferIn.getD (k / 8) 0).getLsbD (k % 8) =
        decide ((rises.map fun rise => tdo rise.t).getD k 0 ≠ 0) := by
    intro k inside
    have bit := holds (k / 8) (by omega) (k % 8) (by omega)
    rwa [Nat.div_add_mod] at bit
  refine ⟨states, last, rises, finishes, isLast, rises_eq, edges, ?_, ?_⟩
  · intro k rise there
    obtain ⟨inside, rfl⟩ := List.getElem?_eq_some_iff.mp there
    rw [collected k (by omega), List.getD_eq_getElem?_getD, List.getElem?_map, there]
    rfl
  · intro k behind inside
    have none : (rises.map fun rise => tdo rise.t).getD k 0 = 0 :=
      getD_behind (by rw [List.length_map]; omega)
    rw [collected k inside, none]
    rfl

/-- A scan chain of eleven bits. -/
def elevenBits : JtagCmd :=
  ⟨cmdScanChainFlipTms, Vector.replicate _ 0x5a, Vector.replicate _ 0xff, 2, 11, by decide⟩

theorem beforeScan_elevenBits :
    BeforeScan 1 11 (idleServer.doJTAG 10 0 (some elevenBits) 0) :=
  beforeScan_of_receive rfl rfl ⟨rfl, rfl, rfl⟩ (resting_idleServer 0) rfl (by decide) rfl 0

theorem scanChain_scans_eleven :
    Scans 10 1 11 (fun _ => none) (fun t => if t % 3 = 0 then 1 else 0)
      (idleServer.doJTAG 10 0 (some elevenBits) 0) :=
  scanChain_scans beforeScan_elevenBits (by decide) (by decide) _ _

end OrpsocCores.JtagServer
