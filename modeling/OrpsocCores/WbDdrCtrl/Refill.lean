import OrpsocCores.WbDdrCtrl.Attribution
import OrpsocCores.WbDdrCtrl.Handshake

/-!
# The refill of a line

The selected port asks for a line, the wrapper turns the request into a burst of
`local_size_o` words, and the words go into the port's buffer one edge after they came.
The word's place is the wrapper's, `adr`, and the port takes `adr[BUF_WIDTH+1:2]` of it
(`wordOf_next`); both count the words.

`local_size_o` has seven bits, and `1 << buf_width_i` is shifted out of them for the
widest buffer: such a line is asked for with length zero.  Every narrower one is filled
word by word, whatever the gaps between the words (`refilled_iff`).
-/

set_option autoImplicit false

namespace OrpsocCores.WbDdrCtrl

open WbPort (SdramSide SdramPins wordOf)

/-! ## Addresses -/

section

variable {b : Nat}

theorem toNat_bufWidth (narrow : b ≤ 7) : (BitVec.ofNat 4 b).toNat = b := by
  rw [BitVec.toNat_ofNat]
  exact Nat.mod_eq_of_lt (by omega)

/-- The bits of a mask. -/
theorem getLsbD_getMask (width : BitVec 4) (i : Nat) :
    (getMask width).getLsbD i = decide (i < width.toNat) := by
  have small : 2 ^ width.toNat ≤ 2 ^ 15 := Nat.pow_le_pow_right (by omega) (by omega)
  have positive : 0 < 2 ^ width.toNat := Nat.two_pow_pos _
  have shifted : ((1 : BitVec 32) <<< width.toNat).toNat = 2 ^ width.toNat :=
    (Wrapper.eq_shiftLeft_iff _ width).mp rfl
  have value : (getMask width).toNat = 2 ^ width.toNat - 1 := by
    rw [getMask, BitVec.toNat_sub_of_le]
    · rw [shifted]
      rfl
    · rw [BitVec.le_def, shifted]
      exact positive
  rw [BitVec.getLsbD, value, Nat.testBit_two_pow_sub_one]

/-- The first word of a line. -/
theorem wordOf_first (narrow : b ≤ 7) (adr : BitVec 32) :
    wordOf b (adr &&& ~~~getMask (BitVec.ofNat 4 b + 2)) = 0 := by
  have width : (BitVec.ofNat 4 b + 2).toNat = b + 2 := by
    rw [BitVec.toNat_add, toNat_bufWidth narrow]
    exact Nat.mod_eq_of_lt (by simp; omega)
  apply BitVec.eq_of_getLsbD_eq
  intro i inside
  simp only [wordOf, BitVec.getLsbD_extractLsb', BitVec.getLsbD_and, BitVec.getLsbD_not,
    getLsbD_getMask, width]
  have below : 2 + i < b + 2 := by omega
  simp [below]

/-- The address counts the words of the line. -/
theorem wordOf_next (narrow : b ≤ 7) (adr : BitVec 32) :
    wordOf b ((adr &&& ~~~getMask (BitVec.ofNat 4 b + 2)) |||
      ((((adr >>> 2) + 1) &&& getMask (BitVec.ofNat 4 b)) <<< 2)) = wordOf b adr + 1#b := by
  have width : (BitVec.ofNat 4 b + 2).toNat = b + 2 := by
    rw [BitVec.toNat_add, toNat_bufWidth narrow]
    exact Nat.mod_eq_of_lt (by simp; omega)
  have place : wordOf b adr = (adr >>> 2).setWidth b := by
    apply BitVec.eq_of_getLsbD_eq
    intro i inside
    simp [wordOf, inside]
  have counted : wordOf b adr + 1#b = ((adr >>> 2) + 1#32).setWidth b := by
    rw [BitVec.setWidth_add _ _ (by omega : b ≤ 32), place, BitVec.setWidth_ofNat_of_le (by omega)]
  rw [counted]
  apply BitVec.eq_of_getLsbD_eq
  intro i inside
  have below : 2 + i < b + 2 := by omega
  have narrow' : 2 + i < 32 := by omega
  have above : ¬ 2 + i < 2 := by omega
  simp only [wordOf, BitVec.getLsbD_extractLsb', BitVec.getLsbD_or, BitVec.getLsbD_and,
    BitVec.getLsbD_not, BitVec.getLsbD_shiftLeft, BitVec.getLsbD_setWidth, getLsbD_getMask, width,
    toNat_bufWidth narrow, Nat.add_sub_cancel_left, below, narrow', above, inside]
  simp

/-- The word address of the line, `ADDR_WIDTH - 2` bits wide. -/
def lineAddress (aw b : Nat) (adr : BitVec 32) : BitVec (aw - 2) :=
  BitVec.ofNat (aw - 2) (adr.toNat / 2 ^ (b + 2) * 2 ^ b)

theorem localAddressO_line (aw : Nat) (narrow : b ≤ 7) (accI : Bool) (adr : BitVec 32) :
    Command.localAddressO aw ⟨accI, false, adr, BitVec.ofNat 4 b⟩ = lineAddress aw b adr := by
  apply BitVec.eq_of_getLsbD_eq
  intro i inside
  simp only [Command.localAddressO, Bool.false_eq_true, if_false, lineAddress,
    BitVec.getLsbD_setWidth, BitVec.getLsbD_and, BitVec.getLsbD_not, getLsbD_getMask,
    toNat_bufWidth narrow, BitVec.getLsbD_extractLsb', BitVec.getLsbD_ofNat, Nat.testBit_mul_two_pow,
    Nat.testBit_div_two_pow, inside, decide_true, Bool.true_and]
  by_cases low : i < b
  · simp [low]
  · have place : i - b + (b + 2) = 2 + i := by omega
    by_cases high : i < 32
    · simp [low, high, place, Nat.le_of_not_lt low, BitVec.getLsbD]
    · have beyond : adr.toNat.testBit (2 + i) = false := by
        rw [← BitVec.getLsbD]
        exact BitVec.getLsbD_of_ge _ _ (by omega)
      simp [high, place, beyond]

end

/-! ## The port's side -/

section

variable {b : Nat} {s : SdramSide b} {pins : SdramPins} {empty readReqWb : Bool}
  {wbAdr : BitVec 32} {k : Nat}

/-- The port asks for a line and has the first `k` words of it. -/
structure Filling (s : SdramSide b) (k : Nat) : Prop where
  state : s.sdramState = .read
  acc : s.accO = true
  we : s.weO = false
  counted : s.ackCount = BitVec.ofNat 32 k
  clean : ∀ i < 2 ^ b, s.bufClean.getLsbD i = decide (i < k)
  notDone : s.readDone = false

/-- The word that the port writes into its buffer at the next edge. -/
def inFlight (s : SdramSide b) : List (BitVec b × BitVec 32) :=
  if s.sdramWriteBufram then [(wordOf b s.adrIR, s.datR)] else []

namespace Filling

/-- An edge without a word. -/
theorem hold (filling : Filling s k) (running : pins.sdramRst = false)
    (unacked : pins.ackI = false) :
    Filling (s.edge pins empty readReqWb wbAdr) k ∧
      (s.edge pins empty readReqWb wbAdr).adrOR = s.adrOR ∧
      inFlight (s.edge pins empty readReqWb wbAdr) = [] := by
  obtain ⟨state, acc, we, counted, clean, notDone⟩ := filling
  refine ⟨⟨?_, ?_, ?_, ?_, ?_, ?_⟩, ?_, ?_⟩
  case refine_5 =>
      simpa [SdramSide.edge, running, SdramSide.machine, state, SdramSide.readBranch,
        SdramSide.sampled, unacked] using clean
  all_goals
    simp [SdramSide.edge, running, SdramSide.machine, state, SdramSide.readBranch,
      SdramSide.sampled, unacked, acc, we, counted, notDone, inFlight]

/-- The word that comes is marked as clean. -/
theorem clean_or (filling : Filling s k) (inside : k < 2 ^ b) {i : Nat} (here : i < 2 ^ b) :
    (s.bufClean ||| BitVec.twoPow _ (BitVec.ofNat b k).toNat).getLsbD i = decide (i < k + 1) := by
  have place : (BitVec.ofNat b k).toNat = k := by
    rw [BitVec.toNat_ofNat, Nat.mod_eq_of_lt inside]
  rw [BitVec.getLsbD_or, filling.clean i here, place, BitVec.getLsbD_twoPow]
  by_cases same : k = i
  · simp [same, here]
  · have order : i < k + 1 ↔ i < k := by omega
    simp [same, order]

/-- A word that is not the last. -/
theorem word (filling : Filling s k) (narrow : b ≤ 7) (running : pins.sdramRst = false)
    (acked : pins.ackI = true) (place : wordOf b pins.adrI = BitVec.ofNat b k)
    (more : k + 1 < 2 ^ b) :
    Filling (s.edge pins empty readReqWb wbAdr) (k + 1) ∧
      (s.edge pins empty readReqWb wbAdr).adrOR = s.adrOR ∧
      inFlight (s.edge pins empty readReqWb wbAdr) = [(BitVec.ofNat b k, pins.datI)] := by
  have small : 2 ^ b ≤ 2 ^ 7 := Nat.pow_le_pow_right (by omega) narrow
  have going : ¬s.ackCount = BitVec.ofNat 32 (2 ^ b - 1) := by
    rw [filling.counted, ← BitVec.toNat_inj, (toNat_ofNat_lineLength narrow).2, BitVec.toNat_ofNat,
      Nat.mod_eq_of_lt (by omega)]
    omega
  refine ⟨⟨?_, ?_, ?_, ?_, ?_, ?_⟩, ?_, ?_⟩
  case refine_4 =>
      have counts : (s.edge pins empty readReqWb wbAdr).ackCount = s.ackCount + 1 := by
        simp [SdramSide.edge, running, SdramSide.machine, filling.state, SdramSide.readBranch,
          SdramSide.sampled, acked, going]
      rw [counts, filling.counted]
      exact (BitVec.ofNat_add k 1).symm
  case refine_5 =>
      intro i here
      simpa [SdramSide.edge, running, SdramSide.machine, filling.state, SdramSide.readBranch,
        SdramSide.sampled, acked, going, place] using filling.clean_or (by omega) here
  all_goals
    simp [SdramSide.edge, running, SdramSide.machine, filling.state, SdramSide.readBranch,
      SdramSide.sampled, acked, going, filling.acc, filling.we, filling.notDone, inFlight, place]

/-- The last word. -/
theorem last (filling : Filling s k) (narrow : b ≤ 7) (running : pins.sdramRst = false)
    (acked : pins.ackI = true) (place : wordOf b pins.adrI = BitVec.ofNat b k)
    (full : k + 1 = 2 ^ b) :
    (s.edge pins empty readReqWb wbAdr).readDone = true ∧
      (s.edge pins empty readReqWb wbAdr).bufClean = BitVec.allOnes _ ∧
      (s.edge pins empty readReqWb wbAdr).accO = false ∧
      inFlight (s.edge pins empty readReqWb wbAdr) = [(BitVec.ofNat b k, pins.datI)] := by
  have small : 2 ^ b ≤ 2 ^ 7 := Nat.pow_le_pow_right (by omega) narrow
  have ends : s.ackCount = BitVec.ofNat 32 (2 ^ b - 1) := by
    rw [filling.counted]
    congr 1
    omega
  refine ⟨?_, ?_, ?_, ?_⟩
  case refine_2 =>
      have marked : (s.edge pins empty readReqWb wbAdr).bufClean =
          s.bufClean ||| BitVec.twoPow _ (BitVec.ofNat b k).toNat := by
        simp [SdramSide.edge, running, SdramSide.machine, filling.state, SdramSide.readBranch,
          SdramSide.sampled, acked, ends, place]
      rw [marked]
      apply BitVec.eq_of_getLsbD_eq
      intro i here
      rw [filling.clean_or (by omega) here, BitVec.getLsbD_allOnes, full]
  all_goals
    simp [SdramSide.edge, running, SdramSide.machine, filling.state, SdramSide.readBranch,
      SdramSide.sampled, acked, ends, inFlight, place]

end Filling

end

/-! ## A refill -/

variable {n aw : Nat} {bw : Fin n → Nat} {c : Fin n} {adr : BitVec 32}

/-- What the controller was asked for and returned, and what port `c` wrote into its
buffer. -/
structure Refill (aw b : Nat) where
  bursts : List (ReadBurst aw)
  owed : Nat
  returned : List (BitVec 32)
  written : List (BitVec b × BitVec 32)

/-- Nothing has been asked for. -/
def Refill.start (aw b : Nat) : Refill aw b := ⟨[], 0, [], []⟩

/-- The recorder. -/
def Refill.record (c : Fin n) (x : System bw) (e : Instant n) (refill : Refill aw (bw c)) :
    Refill aw (bw c) :=
  match e.sdram with
  | none => refill
  | some pins =>
      let taken := x.wrapper.localReadReq && pins.localReady
      { bursts := refill.bursts ++
          if taken then [⟨(command x.arbiter).localAddressO aw, x.wrapper.localSize⟩] else []
        owed := (if pins.localRdataValid then refill.owed - 1 else refill.owed) +
          if taken then x.wrapper.localSize.toNat else 0
        returned := refill.returned ++ if pins.localRdataValid then [pins.localRdata] else []
        written := refill.written ++ inFlight (x.arbiter.ports c).sdram }

/-- The controller has taken a request and returned what it was asked for. -/
def Refill.Finished {b : Nat} (refill : Refill aw b) : Prop :=
  refill.bursts ≠ [] ∧ refill.owed = 0

instance {b : Nat} (refill : Refill aw b) : Decidable refill.Finished :=
  inferInstanceAs (Decidable (_ ∧ _))

/-- The system beside the record of port `c`'s refill. -/
abbrev refillStep (aw : Nat) (bw : Fin n → Nat) (c : Fin n) :
    System bw × Refill aw (bw c) → Instant n → System bw × Refill aw (bw c) :=
  Trace.monitored System.step (Refill.record c)

/-- What the controller does until it has finished: it takes the request, and returns only
what it was asked for. -/
structure Obliging (c : Fin n) (y : System bw × Refill aw (bw c)) (e : Instant n) : Prop where
  running : ∀ pins ∈ e.sdram, pins.localResetN = true
  ready : ∀ pins ∈ e.sdram, y.1.wrapper.localReadReq = true → pins.localReady = true
  returns : ∀ pins ∈ e.sdram, pins.localRdataValid = true → 0 < y.2.owed
  unfinished : ¬y.2.Finished

instance (y : System bw × Refill aw (bw c)) (e : Instant n) : Decidable (Obliging c y e) :=
  decidable_of_iff
    ((∀ pins ∈ e.sdram, pins.localResetN = true) ∧
      (∀ pins ∈ e.sdram, y.1.wrapper.localReadReq = true → pins.localReady = true) ∧
      (∀ pins ∈ e.sdram, pins.localRdataValid = true → 0 < y.2.owed) ∧ ¬y.2.Finished)
    ⟨fun ⟨running, ready, returns, unfinished⟩ => ⟨running, ready, returns, unfinished⟩,
    fun ⟨running, ready, returns, unfinished⟩ => ⟨running, ready, returns, unfinished⟩⟩

/-- Port `c` is selected and asks for the line of an address, and the wrapper is in
`IDLE`. -/
structure Requested (x : System bw) (c : Fin n) (adr : BitVec 32) : Prop where
  selects : x.arbiter.selection.Selects c
  idle : x.wrapper.state = .idle
  noRead : x.wrapper.localReadReq = false
  port : Filling (x.arbiter.ports c).sdram 0
  adr : (x.arbiter.ports c).sdram.adrOR = adr
  quiet : inFlight (x.arbiter.ports c).sdram = []

/-- The words in their places. -/
def inPlace (b : Nat) (words : List (BitVec 32)) : List (BitVec b × BitVec 32) :=
  words.zipIdx.map fun word => (BitVec.ofNat b word.2, word.1)

/-- The line is filled: `run` is what happens until the controller has finished, and `last`
is the edge after it. -/
structure Refilled (c : Fin n) (adr : BitVec 32) (x : System bw × Refill aw (bw c))
    (run : List (Instant n)) (last : Instant n) : Prop where
  /-- One burst was asked for, the whole line from its first word on. -/
  asked : ∃ size, size.toNat = 2 ^ bw c ∧
    (Trace.after (refillStep aw bw c) x run).2.bursts = [⟨lineAddress aw (bw c) adr, size⟩]
  returned : (Trace.after (refillStep aw bw c) x run).2.returned.length = 2 ^ bw c
  /-- `read_done` rises with the last word. -/
  notDone : Trace.Always (refillStep aw bw c)
    (fun y _ => (y.1.arbiter.ports c).sdram.readDone = false) x run
  done : ((Trace.after (refillStep aw bw c) x run).1.arbiter.ports c).sdram.readDone = true
  clean : ((Trace.after (refillStep aw bw c) x run).1.arbiter.ports c).sdram.bufClean =
    BitVec.allOnes _
  /-- The words were written once each, the `k`-th into word `k`. -/
  written : (Trace.after (refillStep aw bw c) x (run ++ [last])).2.written =
    inPlace (bw c) (Trace.after (refillStep aw bw c) x run).2.returned
  idle : (Trace.after (refillStep aw bw c) x (run ++ [last])).1.wrapper.state = .idle
  left : (Trace.after (refillStep aw bw c) x (run ++ [last])).2.owed = 0

/-! ## Port, wrapper and controller through a refill -/

/-- How far a refill has come. -/
inductive Filled (c : Fin n) (adr : BitVec 32) (x : System bw) (refill : Refill aw (bw c)) :
    Prop where
  /-- The wrapper has not taken the request. -/
  | requested (idle : x.wrapper.state = .idle) (noRead : x.wrapper.localReadReq = false)
      (port : Filling (x.arbiter.ports c).sdram 0) (adrO : (x.arbiter.ports c).sdram.adrOR = adr)
      (quiet : inFlight (x.arbiter.ports c).sdram = []) (none : refill = .start aw (bw c))
  /-- The burst is presented. -/
  | presented (state : x.wrapper.state = .read) (request : x.wrapper.localReadReq = true)
      (size : x.wrapper.localSize = (1 : BitVec 7) <<< (BitVec.ofNat 4 (bw c)).toNat)
      (count : x.wrapper.count = 0) (place : wordOf (bw c) x.wrapper.adr = 0)
      (port : Filling (x.arbiter.ports c).sdram 0) (adrO : (x.arbiter.ports c).sdram.adrOR = adr)
      (quiet : inFlight (x.arbiter.ports c).sdram = []) (none : refill = .start aw (bw c))
  /-- The first `k` words have come. -/
  | words (k : Nat) (below : k < 2 ^ bw c) (state : x.wrapper.state = .read)
      (noRead : x.wrapper.localReadReq = false) (count : x.wrapper.count = BitVec.ofNat 32 k)
      (place : wordOf (bw c) x.wrapper.adr = BitVec.ofNat (bw c) k)
      (port : Filling (x.arbiter.ports c).sdram k)
      (bursts : refill.bursts =
        [⟨lineAddress aw (bw c) adr, (1 : BitVec 7) <<< (BitVec.ofNat 4 (bw c)).toNat⟩])
      (owed : refill.owed + k = 2 ^ bw c) (returned : refill.returned.length = k)
      (written : refill.written ++ inFlight (x.arbiter.ports c).sdram =
        inPlace (bw c) refill.returned)
  /-- All words have come. -/
  | complete (state : x.wrapper.state = .read) (noRead : x.wrapper.localReadReq = false)
      (count : x.wrapper.count.toNat = 2 ^ bw c)
      (done : (x.arbiter.ports c).sdram.readDone = true)
      (clean : (x.arbiter.ports c).sdram.bufClean = BitVec.allOnes _)
      (bursts : refill.bursts =
        [⟨lineAddress aw (bw c) adr, (1 : BitVec 7) <<< (BitVec.ofNat 4 (bw c)).toNat⟩])
      (owed : refill.owed = 0) (returned : refill.returned.length = 2 ^ bw c)
      (written : refill.written ++ inFlight (x.arbiter.ports c).sdram =
        inPlace (bw c) refill.returned)

/-- The invariant of a refill. -/
structure Refilling (c : Fin n) (adr : BitVec 32) (y : System bw × Refill aw (bw c)) : Prop where
  selects : y.1.arbiter.selection.Selects c
  filled : Filled c adr y.1 y.2

/-- `local_size_o` of a line that is not too long for it. -/
theorem toNat_localSize {b : Nat} (fits : b ≤ 6) :
    ((1 : BitVec 7) <<< (BitVec.ofNat 4 b).toNat).toNat = 2 ^ b := by
  have small : 2 ^ b ≤ 2 ^ 6 := Nat.pow_le_pow_right (by omega) fits
  have one : (1 : BitVec 7).toNat * 2 ^ b = 2 ^ b := one_mul _
  rw [BitVec.toNat_shiftLeft, Nat.shiftLeft_eq, toNat_bufWidth (by omega), one]
  exact Nat.mod_eq_of_lt (by omega)

theorem inPlace_append {b : Nat} (words : List (BitVec 32)) (word : BitVec 32) :
    inPlace b (words ++ [word]) = inPlace b words ++ [(BitVec.ofNat b words.length, word)] := by
  simp [inPlace, List.zipIdx_append]

section

variable {x : System bw} {refill : Refill aw (bw c)} {e : Instant n} {pins : LocalPins}

/-- The command of a port that asks for a line. -/
theorem command_of_filling {k : Nat} (selects : x.arbiter.selection.Selects c)
    (port : Filling (x.arbiter.ports c).sdram k) :
    command x.arbiter =
      ⟨true, false, (x.arbiter.ports c).sdram.adrOR, BitVec.ofNat 4 (bw c)⟩ := by
  rw [command_of_selects selects, port.acc, port.we]
  simp [portAdrO, port.state]

/-- Words are acknowledged as they come. -/
theorem ackI_of_filling {k : Nat} (selects : x.arbiter.selection.Selects c)
    (port : Filling (x.arbiter.ports c).sdram k) :
    (x.portPins pins c).ackI = pins.localRdataValid := by
  simp [System.portPins, portAckI_of_selects selects, ackO_of_selects selects, port.acc, port.we]

/-- The port stays selected while it asks. -/
theorem selects_of_filling {k : Nat} (selects : x.arbiter.selection.Selects c)
    (port : Filling (x.arbiter.ports c).sdram k) (edge : e.sdram = some pins)
    (running : pins.localResetN = true) : (x.step e).arbiter.selection.Selects c :=
  (selects_step selects edge running).2 (.inr port.acc)

/-- An edge without a word leaves the port where it is. -/
theorem port_hold {k : Nat} (selects : x.arbiter.selection.Selects c)
    (port : Filling (x.arbiter.ports c).sdram k) (edge : e.sdram = some pins)
    (running : pins.localResetN = true) (invalid : pins.localRdataValid = false) :
    Filling ((x.step e).arbiter.ports c).sdram k ∧
      ((x.step e).arbiter.ports c).sdram.adrOR = (x.arbiter.ports c).sdram.adrOR ∧
      inFlight ((x.step e).arbiter.ports c).sdram = [] := by
  rw [sdram_of_edge edge c]
  exact port.hold (by simp [System.portPins, running])
    ((ackI_of_filling selects port).trans invalid)

namespace Filled

theorem step_requested (selects : x.arbiter.selection.Selects c) (narrow : bw c ≤ 7)
    (obliging : Obliging c (x, Refill.start aw (bw c)) e) (edge : e.sdram = some pins)
    (idle : x.wrapper.state = .idle) (noRead : x.wrapper.localReadReq = false)
    (port : Filling (x.arbiter.ports c).sdram 0) (adrO : (x.arbiter.ports c).sdram.adrOR = adr)
    (quiet : inFlight (x.arbiter.ports c).sdram = []) :
    Filled c adr (x.step e) (Refill.record c x e (.start aw (bw c))) := by
  have running : pins.localResetN = true := obliging.running pins edge
  have invalid : pins.localRdataValid = false := by
    rw [← Bool.not_eq_true]
    exact fun valid => absurd (obliging.returns pins edge valid) (Nat.lt_irrefl 0)
  have record : Refill.record c x e (.start aw (bw c)) = .start aw (bw c) := by
    simp [Refill.record, edge, noRead, invalid, quiet, Refill.start]
  obtain ⟨port', adrO', quiet'⟩ := port_hold selects port edge running invalid
  have wrapper : (x.step e).wrapper = _ := wrapper_of_edge edge running
  rw [record]
  cases ready : pins.localReady with
  | false =>
      refine .requested ?_ ?_ port' (adrO'.trans adrO) quiet' rfl
      · simp [wrapper, Wrapper.machine, idle, ready]
      · simp [wrapper, Wrapper.machine, idle, ready]
  | true =>
      have taken : (x.step e).wrapper.adr = adr &&& ~~~getMask (BitVec.ofNat 4 (bw c) + 2) := by
        simp [wrapper, Wrapper.machine, idle, ready, command_of_filling selects port, adrO]
      refine .presented ?_ ?_ ?_ ?_ ?_ port' (adrO'.trans adrO) quiet' rfl
      case refine_5 =>
          rw [taken]
          exact wordOf_first narrow adr
      all_goals simp [wrapper, Wrapper.machine, idle, ready, command_of_filling selects port]

theorem step_presented (selects : x.arbiter.selection.Selects c) (fits : bw c ≤ 6)
    (obliging : Obliging c (x, Refill.start aw (bw c)) e) (edge : e.sdram = some pins)
    (state : x.wrapper.state = .read) (request : x.wrapper.localReadReq = true)
    (size : x.wrapper.localSize = (1 : BitVec 7) <<< (BitVec.ofNat 4 (bw c)).toNat)
    (count : x.wrapper.count = 0) (place : wordOf (bw c) x.wrapper.adr = 0)
    (port : Filling (x.arbiter.ports c).sdram 0) (adrO : (x.arbiter.ports c).sdram.adrOR = adr)
    (quiet : inFlight (x.arbiter.ports c).sdram = []) :
    Filled c adr (x.step e) (Refill.record c x e (.start aw (bw c))) := by
  have running : pins.localResetN = true := obliging.running pins edge
  have ready : pins.localReady = true := obliging.ready pins edge request
  have invalid : pins.localRdataValid = false := by
    rw [← Bool.not_eq_true]
    exact fun valid => absurd (obliging.returns pins edge valid) (Nat.lt_irrefl 0)
  have command := command_of_filling selects port
  have total : x.wrapper.localSize.toNat = 2 ^ bw c := by
    rw [size]
    exact toNat_localSize fits
  have below : x.wrapper.count.toNat < 2 ^ (WbDdrCtrl.command x.arbiter).bufWidthI.toNat := by
    rw [count]
    exact Nat.two_pow_pos _
  obtain ⟨state', -, noRead', -, count', adr'⟩ := Wrapper.machine_of_below pins state below
  rw [invalid, if_neg Bool.false_ne_true] at count' adr'
  obtain ⟨port', adrO', quiet'⟩ := port_hold selects port edge running invalid
  have wrapper : (x.step e).wrapper = _ := wrapper_of_edge edge running
  refine .words 0 (Nat.two_pow_pos _) ?_ ?_ ?_ ?_ port' ?_ ?_ ?_ ?_
  · rw [wrapper]
    exact state'
  · rw [wrapper]
    exact noRead'
  · rw [wrapper, count', count]
    rfl
  · rw [wrapper, adr', place]
    rfl
  · simp [Refill.record, edge, request, ready, size, command, adrO,
      localAddressO_line aw (by omega : bw c ≤ 7), Refill.start]
  · simp [Refill.record, edge, request, ready, total, invalid, Refill.start]
  · simp [Refill.record, edge, invalid, Refill.start]
  · simp [Refill.record, edge, invalid, quiet, quiet', Refill.start, inPlace]

theorem step_words (selects : x.arbiter.selection.Selects c) (narrow : bw c ≤ 7)
    (obliging : Obliging c (x, refill) e) (edge : e.sdram = some pins) {k : Nat}
    (below : k < 2 ^ bw c) (state : x.wrapper.state = .read)
    (noRead : x.wrapper.localReadReq = false) (count : x.wrapper.count = BitVec.ofNat 32 k)
    (place : wordOf (bw c) x.wrapper.adr = BitVec.ofNat (bw c) k)
    (port : Filling (x.arbiter.ports c).sdram k)
    (bursts : refill.bursts =
      [⟨lineAddress aw (bw c) adr, (1 : BitVec 7) <<< (BitVec.ofNat 4 (bw c)).toNat⟩])
    (owed : refill.owed + k = 2 ^ bw c) (returned : refill.returned.length = k)
    (written : refill.written ++ inFlight (x.arbiter.ports c).sdram =
      inPlace (bw c) refill.returned) :
    Filled c adr (x.step e) (Refill.record c x e refill) := by
  have running : pins.localResetN = true := obliging.running pins edge
  have small : 2 ^ bw c ≤ 2 ^ 7 := Nat.pow_le_pow_right (by omega) narrow
  have command := command_of_filling selects port
  have counted : x.wrapper.count.toNat = k := by
    rw [count, BitVec.toNat_ofNat]
    exact Nat.mod_eq_of_lt (by omega)
  have going : x.wrapper.count.toNat < 2 ^ (WbDdrCtrl.command x.arbiter).bufWidthI.toNat := by
    rw [command, toNat_bufWidth narrow, counted]
    exact below
  obtain ⟨state', -, noRead', -, count', adr'⟩ := Wrapper.machine_of_below pins state going
  have wrapper : (x.step e).wrapper = _ := wrapper_of_edge edge running
  rw [← wrapper] at state' noRead' count' adr'
  have bursts' : (Refill.record c x e refill).bursts = refill.bursts := by
    simp [Refill.record, edge, noRead]
  have written' : (Refill.record c x e refill).written = inPlace (bw c) refill.returned := by
    rw [← written]
    simp [Refill.record, edge]
  cases valid : pins.localRdataValid with
  | false =>
      rw [valid, if_neg Bool.false_ne_true] at count' adr'
      obtain ⟨port', -, quiet'⟩ := port_hold selects port edge running valid
      have returned' : (Refill.record c x e refill).returned = refill.returned := by
        simp [Refill.record, edge, valid]
      refine .words k below state' noRead' (by rw [count', count]) (by rw [adr', place]) port'
        (by rw [bursts', bursts]) ?_ (by rw [returned', returned]) ?_
      · simpa [Refill.record, edge, valid, noRead] using owed
      · rw [quiet', written', returned', List.append_nil]
  | true =>
      rw [valid, if_pos rfl] at count' adr'
      have acked : (x.portPins pins c).ackI = true := (ackI_of_filling selects port).trans valid
      have reset : (x.portPins pins c).sdramRst = false := by simp [System.portPins, running]
      have owed' : (Refill.record c x e refill).owed = refill.owed - 1 := by
        simp [Refill.record, edge, valid, noRead]
      have returned' : (Refill.record c x e refill).returned =
          refill.returned ++ [pins.localRdata] := by
        simp [Refill.record, edge, valid]
      have next : x.wrapper.count + 1 = BitVec.ofNat 32 (k + 1) := by
        rw [count]
        exact (BitVec.ofNat_add k 1).symm
      have inPlace' : inPlace (bw c) (Refill.record c x e refill).returned =
          (Refill.record c x e refill).written ++ [(BitVec.ofNat (bw c) k, pins.localRdata)] := by
        rw [returned', inPlace_append, written', returned]
      by_cases full : k + 1 = 2 ^ bw c
      · obtain ⟨done', clean', -, flight'⟩ :
            ((x.step e).arbiter.ports c).sdram.readDone = true ∧
            ((x.step e).arbiter.ports c).sdram.bufClean = BitVec.allOnes _ ∧
            ((x.step e).arbiter.ports c).sdram.accO = false ∧
            inFlight ((x.step e).arbiter.ports c).sdram =
              [(BitVec.ofNat (bw c) k, pins.localRdata)] := by
          rw [sdram_of_edge edge c]
          exact port.last narrow reset acked place full
        refine .complete state' noRead' ?_ done' clean' (by rw [bursts', bursts]) (by omega) ?_ ?_
        · rw [count', next, full]
          exact (toNat_ofNat_lineLength narrow).1
        · rw [returned', List.length_append, returned]
          exact full
        · rw [flight', inPlace']
      · obtain ⟨port', -, flight'⟩ :
            Filling ((x.step e).arbiter.ports c).sdram (k + 1) ∧
            ((x.step e).arbiter.ports c).sdram.adrOR = (x.arbiter.ports c).sdram.adrOR ∧
            inFlight ((x.step e).arbiter.ports c).sdram =
              [(BitVec.ofNat (bw c) k, pins.localRdata)] := by
          rw [sdram_of_edge edge c]
          exact port.word narrow reset acked place (by omega)
        refine .words (k + 1) (by omega) state' noRead' (by rw [count', next]) ?_ port'
          (by rw [bursts', bursts]) (by omega) ?_ ?_
        · rw [adr', command, wordOf_next narrow, place]
          exact (BitVec.ofNat_add k 1).symm
        · rw [returned', List.length_append, returned]
          rfl
        · rw [flight', inPlace']

/-- An instant without an edge of `sdram_clk`. -/
theorem step_unclocked (filled : Filled c adr x refill) (unclocked : e.sdram = none) :
    Filled c adr (x.step e) (Refill.record c x e refill) := by
  obtain ⟨ports, -, wrapper⟩ := WbDdrCtrl.step_unclocked x unclocked
  have record : Refill.record c x e refill = refill := by simp [Refill.record, unclocked]
  rw [record]
  cases filled with
  | requested idle noRead port adrO quiet none =>
      refine .requested ?_ ?_ ?_ ?_ ?_ none <;> simpa [ports, wrapper]
  | presented state request size count place port adrO quiet none =>
      refine .presented ?_ ?_ ?_ ?_ ?_ ?_ ?_ ?_ none <;> simpa [ports, wrapper]
  | words k below state noRead count place port bursts owed returned written =>
      refine .words k below ?_ ?_ ?_ ?_ ?_ bursts owed returned ?_ <;> simpa [ports, wrapper]
  | complete state noRead count done clean bursts owed returned written =>
      refine .complete ?_ ?_ ?_ ?_ ?_ bursts owed returned ?_ <;> simpa [ports, wrapper]

/-- Until the last word has come, `read_done` is low. -/
theorem notDone (filled : Filled c adr x refill) (unfinished : ¬refill.Finished) :
    (x.arbiter.ports c).sdram.readDone = false := by
  cases filled with
  | requested _ _ port => exact port.notDone
  | presented _ _ _ _ _ port => exact port.notDone
  | words _ _ _ _ _ _ port => exact port.notDone
  | complete _ _ _ _ _ bursts owed =>
      exact absurd ⟨by rw [bursts]; exact List.cons_ne_nil _ _, owed⟩ unfinished

end Filled

/-- **An instant keeps the invariant of a refill.** -/
theorem Refilling.step {y : System bw × Refill aw (bw c)} (refilling : Refilling c adr y)
    (fits : bw c ≤ 6) (obliging : Obliging c y e) :
    Refilling c adr (refillStep aw bw c y e) := by
  obtain ⟨x, refill⟩ := y
  obtain ⟨selects, filled⟩ := refilling
  cases edge : e.sdram with
  | none =>
      obtain ⟨-, selection, -⟩ := step_unclocked x edge
      refine ⟨?_, filled.step_unclocked edge⟩
      show (x.step e).arbiter.selection.Selects c
      rw [selection]
      exact selects
  | some pins =>
      have running : pins.localResetN = true := obliging.running pins edge
      cases filled with
      | requested idle noRead port adrO quiet none =>
          subst none
          exact ⟨selects_of_filling selects port edge running,
            .step_requested selects (by omega) obliging edge idle noRead port adrO quiet⟩
      | presented state request size count place port adrO quiet none =>
          subst none
          exact ⟨selects_of_filling selects port edge running,
            .step_presented selects fits obliging edge state request size count place port adrO
              quiet⟩
      | words k below state noRead count place port bursts owed returned written =>
          exact ⟨selects_of_filling selects port edge running,
            .step_words selects (by omega) obliging edge below state noRead count place port bursts
              owed returned written⟩
      | complete _ _ _ _ _ bursts owed =>
          exact absurd ⟨by rw [bursts]; exact List.cons_ne_nil _ _, owed⟩ obliging.unfinished

/-- The invariant holds when the port has asked for a line. -/
theorem Requested.refilling (requested : Requested x c adr) :
    Refilling c adr (x, Refill.start aw (bw c)) where
  selects := requested.selects
  filled := .requested requested.idle requested.noRead requested.port requested.adr
    requested.quiet rfl

/-- The edge after the last word: it is written, and the wrapper is back in `IDLE`. -/
theorem Refilling.last {y : System bw × Refill aw (bw c)} (refilling : Refilling c adr y)
    (narrow : bw c ≤ 7) (finished : y.2.Finished) (edge : e.sdram = some pins)
    (running : pins.localResetN = true) (silent : pins.localRdataValid = false) :
    (refillStep aw bw c y e).2.written = inPlace (bw c) y.2.returned ∧
      (refillStep aw bw c y e).1.wrapper.state = .idle ∧ (refillStep aw bw c y e).2.owed = 0 := by
  obtain ⟨bursts, owed⟩ := finished
  cases refilling.filled with
  | requested _ _ _ _ _ none => exact absurd (congrArg Refill.bursts none) bursts
  | presented _ _ _ _ _ _ _ _ none => exact absurd (congrArg Refill.bursts none) bursts
  | words k below _ _ _ _ _ _ due => omega
  | complete state noRead count _ _ _ _ _ written =>
      refine ⟨?_, ?_, ?_⟩
      · rw [← written]
        simp [Trace.monitored, Refill.record, edge]
      · have ends : y.1.wrapper.count = 1#32 <<< (command y.1.arbiter).bufWidthI.toNat := by
          refine (Wrapper.eq_shiftLeft_iff _ _).mpr ?_
          rw [command_of_selects refilling.selects, toNat_bufWidth narrow]
          exact count
        show (y.1.step e).wrapper.state = .idle
        rw [wrapper_of_edge edge running]
        simp [Wrapper.machine, state, ends, silent]
      · have left : (refillStep aw bw c y e).2.owed = y.2.owed := by
          simp [Trace.monitored, Refill.record, edge, noRead, silent]
        exact left.trans owed

/-- What the invariant says once the controller has finished. -/
theorem Refilling.complete {y : System bw × Refill aw (bw c)} (refilling : Refilling c adr y)
    (finished : y.2.Finished) :
    y.2.bursts = [⟨lineAddress aw (bw c) adr, (1 : BitVec 7) <<< (BitVec.ofNat 4 (bw c)).toNat⟩] ∧
      y.2.returned.length = 2 ^ bw c ∧ (y.1.arbiter.ports c).sdram.readDone = true ∧
      (y.1.arbiter.ports c).sdram.bufClean = BitVec.allOnes _ := by
  obtain ⟨bursts, owed⟩ := finished
  cases refilling.filled with
  | requested _ _ _ _ _ none => exact absurd (congrArg Refill.bursts none) bursts
  | presented _ _ _ _ _ _ _ _ none => exact absurd (congrArg Refill.bursts none) bursts
  | words _ below _ _ _ _ _ _ due => omega
  | complete _ _ _ done clean bursts _ returned => exact ⟨bursts, returned, done, clean⟩

end

/-- **A line that a port asks for, from whatever address and with whatever gaps between its
words, is asked for and filled as a whole if and only if `BUF_WIDTH` is at most six.** -/
theorem refilled_iff {x : System bw} (requested : Requested x c adr) {run : List (Instant n)}
    (obliging : Trace.Always (refillStep aw bw c) (Obliging c) (x, Refill.start aw (bw c)) run)
    (finished : (Trace.after (refillStep aw bw c) (x, Refill.start aw (bw c)) run).2.Finished)
    {last : Instant n} {pins : LocalPins} (edge : last.sdram = some pins)
    (running : pins.localResetN = true) (silent : pins.localRdataValid = false) :
    Refilled c adr (x, Refill.start aw (bw c)) run last ↔ bw c ≤ 6 := by
  constructor
  · rintro ⟨⟨size, value, -⟩, -⟩
    have short : 2 ^ bw c < 2 ^ 7 := by
      rw [← value]
      exact size.isLt
    exact Nat.lt_succ_iff.mp ((Nat.pow_lt_pow_iff_right (by omega)).mp short)
  · intro fits
    have refilling : Refilling c adr
        (Trace.after (refillStep aw bw c) (x, Refill.start aw (bw c)) run) :=
      obliging.invariant (Refilling c adr) (fun _ _ refilling step => refilling.step fits step)
        requested.refilling
    have notDone : Trace.Always (refillStep aw bw c)
        (fun y _ => (y.1.arbiter.ports c).sdram.readDone = false) (x, Refill.start aw (bw c)) run :=
      obliging.of_invariant (Refilling c adr) (fun _ _ refilling step => refilling.step fits step)
        (fun _ _ refilling step => refilling.filled.notDone step.unfinished) requested.refilling
    obtain ⟨bursts, returned, done, clean⟩ := refilling.complete finished
    obtain ⟨written, idle, left⟩ := refilling.last (by omega) finished edge running silent
    have ends := Trace.after_concat (refillStep aw bw c) (x, Refill.start aw (bw c)) run last
    rw [← ends] at written idle left
    exact ⟨⟨_, toNat_localSize fits, bursts⟩, returned, notDone, done, clean, written, idle, left⟩

/-- An edge of `local_clk_i`, with or without a word. -/
def wordEdge {n : Nat} (valid : Bool) (word : BitVec 32) : Instant n where
  wb := none
  sdram := some ⟨true, word, valid, true⟩

/-- Port 1 of two, with lines of two words, has asked for a line. -/
def twoWords : System (n := 2) (fun _ => 1) :=
  Trace.after System.step (unused.step (localEdge false false)) (fetchRun.take 5)

theorem requested_twoWords : Requested twoWords 1 0x100 where
  selects := ⟨by decide +kernel, by decide +kernel⟩
  idle := by decide +kernel
  noRead := by decide +kernel
  port := ⟨by decide +kernel, by decide +kernel, by decide +kernel, by decide +kernel,
    by decide +kernel, by decide +kernel⟩
  adr := by decide +kernel
  quiet := by decide +kernel

/-- The two words come with a gap between them. -/
def gapRun : List (Instant 2) :=
  [wordEdge false 0, wordEdge false 0, wordEdge true 0xaa, wordEdge false 0, wordEdge true 0xbb]

theorem refilled_gapRun :
    Refilled 1 0x100 (twoWords, Refill.start 25 1) gapRun (wordEdge false 0) :=
  (refilled_iff requested_twoWords (by decide +kernel) (by decide +kernel) rfl rfl rfl).mpr
    (by decide)

/-- One port with lines of 128 words, not used yet. -/
def unusedWide : System (n := 1) (fun _ => 7) where
  arbiter :=
    { ports := fun _ =>
        { wb := ⟨0, 0, 0, false, false, false, false, true, .idle, 0, false, false, 0, 0⟩
          sdram := ⟨false, false, .idle, false, false, 0, false, 0, false, 0, 0, 0⟩
          wrfifo := ⟨⟨0, 0, 0, 0, false, fun _ => 0⟩, ⟨0, 0, 0, 0, true, 0⟩⟩
          bufram := fun _ => 0
          wbDatO := 0
          wbDatX := 0 }
      bufw := fun _ => ⟨0, 0, 0, false⟩
      portSel := 1
      portEnc := 0 }
  wrapper := ⟨false, false, false, 1, .waitReady, 0, false, 0⟩

/-- The read of a word, and the edges until the port asks for its line. -/
def askRun : List (Instant 1) :=
  ⟨some
    { wbRst := false
      bus := fun _ => ⟨0x1234, 0, 0xf, false, true, true, .classic, .linear⟩ }, none⟩ ::
    List.replicate 3 (wordEdge false 0)

/-- The port has asked for the line. -/
def wholeBuffer : System (n := 1) (fun _ => 7) := Trace.after System.step unusedWide askRun

theorem requested_wholeBuffer : Requested wholeBuffer 0 0x1234 where
  selects := ⟨by decide +kernel, by decide +kernel⟩
  idle := by decide +kernel
  noRead := by decide +kernel
  port := ⟨by decide +kernel, by decide +kernel, by decide +kernel, by decide +kernel,
    by decide +kernel, by decide +kernel⟩
  adr := by decide +kernel
  quiet := by decide +kernel

/-- The longest line is asked for with `local_size_o = 0`. -/
theorem wholeBuffer_not_refilled :
    Requested wholeBuffer 0 0x1234 ∧
      Trace.Always (refillStep 25 (fun _ : Fin 1 => 7) 0) (Obliging 0)
        (wholeBuffer, Refill.start 25 7) [wordEdge false 0, wordEdge false 0] ∧
      (Trace.after (refillStep 25 (fun _ : Fin 1 => 7) 0) (wholeBuffer, Refill.start 25 7)
        [wordEdge false 0, wordEdge false 0]).2.bursts = [⟨0x480, 0⟩] ∧
      ¬Refilled 0 0x1234 (wholeBuffer, Refill.start 25 7) [wordEdge false 0, wordEdge false 0]
        (wordEdge false 0) := by
  refine ⟨requested_wholeBuffer, by decide +kernel, by decide +kernel, ?_⟩
  rintro ⟨⟨size, value, -⟩, -⟩
  exact absurd value size.isLt.ne

end OrpsocCores.WbDdrCtrl
