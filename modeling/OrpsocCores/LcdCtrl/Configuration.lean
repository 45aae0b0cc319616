import OrpsocCores.LcdCtrl.Phase

/-!
# The configuration of the LCD panel

The controller and the panel follow the phases edge by edge: `Stands.step` takes an edge, and
`Stands.run` the whole run.  An edge of a wait moves nothing but `delay` (`Counts`), and what
else can happen is one lemma for each phase.

`configures`: whatever the registers held before the reset, the panel takes the writes of
`init_values` in their order, each with its sixteen bits, none twice, all of them after the
number of edges that `configurationCycles` gives, and nothing after that.  `lcd_sda` is stable
for `BIT_DELAY` edges on both sides of every rising edge of `lcd_scl`.
-/

set_option autoImplicit false

namespace OrpsocCores.LcdCtrl

/-! ## The controller and the panel -/

/-- The panel has taken the first `r` register writes and is not selected. -/
structure Between (x : Board) (r : Nat) : Prop where
  lcdScen : x.regs.lcdScen = true
  lcdScl : x.regs.lcdScl = false
  bits : x.panel.bits = []
  writes : x.panel.writes = (initValues.take r).map msbFirst

/-- The controller will load the `r`-th register write. -/
structure Loads (x : Board) (r : Nat) : Prop extends Between x r where
  curReg : x.regs.curReg = BitVec.ofNat 8 r
  lcdReq : x.regs.lcdReq = true

/-- The `r`-th register write is on the wires, and the panel has taken `b` bits of it. -/
structure Sends (x : Board) (r b : Nat) : Prop where
  lcdScen : x.regs.lcdScen = false
  curReg : x.regs.curReg = BitVec.ofNat 8 (min (r + 1) (nbInitRegs - 1))
  lcdReq : x.regs.lcdReq = decide (r < nbInitRegs - 1)
  lcdSerialDat : x.regs.lcdSerialDat = initValues.getD r 0
  bits : x.panel.bits = firstBits (initValues.getD r 0) b
  writes : x.panel.writes = (initValues.take r).map msbFirst

/-- The controller and the panel are at a phase. -/
def Stands (f : Nat) (x : Board) : Phase → Prop
  | .resetting d => x.regs.state = .lcdReset ∧ x.regs.delay = d ∧ Loads x 0
  | .starting d => x.regs.state = .startDelay ∧ x.regs.delay = d ∧ Loads x 0
  | .idle r => x.regs.state = .idle ∧ Loads x r
  | .framing r d =>
      x.regs.state = .delayInit ∧ x.regs.delay = d ∧ x.regs.lcdScl = false ∧
        x.regs.bitIdx = 0 ∧ d ≤ x.panel.held ∧ Sends x r 0
  | .shifting r b =>
      x.regs.state = .startXfer ∧ x.regs.delay = 0 ∧ x.regs.lcdScl = false ∧
        x.regs.bitIdx = BitVec.ofNat 5 b ∧ bitDelay f ≤ x.panel.held ∧ Sends x r b
  | .low r b d =>
      x.regs.state = .clkPulse0 ∧ x.regs.delay = d ∧ x.regs.lcdScl = false ∧
        x.regs.bitIdx = BitVec.ofNat 5 b ∧ d ≤ x.panel.stable ∧
        x.regs.lcdSda = (initValues.getD r 0).getLsbD (15 - b) ∧ Sends x r b
  | .high r b d =>
      x.regs.state = .clkPulse1 ∧ x.regs.delay = d ∧ x.regs.lcdScl = true ∧
        x.regs.bitIdx = BitVec.ofNat 5 b ∧ d ≤ x.panel.held ∧ Sends x r (b + 1)
  | .ending r d =>
      x.regs.state = .done ∧ x.regs.delay = d ∧ x.regs.lcdScl = false ∧ Sends x r 16
  | .pausing r d => x.regs.state = .wait ∧ x.regs.delay = d ∧ Loads x (r + 1)
  | .ended => x.regs.state = .done ∧ x.regs.lcdReq = false ∧ Between x nbInitRegs

/-! ## One edge -/

section States

variable (f : Nat) {s : Regs}

theorem Regs.clk_lcdReset (state : s.state = .lcdReset) :
    s.clk f = s.waits (resetDelay f)
      { s with delay := 0, lcdRstN := true, state := .startDelay } := by
  rw [clk, state]

theorem Regs.clk_startDelay (state : s.state = .startDelay) :
    s.clk f = s.waits (startupDelay f) { s with delay := 0, state := .idle } := by
  rw [clk, state]

theorem Regs.clk_delayInit (state : s.state = .delayInit) :
    s.clk f = s.waits (bitDelay f) { s with delay := 0, state := .startXfer } := by
  rw [clk, state]

theorem Regs.clk_clkPulse0 (state : s.state = .clkPulse0) :
    s.clk f = s.waits (bitDelay f) { s with delay := 0, state := .clkPulse1, lcdScl := true } := by
  rw [clk, state]

theorem Regs.clk_clkPulse1 (state : s.state = .clkPulse1) :
    s.clk f = s.waits (bitDelay f)
      { s with delay := 0, lcdScl := false, state := .startXfer, bitIdx := s.bitIdx + 1 } := by
  rw [clk, state]

theorem Regs.clk_done (state : s.state = .done) :
    s.clk f = s.waits (bitDelay f)
      { s with lcdScen := true, delay := 0, state := if s.lcdReq then .wait else .done } := by
  rw [clk, state]

theorem Regs.clk_wait (state : s.state = .wait) :
    s.clk f = s.waits (bitDelay f) { s with state := .idle } := by
  rw [clk, state]

end States

/-- An edge at which the panel takes nothing, and the register write is the same. -/
structure Quiet (s s' : Regs) : Prop where
  lcdScen : s'.lcdScen = s.lcdScen
  lcdScl : s.lcdScl = false → s'.lcdScl = false
  curReg : s'.curReg = s.curReg
  lcdReq : s'.lcdReq = s.lcdReq
  lcdSerialDat : s'.lcdSerialDat = s.lcdSerialDat

namespace Quiet

variable {x : Board} {f r b : Nat}

theorem not_rises {s s' : Regs} (quiet : Quiet s s') : ¬ Panel.Rises s s' := by
  rintro ⟨low, high, _⟩
  rw [quiet.lcdScl low] at high
  exact Bool.false_ne_true high

theorem not_ends {s s' : Regs} (quiet : Quiet s s') :
    ¬ (s.lcdScen = false ∧ s'.lcdScen = true) := by
  rintro ⟨low, high⟩
  rw [quiet.lcdScen, low] at high
  exact Bool.false_ne_true high

theorem bits (quiet : Quiet x.regs (x.regs.clk f)) : (x.clk f).panel.bits = x.panel.bits := by
  simp only [Board.clk, Panel.sees, if_neg quiet.not_ends, if_neg quiet.not_rises]

theorem writes (quiet : Quiet x.regs (x.regs.clk f)) :
    (x.clk f).panel.writes = x.panel.writes := by
  simp only [Board.clk, Panel.sees, if_neg quiet.not_ends]

theorem held (quiet : Quiet x.regs (x.regs.clk f)) :
    (x.clk f).panel.held = x.panel.held + 1 := by
  simp only [Board.clk, Panel.sees, if_neg quiet.not_rises]

theorem between (quiet : Quiet x.regs (x.regs.clk f)) (before : Between x r) :
    Between (x.clk f) r where
  lcdScen := quiet.lcdScen.trans before.lcdScen
  lcdScl := quiet.lcdScl before.lcdScl
  bits := quiet.bits.trans before.bits
  writes := quiet.writes.trans before.writes

theorem loads (quiet : Quiet x.regs (x.regs.clk f)) (before : Loads x r) :
    Loads (x.clk f) r where
  toBetween := quiet.between before.toBetween
  curReg := quiet.curReg.trans before.curReg
  lcdReq := quiet.lcdReq.trans before.lcdReq

theorem sends (quiet : Quiet x.regs (x.regs.clk f)) (before : Sends x r b) :
    Sends (x.clk f) r b where
  lcdScen := quiet.lcdScen.trans before.lcdScen
  curReg := quiet.curReg.trans before.curReg
  lcdReq := quiet.lcdReq.trans before.lcdReq
  lcdSerialDat := quiet.lcdSerialDat.trans before.lcdSerialDat
  bits := quiet.bits.trans before.bits
  writes := quiet.writes.trans before.writes

end Quiet

theorem stable_clk {x : Board} {f : Nat} (same : (x.regs.clk f).lcdSda = x.regs.lcdSda) :
    (x.clk f).panel.stable = x.panel.stable + 1 :=
  if_pos same

theorem firstBits_succ (word : BitVec 16) (b : Nat) :
    firstBits word (b + 1) = firstBits word b ++ [word.getLsbD (15 - b)] := by
  rw [firstBits, List.range_succ, List.map_append]
  rfl

theorem initValues_length : initValues.length = nbInitRegs := rfl

theorem writes_succ {r : Nat} (known : r < nbInitRegs) :
    (initValues.take (r + 1)).map msbFirst =
      (initValues.take r).map msbFirst ++ [msbFirst (initValues.getD r 0)] := by
  have within : r < initValues.length := known
  rw [List.take_add_one, List.map_append, List.getD_eq_getElem?_getD,
    List.getElem?_eq_getElem within]
  rfl

/-- An edge of a wait: nothing but `delay` moves. -/
structure Counts (f : Nat) (x : Board) (d : Int) : Prop
    extends Quiet x.regs (x.regs.clk f) where
  state : (x.regs.clk f).state = x.regs.state
  delay : (x.regs.clk f).delay = d + 1
  bitIdx : (x.regs.clk f).bitIdx = x.regs.bitIdx
  sameScl : (x.regs.clk f).lcdScl = x.regs.lcdScl
  sameSda : (x.regs.clk f).lcdSda = x.regs.lcdSda

section Waits

variable {f bound : Nat} {x : Board} {d : Int} {after : Regs}

theorem Counts.of_waits (waits : x.regs.clk f = x.regs.waits bound after)
    (delay : x.regs.delay = d) (more : d < bound) : Counts f x d := by
  have regs : x.regs.clk f = { x.regs with delay := d + 1 } := by
    rw [waits, Regs.waits, delay, if_pos more]
  exact
    { lcdScen := by rw [regs]
      lcdScl := fun low => by rw [regs]; exact low
      curReg := by rw [regs]
      lcdReq := by rw [regs]
      lcdSerialDat := by rw [regs]
      state := by rw [regs]
      delay := by rw [regs]
      bitIdx := by rw [regs]
      sameScl := by rw [regs]
      sameSda := by rw [regs] }

/-- The edge that ends a wait. -/
theorem clk_of_waits (waits : x.regs.clk f = x.regs.waits bound after)
    (delay : x.regs.delay = d) (done : ¬ d < bound) : x.regs.clk f = after := by
  rw [waits, Regs.waits, delay, if_neg done]

end Waits

namespace Stands

variable {f r b d : Nat} {x : Board}

theorem resetting {d : Int} (stands : Stands f x (.resetting d)) :
    Stands f (x.clk f) ((Phase.resetting d).next f) := by
  obtain ⟨state, delay, loads⟩ := stands
  have waits := Regs.clk_lcdReset f state
  rw [Phase.next]
  split
  case isTrue more =>
    have counts := Counts.of_waits waits delay more
    exact ⟨counts.state.trans state, counts.delay, counts.toQuiet.loads loads⟩
  case isFalse done =>
    have regs := clk_of_waits waits delay done
    have quiet : Quiet x.regs (x.regs.clk f) := regs ▸ ⟨rfl, id, rfl, rfl, rfl⟩
    exact ⟨congrArg Regs.state regs, congrArg Regs.delay regs, quiet.loads loads⟩

theorem starting (stands : Stands f x (.starting d)) :
    Stands f (x.clk f) ((Phase.starting d).next f) := by
  obtain ⟨state, delay, loads⟩ := stands
  have waits := Regs.clk_startDelay f state
  rw [Phase.next]
  split
  case isTrue more =>
    have counts := Counts.of_waits waits delay (Int.ofNat_lt.mpr more)
    exact ⟨counts.state.trans state, counts.delay, counts.toQuiet.loads loads⟩
  case isFalse done =>
    have regs := clk_of_waits waits delay (mt Int.ofNat_lt.mp done)
    have quiet : Quiet x.regs (x.regs.clk f) := regs ▸ ⟨rfl, id, rfl, rfl, rfl⟩
    exact ⟨congrArg Regs.state regs, quiet.loads loads⟩

theorem framing (stands : Stands f x (.framing r d)) :
    Stands f (x.clk f) ((Phase.framing r d).next f) := by
  obtain ⟨state, delay, low, bitIdx, held, sends⟩ := stands
  have waits := Regs.clk_delayInit f state
  rw [Phase.next]
  split
  case isTrue more =>
    have counts := Counts.of_waits waits delay (Int.ofNat_lt.mpr more)
    have later := counts.toQuiet.held
    exact ⟨counts.state.trans state, counts.delay, counts.sameScl.trans low,
      counts.bitIdx.trans bitIdx, by omega, counts.toQuiet.sends sends⟩
  case isFalse done =>
    have regs := clk_of_waits waits delay (mt Int.ofNat_lt.mp done)
    have quiet : Quiet x.regs (x.regs.clk f) := regs ▸ ⟨rfl, id, rfl, rfl, rfl⟩
    have later := quiet.held
    exact ⟨congrArg Regs.state regs, congrArg Regs.delay regs, quiet.lcdScl low,
      (congrArg Regs.bitIdx regs).trans bitIdx, by omega, quiet.sends sends⟩

theorem low (stands : Stands f x (.low r b d)) :
    Stands f (x.clk f) ((Phase.low r b d).next f) := by
  obtain ⟨state, delay, low, bitIdx, stable, bit, sends⟩ := stands
  have waits := Regs.clk_clkPulse0 f state
  rw [Phase.next]
  split
  case isTrue more =>
    have counts := Counts.of_waits waits delay (Int.ofNat_lt.mpr more)
    have later := stable_clk counts.sameSda
    exact ⟨counts.state.trans state, counts.delay, counts.sameScl.trans low,
      counts.bitIdx.trans bitIdx, by omega, counts.sameSda.trans bit,
      counts.toQuiet.sends sends⟩
  case isFalse done =>
    have regs := clk_of_waits waits delay (mt Int.ofNat_lt.mp done)
    have selected : (x.regs.clk f).lcdScen = false :=
      (congrArg Regs.lcdScen regs).trans sends.lcdScen
    have rises : Panel.Rises x.regs (x.regs.clk f) :=
      ⟨low, congrArg Regs.lcdScl regs, selected⟩
    have going : ¬ (x.regs.lcdScen = false ∧ (x.regs.clk f).lcdScen = true) :=
      fun ends => Bool.false_ne_true (selected.symm.trans ends.2)
    have sda : (x.regs.clk f).lcdSda = (initValues.getD r 0).getLsbD (15 - b) :=
      (congrArg Regs.lcdSda regs).trans bit
    refine ⟨congrArg Regs.state regs, congrArg Regs.delay regs, congrArg Regs.lcdScl regs,
      (congrArg Regs.bitIdx regs).trans bitIdx, Nat.zero_le _, selected,
      (congrArg Regs.curReg regs).trans sends.curReg,
      (congrArg Regs.lcdReq regs).trans sends.lcdReq,
      (congrArg Regs.lcdSerialDat regs).trans sends.lcdSerialDat, ?_, ?_⟩
    · simp only [Board.clk, Panel.sees, if_neg going, if_pos rises, firstBits_succ, sends.bits,
        sda]
    · simp only [Board.clk, Panel.sees, if_neg going, sends.writes]

theorem high (stands : Stands f x (.high r b d)) :
    Stands f (x.clk f) ((Phase.high r b d).next f) := by
  obtain ⟨state, delay, high, bitIdx, held, sends⟩ := stands
  have waits := Regs.clk_clkPulse1 f state
  rw [Phase.next]
  split
  case isTrue more =>
    have counts := Counts.of_waits waits delay (Int.ofNat_lt.mpr more)
    have later := counts.toQuiet.held
    exact ⟨counts.state.trans state, counts.delay, counts.sameScl.trans high,
      counts.bitIdx.trans bitIdx, by omega, counts.toQuiet.sends sends⟩
  case isFalse done =>
    have regs := clk_of_waits waits delay (mt Int.ofNat_lt.mp done)
    have quiet : Quiet x.regs (x.regs.clk f) := regs ▸ ⟨rfl, fun _ => rfl, rfl, rfl, rfl⟩
    have later := quiet.held
    have next : (x.regs.clk f).bitIdx = BitVec.ofNat 5 (b + 1) := by
      rw [regs]
      exact (congrArg (· + 1) bitIdx).trans (BitVec.ofNat_add b 1).symm
    exact ⟨congrArg Regs.state regs, congrArg Regs.delay regs, congrArg Regs.lcdScl regs, next,
      by omega, quiet.sends sends⟩

theorem idle (known : r < nbInitRegs) (stands : Stands f x (.idle r)) :
    Stands f (x.clk f) ((Phase.idle r).next f) := by
  obtain ⟨state, loads⟩ := stands
  have number : x.regs.curReg.toNat = r := by
    rw [loads.curReg, BitVec.toNat_ofNat, Nat.mod_eq_of_lt (by unfold nbInitRegs at known; omega)]
  have regs : x.regs.clk f =
      { x.regs with
        curReg := if r < nbInitRegs - 1 then x.regs.curReg + 1 else x.regs.curReg
        lcdReq := if r < nbInitRegs - 1 then x.regs.lcdReq else false
        lcdSerialDat := initValues.getD r 0, lcdScen := false, bitIdx := 0, delay := 0
        state := .delayInit } := by
    simp only [Regs.clk, state, loads.lcdReq, number, if_true]
  have low : (x.regs.clk f).lcdScl = false := (congrArg Regs.lcdScl regs).trans loads.lcdScl
  have going : ¬ (x.regs.lcdScen = false ∧ (x.regs.clk f).lcdScen = true) :=
    fun ends => Bool.false_ne_true (ends.1.symm.trans loads.lcdScen)
  have level : ¬ Panel.Rises x.regs (x.regs.clk f) :=
    fun rises => Bool.false_ne_true (low.symm.trans rises.2.1)
  have curReg : (x.regs.clk f).curReg = BitVec.ofNat 8 (min (r + 1) (nbInitRegs - 1)) := by
    rw [regs, loads.curReg]
    split
    case isTrue more =>
      rw [Nat.min_eq_left more]
      exact (BitVec.ofNat_add r 1).symm
    case isFalse last =>
      have same : r = min (r + 1) (nbInitRegs - 1) := by omega
      exact congrArg (BitVec.ofNat 8) same
  have lcdReq : (x.regs.clk f).lcdReq = decide (r < nbInitRegs - 1) := by
    rw [regs, loads.lcdReq]
    split
    case isTrue more => exact (decide_eq_true more).symm
    case isFalse last => exact (decide_eq_false last).symm
  refine ⟨congrArg Regs.state regs, congrArg Regs.delay regs, low, congrArg Regs.bitIdx regs,
    Nat.zero_le _, congrArg Regs.lcdScen regs, curReg, lcdReq,
    congrArg Regs.lcdSerialDat regs, ?_, ?_⟩
  · simp only [Board.clk, Panel.sees, if_neg going, if_neg level, loads.bits]
    rfl
  · simp only [Board.clk, Panel.sees, if_neg going, loads.writes]

theorem shifting (most : b ≤ 16) (stands : Stands f x (.shifting r b)) :
    Stands f (x.clk f) ((Phase.shifting r b).next f) := by
  obtain ⟨state, delay, low, bitIdx, held, sends⟩ := stands
  have number : x.regs.bitIdx.toNat = b := by
    rw [bitIdx, BitVec.toNat_ofNat, Nat.mod_eq_of_lt (by omega)]
  rw [Phase.next]
  split
  case isTrue more =>
    have regs : x.regs.clk f =
        { x.regs with lcdSda := x.regs.lcdSerialDat.getLsbD (15 - b), state := .clkPulse0 } := by
      simp only [Regs.clk, state, number, if_pos more]
    have quiet : Quiet x.regs (x.regs.clk f) := regs ▸ ⟨rfl, id, rfl, rfl, rfl⟩
    have bit : (x.regs.clk f).lcdSda = (initValues.getD r 0).getLsbD (15 - b) := by
      rw [regs, ← sends.lcdSerialDat]
    exact ⟨congrArg Regs.state regs, (congrArg Regs.delay regs).trans delay, quiet.lcdScl low,
      (congrArg Regs.bitIdx regs).trans bitIdx, Nat.zero_le _, bit, quiet.sends sends⟩
  case isFalse all =>
    have regs : x.regs.clk f = { x.regs with lcdSda := false, delay := 0, state := .done } := by
      simp only [Regs.clk, state, number, if_neg all]
    have quiet : Quiet x.regs (x.regs.clk f) := regs ▸ ⟨rfl, id, rfl, rfl, rfl⟩
    have whole : b = 16 := by omega
    exact ⟨congrArg Regs.state regs, congrArg Regs.delay regs, quiet.lcdScl low,
      whole ▸ quiet.sends sends⟩

theorem ending (known : r < nbInitRegs) (stands : Stands f x (.ending r d)) :
    Stands f (x.clk f) ((Phase.ending r d).next f) := by
  obtain ⟨state, delay, low, sends⟩ := stands
  have waits := Regs.clk_done f state
  rw [Phase.next]
  split
  case isTrue more =>
    have counts := Counts.of_waits waits delay (Int.ofNat_lt.mpr more)
    exact ⟨counts.state.trans state, counts.delay, counts.sameScl.trans low,
      counts.toQuiet.sends sends⟩
  case isFalse done =>
    have regs := clk_of_waits waits delay (mt Int.ofNat_lt.mp done)
    have ends : x.regs.lcdScen = false ∧ (x.regs.clk f).lcdScen = true :=
      ⟨sends.lcdScen, congrArg Regs.lcdScen regs⟩
    have lcdReq : (x.regs.clk f).lcdReq = decide (r < nbInitRegs - 1) :=
      (congrArg Regs.lcdReq regs).trans sends.lcdReq
    have between : Between (x.clk f) (r + 1) :=
      { lcdScen := ends.2
        lcdScl := (congrArg Regs.lcdScl regs).trans low
        bits := if_pos ends
        writes := by
          simp only [Board.clk, Panel.sees, if_pos ends]
          rw [writes_succ known, sends.writes, sends.bits, msbFirst] }
    split
    case isTrue more =>
      rw [decide_eq_true more] at lcdReq
      have next : (x.regs.clk f).curReg = BitVec.ofNat 8 (r + 1) := by
        rw [regs, sends.curReg, Nat.min_eq_left more]
      have state : (x.regs.clk f).state = .wait := by
        rw [regs, sends.lcdReq, decide_eq_true more]
        rfl
      exact ⟨state, congrArg Regs.delay regs, between, next, lcdReq⟩
    case isFalse last =>
      rw [decide_eq_false last] at lcdReq
      have state : (x.regs.clk f).state = .done := by
        rw [regs, sends.lcdReq, decide_eq_false last]
        rfl
      have all : r + 1 = nbInitRegs := by omega
      exact ⟨state, lcdReq, all ▸ between⟩

theorem pausing (stands : Stands f x (.pausing r d)) :
    Stands f (x.clk f) ((Phase.pausing r d).next f) := by
  obtain ⟨state, delay, loads⟩ := stands
  have waits := Regs.clk_wait f state
  rw [Phase.next]
  split
  case isTrue more =>
    have counts := Counts.of_waits waits delay (Int.ofNat_lt.mpr more)
    exact ⟨counts.state.trans state, counts.delay, counts.toQuiet.loads loads⟩
  case isFalse done =>
    have regs := clk_of_waits waits delay (mt Int.ofNat_lt.mp done)
    have quiet : Quiet x.regs (x.regs.clk f) := regs ▸ ⟨rfl, id, rfl, rfl, rfl⟩
    exact ⟨congrArg Regs.state regs, quiet.loads loads⟩

theorem ended (stands : Stands f x .ended) : Stands f (x.clk f) (Phase.ended.next f) := by
  obtain ⟨state, lcdReq, between⟩ := stands
  have waits := Regs.clk_done f state
  by_cases more : x.regs.delay < bitDelay f
  case pos =>
    have counts := Counts.of_waits waits rfl more
    exact ⟨counts.state.trans state, counts.lcdReq.trans lcdReq, counts.toQuiet.between between⟩
  case neg =>
    have regs := clk_of_waits waits rfl more
    have quiet : Quiet x.regs (x.regs.clk f) :=
      regs ▸ ⟨between.lcdScen.symm, id, rfl, rfl, rfl⟩
    have state : (x.regs.clk f).state = .done := by
      rw [regs, lcdReq]
      rfl
    exact ⟨state, quiet.lcdReq.trans lcdReq, quiet.between between⟩

/-- **The controller and the panel follow the phases.** -/
theorem step {p : Phase} (stands : Stands f x p) (sound : p.Sound f) :
    Stands f (x.clk f) (p.next f) := by
  cases p with
  | resetting d => exact stands.resetting
  | starting d => exact stands.starting
  | idle r => exact idle sound stands
  | framing r d => exact stands.framing
  | shifting r b => exact shifting sound.2 stands
  | low r b d => exact stands.low
  | high r b d => exact stands.high
  | ending r d => exact ending sound.1 stands
  | pausing r d => exact stands.pausing
  | ended => exact stands.ended

end Stands

/-! ## The wires in time -/

/-- `lcd_sda` is stable for `BIT_DELAY` edges in front of a rising edge of `lcd_scl`, and as long
after it. -/
structure Timely (f : Nat) (x : Board) : Prop where
  setup : Panel.Rises x.regs (x.regs.clk f) → bitDelay f ≤ x.panel.stable
  hold : (x.regs.clk f).lcdSda ≠ x.regs.lcdSda →
    x.regs.lcdScl = false ∧ bitDelay f ≤ x.panel.held

namespace Stands

variable {f : Nat} {x : Board} {p : Phase}

theorem lcdScl (stands : Stands f x p) : x.regs.lcdScl = p.scl := by
  cases p with
  | resetting d | starting d => exact stands.2.2.lcdScl
  | idle r => exact stands.2.lcdScl
  | framing r d | shifting r b | low r b d | high r b d | ending r d => exact stands.2.2.1
  | pausing r d => exact stands.2.2.lcdScl
  | ended => exact stands.2.2.lcdScl

theorem writes (stands : Stands f x p) :
    x.panel.writes = (initValues.take p.taken).map msbFirst := by
  cases p with
  | resetting d | starting d => exact stands.2.2.writes
  | idle r => exact stands.2.writes
  | framing r d | shifting r b => exact stands.2.2.2.2.2.writes
  | low r b d => exact stands.2.2.2.2.2.2.writes
  | high r b d => exact stands.2.2.2.2.2.writes
  | ending r d => exact stands.2.2.2.writes
  | pausing r d => exact stands.2.2.writes
  | ended => exact stands.2.2.writes

theorem state_startXfer (stands : Stands f x p) (state : x.regs.state = .startXfer) :
    ∃ r b, p = .shifting r b := by
  cases p with
  | shifting r b => exact ⟨r, b, rfl⟩
  | _ => exact absurd (stands.1.symm.trans state) Fsm.noConfusion

end Stands

/-- `lcd_sda` moves in `START_XFER` only. -/
theorem Regs.lcdSda_clk {f : Nat} {s : Regs} (other : s.state ≠ .startXfer) :
    (s.clk f).lcdSda = s.lcdSda := by
  unfold clk waits
  split
  case h_3 =>
    cases s.lcdReq <;> rfl
  case h_5 state => exact absurd state other
  all_goals split <;> rfl

theorem Stands.timely {f : Nat} {x : Board} {p : Phase} (stands : Stands f x p)
    (sound : p.Sound f) : Timely f x where
  setup rises := by
    have before : p.scl = false := stands.lcdScl.symm.trans rises.1
    have after : (p.next f).scl = true := (stands.step sound).lcdScl.symm.trans rises.2.1
    cases p with
    | low r b d =>
        obtain ⟨_, _, _, _, stable, _⟩ := stands
        rw [Phase.next] at after
        split at after
        case isTrue => cases after
        case isFalse done => exact Nat.le_trans (Nat.le_of_not_lt done) stable
    | high r b d => cases before
    | _ =>
        rw [Phase.next] at after
        revert after
        repeat' split
        all_goals exact Bool.noConfusion
  hold moves := by
    have state : x.regs.state = .startXfer := by
      by_contra other
      exact moves (Regs.lcdSda_clk other)
    obtain ⟨r, b, rfl⟩ := stands.state_startXfer state
    obtain ⟨_, _, low, _, held, _⟩ := stands
    exact ⟨low, held⟩

/-! ## The whole configuration -/

theorem Stands.run {f : Nat} {x : Board} {p : Phase} (stands : Stands f x p)
    (sound : p.Sound f) (n : Nat) :
    Stands f ((Board.clk f)^[n] x) ((Phase.next f)^[n] p) := by
  induction n with
  | zero => exact stands
  | succ n ih =>
      rw [Function.iterate_succ_apply', Function.iterate_succ_apply']
      exact ih.step (Phase.sound_run sound n)

/-- The board after a reset, whatever its registers and the wires were before. -/
def Board.start (s : Regs) (stable held : Nat) : Board := ⟨s.reset, ⟨[], [], stable, held⟩⟩

theorem stands_start (f : Nat) (s : Regs) (stable held : Nat) :
    Stands f (Board.start s stable held) (.resetting s.delay) :=
  ⟨rfl, rfl, ⟨rfl, rfl, rfl, rfl⟩, rfl, rfl⟩

/-- **The panel is configured**: after any number of edges it has taken the first of the register
writes, the last one at the edge that `configurationCycles` tells and no other after it, and the
wires keep their times. -/
theorem configures (f : Nat) (s : Regs) (stable held n : Nat) :
    let x := (Board.clk f)^[n] (Board.start s stable held)
    x.panel.writes <+: initValues.map msbFirst ∧
      (x.panel.writes = initValues.map msbFirst ↔ Phase.configurationCycles f s.delay ≤ n) ∧
      Timely f x := by
  intro x
  have sound : (Phase.resetting s.delay).Sound f := trivial
  have stands : Stands f x _ := (stands_start f s stable held).run sound n
  have later := Phase.sound_run sound n
  refine ⟨?_, ⟨fun all => ?_, fun enough => ?_⟩, stands.timely later⟩
  · rw [stands.writes]
    exact (List.take_prefix _ _).map _
  · have count := congrArg List.length (stands.writes.symm.trans all)
    rw [List.length_map, List.length_map, List.length_take, initValues_length] at count
    have most := Phase.taken_le later
    have ended := Phase.ended_of_taken later (by omega)
    have past := Phase.cycles_run sound n
    rwa [ended, Phase.cycles_resetting, Phase.cycles, Nat.zero_add] at past
  · rw [← Phase.cycles_resetting] at enough
    rw [stands.writes, Phase.ended_run sound enough, Phase.taken, ← initValues_length,
      List.take_length]

end OrpsocCores.LcdCtrl
