import Mathlib.Logic.Function.Basic
import OrpsocCores.Foundation.Trace

/-!
# From thirty bits to fifteen

`convert_30to15_fifo.v` takes a word at each edge of `clk` and sends it in two halves at the
edges of `clkx2`, the lower half first.  Between the clocks is a ring of sixteen words
(`DRAM16XN.v`), which is written all the time and read asynchronously.  Nothing but the reset
keeps the two pointers apart: the writer leaves it at once, and the reader four edges of
`clkx2` later.

The registers and the ring are cells of the vendor, which this repository instantiates and
does not have: flip-flops FD, FDE, FDR and FDRE, with an enable and a synchronous reset that
comes before it, FDC and FDP with an asynchronous clear and preset, and RAM16X1D, one bit of
sixteen words, written at the edge and read asynchronously.  `Regs` has them as the vendor
documents them.

Both clocks come from one PLL, so that each edge of `clk` is one of `clkx2` as well, and the
other edges of `clkx2` are between them.  Whether the first edge after the reset is one of
`clk` is open (`late`), and so is what the registers held before it.

`halves`: from the reset on, every word that the writer takes is sent, in order and once.
-/

set_option autoImplicit false

namespace OrpsocCores.DviEncoder.Convert30to15Fifo

open Trace

structure Regs where
  wa : BitVec 4
  ram : BitVec 4 → BitVec 30
  rstsync : Bool
  rstsyncQ : Bool
  rstp : Bool
  sync : Bool
  ra : BitVec 4
  db : BitVec 30
  dataout : BitVec 15

/-- An edge of `clkx2` alone, one of both clocks, or the rising edge of `rst`. -/
inductive Edge
  | clkx2 (rst : Bool)
  | clk (rst : Bool) (datain : BitVec 30)
  | rst

/-- `datain[14:0]`. -/
def lower (word : BitVec 30) : BitVec 15 := word.extractLsb' 0 15

/-- `datain[29:15]`. -/
def upper (word : BitVec 30) : BitVec 15 := word.extractLsb' 15 15

namespace Regs

variable (s : Regs)

/-- `dataint`. -/
def dataint : BitVec 30 := s.ram s.ra

def mux : BitVec 15 := if !s.sync then lower s.db else upper s.db

/-- The registers of `clkx2`: FDP, FD twice, FDR, FDRE, FDE and FD. -/
def clkx2 (rst : Bool) : Regs :=
  { s with
    rstsync := rst
    rstsyncQ := s.rstsync
    rstp := s.rstsyncQ
    sync := if s.rstp then false else !s.sync
    ra := if s.rstp then 0 else if s.sync then s.ra + 1 else s.ra
    db := if s.sync then s.dataint else s.db
    dataout := s.mux }

/-- The registers of `clk`, which are FDC, and the ring of RAM16X1D. -/
def clk (rst : Bool) (datain : BitVec 30) : Regs :=
  { s with
    wa := if rst then 0 else s.wa + 1
    ram := Function.update s.ram s.wa datain }

end Regs

def step (s : Regs) : Edge → Regs
  | .clkx2 rst => s.clkx2 rst
  | .clk rst datain => (s.clkx2 rst).clk rst datain
  | .rst => { s with wa := 0, rstsync := true }

/-! ## The edges after a reset -/

/-- The `n`-th edge of `clkx2`, where `data` are the words at the edges of `clk`. -/
def edge (late : Bool) (data : Nat → BitVec 30) (n : Nat) : Edge :=
  if n % 2 = late.toNat then .clk false (data (n / 2)) else .clkx2 false

/-- The registers after `n` edges. -/
def run (s : Regs) (late : Bool) (data : Nat → BitVec 30) (n : Nat) : Regs :=
  after step s ((List.range n).map (edge late data))

theorem run_succ (s : Regs) (late : Bool) (data : Nat → BitVec 30) (n : Nat) :
    run s late data (n + 1) = step (run s late data n) (edge late data n) := by
  rw [run, List.range_succ, List.map_append]
  exact after_concat step s _ _

/-- The edges of `clk` among the first `n`. -/
def clocks (late : Bool) (n : Nat) : Nat := (n + 1 - late.toNat) / 2

theorem clocks_succ_of_clk {late : Bool} {n : Nat} (clk : n % 2 = late.toNat) :
    clocks late n = n / 2 ∧ clocks late (n + 1) = n / 2 + 1 := by
  cases late <;> simp only [clocks, Bool.toNat_false, Bool.toNat_true] at clk ⊢ <;> omega

theorem clocks_succ_of_not_clk {late : Bool} {n : Nat} (other : n % 2 ≠ late.toNat) :
    clocks late (n + 1) = clocks late n := by
  cases late <;> simp only [clocks, Bool.toNat_false, Bool.toNat_true] at other ⊢ <;> omega

/-! ## The writer -/

/-- The ring holds the last sixteen of the first `count` words. -/
structure Writer (data : Nat → BitVec 30) (s : Regs) (count : Nat) : Prop where
  wa : s.wa = BitVec.ofNat 4 count
  ram : ∀ k < count, count ≤ k + 16 → s.ram (BitVec.ofNat 4 k) = data k

section Run

variable {data : Nat → BitVec 30} {s : Regs} {count m : Nat}

theorem Writer.clkx2 (writer : Writer data s count) : Writer data (s.clkx2 false) count :=
  ⟨writer.wa, writer.ram⟩

theorem Writer.clk (writer : Writer data s count) :
    Writer data (s.clk false (data count)) (count + 1) where
  wa := by
    show s.wa + 1 = _
    rw [writer.wa, BitVec.ofNat_add]
    rfl
  ram k known kept := by
    show Function.update s.ram s.wa (data count) _ = _
    rw [writer.wa]
    obtain rfl | before : k = count ∨ k < count := by omega
    case inl => exact Function.update_self _ _ _
    case inr =>
      have apart : BitVec.ofNat 4 k ≠ BitVec.ofNat 4 count := by
        rw [Ne, ← BitVec.toNat_inj, BitVec.toNat_ofNat, BitVec.toNat_ofNat]
        omega
      rw [Function.update_of_ne apart]
      exact writer.ram k before (by omega)

theorem writer_run (late : Bool) (start : s.wa = 0) (n : Nat) :
    Writer data (run s late data n) (clocks late n) := by
  induction n with
  | zero =>
      have none : clocks late 0 = 0 := by cases late <;> rfl
      rw [none]
      exact ⟨start, fun k known => absurd known (Nat.not_lt_zero k)⟩
  | succ n ih =>
      rw [run_succ, edge]
      split
      case isTrue clk =>
        obtain ⟨now, next⟩ := clocks_succ_of_clk clk
        rw [next, ← now]
        rw [now] at ih ⊢
        exact ih.clkx2.clk
      case isFalse other =>
        rw [clocks_succ_of_not_clk other]
        exact ih.clkx2

/-! ## The reader -/

/-- The half of a word that is sent at an edge. -/
def half (data : Nat → BitVec 30) (m : Nat) : BitVec 15 :=
  if m % 2 = 0 then lower (data (m / 2)) else upper (data (m / 2))

/-- The reader, `m` edges after its own reset. -/
structure Reader (data : Nat → BitVec 30) (s : Regs) (m : Nat) : Prop where
  rstsync : s.rstsync = false
  rstsyncQ : s.rstsyncQ = false
  rstp : s.rstp = false
  sync : s.sync = decide (m % 2 = 1)
  ra : s.ra = BitVec.ofNat 4 (m / 2)
  db : 2 ≤ m → s.db = data ((m - 2) / 2)
  dataout : 3 ≤ m → s.dataout = half data (m - 3)

theorem Reader.clkx2 (reader : Reader data s m)
    (dataint : m % 2 = 1 → s.dataint = data (m / 2)) : Reader data (s.clkx2 false) (m + 1) where
  rstsync := rfl
  rstsyncQ := reader.rstsync
  rstp := reader.rstsyncQ
  sync := by
    simp only [Regs.clkx2, reader.rstp, reader.sync, Bool.false_eq_true, if_false]
    by_cases odd : m % 2 = 1 <;> simp [odd] <;> omega
  ra := by
    simp only [Regs.clkx2, reader.rstp, reader.sync, reader.ra, Bool.false_eq_true, if_false,
      decide_eq_true_eq]
    split
    case isTrue odd =>
      have next : (m + 1) / 2 = m / 2 + 1 := by omega
      rw [next, BitVec.ofNat_add]
      rfl
    case isFalse even =>
      have same : (m + 1) / 2 = m / 2 := by omega
      rw [same]
  db started := by
    simp only [Regs.clkx2, reader.sync, decide_eq_true_eq]
    split
    case isTrue odd =>
      have number : (m + 1 - 2) / 2 = m / 2 := by omega
      rw [number, dataint odd]
    case isFalse even =>
      have number : (m + 1 - 2) / 2 = (m - 2) / 2 := by omega
      rw [number, reader.db (by omega)]
  dataout started := by
    have number : (m - 2) / 2 = (m + 1 - 3) / 2 := by omega
    simp only [Regs.clkx2, Regs.mux, reader.sync, reader.db (by omega), half, number]
    by_cases odd : m % 2 = 1
    case pos =>
      have turn : (m + 1 - 3) % 2 ≠ 0 := by omega
      simp only [odd, turn, decide_true, Bool.not_true, Bool.false_eq_true, if_false]
    case neg =>
      have turn : (m + 1 - 3) % 2 = 0 := by omega
      simp only [odd, turn, decide_false, Bool.not_false, if_true]

/-- The writer does not touch the reader. -/
theorem Reader.clk (reader : Reader data s m) (datain : BitVec 30) :
    Reader data (s.clk false datain) m :=
  ⟨reader.1, reader.2, reader.3, reader.4, reader.5, reader.6, reader.7⟩

theorem step_edge (s : Regs) (data : Nat → BitVec 30) (late : Bool) (n : Nat) :
    step s (edge late data n) = s.clkx2 false ∨
      step s (edge late data n) = (s.clkx2 false).clk false (data (n / 2)) := by
  rw [edge]
  split
  case isTrue => exact Or.inr rfl
  case isFalse => exact Or.inl rfl

/-- The registers that the reset passes on its way to the reader. -/
structure Passed (s s' : Regs) : Prop where
  rstsync : s'.rstsync = false
  rstsyncQ : s'.rstsyncQ = s.rstsync
  rstp : s'.rstp = s.rstsyncQ
  sync : s.rstp = true → s'.sync = false
  ra : s.rstp = true → s'.ra = 0

theorem passed_clkx2 : Passed s (s.clkx2 false) where
  rstsync := rfl
  rstsyncQ := rfl
  rstp := rfl
  sync reset := if_pos reset
  ra reset := if_pos reset

theorem passed_step (late : Bool) (n : Nat) : Passed s (step s (edge late data n)) := by
  have passed : Passed s (s.clkx2 false) := passed_clkx2
  obtain same | same := step_edge s data late n
  · exact same ▸ passed
  · exact same ▸ ⟨passed.1, passed.2, passed.3, passed.4, passed.5⟩

theorem reader_start (late : Bool) (reset : s.rstsync = true) :
    Reader data (run s late data 3) 0 := by
  have first : Passed s (run s late data 1) := passed_step late 0
  have second : Passed (run s late data 1) (run s late data 2) := passed_step late 1
  have third : Passed (run s late data 2) (run s late data 3) := passed_step late 2
  have rstp : (run s late data 2).rstp = true := second.rstp.trans (first.rstsyncQ.trans reset)
  exact
    { rstsync := third.rstsync
      rstsyncQ := third.rstsyncQ.trans second.rstsync
      rstp := third.rstp.trans (second.rstsyncQ.trans first.rstsync)
      sync := third.sync rstp
      ra := third.ra rstp
      db := fun started => absurd started (by decide)
      dataout := fun started => absurd started (by decide) }

theorem reader_run (late : Bool) (start : s.wa = 0) (reset : s.rstsync = true) (m : Nat) :
    Reader data (run s late data (m + 3)) m := by
  induction m with
  | zero => exact reader_start late reset
  | succ m ih =>
      have read : Reader data ((run s late data (m + 3)).clkx2 false) (m + 1) := by
        refine ih.clkx2 fun odd => ?_
        have writer : Writer data (run s late data (m + 3)) _ := writer_run late start _
        rw [Regs.dataint, ih.ra]
        refine writer.ram _ ?_ ?_ <;> cases late <;>
          simp only [clocks, Bool.toNat_false, Bool.toNat_true] <;> omega
      rw [Nat.add_right_comm m 1 3, run_succ]
      obtain same | same := step_edge (run s late data (m + 3)) data late (m + 3)
      · exact same ▸ read
      · exact same ▸ read.clk _

/-- **Every word is sent**, the lower half at an edge and the upper half at the next one. -/
theorem halves (late : Bool) (start : s.wa = 0) (reset : s.rstsync = true) (k : Nat) :
    (run s late data (2 * k + 6)).dataout = lower (data k) ∧
      (run s late data (2 * k + 7)).dataout = upper (data k) := by
  have low : Reader data (run s late data (2 * k + 6)) (2 * k + 3) :=
    reader_run late start reset _
  have high : Reader data (run s late data (2 * k + 7)) (2 * k + 4) :=
    reader_run late start reset _
  have even : (2 * k + 3 - 3) % 2 = 0 ∧ (2 * k + 3 - 3) / 2 = k := by omega
  have odd : (2 * k + 4 - 3) % 2 ≠ 0 ∧ (2 * k + 4 - 3) / 2 = k := by omega
  rw [low.dataout (by omega), high.dataout (by omega), half, half, if_pos even.1, even.2,
    if_neg odd.1, odd.2]
  exact ⟨rfl, rfl⟩

end Run

end OrpsocCores.DviEncoder.Convert30to15Fifo
