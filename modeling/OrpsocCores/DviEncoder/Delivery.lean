import OrpsocCores.DviEncoder.Convert30to15Fifo
import OrpsocCores.DviEncoder.Link

/-!
# From the pixels to the five-bit buses

`dvi_encoder.v` is the three encoders on the pixel clock, and behind them the converter that
halves their words for the clock of twice the rate.  The halves leave on three buses of five
bits, one for a channel.

`frames_delivered`: from a reset on, whatever the registers held before it and whichever edge
comes first after it, the words that a receiver puts together from two edges of the fast clock
are the pixels and the synchronization of all pixel clocks, in order and without a gap.
-/

set_option autoImplicit false

namespace OrpsocCores.DviEncoder

open Trace

/-- `encb`, `encg` and `encr`, and `pixel2x`. -/
structure Module where
  channels : Regs
  pixel2x : Convert30to15Fifo.Regs

namespace Module

/-- An edge of `clkx2in` alone, one of both clocks, or the rising edge of `rstin`. -/
inductive Edge
  | clkx2in (rstin : Bool)
  | clkin (i : Inputs)
  | rstin

def step (s : Module) : Edge → Module
  | .clkx2in rstin =>
      { s with pixel2x := Convert30to15Fifo.step s.pixel2x (.clkx2 rstin) }
  | .clkin i =>
      { channels := DviEncoder.step s.channels (.clkin i)
        pixel2x := Convert30to15Fifo.step s.pixel2x (.clk i.rstin s.channels.sData) }
  | .rstin =>
      { channels := DviEncoder.step s.channels .rstin
        pixel2x := Convert30to15Fifo.step s.pixel2x .rst }

/-- `{tmds_data2, tmds_data1, tmds_data0}`. -/
def tmdsData (s : Module) : BitVec 15 := s.pixel2x.dataout

/-- The `n`-th edge after a reset, where `inputs` are those at the edges of `clkin`. -/
def edge (late : Bool) (inputs : Nat → Inputs) (n : Nat) : Edge :=
  if n % 2 = late.toNat then .clkin (inputs (n / 2)) else .clkx2in false

/-- The registers after a reset and `n` edges. -/
def run (s : Module) (late : Bool) (inputs : Nat → Inputs) (n : Nat) : Module :=
  after step s (.rstin :: (List.range n).map (edge late inputs))

variable (s : Module) (late : Bool) (inputs : Nat → Inputs)

theorem run_succ (n : Nat) :
    run s late inputs (n + 1) = step (run s late inputs n) (edge late inputs n) := by
  rw [run, List.range_succ, List.map_append, ← List.cons_append]
  exact after_concat step s _ _

/-- The channels after a reset and `k` edges of `clkin`. -/
def channelsAt (k : Nat) : Regs :=
  after DviEncoder.step (DviEncoder.step s.channels .rstin)
    ((List.range k).map fun j => .clkin (inputs j))

theorem channelsAt_succ (k : Nat) :
    channelsAt s inputs (k + 1) = DviEncoder.step (channelsAt s inputs k) (.clkin (inputs k)) := by
  rw [channelsAt, List.range_succ, List.map_append]
  exact after_concat DviEncoder.step _ _ _

/-- The word that `pixel2x` takes at an edge of `clkin`. -/
def words (k : Nat) : BitVec 30 := (channelsAt s inputs k).sData

variable {s late inputs}

/-- The converter runs behind the channels. -/
theorem run_parts (released : ∀ k, (inputs k).rstin = false) (n : Nat) :
    (run s late inputs n).channels = channelsAt s inputs (Convert30to15Fifo.clocks late n) ∧
      (run s late inputs n).pixel2x =
        Convert30to15Fifo.run (Convert30to15Fifo.step s.pixel2x .rst) late (words s inputs) n := by
  induction n with
  | zero =>
      have none : Convert30to15Fifo.clocks late 0 = 0 := by cases late <;> rfl
      rw [none]
      exact ⟨rfl, rfl⟩
  | succ n ih =>
      obtain ⟨channels, pixel2x⟩ := ih
      rw [run_succ, Convert30to15Fifo.run_succ, edge, Convert30to15Fifo.edge]
      split
      case isTrue clk =>
        obtain ⟨now, next⟩ := Convert30to15Fifo.clocks_succ_of_clk clk
        rw [now] at channels
        refine ⟨?_, ?_⟩
        · rw [next, channelsAt_succ, ← channels]
          rfl
        · rw [step, channels, pixel2x, released]
          rfl
      case isFalse other =>
        rw [Convert30to15Fifo.clocks_succ_of_not_clk other]
        exact ⟨channels, pixel2x ▸ rfl⟩

theorem clocked_range (k : Nat) :
    clocked ((List.range k).map fun j => DviEncoder.Edge.clkin (inputs j)) =
      (List.range k).map inputs := by
  induction List.range k with
  | nil => rfl
  | cons j rest ih => exact congrArg (inputs j :: ·) ih

/-- A word stands for the inputs three edges of `clkin` before the one it is taken at. -/
theorem receiveFrame_words (released : ∀ k, (inputs k).rstin = false) (k : Nat) :
    receiveFrame (words s inputs (k + 3)) = (inputs k).frame := by
  have sampled : clocked ((List.range (k + 2)).map fun j => DviEncoder.Edge.clkin (inputs j)) =
      (List.range k).map inputs ++ [inputs k, inputs (k + 1)] := by
    rw [clocked_range, List.range_succ, List.range_succ]
    simp
  have split : words s inputs (k + 3) =
      (after DviEncoder.step (DviEncoder.step s.channels .rstin)
        ((List.range (k + 2)).map (fun j => .clkin (inputs j)) ++
          [.clkin (inputs (k + 2))])).sData := by
    rw [words, channelsAt_succ, after_concat]
    rfl
  obtain ⟨blue, green, red⟩ := link_sent (DviEncoder.step s.channels .rstin) _ _ (inputs k)
    (inputs (k + 1)) (inputs (k + 2)) sampled (released (k + 2))
  rw [split]
  exact receiveFrame_of_sent blue green red

/-- The halves of a word make the word. -/
theorem upper_append_lower (word : BitVec 30) :
    Convert30to15Fifo.upper word ++ Convert30to15Fifo.lower word = word :=
  BitVec.extractLsb'_append_extractLsb' (w := 15)

theorem tmdsData_halves (released : ∀ k, (inputs k).rstin = false) (k : Nat) :
    (run s late inputs (2 * k + 6)).tmdsData = Convert30to15Fifo.lower (words s inputs k) ∧
      (run s late inputs (2 * k + 7)).tmdsData = Convert30to15Fifo.upper (words s inputs k) := by
  rw [tmdsData, tmdsData, (run_parts released _).2, (run_parts released _).2]
  exact Convert30to15Fifo.halves late rfl rfl k

/-- **Every pixel clock arrives**: a receiver of the five-bit buses has the pixels and the
synchronization, in order and without a gap. -/
theorem frames_delivered (s : Module) (late : Bool) (inputs : Nat → Inputs)
    (released : ∀ k, (inputs k).rstin = false) (k : Nat) :
    receiveFrame ((run s late inputs (2 * k + 13)).tmdsData ++
      (run s late inputs (2 * k + 12)).tmdsData) = (inputs k).frame := by
  obtain ⟨low, high⟩ := tmdsData_halves released (k + 3)
  have first : 2 * (k + 3) + 6 = 2 * k + 12 := by omega
  have second : 2 * (k + 3) + 7 = 2 * k + 13 := by omega
  rw [first] at low
  rw [second] at high
  rw [high, low, upper_append_lower]
  exact receiveFrame_words released k

/-- A line that grows red. -/
theorem frames_delivered_growing :
    let regs : Encode.Regs :=
      ⟨0, 0, 0, 0, 0, false, false, false, false, false, false, 0, 0⟩
    let s : Module :=
      ⟨⟨regs, regs, regs⟩, 9, fun _ => 0, false, false, false, true, 4, 0, 0⟩
    let line (k : Nat) : Inputs := ⟨false, 0, 0, BitVec.ofNat 8 k, false, false, true⟩
    receiveFrame ((run s true line 23).tmdsData ++ (run s true line 22).tmdsData) =
      (.pixel 0, .pixel 0, .pixel 5) := by
  intro regs s line
  exact frames_delivered s true line (fun _ => rfl) 5

end Module

end OrpsocCores.DviEncoder
