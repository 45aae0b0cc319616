import Mathlib.Data.List.Induction
import OrpsocCores.DviEncoder.Coding

/-!
# The stream of a DVI link

An encoder is a pipeline of three edges of the pixel clock.  `Stage1` and `Stage2` say what
its registers hold of the inputs of an edge after that edge and after the next one, and
neither is touched by the reset.  Every word therefore stands for the inputs two edges
before the one that sent it (`Encode.sent`), whatever the registers held at first and
whenever the reset was active before, and the link as a whole carries the pixels and the
synchronization in order (`received`).
-/

set_option autoImplicit false

namespace OrpsocCores.DviEncoder

open LineCode Trace

namespace Encode

/-- The inputs that the pixel clock sampled in a run, in order. -/
def clocked : List Edge → List Inputs
  | [] => []
  | .clkin i :: edges => i :: clocked edges
  | .rstin :: edges => clocked edges

theorem clocked_append (edges edges' : List Edge) :
    clocked (edges ++ edges') = clocked edges ++ clocked edges' := by
  induction edges with
  | nil => rfl
  | cons edge edges ih =>
      cases edge with
      | clkin i => exact congrArg (i :: ·) ih
      | rstin => exact ih

/-! ## The stages of the pipeline -/

/-- The registers behind the inputs hold the inputs `i`. -/
structure Stage1 (s : Regs) (i : Inputs) : Prop where
  dinQ : s.dinQ = i.din
  n1d : s.n1d = sumOfBits i.din
  deQ : s.deQ = i.de
  c0Q : s.c0Q = i.c0
  c1Q : s.c1Q = i.c1

/-- The registers behind the first stage hold the inputs `i`, coded. -/
structure Stage2 (s : Regs) (i : Inputs) : Prop where
  chained : lsbFirst s.qM70 = coded (!s.qM8) i.din
  few : transitions (lsbFirst s.qM70) ≤ 3
  deReg : s.deReg = i.de
  c0Reg : s.c0Reg = i.c0
  c1Reg : s.c1Reg = i.c1

theorem Stage1.step (s : Regs) (i : Inputs) : Stage1 (step s (.clkin i)) i where
  dinQ := rfl
  n1d := rfl
  deQ := rfl
  c0Q := rfl
  c1Q := rfl

theorem Stage1.stage2 {s : Regs} {i : Inputs} (held : Stage1 s i) (next : Inputs) :
    Stage2 (Encode.step s (.clkin next)) i where
  chained := by
    have high : (Encode.step s (.clkin next)).qM8 = !s.decision1 := qM_high s
    rw [high, Bool.not_not, ← held.dinQ]
    exact lsbFirst_qM_low s
  few := changes_qM s (by rw [held.n1d, held.dinQ])
  deReg := held.deQ
  c0Reg := held.c0Q
  c1Reg := held.c1Q

theorem Stage1.reset {s : Regs} {i : Inputs} (held : Stage1 s i) :
    Stage1 (Encode.step s .rstin) i := ⟨held.1, held.2, held.3, held.4, held.5⟩

theorem Stage2.reset {s : Regs} {i : Inputs} (held : Stage2 s i) :
    Stage2 (Encode.step s .rstin) i := ⟨held.1, held.2, held.3, held.4, held.5⟩

/-- After a run the first stage holds the inputs that were sampled last. -/
theorem stage1_after (s : Regs) (edges : List Edge) (earlier : List Inputs) (i : Inputs)
    (sampled : clocked edges = earlier ++ [i]) : Stage1 (after step s edges) i := by
  induction edges using List.reverseRecOn with
  | nil => cases earlier <;> cases sampled
  | append_singleton edges edge ih =>
      rw [after_concat]
      rw [clocked_append] at sampled
      cases edge with
      | clkin next =>
          have same : next = i := (List.append_inj' sampled rfl).2 |> List.singleton_inj.mp
          exact same ▸ Stage1.step _ _
      | rstin => exact (ih (by simpa [clocked] using sampled)).reset

/-- And the second stage holds those sampled before. -/
theorem stage2_after (s : Regs) (edges : List Edge) (earlier : List Inputs) (i next : Inputs)
    (sampled : clocked edges = earlier ++ [i, next]) : Stage2 (after step s edges) i := by
  induction edges using List.reverseRecOn with
  | nil => cases earlier <;> cases sampled
  | append_singleton edges edge ih =>
      rw [after_concat]
      rw [clocked_append] at sampled
      cases edge with
      | clkin last =>
          have before : clocked edges = earlier ++ [i] :=
            (List.append_inj' (sampled.trans (List.append_cons earlier i [next])) rfl).1
          exact (stage1_after s edges earlier i before).stage2 last
      | rstin => exact (ih (by simpa [clocked] using sampled)).reset

/-! ## The word of an edge -/

/-- What a word tells of the inputs it was sent for: the symbol, and by its changes whether
it is a control word. -/
structure Sent (word : BitVec 10) (i : Inputs) : Prop where
  symbol : receive word = i.symbol
  pixel : i.de = true → transitions (lsbFirst word) ≤ 5
  control : i.de = false → 7 ≤ transitions (lsbFirst word)

theorem Stage2.sent {s : Regs} {i : Inputs} (held : Stage2 s i) : Sent s.doutNext i := by
  cases shown : s.deReg with
  | true =>
      obtain ⟨inverted, word⟩ := doutNext_pixel s shown
      have few : transitions (lsbFirst s.doutNext) ≤ 5 := by
        have changes := transitions_word_le inverted s.qM8 (if inverted then ~~~s.qM70 else s.qM70)
        have low := held.few
        rw [transitions_inverted] at changes
        rw [word]
        omega
      have de : i.de = true := held.deReg ▸ shown
      refine ⟨?_, fun _ => few, fun blank => absurd (de.symm.trans blank) (by decide)⟩
      rw [receive_of_transitions _ few, word, component_word _ _ _ _ held.chained,
        Inputs.symbol, if_pos de]
  | false =>
      have word : s.doutNext = s.controlToken := by
        rw [Regs.doutNext, if_neg (by rw [shown]; exact Bool.false_ne_true)]
      have de : i.de = false := held.deReg ▸ shown
      refine ⟨?_, fun active => absurd (de.symm.trans active) (by decide), fun _ => ?_⟩
      · rw [word, receive_controlToken, held.c1Reg, held.c0Reg, Inputs.symbol,
          if_neg (by rw [de]; exact Bool.false_ne_true)]
      · rw [word]
        exact le_transitions_controlToken s

/-- **The word of an edge stands for the inputs two edges of the pixel clock before.** -/
theorem sent (s : Regs) (edges : List Edge) (earlier : List Inputs) (i next last : Inputs)
    (sampled : clocked edges = earlier ++ [i, next]) (released : last.rstin = false) :
    Sent (after step s (edges ++ [.clkin last])).dout i := by
  have word : (after step s (edges ++ [.clkin last])).dout = (after step s edges).doutNext := by
    rw [after_concat]
    exact if_neg (by rw [released]; exact Bool.false_ne_true)
  rw [word]
  exact (stage2_after s edges earlier i next sampled).sent

end Encode

/-! ## The link -/

/-- The inputs that the pixel clock sampled in a run of the link. -/
def clocked : List Edge → List Inputs
  | [] => []
  | .clkin i :: edges => i :: clocked edges
  | .rstin :: edges => clocked edges

/-- What the link carries in a pixel clock: blue, green and red. -/
abbrev Frame := Symbol × Symbol × Symbol

/-- What the inputs ask the link to send. -/
def Inputs.frame (i : Inputs) : Frame :=
  if i.de then (.pixel i.blueDin, .pixel i.greenDin, .pixel i.redDin)
  else (.control i.vsync i.hsync, .control false false, .control false false)

/-- The word of a channel, from its halves in `s_data`. -/
def channelWord (sData : BitVec 30) (channel : Nat) : BitVec 10 :=
  sData.extractLsb' (15 + 5 * channel) 5 ++ sData.extractLsb' (5 * channel) 5

/-- The receivers of the three channels. -/
def receiveFrame (sData : BitVec 30) : Frame :=
  (receive (channelWord sData 0), receive (channelWord sData 1), receive (channelWord sData 2))

theorem clocked_channel (port : Inputs → Encode.Inputs) (edges : List Edge) :
    Encode.clocked (edges.map (Edge.channel port)) = (clocked edges).map port := by
  induction edges with
  | nil => rfl
  | cons edge edges ih =>
      cases edge with
      | clkin i => exact congrArg (port i :: ·) ih
      | rstin => exact ih

/-- The channels run beside each other. -/
theorem after_channels (s : Regs) (edges : List Edge) :
    (after step s edges).encb = after Encode.step s.encb (edges.map (Edge.channel Inputs.encb)) ∧
    (after step s edges).encg = after Encode.step s.encg (edges.map (Edge.channel Inputs.encg)) ∧
    (after step s edges).encr = after Encode.step s.encr (edges.map (Edge.channel Inputs.encr)) := by
  induction edges generalizing s with
  | nil => exact ⟨rfl, rfl, rfl⟩
  | cons edge edges ih => exact ih (step s edge)

/-- The parts of `s_data`, the lowest first. -/
theorem lsbFirst_sData (s : Regs) : lsbFirst s.sData =
    lsbFirst (s.encb.dout.extractLsb' 0 5) ++ (lsbFirst (s.encg.dout.extractLsb' 0 5) ++
      (lsbFirst (s.encr.dout.extractLsb' 0 5) ++ (lsbFirst (s.encb.dout.extractLsb' 5 5) ++
        (lsbFirst (s.encg.dout.extractLsb' 5 5) ++ lsbFirst (s.encr.dout.extractLsb' 5 5))))) := by
  simp only [Regs.sData]
  rw [lsbFirst_append (w := 25) (v := 5), lsbFirst_append (w := 20) (v := 5),
    lsbFirst_append (w := 15) (v := 5), lsbFirst_append (w := 10) (v := 5),
    lsbFirst_append (w := 5) (v := 5)]

/-- A word is cut in halves and joined again. -/
theorem channelWord_sData (s : Regs) :
    channelWord s.sData 0 = s.encb.dout ∧ channelWord s.sData 1 = s.encg.dout ∧
      channelWord s.sData 2 = s.encr.dout := by
  have joined (x : BitVec 10) :
      lsbFirst (x.extractLsb' 0 5) ++ lsbFirst (x.extractLsb' 5 5) = lsbFirst x := by
    rw [lsbFirst_extractLsb' x (by decide), lsbFirst_extractLsb' x (by decide), List.drop_zero,
      List.take_of_length_le (l := (lsbFirst x).drop 5) (by simp), List.take_append_drop]
  have word (channel : Nat) (x : BitVec 10) (inside : channel ≤ 2)
      (low : ((lsbFirst s.sData).drop (5 * channel)).take 5 = lsbFirst (x.extractLsb' 0 5))
      (high : ((lsbFirst s.sData).drop (15 + 5 * channel)).take 5 =
        lsbFirst (x.extractLsb' 5 5)) : channelWord s.sData channel = x := by
    apply lsbFirst_injective
    rw [channelWord, lsbFirst_append (w := 5) (v := 5), lsbFirst_extractLsb' _ (by omega),
      lsbFirst_extractLsb' _ (by omega), low, high, joined]
  have length (x : BitVec 10) (start : Nat) : (lsbFirst (x.extractLsb' start 5)).length = 5 :=
    length_lsbFirst _
  have past (x : BitVec 10) (start n : Nat) (beyond : 5 ≤ n) :
      (lsbFirst (x.extractLsb' start 5)).drop n = [] :=
    List.drop_eq_nil_of_le (by rw [length]; exact beyond)
  have whole (x : BitVec 10) (start : Nat) :
      (lsbFirst (x.extractLsb' start 5)).take 5 = lsbFirst (x.extractLsb' start 5) :=
    List.take_of_length_le (by rw [length])
  refine ⟨word 0 _ (by decide) ?_ ?_, word 1 _ (by decide) ?_ ?_, word 2 _ (by decide) ?_ ?_⟩ <;>
    simp [lsbFirst_sData, List.drop_append, length, past, whole]

/-- What a channel sends on an edge, in a run of the link. -/
theorem channel_sent (port : Inputs → Encode.Inputs) (regs : Encode.Regs) (edges : List Edge)
    (earlier : List Inputs) (i next last : Inputs)
    (sampled : clocked edges = earlier ++ [i, next]) (released : (port last).rstin = false) :
    Encode.Sent (after Encode.step regs ((edges ++ [Edge.clkin last]).map (Edge.channel port))).dout
      (port i) := by
  rw [List.map_append]
  refine Encode.sent regs _ (earlier.map port) (port i) (port next) (port last) ?_ released
  rw [clocked_channel, sampled, List.map_append, List.map_cons, List.map_cons, List.map_nil]

theorem receiveFrame_of_sent {sData : BitVec 30} {i : Inputs}
    (blue : Encode.Sent (channelWord sData 0) i.encb)
    (green : Encode.Sent (channelWord sData 1) i.encg)
    (red : Encode.Sent (channelWord sData 2) i.encr) : receiveFrame sData = i.frame := by
  rw [receiveFrame, blue.symbol, green.symbol, red.symbol, Inputs.frame]
  rcases Bool.eq_false_or_eq_true i.de with active | active <;>
    simp [Encode.Inputs.symbol, Inputs.encb, Inputs.encg, Inputs.encr, active]

section Link

variable (s : Regs) (edges : List Edge) (earlier : List Inputs) (i next last : Inputs)
  (sampled : clocked edges = earlier ++ [i, next]) (released : last.rstin = false)

include sampled released in
/-- What the three channels send on an edge. -/
theorem link_sent :
    Encode.Sent (channelWord (after step s (edges ++ [.clkin last])).sData 0) i.encb ∧
    Encode.Sent (channelWord (after step s (edges ++ [.clkin last])).sData 1) i.encg ∧
    Encode.Sent (channelWord (after step s (edges ++ [.clkin last])).sData 2) i.encr := by
  obtain ⟨encb, encg, encr⟩ := after_channels s (edges ++ [.clkin last])
  obtain ⟨blue, green, red⟩ := channelWord_sData (after step s (edges ++ [.clkin last]))
  rw [blue, green, red, encb, encg, encr]
  exact ⟨channel_sent Inputs.encb _ edges earlier i next last sampled released,
    channel_sent Inputs.encg _ edges earlier i next last sampled released,
    channel_sent Inputs.encr _ edges earlier i next last sampled released⟩

include sampled released in
/-- **The link carries the pixel or the synchronization of every pixel clock, in order.** -/
theorem received :
    receiveFrame (after step s (edges ++ [.clkin last])).sData = i.frame := by
  obtain ⟨blue, green, red⟩ := link_sent s edges earlier i next last sampled released
  exact receiveFrame_of_sent blue green red

/-- A reset in the pipeline does not lose the pixel. -/
theorem received_red :
    let regs : Encode.Regs :=
      ⟨0, 0, 0, 0, 0, false, false, false, false, false, false, 0, 0⟩
    let red : Inputs := ⟨false, 0, 0, 255, false, false, true⟩
    receiveFrame (after step ⟨regs, regs, regs⟩
      ([.clkin red, .rstin, .clkin red] ++ [.clkin red])).sData =
        (.pixel 0, .pixel 0, .pixel 255) := by
  intro regs red
  exact received ⟨regs, regs, regs⟩ [.clkin red, .rstin, .clkin red] [] red red red rfl rfl

include sampled released in
/-- **The words for pixels change the line at most five times, and the control words at
least seven times.** -/
theorem changes_tell (channel : Nat) (three : channel < 3) :
    let bits := lsbFirst (channelWord (after step s (edges ++ [.clkin last])).sData channel)
    (i.de = true → transitions bits ≤ 5) ∧ (i.de = false → 7 ≤ transitions bits) := by
  obtain ⟨blue, green, red⟩ := link_sent s edges earlier i next last sampled released
  obtain rfl | rfl | rfl : channel = 0 ∨ channel = 1 ∨ channel = 2 := by omega
  · exact ⟨blue.pixel, blue.control⟩
  · exact ⟨green.pixel, green.control⟩
  · exact ⟨red.pixel, red.control⟩

theorem changes_tell_blank :
    let regs : Encode.Regs :=
      ⟨0, 0, 0, 0, 0, false, false, false, false, false, false, 0, 0⟩
    let blank : Inputs := ⟨false, 0, 0, 0, true, false, false⟩
    7 ≤ transitions (lsbFirst (channelWord (after step ⟨regs, regs, regs⟩
      ([.clkin blank, .clkin blank] ++ [.clkin blank])).sData 0)) := by
  intro regs blank
  exact (changes_tell ⟨regs, regs, regs⟩ [.clkin blank, .clkin blank] [] blank blank blank rfl rfl
    0 (by decide)).2 rfl

end Link

end OrpsocCores.DviEncoder
