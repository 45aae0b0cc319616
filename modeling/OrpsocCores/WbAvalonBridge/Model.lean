import OrpsocCores.Foundation.Trace
import OrpsocCores.Wishbone.Common

/-!
# The bridge from Wishbone to Avalon

`wb_to_avalon_bridge.v` has two bodies, chosen by `BURST_SUPPORT`.  `BurstDisable`
turns every access into one Avalon transfer.  `BurstEnable` reads ahead in
incrementing bursts: it presents the reads of a burst one after the other without
waiting for the data, counts those that are still to be answered in `pending_reads`
and those that are still to be issued in `reads_left`.

The byte enables, the write data and the read data pass through unchanged in both.
-/

set_option autoImplicit false

namespace OrpsocCores.WbAvalonBridge

open Wishbone

variable {aw dw : Nat}

/-- The signals of the Wishbone side. -/
abbrev Bus (aw dw : Nat) := Pins aw dw (dw / 8)

/-- The inputs of a cycle. -/
structure Inputs (aw dw : Nat) where
  wbRstI : Bool
  bus : Bus aw dw
  mAvWaitrequestI : Bool
  mAvReaddatavalidI : Bool

/-! ## Without bursts -/

/-- The registers of `burst_disable`. -/
structure BurstDisable where
  cycstbR : Bool
  writeAck : Bool
  deriving DecidableEq

namespace BurstDisable

/-- `wb_ack_o`. -/
def wbAckO (s : BurstDisable) (c : Inputs aw dw) : Bool := s.writeAck || c.mAvReaddatavalidI

/-- `req`. -/
def req (s : BurstDisable) (c : Inputs aw dw) : Bool :=
  c.bus.valid && (!s.cycstbR || c.mAvWaitrequestI)

/-- `m_av_write_o`. -/
def mAvWriteO (s : BurstDisable) (c : Inputs aw dw) : Bool := s.req c && c.bus.we

/-- `m_av_read_o`. -/
def mAvReadO (s : BurstDisable) (c : Inputs aw dw) : Bool := s.req c && !c.bus.we

/-- An edge of `wb_clk_i`; neither register has a reset. -/
def step (s : BurstDisable) (c : Inputs aw dw) : BurstDisable where
  cycstbR := c.bus.valid && !s.wbAckO c
  writeAck := c.bus.valid && c.bus.we && !c.mAvWaitrequestI && !s.wbAckO c

end BurstDisable

/-! ## With bursts -/

/-- The states of `burst_enable`. -/
inductive Phase where
  | idle
  | read
  | write
  | burst
  | flushPipe
  deriving DecidableEq, Repr

/-- The registers of `burst_enable`. -/
structure BurstEnable (aw : Nat) where
  state : Phase
  pendingReads : BitVec 4
  readsLeft : BitVec 4
  adr : BitVec aw
  readReq : Bool
  deriving DecidableEq

/-- `{adr[AW-1:k], adr[k-1:0] + 4}`. -/
def wrapAdr (k : Nat) (adr : BitVec aw) : BitVec aw :=
  (adr.extractLsb' k (aw - k) ++ (adr.extractLsb' 0 k + 4#k)).setWidth aw

/-- `next_adr`, from the current address and `wb_bte_i`. -/
def nextAdr (bte : Bte) (currAdr : BitVec aw) : BitVec aw :=
  match bte with
  | .linear => currAdr + BitVec.ofNat aw 4
  | .wrap4 => wrapAdr 4 currAdr
  | .wrap8 => wrapAdr 5 currAdr
  | .wrap16 => wrapAdr 6 currAdr

/-- How many reads a burst issues after its first two. -/
def readsAhead (bte : Bte) : BitVec 4 :=
  match bte with
  | .wrap4 => 4 - 2
  | .linear => 8 - 2
  | .wrap8 => 8 - 2
  | .wrap16 => 16 - 2

namespace BurstEnable

/-- `curr_adr`, which is also `m_av_address_o`. -/
def currAdr (s : BurstEnable aw) (c : Inputs aw dw) : BitVec aw :=
  if s.state = .idle then c.bus.adr else s.adr

/-- `wb_burst_req`. -/
def wbBurstReq (c : Inputs aw dw) : Bool := c.bus.valid && c.bus.cti == .incBurst

/-- `m_av_read_o`. -/
def mAvReadO (s : BurstEnable aw) (c : Inputs aw dw) : Bool :=
  c.bus.valid && !c.bus.we && s.state == .idle || s.readReq

/-- `m_av_write_o`. -/
def mAvWriteO (s : BurstEnable aw) (c : Inputs aw dw) : Bool :=
  c.bus.valid && c.bus.we && s.state == .idle

/-- `wb_ack_o`. -/
def wbAckO (s : BurstEnable aw) (c : Inputs aw dw) : Bool :=
  c.mAvReaddatavalidI && s.state != .flushPipe || s.state == .write

/-- The `IDLE` branch. -/
def idleBranch (s : BurstEnable aw) (c : Inputs aw dw) : BurstEnable aw :=
  let s' := { s with readReq := false, pendingReads := 0#4, adr := c.bus.adr }
  if c.bus.valid && !c.mAvWaitrequestI then
    if c.bus.we then { s' with state := .write }
    else if wbBurstReq c then
      { s' with
        readsLeft := readsAhead c.bus.bte, pendingReads := 1#4, readReq := true
        adr := nextAdr c.bus.bte (s.currAdr c), state := .burst }
    else { s' with state := .read }
  else s'

/-- All reads of the burst have been issued. -/
def allIssued (s : BurstEnable aw) (c : Inputs aw dw) : Bool :=
  s.readsLeft == 0#4 && !(c.mAvWaitrequestI && s.readReq)

/-- A further read of the burst can be issued. -/
def issues (s : BurstEnable aw) (c : Inputs aw dw) : Bool :=
  !c.mAvWaitrequestI && s.readsLeft != 0#4

/-- The `BURST` branch.  The test for a premature end comes last and overrides the
return to `IDLE`. -/
def burstBranch (s : BurstEnable aw) (c : Inputs aw dw) : BurstEnable aw where
  pendingReads :=
    if s.issues c then if c.mAvReaddatavalidI then s.pendingReads else s.pendingReads + 1
    else if c.mAvReaddatavalidI then s.pendingReads - 1 else s.pendingReads
  readsLeft := if s.issues c then s.readsLeft - 1 else s.readsLeft
  adr := if s.issues c then nextAdr c.bus.bte (s.currAdr c) else s.adr
  readReq := !s.allIssued c
  state :=
    if c.mAvReaddatavalidI && !wbBurstReq c && s.pendingReads != 0#4 then .flushPipe
    else if s.allIssued c && c.mAvReaddatavalidI && s.pendingReads == 0#4 then .idle
    else s.state

/-- The `FLUSH_PIPE` branch. -/
def flushBranch (s : BurstEnable aw) (c : Inputs aw dw) : BurstEnable aw :=
  if c.mAvReaddatavalidI then
    { s with
      readReq := false
      state := if s.pendingReads == 0#4 then .idle else s.state
      pendingReads := s.pendingReads - 1 }
  else { s with readReq := false }

/-- The state machine without its reset. -/
def machine (s : BurstEnable aw) (c : Inputs aw dw) : BurstEnable aw :=
  match s.state with
  | .idle => s.idleBranch c
  | .read =>
      { s with readReq := false, state := if c.mAvReaddatavalidI then .idle else .read }
  | .burst => s.burstBranch c
  | .flushPipe => s.flushBranch c
  | .write => { s with readReq := false, state := .idle }

/-- An edge of `wb_clk_i`. -/
def step (s : BurstEnable aw) (c : Inputs aw dw) : BurstEnable aw :=
  if c.wbRstI then { s.machine c with readReq := false, state := .idle } else s.machine c

end BurstEnable

/-! ## Addresses -/

theorem toNat_wrapAdr {k : Nat} (bits : 3 ≤ k) (wide : k ≤ aw) (adr : BitVec aw) :
    (wrapAdr k adr).toNat =
      (adr.toNat / 2 ^ k * 2 ^ k + (adr.toNat + 4) % 2 ^ k) % 2 ^ aw := by
  rw [wrapAdr, toNat_wrapNext bits wide]

/-- **`next_adr` goes to the prescribed word and keeps the byte within it.** -/
theorem toNat_nextAdr (wide : 6 ≤ aw) (bte : Bte) (adr : BitVec aw) :
    (nextAdr bte adr).toNat =
      4 * (bte.nextWord (adr.toNat / 4) % 2 ^ (aw - 2)) + adr.toNat % 4 := by
  obtain ⟨n, rfl⟩ : ∃ n, aw = n + 2 := ⟨aw - 2, by omega⟩
  have size : 2 ^ (n + 2) = 4 * 2 ^ n := by rw [Nat.pow_add, Nat.mul_comm]
  have scale : ∀ word, (4 * word + adr.toNat % 4) % 2 ^ (n + 2) =
      4 * (word % 2 ^ n) + adr.toNat % 4 := by
    intro word
    rw [size, Nat.mod_mul, Nat.mul_add_mod, Nat.mod_mod, Nat.mul_add_div (by decide),
      Nat.div_eq_of_lt (Nat.mod_lt _ (by decide))]
    exact Nat.add_comm _ _
  rw [Nat.add_sub_cancel, ← scale]
  cases bte with
  | linear =>
      have four : (4#(n + 2)).toNat = 4 := by
        rw [BitVec.toNat_ofNat]
        exact Nat.mod_eq_of_lt
          (lt_of_lt_of_le (by decide : 4 < 2 ^ 6) (Nat.pow_le_pow_right (by decide) wide))
      rw [nextAdr, BitVec.toNat_add, four, Bte.nextWord]
      congr 1
      omega
  | wrap4 =>
      rw [nextAdr, toNat_wrapAdr (by decide) (by omega), Bte.nextWord]
      congr 1
      omega
  | wrap8 =>
      rw [nextAdr, toNat_wrapAdr (by decide) (by omega), Bte.nextWord]
      congr 1
      omega
  | wrap16 =>
      rw [nextAdr, toNat_wrapAdr (by decide) (by omega), Bte.nextWord]
      congr 1
      omega

end OrpsocCores.WbAvalonBridge
