import OrpsocCores.XilinxDdr2.Model

/-!
# Acknowledged writes and stale reads

`History` records the writes that have been acknowledged and, for every access that is
presented, how many had been when it was.  `Fresh` says that no byte of an acknowledged
read is older than that.

`Heeded` is the condition on a cycle under which no write is lost and no line misses one.
What ports 3 and 4 write is lost in any case.  The marks are made when a request appears and
compared with the address register of the line, while the write goes to the memory when the
FIFOs have room, and the register follows the command of a refill by a cycle.  So a line that
is not marked can miss

* a write that had to wait for the FIFOs, whose request was seen before the refill;
* a write that is pushed, or executed, in the cycle in which the refill of its line is
  commanded, before the address register names the line;
* at port 4, a write to a part of its line that the alignment of port 3 tells apart;

and a burst that leaves its line is served one beat from the old one.
-/

set_option autoImplicit false

namespace OrpsocCores.XilinxDdr2

open Wishbone

/-! ## Lines and words -/

/-- The number of the word at an address, as the memory controller sees it. -/
def wordAdr (adr : BitVec 32) : Nat := adr.toNat % 2 ^ 30 / 4

/-- The number of the first word of a line. -/
def base (w line : Nat) : Nat := line % 2 ^ (28 - w) * 2 ^ w

/-- The line of an address. -/
def lineOf (w : Nat) (adr : BitVec 32) : Nat := upper (w + 2) adr

theorem memLine_eq {w : Nat} (legal : w ≤ 27) (adr : BitVec 32) :
    adr.toNat % 2 ^ 30 / 2 ^ (w + 2) = lineOf w adr % 2 ^ (28 - w) := by
  have split : 2 ^ 30 = 2 ^ (w + 2) * 2 ^ (28 - w) := by
    rw [← Nat.pow_add]
    congr 1
    omega
  rw [split, Nat.mod_mul_right_div_self, lineOf, upper]

/-- The address of a read command is the line of the bus address. -/
theorem commandWord_eq {w : Nat} (legal : w ≤ 27) (adr : BitVec 32) :
    adr.toNat % 2 ^ 30 / 2 ^ (w + 2) * 2 ^ (w + 2) / 4 = base w (lineOf w adr) := by
  rw [memLine_eq legal, base, Nat.pow_add, ← Nat.mul_assoc]
  omega

/-- A word is one of its line. -/
theorem wordAdr_eq {w : Nat} (legal : w ≤ 27) (adr : BitVec 32) :
    wordAdr adr = base w (lineOf w adr) + adr.toNat / 4 % 2 ^ w := by
  have line : adr.toNat % 2 ^ 30 / 4 / 2 ^ w = lineOf w adr % 2 ^ (28 - w) := by
    rw [← memLine_eq legal, Nat.div_div_eq_div_mul, Nat.pow_add, Nat.mul_comm 4]
  have index : adr.toNat % 2 ^ 30 / 4 % 2 ^ w = adr.toNat / 4 % 2 ^ w := by
    have words : adr.toNat % 2 ^ 30 / 4 = adr.toNat / 4 % 2 ^ 28 := by omega
    rw [words, Nat.mod_mod_of_dvd _ (Nat.pow_dvd_pow 2 (by omega))]
  rw [wordAdr, base, ← line, ← index, Nat.mul_comm]
  exact (Nat.div_add_mod _ _).symm

/-- The words of different lines differ. -/
theorem base_eq_of_word {w : Nat} (legal : w ≤ 27) {adr : BitVec 32} {line k : Nat}
    (inside : k < 2 ^ w) (same : wordAdr adr = base w line + k) :
    base w (lineOf w adr) = base w line := by
  rw [wordAdr_eq legal] at same
  have bound : adr.toNat / 4 % 2 ^ w < 2 ^ w := Nat.mod_lt _ (Nat.two_pow_pos w)
  have quotient := congrArg (· / 2 ^ w) same
  simp only [base, Nat.add_comm (_ * 2 ^ w), Nat.add_mul_div_right _ _ (Nat.two_pow_pos w),
    Nat.div_eq_of_lt bound, Nat.div_eq_of_lt inside, Nat.zero_add] at quotient
  rw [base, base, quotient]

/-! ## What has been acknowledged -/

/-- A write to the bytes of a word. -/
structure Write where
  word : Nat
  dat : Word
  sel : BitVec 4

/-- The write a beat asks for. -/
def writeOf (bus : Bus) : Write := ⟨wordAdr bus.adr, bus.dat, bus.sel⟩

/-- A memory after a write. -/
def Write.apply (mem : Nat → Word) (x : Write) : Nat → Word :=
  Function.update mem x.word (merge x.sel x.dat (mem x.word))

/-- A memory after some writes. -/
def contents (mem : Nat → Word) (writes : List Write) : Nat → Word :=
  writes.foldl Write.apply mem

/-- The writes acknowledged so far, the accesses that wait for their acknowledge, each
with the number of writes acknowledged before it was presented, and the ports that
acknowledged a beat of an incrementing read burst in the last cycle. -/
structure History where
  acked : List Write
  pending : Fin 5 → Option (Bus × Nat)
  burst : Fin 5 → Bool

def History.empty : History := ⟨[], fun _ => none, fun _ => false⟩

/-- The writes acknowledged before the access of a port was presented. -/
def History.before (h : History) (i : Fin 5) : Nat := ((h.pending i).map Prod.snd).getD h.acked.length

namespace State

variable {p : Params}

/-- The write a port acknowledges in a cycle. -/
def ackedWrite (s : State p) (e : Cycle) (i : Fin 5) : Option Write :=
  if (e.bus i).writes && s.wbAckO i then some (writeOf (e.bus i)) else none

/-- The recorder; the writes of one cycle are recorded as the memory controller executes
them. -/
def record (s : State p) (e : Cycle) (h : History) : History where
  acked := h.acked ++ e.order.filterMap (s.ackedWrite e)
  pending i := if (e.bus i).valid && !s.wbAckO i then some (e.bus i, h.before i) else none
  burst i := (e.bus i).reads && s.wbAckO i && (e.bus i).cti == .incBurst

/-- The interface beside the recorder. -/
def recorded : State p × History → Cycle → State p × History :=
  Trace.monitored step record

end State

variable {p : Params}

/-- **No stale byte.**  Every byte of an acknowledged read is the one of some moment since
the access was presented: after the writes that had been acknowledged by then, and
possibly some of the later ones. -/
def Fresh (mem : Nat → Word) (x : State p × History) (e : Cycle) : Prop :=
  ∀ i, (e.bus i).reads = true → x.1.wbAckO i = true → ∀ b : Fin 4,
    ∃ n, x.2.before i ≤ n ∧ n ≤ x.2.acked.length ∧
      lane (x.1.wbDatO e i) b =
        lane (contents mem (x.2.acked.take n) (wordAdr (e.bus i).adr)) b

/-! ## The steps of a run -/

/-- What masters and memory controller owe: no reset, an access is presented until it is
acknowledged, a read burst is not followed by a write in the next cycle, every port has
its turn, and there is read data only after a read command. -/
structure Faithful (x : State p × History) (e : Cycle) : Prop where
  running : e.wbRst = false
  holds : ∀ i, ∀ access ∈ x.2.pending i, e.bus i = access.1
  bursts : ∀ i, x.2.burst i = true → (e.bus i).writes = false
  turns : e.order.Perm (List.finRange 5)
  returned : ∀ i, x.1.mig.rdFifo i = [] → e.rdEmpty i = true

/-- The line that the address register of a port names after a cycle. -/
def State.nextLine (s : State p) (e : Cycle) (i : Fin 5) : Nat :=
  if (s.ports i).burstStart then lineOf (p.width i) (e.bus i).adr else (s.ports i).burstAddr

/-- A write that is pushed marks every line it belongs to, unless the line stays marked. -/
def Marks (s : State p) (e : Cycle) (i j : Fin 5) : Prop :=
  s.wrEn e j = true →
    base (p.width i) (lineOf (p.width i) (e.bus j).adr) = base (p.width i) (s.nextLine e i) →
      s.pxAddrDirty e i = true ∨ ((s.ports i).burstStart = false ∧ (s.ports i).addrDirtyR = true)

/-- A write command is executed before the command of a refill of its line that is given
in the same cycle, unless the line is marked. -/
def Precedes (s : State p) (e : Cycle) (i j : Fin 5) : Prop :=
  (s.ports i).burstStart = true → (s.ports j).wbAckWrite = true →
    base (p.width i) (lineOf (p.width i) (e.bus j).adr) =
        base (p.width i) (lineOf (p.width i) (e.bus i).adr) →
      s.pxAddrDirty e i = true ∨ j ∈ e.order.takeWhile fun k => k ≠ i

/-- A read that is acknowledged is in the line, also as the next beat of a burst. -/
def Stays (s : State p) (e : Cycle) (i : Fin 5) : Prop :=
  (e.bus i).reads = true → (s.ports i).wbAckRead = true →
    lineOf (p.width i) (e.bus i).adr = (s.ports i).burstAddr

/-- Only ports that can write do, no line misses a write, and no burst leaves its line. -/
structure Heeded (s : State p) (e : Cycle) : Prop where
  writable : ∀ j, s.wrEn e j = true → writable j = true
  marks : ∀ i j, Marks s e i j
  precedes : ∀ i j, Precedes s e i j
  stays : ∀ i, Stays s e i

instance (x : State p × History) (e : Cycle) : Decidable (Faithful x e) :=
  decidable_of_iff
    (e.wbRst = false ∧ (∀ i, ∀ access ∈ x.2.pending i, e.bus i = access.1) ∧
      (∀ i, x.2.burst i = true → (e.bus i).writes = false) ∧ e.order.Perm (List.finRange 5) ∧
      ∀ i, x.1.mig.rdFifo i = [] → e.rdEmpty i = true)
    ⟨fun ⟨running, holds, bursts, turns, returned⟩ => ⟨running, holds, bursts, turns, returned⟩,
    fun ⟨running, holds, bursts, turns, returned⟩ => ⟨running, holds, bursts, turns, returned⟩⟩

instance (s : State p) (e : Cycle) (i j : Fin 5) : Decidable (Marks s e i j) :=
  inferInstanceAs (Decidable (_ → _ → _ ∨ _))

instance (s : State p) (e : Cycle) (i j : Fin 5) : Decidable (Precedes s e i j) :=
  inferInstanceAs (Decidable (_ → _ → _ → _ ∨ _))

instance (s : State p) (e : Cycle) (i : Fin 5) : Decidable (Stays s e i) :=
  inferInstanceAs (Decidable (_ → _ → _))

instance (s : State p) (e : Cycle) : Decidable (Heeded s e) :=
  decidable_of_iff
    ((∀ j, s.wrEn e j = true → writable j = true) ∧ (∀ i j, Marks s e i j) ∧
      (∀ i j, Precedes s e i j) ∧ ∀ i, Stays s e i)
    ⟨fun ⟨writable, marks, precedes, stays⟩ => ⟨writable, marks, precedes, stays⟩,
    fun ⟨writable, marks, precedes, stays⟩ => ⟨writable, marks, precedes, stays⟩⟩

end OrpsocCores.XilinxDdr2
