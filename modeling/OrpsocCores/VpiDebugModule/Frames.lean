import OrpsocCores.VpiDebugModule.Model

/-!
# The frames on the debug link

A task goes from run-test/idle to a shift state, shifts, and comes back.  The pieces of
a task that begin and end in shift-DR are stretches: what a stretch shifts, and the
check register that it leaves (`Stretch`).  A stretch either drives the bits that it
takes into the check (`Driven`), or leaves `tdi` alone and reads (`Silent`).  A task is a
driven stretch, its check, and a silent stretch (`Scan`), so that its frame is known bit
by bit, whatever `tdo` does and however long it waits.
-/

set_option autoImplicit false

namespace OrpsocCores.VpiDebugModule

open Crc JpVpi TapController

/-- The registers that say what a task shifts. -/
def Link.settings (l : Link) : BitVec 4 × BitVec 4 × BitVec 19 :=
  (l.lastWbCmd, l.lastCpuCmd, l.lengthGlobal)

variable {env : Surroundings} {l l' l'' : Link}

theorem settings_tms (l : Link) (tms : Bool) :
    { l with tms := tms }.settings = l.settings := rfl

/-! ## Periods -/

theorem genClk_zero (l : Link) : genClk env 0 l = l := by
  rw [genClk, Function.iterate_zero, id]

theorem genClk_succ (n : Nat) (l : Link) :
    genClk env (n + 1) l = Link.clock env (genClk env n l) := by
  rw [genClk, genClk, Function.iterate_succ_apply']

@[simp] theorem genClk_tms (n : Nat) (l : Link) : (genClk env n l).tms = l.tms := by
  induction n with
  | zero => rw [genClk_zero]
  | succ n ih => rw [genClk_succ]; exact ih

@[simp] theorem genClk_tdi (n : Nat) (l : Link) : (genClk env n l).tdi = l.tdi := by
  induction n with
  | zero => rw [genClk_zero]
  | succ n ih => rw [genClk_succ]; exact ih

@[simp] theorem genClk_edges (n : Nat) (l : Link) :
    (genClk env n l).edges = l.edges ++ List.replicate n ⟨l.tms, l.tdi⟩ := by
  induction n with
  | zero => rw [genClk_zero, List.replicate_zero, List.append_nil]
  | succ n ih =>
      have clocked : (Link.clock env (genClk env n l)).edges =
          (genClk env n l).edges ++ [⟨(genClk env n l).tms, (genClk env n l).tdi⟩] := rfl
      rw [genClk_succ, clocked, ih, genClk_tms, genClk_tdi, List.replicate_succ',
        List.append_assoc]

@[simp] theorem genClk_crcOut (n : Nat) (l : Link) : (genClk env n l).crcOut = l.crcOut := by
  induction n with
  | zero => rw [genClk_zero]
  | succ n ih => rw [genClk_succ]; exact ih

@[simp] theorem genClk_settings (n : Nat) (l : Link) :
    (genClk env n l).settings = l.settings := by
  induction n with
  | zero => rw [genClk_zero]
  | succ n ih => rw [genClk_succ]; exact ih

/-! ## Stretches -/

/-- A piece of a task in shift-DR: the bits that it shifts and the check that it leaves. -/
structure Stretch (bits : List (Option Bool)) (crc : Word) (l l' : Link) : Prop where
  edges : ∃ edges, l'.edges = l.edges ++ edges ∧ Shifts edges bits
  tms : l'.tms = false
  crcOut : l'.crcOut = crc
  settings : l'.settings = l.settings

theorem Stretch.trans {bits bits' : List (Option Bool)} {crc crc' : Word}
    (first : Stretch bits crc l l') (second : Stretch bits' crc' l' l'') :
    Stretch (bits ++ bits') crc' l l'' := by
  obtain ⟨edges, made, shifts⟩ := first.edges
  obtain ⟨edges', made', shifts'⟩ := second.edges
  refine ⟨⟨edges ++ edges', ?_, shifts.append shifts'⟩, second.tms, second.crcOut, ?_⟩
  · rw [made', made, List.append_assoc]
  · rw [second.settings, first.settings]

/-- A change of registers that the pins do not show. -/
theorem Stretch.still {crc : Word} (edges : l'.edges = l.edges) (tms : l'.tms = false)
    (crcOut : l'.crcOut = crc) (settings : l'.settings = l.settings) : Stretch [] crc l l' :=
  ⟨⟨[], by rw [edges, List.append_nil], Shifts.nil⟩, tms, crcOut, settings⟩

/-- Periods with `tms` low. -/
theorem Stretch.clocks (low : l.tms = false) (n : Nat) :
    Stretch (List.replicate n l.tdi) l.crcOut l (genClk env n l) := by
  refine ⟨⟨shifting (List.replicate n l.tdi), ?_, shifts_shifting _⟩, ?_, ?_, ?_⟩
  · rw [genClk_edges, shifting, List.map_replicate, low]
  · rw [genClk_tms, low]
  · exact genClk_crcOut n l
  · exact genClk_settings n l

/-- A stretch that takes the bits that it drives into the check. -/
def Driven (bits : List Bool) (l l' : Link) : Prop :=
  Stretch (bits.map some) (bits.foldl calculateCrc l.crcOut) l l'

theorem Driven.trans {bits bits' : List Bool} (first : Driven bits l l')
    (second : Driven bits' l' l'') : Driven (bits ++ bits') l l'' := by
  have both := Stretch.trans first second
  rw [first.crcOut] at both
  rw [Driven, List.map_append, List.foldl_append]
  exact both

theorem Driven.none (low : l.tms = false) : Driven [] l l := Stretch.still rfl low rfl rfl

theorem driven_shiftBit (low : l.tms = false) (bit : Bool) :
    Driven [bit] l (shiftBit env bit l) := by
  have driven : Stretch [] (calculateCrc l.crcOut bit) l
      { l with tdi := some bit, crcOut := calculateCrc l.crcOut bit } :=
    Stretch.still rfl low rfl rfl
  exact driven.trans (Stretch.clocks driven.tms 1)

/-- A loop that drives one bit after the other. -/
theorem driven_foldl (bit : Nat → Bool) (indices : List Nat) (low : l.tms = false) :
    Driven (indices.map bit) l (indices.foldl (fun l i => shiftBit env (bit i) l) l) := by
  induction indices generalizing l with
  | nil => exact Driven.none low
  | cons i indices ih =>
      have first : Driven [bit i] l (shiftBit env (bit i) l) := driven_shiftBit low (bit i)
      exact first.trans (ih first.tms)

theorem driven_forDown (n : Nat) (bit : Nat → Bool) (low : l.tms = false) :
    Driven ((List.range n).reverse.map bit) l
      (forDown n (fun i l => shiftBit env (bit i) l) l) :=
  driven_foldl bit _ low

/-- The bits of a word in the order of a loop that counts down. -/
theorem map_range_reverse {w : Nat} (x : BitVec w) :
    (List.range w).reverse.map x.getLsbD = msbFirst x := by
  rw [eq_msbFirst_iff x (by simp)]
  intro i inside
  have place : w - 1 - i < w := by omega
  rw [List.getElem?_map, List.getElem?_reverse (by simpa using inside), List.length_range,
    List.getElem?_range place, Option.map_some, BitVec.getMsbD_eq_getLsbD, decide_eq_true inside,
    Bool.true_and]

theorem driven_word {w : Nat} (x : BitVec w) (low : l.tms = false) :
    Driven (msbFirst x) l (forDown w (fun i l => shiftBit env (x.getLsbD i) l) l) := by
  rw [← map_range_reverse]
  exact driven_forDown w x.getLsbD low

/-- A stretch of periods in which `tdi` is not driven. -/
structure Silent (n : Nat) (l l' : Link) : Prop where
  stretch : Stretch (List.replicate n none) l.crcOut l l'
  tdi : l'.tdi = none

theorem Silent.trans {n n' : Nat} (first : Silent n l l') (second : Silent n' l' l'') :
    Silent (n + n') l l'' := by
  have both := first.stretch.trans second.stretch
  rw [first.stretch.crcOut, List.replicate_append_replicate] at both
  exact ⟨both, second.tdi⟩

theorem Silent.none (low : l.tms = false) (open' : l.tdi = none) : Silent 0 l l :=
  ⟨Stretch.still rfl low rfl rfl, open'⟩

theorem silent_genClk (low : l.tms = false) (undriven : l.tdi = none) (n : Nat) :
    Silent n l (genClk env n l) := by
  refine ⟨?_, ?_⟩
  · rw [← undriven]
    exact Stretch.clocks low n
  · rw [genClk_tdi, undriven]

/-- A loop each of whose rounds is a period. -/
theorem silent_foldl {α : Type} (link : α → Link) {body : Nat → α → α}
    (round : ∀ i a, (link a).tms = false → (link a).tdi = none →
      Silent 1 (link a) (link (body i a)))
    (indices : List Nat) (a : α) (low : (link a).tms = false) (undriven : (link a).tdi = none) :
    Silent indices.length (link a) (link (indices.foldl (fun a i => body i a) a)) := by
  induction indices generalizing a with
  | nil => exact Silent.none low undriven
  | cons i indices ih =>
      have first := round i a low undriven
      have both := first.trans (ih (body i a) first.stretch.tms first.tdi)
      rwa [Nat.add_comm] at both

theorem silent_forDown {α : Type} (link : α → Link) {body : Nat → α → α}
    (round : ∀ i a, (link a).tms = false → (link a).tdi = none →
      Silent 1 (link a) (link (body i a)))
    (n : Nat) (a : α) (low : (link a).tms = false) (undriven : (link a).tdi = none) :
    Silent n (link a) (link (forDown n body a)) := by
  have rounds := silent_foldl link round (List.range n).reverse a low undriven
  rwa [List.length_reverse, List.length_range] at rounds

theorem silent_forUp {α : Type} (link : α → Link) {body : Nat → α → α}
    (round : ∀ i a, (link a).tms = false → (link a).tdi = none →
      Silent 1 (link a) (link (body i a)))
    (n : Nat) (a : α) (low : (link a).tms = false) (undriven : (link a).tdi = none) :
    Silent n (link a) (link (forUp n body a)) := by
  have rounds := silent_foldl link round (List.range n) a low undriven
  rwa [List.length_range] at rounds

theorem silent_readStatus (env : Surroundings) (status : BitVec 4) (low : l.tms = false)
    (undriven : l.tdi = none) :
    Silent 4 l (readStatus env status l).2 := by
  apply silent_forDown Prod.snd _ 4 (status, l) low undriven
  intro i x low undriven
  exact silent_genClk low undriven 1

theorem Silent.still {n : Nat} (silent : Silent n l l') {l'' : Link}
    (edges : l''.edges = l'.edges) (tms : l''.tms = l'.tms) (tdi : l''.tdi = l'.tdi)
    (crcOut : l''.crcOut = l'.crcOut) (settings : l''.settings = l'.settings) :
    Silent n l l'' := by
  obtain ⟨stretch, undriven⟩ := silent
  refine ⟨⟨?_, ?_, ?_, ?_⟩, ?_⟩
  · rw [edges]; exact stretch.edges
  · rw [tms]; exact stretch.tms
  · rw [crcOut]; exact stretch.crcOut
  · rw [settings]; exact stretch.settings
  · rw [tdi]; exact undriven

theorem Silent.putStatus {n : Nat} (silent : Silent n l l') (status : BitVec 4) :
    Silent n l { l' with status := status } :=
  silent.still rfl rfl rfl rfl rfl

theorem Silent.putStatusWb {n : Nat} (silent : Silent n l l') (status : BitVec 4) :
    Silent n l { l' with statusWb := status } :=
  silent.still rfl rfl rfl rfl rfl

theorem Silent.putStatusCpu {n : Nat} (silent : Silent n l l') (status : BitVec 4) :
    Silent n l { l' with statusCpu := status } :=
  silent.still rfl rfl rfl rfl rfl

theorem Silent.putIncomingWord {n : Nat} (silent : Silent n l l') (incomingWord : Word) :
    Silent n l { l' with incomingWord := incomingWord } :=
  silent.still rfl rfl rfl rfl rfl

/-! ## The check -/

/-- A bit of the outgoing check, the last of which may be sent wrong. -/
def checkBit (genCrcErr : Bool) (crc : Word) (i : Nat) : Bool :=
  if genCrcErr && i == 0 then !crc.getLsbD i else crc.getLsbD i

/-- The outgoing check. -/
def checkBits (genCrcErr : Bool) (crc : Word) : List Bool :=
  (List.range 32).reverse.map (checkBit genCrcErr crc)

@[simp] theorem length_checkBits (genCrcErr : Bool) (crc : Word) :
    (checkBits genCrcErr crc).length = 32 := by
  rw [checkBits, List.length_map, List.length_reverse, List.length_range]

theorem checkBits_false (crc : Word) : checkBits false crc = msbFirst crc :=
  map_range_reverse crc

/-- The last bit of the check is the only one that can be wrong. -/
theorem checkBits_eq (genCrcErr : Bool) (crc : Word) :
    checkBits genCrcErr crc =
      (List.range 31).reverse.map (fun i => crc.getLsbD (i + 1)) ++
        [if genCrcErr then !crc.getLsbD 0 else crc.getLsbD 0] := by
  have last : checkBit genCrcErr crc 0 = if genCrcErr then !crc.getLsbD 0 else crc.getLsbD 0 := by
    rw [checkBit, beq_self_eq_true, Bool.and_true]
  have others : ∀ i, checkBit genCrcErr crc (i + 1) = crc.getLsbD (i + 1) := by
    intro i
    rw [checkBit, beq_false_of_ne (Nat.succ_ne_zero i), Bool.and_false,
      if_neg Bool.false_ne_true]
  rw [checkBits, List.range_succ_eq_map, List.reverse_cons, List.map_append, ← List.map_reverse,
    List.map_map, List.map_singleton, last]
  congr 2
  funext i
  exact others i

/-- A loop that drives bits of the check. -/
theorem stretch_foldl (bit : Word → Nat → Bool) (indices : List Nat) (low : l.tms = false) :
    Stretch ((indices.map (bit l.crcOut)).map some) l.crcOut l
      (indices.foldl (fun l i => genClk env 1 { l with tdi := some (bit l.crcOut i) }) l) := by
  induction indices generalizing l with
  | nil => exact Stretch.still rfl low rfl rfl
  | cons i indices ih =>
      have driven : Stretch [] l.crcOut l { l with tdi := some (bit l.crcOut i) } :=
        Stretch.still rfl low rfl rfl
      have first : Stretch _ _ l (genClk env 1 { l with tdi := some (bit l.crcOut i) }) :=
        driven.trans (Stretch.clocks driven.tms 1)
      have rest := ih first.tms
      rw [first.crcOut] at rest
      exact first.trans rest

theorem stretch_sendCrc (genCrcErr : Bool) (low : l.tms = false) :
    Stretch ((checkBits genCrcErr l.crcOut).map some) l.crcOut l (sendCrc env genCrcErr l) :=
  stretch_foldl (checkBit genCrcErr) (List.range 32).reverse low

/-- A wait shifts the bit that is there when it begins. -/
theorem stretch_waitReady (l : Link) : Stretch [l.tdi] l.crcOut l (waitReady env l) := by
  refine ⟨⟨excursion l.tdi (env.polls (l.edges.length + 2)), ?_, shifts_excursion _ _⟩, ?_, ?_, ?_⟩
  · simp [waitReady, excursion]
  · simp [waitReady]
  · simp [waitReady]
  · simp only [waitReady, genClk_settings, settings_tms]

theorem stretch_endCrc (waitForReady genCrcErr : Bool) (low : l.tms = false) :
    Stretch ((checkBits genCrcErr l.crcOut).map some) l.crcOut l
      (endCrc env waitForReady genCrcErr l) := by
  let l₁ := (List.range 31).reverse.foldl
    (fun l i => genClk env 1 { l with tdi := some (l.crcOut.getLsbD (i + 1)) }) l
  have most : Stretch _ l.crcOut l l₁ :=
    stretch_foldl (fun crc i => crc.getLsbD (i + 1)) (List.range 31).reverse low
  rw [checkBits_eq, List.map_append, List.map_singleton]
  apply most.trans
  rw [← most.crcOut]
  let l₂ := { l₁ with
    tdi := some (if genCrcErr then !l₁.crcOut.getLsbD 0 else l₁.crcOut.getLsbD 0) }
  have driven : Stretch [] l₁.crcOut l₁ l₂ := Stretch.still rfl most.tms rfl rfl
  cases waitForReady with
  | false => exact driven.trans (Stretch.clocks driven.tms 1)
  | true => exact driven.trans (stretch_waitReady l₂)

/-! ## Scans -/

/-- A task that scans the data registers from run-test/idle, with the bits that it
shifts. -/
structure Scan (bits : List (Option Bool)) (l l' : Link) : Prop where
  edges : ∃ edges, l'.edges = l.edges ++ edges ∧
    Tap.idle.after edges = ⟨.runTestIdle, bits, []⟩ ∧ Takes edges [bits]
  settings : l'.settings = l.settings

theorem enterShiftDr_edges (l : Link) :
    (enterShiftDr env l).edges = l.edges ++ enterDr l.tdi := by
  simp [enterShiftDr, enterDr]

theorem enterShiftDr_tms (l : Link) : (enterShiftDr env l).tms = false :=
  genClk_tms 2 _

theorem enterShiftDr_settings (l : Link) : (enterShiftDr env l).settings = l.settings := by
  simp only [enterShiftDr, genClk_settings, settings_tms]

theorem leaving (env : Surroundings) (low : l.tms = false) (undriven : l.tdi = none) :
    ∃ l', Silent 31 l l' ∧ (receiveCrc env l).edges = l'.edges ++ leave none none ∧
      (receiveCrc env l).settings = l'.settings := by
  have read : Silent 31 l (forUp 31 (fun _ l => genClk env 1 l) l) := by
    apply silent_forUp id _ 31 l low undriven
    intro _ _ low undriven
    exact silent_genClk low undriven 1
  refine ⟨_, read, ?_, ?_⟩
  · simp [receiveCrc, leave, read.tdi]
  · simp only [receiveCrc, genClk_settings, settings_tms]

/-- **A task is a driven stretch and a silent one**, followed by the incoming check. -/
theorem scan_of {bits : List (Option Bool)} {crc : Word} {n : Nat} {l₁ l₂ : Link}
    (out : Stretch bits crc (enterShiftDr env l) l₁) (inn : Silent n l₁ l₂) :
    Scan (bits ++ List.replicate (n + 32) none) l (receiveCrc env l₂) := by
  obtain ⟨l₃, read, left, settings⟩ := leaving env inn.stretch.tms inn.tdi
  have both := inn.trans read
  obtain ⟨edges, made, shifts⟩ := (out.trans both.stretch).edges
  have whole : bits ++ List.replicate (n + 31) none ++ [none] =
      bits ++ List.replicate (n + 32) none := by
    rw [List.append_assoc, ← List.replicate_succ']
  refine ⟨⟨enterDr l.tdi ++ edges ++ leave none none, ?_, ?_, ?_⟩, ?_⟩
  · rw [left, made, enterShiftDr_edges]
    simp only [List.append_assoc]
  · rw [after_scan _ _ _ shifts, whole]
  · rw [← whole]
    exact takes_scan l.tdi none none shifts
  · rw [settings, both.stretch.settings, out.settings, enterShiftDr_settings]

/-- What a task drives: its bits, and their check. -/
def frame (genCrcErr : Bool) (bits : List Bool) : List (Option Bool) :=
  (bits ++ checkBits genCrcErr (bits.foldl calculateCrc (BitVec.allOnes 32))).map some

/-- The pieces of a frame: the bits that are driven, and their check. -/
theorem stretch_frame {bits : List Bool} {genCrcErr : Bool} {l₁ l₂ l₃ : Link}
    (start : Stretch [] (BitVec.allOnes 32) l l₁) (driven : Driven bits l₁ l₂)
    (check : Stretch ((checkBits genCrcErr l₂.crcOut).map some) l₂.crcOut l₂ l₃) :
    Stretch (frame genCrcErr bits) l₂.crcOut l
      { l₃ with tdi := none, crcIn := BitVec.allOnes 32 } := by
  have released : Stretch [] l₂.crcOut l₃ { l₃ with tdi := none, crcIn := BitVec.allOnes 32 } :=
    Stretch.still rfl check.tms check.crcOut rfl
  have sent := driven.crcOut
  rw [start.crcOut] at sent
  have out := start.trans ((Stretch.trans driven check).trans released)
  have shown : [] ++ (bits.map some ++ (checkBits genCrcErr l₂.crcOut).map some ++ []) =
      frame genCrcErr bits := by
    rw [List.nil_append, List.append_nil, ← List.map_append, sent, frame]
  rwa [shown] at out

/-- **A task from the pieces of its frame**, and what it reads before the incoming check. -/
theorem scan_frame {bits : List Bool} {genCrcErr : Bool} {n : Nat} {l₁ l₂ l₃ l₄ : Link}
    (start : Stretch [] (BitVec.allOnes 32) (enterShiftDr env l) l₁) (driven : Driven bits l₁ l₂)
    (check : Stretch ((checkBits genCrcErr l₂.crcOut).map some) l₂.crcOut l₂ l₃)
    (inn : Silent n { l₃ with tdi := none, crcIn := BitVec.allOnes 32 } l₄) :
    Scan (frame genCrcErr bits ++ List.replicate (n + 32) none) l (receiveCrc env l₄) :=
  scan_of (stretch_frame start driven check) inn

/-- A frame begins with a fresh check. -/
theorem fresh (low : l.tms = false) :
    Stretch [] (BitVec.allOnes 32) l { l with crcOut := BitVec.allOnes 32 } :=
  Stretch.still rfl low rfl rfl

/-- Behind the outgoing check the pin is not driven any more. -/
theorem Stretch.released {bits : List (Option Bool)} {crc : Word} (check : Stretch bits crc l l') :
    { l' with tdi := none, crcIn := BitVec.allOnes 32 }.tms = false :=
  check.tms

theorem freshStatus (low : l.tms = false) :
    Stretch [] (BitVec.allOnes 32) l { l with status := 0, crcOut := BitVec.allOnes 32 } :=
  Stretch.still rfl low rfl rfl

/-! ## Selecting and commanding -/

/-- `module_select`. -/
theorem scan_moduleSelect (data : BitVec 4) (genCrcErr : Bool) (l : Link) :
    Scan (frame genCrcErr ([true] ++ msbFirst data) ++ List.replicate (4 + 32) none) l
      (moduleSelect env data genCrcErr l) := by
  unfold moduleSelect
  extract_lets l₀ l₁ l₂ l₃ l₄ l₅ read
  have start : Stretch [] (BitVec.allOnes 32) l₀ l₁ := freshStatus (enterShiftDr_tms l)
  have select : Driven [true] l₁ l₂ := driven_shiftBit start.tms true
  have word : Driven (msbFirst data) l₂ l₃ := driven_word data select.tms
  have check : Stretch _ _ l₃ l₄ := stretch_sendCrc genCrcErr word.tms
  have low : l₅.tms = false := check.released
  have status : Silent 4 l₅ read.2 := silent_readStatus env l₅.status low rfl
  exact scan_frame start (select.trans word) check (status.putStatus _)

/-- The header of a command. -/
def commandBits (command accType : BitVec 4) (addr : Word) (length : BitVec 16) : List Bool :=
  [false] ++ msbFirst command ++ msbFirst accType ++ msbFirst addr ++ msbFirst length

theorem stretch_sendCommand (env : Surroundings) (command accType : BitVec 4) (addr : Word)
    (length : BitVec 16) (genCrcErr : Bool) (l : Link) :
    ∃ crc, Stretch (frame genCrcErr (commandBits command accType addr length)) crc
      (enterShiftDr env l) (sendCommand env command accType addr length genCrcErr l) := by
  unfold sendCommand
  extract_lets l₀ l₁ l₂ l₃ l₄ l₅ l₆ l₇
  have start : Stretch [] (BitVec.allOnes 32) l₀ l₁ := fresh (enterShiftDr_tms l)
  have select : Driven [false] l₁ l₂ := driven_shiftBit start.tms false
  have first : Driven (msbFirst command) l₂ l₃ := driven_word command select.tms
  have second : Driven (msbFirst accType) l₃ l₄ := driven_word accType first.tms
  have third : Driven (msbFirst addr) l₄ l₅ := driven_word addr second.tms
  have fourth : Driven (msbFirst length) l₅ l₆ := driven_word length third.tms
  have check : Stretch _ _ l₆ l₇ := stretch_sendCrc genCrcErr fourth.tms
  have header := (((select.trans first).trans second).trans third).trans fourth
  exact ⟨l₆.crcOut, stretch_frame start header check⟩

/-- `debug_wishbone_wr_comm`. -/
theorem scan_debugWishboneWrComm (accType : BitVec 4) (addr : Word) (length : BitVec 16)
    (genCrcErr : Bool) (l : Link) :
    Scan (frame genCrcErr (commandBits DBG_WB_WR_COMM accType addr length) ++
      List.replicate (4 + 32) none) l
      (debugWishboneWrComm env accType addr length genCrcErr l) := by
  obtain ⟨crc, out⟩ := stretch_sendCommand env DBG_WB_WR_COMM accType addr length
    genCrcErr l
  have status := silent_readStatus env
    (sendCommand env DBG_WB_WR_COMM accType addr length genCrcErr l).statusWb out.tms rfl
  exact scan_of out (status.putStatusWb _)

/-- `debug_cpu_wr_comm`. -/
theorem scan_debugCpuWrComm (accType : BitVec 4) (addr : Word) (length : BitVec 16)
    (genCrcErr : Bool) (l : Link) :
    Scan (frame genCrcErr (commandBits DBG_CPU_WR_COMM accType addr length) ++
      List.replicate (4 + 32) none) l
      (debugCpuWrComm env accType addr length genCrcErr l) := by
  obtain ⟨crc, out⟩ := stretch_sendCommand env DBG_CPU_WR_COMM accType addr length
    genCrcErr l
  have status := silent_readStatus env
    (sendCommand env DBG_CPU_WR_COMM accType addr length genCrcErr l).statusCpu out.tms rfl
  exact scan_of out (status.putStatusCpu _)

/-- The bits of `debug_cpu_wr_ctrl`: two of the control register, and the rest of it. -/
def ctrlBits (data : BitVec 52) : List Bool :=
  [false] ++ msbFirst DBG_CPU_WR_CTRL ++ [data.getLsbD 1, data.getLsbD 0] ++
    List.replicate 50 false

/-- `debug_cpu_wr_ctrl`. -/
theorem scan_debugCpuWrCtrl (data : BitVec 52) (l : Link) :
    Scan (frame false (ctrlBits data) ++ List.replicate (4 + 32) none) l
      (debugCpuWrCtrl env data l) := by
  unfold debugCpuWrCtrl
  extract_lets command l₀ l₁ l₂ l₃ l₄ l₅ l₆ l₇ read
  have start : Stretch [] (BitVec.allOnes 32) l₀ l₁ := fresh (enterShiftDr_tms l)
  have select : Driven [false] l₁ l₂ := driven_shiftBit start.tms false
  have first : Driven (msbFirst command) l₂ l₃ := driven_word command select.tms
  have second : Driven [data.getLsbD 1, data.getLsbD 0] l₃ l₄ :=
    driven_forDown 2 data.getLsbD first.tms
  have third : Driven (List.replicate 50 false) l₄ l₅ := by
    have unused : Driven _ l₄ l₅ := driven_forDown 50 (fun _ => false) second.tms
    rwa [List.map_const', List.length_reverse, List.length_range] at unused
  have check : Stretch _ _ l₅ l₆ := stretch_sendCrc false third.tms
  have low : l₇.tms = false := check.released
  have status : Silent 4 l₇ read.2 := silent_readStatus env l₇.statusCpu low rfl
  have header := ((select.trans first).trans second).trans third
  exact scan_frame start header check (status.putStatusCpu _)

/-- `debug_cpu_rd_ctrl`. -/
theorem scan_debugCpuRdCtrl (l : Link) :
    Scan (frame false ([false] ++ msbFirst DBG_CPU_RD_CTRL) ++
      List.replicate (52 + 4 + 32) none) l (debugCpuRdCtrl env l).2 := by
  unfold debugCpuRdCtrl
  extract_lets command l₀ l₁ l₂ l₃ l₄ l₅ l₆ data l₇ data' l₈ read
  have start : Stretch [] (BitVec.allOnes 32) l₀ l₁ := fresh (enterShiftDr_tms l)
  have select : Driven [false] l₁ l₂ := driven_shiftBit start.tms false
  have first : Driven (msbFirst command) l₂ l₃ := driven_word command select.tms
  have check : Stretch _ _ l₃ l₄ := stretch_sendCrc false first.tms
  have low : l₅.tms = false := check.released
  have reset : Silent 1 l₅ l₆ := silent_genClk low rfl 1
  have stall : Silent 1 l₆ l₇ := silent_genClk reset.stretch.tms reset.tdi 1
  have unused : Silent 50 l₇ l₈ := by
    apply silent_forDown id _ 50 l₇ stall.stretch.tms stall.tdi
    intro _ _ low undriven
    exact silent_genClk low undriven 1
  have status : Silent 4 l₈ read.2 :=
    silent_readStatus env l₈.statusCpu unused.stretch.tms unused.tdi
  have inn := ((reset.trans stall).trans unused).trans status
  exact scan_frame start (select.trans first) check (inn.putStatusCpu _)

/-! ## Going -/

/-- The bits of the words from the storage, most significant first; which word a bit is
from is a function of its number. -/
def storageBits (env : Surroundings) (storage : Storage) (word : Nat → Nat) (n : Nat) :
    List Bool :=
  (List.range n).map fun i => (fetch env storage (word i)).getLsbD (31 - i % 32)

theorem storageBits_succ (storage : Storage) (word : Nat → Nat) (n : Nat) :
    storageBits env storage word (n + 1) = storageBits env storage word n ++
      [(fetch env storage (word n)).getLsbD (31 - n % 32)] := by
  rw [storageBits, List.range_succ, List.map_append, List.map_singleton, storageBits]

theorem forUp_succ {α : Type} (n : Nat) (body : Nat → α → α) (a : α) :
    forUp (n + 1) body a = body n (forUp n body a) := by
  rw [forUp, List.range_succ, List.foldl_append, List.foldl_cons, List.foldl_nil, forUp]

/-- The pointer in front of a round is that of the round before it. -/
theorem pointer_succ (n : Nat) :
    (if n % 32 = 0 ∧ 0 < n then (n - 1) / 32 + 1 else (n - 1) / 32) = n / 32 := by
  split <;> omega

/-- **The write loop of `debug_wishbone_go`** takes each bit from its own word. -/
theorem wishboneWrite_loop (storage : Storage) (low : l.tms = false) (n : Nat) :
    (forUp n (wishboneWriteBit env storage) (0, l)).1 = (n - 1) / 32 ∧
      Driven (storageBits env storage (fun i => i / 32) n) l
        (forUp n (wishboneWriteBit env storage) (0, l)).2 := by
  induction n with
  | zero => exact ⟨rfl, Driven.none low⟩
  | succ n ih =>
      obtain ⟨pointer, driven⟩ := ih
      rw [forUp_succ, wishboneWriteBit, pointer, pointer_succ, storageBits_succ]
      exact ⟨rfl, driven.trans (driven_shiftBit driven.tms _)⟩

/-- **The write loop of `debug_cpu_go`** takes a bit from the word of the bit before it. -/
theorem cpuWrite_loop (storage : Storage) (low : l.tms = false) (n : Nat) :
    (forUp n (cpuWriteBit env storage) (0, l)).1 = (n - 1) / 32 ∧
      Driven (storageBits env storage (fun i => (i - 1) / 32) n) l
        (forUp n (cpuWriteBit env storage) (0, l)).2 := by
  induction n with
  | zero => exact ⟨rfl, Driven.none low⟩
  | succ n ih =>
      obtain ⟨pointer, driven⟩ := ih
      rw [forUp_succ, cpuWriteBit, pointer, pointer_succ, storageBits_succ]
      exact ⟨rfl, driven.trans (driven_shiftBit driven.tms _)⟩

theorem silent_wishboneReadBit (i : Nat) (x : Nat × Machine Link) (low : x.2.1.tms = false)
    (undriven : x.2.1.tdi = none) : Silent 1 x.2.1 (wishboneReadBit env i x).2.1 := by
  unfold wishboneReadBit
  extract_lets l₁ l₂
  have clock : Silent 1 x.2.1 l₁ := silent_genClk low undriven 1
  have latch : Silent 1 x.2.1 l₂ := by
    unfold l₂
    split
    · exact clock.putIncomingWord _
    · exact clock
  split
  · exact latch
  · exact latch

theorem silent_cpuReadBit (i : Nat) (x : Nat × Machine Link) (low : x.2.1.tms = false)
    (undriven : x.2.1.tdi = none) : Silent 1 x.2.1 (cpuReadBit env i x).2.1 := by
  unfold cpuReadBit
  extract_lets l₁
  have clock : Silent 1 x.2.1 l₁ := silent_genClk low undriven 1
  split
  · exact clock
  · exact clock

/-- A word is stored without a period of the clock. -/
theorem silent_wishboneRead (env : Surroundings) (m : Machine Link) (low : m.1.tms = false)
    (undriven : m.1.tdi = none) :
    Silent (m.1.lengthGlobal.toNat * 8) m.1 (wishboneRead env m).1 := by
  unfold wishboneRead
  extract_lets x
  have loop : Silent (m.1.lengthGlobal.toNat * 8) m.1 x.2.1 :=
    silent_forUp (fun x : Nat × Machine Link => x.2.1) silent_wishboneReadBit _ (0, m) low undriven
  split
  · exact loop
  · exact loop

theorem silent_cpuRead (env : Surroundings) (m : Machine Link) (low : m.1.tms = false)
    (undriven : m.1.tdi = none) :
    Silent (m.1.lengthGlobal.toNat * 8) m.1 (cpuRead env m).1 :=
  silent_forUp (fun x : Nat × Machine Link => x.2.1) silent_cpuReadBit
    (m.1.lengthGlobal.toNat * 8) (0, m) low undriven

theorem lastWbCmd_congr (same : l'.settings = l.settings) : l'.lastWbCmd = l.lastWbCmd :=
  congrArg Prod.fst same

theorem lastCpuCmd_congr (same : l'.settings = l.settings) : l'.lastCpuCmd = l.lastCpuCmd :=
  congrArg (fun settings => settings.2.1) same

theorem lengthGlobal_congr (same : l'.settings = l.settings) :
    l'.lengthGlobal = l.lengthGlobal :=
  congrArg (fun settings => settings.2.2) same

theorem wbWrites_congr (same : l'.settings = l.settings) : l'.wbWrites = l.wbWrites := by
  rw [Link.wbWrites, lastWbCmd_congr same, Link.wbWrites]

theorem wbReads_congr (same : l'.settings = l.settings) : l'.wbReads = l.wbReads := by
  rw [Link.wbReads, lastWbCmd_congr same, Link.wbReads]

/-- The data bits that `debug_wishbone_go` shifts out. -/
def wbPayload (env : Surroundings) (m : Machine Link) : List Bool :=
  if m.1.wbWrites then storageBits env m.2 (fun i => i / 32) (m.1.lengthGlobal.toNat * 8) else []

/-- How many data bits `debug_wishbone_go` shifts in. -/
def wbIncoming (l : Link) : Nat := if l.wbReads then l.lengthGlobal.toNat * 8 else 0

/-- The data bits that `debug_cpu_go` shifts out. -/
def cpuPayload (env : Surroundings) (m : Machine Link) : List Bool :=
  if m.1.lastCpuCmd = DBG_CPU_WRITE then
    storageBits env m.2 (fun i => (i - 1) / 32) (m.1.lengthGlobal.toNat * 8)
  else []

/-- How many data bits `debug_cpu_go` shifts in. -/
def cpuIncoming (l : Link) : Nat :=
  if l.lastCpuCmd = DBG_CPU_READ then l.lengthGlobal.toNat * 8 else 0

/-- **A `go` from its two parts**: what it shifts out between the command and the check, and
what it shifts in behind the check. -/
theorem scan_go (command : BitVec 4) (waitForReady genCrcErr : Bool) (l : Link)
    (write read : Link → Link) {payload : List Bool} {n : Nat}
    (writes : ∀ l', l'.tms = false → l'.settings = l.settings → Driven payload l' (write l'))
    (reads : ∀ l', l'.tms = false → l'.tdi = none → l'.settings = l.settings →
      Silent n l' (read l')) :
    Scan (frame genCrcErr ([false] ++ msbFirst command ++ payload) ++
        List.replicate (n + 32) none) l
      (receiveCrc env (read { endCrc env waitForReady genCrcErr (write
        (forDown 4 (fun i l => shiftBit env (command.getLsbD i) l)
          (shiftBit env false { enterShiftDr env l with crcOut := BitVec.allOnes 32 }))) with
            tdi := none, crcIn := BitVec.allOnes 32 })) := by
  have start : Stretch [] (BitVec.allOnes 32) (enterShiftDr env l) _ := fresh (enterShiftDr_tms l)
  have select : Driven [false] _ (shiftBit env false _) := driven_shiftBit start.tms false
  have first : Driven (msbFirst command) _
      (forDown 4 (fun i l => shiftBit env (command.getLsbD i) l) _) :=
    driven_word command select.tms
  have kept := (first.settings.trans select.settings).trans
    (start.settings.trans (enterShiftDr_settings l))
  have written := writes _ first.tms kept
  have check : Stretch _ _ _ (endCrc env waitForReady genCrcErr _) :=
    stretch_endCrc waitForReady genCrcErr written.tms
  have inn := reads _ check.released rfl
    (check.settings.trans (written.settings.trans kept))
  exact scan_frame start ((select.trans first).trans written) check inn

/-- `debug_wishbone_go`. -/
theorem scan_debugWishboneGo (waitForWbReady genCrcErr : Bool) (m : Machine Link) :
    Scan (frame genCrcErr ([false] ++ msbFirst DBG_WB_GO ++ wbPayload env m) ++
      List.replicate (wbIncoming m.1 + 4 + 32) none) m.1
      (debugWishboneGo env waitForWbReady genCrcErr m).1 := by
  refine scan_go DBG_WB_GO waitForWbReady genCrcErr m.1
    (fun l => if l.wbWrites then wishboneWrite env m.2 l else l)
    (fun l =>
      let m' := if l.wbReads then wishboneRead env (l, m.2) else (l, m.2)
      let read := readStatus env m'.1.statusWb m'.1
      { read.2 with statusWb := read.1 }) ?_ ?_
  · intro l low kept
    unfold wbPayload
    rw [wbWrites_congr kept]
    split
    · rw [← lengthGlobal_congr kept]
      exact (wishboneWrite_loop m.2 low _).2
    · exact Driven.none low
  · intro l low undriven kept
    extract_lets m' read
    have inn : Silent (wbIncoming m.1) l m'.1 := by
      unfold m' wbIncoming
      rw [wbReads_congr kept]
      split
      · rw [← lengthGlobal_congr kept]
        exact silent_wishboneRead env (l, m.2) low undriven
      · exact Silent.none low undriven
    have status : Silent 4 m'.1 read.2 :=
      silent_readStatus env m'.1.statusWb inn.stretch.tms inn.tdi
    exact (inn.trans status).putStatusWb _

/-- `debug_cpu_go`. -/
theorem scan_debugCpuGo (waitForCpuReady genCrcErr : Bool) (m : Machine Link) :
    Scan (frame genCrcErr ([false] ++ msbFirst DBG_CPU_GO ++ cpuPayload env m) ++
      List.replicate (cpuIncoming m.1 + 4 + 32) none) m.1
      (debugCpuGo env waitForCpuReady genCrcErr m).1 := by
  refine scan_go DBG_CPU_GO waitForCpuReady genCrcErr m.1
    (fun l => if l.lastCpuCmd = DBG_CPU_WRITE then cpuWrite env m.2 l else l)
    (fun l =>
      let m' := if l.lastCpuCmd = DBG_CPU_READ then cpuRead env (l, m.2) else (l, m.2)
      let read := readStatus env m'.1.statusCpu m'.1
      { read.2 with statusCpu := read.1 }) ?_ ?_
  · intro l low kept
    unfold cpuPayload
    rw [lastCpuCmd_congr kept]
    split
    · rw [← lengthGlobal_congr kept]
      exact (cpuWrite_loop m.2 low _).2
    · exact Driven.none low
  · intro l low undriven kept
    extract_lets m' read
    have inn : Silent (cpuIncoming m.1) l m'.1 := by
      unfold m' cpuIncoming
      rw [lastCpuCmd_congr kept]
      split
      · rw [← lengthGlobal_congr kept]
        exact silent_cpuRead env (l, m.2) low undriven
      · exact Silent.none low undriven
    have status : Silent 4 m'.1 read.2 :=
      silent_readStatus env m'.1.statusCpu inn.stretch.tms inn.tdi
    exact (inn.trans status).putStatusCpu _

/-! ## The instruction and the identification -/

theorem forUp_zero {α : Type} (body : Nat → α → α) (a : α) : forUp 0 body a = a := rfl

/-- `set_instruction`. -/
theorem setInstruction_edges (instr : BitVec 4) (l : Link) :
    (setInstruction env instr l).edges = l.edges ++ (enterIr l.tdi ++
      shifting ((List.range 3).map fun i => some (instr.getLsbD i)) ++
      leave (some (instr.getLsbD 3)) none) := by
  simp [setInstruction, IR_LENGTH, forUp_succ, forUp_zero, enterIr, enterDr, shifting, leave,
    List.range_succ]

/-- `read_id_code`. -/
theorem readIdCode_edges (l : Link) :
    (readIdCode env l).2.edges = l.edges ++ (enterDr l.tdi ++
      shifting (List.replicate 31 (some false)) ++ leave (some false) none) := by
  simp [readIdCode, enterShiftDr, enterDr, shifting, leave]

end OrpsocCores.VpiDebugModule
