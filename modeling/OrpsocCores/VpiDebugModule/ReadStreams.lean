import OrpsocCores.VpiDebugModule.Frames

/-!
# The read streams

A read on the link shifts words in, each most significant bit first.  The processor task
stores the shift register at every 32nd bit; the Wishbone task collects the words byte by
byte, and stores a last word that is not complete behind the loop.  In both, word `k` is what
`tdo` was at the rising edges of its own 32 bits (`cpuRead_words`, `wishboneRead_words`), so
that, unlike in the write streams, no word shows in another.

Behind the words come the status, the check and the way back to idle, always as many edges,
and from there the words can be found (`Link.incoming`).
-/

set_option autoImplicit false

namespace OrpsocCores.VpiDebugModule

open Crc JpVpi

variable {env : Surroundings} {l : Link} {p n : Nat}

/-! ## Bits of `tdo` -/

/-- A register that takes a bit in at its lowest place. -/
def shiftIn {w : Nat} (x : BitVec w) (bit : Bool) : BitVec w :=
  (x <<< 1) ||| (BitVec.ofBool bit).setWidth w

/-- What `tdo` is at the rising edges from this one on, most significant bit first. -/
def bitsAt (env : Surroundings) (w edge : Nat) : BitVec w :=
  (List.range w).foldl (fun x i => shiftIn x (env.rise (edge + i))) 0

/-- Of the `n` bits from an edge on, the register has those that it has room for, the latest
in its lowest place. -/
def Latest {w : Nat} (env : Surroundings) (x : BitVec w) (p n : Nat) : Prop :=
  ∀ i < n, i < w → x.getLsbD i = env.rise (p + (n - 1 - i))

theorem latest_zero {w : Nat} (x : BitVec w) : Latest env x p 0 :=
  fun _ before => absurd before (Nat.not_lt_zero _)

theorem Latest.shiftIn {w : Nat} {x : BitVec w} (latest : Latest env x p n) :
    Latest env (shiftIn x (env.rise (p + n))) p (n + 1) := by
  intro i before inside
  rw [VpiDebugModule.shiftIn, BitVec.getLsbD_or, BitVec.getLsbD_shiftLeft, BitVec.getLsbD_setWidth,
    decide_eq_true inside, Bool.true_and, Bool.true_and]
  cases i with
  | zero => simp
  | succ i =>
      have earlier := latest i (by omega) (by omega)
      have place : n - (i + 1) = n - 1 - i := by omega
      simp [earlier, place]

theorem latest_bitsAt (w edge : Nat) : Latest env (bitsAt env w edge) edge w := by
  have rounds : ∀ n, Latest env
      ((List.range n).foldl (fun x i => shiftIn x (env.rise (edge + i))) (0 : BitVec w)) edge n := by
    intro n
    induction n with
    | zero => exact latest_zero 0
    | succ n ih =>
        rw [List.range_succ, List.foldl_append]
        exact ih.shiftIn
  exact rounds w

theorem getLsbD_bitsAt {w i : Nat} (edge : Nat) (inside : i < w) :
    (bitsAt env w edge).getLsbD i = env.rise (edge + (w - 1 - i)) :=
  latest_bitsAt w edge i inside inside

/-- A register that has been filled. -/
theorem Latest.full {w : Nat} {x : BitVec w} (latest : Latest env x p n) (filled : w ≤ n) :
    x = bitsAt env w (p + (n - w)) := by
  apply BitVec.eq_of_getLsbD_eq
  intro i inside
  have place : n - w + (w - 1 - i) = n - 1 - i := by omega
  rw [getLsbD_bitsAt _ inside, latest i (by omega) inside, Nat.add_assoc, place]

/-- A byte that is appended to the bytes before it. -/
theorem Latest.byte {x y : Word} (bytes : Latest env x p n) (byte : Latest env y p (n + 8)) :
    Latest env (x.setWidth 24 ++ y.setWidth 8 : Word) p (n + 8) := by
  intro i before inside
  rw [BitVec.getLsbD_append]
  by_cases low : i < 8
  · rw [if_pos low, BitVec.getLsbD_setWidth, decide_eq_true low, Bool.true_and]
    exact byte i before inside
  · rw [if_neg low, BitVec.getLsbD_setWidth, decide_eq_true (by omega : i - 8 < 24),
      Bool.true_and, bytes (i - 8) (by omega) (by omega)]
    congr 2
    omega

/-! ## The loops -/

theorem genClk_one_inDataBe (l : Link) :
    (genClk env 1 l).inDataBe =
      shiftIn l.inDataBe (env.rise l.edges.length) := rfl

@[simp] theorem length_genClk (k : Nat) (l : Link) :
    (genClk env k l).edges.length = l.edges.length + k := by
  rw [genClk_edges, List.length_append, List.length_replicate]

/-- A word of the storage behind a store. -/
theorem store_slot (storage : Storage) {index k : Nat} (data : Word) (fits : k < 4096) :
    store storage index data (slot k) = if index = k then data else storage (slot k) := by
  have place : slot k = ⟨k, fits⟩ := Fin.ext (Nat.mod_eq_of_lt fits)
  unfold store
  split
  case isTrue inside =>
    rw [place]
    by_cases same : index = k
    · subst same
      rw [if_pos rfl, Function.update_self]
    · rw [if_neg same, Function.update_of_ne]
      exact fun equal => same (congrArg Fin.val equal).symm
  case isFalse outside => rw [if_neg (by omega)]

/-- A read loop behind `n` bits. -/
structure Reading (env : Surroundings) (p n : Nat) (x : Nat × Machine Link) : Prop where
  pointer : x.1 = n / 32
  edges : x.2.1.edges.length = p + n
  latest : Latest env x.2.1.inDataBe p n
  words : ∀ k < n / 32, k < 4096 → x.2.2 (slot k) = bitsAt env 32 (p + 32 * k)

/-- A bit that does not complete a word. -/
theorem Reading.keep {x : Nat × Machine Link} (reading : Reading env p n x)
    (open' : n % 32 ≠ 31) {l' : Link} (edges : l'.edges.length = p + (n + 1))
    (latest : Latest env l'.inDataBe p (n + 1)) : Reading env p (n + 1) (x.1, l', x.2.2) := by
  have same : (n + 1) / 32 = n / 32 := by omega
  refine ⟨by rw [same]; exact reading.pointer, edges, latest, ?_⟩
  rw [same]
  exact reading.words

/-- The last bit of a word. -/
theorem Reading.store {x : Nat × Machine Link} (reading : Reading env p n x)
    (last : n % 32 = 31) {l' : Link} {data : Word} (edges : l'.edges.length = p + (n + 1))
    (latest : Latest env l'.inDataBe p (n + 1)) (word : Latest env data p (n + 1)) :
    Reading env p (n + 1) (x.1 + 1, l', store x.2.2 x.1 data) := by
  have next : (n + 1) / 32 = n / 32 + 1 := by omega
  refine ⟨by rw [next, reading.pointer], edges, latest, ?_⟩
  rw [next]
  intro k before fits
  change VpiDebugModule.store x.2.2 x.1 data (slot k) = _
  rw [store_slot _ _ fits, reading.pointer]
  split
  case isTrue here =>
    subst here
    have place : n + 1 - 32 = 32 * (n / 32) := by omega
    rw [word.full (by omega), place]
  case isFalse other => exact reading.words k (by omega) fits

theorem reading_start (m : Machine Link) : Reading env m.1.edges.length 0 (0, m) :=
  ⟨rfl, rfl, latest_zero _, fun _ before => absurd before (Nat.not_lt_zero _)⟩

theorem Reading.clocked {x : Nat × Machine Link} (reading : Reading env p n x) :
    Latest env (genClk env 1 x.2.1).inDataBe p (n + 1) ∧
      (genClk env 1 x.2.1).edges.length = p + (n + 1) := by
  rw [genClk_one_inDataBe, reading.edges, length_genClk, reading.edges]
  exact ⟨reading.latest.shiftIn, by omega⟩

/-- **The read loop of `debug_cpu_go`.** -/
theorem reading_cpu (m : Machine Link) (n : Nat) :
    Reading env m.1.edges.length n (forUp n (cpuReadBit env) (0, m)) := by
  induction n with
  | zero => exact reading_start m
  | succ n ih =>
      obtain ⟨latest, edges⟩ := ih.clocked
      rw [forUp_succ]
      unfold cpuReadBit
      extract_lets l₁
      split
      case isTrue last => exact ih.store last edges latest latest
      case isFalse more => exact ih.keep more edges latest

/-- **The read loop of `debug_wishbone_go`**, with the bytes that it has collected. -/
theorem reading_wishbone (env : Surroundings) (m : Machine Link) (n : Nat) :
    Reading env m.1.edges.length n (forUp n (wishboneReadBit env) (0, m)) ∧
      Latest env (forUp n (wishboneReadBit env) (0, m)).2.1.incomingWord m.1.edges.length
        (8 * (n / 8)) := by
  induction n with
  | zero => exact ⟨reading_start m, latest_zero _⟩
  | succ n ih =>
      obtain ⟨reading, bytes⟩ := ih
      obtain ⟨latest, edges⟩ := reading.clocked
      rw [forUp_succ]
      unfold wishboneReadBit
      extract_lets l₁ l₂
      have kept : l₂.inDataBe = l₁.inDataBe ∧ l₂.edges = l₁.edges := by
        unfold l₂
        split <;> exact ⟨rfl, rfl⟩
      have latest' : Latest env l₂.inDataBe m.1.edges.length (n + 1) := by rw [kept.1]; exact latest
      have edges' : l₂.edges.length = m.1.edges.length + (n + 1) := by rw [kept.2]; exact edges
      have bytes' : Latest env l₂.incomingWord m.1.edges.length (8 * ((n + 1) / 8)) := by
        unfold l₂
        split
        case isTrue last =>
          have now : 8 * (n / 8) + 8 = n + 1 := by omega
          have next : 8 * ((n + 1) / 8) = 8 * (n / 8) + 8 := by omega
          rw [next]
          exact bytes.byte (by rw [now]; exact latest)
        case isFalse more =>
          have same : (n + 1) / 8 = n / 8 := by omega
          rw [same]
          exact bytes
      split
      case isTrue last =>
        have whole : 8 * ((n + 1) / 8) = n + 1 := by omega
        rw [whole] at bytes'
        exact ⟨reading.store last edges' latest' bytes', by rw [whole]; exact bytes'⟩
      case isFalse more => exact ⟨reading.keep more edges' latest', bytes'⟩

/-! ## The words that are read -/

/-- **The words of a processor read.** -/
theorem cpuRead_words (env : Surroundings) (m : Machine Link) {k : Nat}
    (inside : k < m.1.lengthGlobal.toNat * 8 / 32) (fits : k < 4096) :
    (cpuRead env m).2 (slot k) = bitsAt env 32 (m.1.edges.length + 32 * k) :=
  (reading_cpu m _).words k inside fits

theorem length_cpuRead (env : Surroundings) (m : Machine Link) :
    (cpuRead env m).1.edges.length = m.1.edges.length + m.1.lengthGlobal.toNat * 8 :=
  (reading_cpu m _).edges

theorem wishboneRead_fst (m : Machine Link) :
    (wishboneRead env m).1 =
      (forUp (m.1.lengthGlobal.toNat * 8) (wishboneReadBit env) (0, m)).2.1 := by
  unfold wishboneRead
  extract_lets x
  split <;> rfl

theorem length_wishboneRead (env : Surroundings) (m : Machine Link) :
    (wishboneRead env m).1.edges.length = m.1.edges.length + m.1.lengthGlobal.toNat * 8 := by
  rw [wishboneRead_fst]
  exact (reading_wishbone env m _).1.edges

/-- A Wishbone read leaves its length as it was. -/
theorem lengthGlobal_wishboneRead (m : Machine Link) (n : Nat) :
    (forUp n (wishboneReadBit env) (0, m)).2.1.lengthGlobal = m.1.lengthGlobal := by
  induction n with
  | zero => rfl
  | succ n ih =>
      have bit : ∀ (i : Nat) (x : Nat × Machine Link),
          (wishboneReadBit env i x).2.1.lengthGlobal = x.2.1.lengthGlobal := by
        intro i x
        have clocked : (genClk env 1 x.2.1).lengthGlobal = x.2.1.lengthGlobal :=
          lengthGlobal_congr (genClk_settings 1 x.2.1)
        unfold wishboneReadBit
        extract_lets l₁ l₂
        have kept : l₂.lengthGlobal = l₁.lengthGlobal := by
          unfold l₂
          split <;> rfl
        split <;> exact kept.trans clocked
      rw [forUp_succ, bit, ih]

/-- **The words of a Wishbone read.** -/
theorem wishboneRead_words (env : Surroundings) (m : Machine Link)
    (whole : m.1.lengthGlobal.setWidth 2 = 0) {k : Nat}
    (inside : k < m.1.lengthGlobal.toNat * 8 / 32) (fits : k < 4096) :
    (wishboneRead env m).2 (slot k) = bitsAt env 32 (m.1.edges.length + 32 * k) := by
  unfold wishboneRead
  extract_lets x
  have length : x.2.1.lengthGlobal = m.1.lengthGlobal := lengthGlobal_wishboneRead m _
  rw [if_neg (by rw [length]; exact fun cut => cut whole)]
  exact (reading_wishbone env m _).1.words k inside fits

/-- **A byte that is read** on the Wishbone chain is the low byte of the first word. -/
theorem wishboneRead_byte (env : Surroundings) (m : Machine Link) (single : m.1.lengthGlobal = 1) :
    ((wishboneRead env m).2 (slot 0)).setWidth 8 = bitsAt env 8 m.1.edges.length := by
  have eight : m.1.lengthGlobal.toNat * 8 = 8 := by rw [single]; rfl
  obtain ⟨reading, bytes⟩ := reading_wishbone env m 8
  unfold wishboneRead
  rw [eight]
  extract_lets x
  have length : x.2.1.lengthGlobal = m.1.lengthGlobal := lengthGlobal_wishboneRead m 8
  have cut : x.2.1.lengthGlobal.setWidth 2 ≠ 0 := by rw [length, single]; decide
  rw [if_pos cut]
  change (VpiDebugModule.store x.2.2 x.1 x.2.1.incomingWord (slot 0)).setWidth 8 = _
  rw [store_slot _ _ (by decide), if_pos reading.pointer]
  apply BitVec.eq_of_getLsbD_eq
  intro i inside
  rw [BitVec.getLsbD_setWidth, decide_eq_true inside, Bool.true_and, getLsbD_bitsAt _ inside]
  exact bytes i (by omega) (by omega)

/-! ## Behind the words -/

theorem length_readStatus (status : BitVec 4) (l : Link) :
    (readStatus env status l).2.edges.length = l.edges.length + 4 := by
  simp [readStatus, forDown, List.range_succ]

/-- Rounds of a period each. -/
theorem foldl_genClk (indices : List Nat) (l : Link) :
    indices.foldl (fun l _ => genClk env 1 l) l = genClk env indices.length l := by
  induction indices generalizing l with
  | nil => rw [List.length_nil, genClk_zero, List.foldl_nil]
  | cons i indices ih =>
      rw [List.foldl_cons, ih, List.length_cons, genClk, genClk, genClk, Function.iterate_one,
        Function.iterate_succ_apply]

theorem forUp_genClk (n : Nat) (l : Link) :
    forUp n (fun _ l => genClk env 1 l) l = genClk env n l := by
  have rounds : _ = genClk env (List.range n).length l := foldl_genClk (List.range n) l
  rwa [List.length_range] at rounds

theorem forDown_genClk (n : Nat) (l : Link) :
    forDown n (fun _ l => genClk env 1 l) l = genClk env n l := by
  have rounds : _ = genClk env (List.range n).reverse.length l := foldl_genClk _ l
  rwa [List.length_reverse, List.length_range] at rounds

theorem length_receiveCrc (l : Link) :
    (receiveCrc env l).edges.length = l.edges.length + 34 := by
  simp [receiveCrc, forUp_genClk]

/-- Words of `w` bits that a task has read, by where it has come to: behind them are the status
of four bits, the check of 32, and the two edges back to idle. -/
def Link.incoming (env : Surroundings) (l : Link) (w words : Nat) : List (BitVec w) :=
  (List.range words).map fun k => bitsAt env w (l.edges.length - 38 - w * words + w * k)

/-- A single word. -/
theorem incoming_one (l : Link) (w : Nat) :
    l.incoming env w 1 = [bitsAt env w (l.edges.length - 38 - w)] := by
  rw [Link.incoming, List.range_one, List.map_singleton, Nat.mul_one, Nat.mul_zero, Nat.add_zero]

/-- What a `go` without data out has of the registers when it begins to read. -/
theorem go_settings (command : BitVec 4) (waitForReady genCrcErr : Bool) (l : Link) :
    (forDown 4 (fun i l => shiftBit env (command.getLsbD i) l)
        (shiftBit env false { enterShiftDr env l with crcOut := BitVec.allOnes 32 })).settings =
        l.settings ∧
      (endCrc env waitForReady genCrcErr
        (forDown 4 (fun i l => shiftBit env (command.getLsbD i) l)
          (shiftBit env false
            { enterShiftDr env l with crcOut := BitVec.allOnes 32 }))).settings = l.settings := by
  have start : Stretch [] (BitVec.allOnes 32) (enterShiftDr env l) _ := fresh (enterShiftDr_tms l)
  have select : Driven [false] _ (shiftBit env false _) := driven_shiftBit start.tms false
  have first : Driven (msbFirst command) _
      (forDown 4 (fun i l => shiftBit env (command.getLsbD i) l) _) :=
    driven_word command select.tms
  have check : Stretch _ _ _ (endCrc env waitForReady genCrcErr _) :=
    stretch_endCrc waitForReady genCrcErr first.tms
  have kept := (first.settings.trans select.settings).trans
    (start.settings.trans (enterShiftDr_settings l))
  exact ⟨kept, check.settings.trans kept⟩

/-- A `go` that reads on the Wishbone chain, from where its read loop begins. -/
theorem debugWishboneGo_reads (env : Surroundings) (waitForWbReady genCrcErr : Bool)
    (m : Machine Link) (reads : m.1.wbReads = true) (quiet : m.1.wbWrites = false) :
    ∃ l : Link, l.settings = m.1.settings ∧
      (debugWishboneGo env waitForWbReady genCrcErr m).2 = (wishboneRead env (l, m.2)).2 ∧
      (debugWishboneGo env waitForWbReady genCrcErr m).1.edges.length =
        (wishboneRead env (l, m.2)).1.edges.length + 38 := by
  unfold debugWishboneGo
  extract_lets command l₁ l₂ l₃ l₄ l₅ l₆ l₇ m' read
  obtain ⟨header, begins⟩ : l₄.settings = m.1.settings ∧
      (endCrc env waitForWbReady genCrcErr l₄).settings = m.1.settings :=
    go_settings command waitForWbReady genCrcErr m.1
  have skip : l₅ = l₄ := if_neg (by rw [wbWrites_congr header, quiet]; exact Bool.false_ne_true)
  have settings : l₇.settings = m.1.settings := by
    change (endCrc env waitForWbReady genCrcErr l₅).settings = _
    rw [skip]
    exact begins
  have here : m' = wishboneRead env (l₇, m.2) := if_pos (by rw [wbReads_congr settings, reads])
  refine ⟨l₇, settings, by rw [here], ?_⟩
  rw [length_receiveCrc]
  change (readStatus env m'.1.statusWb m'.1).2.edges.length + 34 = _
  rw [length_readStatus, here]

/-- A `go` that reads on the processor chain. -/
theorem debugCpuGo_reads (env : Surroundings) (waitForCpuReady genCrcErr : Bool) (m : Machine Link)
    (reads : m.1.lastCpuCmd = DBG_CPU_READ) :
    ∃ l : Link, l.settings = m.1.settings ∧
      (debugCpuGo env waitForCpuReady genCrcErr m).2 = (cpuRead env (l, m.2)).2 ∧
      (debugCpuGo env waitForCpuReady genCrcErr m).1.edges.length =
        (cpuRead env (l, m.2)).1.edges.length + 38 := by
  unfold debugCpuGo
  extract_lets command l₁ l₂ l₃ l₄ l₅ l₆ l₇ m' read
  obtain ⟨header, begins⟩ : l₄.settings = m.1.settings ∧
      (endCrc env waitForCpuReady genCrcErr l₄).settings = m.1.settings :=
    go_settings command waitForCpuReady genCrcErr m.1
  have skip : l₅ = l₄ := if_neg (by rw [lastCpuCmd_congr header, reads]; decide)
  have settings : l₇.settings = m.1.settings := by
    change (endCrc env waitForCpuReady genCrcErr l₅).settings = _
    rw [skip]
    exact begins
  have here : m' = cpuRead env (l₇, m.2) := if_pos (by rw [lastCpuCmd_congr settings, reads])
  refine ⟨l₇, settings, by rw [here], ?_⟩
  rw [length_receiveCrc]
  change (readStatus env m'.1.statusCpu m'.1).2.edges.length + 34 = _
  rw [length_readStatus, here]

end OrpsocCores.VpiDebugModule
