import OrpsocCores.WbBfm.ExpectedData

/-!
# The transactor on a slave

`wb_bfm_transactor` draws a burst, writes it, reads it back and compares the data with
`expected_data`, as often as it is told.  What answers the master is left open here: a
`Fixture` is the master with something on its bus, and `Serves` says what that has to do,
namely to keep the words below a bound and to bring every burst on them to its end.

`passes`: on a fixture that serves, a run of any number of transactions comes to `done`, no
comparison on the way fails, and the words are those of the transactions in their order.
The test benches are instances.
-/

set_option autoImplicit false

namespace OrpsocCores.WbBfm

open Wishbone AlignedBlock LastAssignment

variable {aw : Nat} {σ ι : Type}

/-! ## What the transactor is connected to -/

/-- The master with something on its bus; `ι` is what comes from outside at an edge. -/
structure Fixture (aw : Nat) (σ ι : Type) where
  master : σ → Master aw
  step : σ → Option (Request aw) → ι → σ

/-- The fixture `n` edges after the one at which a burst is called. -/
def Fixture.burst (fixture : Fixture aw σ ι) (op : Bool) (args : Burst aw) (x : σ)
    (inputs : Nat → ι) : Nat → σ
  | 0 => fixture.step x (some (.burst op args)) (inputs 0)
  | n + 1 => fixture.step (fixture.burst op args x inputs n) none (inputs (n + 1))

/-- A burst that moves on, with all lanes, on words below a bound. -/
structure Burst.Plain (size : Nat) (args : Burst aw) : Prop where
  aligned : args.addrI.toNat % 4 = 0
  positive : 0 < args.beats
  moves : args.burstTypeI ≠ .constant
  full : args.maskI = 0xf
  below : ∀ k < args.beats, (args.drives k).toNat < size

theorem drives_aligned (wide : 6 ≤ aw) {args : Burst aw} (aligned : args.addrI.toNat % 4 = 0)
    (k : Nat) : (args.drives k).toNat % 4 = 0 := by
  rw [toNat_drives wide aligned, Nat.mul_mod_right]

/-- The fixture keeps the words below a bound.  `Rests` says that no access is going on and
what the words are. -/
structure Serves (fixture : Fixture aw σ ι) (size : Nat) (Rests : σ → Words aw → Prop) :
    Prop where
  idle : ∀ {x mem}, Rests x mem → (fixture.master x).phase = .idle
  waits : ∀ {x mem}, Rests x mem → ∀ input, Rests (fixture.step x none input) mem
  performs : ∀ {x mem op args}, Rests x mem → args.Plain size → ∀ inputs : Nat → ι, ∃ n,
    (∀ i < n, (fixture.master (fixture.burst op args x inputs i)).phase ≠ .idle) ∧
      Rests (fixture.burst op args x inputs n)
        (if op then args.writes mem args.beats else mem) ∧
      (op = false → ∀ k < args.beats,
        (fixture.master (fixture.burst op args x inputs n)).dataO (BitVec.ofNat 32 k) =
          args.reads mem k)

/-! ## The transactor -/

/-- What the transactor has drawn for a transaction. -/
structure Draw (aw : Nat) where
  address : BitVec aw
  writeData : BitVec 32 → BitVec 32
  burstLength : BitVec 32
  burstType : BurstType

/-- The burst that is written and read. -/
def Draw.burst (d : Draw aw) : Burst aw :=
  transaction d.address d.writeData d.burstLength d.burstType

/-- The words after a transaction. -/
def Draw.writes (d : Draw aw) (mem : Words aw) : Words aw := d.burst.writes mem d.burst.beats

/-- The transaction is one that the transactor draws, and it stays below the bound. -/
structure Draw.Fits (size : Nat) (d : Draw aw) : Prop where
  aligned : d.address.toNat % 4 = 0
  positive : 1 ≤ d.burstLength.toNat
  short : d.burstLength.toNat < 2 ^ 30
  /-- `burst_type` is a remainder modulo four. -/
  moves : d.burstType ≠ .constant
  below : ∀ k < d.burstLength.toNat, (d.burst.drives k).toNat < size

theorem Draw.Fits.plain {size : Nat} {d : Draw aw} (fits : d.Fits size) : d.burst.Plain size :=
  ⟨fits.aligned, fits.positive, fits.moves, rfl, fits.below⟩

/-- Where the `initial` block of the transactor is. -/
inductive Place where
  /-- At the head of the loop over the transactions. -/
  | atHead
  /-- In `write_burst`, or at the edge behind it. -/
  | writing
  /-- In `read_burst`, or at the edge behind it. -/
  | reading
  | done
  /-- At `$finish`, after a mismatch. -/
  | failed
  deriving DecidableEq, Repr

/-- `wb_bfm_transactor` on a fixture; `todo` begins with the transaction at hand. -/
structure Transactor (aw : Nat) (σ : Type) where
  system : σ
  expectedData : BitVec 32 → BitVec 32
  todo : List (Draw aw)
  place : Place

namespace Transactor

/-- The head of the loop. -/
def head (t : Transactor aw σ) : Transactor aw σ × Option (Request aw) :=
  match t.todo with
  | [] => ({ t with place := .done }, none)
  | d :: _ => ({ t with place := .writing }, some (.burst true d.burst))

/-- `read_data` agrees with `expected_data` word by word. -/
def Matches (m : Master aw) (d : Draw aw) (expected : BitVec 32 → BitVec 32) : Prop :=
  ∀ word < d.burstLength.toNat, m.dataO (BitVec.ofNat 32 word) = expected (BitVec.ofNat 32 word)

instance (m : Master aw) (d : Draw aw) (expected : BitVec 32 → BitVec 32) :
    Decidable (Matches m d expected) :=
  inferInstanceAs (Decidable (∀ word < _, _))

/-- What the `initial` block does at an edge at which no task of the master is running. -/
def proceed (m : Master aw) (t : Transactor aw σ) : Transactor aw σ × Option (Request aw) :=
  match t.place, t.todo with
  | .atHead, _ => t.head
  | .writing, d :: _ => ({ t with place := .reading }, some (.burst false d.burst))
  | .reading, d :: rest =>
      let expected := WbBfm.expectedData d.burstLength d.burstType d.writeData t.expectedData
      if Matches m d expected then { t with expectedData := expected, todo := rest }.head
      else ({ t with expectedData := expected, place := .failed }, none)
  | _, _ => (t, none)

variable (fixture : Fixture aw σ ι)

/-- `posedge wb_clk_i`. -/
def edge (t : Transactor aw σ) (input : ι) : Transactor aw σ :=
  let m := fixture.master t.system
  if m.phase = .idle then
    { (t.proceed m).1 with system := fixture.step t.system (t.proceed m).2 input }
  else { t with system := fixture.step t.system none input }

/-- The transactor after `n` edges. -/
def after (t : Transactor aw σ) (inputs : Nat → ι) : Nat → Transactor aw σ
  | 0 => t
  | n + 1 => (after t inputs n).edge fixture (inputs n)

theorem after_add (t : Transactor aw σ) (inputs : Nat → ι) (m n : Nat) :
    t.after fixture inputs (m + n) =
      (t.after fixture inputs m).after fixture (fun i => inputs (m + i)) n := by
  induction n with
  | zero => rfl
  | succ n ih => rw [← Nat.add_assoc, after, ih, after]

variable {fixture} {size : Nat} {Rests : σ → Words aw → Prop} {t : Transactor aw σ}
  {mem : Words aw}

/-- **The burst that is called is performed**; the transactor waits for it. -/
theorem performs (serves : Serves fixture size Rests) (rests : Rests t.system mem)
    {y : Transactor aw σ} {op : Bool} {args : Burst aw}
    (proceeds : t.proceed (fixture.master t.system) = (y, some (.burst op args)))
    (plain : args.Plain size) (inputs : Nat → ι) :
    ∃ n, (∀ i ≤ n, (t.after fixture inputs (i + 1)).place = y.place) ∧
      ∃ x, t.after fixture inputs (n + 1) = { y with system := x } ∧
        Rests x (if op then args.writes mem args.beats else mem) ∧
        (op = false → ∀ k < args.beats,
          (fixture.master x).dataO (BitVec.ofNat 32 k) = args.reads mem k) := by
  obtain ⟨n, busy, restsAgain, read⟩ := serves.performs rests plain inputs
  have follows : ∀ i ≤ n, t.after fixture inputs (i + 1) =
      { y with system := fixture.burst op args t.system inputs i } := by
    intro i within
    induction i with
    | zero =>
        rw [after, after, edge]
        simp only [serves.idle rests, if_true, proceeds]
        rfl
    | succ i ih =>
        rw [after, ih (Nat.le_of_succ_le within), edge]
        exact if_neg (busy i within)
  refine ⟨n, fun i within => ?_, _, follows n (Nat.le_refl n), restsAgain, read⟩
  rw [follows i within]

/-! ## A run of transactions -/

/-- No comparison fails, and the run ends with these words. -/
def Passes (fixture : Fixture aw σ ι) (Rests : σ → Words aw → Prop) (t : Transactor aw σ)
    (inputs : Nat → ι) (mem : Words aw) : Prop :=
  (∀ n, (t.after fixture inputs (n + 1)).place ≠ .failed) ∧
    ∃ n, (t.after fixture inputs n).place = .done ∧ Rests (t.after fixture inputs n).system mem

/-- A run passes if it has come some way and the rest of it passes. -/
theorem Passes.of_rest {inputs : Nat → ι} {n : Nat}
    (soFar : ∀ i ≤ n, (t.after fixture inputs (i + 1)).place ≠ .failed)
    (rest : Passes fixture Rests (t.after fixture inputs (n + 1))
      (fun i => inputs (n + 1 + i)) mem) :
    Passes fixture Rests t inputs mem := by
  obtain ⟨later, m, done, same⟩ := rest
  refine ⟨fun i => ?_, n + 1 + m, ?_, ?_⟩
  · rcases Nat.lt_or_ge n i with behind | within
    · obtain ⟨j, rfl⟩ := Nat.exists_eq_add_of_lt behind
      have there := later j
      rw [← after_add] at there
      rwa [show n + j + 1 + 1 = n + 1 + (j + 1) by omega]
    · exact soFar i within
  · rw [after_add]
    exact done
  · rw [after_add]
    exact same

/-- Nothing follows `done`. -/
theorem done_after (done : t.place = .done) (inputs : Nat → ι) (n : Nat) :
    (t.after fixture inputs n).place = .done := by
  induction n with
  | zero => exact done
  | succ n ih =>
      rw [after, edge]
      dsimp only
      split
      · rw [proceed, ih]
        exact ih
      · exact ih

/-- No transaction is left. -/
theorem passes_nil (serves : Serves fixture size Rests) (rests : Rests t.system mem)
    {y : Transactor aw σ} (proceeds : t.proceed (fixture.master t.system) = y.head)
    (todo : y.todo = []) (inputs : Nat → ι) : Passes fixture Rests t inputs mem := by
  have first : t.after fixture inputs 1 =
      { y with place := .done, system := fixture.step t.system none (inputs 0) } := by
    rw [after, after, edge]
    simp only [serves.idle rests, if_true, proceeds, head, todo]
  have done : (t.after fixture inputs 1).place = .done := by rw [first]
  refine Passes.of_rest (n := 0) (fun i within => ?_) ⟨fun n => ?_, 0, done, ?_⟩
  · rw [Nat.le_zero.mp within, done]
    exact Place.noConfusion
  · rw [done_after done]
    exact Place.noConfusion
  · show Rests (t.after fixture inputs 1).system mem
    rw [first]
    exact serves.waits rests (inputs 0)

/-- What has been written and read back is what is expected. -/
theorem matches_of_reads (wide : 32 ≤ aw) {d : Draw aw} (fits : d.Fits size) {m : Master aw}
    (read : ∀ k < d.burst.beats, m.dataO (BitVec.ofNat 32 k) = d.burst.reads (d.writes mem) k)
    (before : BitVec 32 → BitVec 32) :
    Matches m d (WbBfm.expectedData d.burstLength d.burstType d.writeData before) := by
  intro word inside
  rw [read word inside, Draw.writes, reads_writes (by omega) fits.aligned rfl mem inside,
    expectedData_eq wide fits.positive fits.short d.burstType d.writeData before inside]
  rfl

/-- **From the head of the loop on, the transactions that are left pass.** -/
theorem passes (wide : 32 ≤ aw) (serves : Serves fixture size Rests) {draws : List (Draw aw)}
    (fits : ∀ d ∈ draws, d.Fits size) {t y : Transactor aw σ} {mem : Words aw}
    (rests : Rests t.system mem) (proceeds : t.proceed (fixture.master t.system) = y.head)
    (todo : y.todo = draws) (inputs : Nat → ι) :
    Passes fixture Rests t inputs (draws.foldl (fun mem d => d.writes mem) mem) := by
  induction draws generalizing t y mem inputs with
  | nil => exact passes_nil serves rests proceeds todo inputs
  | cons d rest ih =>
      have here : d.Fits size := fits d List.mem_cons_self
      -- the write burst
      have writes : t.proceed (fixture.master t.system) =
          ({ y with place := .writing }, some (.burst true d.burst)) := by
        rw [proceeds, head, todo]
      obtain ⟨n, writing, x, written, stored, -⟩ := performs serves rests writes here.plain inputs
      refine Passes.of_rest (n := n) (fun i within => ?_) ?_
      · rw [writing i within]
        exact Place.noConfusion
      rw [written]
      -- the read burst
      have reads : ({ y with place := .writing, system := x } : Transactor aw σ).proceed
            (fixture.master x) =
          ({ y with place := .reading, system := x }, some (.burst false d.burst)) := by
        rw [proceed]
        simp only [todo]
      obtain ⟨m, reading, x', read, kept, fetched⟩ :=
        performs (t := { y with place := .writing, system := x }) serves stored reads here.plain
          fun i => inputs (n + 1 + i)
      refine Passes.of_rest (n := m) (fun i within => ?_) ?_
      · rw [reading i within]
        exact Place.noConfusion
      rw [read]
      -- the comparison, and the rest
      have agrees := matches_of_reads wide here (fetched rfl) y.expectedData
      have further : ({ y with place := .reading, system := x' } : Transactor aw σ).proceed
            (fixture.master x') =
          ({ y with
            place := .reading, system := x', todo := rest
            expectedData :=
              WbBfm.expectedData d.burstLength d.burstType d.writeData y.expectedData } :
            Transactor aw σ).head := by
        rw [proceed]
        simp only [todo]
        exact if_pos agrees
      exact ih (t := { y with place := .reading, system := x' })
        (fun e member => fits e (List.mem_cons_of_mem d member)) kept further rfl
        fun i => inputs (n + 1 + (m + 1 + i))

end Transactor

end OrpsocCores.WbBfm
