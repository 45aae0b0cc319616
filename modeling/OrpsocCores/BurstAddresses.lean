import OrpsocCores.Foundation.AlignedBlock
import OrpsocCores.WbAvalonBridge.Model
import OrpsocCores.WbBfm.Model
import OrpsocCores.WbPort.Model

/-!
# The addresses of a burst

Four cores compute the next address of an incrementing burst, each in its own way:
`wb_common` on the index of the word, the bus functional models, the port of the memory
controller and the bridge to Avalon on the bytes of the block.  On the addresses of words
they are one function, and the wrap bursts walk round their block with it
(`burst_addresses`).
-/

set_option autoImplicit false

namespace OrpsocCores.BurstAddresses

open Wishbone AlignedBlock

/-! ## The four functions -/

/-- `wb_next_adr`, `next_addr`, `next_wb_adr` and `next_adr`, for 32-bit addresses and an
incrementing burst of this type. -/
def nextAddresses (bte : Bte) : List (BitVec 32 → BitVec 32) :=
  [fun adr => wbNextAdrCoded adr (Cti.code .incBurst) (bte.code.setWidth 3) 32,
    fun adr => WbBfm.nextAddr adr (.ofBte bte),
    fun adr => WbPort.nextWbAdr { (Pins.idle : WbPort.Bus) with adr := adr, bte := bte },
    WbAvalonBridge.nextAdr bte]

/-- The address of a word. -/
def WordAligned (adr : BitVec 32) : Prop := adr.toNat % 4 = 0

instance (adr : BitVec 32) : Decidable (WordAligned adr) := inferInstanceAs (Decidable (_ = _))

/-- A function that goes to the word that a burst of this type prescribes. -/
def Prescribed (bte : Bte) (f : BitVec 32 → BitVec 32) : Prop :=
  ∀ adr, WordAligned adr → (f adr).toNat = 4 * (bte.nextWord (adr.toNat / 4) % 2 ^ 30)

theorem prescribed_nextAdr (bte : Bte) : Prescribed bte (WbAvalonBridge.nextAdr bte) := by
  intro adr aligned
  rw [WbAvalonBridge.toNat_nextAdr (by decide) bte adr, aligned, Nat.add_zero]

theorem prescribed_wbNextAdr (bte : Bte) :
    Prescribed bte fun adr =>
      wbNextAdrCoded adr (Cti.code .incBurst) (bte.code.setWidth 3) 32 := by
  intro adr _
  dsimp only
  rw [wbNextAdrCoded_code, wbNextAdr_toNat]
  rfl

/-- **Each of the four goes to the prescribed word.** -/
theorem prescribed {bte : Bte} {f : BitVec 32 → BitVec 32} (listed : f ∈ nextAddresses bte) :
    Prescribed bte f := by
  simp only [nextAddresses, List.mem_cons, List.not_mem_nil, or_false] at listed
  rcases listed with rfl | rfl | rfl | rfl
  · exact prescribed_wbNextAdr bte
  · -- the same shifts of the bytes as in the bridge
    cases bte <;> exact prescribed_nextAdr _
  · cases bte <;> exact prescribed_nextAdr _
  · exact prescribed_nextAdr bte

/-! ## Wrap bursts -/

/-- The number of beats of a wrap burst. -/
def wrapBeats : Bte → Option Nat
  | .linear => none
  | .wrap4 => some 4
  | .wrap8 => some 8
  | .wrap16 => some 16

/-- The words of an aligned block: of so many words, around an address. -/
def InBlock (words : Nat) (adr a : BitVec 32) : Prop :=
  WordAligned a ∧ a.toNat / 4 / words = adr.toNat / 4 / words

variable {bte : Bte} {words : Nat} {f : BitVec 32 → BitVec 32} {adr : BitVec 32}

theorem nextWord_eq_next (wraps : wrapBeats bte = some words) : bte.nextWord = next words := by
  cases bte <;> simp only [wrapBeats, Option.some.injEq, reduceCtorEq] at wraps
  all_goals
    subst wraps
    rfl

theorem wrapBeats_dvd (wraps : wrapBeats bte = some words) : 0 < words ∧ words ∣ 2 ^ 30 := by
  cases bte <;> simp only [wrapBeats, Option.some.injEq, reduceCtorEq] at wraps
  all_goals
    subst wraps
    decide

/-- The block does not reach over the end of the address space. -/
theorem iterate_next_lt (wraps : wrapBeats bte = some words) (beats : Nat) :
    (next words)^[beats] (adr.toNat / 4) < 2 ^ 30 := by
  obtain ⟨positive, blocks, space⟩ := wrapBeats_dvd wraps
  have whole : adr.toNat / 4 < blocks * words := by
    have bound := adr.isLt
    rw [Nat.mul_comm, ← space]
    omega
  rw [space, Nat.mul_comm, ← Nat.div_lt_iff_lt_mul positive, iterate_next_div positive,
    Nat.div_lt_iff_lt_mul positive]
  exact whole

/-- The address after some beats. -/
theorem toNat_iterate (wraps : wrapBeats bte = some words) (goes : Prescribed bte f)
    (aligned : WordAligned adr) (beats : Nat) :
    (f^[beats] adr).toNat = 4 * (next words)^[beats] (adr.toNat / 4) := by
  induction beats with
  | zero => exact (Nat.mul_div_cancel' (Nat.dvd_of_mod_eq_zero aligned)).symm
  | succ beats ih =>
      have word : WordAligned (f^[beats] adr) := by
        rw [WordAligned, ih, Nat.mul_mod_right]
      have small : (next words)^[beats + 1] (adr.toNat / 4) < 2 ^ 30 :=
        iterate_next_lt wraps (beats + 1)
      rw [Function.iterate_succ_apply'] at small ⊢
      rw [Function.iterate_succ_apply', goes _ word, ih, Nat.mul_div_cancel_left _ (by decide),
        nextWord_eq_next wraps, Nat.mod_eq_of_lt small]

/-- The addresses of words are told apart by the words. -/
theorem eq_iff_word {a : BitVec 32} (aligned : WordAligned a) {word : Nat} {b : BitVec 32}
    (value : b.toNat = 4 * word) : b = a ↔ word = a.toNat / 4 := by
  have whole : a.toNat = 4 * (a.toNat / 4) :=
    (Nat.mul_div_cancel' (Nat.dvd_of_mod_eq_zero aligned)).symm
  rw [← BitVec.toNat_inj, value]
  omega

/-- What a burst of `words` beats does that wraps. -/
structure GoesRound (words : Nat) (f : BitVec 32 → BitVec 32) (adr : BitVec 32) : Prop where
  inside : ∀ beats, InBlock words adr (f^[beats] adr)
  once : ∀ a, InBlock words adr a → ∃! beats, beats < words ∧ f^[beats] adr = a
  back : f^[words] adr = adr

theorem goesRound (wraps : wrapBeats bte = some words) (goes : Prescribed bte f)
    (aligned : WordAligned adr) : GoesRound words f adr := by
  obtain ⟨positive, -⟩ := wrapBeats_dvd wraps
  constructor
  case inside =>
      intro beats
      rw [InBlock, WordAligned, toNat_iterate wraps goes aligned, Nat.mul_mod_right,
        Nat.mul_div_cancel_left _ (by decide), iterate_next_div positive]
      exact ⟨rfl, rfl⟩
  case once =>
      rintro a ⟨word, block⟩
      have there (beats : Nat) :
          f^[beats] adr = a ↔ (next words)^[beats] (adr.toNat / 4) = a.toNat / 4 :=
        eq_iff_word word (toNat_iterate wraps goes aligned beats)
      simp only [there]
      exact existsUnique_iterate positive block
  case back =>
      rw [eq_iff_word aligned (toNat_iterate wraps goes aligned words),
        iterate_next_size positive]

/-- **The four functions agree on the addresses of words, and with each of them a wrap burst
goes round its block; in other cycles `wb_next_adr` leaves such an address alone.** -/
theorem burst_addresses {adr : BitVec 32} (aligned : WordAligned adr) :
    (∀ bte : Bte, ∀ f ∈ nextAddresses bte, ∀ g ∈ nextAddresses bte, f adr = g adr) ∧
      (∀ (bte : Bte) (words : Nat), wrapBeats bte = some words →
        ∀ f ∈ nextAddresses bte, GoesRound words f adr) ∧
      ∀ ctiI bteI : BitVec 3, ctiI ≠ Cti.code .incBurst →
        wbNextAdrCoded adr ctiI bteI 32 = adr := by
  refine ⟨?_, ?_, ?_⟩
  · intro bte f listed g listed'
    exact BitVec.eq_of_toNat_eq
      ((prescribed listed adr aligned).trans (prescribed listed' adr aligned).symm)
  · intro bte words wraps f listed
    exact goesRound wraps (prescribed listed) aligned
  · intro ctiI bteI still
    have shift : Nat.clog 2 (32 / 8) = 2 := by decide
    have bound := adr.isLt
    rw [WordAligned] at aligned
    rw [wbNextAdrCoded_still still, shift]
    apply BitVec.eq_of_toNat_eq
    rw [BitVec.toNat_shiftLeft, BitVec.toNat_ushiftRight, Nat.shiftRight_eq_div_pow,
      Nat.shiftLeft_eq]
    omega

theorem burst_addresses_last_word :
    WordAligned 0xfffffffc ∧
      GoesRound 4 (WbAvalonBridge.nextAdr .wrap4) (0xfffffffc : BitVec 32) :=
  ⟨by decide, (burst_addresses (by decide)).2.1 .wrap4 4 rfl _ (by simp [nextAddresses])⟩

end OrpsocCores.BurstAddresses
