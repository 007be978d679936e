import UsbDirectFabric.Foundation.ShiftRegister
import Mathlib.Data.Nat.Prime.Basic
import Mathlib.Dynamics.PeriodicPts.Defs

/-!
# Periods of shift registers

A register that starts with its highest bit only comes back to it after some number of shifts. Since
shifting is linear, any register is a polynomial in the shift applied to that start, so the register
after many shifts is computed by squaring, and the period by the prime factors of a multiple of it.

Two flipped symbol bits cancel only if they are a multiple of the period apart.
-/

namespace ShiftRegister

open Function

variable {w : ℕ}

/-! ## Polynomials in the shift -/

def top (w : ℕ) : BitVec w := BitVec.twoPow w (w - 1)

theorem getMsbD_top {index : ℕ} (hindex : index < w) :
    (top w).getMsbD index = decide (index = 0) := by
  rw [top, BitVec.getMsbD_twoPow]
  have hhighest : w - 1 < w ∧ w - (w - 1) - 1 = 0 := by omega
  simp [hhighest]

def bits (register : BitVec w) : List Bool := (List.range w).map register.getMsbD

/-- The sum of those shifts of a register that the coefficients pick, the unshifted one first. -/
def combine (generator : BitVec w) : List Bool → BitVec w → BitVec w
  | [], _ => 0#w
  | coefficient :: coefficients, register =>
      (if coefficient then register else 0#w) ^^^
        shift generator (combine generator coefficients register)

theorem combine_shift (generator : BitVec w) (coefficients : List Bool) (register : BitVec w) :
    combine generator coefficients (shift generator register) =
      shift generator (combine generator coefficients register) := by
  induction coefficients with
  | nil => exact (shift_zero generator).symm
  | cons coefficient coefficients ih =>
      rw [combine, combine, ih, shift_xor]
      cases coefficient <;> simp

theorem combine_iterate (generator : BitVec w) (coefficients : List Bool) (register : BitVec w)
    (count : ℕ) :
    combine generator coefficients ((shift generator)^[count] register) =
      (shift generator)^[count] (combine generator coefficients register) := by
  induction count generalizing register with
  | zero => rfl
  | succ count ih => rw [iterate_succ_apply, iterate_succ_apply, ih, combine_shift]

/-- Few enough coefficients become the highest bits of the register. -/
theorem getMsbD_combine_top (generator : BitVec w) {coefficients : List Bool}
    (hlength : coefficients.length ≤ w) {index : ℕ} (hindex : index < w) :
    (combine generator coefficients (top w)).getMsbD index = coefficients[index]?.getD false := by
  induction coefficients generalizing index with
  | nil => simp [combine]
  | cons coefficient coefficients ih =>
      rw [List.length_cons] at hlength
      have hlow : (combine generator coefficients (top w)).getLsbD 0 = false := by
        have hlast : coefficients[w - 1]? = none := List.getElem?_eq_none (by omega)
        rw [BitVec.getLsbD_eq_getMsbD, Nat.sub_zero, ih (by omega) (by omega), hlast]
        simp
      rw [combine, shift, hlow, if_neg Bool.false_ne_true, BitVec.getMsbD_xor,
        BitVec.getMsbD_ushiftRight]
      cases index with
      | zero => cases coefficient <;> simp [getMsbD_top hindex]
      | succ index =>
          have hrest := ih (by omega) (show index < w by omega)
          cases coefficient <;> simp [getMsbD_top hindex, hindex, hrest]

theorem combine_bits_top (generator register : BitVec w) :
    combine generator (bits register) (top w) = register := by
  apply BitVec.eq_of_getMsbD_eq
  intro index hindex
  rw [getMsbD_combine_top generator (by simp [bits]) hindex]
  simp [bits, hindex]

/-! ## Powers of the shift -/

/-- `shift` iterated `exponent` times on `top`, for an exponent of at most `count` binary digits. -/
def power (generator : BitVec w) : ℕ → ℕ → BitVec w
  | 0, _ => top w
  | count + 1, exponent =>
      let root := power generator count (exponent / 2)
      let square := combine generator (bits root) root
      if exponent % 2 = 1 then shift generator square else square

/-- Squaring doubles the number of shifts. -/
theorem combine_bits_iterate (generator : BitVec w) (count : ℕ) :
    combine generator (bits ((shift generator)^[count] (top w)))
        ((shift generator)^[count] (top w)) =
      (shift generator)^[2 * count] (top w) := by
  rw [combine_iterate, combine_bits_top, ← iterate_add_apply, two_mul]

theorem power_eq (generator : BitVec w) {count exponent : ℕ} (hdigits : exponent < 2 ^ count) :
    power generator count exponent = (shift generator)^[exponent] (top w) := by
  induction count generalizing exponent with
  | zero =>
      obtain rfl : exponent = 0 := by simpa using hdigits
      rfl
  | succ count ih =>
      rw [pow_succ] at hdigits
      rw [power, ih (by omega), combine_bits_iterate, ← iterate_succ_apply' (shift generator)]
      split
      · congr 2
        omega
      · congr 2
        omega

/-- A multiple of the period is the period itself if no prime factor can be taken out. -/
theorem minimalPeriod_eq_of_primes {α : Type*} {f : α → α} {x : α} {period : ℕ}
    (hperiodic : IsPeriodicPt f period x)
    (hprimes : ∀ p, p.Prime → p ∣ period → ¬IsPeriodicPt f (period / p) x) :
    minimalPeriod f x = period := by
  obtain ⟨factor, hfactor⟩ := hperiodic.minimalPeriod_dvd
  by_contra hdiffers
  have hone : factor ≠ 1 := by
    rintro rfl
    exact hdiffers (by rw [hfactor, mul_one])
  obtain ⟨p, hprime, rest, rfl⟩ := Nat.exists_prime_and_dvd hone
  have hquotient : period / p = minimalPeriod f x * rest := by
    rw [hfactor, ← mul_assoc, mul_right_comm]
    exact Nat.mul_div_cancel _ hprime.pos
  apply hprimes p hprime ⟨minimalPeriod f x * rest, by rw [hfactor, mul_left_comm]⟩
  rw [hquotient]
  exact (isPeriodicPt_minimalPeriod f x).mul_const rest

/-! ## Two flipped bits -/

variable {k : ℕ}

/-- What is added to a register is shifted through the symbols that follow. -/
theorem run_xor_register (generator register difference : BitVec w) (symbols : List (BitVec k)) :
    run generator (register ^^^ difference) symbols =
      run generator register symbols ^^^ (shift generator)^[k * symbols.length] difference := by
  induction symbols generalizing register difference with
  | nil => rfl
  | cons symbol symbols ih =>
      have hfeed : feed generator (register ^^^ difference) symbol =
          feed generator register symbol ^^^ (shift generator)^[k] difference := by
        rw [feed, feed, ← iterate_shift_xor, BitVec.xor_assoc, BitVec.xor_assoc,
          BitVec.xor_comm difference]
      calc
        run generator (register ^^^ difference) (symbol :: symbols) =
            run generator (feed generator (register ^^^ difference) symbol) symbols := rfl
        _ = run generator (feed generator register symbol) symbols ^^^
            (shift generator)^[k * symbols.length] ((shift generator)^[k] difference) := by
          rw [hfeed, ih]
        _ = run generator register (symbol :: symbols) ^^^
            (shift generator)^[k * (symbol :: symbols).length] difference := by
          rw [← iterate_add_apply, List.length_cons, Nat.mul_succ]
          rfl

/-- A single bit is the highest one after some shifts. -/
theorem twoPow_eq_iterate (generator : BitVec w) {bit : ℕ} (hbit : bit < w) :
    BitVec.twoPow w bit = (shift generator)^[w - 1 - bit] (top w) := by
  have htop : top w = BitVec.twoPow w bit <<< (w - 1 - bit) := by
    rw [top, BitVec.twoPow_eq, BitVec.twoPow_eq, ← BitVec.shiftLeft_add]
    congr 1
    omega
  rw [htop, iterate_shift_shiftLeft]
  rw [BitVec.toNat_twoPow_of_lt hbit, ← pow_add]
  exact Nat.pow_lt_pow_right (by decide) (by omega)

/-- How many shifts a bit goes through, counted from the highest bit of the register. -/
def reach (w k length index bit : ℕ) : ℕ := k * (length - index) + (w - 1 - bit)

def flip (symbols : List (BitVec k)) (index bit : ℕ) : List (BitVec k) :=
  symbols.modify index (· ^^^ BitVec.twoPow k bit)

@[simp]
theorem length_flip (symbols : List (BitVec k)) (index bit : ℕ) :
    (flip symbols index bit).length = symbols.length := by
  rw [flip, List.length_modify]

theorem run_flip (generator register : BitVec w) {symbols : List (BitVec k)} {index bit : ℕ}
    (hindex : index < symbols.length) (hbit : bit < k) (hwidth : k ≤ w) :
    run generator register (flip symbols index bit) = run generator register symbols ^^^
      (shift generator)^[reach w k symbols.length index bit] (top w) := by
  have hunit : (BitVec.twoPow k bit).setWidth w = BitVec.twoPow w bit := by
    apply BitVec.eq_of_getLsbD_eq
    intro position hposition
    rw [BitVec.getLsbD_setWidth, BitVec.getLsbD_twoPow, BitVec.getLsbD_twoPow]
    simp [hposition, hbit, lt_of_lt_of_le hbit hwidth]
  induction symbols generalizing register index with
  | nil => cases hindex
  | cons symbol symbols ih =>
      cases index with
      | zero =>
          have hfeed : feed generator register (symbol ^^^ BitVec.twoPow k bit) =
              feed generator register symbol ^^^
                (shift generator)^[k] ((shift generator)^[w - 1 - bit] (top w)) := by
            rw [feed, feed, BitVec.setWidth_xor, hunit, ← BitVec.xor_assoc, iterate_shift_xor,
              ← twoPow_eq_iterate generator (lt_of_lt_of_le hbit hwidth)]
          change run generator (feed generator register (symbol ^^^ BitVec.twoPow k bit)) symbols =
            run generator (feed generator register symbol) symbols ^^^ _
          rw [hfeed, run_xor_register, ← iterate_add_apply, ← iterate_add_apply, reach,
            List.length_cons, Nat.sub_zero, Nat.mul_succ, Nat.add_assoc]
      | succ index =>
          have hlater := ih (feed generator register symbol) (Nat.lt_of_succ_lt_succ hindex)
          rw [reach, List.length_cons, Nat.add_sub_add_right]
          exact hlater

/-- Different bits go through different numbers of shifts. -/
theorem reach_injective {length index bit other position : ℕ} (hindex : index < length)
    (hother : other < length) (hbit : bit < k) (hposition : position < k) (hwidth : k ≤ w)
    (hequal : reach w k length index bit = reach w k length other position) :
    index = other ∧ bit = position := by
  unfold reach at hequal
  have hshifted : position + k * (length - index) = bit + k * (length - other) := by omega
  have hbits : position = bit := by
    have hmod := congrArg (· % k) hshifted
    simpa [Nat.mod_eq_of_lt hbit, Nat.mod_eq_of_lt hposition] using hmod
  subst hbits
  have hcount : length - index = length - other :=
    Nat.eq_of_mul_eq_mul_left (by omega) (Nat.add_left_cancel hshifted)
  exact ⟨by omega, rfl⟩

/-- **Two flipped bits are seen.** Strings that are shorter than the period leave different states
behind when they differ in exactly two bits. -/
theorem run_flipTwo {generator : BitVec w} (register : BitVec w) {symbols : List (BitVec k)}
    (hshort : k * symbols.length + w ≤ minimalPeriod (shift generator) (top w)) (hwidth : k ≤ w)
    {index bit other position : ℕ} (hindex : index < symbols.length) (hbit : bit < k)
    (hother : other < symbols.length) (hposition : position < k)
    (hdistinct : ¬(index = other ∧ bit = position)) :
    run generator register (flip (flip symbols index bit) other position) ≠
      run generator register symbols := by
  intro hequal
  have hreach {place offset : ℕ} (hoffset : offset < k) :
      reach w k symbols.length place offset < minimalPeriod (shift generator) (top w) := by
    have hfactor : k * (symbols.length - place) ≤ k * symbols.length :=
      Nat.mul_le_mul_left k (Nat.sub_le _ _)
    unfold reach
    omega
  rw [run_flip _ _ (by rwa [length_flip]) hposition hwidth, run_flip _ _ hindex hbit hwidth,
    length_flip, BitVec.xor_assoc] at hequal
  have hcancel : (shift generator)^[reach w k symbols.length index bit] (top w) ^^^
      (shift generator)^[reach w k symbols.length other position] (top w) = 0#w := by
    rw [← BitVec.xor_right_inj (run generator register symbols), hequal, BitVec.xor_zero]
  have hcounts := (iterate_eq_iterate_iff_of_lt_minimalPeriod (hreach hbit)
    (hreach hposition)).mp (BitVec.xor_eq_zero_iff.mp hcancel)
  exact hdistinct (reach_injective hindex hother hbit hposition hwidth hcounts)

end ShiftRegister
