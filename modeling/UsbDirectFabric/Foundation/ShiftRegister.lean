import Mathlib.Data.BitVec
import Mathlib.Logic.Function.Iterate

/-!
# Reflected shift registers

A register of `w` bits that is shifted towards its low end, with a generator subtracted whenever a
one falls out. Shifting is linear, and injective if the generator has its highest bit set, so a
register that is fed the same symbols from two different states never joins them again. Feeding a
block of at most `w` bits amounts to adding the block to the register before all its shifts, so two
different blocks of that size leave different states behind.
-/

namespace ShiftRegister

variable {w : ℕ}

/-- Shift the register by one bit and subtract the generator if a one falls out. -/
def shift (generator register : BitVec w) : BitVec w :=
  if register.getLsbD 0 then (register >>> 1) ^^^ generator else register >>> 1

/-! ## Linearity -/

theorem shift_xor (generator first second : BitVec w) :
    shift generator (first ^^^ second) = shift generator first ^^^ shift generator second := by
  unfold shift
  rw [BitVec.getLsbD_xor, BitVec.ushiftRight_xor_distrib]
  cases hfirst : first.getLsbD 0 <;> cases hsecond : second.getLsbD 0 <;>
    simp only [Bool.xor_true, Bool.xor_false, Bool.not_true, Bool.not_false, if_true, if_false,
      Bool.false_eq_true]
  · rw [BitVec.xor_assoc]
  · rw [BitVec.xor_assoc, BitVec.xor_assoc, BitVec.xor_comm (second >>> 1)]
  · calc
      (first >>> 1) ^^^ (second >>> 1) =
          (first >>> 1) ^^^ (second >>> 1) ^^^ (generator ^^^ generator) := by simp
      _ = (first >>> 1) ^^^ generator ^^^ ((second >>> 1) ^^^ generator) := by ac_rfl

@[simp]
theorem shift_zero (generator : BitVec w) : shift generator 0#w = 0#w := by
  simp [shift]

theorem iterate_shift_xor (generator first second : BitVec w) (count : ℕ) :
    (shift generator)^[count] (first ^^^ second) =
      (shift generator)^[count] first ^^^ (shift generator)^[count] second := by
  induction count generalizing first second with
  | zero => rfl
  | succ count ih => simp only [Function.iterate_succ_apply, shift_xor, ih]

/-! ## Injectivity -/

/-- Only the zero register is shifted to zero: a generator with its highest bit set shows that it
was subtracted. -/
theorem shift_eq_zero {generator register : BitVec w} (hgenerator : generator.msb = true)
    (hzero : shift generator register = 0#w) : register = 0#w := by
  unfold shift at hzero
  split at hzero
  · exfalso
    have hmsb := congrArg BitVec.msb hzero
    simp [BitVec.msb_ushiftRight, hgenerator] at hmsb
  · rename_i hlow
    apply BitVec.eq_of_getLsbD_eq
    intro index _
    rcases index with _ | index
    · simpa using hlow
    · have hbit := congrArg (fun bits ↦ bits.getLsbD index) hzero
      simpa [Nat.add_comm 1 index] using hbit

theorem shift_injective {generator : BitVec w} (hgenerator : generator.msb = true) :
    Function.Injective (shift generator) := by
  intro first second hequal
  apply BitVec.xor_eq_zero_iff.mp
  apply shift_eq_zero hgenerator
  rw [shift_xor, hequal, BitVec.xor_self]

theorem iterate_shift_injective {generator : BitVec w} (hgenerator : generator.msb = true)
    (count : ℕ) : Function.Injective (shift generator)^[count] :=
  (shift_injective hgenerator).iterate count

/-! ## Shifting what has room above -/

theorem toNat_shiftLeft_of_room {register : BitVec w} {count : ℕ}
    (hroom : register.toNat * 2 ^ count < 2 ^ w) :
    (register <<< count).toNat = register.toNat * 2 ^ count := by
  rw [BitVec.toNat_shiftLeft, Nat.shiftLeft_eq, Nat.mod_eq_of_lt hroom]

theorem shiftLeft_ushiftRight_of_room {register : BitVec w} {count : ℕ}
    (hroom : register.toNat * 2 ^ count < 2 ^ w) : (register <<< count) >>> count = register := by
  apply BitVec.eq_of_toNat_eq
  rw [BitVec.toNat_ushiftRight, toNat_shiftLeft_of_room hroom, Nat.shiftRight_eq_div_pow,
    Nat.mul_div_cancel _ (Nat.two_pow_pos count)]

theorem shift_shiftLeft_one (generator : BitVec w) {register : BitVec w}
    (hroom : register.toNat * 2 ^ 1 < 2 ^ w) : shift generator (register <<< 1) = register := by
  have hlow : (register <<< 1).getLsbD 0 = false := by simp
  rw [shift, hlow, if_neg Bool.false_ne_true, shiftLeft_ushiftRight_of_room hroom]

/-- No one falls out while the clear low bits of a register are shifted out. -/
theorem iterate_shift_shiftLeft (generator : BitVec w) {register : BitVec w} {count : ℕ}
    (hroom : register.toNat * 2 ^ count < 2 ^ w) :
    (shift generator)^[count] (register <<< count) = register := by
  induction count with
  | zero => simp
  | succ count ih =>
      have hdouble : register.toNat * 2 ^ count * 2 ^ 1 < 2 ^ w := by
        rwa [mul_assoc, ← pow_add]
      have hbefore : register.toNat * 2 ^ count < 2 ^ w := by omega
      have hone : (register <<< count).toNat * 2 ^ 1 < 2 ^ w := by
        rwa [toNat_shiftLeft_of_room hbefore]
      rw [Function.iterate_succ_apply, BitVec.shiftLeft_add, shift_shiftLeft_one generator hone,
        ih hbefore]

/-! ## Feeding symbols -/

variable {k : ℕ}

/-- Add a symbol of `k` bits to the low end of the register and shift it out. -/
def feed (generator register : BitVec w) (symbol : BitVec k) : BitVec w :=
  (shift generator)^[k] (register ^^^ symbol.setWidth w)

def run (generator register : BitVec w) (symbols : List (BitVec k)) : BitVec w :=
  symbols.foldl (feed generator) register

theorem feed_injective {generator : BitVec w} (hgenerator : generator.msb = true)
    (symbol : BitVec k) : Function.Injective fun register ↦ feed generator register symbol := by
  intro first second hequal
  have hadded : first ^^^ symbol.setWidth w = second ^^^ symbol.setWidth w :=
    iterate_shift_injective hgenerator k hequal
  exact (BitVec.xor_left_inj _).mp hadded

/-- Registers that differ before a string of symbols differ after it. -/
theorem run_injective {generator : BitVec w} (hgenerator : generator.msb = true)
    (symbols : List (BitVec k)) :
    Function.Injective fun register ↦ run generator register symbols := by
  induction symbols with
  | nil => exact Function.injective_id
  | cons symbol symbols ih => exact ih.comp (feed_injective hgenerator symbol)

theorem run_append (generator register : BitVec w) (front rest : List (BitVec k)) :
    run generator register (front ++ rest) = run generator (run generator register front) rest :=
  List.foldl_append

/-! ## Blocks that fit the register -/

/-- The symbols of a block side by side, the first one lowest. -/
def block (w : ℕ) : List (BitVec k) → BitVec w
  | [] => 0#w
  | symbol :: symbols => symbol.setWidth w ^^^ (block w symbols <<< k)

/-- A register with `n` bits in use needs `n + k` of them when moved up by `k`. -/
theorem mul_two_pow_lt {register : BitVec w} {n : ℕ} (hregister : register.toNat < 2 ^ n) (k : ℕ) :
    register.toNat * 2 ^ k < 2 ^ (n + k) := by
  rw [pow_add]
  exact Nat.mul_lt_mul_of_pos_right hregister (Nat.two_pow_pos k)

theorem block_lt (symbols : List (BitVec k)) (hfits : k * symbols.length ≤ w) :
    (block w symbols).toNat < 2 ^ (k * symbols.length) := by
  induction symbols with
  | nil => simp [block]
  | cons symbol symbols ih =>
      rw [List.length_cons, Nat.mul_succ] at hfits ⊢
      have hshifted := mul_two_pow_lt (ih (by omega)) k
      have hroom : (block w symbols).toNat * 2 ^ k < 2 ^ w :=
        lt_of_lt_of_le hshifted (Nat.pow_le_pow_right (by decide) hfits)
      have hsymbol : (symbol.setWidth w).toNat < 2 ^ (k * symbols.length + k) := by
        calc
          (symbol.setWidth w).toNat ≤ symbol.toNat := by
            rw [BitVec.toNat_setWidth]
            exact Nat.mod_le _ _
          _ < 2 ^ k := symbol.isLt
          _ ≤ 2 ^ (k * symbols.length + k) := Nat.pow_le_pow_right (by decide) (by omega)
      rw [block, BitVec.toNat_xor, toNat_shiftLeft_of_room hroom]
      exact Nat.xor_lt_two_pow hsymbol hshifted

/-- The symbols after the first have room to be moved above it. -/
theorem block_room {symbol : BitVec k} {symbols : List (BitVec k)}
    (hfits : k * (symbol :: symbols).length ≤ w) : (block w symbols).toNat * 2 ^ k < 2 ^ w := by
  rw [List.length_cons, Nat.mul_succ] at hfits
  calc
    (block w symbols).toNat * 2 ^ k < 2 ^ (k * symbols.length + k) :=
      mul_two_pow_lt (block_lt symbols (by omega)) k
    _ ≤ 2 ^ w := Nat.pow_le_pow_right (by decide) hfits

theorem setWidth_block_cons (symbol : BitVec k) (symbols : List (BitVec k)) (hwidth : k ≤ w) :
    (block w (symbol :: symbols)).setWidth k = symbol := by
  apply BitVec.eq_of_getLsbD_eq
  intro index hindex
  simp [block, hindex, lt_of_lt_of_le hindex hwidth]

theorem ushiftRight_block_cons {symbol : BitVec k} {symbols : List (BitVec k)}
    (hfits : k * (symbol :: symbols).length ≤ w) :
    block w (symbol :: symbols) >>> k = block w symbols := by
  have hsymbol : symbol.setWidth w >>> k = 0#w := by
    apply BitVec.eq_of_getLsbD_eq
    intro index _
    simp
  rw [block, BitVec.ushiftRight_xor_distrib, hsymbol, BitVec.zero_xor,
    shiftLeft_ushiftRight_of_room (block_room hfits)]

/-- Blocks of one length that fit the register are determined by their bits. -/
theorem block_injective {first second : List (BitVec k)} (hlength : first.length = second.length)
    (hfits : k * first.length ≤ w) (hequal : block w first = block w second) : first = second := by
  induction first generalizing second with
  | nil => exact (List.length_eq_zero_iff.mp hlength.symm).symm
  | cons symbol first ih =>
      rcases second with _ | ⟨other, second⟩
      · cases hlength
      have hlength : first.length = second.length := Nat.succ.inj hlength
      have hfitsOther : k * (other :: second).length ≤ w := by
        simpa only [List.length_cons, hlength] using hfits
      have hwidth : k ≤ w := le_trans (Nat.le_mul_of_pos_right k (by simp)) hfits
      have hsymbol : symbol = other := by
        rw [← setWidth_block_cons symbol first hwidth, hequal,
          setWidth_block_cons other second hwidth]
      have hrest : block w first = block w second := by
        rw [← ushiftRight_block_cons hfits, hequal, ushiftRight_block_cons hfitsOther]
      rw [List.length_cons, Nat.mul_succ] at hfits
      rw [hsymbol, ih hlength (by omega) hrest]

/-- Feeding a block that fits the register is adding it at once and shifting it out. -/
theorem run_eq_iterate (generator register : BitVec w) {symbols : List (BitVec k)}
    (hfits : k * symbols.length ≤ w) :
    run generator register symbols =
      (shift generator)^[k * symbols.length] (register ^^^ block w symbols) := by
  induction symbols generalizing register with
  | nil => simp [run, block]
  | cons symbol symbols ih =>
      have hroom := block_room hfits
      rw [List.length_cons, Nat.mul_succ] at hfits ⊢
      have hblock := iterate_shift_shiftLeft generator hroom
      calc
        run generator register (symbol :: symbols) =
            run generator (feed generator register symbol) symbols := rfl
        _ = (shift generator)^[k * symbols.length]
            (feed generator register symbol ^^^ block w symbols) := ih _ (by omega)
        _ = (shift generator)^[k * symbols.length] ((shift generator)^[k]
            (register ^^^ symbol.setWidth w ^^^ (block w symbols <<< k))) := by
          rw [iterate_shift_xor generator _ (block w symbols <<< k) k, hblock, feed]
        _ = (shift generator)^[k * symbols.length + k]
            (register ^^^ block w (symbol :: symbols)) := by
          rw [Function.iterate_add_apply, BitVec.xor_assoc, block]

/-- **Bursts are seen.** Strings that differ only in a block which fits the register leave different
states behind, whatever stands before and after the block. -/
theorem run_burst {generator : BitVec w} (hgenerator : generator.msb = true) (register : BitVec w)
    (front : List (BitVec k)) {first second : List (BitVec k)} (rest : List (BitVec k))
    (hlength : first.length = second.length) (hfits : k * first.length ≤ w)
    (hequal : run generator register (front ++ (first ++ rest)) =
      run generator register (front ++ (second ++ rest))) : first = second := by
  simp only [run_append] at hequal
  have hblocks : run generator (run generator register front) first =
      run generator (run generator register front) second := run_injective hgenerator rest hequal
  have hfitsSecond : k * second.length ≤ w := hlength ▸ hfits
  rw [run_eq_iterate _ _ hfits, run_eq_iterate _ _ hfitsSecond, ← hlength] at hblocks
  have hadded := iterate_shift_injective hgenerator _ hblocks
  exact block_injective hlength hfits ((BitVec.xor_right_inj _).mp hadded)

end ShiftRegister
