import Mathlib.Data.List.Infix

/-!
# UTF-8 with replacement

Encoding is Lean's own. Decoding never fails: the longest beginning of a character that turns out
not to be one is read as U+FFFD, which is what decoders with a replacing error handler do. Bytes
that were cut off in the middle of a character therefore decode to the characters before the cut and
one replacement.
-/

namespace Utf8

def replacement : Char := Char.ofNat 0xFFFD

def encode (text : List Char) : List UInt8 :=
  text.flatMap String.utf8EncodeChar

/-! ## Decoding -/

/-- A character whose first bytes have been read: how many bytes are due after the next one, the
range of the next one, and the bits so far. -/
structure Pending where
  due : ℕ
  low : ℕ
  high : ℕ
  bits : ℕ
deriving DecidableEq, Repr

/-- The first byte of a character. The range of the second one excludes overlong forms, surrogates
and what lies above U+10FFFF. -/
def start (byte : UInt8) : List Char × Option Pending :=
  let n := byte.toNat
  if n < 0x80 then ([Char.ofNat n], none)
  else if n < 0xC2 then ([replacement], none)
  else if n < 0xE0 then ([], some ⟨0, 0x80, 0xBF, n - 0xC0⟩)
  else if n < 0xF0 then
    ([], some ⟨1, if n = 0xE0 then 0xA0 else 0x80, if n = 0xED then 0x9F else 0xBF, n - 0xE0⟩)
  else if n < 0xF5 then
    ([], some ⟨2, if n = 0xF0 then 0x90 else 0x80, if n = 0xF4 then 0x8F else 0xBF, n - 0xF0⟩)
  else ([replacement], none)

/-- One byte: the characters that it completes and what is pending after it. A byte out of range
ends the pending character as a replacement and begins anew. -/
def next : Option Pending → UInt8 → List Char × Option Pending
  | none, byte => start byte
  | some pending, byte =>
      let n := byte.toNat
      if pending.low ≤ n ∧ n ≤ pending.high then
        let bits := pending.bits * 64 + (n - 0x80)
        match pending.due with
        | 0 => ([Char.ofNat bits], none)
        | due + 1 => ([], some ⟨due, 0x80, 0xBF, bits⟩)
      else (replacement :: (start byte).1, (start byte).2)

def run : Option Pending → List UInt8 → List Char × Option Pending
  | pending, [] => ([], pending)
  | pending, byte :: rest =>
      let (now, after) := next pending byte
      let (later, left) := run after rest
      (now ++ later, left)

/-- All characters; one that is incomplete at the end is replaced. -/
def decode (data : List UInt8) : List Char :=
  match run none data with
  | (text, none) => text
  | (text, some _) => text ++ [replacement]

theorem run_append (pending : Option Pending) (front back : List UInt8) :
    run pending (front ++ back) =
      ((run pending front).1 ++ (run (run pending front).2 back).1,
        (run (run pending front).2 back).2) := by
  induction front generalizing pending with
  | nil => simp [run]
  | cons byte front ih => simp [run, ih, List.append_assoc]

/-! ## Characters -/

/-- The bytes complete the character `char`, and none but the last one completes anything. -/
inductive Spells (char : Char) : Option Pending → List UInt8 → Prop
  | last {pending : Option Pending} {byte : UInt8}
      (completes : next pending byte = ([char], none)) : Spells char pending [byte]
  | more {pending : Option Pending} {after : Pending} {byte : UInt8} {rest : List UInt8}
      (continues : next pending byte = ([], some after)) (spells : Spells char (some after) rest) :
      Spells char pending (byte :: rest)

theorem Spells.run_eq {char : Char} {pending : Option Pending} {data : List UInt8}
    (hspells : Spells char pending data) : run pending data = ([char], none) := by
  induction hspells with
  | last hcompletes => simp [run, hcompletes]
  | more hcontinues _ ih => simp [run, hcontinues, ih]

/-- Cut short, the bytes complete nothing and leave something pending. -/
theorem Spells.run_take {char : Char} {pending : Option Pending} {data : List UInt8}
    (hspells : Spells char pending data) {count : ℕ} (hpositive : 0 < count)
    (hcount : count < data.length) : ∃ left, run pending (data.take count) = ([], some left) := by
  induction hspells generalizing count with
  | last => exact absurd hcount (by simp; omega)
  | @more pending after byte rest hcontinues _ ih =>
      obtain ⟨count, rfl⟩ := Nat.exists_eq_succ_of_ne_zero (Nat.ne_of_gt hpositive)
      rw [List.take_succ_cons]
      by_cases hlast : count = 0
      · exact ⟨after, by simp [hlast, run, hcontinues]⟩
      · obtain ⟨left, hleft⟩ := ih (Nat.pos_of_ne_zero hlast) (by simpa using hcount)
        exact ⟨left, by simp [run, hcontinues, hleft]⟩

theorem toNat_ofNat_of_lt {n : ℕ} (hbyte : n < 256) : (UInt8.ofNat n).toNat = n :=
  UInt8.toNat_ofNat_of_lt hbyte

theorem start_of_lt {n : ℕ} (hn : n < 0x80) : start (.ofNat n) = ([Char.ofNat n], none) := by
  have hread : (UInt8.ofNat n).toNat = n := toNat_ofNat_of_lt (by omega)
  simp only [start, hread]
  rw [if_pos hn]

/-- The first of two bytes. -/
theorem start_two {n : ℕ} (hlow : 0xC2 ≤ n) (hhigh : n < 0xE0) :
    start (.ofNat n) = ([], some ⟨0, 0x80, 0xBF, n - 0xC0⟩) := by
  have hread : (UInt8.ofNat n).toNat = n := toNat_ofNat_of_lt (by omega)
  simp only [start, hread]
  rw [if_neg (by omega), if_neg (by omega), if_pos hhigh]

/-- The first of three bytes. -/
theorem start_three {n : ℕ} (hlow : 0xE0 ≤ n) (hhigh : n < 0xF0) :
    start (.ofNat n) =
      ([], some
        ⟨1, if n = 0xE0 then 0xA0 else 0x80, if n = 0xED then 0x9F else 0xBF, n - 0xE0⟩) := by
  have hread : (UInt8.ofNat n).toNat = n := toNat_ofNat_of_lt (by omega)
  simp only [start, hread]
  rw [if_neg (by omega), if_neg (by omega), if_neg (by omega), if_pos hhigh]

/-- The first of four bytes. -/
theorem start_four {n : ℕ} (hlow : 0xF0 ≤ n) (hhigh : n < 0xF5) :
    start (.ofNat n) =
      ([], some
        ⟨2, if n = 0xF0 then 0x90 else 0x80, if n = 0xF4 then 0x8F else 0xBF, n - 0xF0⟩) := by
  have hread : (UInt8.ofNat n).toNat = n := toNat_ofNat_of_lt (by omega)
  simp only [start, hread]
  rw [if_neg (by omega), if_neg (by omega), if_neg (by omega), if_neg (by omega), if_pos hhigh]

/-- The last byte of a character. -/
theorem next_last {low high bits n : ℕ} (hlow : low ≤ n) (hhigh : n ≤ high) (hbyte : n < 256) :
    next (some ⟨0, low, high, bits⟩) (.ofNat n) =
      ([Char.ofNat (bits * 64 + (n - 0x80))], none) := by
  have hread : (UInt8.ofNat n).toNat = n := toNat_ofNat_of_lt hbyte
  simp only [next, hread]
  rw [if_pos ⟨hlow, hhigh⟩]

/-- A byte between the first and the last one. -/
theorem next_inner {due low high bits n : ℕ} (hlow : low ≤ n) (hhigh : n ≤ high) (hbyte : n < 256) :
    next (some ⟨due + 1, low, high, bits⟩) (.ofNat n) =
      ([], some ⟨due, 0x80, 0xBF, bits * 64 + (n - 0x80)⟩) := by
  have hread : (UInt8.ofNat n).toNat = n := toNat_ofNat_of_lt hbyte
  simp only [next, hread]
  rw [if_pos ⟨hlow, hhigh⟩]

theorem spells_two {v : ℕ} (hlow : 0x80 ≤ v) (hhigh : v < 0x800) :
    Spells (Char.ofNat v) none [.ofNat (v / 64 % 32 + 192), .ofNat (v % 64 + 128)] := by
  have hbits : (v / 64 % 32 + 192 - 0xC0) * 64 + (v % 64 + 128 - 0x80) = v := by omega
  refine .more (start_two (by omega) (by omega)) (.last ?_)
  rw [next_last (by omega) (by omega) (by omega), hbits]

theorem spells_three {v : ℕ} (hlow : 0x800 ≤ v) (hhigh : v < 0x10000)
    (hscalar : v < 0xD800 ∨ 0xDFFF < v) :
    Spells (Char.ofNat v) none
      [.ofNat (v / 4096 % 16 + 224), .ofNat (v / 64 % 64 + 128), .ofNat (v % 64 + 128)] := by
  have hbits : ((v / 4096 % 16 + 224 - 0xE0) * 64 + (v / 64 % 64 + 128 - 0x80)) * 64 +
      (v % 64 + 128 - 0x80) = v := by omega
  refine .more (start_three (by omega) (by omega)) (.more (next_inner ?_ ?_ (by omega)) (.last ?_))
  · split <;> omega
  · split <;> omega
  · rw [next_last (by omega) (by omega) (by omega), hbits]

theorem spells_four {v : ℕ} (hlow : 0x10000 ≤ v) (hhigh : v < 0x110000) :
    Spells (Char.ofNat v) none
      [.ofNat (v / 262144 % 8 + 240), .ofNat (v / 4096 % 64 + 128), .ofNat (v / 64 % 64 + 128),
        .ofNat (v % 64 + 128)] := by
  have hbits : (((v / 262144 % 8 + 240 - 0xF0) * 64 + (v / 4096 % 64 + 128 - 0x80)) * 64 +
      (v / 64 % 64 + 128 - 0x80)) * 64 + (v % 64 + 128 - 0x80) = v := by omega
  refine .more (start_four (by omega) (by omega)) (.more (next_inner ?_ ?_ (by omega))
    (.more (next_inner (by omega) (by omega) (by omega)) (.last ?_)))
  · split <;> omega
  · split <;> omega
  · rw [next_last (by omega) (by omega) (by omega), hbits]

/-- The encoding of a character spells it. -/
theorem spells_encodeChar (char : Char) : Spells char none (String.utf8EncodeChar char) := by
  have hvalid : char.toNat < 0xD800 ∨ 0xDFFF < char.toNat ∧ char.toNat < 0x110000 := char.valid
  have hchar : Char.ofNat char.toNat = char := Char.ofNat_toNat char
  have hvalue : char.val.toNat = char.toNat := rfl
  unfold String.utf8EncodeChar
  simp only [hvalue]
  split
  · rename_i hone
    refine .last ?_
    rw [next, start_of_lt (by omega), hchar]
  split
  · have htwo := spells_two (v := char.toNat) (by omega) (by omega)
    rwa [hchar] at htwo
  split
  · have hthree := spells_three (v := char.toNat) (by omega) (by omega) (by omega)
    rwa [hchar] at hthree
  · have hfour := spells_four (v := char.toNat) (by omega) (by omega)
    rwa [hchar] at hfour

/-! ## Texts -/

theorem encode_cons (char : Char) (text : List Char) :
    encode (char :: text) = String.utf8EncodeChar char ++ encode text :=
  List.flatMap_cons

/-- A whole character in front is decoded by itself. -/
theorem decode_encodeChar_append (char : Char) (data : List UInt8) :
    decode (String.utf8EncodeChar char ++ data) = char :: decode data := by
  have hrun : run none (String.utf8EncodeChar char ++ data) =
      (char :: (run none data).1, (run none data).2) := by
    rw [run_append, (spells_encodeChar char).run_eq]
    rfl
  unfold decode
  rw [hrun]
  rcases run none data with ⟨text, _ | pending⟩ <;> rfl

/-- The beginning of a character alone is one replacement. -/
theorem decode_take_encodeChar {char : Char} {count : ℕ} (hpositive : 0 < count)
    (hcount : count < (String.utf8EncodeChar char).length) :
    decode ((String.utf8EncodeChar char).take count) = [replacement] := by
  obtain ⟨left, hrun⟩ := (spells_encodeChar char).run_take hpositive hcount
  unfold decode
  rw [hrun]
  rfl

/-- The bytes of a character other than U+0000 are positive. -/
theorem exists_of_mem_encodeChar {char : Char} (hnul : char ≠ Char.ofNat 0) {byte : UInt8}
    (hbyte : byte ∈ String.utf8EncodeChar char) : ∃ n, 0 < n ∧ n < 256 ∧ byte = .ofNat n := by
  have hpositive : 0 < char.val.toNat := by
    apply Nat.pos_of_ne_zero
    intro hzero
    rw [← Char.ofNat_toNat char] at hnul
    exact hnul (congrArg Char.ofNat hzero)
  revert byte
  unfold String.utf8EncodeChar
  simp only
  repeat' split
  all_goals
    simp only [List.forall_mem_cons, List.not_mem_nil, false_imp_iff, implies_true, and_true]
  · exact ⟨_, hpositive, by omega, rfl⟩
  · exact ⟨⟨_, by omega, by omega, rfl⟩, _, by omega, by omega, rfl⟩
  · exact ⟨⟨_, by omega, by omega, rfl⟩, ⟨_, by omega, by omega, rfl⟩, _, by omega, by omega, rfl⟩
  · exact ⟨⟨_, by omega, by omega, rfl⟩, ⟨_, by omega, by omega, rfl⟩, ⟨_, by omega, by omega, rfl⟩,
      _, by omega, by omega, rfl⟩

theorem zero_notMem_encode {text : List Char} (hnul : Char.ofNat 0 ∉ text) : 0 ∉ encode text := by
  intro hzero
  obtain ⟨char, hchar, hbyte⟩ := List.mem_flatMap.mp hzero
  obtain ⟨n, hpositive, hn, hread⟩ :=
    exists_of_mem_encodeChar (fun hequal ↦ hnul (hequal ▸ hchar)) hbyte
  have hvalue := toNat_ofNat_of_lt hn
  rw [← hread] at hvalue
  exact Nat.ne_of_lt hpositive hvalue

/-! ## Cutting a text to a number of bytes -/

def fitting : ℕ → List Char → List Char
  | _, [] => []
  | room, char :: text =>
      if (String.utf8EncodeChar char).length ≤ room then
        char :: fitting (room - (String.utf8EncodeChar char).length) text
      else []

/-- `kept` is the longest prefix of the text whose encoding has at most `room` bytes. -/
structure LongestFitting (room : ℕ) (text kept : List Char) : Prop where
  isPrefix : kept <+: text
  fits : (encode kept).length ≤ room
  longest : ∀ other, other <+: text → (encode other).length ≤ room → other.length ≤ kept.length

/-- No character of the text lies across the boundary: all of it fits, or some prefix of it ends
there. -/
def CutsCleanly (room : ℕ) (text : List Char) : Prop :=
  (encode text).length ≤ room ∨ ∃ front, front <+: text ∧ (encode front).length = room

theorem isPrefix_fitting (room : ℕ) (text : List Char) : fitting room text <+: text := by
  induction text generalizing room with
  | nil => exact List.prefix_rfl
  | cons char text ih =>
      unfold fitting
      split
      · exact List.cons_prefix_cons.mpr ⟨rfl, ih _⟩
      · exact List.nil_prefix

theorem length_encode_fitting_le (room : ℕ) (text : List Char) :
    (encode (fitting room text)).length ≤ room := by
  induction text generalizing room with
  | nil => exact Nat.zero_le _
  | cons char text ih =>
      unfold fitting
      split
      · have hrest := ih (room - (String.utf8EncodeChar char).length)
        rw [encode_cons, List.length_append]
        omega
      · exact Nat.zero_le _

/-- Every prefix that fits is among the characters that fit. -/
theorem isPrefix_fitting_of_le {room : ℕ} {text front : List Char} (hfront : front <+: text)
    (hfits : (encode front).length ≤ room) : front <+: fitting room text := by
  induction text generalizing room front with
  | nil => exact hfront
  | cons char text ih =>
      cases front with
      | nil => exact List.nil_prefix
      | cons first front =>
          obtain ⟨rfl, hrest⟩ := List.cons_prefix_cons.mp hfront
          rw [encode_cons, List.length_append] at hfits
          rw [fitting, if_pos (by omega)]
          exact List.cons_prefix_cons.mpr ⟨rfl, ih hrest (by omega)⟩

theorem longestFitting_iff {room : ℕ} {text kept : List Char} :
    LongestFitting room text kept ↔ kept = fitting room text := by
  constructor
  · intro hlongest
    have hbound :=
      hlongest.longest _ (isPrefix_fitting room text) (length_encode_fitting_le room text)
    exact (isPrefix_fitting_of_le hlongest.isPrefix hlongest.fits).eq_of_length_le hbound
  · rintro rfl
    exact ⟨isPrefix_fitting room text, length_encode_fitting_le room text,
      fun other hother hfits ↦ (isPrefix_fitting_of_le hother hfits).length_le⟩

/-- A first character that fits moves the boundary. -/
theorem cutsCleanly_cons_of_le {room : ℕ} {char : Char} {text : List Char}
    (hfits : (String.utf8EncodeChar char).length ≤ room) :
    CutsCleanly room (char :: text) ↔
      CutsCleanly (room - (String.utf8EncodeChar char).length) text := by
  have hchar := List.length_pos_iff.mpr (String.utf8EncodeChar_ne_nil (c := char))
  unfold CutsCleanly
  rw [encode_cons, List.length_append]
  refine or_congr (by omega) ?_
  constructor
  · rintro ⟨front, hfront, hlength⟩
    cases front with
    | nil => exact absurd hlength (by simp [encode]; omega)
    | cons first front =>
        obtain ⟨rfl, hrest⟩ := List.cons_prefix_cons.mp hfront
        rw [encode_cons, List.length_append] at hlength
        exact ⟨front, hrest, by omega⟩
  · rintro ⟨front, hfront, hlength⟩
    refine ⟨char :: front, List.cons_prefix_cons.mpr ⟨rfl, hfront⟩, ?_⟩
    rw [encode_cons, List.length_append]
    omega

/-- A first character that does not fit lies across the boundary, unless that is at zero. -/
theorem cutsCleanly_cons_of_lt {room : ℕ} {char : Char} {text : List Char}
    (hlarge : room < (String.utf8EncodeChar char).length) :
    CutsCleanly room (char :: text) ↔ room = 0 := by
  constructor
  · rintro (hall | ⟨front, hfront, hlength⟩)
    · rw [encode_cons, List.length_append] at hall
      omega
    · cases front with
      | nil => exact hlength.symm
      | cons first front =>
          obtain ⟨rfl, -⟩ := List.cons_prefix_cons.mp hfront
          rw [encode_cons, List.length_append] at hlength
          omega
  · rintro rfl
    exact .inr ⟨[], List.nil_prefix, rfl⟩

/-- Cut to a number of bytes, a text decodes to the characters that fit, and to a replacement after
them if a character lies across the cut. -/
theorem decode_take_encode (room : ℕ) (text : List Char) :
    (CutsCleanly room text ∧ decode ((encode text).take room) = fitting room text) ∨
      (¬CutsCleanly room text ∧
        decode ((encode text).take room) = fitting room text ++ [replacement]) := by
  induction text generalizing room with
  | nil => exact .inl ⟨.inl (Nat.zero_le room), by simp [encode, fitting, decode, run]⟩
  | cons char text ih =>
      by_cases hfits : (String.utf8EncodeChar char).length ≤ room
      · have hcut : (encode (char :: text)).take room = String.utf8EncodeChar char ++
            (encode text).take (room - (String.utf8EncodeChar char).length) := by
          rw [encode_cons, List.take_append, List.take_of_length_le hfits]
        rw [cutsCleanly_cons_of_le hfits, hcut, decode_encodeChar_append, fitting, if_pos hfits]
        simpa using ih (room - (String.utf8EncodeChar char).length)
      · have hlarge := Nat.lt_of_not_le hfits
        rw [cutsCleanly_cons_of_lt hlarge, encode_cons,
          List.take_append_of_le_length (Nat.le_of_lt hlarge), fitting, if_neg hfits]
        by_cases hzero : room = 0
        · exact .inl ⟨hzero, by simp [hzero, decode, run]⟩
        · exact .inr ⟨hzero, decode_take_encodeChar (Nat.pos_of_ne_zero hzero) hlarge⟩

end Utf8
