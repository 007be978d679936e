import Mathlib.Data.List.Flatten
import Mathlib.Data.Nat.Basic

/-!
# Message boundaries on a packet pipe

A pipe carries packets of a fixed maximal size. A write is cut into full packets and a shorter last
one; nothing marks its end if its length is a multiple of the packet size. A read collects packets
until one is short or its buffer is full. The boundary of a write is kept exactly by its short
packet, so writes whose lengths are no multiples of the packet size are read back one by one.
-/

namespace BulkPipe

variable {α : Type*}

/-- The packets of one write; the last one is shorter if the length is no multiple of `size`. -/
def packets (size : ℕ) (data : List α) : List (List α) :=
  (List.range ((data.length + size - 1) / size)).map fun index ↦
    (data.drop (index * size)).take size

/-- One read with a buffer of `room` elements: what it returns and what stays in the pipe. It blocks
when the pipe runs empty before a short packet came. -/
def read (size : ℕ) : List (List α) → ℕ → Option (List α × List (List α))
  | pipe, 0 => some ([], pipe)
  | [], _ + 1 => none
  | packet :: pipe, room + 1 =>
      if room + 1 < packet.length then
        some (packet.take (room + 1), packet.drop (room + 1) :: pipe)
      else if packet.length < size then some (packet, pipe)
      else (read size pipe (room + 1 - packet.length)).map fun (data, left) ↦ (packet ++ data, left)

def reads (size room : ℕ) : ℕ → List (List α) → Option (List (List α) × List (List α))
  | 0, pipe => some ([], pipe)
  | count + 1, pipe => do
      let (data, rest) ← read size pipe room
      let (more, left) ← reads size room count rest
      return (data :: more, left)

variable {size room : ℕ} {data : List α}

/-- A write shorter than a packet travels in one packet. -/
theorem packets_of_lt (hdata : data ≠ []) (hlength : data.length < size) :
    packets size data = [data] := by
  have hpositive := List.length_pos_iff.mpr hdata
  have hcount : (data.length + size - 1) / size = 1 := by
    rw [Nat.div_eq_iff (by omega)]
    omega
  simp [packets, hcount, List.take_of_length_le (Nat.le_of_lt hlength)]

/-- A write of at least a packet begins with a full one. -/
theorem packets_of_le (hsize : 0 < size) (hlength : size ≤ data.length) :
    packets size data = data.take size :: packets size (data.drop size) := by
  have hcount :
      (data.length + size - 1) / size = ((data.drop size).length + size - 1) / size + 1 := by
    rw [List.length_drop, ← Nat.add_div_right _ hsize]
    congr 1
    omega
  have hshift (index : ℕ) : (data.drop ((index + 1) * size)).take size =
      ((data.drop size).drop (index * size)).take size := by
    rw [List.drop_drop, Nat.succ_mul, Nat.add_comm]
  unfold packets
  rw [hcount, List.range_succ_eq_map, List.map_cons, List.map_map]
  simp only [Nat.zero_mul, List.drop_zero, Function.comp_def, Nat.succ_eq_add_one, hshift]

/-- A short packet ends the read. -/
theorem read_of_lt {packet : List α} (pipe : List (List α)) (hroom : 0 < room)
    (hfits : packet.length ≤ room) (hshort : packet.length < size) :
    read size (packet :: pipe) room = some (packet, pipe) := by
  obtain ⟨room, rfl⟩ := Nat.exists_eq_succ_of_ne_zero (Nat.ne_of_gt hroom)
  rw [read, if_neg (Nat.not_lt.mpr hfits), if_pos hshort]

/-- After a full packet the read goes on. -/
theorem read_of_le {packet : List α} (pipe : List (List α)) (hroom : 0 < room)
    (hfits : packet.length ≤ room) (hfull : size ≤ packet.length) :
    read size (packet :: pipe) room =
      (read size pipe (room - packet.length)).map fun (data, left) ↦ (packet ++ data, left) := by
  obtain ⟨room, rfl⟩ := Nat.exists_eq_succ_of_ne_zero (Nat.ne_of_gt hroom)
  rw [read, if_neg (Nat.not_lt.mpr hfits), if_neg (Nat.not_lt.mpr hfull)]

/-- One read returns one write whose length is no multiple of the packet size. -/
theorem read_packets (hsize : 0 < size) (pipe : List (List α)) (hshort : ¬ size ∣ data.length)
    (hfits : data.length ≤ room) :
    read size (packets size data ++ pipe) room = some (data, pipe) := by
  induction hlength : data.length using Nat.strongRecOn generalizing data room with
  | _ length ih =>
      have hpositive : 0 < data.length := by
        apply Nat.pos_of_ne_zero
        intro hzero
        exact hshort (hzero ▸ Nat.dvd_zero size)
      have hroom : 0 < room := lt_of_lt_of_le hpositive hfits
      by_cases hlast : data.length < size
      · rw [packets_of_lt (List.ne_nil_of_length_pos hpositive) hlast]
        exact read_of_lt pipe hroom hfits hlast
      · have hfull := Nat.le_of_not_lt hlast
        have htake : (data.take size).length = size := List.length_take_of_le hfull
        have hdrop : (data.drop size).length = data.length - size := List.length_drop
        have hrest : ¬ size ∣ (data.drop size).length := by
          rw [hdrop]
          exact fun hdvd ↦ hshort ((Nat.dvd_sub_iff_left hfull (Nat.dvd_refl size)).mp hdvd)
        rw [packets_of_le hsize hfull, List.cons_append,
          read_of_le _ hroom (by omega) (le_of_eq htake.symm), htake,
          ih (data.drop size).length (by omega) hrest (by omega) rfl]
        simp

/-- Successive reads return successive writes, one each, whatever is written after them. -/
theorem reads_packets (hsize : 0 < size) {writes : List (List α)} (pipe : List (List α))
    (hshort : ∀ data ∈ writes, ¬ size ∣ data.length) (hfits : ∀ data ∈ writes, data.length ≤ room) :
    reads size room writes.length (writes.flatMap (packets size) ++ pipe) =
      some (writes, pipe) := by
  induction writes with
  | nil => rfl
  | cons data writes ih =>
      have hread := read_packets hsize (writes.flatMap (packets size) ++ pipe)
        (hshort data List.mem_cons_self) (hfits data List.mem_cons_self)
      have hrest := ih (fun later hlater ↦ hshort later (List.mem_cons_of_mem data hlater))
        (fun later hlater ↦ hfits later (List.mem_cons_of_mem data hlater))
      rw [List.flatMap_cons, List.append_assoc, List.length_cons]
      simp only [reads, hread, hrest, Option.bind_eq_bind, Option.bind_some]
      rfl

example : reads 4 100 2 ([[1, 2, 3, 4, 5], [6]].flatMap (packets 4)) =
    some ([[1, 2, 3, 4, 5], [6]], []) := by
  decide

end BulkPipe
