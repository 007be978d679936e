import UsbDirectFabric.Foundation.Walk
import UsbDirectFabric.Routing.Table

/-!
# Shortest paths around a complete ring

A ring of `n` nodes is an injective assignment of ids to the positions `ZMod n`. A table whose ring
list is any rotation of that order routes every other member in the direction of the shorter
distance, whatever its routes held before. Following the tables hop by hop therefore shortens one
fixed distance by one each time, which gives loop-free shortest paths.
-/

namespace UsbDirectFabric.Routing

open Wire Walk

/-- The list of ids of a ring, from position zero clockwise. -/
def ringOrder {n : ℕ} (ids : ZMod n → ℤ) : List ℤ :=
  (List.range n).map fun index : ℕ ↦ ids (index : ZMod n)

section Order

variable {n : ℕ} {ids : ZMod n → ℤ}

@[simp]
theorem length_ringOrder : (ringOrder ids).length = n := by
  simp [ringOrder]

/-- Rotating the list moves every id by the same offset. -/
theorem getElem?_rotate_ringOrder (offset index : ℕ) (hindex : index < n) :
    ((ringOrder ids).rotate offset)[index]? = some (ids (index + offset)) := by
  have hlength : index < (ringOrder ids).length := by rwa [length_ringOrder]
  rw [List.getElem?_rotate hlength, length_ringOrder]
  simp [ringOrder, Nat.mod_lt _ (Nat.zero_lt_of_lt hindex)]

theorem nodup_rotate_ringOrder (hids : Function.Injective ids) (offset : ℕ) :
    ((ringOrder ids).rotate offset).Nodup := by
  rw [List.nodup_rotate]
  apply List.Nodup.map_on _ List.nodup_range
  intro i hi j hj hequal
  have hcast := hids hequal
  rwa [ZMod.natCast_eq_natCast_iff', Nat.mod_eq_of_lt (List.mem_range.mp hi),
    Nat.mod_eq_of_lt (List.mem_range.mp hj)] at hcast

variable [NeZero n]

theorem mem_rotate_ringOrder (offset : ℕ) (position : ZMod n) :
    ids position ∈ (ringOrder ids).rotate offset := by
  rw [List.mem_rotate]
  refine List.mem_map.mpr ⟨position.val, List.mem_range.mpr position.val_lt, ?_⟩
  rw [ZMod.natCast_zmod_val]

/-- On a rotation by `offset` the id of a position stands at its distance from the offset. -/
theorem idxOf_rotate_ringOrder (hids : Function.Injective ids) (offset : ℕ) (position : ZMod n) :
    ((ringOrder ids).rotate offset).idxOf (ids position) = (position - (offset : ZMod n)).val := by
  have hlt : (position - (offset : ZMod n)).val < n := ZMod.val_lt _
  have hentry : ((ringOrder ids).rotate offset)[(position - (offset : ZMod n)).val]? = _ :=
    getElem?_rotate_ringOrder offset _ hlt
  rw [ZMod.natCast_zmod_val, sub_add_cancel, List.getElem?_eq_some_iff] at hentry
  rcases hentry with ⟨hbound, hentry⟩
  rw [← hentry]
  exact (nodup_rotate_ringOrder hids offset).idxOf_getElem _ _

/-- Without repeated ids the last occurrence is the only one. -/
theorem lastIdx_of_nodup {ring : List ℤ} (hnodup : ring.Nodup) {id : ℤ} (hmem : id ∈ ring) :
    RoutingTable.lastIdx ring id = ring.idxOf id := by
  have hindex := List.idxOf_lt_length_of_mem hmem
  have hreverse : ring.reverse.idxOf id = ring.length - 1 - ring.idxOf id := by
    have hlt : ring.length - 1 - ring.idxOf id < ring.reverse.length := by
      rw [List.length_reverse]
      omega
    have hentry : ring.reverse[ring.length - 1 - ring.idxOf id] = id := by
      rw [List.getElem_reverse]
      have hback : ring.length - 1 - (ring.length - 1 - ring.idxOf id) = ring.idxOf id := by omega
      simp only [hback, List.getElem_idxOf]
    have hsame := (List.nodup_reverse.mpr hnodup).idxOf_getElem _ hlt
    rwa [hentry] at hsame
  unfold RoutingTable.lastIdx
  rw [hreverse]
  omega

/-- The direction of a ring member depends only on the two distances, not on the rotation. -/
theorem ringSide_rotate_ringOrder (hids : Function.Injective ids) (offset : ℕ)
    (here there : ZMod n) :
    RoutingTable.ringSide (ids here) ((ringOrder ids).rotate offset) (ids there) =
      if (there - here).val ≤ (here - there).val then .host else .gadget := by
  have hmem : ids there ∈ (ringOrder ids).rotate offset := mem_rotate_ringOrder offset there
  have hdist (a b : ZMod n) :
      (((a - (offset : ZMod n)).val : ℤ) - (b - (offset : ZMod n)).val) % n =
        ((a - b).val : ℤ) := by
    rw [Cycle.val_sub_emod, sub_sub_sub_cancel_right]
  unfold RoutingTable.ringSide RoutingTable.ringPort
  rw [lastIdx_of_nodup (nodup_rotate_ringOrder hids offset) hmem,
    idxOf_rotate_ringOrder hids, idxOf_rotate_ringOrder hids, List.length_rotate,
    length_ringOrder, hdist, hdist]
  simp only [Nat.cast_le]

end Order

/-- A table on any rotation of the ring routes every other member the shorter way. -/
theorem getNextHop_recompute {n : ℕ} {ids : ZMod (n + 2) → ℤ} (hids : Function.Injective ids)
    (hbroadcast : ∀ position, ids position ≠ broadcast) (table : RoutingTable) {offset : ℕ}
    (hring : table.ring = (ringOrder ids).rotate offset) {here there : ZMod (n + 2)}
    (hid : table.nodeId = ids here) (hne : there ≠ here) :
    table.recompute.getNextHop (ids there) =
      some (if (there - here).val ≤ (here - there).val then .host else .gadget) := by
  have hlength : 2 ≤ table.ring.length := by
    rw [hring, List.length_rotate, length_ringOrder]
    omega
  rw [RoutingTable.getNextHop, if_neg (hbroadcast there),
    RoutingTable.lookup_routes_recompute hlength, hring, hid,
    if_pos ⟨mem_rotate_ringOrder offset there, fun h ↦ hne (hids h)⟩,
    RoutingTable.appendNew_of_mem (mem_rotate_ringOrder offset here),
    ringSide_rotate_ringOrder hids]

/-- Processing a HELLO path with the whole ring adopts it and routes the shorter way. -/
theorem getNextHop_updateFromHello {n : ℕ} {ids : ZMod (n + 2) → ℤ}
    (hids : Function.Injective ids) (hbroadcast : ∀ position, ids position ≠ broadcast)
    {table : RoutingTable} (hlength : table.ring.length ≤ n + 2) {here there : ZMod (n + 2)}
    (hid : table.nodeId = ids here) (hne : there ≠ here) (offset : ℕ) :
    (table.updateFromHello ((ringOrder ids).rotate offset)).getNextHop (ids there) =
      some (if (there - here).val ≤ (here - there).val then .host else .gadget) := by
  have hring : RoutingTable.helloRing table.nodeId table.ring ((ringOrder ids).rotate offset) =
      (ringOrder ids).rotate offset := by
    unfold RoutingTable.helloRing
    rw [if_pos (by simpa using hlength)]
    apply RoutingTable.appendNew_of_mem
    rw [hid]
    exact mem_rotate_ringOrder offset here
  exact getNextHop_recompute hids hbroadcast _ hring hid hne

/-- The cables of the ring: port `host` leads clockwise, port `gadget` back. -/
def Port.neighbor {n : ℕ} (position : ZMod n) : Port → ZMod n
  | .host => position + 1
  | .gadget => position - 1

/-- One hop towards `dst` along the cables of the ring. -/
def ringHop {n : ℕ} (tables : ZMod n → RoutingTable) (dst : ℤ) (position : ZMod n) :
    Option (ZMod n) :=
  ((tables position).getNextHop dst).map (Port.neighbor position)

def ringDist {n : ℕ} (a b : ZMod n) : ℕ :=
  min (b - a).val (a - b).val

/-- A hop in the shorter direction shortens the ring distance by one. -/
theorem ringDist_hop {n : ℕ} {position target : ZMod (n + 2)} (hne : target ≠ position) :
    ringDist (Port.neighbor position
      (if (target - position).val ≤ (position - target).val then .host else .gadget)) target + 1 =
        ringDist position target := by
  have hturn := Cycle.val_sub_add_val_sub hne
  have hcw := Cycle.val_sub_one (sub_ne_zero.mpr hne)
  have hccw := Cycle.val_sub_one (sub_ne_zero.mpr (Ne.symm hne))
  unfold ringDist
  split
  · change min (target - (position + 1)).val (position + 1 - target).val + 1 = _
    have hnext : target - (position + 1) = target - position - 1 := by ring
    have hback : position + 1 - target = -(target - position - 1) := by ring
    rw [hnext, hback, ZMod.neg_val]
    split
    · rename_i hlast
      rw [hlast, ZMod.val_zero] at hcw
      rw [hlast, ZMod.val_zero]
      omega
    · omega
  · change min (target - (position - 1)).val (position - 1 - target).val + 1 = _
    have hnext : position - 1 - target = position - target - 1 := by ring
    have hback : target - (position - 1) = -(position - target - 1) := by ring
    rw [hnext, hback, ZMod.neg_val]
    split
    · rename_i hlast
      rw [hlast, ZMod.val_zero] at hccw
      rw [hlast, ZMod.val_zero]
      omega
    · omega

theorem ringDist_eq_zero {n : ℕ} [NeZero n] {a b : ZMod n} (h : ringDist a b = 0) : a = b := by
  by_contra hne
  have hforward := (ZMod.val_ne_zero (b - a)).mpr (sub_ne_zero.mpr (Ne.symm hne))
  have hback := (ZMod.val_ne_zero (a - b)).mpr (sub_ne_zero.mpr hne)
  unfold ringDist at h
  omega

theorem ringDist_le_half {n : ℕ} [NeZero n] (a b : ZMod n) : ringDist a b ≤ n / 2 := by
  unfold ringDist
  by_cases hne : b = a
  · simp [hne]
  · have hturn := Cycle.val_sub_add_val_sub hne
    omega

/-- **Ring routing is loop-free and shortest-path.** Whatever state a node of the ring was in with
at most as many ring entries as the ring has nodes, once every node has processed some rotation of
the ring order the walk from any position to the id of any other arrives there after exactly the
smaller of the two distances, at most half the ring, and visits no position twice. -/
theorem ring_routing_shortest {n : ℕ} (ids : ZMod (n + 2) → ℤ) (hids : Function.Injective ids)
    (hbroadcast : ∀ position, ids position ≠ broadcast) (tables : ZMod (n + 2) → RoutingTable)
    (hnode : ∀ position, (tables position).nodeId = ids position)
    (hring : ∀ position, (tables position).ring.length ≤ n + 2) (offset : ZMod (n + 2) → ℕ)
    (source target : ZMod (n + 2)) :
    ReachesIn
        (ringHop (fun position ↦
          (tables position).updateFromHello ((ringOrder ids).rotate (offset position)))
          (ids target))
        (ringDist source target) source target ∧
      ringDist source target ≤ (n + 2) / 2 := by
  refine ⟨?_, ringDist_le_half source target⟩
  apply reachesIn_measure (fun _ ↦ True) (fun position ↦ ringDist position target)
  · intro position _ hpositive
    have hne : target ≠ position := by
      intro hequal
      apply hpositive
      simp [ringDist, hequal]
    have hhop := getNextHop_updateFromHello hids hbroadcast (hring position) (hnode position) hne
      (offset position)
    refine ⟨_, ?_, trivial, ringDist_hop hne⟩
    rw [ringHop, hhop, Option.map_some]
  · intro position _ hzero
    exact ringDist_eq_zero hzero
  · trivial

def fourIds (position : ZMod 4) : ℤ := position.val + 1

/-- Every node starts with a stale neighbour and receives the ring from its own position on. -/
theorem ring_routing_shortest_four :
    ReachesIn
        (ringHop (fun position ↦ ((RoutingTable.fresh (fourIds position)).addNeighbor 9
          .gadget).updateFromHello ((ringOrder fourIds).rotate position.val)) (fourIds 2))
        (ringDist (0 : ZMod 4) 2) 0 2 ∧
      ringDist (0 : ZMod 4) 2 ≤ (2 + 2) / 2 :=
  ring_routing_shortest (n := 2) fourIds (by decide) (by decide)
    (fun position ↦ (RoutingTable.fresh (fourIds position)).addNeighbor 9 .gadget) (by decide)
    (by decide) ZMod.val 0 2

end UsbDirectFabric.Routing
