import Mathlib.Algebra.Field.ZMod
import Mathlib.Tactic.LinearCombination
import UsbDirectFabric.Routing.Ring

/-!
# Routing after the loss of one node

When one node of a ring disappears the cables that remain form a line, but `remove_neighbor` closes
the ring list over the gap and `recompute` measures distances around the shorter ring. A table
therefore sends a frame towards the gap whenever the closed ring is shorter that way. Along the
line the direction of travel never changes, so a frame arrives exactly when its first hop points
towards its destination.
-/

namespace UsbDirectFabric.Routing

open Wire Walk

section Line

variable {n : ℕ}

/-- The distance of a position behind the clockwise neighbour of the dead node. -/
def linePos (dead position : ZMod (n + 3)) : ℕ :=
  (position - (dead + 1)).val

def lineIds (ids : ZMod (n + 3) → ℤ) (dead : ZMod (n + 3)) (index : ZMod (n + 2)) : ℤ :=
  ids (dead + 1 + (index.val : ZMod (n + 3)))

theorem linePos_add_one {dead position : ZMod (n + 3)} (hne : position ≠ dead) :
    linePos dead (position + 1) = linePos dead position + 1 := by
  have hshift : position + 1 - (dead + 1) = position - dead := by ring
  have hback : position - (dead + 1) = position - dead - 1 := by ring
  unfold linePos
  rw [hshift, hback, Cycle.val_sub_one (sub_ne_zero.mpr hne)]

theorem linePos_sub_one {dead position : ZMod (n + 3)} (hne : position - 1 ≠ dead) :
    linePos dead (position - 1) + 1 = linePos dead position := by
  have h := linePos_add_one hne
  rwa [sub_add_cancel, eq_comm] at h

theorem linePos_lt {dead position : ZMod (n + 3)} (hne : position ≠ dead) :
    linePos dead position < n + 2 := by
  have hsucc := linePos_add_one hne
  have hlt : linePos dead (position + 1) < n + 3 := ZMod.val_lt _
  omega

@[simp]
theorem linePos_dead (dead : ZMod (n + 3)) : linePos dead dead = n + 2 := by
  have hgap : dead - (dead + 1) = -1 := by ring
  unfold linePos
  rw [hgap, ZMod.val_neg_one]

theorem linePos_injective (dead : ZMod (n + 3)) : Function.Injective (linePos dead) := by
  intro a b hequal
  exact sub_left_injective (ZMod.val_injective _ hequal)

theorem lineIds_linePos (ids : ZMod (n + 3) → ℤ) {dead position : ZMod (n + 3)}
    (hne : position ≠ dead) :
    lineIds ids dead (linePos dead position : ZMod (n + 2)) = ids position := by
  unfold lineIds
  rw [ZMod.val_natCast_of_lt (linePos_lt hne), linePos, ZMod.natCast_zmod_val]
  congr 1
  ring

variable {ids : ZMod (n + 3) → ℤ}

theorem lineIds_injective (hids : Function.Injective ids) (dead : ZMod (n + 3)) :
    Function.Injective (lineIds ids dead) := by
  intro a b hequal
  have hcast := add_left_cancel (hids hequal)
  rw [ZMod.natCast_eq_natCast_iff', Nat.mod_eq_of_lt (by have := a.val_lt; omega),
    Nat.mod_eq_of_lt (by have := b.val_lt; omega)] at hcast
  exact ZMod.val_injective _ hcast

theorem lineIds_ne_dead (hids : Function.Injective ids) (dead : ZMod (n + 3))
    (index : ZMod (n + 2)) : lineIds ids dead index ≠ ids dead := by
  intro hequal
  have hposition := hids hequal
  have hgap : ((index.val : ℕ) : ZMod (n + 3)) = -1 := by
    linear_combination hposition
  have hval := congrArg ZMod.val hgap
  rw [ZMod.val_neg_one, ZMod.val_natCast_of_lt (by have := index.val_lt; omega)] at hval
  have hlt := index.val_lt
  omega

/-- Turned so that the dead node is last, the ring is the line followed by the dead node. -/
theorem rotate_ringOrder_eq_line (dead : ZMod (n + 3)) :
    (ringOrder ids).rotate (dead.val + 1) = ringOrder (lineIds ids dead) ++ [ids dead] := by
  apply List.ext_getElem
  · simp
  · intro index hleft hright
    have hindex : index < n + 3 := by simpa using hleft
    have hentry : ((ringOrder ids).rotate (dead.val + 1))[index]? = _ :=
      getElem?_rotate_ringOrder (dead.val + 1) index hindex
    rw [List.getElem?_eq_getElem hleft, Option.some.injEq] at hentry
    rw [hentry]
    push_cast
    rw [ZMod.natCast_zmod_val]
    by_cases hline : index < n + 2
    · rw [List.getElem_append_left (by simpa using hline)]
      simp only [ringOrder, List.getElem_map, List.getElem_range, lineIds]
      rw [ZMod.val_natCast_of_lt hline]
      congr 1
      ring
    · obtain rfl : index = n + 2 := by omega
      rw [List.getElem_append_right (by simp)]
      simp only [length_ringOrder, Nat.sub_self, List.getElem_singleton]
      have hturn : ((n + 3 : ℕ) : ZMod (n + 3)) = 0 := ZMod.natCast_self _
      push_cast at hturn ⊢
      congr 1
      linear_combination hturn

/-- Filtering commutes with rotation up to rotation. -/
theorem isRotated_filter {α : Type*} {first second : List α} (h : first ~r second)
    (keep : α → Bool) : first.filter keep ~r second.filter keep := by
  rcases h with ⟨count, rfl⟩
  rw [List.rotate_eq_drop_append_take_mod, List.filter_append]
  conv_lhs => rw [← List.take_append_drop (count % first.length) first, List.filter_append]
  exact List.isRotated_append

/-- Removing the dead node from the ring list leaves a rotation of the line. -/
theorem filter_ringOrder_isRotated (hids : Function.Injective ids) (dead : ZMod (n + 3)) :
    ringOrder (lineIds ids dead) ~r (ringOrder ids).filter (· ≠ ids dead) := by
  have hrotated : ringOrder ids ~r ringOrder (lineIds ids dead) ++ [ids dead] :=
    ⟨dead.val + 1, rotate_ringOrder_eq_line dead⟩
  have hline : (ringOrder (lineIds ids dead) ++ [ids dead]).filter (· ≠ ids dead) =
      ringOrder (lineIds ids dead) := by
    rw [List.filter_append]
    simp only [ne_eq, not_true_eq_false, decide_false, Bool.false_eq_true, not_false_eq_true,
      List.filter_cons_of_neg, List.filter_nil, List.append_nil]
    apply List.filter_eq_self.mpr
    intro id hmem
    obtain ⟨index, _, rfl⟩ := List.mem_map.mp hmem
    simpa using lineIds_ne_dead hids dead index
  have h := (isRotated_filter hrotated (· ≠ ids dead)).symm
  rwa [hline] at h

end Line

section Loss

variable {n : ℕ} {ids : ZMod (n + 3) → ℤ} {tables : ZMod (n + 3) → RoutingTable}

/-- The tables after every node has processed the complete ring and then removed the dead node. -/
def tablesAfterLoss (tables : ZMod (n + 3) → RoutingTable) (ids : ZMod (n + 3) → ℤ)
    (dead : ZMod (n + 3)) (position : ZMod (n + 3)) : RoutingTable :=
  ((tables position).updateFromHello (ringOrder ids)).removeNeighbor (ids dead)

/-- One hop over the cables that remain: a cable to the dead node leads nowhere. -/
def lineHop (tables : ZMod (n + 3) → RoutingTable) (dead : ZMod (n + 3)) (dst : ℤ)
    (position : ZMod (n + 3)) : Option (ZMod (n + 3)) :=
  (ringHop tables dst position).filter (· ≠ dead)

/-- The table of `position` sends frames for `target` clockwise: either the target lies clockwise
on the line and at most half the closed ring away, or it lies back and at least half away. -/
def SendsClockwise (dead position target : ZMod (n + 3)) : Prop :=
  (linePos dead position < linePos dead target ∧
    2 * (linePos dead target - linePos dead position) ≤ n + 2) ∨
  (linePos dead target < linePos dead position ∧
    n + 2 ≤ 2 * (linePos dead position - linePos dead target))

instance (dead position target : ZMod (n + 3)) : Decidable (SendsClockwise dead position target) :=
  inferInstanceAs (Decidable (_ ∨ _))

/-- Distances around the closed ring, in terms of the positions on the line. -/
theorem closedRing_le_iff {dead position target : ZMod (n + 3)} (hposition : position ≠ dead)
    (htarget : target ≠ dead) (hne : target ≠ position) :
    ((linePos dead target : ZMod (n + 2)) - (linePos dead position : ZMod (n + 2))).val ≤
        ((linePos dead position : ZMod (n + 2)) - (linePos dead target : ZMod (n + 2))).val ↔
      SendsClockwise dead position target := by
  have hp := linePos_lt hposition
  have ht := linePos_lt htarget
  have hdistinct : linePos dead target ≠ linePos dead position :=
    fun h ↦ hne (linePos_injective dead h)
  have hvalp : ((linePos dead position : ZMod (n + 2))).val = linePos dead position :=
    ZMod.val_natCast_of_lt hp
  have hvalt : ((linePos dead target : ZMod (n + 2))).val = linePos dead target :=
    ZMod.val_natCast_of_lt ht
  have hturn := Cycle.val_sub_add_val_sub (n := n + 2)
    (a := (linePos dead target : ZMod (n + 2))) (b := (linePos dead position : ZMod (n + 2)))
    (fun h ↦ hdistinct (by rw [← hvalt, ← hvalp, h]))
  unfold SendsClockwise
  rcases Nat.lt_or_gt_of_ne hdistinct with hback | hforward
  · have hdist := ZMod.val_sub (a := (linePos dead position : ZMod (n + 2)))
      (b := (linePos dead target : ZMod (n + 2))) (by omega)
    omega
  · have hdist := ZMod.val_sub (a := (linePos dead target : ZMod (n + 2)))
      (b := (linePos dead position : ZMod (n + 2))) (by omega)
    omega

/-- The table of a remaining node after the loss. -/
theorem getNextHop_tablesAfterLoss (hids : Function.Injective ids)
    (hbroadcast : ∀ position, ids position ≠ broadcast)
    (hnode : ∀ position, (tables position).nodeId = ids position)
    (hring : ∀ position, (tables position).ring.length ≤ n + 3)
    {dead position target : ZMod (n + 3)} (hposition : position ≠ dead) (htarget : target ≠ dead)
    (hne : target ≠ position) :
    (tablesAfterLoss tables ids dead position).getNextHop (ids target) =
      some (if SendsClockwise dead position target then .host else .gadget) := by
  set heard := (tables position).updateFromHello (ringOrder ids) with hheard
  have hself : (tables position).nodeId ∈ ringOrder ids := by
    rw [hnode, ← List.rotate_zero (ringOrder ids)]
    exact mem_rotate_ringOrder 0 position
  have hadopted : heard.ring = ringOrder ids := by
    rw [hheard, RoutingTable.updateFromHello, RoutingTable.helloRing,
      if_pos (by simpa using hring position), RoutingTable.appendNew_of_mem hself]
    exact RoutingTable.ring_recompute_of_mem hself
  obtain ⟨offset, hoffset⟩ := filter_ringOrder_isRotated hids dead
  have hline : heard.ring.filter (· ≠ ids dead) = (ringOrder (lineIds ids dead)).rotate offset := by
    rw [hadopted, hoffset]
  have hindex : (linePos dead target : ZMod (n + 2)) ≠ (linePos dead position : ZMod (n + 2)) := by
    intro hequal
    have hval := congrArg ZMod.val hequal
    rw [ZMod.val_natCast_of_lt (linePos_lt htarget),
      ZMod.val_natCast_of_lt (linePos_lt hposition)] at hval
    exact hne (linePos_injective dead hval)
  have hid : heard.nodeId = lineIds ids dead (linePos dead position : ZMod (n + 2)) := by
    rw [lineIds_linePos ids hposition, ← hnode position, hheard, RoutingTable.updateFromHello,
      RoutingTable.nodeId_recompute]
  have hhop := getNextHop_recompute (lineIds_injective hids dead) (fun _ ↦ hbroadcast _)
    { heard with
      neighbors := heard.neighbors.erase (ids dead)
      routes := heard.routes.erase (ids dead)
      ring := heard.ring.filter (· ≠ ids dead) } hline hid hindex
  simp only [lineIds_linePos ids htarget, closedRing_le_iff hposition htarget hne] at hhop
  exact hhop

/-- A hop that follows the table, unless the cable is dead. -/
theorem lineHop_eq (hids : Function.Injective ids)
    (hbroadcast : ∀ position, ids position ≠ broadcast)
    (hnode : ∀ position, (tables position).nodeId = ids position)
    (hring : ∀ position, (tables position).ring.length ≤ n + 3)
    {dead position target : ZMod (n + 3)} (hposition : position ≠ dead) (htarget : target ≠ dead)
    (hne : target ≠ position) :
    lineHop (tablesAfterLoss tables ids dead) dead (ids target) position =
      if SendsClockwise dead position target then
        if position + 1 = dead then none else some (position + 1)
      else if position - 1 = dead then none else some (position - 1) := by
  rw [lineHop, ringHop,
    getNextHop_tablesAfterLoss hids hbroadcast hnode hring hposition htarget hne]
  split <;> simp [Port.neighbor, Option.filter_some]

/-- The first hop of a frame points along the line towards its destination. -/
def PointsTowards (dead source target : ZMod (n + 3)) : Prop :=
  (linePos dead source < linePos dead target ∧
    2 * (linePos dead target - linePos dead source) ≤ n + 2) ∨
  (linePos dead target < linePos dead source ∧
    2 * (linePos dead source - linePos dead target) < n + 2)

variable (hids : Function.Injective ids) (hbroadcast : ∀ position, ids position ≠ broadcast)
  (hnode : ∀ position, (tables position).nodeId = ids position)
  (hring : ∀ position, (tables position).ring.length ≤ n + 3)
include hids hbroadcast hnode hring

/-- A frame that starts clockwise towards its destination moves one position closer each time. -/
theorem reachesIn_clockwise {dead source target : ZMod (n + 3)} (hsource : source ≠ dead)
    (htarget : target ≠ dead) (hahead : linePos dead source < linePos dead target)
    (hshort : 2 * (linePos dead target - linePos dead source) ≤ n + 2) :
    ReachesIn (lineHop (tablesAfterLoss tables ids dead) dead (ids target))
      (linePos dead target - linePos dead source) source target := by
  apply reachesIn_measure
    (fun position ↦ position ≠ dead ∧ linePos dead position ≤ linePos dead target ∧
      2 * (linePos dead target - linePos dead position) ≤ n + 2)
    (fun position ↦ linePos dead target - linePos dead position)
  · rintro position ⟨hposition, hbehind, hnear⟩ hpositive
    have hne : target ≠ position := fun h ↦ hpositive (by simp [h])
    have hnext := linePos_add_one hposition
    have halive : position + 1 ≠ dead := by
      intro hdead
      rw [hdead, linePos_dead] at hnext
      have hlt := linePos_lt htarget
      omega
    have hside : SendsClockwise dead position target := Or.inl ⟨by omega, hnear⟩
    refine ⟨position + 1, ?_, ⟨halive, by omega, by omega⟩, by omega⟩
    rw [lineHop_eq hids hbroadcast hnode hring hposition htarget hne, if_pos hside, if_neg halive]
  · rintro position ⟨_, hbehind, _⟩ hzero
    exact linePos_injective dead (by omega)
  · exact ⟨hsource, hahead.le, hshort⟩

/-- A frame that starts back towards its destination moves one position closer each time. -/
theorem reachesIn_counterclockwise {dead source target : ZMod (n + 3)} (hsource : source ≠ dead)
    (htarget : target ≠ dead) (hbehind : linePos dead target < linePos dead source)
    (hshort : 2 * (linePos dead source - linePos dead target) < n + 2) :
    ReachesIn (lineHop (tablesAfterLoss tables ids dead) dead (ids target))
      (linePos dead source - linePos dead target) source target := by
  apply reachesIn_measure
    (fun position ↦ position ≠ dead ∧ linePos dead target ≤ linePos dead position ∧
      2 * (linePos dead position - linePos dead target) < n + 2)
    (fun position ↦ linePos dead position - linePos dead target)
  · rintro position ⟨hposition, hahead, hnear⟩ hpositive
    have hne : target ≠ position := fun h ↦ hpositive (by simp [h])
    have halive : position - 1 ≠ dead := by
      intro hdead
      obtain rfl : position = dead + 1 := by rw [← hdead, sub_add_cancel]
      have hfirst : linePos dead (dead + 1) = 0 := by simp [linePos]
      omega
    have hnext := linePos_sub_one halive
    have hside : ¬ SendsClockwise dead position target := by
      unfold SendsClockwise
      omega
    refine ⟨position - 1, ?_, ⟨halive, by omega, by omega⟩, by omega⟩
    rw [lineHop_eq hids hbroadcast hnode hring hposition htarget hne, if_neg hside, if_neg halive]
  · rintro position ⟨_, hahead, _⟩ hzero
    exact linePos_injective dead (by omega)
  · exact ⟨hsource, hbehind.le, hshort⟩

/-- A frame whose first hop points away runs into the gap and never turns round. -/
theorem not_reachesIn_of_pointsAway {dead source target : ZMod (n + 3)} (hsource : source ≠ dead)
    (htarget : target ≠ dead) (hne : target ≠ source)
    (haway : ¬ PointsTowards dead source target) :
    ¬ ∃ count, ReachesIn (lineHop (tablesAfterLoss tables ids dead) dead (ids target)) count
      source target := by
  have hdistinct : linePos dead target ≠ linePos dead source :=
    fun h ↦ hne (linePos_injective dead h)
  unfold PointsTowards at haway
  rcases Nat.lt_or_gt_of_ne hdistinct with hback | hforward
  · apply not_reachesIn (fun position ↦ position ≠ dead ∧
      linePos dead target < linePos dead position ∧
      n + 2 ≤ 2 * (linePos dead position - linePos dead target))
    · rintro position next ⟨hposition, hahead, hfar⟩ hhop
      have hne : target ≠ position := fun h ↦ by simp [h] at hahead
      have hside : SendsClockwise dead position target := Or.inr ⟨hahead, hfar⟩
      rw [lineHop_eq hids hbroadcast hnode hring hposition htarget hne, if_pos hside] at hhop
      split at hhop
      · cases hhop
      · rename_i halive
        obtain rfl := Option.some.inj hhop
        have hnext := linePos_add_one hposition
        exact ⟨halive, by omega, by omega⟩
    · exact ⟨hsource, hback, by omega⟩
    · rintro ⟨_, hself, _⟩
      exact lt_irrefl _ hself
  · apply not_reachesIn (fun position ↦ position ≠ dead ∧
      linePos dead position < linePos dead target ∧
      n + 2 < 2 * (linePos dead target - linePos dead position))
    · rintro position next ⟨hposition, hbehind, hfar⟩ hhop
      have hne : target ≠ position := fun h ↦ by simp [h] at hbehind
      have hside : ¬ SendsClockwise dead position target := by
        unfold SendsClockwise
        omega
      rw [lineHop_eq hids hbroadcast hnode hring hposition htarget hne, if_neg hside] at hhop
      split at hhop
      · cases hhop
      · rename_i halive
        obtain rfl := Option.some.inj hhop
        have hnext := linePos_sub_one halive
        exact ⟨halive, by omega, by omega⟩
    · exact ⟨hsource, hforward, by omega⟩
    · rintro ⟨_, hself, _⟩
      exact lt_irrefl _ hself

/-- **Routing after the loss of one node.** In a ring of at least three nodes that have all
processed the complete ring and then removed the dead node, a frame reaches another remaining node
over live cables, without a cycle, exactly when its first hop points along the line towards it. -/
theorem routing_after_loss_iff {dead source target : ZMod (n + 3)} (hsource : source ≠ dead)
    (htarget : target ≠ dead) (hne : target ≠ source) :
    (∃ count, ReachesIn (lineHop (tablesAfterLoss tables ids dead) dead (ids target)) count
      source target) ↔ PointsTowards dead source target := by
  constructor
  · intro hreaches
    by_contra haway
    exact not_reachesIn_of_pointsAway hids hbroadcast hnode hring hsource htarget hne haway hreaches
  · rintro (⟨hahead, hshort⟩ | ⟨hbehind, hshort⟩)
    · exact ⟨_, reachesIn_clockwise hids hbroadcast hnode hring hsource htarget hahead hshort⟩
    · exact ⟨_,
        reachesIn_counterclockwise hids hbroadcast hnode hring hsource htarget hbehind hshort⟩

end Loss

/-- A node that has registered its clockwise neighbour on `host` and the other on `gadget`. -/
def registered {n : ℕ} (ids : ZMod n → ℤ) (position : ZMod n) : RoutingTable :=
  ((RoutingTable.fresh (ids position)).addNeighbor (ids (position + 1)) .host).addNeighbor
    (ids (position - 1)) .gadget

theorem routing_after_loss_iff_four :
    (∃ count, ReachesIn (lineHop (tablesAfterLoss (n := 1) (registered fourIds) fourIds 1) 1
      (fourIds 3)) count 2 3) ↔ PointsTowards (n := 1) 1 2 3 :=
  routing_after_loss_iff (n := 1) (by decide) (by decide) (by decide) (by decide) (by decide)
    (by decide) (by decide)

def threeIds (position : ZMod 3) : ℤ := position.val + 1

/-- After node 2 of the ring 1, 2, 3 is lost, node 1 sends frames for node 3 into the dead cable. -/
theorem not_routing_after_loss_three :
    ¬ ∃ count, ReachesIn (lineHop (tablesAfterLoss (n := 0) (registered threeIds) threeIds 1) 1
      (threeIds 2)) count 0 2 := by
  apply not_reachesIn (fun position ↦ position = 0)
  · intro position next hposition hhop
    subst hposition
    have hdead :
        lineHop (tablesAfterLoss (n := 0) (registered threeIds) threeIds 1) 1 (threeIds 2) 0 =
          none := by decide
    rw [hdead] at hhop
    cases hhop
  · rfl
  · decide

end UsbDirectFabric.Routing
