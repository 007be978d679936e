import Mathlib.Data.List.Rotate
import UsbDirectFabric.Routing.Hello
import UsbDirectFabric.Routing.Wiring

/-!
# Ring membership over whole runs

What the ring list of a routing table holds after any sequence of `add_neighbor`, `remove_neighbor`
and `update_from_hello`, and what the routes say about its members. A HELLO path that is at least as
long as the ring replaces it as it stands; a shorter one is merged. Duplicates, members that a HELLO
drops and members that only one node knows all come in through that choice.
-/

namespace UsbDirectFabric.Routing

open Wire

namespace RoutingTable

def getRingMembers (table : RoutingTable) : List ℤ :=
  table.ring

/-! ## The ring list -/

theorem nodup_appendNew {ring : List ℤ} {id : ℤ} (hring : ring.Nodup) :
    (appendNew ring id).Nodup := by
  unfold appendNew
  split
  · exact hring
  · rename_i hnew
    rw [← List.concat_eq_append]
    exact hring.concat hnew

theorem nodup_appendNew_iff {ring : List ℤ} {id : ℤ} :
    (appendNew ring id).Nodup ↔ ring.Nodup := by
  refine ⟨?_, nodup_appendNew⟩
  unfold appendNew
  split
  · exact fun hring ↦ hring
  · exact List.Nodup.of_append_left

theorem nodup_foldl_appendNew {ring path : List ℤ} (hring : ring.Nodup) :
    (path.foldl appendNew ring).Nodup := by
  induction path generalizing ring with
  | nil => exact hring
  | cons id path ih => exact ih (nodup_appendNew hring)

theorem prefix_appendNew (ring : List ℤ) (id : ℤ) : ring <+: appendNew ring id := by
  unfold appendNew
  split
  · exact List.prefix_rfl
  · exact List.prefix_append ring [id]

/-- A merge only appends to the ring. -/
theorem prefix_foldl_appendNew (ring path : List ℤ) : ring <+: path.foldl appendNew ring := by
  induction path generalizing ring with
  | nil => exact List.prefix_rfl
  | cons id path ih => exact (prefix_appendNew ring id).trans (ih (appendNew ring id))

theorem helloRing_of_le {nodeId : ℤ} {ring path : List ℤ} (hlong : ring.length ≤ path.length) :
    helloRing nodeId ring path = appendNew path nodeId := by
  unfold helloRing
  rw [if_pos hlong]

/-- A HELLO with fewer entries than the ring never shortens it. -/
theorem prefix_helloRing (nodeId : ℤ) {ring path : List ℤ} (hshort : path.length < ring.length) :
    ring <+: helloRing nodeId ring path := by
  unfold helloRing
  rw [if_neg (Nat.not_le.mpr hshort)]
  exact (prefix_foldl_appendNew ring path).trans (prefix_appendNew _ nodeId)

theorem self_mem_helloRing (nodeId : ℤ) (ring path : List ℤ) :
    nodeId ∈ helloRing nodeId ring path := by
  simp [helloRing]

/-- The ring after a HELLO: `recompute` finds the node itself on it and changes nothing. -/
theorem ring_updateFromHello (table : RoutingTable) (path : List ℤ) :
    (table.updateFromHello path).ring = helloRing table.nodeId table.ring path :=
  ring_recompute_of_mem (self_mem_helloRing table.nodeId table.ring path)

theorem nodeId_apply (table : RoutingTable) (op : Op) : (table.apply op).nodeId = table.nodeId := by
  rw [apply_eq, nodeId_recompute, nodeId_edit]

theorem nodeId_foldl_apply (table : RoutingTable) (ops : List Op) :
    (ops.foldl apply table).nodeId = table.nodeId := by
  induction ops generalizing table with
  | nil => rfl
  | cons op ops ih => rw [List.foldl_cons, ih, nodeId_apply]

/-! ## Well-formed rings -/

/-- No id stands on the ring twice, and the node itself stands on a ring that is not empty. -/
structure WellFormed (table : RoutingTable) : Prop where
  nodup : table.ring.Nodup
  self_mem : table.ring ≠ [] → table.nodeId ∈ table.ring

/-- Neighbours are added and removed under the ids of other nodes; HELLO paths are arbitrary. -/
def Op.OfOthers (nodeId : ℤ) : Op → Prop
  | .add neighborId _ | .remove neighborId => neighborId ≠ nodeId
  | .hello _ => True

/-- A HELLO path that is long enough to replace the ring lists no id twice. -/
def PathDistinct (table : RoutingTable) : Op → Prop
  | .add _ _ | .remove _ => True
  | .hello path => table.ring.length ≤ path.length → path.Nodup

theorem wellFormed_recompute_iff {table : RoutingTable}
    (hself : table.ring ≠ [] → table.nodeId ∈ table.ring) :
    table.recompute.WellFormed ↔ table.ring.Nodup := by
  have hring : table.recompute.ring = table.ring := by
    by_cases hempty : table.ring = []
    · unfold recompute
      rw [if_pos (by simp [hempty])]
    · exact ring_recompute_of_mem (hself hempty)
  constructor
  · intro hwell
    rw [← hring]
    exact hwell.nodup
  · intro hnodup
    refine ⟨?_, ?_⟩
    · rwa [hring]
    · rwa [hring, nodeId_recompute]

/-- One operation keeps the ring well formed exactly when it adopts no duplicates. -/
theorem wellFormed_apply_iff {nodeId : ℤ} {table : RoutingTable} {op : Op}
    (hnode : table.nodeId = nodeId) (hothers : op.OfOthers nodeId) (hwell : table.WellFormed) :
    (table.apply op).WellFormed ↔ table.PathDistinct op := by
  rw [apply_eq]
  cases op with
  | add neighborId port =>
      rw [wellFormed_recompute_iff (by simp [edit])]
      exact iff_of_true (nodup_appendNew (nodup_appendNew hwell.nodup)) trivial
  | remove neighborId =>
      rw [wellFormed_recompute_iff]
      · exact iff_of_true (hwell.nodup.filter _) trivial
      · intro hring
        have hself : table.nodeId ∈ table.ring := by
          apply hwell.self_mem
          rintro hempty
          simp [edit, hempty] at hring
        have hkept : table.nodeId ≠ neighborId := by
          rw [hnode]
          exact Ne.symm hothers
        simp [edit, hself, hkept]
  | hello path =>
      rw [wellFormed_recompute_iff fun _ ↦ self_mem_helloRing _ _ _]
      change (helloRing table.nodeId table.ring path).Nodup ↔ _
      by_cases hlong : table.ring.length ≤ path.length
      · rw [helloRing_of_le hlong, nodup_appendNew_iff]
        simp [PathDistinct, hlong]
      · refine iff_of_true ?_ fun h ↦ absurd h hlong
        unfold helloRing
        rw [if_neg hlong]
        exact nodup_appendNew (nodup_foldl_appendNew hwell.nodup)

/-- **Ring well-formedness.** From a fresh table a run keeps the ring free of duplicates, and the
node itself on it, in every state exactly when no HELLO path that replaces the ring lists an id
twice. -/
theorem wellFormed_run_iff (nodeId : ℤ) (ops : List Op) (hothers : ∀ op ∈ ops, op.OfOthers nodeId) :
    Run.Always apply WellFormed (fresh nodeId) ops ↔
      Run.Each apply PathDistinct (fresh nodeId) ops := by
  have hstart : (fresh nodeId).WellFormed := ⟨List.nodup_nil, fun h ↦ absurd rfl h⟩
  have hkept (table : RoutingTable) (op : Op) (hnode : table.nodeId = nodeId)
      (_ : op.OfOthers nodeId) : (table.apply op).nodeId = nodeId := by
    rw [nodeId_apply, hnode]
  exact Run.always_iff_each (Op.OfOthers nodeId) hkept
    (fun _ _ hnode hop hwell ↦ wellFormed_apply_iff hnode hop hwell) rfl hstart hothers

theorem wellFormed_run_iff_three :
    Run.Always apply WellFormed (fresh 1) [.add 2 .host, .hello [1, 2, 3], .remove 3] ↔
      Run.Each apply PathDistinct (fresh 1) [.add 2 .host, .hello [1, 2, 3], .remove 3] :=
  wellFormed_run_iff 1 [.add 2 .host, .hello [1, 2, 3], .remove 3] (by simp [Op.OfOthers])

/-- A HELLO as it can arrive from the wire, whose node list names node 2 twice. -/
def doubledHello : Frame where
  flags := 0
  hop := 0
  seq := 0
  src := 2
  dst := 0xFF
  payload := helloPayload 2 [2, 2]

/-- A fresh table adopts the doubled list. -/
theorem not_wellFormed_doubledHello :
    parseHello doubledHello = .ok (2, [2, 2]) ∧
      ¬ ((fresh 1).apply (.hello [2, 2])).WellFormed := by
  refine ⟨by decide, ?_⟩
  intro hwell
  have hring : ((fresh 1).apply (.hello [2, 2])).ring = [2, 2, 1] := by decide
  have hnodup := hwell.nodup
  rw [hring] at hnodup
  simp at hnodup

/-! ## Agreement after a complete HELLO -/

/-- Every node of a path holds the members of the path, and no others, in its cyclic order. -/
def Agree (tables : ℤ → RoutingTable) (path : List ℤ) : Prop :=
  ∀ id ∈ path, (tables id).getRingMembers ~r path

/-- A member of a path ends up with its cyclic order exactly when its ring was not longer. -/
theorem getRingMembers_updateFromHello_iff {table : RoutingTable} {path : List ℤ}
    (hself : table.nodeId ∈ path) :
    (table.updateFromHello path).getRingMembers ~r path ↔ table.ring.length ≤ path.length := by
  rw [getRingMembers, ring_updateFromHello]
  constructor
  · intro hrotated
    by_contra hlong
    have hprefix := prefix_helloRing table.nodeId (Nat.lt_of_not_le hlong)
    have hlength := hrotated.perm.length_eq
    rw [← hlength] at hlong
    exact hlong hprefix.length_le
  · intro hshort
    rw [helloRing_of_le hshort, appendNew_of_mem hself]

/-- **Agreement after a complete HELLO.** Whatever the nodes of a ring order did before, after each
of them has processed a HELLO with that order all hold it exactly when none of them knew more ring
entries than the HELLO lists. -/
theorem agree_updateFromHello_iff (history : ℤ → List Op) (path : List ℤ) :
    Agree (fun id ↦ ((history id).foldl apply (fresh id)).updateFromHello path) path ↔
      ∀ id ∈ path, ((history id).foldl apply (fresh id)).ring.length ≤ path.length := by
  refine forall₂_congr fun id hid ↦ getRingMembers_updateFromHello_iff ?_
  rw [nodeId_foldl_apply]
  exact hid

/-- Node 1 has registered nodes 2 and 3 when a HELLO with the order 1, 2 arrives. -/
def staleHistory (id : ℤ) : List Op :=
  if id = 1 then [.add 2 .host, .add 3 .gadget] else []

/-- Node 1 keeps node 3 on its ring. -/
theorem not_agree_staleHistory :
    [1, 2].Nodup ∧ 2 ≤ [1, 2].length ∧
      ¬ Agree (fun id ↦ ((staleHistory id).foldl apply (fresh id)).updateFromHello [1, 2])
        [1, 2] := by
  refine ⟨by decide, by decide, ?_⟩
  intro hagree
  have hrotated := hagree 1 (by decide)
  have hring : (((staleHistory 1).foldl apply (fresh 1)).updateFromHello [1, 2]).getRingMembers =
      [2, 1, 3] := by decide
  rw [hring] at hrotated
  have hlength := hrotated.perm.length_eq
  simp at hlength

end RoutingTable

end UsbDirectFabric.Routing
