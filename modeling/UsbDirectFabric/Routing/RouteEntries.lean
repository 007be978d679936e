import UsbDirectFabric.Routing.Membership

/-!
# Which destinations have a route

`recompute` rebuilds the routes from the neighbours when the ring has fewer than two entries, and
otherwise only writes the routes of the ring members over the old ones. A route therefore outlives
a member that an adopted HELLO drops, and a lone remaining member has none. For every operation the
condition is given under which the destinations with a route stay the ring members and neighbours.
-/

namespace UsbDirectFabric.Routing

open Wire

namespace RoutingTable

/-- Another unicast id has a next hop exactly when it is on the ring or a registered neighbour. -/
def RoutesExact (table : RoutingTable) : Prop :=
  ∀ id, id ≠ broadcast → id ≠ table.nodeId →
    (table.getNextHop id ≠ none ↔ id ∈ table.ring ∨ id ∈ table.neighbors)

def Op.AddsOthers (nodeId : ℤ) : Op → Prop
  | .add neighborId _ => neighborId ≠ nodeId
  | .remove _ | .hello _ => True

/-- All ring members that `lost` singles out, other than the node itself and broadcast, are
registered neighbours. -/
def Registered (table : RoutingTable) (lost : ℤ → Prop) : Prop :=
  ∀ id ∈ table.ring, lost id → id ≠ broadcast → id ≠ table.nodeId → id ∈ table.neighbors

/-- A node that removes itself leaves a ring of two entries or only neighbours on it, and a HELLO
path that replaces the ring drops no member but neighbours. -/
def RoutesCovered (table : RoutingTable) : Op → Prop
  | .add _ _ => True
  | .remove neighborId =>
      neighborId = table.nodeId →
        2 ≤ (table.ring.filter (· ≠ neighborId)).length ∨ table.Registered (· ≠ neighborId)
  | .hello path => table.ring.length ≤ path.length → table.Registered (· ∉ path)

theorem getNextHop_ne_none_iff {table : RoutingTable} {id : ℤ} (hunicast : id ≠ broadcast) :
    table.getNextHop id ≠ none ↔ id ∈ table.routes := by
  rw [getNextHop, if_neg hunicast, Ne, Finmap.lookup_eq_none, not_not]

theorem mem_routes_recompute {table : RoutingTable} (hlength : 2 ≤ table.ring.length) {id : ℤ} :
    id ∈ table.recompute.routes ↔ (id ∈ table.ring ∧ id ≠ table.nodeId) ∨ id ∈ table.routes := by
  rw [← Finmap.lookup_isSome, lookup_routes_recompute hlength]
  split
  · rename_i hmember
    simp [hmember]
  · rename_i hmember
    rw [Finmap.lookup_isSome, or_iff_right hmember]

theorem mem_ring_recompute {table : RoutingTable} {id : ℤ} (hother : id ≠ table.nodeId) :
    id ∈ table.recompute.ring ↔ id ∈ table.ring := by
  unfold recompute
  split
  · rfl
  · simp [hother]

/-- On a ring of fewer than two entries the neighbours have to cover the members. -/
theorem routesExact_recompute_of_lt {table : RoutingTable} (hlength : table.ring.length < 2) :
    table.recompute.RoutesExact ↔ table.Registered fun _ ↦ True := by
  have hexact (id : ℤ) (hunicast : id ≠ broadcast) (hother : id ≠ table.nodeId) :
      (table.recompute.getNextHop id ≠ none ↔
          id ∈ table.recompute.ring ∨ id ∈ table.recompute.neighbors) ↔
        (id ∈ table.ring → id ∈ table.neighbors) := by
    rw [getNextHop_ne_none_iff hunicast, routes_recompute_of_lt hlength, neighbors_recompute,
      mem_ring_recompute hother]
    tauto
  unfold RoutesExact Registered
  rw [nodeId_recompute]
  constructor
  · intro h id hmem _ hunicast hother
    exact (hexact id hunicast hother).mp (h id hunicast hother) hmem
  · intro h id hunicast hother
    exact (hexact id hunicast hother).mpr fun hmem ↦ h id hmem trivial hunicast hother

/-- On a longer ring the ids off the ring have to keep exact routes. -/
theorem routesExact_recompute_of_le {table : RoutingTable} (hlength : 2 ≤ table.ring.length) :
    table.recompute.RoutesExact ↔ ∀ id, id ≠ broadcast → id ≠ table.nodeId → id ∉ table.ring →
      (id ∈ table.routes ↔ id ∈ table.neighbors) := by
  unfold RoutesExact
  rw [nodeId_recompute]
  refine forall₃_congr fun id hunicast hother ↦ ?_
  rw [getNextHop_ne_none_iff hunicast, mem_routes_recompute hlength, neighbors_recompute,
    mem_ring_recompute hother]
  tauto

/-! ## What every operation leaves behind -/

/-- What `recompute` establishes: a short ring routes to the neighbours alone, a longer one holds
the node itself. -/
structure Recomputed (nodeId : ℤ) (table : RoutingTable) : Prop where
  nodeId_eq : table.nodeId = nodeId
  routes_eq : table.ring.length < 2 → table.routes = table.neighbors
  self_mem : 2 ≤ table.ring.length → table.nodeId ∈ table.ring

theorem recomputed_fresh (nodeId : ℤ) : Recomputed nodeId (fresh nodeId) where
  nodeId_eq := rfl
  routes_eq _ := rfl
  self_mem h := absurd h (by simp [fresh])

theorem recomputed_recompute (table : RoutingTable) :
    Recomputed table.nodeId table.recompute := by
  unfold recompute
  split
  · rename_i hshort
    exact ⟨rfl, fun _ ↦ rfl, fun h ↦ absurd hshort (Nat.not_lt.mpr h)⟩
  · rename_i hlong
    refine ⟨rfl, ?_, fun _ ↦ by simp⟩
    intro hshort
    have hprefix := (prefix_appendNew table.ring table.nodeId).length_le
    exact absurd (lt_of_le_of_lt hprefix hshort) hlong

theorem recomputed_apply {nodeId : ℤ} {table : RoutingTable} (op : Op)
    (hnode : table.nodeId = nodeId) : Recomputed nodeId (table.apply op) := by
  rw [apply_eq, ← hnode, ← nodeId_edit table op]
  exact recomputed_recompute _

/-- The routes before an operation, in terms of members and neighbours. -/
theorem RoutesExact.mem_routes_iff {table : RoutingTable} (hexact : table.RoutesExact) {id : ℤ}
    (hunicast : id ≠ broadcast) (hother : id ≠ table.nodeId) :
    id ∈ table.routes ↔ id ∈ table.ring ∨ id ∈ table.neighbors := by
  rw [← getNextHop_ne_none_iff hunicast]
  exact hexact id hunicast hother

theorem routesExact_add {table : RoutingTable} {neighborId : ℤ} {port : Port}
    (hother : neighborId ≠ table.nodeId) (hexact : table.RoutesExact) :
    (table.apply (.add neighborId port)).RoutesExact := by
  rw [apply_eq]
  have hlength : 2 ≤ (table.edit (.add neighborId port)).ring.length :=
    two_le_length_of_mem (by simp [edit]) (by simp [edit]) hother
  rw [routesExact_recompute_of_le hlength]
  intro id hunicast hself hoff
  have hneighbor : id ≠ neighborId := by
    rintro rfl
    simp [edit] at hoff
  have hring : id ∉ table.ring := by
    intro hmem
    simp [edit, hmem] at hoff
  have hroutes := hexact.mem_routes_iff hunicast hself
  simp only [edit, Finmap.mem_insert, hneighbor, false_or, hroutes, hring]

/-- Removing a node keeps the routes exact unless the node removes itself from a ring of which only
unregistered members remain. -/
theorem routesExact_remove_iff {nodeId : ℤ} {table : RoutingTable} {neighborId : ℤ}
    (hrecomputed : Recomputed nodeId table) (hexact : table.RoutesExact) :
    (table.apply (.remove neighborId)).RoutesExact ↔ table.RoutesCovered (.remove neighborId) := by
  have hmem (id : ℤ) : id ∈ (table.edit (.remove neighborId)).ring ↔
      id ∈ table.ring ∧ id ≠ neighborId := by
    simp [edit]
  have hneighbors (id : ℤ) : id ∈ (table.edit (.remove neighborId)).neighbors ↔
      id ≠ neighborId ∧ id ∈ table.neighbors := Finmap.mem_erase
  have hroutes (id : ℤ) : id ∈ (table.edit (.remove neighborId)).routes ↔
      id ≠ neighborId ∧ id ∈ table.routes := Finmap.mem_erase
  rw [apply_eq]
  by_cases hlength : 2 ≤ (table.edit (.remove neighborId)).ring.length
  · rw [routesExact_recompute_of_le hlength]
    refine iff_of_true ?_ fun _ ↦ Or.inl hlength
    intro id hunicast hself hoff
    rw [hneighbors, hroutes]
    refine and_congr_right fun hkept ↦ ?_
    rw [hexact.mem_routes_iff hunicast hself]
    exact or_iff_right fun hring ↦ hoff ((hmem id).mpr ⟨hring, hkept⟩)
  · have hshort := Nat.lt_of_not_le hlength
    rw [routesExact_recompute_of_lt hshort]
    have hregistered : (table.edit (.remove neighborId)).Registered (fun _ ↦ True) ↔
        table.Registered (· ≠ neighborId) := by
      unfold Registered
      simp only [hmem, hneighbors, nodeId_edit]
      constructor
      · intro h id hring hkept hunicast hself
        exact (h id ⟨hring, hkept⟩ trivial hunicast hself).2
      · rintro h id ⟨hring, hkept⟩ _ hunicast hself
        exact ⟨hkept, h id hring hkept hunicast hself⟩
    have hcovered : table.RoutesCovered (.remove neighborId) ↔
        (neighborId = table.nodeId → table.Registered (· ≠ neighborId)) :=
      imp_congr_right fun _ ↦ or_iff_right hlength
    rw [hregistered, hcovered]
    refine ⟨fun h _ ↦ h, ?_⟩
    intro h
    by_cases hself : neighborId = table.nodeId
    · exact h hself
    intro id hring hkept hunicast hother
    by_cases hring_short : table.ring.length < 2
    · have hroute := (hexact.mem_routes_iff hunicast hother).mpr (Or.inl hring)
      rwa [hrecomputed.routes_eq hring_short] at hroute
    · have hmine := hrecomputed.self_mem (Nat.le_of_not_lt hring_short)
      have htwo := two_le_length_of_mem ((hmem id).mpr ⟨hring, hkept⟩)
        ((hmem table.nodeId).mpr ⟨hmine, Ne.symm hself⟩) hother
      exact absurd htwo hlength

/-- A HELLO keeps the routes exact unless it drops a ring member that is no neighbour. -/
theorem routesExact_hello_iff {nodeId : ℤ} {table : RoutingTable} {path : List ℤ}
    (hrecomputed : Recomputed nodeId table) (hexact : table.RoutesExact) :
    (table.apply (.hello path)).RoutesExact ↔ table.RoutesCovered (.hello path) := by
  rw [apply_eq]
  have hring : (table.edit (.hello path)).ring = helloRing table.nodeId table.ring path := rfl
  have hself : table.nodeId ∈ (table.edit (.hello path)).ring :=
    hring ▸ self_mem_helloRing table.nodeId table.ring path
  by_cases hlength : 2 ≤ (table.edit (.hello path)).ring.length
  · rw [routesExact_recompute_of_le hlength]
    by_cases hlong : table.ring.length ≤ path.length
    · have hmem {id : ℤ} (hother : id ≠ table.nodeId) :
          id ∈ (table.edit (.hello path)).ring ↔ id ∈ path := by
        rw [hring, helloRing_of_le hlong]
        simp [hother]
      constructor
      · intro h _ id hold hdropped hunicast hother
        have hroute := (hexact.mem_routes_iff hunicast hother).mpr (Or.inl hold)
        exact (h id hunicast hother (mt (hmem hother).mp hdropped)).mp hroute
      · intro h id hunicast hother hoff
        have hdropped := mt (hmem hother).mpr hoff
        change id ∈ table.routes ↔ id ∈ table.neighbors
        rw [hexact.mem_routes_iff hunicast hother]
        exact or_iff_right_of_imp fun hold ↦ h hlong id hold hdropped hunicast hother
    · refine iff_of_true ?_ fun h ↦ absurd h hlong
      intro id hunicast hother hoff
      have hkept := prefix_helloRing table.nodeId (Nat.lt_of_not_le hlong)
      change id ∈ table.routes ↔ id ∈ table.neighbors
      rw [hexact.mem_routes_iff hunicast hother]
      exact or_iff_right fun hold ↦ hoff (hkept.subset hold)
  · have hshort := Nat.lt_of_not_le hlength
    rw [routesExact_recompute_of_lt hshort]
    refine iff_of_true ?_ ?_
    · intro id hmem _ _ hother
      exact absurd (two_le_length_of_mem hmem hself hother) hlength
    · intro hlong id hold _ hunicast hother
      have hpath : path.length < 2 := by
        rw [hring, helloRing_of_le hlong] at hshort
        exact lt_of_le_of_lt (prefix_appendNew path table.nodeId).length_le hshort
      rw [← hrecomputed.routes_eq (lt_of_le_of_lt hlong hpath)]
      exact (hexact.mem_routes_iff hunicast hother).mpr (Or.inl hold)

/-- One operation keeps the routes exact exactly when it leaves every dropped member covered. -/
theorem routesExact_apply_iff {nodeId : ℤ} {table : RoutingTable} {op : Op}
    (hrecomputed : Recomputed nodeId table) (hadds : op.AddsOthers nodeId)
    (hexact : table.RoutesExact) : (table.apply op).RoutesExact ↔ table.RoutesCovered op := by
  cases op with
  | add neighborId port =>
      rw [← hrecomputed.nodeId_eq] at hadds
      exact iff_of_true (routesExact_add hadds hexact) trivial
  | remove neighborId => exact routesExact_remove_iff hrecomputed hexact
  | hello path => exact routesExact_hello_iff hrecomputed hexact

/-- **No stale and no missing routes.** From a fresh table the destinations with a next hop are the
ring members and neighbours in every state of a run exactly when every operation of the run covers
the members that it drops or strands. -/
theorem routesExact_run_iff (nodeId : ℤ) (ops : List Op)
    (hadds : ∀ op ∈ ops, op.AddsOthers nodeId) :
    Run.Always apply RoutesExact (fresh nodeId) ops ↔
      Run.Each apply RoutesCovered (fresh nodeId) ops := by
  have hstart : (fresh nodeId).RoutesExact := by
    intro id hunicast _
    rw [getNextHop_ne_none_iff hunicast]
    simp [fresh]
  exact Run.always_iff_each (Op.AddsOthers nodeId)
    (fun _ op hrecomputed _ ↦ recomputed_apply op hrecomputed.nodeId_eq)
    (fun _ _ hrecomputed hop hexact ↦ routesExact_apply_iff hrecomputed hop hexact)
    (recomputed_fresh nodeId) hstart hadds

theorem routesExact_run_iff_three :
    Run.Always apply RoutesExact (fresh 1) [.add 2 .host, .hello [1, 2, 3], .remove 3] ↔
      Run.Each apply RoutesCovered (fresh 1) [.add 2 .host, .hello [1, 2, 3], .remove 3] :=
  routesExact_run_iff 1 [.add 2 .host, .hello [1, 2, 3], .remove 3] (by simp [Op.AddsOthers])

/-- A second HELLO of the same length names other nodes. -/
def renamedHello : List Op :=
  [.hello [1, 2, 3], .hello [1, 4, 5]]

/-- Node 2 is neither on the ring nor a neighbour any more, but still has a next hop. -/
theorem not_routesExact_renamedHello :
    (∀ op ∈ renamedHello, op.AddsOthers 1) ∧
      ¬ (renamedHello.foldl apply (fresh 1)).RoutesExact := by
  refine ⟨by simp [renamedHello, Op.AddsOthers], ?_⟩
  intro hexact
  have hhop : (renamedHello.foldl apply (fresh 1)).getNextHop 2 = some .host := by decide
  have hring : (renamedHello.foldl apply (fresh 1)).ring = [1, 4, 5] := by decide
  have hneighbors : (renamedHello.foldl apply (fresh 1)).neighbors = ∅ := by decide
  have hiff := hexact 2 (by decide) (by decide)
  rw [hhop, hring, hneighbors] at hiff
  have hmember := hiff.mp (by simp)
  exact hmember.elim (by decide) Finmap.notMem_empty

end RoutingTable

end UsbDirectFabric.Routing
