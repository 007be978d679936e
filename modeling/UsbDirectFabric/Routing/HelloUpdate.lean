import UsbDirectFabric.Routing.Membership

/-!
# What a HELLO does to the ring

A path with at least as many entries as the ring replaces it, a shorter one only adds to it. The
choice looks at lengths alone, so a path of other nodes drops members, registered neighbours among
them. Receiving the same path again changes nothing: what it names is on the ring by then.
-/

namespace UsbDirectFabric.Routing

open Wire

namespace RoutingTable

attribute [ext] RoutingTable

theorem mem_foldl_appendNew {ring path : List ℤ} {id : ℤ} :
    id ∈ path.foldl appendNew ring ↔ id ∈ ring ∨ id ∈ path := by
  induction path generalizing ring with
  | nil => simp
  | cons first path ih => rw [List.foldl_cons, ih, mem_appendNew, List.mem_cons, or_assoc]

/-- A path that brings no new id leaves the ring as it is. -/
theorem foldl_appendNew_of_subset {ring path : List ℤ} (hknown : ∀ id ∈ path, id ∈ ring) :
    path.foldl appendNew ring = ring := by
  induction path with
  | nil => rfl
  | cons first path ih =>
      rw [List.foldl_cons, appendNew_of_mem (hknown first List.mem_cons_self)]
      exact ih fun id hid ↦ hknown id (List.mem_cons_of_mem first hid)

theorem helloRing_of_lt {nodeId : ℤ} {ring path : List ℤ} (hshort : path.length < ring.length) :
    helloRing nodeId ring path = appendNew (path.foldl appendNew ring) nodeId := by
  unfold helloRing
  rw [if_neg (Nat.not_le.mpr hshort)]

theorem mem_helloRing_of_lt {nodeId : ℤ} {ring path : List ℤ} (hshort : path.length < ring.length)
    {id : ℤ} : id ∈ helloRing nodeId ring path ↔ id ∈ ring ∨ id ∈ path ∨ id = nodeId := by
  rw [helloRing_of_lt hshort, mem_appendNew, mem_foldl_appendNew, or_assoc]

theorem mem_helloRing_of_mem_path {nodeId : ℤ} {ring path : List ℤ} {id : ℤ} (hid : id ∈ path) :
    id ∈ helloRing nodeId ring path := by
  by_cases hlong : ring.length ≤ path.length
  · rw [helloRing_of_le hlong, mem_appendNew]
    exact .inl hid
  · exact (mem_helloRing_of_lt (Nat.lt_of_not_le hlong)).mpr (.inr (.inl hid))

/-- Every member after a HELLO was one before, or is named by the path, or is the node itself. -/
theorem mem_of_mem_helloRing {nodeId : ℤ} {ring path : List ℤ} {id : ℤ}
    (hid : id ∈ helloRing nodeId ring path) : id ∈ ring ∨ id ∈ path ∨ id = nodeId := by
  by_cases hlong : ring.length ≤ path.length
  · rw [helloRing_of_le hlong, mem_appendNew] at hid
    exact .inr hid
  · exact (mem_helloRing_of_lt (Nat.lt_of_not_le hlong)).mp hid

/-- A shorter path that names only members, on a ring with the node itself, changes nothing. -/
theorem helloRing_eq_of_subset {nodeId : ℤ} {ring path : List ℤ} (hself : nodeId ∈ ring)
    (hshort : path.length < ring.length) (hknown : ∀ id ∈ path, id ∈ ring) :
    helloRing nodeId ring path = ring := by
  rw [helloRing_of_lt hshort, foldl_appendNew_of_subset hknown, appendNew_of_mem hself]

/-! ## The same HELLO again -/

/-- The second time the path either is the ring already or is shorter and brings nothing new. -/
theorem helloRing_helloRing (nodeId : ℤ) (ring path : List ℤ) :
    helloRing nodeId (helloRing nodeId ring path) path = helloRing nodeId ring path := by
  by_cases hshort : path.length < (helloRing nodeId ring path).length
  · exact helloRing_eq_of_subset (self_mem_helloRing nodeId ring path) hshort
      fun _ ↦ mem_helloRing_of_mem_path
  · have hlong : ring.length ≤ path.length := by
      by_contra hmerged
      have hprefix := prefix_helloRing nodeId (Nat.lt_of_not_le hmerged)
      exact hshort (lt_of_lt_of_le (Nat.lt_of_not_le hmerged) hprefix.length_le)
    have hadopted : helloRing nodeId ring path = path := by
      rw [helloRing_of_le hlong] at hshort ⊢
      exact ((prefix_appendNew path nodeId).eq_of_length_le (Nat.le_of_not_lt hshort)).symm
    rw [hadopted, helloRing_of_le le_rfl, ← helloRing_of_le hlong, hadopted]

/-- The loop of `recompute` assigns the same routes again. -/
theorem recompute_recompute (table : RoutingTable) :
    table.recompute.recompute = table.recompute := by
  by_cases hlength : table.ring.length < 2
  · have hrecompute : table.recompute = { table with routes := table.neighbors } := by
      unfold recompute
      rw [if_pos hlength]
    rw [hrecompute]
    unfold recompute
    rw [if_pos hlength]
  have hlong := Nat.le_of_not_lt hlength
  have hring : table.recompute.ring = appendNew table.ring table.nodeId := by
    unfold recompute
    rw [if_neg hlength]
  have hself : table.nodeId ∈ table.recompute.ring := by simp [hring]
  have hagain : 2 ≤ table.recompute.ring.length := by
    rw [hring]
    exact hlong.trans (prefix_appendNew _ _).length_le
  apply RoutingTable.ext
  · rw [nodeId_recompute]
  · rw [neighbors_recompute]
  · rw [ring_recompute_of_mem (by rwa [nodeId_recompute])]
  · apply Finmap.ext_lookup
    intro id
    rw [lookup_routes_recompute hagain, nodeId_recompute, appendNew_of_mem hself]
    split
    · rename_i hmember
      rw [hring, mem_appendNew] at hmember
      have hold : id ∈ table.ring := hmember.1.resolve_right hmember.2
      rw [lookup_routes_recompute hlong, if_pos ⟨hold, hmember.2⟩, hring]
    · rfl

/-- Receiving a HELLO again changes nothing. -/
theorem updateFromHello_updateFromHello (table : RoutingTable) (path : List ℤ) :
    (table.updateFromHello path).updateFromHello path = table.updateFromHello path := by
  have hring :
      helloRing (table.updateFromHello path).nodeId (table.updateFromHello path).ring path =
        (table.updateFromHello path).ring := by
    rw [updateFromHello, nodeId_recompute, ← updateFromHello, ring_updateFromHello,
      helloRing_helloRing]
  calc
    (table.updateFromHello path).updateFromHello path =
        (table.updateFromHello path).recompute := by
      rw [updateFromHello, hring]
    _ = table.updateFromHello path := recompute_recompute _

/-- **Re-received HELLOs.** In every state, the same HELLO a second time changes nothing, and on a
ring with the node itself neither does a shorter one that names only members. -/
theorem updateFromHello_rereceived (table : RoutingTable) (path : List ℤ) :
    (table.updateFromHello path).updateFromHello path = table.updateFromHello path ∧
      (table.nodeId ∈ table.ring → path.length < table.ring.length →
        (∀ id ∈ path, id ∈ table.ring) →
        (table.updateFromHello path).ring = table.ring ∧
          (table.updateFromHello path).neighbors = table.neighbors) := by
  refine ⟨updateFromHello_updateFromHello table path, ?_⟩
  intro hself hshort hknown
  refine ⟨?_, neighbors_recompute _⟩
  rw [ring_updateFromHello, helloRing_eq_of_subset hself hshort hknown]

def middleTable : RoutingTable :=
  ((fresh 2).addNeighbor 1 .gadget).addNeighbor 3 .host

theorem updateFromHello_rereceived_middle :
    (middleTable.updateFromHello [3, 1]).updateFromHello [3, 1] =
        middleTable.updateFromHello [3, 1] ∧
      (middleTable.updateFromHello [3, 1]).ring = middleTable.ring ∧
      (middleTable.updateFromHello [3, 1]).neighbors = middleTable.neighbors :=
  ⟨(updateFromHello_rereceived middleTable [3, 1]).1,
    (updateFromHello_rereceived middleTable [3, 1]).2 (by decide) (by decide) (by decide)⟩

/-! ## Members that a HELLO forgets -/

/-- A HELLO adds the nodes of its path and the node itself to the members, takes none away, and
leaves every registered neighbour among them. -/
def Remembers (table : RoutingTable) : Op → Prop
  | .add _ _ | .remove _ => True
  | .hello path =>
      (table.updateFromHello path).getRingMembers.toFinset =
          table.getRingMembers.toFinset ∪ path.toFinset ∪ {table.nodeId} ∧
        ∀ id ∈ table.neighbors, id ∈ (table.updateFromHello path).getRingMembers

/-- A HELLO path is shorter than the ring, or it names all members besides the node itself. -/
def NamesMembers (table : RoutingTable) : Op → Prop
  | .add _ _ | .remove _ => True
  | .hello path =>
      path.length < table.ring.length ∨ ∀ id ∈ table.ring, id ∈ path ∨ id = table.nodeId

/-- The members after a HELLO are all the known ones exactly if a path that replaces the ring names
them. -/
theorem toFinset_updateFromHello_iff (table : RoutingTable) (path : List ℤ) :
    (table.updateFromHello path).getRingMembers.toFinset =
        table.getRingMembers.toFinset ∪ path.toFinset ∪ {table.nodeId} ↔
      table.NamesMembers (.hello path) := by
  have hmembers : (table.updateFromHello path).getRingMembers.toFinset =
        table.getRingMembers.toFinset ∪ path.toFinset ∪ {table.nodeId} ↔
      ∀ id, id ∈ helloRing table.nodeId table.ring path ↔
        (id ∈ table.ring ∨ id ∈ path) ∨ id = table.nodeId := by
    simp only [Finset.ext_iff, getRingMembers, ring_updateFromHello, List.mem_toFinset,
      Finset.mem_union, Finset.mem_singleton]
  rw [hmembers]
  by_cases hshort : path.length < table.ring.length
  · refine iff_of_true ?_ (.inl hshort)
    intro id
    rw [mem_helloRing_of_lt hshort, or_assoc]
  · rw [NamesMembers, or_iff_right hshort, helloRing_of_le (Nat.le_of_not_lt hshort)]
    constructor
    · intro hall id hid
      exact mem_appendNew.mp ((hall id).mpr (.inl (.inl hid)))
    · intro hnamed id
      rw [mem_appendNew, or_assoc]
      exact ⟨.inr, fun hid ↦ hid.elim (hnamed id) fun hnew ↦ hnew⟩

def NeighborsOnRing (table : RoutingTable) : Prop :=
  ∀ id ∈ table.neighbors, id ∈ table.ring

/-- `recompute` takes no member off the ring. -/
theorem neighborsOnRing_recompute {table : RoutingTable} (hring : table.NeighborsOnRing) :
    table.recompute.NeighborsOnRing := by
  intro id hid
  rw [neighbors_recompute] at hid
  have hmember := hring id hid
  unfold recompute
  split
  · exact hmember
  · exact mem_appendNew.mpr (.inl hmember)

/-- Only a HELLO that forgets members takes a neighbour off the ring. -/
theorem neighborsOnRing_apply {table : RoutingTable} {op : Op} (hring : table.NeighborsOnRing)
    (hnames : table.NamesMembers op) : (table.apply op).NeighborsOnRing := by
  rw [apply_eq]
  apply neighborsOnRing_recompute
  intro id hid
  cases op with
  | add neighborId port =>
      simp only [edit, Finmap.mem_insert] at hid
      simp only [edit, mem_appendNew]
      rcases hid with hnew | hold
      · exact .inl (.inr hnew)
      · exact .inl (.inl (hring id hold))
  | remove neighborId =>
      obtain ⟨hkept, hold⟩ := Finmap.mem_erase.mp hid
      simp [edit, hring id hold, hkept]
  | hello path =>
      have hmember := hring id hid
      have hafter := (toFinset_updateFromHello_iff table path).mpr hnames
      have hmem : id ∈ (table.updateFromHello path).getRingMembers.toFinset := by
        rw [hafter]
        simp [getRingMembers, hmember]
      rwa [List.mem_toFinset, getRingMembers, ring_updateFromHello] at hmem

theorem remembers_iff {table : RoutingTable} {op : Op} (hring : table.NeighborsOnRing) :
    table.Remembers op ↔ table.NamesMembers op := by
  cases op with
  | add neighborId port => exact Iff.rfl
  | remove neighborId => exact Iff.rfl
  | hello path =>
      rw [Remembers, toFinset_updateFromHello_iff]
      refine and_iff_left_of_imp fun hnames id hid ↦ ?_
      have hafter : (table.apply (.hello path)).NeighborsOnRing :=
        neighborsOnRing_apply hring hnames
      exact hafter id (by rwa [apply_eq, neighbors_recompute])

/-- **No forgotten members.** In a run from a fresh table no HELLO forgets a member or takes a
registered neighbour off the ring, exactly when each HELLO path is shorter than the ring that it
meets or names all of its members besides the node itself. -/
theorem remembers_run_iff (nodeId : ℤ) (ops : List Op) :
    Run.Each apply Remembers (fresh nodeId) ops ↔
      Run.Each apply NamesMembers (fresh nodeId) ops := by
  have hstart : (fresh nodeId).NeighborsOnRing := fun id hid ↦ absurd hid Finmap.notMem_empty
  exact Run.each_iff_each (fun _ _ hring hnames ↦ neighborsOnRing_apply hring hnames)
    (fun _ _ hring ↦ remembers_iff hring) hstart

/-- Node 1 has registered nodes 2 and 3 when a HELLO of the same length with the nodes 4, 5, 6
arrives. -/
def strangersHello : List Op :=
  [.add 2 .host, .add 3 .gadget, .hello [4, 5, 6]]

theorem not_remembers_strangersHello :
    ¬ Run.Each apply Remembers (fresh 1) strangersHello := by
  rintro ⟨-, -, ⟨hmembers, -⟩, -⟩
  revert hmembers
  decide

end RoutingTable

end UsbDirectFabric.Routing
