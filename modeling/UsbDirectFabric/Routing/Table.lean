import Mathlib.Data.Finmap
import UsbDirectFabric.Wire.Frame

/-!
# The routing table of `common/routing.py`

`RoutingTable` with its three updating operations, its two queries and `recompute`. Node ids are
arbitrary integers. The two dictionaries are finite maps, equal exactly when Python's dictionaries
compare equal; the ring is a list, as in the source, and may hold repeated ids.
-/

namespace UsbDirectFabric.Routing

open Wire

inductive Port
  | host
  | gadget
deriving DecidableEq, Repr

abbrev PortMap := Finmap fun _ : ℤ ↦ Port

structure RoutingTable where
  nodeId : ℤ
  neighbors : PortMap
  ring : List ℤ
  routes : PortMap
deriving DecidableEq

namespace RoutingTable

def fresh (nodeId : ℤ) : RoutingTable where
  nodeId := nodeId
  neighbors := ∅
  ring := []
  routes := ∅

/-- `if id not in ring: ring.append(id)`. -/
def appendNew (ring : List ℤ) (id : ℤ) : List ℤ :=
  if id ∈ ring then ring else ring ++ [id]

/-- The port of the shorter direction from index `myIdx` to index `i` of a ring of `n` entries;
`host` is clockwise and wins ties. -/
def ringPort (n myIdx i : ℕ) : Port :=
  let cwDist := ((i : ℤ) - myIdx) % n
  let ccwDist := ((myIdx : ℤ) - i) % n
  if cwDist ≤ ccwDist then .host else .gadget

/-- One iteration of the loop `for i, nid in enumerate(ring)`. -/
def assignRoute (nodeId : ℤ) (n myIdx : ℕ) (routes : PortMap) (entry : ℤ × ℕ) : PortMap :=
  if entry.1 = nodeId then routes else routes.insert entry.1 (ringPort n myIdx entry.2)

/-- `recompute`: rebuild the routes, from the ring when it has two entries, else from the direct
neighbours alone. -/
def recompute (table : RoutingTable) : RoutingTable :=
  if table.ring.length < 2 then { table with routes := table.neighbors }
  else
    let ring := appendNew table.ring table.nodeId
    let myIdx := ring.idxOf table.nodeId
    { table with
      ring
      routes := ring.zipIdx.foldl (assignRoute table.nodeId ring.length myIdx) table.routes }

def addNeighbor (table : RoutingTable) (neighborId : ℤ) (port : Port) : RoutingTable :=
  recompute { table with
    neighbors := table.neighbors.insert neighborId port
    routes := table.routes.insert neighborId port
    ring := appendNew (appendNew table.ring neighborId) table.nodeId }

def removeNeighbor (table : RoutingTable) (neighborId : ℤ) : RoutingTable :=
  recompute { table with
    neighbors := table.neighbors.erase neighborId
    routes := table.routes.erase neighborId
    ring := table.ring.filter (· ≠ neighborId) }

/-- The ring that `update_from_hello` leaves: a path that is long enough is adopted wholesale, of a
shorter one only the new nodes are appended. The set `seen` of the source holds the members of the
ring being extended. -/
def helloRing (nodeId : ℤ) (ring helloPath : List ℤ) : List ℤ :=
  let learned :=
    if helloPath.length ≥ ring.length then helloPath else helloPath.foldl appendNew ring
  appendNew learned nodeId

def updateFromHello (table : RoutingTable) (helloPath : List ℤ) : RoutingTable :=
  recompute { table with ring := helloRing table.nodeId table.ring helloPath }

/-- `get_next_hop`: broadcast has no single next hop. -/
def getNextHop (table : RoutingTable) (dst : ℤ) : Option Port :=
  if dst = broadcast then none else table.routes.lookup dst

/-- `get_all_ports`, as the set that the source turns into a list. -/
def getAllPorts (table : RoutingTable) : Finset Port :=
  (table.neighbors.entries.map Sigma.snd).toFinset

@[simp]
theorem mem_getAllPorts {table : RoutingTable} {port : Port} :
    port ∈ table.getAllPorts ↔ ∃ id, table.neighbors.lookup id = some port := by
  simp only [getAllPorts, Multiset.mem_toFinset, Multiset.mem_map, Sigma.exists]
  constructor
  · rintro ⟨id, other, hentry, rfl⟩
    exact ⟨id, Finmap.lookup_eq_some_iff.mpr hentry⟩
  · rintro ⟨id, hlookup⟩
    exact ⟨id, port, Finmap.lookup_eq_some_iff.mp hlookup, rfl⟩

@[simp]
theorem mem_appendNew {ring : List ℤ} {id member : ℤ} :
    member ∈ appendNew ring id ↔ member ∈ ring ∨ member = id := by
  unfold appendNew
  split
  · rename_i hmem
    constructor
    · exact Or.inl
    · rintro (h | rfl)
      · exact h
      · exact hmem
  · simp

theorem appendNew_of_mem {ring : List ℤ} {id : ℤ} (hmem : id ∈ ring) : appendNew ring id = ring :=
  if_pos hmem

/-! ## What the loop of `recompute` assigns -/

/-- The last position of an id on the ring, the one whose assignment survives the loop. -/
def lastIdx (ring : List ℤ) (id : ℤ) : ℕ :=
  ring.length - 1 - ring.reverse.idxOf id

theorem lastIdx_append (ring : List ℤ) (last id : ℤ) (hmem : id ∈ ring ++ [last]) :
    lastIdx (ring ++ [last]) id = if id = last then ring.length else lastIdx ring id := by
  unfold lastIdx
  rw [List.reverse_append, List.reverse_singleton, List.singleton_append, List.idxOf_cons,
    List.length_append, List.length_singleton]
  by_cases hlast : id = last
  · simp [hlast]
  · have hbeq : (last == id) = false := by
      rw [beq_eq_false_iff_ne]
      exact fun h ↦ hlast h.symm
    rw [hbeq, if_neg hlast]
    have hring : id ∈ ring.reverse := by simpa [hlast] using hmem
    have hindex := List.idxOf_lt_length_of_mem hring
    rw [List.length_reverse] at hindex
    simp only [cond_false]
    omega

/-- After the loop the last occurrence of an id decides its route, and other ids keep theirs. -/
theorem lookup_foldl_assignRoute (nodeId : ℤ) (n myIdx : ℕ) (ring : List ℤ) (routes : PortMap)
    (id : ℤ) :
    (ring.zipIdx.foldl (assignRoute nodeId n myIdx) routes).lookup id =
      if id ∈ ring ∧ id ≠ nodeId then some (ringPort n myIdx (lastIdx ring id))
      else routes.lookup id := by
  induction ring using List.reverseRecOn with
  | nil => simp
  | append_singleton ring last ih =>
      rw [List.zipIdx_append, List.foldl_append]
      simp only [List.zipIdx_singleton, List.foldl_cons, List.foldl_nil, assignRoute, zero_add]
      by_cases hself : last = nodeId
      · rw [if_pos hself, ih]
        by_cases hid : id = nodeId
        · simp [hid]
        · have hlast : id ≠ last := hself ▸ hid
          by_cases hmem : id ∈ ring
          · have hmem' : id ∈ ring ++ [last] := List.mem_append_left _ hmem
            rw [lastIdx_append ring last id hmem', if_neg hlast]
            simp [hmem, hid]
          · simp [hmem, hlast]
      · rw [if_neg hself]
        by_cases hlast : id = last
        · subst hlast
          have hmem : id ∈ ring ++ [id] := List.mem_append_right _ (List.mem_singleton.mpr rfl)
          rw [Finmap.lookup_insert, lastIdx_append ring id id hmem, if_pos rfl,
            if_pos ⟨hmem, hself⟩]
        · rw [Finmap.lookup_insert_of_ne _ hlast, ih]
          by_cases hmem : id ∈ ring
          · have hmem' : id ∈ ring ++ [last] := List.mem_append_left _ hmem
            rw [lastIdx_append ring last id hmem', if_neg hlast]
            simp [hmem]
          · simp [hmem, hlast]

@[simp]
theorem nodeId_recompute (table : RoutingTable) : table.recompute.nodeId = table.nodeId := by
  unfold recompute
  split <;> rfl

@[simp]
theorem neighbors_recompute (table : RoutingTable) :
    table.recompute.neighbors = table.neighbors := by
  unfold recompute
  split <;> rfl

/-- `recompute` leaves a ring that holds the node itself as it is. -/
theorem ring_recompute_of_mem {table : RoutingTable} (hself : table.nodeId ∈ table.ring) :
    table.recompute.ring = table.ring := by
  unfold recompute
  split
  · rfl
  · exact appendNew_of_mem hself

/-- The direction of a ring member, from the first position of the node itself. -/
def ringSide (nodeId : ℤ) (ring : List ℤ) (id : ℤ) : Port :=
  ringPort ring.length (ring.idxOf nodeId) (lastIdx ring id)

/-- The routes of a ring of at least two entries. -/
theorem lookup_routes_recompute {table : RoutingTable} (hlength : 2 ≤ table.ring.length) (id : ℤ) :
    table.recompute.routes.lookup id =
      if id ∈ table.ring ∧ id ≠ table.nodeId then
        some (ringSide table.nodeId (appendNew table.ring table.nodeId) id)
      else table.routes.lookup id := by
  have hmem : id ∈ appendNew table.ring table.nodeId ∧ id ≠ table.nodeId ↔
      id ∈ table.ring ∧ id ≠ table.nodeId := by
    rw [mem_appendNew]
    tauto
  unfold recompute
  rw [if_neg (Nat.not_lt.mpr hlength)]
  simp only [lookup_foldl_assignRoute, hmem]
  rfl

/-- A ring of fewer than two entries routes to the direct neighbours alone. -/
theorem routes_recompute_of_lt {table : RoutingTable} (hlength : table.ring.length < 2) :
    table.recompute.routes = table.neighbors := by
  unfold recompute
  rw [if_pos hlength]

example : ((((fresh 2).addNeighbor 1 .gadget).addNeighbor 3 .host).updateFromHello
    [1, 2, 3, 4]).getNextHop 4 = some .host := by
  decide

end RoutingTable

end UsbDirectFabric.Routing
