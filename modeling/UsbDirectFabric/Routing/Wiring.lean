import UsbDirectFabric.Foundation.Run
import UsbDirectFabric.Routing.Table

/-!
# Routes and cables over whole runs

Every operation of a routing table edits the neighbours, the routes and the ring and then calls
`recompute`, which overwrites the route of every ring member from ring positions alone. Two
properties relate the routes to the cables: a direct neighbour is reached over its own cable, and no
route leads into a port without a neighbour. Neither is an invariant. For each the distances and
neighbours are given under which one operation keeps it, in terms of the table before, and a run
keeps it throughout exactly when every operation of the run meets that condition.
-/

namespace UsbDirectFabric.Routing

open Wire

namespace RoutingTable

inductive Op
  | add (neighborId : ℤ) (port : Port)
  | remove (neighborId : ℤ)
  | hello (helloPath : List ℤ)

/-- What the operation writes before it calls `recompute`. -/
def edit (table : RoutingTable) : Op → RoutingTable
  | .add neighborId port =>
      { table with
        neighbors := table.neighbors.insert neighborId port
        routes := table.routes.insert neighborId port
        ring := appendNew (appendNew table.ring neighborId) table.nodeId }
  | .remove neighborId =>
      { table with
        neighbors := table.neighbors.erase neighborId
        routes := table.routes.erase neighborId
        ring := table.ring.filter (· ≠ neighborId) }
  | .hello helloPath =>
      { table with ring := helloRing table.nodeId table.ring helloPath }

def apply (table : RoutingTable) : Op → RoutingTable
  | .add neighborId port => table.addNeighbor neighborId port
  | .remove neighborId => table.removeNeighbor neighborId
  | .hello helloPath => table.updateFromHello helloPath

theorem apply_eq (table : RoutingTable) (op : Op) :
    table.apply op = (table.edit op).recompute := by
  cases op <;> rfl

/-- Neighbours are registered under unicast ids of other nodes. -/
def Op.Valid (nodeId : ℤ) : Op → Prop
  | .add neighborId _ => 1 ≤ neighborId ∧ neighborId ≤ 254 ∧ neighborId ≠ nodeId
  | .remove _ => True
  | .hello _ => True

/-- Registered neighbours carry unicast ids of other nodes, and no route leads to the node
itself. -/
structure Sound (nodeId : ℤ) (table : RoutingTable) : Prop where
  nodeId_eq : table.nodeId = nodeId
  neighbor_valid : ∀ id port, table.neighbors.lookup id = some port →
    id ≠ broadcast ∧ id ≠ nodeId
  no_self_route : table.routes.lookup nodeId = none

theorem sound_fresh (nodeId : ℤ) : Sound nodeId (fresh nodeId) where
  nodeId_eq := rfl
  neighbor_valid id port h := by
    rw [fresh, Finmap.lookup_empty] at h
    cases h
  no_self_route := Finmap.lookup_empty _

theorem lookup_erase_eq_some {routes : PortMap} {removed id : ℤ} {port : Port}
    (h : (routes.erase removed).lookup id = some port) :
    id ≠ removed ∧ routes.lookup id = some port := by
  by_cases hid : id = removed
  · rw [hid, Finmap.lookup_erase] at h
    cases h
  · rw [Finmap.lookup_erase_ne hid] at h
    exact ⟨hid, h⟩

theorem sound_edit {nodeId : ℤ} {table : RoutingTable} {op : Op} (hsound : Sound nodeId table)
    (hvalid : op.Valid nodeId) : Sound nodeId (table.edit op) := by
  cases op with
  | add neighborId port =>
      rcases hvalid with ⟨hlow, hhigh, hother⟩
      refine ⟨hsound.nodeId_eq, ?_, ?_⟩
      · intro id found h
        change (table.neighbors.insert neighborId port).lookup id = some found at h
        by_cases hid : id = neighborId
        · subst hid
          refine ⟨?_, hother⟩
          unfold broadcast
          omega
        · rw [Finmap.lookup_insert_of_ne _ hid] at h
          exact hsound.neighbor_valid id found h
      · change (table.routes.insert neighborId port).lookup nodeId = none
        rw [Finmap.lookup_insert_of_ne _ (Ne.symm hother)]
        exact hsound.no_self_route
  | remove neighborId =>
      refine ⟨hsound.nodeId_eq, ?_, ?_⟩
      · intro id found h
        exact hsound.neighbor_valid id found (lookup_erase_eq_some h).2
      · by_contra hroute
        rcases Option.ne_none_iff_exists'.mp hroute with ⟨port, hport⟩
        have h := (lookup_erase_eq_some hport).2
        rw [hsound.no_self_route] at h
        cases h
  | hello helloPath => exact ⟨hsound.nodeId_eq, hsound.neighbor_valid, hsound.no_self_route⟩

theorem sound_recompute {nodeId : ℤ} {table : RoutingTable} (hsound : Sound nodeId table) :
    Sound nodeId table.recompute := by
  refine ⟨by rw [nodeId_recompute, hsound.nodeId_eq], ?_, ?_⟩
  · rw [neighbors_recompute]
    exact hsound.neighbor_valid
  · by_cases hlength : table.ring.length < 2
    · rw [routes_recompute_of_lt hlength]
      by_contra hroute
      rcases Option.ne_none_iff_exists'.mp hroute with ⟨port, hport⟩
      exact (hsound.neighbor_valid nodeId port hport).2 rfl
    · rw [lookup_routes_recompute (Nat.le_of_not_lt hlength), if_neg (by simp [hsound.nodeId_eq])]
      exact hsound.no_self_route

theorem sound_apply {nodeId : ℤ} {table : RoutingTable} {op : Op} (hsound : Sound nodeId table)
    (hvalid : op.Valid nodeId) : Sound nodeId (table.apply op) := by
  rw [apply_eq]
  exact sound_recompute (sound_edit hsound hvalid)

/-! ## Distances on the ring of an operation -/

/-- A ring and after it the entries of `ids` that are not on it, each once. -/
def extended (ring ids : List ℤ) : List ℤ :=
  ring ++ (ids.filter (· ∉ ring)).eraseDups

/-- The ring on which distances are measured after an operation, in terms of the ring before it. -/
def measured (table : RoutingTable) : Op → List ℤ
  | .add neighborId _ => extended table.ring [neighborId, table.nodeId]
  | .remove neighborId => extended (table.ring.filter (· ≠ neighborId)) [table.nodeId]
  | .hello path =>
      if table.ring.length ≤ path.length then extended path [table.nodeId]
      else extended table.ring (path ++ [table.nodeId])

/-- How far the last entry of `id` lies clockwise of the first entry of `self`. -/
def clockwise (self : ℤ) (ring : List ℤ) (id : ℤ) : ℕ :=
  (lastIdx ring id + ring.length - ring.idxOf self) % ring.length

/-- `id` lies in the half of the ring that a port serves: at most half-way round clockwise for
`host`, farther for `gadget`. -/
def Faces (self : ℤ) (ring : List ℤ) (id : ℤ) : Port → Prop
  | .host => 2 * clockwise self ring id ≤ ring.length
  | .gadget => ring.length < 2 * clockwise self ring id

theorem nodeId_edit (table : RoutingTable) (op : Op) : (table.edit op).nodeId = table.nodeId := by
  cases op <;> rfl

theorem foldl_appendNew (ring ids : List ℤ) : ids.foldl appendNew ring = extended ring ids := by
  induction ids generalizing ring with
  | nil => simp [extended]
  | cons id ids ih =>
      rw [List.foldl_cons, ih, appendNew]
      split
      · rename_i hmem
        simp [extended, hmem]
      · rename_i hnew
        have hlater : (ids.filter (· ∉ ring)).filter (fun other ↦ !(other == id)) =
            ids.filter (· ∉ ring ++ [id]) := by
          rw [List.filter_filter]
          refine List.filter_congr fun other _ ↦ ?_
          by_cases hid : other = id
          · simp [hid]
          · simp [hid]
        rw [extended, extended, List.filter_cons_of_pos (by simpa using hnew),
          List.eraseDups_cons, hlater, List.append_assoc, List.singleton_append]

theorem appendNew_edit (table : RoutingTable) (op : Op) :
    appendNew (table.edit op).ring table.nodeId = table.measured op := by
  cases op with
  | add neighborId port =>
      rw [measured, ← foldl_appendNew]
      exact appendNew_of_mem (by simp [edit])
  | remove neighborId => exact foldl_appendNew _ [table.nodeId]
  | hello path =>
      have hself : table.nodeId ∈ (table.edit (.hello path)).ring := by simp [edit, helloRing]
      rw [appendNew_of_mem hself]
      unfold edit helloRing measured
      dsimp only
      split
      · exact foldl_appendNew path [table.nodeId]
      · rw [← foldl_appendNew, List.foldl_append]
        rfl

/-- Another node is on the ring of an operation exactly if distances are measured to it. -/
theorem mem_measured {table : RoutingTable} {op : Op} {id : ℤ} (hother : id ≠ table.nodeId) :
    id ∈ table.measured op ↔ id ∈ (table.edit op).ring := by
  rw [← appendNew_edit, mem_appendNew, or_iff_left hother]

theorem emod_sub (first second n : ℕ) (hsecond : second ≤ n) :
    ((first : ℤ) - second) % n = ((first + n - second) % n : ℕ) := by
  have hcast : ((first + n - second : ℕ) : ℤ) = first - second + n := by
    push_cast [Nat.cast_sub (Nat.le_add_left_of_le hsecond)]
    ring
  rw [Int.natCast_mod, hcast, Int.add_emod_right]

/-- Clockwise is the shorter way, or as short, if it leads at most half-way round. -/
theorem mod_le_mod_iff {here there n : ℕ} (hhere : here < n) (hthere : there < n) :
    (there + n - here) % n ≤ (here + n - there) % n ↔ 2 * ((there + n - here) % n) ≤ n := by
  rcases Nat.lt_trichotomy here there with hlt | rfl | hlt
  · have hforth : there + n - here = there - here + n := by omega
    rw [hforth, Nat.add_mod_right, Nat.mod_eq_of_lt (show there - here < n by omega),
      Nat.mod_eq_of_lt (show here + n - there < n by omega)]
    omega
  · simp
  · have hback : here + n - there = here - there + n := by omega
    rw [hback, Nat.add_mod_right, Nat.mod_eq_of_lt (show here - there < n by omega),
      Nat.mod_eq_of_lt (show there + n - here < n by omega)]
    omega

/-- The port that `recompute` picks for a member serves the half in which the member lies. -/
theorem ringSide_eq_iff {self : ℤ} {ring : List ℤ} {id : ℤ} {port : Port} (hself : self ∈ ring) :
    ringSide self ring id = port ↔ Faces self ring id port := by
  have hhere := List.idxOf_lt_length_of_mem hself
  have hthere : lastIdx ring id < ring.length := by
    unfold lastIdx
    omega
  have hsides : ((lastIdx ring id : ℤ) - ring.idxOf self) % ring.length ≤
      ((ring.idxOf self : ℤ) - lastIdx ring id) % ring.length ↔
        2 * clockwise self ring id ≤ ring.length := by
    rw [emod_sub _ _ _ hhere.le, emod_sub _ _ _ hthere.le, Nat.cast_le,
      mod_le_mod_iff hhere hthere, clockwise]
  simp only [ringSide, ringPort, hsides]
  cases port with
  | host => simp [Faces]
  | gadget => simp [Faces]

theorem ringSide_edit_iff {table : RoutingTable} {op : Op} {id : ℤ} {port : Port} :
    ringSide table.nodeId (appendNew (table.edit op).ring table.nodeId) id = port ↔
      Faces table.nodeId (table.measured op) id port := by
  rw [ringSide_eq_iff (by simp), appendNew_edit]

theorem two_le_length_of_mem {ring : List ℤ} {first second : ℤ} (hfirst : first ∈ ring)
    (hsecond : second ∈ ring) (hne : first ≠ second) : 2 ≤ ring.length := by
  match ring with
  | [] => cases hfirst
  | [only] =>
      rw [List.mem_singleton] at hfirst hsecond
      exact absurd (hfirst.trans hsecond.symm) hne
  | _ :: _ :: _ => simp

/-! ## Direct neighbours over their own cable -/

/-- Every registered neighbour is reached over the port it was last registered with. -/
def OwnCables (table : RoutingTable) : Prop :=
  ∀ id port, table.neighbors.lookup id = some port → table.getNextHop id = some port

/-- The registered neighbours on a ring lie in the halves that their ports serve, but for those that
`apart` names. -/
def NeighborsFace (table : RoutingTable) (ring : List ℤ) (apart : ℤ → Prop) : Prop :=
  ∀ id port, table.neighbors.lookup id = some port → id ∈ ring → ¬apart id →
    Faces table.nodeId ring id port

/-- A neighbour that is added lies in the half that its port serves, and so do all others that are
on the ring, unless the operation is a removal that leaves fewer than two entries. -/
def SidesAgree (table : RoutingTable) : Op → Prop
  | .add neighborId port =>
      Faces table.nodeId (table.measured (.add neighborId port)) neighborId port ∧
        table.NeighborsFace (table.measured (.add neighborId port)) (· = neighborId)
  | .remove neighborId =>
      2 ≤ (table.ring.filter (· ≠ neighborId)).length →
        table.NeighborsFace (table.measured (.remove neighborId)) fun _ ↦ False
  | .hello path => table.NeighborsFace (table.measured (.hello path)) fun _ ↦ False

/-- Off the ring an operation leaves the routes of direct neighbours as they were. -/
theorem lookup_routes_edit {nodeId : ℤ} {table : RoutingTable} {op : Op} {id : ℤ} {port : Port}
    (hsound : Sound nodeId table) (hown : table.OwnCables)
    (hneighbor : (table.edit op).neighbors.lookup id = some port)
    (hoff : id ∉ (table.edit op).ring) : (table.edit op).routes.lookup id = some port := by
  have hroute {found : Port} (h : table.neighbors.lookup id = some found) :
      table.routes.lookup id = some found := by
    have hhop := hown id found h
    rwa [getNextHop, if_neg (hsound.neighbor_valid id found h).1] at hhop
  cases op with
  | add neighborId other =>
      have hid : id ≠ neighborId := by
        intro hequal
        apply hoff
        simp [edit, hequal]
      change (table.neighbors.insert neighborId other).lookup id = some port at hneighbor
      change (table.routes.insert neighborId other).lookup id = some port
      rw [Finmap.lookup_insert_of_ne _ hid] at hneighbor ⊢
      exact hroute hneighbor
  | remove neighborId =>
      rcases lookup_erase_eq_some hneighbor with ⟨hid, hneighbor⟩
      change (table.routes.erase neighborId).lookup id = some port
      rw [Finmap.lookup_erase_ne hid]
      exact hroute hneighbor
  | hello helloPath => exact hroute hneighbor

/-- After an operation neighbours are on their own cables exactly if the ring is short or the port
that the ring gives to each neighbour on it is its own. -/
theorem ownCables_edit_iff {nodeId : ℤ} {table : RoutingTable} {op : Op}
    (hsound : Sound nodeId table) (hvalid : op.Valid nodeId) (hown : table.OwnCables) :
    (table.apply op).OwnCables ↔ (2 ≤ (table.edit op).ring.length →
      ∀ id port, (table.edit op).neighbors.lookup id = some port → id ∈ table.measured op →
        Faces table.nodeId (table.measured op) id port) := by
  have hedit := sound_edit hsound hvalid
  unfold OwnCables
  rw [apply_eq, neighbors_recompute]
  by_cases hlength : (table.edit op).ring.length < 2
  · refine iff_of_true ?_ fun hlong ↦ absurd hlength (Nat.not_lt.mpr hlong)
    intro id port hneighbor
    rw [getNextHop, if_neg (hedit.neighbor_valid id port hneighbor).1,
      routes_recompute_of_lt hlength]
    exact hneighbor
  · have hlong := Nat.le_of_not_lt hlength
    rw [imp_iff_right hlong]
    refine forall₃_congr fun id port hneighbor ↦ ?_
    obtain ⟨hunicast, hother⟩ := hedit.neighbor_valid id port hneighbor
    rw [← hsound.nodeId_eq] at hother
    rw [getNextHop, if_neg hunicast, lookup_routes_recompute hlong, nodeId_edit,
      mem_measured hother]
    by_cases hmem : id ∈ (table.edit op).ring
    · rw [if_pos ⟨hmem, hother⟩, Option.some.injEq, ringSide_edit_iff, imp_iff_right hmem]
    · rw [if_neg fun hmember ↦ hmem hmember.1]
      exact iff_of_true (lookup_routes_edit hsound hown hneighbor hmem) fun hmember ↦
        absurd hmember hmem

/-- One operation keeps neighbours on their own cables exactly when the sides agree. -/
theorem ownCables_apply_iff {nodeId : ℤ} {table : RoutingTable} {op : Op}
    (hsound : Sound nodeId table) (hvalid : op.Valid nodeId) (hown : table.OwnCables) :
    (table.apply op).OwnCables ↔ table.SidesAgree op := by
  rw [ownCables_edit_iff hsound hvalid hown]
  cases op with
  | add neighborId port =>
      obtain ⟨-, -, hother⟩ := hvalid
      rw [← hsound.nodeId_eq] at hother
      have hring : neighborId ∈ (table.edit (.add neighborId port)).ring := by simp [edit]
      have hlong : 2 ≤ (table.edit (.add neighborId port)).ring.length :=
        two_le_length_of_mem hring (by simp [edit]) hother
      have hnew : (table.edit (.add neighborId port)).neighbors.lookup neighborId = some port :=
        Finmap.lookup_insert _
      have hold {id : ℤ} (hid : id ≠ neighborId) :
          (table.edit (.add neighborId port)).neighbors.lookup id = table.neighbors.lookup id :=
        Finmap.lookup_insert_of_ne _ hid
      rw [imp_iff_right hlong]
      constructor
      · intro hall
        refine ⟨hall neighborId port hnew ((mem_measured hother).mpr hring), ?_⟩
        intro id found hneighbor hmem hid
        exact hall id found ((hold hid).trans hneighbor) hmem
      · rintro ⟨hfaces, hothers⟩ id found hneighbor hmem
        by_cases hid : id = neighborId
        · subst hid
          obtain rfl := Option.some.inj (hnew.symm.trans hneighbor)
          exact hfaces
        · exact hothers id found ((hold hid).symm.trans hneighbor) hmem hid
  | remove neighborId =>
      refine imp_congr_right fun _ ↦ ?_
      constructor
      · intro hall id port hneighbor hmem _
        have hunicast := (hsound.neighbor_valid id port hneighbor).2
        rw [← hsound.nodeId_eq] at hunicast
        have hkept : id ≠ neighborId := by
          have hring := (mem_measured hunicast).mp hmem
          exact of_decide_eq_true (List.mem_filter.mp hring).2
        exact hall id port ((Finmap.lookup_erase_ne hkept).trans hneighbor) hmem
      · intro hall id port hneighbor hmem
        exact hall id port (lookup_erase_eq_some hneighbor).2 hmem not_false
  | hello path =>
      constructor
      · intro hall id port hneighbor hmem _
        have hother := (hsound.neighbor_valid id port hneighbor).2
        rw [← hsound.nodeId_eq] at hother
        have hlong := two_le_length_of_mem ((mem_measured hother).mp hmem)
          (show table.nodeId ∈ (table.edit (.hello path)).ring by simp [edit, helloRing]) hother
        exact hall hlong id port hneighbor hmem
      · intro hall _ id port hneighbor hmem
        exact hall id port hneighbor hmem not_false

/-- **Direct neighbours over their own cable.** From a fresh table a run reaches every registered
neighbour over its own cable in every state exactly when every operation leaves a ring whose halves
agree with the ports of the neighbours on it. -/
theorem ownCables_run_iff (nodeId : ℤ) (ops : List Op) (hvalid : ∀ op ∈ ops, op.Valid nodeId) :
    Run.Always apply OwnCables (fresh nodeId) ops ↔
      Run.Each apply SidesAgree (fresh nodeId) ops := by
  have hstart : OwnCables (fresh nodeId) := by
    intro id port h
    rw [fresh, Finmap.lookup_empty] at h
    cases h
  exact Run.always_iff_each (Op.Valid nodeId) (fun _ _ hsound hop ↦ sound_apply hsound hop)
    (fun _ _ hsound hop hown ↦ ownCables_apply_iff hsound hop hown) (sound_fresh nodeId) hstart
    hvalid

theorem ownCables_run_iff_two :
    Run.Always apply OwnCables (fresh 1) [.add 2 .host, .hello [1, 2, 3]] ↔
      Run.Each apply SidesAgree (fresh 1) [.add 2 .host, .hello [1, 2, 3]] :=
  ownCables_run_iff 1 [.add 2 .host, .hello [1, 2, 3]] (by simp [Op.Valid])

/-- A neighbour registered on `gadget` of a fresh table is routed to `host`. -/
theorem not_ownCables_fresh_add :
    (Op.add 2 .gadget).Valid 1 ∧ ¬ ((fresh 1).apply (.add 2 .gadget)).OwnCables := by
  refine ⟨by simp [Op.Valid], ?_⟩
  intro hown
  have hneighbor : ((fresh 1).apply (.add 2 .gadget)).neighbors.lookup 2 = some .gadget := by decide
  have hhop : ((fresh 1).apply (.add 2 .gadget)).getNextHop 2 = some .host := by decide
  have h := hown 2 .gadget hneighbor
  rw [hhop] at h
  cases h

/-! ## No route into a dead port -/

/-- Every next hop leaves through a port with a registered neighbour. -/
def LivePorts (table : RoutingTable) : Prop :=
  ∀ dst port, table.getNextHop dst = some port → port ∈ table.getAllPorts

/-- Another unicast member of the ring lies in the half that `port` serves. -/
def InUse (table : RoutingTable) (ring : List ℤ) (port : Port) : Prop :=
  ∃ id ∈ ring, id ≠ table.nodeId ∧ id ≠ broadcast ∧ Faces table.nodeId ring id port

/-- `neighborId` is registered on `port`, where `_routes` also holds an id off the ring. -/
def RouteLeft (table : RoutingTable) (neighborId : ℤ) (port : Port) : Prop :=
  table.neighbors.lookup neighborId = some port ∧
    ∃ id, id ∉ table.ring ∧ id ≠ neighborId ∧ id ≠ broadcast ∧
      table.routes.lookup id = some port

/-- A port in use on the measured ring, or on which a departing neighbour leaves a route behind,
keeps another neighbour. A removal that leaves fewer than two entries is not concerned. -/
def PortsPeopled (table : RoutingTable) : Op → Prop
  | .add neighborId port =>
      ∀ other, other ≠ port →
        table.InUse (table.measured (.add neighborId port)) other ∨
            table.RouteLeft neighborId other →
          ∃ id, id ≠ neighborId ∧ table.neighbors.lookup id = some other
  | .remove neighborId =>
      2 ≤ (table.ring.filter (· ≠ neighborId)).length →
        ∀ port, table.InUse (table.measured (.remove neighborId)) port ∨
            table.RouteLeft neighborId port →
          ∃ id, id ≠ neighborId ∧ table.neighbors.lookup id = some port
  | .hello path =>
      ∀ port, table.InUse (table.measured (.hello path)) port →
        ∃ id, table.neighbors.lookup id = some port

/-- After an operation no route leads into a dead port exactly if the ring is short or every port
that a member or a route off the ring uses has a neighbour. -/
theorem livePorts_edit_iff {nodeId : ℤ} {table : RoutingTable} {op : Op}
    (hsound : Sound nodeId table) (hvalid : op.Valid nodeId) :
    (table.apply op).LivePorts ↔ (2 ≤ (table.edit op).ring.length →
      ∀ port, (table.InUse (table.measured op) port ∨ ∃ id, id ∉ (table.edit op).ring ∧
          id ≠ broadcast ∧ (table.edit op).routes.lookup id = some port) →
        ∃ id, (table.edit op).neighbors.lookup id = some port) := by
  have hedit := sound_edit hsound hvalid
  unfold LivePorts
  simp only [mem_getAllPorts, apply_eq, neighbors_recompute, getNextHop]
  by_cases hlength : (table.edit op).ring.length < 2
  · refine iff_of_true ?_ fun hlong ↦ absurd hlength (Nat.not_lt.mpr hlong)
    intro dst port hroute
    split at hroute
    · cases hroute
    · rw [routes_recompute_of_lt hlength] at hroute
      exact ⟨dst, hroute⟩
  have hlong := Nat.le_of_not_lt hlength
  rw [imp_iff_right hlong]
  simp only [lookup_routes_recompute hlong, nodeId_edit]
  constructor
  · rintro hlive port (⟨id, hmem, hother, hunicast, hfaces⟩ | ⟨id, hoff, hunicast, hroute⟩)
    · apply hlive id
      rw [if_neg hunicast, if_pos ⟨(mem_measured hother).mp hmem, hother⟩,
        ringSide_edit_iff.mpr hfaces]
    · apply hlive id
      rw [if_neg hunicast, if_neg fun hmember ↦ hoff hmember.1, hroute]
  · intro hpeopled dst port hroute
    split at hroute
    · cases hroute
    rename_i hunicast
    split at hroute
    · rename_i hmember
      obtain ⟨hmem, hother⟩ := hmember
      refine hpeopled port (.inl ⟨dst, (mem_measured hother).mpr hmem, hother, hunicast, ?_⟩)
      exact ringSide_edit_iff.mp (Option.some.inj hroute)
    · rename_i hmember
      refine hpeopled port (.inr ⟨dst, ?_, hunicast, hroute⟩)
      intro hmem
      -- only the node itself is on the ring without an assigned route
      have hself : dst = nodeId := by
        rw [← hsound.nodeId_eq]
        by_contra hother
        exact hmember ⟨hmem, hother⟩
      rw [hself, hedit.no_self_route] at hroute
      cases hroute

/-- A route that is not to the node itself is one of the dictionary. -/
theorem getNextHop_eq_some_iff {table : RoutingTable} {id : ℤ} {port : Port} :
    table.getNextHop id = some port ↔ id ≠ broadcast ∧ table.routes.lookup id = some port := by
  unfold getNextHop
  split
  · rename_i hbroadcast
    simp [hbroadcast]
  · rename_i hunicast
    simp [hunicast]

/-- What has to be peopled when one neighbour departs from a port: a route that is left there had a
neighbour before. -/
theorem peopled_iff {table after : RoutingTable} {neighborId : ℤ} {port : Port} {used : Prop}
    (hlive : table.LivePorts)
    (hneighbors : (∃ id, after.neighbors.lookup id = some port) ↔
      ∃ id, id ≠ neighborId ∧ table.neighbors.lookup id = some port)
    (hroutes : ∀ id, id ∉ after.ring ∧ id ≠ broadcast ∧ after.routes.lookup id = some port ↔
      id ∉ table.ring ∧ id ≠ neighborId ∧ id ≠ broadcast ∧ table.routes.lookup id = some port) :
    ((used ∨ ∃ id, id ∉ after.ring ∧ id ≠ broadcast ∧ after.routes.lookup id = some port) →
        ∃ id, after.neighbors.lookup id = some port) ↔
      (used ∨ table.RouteLeft neighborId port →
        ∃ id, id ≠ neighborId ∧ table.neighbors.lookup id = some port) := by
  have hbefore : (∃ id, id ∉ table.ring ∧ id ≠ neighborId ∧ id ≠ broadcast ∧
        table.routes.lookup id = some port) →
      table.neighbors.lookup neighborId = some port ∨
        ∃ id, id ≠ neighborId ∧ table.neighbors.lookup id = some port := by
    rintro ⟨id, -, -, hunicast, hroute⟩
    have hhop : table.getNextHop id = some port := getNextHop_eq_some_iff.mpr ⟨hunicast, hroute⟩
    obtain ⟨other, hother⟩ := mem_getAllPorts.mp (hlive id port hhop)
    by_cases hsame : other = neighborId
    · exact .inl (hsame ▸ hother)
    · exact .inr ⟨other, hsame, hother⟩
  unfold RouteLeft
  rw [hneighbors, exists_congr hroutes]
  constructor
  · rintro hall (hused | ⟨-, hleft⟩)
    · exact hall (.inl hused)
    · exact hall (.inr hleft)
  · rintro hall (hused | hleft)
    · exact hall (.inl hused)
    · exact (hbefore hleft).elim (fun hhere ↦ hall (.inr ⟨hhere, hleft⟩)) id

/-- One operation leaves no route into a dead port exactly when the ports in use are peopled. -/
theorem livePorts_apply_iff {nodeId : ℤ} {table : RoutingTable} {op : Op}
    (hsound : Sound nodeId table) (hvalid : op.Valid nodeId) (hlive : table.LivePorts) :
    (table.apply op).LivePorts ↔ table.PortsPeopled op := by
  have hself (port : Port) : table.routes.lookup table.nodeId ≠ some port := by
    rw [hsound.nodeId_eq, hsound.no_self_route]
    exact (Option.some_ne_none port).symm
  rw [livePorts_edit_iff hsound hvalid]
  cases op with
  | add neighborId port =>
      obtain ⟨-, -, hother⟩ := hvalid
      rw [← hsound.nodeId_eq] at hother
      have hlong : 2 ≤ (table.edit (.add neighborId port)).ring.length :=
        two_le_length_of_mem (by simp [edit]) (by simp [edit]) hother
      rw [imp_iff_right hlong]
      refine forall_congr' fun used ↦ ?_
      by_cases hport : used = port
      · subst hport
        refine iff_of_true (fun _ ↦ ⟨neighborId, Finmap.lookup_insert _⟩) ?_
        exact fun hne ↦ absurd rfl hne
      · rw [imp_iff_right hport]
        refine peopled_iff hlive ?_ fun id ↦ ?_
        · refine exists_congr fun id ↦ ?_
          by_cases hid : id = neighborId
          · subst hid
            refine iff_of_false (fun hnew ↦ hport ?_) (by simp)
            exact (Option.some.inj ((Finmap.lookup_insert _).symm.trans hnew)).symm
          · simp [edit, hid]
        · have hring : id ∉ (table.edit (.add neighborId port)).ring ↔
              id ∉ table.ring ∧ id ≠ neighborId ∧ id ≠ table.nodeId := by
            simp [edit, and_assoc]
          rw [hring]
          constructor
          · rintro ⟨⟨hoff, hid, -⟩, hunicast, hroute⟩
            exact ⟨hoff, hid, hunicast, (Finmap.lookup_insert_of_ne _ hid).symm.trans hroute⟩
          · rintro ⟨hoff, hid, hunicast, hroute⟩
            refine ⟨⟨hoff, hid, ?_⟩, hunicast, (Finmap.lookup_insert_of_ne _ hid).trans hroute⟩
            rintro rfl
            exact hself used hroute
  | remove neighborId =>
      refine imp_congr_right fun _ ↦ forall_congr' fun used ↦ peopled_iff hlive ?_ fun id ↦ ?_
      · refine exists_congr fun id ↦ ?_
        by_cases hid : id = neighborId
        · subst hid
          exact iff_of_false (fun hkept ↦ (lookup_erase_eq_some hkept).1 rfl) (by simp)
        · simp [edit, hid]
      · by_cases hid : id = neighborId
        · subst hid
          exact iff_of_false (fun hkept ↦ (lookup_erase_eq_some hkept.2.2).1 rfl) (by simp)
        · simp [edit, hid]
  | hello path =>
      have hlong (port : Port) (hused : table.InUse (table.measured (.hello path)) port) :
          2 ≤ (table.edit (.hello path)).ring.length := by
        obtain ⟨id, hmem, hother, -⟩ := hused
        exact two_le_length_of_mem ((mem_measured hother).mp hmem)
          (show table.nodeId ∈ (table.edit (.hello path)).ring by simp [edit, helloRing]) hother
      constructor
      · intro hall port hused
        exact hall (hlong port hused) port (.inl hused)
      · rintro hall - port (hused | ⟨id, -, hunicast, hroute⟩)
        · exact hall port hused
        · have hhop := getNextHop_eq_some_iff.mpr ⟨hunicast, hroute⟩
          exact mem_getAllPorts.mp (hlive id port hhop)

/-- **No route into a dead port.** From a fresh table a run never leaves a next hop into a port
without a neighbour exactly when every operation leaves neighbours on all ports still in use. -/
theorem livePorts_run_iff (nodeId : ℤ) (ops : List Op) (hvalid : ∀ op ∈ ops, op.Valid nodeId) :
    Run.Always apply LivePorts (fresh nodeId) ops ↔
      Run.Each apply PortsPeopled (fresh nodeId) ops := by
  have hstart : LivePorts (fresh nodeId) := by
    intro dst port h
    rw [getNextHop, fresh, Finmap.lookup_empty] at h
    split at h <;> cases h
  exact Run.always_iff_each (Op.Valid nodeId) (fun _ _ hsound hop ↦ sound_apply hsound hop)
    (fun _ _ hsound hop hlive ↦ livePorts_apply_iff hsound hop hlive) (sound_fresh nodeId) hstart
    hvalid

theorem livePorts_run_iff_two :
    Run.Always apply LivePorts (fresh 1) [.add 2 .host, .remove 2] ↔
      Run.Each apply PortsPeopled (fresh 1) [.add 2 .host, .remove 2] :=
  livePorts_run_iff 1 [.add 2 .host, .remove 2] (by simp [Op.Valid])

/-- Node 1 of the ring 1, 2, 3, 4 loses its neighbour 4. -/
def loseNeighbor : List Op :=
  [.add 2 .host, .add 4 .gadget, .hello [1, 2, 3, 4], .remove 4]

/-- Node 3 is still routed to `gadget`, where no neighbour is left. -/
theorem not_livePorts_loseNeighbor :
    (∀ op ∈ loseNeighbor, op.Valid 1) ∧ ¬ (loseNeighbor.foldl apply (fresh 1)).LivePorts := by
  refine ⟨by simp [loseNeighbor, Op.Valid], ?_⟩
  intro hlive
  have hhop : (loseNeighbor.foldl apply (fresh 1)).getNextHop 3 = some .gadget := by decide
  have hdead : Port.gadget ∉ (loseNeighbor.foldl apply (fresh 1)).getAllPorts := by decide
  exact hdead (hlive 3 .gadget hhop)

end RoutingTable

end UsbDirectFabric.Routing
