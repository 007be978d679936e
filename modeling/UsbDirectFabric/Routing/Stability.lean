import UsbDirectFabric.Routing.HelloUpdate
import UsbDirectFabric.Routing.Ring

/-!
# A learned ring stays learned

After a complete HELLO a table holds the cyclic order of the ring. Registrations of members, under
whatever port, and HELLOs that repeat the order or are shorter and bring no stranger leave it there;
every other operation destroys it. As long as it stays, the routes are those of the shorter
direction, whatever an operation wrote into them before `recompute`.
-/

namespace UsbDirectFabric.Routing

open Wire Walk

namespace RoutingTable

/-- The table holds the members of the ring, and no others, in its cyclic order. -/
def HasOrder (order : List ℤ) (table : RoutingTable) : Prop :=
  table.getRingMembers ~r order

/-- The operations that a learned ring survives. -/
def Op.Keeps (order : List ℤ) : Op → Prop
  | .add neighborId _ => neighborId ∈ order
  | .remove neighborId => neighborId ∉ order
  | .hello path => path ~r order ∨ path.length < order.length ∧ ∀ id ∈ path, id ∈ order

variable {order : List ℤ} {table : RoutingTable}

theorem length_of_hasOrder (horder : table.HasOrder order) : table.ring.length = order.length :=
  horder.perm.length_eq

theorem mem_of_hasOrder (horder : table.HasOrder order) {id : ℤ} :
    id ∈ table.ring ↔ id ∈ order :=
  horder.perm.mem_iff

/-- A ring with an entry more is not the same ring. -/
theorem not_isRotated_of_length {ring : List ℤ} (hlength : ring.length ≠ order.length) :
    ¬ring ~r order :=
  fun hrotated ↦ hlength hrotated.perm.length_eq

/-! ## One operation -/

theorem ring_apply_of_mem {op : Op} (hself : table.nodeId ∈ (table.edit op).ring) :
    (table.apply op).getRingMembers = (table.edit op).ring := by
  rw [getRingMembers, apply_eq]
  exact ring_recompute_of_mem (by rwa [nodeId_edit])

theorem hasOrder_add_iff (hself : table.nodeId ∈ order) (horder : table.HasOrder order)
    (neighborId : ℤ) (port : Port) :
    (table.apply (.add neighborId port)).HasOrder order ↔ neighborId ∈ order := by
  have hown : table.nodeId ∈ table.ring := (mem_of_hasOrder horder).mpr hself
  rw [HasOrder, ring_apply_of_mem (by simp [edit, hown])]
  simp only [edit]
  rw [appendNew_of_mem (mem_appendNew.mpr (.inl hown))]
  by_cases hmember : neighborId ∈ order
  · rw [appendNew_of_mem ((mem_of_hasOrder horder).mpr hmember)]
    exact iff_of_true horder hmember
  · have hnew : neighborId ∉ table.ring := fun hmem ↦ hmember ((mem_of_hasOrder horder).mp hmem)
    refine iff_of_false (not_isRotated_of_length ?_) hmember
    rw [appendNew, if_neg hnew, List.length_append, length_of_hasOrder horder]
    simp

theorem hasOrder_remove_iff (hself : table.nodeId ∈ order) (horder : table.HasOrder order)
    {neighborId : ℤ} (hother : neighborId ≠ table.nodeId) :
    (table.apply (.remove neighborId)).HasOrder order ↔ neighborId ∉ order := by
  have hown : table.nodeId ∈ table.ring := (mem_of_hasOrder horder).mpr hself
  rw [HasOrder, ring_apply_of_mem (by simp [edit, hown, hother.symm])]
  simp only [edit]
  by_cases hmember : neighborId ∈ order
  · refine iff_of_false (not_isRotated_of_length ?_) (not_not.mpr hmember)
    rw [← length_of_hasOrder horder]
    refine Nat.ne_of_lt (List.length_filter_lt_length_iff_exists.mpr ?_)
    exact ⟨neighborId, (mem_of_hasOrder horder).mpr hmember, by simp⟩
  · have hkept : table.ring.filter (· ≠ neighborId) = table.ring := by
      rw [List.filter_eq_self]
      intro id hid
      have hne : id ≠ neighborId := by
        rintro rfl
        exact hmember ((mem_of_hasOrder horder).mp hid)
      simpa using hne
    rw [hkept]
    exact iff_of_true horder hmember

theorem hasOrder_hello_iff (hself : table.nodeId ∈ order) (horder : table.HasOrder order)
    (path : List ℤ) :
    (table.apply (.hello path)).HasOrder order ↔ Op.Keeps order (.hello path) := by
  have hown : table.nodeId ∈ table.ring := (mem_of_hasOrder horder).mpr hself
  have hlength := length_of_hasOrder horder
  change (table.updateFromHello path).getRingMembers ~r order ↔ _
  rw [getRingMembers, ring_updateFromHello]
  by_cases hshort : path.length < table.ring.length
  · constructor
    · intro hrotated
      refine .inr ⟨hlength ▸ hshort, fun id hid ↦ ?_⟩
      exact hrotated.perm.mem_iff.mp (mem_helloRing_of_mem_path hid)
    · rintro (hrotated | ⟨-, hmembers⟩)
      · have hsame := hrotated.perm.length_eq
        omega
      · have hknown : ∀ id ∈ path, id ∈ table.ring := fun id hid ↦
          (mem_of_hasOrder horder).mpr (hmembers id hid)
        rw [helloRing_eq_of_subset hown hshort hknown]
        exact horder
  · have hlong := Nat.le_of_not_lt hshort
    rw [helloRing_of_le hlong]
    constructor
    · intro hrotated
      have hprefix := prefix_appendNew path table.nodeId
      have hsame := hrotated.perm.length_eq
      have hadopted : path = appendNew path table.nodeId :=
        hprefix.eq_of_length_le (by omega)
      exact .inl (hadopted ▸ hrotated)
    · rintro (hrotated | ⟨hless, -⟩)
      · rwa [appendNew_of_mem (hrotated.perm.mem_iff.mpr hself)]
      · omega

/-- Exactly these operations leave a learned ring as it is. -/
theorem hasOrder_apply_iff {op : Op} (hself : table.nodeId ∈ order) (horder : table.HasOrder order)
    (hothers : op.OfOthers table.nodeId) :
    (table.apply op).HasOrder order ↔ op.Keeps order := by
  cases op with
  | add neighborId port => exact hasOrder_add_iff hself horder neighborId port
  | remove neighborId => exact hasOrder_remove_iff hself horder hothers
  | hello path => exact hasOrder_hello_iff hself horder path

/-! ## Runs -/

/-- A run leaves a learned ring as it is exactly if each of its operations does. -/
theorem hasOrder_run_iff {ops : List Op} (hself : table.nodeId ∈ order)
    (horder : table.HasOrder order) (hothers : ∀ op ∈ ops, op.OfOthers table.nodeId) :
    Run.Always apply (HasOrder order) table ops ↔ ∀ op ∈ ops, op.Keeps order := by
  have heach : Run.Each apply (fun _ op ↦ op.Keeps order) table ops ↔
      ∀ op ∈ ops, op.Keeps order := Run.each_iff_forall
  rw [← heach]
  have hkept (later : RoutingTable) (op : Op) (hid : later.nodeId = table.nodeId)
      (_ : op.OfOthers table.nodeId) : (later.apply op).nodeId = table.nodeId := by
    rw [nodeId_apply, hid]
  refine Run.always_iff_each _ hkept ?_ rfl horder hothers
  intro later op hid hother hlater
  rw [← hid] at hother hself
  exact hasOrder_apply_iff hself hlater hother

/-- Every operation ends with `recompute`. -/
theorem recompute_foldl_apply {ops : List Op} (htable : table.recompute = table) :
    (ops.foldl apply table).recompute = ops.foldl apply table := by
  induction ops generalizing table with
  | nil => exact htable
  | cons op ops ih =>
      refine ih ?_
      rw [apply_eq, recompute_recompute]

theorem hasOrder_updateFromHello {path : List ℤ} (hself : table.nodeId ∈ path)
    (hlength : table.ring.length ≤ path.length) (hpath : path ~r order) :
    (table.updateFromHello path).HasOrder order := by
  rw [HasOrder, getRingMembers, ring_updateFromHello, helloRing_of_le hlength,
    appendNew_of_mem hself]
  exact hpath

end RoutingTable

/-! ## The whole ring -/

/-- Tables that all point in the shorter direction lead along the shorter way. -/
theorem reachesIn_of_shorter {n : ℕ} {ids : ZMod (n + 2) → ℤ} {tables : ZMod (n + 2) → RoutingTable}
    {target : ZMod (n + 2)}
    (hshorter : ∀ position, target ≠ position → (tables position).getNextHop (ids target) =
      some (if (target - position).val ≤ (position - target).val then .host else .gadget))
    (source : ZMod (n + 2)) :
    ReachesIn (ringHop tables (ids target)) (ringDist source target) source target := by
  apply reachesIn_measure (fun _ ↦ True) (fun position ↦ ringDist position target)
  · intro position _ hpositive
    have hne : target ≠ position := by
      rintro rfl
      simp [ringDist] at hpositive
    refine ⟨_, ?_, trivial, ringDist_hop hne⟩
    rw [ringHop, hshorter position hne, Option.map_some]
  · exact fun position _ hzero ↦ ringDist_eq_zero hzero
  · trivial

/-- **Ring routing stays shortest.** Let every node of a ring, whatever its state, process a HELLO
with some rotation of the ring order while it has at most as many ring entries as the ring has
nodes. Through later operations about other nodes, at every node and in any number, all nodes hold
the cyclic order in every state exactly if each operation registers a member, under any port,
removes a stranger, or is a HELLO that is a rotation of the order or is shorter and names members
only; and in all states of such runs the walk from any position to any id takes the shorter way. -/
theorem ring_routing_stays {n : ℕ} (ids : ZMod (n + 2) → ℤ) (hids : Function.Injective ids)
    (hbroadcast : ∀ position, ids position ≠ broadcast) (tables : ZMod (n + 2) → RoutingTable)
    (hnode : ∀ position, (tables position).nodeId = ids position)
    (hring : ∀ position, (tables position).ring.length ≤ n + 2) (offset : ZMod (n + 2) → ℕ)
    (later : ZMod (n + 2) → List RoutingTable.Op)
    (hothers : ∀ position, ∀ op ∈ later position, op.OfOthers (ids position)) :
    ((∀ position, Run.Always RoutingTable.apply (RoutingTable.HasOrder (ringOrder ids))
          ((tables position).updateFromHello ((ringOrder ids).rotate (offset position)))
          (later position)) ↔
        ∀ position, ∀ op ∈ later position, op.Keeps (ringOrder ids)) ∧
      ((∀ position, ∀ op ∈ later position, op.Keeps (ringOrder ids)) →
        ∀ source target, ReachesIn
          (ringHop (fun position ↦ (later position).foldl RoutingTable.apply
            ((tables position).updateFromHello ((ringOrder ids).rotate (offset position))))
            (ids target))
          (ringDist source target) source target) := by
  have hmem (position : ZMod (n + 2)) : ids position ∈ ringOrder ids :=
    List.mem_rotate.mp (mem_rotate_ringOrder 0 position)
  have hlearned (position : ZMod (n + 2)) :
      ((tables position).updateFromHello ((ringOrder ids).rotate (offset position))).HasOrder
        (ringOrder ids) := by
    apply RoutingTable.hasOrder_updateFromHello
    · rw [hnode]
      exact mem_rotate_ringOrder (offset position) position
    · simpa using hring position
    · exact List.IsRotated.forall _ _
  have hid (position : ZMod (n + 2)) : ((tables position).updateFromHello
      ((ringOrder ids).rotate (offset position))).nodeId = ids position := by
    rw [RoutingTable.updateFromHello, RoutingTable.nodeId_recompute]
    exact hnode position
  have hrun (position : ZMod (n + 2)) : Run.Always RoutingTable.apply
      (RoutingTable.HasOrder (ringOrder ids))
      ((tables position).updateFromHello ((ringOrder ids).rotate (offset position)))
      (later position) ↔ ∀ op ∈ later position, op.Keeps (ringOrder ids) := by
    refine RoutingTable.hasOrder_run_iff ?_ (hlearned position) ?_
    · rw [hid]
      exact hmem position
    · rw [hid]
      exact hothers position
  refine ⟨forall_congr' hrun, fun hkeeps source target ↦ reachesIn_of_shorter ?_ source⟩
  intro position hne
  have horder := Run.always_iff_forall_prefix.mp ((hrun position).mpr (hkeeps position)) _
    List.prefix_rfl
  obtain ⟨rotation, hrotation⟩ := List.IsRotated.symm horder
  have hsettled : ((tables position).updateFromHello
      ((ringOrder ids).rotate (offset position))).recompute =
        (tables position).updateFromHello ((ringOrder ids).rotate (offset position)) :=
    RoutingTable.recompute_recompute _
  rw [← RoutingTable.recompute_foldl_apply hsettled]
  refine getNextHop_recompute hids hbroadcast _ hrotation.symm ?_ hne
  rw [RoutingTable.nodeId_foldl_apply]
  exact hid position

/-- After the complete HELLO every node registers the node across under the wrong port, hears a
partial HELLO and one from another originator, and removes a stranger. -/
def laterOps (position : ZMod 4) : List RoutingTable.Op :=
  [.add (fourIds (position + 2)) .gadget, .hello [4, 1], .hello [3, 4, 1, 2], .remove 9]

theorem ofOthers_laterOps (position : ZMod 4) :
    ∀ op ∈ laterOps position, op.OfOthers (fourIds position) := by
  have hacross : ∀ position : ZMod 4, fourIds (position + 2) ≠ fourIds position := by decide
  have hstranger : ∀ position : ZMod 4, (9 : ℤ) ≠ fourIds position := by decide
  simp [laterOps, RoutingTable.Op.OfOthers, hacross, hstranger]

theorem ring_routing_stays_four :
    ((∀ position, Run.Always RoutingTable.apply (RoutingTable.HasOrder (ringOrder fourIds))
          (((RoutingTable.fresh (fourIds position)).addNeighbor 9 .gadget).updateFromHello
            ((ringOrder fourIds).rotate position.val)) (laterOps position)) ↔
        ∀ position, ∀ op ∈ laterOps position, op.Keeps (ringOrder fourIds)) ∧
      ((∀ position, ∀ op ∈ laterOps position, op.Keeps (ringOrder fourIds)) →
        ∀ source target, ReachesIn
          (ringHop (fun position ↦ (laterOps position).foldl RoutingTable.apply
            (((RoutingTable.fresh (fourIds position)).addNeighbor 9 .gadget).updateFromHello
              ((ringOrder fourIds).rotate position.val))) (fourIds target))
          (ringDist source target) source target) :=
  ring_routing_stays fourIds (by decide) (by decide)
    (fun position ↦ (RoutingTable.fresh (fourIds position)).addNeighbor 9 .gadget) (by decide)
    (by decide) ZMod.val laterOps ofOthers_laterOps

end UsbDirectFabric.Routing
