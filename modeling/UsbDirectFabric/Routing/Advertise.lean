import UsbDirectFabric.Routing.HelloFormat
import UsbDirectFabric.Routing.RouteEntries

/-!
# Passing the learned ring on

A node advertises the ring that it has learned in a HELLO of its own, whose count field has one
byte. Nothing bounds the ring: an adopted list of 255 ids grows by the node itself, and neighbours
and merged HELLOs add to a ring of any length. For every operation the condition is given under
which the ring keeps within the field.
-/

namespace UsbDirectFabric.Routing

open Wire

namespace RoutingTable

/-- A HELLO with the ring can be packed under every number and is read back as it is. -/
def Advertisable (crc32 : Bytes → UInt32) (table : RoutingTable) : Prop :=
  ∀ seq : ℤ, 0 ≤ seq ∧ seq < 2 ^ 32 →
    makeHello crc32 table.nodeId table.getRingMembers seq >>= unpack crc32 >>= parseHello =
      .ok (table.nodeId, table.getRingMembers)

/-- How many of the ids are not on the ring, repetitions apart. -/
def newcomers (ring ids : List ℤ) : ℕ :=
  (ids.toFinset \ ring.toFinset).card

/-- The entries fit the count field after the operation has appended what is missing. -/
def HasRoom (table : RoutingTable) : Op → Prop
  | .add neighborId _ =>
      table.ring.length + newcomers table.ring [neighborId, table.nodeId] ≤ 255
  | .remove _ => True
  | .hello path =>
      if table.ring.length ≤ path.length then path.length + newcomers path [table.nodeId] ≤ 255
      else table.ring.length + newcomers table.ring (path ++ [table.nodeId]) ≤ 255

/-- Neighbours have unicast ids, and HELLO paths were parsed from received frames. -/
def Op.Received (crc32 : Bytes → UInt32) : Op → Prop
  | .add neighborId _ | .remove neighborId => 1 ≤ neighborId ∧ neighborId ≤ 254
  | .hello path => ∃ data frame originator,
      unpack crc32 data = .ok frame ∧ parseHello frame = .ok (originator, path)

/-! ## The length of the ring -/

/-- A merge appends every new id once. -/
theorem length_foldl_appendNew (ring ids : List ℤ) :
    (ids.foldl appendNew ring).length = ring.length + newcomers ring ids := by
  induction ids generalizing ring with
  | nil => simp [newcomers]
  | cons first ids ih =>
      rw [List.foldl_cons, ih, newcomers, newcomers, List.toFinset_cons]
      by_cases hknown : first ∈ ring
      · rw [appendNew_of_mem hknown, Finset.insert_sdiff_of_mem _ (List.mem_toFinset.mpr hknown)]
      · have hring : (appendNew ring first).toFinset = insert first ring.toFinset := by
          ext id
          simp [or_comm]
        have hnew : first ∈ insert first ids.toFinset \ ring.toFinset := by simp [hknown]
        have hrest : ids.toFinset \ insert first ring.toFinset =
            (insert first ids.toFinset \ ring.toFinset).erase first := by
          ext id
          simp only [Finset.mem_sdiff, Finset.mem_erase, Finset.mem_insert, List.mem_toFinset]
          tauto
        have hlength : (appendNew ring first).length = ring.length + 1 := by
          simp [appendNew, hknown]
        have hcard := Finset.card_erase_add_one hnew
        rw [hring, hrest, hlength]
        omega

/-- What a HELLO leaves fits exactly if there was room. -/
theorem length_helloRing_le_iff {table : RoutingTable} {path : List ℤ} :
    (helloRing table.nodeId table.ring path).length ≤ 255 ↔ table.HasRoom (.hello path) := by
  rw [HasRoom]
  by_cases hlong : table.ring.length ≤ path.length
  · have hlength := length_foldl_appendNew path [table.nodeId]
    rw [helloRing_of_le hlong, if_pos hlong, ← hlength]
    rfl
  · have hlength := length_foldl_appendNew table.ring (path ++ [table.nodeId])
    rw [helloRing_of_lt (Nat.lt_of_not_le hlong), if_neg hlong, ← hlength, List.foldl_append]
    rfl

/-- Taking a node off the ring never makes it longer, even if the node itself comes back. -/
theorem length_remove_le {nodeId : ℤ} {table : RoutingTable} (hrecomputed : Recomputed nodeId table)
    (neighborId : ℤ) : (table.apply (.remove neighborId)).ring.length ≤ table.ring.length := by
  have hfilter : (table.ring.filter (· ≠ neighborId)).length ≤ table.ring.length :=
    List.length_filter_le _ _
  rw [apply_eq]
  unfold recompute
  split
  · exact hfilter
  · rename_i hlength
    change (appendNew (table.ring.filter (· ≠ neighborId)) table.nodeId).length ≤ _
    by_cases hkept : table.nodeId ∈ table.ring.filter (· ≠ neighborId)
    · rwa [appendNew_of_mem hkept]
    · have hshort : (table.ring.filter (· ≠ neighborId)).length < table.ring.length := by
        have hself := hrecomputed.self_mem ((Nat.le_of_not_lt hlength).trans hfilter)
        refine lt_of_le_of_ne hfilter fun hequal ↦ hkept ?_
        rwa [(List.filter_sublist).eq_of_length hequal]
      simp only [appendNew, if_neg hkept, List.length_append, List.length_singleton]
      omega

/-! ## Learned rings -/

/-- What every operation keeps: the id of the node, what `recompute` establishes, and a ring of
bytes. -/
structure Learned (nodeId : ℤ) (table : RoutingTable) : Prop where
  recomputed : Recomputed nodeId table
  bytes : ∀ id ∈ table.ring, 0 ≤ id ∧ id < 256

theorem learned_fresh (nodeId : ℤ) : Learned nodeId (fresh nodeId) where
  recomputed := recomputed_fresh nodeId
  bytes _ hid := absurd hid List.not_mem_nil

theorem learned_apply {crc32 : Bytes → UInt32} {nodeId : ℤ} {table : RoutingTable} {op : Op}
    (hunicast : 1 ≤ nodeId ∧ nodeId ≤ 254) (hlearned : Learned nodeId table)
    (hreceived : op.Received crc32) : Learned nodeId (table.apply op) := by
  have hnode := hlearned.recomputed.nodeId_eq
  refine ⟨recomputed_apply op hnode, ?_⟩
  intro id hid
  by_cases hself : id = nodeId
  · omega
  rw [apply_eq, mem_ring_recompute (by rwa [nodeId_edit, hnode])] at hid
  cases op with
  | add neighborId port =>
      simp only [edit, mem_appendNew] at hid
      rcases hid with (hold | rfl) | hnew
      · exact hlearned.bytes id hold
      · have hrange : 1 ≤ id ∧ id ≤ 254 := hreceived
        omega
      · exact absurd (hnew.trans hnode) hself
  | remove neighborId =>
      exact hlearned.bytes id (List.mem_of_mem_filter hid)
  | hello path =>
      obtain ⟨data, frame, originator, -, hparse⟩ := hreceived
      have hmember : id ∈ table.ring ∨ id ∈ path ∨ id = table.nodeId := mem_of_mem_helloRing hid
      rcases hmember with hold | hnamed | hnew
      · exact hlearned.bytes id hold
      · exact (parseHello_nodes hparse).2 id hnamed
      · exact absurd (hnew.trans hnode) hself

/-- A ring of bytes can be advertised exactly if its length fits the count field. -/
theorem advertisable_iff {crc32 : Bytes → UInt32} {nodeId : ℤ} {table : RoutingTable}
    (hunicast : 1 ≤ nodeId ∧ nodeId ≤ 254) (hlearned : Learned nodeId table) :
    table.Advertisable crc32 ↔ table.ring.length ≤ 255 := by
  have hid : 0 ≤ table.nodeId ∧ table.nodeId < 256 := by
    rw [hlearned.recomputed.nodeId_eq]
    omega
  constructor
  · intro hadvertisable
    have hround := hadvertisable 0 (by decide)
    simp only [bind_eq_ok] at hround
    obtain ⟨frame, ⟨data, hmake, -⟩, -⟩ := hround
    exact Nat.le_of_lt_succ (length_lt_of_makeHello hmake)
  · intro hlength seq hseq
    exact makeHello_roundTrip crc32 hid hlength hlearned.bytes hseq

/-- One operation leaves a ring that fits exactly if there was room. -/
theorem length_apply_le_iff {nodeId : ℤ} {table : RoutingTable} {op : Op}
    (hlearned : Learned nodeId table) (hlength : table.ring.length ≤ 255) :
    (table.apply op).ring.length ≤ 255 ↔ table.HasRoom op := by
  cases op with
  | add neighborId port =>
      have hself : (table.edit (.add neighborId port)).nodeId ∈
          (table.edit (.add neighborId port)).ring := by simp [edit]
      have hadded := length_foldl_appendNew table.ring [neighborId, table.nodeId]
      rw [apply_eq, ring_recompute_of_mem hself, HasRoom, ← hadded]
      rfl
  | remove neighborId =>
      exact iff_of_true ((length_remove_le hlearned.recomputed neighborId).trans hlength) trivial
  | hello path =>
      rw [← length_helloRing_le_iff, ← ring_updateFromHello]
      rfl

/-- **Every learned ring can be advertised.** From a fresh table the ring can be packed into a HELLO
and is read back unchanged in every state of a run, exactly when every operation of the run has room
for the entries that it appends. -/
theorem advertisable_run_iff (crc32 : Bytes → UInt32) (nodeId : ℤ) (ops : List Op)
    (hunicast : 1 ≤ nodeId ∧ nodeId ≤ 254) (hreceived : ∀ op ∈ ops, op.Received crc32) :
    Run.Always apply (Advertisable crc32) (fresh nodeId) ops ↔
      Run.Each apply HasRoom (fresh nodeId) ops := by
  have hstart : (fresh nodeId).Advertisable crc32 :=
    (advertisable_iff hunicast (learned_fresh nodeId)).mpr (Nat.zero_le _)
  refine Run.always_iff_each (Op.Received crc32)
    (fun _ _ hlearned hop ↦ learned_apply hunicast hlearned hop) ?_ (learned_fresh nodeId) hstart
    hreceived
  intro table op hlearned hop hadvertisable
  rw [advertisable_iff hunicast (learned_apply hunicast hlearned hop)]
  exact length_apply_le_iff hlearned ((advertisable_iff hunicast hlearned).mp hadvertisable)

/-- A received HELLO of node 2 with the given list. -/
theorem received_hello (ids : Bytes) (hcount : ids.length < 256) :
    (Op.hello (ids.map fun id ↦ (id.toNat : ℤ))).Received Crc32.checksum := by
  refine ⟨encode Crc32.checksum (helloFrame 2 ids 0), helloFrame 2 ids 0, _, ?_,
    parseHello_helloPayload rfl hcount⟩
  apply unpack_encode
  change (helloPayload 2 ids).length < 65536
  rw [length_helloPayload]
  omega

theorem advertisable_run_iff_three :
    Run.Always apply (Advertisable Crc32.checksum) (fresh 1) [.add 2 .host, .hello [2, 3, 0]] ↔
      Run.Each apply HasRoom (fresh 1) [.add 2 .host, .hello [2, 3, 0]] := by
  refine advertisable_run_iff Crc32.checksum 1 [.add 2 .host, .hello [2, 3, 0]] (by decide) ?_
  intro op hop
  rcases List.mem_pair.mp hop with rfl | rfl
  · exact ⟨by decide, by decide⟩
  · exact received_hello [2, 3, 0] (by decide)

/-- A node list of 255 entries none of which is node 1. -/
def crowdedPath : List ℤ := List.replicate 255 2

/-- Node 1 appends itself as entry 256. -/
theorem not_advertisable_crowdedPath :
    (Op.hello crowdedPath).Received Crc32.checksum ∧
      ¬((fresh 1).apply (.hello crowdedPath)).Advertisable Crc32.checksum := by
  have hpath : crowdedPath = (List.replicate 255 (2 : UInt8)).map fun id ↦ (id.toNat : ℤ) := by
    rw [List.map_replicate]
    rfl
  have hreceived : (Op.hello crowdedPath).Received Crc32.checksum := by
    rw [hpath]
    exact received_hello _ (by rw [List.length_replicate]; decide)
  have hlearned : Learned 1 ((fresh 1).apply (.hello crowdedPath)) :=
    learned_apply (by decide) (learned_fresh 1) hreceived
  have hself : (1 : ℤ) ∉ crowdedPath := by
    intro hmem
    exact absurd (List.eq_of_mem_replicate hmem) (by decide)
  have hlength : ((fresh 1).apply (.hello crowdedPath)).ring.length = 256 := by
    change ((fresh 1).updateFromHello crowdedPath).ring.length = 256
    rw [ring_updateFromHello, helloRing_of_le (Nat.zero_le _), appendNew, fresh, if_neg hself,
      List.length_append, crowdedPath, List.length_replicate, List.length_singleton]
  refine ⟨hreceived, ?_⟩
  rw [advertisable_iff (by decide) hlearned, hlength]
  decide

end RoutingTable

end UsbDirectFabric.Routing
