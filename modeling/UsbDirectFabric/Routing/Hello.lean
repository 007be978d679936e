import UsbDirectFabric.Wire.RoundTrip

/-!
# HELLO frames of `common/routing.py`

A HELLO is a broadcast frame whose payload carries a magic byte, the originator, a count and that
many node ids. The parser checks the magic byte only, so a node list from the wire is an arbitrary
list of at most 255 bytes.
-/

namespace UsbDirectFabric.Routing

open Wire

def helloMagic : UInt8 := 0x48

/-- `bytes(known_nodes)`: every entry has to be a byte. -/
def bytesOf (knownNodes : List ℤ) : Except PyError Bytes :=
  if ∀ node ∈ knownNodes, 0 ≤ node ∧ node < 256 then
    .ok (knownNodes.map fun node ↦ .ofNat node.toNat)
  else .error (.valueError "bytes must be in range(0, 256)")

def makeHello (crc32 : Bytes → UInt32) (nodeId : ℤ) (knownNodes : List ℤ) (seq : ℤ) :
    Except PyError Bytes := do
  let count := knownNodes.length
  let head ← packStruct [(1, helloMagic.toNat), (1, nodeId), (1, count)]
  let nodes ← bytesOf knownNodes
  pack crc32 nodeId broadcast seq (head ++ nodes) 0 0

/-- `parse_hello`: the originator and the node list, which may be shorter than its count says. -/
def parseHello (frame : Frame) : Except PyError (ℤ × List ℤ) :=
  if frame.payload.length < 3 then .error (.valueError "Not a HELLO frame")
  else do
    let first ← item frame.payload 0
    if first ≠ helloMagic then .error (.valueError "Not a HELLO frame")
    else
      let originator ← item frame.payload 1
      let count ← item frame.payload 2
      let nodes := (frame.payload.drop 3).take count.toNat
      return (originator.toNat, nodes.map fun node ↦ (node.toNat : ℤ))

theorem parseHello_of_lt {frame : Frame} (hshort : frame.payload.length < 3) :
    parseHello frame = .error (.valueError "Not a HELLO frame") :=
  if_pos hshort

/-- Three bytes are enough for every read of `parse_hello`. -/
theorem parseHello_cons {frame : Frame} {first originator count : UInt8} {rest : Bytes}
    (hpayload : frame.payload = first :: originator :: count :: rest) :
    parseHello frame =
      if first = helloMagic then
        .ok (originator.toNat, (rest.take count.toNat).map fun node ↦ (node.toNat : ℤ))
      else .error (.valueError "Not a HELLO frame") := by
  unfold parseHello
  rw [hpayload, if_neg (by simp)]
  by_cases hfirst : first = helloMagic
  · rw [if_pos hfirst, ← hfirst]
    simp [item, bind, Except.bind, pure, Except.pure]
  · rw [if_neg hfirst]
    simp [item, bind, Except.bind, hfirst]

/-- A payload that lists the given ids, without any check. -/
def helloPayload (originator : UInt8) (nodes : List UInt8) : Bytes :=
  helloMagic :: originator :: .ofNat nodes.length :: nodes

/-- Every list of at most 255 bytes is the node list of some payload. -/
theorem parseHello_helloPayload {frame : Frame} {originator : UInt8} {nodes : List UInt8}
    (hpayload : frame.payload = helloPayload originator nodes) (hcount : nodes.length < 256) :
    parseHello frame = .ok (originator.toNat, nodes.map fun node ↦ (node.toNat : ℤ)) := by
  have hread : (UInt8.ofNat nodes.length).toNat = nodes.length := UInt8.toNat_ofNat_of_lt hcount
  rw [parseHello_cons hpayload, if_pos rfl, hread, List.take_length]

/-- A payload that `parse_hello` accepts, cut at its three leading bytes. -/
theorem parseHello_eq_ok_iff {frame : Frame} {originator : ℤ} {nodes : List ℤ} :
    parseHello frame = .ok (originator, nodes) ↔
      ∃ (source count : UInt8) (rest : Bytes),
        frame.payload = helloMagic :: source :: count :: rest ∧ originator = source.toNat ∧
          nodes = (rest.take count.toNat).map fun node ↦ (node.toNat : ℤ) := by
  match hpayload : frame.payload with
  | [] | [_] | [_, _] =>
      rw [parseHello_of_lt (by simp [hpayload])]
      simp
  | first :: source :: count :: rest =>
      rw [parseHello_cons hpayload]
      split
      · rename_i hfirst
        simp [hfirst, eq_comm]
      · rename_i hfirst
        simp [hfirst]

/-- The node lists that come from the wire are lists of at most 255 bytes. -/
theorem parseHello_nodes {frame : Frame} {originator : ℤ} {nodes : List ℤ}
    (hparse : parseHello frame = .ok (originator, nodes)) :
    nodes.length ≤ 255 ∧ ∀ node ∈ nodes, 0 ≤ node ∧ node < 256 := by
  obtain ⟨source, count, rest, -, -, rfl⟩ := parseHello_eq_ok_iff.mp hparse
  constructor
  · have hcount : count.toNat < 256 := count.toNat_lt
    rw [List.length_map, List.length_take]
    omega
  · intro node hnode
    obtain ⟨byte, _, rfl⟩ := List.mem_map.mp hnode
    have hbyte : byte.toNat < 256 := byte.toNat_lt
    exact ⟨Int.natCast_nonneg _, by exact_mod_cast hbyte⟩

end UsbDirectFabric.Routing
