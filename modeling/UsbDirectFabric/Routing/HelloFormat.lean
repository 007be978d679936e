import UsbDirectFabric.Foundation.Crc32
import UsbDirectFabric.Routing.HelloUpdate

/-!
# The HELLO payload as a format

A HELLO counts its node ids inside a payload that the frame layer counts again and pads with zeros.
What `make_hello` writes is read back without loss, since both counts are honoured. In the other
direction `parse_hello` checks the magic byte and takes the node list by a slice, so a count that
does not agree with the payload goes unnoticed.
-/

namespace UsbDirectFabric.Routing

open Wire

variable {crc32 : Bytes → UInt32}

/-- Integers in the range of a byte are the values of a byte string. -/
theorem exists_bytes {nodes : List ℤ} (hnodes : ∀ node ∈ nodes, 0 ≤ node ∧ node < 256) :
    ∃ ids : Bytes, nodes = ids.map fun id ↦ (id.toNat : ℤ) := by
  induction nodes with
  | nil => exact ⟨[], rfl⟩
  | cons node nodes ih =>
      obtain ⟨ids, rfl⟩ := ih fun other hother ↦ hnodes other (List.mem_cons_of_mem node hother)
      obtain ⟨id, rfl⟩ := exists_byte_of_range (hnodes node List.mem_cons_self)
      exact ⟨id :: ids, rfl⟩

theorem bytesOf_bytes (ids : Bytes) : bytesOf (ids.map fun id ↦ (id.toNat : ℤ)) = .ok ids := by
  have hrange : ∀ node ∈ ids.map (fun id ↦ (id.toNat : ℤ)), 0 ≤ node ∧ node < 256 := by
    intro node hnode
    obtain ⟨id, -, rfl⟩ := List.mem_map.mp hnode
    exact ⟨Int.natCast_nonneg _, by exact_mod_cast id.toNat_lt⟩
  unfold bytesOf
  rw [if_pos hrange, List.map_map]
  simp [Function.comp_def]

def helloFrame (originator : UInt8) (ids : Bytes) (seq : UInt32) : Frame where
  flags := 0
  hop := 0
  seq := seq
  src := originator
  dst := 0xFF
  payload := helloPayload originator ids

theorem length_helloPayload (originator : UInt8) (ids : Bytes) :
    (helloPayload originator ids).length = ids.length + 3 := by
  simp [helloPayload]

/-- `make_hello` succeeds on at most 255 ids. -/
theorem makeHello_bytes (originator : UInt8) {ids : Bytes} (seq : UInt32)
    (hcount : ids.length < 256) :
    makeHello crc32 originator.toNat (ids.map fun id ↦ (id.toNat : ℤ)) seq.toNat =
      .ok (encode crc32 (helloFrame originator ids seq)) := by
  have hlength : (helloFrame originator ids seq).payload.length < 65536 := by
    change (helloPayload originator ids).length < 65536
    rw [length_helloPayload]
    omega
  have hfield : packField 1 (ids.length : ℤ) = .ok [.ofNat ids.length] := by
    have hread : (UInt8.ofNat ids.length).toNat = ids.length := UInt8.toNat_ofNat_of_lt hcount
    have hpacked := packField_byte (.ofNat ids.length)
    rwa [hread] at hpacked
  have hhead : packStruct [(1, (helloMagic.toNat : ℤ)), (1, (originator.toNat : ℤ)),
      (1, (ids.length : ℤ))] = .ok [helloMagic, originator, .ofNat ids.length] := by
    simp only [packStruct, packField_byte, hfield]
    rfl
  have hpack := pack_frame crc32 (helloFrame originator ids seq) hlength
  simp only [makeHello, List.length_map, hhead, bytesOf_bytes, bind, Except.bind]
  exact hpack

/-- `make_hello` fails on more. -/
theorem length_lt_of_makeHello {nodeId seq : ℤ} {nodes : List ℤ} {data : Bytes}
    (hmake : makeHello crc32 nodeId nodes seq = .ok data) : nodes.length < 256 := by
  simp only [makeHello, bind_eq_ok] at hmake
  obtain ⟨head, hhead, -⟩ := hmake
  obtain ⟨_, _, -, -, hids, -⟩ := packStruct_cons_eq_ok hhead
  obtain ⟨_, _, -, -, hcounts, -⟩ := packStruct_cons_eq_ok hids
  obtain ⟨count, _, hcount, hfits, -, -⟩ := packStruct_cons_eq_ok hcounts
  rw [Int.ofNat.inj hcount]
  simpa using hfits

/-- **HELLO round trip.** Whatever is packed as a HELLO, the frame layer and `parse_hello` return
the originator and exactly the packed list. -/
theorem makeHello_roundTrip (crc32 : Bytes → UInt32) {nodeId seq : ℤ} {nodes : List ℤ}
    (hid : 0 ≤ nodeId ∧ nodeId < 256) (hcount : nodes.length ≤ 255)
    (hnodes : ∀ node ∈ nodes, 0 ≤ node ∧ node < 256) (hseq : 0 ≤ seq ∧ seq < 2 ^ 32) :
    makeHello crc32 nodeId nodes seq >>= unpack crc32 >>= parseHello = .ok (nodeId, nodes) := by
  obtain ⟨ids, rfl⟩ := exists_bytes hnodes
  obtain ⟨originator, rfl⟩ := exists_byte_of_range hid
  obtain ⟨number, rfl⟩ := exists_word_of_range hseq
  rw [List.length_map] at hcount
  have hfits : ids.length < 256 := Nat.lt_succ_of_le hcount
  have hmake : makeHello crc32 originator.toNat (ids.map fun id ↦ (id.toNat : ℤ)) number.toNat =
      .ok (encode crc32 (helloFrame originator ids number)) :=
    makeHello_bytes originator number hfits
  have hunpack : unpack crc32 (encode crc32 (helloFrame originator ids number)) =
      .ok (helloFrame originator ids number) := by
    apply unpack_encode
    change (helloPayload originator ids).length < 65536
    rw [length_helloPayload]
    omega
  have hparse : parseHello (helloFrame originator ids number) =
      .ok (originator.toNat, ids.map fun id ↦ (id.toNat : ℤ)) :=
    parseHello_helloPayload rfl hfits
  rw [hmake]
  change unpack crc32 _ >>= parseHello = _
  rw [hunpack]
  exact hparse

theorem makeHello_roundTrip_four :
    makeHello Crc32.checksum 1 [1, 0, 3, 255] 0 >>= unpack Crc32.checksum >>= parseHello =
      .ok (1, [1, 0, 3, 255]) :=
  makeHello_roundTrip Crc32.checksum (by decide) (by decide) (by decide) (by decide)

/-! ## Accepted payloads -/

/-- The magic byte, an originator, a count and exactly that many ids. -/
def HelloGrammar (payload : Bytes) (originator : ℤ) (nodes : List ℤ) : Prop :=
  ∃ (source count : UInt8) (ids : Bytes), payload = helloMagic :: source :: count :: ids ∧
    ids.length = count.toNat ∧ originator = source.toNat ∧
      nodes = ids.map fun id ↦ (id.toNat : ℤ)

/-- `parse_hello` returns what the grammar says, and raises `ValueError` on every other payload. -/
structure DecidesHello (frame : Frame) : Prop where
  accepts : ∀ originator nodes, parseHello frame = .ok (originator, nodes) ↔
    HelloGrammar frame.payload originator nodes
  rejects : (∀ originator nodes, ¬HelloGrammar frame.payload originator nodes) →
    ∃ message, parseHello frame = .error (.valueError message)

/-- Behind the magic byte stands a count that is not the number of bytes after it. -/
def Miscounted (payload : Bytes) : Prop :=
  ∃ (source count : UInt8) (rest : Bytes), payload = helloMagic :: source :: count :: rest ∧
    rest.length ≠ count.toNat

/-- Rejections of `parse_hello` are `ValueError`s; no read behind its guard is out of range. -/
theorem parseHello_error {frame : Frame} {error : PyError} (h : parseHello frame = .error error) :
    ∃ message, error = .valueError message := by
  match hpayload : frame.payload with
  | [] | [_] | [_, _] =>
      rw [parseHello_of_lt (by simp [hpayload])] at h
      exact ⟨_, (Except.error.inj h).symm⟩
  | first :: source :: count :: rest =>
      rw [parseHello_cons hpayload] at h
      split at h
      · cases h
      · exact ⟨_, (Except.error.inj h).symm⟩

/-- A payload of the grammar is accepted with the list that it holds. -/
theorem HelloGrammar.parseHello_eq {frame : Frame} {originator : ℤ} {nodes : List ℤ}
    (hgrammar : HelloGrammar frame.payload originator nodes) :
    parseHello frame = .ok (originator, nodes) := by
  obtain ⟨source, count, ids, hpayload, hcount, rfl, rfl⟩ := hgrammar
  rw [parseHello_cons hpayload, if_pos rfl, ← hcount, List.take_length]

/-- An accepted payload whose count agrees belongs to the grammar. -/
theorem grammar_of_parseHello {frame : Frame} {originator : ℤ} {nodes : List ℤ}
    (hcounted : ¬Miscounted frame.payload) (hparse : parseHello frame = .ok (originator, nodes)) :
    HelloGrammar frame.payload originator nodes := by
  obtain ⟨source, count, rest, hpayload, rfl, rfl⟩ := parseHello_eq_ok_iff.mp hparse
  have hlength : rest.length = count.toNat := by
    by_contra hother
    exact hcounted ⟨source, count, rest, hpayload, hother⟩
  refine ⟨source, count, rest, hpayload, hlength, rfl, ?_⟩
  rw [← hlength, List.take_length]

/-- **Accepted HELLO payloads.** `parse_hello` accepts exactly the well-formed payloads and rejects
the others with `ValueError`, unless a count behind the magic byte disagrees with the payload. -/
theorem parseHello_grammar_iff (frame : Frame) :
    DecidesHello frame ↔ ¬Miscounted frame.payload := by
  constructor
  · rintro hdecides ⟨source, count, rest, hpayload, hcount⟩
    have hparse := parseHello_eq_ok_iff.mpr ⟨source, count, rest, hpayload, rfl, rfl⟩
    obtain ⟨other, claimed, ids, hother, hlength, -, -⟩ := (hdecides.accepts _ _).mp hparse
    rw [hpayload] at hother
    cases hother
    exact hcount hlength
  · intro hcounted
    refine ⟨fun _ _ ↦ ⟨grammar_of_parseHello hcounted, HelloGrammar.parseHello_eq⟩, ?_⟩
    intro hforeign
    cases hparse : parseHello frame with
    | error error =>
        obtain ⟨message, rfl⟩ := parseHello_error hparse
        exact ⟨message, rfl⟩
    | ok result => exact absurd (grammar_of_parseHello hcounted hparse) (hforeign _ _)

/-- A broadcast of the text `Hello`, whose third byte promises 108 ids. -/
def textFrame : Frame where
  flags := 0
  hop := 0
  seq := 0
  src := 2
  dst := 0xFF
  payload := [0x48, 0x65, 0x6C, 0x6C, 0x6F]

/-- The text passes as a HELLO and would put its last two letters on the ring. -/
theorem not_decidesHello_text :
    ¬DecidesHello textFrame ∧ parseHello textFrame = .ok (101, [108, 111]) ∧
      ((RoutingTable.fresh 1).updateFromHello [108, 111]).getRingMembers = [108, 111, 1] := by
  have hparse : parseHello textFrame = .ok (101, [108, 111]) := by decide
  refine ⟨?_, hparse, by decide⟩
  intro hdecides
  obtain ⟨source, count, ids, hpayload, hcount, -, -⟩ := (hdecides.accepts _ _).mp hparse
  cases hpayload
  revert hcount
  decide

end UsbDirectFabric.Routing
