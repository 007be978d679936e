import UsbDirectFabric.Foundation.Crc32
import UsbDirectFabric.Foundation.Utf8
import UsbDirectFabric.Wire.RoundTrip

/-!
# CAP frames of `common/frame.py`

A CAP frame carries four numbers and a node name in a fixed payload of 16 bytes. The name is encoded
first and cut to nine bytes afterwards, so the cut can fall into a character, whose remaining bytes
the parser reads as a replacement character. A name is a list of Unicode scalar values.
-/

namespace UsbDirectFabric.Wire

open LittleEndian

def flagCap : UInt8 := 0x20

/-- `name_field`: nine bytes of the encoded name at most, padded with zeros to ten. -/
def nameField (nodeName : List Char) : Bytes :=
  let nameBytes := (Utf8.encode nodeName).take 9
  nameBytes ++ List.replicate (10 - nameBytes.length) 0

def makeCap (crc32 : Bytes → UInt32) (src dst seq : ℤ) (nodeName : List Char)
    (maxFrame version features : ℤ) : Except PyError Bytes := do
  let numbers ← packStruct [(2, version), (2, maxFrame), (1, src), (1, features)]
  pack crc32 src dst seq (numbers ++ nameField nodeName) flagCap.toNat 0

structure Cap where
  version : ℕ
  maxFrame : ℕ
  nodeId : ℕ
  features : ℕ
  name : List Char
deriving DecidableEq, Repr

/-- `parse_cap`: the name is what stands before the first zero byte. -/
def parseCap (payload : Bytes) : Except PyError Cap :=
  if payload.length < 16 then .error (.valueError "CAP payload too short")
  else do
    let version ← unpackFrom payload 0 2
    let maxFrame ← unpackFrom payload 2 2
    let nodeId ← unpackFrom payload 4 1
    let features ← unpackFrom payload 5 1
    let nameRaw := (payload.drop 6).take 10
    let name := Utf8.decode (nameRaw.takeWhile (· ≠ 0))
    return { version, maxFrame, nodeId, features, name }

/-- No read behind the guard of `parse_cap` is out of range. -/
theorem parseCap_of_le {payload : Bytes} (hlength : 16 ≤ payload.length) :
    parseCap payload = .ok
      { version := value ((payload.drop 0).take 2), maxFrame := value ((payload.drop 2).take 2),
        nodeId := value ((payload.drop 4).take 1), features := value ((payload.drop 5).take 1),
        name := Utf8.decode (((payload.drop 6).take 10).takeWhile (· ≠ 0)) } := by
  unfold parseCap
  rw [if_neg (Nat.not_lt.mpr hlength), unpackFrom_eq (by omega), unpackFrom_eq (by omega),
    unpackFrom_eq (by omega), unpackFrom_eq (by omega)]
  rfl

/-- Rejections of `parse_cap` are `ValueError`s. -/
theorem parseCap_error {payload : Bytes} {error : PyError} (h : parseCap payload = .error error) :
    ∃ message, error = .valueError message := by
  by_cases hlength : payload.length < 16
  · unfold parseCap at h
    rw [if_pos hlength] at h
    exact ⟨_, (Except.error.inj h).symm⟩
  · rw [parseCap_of_le (Nat.le_of_not_lt hlength)] at h
    cases h

/-! ## The round trip -/

def capFrame (src dst features : UInt8) (version maxFrame : UInt16) (seq : UInt32)
    (nodeName : List Char) : Frame where
  flags := flagCap
  hop := 0
  seq := seq
  src := src
  dst := dst
  payload := bytes 2 version.toNat ++ (bytes 2 maxFrame.toNat ++ ([src] ++ [features])) ++
    nameField nodeName

theorem length_nameField (nodeName : List Char) : (nameField nodeName).length = 10 := by
  have hcut : ((Utf8.encode nodeName).take 9).length ≤ 9 := List.length_take_le _ _
  simp only [nameField, List.length_append, List.length_replicate]
  omega

theorem length_capFrame (src dst features : UInt8) (version maxFrame : UInt16) (seq : UInt32)
    (nodeName : List Char) :
    (capFrame src dst features version maxFrame seq nodeName).payload.length = 16 := by
  simp [capFrame, length_nameField]

theorem makeCap_eq (crc32 : Bytes → UInt32) (src dst features : UInt8) (version maxFrame : UInt16)
    (seq : UInt32) (nodeName : List Char) :
    makeCap crc32 src.toNat dst.toNat seq.toNat nodeName maxFrame.toNat version.toNat
        features.toNat =
      .ok (encode crc32 (capFrame src dst features version maxFrame seq nodeName)) := by
  have hword (word : UInt16) : packField 2 word.toNat = .ok (bytes 2 word.toNat) :=
    packField_natCast (by simpa using word.toNat_lt)
  have hnumbers : packStruct [(2, (version.toNat : ℤ)), (2, (maxFrame.toNat : ℤ)),
      (1, (src.toNat : ℤ)), (1, (features.toNat : ℤ))] =
        .ok (bytes 2 version.toNat ++ (bytes 2 maxFrame.toNat ++ ([src] ++ [features]))) := by
    simp only [packStruct, packField_byte, hword]
    rfl
  have hpack := pack_frame crc32 (capFrame src dst features version maxFrame seq nodeName)
    (by rw [length_capFrame]; decide)
  simp only [makeCap, hnumbers, bind, Except.bind]
  exact hpack

/-- The zero bytes that fill the name field end the name. -/
theorem takeWhile_nameField {nodeName : List Char} (hnul : Char.ofNat 0 ∉ nodeName) :
    (nameField nodeName).takeWhile (· ≠ 0) = (Utf8.encode nodeName).take 9 := by
  have hbytes : ∀ byte ∈ (Utf8.encode nodeName).take 9, decide (byte ≠ 0) = true := by
    intro byte hbyte
    rw [decide_eq_true_iff]
    rintro rfl
    exact Utf8.zero_notMem_encode hnul (List.mem_of_mem_take hbyte)
  have hcut : ((Utf8.encode nodeName).take 9).length ≤ 9 := List.length_take_le _ _
  obtain ⟨fill, hfill⟩ : ∃ fill, 10 - ((Utf8.encode nodeName).take 9).length = fill + 1 :=
    ⟨9 - ((Utf8.encode nodeName).take 9).length, by omega⟩
  rw [nameField, List.takeWhile_append_of_pos hbytes, hfill, List.replicate_succ]
  simp

/-- What `parse_cap` reads from a frame of `make_cap`. -/
theorem parseCap_capFrame {src dst features : UInt8} {version maxFrame : UInt16} {seq : UInt32}
    {nodeName : List Char} (hnul : Char.ofNat 0 ∉ nodeName) :
    parseCap (capFrame src dst features version maxFrame seq nodeName).payload = .ok
      { version := version.toNat, maxFrame := maxFrame.toNat, nodeId := src.toNat,
        features := features.toNat, name := Utf8.decode ((Utf8.encode nodeName).take 9) } := by
  set payload := (capFrame src dst features version maxFrame seq nodeName).payload with hpayload
  have hversion : (payload.drop 0).take 2 = bytes 2 version.toNat := rfl
  have hmaxFrame : (payload.drop 2).take 2 = bytes 2 maxFrame.toNat := rfl
  have hsrc : (payload.drop 4).take 1 = [src] := rfl
  have hfeatures : (payload.drop 5).take 1 = [features] := rfl
  have hname : (payload.drop 6).take 10 = nameField nodeName := by
    have hdrop : payload.drop 6 = nameField nodeName := rfl
    rw [hdrop, List.take_of_length_le (le_of_eq (length_nameField nodeName))]
  rw [parseCap_of_le (le_of_eq (length_capFrame ..).symm), hversion, hmaxFrame, hsrc, hfeatures,
    hname, takeWhile_nameField hnul, value_bytes (by simpa using version.toNat_lt),
    value_bytes (by simpa using maxFrame.toNat_lt), value_singleton, value_singleton]

/-- What is packed as CAP comes back from `unpack` and `parse_cap` with all four numbers, and with
the longest prefix of the name that fits nine bytes. -/
def CapReturns (crc32 : Bytes → UInt32) (src dst features : UInt8) (version maxFrame : UInt16)
    (seq : UInt32) (nodeName : List Char) : Prop :=
  ∃ kept, Utf8.LongestFitting 9 nodeName kept ∧
    (makeCap crc32 src.toNat dst.toNat seq.toNat nodeName maxFrame.toNat version.toNat
        features.toNat >>= unpack crc32 >>= fun frame ↦ parseCap frame.payload) =
      .ok { version := version.toNat, maxFrame := maxFrame.toNat, nodeId := src.toNat,
            features := features.toNat, name := kept }

/-- The name that comes back is the decoded cut. -/
theorem capReturns_iff_decode {crc32 : Bytes → UInt32} {src dst features : UInt8}
    {version maxFrame : UInt16} {seq : UInt32} {nodeName : List Char}
    (hnul : Char.ofNat 0 ∉ nodeName) :
    CapReturns crc32 src dst features version maxFrame seq nodeName ↔
      Utf8.decode ((Utf8.encode nodeName).take 9) = Utf8.fitting 9 nodeName := by
  have hlength := length_capFrame src dst features version maxFrame seq nodeName
  have hunpack := unpack_encode crc32 (capFrame src dst features version maxFrame seq nodeName)
    (by rw [hlength]; decide)
  unfold CapReturns
  rw [makeCap_eq]
  change (∃ kept, _ ∧ (unpack crc32 _ >>= _) = _) ↔ _
  rw [hunpack]
  change (∃ kept, _ ∧ parseCap _ = _) ↔ _
  rw [parseCap_capFrame hnul]
  simp [Utf8.longestFitting_iff]

/-- **CAP round trip.** The name comes back as its longest prefix of at most nine bytes exactly if
no character lies across the ninth byte; the numbers come back in any case. -/
theorem makeCap_roundTrip_iff (crc32 : Bytes → UInt32) (src dst features : UInt8)
    (version maxFrame : UInt16) (seq : UInt32) {nodeName : List Char}
    (hnul : Char.ofNat 0 ∉ nodeName) :
    CapReturns crc32 src dst features version maxFrame seq nodeName ↔
      Utf8.CutsCleanly 9 nodeName := by
  rw [capReturns_iff_decode hnul]
  rcases Utf8.decode_take_encode 9 nodeName with ⟨hclean, hdecode⟩ | ⟨hclean, hdecode⟩
  · exact iff_of_true hdecode hclean
  · refine iff_of_false ?_ hclean
    rw [hdecode]
    exact fun hequal ↦ List.cons_ne_nil _ _ (List.append_right_eq_self.mp hequal)

theorem makeCap_roundTrip_iff_short :
    CapReturns Crc32.checksum 1 2 0 1 16388 0 "abcdefgé".toList ↔
      Utf8.CutsCleanly 9 "abcdefgé".toList :=
  makeCap_roundTrip_iff Crc32.checksum 1 2 0 1 16388 0 (by decide)

/-- The two bytes of `é` lie on both sides of the cut. -/
theorem not_capReturns_straddling :
    ¬CapReturns Crc32.checksum 1 2 0 1 16388 0 "abcdefghé".toList := by
  rw [capReturns_iff_decode (by decide)]
  decide

end UsbDirectFabric.Wire
