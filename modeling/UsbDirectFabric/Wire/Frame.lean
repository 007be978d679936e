import UsbDirectFabric.Foundation.LittleEndian

/-!
# The wire format of `common/frame.py`

Frame packing and unpacking as the reference implementation computes them. The module functions
are polymorphic in the checksum: `crc32` stands for `zlib.crc32`, whose result already lies in 32
bits, so the source's mask with `0xFFFFFFFF` changes nothing and is not written again.

Arguments of the packing functions are arbitrary integers, as Python's are, and a field that does
not fit its format raises `struct.error`. A `Frame` is only ever produced by unpacking; its field
types carry the ranges of the formats they were read with.
-/

namespace UsbDirectFabric.Wire

open LittleEndian

abbrev Bytes := List UInt8

/-- The Python exceptions that the modelled functions raise. -/
inductive PyError
  | valueError (message : String)
  | structError
  | indexError
deriving DecidableEq, Repr

def magic : Bytes := [0x55, 0x46]
def hdrSize : ℕ := 16
def crcSize : ℕ := 4
def minFrame : ℕ := hdrSize + crcSize
def maxPayload : ℕ := 16368

def flagHb : UInt8 := 0x10
def flagFwd : UInt8 := 0x08

/-- The destination that `node.py`, `udf_gadget.py` and `routing.py` treat as broadcast. -/
def broadcast : ℤ := 0xFF

/-- `_pad16`: clear the low four bits of `n + 15`. -/
def pad16 (n : ℕ) : ℕ :=
  if n > 0 then (n + 15) / 16 * 16 else 0

/-- The dataclass `Frame`, with the range of every field in its type. -/
structure Frame where
  flags : UInt8
  hop : UInt8
  seq : UInt32
  src : UInt8
  dst : UInt8
  payload : Bytes
deriving DecidableEq, Repr

def Frame.isHeartbeat (frame : Frame) : Bool :=
  frame.flags &&& flagHb != 0

/-- `data[index]` at an index that is not negative. -/
def item (data : Bytes) (index : ℕ) : Except PyError UInt8 :=
  match data[index]? with
  | some byte => .ok byte
  | none => .error .indexError

/-! ## The `struct` module -/

/-- One unsigned little-endian field of `struct.pack`. -/
def packField (width : ℕ) (number : ℤ) : Except PyError Bytes :=
  if 0 ≤ number ∧ number.toNat < 256 ^ width then .ok (bytes width number.toNat)
  else .error .structError

/-- `struct.pack` over a list of field widths and arguments. -/
def packStruct : List (ℕ × ℤ) → Except PyError Bytes
  | [] => .ok []
  | (width, number) :: fields => do
      let head ← packField width number
      let tail ← packStruct fields
      return head ++ tail

/-- One unsigned little-endian field of `struct.unpack_from`. -/
def unpackFrom (data : Bytes) (offset width : ℕ) : Except PyError ℕ :=
  if offset + width ≤ data.length then .ok (value ((data.drop offset).take width))
  else .error .structError

/-- Python's `repr` of a byte string, as the bad-magic message prints it. -/
def bytesRepr (data : Bytes) : String :=
  let quote : UInt8 := if 0x27 ∈ data ∧ 0x22 ∉ data then 0x22 else 0x27
  let char (byte : UInt8) : String := (Char.ofNat byte.toNat).toString
  let hex (digit : UInt8) : String := (Nat.digitChar digit.toNat).toString
  let escape (byte : UInt8) : String :=
    if byte = quote ∨ byte = 0x5C then "\\" ++ char byte
    else if byte = 0x09 then "\\t"
    else if byte = 0x0A then "\\n"
    else if byte = 0x0D then "\\r"
    else if 0x20 ≤ byte ∧ byte < 0x7F then char byte
    else "\\x" ++ hex (byte / 16) ++ hex (byte % 16)
  "b" ++ char quote ++ String.join (data.map escape) ++ char quote

/-! ## Packing -/

/-- `payload.ljust(padded, b'\x00') if padded else b''`. -/
def padPayload (payload : Bytes) : Bytes :=
  if pad16 payload.length ≠ 0 then
    payload ++ List.replicate (pad16 payload.length - payload.length) 0
  else []

/-- The 16 header bytes `hdr + routing` that both packing functions build. -/
def packHeader (src dst seq : ℤ) (payload : Bytes) (flags hop : ℤ) : Except PyError Bytes := do
  let hdr ← packStruct [(1, flags), (1, hop), (4, seq)]
  let routing ← packStruct [(1, src), (1, dst), (2, payload.length), (4, 0)]
  return magic ++ hdr ++ routing

/-- `raw + struct.pack('<I', crc)`. -/
def sealCrc (crc32 : Bytes → UInt32) (raw : Bytes) : Bytes :=
  raw ++ bytes 4 (crc32 raw).toNat

/-- `pack`: 16-byte header, padded payload, 4-byte CRC. -/
def pack (crc32 : Bytes → UInt32) (src dst seq : ℤ) (payload : Bytes) (flags hop : ℤ) :
    Except PyError Bytes := do
  let header ← packHeader src dst seq payload flags hop
  return sealCrc crc32 (header ++ padPayload payload)

/-- `make_heartbeat`: a normal frame with the HB flag and no payload. -/
def makeHeartbeat (crc32 : Bytes → UInt32) (src seq dst : ℤ) : Except PyError Bytes :=
  pack crc32 src dst seq [] flagHb.toNat 0

/-- `pack_frame`, the tuple-based entry point of the host daemon. -/
def packFrame (crc32 : Bytes → UInt32) (flags seq src dst : ℤ) (payload : Bytes) :
    Except PyError Bytes :=
  pack crc32 src dst seq payload flags 0

/-! ## Unpacking -/

/-- The header fields that both unpacking functions read before they know the frame length. -/
structure Header where
  flags : UInt8
  hop : UInt8
  seq : UInt32
  src : UInt8
  dst : UInt8
  plen : ℕ
deriving DecidableEq, Repr

/-- `struct.unpack_from('<BBI', data, 2)` followed by `struct.unpack_from('<BBHI', data, 8)`. -/
def unpackHeader (data : Bytes) : Except PyError Header := do
  let flags ← unpackFrom data 2 1
  let hop ← unpackFrom data 3 1
  let seq ← unpackFrom data 4 4
  let src ← unpackFrom data 8 1
  let dst ← unpackFrom data 9 1
  let plen ← unpackFrom data 10 2
  let _reserved ← unpackFrom data 12 4
  return { flags := .ofNat flags, hop := .ofNat hop, seq := .ofNat seq,
           src := .ofNat src, dst := .ofNat dst, plen }

/-- The frame returned for an accepted header, with the payload cut out without its padding. -/
def Header.frame (header : Header) (data : Bytes) : Frame where
  flags := header.flags
  hop := header.hop
  seq := header.seq
  src := header.src
  dst := header.dst
  payload := (data.drop hdrSize).take header.plen

/-- `unpack`: every rejection raises `ValueError`. -/
def unpack (crc32 : Bytes → UInt32) (data : Bytes) : Except PyError Frame :=
  if data.length < minFrame then
    .error (.valueError s!"Frame too short ({data.length} < {minFrame})")
  else if data.take 2 ≠ magic then
    .error (.valueError s!"Bad magic: {bytesRepr (data.take 2)}")
  else do
    let header ← unpackHeader data
    let padded := pad16 header.plen
    let expected := hdrSize + padded + crcSize
    if data.length < expected then
      .error (.valueError s!"Frame truncated ({data.length} < {expected})")
    else
      let crcStored ← unpackFrom data (hdrSize + padded) 4
      if crcStored ≠ (crc32 (data.take (hdrSize + padded))).toNat then
        .error (.valueError "CRC mismatch")
      else
        return header.frame data

/-- The tuple that `unpack_frame` returns: a frame without its hop count. -/
structure FrameTuple where
  flags : UInt8
  seq : UInt32
  src : UInt8
  dst : UInt8
  payload : Bytes
deriving DecidableEq, Repr

def Frame.tuple (frame : Frame) : FrameTuple :=
  ⟨frame.flags, frame.seq, frame.src, frame.dst, frame.payload⟩

/-- `unpack_frame`, the tuple-based entry point of the host daemon: `None` for a `ValueError`. -/
def unpackFrame (crc32 : Bytes → UInt32) (data : Bytes) : Except PyError (Option FrameTuple) :=
  match unpack crc32 data with
  | .ok frame => .ok (some frame.tuple)
  | .error (.valueError _) => .ok none
  | .error error => .error error

example : (pack (fun _ ↦ 0) 1 2 42 [0x48, 0x69] 0 0).bind (unpack fun _ ↦ 0) =
    .ok { flags := 0, hop := 0, seq := 42, src := 1, dst := 2, payload := [0x48, 0x69] } := by
  decide

end UsbDirectFabric.Wire
