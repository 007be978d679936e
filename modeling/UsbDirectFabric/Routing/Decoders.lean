import UsbDirectFabric.Routing.HelloFormat
import UsbDirectFabric.Wire.Authenticated
import UsbDirectFabric.Wire.Cap
import UsbDirectFabric.Wire.Grammar

/-!
# What the decoders raise

The receive loops catch `ValueError` and nothing else that a decoder could raise.
`struct.unpack_from` raises `struct.error` and an index raises `IndexError` when they reach beyond
their argument, and a slice gives a short result. Every offset comes from a length on the wire, and
the checks in front of the reads cover all of them.
-/

namespace UsbDirectFabric.Routing

open Wire

/-- A decoder returns something with the property or raises `ValueError`. -/
def Decodes {α : Type} (accepted : α → Prop) : Except PyError α → Prop
  | .ok result => accepted result
  | .error (.valueError _) => True
  | .error _ => False

theorem Decodes.intro {α : Type} {accepted : α → Prop} {outcome : Except PyError α}
    (hok : ∀ result, outcome = .ok result → accepted result)
    (herror : ∀ error, outcome = .error error → ∃ message, error = .valueError message) :
    Decodes accepted outcome := by
  cases outcome with
  | ok result => exact hok result rfl
  | error error =>
      obtain ⟨message, rfl⟩ := herror error rfl
      trivial

/-- A frame for which the whole string that its header announces is there, whose payload has the
announced length, and whose payload can be given to `parse_hello` and `parse_cap`. -/
structure SafelyDecoded (data : Bytes) (frame : Frame) : Prop where
  complete : coveredLength data + crcSize ≤ data.length
  payload : frame.payload.length = payloadLength data
  hello : Decodes (fun _ ↦ True) (parseHello frame)
  cap : Decodes (fun _ ↦ True) (parseCap frame.payload)

theorem safelyDecoded_frame {data : Bytes}
    (hcomplete : coveredLength data + crcSize ≤ data.length) :
    SafelyDecoded data ((headerOf data).frame data) where
  complete := hcomplete
  payload := by
    have hpadded := le_pad16 (headerOf data).plen
    have hcovered := coveredLength_eq data
    change ((data.drop hdrSize).take (payloadLength data)).length = payloadLength data
    change payloadLength data ≤ _ at hpadded
    rw [List.length_take, List.length_drop]
    omega
  hello := .intro (fun _ _ ↦ trivial) fun _ ↦ parseHello_error
  cap := .intro (fun _ _ ↦ trivial) fun _ ↦ parseCap_error

variable (crc32 : Bytes → UInt32) (hmac : Hmac)

theorem decodes_unpack (data : Bytes) : Decodes (SafelyDecoded data) (unpack crc32 data) := by
  refine .intro ?_ fun _ ↦ unpack_error crc32
  intro frame hunpack
  obtain ⟨-, -, hcomplete, -, rfl⟩ := (unpack_eq_ok_iff crc32).mp hunpack
  rw [coveredLength_eq] at hcomplete
  exact safelyDecoded_frame hcomplete

theorem decodes_unpackAuthenticated (data key : Bytes) :
    Decodes (SafelyDecoded data) (unpackAuthenticated crc32 hmac data key) := by
  refine .intro ?_ fun _ ↦ unpackAuthenticated_error
  intro frame hunpack
  obtain ⟨hcomplete, -, -, rfl⟩ := unpackAuthenticated_eq_ok hunpack
  rw [coveredLength_eq] at hcomplete
  exact safelyDecoded_frame (by omega)

/-- **Decoders fail only with `ValueError`.** For all strings and keys. -/
theorem decoders_valueError (data key : Bytes) :
    Decodes (SafelyDecoded data) (unpack crc32 data) ∧
      Decodes (SafelyDecoded data) (unpackAuthenticated crc32 hmac data key) :=
  ⟨decodes_unpack crc32 data, decodes_unpackAuthenticated crc32 hmac data key⟩

end UsbDirectFabric.Routing
