import UsbDirectFabric.Wire.Frame

/-!
# Waiting for `FUNCTIONFS_ENABLE`, `gadget/udf_gadget.py`

`_wait_for_enable` reads batches of `ep0` events and scans each batch at the stride of one event.
The kernel writes the setup packet of an event first and its type behind it, so the byte that the
scan compares is the first setup byte. The scan looks at every event once and at nothing beyond the
batch, but it reports what the host sent as a request and not what the kernel reported as a type.
-/

namespace UsbDirectFabric.Daemon

open Wire

/-- `struct usb_functionfs_event` of the kernel: the setup packet, the type, and padding. -/
structure FunctionfsEvent where
  setup : Vector UInt8 8
  type : UInt8
  pad : Vector UInt8 3
deriving DecidableEq, Repr

def FunctionfsEvent.encode (event : FunctionfsEvent) : Bytes :=
  event.setup.toList ++ event.type :: event.pad.toList

namespace GadgetDaemon

def functionfsEnable : UInt8 := 2
def ffsEventSize : ℕ := 12

/-- The body of `_wait_for_enable` over the remaining offsets; `true` is its early return. -/
def scanAt (data : Bytes) : List ℕ → Except PyError Bool
  | [] => .ok false
  | index :: indices => do
      let eventType ← item data index
      if eventType = functionfsEnable then return true else scanAt data indices

/-- The scan of one read, over `range(0, len(data), FFS_EVENT_SIZE)`. -/
def scan (data : Bytes) : Except PyError Bool :=
  scanAt data (List.range' 0 ((data.length + (ffsEventSize - 1)) / ffsEventSize) ffsEventSize)

/-- The attempts of `_wait_for_enable`; `none` is a read that raises `OSError`. -/
def attemptReads : List (Option Bytes) → Except PyError Bool
  | [] => .ok false
  | none :: reads => attemptReads reads
  | some data :: reads => do
      if ← scan data then return true else attemptReads reads

/-- `_wait_for_enable`: whether it returns before it prints its warning. -/
def waitForEnable (reads : Fin 50 → Option Bytes) : Except PyError Bool :=
  attemptReads (List.ofFn reads)

/-! ## The scan stays inside its data -/

theorem scanAt_cons {data : Bytes} {index : ℕ} {byte : UInt8} {indices : List ℕ}
    (hbyte : item data index = .ok byte) :
    scanAt data (index :: indices) =
      if byte = functionfsEnable then .ok true else scanAt data indices := by
  rw [scanAt, hbyte]
  rfl

theorem attemptReads_some {data : Bytes} {seen : Bool} {reads : List (Option Bytes)}
    (hscan : scan data = .ok seen) :
    attemptReads (some data :: reads) = if seen then .ok true else attemptReads reads := by
  rw [attemptReads, hscan]
  rfl

theorem exists_scanAt {data : Bytes} {indices : List ℕ}
    (hindices : ∀ index ∈ indices, index < data.length) :
    ∃ seen, scanAt data indices = .ok seen := by
  induction indices with
  | nil => exact ⟨false, rfl⟩
  | cons index indices ih =>
      have hindex := hindices index List.mem_cons_self
      have hbyte : item data index = .ok data[index] := by simp [item, hindex]
      rw [scanAt_cons hbyte]
      split
      · exact ⟨true, rfl⟩
      · exact ih fun later hlater ↦ hindices later (List.mem_cons_of_mem _ hlater)

/-- Whatever a read returned, the scan of it raises nothing. -/
theorem exists_scan (data : Bytes) : ∃ seen, scan data = .ok seen := by
  refine exists_scanAt fun index hindex ↦ ?_
  obtain ⟨step, hstep, rfl⟩ := List.mem_range'.mp hindex
  simp only [ffsEventSize] at hstep ⊢
  omega

theorem exists_attemptReads (reads : List (Option Bytes)) :
    ∃ seen, attemptReads reads = .ok seen ∧
      (seen = true ↔ ∃ data, some data ∈ reads ∧ scan data = .ok true) := by
  induction reads with
  | nil => exact ⟨false, rfl, by simp⟩
  | cons first rest ih =>
      cases first with
      | none => simpa [attemptReads] using ih
      | some data =>
          obtain ⟨seen, hseen⟩ := exists_scan data
          rw [attemptReads_some hseen]
          cases seen with
          | false => simpa [hseen] using ih
          | true => exact ⟨true, rfl, by simp [hseen]⟩

/-! ## The scan of a batch of events -/

theorem length_encode (event : FunctionfsEvent) : event.encode.length = ffsEventSize := by
  simp [FunctionfsEvent.encode, ffsEventSize]

theorem length_batch (events : List FunctionfsEvent) :
    (events.flatMap FunctionfsEvent.encode).length = ffsEventSize * events.length := by
  induction events with
  | nil => rfl
  | cons event events ih =>
      rw [List.flatMap_cons, List.length_append, length_encode, ih, List.length_cons]
      ring

/-- The byte at the start of an event is the first byte of its setup packet. -/
theorem item_encode (front rest : Bytes) (event : FunctionfsEvent) :
    item (front ++ (event.encode ++ rest)) front.length = .ok event.setup[0] := by
  simp [item, FunctionfsEvent.encode]

/-- From the start of an event on, the scan sees the first setup byte of every event. -/
theorem scanAt_batch (front : Bytes) (events : List FunctionfsEvent) :
    scanAt (front ++ events.flatMap FunctionfsEvent.encode)
        (List.range' front.length events.length ffsEventSize) =
      .ok (events.any fun event ↦ event.setup[0] = functionfsEnable) := by
  induction events generalizing front with
  | nil => rfl
  | cons event events ih =>
      have hnext := ih (front ++ event.encode)
      rw [List.length_append, length_encode, List.append_assoc] at hnext
      rw [List.flatMap_cons, List.length_cons, List.range'_succ, scanAt_cons (item_encode ..),
        hnext]
      by_cases henable : event.setup[0] = functionfsEnable
      · simp [henable]
      · simp [henable]

theorem scan_batch (events : List FunctionfsEvent) :
    scan (events.flatMap FunctionfsEvent.encode) =
      .ok (events.any fun event ↦ event.setup[0] = functionfsEnable) := by
  have hcount : (ffsEventSize * events.length + (ffsEventSize - 1)) / ffsEventSize =
      events.length := by
    simp only [ffsEventSize]
    omega
  rw [scan, length_batch, hcount]
  exact scanAt_batch [] events

/-- `_wait_for_enable` raises nothing, and over reads that return batches of events it returns
without its warning exactly if some setup packet begins with the number of the enable event. -/
theorem waitForEnable_batches (batches : Fin 50 → Option (List FunctionfsEvent)) :
    ∃ seen,
      waitForEnable (fun attempt ↦
        (batches attempt).map (List.flatMap FunctionfsEvent.encode)) = .ok seen ∧
      (seen = true ↔ ∃ attempt events, batches attempt = some events ∧
        ∃ event ∈ events, event.setup[0] = functionfsEnable) := by
  obtain ⟨seen, hreturns, hseen⟩ := exists_attemptReads (List.ofFn fun attempt ↦
    (batches attempt).map (List.flatMap FunctionfsEvent.encode))
  refine ⟨seen, hreturns, hseen.trans ?_⟩
  simp only [List.mem_ofFn, Option.map_eq_some_iff]
  constructor
  · rintro ⟨_, ⟨attempt, events, hevents, rfl⟩, hscan⟩
    exact ⟨attempt, events, hevents, by simpa [scan_batch] using hscan⟩
  · rintro ⟨attempt, events, hevents, hfound⟩
    exact ⟨_, ⟨attempt, events, hevents, rfl⟩, by simpa [scan_batch] using hfound⟩

/-- What `_wait_for_enable` expects of a batch: the scan succeeds, and it reports an enable event
exactly if there is one. -/
def DetectsEnable (events : List FunctionfsEvent) : Prop :=
  ∃ seen, scan (events.flatMap FunctionfsEvent.encode) = .ok seen ∧
    (seen = true ↔ ∃ event ∈ events, event.type = functionfsEnable)

/-- **Detection of `FUNCTIONFS_ENABLE`.** The scan of a batch is right exactly if some setup packet
begins with the number of the enable event just when some event is an enable event. -/
theorem detectsEnable_iff (events : List FunctionfsEvent) :
    DetectsEnable events ↔
      ((∃ event ∈ events, event.setup[0] = functionfsEnable) ↔
        ∃ event ∈ events, event.type = functionfsEnable) := by
  simp [DetectsEnable, scan_batch]

/-- A lone enable event is missed, and a request with first byte 2 passes for one. -/
theorem not_detectsEnable_zeroSetup :
    let bound : FunctionfsEvent := ⟨.replicate 8 0, 0, .replicate 3 0⟩
    let enabled : FunctionfsEvent := ⟨.replicate 8 0, 2, .replicate 3 0⟩
    let request : FunctionfsEvent := ⟨#v[2, 1, 0, 0, 0x81, 0, 0, 0], 4, .replicate 3 0⟩
    ¬DetectsEnable [bound, enabled] ∧ ¬DetectsEnable [bound, request] := by
  intro bound enabled request
  simp only [DetectsEnable, scan_batch]
  simp [bound, enabled, request, functionfsEnable]

end GadgetDaemon

end UsbDirectFabric.Daemon
