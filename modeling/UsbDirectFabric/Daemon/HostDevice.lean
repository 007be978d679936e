import Mathlib.Data.Int.Notation
import UsbDirectFabric.Foundation.Run

/-!
# The libusb context and handle of the host daemon, `host/udf_host.py`

`open` and `close` of `UDFHost` keep a context and a handle in two attributes, and `close` releases
what they name. Libusb wants one `libusb_exit` for each successful `libusb_init` and a release only
for a claimed interface. `close` resets the attributes after it has released what they name; the
failure exits of `open` end the context and leave its name behind.
-/

namespace UsbDirectFabric.Daemon

/-- The calls into libusb. Contexts and handles are numbered in the order in which they are made;
a call that makes none returns `none`. -/
inductive LibusbCall
  | init (ctx : Option ℕ)
  | openDevice (ctx : ℕ) (handle : Option ℕ)
  | setAutoDetach (handle : ℕ)
  | claimInterface (handle : ℕ) (rc : ℤ)
  | releaseInterface (handle : ℕ)
  | exit (ctx : ℕ)
deriving DecidableEq, Repr

/-- What libusb holds: the contexts that are initialised and not exited, the handles with the
context of each, and the handles whose interface is claimed. -/
structure Libusb where
  contexts : ℕ
  handles : ℕ
  live : List ℕ
  opened : List (ℕ × ℕ)
  claimed : List ℕ
deriving DecidableEq, Repr

namespace Libusb

def start : Libusb where
  contexts := 0
  handles := 0
  live := []
  opened := []
  claimed := []

def after (library : Libusb) : LibusbCall → Libusb
  | .init (some ctx) =>
      { library with contexts := library.contexts + 1, live := ctx :: library.live }
  | .openDevice ctx (some handle) =>
      { library with
        handles := library.handles + 1
        opened := (handle, ctx) :: library.opened }
  | .claimInterface handle rc =>
      if rc = 0 then { library with claimed := handle :: library.claimed } else library
  | .releaseInterface handle => { library with claimed := library.claimed.erase handle }
  | .exit ctx => { library with live := library.live.erase ctx }
  | _ => library

/-- A handle whose interface is claimed and whose context is live. -/
def Holds (library : Libusb) (handle : ℕ) : Prop :=
  handle ∈ library.claimed ∧ ∃ ctx ∈ library.live, (handle, ctx) ∈ library.opened

/-- An exit takes a live context, and a release a claimed handle of a live context. -/
def Permits (library : Libusb) : LibusbCall → Prop
  | .releaseInterface handle => library.Holds handle
  | .exit ctx => ctx ∈ library.live
  | _ => True

end Libusb

structure HostDevice where
  ctx : Option ℕ
  handle : Option ℕ
deriving DecidableEq, Repr

/-- What libusb returns to `open`: the two return codes, whether it finds the device, and what a
failing `libusb_init` leaves where it would have stored the context. -/
structure LibusbReturns where
  init : ℤ
  left : Option ℕ
  found : Bool
  claim : ℤ
deriving DecidableEq, Repr

/-- `open`: the attributes, the calls into libusb, and the `RuntimeError` if it raises one. -/
def HostDevice.open (device : HostDevice) (library : Libusb) (returns : LibusbReturns) :
    HostDevice × List LibusbCall × Except String Unit :=
  if returns.init ≠ 0 then
    ({ device with ctx := returns.left }, [.init none],
      .error s!"libusb_init failed: {returns.init}")
  else
    let ctx := library.contexts
    if returns.found = false then
      ({ ctx := some ctx, handle := none },
        [.init (some ctx), .openDevice ctx none, .exit ctx],
        .error "Device 1d6b:0105 not found")
    else
      let handle := library.handles
      let device := { ctx := some ctx, handle := some handle }
      let calls := [.init (some ctx), .openDevice ctx (some handle), .setAutoDetach handle,
        .claimInterface handle returns.claim]
      if returns.claim ≠ 0 then
        (device, calls ++ [.exit ctx], .error s!"claim_interface failed: {returns.claim}")
      else (device, calls, .ok ())

/-- `close`, with which `stop` ends too. -/
def HostDevice.close (device : HostDevice) : HostDevice × List LibusbCall :=
  ({ ctx := none, handle := none },
    device.handle.toList.map .releaseInterface ++ device.ctx.toList.map .exit)

inductive HostCall
  | opening (returns : LibusbReturns)
  | closing
deriving DecidableEq, Repr

structure HostSession where
  device : HostDevice
  library : Libusb
deriving DecidableEq, Repr

namespace HostSession

/-- `__init__`. -/
def start : HostSession where
  device := { ctx := none, handle := none }
  library := .start

def calls (session : HostSession) : HostCall → List LibusbCall
  | .opening returns => (session.device.open session.library returns).2.1
  | .closing => session.device.close.2

def outcome (session : HostSession) : HostCall → Except String Unit
  | .opening returns => (session.device.open session.library returns).2.2
  | .closing => .ok ()

def deviceAfter (session : HostSession) : HostCall → HostDevice
  | .opening returns => (session.device.open session.library returns).1
  | .closing => session.device.close.1

def step (session : HostSession) (call : HostCall) : HostSession where
  device := session.deviceAfter call
  library := (session.calls call).foldl Libusb.after session.library

/-- What a call owes to libusb: it makes no call that libusb does not permit, and if it raises, a
`close` after it makes no call at all. -/
structure Lawful (session : HostSession) (call : HostCall) : Prop where
  permitted : Run.Each Libusb.after Libusb.Permits session.library (session.calls call)
  settled : ∀ error, session.outcome call = .error error →
    (session.step call).calls .closing = []

/-- An `open` that raises does so in `libusb_init`, on a host without a handle, and with no context
at the location that it passes. -/
def RaisesEarly (session : HostSession) : HostCall → Prop
  | .opening returns =>
      (returns.init ≠ 0 → returns.left = none ∧ session.device.handle = none) ∧
        (returns.init = 0 → returns.found = true ∧ returns.claim = 0)
  | .closing => True

/-- What the attributes name is what libusb holds. -/
structure Named (session : HostSession) : Prop where
  ctx : ∀ ctx, session.device.ctx = some ctx → ctx ∈ session.library.live
  handle : ∀ handle, session.device.handle = some handle → session.library.Holds handle

/-- Libusb holds what the attributes name and nothing else. -/
structure Accounted (session : HostSession) : Prop where
  live : session.library.live = session.device.ctx.toList
  claimed : session.library.claimed = session.device.handle.toList

/-- `open` is called on a host without a context. -/
def OpensOnce (session : HostSession) : HostCall → Prop
  | .opening _ => session.device.ctx = none
  | .closing => True

variable {session : HostSession} {returns : LibusbReturns}

/-! ## What a call does -/

theorem step_closing :
    session.step .closing =
      { device := { ctx := none, handle := none }
        library := { session.library with
          live := session.device.ctx.toList.foldl List.erase session.library.live
          claimed := session.device.handle.toList.foldl List.erase session.library.claimed } } := by
  cases hctx : session.device.ctx <;> cases hhandle : session.device.handle <;>
    simp [step, deviceAfter, calls, HostDevice.close, Libusb.after, hctx, hhandle]

/-- A failing `libusb_init` changes nothing but the attribute that it was given. -/
theorem step_opening_unmade (hinit : returns.init ≠ 0) :
    session.step (.opening returns) =
      { session with device := { session.device with ctx := returns.left } } := by
  simp [step, deviceAfter, calls, HostDevice.open, Libusb.after, hinit]

/-- An `open` that returns names the context and the handle that it has made. -/
theorem step_opening_claimed (hinit : returns.init = 0) (hfound : returns.found = true)
    (hclaim : returns.claim = 0) :
    session.step (.opening returns) =
      { device := { ctx := some session.library.contexts, handle := some session.library.handles }
        library :=
          { contexts := session.library.contexts + 1
            handles := session.library.handles + 1
            live := session.library.contexts :: session.library.live
            opened := (session.library.handles, session.library.contexts) :: session.library.opened
            claimed := session.library.handles :: session.library.claimed } } := by
  simp [step, deviceAfter, calls, HostDevice.open, Libusb.after, hinit, hfound, hclaim]

theorem calls_closing_eq_nil_iff :
    session.calls .closing = [] ↔ session.device.handle = none ∧ session.device.ctx = none := by
  simp [calls, HostDevice.close]

/-! ## The law of one call -/

theorem live_foldl_release (library : Libusb) (handles : List ℕ) :
    ((handles.map .releaseInterface).foldl Libusb.after library).live = library.live := by
  induction handles generalizing library with
  | nil => rfl
  | cons handle handles ih => exact ih _

theorem lawful_closing (hnamed : session.Named) : session.Lawful .closing where
  permitted := by
    rw [calls, HostDevice.close, Run.each_append]
    constructor
    · cases hhandle : session.device.handle with
      | none => trivial
      | some handle => exact ⟨hnamed.handle handle hhandle, trivial⟩
    · cases hctx : session.device.ctx with
      | none => trivial
      | some ctx =>
          refine ⟨?_, trivial⟩
          rw [Libusb.Permits, live_foldl_release]
          exact hnamed.ctx ctx hctx
  settled := by simp [outcome]

/-- No call of `open` itself is out of place. -/
theorem permitted_opening : Run.Each Libusb.after Libusb.Permits session.library
    (session.calls (.opening returns)) := by
  by_cases hinit : returns.init = 0
  · by_cases hfound : returns.found = true
    · by_cases hclaim : returns.claim = 0
      · simp [calls, HostDevice.open, Run.Each, Libusb.Permits, hinit, hfound, hclaim]
      · simp [calls, HostDevice.open, Run.Each, Libusb.Permits, Libusb.after, hinit, hfound, hclaim]
    · simp [calls, HostDevice.open, Run.Each, Libusb.Permits, Libusb.after, hinit, hfound]
  · simp [calls, HostDevice.open, Run.Each, Libusb.Permits, hinit]

theorem lawful_opening_iff :
    session.Lawful (.opening returns) ↔ session.RaisesEarly (.opening returns) := by
  have hsettled : session.Lawful (.opening returns) ↔
      ∀ error, session.outcome (.opening returns) = .error error →
        (session.step (.opening returns)).calls .closing = [] :=
    ⟨Lawful.settled, fun hsettled ↦ ⟨permitted_opening, hsettled⟩⟩
  rw [hsettled, calls_closing_eq_nil_iff]
  by_cases hinit : returns.init = 0
  · by_cases hfound : returns.found = true
    · by_cases hclaim : returns.claim = 0
      · simp [RaisesEarly, outcome, HostDevice.open, hinit, hfound, hclaim]
      · simp [RaisesEarly, outcome, step, deviceAfter, HostDevice.open, hinit, hfound, hclaim]
    · simp [RaisesEarly, outcome, step, deviceAfter, HostDevice.open, hinit, hfound]
  · simp [RaisesEarly, outcome, step, deviceAfter, HostDevice.open, hinit, and_comm]

theorem lawful_iff (call : HostCall) (hnamed : session.Named) :
    session.Lawful call ↔ session.RaisesEarly call := by
  cases call with
  | closing => exact iff_of_true (lawful_closing hnamed) trivial
  | opening returns => exact lawful_opening_iff

/-! ## What the attributes name -/

theorem named_start : start.Named where
  ctx := by simp [start]
  handle := by simp [start]

theorem named_step {call : HostCall} (hearly : session.RaisesEarly call) :
    (session.step call).Named := by
  cases call with
  | closing =>
      rw [step_closing]
      exact ⟨by simp, by simp⟩
  | opening returns =>
      by_cases hinit : returns.init = 0
      · obtain ⟨hfound, hclaim⟩ := hearly.2 hinit
        rw [step_opening_claimed hinit hfound hclaim]
        exact ⟨by simp, by simp [Libusb.Holds]⟩
      · obtain ⟨hleft, hhandle⟩ := hearly.1 hinit
        rw [step_opening_unmade hinit, hleft]
        exact ⟨by simp, by simp [hhandle]⟩

theorem accounted_start : start.Accounted where
  live := rfl
  claimed := rfl

/-- A host that names no context names no handle, if libusb holds what it names. -/
theorem handle_eq_none (hnamed : session.Named) (haccounted : session.Accounted)
    (hctx : session.device.ctx = none) : session.device.handle = none := by
  cases hhandle : session.device.handle with
  | none => rfl
  | some handle =>
      obtain ⟨_, ctx, hlive, _⟩ := hnamed.handle handle hhandle
      simp [haccounted.live, hctx] at hlive

/-- From a host that accounts for what libusb holds, a call leaves nothing behind exactly if it is
no `open` on top of another. -/
theorem accounted_iff (call : HostCall) (hnamed : session.Named) (haccounted : session.Accounted)
    (hearly : session.RaisesEarly call) :
    (session.step call).Accounted ↔ session.OpensOnce call := by
  obtain ⟨hlive, hclaimed⟩ := haccounted
  cases call with
  | closing =>
      refine iff_of_true ?_ trivial
      rw [step_closing]
      constructor
      · cases hctx : session.device.ctx <;> simp [hlive, hctx]
      · cases hhandle : session.device.handle <;> simp [hclaimed, hhandle]
  | opening returns =>
      by_cases hinit : returns.init = 0
      · obtain ⟨hfound, hclaim⟩ := hearly.2 hinit
        rw [step_opening_claimed hinit hfound hclaim]
        constructor
        · rintro ⟨hafter, _⟩
          simpa [OpensOnce, hlive] using hafter
        · intro hctx
          have hhandle := handle_eq_none hnamed ⟨hlive, hclaimed⟩ hctx
          exact ⟨by simpa [hlive, OpensOnce] using hctx, by simp [hclaimed, hhandle]⟩
      · obtain ⟨hleft, _⟩ := hearly.1 hinit
        rw [step_opening_unmade hinit, hleft]
        constructor
        · rintro ⟨hafter, _⟩
          simpa [OpensOnce, hlive] using hafter
        · intro hctx
          exact ⟨by simpa [hlive, OpensOnce] using hctx, hclaimed⟩

/-- **Release of the context and the handle.** Over all calls of `open` and `close`, every call is
lawful exactly if every `open` that raises raises in `libusb_init`, on a host that names nothing
afterwards. Libusb moreover holds nothing beyond what the attributes name, after every call,
exactly if also no `open` finds a context. -/
theorem each_lawful_iff (calls : List HostCall) :
    (Run.Each step Lawful start calls ↔ Run.Each step RaisesEarly start calls) ∧
    (Run.Each step (fun session call ↦ session.Lawful call ∧ (session.step call).Accounted) start
        calls ↔
      Run.Each step (fun session call ↦ session.RaisesEarly call ∧ session.OpensOnce call) start
        calls) := by
  constructor
  · exact Run.each_iff_each (fun _ _ _ hearly ↦ named_step hearly)
      (fun _ call hnamed ↦ lawful_iff call hnamed) named_start
  · have hkept : ∀ (session : HostSession) (call : HostCall),
        session.Named ∧ session.Accounted → session.RaisesEarly call ∧ session.OpensOnce call →
        (session.step call).Named ∧ (session.step call).Accounted := by
      rintro session call ⟨hnamed, haccounted⟩ ⟨hearly, honce⟩
      exact ⟨named_step hearly, (accounted_iff call hnamed haccounted hearly).mpr honce⟩
    refine Run.each_iff_each hkept ?_ ⟨named_start, accounted_start⟩
    rintro session call ⟨hnamed, haccounted⟩
    rw [lawful_iff call hnamed]
    exact and_congr_right (accounted_iff call hnamed haccounted)

/-- The device is not there: `open` ends the context, and `close` ends it again. -/
theorem not_lawful_missingDevice :
    let missing : HostCall := .opening { init := 0, left := none, found := false, claim := 0 }
    let failed := start.step missing
    ¬Run.Each step Lawful start [missing, .closing] ∧
      failed.calls .closing = [.exit 0] ∧ 0 ∉ failed.library.live := by
  intro missing failed
  refine ⟨fun hlawful ↦ ?_, by decide, by decide⟩
  exact absurd (hlawful.1.settled _ rfl) (by decide)

end HostSession

end UsbDirectFabric.Daemon
