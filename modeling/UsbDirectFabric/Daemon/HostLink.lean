import UsbDirectFabric.Daemon.Gadget
import UsbDirectFabric.Daemon.Host
import UsbDirectFabric.Foundation.Crc32
import UsbDirectFabric.Foundation.Run

/-!
# A host daemon writing to a gadget daemon

One `UDFHost` and one `GadgetDaemon` joined by a lossless pipe that keeps the order. The sending
threads of the host can write in the opposite order of their numbers, and then the gadget counts a
gap. When they never do, the transfers on the way carry the numbers that the gadget is going to
expect, in this order, and it never counts one.
-/

namespace UsbDirectFabric.Daemon

open Wire

structure HostLink where
  host : UDFHost
  pipe : List Bytes
  gadget : GadgetDaemon
deriving DecidableEq, Repr

namespace HostLink

inductive Action
  | host (action : UDFHost.Action)
  | read
  | gadget (action : GadgetDaemon.Action)
deriving DecidableEq, Repr

def start (hostId gadgetId : ℤ) : HostLink where
  host := .start hostId
  pipe := []
  gadget := .start gadgetId

variable (crc32 : Bytes → UInt32)

/-- A step of a thread on either side, or a read that takes the next transfer out of the pipe. -/
def step (link : HostLink) : Action → Option HostLink
  | .host action =>
      (link.host.step crc32 action).map fun (host, passed) ↦
        { link with host := host, pipe := link.pipe ++ passed }
  | .read =>
      match link.pipe with
      | [] => none
      | data :: rest =>
          (link.gadget.read (.fresh 0) data).map fun (gadget, _) ↦
            { link with gadget := gadget, pipe := rest }
  | .gadget action =>
      (link.gadget.step crc32 0 action).map fun (gadget, _) ↦ { link with gadget := gadget }

/-- Sendable payloads, successful writes and fewer than `2 ^ 32` frames. -/
def Fits (link : HostLink) : Action → Prop
  | .host action => UDFHost.Fits action ∧ link.host.txSeq < 2 ^ 32
  | _ => True

/-- No thread writes while a smaller number is held by the other one. -/
def InTurn (link : HostLink) : Action → Prop
  | .host action => ∀ seq ∈ link.host.writing action, ∀ other ∈ link.host.held, seq ≤ other
  | _ => True

instance (link : HostLink) (action : Action) : Decidable (link.Fits action) :=
  match action with
  | .host action => inferInstanceAs (Decidable (UDFHost.Fits action ∧ link.host.txSeq < 2 ^ 32))
  | .read => isTrue trivial
  | .gadget _ => isTrue trivial

instance (link : HostLink) (action : Action) : Decidable (link.InTurn action) :=
  match action with
  | .host action => inferInstanceAs
      (Decidable (∀ seq ∈ link.host.writing action, ∀ other ∈ link.host.held, seq ≤ other))
  | .read => isTrue trivial
  | .gadget _ => isTrue trivial

/-! ## The numbers on the way -/

/-- What the gadget has yet to account for: the transfer it has read and those in the pipe, as its
reads will return them. -/
def transit (link : HostLink) : List Bytes :=
  link.gadget.rx.pending ++ link.pipe.map (·.take readSize)

/-- The held numbers are those from `written` up to the counter. -/
def Outstanding (host : UDFHost) (written : ℕ) : Prop :=
  ∃ count, host.held.Perm (List.range' written count) ∧ written + count = host.txSeq

/-- The frames on the way carry the numbers that the gadget will expect, and the host's threads hold
the numbers after them. -/
structure InOrder (link : HostLink) : Prop where
  host : link.host.Sound crc32
  expected : link.gadget.expectedSeq = link.gadget.framesRx
  gaps : link.gadget.seqGaps = 0
  stream : ∃ frames : List Frame,
    List.Forall₂ (fun data frame ↦ unpack crc32 data = .ok frame) link.transit frames ∧
    frames.map (·.seq.toNat) = List.range' link.gadget.framesRx frames.length ∧
    (0 ≤ link.host.nodeId ∧ link.host.nodeId < 256 →
      Outstanding link.host (link.gadget.framesRx + frames.length))

variable {crc32}

theorem inOrder_start (hostId gadgetId : ℤ) : InOrder crc32 (start hostId gadgetId) where
  host := ⟨by simp [start, UDFHost.start], trivial, trivial⟩
  expected := rfl
  gaps := rfl
  stream := ⟨[], .nil, rfl, fun _ ↦ ⟨0, .refl _, rfl⟩⟩

/-- The least held number is the next one to be written. -/
theorem Outstanding.write {host next : UDFHost} {written seq : ℕ}
    (houtstanding : Outstanding host written) (hcounter : next.txSeq = host.txSeq)
    (hheld : host.held.Perm (seq :: next.held)) (hleast : ∀ other ∈ host.held, seq ≤ other) :
    seq = written ∧ Outstanding next (written + 1) := by
  obtain ⟨count, hnumbers, hcount⟩ := houtstanding
  have hrest := hheld.symm.trans hnumbers
  cases count with
  | zero => exact absurd hrest (by simp)
  | succ count =>
      have hmin : seq ≤ written := by
        apply hleast written
        rw [hnumbers.mem_iff]
        simp [List.range'_succ]
      have hfrom : written ≤ seq := by
        have hmem : seq ∈ List.range' written (count + 1) := hrest.mem_iff.mp List.mem_cons_self
        exact (List.mem_range'_1.mp hmem).1
      obtain rfl : seq = written := Nat.le_antisymm hmin hfrom
      rw [List.range'_succ] at hrest
      exact ⟨rfl, count, hrest.cons_inv, by omega⟩

/-- A step of the host, in turn, keeps the order. -/
theorem inOrder_host {link next : HostLink} {action : UDFHost.Action} (horder : InOrder crc32 link)
    (hfits : link.Fits (.host action)) (hturn : link.InTurn (.host action))
    (hstep : link.step crc32 (.host action) = some next) : InOrder crc32 next := by
  obtain ⟨hsound, hexpected, hgaps, frames, hunpack, hseqs, houtstanding⟩ := horder
  obtain ⟨hfits, hcounter⟩ := hfits
  simp only [step, Option.map_eq_some_iff] at hstep
  obtain ⟨⟨host, passed⟩, hstep, rfl⟩ := hstep
  have hnext := UDFHost.sound_step hsound hfits.clean hstep
  obtain ⟨hnode, hnumbers⟩ := UDFHost.numbers_step hsound hfits hstep
  refine ⟨hnext, hexpected, hgaps, ?_⟩
  cases hnumbers with
  | keep hsame hheld =>
      refine ⟨frames, by simpa [transit] using hunpack, hseqs, ?_⟩
      intro hrange
      obtain ⟨count, hperm, hcount⟩ := houtstanding (hnode ▸ hrange)
      exact ⟨count, hheld.trans hperm, hcount.trans hsame.symm⟩
  | allocate hmore hheld =>
      refine ⟨frames, by simpa [transit] using hunpack, hseqs, ?_⟩
      intro hrange
      obtain ⟨count, hperm, hcount⟩ := houtstanding (hnode ▸ hrange)
      refine ⟨count + 1, ?_, ?_⟩
      · rw [List.range'_1_concat, hcount]
        exact hheld.trans ((hperm.cons _).trans (List.perm_append_singleton _ _).symm)
      · rw [hmore, ← hcount]
        rfl
  | write hnow hsame hheld hpacket =>
      obtain ⟨frame, rfl, hsrc, rfl, hpayload⟩ := hpacket
      have hrange : 0 ≤ link.host.nodeId ∧ link.host.nodeId < 256 := by
        rw [hsrc]
        have hbyte := frame.src.toNat_lt
        omega
      obtain ⟨hseq, hrest⟩ := (houtstanding hrange).write hsame hheld (hturn _ hnow)
      refine ⟨frames ++ [frame], ?_, ?_, ?_⟩
      · have hread := unpack_read_encode crc32 hpayload
        simpa [transit] using List.rel_append hunpack (.cons hread .nil)
      · rw [List.map_append, hseqs, List.length_append, List.length_singleton, List.range'_1_concat,
          List.map_singleton, hseq]
      · intro _
        simpa [Nat.add_assoc] using hrest
  | die hholds hunpackable =>
      refine ⟨frames, by simpa [transit] using hunpack, hseqs, ?_⟩
      intro hrange
      exfalso
      rw [hnode] at hrange
      obtain ⟨count, hperm, hcount⟩ := houtstanding hrange
      have hmem := (List.mem_range'_1.mp (hperm.mem_iff.mp hholds)).2
      exact hunpackable ⟨by omega, hrange⟩

/-- A read takes the next transfer on the way. -/
theorem inOrder_read {link next : HostLink} (horder : InOrder crc32 link)
    (hstep : link.step crc32 .read = some next) : InOrder crc32 next := by
  obtain ⟨hsound, hexpected, hgaps, frames, hunpack, hseqs, houtstanding⟩ := horder
  simp only [step] at hstep
  split at hstep
  · cases hstep
  · rename_i data rest hpipe
    simp only [Option.map_eq_some_iff] at hstep
    obtain ⟨⟨gadget, effect⟩, hread, rfl⟩ := hstep
    obtain ⟨hwaiting, ⟨hempty, -, -⟩ | ⟨-, rfl, -⟩⟩ := GadgetDaemon.read_cases hread
    · exfalso
      simp only [transit, hwaiting, GadgetDaemon.RxThread.pending, hpipe, hempty, List.map_cons,
        List.nil_append, List.take_nil] at hunpack
      cases hunpack with
      | cons hfirst _ => cases hfirst
    · refine ⟨hsound, hexpected, hgaps, frames, ?_, hseqs, houtstanding⟩
      simpa [transit, hwaiting, GadgetDaemon.RxThread.pending, hpipe] using hunpack

/-- The gadget accounts for the pending frame, whose number it expects, or changes nothing here. -/
theorem inOrder_gadget {link next : HostLink} {action : GadgetDaemon.Action}
    (horder : InOrder crc32 link) (hstep : link.step crc32 (.gadget action) = some next) :
    InOrder crc32 next := by
  obtain ⟨hsound, hexpected, hgaps, frames, hunpack, hseqs, houtstanding⟩ := horder
  simp only [step, Option.map_eq_some_iff] at hstep
  obtain ⟨⟨gadget, effect⟩, hstep, rfl⟩ := hstep
  have hkept (hpending : gadget.rx.pending = link.gadget.rx.pending)
      (haccounting : gadget.accounting = link.gadget.accounting) :
      InOrder crc32 { link with gadget := gadget } := by
    simp only [GadgetDaemon.accounting, Prod.mk.injEq] at haccounting
    obtain ⟨hframes, hsameGaps, hsameExpected⟩ := haccounting
    refine ⟨hsound, ?_, ?_, frames, ?_, ?_, ?_⟩
    · rw [hsameExpected, hframes, hexpected]
    · rw [hsameGaps, hgaps]
    · simpa only [transit, hpending] using hunpack
    · rw [hframes, hseqs]
    · rw [hframes]
      exact houtstanding
  by_cases haction : action = .rxStep
  · subst haction
    rcases GadgetDaemon.rxStep_cases hstep with
      ⟨hpending, haccounting⟩ | ⟨data, hdata, hsettled, haccount⟩
    · exact hkept hpending haccounting
    · simp only [transit, hdata, List.singleton_append] at hunpack
      cases hunpack with
      | @cons _ frame _ frames hfirst hrest =>
          simp only [List.map_cons, List.length_cons, List.range'_succ, List.cons.injEq] at hseqs
          obtain ⟨hseq, hseqs⟩ := hseqs
          have haccounting := haccount frame hfirst
          rw [GadgetDaemon.accounting_account (hseq.trans hexpected.symm)] at haccounting
          simp only [GadgetDaemon.accounting, Prod.mk.injEq] at haccounting
          obtain ⟨hframes, hsameGaps, hnextExpected⟩ := haccounting
          refine ⟨hsound, ?_, ?_, frames, ?_, ?_, ?_⟩
          · rw [hnextExpected, hframes, hexpected]
          · rw [hsameGaps, hgaps]
          · simpa only [transit, hsettled, List.nil_append] using hrest
          · rw [hframes, hseqs]
          · intro hrange
            rw [hframes]
            have hrest := houtstanding hrange
            rwa [List.length_cons, ← Nat.add_assoc, Nat.add_right_comm] at hrest
  · obtain ⟨haccounting, hrx⟩ := (GadgetDaemon.step_frame hstep).2.2 haction
    exact hkept (by rw [hrx]) haccounting

theorem inOrder_step {link next : HostLink} {action : Action} (horder : InOrder crc32 link)
    (hallowed : link.Fits action ∧ link.InTurn action)
    (hstep : link.step crc32 action = some next) : InOrder crc32 next := by
  cases action with
  | host action => exact inOrder_host horder hallowed.1 hallowed.2 hstep
  | read => exact inOrder_read horder hstep
  | gadget action => exact inOrder_gadget horder hstep

/-- **No gaps in turn.** In every run over the lossless pipe in which no thread of the host writes
while the other one holds a smaller number, the gadget counts no gap and expects the number after
the frames it has received. -/
theorem seqGaps_eq_zero_of_inTurn (hostId gadgetId : ℤ) {link : HostLink}
    (hreaches : Run.Reaches (step crc32) (fun link action ↦ link.Fits action ∧ link.InTurn action)
      (start hostId gadgetId) link) :
    link.gadget.seqGaps = 0 ∧ link.gadget.expectedSeq = link.gadget.framesRx := by
  have horder := hreaches.invariant (inOrder_start hostId gadgetId)
    fun _ _ _ horder hallowed hstep ↦ inOrder_step horder hallowed hstep
  exact ⟨horder.gaps, horder.expected⟩

/-- Both threads take their numbers first and write in the order of these. -/
def orderlyRun : List Action :=
  [.host (.send [0x48, 0x69]), .host .txStep, .host .txStep, .host .hbStep, .host .txStep,
    .host .hbStep, .host (.txWrite .success), .host (.hbWrite .success), .read, .gadget .rxStep,
    .gadget .rxStep, .gadget .rxStep, .read, .gadget .rxStep, .gadget .rxStep]

theorem seqGaps_eq_zero_of_inTurn_orderlyRun :
    ∃ link, Run.Reaches (step Crc32.checksum)
        (fun link action ↦ link.Fits action ∧ link.InTurn action) (start 1 2) link ∧
      link.gadget.framesRx = 2 ∧
      link.gadget.seqGaps = 0 ∧ link.gadget.expectedSeq = link.gadget.framesRx := by
  have hrun : (Run.attempt (step Crc32.checksum)
      (fun link action ↦ link.Fits action ∧ link.InTurn action) (start 1 2) orderlyRun).map
        (·.gadget.framesRx) = some 2 := by
    decide +kernel
  obtain ⟨link, hreaches, hframes⟩ := Run.exists_of_attempt hrun
  exact ⟨link, hreaches, hframes, seqGaps_eq_zero_of_inTurn 1 2 hreaches⟩

/-- The transmit loop takes number 0, the heartbeat loop takes number 1 and writes first. -/
def overtakingRun : List Action :=
  [.host (.send [0x48, 0x69]), .host .txStep, .host .txStep, .host .hbStep, .host .hbStep,
    .host (.hbWrite .success), .read, .gadget .rxStep, .gadget .rxStep]

/-- On the same pipe, with sendable payloads and successful writes, the gadget counts a gap as soon
as one thread overtakes the other between allocation and write. -/
theorem not_seqGaps_eq_zero_overtakingRun :
    ∃ link, Run.Reaches (step Crc32.checksum) Fits (start 1 2) link ∧
      ¬link.gadget.seqGaps = 0 := by
  have hrun : (Run.attempt (step Crc32.checksum) Fits (start 1 2) overtakingRun).map
      (·.gadget.seqGaps) = some 1 := by
    decide +kernel
  obtain ⟨link, hreaches, hgaps⟩ := Run.exists_of_attempt hrun
  refine ⟨link, hreaches, ?_⟩
  rw [hgaps]
  decide

end HostLink

end UsbDirectFabric.Daemon
