import Mathlib.Data.List.Nodup
import UsbDirectFabric.Foundation.Run

/-!
# The descriptors of a node, `common/node.py`

`start` opens the endpoints that it finds and overwrites the attributes of these alone; `stop`
closes every descriptor that an attribute holds and leaves the attribute as it is. The operating
system may give the number of a closed descriptor to another file. So a descriptor is identified
here by the call of `os.open` that made it, and the number is what that call returned.
-/

namespace UsbDirectFabric.Daemon

/-- The attributes `_gadget_ep_out`, `_gadget_ep_in` and `_host_fd`. -/
inductive Endpoint
  | gadgetEpOut
  | gadgetEpIn
  | hostFd
deriving DecidableEq, Repr

def Endpoint.all : List Endpoint := [.gadgetEpOut, .gadgetEpIn, .hostFd]

theorem Endpoint.mem_all (endpoint : Endpoint) : endpoint ∈ Endpoint.all := by
  cases endpoint <;> decide

theorem Endpoint.nodup_all : Endpoint.all.Nodup := by
  decide

/-- What `_open_endpoints` finds: no such path, one that `os.open` refuses with an `OSError`, or one
for which it returns a number. -/
inductive Finding
  | absent
  | refused
  | opened (number : ℕ)
deriving DecidableEq, Repr

structure Descriptor where
  number : ℕ
  opening : ℕ
deriving DecidableEq, Repr

inductive NodeLoop
  | gadgetRx
  | gadgetTx
  | hostRx
  | hostTx
deriving DecidableEq, Repr

/-- The endpoint that a loop reads or writes; `_gadget_tx_loop` only tests its attribute. -/
def NodeLoop.endpoint : NodeLoop → Option Endpoint
  | .gadgetRx => some .gadgetEpOut
  | .gadgetTx => none
  | .hostRx => some .hostFd
  | .hostTx => some .hostFd

inductive NodeEvent
  | start (found : Endpoint → Finding)
  | stop
  | iterate (loop : NodeLoop)

/-- The attributes of `UDFNode` that `start` and `stop` set, with what has happened so far: the
calls of `os.open`, how many of them came before the latest `start`, and what was closed. `ever`
marks the endpoints that some `start` has opened, `now` those that the latest `start` has opened
with no `stop` since. -/
structure NodeDescriptors where
  running : Bool
  threads : Bool
  descriptors : Endpoint → Option Descriptor
  openings : ℕ
  latest : ℕ
  closed : List ℕ
  ever : Endpoint → Bool
  now : Endpoint → Bool

namespace NodeDescriptors

/-- `__init__`. -/
def fresh : NodeDescriptors where
  running := false
  threads := false
  descriptors := fun _ ↦ none
  openings := 0
  latest := 0
  closed := []
  ever := fun _ ↦ false
  now := fun _ ↦ false

def assign (node : NodeDescriptors) (endpoint : Endpoint) (number : ℕ) : NodeDescriptors :=
  { node with
    descriptors := Function.update node.descriptors endpoint (some ⟨number, node.openings⟩)
    openings := node.openings + 1
    ever := Function.update node.ever endpoint true
    now := Function.update node.now endpoint true }

/-- `_open_endpoints` over the endpoints that remain, and whether it returns. -/
def openEndpoints (node : NodeDescriptors) (found : Endpoint → Finding) :
    List Endpoint → NodeDescriptors × Bool
  | [] => (node, true)
  | endpoint :: endpoints =>
      match found endpoint with
      | .absent => node.openEndpoints found endpoints
      | .refused => (node, false)
      | .opened number => (node.assign endpoint number).openEndpoints found endpoints

def begin (node : NodeDescriptors) : NodeDescriptors :=
  { node with running := true, latest := node.openings, now := fun _ ↦ false }

/-- `start`: the loops are started if `_open_endpoints` returns. -/
def start (node : NodeDescriptors) (found : Endpoint → Finding) : NodeDescriptors :=
  let (node, returned) := node.begin.openEndpoints found Endpoint.all
  { node with threads := node.threads || returned }

def close (node : NodeDescriptors) (descriptor : Descriptor) : NodeDescriptors :=
  { node with closed := descriptor.opening :: node.closed }

/-- The descriptors that `_close_endpoints` closes, in order. -/
def held (node : NodeDescriptors) : List Descriptor :=
  Endpoint.all.filterMap node.descriptors

/-- `stop`: the loops are joined before `_close_endpoints` begins. -/
def stop (node : NodeDescriptors) : NodeDescriptors :=
  let joined := { node with running := false, threads := false, now := fun _ ↦ false }
  joined.held.foldl close joined

def used (node : NodeDescriptors) (loop : NodeLoop) : Option Descriptor :=
  if node.threads ∧ node.running then loop.endpoint.bind node.descriptors else none

def step (node : NodeDescriptors) : NodeEvent → NodeDescriptors
  | .start found => node.start found
  | .stop => node.stop
  | .iterate _ => node

/-- A descriptor that the latest `start` has opened and nothing has closed since. -/
def Owns (node : NodeDescriptors) (descriptor : Descriptor) : Prop :=
  node.latest ≤ descriptor.opening ∧ descriptor.opening ∉ node.closed

/-- The node owns every descriptor that it closes, when it closes it, or that a loop uses. -/
def TouchesOwn (node : NodeDescriptors) : NodeEvent → Prop
  | .start _ => True
  | .stop => Run.Each close Owns node node.held
  | .iterate loop => ∀ descriptor ∈ node.used loop, node.Owns descriptor

/-- Every endpoint in question that some `start` has opened was opened by the latest one, with no
`stop` since. -/
def OpenedLast (node : NodeDescriptors) : NodeEvent → Prop
  | .start _ => True
  | .stop => ∀ endpoint, node.ever endpoint → node.now endpoint
  | .iterate loop =>
      node.threads ∧ node.running → ∀ endpoint ∈ loop.endpoint, node.ever endpoint →
        node.now endpoint

/-- What the attributes hold, in terms of the calls of `os.open` and of the two marks. -/
structure Ledger (node : NodeDescriptors) : Prop where
  ever : ∀ endpoint, node.ever endpoint = (node.descriptors endpoint).isSome
  owns : ∀ endpoint descriptor, node.descriptors endpoint = some descriptor →
    (node.Owns descriptor ↔ node.now endpoint = true)
  distinct : ∀ endpoint other descriptor another, node.descriptors endpoint = some descriptor →
    node.descriptors other = some another → descriptor.opening = another.opening →
    endpoint = other
  opened : ∀ endpoint descriptor, node.descriptors endpoint = some descriptor →
    descriptor.opening < node.openings
  closed : ∀ opening ∈ node.closed, opening < node.openings
  latest : node.latest ≤ node.openings

variable {node : NodeDescriptors}

/-! ## `start` and `stop` keep the ledger -/

theorem ledger_fresh : fresh.Ledger where
  ever := by simp [fresh]
  owns := by simp [fresh]
  distinct := by simp [fresh]
  opened := by simp [fresh]
  closed := by simp [fresh]
  latest := Nat.le_refl _

/-- When `start` begins, everything that the attributes hold is from before. -/
theorem ledger_begin (hledger : node.Ledger) : node.begin.Ledger where
  ever := hledger.ever
  owns endpoint descriptor hholds := by
    have hopened := hledger.opened endpoint descriptor hholds
    simp only [Owns, begin, Bool.false_eq_true, iff_false, not_and]
    omega
  distinct := hledger.distinct
  opened := hledger.opened
  closed := hledger.closed
  latest := Nat.le_refl _

/-- After an assignment an attribute holds the new descriptor or what it has held before. -/
theorem assign_cases {endpoint other : Endpoint} {number : ℕ} {descriptor : Descriptor}
    (hholds : (node.assign endpoint number).descriptors other = some descriptor) :
    (other = endpoint ∧ descriptor.opening = node.openings) ∨
      (other ≠ endpoint ∧ node.descriptors other = some descriptor) := by
  by_cases hother : other = endpoint
  · subst hother
    obtain rfl : ⟨number, node.openings⟩ = descriptor := by simpa [assign] using hholds
    exact .inl ⟨rfl, rfl⟩
  · exact .inr ⟨hother, by simpa [assign, hother] using hholds⟩

theorem ledger_assign (hledger : node.Ledger) (endpoint : Endpoint) (number : ℕ) :
    (node.assign endpoint number).Ledger where
  ever other := by
    by_cases hother : other = endpoint
    · subst hother
      simp [assign]
    · simp [assign, hother, hledger.ever]
  owns other descriptor hholds := by
    rcases assign_cases hholds with ⟨rfl, hnew⟩ | ⟨hother, hearlier⟩
    · have hunclosed : node.openings ∉ node.closed := fun hclosed ↦
        Nat.lt_irrefl _ (hledger.closed _ hclosed)
      simp [assign, Owns, hnew, hledger.latest, hunclosed]
    · simpa [assign, hother, Owns] using hledger.owns other descriptor hearlier
  distinct first second descriptor another hfirst hsecond hequal := by
    rcases assign_cases hfirst with ⟨rfl, hnew⟩ | ⟨_, hearlier⟩
    · rcases assign_cases hsecond with ⟨hsame, _⟩ | ⟨_, hother⟩
      · exact hsame.symm
      · have hopened := hledger.opened second another hother
        omega
    · rcases assign_cases hsecond with ⟨_, hnew⟩ | ⟨_, hother⟩
      · have hopened := hledger.opened first descriptor hearlier
        omega
      · exact hledger.distinct first second descriptor another hearlier hother hequal
  opened other descriptor hholds := by
    change descriptor.opening < node.openings + 1
    rcases assign_cases hholds with ⟨_, hnew⟩ | ⟨_, hearlier⟩
    · omega
    · have hopened := hledger.opened other descriptor hearlier
      omega
  closed opening hclosed := Nat.lt_succ_of_lt (hledger.closed opening hclosed)
  latest := Nat.le_succ_of_le hledger.latest

theorem ledger_openEndpoints (hledger : node.Ledger) (found : Endpoint → Finding)
    (endpoints : List Endpoint) : (node.openEndpoints found endpoints).1.Ledger := by
  induction endpoints generalizing node with
  | nil => exact hledger
  | cons endpoint endpoints ih =>
      rw [openEndpoints]
      split
      · exact ih hledger
      · exact hledger
      · exact ih (ledger_assign hledger endpoint _)

theorem ledger_start (hledger : node.Ledger) (found : Endpoint → Finding) :
    (node.start found).Ledger := by
  have hopened := ledger_openEndpoints (ledger_begin hledger) found Endpoint.all
  exact ⟨hopened.ever, hopened.owns, hopened.distinct, hopened.opened, hopened.closed,
    hopened.latest⟩

/-- Closing descriptors changes nothing but the record of what was closed. -/
theorem foldl_close (descriptors : List Descriptor) :
    descriptors.foldl close node =
      { node with closed := (descriptors.map Descriptor.opening).reverse ++ node.closed } := by
  induction descriptors generalizing node with
  | nil => rfl
  | cons descriptor descriptors ih => simp [ih, close]

theorem mem_held {descriptor : Descriptor} :
    descriptor ∈ node.held ↔ ∃ endpoint, node.descriptors endpoint = some descriptor := by
  simp [held, Endpoint.mem_all]

theorem ledger_stop (hledger : node.Ledger) : node.stop.Ledger := by
  rw [stop, foldl_close]
  refine ⟨hledger.ever, ?_, hledger.distinct, hledger.opened, ?_, hledger.latest⟩
  · intro endpoint descriptor hholds
    have hheld : descriptor ∈ node.held := mem_held.mpr ⟨endpoint, hholds⟩
    have hclosed : descriptor.opening ∈ node.held.map Descriptor.opening :=
      List.mem_map_of_mem hheld
    simp only [Bool.false_eq_true, iff_false]
    rintro ⟨_, hopen⟩
    exact hopen (List.mem_append_left _ (List.mem_reverse.mpr hclosed))
  · intro opening hopening
    rcases List.mem_append.mp hopening with hnow | hbefore
    · obtain ⟨descriptor, hheld, rfl⟩ := List.mem_map.mp (List.mem_reverse.mp hnow)
      obtain ⟨endpoint, hholds⟩ := mem_held.mp hheld
      exact hledger.opened endpoint descriptor hholds
    · exact hledger.closed opening hbefore

theorem ledger_step (hledger : node.Ledger) (event : NodeEvent) : (node.step event).Ledger := by
  cases event with
  | start found => exact ledger_start hledger found
  | stop => exact ledger_stop hledger
  | iterate loop => exact hledger

/-! ## What is touched is owned -/

/-- Of an attribute that is set, what it holds is owned exactly if its endpoint was opened last. -/
theorem owns_iff (hledger : node.Ledger) (endpoint : Endpoint) :
    (∀ descriptor, node.descriptors endpoint = some descriptor → node.Owns descriptor) ↔
      (node.ever endpoint = true → node.now endpoint = true) := by
  rw [hledger.ever]
  cases hholds : node.descriptors endpoint with
  | none => simp
  | some descriptor => simp [hledger.owns endpoint descriptor hholds]

/-- Closing descriptors of different openings one after the other, each is owned in its turn exactly
if all of them are owned at first. -/
theorem each_close_iff {descriptors : List Descriptor}
    (hdistinct : (descriptors.map Descriptor.opening).Nodup) :
    Run.Each close Owns node descriptors ↔ ∀ descriptor ∈ descriptors, node.Owns descriptor := by
  induction descriptors generalizing node with
  | nil => simp [Run.Each]
  | cons first rest ih =>
      rw [List.map_cons, List.nodup_cons] at hdistinct
      obtain ⟨hfirst, hrest⟩ := hdistinct
      have hclose : ∀ descriptor ∈ rest,
          ((node.close first).Owns descriptor ↔ node.Owns descriptor) := by
        intro descriptor hdescriptor
        have hother : descriptor.opening ≠ first.opening := fun hequal ↦
          hfirst (hequal ▸ List.mem_map_of_mem hdescriptor)
        simp [Owns, close, hother]
      rw [Run.Each, ih hrest, List.forall_mem_cons]
      exact and_congr_right fun _ ↦ forall₂_congr hclose

theorem nodup_held (hledger : node.Ledger) : (node.held.map Descriptor.opening).Nodup := by
  rw [held, List.map_filterMap]
  refine Endpoint.nodup_all.filterMap fun endpoint other opening hholds hother ↦ ?_
  obtain ⟨descriptor, hdescriptor, rfl⟩ := Option.map_eq_some_iff.mp hholds
  obtain ⟨another, hanother, hequal⟩ := Option.map_eq_some_iff.mp hother
  exact hledger.distinct endpoint other descriptor another hdescriptor hanother hequal.symm

theorem stop_touchesOwn_iff (hledger : node.Ledger) :
    node.TouchesOwn .stop ↔ node.OpenedLast .stop := by
  rw [TouchesOwn, each_close_iff (nodup_held hledger)]
  constructor
  · intro howns endpoint
    exact (owns_iff hledger endpoint).mp fun descriptor hholds ↦
      howns descriptor (mem_held.mpr ⟨endpoint, hholds⟩)
  · intro hlast descriptor hheld
    obtain ⟨endpoint, hholds⟩ := mem_held.mp hheld
    exact (owns_iff hledger endpoint).mpr (hlast endpoint) descriptor hholds

theorem iterate_touchesOwn_iff (hledger : node.Ledger) (loop : NodeLoop) :
    node.TouchesOwn (.iterate loop) ↔ node.OpenedLast (.iterate loop) := by
  simp only [TouchesOwn, OpenedLast, used]
  by_cases hruns : node.threads = true ∧ node.running = true
  · rw [if_pos hruns]
    simp only [hruns, and_self, true_imp_iff]
    cases hloop : loop.endpoint with
    | none => simp
    | some endpoint => simpa using owns_iff hledger endpoint
  · rw [if_neg hruns]
    simp [hruns]

theorem touchesOwn_iff (hledger : node.Ledger) (event : NodeEvent) :
    node.TouchesOwn event ↔ node.OpenedLast event := by
  cases event with
  | start found => exact Iff.rfl
  | stop => exact stop_touchesOwn_iff hledger
  | iterate loop => exact iterate_touchesOwn_iff hledger loop

/-- **Ownership of descriptors.** Whatever the order of `start`, `stop` and the iterations of the
loops, and whatever each `start` finds, the node owns all that it touches exactly if every endpoint
it touches that some `start` has opened was opened by the latest one, with no `stop` since. -/
theorem each_touchesOwn_iff (events : List NodeEvent) :
    Run.Each step TouchesOwn fresh events ↔ Run.Each step OpenedLast fresh events :=
  Run.each_iff_each (fun _ event hledger _ ↦ ledger_step hledger event)
    (fun _ event hledger ↦ touchesOwn_iff hledger event) ledger_fresh

/-- A second `stop` closes again what the first has closed, and after a restart without the device
the receive loop reads what is closed. -/
theorem not_touchesOwn_restart :
    let present : Endpoint → Finding := fun endpoint ↦
      match endpoint with
      | .gadgetEpOut => .opened 5
      | .gadgetEpIn => .opened 6
      | .hostFd => .opened 7
    let gone : Endpoint → Finding := fun _ ↦ .absent
    ¬Run.Each step TouchesOwn fresh [.start present, .stop, .stop] ∧
      ¬Run.Each step TouchesOwn fresh [.start present, .stop, .start gone, .iterate .hostRx] := by
  intro present gone
  constructor
  · rintro ⟨_, _, ⟨⟨_, hopen⟩, _⟩, _⟩
    exact hopen (by decide)
  · rintro ⟨_, _, _, hread, _⟩
    obtain ⟨hlatest, _⟩ := hread ⟨7, 2⟩ (by decide)
    exact absurd hlatest (by decide)

end NodeDescriptors

end UsbDirectFabric.Daemon
