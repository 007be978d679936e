import Mathlib.Data.String.Basic
import UsbDirectFabric.Foundation.Sweep
import UsbDirectFabric.Wire.Frame

/-!
# The search for the host device in `common/node.py`

`_find_host_device` goes through the directories under `/dev/bus/usb` in sorted order, reads the
device descriptor behind every path and returns the first path with the ids of the node. An
`OSError` from a path makes it go on with the next one, without closing what it has opened; an
`OSError` from a listing leaves the function, and `start` with it.
-/

namespace UsbDirectFabric.Daemon

open LittleEndian Sweep Wire

/-- Whether `os.open` and `os.close` succeed on a path, and what `os.read` returns for 18 bytes,
with `none` for `OSError`. -/
structure DevicePath where
  opens : Bool
  header : Option Bytes
  closes : Bool
deriving DecidableEq, Repr

/-- What `os.path.isdir` and `os.listdir` return under `/dev/bus/usb`, with `none` for `OSError`,
and what is behind the paths. -/
structure UsbTree where
  isdir : Bool
  buses : Option (List String)
  isBus : String → Bool
  devices : String → Option (List String)
  device : String → String → DevicePath

/-- How `_find_host_device` ends before the last path: with a path or with the `OSError` of a
listing. -/
inductive ScanEnd
  | found (bus dev : String)
  | raised
deriving DecidableEq, Repr

namespace UsbTree

variable (hostVid hostPid : ℤ) (tree : UsbTree)

/-- The ids at offset 8 of a device descriptor are those of the node. -/
def Carries (header : Bytes) : Prop :=
  12 ≤ header.length ∧ (value ((header.drop 8).take 2) : ℤ) = hostVid ∧
    (value ((header.drop 10).take 2) : ℤ) = hostPid

instance (header : Bytes) : Decidable (Carries hostVid hostPid header) :=
  inferInstanceAs (Decidable (_ ∧ _))

/-- The body of the inner loop, with the path if its descriptor stays open. -/
def probe (bus dev : String) : Option ScanEnd × List (String × String) :=
  let path := tree.device bus dev
  if path.opens then
    match path.header with
    | none => (none, [(bus, dev)])
    | some header =>
        if path.closes ∧ Carries hostVid hostPid header then (some (.found bus dev), [])
        else (none, [])
  else (none, [])

def probeBus (bus : String) : Option ScanEnd × List (String × String) :=
  if tree.isBus bus then
    match tree.devices bus with
    | none => (some .raised, [])
    | some names => sweep (tree.probe hostVid hostPid bus) (sorted names)
  else (none, [])

/-- `_find_host_device`: how it ends, if not with `None`, and the paths whose descriptors stay
open. -/
def findHostDevice : Option ScanEnd × List (String × String) :=
  if tree.isdir then
    match tree.buses with
    | none => (some .raised, [])
    | some names => sweep (tree.probeBus hostVid hostPid) (sorted names)
  else (none, [])

/-! ## What the search is for -/

def HasBus (bus : String) : Prop :=
  tree.isdir = true ∧ tree.isBus bus = true ∧ ∃ names, tree.buses = some names ∧ bus ∈ names

def Lists (bus dev : String) : Prop :=
  tree.HasBus bus ∧ ∃ names, tree.devices bus = some names ∧ dev ∈ names

def Matches (bus dev : String) : Prop :=
  (tree.device bus dev).opens = true ∧ (tree.device bus dev).closes = true ∧
    ∃ header, (tree.device bus dev).header = some header ∧ Carries hostVid hostPid header

def Unreadable (bus dev : String) : Prop :=
  (tree.device bus dev).opens = true ∧ (tree.device bus dev).header = none

/-- No directory before `bus` ends the search. -/
structure Reaches (bus : String) : Prop where
  listed : ∀ other, tree.HasBus other → other < bus → tree.devices other ≠ none
  unmatched : ∀ other dev, tree.Lists other dev → other < bus →
    ¬tree.Matches hostVid hostPid other dev

/-- Nothing before a path, in the sorted order of directories and names, ends the search. -/
structure ReachesPath (bus dev : String) : Prop extends tree.Reaches hostVid hostPid bus where
  first : ∀ other, tree.Lists bus other → other < dev → ¬tree.Matches hostVid hostPid bus other

variable {hostVid hostPid tree}

/-! ## One path -/

theorem probe_of_matches {bus dev : String} (hmatches : tree.Matches hostVid hostPid bus dev) :
    tree.probe hostVid hostPid bus dev = (some (.found bus dev), []) := by
  obtain ⟨hopens, hcloses, header, hheader, hcarries⟩ := hmatches
  simp [probe, hopens, hheader, hcloses, hcarries]

theorem probe_of_unreadable {bus dev : String} (hunreadable : tree.Unreadable bus dev) :
    tree.probe hostVid hostPid bus dev = (none, [(bus, dev)]) := by
  obtain ⟨hopens, hheader⟩ := hunreadable
  simp [probe, hopens, hheader]

theorem probe_of_passes {bus dev : String} (hmatches : ¬tree.Matches hostVid hostPid bus dev)
    (hunreadable : ¬tree.Unreadable bus dev) :
    tree.probe hostVid hostPid bus dev = (none, []) := by
  unfold probe
  simp only
  split
  · rename_i hopens
    split
    · rename_i hheader
      exact absurd ⟨hopens, hheader⟩ hunreadable
    · rename_i header hheader
      exact if_neg fun ⟨hcloses, hcarries⟩ ↦
        hmatches ⟨hopens, hcloses, header, hheader, hcarries⟩
  · rfl

/-- What can be read is not unreadable. -/
theorem not_unreadable {bus dev : String} (hmatches : tree.Matches hostVid hostPid bus dev) :
    ¬tree.Unreadable bus dev := by
  rintro ⟨-, hnone⟩
  obtain ⟨-, -, header, hheader, -⟩ := hmatches
  rw [hnone] at hheader
  cases hheader

theorem probe_eq_some_iff {bus dev : String} {result : ScanEnd} :
    (tree.probe hostVid hostPid bus dev).1 = some result ↔
      tree.Matches hostVid hostPid bus dev ∧ result = .found bus dev := by
  by_cases hmatches : tree.Matches hostVid hostPid bus dev
  · simp [probe_of_matches hmatches, hmatches, eq_comm]
  · by_cases hunreadable : tree.Unreadable bus dev
    · simp [probe_of_unreadable hunreadable, hmatches]
    · simp [probe_of_passes hmatches hunreadable, hmatches]

theorem probe_eq_none_iff {bus dev : String} :
    (tree.probe hostVid hostPid bus dev).1 = none ↔ ¬tree.Matches hostVid hostPid bus dev := by
  rw [← not_iff_not, not_not, ← ne_eq, Option.ne_none_iff_exists']
  simp [probe_eq_some_iff]

theorem mem_probe_iff {bus dev : String} {item : String × String} :
    item ∈ (tree.probe hostVid hostPid bus dev).2 ↔
      tree.Unreadable bus dev ∧ item = (bus, dev) := by
  by_cases hmatches : tree.Matches hostVid hostPid bus dev
  · simp [probe_of_matches hmatches, not_unreadable hmatches]
  · by_cases hunreadable : tree.Unreadable bus dev
    · simp [probe_of_unreadable hunreadable, hunreadable]
    · simp [probe_of_passes hmatches hunreadable, hunreadable]

/-! ## One directory -/

/-- No path before `dev` in the directory ends the search. -/
def First (hostVid hostPid : ℤ) (tree : UsbTree) (bus dev : String) : Prop :=
  ∀ names, tree.devices bus = some names → ∀ other ∈ names, other < dev →
    ¬tree.Matches hostVid hostPid bus other

theorem passed_probe_iff {bus dev : String} {names : List String}
    (hdevices : tree.devices bus = some names) :
    Passed (tree.probe hostVid hostPid bus) (sorted names) dev ↔
      First hostVid hostPid tree bus dev := by
  simp [Passed, First, hdevices, probe_eq_none_iff]

theorem probeBus_eq_found_iff {bus found dev : String} :
    (tree.probeBus hostVid hostPid bus).1 = some (.found found dev) ↔
      found = bus ∧ tree.isBus bus = true ∧ (∃ names, tree.devices bus = some names ∧ dev ∈ names) ∧
        tree.Matches hostVid hostPid bus dev ∧ First hostVid hostPid tree bus dev := by
  unfold probeBus
  by_cases hbus : tree.isBus bus = true
  · cases hdevices : tree.devices bus with
    | none => simp [hbus]
    | some names =>
        rw [if_pos hbus]
        simp only [sweep_eq_some_iff (pairwise_sorted names), passed_probe_iff hdevices,
          probe_eq_some_iff, mem_sorted, ScanEnd.found.injEq, Option.some.injEq]
        constructor
        · rintro ⟨one, hmem, ⟨hmatches, rfl, rfl⟩, hfirst⟩
          exact ⟨rfl, hbus, ⟨names, rfl, hmem⟩, hmatches, hfirst⟩
        · rintro ⟨rfl, -, ⟨_, rfl, hmem⟩, hmatches, hfirst⟩
          exact ⟨dev, hmem, ⟨hmatches, rfl, rfl⟩, hfirst⟩
  · simp [hbus]

theorem probeBus_eq_raised_iff {bus : String} :
    (tree.probeBus hostVid hostPid bus).1 = some .raised ↔
      tree.isBus bus = true ∧ tree.devices bus = none := by
  unfold probeBus
  by_cases hbus : tree.isBus bus = true
  · cases hdevices : tree.devices bus with
    | none => simp [hbus]
    | some names =>
        simp [hbus, sweep_eq_some_iff (pairwise_sorted names), probe_eq_some_iff]
  · simp [hbus]

theorem probeBus_eq_none_iff {bus : String} :
    (tree.probeBus hostVid hostPid bus).1 = none ↔
      (tree.isBus bus = true → ∃ names, tree.devices bus = some names ∧
        ∀ dev ∈ names, ¬tree.Matches hostVid hostPid bus dev) := by
  unfold probeBus
  by_cases hbus : tree.isBus bus = true
  · cases hdevices : tree.devices bus with
    | none => simp [hbus]
    | some names => simp [hbus, sweep_eq_none_iff, probe_eq_none_iff]
  · simp [hbus]

theorem mem_probeBus_iff {bus : String} {item : String × String} :
    item ∈ (tree.probeBus hostVid hostPid bus).2 ↔
      ∃ dev, item = (bus, dev) ∧ tree.isBus bus = true ∧
        (∃ names, tree.devices bus = some names ∧ dev ∈ names) ∧ tree.Unreadable bus dev ∧
        First hostVid hostPid tree bus dev := by
  unfold probeBus
  by_cases hbus : tree.isBus bus = true
  · cases hdevices : tree.devices bus with
    | none => simp [hbus]
    | some names =>
        rw [if_pos hbus]
        simp only [mem_sweep_iff (pairwise_sorted names), passed_probe_iff hdevices, mem_probe_iff,
          mem_sorted, Option.some.injEq]
        constructor
        · rintro ⟨dev, hmem, ⟨hunreadable, rfl⟩, hfirst⟩
          exact ⟨dev, rfl, hbus, ⟨names, rfl, hmem⟩, hunreadable, hfirst⟩
        · rintro ⟨dev, rfl, -, ⟨_, rfl, hmem⟩, hunreadable, hfirst⟩
          exact ⟨dev, hmem, ⟨hunreadable, rfl⟩, hfirst⟩
  · simp [hbus]

/-! ## All directories -/

theorem passed_probeBus_iff {bus : String} {names : List String} (hisdir : tree.isdir = true)
    (hbuses : tree.buses = some names) :
    Passed (tree.probeBus hostVid hostPid) (sorted names) bus ↔
      tree.Reaches hostVid hostPid bus := by
  have hbus (other : String) : tree.HasBus other ↔ other ∈ names ∧ tree.isBus other = true := by
    simp [HasBus, hisdir, hbuses, and_comm]
  simp only [Passed, mem_sorted, probeBus_eq_none_iff]
  constructor
  · intro hpassed
    constructor
    · intro other hother hless hnone
      obtain ⟨hmem, hisBus⟩ := (hbus other).mp hother
      obtain ⟨_, hdevices, -⟩ := hpassed other hmem hless hisBus
      rw [hnone] at hdevices
      cases hdevices
    · rintro other dev ⟨hother, devices, hdevices, hdev⟩ hless
      obtain ⟨hmem, hisBus⟩ := (hbus other).mp hother
      obtain ⟨_, hsame, hunmatched⟩ := hpassed other hmem hless hisBus
      obtain rfl := Option.some.inj (hdevices.symm.trans hsame)
      exact hunmatched dev hdev
  · intro hreaches other hmem hless hisBus
    have hother := (hbus other).mpr ⟨hmem, hisBus⟩
    obtain ⟨devices, hdevices⟩ := Option.ne_none_iff_exists'.mp (hreaches.listed other hother hless)
    exact ⟨devices, hdevices, fun dev hdev ↦
      hreaches.unmatched other dev ⟨hother, devices, hdevices, hdev⟩ hless⟩

theorem first_iff {bus dev : String} (hbus : tree.HasBus bus) :
    First hostVid hostPid tree bus dev ↔
      ∀ other, tree.Lists bus other → other < dev → ¬tree.Matches hostVid hostPid bus other := by
  constructor
  · rintro hfirst other ⟨-, names, hnames, hmem⟩
    exact hfirst names hnames other hmem
  · intro hfirst names hnames other hmem
    exact hfirst other ⟨hbus, names, hnames, hmem⟩

/-- **The search for the host device.** In whatever order the directories are listed,
`_find_host_device` returns the first of all paths, in the order of directories and names, from
which the ids of the node can be read, unless a listing before it fails. It raises exactly if the
first failing listing comes before any such path, and it leaves open exactly the descriptors of the
paths that it has opened and could not read. -/
theorem findHostDevice_spec (hostVid hostPid : ℤ) (tree : UsbTree) :
    (∀ bus dev, (tree.findHostDevice hostVid hostPid).1 = some (.found bus dev) ↔
      tree.Lists bus dev ∧ tree.Matches hostVid hostPid bus dev ∧
        tree.ReachesPath hostVid hostPid bus dev) ∧
    ((tree.findHostDevice hostVid hostPid).1 = some .raised ↔
      tree.isdir = true ∧ (tree.buses = none ∨
        ∃ bus, tree.HasBus bus ∧ tree.devices bus = none ∧
          tree.Reaches hostVid hostPid bus)) ∧
    (∀ bus dev, (bus, dev) ∈ (tree.findHostDevice hostVid hostPid).2 ↔
      tree.Lists bus dev ∧ tree.Unreadable bus dev ∧
        tree.ReachesPath hostVid hostPid bus dev) := by
  unfold findHostDevice
  by_cases hisdir : tree.isdir = true
  · rw [if_pos hisdir]
    cases hbuses : tree.buses with
    | none => simp [Lists, HasBus, hbuses, hisdir]
    | some names =>
        have hpassed (bus : String) : Passed (tree.probeBus hostVid hostPid) (sorted names) bus ↔
            tree.Reaches hostVid hostPid bus := passed_probeBus_iff hisdir hbuses
        simp only [sweep_eq_some_iff (pairwise_sorted names),
          mem_sweep_iff (pairwise_sorted names), mem_sorted, hpassed, probeBus_eq_found_iff,
          probeBus_eq_raised_iff, mem_probeBus_iff]
        refine ⟨?_, ?_, ?_⟩
        · intro bus dev
          constructor
          · rintro ⟨_, hmem, ⟨rfl, hisBus, hdevices, hmatches, hfirst⟩, hreaches⟩
            have hbus : tree.HasBus bus := ⟨hisdir, hisBus, names, hbuses, hmem⟩
            exact ⟨⟨hbus, hdevices⟩, hmatches, hreaches, (first_iff hbus).mp hfirst⟩
          · rintro ⟨⟨hbus, hdevices⟩, hmatches, hreaches, hfirst⟩
            have hfirst := (first_iff hbus).mpr hfirst
            obtain ⟨-, hisBus, _, hsame, hmem⟩ := hbus
            obtain rfl := Option.some.inj (hsame.symm.trans hbuses)
            exact ⟨bus, hmem, ⟨rfl, hisBus, hdevices, hmatches, hfirst⟩, hreaches⟩
        · constructor
          · rintro ⟨bus, hmem, ⟨hisBus, hnone⟩, hreaches⟩
            exact ⟨hisdir, .inr ⟨bus, ⟨hisdir, hisBus, names, hbuses, hmem⟩, hnone, hreaches⟩⟩
          · rintro ⟨-, hnone | ⟨bus, ⟨-, hisBus, _, hsame, hmem⟩, hnone, hreaches⟩⟩
            · cases hnone
            · obtain rfl := Option.some.inj (hsame.symm.trans hbuses)
              exact ⟨bus, hmem, ⟨hisBus, hnone⟩, hreaches⟩
        · intro bus dev
          constructor
          · rintro ⟨_, hmem, ⟨_, hitem, hisBus, hdevices, hunreadable, hfirst⟩, hreaches⟩
            obtain ⟨rfl, rfl⟩ := Prod.mk.inj hitem
            have hbus : tree.HasBus bus := ⟨hisdir, hisBus, names, hbuses, hmem⟩
            exact ⟨⟨hbus, hdevices⟩, hunreadable, hreaches, (first_iff hbus).mp hfirst⟩
          · rintro ⟨⟨hbus, hdevices⟩, hunreadable, hreaches, hfirst⟩
            have hfirst := (first_iff hbus).mpr hfirst
            obtain ⟨-, hisBus, _, hsame, hmem⟩ := hbus
            obtain rfl := Option.some.inj (hsame.symm.trans hbuses)
            exact ⟨bus, hmem, ⟨dev, rfl, hisBus, hdevices, hunreadable, hfirst⟩, hreaches⟩
  · simp [Lists, HasBus, hisdir]

end UsbTree

end UsbDirectFabric.Daemon
