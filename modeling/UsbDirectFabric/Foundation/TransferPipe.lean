import Mathlib.Data.List.Basic

/-!
# A pipe of transfers

Transfers go through a pipe one after the other. One that is broken off leaves its beginning in the
pipe, where the next write continues it. A read takes what its buffer has room for out of the first
transfer, and the next read begins with the rest.
-/

/-- The complete transfers in the pipe, and the beginning of one that is not. -/
structure TransferPipe (α : Type*) where
  whole : List (List α)
  begun : List α
deriving DecidableEq, Repr

namespace TransferPipe

variable {α : Type*}

def empty : TransferPipe α where
  whole := []
  begun := []

def write (pipe : TransferPipe α) (data : List α) : TransferPipe α where
  whole := pipe.whole ++ [pipe.begun ++ data]
  begun := []

def writes (pipe : TransferPipe α) (items : List (List α)) : TransferPipe α :=
  items.foldl write pipe

/-- A write that is broken off after `data`. -/
def breakOff (pipe : TransferPipe α) (data : List α) : TransferPipe α :=
  { pipe with begun := pipe.begun ++ data }

/-- What is left of a transfer when some of it has been taken. -/
def rest (taken : ℕ) (data : List α) : List (List α) :=
  if taken < data.length then [data.drop taken] else []

/-- Some elements are taken out of the first transfer. -/
def take (pipe : TransferPipe α) (taken : ℕ) : TransferPipe α :=
  if taken = 0 then pipe
  else
    match pipe.whole with
    | [] => { pipe with begun := pipe.begun.drop taken }
    | data :: later => { pipe with whole := rest taken data ++ later }

/-- The transfers that taking some elements leaves of a longer one. -/
def remains (pipe : TransferPipe α) (taken : ℕ) : List (List α) :=
  if taken = 0 then []
  else
    match pipe.whole with
    | [] => []
    | data :: _ => rest taken data

def front (pipe : TransferPipe α) (room : ℕ) : Option (List α) :=
  pipe.whole.head?.map (·.take room)

variable {pipe : TransferPipe α} {data items : List α} {taken room : ℕ}

@[simp] theorem writes_nil : pipe.writes [] = pipe := rfl

@[simp] theorem writes_singleton : pipe.writes [data] = pipe.write data := rfl

@[simp] theorem breakOff_nil : pipe.breakOff [] = pipe := by
  simp only [breakOff, List.append_nil]

@[simp] theorem take_zero : pipe.take 0 = pipe := if_pos rfl

theorem mem_whole_write {item : List α} :
    item ∈ (pipe.write data).whole ↔ item ∈ pipe.whole ∨ item = pipe.begun ++ data := by
  rw [write, List.mem_append, List.mem_singleton]

/-- After some elements were taken the transfers are those from before and what is left of one. -/
theorem mem_whole_take {item : List α} (hitem : item ∈ (pipe.take taken).whole) :
    item ∈ pipe.whole ∨ item ∈ pipe.remains taken := by
  unfold take at hitem
  unfold remains
  split at hitem
  · exact .inl hitem
  · rename_i htaken
    rw [if_neg htaken]
    split at hitem
    · exact .inl hitem
    · rename_i first later hwhole
      rw [hwhole]
      exact (List.mem_append.mp hitem).elim .inr fun hlater ↦
        .inl (List.mem_cons_of_mem _ hlater)

theorem ne_nil_of_mem_remains {item : List α} (hitem : item ∈ pipe.remains taken) :
    item ≠ [] := by
  unfold remains at hitem
  split at hitem
  · cases hitem
  · split at hitem
    · cases hitem
    · unfold rest at hitem
      split at hitem
      · rename_i hlonger
        rw [List.mem_singleton.mp hitem]
        exact fun hnone ↦ Nat.not_le.mpr hlonger (List.drop_eq_nil_iff.mp hnone)
      · cases hitem

/-- Taking elements ends at most one transfer. -/
theorem length_whole_take : pipe.whole.length ≤ (pipe.take taken).whole.length + 1 := by
  unfold take
  split
  · exact Nat.le_succ _
  · split
    · exact Nat.le_succ _
    · rename_i data later hwhole
      rw [hwhole]
      simp only [List.length_append, List.length_cons]
      omega

theorem length_whole_writes (later : List (List α)) :
    (pipe.writes later).whole.length = pipe.whole.length + later.length := by
  induction later generalizing pipe with
  | nil => rfl
  | cons data later ih =>
      have hone : (pipe.write data).whole.length = pipe.whole.length + 1 := by simp [write]
      calc
        ((pipe.write data).writes later).whole.length =
            (pipe.write data).whole.length + later.length := ih
        _ = pipe.whole.length + (later.length + 1) := by
          rw [hone]
          omega

/-- Writes of something leave no empty transfer. -/
theorem ne_nil_of_mem_writes (hpipe : ∀ data ∈ pipe.whole, data ≠ []) {later : List (List α)}
    (hlater : ∀ data ∈ later, data ≠ []) : ∀ data ∈ (pipe.writes later).whole, data ≠ [] := by
  induction later generalizing pipe with
  | nil => exact hpipe
  | cons data later ih =>
      refine ih ?_ fun other hother ↦ hlater other (List.mem_cons_of_mem _ hother)
      intro other hother
      rcases mem_whole_write.mp hother with hold | rfl
      · exact hpipe other hold
      · exact List.append_ne_nil_of_right_ne_nil _ (hlater data List.mem_cons_self)

/-- A read returns the beginning of the first transfer. -/
theorem front_eq_some (hread : pipe.front room = some items) :
    ∃ data later, pipe.whole = data :: later ∧ items = data.take room := by
  obtain ⟨data, hhead, rfl⟩ := Option.map_eq_some_iff.mp hread
  obtain ⟨later, hwhole⟩ := List.head?_eq_some_iff.mp hhead
  exact ⟨data, later, hwhole, rfl⟩

/-! ## Pipes in which nothing is broken off -/

/-- No transfer is incomplete, and a buffer has room for each of them. -/
structure Fits (room : ℕ) (pipe : TransferPipe α) : Prop where
  closed : pipe.begun = []
  whole : ∀ data ∈ pipe.whole, data.length ≤ room

theorem fits_empty : (empty : TransferPipe α).Fits room where
  closed := rfl
  whole := by simp [empty]

theorem whole_write (hclosed : pipe.begun = []) :
    (pipe.write data).whole = pipe.whole ++ [data] := by
  rw [write, hclosed, List.nil_append]

theorem whole_writes (hclosed : pipe.begun = []) (later : List (List α)) :
    (pipe.writes later).begun = [] ∧ (pipe.writes later).whole = pipe.whole ++ later := by
  induction later generalizing pipe with
  | nil => exact ⟨hclosed, (List.append_nil _).symm⟩
  | cons data later ih =>
      have hnext : (pipe.write data).begun = [] := rfl
      obtain ⟨hbegun, hwhole⟩ := ih hnext
      refine ⟨hbegun, hwhole.trans ?_⟩
      rw [whole_write hclosed, List.append_assoc, List.singleton_append]

theorem Fits.writes (hfits : pipe.Fits room) {later : List (List α)}
    (hlater : ∀ data ∈ later, data.length ≤ room) : (pipe.writes later).Fits room := by
  obtain ⟨hbegun, hwhole⟩ := whole_writes hfits.closed later
  refine ⟨hbegun, fun data hdata ↦ ?_⟩
  rw [hwhole] at hdata
  exact (List.mem_append.mp hdata).elim (hfits.whole data) (hlater data)

/-- A read takes the first transfer as it is and leaves nothing of it. -/
theorem Fits.read (hfits : pipe.Fits room) (hroom : room ≠ 0)
    (hread : pipe.front room = some items) :
    pipe.whole = items :: (pipe.take room).whole ∧ (pipe.take room).Fits room := by
  obtain ⟨data, later, hwhole, rfl⟩ := front_eq_some hread
  have hlength : data.length ≤ room := hfits.whole data (by simp [hwhole])
  have hnone : rest room data = [] := if_neg (Nat.not_lt.mpr hlength)
  have htaken : pipe.take room = { pipe with whole := later } := by
    simp only [take, if_neg hroom, hwhole, hnone, List.nil_append]
  rw [htaken, List.take_of_length_le hlength]
  refine ⟨hwhole, hfits.closed, fun other hother ↦ hfits.whole other ?_⟩
  rw [hwhole]
  exact List.mem_cons_of_mem _ hother

end TransferPipe
