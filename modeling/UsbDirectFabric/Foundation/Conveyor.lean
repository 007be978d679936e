import UsbDirectFabric.Foundation.Walk
import Mathlib.Data.List.Basic
import Mathlib.Logic.Relation

/-!
# Lanes that keep their items in order

Numbered items are put on at some place and travel along the only way out of each place. A place
keeps its items in the order they came in and passes on the first of them; any item may be lost, and
the first item of a place may leave through a door for good.

Wherever lanes meet and however often a way crosses itself, the items that were put on at one place
and have gone equally far leave through a door in the order of their numbers.
-/

open scoped List

namespace Conveyor

/-- An item: its number, and how many places it has passed. -/
structure Item where
  number : ℕ
  stage : ℕ
deriving DecidableEq

/-- Where the items were put on, the items at every place, and the items that have left. -/
structure Belt (π ε : Type*) where
  births : List π
  lanes : π → List Item
  exits : ε → List Item

variable {π ε : Type*} [DecidableEq π]

namespace Belt

def withLane (belt : Belt π ε) (place : π) (items : List Item) : Belt π ε :=
  { belt with lanes := Function.update belt.lanes place items }

def put (belt : Belt π ε) (place : π) (item : Item) : Belt π ε :=
  belt.withLane place (belt.lanes place ++ [item])

def leave [DecidableEq ε] (belt : Belt π ε) (exit : ε) (item : Item) : Belt π ε :=
  { belt with exits := Function.update belt.exits exit (belt.exits exit ++ [item]) }

/-- The belt with a new item, which takes the next number. -/
def load (belt : Belt π ε) (place : π) : Belt π ε :=
  { belt.put place ⟨belt.births.length, 0⟩ with births := belt.births ++ [place] }

end Belt

section Play

variable [DecidableEq ε] (way : π → Option π) (door : π → ε)

inductive Play (belt : Belt π ε) : Belt π ε → Prop
  | load (place : π) : Play belt (belt.load place)
  | pass {place target : π} {number stage : ℕ} {rest : List Item}
      (waits : belt.lanes place = ⟨number, stage⟩ :: rest) (leads : way place = some target) :
      Play belt ((belt.withLane place rest).put target ⟨number, stage + 1⟩)
  | leave {place : π} {item : Item} {rest : List Item} (waits : belt.lanes place = item :: rest) :
      Play belt ((belt.withLane place rest).leave (door place) item)
  | lose {place : π} {rest : List Item} (fewer : rest <+ belt.lanes place) :
      Play belt (belt.withLane place rest)

abbrev Plays : Belt π ε → Belt π ε → Prop :=
  Relation.ReflTransGen (Play way door)

end Play

/-! ## Handing over from stage to stage -/

section Chain

variable {α : Type*}

def chain (lane : ℕ → List α) : ℕ → List α
  | 0 => lane 0
  | stage + 1 => lane (stage + 1) ++ chain lane stage

/-- If every stage passes on a front part of what it holds and takes in what the stage before it
passes on, then what crosses the last stage and all that stays behind it keep their order. -/
theorem chain_handOver {lane rest next crossing : ℕ → List α} {entry : List α}
    (hout : ∀ stage, crossing stage ++ rest stage <+ lane stage)
    (hfirst : next 0 <+ rest 0 ++ entry)
    (hnext : ∀ stage, next (stage + 1) <+ rest (stage + 1) ++ crossing stage) (stage : ℕ) :
    crossing stage ++ chain next stage <+ chain lane stage ++ entry := by
  induction stage with
  | zero =>
      have hkept : crossing 0 ++ next 0 <+ crossing 0 ++ rest 0 ++ entry := by
        rw [List.append_assoc]
        exact hfirst.append_left _
      exact hkept.trans ((hout 0).append_right entry)
  | succ stage ih =>
      have hkept : crossing (stage + 1) ++ next (stage + 1) <+
          lane (stage + 1) ++ crossing stage := by
        refine ((hnext stage).append_left _).trans ?_
        rw [← List.append_assoc]
        exact (hout (stage + 1)).append_right _
      calc crossing (stage + 1) ++ (next (stage + 1) ++ chain next stage)
          <+ lane (stage + 1) ++ (crossing stage ++ chain next stage) := by
            rw [← List.append_assoc, ← List.append_assoc]
            exact hkept.append_right _
        _ <+ lane (stage + 1) ++ (chain lane stage ++ entry) := ih.append_left _
        _ = chain lane (stage + 1) ++ entry := by rw [chain, List.append_assoc]

theorem chain_mono {lane next : ℕ → List α} (hnext : ∀ stage, next stage <+ lane stage)
    (stage : ℕ) : chain next stage <+ chain lane stage := by
  induction stage with
  | zero => exact hnext 0
  | succ stage ih => exact (hnext (stage + 1)).append ih

theorem mem_chain {lane : ℕ → List α} {one : α} {stage : ℕ} (hone : one ∈ chain lane stage) :
    ∃ earlier, one ∈ lane earlier := by
  induction stage with
  | zero => exact ⟨0, hone⟩
  | succ stage ih => exact (List.mem_append.mp hone).elim (fun hlast ↦ ⟨stage + 1, hlast⟩) ih

end Chain

/-! ## Flows -/

section Flow

variable (births : List π) (source : π) (stage : ℕ)

/-- The item was put on at `source` and has passed so many places. -/
def From (item : Item) : Prop :=
  births[item.number]? = some source ∧ item.stage = stage

instance (item : Item) : Decidable (From births source stage item) :=
  inferInstanceAs (Decidable (_ ∧ _))

/-- The numbers of the items of a list that belong to a flow. -/
def flow (items : List Item) : List ℕ :=
  (items.filter fun item ↦ From births source stage item).map Item.number

variable {births} {source} {stage}

theorem flow_append (front back : List Item) :
    flow births source stage (front ++ back) =
      flow births source stage front ++ flow births source stage back := by
  rw [flow, List.filter_append, List.map_append]
  rfl

theorem flow_sublist {items fewer : List Item} (hfewer : fewer <+ items) :
    flow births source stage fewer <+ flow births source stage items :=
  (hfewer.filter _).map _

theorem mem_flow {items : List Item} {number : ℕ} :
    number ∈ flow births source stage items ↔
      ⟨number, stage⟩ ∈ items ∧ births[number]? = some source := by
  simp only [flow, List.mem_map, List.mem_filter, decide_eq_true_eq]
  constructor
  · rintro ⟨⟨_, _⟩, ⟨hitem, hbirth, rfl⟩, rfl⟩
    exact ⟨hitem, hbirth⟩
  · rintro ⟨hitem, hbirth⟩
    exact ⟨⟨number, stage⟩, ⟨hitem, hbirth, rfl⟩, rfl⟩

/-- An item that has passed one more place belongs to the next stage of its flow. -/
theorem flow_pass (number earlier : ℕ) :
    flow births source (stage + 1) [⟨number, earlier + 1⟩] =
      flow births source stage [⟨number, earlier⟩] := by
  by_cases hfrom : births[number]? = some source ∧ earlier = stage
  · simp [flow, From, hfrom]
  · simp [flow, From, hfrom]

/-- An item that has passed a place is not where its flow was put on. -/
theorem flow_zero (number earlier : ℕ) : flow births source 0 [⟨number, earlier + 1⟩] = [] := by
  simp [flow, From]

/-- Items that are known belong to the same flows after a new item has been put on. -/
theorem flow_concat {items : List Item} (hknown : ∀ item ∈ items, item.number < births.length)
    (new : π) : flow (births ++ [new]) source stage items = flow births source stage items := by
  unfold flow
  refine congrArg _ (List.filter_congr fun item hitem ↦ decide_eq_decide.mpr ?_)
  rw [From, From, List.getElem?_append_left (hknown item hitem)]

/-- A new item is at the first stage of a flow or in none. -/
theorem flow_new (new : π) :
    flow (births ++ [new]) source stage [⟨births.length, 0⟩] <+
      if stage = 0 then [births.length] else [] := by
  by_cases hstage : stage = 0
  · rw [if_pos hstage]
    exact List.filter_sublist.map Item.number
  · simp [flow, From, hstage, Ne.symm hstage]

end Flow

namespace Belt

variable (way : π → Option π) (belt : Belt π ε) (source : π)

/-- The items of a flow that are at the place it has come to. -/
def lane (stage : ℕ) : List ℕ :=
  match Walk.walk way stage source with
  | some place => flow belt.births source stage (belt.lanes place)
  | none => []

/-- Every item is at the place its way has led it to, and every flow is in order, from the items
that have left to those that have just been put on. -/
structure Orderly : Prop where
  located : ∀ place, ∀ item ∈ belt.lanes place, ∃ source,
    belt.births[item.number]? = some source ∧ Walk.walk way item.stage source = some place
  known : ∀ exit, ∀ item ∈ belt.exits exit, item.number < belt.births.length
  ordered : ∀ source stage exit,
    (flow belt.births source stage (belt.exits exit) ++ chain (belt.lane way source) stage).Pairwise
      (· < ·)

variable {way} {belt}

/-! ### What the operations do to the items and flows -/

theorem mem_withLane {place other : π} {rest : List Item} {item : Item}
    (hfewer : rest <+ belt.lanes place) (hitem : item ∈ (belt.withLane place rest).lanes other) :
    item ∈ belt.lanes other := by
  by_cases hother : other = place
  · subst hother
    simp only [withLane, Function.update_self] at hitem
    exact hfewer.subset hitem
  · simpa only [withLane, Function.update_of_ne hother] using hitem

theorem mem_put {place other : π} {item new : Item}
    (hitem : item ∈ (belt.put place new).lanes other) :
    item ∈ belt.lanes other ∨ item = new ∧ other = place := by
  by_cases hother : other = place
  · subst hother
    simp only [put, withLane, Function.update_self] at hitem
    exact (List.mem_append.mp hitem).imp id fun hnew ↦ ⟨List.mem_singleton.mp hnew, rfl⟩
  · simp only [put, withLane, Function.update_of_ne hother] at hitem
    exact .inl hitem

omit [DecidableEq π] in
theorem mem_leave [DecidableEq ε] {exit other : ε} {item new : Item}
    (hitem : item ∈ (belt.leave exit new).exits other) : item ∈ belt.exits other ∨ item = new := by
  by_cases hother : other = exit
  · subst hother
    simp only [leave, Function.update_self] at hitem
    exact (List.mem_append.mp hitem).imp id List.mem_singleton.mp
  · simp only [leave, Function.update_of_ne hother] at hitem
    exact .inl hitem

/-- An item is no part of a flow that has not come to the item's place. -/
theorem flow_eq_nil {births : List π} {source birth place : π} {stage : ℕ} {item : Item}
    (hbirth : births[item.number]? = some birth)
    (hwalk : Walk.walk way item.stage birth = some place)
    (hother : Walk.walk way stage source ≠ some place) : flow births source stage [item] = [] := by
  apply List.eq_nil_iff_forall_not_mem.mpr
  intro number hnumber
  obtain ⟨hitem, hsource⟩ := mem_flow.mp hnumber
  obtain rfl := List.mem_singleton.mp hitem
  rw [hbirth] at hsource
  cases hsource
  exact hother hwalk

/-- Taking the first item of a place takes it from the front of its flow. -/
theorem lane_take {place : π} {item : Item} {rest : List Item}
    (hlocated : ∃ birth, belt.births[item.number]? = some birth ∧
      Walk.walk way item.stage birth = some place)
    (hwaits : belt.lanes place = item :: rest) (source : π) (stage : ℕ) :
    flow belt.births source stage [item] ++ (belt.withLane place rest).lane way source stage <+
      belt.lane way source stage := by
  obtain ⟨birth, hbirth, hwalk⟩ := hlocated
  by_cases hplace : Walk.walk way stage source = some place
  · simp only [lane, hplace, hwaits, withLane, Function.update_self]
    rw [← flow_append, List.singleton_append]
  · rw [flow_eq_nil hbirth hwalk hplace, List.nil_append]
    unfold lane
    split
    · rename_i other hother
      rw [hother] at hplace
      have hne : other ≠ place := fun heq ↦ hplace (congrArg some heq)
      simp only [withLane, Function.update_of_ne hne]
      exact .refl _
    · exact .refl _

theorem lane_put (place : π) (item : Item) (source : π) (stage : ℕ) :
    (belt.put place item).lane way source stage <+
      belt.lane way source stage ++ flow belt.births source stage [item] := by
  unfold lane
  split
  · rename_i other _
    by_cases hother : other = place
    · simp only [put, withLane, hother, Function.update_self]
      rw [flow_append]
    · simp only [put, withLane, Function.update_of_ne hother]
      exact List.sublist_append_left _ _
  · exact List.nil_sublist _

theorem lane_lose {place : π} {rest : List Item} (hfewer : rest <+ belt.lanes place) (source : π)
    (stage : ℕ) :
    (belt.withLane place rest).lane way source stage <+ belt.lane way source stage := by
  unfold lane
  split
  · rename_i other _
    by_cases hother : other = place
    · simp only [withLane, hother, Function.update_self]
      exact flow_sublist hfewer
    · simp only [withLane, Function.update_of_ne hother]
      exact .refl _
  · exact .refl _

theorem flow_leave [DecidableEq ε] (exit other : ε) (item : Item) (source : π)
    (stage : ℕ) :
    flow belt.births source stage ((belt.leave exit item).exits other) <+
      flow belt.births source stage (belt.exits other) ++ flow belt.births source stage [item] := by
  by_cases hother : other = exit
  · subst hother
    simp only [leave, Function.update_self]
    rw [flow_append]
  · simp only [leave, Function.update_of_ne hother]
    exact List.sublist_append_left _ _

/-! ### Plays keep the order -/

namespace Orderly

theorem number_lt (horderly : belt.Orderly way) {place : π} {item : Item}
    (hitem : item ∈ belt.lanes place) : item.number < belt.births.length := by
  obtain ⟨_, hbirth, _⟩ := horderly.located place item hitem
  exact (List.getElem?_eq_some_iff.mp hbirth).1

/-- All numbers of a flow have been given out. -/
theorem lt_of_mem (horderly : belt.Orderly way) {source : π} {stage : ℕ} {exit : ε} {number : ℕ}
    (hnumber : number ∈ flow belt.births source stage (belt.exits exit) ++
      chain (belt.lane way source) stage) : number < belt.births.length := by
  rcases List.mem_append.mp hnumber with hexit | hlane
  · exact horderly.known exit _ (mem_flow.mp hexit).1
  · obtain ⟨earlier, hlane⟩ := mem_chain hlane
    unfold lane at hlane
    split at hlane
    · exact horderly.number_lt (mem_flow.mp hlane).1
    · cases hlane

/-- Losing items keeps the order of the others. -/
theorem lose (horderly : belt.Orderly way) {place : π} {rest : List Item}
    (hfewer : rest <+ belt.lanes place) : (belt.withLane place rest).Orderly way where
  located other item hitem := horderly.located other item (mem_withLane hfewer hitem)
  known := horderly.known
  ordered source stage exit := by
    have hchain : chain ((belt.withLane place rest).lane way source) stage <+
        chain (belt.lane way source) stage := chain_mono (lane_lose hfewer source) stage
    exact (horderly.ordered source stage exit).sublist (hchain.append_left _)

/-- Passing on the first item of a place keeps every flow as it is or without the item. -/
theorem pass (horderly : belt.Orderly way) {place target : π} {number earlier : ℕ}
    {rest : List Item} (hwaits : belt.lanes place = ⟨number, earlier⟩ :: rest)
    (hleads : way place = some target) :
    ((belt.withLane place rest).put target ⟨number, earlier + 1⟩).Orderly way where
  located other item hitem := by
    rcases mem_put hitem with hold | ⟨rfl, rfl⟩
    · exact horderly.located other item (mem_withLane (hwaits ▸ List.sublist_cons_self _ _) hold)
    · obtain ⟨birth, hbirth, hwalk⟩ := horderly.located place _ (hwaits ▸ List.mem_cons_self)
      exact ⟨birth, hbirth, by rw [Walk.walk_succ, hwalk]; exact hleads⟩
  known := horderly.known
  ordered source stage exit := by
    have hlocated := horderly.located place _ (hwaits ▸ List.mem_cons_self)
    have hput : ∀ stage,
        ((belt.withLane place rest).put target ⟨number, earlier + 1⟩).lane way source stage <+
          (belt.withLane place rest).lane way source stage ++
            flow belt.births source stage [⟨number, earlier + 1⟩] :=
      lane_put target ⟨number, earlier + 1⟩ source
    have hfirst := hput 0
    rw [flow_zero] at hfirst
    have hnext (stage : ℕ) := hput (stage + 1)
    simp only [flow_pass] at hnext
    have hchain := chain_handOver (lane_take hlocated hwaits source) hfirst hnext stage
    rw [List.append_nil] at hchain
    exact (horderly.ordered source stage exit).sublist
      (((List.sublist_append_right _ _).trans hchain).append_left _)

/-- The first item of a place leaves after all items of its flow that have left before. -/
theorem leave [DecidableEq ε] (horderly : belt.Orderly way) {place : π} {item : Item}
    {rest : List Item} (hwaits : belt.lanes place = item :: rest) (exit : ε) :
    ((belt.withLane place rest).leave exit item).Orderly way where
  located other one hone :=
    horderly.located other one (mem_withLane (hwaits ▸ List.sublist_cons_self _ _) hone)
  known other one hone := by
    rcases mem_leave hone with hold | rfl
    · exact horderly.known other one hold
    · exact horderly.number_lt (hwaits ▸ List.mem_cons_self)
  ordered source stage other := by
    have hlocated := horderly.located place item (hwaits ▸ List.mem_cons_self)
    have hchain := chain_handOver (lane_take hlocated hwaits source)
      (List.sublist_append_left _ []) (fun _ ↦ List.sublist_append_left _ _) stage
    rw [List.append_nil] at hchain
    have hleft : flow belt.births source stage
        (((belt.withLane place rest).leave exit item).exits other) <+
        flow belt.births source stage (belt.exits other) ++ flow belt.births source stage [item] :=
      flow_leave exit other item source stage
    refine (horderly.ordered source stage other).sublist ?_
    refine List.Sublist.trans ?_ (hchain.append_left _)
    rw [← List.append_assoc]
    exact hleft.append_right _

theorem lane_load (horderly : belt.Orderly way) (place source : π) (stage : ℕ) :
    (belt.load place).lane way source stage <+
      belt.lane way source stage ++ if stage = 0 then [belt.births.length] else [] := by
  unfold lane
  split
  · rename_i other _
    have hknown (new : π) : flow (belt.births ++ [new]) source stage (belt.lanes other) =
        flow belt.births source stage (belt.lanes other) :=
      flow_concat (fun _ hitem ↦ horderly.number_lt hitem) new
    by_cases hother : other = place
    · simp only [Belt.load, put, withLane, ← hother, Function.update_self]
      rw [flow_append, hknown]
      exact (flow_new other).append_left _
    · simp only [Belt.load, put, withLane, Function.update_of_ne hother]
      rw [hknown]
      exact List.sublist_append_left _ _
  · exact List.nil_sublist _

/-- A new item has the largest number and goes behind all others. -/
theorem load (horderly : belt.Orderly way) (place : π) : (belt.load place).Orderly way where
  located other item hitem := by
    rcases mem_put hitem with hold | ⟨rfl, rfl⟩
    · obtain ⟨birth, hbirth, hwalk⟩ := horderly.located other item hold
      exact ⟨birth, (List.getElem?_append_left (horderly.number_lt hold)).trans hbirth, hwalk⟩
    · exact ⟨other, List.getElem?_concat_length, rfl⟩
  known exit item hitem := by
    have hold := horderly.known exit item hitem
    simp only [Belt.load, List.length_append, List.length_singleton]
    omega
  ordered source stage exit := by
    have hlane := horderly.lane_load place source
    have hchain : [] ++ chain ((belt.load place).lane way source) stage <+
        chain (belt.lane way source) stage ++ [belt.births.length] :=
      chain_handOver (fun _ ↦ .refl _) (hlane 0) (fun stage ↦ hlane (stage + 1)) stage
    have hall : (flow belt.births source stage (belt.exits exit) ++
        chain (belt.lane way source) stage ++ [belt.births.length]).Pairwise (· < ·) := by
      refine List.pairwise_append.mpr
        ⟨horderly.ordered source stage exit, List.pairwise_singleton _ _, ?_⟩
      intro number hnumber new hnew
      rw [List.mem_singleton.mp hnew]
      exact horderly.lt_of_mem hnumber
    rw [List.append_assoc] at hall
    change (flow (belt.births ++ [place]) source stage (belt.exits exit) ++ _).Pairwise _
    rw [flow_concat (horderly.known exit)]
    exact hall.sublist (hchain.append_left _)

end Orderly

def empty : Belt π ε where
  births := []
  lanes := fun _ ↦ []
  exits := fun _ ↦ []

theorem orderly_empty : (empty : Belt π ε).Orderly way where
  located _ _ hitem := by cases hitem
  known _ _ hitem := by cases hitem
  ordered source stage exit := by
    have hchain : chain ((empty : Belt π ε).lane way source) stage = [] := by
      apply List.eq_nil_iff_forall_not_mem.mpr
      intro number hnumber
      obtain ⟨earlier, hlane⟩ := mem_chain hnumber
      unfold lane at hlane
      split at hlane <;> cases hlane
    rw [hchain]
    exact List.Pairwise.nil

/-- Through every door the items of a flow leave in the order of their numbers. -/
theorem Orderly.exits_ordered (horderly : belt.Orderly way) (source : π) (stage : ℕ) (exit : ε) :
    (flow belt.births source stage (belt.exits exit)).Pairwise (· < ·) :=
  (horderly.ordered source stage exit).sublist (List.sublist_append_left _ _)

variable [DecidableEq ε] {door : π → ε} {next : Belt π ε}

theorem Orderly.play (horderly : belt.Orderly way) (hplay : Play way door belt next) :
    next.Orderly way := by
  cases hplay with
  | load place => exact horderly.load place
  | pass hwaits hleads => exact horderly.pass hwaits hleads
  | leave hwaits => exact horderly.leave hwaits _
  | lose hfewer => exact horderly.lose hfewer

/-- Any number of plays keep every flow in order. -/
theorem Orderly.plays (horderly : belt.Orderly way) (hplays : Plays way door belt next) :
    next.Orderly way := by
  induction hplays with
  | refl => exact horderly
  | tail _ hplay ih => exact ih.play hplay

end Belt

end Conveyor
