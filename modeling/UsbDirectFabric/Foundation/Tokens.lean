import Mathlib.Data.Multiset.Range
import Mathlib.Data.Multiset.AddSub
import Mathlib.Algebra.BigOperators.Group.List.Basic
import Mathlib.Algebra.Order.Group.Multiset
import Mathlib.Data.Multiset.Filter
import Mathlib.Logic.Relation
import Mathlib.Tactic.Abel

/-!
# A game of numbered tokens

A position records what has been born so far and where each token is. A play moves one token from
its place to another one or lets a new token be born, which takes the next number. No play copies or
removes a token, so at every moment each number that has been given out is on exactly one token, and
the token stands at a place that moves lead to from the place it was born at.

`places` turns a list into the multiset of its elements' tokens in additive form, so that a play of
a concrete system is an equation between sums.
-/

namespace Tokens

variable {β κ : Type*}

/-- What has been born, in order, and the place of every token. -/
structure Position (β κ : Type*) where
  births : List β
  tokens : Multiset (ℕ × κ)

variable (place : β → κ) (birth : β → Prop) (move : κ → κ → Prop)

inductive Play : Position β κ → Position β κ → Prop
  | move (births : List β) (number : ℕ) (source target : κ) (rest : Multiset (ℕ × κ))
      (allowed : move source target) :
      Play ⟨births, {(number, source)} + rest⟩ ⟨births, {(number, target)} + rest⟩
  | birth (births : List β) (new : β) (tokens : Multiset (ℕ × κ)) (allowed : birth new) :
      Play ⟨births, tokens⟩ ⟨births ++ [new], {(births.length, place new)} + tokens⟩

abbrev Plays : Position β κ → Position β κ → Prop :=
  Relation.ReflTransGen (Play place birth move)

/-- Every number given out is on one token, which has come from its birth place by moves. -/
structure Sound (position : Position β κ) : Prop where
  once : position.tokens.map Prod.fst = Multiset.range position.births.length
  born : ∀ new ∈ position.births, birth new
  path : ∀ token ∈ position.tokens, ∃ new, position.births[token.1]? = some new ∧
    Relation.ReflTransGen move (place new) token.2

variable {place birth move}

theorem sound_start : Sound place birth move ⟨[], 0⟩ where
  once := rfl
  born := by simp
  path := by simp

/-- One play keeps the position sound. -/
theorem Sound.play {position next : Position β κ} (hsound : Sound place birth move position)
    (hplay : Play place birth move position next) : Sound place birth move next := by
  obtain ⟨honce, hborn, hpath⟩ := hsound
  cases hplay with
  | move births number source target rest hmove =>
      refine ⟨?_, hborn, ?_⟩
      · rw [← honce]
        simp
      · intro token htoken
        rcases Multiset.mem_add.mp htoken with hmoved | hrest
        · obtain rfl := Multiset.mem_singleton.mp hmoved
          obtain ⟨new, hnew, hreached⟩ := hpath (number, source) (by simp)
          exact ⟨new, hnew, hreached.tail hmove⟩
        · exact hpath token (Multiset.mem_add.mpr (.inr hrest))
  | birth births new tokens hbirth =>
      refine ⟨?_, ?_, ?_⟩
      · calc
          (({(births.length, place new)} + tokens).map Prod.fst : Multiset ℕ) =
              births.length ::ₘ tokens.map Prod.fst := by simp
          _ = births.length ::ₘ Multiset.range births.length := congrArg _ honce
          _ = Multiset.range (births ++ [new]).length := by
            rw [List.length_append, List.length_singleton, Multiset.range_succ]
      · intro one hone
        rcases List.mem_append.mp hone with hold | hnew
        · exact hborn one hold
        · rw [List.mem_singleton.mp hnew]
          exact hbirth
      · intro token htoken
        rcases Multiset.mem_add.mp htoken with hnew | hold
        · obtain rfl := Multiset.mem_singleton.mp hnew
          exact ⟨new, by simp, .refl⟩
        · obtain ⟨one, hone, hreached⟩ := hpath token hold
          refine ⟨one, ?_, hreached⟩
          rw [List.getElem?_append_left (List.getElem?_eq_some_iff.mp hone).1]
          exact hone

/-- Any number of plays keep the position sound. -/
theorem Sound.plays {position next : Position β κ} (hsound : Sound place birth move position)
    (hplays : Plays place birth move position next) : Sound place birth move next := by
  induction hplays with
  | refl => exact hsound
  | tail _ hplay ih => exact ih.play hplay

/-- The token with a given number, and how it got to where it is. -/
theorem Sound.existsUnique_token {position : Position β κ}
    (hsound : Sound place birth move position) {number : ℕ} {new : β}
    (hnew : position.births[number]? = some new) :
    ∃ spot, position.tokens.filter (fun token ↦ token.1 = number) = {(number, spot)} ∧
      Relation.ReflTransGen move (place new) spot := by
  have hnumber : number < position.births.length := (List.getElem?_eq_some_iff.mp hnew).1
  have hcard : (position.tokens.filter fun token ↦ token.1 = number).card = 1 := by
    have hcount : (position.tokens.map Prod.fst).count number = 1 := by
      rw [hsound.once]
      exact Multiset.count_eq_one_of_mem (Multiset.nodup_range _) (Multiset.mem_range.mpr hnumber)
    rw [Multiset.count_map] at hcount
    simpa only [eq_comm] using hcount
  obtain ⟨token, htoken⟩ := Multiset.card_eq_one.mp hcard
  have hmem : token ∈ position.tokens.filter fun token ↦ token.1 = number := by simp [htoken]
  obtain ⟨htokens, rfl⟩ := Multiset.mem_filter.mp hmem
  obtain ⟨one, hone, hreached⟩ := hsound.path token htokens
  rw [hnew] at hone
  cases hone
  exact ⟨token.2, htoken, hreached⟩

/-! ## Plays as equations -/

/-- Exchanging one token's place for another is a play. -/
theorem Plays.of_exchange {births : List β} {number : ℕ} {source target : κ}
    {tokens next : Multiset (ℕ × κ)} (hmove : move source target)
    (hexchange : next + {(number, source)} = tokens + {(number, target)}) :
    Plays place birth move ⟨births, tokens⟩ ⟨births, next⟩ := by
  classical
  by_cases hsame : source = target
  · subst hsame
    rw [add_right_cancel hexchange]
  · have hmem : (number, source) ∈ tokens := by
      have hleft : (number, source) ∈ tokens + {(number, target)} := by
        rw [← hexchange]
        simp
      rcases Multiset.mem_add.mp hleft with hmem | hother
      · exact hmem
      · exact absurd (congrArg Prod.snd (Multiset.mem_singleton.mp hother)) hsame
    obtain ⟨rest, rfl⟩ := Multiset.exists_cons_of_mem hmem
    rw [← Multiset.singleton_add] at hexchange ⊢
    have hnext : next = {(number, target)} + rest := by
      apply add_right_cancel (b := {(number, source)})
      rw [hexchange]
      abel
    rw [hnext]
    exact .single (.move births number source target rest hmove)

/-- Adding the next number is a play. -/
theorem Plays.of_birth {births : List β} {new : β} {tokens next : Multiset (ℕ × κ)}
    (hbirth : birth new) (hnext : next = tokens + {(births.length, place new)}) :
    Plays place birth move ⟨births, tokens⟩ ⟨births ++ [new], next⟩ := by
  rw [hnext, add_comm]
  exact .single (.birth births new tokens hbirth)

/-- Tokens that a play does not touch can be added on both sides. -/
theorem Plays.add_right {position next : Position β κ}
    (hplays : Plays place birth move position next) (rest : Multiset (ℕ × κ)) :
    Plays place birth move ⟨position.births, position.tokens + rest⟩
      ⟨next.births, next.tokens + rest⟩ := by
  induction hplays with
  | refl => exact .refl
  | tail _ hplay ih =>
      apply ih.tail
      cases hplay with
      | move births number source target others hmove =>
          simp only [add_assoc]
          exact .move births number source target (others + rest) hmove
      | birth births new tokens hbirth =>
          simp only [add_assoc]
          exact .birth births new (tokens + rest) hbirth

def places {α : Type*} (token : α → ℕ × κ) (items : List α) : Multiset (ℕ × κ) :=
  (items.map fun item ↦ {token item}).sum

section Places

variable {α : Type*} (token : α → ℕ × κ)

@[simp] theorem places_nil : places token [] = 0 := rfl

@[simp] theorem places_cons (item : α) (items : List α) :
    places token (item :: items) = {token item} + places token items := by
  simp [places]

@[simp] theorem places_append (front back : List α) :
    places token (front ++ back) = places token front + places token back := by
  simp [places]

theorem places_eq_coe (items : List α) : places token items = (items.map token : List (ℕ × κ)) := by
  induction items with
  | nil => rfl
  | cons item items ih =>
      rw [places_cons, ih, List.map_cons, ← Multiset.cons_coe, Multiset.singleton_add]

/-- How many elements have the number. -/
theorem card_filter_places (number : ℕ) (items : List α) :
    ((places token items).filter fun one ↦ one.1 = number).card =
      (items.filter fun item ↦ (token item).1 = number).length := by
  rw [places_eq_coe, Multiset.filter_coe, Multiset.coe_card, List.filter_map, List.length_map]
  rfl

theorem mem_places {token : α → ℕ × κ} {items : List α} {one : ℕ × κ} :
    one ∈ places token items ↔ ∃ item ∈ items, token item = one := by
  induction items with
  | nil => simp
  | cons item items ih => simp [ih, eq_comm]

/-- Taking one element out of a list takes its token out. -/
theorem places_eraseIdx {items : List α} {index : ℕ} {item : α}
    (hitem : items[index]? = some item) :
    places token items = {token item} + places token (items.eraseIdx index) := by
  obtain ⟨hindex, rfl⟩ := List.getElem?_eq_some_iff.mp hitem
  rw [← places_cons]
  exact ((List.getElem_cons_eraseIdx_perm hindex).symm.map _).sum_eq

end Places

end Tokens
