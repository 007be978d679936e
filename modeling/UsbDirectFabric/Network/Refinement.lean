import UsbDirectFabric.Network.Fabric

/-!
# Daemon steps as plays of the token game

The tokens of a daemon are the copies of frames in its queues and threads. A daemon's step refines
the token game when it moves one token along a frame's journey, lets a token be born, or is a change
that no token sees. There is one rule for each kind of effect.
-/

namespace UsbDirectFabric.Network

open Wire Daemon Tokens

variable {ι : Type}

abbrev token (tag : Tag) (spot : Spot ι) : ℕ × Copy ι :=
  (tag.origin, (tag.forwards, spot))

abbrev outgoingTokens (node : ι) : List (Tag × Bytes) → Multiset (ℕ × Copy ι) :=
  places fun item ↦ token item.1 (.outgoing node item.2)

abbrev deliveredTokens (node : ι) : List (Tag × Frame) → Multiset (ℕ × Copy ι) :=
  places fun item ↦ token item.1 (.delivered node item.2)

abbrev linkTokens (node : ι) : List (Tag × Bytes) → Multiset (ℕ × Copy ι) :=
  places fun item ↦ token item.1 (.onLink node item.2)

abbrev goneTokens : List (ι × Fate × Tag) → Multiset (ℕ × Copy ι) :=
  places fun item ↦ token item.2.2 (.gone item.1 item.2.1)

def Origin.place (origin : Origin ι) : Copy ι :=
  match origin.source with
  | some _ => (0, .outgoing origin.node origin.data)
  | none => (0, .onLink origin.node origin.data)

def Origin.Genuine (crc32 : Bytes → UInt32) (ids : ι → ℤ) (origin : Origin ι) : Prop :=
  ∀ dst payload, origin.source = some (.send dst payload) →
    ∃ seq : ℕ, pack crc32 (ids origin.node) dst seq payload 0 0 = .ok origin.data

variable (crc32 : Bytes → UInt32) (topology : Topology ι) (faulty : Prop)

/-- Plays of the token game whose moves are the steps of journeys. -/
abbrev Moves : Position (Origin ι) (Copy ι) → Position (Origin ι) (Copy ι) → Prop :=
  Plays Origin.place (Origin.Genuine crc32 topology.ids) (Step crc32 topology faulty)

/-- A daemon's step with the given effect moves the tokens of a daemon's state to those of the next
one, of its output link and of the log. -/
abbrev Refines (node : ι) (births : List (Origin ι)) (tokens next : Multiset (ℕ × Copy ι))
    (effect : Effect) : Prop :=
  Moves crc32 topology faulty ⟨births, tokens⟩
    ⟨births ++ Network.births node effect,
      next + linkTokens node (written births.length effect) + goneTokens (ended node effect)⟩

variable {crc32 topology faulty} {node : ι} {births : List (Origin ι)}
  {tokens next : Multiset (ℕ × Copy ι)}

theorem Refines.keep (hnext : next = tokens) :
    Refines crc32 topology faulty node births tokens next .silent := by
  simp only [Refines, Network.births, written, ended, places_nil, List.append_nil, add_zero, hnext]
  exact .refl

theorem Refines.move {tag : Tag} {source target : Copy ι}
    (hmove : Step crc32 topology faulty source target)
    (hexchange : next + {(tag.origin, source)} = tokens + {(tag.origin, target)}) :
    Refines crc32 topology faulty node births tokens next .silent := by
  simp only [Refines, Network.births, written, ended, places_nil, List.append_nil, add_zero]
  exact .of_exchange hmove hexchange

theorem Refines.create {source : Source} {data : Bytes}
    (hgenuine : (Origin.mk node (some source) data).Genuine crc32 topology.ids)
    (hnext : next = tokens + {token (.fresh births.length) (.outgoing node data)}) :
    Refines crc32 topology faulty node births tokens next (.created source data) := by
  simp only [Refines, Network.births, written, ended, places_nil, add_zero]
  exact .of_birth hgenuine hnext

theorem Refines.write {tag : Tag} {data : Bytes}
    (htokens : tokens = next + {token tag (.outgoing node data)}) :
    Refines crc32 topology faulty node births tokens next (.wrote tag data) := by
  simp only [Refines, Network.births, written, ended, places_nil, places_cons, List.append_nil,
    add_zero]
  apply Plays.of_exchange (.write tag.forwards node data)
  rw [htokens]
  abel

theorem Refines.finish {tag : Tag} {fate : Fate} {spot : Spot ι}
    (hmove : Step crc32 topology faulty (tag.forwards, spot) (tag.forwards, .gone node fate))
    (htokens : tokens = next + {token tag spot}) :
    Refines crc32 topology faulty node births tokens next (.ended fate tag) := by
  simp only [Refines, Network.births, written, ended, places_nil, places_cons, List.append_nil,
    add_zero]
  apply Plays.of_exchange hmove
  rw [htokens]
  abel

theorem Refines.tear {piece : Bytes} (hnext : next = tokens) :
    Refines crc32 topology faulty node births tokens next (.tore piece none) := by
  simp only [Refines, Network.births, written, ended, places_nil, places_cons, add_zero]
  apply Plays.of_birth
  · intro dst payload hsource
    cases hsource
  · rw [hnext]
    rfl

theorem Refines.abandon {tag : Tag} {data piece : Bytes} (hfaulty : faulty)
    (htokens : tokens = next + {token tag (.outgoing node data)}) :
    Refines crc32 topology faulty node births tokens next (.tore piece (some tag)) := by
  have hgone : Refines crc32 topology faulty node births tokens next (.ended .discarded tag) :=
    .finish (.abandon tag.forwards node data .discarded hfaulty) htokens
  simp only [Refines, Network.births, written, ended, places_nil, places_cons, List.append_nil,
    add_zero] at hgone ⊢
  apply hgone.trans
  apply Plays.of_birth
  · intro dst payload hsource
    cases hsource
  · simp only [Origin.place, token, Tag.fresh]
    abel

end UsbDirectFabric.Network
