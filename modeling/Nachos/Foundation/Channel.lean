import Nachos.Foundation.Transitions

/-!
# First-in, first-out channels

What a channel between any number of senders and receivers is for: items that
were sent and not yet received wait in a queue, and are received from its
front.
-/

namespace Foundation

variable {Item : Type}

structure Channel (Item : Type) where
  queue : List Item
  sent : List Item
  received : List Item

namespace Channel

inductive Event (Item : Type) where
  | send (item : Item)
  | receive (item : Item)

/-- No item is sent twice. -/
def system : TransitionSystem (Channel Item) (Event Item) where
  start channel := channel = ⟨[], [], []⟩
  step channel event next :=
    match event with
    | .send item =>
      item ∉ channel.sent ∧
        next = ⟨channel.queue ++ [item], channel.sent ++ [item],
          channel.received⟩
    | .receive item =>
      ∃ rest, channel.queue = item :: rest ∧
        next = ⟨rest, channel.sent, channel.received ++ [item]⟩

/-- Nothing is lost, duplicated or reordered. -/
theorem fifo_of_reachable
    {channel : Channel Item} (reachable : system.Reachable channel) :
    channel.received ++ channel.queue = channel.sent ∧
      channel.sent.Nodup := by
  induction reachable with
  | start starting =>
    rw [show _ = _ from starting]
    exact ⟨rfl, List.nodup_nil⟩
  | @step source target event _ taken ih =>
    obtain ⟨order, nodup⟩ := ih
    cases event with
    | send item =>
      obtain ⟨fresh, rfl⟩ := taken
      refine ⟨?_, ?_⟩
      · dsimp only
        rw [← List.append_assoc, order]
      · refine List.nodup_append.mpr ⟨nodup, by simp, ?_⟩
        intro earlier member other isItem same
        rw [same, List.mem_singleton.mp isItem] at member
        exact fresh member
    | receive item =>
      obtain ⟨rest, queue, rfl⟩ := taken
      refine ⟨?_, nodup⟩
      dsimp only
      rw [List.append_assoc, List.singleton_append, ← queue]
      exact order

end Channel

end Foundation
