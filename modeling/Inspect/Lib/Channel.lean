import Mathlib.Tactic

/-!
# `Lib.Channel` — bounded queues that drop what finds no room

A channel holds items in the order in which they were sent, up to its capacity. `trySend` drops an item if the channel
is full; `tryRecv` takes the oldest one.
-/

namespace Inspect

/-- A queue that is never longer than its capacity. -/
structure Channel (A : Type) where
  capacity : Nat
  queue : List A
  fits : queue.length ≤ capacity

namespace Channel

variable {A : Type}

/-- An empty channel. -/
def ofCapacity (capacity : Nat) : Channel A := ⟨capacity, [], Nat.zero_le capacity⟩

/-- There is room for one more item. -/
def HasRoom (channel : Channel A) : Prop := channel.queue.length < channel.capacity

instance (channel : Channel A) : Decidable channel.HasRoom :=
  inferInstanceAs (Decidable (channel.queue.length < channel.capacity))

/-- Put an item at the end, or drop it. -/
def trySend (channel : Channel A) (item : A) : Channel A :=
  if h : channel.HasRoom then
    { channel with
      queue := channel.queue ++ [item]
      fits := by simpa using Nat.succ_le_of_lt h }
  else channel

/-- Take the first item, if there is one. -/
def tryRecv (channel : Channel A) : Option (A × Channel A) :=
  match h : channel.queue with
  | [] => none
  | item :: queue =>
      some (item, { channel with
        queue
        fits := by
          have hfits := channel.fits
          rw [h] at hfits
          exact (Nat.le_succ _).trans hfits })

@[simp] theorem ofCapacity_queue (capacity : Nat) : (ofCapacity capacity : Channel A).queue = [] := rfl

@[simp] theorem trySend_capacity (channel : Channel A) (item : A) : (channel.trySend item).capacity = channel.capacity := by
  unfold trySend
  split <;> rfl

theorem trySend_queue (channel : Channel A) (item : A) :
    (channel.trySend item).queue = if channel.HasRoom then channel.queue ++ [item] else channel.queue := by
  unfold trySend
  split <;> rfl

/-- What is received was the first of the queue. -/
theorem tryRecv_eq_some {channel channel' : Channel A} {item : A} (h : channel.tryRecv = some (item, channel')) :
    channel.queue = item :: channel'.queue ∧ channel'.capacity = channel.capacity := by
  unfold tryRecv at h
  split at h
  · cases h
  · rename_i first queue hqueue
    cases h
    exact ⟨hqueue, rfl⟩

theorem tryRecv_eq_none {channel : Channel A} (h : channel.tryRecv = none) : channel.queue = [] := by
  unfold tryRecv at h
  split at h
  · assumption
  · cases h

/-! ## What a send keeps -/

/-- A send adds the item behind what there is, or nothing. -/
theorem trySend_sublist (channel : Channel A) (item : A) :
    (channel.trySend item).queue.Sublist (channel.queue ++ [item]) := by
  rw [trySend_queue]
  split
  · exact List.Sublist.refl _
  · exact List.sublist_append_left channel.queue [item]

/-- Nothing is lost exactly if the channel has room. -/
theorem trySend_eq_iff (channel : Channel A) (item : A) :
    (channel.trySend item).queue = channel.queue ++ [item] ↔ channel.HasRoom := by
  rw [trySend_queue]
  split
  · rename_i hroom
    exact iff_of_true rfl hroom
  · rename_i hfull
    exact iff_of_false (by simp) hfull

end Channel

end Inspect
