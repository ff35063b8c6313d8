import Telemetry.Metric.Basic

/-!
# Channels

A channel is a bounded queue of batches in front of a publisher. Putting a
batch into a full queue removes the oldest batch, which is counted. Every put
leaves a permit, of which there is at most one, for the publisher to go on.
-/

set_option autoImplicit false

namespace Telemetry

abbrev Batch := List Metric

structure Channel where
  capacity : Nat
  queue : List Batch
  failures : Nat
  dropped : Nat
  permit : Bool
  deriving DecidableEq, Repr

namespace Channel

def create (capacity : Nat) : Channel :=
  ⟨capacity, [], 0, 0, false⟩

def queued (c : Channel) : Nat :=
  c.queue.length

/-- Adds a batch at the end, in place of the oldest one when the queue is
full. -/
def push (c : Channel) (b : Batch) : Channel :=
  if c.queued < c.capacity then { c with queue := c.queue ++ [b] }
  else { c with queue := c.queue.tail ++ [b], dropped := c.dropped + 1 }

def notify (c : Channel) : Channel :=
  { c with permit := true }

def put (c : Channel) (b : Batch) : Channel :=
  if b = [] then c else (c.push b).notify

def share (c : Channel) (size : Nat) : List Batch :=
  c.queue.take (max 1 size)

def take (c : Channel) (size : Nat) : Option Batch × Channel :=
  if c.queue = [] then (none, c)
  else (some (c.share size).flatten, { c with queue := c.queue.drop (max 1 size) })

def fail (c : Channel) : Channel :=
  { c with failures := c.failures + 1 }

def consume (c : Channel) : Bool × Channel :=
  (c.permit, { c with permit := false })

/-- A push adds the batch behind batches that were there, and changes nothing
but the queue and the count of those dropped. -/
theorem push_shape (c : Channel) (b : Batch) :
    ∃ kept dropped, kept.Sublist c.queue ∧
      c.push b = { c with queue := kept ++ [b], dropped } := by
  unfold push
  split
  · exact ⟨_, _, List.Sublist.refl _, rfl⟩
  · exact ⟨_, _, List.tail_sublist _, rfl⟩

theorem put_shape (c : Channel) {b : Batch} (hb : b ≠ []) :
    ∃ kept dropped, kept.Sublist c.queue ∧
      c.put b = { c with queue := kept ++ [b], dropped, permit := true } := by
  obtain ⟨kept, dropped, hsub, h⟩ := c.push_shape b
  exact ⟨kept, dropped, hsub, by rw [put, if_neg hb, h, notify]⟩

theorem put_empty (c : Channel) : c.put [] = c := if_pos rfl

end Channel

end Telemetry
