import Mathlib.Data.List.Basic

/-! # Buffered channels

A channel is a queue that never holds more than its capacity. A send on a full
channel and a receive from an empty one are not enabled.
-/

namespace TSymbiote

structure Chan (α : Type) (cap : Nat) where
  queue : List α
  bounded : queue.length ≤ cap

namespace Chan

variable {α : Type} {cap : Nat}

def make (α : Type) (cap : Nat) : Chan α cap := ⟨[], Nat.zero_le cap⟩

def length (c : Chan α cap) : Nat := c.queue.length

def Full (c : Chan α cap) : Prop := c.length = cap

instance (c : Chan α cap) : Decidable c.Full := inferInstanceAs (Decidable (c.length = cap))

def send? (c : Chan α cap) (a : α) : Option (Chan α cap) :=
  if h : c.queue.length < cap then
    some ⟨c.queue ++ [a], by simp only [List.length_append, List.length_singleton]; omega⟩
  else none

def receive? : Chan α cap → Option (α × Chan α cap)
  | ⟨[], _⟩ => none
  | ⟨a :: rest, h⟩ => some (a, ⟨rest, by simp only [List.length_cons] at h; omega⟩)

theorem length_le (c : Chan α cap) : c.length ≤ cap := c.bounded

theorem full_iff (c : Chan α cap) : c.Full ↔ ¬ c.length < cap := by
  have hle := c.length_le
  unfold Full
  omega

theorem not_full_iff (c : Chan α cap) : ¬ c.Full ↔ c.length < cap := by
  rw [full_iff, not_not]

theorem send_length {c d : Chan α cap} {a : α} (h : c.send? a = some d) :
    d.length = c.length + 1 := by
  unfold send? at h
  split at h
  · cases h
    simp [length]
  · contradiction

theorem send_queue {c d : Chan α cap} {a : α} (h : c.send? a = some d) :
    d.queue = c.queue ++ [a] := by
  unfold send? at h
  split at h
  · cases h
    rfl
  · contradiction

theorem receive_queue {c d : Chan α cap} {a : α} (h : c.receive? = some (a, d)) :
    c.queue = a :: d.queue := by
  rcases c with ⟨queue, _⟩
  cases queue with
  | nil => cases h
  | cons b rest =>
      cases h
      rfl

/-- A send fills the channel when it takes the last slot. -/
theorem send_full_iff {c d : Chan α cap} {a : α} (h : c.send? a = some d) :
    d.Full ↔ ¬ c.length + 1 < cap := by
  rw [full_iff, send_length h]

theorem send_not_full {c d : Chan α cap} {a : α} (h : c.send? a = some d) : ¬ c.Full := by
  have hd := send_length h
  have hle := d.length_le
  rw [not_full_iff]
  omega

theorem send_isSome {c : Chan α cap} (h : ¬ c.Full) (a : α) : ∃ d, c.send? a = some d := by
  exact ⟨_, dif_pos ((not_full_iff c).mp h)⟩

end Chan

end TSymbiote
