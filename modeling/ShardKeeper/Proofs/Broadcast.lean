import Mathlib.Data.List.Induction
import ShardKeeper.Broadcast

/-!
# What becomes of an item on a broadcast channel

An item that was sent stays unread until it is received, or until it is the oldest
of a full channel when another one is sent.  In the second case the receiver is
told that it missed something before it gets anything else.

## Main results

* `Broadcast.send_cases` — an unread item when another one is sent.
* `Broadcast.receive_cases` — what the receiver gets.
* `Broadcast.sendAll_eq` — what is left of several items: the latest, as many as there is room for.
* `Broadcast.drain_of_receive` — to drain a channel is to receive again and again.
-/

namespace ShardKeeper

namespace Broadcast

variable {α : Type} {c c' : Broadcast α} {a b : α} {older newer : List α} {receipt : Receipt α}

/-! ### Sending -/

theorem capacity_send (c : Broadcast α) (a : α) : (c.send a).capacity = c.capacity := by
  rw [send]
  split <;> rfl

theorem isOpen_send (c : Broadcast α) (a : α) : (c.send a).isOpen = c.isOpen := by
  rw [send]
  split <;> rfl

theorem missed_le_send (c : Broadcast α) (a : α) : c.missed ≤ (c.send a).missed := by
  rw [send]
  split
  · exact Nat.le_refl _
  · exact Nat.le_add_right ..

theorem send_of_isOpen (hopen : c.isOpen = true) (a : α) :
    c.send a =
      { c with
        unread := (c.unread ++ [a]).drop ((c.unread ++ [a]).length - c.capacity)
        missed := c.missed + ((c.unread ++ [a]).length - c.capacity) } := by
  rw [send, hopen]
  rfl

/-- An item that was just sent is unread. -/
theorem unread_send (hopen : c.isOpen = true) (hcapacity : 0 < c.capacity) (a : α) :
    ∃ older, (c.send a).unread = older ++ [a] := by
  refine ⟨c.unread.drop (c.unread.length + 1 - c.capacity), ?_⟩
  rw [send_of_isOpen hopen, List.length_append, List.length_singleton]
  exact List.drop_append_of_le_length (by omega)

/-- While there is room, nothing is dropped. -/
theorem send_of_room (hopen : c.isOpen = true) (hroom : c.unread.length < c.capacity) (a : α) :
    c.send a = { c with unread := c.unread ++ [a] } := by
  have hnone : (c.unread ++ [a]).length - c.capacity = 0 := by
    rw [List.length_append, List.length_singleton]
    omega
  rw [send_of_isOpen hopen, hnone, List.drop_zero, Nat.add_zero]

/-- A full channel drops the oldest item. -/
theorem send_of_full (hopen : c.isOpen = true) (hfull : c.unread.length = c.capacity) (a : α) :
    c.send a = { c with unread := (c.unread ++ [a]).drop 1, missed := c.missed + 1 } := by
  have hone : (c.unread ++ [a]).length - c.capacity = 1 := by
    rw [List.length_append, List.length_singleton]
    omega
  rw [send_of_isOpen hopen, hone]

/-- **An unread item when another one is sent**: it is still unread, or it was the oldest of a full
channel, and the receiver will be told that it missed something. -/
theorem send_cases (hopen : c.isOpen = true) (hfits : c.unread.length ≤ c.capacity)
    (hunread : c.unread = older ++ a :: newer) (b : α) :
    (∃ older', (c.send b).unread = older' ++ a :: (newer ++ [b])) ∨
      (c.unread = a :: newer ∧ c.unread.length = c.capacity ∧ 0 < (c.send b).missed) := by
  rcases Nat.lt_or_eq_of_le hfits with hroom | hfull
  · refine .inl ⟨older, ?_⟩
    rw [send_of_room hopen hroom, hunread, List.append_assoc, List.cons_append]
  · rw [send_of_full hopen hfull]
    cases older with
    | nil => exact .inr ⟨hunread, hfull, Nat.succ_pos _⟩
    | cons o older =>
        refine .inl ⟨older, ?_⟩
        rw [hunread, List.append_assoc, List.cons_append, List.cons_append, List.drop_one,
          List.tail_cons]

theorem capacity_sendAll (c : Broadcast α) (items : List α) :
    (c.sendAll items).capacity = c.capacity := by
  induction items generalizing c with
  | nil => rfl
  | cons a items ih => exact (ih (c.send a)).trans (c.capacity_send a)

theorem isOpen_sendAll (c : Broadcast α) (items : List α) :
    (c.sendAll items).isOpen = c.isOpen := by
  induction items generalizing c with
  | nil => rfl
  | cons a items ih => exact (ih (c.send a)).trans (c.isOpen_send a)

theorem length_sendAll_le (c : Broadcast α) (items : List α)
    (h : c.unread.length ≤ c.capacity) : (c.sendAll items).unread.length ≤ c.capacity := by
  induction items generalizing c with
  | nil => exact h
  | cons a items ih =>
      have hfits : (c.send a).unread.length ≤ (c.send a).capacity := by
        rw [capacity_send]
        exact c.unread_length_le a h
      rw [← c.capacity_send a]
      exact ih (c.send a) hfits

/-- **What is left of several items**, sent to a channel that nobody reads. -/
theorem sendAll_eq (hopen : c.isOpen = true) (hempty : c.unread = []) (items : List α) :
    c.sendAll items =
      { c with
        unread := items.drop (items.length - c.capacity)
        missed := c.missed + (items.length - c.capacity) } := by
  induction items using List.reverseRecOn with
  | nil =>
      rw [sendAll, List.foldl_nil, List.length_nil, Nat.zero_sub, Nat.add_zero, List.drop_nil]
      cases c
      cases hempty
      rfl
  | append_singleton items a ih =>
      -- what was dropped before, and what is dropped now
      have hdrop : items.drop (items.length - c.capacity) ++ [a] =
          (items ++ [a]).drop (items.length - c.capacity) :=
        (List.drop_append_of_le_length (Nat.sub_le ..)).symm
      have hsum : items.length - c.capacity + ((items ++ [a]).length - (items.length - c.capacity) -
          c.capacity) = (items ++ [a]).length - c.capacity := by
        rw [List.length_append, List.length_singleton]
        omega
      rw [sendAll, List.foldl_append, List.foldl_cons, List.foldl_nil, ← sendAll, ih,
        send_of_isOpen (by exact hopen)]
      dsimp only
      rw [hdrop, List.drop_drop, List.length_drop, Nat.add_assoc, hsum]

/-! ### Receiving -/

/-- **What the receiver gets**: first that it missed something, then the oldest item, and in the end
that no more will come. -/
theorem receive_cases (h : c.receive = some (receipt, c')) :
    (0 < c.missed ∧ receipt = .missed c.missed ∧ c' = { c with missed := 0 }) ∨
      (c.missed = 0 ∧ ∃ a rest, c.unread = a :: rest ∧ receipt = .item a ∧
        c' = { c with unread := rest }) ∨
      (receipt = .closed ∧ c' = c) := by
  unfold receive at h
  split at h
  · rename_i hmissed
    obtain ⟨rfl, rfl⟩ := Prod.mk.inj (Option.some.inj h)
    exact .inl ⟨hmissed, rfl, rfl⟩
  · rename_i hmissed
    split at h
    · rename_i a rest hunread
      obtain ⟨rfl, rfl⟩ := Prod.mk.inj (Option.some.inj h)
      exact .inr (.inl ⟨Nat.eq_zero_of_not_pos hmissed, a, rest, hunread, rfl, rfl⟩)
    · obtain ⟨-, heq⟩ := Option.ite_none_left_eq_some.mp h
      obtain ⟨rfl, rfl⟩ := Prod.mk.inj (Option.some.inj heq)
      exact .inr (.inr ⟨rfl, rfl⟩)

theorem capacity_receive (h : c.receive = some (receipt, c')) : c'.capacity = c.capacity := by
  rcases receive_cases h with ⟨-, -, rfl⟩ | ⟨-, _, _, -, -, rfl⟩ | ⟨-, rfl⟩ <;> rfl

theorem length_receive_le (h : c.receive = some (receipt, c')) :
    c'.unread.length ≤ c.unread.length := by
  rcases receive_cases h with ⟨-, -, rfl⟩ | ⟨-, _, _, hunread, -, rfl⟩ | ⟨-, rfl⟩
  · exact Nat.le_refl _
  · rw [hunread]
    exact Nat.le_succ _
  · exact Nat.le_refl _

/-- To drain a channel is to receive again and again. -/
theorem drain_of_receive (h : c.receive = some (receipt, c')) (hopen : receipt ≠ .closed) :
    c.drain.1 = receipt :: c'.drain.1 := by
  rcases receive_cases h with ⟨hmissed, rfl, rfl⟩ | ⟨hmissed, a, rest, hunread, rfl, rfl⟩ | ⟨rfl, -⟩
  · rw [drain, drain, if_pos hmissed]
    rfl
  · rw [drain, drain, hunread, hmissed]
    rfl
  · exact absurd rfl hopen

/-- There is nothing left to drain. -/
theorem drain_of_empty (hunread : c.unread = []) (hmissed : c.missed = 0) : c.drain.1 = [] := by
  rw [drain, hunread, hmissed]
  rfl

end Broadcast

end ShardKeeper
