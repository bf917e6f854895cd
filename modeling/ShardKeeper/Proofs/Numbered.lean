import Mathlib.Data.List.Infix

/-!
# Things with numbers

Sagas and activities are known by their places in a list, which only ever grows
at the end.  What is at a place after one of them was changed, or after one more
has come:

* `getElem?_set_eq_some_iff`, `set_eq_self`, `getElem?_modify_eq_some_iff`,
  `getElem?_concat_eq_some_iff`.
* `any_set` — what that makes of the question whether there is one of a kind.
* `countP_eq_of_places` — two lists that agree place by place.
-/

namespace ShardKeeper

variable {α : Type} {l : List α} {a b c : α} {i j : Nat}

theorem getElem?_set_eq_some_iff (hi : l[i]? = some c) :
    (l.set i a)[j]? = some b ↔ (j = i ∧ b = a) ∨ (j ≠ i ∧ l[j]? = some b) := by
  have hlt : i < l.length := (List.getElem?_eq_some_iff.mp hi).1
  rcases eq_or_ne j i with rfl | hne
  · rw [List.getElem?_set_self hlt]
    simp [eq_comm]
  · rw [List.getElem?_set_ne hne.symm]
    simp [hne]

theorem set_eq_self (hi : l[i]? = some a) : l.set i a = l := by
  obtain ⟨hlt, rfl⟩ := List.getElem?_eq_some_iff.mp hi
  exact List.set_getElem_self hlt

theorem getElem?_modify_eq_some_iff {f : α → α} :
    (l.modify i f)[j]? = some b ↔ ∃ a, l[j]? = some a ∧ (if i = j then f a else a) = b := by
  rw [List.getElem?_modify, Option.map_eq_map, Option.map_eq_some_iff]

theorem getElem?_concat_eq_some_iff :
    (l ++ [a])[i]? = some b ↔ (i = l.length ∧ b = a) ∨ l[i]? = some b := by
  rcases Nat.lt_trichotomy i l.length with hlt | rfl | hgt
  · rw [List.getElem?_append_left hlt]
    simp [Nat.ne_of_lt hlt]
  · simp [eq_comm]
  · have hnone : (l ++ [a])[i]? = none := List.getElem?_eq_none (by simp; omega)
    simp [hnone, Nat.ne_of_gt hgt, List.getElem?_eq_none (Nat.le_of_lt hgt)]

theorem any_set {p : α → Bool} (hi : l[i]? = some c) (hc : p c = false) :
    (l.set i a).any p = (l.any p || p a) := by
  induction l generalizing i with
  | nil => cases hi
  | cons d l ih =>
      cases i with
      | zero =>
          obtain rfl := Option.some.inj hi
          rw [List.set_cons_zero, List.any_cons, List.any_cons, hc, Bool.false_or, Bool.or_comm]
      | succ i =>
          rw [List.set_cons_succ, List.any_cons, List.any_cons, ih hi, Bool.or_assoc]

theorem countP_eq_of_places {β : Type} {l' : List β} {p : α → Bool} {q : β → Bool}
    (hlength : l.length = l'.length)
    (h : ∀ (i : Nat) (a : α) (b : β), l[i]? = some a → l'[i]? = some b → p a = q b) :
    l.countP p = l'.countP q := by
  induction l generalizing l' with
  | nil =>
      obtain rfl := List.length_eq_zero_iff.mp hlength.symm
      rfl
  | cons a l ih =>
      cases l' with
      | nil => cases hlength
      | cons b l' =>
          have hrest := ih (Nat.succ.inj hlength) fun i => h (i + 1)
          rw [List.countP_cons, List.countP_cons, hrest, h 0 a b rfl rfl]

end ShardKeeper
