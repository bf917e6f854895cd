import ShardKeeper.Json.Record
import ShardKeeper.Proofs.Json.Indented
import ShardKeeper.Text.NameMap

/-!
# Values in documents

What is written for a number, for the items of a list or for the entries of a map
is plain and is read back, provided that every single value is.

## Main results

* `Json.nat32?_nat`, `Json.int64?_integer` — numbers within their width.
* `Json.list?_map` — lists.
* `Json.entries?_record`, `Json.entries?_map` — maps, whose keys differ.
-/

namespace ShardKeeper.Json

variable {α : Type}

/-! ### Numbers -/

theorem nat32?_nat {n : Nat} (h : n < 2 ^ 32) : nat32? (.nat n) = some n := by
  have hbounds : (decide ((0 : Int) ≤ n) && decide ((n : Int) ≤ 4294967295)) = true := by
    simp only [Bool.and_eq_true, decide_eq_true_eq]
    omega
  rw [nat32?, nat, integer?, if_pos hbounds]
  rfl

theorem isPlain_nat {n : Nat} (h : n < 2 ^ 32) : (Json.nat n).IsPlain := by
  show (n : Int).natAbs < 2 ^ 64
  omega

theorem int64?_integer {n : Int} (h : Decimal.fitsInt64 n = true) :
    int64? (.integer n) = some n := if_pos h

theorem isPlain_integer {n : Int} (h : Decimal.fitsInt64 n = true) : (Json.integer n).IsPlain := by
  rw [Decimal.fitsInt64, Decimal.minInt64, Decimal.maxInt64, Bool.and_eq_true, decide_eq_true_eq,
    decide_eq_true_eq] at h
  show n.natAbs < 2 ^ 64
  omega

/-! ### Lists -/

theorem mapM_map_eq_map {β γ : Type} {write : β → γ} {read : γ → Option α} {value : β → α}
    {values : List β} (h : ∀ b ∈ values, read (write b) = some (value b)) :
    (values.map write).mapM read = some (values.map value) := by
  induction values with
  | nil => rfl
  | cons b values ih =>
      rw [List.map_cons, List.mapM_cons, h b List.mem_cons_self,
        ih fun c hc => h c (List.mem_cons_of_mem b hc)]
      rfl

theorem mapM_map_eq_some {β : Type} {write : α → β} {read : β → Option α} {values : List α}
    (h : ∀ a ∈ values, read (write a) = some a) : (values.map write).mapM read = some values := by
  have hmap : (values.map write).mapM read = some (values.map id) := mapM_map_eq_map h
  rw [hmap, List.map_id]

/-- **A list is read back**, item by item. -/
theorem list?_map {write : α → Json} {read : Json → Option α} {values : List α}
    (h : ∀ a ∈ values, read (write a) = some a) :
    list? read (.array (values.map write)) = some values := mapM_map_eq_some h

theorem arePlain_map {write : α → Json} {values : List α} (h : ∀ a ∈ values, (write a).IsPlain) :
    ArePlain (values.map write) := by
  induction values with
  | nil => trivial
  | cons a values ih =>
      exact ⟨h a List.mem_cons_self, ih fun b hb => h b (List.mem_cons_of_mem a hb)⟩

/-! ### Maps -/

theorem lastOfEach_of_pairwise {κ : Type} [BEq κ] [LawfulBEq κ] {pairs : List (κ × α)}
    (h : pairs.Pairwise fun a b => a.1 ≠ b.1) : lastOfEach pairs = pairs := by
  induction pairs with
  | nil => rfl
  | cons p pairs ih =>
      obtain ⟨hp, hpairs⟩ := List.pairwise_cons.mp h
      have hlast : (pairs.any fun m => m.1 == p.1) = false := by
        rw [List.any_eq_false]
        intro m hm
        rw [beq_iff_eq]
        exact (hp m hm).symm
      rw [lastOfEach, hlast, ih hpairs]
      rfl

/-- **What is written for values with different names is read as a map.** -/
theorem entries?_record {β : Type} {key : β → String} {write : β → Json} {read : Json → Option α}
    {value : β → α} {values : List β} (hkeys : values.Pairwise fun a b => key a ≠ key b)
    (h : ∀ b ∈ values, read (write b) = some (value b)) :
    entries? read (.record (values.map fun b => (key b, write b))) =
      some (values.map fun b => (key b, value b)) := by
  have hread : (values.map fun b => (some (key b), write b)).mapM
      (fun p : Option String × Json => do return (← p.1, ← read p.2)) =
        some (values.map fun b => (key b, value b)) :=
    mapM_map_eq_map fun b hb => by
      rw [h b hb]
      rfl
  have hmembers : (values.map fun b => (key b, write b)).map (fun p => (some p.1, p.2)) =
      values.map fun b => (some (key b), write b) := List.map_map
  rw [record, hmembers, entries?, hread]
  exact congrArg some (lastOfEach_of_pairwise (List.pairwise_map.mpr hkeys))

/-- The members that are written for the entries of a map. -/
def membersOf (write : α → Json) (m : NameMap α) : List (String × Json) :=
  m.entries.map fun e => (e.1, write e.2)

/-- **A map is read back**, entry by entry: no key of it comes twice. -/
theorem entries?_map (write : α → Json) (read : Json → Option α) {m : NameMap α}
    (h : ∀ e ∈ m.entries, read (write e.2) = some e.2) :
    entries? read (.record (membersOf write m)) = some m.entries := by
  have hkeys : m.entries.Pairwise fun a b => a.1 ≠ b.1 := by
    refine m.sorted.imp fun {a b} hlt heq => ?_
    rw [heq] at hlt
    exact String.lt_irrefl b.1 hlt
  exact (entries?_record hkeys h).trans (congrArg some (List.map_id m.entries))

theorem isPlain_membersOf (write : α → Json) {m : NameMap α}
    (h : ∀ e ∈ m.entries, (write e.2).IsPlain) : (Json.record (membersOf write m)).IsPlain := by
  have hall : ∀ entries : List (String × α), (∀ e ∈ entries, (write e.2).IsPlain) →
      MembersArePlain ((entries.map fun e => (e.1, write e.2)).map fun p => (some p.1, p.2)) := by
    intro entries h
    induction entries with
    | nil => trivial
    | cons e entries ih =>
        exact ⟨rfl, h e List.mem_cons_self, ih fun f hf => h f (List.mem_cons_of_mem e hf)⟩
  exact hall m.entries h

end ShardKeeper.Json
