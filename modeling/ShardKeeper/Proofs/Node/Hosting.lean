import Mathlib.Data.List.Nodup
import ShardKeeper.Proofs.Node.Moves
import ShardKeeper.Proofs.Reclaim.Course

/-!
# Hosted shards in the course of a node

Shards are opened, hosted, used and closed again while everything else goes on.
All that ever happens to the roster is of four kinds, `Roster.Change`, and what
is kept through every course is read off them.

## Main definitions

* `HostedShard.Becomes`, `HostedShard.Same` — a shard at two moments.
* `Roster.Change`, `Roster.Course` — one change of the roster, and any number of them.
* `Roster.Use`, `Roster.TakesUp` — what activities do to the roster.
* `Roster.Grows` — what a later roster has in common with an earlier one.
* `Roster.Sound` — each shard is hosted once at most, under its own name.
* `Roster.IsClosed` — a shard that takes no more operations.
* `Node.HostStep`, `Node.HostCourse` — what can happen to a node that hosts shards.

## Main results

* `Node.Acts.roster_cases` — an activity uses shards, or takes one up.
* `Node.HostStep.rosterCourse` — every step changes the roster in these ways only.
* `Roster.Course.grows`, `Roster.Sound.course` — what every course keeps.
* `Roster.Sound.mem_or_isClosed` — a shard stays hosted until it is closed.
* `Node.isClosed_closeShard` — what closing a shard does.
-/

namespace ShardKeeper

/-! ### A shard at two moments -/

/-- A shard later on: the same shard with the same slice, and closed if it was closed before. -/
structure HostedShard.Becomes (s s' : HostedShard) : Prop where
  id : s'.id = s.id
  slice : s'.slice = s.slice
  isClosed : s.isClosed = true → s'.isClosed = true

namespace HostedShard

variable {s s' : HostedShard}

namespace Becomes

theorem refl (s : HostedShard) : s.Becomes s := ⟨rfl, rfl, fun h => h⟩

theorem trans {s'' : HostedShard} (h₁ : s.Becomes s') (h₂ : s'.Becomes s'') : s.Becomes s'' :=
  ⟨h₂.id.trans h₁.id, h₂.slice.trans h₁.slice, fun h => h₂.isClosed (h₁.isClosed h)⟩

end Becomes

theorem becomes_close (s : HostedShard) : s.Becomes s.close := ⟨rfl, rfl, fun _ => rfl⟩

/-- A shard that was used: the same shard with the same slice, and closed if and only if it was
closed before. -/
structure Same (s s' : HostedShard) : Prop where
  id : s'.id = s.id
  slice : s'.slice = s.slice
  isClosed : s'.isClosed = s.isClosed

namespace Same

theorem refl (s : HostedShard) : s.Same s := ⟨rfl, rfl, rfl⟩

theorem becomes (h : s.Same s') : s.Becomes s' :=
  ⟨h.id, h.slice, fun hclosed => h.isClosed.trans hclosed⟩

end Same

theorem fail_fail (s : HostedShard) (reason : String) :
    (s.fail reason).fail reason = s.fail reason := by
  unfold fail
  cases s.failure <;> rfl

theorem same_fail (s : HostedShard) (reason : String) : s.Same (s.fail reason) :=
  ⟨rfl, rfl, rfl⟩

theorem same_afterWrite (s : HostedShard) (operation : DocumentChange.Operation)
    (result : CallResult WriteResponse) : s.Same (s.afterWrite operation result).1 := by
  rw [afterWrite]
  split
  · cases operation <;> exact ⟨rfl, rfl, rfl⟩
  · split
    · exact .refl s
    · exact s.same_fail _

/-- A refresh notes whether somebody is refreshing the shard, and its last step may enter a sample
and a marker into the ledger. -/
theorem refresh_cases {phase phase' : RefreshPhase} {reading : Reading}
    (h : phase.next? s reading = some (s', phase')) :
    (∃ isRefreshing, s' = { s with isRefreshing }) ∨
      ∃ checkpoint clock marker, phase = .entering checkpoint clock (.ok marker) ∧
        s' = { s with
          ledger := (s.ledger.refresh clock checkpoint marker).1, isRefreshing := false } ∧
        phase' = .done (.ok (s.ledger.refresh clock checkpoint marker).2) := by
  unfold RefreshPhase.next? at h
  split at h
  · cases h
    exact Or.inl ⟨s.isRefreshing, rfl⟩
  · split at h
    · cases h
    · cases h
      exact Or.inl ⟨true, rfl⟩
  · cases h
    exact Or.inl ⟨s.isRefreshing, rfl⟩
  · cases h
    exact Or.inl ⟨s.isRefreshing, rfl⟩
  · cases h
    exact Or.inl ⟨s.isRefreshing, rfl⟩
  · dsimp only at h
    split at h
    · cases h
      exact Or.inl ⟨false, rfl⟩
    · cases h
      exact Or.inr ⟨_, _, _, rfl, rfl, rfl⟩
  · cases h

theorem same_refresh {phase phase' : RefreshPhase} {reading : Reading}
    (h : phase.next? s reading = some (s', phase')) : s.Same s' := by
  rcases refresh_cases h with ⟨isRefreshing, rfl⟩ | ⟨_, _, _, -, rfl, -⟩
  · exact ⟨rfl, rfl, rfl⟩
  · exact ⟨rfl, rfl, rfl⟩

/-- A report changes what was reported last. -/
theorem exists_report {phase phase' : ReportPhase} {clock : Int} {size : Option Nat}
    (h : phase.next? s clock size = some (s', phase')) : ∃ reported, s' = { s with reported } := by
  unfold ReportPhase.next? at h
  split at h
  · split at h
    · cases h
      exact ⟨s.reported, rfl⟩
    · cases h
      exact ⟨s.reported, rfl⟩
  · cases h
    exact ⟨s.reported, rfl⟩
  · cases h
    exact ⟨_, rfl⟩
  · cases h

theorem same_report {phase phase' : ReportPhase} {clock : Int} {size : Option Nat}
    (h : phase.next? s clock size = some (s', phase')) : s.Same s' := by
  obtain ⟨reported, rfl⟩ := exists_report h
  exact ⟨rfl, rfl, rfl⟩

end HostedShard

/-! ### Changes of the roster -/

namespace Roster

/-- One change of a roster. -/
inductive Change (r : Roster) : Roster → Prop where
  | alter (number : Nat) (f : HostedShard → HostedShard)
      (hf : ∀ s, r.shards[number]? = some s → s.Becomes (f s)) : Change r (r.modify number f)
  /-- A shard is opened and not hosted. -/
  | add (s : HostedShard) : Change r (r.add s).1
  /-- A shard is opened and hosted at once. -/
  | host (s : HostedShard) {r' : Roster} (h : (r.add s).1.register? (r.add s).2 = some r') :
      Change r r'
  | drop {id : ShardId} {r' : Roster} {number : Nat} (h : r.remove id = some (r', number)) :
      Change r r'

/-- Any number of changes. -/
abbrev Course : Roster → Roster → Prop := Relation.ReflTransGen Change

variable {r r' r'' : Roster} {number : Nat} {id : ShardId}

/-- Shards that were opened stay the same shards, and whatever is hosted later on was hosted before
or was opened since. -/
structure Grows (r r' : Roster) : Prop where
  shards : ∀ (number : Nat) (s : HostedShard), r.shards[number]? = some s →
    ∃ s', r'.shards[number]? = some s' ∧ s.Becomes s'
  hosted : ∀ h ∈ r'.hosted, h ∈ r.hosted ∨ r.shards.length ≤ h.2

namespace Grows

theorem refl (r : Roster) : r.Grows r := ⟨fun _ s hs => ⟨s, hs, .refl s⟩, fun _ h => Or.inl h⟩

theorem length_le (h : r.Grows r') : r.shards.length ≤ r'.shards.length := by
  by_contra hlt
  obtain ⟨s, hs⟩ : ∃ s, r.shards[r'.shards.length]? = some s :=
    ⟨_, List.getElem?_eq_getElem (by omega)⟩
  obtain ⟨s', hs', -⟩ := h.shards _ s hs
  have := (List.getElem?_eq_some_iff.mp hs').1
  omega

theorem trans (h₁ : r.Grows r') (h₂ : r'.Grows r'') : r.Grows r'' where
  shards := by
    intro number s hs
    obtain ⟨s', hs', hbecomes⟩ := h₁.shards number s hs
    obtain ⟨s'', hs'', hbecomes'⟩ := h₂.shards number s' hs'
    exact ⟨s'', hs'', hbecomes.trans hbecomes'⟩
  hosted := by
    intro h hmem
    rcases h₂.hosted h hmem with hmem' | hlate
    · exact h₁.hosted h hmem'
    · exact Or.inr (Nat.le_trans h₁.length_le hlate)

end Grows

theorem grows_modify {f : HostedShard → HostedShard}
    (hf : ∀ s, r.shards[number]? = some s → s.Becomes (f s)) : r.Grows (r.modify number f) where
  shards := by
    intro i s hs
    show ∃ s', (r.shards.modify number f)[i]? = some s' ∧ _
    rw [List.getElem?_modify, hs]
    by_cases hi : number = i
    · subst hi
      exact ⟨f s, by simp, hf s hs⟩
    · exact ⟨s, by simp [hi], .refl s⟩
  hosted := fun _ h => Or.inl h

theorem grows_add (r : Roster) (s : HostedShard) : r.Grows (r.add s).1 where
  shards := by
    intro i t ht
    exact ⟨t, getElem?_concat_eq_some_iff.mpr (Or.inr ht), .refl t⟩
  hosted := fun _ h => Or.inl h

/-- Hosting a shard that was just opened. -/
theorem register?_add_eq_some {s : HostedShard}
    (h : (r.add s).1.register? (r.add s).2 = some r') :
    r.find? s.id = none ∧
      r' = { (r.add s).1 with hosted := r.hosted ++ [(s.id, r.shards.length)] } := by
  have hplace : (r.add s).1.shards[(r.add s).2]? = some s := by simp [add]
  unfold register? at h
  rw [hplace] at h
  obtain ⟨hfree, heq⟩ := Option.ite_none_left_eq_some.mp h
  exact ⟨Option.not_isSome_iff_eq_none.mp hfree, (Option.some.inj heq).symm⟩

theorem remove_eq_some (h : r.remove id = some (r', number)) :
    r.find? id = some number ∧
      r' = { r with hosted := r.hosted.filter fun h => h.1 != id }.modify number
        HostedShard.close := by
  obtain ⟨k, hk, heq⟩ := Option.map_eq_some_iff.mp h
  cases heq
  exact ⟨hk, rfl⟩

theorem Change.grows (h : r.Change r') : r.Grows r' := by
  cases h with
  | alter number f hf => exact grows_modify hf
  | add s => exact r.grows_add s
  | host s h =>
      obtain ⟨-, rfl⟩ := register?_add_eq_some h
      refine ⟨(r.grows_add s).shards, fun h hmem => ?_⟩
      rcases List.mem_append.mp hmem with hold | hnew
      · exact Or.inl hold
      · rw [List.mem_singleton.mp hnew]
        exact Or.inr (Nat.le_refl _)
  | @drop id r' number h =>
      obtain ⟨-, rfl⟩ := remove_eq_some h
      let kept : Roster := { r with hosted := r.hosted.filter fun h => h.1 != id }
      have hclosed : kept.Grows (kept.modify number HostedShard.close) :=
        grows_modify fun s _ => s.becomes_close
      exact ⟨hclosed.shards, fun h hmem => Or.inl (List.mem_of_mem_filter hmem)⟩

theorem Course.grows (h : r.Course r') : r.Grows r' := by
  induction h with
  | refl => exact .refl r
  | tail _ hchange ih => exact ih.trans hchange.grows

/-! ### Each shard hosted once -/

/-- Each shard is hosted once at most, and what is hosted under a name is a shard of that name. -/
structure Sound (r : Roster) : Prop where
  nodup : (r.hosted.map (·.1)).Nodup
  place : ∀ h ∈ r.hosted, ∃ s, r.shards[h.2]? = some s ∧ s.id = h.1

theorem sound_empty : Sound .empty := ⟨List.nodup_nil, fun _ h => absurd h List.not_mem_nil⟩

theorem find?_eq_none_iff : r.find? id = none ↔ ∀ h ∈ r.hosted, h.1 ≠ id := by
  rw [find?, List.lookup_eq_none_iff]
  constructor
  · exact fun h p hp => Ne.symm (bne_iff_ne.mp (h p hp))
  · exact fun h p hp => bne_iff_ne.mpr (Ne.symm (h p hp))

theorem mem_of_find? (h : r.find? id = some number) : (id, number) ∈ r.hosted := by
  obtain ⟨before, after, heq, -⟩ := List.lookup_eq_some_iff.mp h
  rw [heq]
  exact List.mem_append_right _ List.mem_cons_self

namespace Sound

/-- What is hosted is what is found. -/
theorem find?_eq_some (h : r.Sound) (hmem : (id, number) ∈ r.hosted) :
    r.find? id = some number := by
  obtain ⟨before, after, heq⟩ := List.append_of_mem hmem
  have hnodup := h.nodup
  rw [heq, List.map_append, List.map_cons] at hnodup
  rw [find?, List.lookup_eq_some_iff]
  refine ⟨before, after, heq, fun p hp => ?_⟩
  rw [bne_iff_ne]
  intro hid
  have hbefore : id ∈ before.map (·.1) := List.mem_map.mpr ⟨p, hp, hid.symm⟩
  exact (List.nodup_append.mp hnodup).2.2 id hbefore id List.mem_cons_self rfl

/-- Whatever keeps the hosted shards and their names keeps the roster sound. -/
theorem of_grows (h : r.Sound) (hgrows : r.Grows r') (hhosted : r'.hosted.Sublist r.hosted) :
    r'.Sound where
  nodup := h.nodup.sublist (hhosted.map _)
  place := by
    intro p hp
    obtain ⟨s, hs, hid⟩ := h.place p (hhosted.subset hp)
    obtain ⟨s', hs', hbecomes⟩ := hgrows.shards _ s hs
    exact ⟨s', hs', hbecomes.id.trans hid⟩

theorem change (h : r.Sound) (hchange : r.Change r') : r'.Sound := by
  cases hchange with
  | alter number f hf => exact h.of_grows (grows_modify hf) (List.Sublist.refl _)
  | add s => exact h.of_grows (r.grows_add s) (List.Sublist.refl _)
  | drop hdrop =>
      have hgrows := (Change.drop hdrop).grows
      obtain ⟨-, rfl⟩ := remove_eq_some hdrop
      exact h.of_grows hgrows List.filter_sublist
  | host s hhost =>
      obtain ⟨hfree, rfl⟩ := register?_add_eq_some hhost
      have hnew : s.id ∉ r.hosted.map (·.1) := by
        intro hmem
        obtain ⟨p, hp, hid⟩ := List.mem_map.mp hmem
        exact find?_eq_none_iff.mp hfree p hp hid
      refine ⟨?_, ?_⟩
      · show ((r.hosted ++ [(s.id, r.shards.length)]).map (·.1)).Nodup
        rw [List.map_append]
        exact List.Nodup.append h.nodup (List.nodup_singleton _)
          (List.disjoint_singleton.mpr hnew)
      · intro p hp
        rcases List.mem_append.mp hp with hold | hlast
        · obtain ⟨t, ht, hid⟩ := h.place p hold
          exact ⟨t, getElem?_concat_eq_some_iff.mpr (Or.inr ht), hid⟩
        · rw [List.mem_singleton.mp hlast]
          exact ⟨s, getElem?_concat_eq_some_iff.mpr (Or.inl ⟨rfl, rfl⟩), rfl⟩

theorem course (h : r.Sound) (hcourse : r.Course r') : r'.Sound := by
  induction hcourse with
  | refl => exact h
  | tail _ hchange ih => exact ih.change hchange

end Sound

/-! ### Closed shards -/

/-- The shard of a number takes no more operations. -/
def IsClosed (r : Roster) (number : Nat) : Prop :=
  ∃ s, r.shards[number]? = some s ∧ s.isClosed = true

/-- A closed shard stays closed. -/
theorem Grows.isClosed (h : r.Grows r') (hclosed : r.IsClosed number) : r'.IsClosed number := by
  obtain ⟨s, hs, hs'⟩ := hclosed
  obtain ⟨t, ht, hbecomes⟩ := h.shards number s hs
  exact ⟨t, ht, hbecomes.isClosed hs'⟩

/-- A shard that is no longer hosted was closed. -/
theorem Sound.isClosed_remove (h : r.Sound) (hmem : (id, number) ∈ r.hosted)
    (hremove : r.remove id = some (r', number)) : r'.IsClosed number := by
  obtain ⟨s, hs, -⟩ := h.place _ hmem
  obtain ⟨-, rfl⟩ := remove_eq_some hremove
  refine ⟨s.close, ?_, rfl⟩
  show (r.shards.modify number HostedShard.close)[number]? = some s.close
  rw [List.getElem?_modify, hs]
  simp

/-- A shard stays hosted, or it is closed. -/
theorem Sound.mem_or_isClosed_change (h : r.Sound) (hchange : r.Change r')
    (hmem : (id, number) ∈ r.hosted) : (id, number) ∈ r'.hosted ∨ r'.IsClosed number := by
  cases hchange with
  | alter => exact Or.inl hmem
  | add => exact Or.inl hmem
  | host s hhost =>
      obtain ⟨-, rfl⟩ := register?_add_eq_some hhost
      exact Or.inl (List.mem_append_left _ hmem)
  | @drop id' _ number' hdrop =>
      by_cases hid : id = id'
      · subst hid
        obtain rfl : number = number' :=
          Option.some.inj ((h.find?_eq_some hmem).symm.trans (remove_eq_some hdrop).1)
        exact Or.inr (h.isClosed_remove hmem hdrop)
      · obtain ⟨-, rfl⟩ := remove_eq_some hdrop
        exact Or.inl (List.mem_filter.mpr ⟨hmem, bne_iff_ne.mpr hid⟩)

/-- **A shard stays hosted until it is closed.** -/
theorem Sound.mem_or_isClosed (h : r.Sound) (hcourse : r.Course r')
    (hmem : (id, number) ∈ r.hosted) : (id, number) ∈ r'.hosted ∨ r'.IsClosed number := by
  induction hcourse with
  | refl => exact Or.inl hmem
  | tail hbefore hchange ih =>
      rcases ih with hstill | hclosed
      · exact (h.course hbefore).mem_or_isClosed_change hchange hstill
      · exact Or.inr (hchange.grows.isClosed hclosed)

/-! ### Shards in use -/

/-- A shard is used. -/
def Use (r r' : Roster) : Prop :=
  ∃ number f, (∀ s, r.shards[number]? = some s → s.Same (f s)) ∧ r' = r.modify number f

/-- Any number of shards are used. -/
abbrev UseCourse : Roster → Roster → Prop := Relation.ReflTransGen Use

theorem UseCourse.course (h : r.UseCourse r') : r.Course r' := by
  induction h with
  | refl => exact .refl
  | tail _ huse ih =>
      obtain ⟨number, f, hf, rfl⟩ := huse
      exact ih.tail (.alter number f fun s hs => (hf s hs).becomes)

theorem useCourse_failAll (r : Roster) (reason : String) : r.UseCourse (r.failAll reason) := by
  have hfold : ∀ (hosted : List (ShardId × Nat)) (q : Roster), r.UseCourse q →
      r.UseCourse (hosted.foldl (fun q h => q.modify h.2 fun s => s.fail reason) q) := by
    intro hosted
    induction hosted with
    | nil => exact fun q hq => hq
    | cons h rest ih =>
        intro q hq
        exact ih _ (hq.tail ⟨h.2, _, fun s _ => s.same_fail reason, rfl⟩)
  exact hfold r.hosted r .refl

/-- A failure of every hosted shard, shard by shard. -/
theorem shards_failAll (r : Roster) (reason : String) (number : Nat) :
    (r.failAll reason).shards[number]? =
      r.shards[number]?.map fun s =>
        if number ∈ r.hosted.map (·.2) then s.fail reason else s := by
  have hfold : ∀ (hosted : List (ShardId × Nat)) (q : Roster),
      (hosted.foldl (fun q h => q.modify h.2 fun s => s.fail reason) q).shards[number]? =
        q.shards[number]?.map fun s =>
          if number ∈ hosted.map (·.2) then s.fail reason else s := by
    intro hosted
    induction hosted with
    | nil => simp
    | cons h rest ih =>
        intro q
        rw [List.foldl_cons, ih]
        show ((q.shards.modify h.2 _)[number]?).map _ = _
        rw [List.getElem?_modify]
        cases q.shards[number]? with
        | none => rfl
        | some s =>
            by_cases hnumber : h.2 = number
            · by_cases hrest : number ∈ rest.map (·.2) <;>
                simp [hnumber, hrest, HostedShard.fail_fail]
            · have hmem : number ∈ (h :: rest).map (·.2) ↔ number ∈ rest.map (·.2) := by
                rw [List.map_cons, List.mem_cons, or_iff_right (Ne.symm hnumber)]
              simp only [Option.map_eq_map, Option.map_some, if_neg hnumber, if_congr hmem rfl rfl]
  exact hfold r.hosted r

theorem useCourse_hear (r : Roster) (receipt : Broadcast.Receipt HealthEvent) :
    r.UseCourse (r.hear receipt) := by
  unfold hear
  split
  · exact r.useCourse_failAll _
  · exact .refl

/-- What taking a shard up does to the roster. -/
inductive TakesUp (r : Roster) (plan : OpeningPlan) (draft : HostedShard) : Roster → Prop where
  | apart (hplan : plan.refreshing = none) : TakesUp r plan draft (r.add draft).1
  /-- The same shard is hosted already. -/
  | turnDown : TakesUp r plan draft ((r.add draft).1.modify (r.add draft).2 HostedShard.close)
  | host {r' : Roster} (h : (r.add draft).1.register? (r.add draft).2 = some r') :
      TakesUp r plan draft r'

theorem TakesUp.course {plan : OpeningPlan} {draft : HostedShard} (h : r.TakesUp plan draft r') :
    r.Course r' := by
  cases h with
  | apart => exact .single (.add draft)
  | turnDown =>
      have hadded : r.Course (r.add draft).1 := .single (.add draft)
      exact hadded.tail (.alter _ _ fun s _ => s.becomes_close)
  | host h => exact .single (.host draft h)

end Roster

namespace Node

variable {n m p : Node} {number : Nat} {a b : Activity}

/-! ### What the activities do to the roster -/

theorem useCourse_setShard {shard : Nat} {s s' : HostedShard}
    (hs : n.roster.shards[shard]? = some s) (h : s.Same s') :
    n.roster.UseCourse (n.setShard shard s').roster := by
  refine .single ⟨shard, fun _ => s', fun t ht => ?_, rfl⟩
  obtain rfl : s = t := Option.some.inj (hs.symm.trans ht)
  exact h

/-- A flush changes the ledger of its shard and nothing else of the roster. -/
theorem useCourse_flush (n : Node) (shard : Nat) (force : Bool) :
    n.roster.UseCourse (n.flush shard force).1.roster := by
  cases hs : n.roster.shards[shard]? with
  | none =>
      rw [flush_of_none hs]
  | some s =>
      obtain ⟨files, memory, heq⟩ := exists_flush hs force
      rw [heq]
      exact useCourse_setShard (n := { n with files, memory }) hs ⟨rfl, rfl, rfl⟩

/-- **What an activity does to the roster**: it uses shards, or takes one up. -/
theorem Acts.roster_cases (h : n.Acts number a b m) :
    n.roster.UseCourse m.roster ∨ ∃ plan token draft,
      a = .opening plan token (.registering draft) ∧ n.roster.TakesUp plan draft m.roster := by
  have hsame : m.roster = n.roster → n.roster.UseCourse m.roster := by
    intro hroster
    rw [hroster]
  cases h with
  | follow h => exact Or.inl (hsame h.roster)
  | reclaim hroster => exact Or.inl (hsame hroster)
  | deafen h => exact Or.inl (hsame h.roster)
  | hear receipt hroster =>
      rw [hroster]
      exact Or.inl (n.roster.useCourse_hear receipt)
  | loop _ h => exact Or.inl (hsame h.roster)
  | loopRefresh hs hnext =>
      exact Or.inl (n.useCourse_setShard hs (HostedShard.same_refresh hnext))
  | loopFlush => exact Or.inl (n.useCourse_flush _ false)
  | opening _ h => exact Or.inl (hsame h.roster)
  | apart hplan h =>
      rw [h.roster]
      exact Or.inr ⟨_, _, _, rfl, .apart hplan⟩
  | turnDown h =>
      rw [h.roster]
      exact Or.inr ⟨_, _, _, rfl, .turnDown⟩
  | host hroster h =>
      rw [h.roster]
      exact Or.inr ⟨_, _, _, rfl, .host hroster⟩
  | talk h => exact Or.inl (hsame h.roster)
  | write hs => exact Or.inl (n.useCourse_setShard hs (HostedShard.same_afterWrite ..))
  | query h => exact Or.inl (hsame h.roster)
  | refresh hs hnext => exact Or.inl (n.useCourse_setShard hs (HostedShard.same_refresh hnext))
  | report hs hnext => exact Or.inl (n.useCourse_setShard hs (HostedShard.same_report hnext))

theorem rosterCourse_of_move? (h : n.move? number = some m) : n.roster.Course m.roster := by
  obtain ⟨a, b, -, hacts⟩ := exists_acts_of_move? h
  rcases hacts.roster_cases with huse | ⟨plan, token, draft, -, htakes⟩
  · exact huse.course
  · exact htakes.course

/-! ### From outside -/

/-- What closing a shard does to the roster. -/
theorem roster_closeShard (n : Node) (id : ShardId) :
    (n.roster.find? id = none ∧ (n.closeShard id).1 = n) ∨
      ∃ r number, n.roster.remove id = some (r, number) ∧
        r.UseCourse (n.closeShard id).1.roster := by
  rw [closeShard]
  split
  · rename_i hnone
    exact Or.inl ⟨Option.map_eq_none_iff.mp hnone, rfl⟩
  · rename_i r number hremove
    exact Or.inr ⟨r, number, hremove, useCourse_flush { n with roster := r } number false⟩

theorem course_closeShard (n : Node) (id : ShardId) :
    n.roster.Course (n.closeShard id).1.roster := by
  rcases n.roster_closeShard id with ⟨-, heq⟩ | ⟨r, number, hremove, hcourse⟩
  · rw [heq]
  · exact .head (.drop hremove) hcourse.course

/-- **A hosted shard is closed.** -/
theorem isClosed_closeShard (h : n.roster.Sound) {id : ShardId}
    (hmem : (id, number) ∈ n.roster.hosted) : (n.closeShard id).1.roster.IsClosed number := by
  have hfind := h.find?_eq_some hmem
  rcases n.roster_closeShard id with ⟨hnone, -⟩ | ⟨r, number', hremove, hcourse⟩
  · rw [hfind] at hnone
    cases hnone
  · obtain rfl : number = number' :=
      Option.some.inj (hfind.symm.trans (Roster.remove_eq_some hremove).1)
    exact hcourse.course.grows.isClosed (h.isClosed_remove hmem hremove)

theorem roster_reclaim (n : Node) (key : ReclaimKey) : (n.reclaim key).1.roster = n.roster := by
  rw [reclaim]
  split <;> rfl

/-- One step of a node that hosts shards. -/
inductive HostStep : Node → Node → Prop where
  | act {n m : Node} {number : Nat} (h : n.move? number = some m) : HostStep n m
  | close (n : Node) (id : ShardId) : HostStep n (n.closeShard id).1
  | reclaim (n : Node) (key : ReclaimKey) : HostStep n (n.reclaim key).1
  /-- Something that the shards do not notice: an opening is asked for, the catalog is published or
  cleared, time passes, files change. -/
  | around {n m : Node} (h : n.Aside m) (hroster : m.roster = n.roster) : HostStep n m

/-- Any number of steps. -/
abbrev HostCourse : Node → Node → Prop := Relation.ReflTransGen HostStep

/-- **All that a step changes of the roster are shards opened, hosted, altered and closed.** -/
theorem HostStep.rosterCourse (h : n.HostStep m) : n.roster.Course m.roster := by
  cases h with
  | act hmove => exact rosterCourse_of_move? hmove
  | close id => exact n.course_closeShard id
  | reclaim key => rw [n.roster_reclaim key]
  | around h hroster => rw [hroster]

theorem HostStep.step (h : n.HostStep m) : n.Step m := by
  cases h with
  | act hmove => exact .act hmove
  | close id => exact .aside (n.aside_closeShard id)
  | reclaim key => exact .reclaim n key
  | around h hroster => exact .aside h

/-- The next step of an activity that can make one. -/
theorem HostStep.next (h : (n.move? number).isSome = true) :
    n.HostStep ((n.move? number).getD n) := by
  obtain ⟨m, hm⟩ := Option.isSome_iff_exists.mp h
  rw [hm]
  exact .act hm

theorem HostCourse.rosterCourse (h : n.HostCourse m) : n.roster.Course m.roster := by
  induction h with
  | refl => exact .refl
  | tail _ hstep ih => exact ih.trans hstep.rosterCourse

theorem HostCourse.course (h : n.HostCourse m) : n.Course m := by
  induction h with
  | refl => exact .refl
  | tail _ hstep ih => exact ih.tail hstep.step

end Node

end ShardKeeper
