import ShardKeeper.Proofs.HashSpace
import ShardKeeper.Proofs.Node.Hosting
import ShardKeeper.Proofs.Reclaim.Absence

/-!
# Shards of data that is removed

A deletion closes the shards of its data one after the other and then asks for
the removal, which begins whenever the catalog shows that the engine has let go.
In the meantime shards are opened as before.  Nothing keeps a shard of that data
from being opened again, and it is served as long as the catalog still shows it:
the shards that a deletion has closed stay closed, and those taken up since are
open while their data is removed.

## Main definitions

* `Roster.Hosts` — an open shard on the roster.
* `Node.Closing` — shards are closed one after the other.
* `Node.Deletion` — shards are closed, and a removal is asked for.

## Main results

* `Node.deletion_of_deleteTable`, `Node.deletion_of_deleteShard` — so both deletions go.
* `Node.closed_while_reclaimed` — which shards are closed from a deletion on.
* `Node.removed_while_open` — a table whose data is removed under an open shard.
-/

namespace ShardKeeper

/-- An open shard on the roster. -/
structure Roster.Hosts (r : Roster) (id : ShardId) (number : Nat) (s : HostedShard) : Prop where
  mem : (id, number) ∈ r.hosted
  shard : r.shards[number]? = some s
  isOpen : s.isClosed = false

theorem Roster.Hosts.not_isClosed {r : Roster} {id : ShardId} {number : Nat} {s : HostedShard}
    (h : r.Hosts id number s) : ¬r.IsClosed number := by
  rintro ⟨t, ht, hclosed⟩
  obtain rfl : s = t := Option.some.inj (h.shard.symm.trans ht)
  rw [h.isOpen] at hclosed
  cases hclosed

namespace Node

/-! ### A deletion -/

/-- Shards are closed one after the other, while everything else goes on. -/
inductive Closing : Node → List ShardId → Node → Prop where
  | done (n : Node) : Closing n [] n
  | close {n m : Node} {id : ShardId} {ids : List ShardId} (h : Closing (n.closeShard id).1 ids m) :
      Closing n (id :: ids) m
  | meanwhile {n k m : Node} {ids : List ShardId} (hstep : n.HostStep k) (h : Closing k ids m) :
      Closing n ids m

/-- Shards are closed, and then the removal of the data of `key` is asked for, which is accepted and
begins the saga of the number `saga`. -/
def Deletion (n : Node) (ids : List ShardId) (key : ReclaimKey) (m : Node) (saga : Nat) : Prop :=
  ∃ k, n.Closing ids k ∧ k.reclaim key = (m, some saga)

/-- The hosted shards of a table. -/
def shardsOf (n : Node) (table : String) : List ShardId :=
  n.roster.ids.filter fun id => id.table == table

variable {n₀ n m p : Node} {ids : List ShardId} {id : ShardId} {key : ReclaimKey}
variable {number saga : Nat}

theorem mem_shardsOf {table : String} (hmem : (id, number) ∈ n.roster.hosted)
    (htable : id.table = table) : id ∈ n.shardsOf table := by
  refine List.mem_filter.mpr ⟨?_, beq_iff_eq.mpr htable⟩
  rw [Roster.ids, List.mem_mergeSort]
  exact List.mem_map.mpr ⟨_, hmem, rfl⟩

theorem closing_closeShards (n : Node) (ids : List ShardId) :
    n.Closing ids (n.closeShards ids) := by
  induction ids generalizing n with
  | nil => exact .done n
  | cons id ids ih => exact .close (ih _)

theorem deletion_of_deleteTable {table : String} (h : n.deleteTable table = (m, some saga)) :
    n.Deletion (n.shardsOf table) (.table table) m saga :=
  ⟨_, n.closing_closeShards _, h⟩

theorem deletion_of_deleteShard {count : Nat} (h : n.deleteShard id count = (m, .ok (some saga))) :
    ∃ slice, HashSlice.ofShard? count id.index = some slice ∧
      n.Deletion [id] (.shard id.table slice) m saga := by
  rw [deleteShard] at h
  split at h
  · cases h
  · rename_i slice hslice
    have hreclaim : (n.closeShard id).1.reclaim (.shard id.table slice) = (m, some saga) := by
      obtain ⟨hm, hsaga⟩ := Prod.mk.inj h
      exact Prod.ext hm (Except.ok.inj hsaga)
    exact ⟨slice, hslice, _, n.closing_closeShards [id], hreclaim⟩

theorem Closing.hostCourse (h : n.Closing ids m) : n.HostCourse m := by
  induction h with
  | done => exact .refl
  | close _ ih => exact .head (.close _ _) ih
  | meanwhile hstep _ ih => exact .head hstep ih

theorem Deletion.hostCourse (h : n.Deletion ids key m saga) : n.HostCourse m := by
  obtain ⟨k, hclosing, hreclaim⟩ := h
  have hstep := HostStep.reclaim k key
  rw [hreclaim] at hstep
  exact hclosing.hostCourse.tail hstep

/-- Whichever of the shards was hosted at the beginning is closed at the end. -/
theorem Closing.isClosed (h : n.Closing ids m) (hsound : n.roster.Sound) (hid : id ∈ ids)
    (hmem : (id, number) ∈ n.roster.hosted) : m.roster.IsClosed number := by
  induction h with
  | done => cases hid
  | @close n m first ids hrest ih =>
      have hcourse := n.course_closeShard first
      have hlater := hrest.hostCourse.rosterCourse.grows
      by_cases hfirst : id = first
      · subst hfirst
        exact hlater.isClosed (isClosed_closeShard hsound hmem)
      · rcases hsound.mem_or_isClosed hcourse hmem with hstill | hclosed
        · exact ih (hsound.course hcourse) ((List.mem_cons.mp hid).resolve_left hfirst) hstill
        · exact hlater.isClosed hclosed
  | meanwhile hstep hrest ih =>
      -- somebody else may have closed it already
      rcases hsound.mem_or_isClosed hstep.rosterCourse hmem with hstill | hclosed
      · exact ih (hsound.course hstep.rosterCourse) hid hstill
      · exact hrest.hostCourse.rosterCourse.grows.isClosed hclosed

/-! ### The saga of a deletion -/

/-- A saga is about the same data from beginning to end. -/
theorem Step.key_eq (h : n.Step m) {s : Saga} (hs : n.desk.sagas[saga]? = some s) :
    ∃ s', m.desk.sagas[saga]? = some s' ∧ s'.key = s.key := by
  rcases h.cases with haside | ⟨key, new, ticket, hasked⟩ | ⟨_, other, ticket, t, t', -, -, hmoved⟩
  · rw [haside.desk]
    exact ⟨s, hs, rfl⟩
  · obtain ⟨locks, -, -, hdesk⟩ := ReclaimDesk.request_eq_some hasked.desk
    rw [hdesk]
    exact ⟨s, getElem?_concat_eq_some_iff.mpr (Or.inr hs), rfl⟩
  · rw [hmoved.desk]
    have hplace : ∀ {i : Nat} {r : Saga}, (n.desk.update other t').sagas[i]? = some r ↔
        (i = other ∧ r = t') ∨ (i ≠ other ∧ n.desk.sagas[i]? = some r) :=
      getElem?_set_eq_some_iff hmoved.saga
    rcases eq_or_ne saga other with rfl | hne
    · obtain rfl : s = t := Option.some.inj (hs.symm.trans hmoved.saga)
      exact ⟨t', hplace.mpr (Or.inl ⟨rfl, rfl⟩), hmoved.step.key_eq⟩
    · exact ⟨s, hplace.mpr (Or.inr ⟨hne, hs⟩), rfl⟩

theorem Course.key_eq (h : n.Course m) {s : Saga} (hs : n.desk.sagas[saga]? = some s) :
    ∃ s', m.desk.sagas[saga]? = some s' ∧ s'.key = s.key := by
  induction h with
  | refl => exact ⟨s, hs, rfl⟩
  | tail _ hstep ih =>
      obtain ⟨t, ht, hkey⟩ := ih
      obtain ⟨u, hu, hkey'⟩ := hstep.key_eq ht
      exact ⟨u, hu, hkey'.trans hkey⟩

theorem sagas_of_reclaim (h : n.reclaim key = (m, some saga)) :
    m.desk.sagas[saga]? = some (.ofKey key) := by
  unfold reclaim at h
  split at h
  · cases h
  · rename_i desk number hrequest
    obtain ⟨locks, -, hnumber, hdesk⟩ := ReclaimDesk.request_eq_some hrequest
    cases h
    show desk.sagas[saga]? = _
    rw [hdesk, hnumber]
    exact getElem?_concat_eq_some_iff.mpr (Or.inl ⟨rfl, rfl⟩)

/-- The saga of a deletion is about its data. -/
theorem Deletion.exists_saga (h : n.Deletion ids key m saga) (hp : m.Course p) :
    ∃ s, p.desk.sagas[saga]? = some s ∧ s.key = key := by
  obtain ⟨k, -, hreclaim⟩ := h
  exact hp.key_eq (sagas_of_reclaim hreclaim)

/-! ### From a deletion on -/

theorem Deletion.isClosed (h : n.Deletion ids key m saga) (hsound : n.roster.Sound)
    (hp : m.HostCourse p) (hid : id ∈ ids) (hmem : (id, number) ∈ n.roster.hosted) :
    p.roster.IsClosed number := by
  obtain ⟨k, hclosing, hreclaim⟩ := h
  have hroster : m.roster = k.roster := by
    rw [← k.roster_reclaim key, hreclaim]
  have hclosed := hclosing.isClosed hsound hid hmem
  rw [← hroster] at hclosed
  exact hp.rosterCourse.grows.isClosed hclosed

/-- What is open after a deletion was not among its shards, or was opened since it began. -/
theorem Deletion.notMem_or_le (h : n.Deletion ids key m saga) (hsound : n.roster.Sound)
    (hp : m.HostCourse p) {t : HostedShard} (ht : p.roster.Hosts id number t) :
    ((id, number) ∈ n.roster.hosted ∧ id ∉ ids) ∨ n.roster.shards.length ≤ number := by
  have hgrows := (HostCourse.rosterCourse (h.hostCourse.trans hp)).grows
  rcases hgrows.hosted _ ht.mem with hold | hnew
  · refine Or.inl ⟨hold, fun hid => ?_⟩
    exact ht.not_isClosed (h.isClosed hsound hp hid hold)
  · exact Or.inr hnew

/-- A node that has opened no shard and at which no reclaim was ever asked for. -/
structure BeforeShards (n : Node) : Prop where
  reclaims : n.BeforeReclaims
  roster : n.roster = .empty

theorem BeforeShards.sound (h : n₀.BeforeShards) (hn : n₀.HostCourse n) : n.roster.Sound := by
  refine Roster.Sound.course ?_ hn.rosterCourse
  rw [h.roster]
  exact Roster.sound_empty

/-- **Which shards are closed while data is removed.**  In every course of a node, from the moment
on at which a deletion was asked for, and in particular while its saga removes the data,

* the saga of the deletion of a table is about that table, every shard of the table that was hosted
  when the deletion began is closed, and any shard of the table that is open was opened since;
* the saga of the deletion of a shard is about its slice, the shard is closed if it was hosted when
  the deletion began, and any shard that is open and has the same slice of the same table was opened
  since, or it was hosted under another index in a table of another number of shards. -/
theorem closed_while_reclaimed (h₀ : n₀.BeforeShards) (hn : n₀.HostCourse n)
    (hp : m.HostCourse p) :
    (∀ table, n.Deletion (n.shardsOf table) (.table table) m saga →
      (∃ s, p.desk.sagas[saga]? = some s ∧ s.key = .table table) ∧
      (∀ id number, (id, number) ∈ n.roster.hosted → id.table = table →
        p.roster.IsClosed number) ∧
      ∀ id number t, p.roster.Hosts id number t → id.table = table →
        n.roster.shards.length ≤ number) ∧
    ∀ (id : ShardId) (count : Nat) (slice : HashSlice),
      HashSlice.ofShard? count id.index = some slice →
      n.Deletion [id] (.shard id.table slice) m saga →
      (∃ s, p.desk.sagas[saga]? = some s ∧ s.key = .shard id.table slice) ∧
      (∀ number, (id, number) ∈ n.roster.hosted → p.roster.IsClosed number) ∧
      ∀ other number t, p.roster.Hosts other number t → other.table = id.table → t.slice = slice →
        n.roster.shards.length ≤ number ∨
          other.index ≠ id.index ∧ HashSlice.ofShard? count other.index ≠ some slice := by
  have hsound := h₀.sound hn
  refine ⟨fun table hdeletion => ⟨?_, ?_, ?_⟩, fun id count slice hslice hdeletion => ⟨?_, ?_, ?_⟩⟩
  · exact hdeletion.exists_saga hp.course
  · intro id number hmem htable
    exact hdeletion.isClosed hsound hp (mem_shardsOf hmem htable) hmem
  · intro id number t ht htable
    rcases hdeletion.notMem_or_le hsound hp ht with ⟨hmem, hid⟩ | hnew
    · exact absurd (mem_shardsOf hmem htable) hid
    · exact hnew
  · exact hdeletion.exists_saga hp.course
  · intro number hmem
    exact hdeletion.isClosed hsound hp (List.mem_singleton.mpr rfl) hmem
  · intro other number t ht htable _
    rcases hdeletion.notMem_or_le hsound hp ht with ⟨-, hid⟩ | hnew
    · have hindex : other.index ≠ id.index := by
        intro heq
        exact hid (List.mem_singleton.mpr (by rw [ShardId.mk.injEq]; exact ⟨htable, heq⟩))
      exact Or.inr ⟨hindex, fun hsame => hindex (HashSlice.index_eq_of_ofShard? hsame hslice)⟩
    · exact Or.inl hnew

/-- A table with a hosted shard is deleted and the shard is opened again: the first one is closed
while the data is removed, and the open one is another. -/
theorem closed_while_reclaimed_after_reopening :
    let n₀ : Node :=
      starting ⟨⟨"runtime"⟩⟩ .empty ⟨.ofSeconds 1, .ofSeconds 60⟩
        ⟨.ofMillis 50, 2, 10, .ofSeconds 5⟩ ⟨3, .ofSeconds 1⟩
    let plan : OpeningPlan :=
      ⟨⟨"orders", 0⟩, 1, .empty 8 60000, .memory, .told, .ofSeconds 1, some (.ofSeconds 1)⟩
    let next (number : Nat) (n : Node) : Node := (n.move? number).getD n
    let opening (n : Node) : Node := (n.begin (.opening plan (.top 1) .arriving)).1
    let served : Node :=
      { n₀ with feed := n₀.feed.publish ⟨[("orders", [(0, ⟨["0_65535"]⟩)])]⟩ }
    let n : Node := next 0 (next 0 (next 0 (opening served)))
    let m : Node := (n.deleteTable "orders").1
    let p : Node := next 3 (next 3 (next 3 (opening m)))
    n₀.BeforeShards ∧ n₀.HostCourse n ∧ m.HostCourse p ∧
      n.Deletion (n.shardsOf "orders") (.table "orders") m 0 ∧
      (⟨"orders", 0⟩, 0) ∈ n.roster.hosted ∧ p.roster.IsClosed 0 ∧
      (⟨"orders", 0⟩, 1) ∈ p.roster.hosted ∧
      ∀ id number t, p.roster.Hosts id number t → id.table = "orders" → 1 ≤ number := by
  intro n₀ plan next opening served n m p
  have h₀ : n₀.BeforeShards := ⟨beforeReclaims_starting .., rfl⟩
  have hopening : ∀ k : Node, k.HostStep (opening k) :=
    fun k => .around (aside_begin k rfl) rfl
  have hn : n₀.HostCourse n := by
    have hserved : n₀.HostStep served := .around (aside_publish ..) rfl
    exact ((((Relation.ReflTransGen.single hserved).tail (hopening _)).tail
      (.next (by decide +kernel))).tail (.next (by decide +kernel))).tail
      (.next (by decide +kernel))
  have hp : m.HostCourse p :=
    (((Relation.ReflTransGen.single (hopening m)).tail (.next (by decide +kernel))).tail
      (.next (by decide +kernel))).tail (.next (by decide +kernel))
  have hdeletion : n.Deletion (n.shardsOf "orders") (.table "orders") m 0 := by
    refine deletion_of_deleteTable (Prod.ext rfl ?_)
    decide +kernel
  have hhosted : (⟨"orders", 0⟩, 0) ∈ n.roster.hosted := by decide +kernel
  obtain ⟨-, hclosed, hopen⟩ :=
    (closed_while_reclaimed h₀ hn hp).1 "orders" hdeletion
  rw [show n.roster.shards.length = 1 by decide +kernel] at hopen
  exact ⟨h₀, hn, hp, hdeletion, hhosted, hclosed _ 0 hhosted rfl, by decide +kernel, hopen⟩

/-- A table that is deleted while the engine serves it.  One of its shards is opened after that, and
once the engine has let go of the table its data is removed while the shard is open. -/
theorem removed_while_open :
    let n₀ : Node :=
      starting ⟨⟨"runtime"⟩⟩ .empty ⟨.ofSeconds 1, .ofSeconds 60⟩
        ⟨.ofMillis 50, 2, 10, .ofSeconds 5⟩ ⟨3, .ofSeconds 1⟩
    let plan : OpeningPlan :=
      ⟨⟨"orders", 0⟩, 1, .empty 8 60000, .memory, .told, .ofSeconds 1, some (.ofSeconds 1)⟩
    let next (number : Nat) (n : Node) : Node := (n.move? number).getD n
    let n : Node :=
      { n₀ with feed := n₀.feed.publish ⟨[("orders", [(0, ⟨["0_65535"]⟩)])]⟩ }
    let m : Node := (n.deleteTable "orders").1
    let opened : Node :=
      next 1 (next 1 (next 1 (m.begin (.opening plan (.top 1) .arriving)).1))
    let p : Node := next 0 (next 0 { opened with feed := opened.feed.publish ⟨[]⟩ })
    let q : Node := next 0 p
    n₀.BeforeShards ∧ n₀.HostCourse n ∧
      n.Deletion (n.shardsOf "orders") (.table "orders") m 0 ∧ m.HostCourse p ∧
      (∃ ticket s wait, p.BeginsRemoval q 0 ticket s wait ∧ s.key = .table "orders") ∧
      ∃ t, p.roster.Hosts ⟨"orders", 0⟩ 0 t := by
  intro n₀ plan next n m opened p q
  have h₀ : n₀.BeforeShards := ⟨beforeReclaims_starting .., rfl⟩
  have hn : n₀.HostCourse n := .single (.around (aside_publish ..) rfl)
  have hdeletion : n.Deletion (n.shardsOf "orders") (.table "orders") m 0 := by
    refine deletion_of_deleteTable (Prod.ext rfl ?_)
    decide +kernel
  have hp : m.HostCourse p := by
    have hopening : m.HostStep (m.begin (.opening plan (.top 1) .arriving)).1 :=
      .around (aside_begin m rfl) rfl
    have hopened : m.HostCourse opened :=
      (((Relation.ReflTransGen.single hopening).tail (.next (by decide +kernel))).tail
        (.next (by decide +kernel))).tail (.next (by decide +kernel))
    exact ((hopened.tail (.around (aside_publish opened ⟨[]⟩) rfl)).tail
      (.next (by decide +kernel))).tail (.next (by decide +kernel))
  have hsound : p.ReclaimsSoundly :=
    (ReclaimsSoundly.of_beforeReclaims h₀.reclaims).course
      (HostCourse.course ((hn.trans hdeletion.hostCourse).trans hp))
  have hstep : p.HostStep q := .next (by decide +kernel)
  obtain ⟨saga, ticket, s, wait, hbegins⟩ :=
    exists_beginsRemoval hsound hstep.step (by decide +kernel)
  -- there is only one saga
  obtain ⟨-, -, hs, -⟩ := hbegins.looking
  obtain rfl : saga = 0 := by
    have hlt := (List.getElem?_eq_some_iff.mp hs).1
    rw [show p.desk.sagas.length = 1 by decide +kernel] at hlt
    omega
  obtain ⟨s', hs', hkey⟩ := hdeletion.exists_saga hp.course
  obtain rfl : s = s' := Option.some.inj (hs.symm.trans hs')
  refine ⟨h₀, hn, hdeletion, hp, ⟨ticket, s, wait, hbegins, hkey⟩, ?_⟩
  obtain ⟨t, ht⟩ : ∃ t, p.roster.shards[0]? = some t :=
    Option.isSome_iff_exists.mp (by decide +kernel)
  have hopen : p.roster.shards[0]?.map HostedShard.isClosed = some false := by decide +kernel
  rw [ht] at hopen
  exact ⟨t, by decide +kernel, ht, Option.some.inj hopen⟩

end Node

end ShardKeeper
