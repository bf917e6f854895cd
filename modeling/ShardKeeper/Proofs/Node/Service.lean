import ShardKeeper.Proofs.Node.Hosting
import ShardKeeper.Proofs.Timed

/-!
# A node at work

Shards are opened, used, closed and deleted at the same time, and the node is
shut down.  What takes time is an activity, and what does not is one step, so a
course of such steps is an interleaving of whatever was asked of the node.

## Main definitions

* `Node.Around` — what neither the shards nor their activities notice.
* `Node.ServiceStep`, `Node.ServiceCourse` — what happens between two moments at which somebody else
  may act, and any number of such steps.
* `Node.ServicePart`, `Node.PartCourse` — the parts of such a step.

## Main results

* `Node.ServiceStep.partCourse` — a step is a course of parts.
* `Node.ServicePart.cases` — the parts, by what they do.
* `Node.serviceCourse_openShard`, `Node.serviceCourse_shutdown` — operations that take time are
  courses of steps.
-/

namespace ShardKeeper

/-! ### Parts and steps -/

/-- Whether an activity is one that was asked for and has not acted yet, and that opens no shard. -/
def Activity.isRequest : Activity → Bool
  | .following .. | .reclaiming .. | .listening .. | .querying .. => true
  | .tending _ _ _ .fresh | .refreshing _ .arriving | .reporting _ .loading => true
  | .writing _ _ _ call result => call.isSending && result.isNone
  | .tending .. | .refreshing .. | .reporting .. | .opening .. => false

namespace Node

/-- Something happens that neither the shards nor their activities notice: things are asked for, the
catalog is published or cleared, tokens are cancelled, time passes, files change. -/
structure Around (n m : Node) : Prop where
  roster : m.roster = n.roster
  activities : ∃ requests, m.activities = n.activities ++ requests ∧
    ∀ a ∈ requests, a.isRequest = true

/-- A part of what happens to a node that hosts shards. -/
inductive ServicePart : Node → Node → Prop where
  | act {n m : Node} {number : Nat} (h : n.move? number = some m) : ServicePart n m
  /-- A task that waits to refresh a shard again does so although it was cancelled. -/
  | wake {n : Node} {number shard : Nat} {interval : Duration} {ticket : TaskTicket}
      {ticker : Ticker} (ticker' : Ticker)
      (h : n.activities[number]? = some (.tending shard interval ticket (.waiting ticker))) :
      ServicePart n
        (n.set number (.tending shard interval ticket (.refreshing ticker' .arriving)))
  | openShard (n : Node) {plan : OpeningPlan} (token : Token)
      (hplan : plan.refreshing.isSome = true) :
      ServicePart n (n.begin (.opening plan token .arriving)).1
  | closeShard (n : Node) (id : ShardId) : ServicePart n (n.closeShard id).1
  | around {n m : Node} (h : n.Around m) : ServicePart n m

/-- Any number of parts. -/
abbrev PartCourse : Node → Node → Prop := Relation.ReflTransGen ServicePart

/-- What happens to a node that hosts shards, between two moments at which somebody else may act. -/
inductive ServiceStep : Node → Node → Prop where
  | part {n m : Node} (h : n.ServicePart m) : ServiceStep n m
  | deleteTable (n : Node) (table : String) : ServiceStep n (n.deleteTable table).1
  | deleteShard (n : Node) (id : ShardId) (count : Nat) : ServiceStep n (n.deleteShard id count).1
  /-- A shutdown closes every hosted shard and cancels all tasks, and from then on it waits. -/
  | shutdown (n : Node) :
      ServiceStep n
        { n.closeShards n.roster.ids with group := (n.closeShards n.roster.ids).group.cancelAll }

/-- Any number of steps. -/
abbrev ServiceCourse : Node → Node → Prop := Relation.ReflTransGen ServiceStep

variable {n₀ n m p : Node} {number : Nat} {a b : Activity}

/-! ### The parts of a step -/

theorem around_of_eq (hroster : m.roster = n.roster) (hactivities : m.activities = n.activities) :
    n.Around m :=
  ⟨hroster, [], by rw [hactivities, List.append_nil], fun a ha => absurd ha List.not_mem_nil⟩

theorem around_begin (n : Node) (ha : a.isRequest = true) : n.Around (n.begin a).1 :=
  ⟨rfl, [a], rfl, fun b hb => by rwa [List.mem_singleton.mp hb]⟩

theorem around_reclaim (n : Node) (key : ReclaimKey) : n.Around (n.reclaim key).1 := by
  rw [reclaim]
  split
  · exact around_of_eq rfl rfl
  · exact ⟨rfl, [_], rfl, fun a ha => by rw [List.mem_singleton.mp ha]; rfl⟩

theorem partCourse_closeShards (n : Node) (ids : List ShardId) :
    n.PartCourse (n.closeShards ids) := by
  induction ids generalizing n with
  | nil => exact .refl
  | cons id ids ih => exact .head (.closeShard n id) (ih _)

/-- A step is a course of parts. -/
theorem ServiceStep.partCourse (h : n.ServiceStep m) : n.PartCourse m := by
  cases h with
  | part h => exact .single h
  | deleteTable table => exact (n.partCourse_closeShards _).tail (.around (around_reclaim ..))
  | deleteShard id count =>
      rw [Node.deleteShard]
      split
      · exact .refl
      · exact (Relation.ReflTransGen.single (.closeShard n id)).tail (.around (around_reclaim ..))
  | shutdown => exact (n.partCourse_closeShards _).tail (.around (around_of_eq rfl rfl))

theorem ServiceCourse.partCourse (h : n.ServiceCourse m) : n.PartCourse m := by
  induction h with
  | refl => exact .refl
  | tail _ hstep ih => exact ih.trans hstep.partCourse

theorem eq_some_getD {α : Type} {o : Option α} (h : o.isSome = true) (a : α) :
    o = some (o.getD a) := by
  obtain ⟨b, rfl⟩ := Option.isSome_iff_exists.mp h
  rfl

theorem eq_ok_of_toOption {ε α : Type} {x : Except ε α} {a : α} (h : x.toOption = some a) :
    x = .ok a := by
  cases x with
  | error e => cases h
  | ok b => rw [Option.some.inj h]

/-- The next step of an activity that can make one. -/
theorem ServiceStep.next (h : (n.move? number).isSome = true) :
    n.ServiceStep ((n.move? number).getD n) :=
  .part (.act (eq_some_getD h n))

/-- The node after the next steps of several activities, if each of them can make one. -/
def moves? (n : Node) (numbers : List Nat) : Option Node := numbers.foldlM move? n

theorem exists_of_moves? {numbers : List Nat} (h : n.moves? (number :: numbers) = some m) :
    ∃ k, n.move? number = some k ∧ k.moves? numbers = some m :=
  Option.bind_eq_some_iff.mp h

theorem serviceCourse_of_moves? {numbers : List Nat} (h : n.moves? numbers = some m) :
    n.ServiceCourse m := by
  induction numbers generalizing n with
  | nil =>
      obtain rfl := Option.some.inj h
      exact .refl
  | cons number numbers ih =>
      obtain ⟨k, hk, hrest⟩ := exists_of_moves? h
      exact .head (.part (.act hk)) (ih hrest)

/-- The step of an activity is one that the list has, also when a cancelled task goes on. -/
theorem acts_wake {shard : Nat} {interval : Duration} {ticket : TaskTicket} {ticker : Ticker}
    (ticker' : Ticker) :
    n.Acts number (.tending shard interval ticket (.waiting ticker))
      (.tending shard interval ticket (.refreshing ticker' .arriving))
      (n.set number (.tending shard interval ticket (.refreshing ticker' .arriving))) :=
  .loop (.wake ticker ticker') ⟨rfl, rfl, rfl, rfl⟩

theorem activities_closeShard (n : Node) (id : ShardId) :
    (n.closeShard id).1.activities = n.activities := by
  rw [closeShard]
  split
  · rfl
  · exact activities_flush ..

/-- **The parts, by what they do.** -/
theorem ServicePart.cases (h : n.ServicePart m) :
    (∃ number a b, n.activities[number]? = some a ∧ n.Acts number a b m) ∨
      (∃ plan token, plan.refreshing.isSome = true ∧
        m = (n.begin (.opening plan token .arriving)).1) ∨
      (∃ id, m = (n.closeShard id).1) ∨ n.Around m := by
  cases h with
  | act hmove =>
      obtain ⟨a, b, ha, hacts⟩ := exists_acts_of_move? hmove
      exact Or.inl ⟨_, a, b, ha, hacts⟩
  | wake ticker' ha => exact Or.inl ⟨_, _, _, ha, acts_wake ticker'⟩
  | openShard token hplan => exact Or.inr (Or.inl ⟨_, token, hplan, rfl⟩)
  | closeShard id => exact Or.inr (Or.inr (Or.inl ⟨id, rfl⟩))
  | around haround => exact Or.inr (Or.inr (Or.inr haround))

theorem Around.stays (h : n.Around m) (ha : n.activities[number]? = some a) :
    m.activities[number]? = some a := by
  obtain ⟨requests, hrequests, -⟩ := h.activities
  rw [hrequests, List.getElem?_append_left (List.getElem?_eq_some_iff.mp ha).1]
  exact ha

theorem activities_begin (ha : n.activities[number]? = some a) :
    (n.begin b).1.activities[number]? = some a :=
  (List.getElem?_append_left (List.getElem?_eq_some_iff.mp ha).1).trans ha

/-- What has ended stays as it is. -/
theorem ServicePart.stays (h : n.ServicePart m) (ha : n.activities[number]? = some a)
    (hended : a.hasEnded = true) : m.activities[number]? = some a := by
  rcases h.cases with ⟨i, b, c, hb, hacts⟩ | ⟨plan, token, -, rfl⟩ | ⟨id, rfl⟩ | haround
  · exact hacts.stays hb ha hended
  · exact activities_begin ha
  · rw [activities_closeShard]
    exact ha
  · exact haround.stays ha

theorem PartCourse.stays (h : n.PartCourse m) (ha : n.activities[number]? = some a)
    (hended : a.hasEnded = true) : m.activities[number]? = some a := by
  induction h with
  | refl => exact ha
  | tail _ hpart ih => exact hpart.stays ih hended

/-! ### Operations that take time -/

/-- A node that is left to itself makes such steps. -/
theorem ServiceStep.of_act? (h : Timed.act? n = some m) : n.ServiceStep m := by
  rcases Option.or_eq_some_iff.mp h with hattend | ⟨-, hmove⟩
  · obtain ⟨group, -, rfl⟩ := Option.map_eq_some_iff.mp hattend
    exact .part (.around (around_of_eq rfl rfl))
  · obtain ⟨number, -, hmove⟩ := List.exists_of_findSome?_eq_some hmove
    exact .part (.act hmove)

/-- A node that is left to itself, while it is changed from outside. -/
theorem serviceCourse_run (goal : Node → Bool) (stop : Option Instant) (limit : Nat)
    (changes : List (Timed.Change Node))
    (hchanges : ∀ c ∈ changes, ∀ k : Node, k.ServiceCourse (c.apply k)) (n : Node) :
    n.ServiceCourse (Timed.run goal stop limit changes n) :=
  Timed.run_keeps (P := n.ServiceCourse) (fun _ _ h hact => h.tail (.of_act? hact))
    (fun _ _ h => h.tail (.part (.around (around_of_eq rfl rfl)))) goal stop limit
    (fun c hc k h => h.trans (hchanges c hc k)) .refl

/-- An operation that takes time, after it was asked for. -/
theorem serviceCourse_complete {α : Type} (n : Node) (a : Activity)
    (result? : Activity → Option α) (changes : List (Timed.Change Node))
    (hchanges : ∀ c ∈ changes, ∀ k : Node, k.ServiceCourse (c.apply k)) :
    (n.begin a).1.ServiceCourse (n.complete a result? changes).1 :=
  serviceCourse_run _ _ _ _ hchanges _

/-- What a timeline does to a node goes on around its shards. -/
theorem serviceCourse_changes (n : Node) (t : Token) (timeline : Timeline) :
    ∀ c ∈ n.changes t timeline, ∀ k : Node, k.ServiceCourse (c.apply k) := by
  intro c hc k
  obtain ⟨e, -, rfl⟩ := List.mem_map.mp hc
  refine .single (.part (.around ?_))
  dsimp only
  split <;> exact around_of_eq rfl rfl

/-- **Opening a shard is a course of steps**, from its first step to its last, whatever else happens
in between. -/
theorem serviceCourse_openShard (n : Node) {plan : OpeningPlan} (token : Token)
    (timeline : Timeline) (hplan : plan.refreshing.isSome = true) :
    n.ServiceCourse (n.openShard plan token (n.changes token timeline)).1 :=
  .head (.part (.openShard n token hplan))
    (n.serviceCourse_complete _ _ _ (n.serviceCourse_changes token timeline))

/-- **A shutdown is a course of steps**, up to the end of the tasks that it waits for. -/
theorem serviceCourse_shutdown (n : Node) : n.ServiceCourse n.shutdown := by
  have hgroup : ∀ (k : Node) (group : TaskGroup), k.ServiceStep (Staffed.withGroup k group) :=
    fun k group => .part (.around (around_of_eq rfl rfl))
  have hattend : ∀ (k : Node) (waiter : Nat), k.ServiceCourse (Staffed.attend k waiter) := by
    intro k waiter
    unfold Staffed.attend
    split
    · exact .single (hgroup k _)
    · exact .refl
  have harrive : ∀ k : Node, k.ServiceCourse (Staffed.arrive k).1 :=
    fun k => .head (hgroup k _) ((hattend _ _).trans (hattend _ _))
  refine .head (.shutdown n) ((harrive _).trans ?_)
  exact (serviceCourse_run _ _ _ [] (fun c hc => absurd hc List.not_mem_nil) _).tail (hgroup _ _)

end Node

end ShardKeeper
