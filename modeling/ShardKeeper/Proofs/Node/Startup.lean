import ShardKeeper.Proofs.Node.Exactness

/-!
# Shards opened at the start

An opening can fail for what it asks: there is no such shard, or somebody else
opens the same one.  This file shows that in every course of a node these two
failures have no other reason, and draws the conclusion for a node that opens
its shards one after the other: if they exist and are all different, then none
of them fails so, whatever the catalog says in the meantime.

## Main definitions

* `Node.openings` — what the openings of a node are for, in the order in which they began.
* `Node.Excuses` — what an opening may fail for.
* `Node.openInOrder` — shards opened one after the other.

## Main results

* `Node.Accounted.partCourse`, `Node.excuses_of_failed` — every failure has such a reason.
* `Node.openings_openShard` — an opening adds itself and nothing else to the openings of a node.
* `Node.not_mislisted_of_openInOrder` — no opening fails for what it asks.
-/

namespace ShardKeeper

/-- What an activity opens. -/
def Activity.plan? : Activity → Option OpeningPlan
  | .opening plan _ _ => some plan
  | _ => none

/-- Whether an error says that a shard should not have been listed: it does not exist, or it is
listed twice. -/
def ShardError.isMislisted : ShardError → Bool
  | .noSuchShard .. | .alreadyHosted _ => true
  | _ => false

namespace Roster

variable {r r' : Roster}

theorem UseCourse.hosted_eq (h : r.UseCourse r') : r'.hosted = r.hosted := by
  induction h with
  | refl => rfl
  | tail _ huse ih =>
      obtain ⟨number, f, -, rfl⟩ := huse
      exact ih

/-- A shard that was just opened is turned down only if it is hosted. -/
theorem isSome_find?_of_register? {s : HostedShard}
    (h : (r.add s).1.register? (r.add s).2 = none) : (r.find? s.id).isSome = true := by
  have hplace : (r.add s).1.shards[(r.add s).2]? = some s := by simp [add]
  unfold register? at h
  rw [hplace] at h
  dsimp only at h
  split at h
  · assumption
  · cases h

end Roster

namespace Node

variable {n₀ n m : Node} {number : Nat} {a b : Activity} {plan : OpeningPlan} {token : Token}

/-- What is opened by the activity of a number. -/
def planAt? (n : Node) (number : Nat) : Option OpeningPlan :=
  n.activities[number]?.bind Activity.plan?

/-- What the openings of a node are for, in the order in which they began. -/
def openings (n : Node) : List OpeningPlan := n.activities.filterMap Activity.plan?

/-- What an opening with a plan may fail for: that there is no such shard only if there is none, and
that the shard is hosted only if there is another opening of it. -/
def Excuses (n : Node) (number : Nat) (plan : OpeningPlan) : ShardError → Prop
  | .noSuchShard count index =>
    count = plan.count ∧ index = plan.id.index ∧ HashSlice.ofShard? count index = none
  | .alreadyHosted id =>
    id = plan.id ∧ ∃ i other, i ≠ number ∧ n.planAt? i = some other ∧ other.id = id
  | _ => True

/-- An opening opens the shard that it was asked for, and fails for a reason. -/
def OpensRightly (n : Node) (number : Nat) : Activity → Prop
  | .opening plan _ (.looking draft _ _) | .opening plan _ (.registering draft) =>
    draft.id = plan.id
  | .opening plan _ (.done (.error e)) => n.Excuses number plan e
  | _ => True

/-- Every opening is right, and whatever is hosted was opened by one. -/
structure Accounted (n : Node) : Prop where
  openings : ∀ (number : Nat) (a : Activity), n.activities[number]? = some a →
    n.OpensRightly number a
  hosted : ∀ h ∈ n.roster.hosted, ∃ (i : Nat) (a : Activity) (plan : OpeningPlan),
    n.activities[i]? = some a ∧ a.hasEnded = true ∧ a.plan? = some plan ∧ plan.id = h.1

/-! ### What is opened -/

theorem filterMap_set_of_eq {α β : Type} {f : α → Option β} {l : List α} {i : Nat} {a b : α}
    (ha : l[i]? = some a) (hb : f b = f a) : (l.set i b).filterMap f = l.filterMap f := by
  have hmap : (l.set i b).map f = l.map f := by
    rw [List.map_set, hb, set_eq_self (by rw [List.getElem?_map, ha, Option.map_some])]
  have hid : ∀ k : List α, k.filterMap f = (k.map f).filterMap id := fun k => by
    rw [List.filterMap_map, Function.id_comp]
  rw [hid, hid, hmap]

theorem plan?_of_isRequest (h : a.isRequest = true) : a.plan? = none := by
  cases a with
  | opening => cases h
  | _ => rfl

theorem opensRightly_of_plan? (h : a.plan? = none) : n.OpensRightly number a := by
  cases a with
  | opening => cases h
  | _ => trivial

namespace Acts

/-- An opening stays one with the same plan. -/
theorem plan?_eq (h : n.Acts number a b m) : b.plan? = a.plan? := by
  cases h <;> rfl

/-- **No activity begins or changes an opening of something else.** -/
theorem openings_eq (h : n.Acts number a b m) (ha : n.activities[number]? = some a) :
    m.openings = n.openings := by
  obtain ⟨late, heq, hlate⟩ := h.exists_late ha
  have hnone : late.filterMap Activity.plan? = [] := by
    refine List.filterMap_eq_nil_iff.mpr fun c hc => ?_
    obtain ⟨shard, interval, ticket, rfl⟩ := hlate c hc
    rfl
  have ha' : (n.activities ++ late)[number]? = some a := by
    rw [List.getElem?_append_left (List.getElem?_eq_some_iff.mp ha).1]
    exact ha
  rw [openings, heq, filterMap_set_of_eq ha' h.plan?_eq, List.filterMap_append, hnone,
    List.append_nil]
  rfl

/-- What is opened by an activity is still opened by it after a step of any of them. -/
theorem planAt? (h : n.Acts number a b m) (ha : n.activities[number]? = some a) {i : Nat}
    (hplan : n.planAt? i = some plan) : m.planAt? i = some plan := by
  obtain ⟨c, hc, hcplan⟩ := Option.bind_eq_some_iff.mp hplan
  rw [Node.planAt?]
  by_cases hi : i = number
  · subst hi
    obtain rfl := Option.some.inj (ha.symm.trans hc)
    rw [h.own ha]
    exact h.plan?_eq.trans hcplan
  · rw [h.other ha hi hc]
    exact hcplan

end Acts

/-! ### One step -/

theorem Excuses.mono {e : ShardError} (h : n.Excuses number plan e)
    (hplans : ∀ i plan, n.planAt? i = some plan → m.planAt? i = some plan) :
    m.Excuses number plan e := by
  unfold Excuses at h ⊢
  split
  · exact h
  · obtain ⟨hid, i, other, hi, hother, heq⟩ := h
    exact ⟨hid, i, other, hi, hplans i other hother, heq⟩
  · trivial

theorem OpensRightly.mono (h : n.OpensRightly number a)
    (hplans : ∀ i plan, n.planAt? i = some plan → m.planAt? i = some plan) :
    m.OpensRightly number a := by
  unfold OpensRightly at h ⊢
  split
  · exact h
  · exact h
  · exact h.mono hplans
  · trivial

namespace Accounted

/-- A shard that an opening finds hosted was opened by another one. -/
theorem excuses_alreadyHosted (h : n.Accounted) (ha : n.activities[number]? = some a)
    (hlive : a.hasEnded = false) (hfound : (n.roster.find? plan.id).isSome = true) :
    n.Excuses number plan (.alreadyHosted plan.id) := by
  obtain ⟨k, hk⟩ := Option.isSome_iff_exists.mp hfound
  obtain ⟨i, c, other, hc, hended, hplan, hid⟩ := h.hosted _ (Roster.mem_of_find? hk)
  refine ⟨rfl, i, other, ?_, ?_, hid⟩
  · -- that one has ended
    rintro rfl
    obtain rfl := Option.some.inj (ha.symm.trans hc)
    rw [hlive] at hended
    cases hended
  · rw [planAt?, hc]
    exact hplan

end Accounted

/-- Before an opening looks at the catalog, it fails only because its shard does not exist, or for
what is stored. -/
theorem excuses_draft {load : RecordPlace → Except StorageFault CommitPoint} {e : ShardError}
    (h : plan.draft token load = .error e) : n.Excuses number plan e := by
  unfold OpeningPlan.draft at h
  split at h
  · rename_i hslice
    cases h
    exact ⟨rfl, rfl, hslice⟩
  · split at h
    · cases h
      trivial
    · cases h

theorem id_draft {load : RecordPlace → Except StorageFault CommitPoint} {draft : HostedShard}
    {condition : CatalogCondition} (h : plan.draft token load = .ok (draft, condition)) :
    draft.id = plan.id := by
  unfold OpeningPlan.draft at h
  split at h
  · cases h
  · split at h
    · cases h
    · cases h
      rfl

theorem opensRightly_look {draft : HostedShard} (hdraft : draft.id = plan.id)
    (wait : CatalogWait) (now : Instant) (cancelled : Bool) (catalog : Option Catalog) :
    n.OpensRightly number
      (.opening plan token (OpeningPlan.look draft wait now cancelled catalog)) := by
  unfold OpeningPlan.look
  split
  · exact hdraft
  · trivial
  · trivial
  · exact hdraft

section Opening

variable {phase : OpeningPhase} (h : n.Accounted)
variable (ha : n.activities[number]? = some (.opening plan token phase))

include h ha

theorem opensRightly_beginOpening (hphase : phase = .arriving) :
    ∃ b, (n.beginOpening number plan token).activities[number]? = some b ∧
      n.OpensRightly number b := by
  subst hphase
  have hlt := (List.getElem?_eq_some_iff.mp ha).1
  unfold beginOpening
  split
  · rename_i hfound
    have hhosted := (Bool.and_eq_true_iff.mp hfound).2
    exact ⟨_, List.getElem?_set_self hlt, h.excuses_alreadyHosted ha rfl hhosted⟩
  · cases plan.refreshing.isSome <;> dsimp only <;> split
    all_goals rename_i hdraft
    · exact ⟨_, List.getElem?_set_self hlt, excuses_draft hdraft⟩
    · exact ⟨_, List.getElem?_set_self hlt, id_draft hdraft⟩
    · exact ⟨_, List.getElem?_set_self hlt, excuses_draft hdraft⟩
    · exact ⟨_, List.getElem?_set_self hlt, id_draft hdraft⟩

theorem opensRightly_takeUp {draft : HostedShard} (hphase : phase = .registering draft) :
    ∃ b, (n.takeUp number plan token draft).activities[number]? = some b ∧
      n.OpensRightly number b := by
  subst hphase
  have hlt := (List.getElem?_eq_some_iff.mp ha).1
  have hdraft : draft.id = plan.id := h.openings _ _ ha
  rw [takeUp]
  dsimp only
  split
  · exact ⟨_, List.getElem?_set_self hlt, trivial⟩
  · split
    · rename_i hregister
      have hhosted := Roster.isSome_find?_of_register? hregister
      rw [hdraft] at hhosted
      exact ⟨_, List.getElem?_set_self hlt, h.excuses_alreadyHosted ha rfl hhosted⟩
    · exact ⟨_, List.getElem?_set_self (by simp [begin]; omega), trivial⟩

/-- The next step of an opening, with the reason when it is a failure. -/
theorem opensRightly_of_moveOpening? (hmove : n.moveOpening? number plan token phase = some m) :
    ∃ b, m.activities[number]? = some b ∧ n.OpensRightly number b := by
  have hlt := (List.getElem?_eq_some_iff.mp ha).1
  cases phase with
  | arriving =>
      obtain rfl := Option.some.inj hmove
      exact opensRightly_beginOpening h ha rfl
  | looking draft wait next =>
      obtain ⟨-, heq⟩ := Option.ite_none_right_eq_some.mp hmove
      obtain rfl := Option.some.inj heq
      exact ⟨_, List.getElem?_set_self hlt, opensRightly_look (h.openings _ _ ha) ..⟩
  | registering draft =>
      obtain rfl := Option.some.inj hmove
      exact opensRightly_takeUp h ha rfl
  | done result => cases hmove

end Opening

namespace Accounted

theorem of_unused (h : n.Unused) : n.Accounted := by
  refine ⟨?_, ?_⟩
  · rw [h.activities]
    exact fun number a ha => nomatch ha
  · rw [h.roster]
    exact fun p hp => absurd hp List.not_mem_nil

theorem hosted_of_acts (h : n.Accounted) (ha : n.activities[number]? = some a)
    (hacts : n.Acts number a b m) : ∀ p ∈ m.roster.hosted,
      ∃ (i : Nat) (c : Activity) (plan : OpeningPlan), m.activities[i]? = some c ∧
        c.hasEnded = true ∧ c.plan? = some plan ∧ plan.id = p.1 := by
  have hold : ∀ p ∈ n.roster.hosted, ∃ (i : Nat) (c : Activity) (plan : OpeningPlan),
      m.activities[i]? = some c ∧ c.hasEnded = true ∧ c.plan? = some plan ∧ plan.id = p.1 := by
    intro p hp
    obtain ⟨i, c, plan, hc, hended, hplan⟩ := h.hosted p hp
    exact ⟨i, c, plan, hacts.stays ha hc hended, hended, hplan⟩
  rcases hacts.roster_cases with huse | ⟨plan, token, draft, rfl, htakes⟩
  · rw [huse.hosted_eq]
    exact hold
  · have hdraft : draft.id = plan.id := h.openings _ _ ha
    have hown := hacts.own ha
    have hended : b.hasEnded = true := by
      cases hacts with
      | opening hphase => cases hphase
      | _ => rfl
    generalize m.roster = r at htakes
    cases htakes with
    | apart => exact hold
    | turnDown => exact hold
    | host hhost =>
        obtain ⟨-, rfl⟩ := Roster.register?_add_eq_some hhost
        intro p hp
        rcases List.mem_append.mp hp with hp | hnew
        · exact hold p hp
        · rw [List.mem_singleton.mp hnew]
          exact ⟨number, b, plan, hown, hended, hacts.plan?_eq, hdraft.symm⟩

/-- A step of an activity, when the activity after it is right. -/
theorem acts (h : n.Accounted) (ha : n.activities[number]? = some a)
    (hacts : n.Acts number a b m) (hb : n.OpensRightly number b) : m.Accounted where
  openings := by
    intro i c hc
    refine OpensRightly.mono (n := n) ?_ fun j plan => hacts.planAt? ha
    by_cases hi : i = number
    · subst hi
      obtain rfl := Option.some.inj ((hacts.own ha).symm.trans hc)
      exact hb
    · obtain ⟨late, heq, hlate⟩ := hacts.exists_late ha
      rw [heq, List.getElem?_set_ne (Ne.symm hi)] at hc
      rw [List.getElem?_append] at hc
      split at hc
      · exact h.openings i c hc
      · obtain ⟨shard, interval, ticket, rfl⟩ := hlate c (List.mem_of_getElem? hc)
        trivial
  hosted := h.hosted_of_acts ha hacts

theorem act (h : n.Accounted) (hmove : n.move? number = some m) : m.Accounted := by
  obtain ⟨a, b, ha, hacts⟩ := exists_acts_of_move? hmove
  refine h.acts ha hacts ?_
  cases hplan : a.plan? with
  | none => exact opensRightly_of_plan? (hacts.plan?_eq.trans hplan)
  | some plan =>
      cases a with
      | opening plan' token phase =>
          obtain ⟨c, hc, hmove'⟩ := Option.bind_eq_some_iff.mp hmove
          obtain rfl := Option.some.inj (ha.symm.trans hc)
          obtain ⟨c, hc, hright⟩ := opensRightly_of_moveOpening? h ha hmove'
          obtain rfl := Option.some.inj ((hacts.own ha).symm.trans hc)
          exact hright
      | _ => cases hplan

/-- What is under way goes on, what begins has done nothing yet, and no other shard is hosted. -/
theorem of_append (h : n.Accounted) {late : List Activity}
    (hactivities : m.activities = n.activities ++ late)
    (hhosted : m.roster.hosted ⊆ n.roster.hosted)
    (hlate : ∀ a ∈ late, ∀ i, n.OpensRightly i a) : m.Accounted := by
  have hstays : ∀ (i : Nat) (a : Activity), n.activities[i]? = some a →
      m.activities[i]? = some a := by
    intro i a ha
    rw [hactivities, List.getElem?_append_left (List.getElem?_eq_some_iff.mp ha).1]
    exact ha
  have hplans : ∀ i plan, n.planAt? i = some plan → m.planAt? i = some plan := by
    intro i plan hplan
    obtain ⟨c, hc, hcplan⟩ := Option.bind_eq_some_iff.mp hplan
    rw [planAt?, hstays i c hc]
    exact hcplan
  refine ⟨fun i a ha => OpensRightly.mono (n := n) ?_ hplans, fun p hp => ?_⟩
  · rw [hactivities, List.getElem?_append] at ha
    split at ha
    · exact h.openings i a ha
    · exact hlate a (List.mem_of_getElem? ha) i
  · obtain ⟨i, a, plan, ha, hrest⟩ := h.hosted p (hhosted hp)
    exact ⟨i, a, plan, hstays i a ha, hrest⟩

theorem closeShard (h : n.Accounted) (id : ShardId) : (n.closeShard id).1.Accounted := by
  refine h.of_append ?_ ?_ fun a (ha : a ∈ []) i => absurd ha List.not_mem_nil
  · rw [activities_closeShard, List.append_nil]
  · rcases n.roster_closeShard id with ⟨-, heq⟩ | ⟨r, number, hremove, huse⟩
    · rw [heq]
      exact List.Subset.refl _
    · obtain ⟨-, rfl⟩ := Roster.remove_eq_some hremove
      rw [huse.hosted_eq]
      exact List.filter_subset_self _

theorem servicePart (h : n.Accounted) (hpart : n.ServicePart m) : m.Accounted := by
  cases hpart with
  | act hmove => exact h.act hmove
  | wake ticker' ha => exact h.acts ha (acts_wake ticker') trivial
  | openShard token hplan =>
      refine h.of_append rfl (List.Subset.refl _) fun a ha i => ?_
      rw [List.mem_singleton.mp ha]
      trivial
  | closeShard id => exact h.closeShard id
  | around haround =>
      obtain ⟨requests, hactivities, hrequests⟩ := haround.activities
      refine h.of_append hactivities ?_ fun a ha i => ?_
      · rw [haround.roster]
        exact List.Subset.refl _
      · exact opensRightly_of_plan? (plan?_of_isRequest (hrequests a ha))

theorem partCourse (h : n.Accounted) (hcourse : n.PartCourse m) : m.Accounted := by
  induction hcourse with
  | refl => exact h
  | tail _ hpart ih => exact ih.servicePart hpart

end Accounted

/-- **Every opening that fails has a reason.**  Take any node at which nothing has happened yet, and
any course of it in which openings, closings, deletions and shutdowns overlap in whatever way.  An
opening fails because there is no such shard only if there is none, and because the shard is hosted
only if somebody else has opened the same one. -/
theorem excuses_of_failed (h₀ : n₀.Unused) (hn : n₀.ServiceCourse n) {e : ShardError}
    (hfailed : n.activities[number]? = some (.opening plan token (.done (.error e)))) :
    n.Excuses number plan e :=
  ((Accounted.of_unused h₀).partCourse hn.partCourse).openings number _ hfailed

/-! ### One opening after the other -/

/-- A node that is left to itself begins no opening. -/
theorem openings_of_act? (h : Timed.act? n = some m) : m.openings = n.openings := by
  rcases Option.or_eq_some_iff.mp h with hattend | ⟨-, hmove⟩
  · obtain ⟨group, -, rfl⟩ := Option.map_eq_some_iff.mp hattend
    rfl
  · obtain ⟨number, -, hmove⟩ := List.exists_of_findSome?_eq_some hmove
    obtain ⟨a, b, ha, hacts⟩ := exists_acts_of_move? hmove
    exact hacts.openings_eq ha

/-- Nor does a timeline. -/
theorem openings_changes (n : Node) (t : Token) (timeline : Timeline) :
    ∀ c ∈ n.changes t timeline, ∀ k : Node, (c.apply k).openings = k.openings := by
  intro c hc k
  obtain ⟨e, -, rfl⟩ := List.mem_map.mp hc
  dsimp only
  split <;> rfl

/-- **An opening adds itself and nothing else** to the openings of a node. -/
theorem openings_openShard (n : Node) (plan : OpeningPlan) (token : Token) (timeline : Timeline) :
    (n.openShard plan token (n.changes token timeline)).1.openings = n.openings ++ [plan] := by
  have hbegin : (n.begin (.opening plan token .arriving)).1.openings = n.openings ++ [plan] :=
    List.filterMap_append
  rw [← hbegin]
  exact Timed.run_keeps
    (P := fun k : Node => k.openings = (n.begin (.opening plan token .arriving)).1.openings)
    (fun _ _ h hact => (openings_of_act? hact).trans h) (fun _ _ h => h) _ none _
    (fun c hc k h => (n.openings_changes token timeline c hc k).trans h) rfl

/-- An opening that is reported to have failed is one that has failed. -/
theorem failed_of_openShard {changes : List (Timed.Change Node)} {e : ShardError}
    (h : (n.openShard plan token changes).2 = some (.error e)) :
    ∃ plan' token', (n.openShard plan token changes).1.activities[n.activities.length]? =
      some (.opening plan' token' (.done (.error e))) := by
  obtain ⟨a, ha, hresult⟩ := Option.bind_eq_some_iff.mp h
  cases a with
  | opening plan' token' phase =>
      cases phase with
      | done result =>
          obtain rfl := Option.some.inj hresult
          exact ⟨plan', token', ha⟩
      | _ => cases hresult
  | _ => cases hresult

/-- Two activities that open different shards. -/
theorem id_ne_of_nodup (h : (n.openings.map OpeningPlan.id).Nodup) {i j : Nat} (hij : i ≠ j)
    {p q : OpeningPlan} (hp : n.planAt? i = some p) (hq : n.planAt? j = some q) : p.id ≠ q.id := by
  wlog hlt : i < j generalizing i j p q
  · exact (this hij.symm hq hp (by omega)).symm
  obtain ⟨a, ha, hap⟩ := Option.bind_eq_some_iff.mp hp
  obtain ⟨b, hb, hbq⟩ := Option.bind_eq_some_iff.mp hq
  obtain ⟨hi, rfl⟩ := List.getElem?_eq_some_iff.mp ha
  obtain ⟨hj, rfl⟩ := List.getElem?_eq_some_iff.mp hb
  rw [openings, List.map_filterMap] at h
  have hpairs := List.pairwise_iff_getElem.mp (List.pairwise_filterMap.mp h) i j hi hj hlt
  exact hpairs p.id (by simp [hap]) q.id (by simp [hbq])

/-- A failure that has a reason is not about the list of what is opened, if that lists shards that
exist, and none of them twice. -/
theorem Excuses.isMislisted_eq (hplan : n.planAt? number = some plan)
    (hnodup : (n.openings.map OpeningPlan.id).Nodup)
    (hexist : ∀ p ∈ n.openings, (HashSlice.ofShard? p.count p.id.index).isSome = true)
    {e : ShardError} (h : n.Excuses number plan e) : e.isMislisted = false := by
  unfold Excuses at h
  split at h
  · obtain ⟨rfl, rfl, hnone⟩ := h
    obtain ⟨a, ha, hap⟩ := Option.bind_eq_some_iff.mp hplan
    have hmem : plan ∈ n.openings :=
      List.mem_filterMap.mpr ⟨a, List.mem_of_getElem? ha, hap⟩
    exact absurd hnone (Option.isSome_iff_ne_none.mp (hexist plan hmem))
  · obtain ⟨rfl, i, other, hi, hother, hid⟩ := h
    exact absurd hid (id_ne_of_nodup hnodup hi hother hplan)
  · cases e <;> simp_all [ShardError.isMislisted]

/-- Opens shards one after the other, each with what happens in the meantime, and tells what becomes
of each of them: none that never comes to an end, or the result. -/
def openInOrder (n : Node) : List (OpeningPlan × Timeline) → List (Option (Except ShardError Nat))
  | [] => []
  | (plan, timeline) :: rest =>
    let (n, result) := n.openShard plan n.newToken (n.changes n.newToken timeline)
    result :: n.openInOrder rest

/-- **No opening fails for what it asks**, when shards that exist and are all different are opened
one after the other, on a node on which nothing else was ever opened. -/
theorem not_mislisted_of_openInOrder {listed : List (OpeningPlan × Timeline)} (h₀ : n₀.Unused)
    (hn : n₀.ServiceCourse n)
    (hhosted : ∀ p ∈ listed, p.1.refreshing.isSome = true)
    (hnodup : ((n.openings ++ listed.map (·.1)).map OpeningPlan.id).Nodup)
    (hexist : ∀ p ∈ n.openings ++ listed.map (·.1),
      (HashSlice.ofShard? p.count p.id.index).isSome = true)
    {e : ShardError} (h : some (.error e) ∈ n.openInOrder listed) : e.isMislisted = false := by
  induction listed generalizing n with
  | nil => cases h
  | cons head rest ih =>
      obtain ⟨plan, timeline⟩ := head
      have hplan : plan.refreshing.isSome = true := hhosted _ List.mem_cons_self
      have hcourse := hn.trans (n.serviceCourse_openShard n.newToken timeline hplan)
      have hopenings := n.openings_openShard plan n.newToken timeline
      rw [List.map_cons, List.append_cons, ← hopenings] at hnodup hexist
      rcases List.mem_cons.mp h with hresult | hlater
      · -- the opening that was just made
        obtain ⟨plan', token', hfailed⟩ := failed_of_openShard hresult.symm
        have hplan' := congrArg (Option.bind · Activity.plan?) hfailed
        refine (excuses_of_failed h₀ hcourse hfailed).isMislisted_eq hplan' ?_ fun p hp => ?_
        · rw [List.map_append] at hnodup
          exact hnodup.of_append_left
        · exact hexist p (List.mem_append_left _ hp)
      · exact ih hcourse (fun p hp => hhosted p (List.mem_cons_of_mem _ hp)) hnodup hexist hlater

end Node

end ShardKeeper
