import ShardKeeper.Proofs.Node.Service

/-!
# Opening a shard while it is opened and closed

A shard is opened in many steps.  Its opening looks whether the shard is hosted
already, waits for the engine however long that takes, and only then takes the
shard up.  In the meantime it may be opened and closed by somebody else.  An
opening that comes too late finds the shard hosted and closes what it has
opened, so that the open shards are always exactly the hosted ones.

## Main definitions

* `Roster.Exact` — the open shards are the hosted ones, each under its own name.
* `Node.HostsExactly` — the invariant.
* `Node.LeavesAlone` — a step of an opening that changes nothing for anybody else.

## Main results

* `Node.HostsExactly.serviceCourse` — the invariant holds throughout.
* `Node.leavesAlone_of_failed` — what an opening does that fails in the end.
* `Node.one_open_shard_of_each` — no shard is ever open twice, and what fails leaves nothing behind.
-/

namespace ShardKeeper

/-! ### The open shards are the hosted ones -/

namespace Roster

variable {r r' : Roster} {number i j : Nat} {id : ShardId}

/-- The open shards are the hosted ones, each under its own name and no two under one. -/
structure Exact (r : Roster) : Prop where
  sound : r.Sound
  open_iff : ∀ number s, r.shards[number]? = some s →
    (s.isClosed = false ↔ (s.id, number) ∈ r.hosted)

theorem exact_empty : Exact .empty where
  sound := sound_empty
  open_iff := by
    intro number s hs
    cases hs

namespace Exact

theorem use (h : r.Exact) (huse : r.Use r') : r'.Exact := by
  obtain ⟨k, f, hf, rfl⟩ := huse
  have hgrows : r.Grows (r.modify k f) := grows_modify fun s hs => (hf s hs).becomes
  refine ⟨h.sound.of_grows hgrows (List.Sublist.refl _), fun number t ht => ?_⟩
  obtain ⟨s, hs, rfl⟩ := getElem?_modify_eq_some_iff.mp ht
  have hsame : s.Same (if k = number then f s else s) := by
    split
    · rename_i hk
      exact hf s (hk ▸ hs)
    · exact .refl s
  rw [hsame.isClosed, hsame.id]
  exact h.open_iff number s hs

theorem useCourse (h : r.Exact) (hcourse : r.UseCourse r') : r'.Exact := by
  induction hcourse with
  | refl => exact h
  | tail _ huse ih => exact ih.use huse

/-- A shard that is taken up to be hosted is hosted, or it is closed. -/
theorem takesUp (h : r.Exact) {plan : OpeningPlan} {draft : HostedShard}
    (hplan : plan.refreshing.isSome = true) (hopen : draft.isClosed = false)
    (htakes : r.TakesUp plan draft r') : r'.Exact := by
  have hsound : r'.Sound := h.sound.course htakes.course
  -- no shard that is hosted has the number of the new one
  have hnew : ∀ id, (id, r.shards.length) ∉ r.hosted := by
    intro id hmem
    obtain ⟨s, hs, -⟩ := h.sound.place _ hmem
    exact absurd (List.getElem?_eq_some_iff.mp hs).1 (Nat.lt_irrefl _)
  refine ⟨hsound, fun number t ht => ?_⟩
  cases htakes with
  | apart hnone =>
      rw [hnone] at hplan
      cases hplan
  | turnDown =>
      obtain ⟨s, hs, rfl⟩ := getElem?_modify_eq_some_iff.mp ht
      rcases getElem?_concat_eq_some_iff.mp hs with ⟨rfl, rfl⟩ | hold
      · rw [if_pos (by rfl)]
        exact ⟨fun hno => absurd hno (by simp [HostedShard.close]), fun hmem =>
          absurd hmem (hnew _)⟩
      · have hlt := (List.getElem?_eq_some_iff.mp hold).1
        rw [if_neg (show (r.add draft).2 ≠ number from Nat.ne_of_gt hlt)]
        exact h.open_iff number s hold
  | host hhost =>
      obtain ⟨-, rfl⟩ := register?_add_eq_some hhost
      show _ ↔ (t.id, number) ∈ r.hosted ++ [(draft.id, r.shards.length)]
      rcases getElem?_concat_eq_some_iff.mp ht with ⟨rfl, rfl⟩ | hold
      · simp [hopen]
      · have hlt := (List.getElem?_eq_some_iff.mp hold).1
        rw [h.open_iff number t hold, List.mem_append, List.mem_singleton, Prod.mk.injEq]
        constructor
        · exact Or.inl
        · rintro (hmem | ⟨-, rfl⟩)
          · exact hmem
          · exact absurd hlt (Nat.lt_irrefl _)

/-- A shard that is no longer hosted is closed, and it is the only one that is closed. -/
theorem remove (h : r.Exact) (hremove : r.remove id = some (r', number)) : r'.Exact := by
  have hsound : r'.Sound := h.sound.change (.drop hremove)
  refine ⟨hsound, fun k t ht => ?_⟩
  obtain ⟨hfind, rfl⟩ := remove_eq_some hremove
  obtain ⟨s, hs, rfl⟩ := getElem?_modify_eq_some_iff.mp ht
  show _ ↔ _ ∈ r.hosted.filter fun p => p.1 != id
  by_cases hk : number = k
  · subst hk
    rw [if_pos rfl]
    constructor
    · intro hno
      cases hno
    · intro hmem
      -- the shard found under `id` has that name
      obtain ⟨hold, hne⟩ := List.mem_filter.mp hmem
      have hhosted : (id, number) ∈ r.hosted := mem_of_find? hfind
      obtain ⟨u, hu, hid⟩ := h.sound.place _ hhosted
      obtain rfl : s = u := Option.some.inj (hs.symm.trans hu)
      exact absurd hid (bne_iff_ne.mp hne)
  · rw [if_neg hk, h.open_iff k s hs, List.mem_filter]
    constructor
    · intro hmem
      refine ⟨hmem, bne_iff_ne.mpr fun hid => hk ?_⟩
      obtain rfl : s.id = id := hid
      exact Option.some.inj (hfind.symm.trans (h.sound.find?_eq_some hmem))
    · exact And.left

/-- Two open shards have different names. -/
theorem eq_of_open (h : r.Exact) {s t : HostedShard} (hs : r.shards[i]? = some s)
    (ht : r.shards[j]? = some t) (hsopen : s.isClosed = false) (htopen : t.isClosed = false)
    (hid : s.id = t.id) : i = j := by
  have hi := h.sound.find?_eq_some ((h.open_iff i s hs).mp hsopen)
  have hj := h.sound.find?_eq_some ((h.open_iff j t ht).mp htopen)
  rw [hid] at hi
  exact Option.some.inj (hi.symm.trans hj)

end Exact

end Roster

/-! ### Openings -/

def Activity.isOpening : Activity → Bool
  | .opening .. => true
  | _ => false

/-- Why an opening has failed. -/
def Activity.failure? : Activity → Option ShardError
  | .opening _ _ (.done (.error e)) => some e
  | _ => none

theorem Activity.exists_of_isOpening {a : Activity} (h : a.isOpening = true) :
    ∃ plan token phase, a = .opening plan token phase := by
  cases a with
  | opening plan token phase => exact ⟨plan, token, phase, rfl⟩
  | _ => cases h

theorem Activity.exists_of_failure? {a : Activity} {e : ShardError} (h : a.failure? = some e) :
    ∃ plan token, a = .opening plan token (.done (.error e)) := by
  unfold failure? at h
  split at h
  · cases h
    exact ⟨_, _, rfl⟩
  · cases h

/-- The draft of an opening takes operations. -/
def OpeningPhase.DraftsOpen : OpeningPhase → Prop
  | .looking draft _ _ | .registering draft => draft.isClosed = false
  | .arriving | .done _ => True

/-- An opening is of a shard that is to be hosted. -/
def Activity.HostsRightly : Activity → Prop
  | .opening plan _ phase => plan.refreshing.isSome = true ∧ phase.DraftsOpen
  | _ => True

theorem Activity.hostsRightly_of_isRequest {a : Activity} (h : a.isRequest = true) :
    a.HostsRightly := by
  cases a with
  | opening => cases h
  | _ => trivial

theorem OpeningPlan.isClosed_draft {p : OpeningPlan} {token : Token}
    {load : RecordPlace → Except StorageFault CommitPoint} {draft : HostedShard}
    {condition : CatalogCondition} (h : p.draft token load = .ok (draft, condition)) :
    draft.isClosed = false := by
  unfold OpeningPlan.draft at h
  split at h
  · cases h
  · split at h
    · cases h
    · cases h
      rfl

theorem OpeningPhase.Turns.draftsOpen {n : Node} {plan : OpeningPlan} {phase phase' : OpeningPhase}
    (h : OpeningPhase.Turns n plan phase phase') (hopen : phase.DraftsOpen) :
    phase'.DraftsOpen := by
  cases h with
  | reject => trivial
  | draft wait next hdraft => exact OpeningPlan.isClosed_draft hdraft
  | again => exact hopen
  | met => exact hopen
  | giveUp => trivial

namespace Node

variable {n₀ n m p : Node} {number : Nat} {a b : Activity}

/-! ### The invariant -/

/-- The open shards are the hosted ones, and every opening is of a shard that is to be hosted. -/
structure HostsExactly (n : Node) : Prop where
  roster : n.roster.Exact
  openings : ∀ a ∈ n.activities, a.HostsRightly

/-- A node that has opened no shard, and at which nothing is under way. -/
structure Unused (n : Node) : Prop where
  roster : n.roster = .empty
  activities : n.activities = []

theorem unused_starting (layout : Layout) (files : FileTree) (polling : PollSettings)
    (backoff : BackoffPolicy) (reclaim : ReclaimSettings) :
    (starting layout files polling backoff reclaim).Unused := ⟨rfl, rfl⟩

namespace HostsExactly

theorem of_unused (h : n.Unused) : n.HostsExactly := by
  refine ⟨?_, ?_⟩
  · rw [h.roster]
    exact Roster.exact_empty
  · rw [h.activities]
    exact fun a ha => absurd ha List.not_mem_nil

theorem acts (h : n.HostsExactly) (ha : n.activities[number]? = some a)
    (hacts : n.Acts number a b m) : m.HostsExactly where
  roster := by
    rcases hacts.roster_cases with huse | ⟨plan, token, draft, rfl, htakes⟩
    · exact h.roster.useCourse huse
    · obtain ⟨hplan, hopen⟩ := h.openings _ (List.mem_of_getElem? ha)
      exact h.roster.takesUp hplan hopen htakes
  openings := by
    have hown := h.openings a (List.mem_of_getElem? ha)
    refine hacts.forall_activities ha h.openings ?_ fun _ _ _ => trivial
    cases hacts with
    | opening hphase => exact ⟨hown.1, hphase.draftsOpen hown.2⟩
    | apart => exact ⟨hown.1, trivial⟩
    | turnDown => exact ⟨hown.1, trivial⟩
    | host => exact ⟨hown.1, trivial⟩
    | _ => trivial

theorem closeShard (h : n.HostsExactly) (id : ShardId) : (n.closeShard id).1.HostsExactly where
  roster := by
    rcases n.roster_closeShard id with ⟨-, heq⟩ | ⟨r, number, hremove, huse⟩
    · rw [heq]
      exact h.roster
    · exact (h.roster.remove hremove).useCourse huse
  openings := by
    rw [activities_closeShard]
    exact h.openings

theorem servicePart (h : n.HostsExactly) (hpart : n.ServicePart m) : m.HostsExactly := by
  rcases hpart.cases with ⟨number, a, b, ha, hacts⟩ | ⟨plan, token, hplan, rfl⟩ | ⟨id, rfl⟩ |
    ⟨hroster, requests, hactivities, hrequests⟩
  · exact h.acts ha hacts
  · refine ⟨h.roster, fun a ha => ?_⟩
    rcases List.mem_append.mp ha with hold | hnew
    · exact h.openings a hold
    · rw [List.mem_singleton.mp hnew]
      exact ⟨hplan, trivial⟩
  · exact h.closeShard id
  · refine ⟨by rw [hroster]; exact h.roster, ?_⟩
    rw [hactivities]
    intro a ha
    rcases List.mem_append.mp ha with hold | hnew
    · exact h.openings a hold
    · exact Activity.hostsRightly_of_isRequest (hrequests a hnew)

theorem partCourse (h : n.HostsExactly) (hcourse : n.PartCourse m) : m.HostsExactly := by
  induction hcourse with
  | refl => exact h
  | tail _ hpart ih => exact ih.servicePart hpart

/-- **The open shards are the hosted ones throughout.** -/
theorem serviceCourse (h : n.HostsExactly) (hcourse : n.ServiceCourse m) : m.HostsExactly :=
  h.partCourse hcourse.partCourse

end HostsExactly

/-! ### Openings that fail -/

/-- A step of an opening that changes nothing for anybody else: not what is hosted, nor any shard
that was there before, nor what is stored, nor what is under way.  Whatever it opened is closed. -/
structure LeavesAlone (n : Node) (number : Nat) (m : Node) : Prop where
  hosted : m.roster.hosted = n.roster.hosted
  shards : ∃ late, m.roster.shards = n.roster.shards ++ late ∧ ∀ s ∈ late, s.isClosed = true
  files : m.files = n.files
  memory : m.memory = n.memory
  others : ∀ i, i ≠ number → m.activities[i]? = n.activities[i]?
  own : m.activities[number]?.any Activity.isOpening = true

theorem GoesOn.leavesAlone (h : n.GoesOn number b m) (ha : n.activities[number]? = some a)
    (hb : b.isOpening = true) : n.LeavesAlone number m where
  hosted := by rw [h.roster]
  shards := ⟨[], by rw [h.roster, List.append_nil], fun s hs => absurd hs List.not_mem_nil⟩
  files := h.files
  memory := h.memory
  others := by
    intro i hi
    rw [h.activities, List.getElem?_set_ne hi.symm]
  own := by
    rw [h.activities, List.getElem?_set_self (List.getElem?_eq_some_iff.mp ha).1]
    exact hb

/-- A step of an opening that fails in the end leaves everything else alone. -/
theorem leavesAlone_of_failed {plan plan' : OpeningPlan} {token token' : Token}
    {phase : OpeningPhase} {e : ShardError}
    (ha : n.activities[number]? = some (.opening plan token phase))
    (hmove : n.move? number = some m) (hlater : m.ServiceCourse p)
    (hfailed : p.activities[number]? = some (.opening plan' token' (.done (.error e)))) :
    n.LeavesAlone number m := by
  obtain ⟨b, hacts⟩ := acts_of_move? ha hmove
  -- an opening that has succeeded does not fail later on
  have hsucceeded : ∀ {k : Nat}, b ≠ .opening plan token (.done (.ok k)) := by
    rintro k rfl
    have hdone := hlater.partCourse.stays (hacts.own ha) rfl
    rw [hfailed] at hdone
    cases hdone
  cases hacts with
  | opening hphase h => exact h.leavesAlone ha rfl
  | apart => exact absurd rfl hsucceeded
  | host => exact absurd rfl hsucceeded
  | @turnDown _ _ draft _ h =>
      have hgoes : { n with roster := m.roster }.GoesOn number
          (.opening plan token (.done (.error (.alreadyHosted plan.id)))) m :=
        ⟨rfl, h.files, h.memory, by rw [h.activities, List.append_nil]⟩
      have halone := hgoes.leavesAlone ha rfl
      refine { halone with hosted := by rw [h.roster]; rfl, shards := ⟨[draft.close], ?_, ?_⟩ }
      · rw [h.roster]
        show (n.roster.shards ++ [draft]).modify n.roster.shards.length HostedShard.close = _
        rw [List.modify_eq_take_cons_drop (by simp)]
        simp
      · intro s hs
        rw [List.mem_singleton.mp hs]
        rfl

/-- **No shard is ever open twice, and what fails leaves nothing behind.**  Take any node at which
nothing has happened yet, and any course of it in which openings, closings, deletions and shutdowns
overlap in whatever way.  At every moment

* a shard that is open is hosted under its own name, and what is hosted is open and has that name,
  so no two open shards have the same name;
* an opening that has failed has changed nothing for anybody else in any of its steps, and has left
  no open shard and no task behind.

A deletion that fails leaves the node as it is. -/
theorem one_open_shard_of_each (h₀ : n₀.Unused) (hn : n₀.ServiceCourse n) :
    (∀ k s, n.roster.shards[k]? = some s → s.isClosed = false → n.roster.find? s.id = some k) ∧
    (∀ id k, n.roster.find? id = some k →
      ∃ s, n.roster.shards[k]? = some s ∧ s.id = id ∧ s.isClosed = false) ∧
    (∀ (i j : Nat) (s t : HostedShard),
      n.roster.shards[i]? = some s → n.roster.shards[j]? = some t →
      s.isClosed = false → t.isClosed = false → s.id = t.id → i = j) ∧
    (∀ (number : Nat) e, n.activities[number]?.bind Activity.failure? = some e →
      ∀ a b : Node, a.activities[number]?.any Activity.isOpening = true →
        a.move? number = some b → b.ServiceCourse n → a.LeavesAlone number b) ∧
    ∀ id count e, (n.deleteShard id count).2 = .error e → (n.deleteShard id count).1 = n := by
  have hexact := ((HostsExactly.of_unused h₀).serviceCourse hn).roster
  refine ⟨?_, ?_, ?_, ?_, ?_⟩
  · intro k s hs hopen
    exact hexact.sound.find?_eq_some ((hexact.open_iff k s hs).mp hopen)
  · intro id k hfind
    have hmem := Roster.mem_of_find? hfind
    obtain ⟨s, hs, rfl⟩ := hexact.sound.place _ hmem
    exact ⟨s, hs, rfl, (hexact.open_iff k s hs).mpr hmem⟩
  · intro i j s t hs ht hsopen htopen hid
    exact hexact.eq_of_open hs ht hsopen htopen hid
  · intro number e hfailure a b hopening hmove hlater
    obtain ⟨f, hf, he⟩ := Option.bind_eq_some_iff.mp hfailure
    obtain ⟨plan, token, rfl⟩ := Activity.exists_of_failure? he
    obtain ⟨c, hc, hisOpening⟩ := (Option.any_eq_true ..).mp hopening
    obtain ⟨plan', token', phase, rfl⟩ := Activity.exists_of_isOpening hisOpening
    exact leavesAlone_of_failed hc hmove hlater hf
  · intro id count e he
    rw [deleteShard] at he ⊢
    split
    · rfl
    · rename_i hslice
      rw [hslice] at he
      cases he

/-- Two openings of one shard wait for the engine at the same time.  The one that is late finds the
shard hosted. -/
theorem one_open_shard_of_two_openings :
    let n₀ : Node :=
      starting ⟨⟨"runtime"⟩⟩ .empty ⟨.ofSeconds 1, .ofSeconds 60⟩
        ⟨.ofMillis 50, 2, 10, .ofSeconds 5⟩ ⟨3, .ofSeconds 1⟩
    let plan : OpeningPlan :=
      ⟨⟨"orders", 0⟩, 1, .empty 8 60000, .memory, .told, .ofSeconds 1, some (.ofSeconds 1)⟩
    let next (number : Nat) (n : Node) : Node := (n.move? number).getD n
    let opening (n : Node) : Node := (n.begin (.opening plan (.top 1) .arriving)).1
    let waiting : Node := next 1 (next 0 (opening (opening n₀)))
    let served : Node :=
      { waiting with
        clock := 1000000000
        feed := waiting.feed.publish ⟨[("orders", [(0, ⟨["0_65535"]⟩)])]⟩ }
    let a : Node := next 0 (next 1 (next 0 served))
    let n : Node := next 1 a
    n₀.Unused ∧ n₀.ServiceCourse n ∧
      (∀ (i j : Nat) (s t : HostedShard),
        n.roster.shards[i]? = some s → n.roster.shards[j]? = some t →
        s.isClosed = false → t.isClosed = false → s.id = t.id → i = j) ∧
      n.roster.find? ⟨"orders", 0⟩ = some 0 ∧
      n.activities[1]?.bind Activity.failure? = some (.alreadyHosted ⟨"orders", 0⟩) ∧
      a.LeavesAlone 1 n := by
  intro n₀ plan next opening waiting served a n
  have h₀ : n₀.Unused := unused_starting ..
  have hopening : ∀ k : Node, k.ServiceStep (opening k) :=
    fun k => .part (.openShard k (.top 1) rfl)
  have hserved : waiting.ServiceStep served := .part (.around (around_of_eq rfl rfl))
  have hwaiting : n₀.ServiceCourse waiting :=
    (((Relation.ReflTransGen.single (hopening _)).tail (hopening _)).tail
      (.next (by decide))).tail (.next (by decide))
  have ha : n₀.ServiceCourse a :=
    (((hwaiting.tail hserved).tail (.next (by decide))).tail
      (.next (by decide))).tail (.next (by decide))
  have hmove : a.move? 1 = some n := eq_some_getD (by decide) a
  have hn : n₀.ServiceCourse n := ha.tail (.part (.act hmove))
  obtain ⟨-, -, hunique, hfails, -⟩ := one_open_shard_of_each h₀ hn
  have hfailed : n.activities[1]?.bind Activity.failure? =
      some (.alreadyHosted ⟨"orders", 0⟩) := by decide
  exact ⟨h₀, hn, hunique, by decide, hfailed,
    hfails 1 _ hfailed a n (by decide) hmove .refl⟩

end Node

end ShardKeeper
