import ShardKeeper.Proofs.Node.Rest
import ShardKeeper.Proofs.Node.Ticks

/-!
# Refreshes of a shard, one after another

A refresh keeps its turn from before the first reading to after the entry.  So
what refreshes do at the same time is what they would do one after another, in the
order in which they read.  While one of them has its turn nobody adds to the
history, so no entry comes too late for it.

## Main definitions

* `Node.Turn` — whose turn it is, and how far that refresh has come.
* `Node.InTurn` — a course of refreshes that came to whole ticks and an unfinished one.
* `Node.TicksAccount` — refreshes on demand that the ticks account for.

## Main results

* `Node.InTurn.refresh` — a step of a refresh goes on in its turn, or ends that.
* `Node.InTurn.step`, `Node.InTurn.course` — what a step keeps, and a course.
* `Node.refreshes_in_turn` — refreshes at the same time are refreshes one after another.
-/

namespace ShardKeeper

namespace Node

variable {n m p : Node} {number k i : Nat} {a b : Activity} {s s' : HostedShard}
  {l : CommitLedger} {ticks : List Tick} {rest log log' : List (Nat × TickEvent)}
  {phase phase' : RefreshPhase}

/-! ### Whose turn it is -/

/-- Whose turn it is to refresh the shard `k`, and what that refresh has done so far.  The clock
that it has read is no earlier than the newest sample, and no later than the present. -/
inductive Turn (n : Node) (k : Nat) (s : HostedShard) : List (Nat × TickEvent) → Prop where
  | nobody (hidle : s.isRefreshing = false) (hnone : ∀ i, n.turn? k i = none) : Turn n k s []
  | somebody {i : Nat} {phase : RefreshPhase} (hbusy : s.isRefreshing = true)
      (hphase : n.turn? k i = some phase) (hothers : ∀ j, j ≠ i → n.turn? k j = none)
      (hclock : ∀ clock ∈ phase.clock?,
        (∀ r ∈ s.ledger.history.newest?, r.timestamp ≤ clock) ∧ clock ≤ n.wall) :
      Turn n k s (phase.soFar.map (i, ·))

/-- A course of refreshes that came to whole ticks and an unfinished one: the ledger is the one
after these ticks, one after another. -/
structure InTurn (n : Node) (k : Nat) (l : CommitLedger) (ticks : List Tick)
    (rest : List (Nat × TickEvent)) (s : HostedShard) : Prop where
  shard : n.roster.shards[k]? = some s
  ledger : s.ledger.Agrees (l.afterTicks ticks)
  newest : ∀ r ∈ s.ledger.history.newest?, r.timestamp ≤ n.wall
  turn : n.Turn k s rest

theorem Turn.kept (h : n.Turn k s rest) (hs : s.Unrefreshed s')
    (hturn : ∀ i, m.turn? k i = n.turn? k i) (hwall : n.wall ≤ m.wall) : m.Turn k s' rest := by
  cases h with
  | nobody hidle hnone =>
      exact .nobody (hs.isRefreshing.trans hidle) fun i => (hturn i).trans (hnone i)
  | somebody hbusy hphase hothers hclock =>
      refine .somebody (hs.isRefreshing.trans hbusy) ((hturn _).trans hphase)
        (fun j hj => (hturn j).trans (hothers j hj)) fun clock hc => ?_
      rw [hs.ledger.history]
      exact ⟨(hclock clock hc).1, Int.le_trans (hclock clock hc).2 hwall⟩

/-- Whatever leaves the turns and the shard leaves the course of refreshes. -/
theorem InTurn.kept (h : n.InTurn k l ticks rest s) (hs' : m.roster.shards[k]? = some s')
    (hs : s.Unrefreshed s') (hturn : ∀ i, m.turn? k i = n.turn? k i) (hwall : n.wall ≤ m.wall) :
    m.InTurn k l ticks rest s' where
  shard := hs'
  ledger := hs.ledger.trans h.ledger
  newest r hr := by
    rw [hs.ledger.history] at hr
    exact Int.le_trans (h.newest r hr) hwall
  turn := h.turn.kept hs hturn hwall

/-- It is the turn of a refresh, and of no other one. -/
theorem Turn.of_hasTurn (h : n.Turn k s rest) (ha : n.activities[number]? = some a)
    (hphase : a.refresh? k = some phase) (hturn : phase.hasTurn = true) :
    s.isRefreshing = true ∧ rest = phase.soFar.map (number, ·) ∧
      (∀ j, j ≠ number → n.turn? k j = none) ∧
      ∀ clock ∈ phase.clock?,
        (∀ r ∈ s.ledger.history.newest?, r.timestamp ≤ clock) ∧ clock ≤ n.wall := by
  have hnumber : n.turn? k number = some phase := by
    rw [turn?_of_getElem? ha, Activity.turn?_of_refresh? hphase, if_pos hturn]
  cases h with
  | nobody _ hnone =>
      rw [hnone] at hnumber
      cases hnumber
  | @somebody i phase' hbusy hphase' hothers hclock =>
      obtain rfl : number = i := by
        by_contra hne
        rw [hothers number hne] at hnumber
        cases hnumber
      obtain rfl := Option.some.inj (hphase'.symm.trans hnumber)
      exact ⟨hbusy, rfl, hothers, hclock⟩

/-! ### The steps of a refresh -/

theorem afterTicks_concat (l : CommitLedger) (ticks : List Tick) (t : Tick) :
    l.afterTicks (ticks ++ [t]) =
      match t.marker with
      | .error _ => l.afterTicks ticks
      | .ok marker => ((l.afterTicks ticks).refresh t.clock t.checkpoint marker).1 := by
  rw [CommitLedger.afterTicks, List.filterMap_append]
  cases hmarker : t.marker with
  | error fault =>
      have hnone : [t].filterMap Tick.entry? = [] := by
        simp [Tick.entry?, hmarker, Except.toOption]
      rw [hnone, List.append_nil]
      rfl
  | ok marker =>
      have hone : [t].filterMap Tick.entry? = [⟨t.clock, t.checkpoint, marker⟩] := by
        simp [Tick.entry?, hmarker, Except.toOption]
      rw [hone, CommitLedger.refreshAll_concat]
      rfl

/-- The node after a step of a refresh of the shard `k`. -/
def stepped (n : Node) (k number : Nat) (a : Activity) (s : HostedShard) (phase : RefreshPhase) :
    Node :=
  (n.setShard k s).set number (a.refreshed phase)

theorem shards_stepped (hs : n.roster.shards[k]? = some s) :
    (n.stepped k number a s' phase').roster.shards[k]? = some s' := by
  show (n.setShard k s').roster.shards[k]? = some s'
  rw [shards_setShard, if_pos rfl, hs, Option.map_some]

theorem turn?_stepped (ha : n.activities[number]? = some a) (hphase : a.refresh? k = some phase) :
    (n.stepped k number a s' phase').turn? k number =
      if phase'.hasTurn then some phase' else none := by
  rw [stepped, turn?_of_getElem? (activities_set (n.setShard k s') ha),
    Activity.turn?_refreshed hphase]

theorem turn?_stepped_other (hi : i ≠ number) :
    (n.stepped k number a s' phase').turn? k i = n.turn? k i := by
  show ((n.activities.set number _)[i]?).bind _ = _
  rw [List.getElem?_set_ne (Ne.symm hi)]
  rfl

/-- A refresh whose turn it is not before and after a step takes nobody else's. -/
theorem turn?_stepped_of_not_hasTurn (ha : n.activities[number]? = some a)
    (hphase : a.refresh? k = some phase) (hbefore : phase.hasTurn = false)
    (hafter : phase'.hasTurn = false) (i : Nat) :
    (n.stepped k number a s' phase').turn? k i = n.turn? k i := by
  by_cases hi : i = number
  · subst hi
    rw [turn?_stepped ha hphase, hafter, turn?_of_getElem? ha, Activity.turn?_of_refresh? hphase,
      hbefore]
    rfl
  · exact turn?_stepped_other hi

/-- A refresh that goes on in its turn. -/
theorem InTurn.goesOn (h : n.InTurn k l ticks rest s) (ha : n.activities[number]? = some a)
    (hphase : a.refresh? k = some phase) (hothers : ∀ j, j ≠ number → n.turn? k j = none)
    (hbusy : s'.isRefreshing = true) (hledger : s'.ledger = s.ledger)
    (hturn : phase'.hasTurn = true)
    (hclock : ∀ clock ∈ phase'.clock?,
      (∀ r ∈ s.ledger.history.newest?, r.timestamp ≤ clock) ∧ clock ≤ n.wall) :
    (n.stepped k number a s' phase').InTurn k l ticks (phase'.soFar.map (number, ·)) s' where
  shard := shards_stepped h.shard
  ledger := hledger ▸ h.ledger
  newest := hledger ▸ h.newest
  turn := by
    refine .somebody hbusy ?_ (fun j hj => (turn?_stepped_other hj).trans (hothers j hj)) ?_
    · rw [turn?_stepped ha hphase, if_pos hturn]
    · rw [hledger]
      exact hclock

/-- **The turn of a refresh ends**, and it has entered what it has read. -/
theorem InTurn.finish {checkpoint clock : Int}
    {marker : Except StorageFault (Option VersionMarker)} (h : n.InTurn k l ticks rest s)
    (ha : n.activities[number]? = some a)
    (hphase : a.refresh? k = some (.entering checkpoint clock marker))
    (hnext : RefreshPhase.next? (.entering checkpoint clock marker) s (n.reading s) =
      some (s', phase')) :
    ∃ t : Tick, t.number = number ∧
      (n.stepped k number a s' phase').InTurn k l (ticks ++ [t]) [] s' ∧
      rest ++ told number (.entering checkpoint clock marker) s (n.reading s) = t.events ∧
      phase' = .done (t.answer (l.afterTicks ticks)) := by
  obtain ⟨-, hrest, hothers, hclock⟩ := h.turn.of_hasTurn ha hphase rfl
  obtain ⟨hnewest, hwall⟩ := hclock clock rfl
  have hnobody : ∀ result, s'.isRefreshing = false → phase' = .done result →
      (n.stepped k number a s' phase').Turn k s' [] := by
    rintro result hidle rfl
    refine .nobody hidle fun i => ?_
    by_cases hi : i = number
    · rw [hi, turn?_stepped ha hphase]
      rfl
    · exact (turn?_stepped_other hi).trans (hothers i hi)
  refine ⟨⟨number, checkpoint, clock, marker⟩, rfl, ?_⟩
  cases marker with
  | error fault =>
      obtain ⟨rfl, rfl⟩ := Prod.mk.inj (Option.some.inj hnext)
      refine ⟨⟨shards_stepped h.shard, ?_, h.newest, hnobody _ rfl rfl⟩, ?_, rfl⟩
      · rw [afterTicks_concat]
        exact h.ledger
      · rw [hrest]
        rfl
  | ok marker =>
      obtain ⟨rfl, rfl⟩ := Prod.mk.inj (Option.some.inj hnext)
      obtain ⟨hledger, hanswer⟩ := h.ledger.refresh clock checkpoint marker
      refine ⟨⟨shards_stepped h.shard, ?_, fun r hr => ?_, hnobody _ rfl rfl⟩, ?_, ?_⟩
      · rw [afterTicks_concat]
        exact hledger
      · exact Int.le_trans (CommitLedger.newest_refresh_le hnewest r hr) hwall
      · -- nobody has entered anything since the clock was read
        have haccepted : (s.ledger.sample clock checkpoint).2 = true :=
          CommitLedger.sample_of_newest_le hnewest
        rw [hrest]
        simp only [told, RefreshPhase.event?, haccepted]
        rfl
      · exact congrArg (fun changed => RefreshPhase.done (.ok changed)) hanswer

/-- **A step of a refresh**: it goes on, or its turn ends. -/
theorem InTurn.refresh (h : n.InTurn k l ticks rest s) (ha : n.activities[number]? = some a)
    (hphase : a.refresh? k = some phase)
    (hnext : phase.next? s (n.reading s) = some (s', phase')) :
    ((n.stepped k number a s' phase').InTurn k l ticks
        (rest ++ told number phase s (n.reading s)) s' ∧
      ∀ result, phase' = .done result → result = .ok false) ∨
    ∃ t : Tick, t.number = number ∧
      (n.stepped k number a s' phase').InTurn k l (ticks ++ [t]) [] s' ∧
      rest ++ told number phase s (n.reading s) = t.events ∧
      phase' = .done (t.answer (l.afterTicks ticks)) := by
  cases phase with
  | arriving =>
      obtain ⟨rfl, rfl⟩ := Prod.mk.inj (Option.some.inj hnext)
      refine .inl ⟨?_, fun result hdone => ?_⟩
      · rw [told, RefreshPhase.event?, Option.map_none, Option.toList_none, List.append_nil]
        refine h.kept (shards_stepped h.shard) (.refl s)
          (turn?_stepped_of_not_hasTurn ha hphase rfl ?_) (Int.le_refl _)
        split <;> rfl
      · split at hdone
        · exact (RefreshPhase.done.inj hdone).symm
        · cases hdone
  | queued =>
      obtain ⟨hidle, heq⟩ := Option.ite_none_left_eq_some.mp hnext
      obtain ⟨rfl, rfl⟩ := Prod.mk.inj (Option.some.inj heq)
      cases h.turn with
      | somebody hbusy => exact absurd hbusy hidle
      | nobody _ hnone =>
          exact .inl ⟨h.goesOn ha hphase (fun j _ => hnone j) rfl rfl rfl (fun _ hc => by cases hc),
            fun result hdone => by cases hdone⟩
  | sampling =>
      obtain ⟨hbusy, rfl, hothers, -⟩ := h.turn.of_hasTurn ha hphase rfl
      obtain ⟨rfl, rfl⟩ := Prod.mk.inj (Option.some.inj hnext)
      exact .inl ⟨h.goesOn ha hphase hothers hbusy rfl rfl (fun _ hc => by cases hc),
        fun result hdone => by cases hdone⟩
  | timing checkpoint =>
      obtain ⟨hbusy, rfl, hothers, -⟩ := h.turn.of_hasTurn ha hphase rfl
      obtain ⟨rfl, rfl⟩ := Prod.mk.inj (Option.some.inj hnext)
      refine .inl ⟨h.goesOn ha hphase hothers hbusy rfl rfl fun clock hc => ?_,
        fun result hdone => by cases hdone⟩
      obtain rfl : n.wall = clock := Option.some.inj hc
      exact ⟨h.newest, Int.le_refl _⟩
  | marking checkpoint clock =>
      obtain ⟨hbusy, rfl, hothers, hclock⟩ := h.turn.of_hasTurn ha hphase rfl
      obtain ⟨rfl, rfl⟩ := Prod.mk.inj (Option.some.inj hnext)
      exact .inl ⟨h.goesOn ha hphase hothers hbusy rfl rfl hclock,
        fun result hdone => by cases hdone⟩
  | entering checkpoint clock marker => exact .inr (h.finish ha hphase hnext)
  | done => cases hnext

/-! ### Refreshes on demand -/

/-- The ticks account for the refreshes of the shard `k` on demand that have one of some numbers. -/
structure TicksAccount (n : Node) (counted : Nat → Prop) (k : Nat) (l : CommitLedger)
    (ticks : List Tick) : Prop where
  numbers : ∀ t ∈ ticks, t.number < n.activities.length
  calls : ∀ i phase, counted i → n.activities[i]? = some (.refreshing k phase) →
    Tick.Accounts l ticks i phase

variable {counted : Nat → Prop}

theorem TicksAccount.grow (h : n.TicksAccount counted k l ticks)
    (hlength : n.activities.length ≤ m.activities.length)
    (hcalls : ∀ i phase, m.activities[i]? = some (.refreshing k phase) →
      n.activities[i]? = some (.refreshing k phase) ∨
        (n.activities.length ≤ i ∧ phase = .arriving)) : m.TicksAccount counted k l ticks where
  numbers t ht := Nat.lt_of_lt_of_le (h.numbers t ht) hlength
  calls i phase hi hm := by
    rcases hcalls i phase hm with hn | ⟨hlate, rfl⟩
    · exact h.calls i phase hi hn
    · exact fun t ht => Nat.ne_of_lt (Nat.lt_of_lt_of_le (h.numbers t ht) hlate)

theorem TicksAccount.append (h : n.TicksAccount counted k l ticks) {late : List Activity}
    (heq : m.activities = n.activities ++ late)
    (hlate : ∀ phase, .refreshing k phase ∈ late → phase = .arriving) :
    m.TicksAccount counted k l ticks := by
  refine h.grow (by rw [heq, List.length_append]; exact Nat.le_add_right ..) fun i phase hm => ?_
  rw [heq] at hm
  rcases Nat.lt_or_ge i n.activities.length with hlt | hge
  · rw [List.getElem?_append_left hlt] at hm
    exact .inl hm
  · rw [List.getElem?_append_right hge] at hm
    exact .inr ⟨hge, hlate phase (List.mem_of_getElem? hm)⟩

/-- An activity that changes is not a refresh on demand. -/
theorem TicksAccount.set (h : n.TicksAccount counted k l ticks)
    (hb : ∀ phase, b ≠ .refreshing k phase) (heq : m.activities = n.activities.set number b) :
    m.TicksAccount counted k l ticks := by
  refine h.grow (by rw [heq, List.length_set]) fun i phase hm => ?_
  rw [heq, List.getElem?_set] at hm
  split at hm
  · obtain ⟨-, heq⟩ := Option.ite_none_right_eq_some.mp hm
    exact absurd (Option.some.inj heq) (hb phase)
  · exact .inl hm

theorem Acts.exists_refreshing (h : n.Acts number a (.refreshing k phase') m) :
    ∃ phase, a = .refreshing k phase := by
  cases h with
  | refresh => exact ⟨_, rfl⟩

theorem TicksAccount.acts (h : n.TicksAccount counted k l ticks)
    (ha : n.activities[number]? = some a) (hacts : n.Acts number a b m)
    (hphase : a.refresh? k = none) :
    m.TicksAccount counted k l ticks := by
  obtain ⟨late, heq, hlate⟩ := hacts.exists_late ha
  have happended :
      TicksAccount { n with activities := n.activities ++ late } counted k l ticks := by
    refine h.append rfl fun phase hmem => ?_
    obtain ⟨shard, interval, ticket, hnew⟩ := hlate _ hmem
    cases hnew
  have hb : ∀ phase, b ≠ .refreshing k phase := by
    rintro phase rfl
    obtain ⟨before, rfl⟩ := hacts.exists_refreshing
    rw [Activity.refresh?, if_pos rfl] at hphase
    cases hphase
  exact happended.set hb heq

theorem TicksAccount.outside (h : n.TicksAccount counted k l ticks) (houtside : n.Outside m) :
    m.TicksAccount counted k l ticks := by
  rcases houtside.activities with ⟨_, _, _, _, _, _, -, heq⟩ | ⟨late, heq, hlate⟩
  · exact h.set (fun phase hb => by cases hb) heq
  · refine h.append heq fun phase hmem => ?_
    rcases hlate _ hmem with hrequest | ⟨plan, token, hopening⟩
    · cases phase with
      | arriving => rfl
      | _ => cases hrequest
    · cases hopening

theorem TicksAccount.stepped (h : n.TicksAccount counted k l ticks)
    (ha : n.activities[number]? = some a) {late : List Tick} (hlate : ∀ t ∈ late, t.number = number)
    (hown : ∀ before, a = .refreshing k before → counted number →
      Tick.Accounts l (ticks ++ late) number phase') (hone : late.length ≤ 1) :
    (n.stepped k number a s' phase').TicksAccount counted k l (ticks ++ late) := by
  have hlt := (List.getElem?_eq_some_iff.mp ha).1
  have hlength : (n.stepped k number a s' phase').activities.length = n.activities.length :=
    List.length_set
  refine ⟨fun t ht => ?_, fun i phase hi hm => ?_⟩
  · rw [hlength]
    rcases List.mem_append.mp ht with hold | hnew
    · exact h.numbers t hold
    · exact hlate t hnew ▸ hlt
  · by_cases hnumber : i = number
    · subst hnumber
      rw [Node.stepped, activities_set (n.setShard k s') ha] at hm
      cases a with
      | refreshing shard before =>
          obtain ⟨rfl, rfl⟩ := Activity.refreshing.inj (Option.some.inj hm)
          exact hown before rfl hi
      | tending _ _ _ loop => cases loop <;> cases hm
      | _ => cases hm
    · have hn : n.activities[i]? = some (.refreshing k phase) := by
        rw [← hm]
        exact (List.getElem?_set_ne (Ne.symm hnumber)).symm
      have hold := h.calls i phase hi hn
      match late, hone with
      | [], _ => rwa [List.append_nil]
      | [t], _ =>
          have ht : t.number = number := hlate t (List.mem_singleton_self t)
          exact hold.concat fun hti => hnumber (hti.symm.trans ht)

/-! ### Courses of refreshes -/

/-- **What a step keeps**, in a course of refreshes. -/
theorem InTurn.step (h : n.InTurn k l ticks rest s) (haccounted : n.TicksAccount counted k l ticks)
    (hstep : n.TickStep k log m) (hwall : n.wall ≤ m.wall) :
    ∃ ticks' rest' s', m.InTurn k l ticks' rest' s' ∧ m.TicksAccount counted k l ticks' ∧
      ticks'.flatMap Tick.events ++ rest' = ticks.flatMap Tick.events ++ rest ++ log := by
  cases hstep with
  | outside houtside =>
      obtain ⟨s', hs', hunrefreshed⟩ := houtside.unrefreshed h.shard
      exact ⟨ticks, rest, s', h.kept hs' hunrefreshed (houtside.turn? k) hwall,
        haccounted.outside houtside, (List.append_nil _).symm⟩
  | @act number m hmove =>
      obtain ⟨a, b, ha, hacts⟩ := exists_acts_of_move? hmove
      cases hphase : a.refresh? k with
      | none =>
          obtain ⟨s', hs', heffect⟩ := hacts.effect h.shard
          refine ⟨ticks, rest, s', h.kept hs' (heffect.unrefreshed hphase) (fun i => ?_) hwall,
            haccounted.acts ha hacts hphase, ?_⟩
          · by_cases hi : i = number
            · rw [hi, turn?_of_getElem? (hacts.own ha), hacts.turn?_own hphase,
                turn?_of_getElem? ha, Activity.turn?_of_none hphase]
            · exact hacts.turn?_other ha hi
          · rw [tickOf_of_none ha hphase, List.append_nil]
      | some phase =>
          obtain ⟨t, s', phase', ht, hnext, rfl⟩ := exists_of_refresh? ha hphase hmove
          obtain rfl : s = t := Option.some.inj (h.shard.symm.trans ht)
          have hbefore : ∀ before, a = .refreshing k before → counted number →
              ∀ t ∈ ticks, t.number ≠ number := by
            rintro before rfl hcounted
            rw [Activity.refresh?, if_pos rfl] at hphase
            obtain rfl := Option.some.inj hphase
            exact (haccounted.calls number before hcounted ha).of_next? hnext
          rw [tickOf_of_refresh? ha hphase h.shard]
          rcases h.refresh ha hphase hnext with ⟨hturn, hdone⟩ | ⟨t, rfl, hturn, hevents, rfl⟩
          · refine ⟨ticks, _, s', hturn, ?_, (List.append_assoc ..).symm⟩
            rw [← List.append_nil ticks]
            refine haccounted.stepped ha (fun t ht => absurd ht List.not_mem_nil)
              (fun before hbefore' hcounted => .of_none ?_ hdone) (Nat.zero_le 1)
            rw [List.append_nil]
            exact hbefore before hbefore' hcounted
          · refine ⟨ticks ++ [t], [], s', hturn, haccounted.stepped ha
              (fun u hu => by rw [List.mem_singleton.mp hu])
              (fun before hbefore' hcounted => .of_last (hbefore before hbefore' hcounted) rfl)
              (Nat.le_refl 1), ?_⟩
            rw [List.append_nil, List.flatMap_append, List.flatMap_singleton, ← hevents,
              List.append_assoc]

/-- **What a course keeps.** -/
theorem InTurn.course (h : n.InTurn k l ticks rest s)
    (haccounted : n.TicksAccount counted k l ticks) (hcourse : n.TickCourse k log m) :
    ∃ ticks' rest' s', m.InTurn k l ticks' rest' s' ∧ m.TicksAccount counted k l ticks' ∧
      ticks'.flatMap Tick.events ++ rest' = ticks.flatMap Tick.events ++ rest ++ log := by
  induction hcourse with
  | refl => exact ⟨ticks, rest, s, h, haccounted, (List.append_nil _).symm⟩
  | tail _ hstep hclock ih =>
      obtain ⟨_, _, _, hturn, hcalls, heq⟩ := ih
      obtain ⟨ticks', rest', s', hturn', hcalls', heq'⟩ := hturn.step hcalls hstep hclock
      exact ⟨ticks', rest', s', hturn', hcalls', by rw [heq', heq, List.append_assoc]⟩

/-- What a refresh has done in its turn is the beginning of a tick. -/
theorem Turn.prefix_events (h : n.Turn k s rest) :
    ∃ t : Tick, rest <+: t.events ∧ rest ≠ t.events := by
  cases h with
  | nobody => exact ⟨⟨0, 0, 0, .ok none⟩, List.nil_prefix, by simp [Tick.events]⟩
  | @somebody i phase _ hphase =>
      have hturn : phase.hasTurn = true := by
        obtain ⟨a, -, ha⟩ := Option.bind_eq_some_iff.mp hphase
        exact (Option.filter_eq_some_iff.mp ha).2
      cases phase with
      | sampling => exact ⟨⟨i, 0, 0, .ok none⟩, ⟨_, rfl⟩, by simp [Tick.events, RefreshPhase.soFar]⟩
      | timing checkpoint =>
          exact ⟨⟨i, checkpoint, 0, .ok none⟩, ⟨_, rfl⟩, by simp [Tick.events, RefreshPhase.soFar]⟩
      | marking checkpoint clock =>
          exact ⟨⟨i, checkpoint, clock, .ok none⟩, ⟨_, rfl⟩,
            by simp [Tick.events, RefreshPhase.soFar]⟩
      | entering checkpoint clock marker =>
          exact ⟨⟨i, checkpoint, clock, marker⟩, ⟨_, rfl⟩,
            by simp [Tick.events, RefreshPhase.soFar]⟩
      | _ => cases hturn

/-- **Refreshes at the same time are refreshes one after another.**  From a moment on at which
nobody is in the middle of refreshing a shard, and no sample is newer than the clock, all that
refreshes of it do, in whatever order everybody acts, are whole ticks, each of which comes after the
one before, and perhaps the beginning of another one.  In every tick the sample is taken in if the
marker could be read.  The history and the commit point are those after the same ticks, one after
another; and each refresh on demand was refused without a tick, or answers what its one tick answers
there. -/
theorem refreshes_in_turn (hs : n.roster.shards[k]? = some s) (hidle : s.isRefreshing = false)
    (hnobody : ∀ a ∈ n.activities, a.turn? k = none)
    (hnewest : ∀ r ∈ s.ledger.history.newest?, r.timestamp ≤ n.wall) (h : n.TickCourse k log m) :
    ∃ (ticks : List Tick) (rest : List (Nat × TickEvent)) (s' : HostedShard),
      log = ticks.flatMap Tick.events ++ rest ∧
      (∃ t : Tick, rest <+: t.events ∧ rest ≠ t.events) ∧
      m.roster.shards[k]? = some s' ∧
      s'.ledger.history = (s.ledger.afterTicks ticks).history ∧
      s'.ledger.point = (s.ledger.afterTicks ticks).point ∧
      ∀ i phase, (∀ result, n.activities[i]? ≠ some (.refreshing k (.done result))) →
        m.activities[i]? = some (.refreshing k phase) → Tick.Accounts s.ledger ticks i phase := by
  have hturn : n.InTurn k s.ledger [] [] s := by
    refine ⟨hs, .refl _, hnewest, .nobody hidle fun i => ?_⟩
    cases ha : n.activities[i]? with
    | none => rw [turn?, ha, Option.bind_none]
    | some a => rw [turn?_of_getElem? ha, hnobody a (List.mem_of_getElem? ha)]
  have haccounted :
      n.TicksAccount (fun i => ∀ result, n.activities[i]? ≠ some (.refreshing k (.done result))) k
        s.ledger [] := by
    refine ⟨fun t ht => absurd ht List.not_mem_nil, fun i phase hi ha => .of_none
      (fun t ht => absurd ht List.not_mem_nil) ?_⟩
    rintro result rfl
    exact absurd ha (hi result)
  obtain ⟨ticks, rest, s', hturn', haccounted', heq⟩ := hturn.course haccounted h
  exact ⟨ticks, rest, s', heq.symm, hturn'.turn.prefix_events, hturn'.shard, hturn'.ledger.history,
    hturn'.ledger.point, haccounted'.calls⟩

/-- What the clock shows before and after each of the next steps of several activities. -/
def clocks (n : Node) : List Nat → List Int
  | [] => [n.wall]
  | number :: rest => n.wall :: ((n.move? number).getD n).clocks rest

/-- What the next steps of several activities tell of the refreshes of the shard `k`. -/
def ticksBy (n : Node) (k : Nat) : List Nat → List (Nat × TickEvent)
  | [] => []
  | number :: rest => n.tickOf k number ++ ((n.move? number).getD n).ticksBy k rest

theorem TickCourse.trans (h : n.TickCourse k log m) (h' : m.TickCourse k log' p) :
    n.TickCourse k (log ++ log') p := by
  induction h' with
  | refl => rwa [List.append_nil]
  | tail _ hstep hclock ih =>
      rw [← List.append_assoc]
      exact ih.tail hstep hclock

theorem tickCourse_of_moves? (k : Nat) {numbers : List Nat} (h : n.moves? numbers = some m)
    (hclocks : (n.clocks numbers).Pairwise (· ≤ ·)) : n.TickCourse k (n.ticksBy k numbers) m := by
  induction numbers generalizing n with
  | nil =>
      obtain rfl := Option.some.inj h
      exact .refl
  | cons number numbers ih =>
      obtain ⟨p, hmove, hrest⟩ := Option.bind_eq_some_iff.mp h
      rw [clocks, hmove, Option.getD_some, List.pairwise_cons] at hclocks
      have hle : n.wall ≤ p.wall := hclocks.1 _ (by cases numbers <;> exact List.mem_cons_self)
      rw [ticksBy, hmove, Option.getD_some]
      have hstep : n.TickCourse k (n.tickOf k number) p := TickCourse.refl.tail (.act hmove) hle
      exact hstep.trans (ih hrest hclocks.2)

end Node

/-- What a refresh of the shard `k` on demand has answered, if it has. -/
def Activity.answer? (k : Nat) : Activity → Option (Except StorageFault Bool)
  | .refreshing shard (.done result) => if shard = k then some result else none
  | _ => none

theorem Activity.eq_of_answer? {a : Activity} {k : Nat} {result : Except StorageFault Bool}
    (h : a.answer? k = some result) : a = .refreshing k (.done result) := by
  unfold answer? at h
  split at h
  · obtain ⟨rfl, heq⟩ := Option.ite_none_right_eq_some.mp h
    rw [Option.some.inj heq]
  · cases h

namespace Node.Reopening

/-- Two refreshes of the first shard are asked for, and then the engine leaves a newer marker. -/
def asking (n : Node) : Node :=
  served ((n.begin (.refreshing 0 .arriving)).1.begin (.refreshing 0 .arriving)).1 2 9 "2"
    "\x7b\"timestamp\":3000000\x7d"

theorem outside_asking (n : Node) : n.Outside (asking n) := by
  refine .around ⟨rfl, [.refreshing 0 .arriving, .refreshing 0 .arriving], ?_, fun a ha => ?_⟩
  · exact List.append_assoc n.activities [_] [_]
  · simp only [List.mem_cons, List.not_mem_nil, or_false, or_self] at ha
    rw [ha]
    rfl

/-- The second one has gone first, between the steps of the first one. -/
def crossed : Node := ((asking stored).moves? [3, 2, 3, 3, 3, 3, 3, 2, 2, 2, 2, 2]).getD unused

end Node.Reopening

namespace Node

open Reopening

/-- Two refreshes that were asked for at the same time.  The second one goes first and finds the
newer marker, and the first one finds nothing new after that. -/
theorem refreshes_in_turn_of_two :
    ∃ s log ticks rest s', stored.roster.shards[0]? = some s ∧ s.isRefreshing = false ∧
      (∀ a ∈ stored.activities, a.turn? 0 = none) ∧
      (∀ r ∈ s.ledger.history.newest?, r.timestamp ≤ stored.wall) ∧
      stored.TickCourse 0 log crossed ∧ log = ticks.flatMap Tick.events ++ rest ∧
      crossed.roster.shards[0]? = some s' ∧
      s'.ledger.history = (s.ledger.afterTicks ticks).history ∧
      s'.ledger.point = (s.ledger.afterTicks ticks).point ∧ s'.ledger.point = ⟨3000, 2, 9⟩ ∧
      s'.ledger.history.samples = [⟨1000, 5⟩, ⟨2000, 9⟩, ⟨2000, 9⟩] ∧
      Tick.Accounts s.ledger ticks 2 (.done (.ok false)) ∧
      Tick.Accounts s.ledger ticks 3 (.done (.ok true)) := by
  -- all that the run comes to, in one evaluation
  obtain ⟨hstored, hlength, hmoves, hclocks, hturns, hbefore, hafter, hanswer, hanswer'⟩ :
      stored.roster.shards[0]?.map (fun s => (s.isRefreshing, s.ledger.history.samples)) =
        some (false, [⟨1000, 5⟩]) ∧
      stored.activities.length = 2 ∧
      ((asking stored).moves? [3, 2, 3, 3, 3, 3, 3, 2, 2, 2, 2, 2]).isSome = true ∧
      ((asking stored).clocks [3, 2, 3, 3, 3, 3, 3, 2, 2, 2, 2, 2]).Pairwise (· ≤ ·) ∧
      (stored.activities.all fun a => (a.turn? 0).isNone) = true ∧
      stored.wall = 1000 ∧
      crossed.roster.shards[0]?.map (fun s => (s.ledger.point, s.ledger.history.samples)) =
        some (⟨3000, 2, 9⟩, [⟨1000, 5⟩, ⟨2000, 9⟩, ⟨2000, 9⟩]) ∧
      (crossed.activities[2]?.bind (Activity.answer? 0)).map Except.toOption =
        some (some false) ∧
      (crossed.activities[3]?.bind (Activity.answer? 0)).map Except.toOption =
        some (some true) := by
    decide +kernel
  obtain ⟨s, hs, hparts⟩ := Option.map_eq_some_iff.mp hstored
  obtain ⟨hidle, hsamples⟩ := Prod.mk.inj hparts
  obtain ⟨t, ht, hparts⟩ := Option.map_eq_some_iff.mp hafter
  obtain ⟨hpoint, hhistory⟩ := Prod.mk.inj hparts
  have hnobody : ∀ a ∈ stored.activities, a.turn? 0 = none := fun a ha =>
    Option.isNone_iff_eq_none.mp (List.all_eq_true.mp hturns a ha)
  have hnewest : ∀ r ∈ s.ledger.history.newest?, r.timestamp ≤ stored.wall := by
    rw [CheckpointHistory.newest?, hsamples, hbefore]
    intro r hr
    obtain rfl := Option.some.inj hr
    exact Int.le_refl 1000
  have hcourse : stored.TickCourse 0 _ crossed :=
    (TickCourse.refl.tail (.outside (outside_asking stored)) (by rw [hbefore]; decide)).trans
      (tickCourse_of_moves? 0 (eq_some_getD hmoves unused) hclocks)
  obtain ⟨ticks, rest, s', hlog, -, hs', hhistory', hpoint', hcalls⟩ :=
    refreshes_in_turn hs hidle hnobody hnewest hcourse
  obtain rfl : t = s' := Option.some.inj (ht.symm.trans hs')
  -- the two refreshes were asked for in this course
  have hcall : ∀ i changed, 2 ≤ i →
      (crossed.activities[i]?.bind (Activity.answer? 0)).map Except.toOption = some (some changed) →
      Tick.Accounts s.ledger ticks i (.done (.ok changed)) := by
    intro i changed hi h
    obtain ⟨result, hresult, hchanged⟩ := Option.map_eq_some_iff.mp h
    obtain ⟨a, ha, hanswer⟩ := Option.bind_eq_some_iff.mp hresult
    rw [Activity.eq_of_answer? hanswer, eq_ok_of_toOption hchanged] at ha
    refine hcalls i _ (fun r hr => ?_) ha
    have hlt := (List.getElem?_eq_some_iff.mp hr).1
    omega
  exact ⟨s, _, ticks, rest, t, hs, hidle, hnobody, hnewest, hcourse, hlog, ht, hhistory', hpoint',
    hpoint, hhistory, hcall 2 false (Nat.le_refl 2) hanswer, hcall 3 true (by decide) hanswer'⟩

end Node

end ShardKeeper
