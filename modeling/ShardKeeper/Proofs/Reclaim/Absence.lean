import ShardKeeper.Proofs.Reclaim.Course

/-!
# Removals begin while the data is absent

Data is only removed once the catalog shows that the engine has let go of it.
Whatever happens to a node and in whatever order, a removal begins in no other
step than a look of a saga at the catalog, and everything that has to hold of
that moment holds of it, see `Node.BeginsRemoval`.

## Main definitions

* `Node.BeginsRemoval` — a step in which a saga begins a removal.

## Main results

`removal_begins_while_absent`: every removal is begun in this way, none after
the saga's token was cancelled, and one that follows another removal of the same
saga belongs to a later attempt with a wait of its own.
-/

namespace ShardKeeper

namespace Node

/-- A step from `n` to `m` in which a saga begins the removal of its data: the saga `s` of the
number `saga`, whose task has `ticket`, and which has been in `wait` since the beginning of its
attempt. -/
structure BeginsRemoval (n m : Node) (saga : Nat) (ticket : TaskTicket) (s : Saga)
    (wait : CatalogWait) : Prop where
  /-- The step is one of the only activity that attends to the saga. -/
  activity : ∃ number, n.activities[number]? = some (.reclaiming saga ticket) ∧
    n.move? number = some m
  own : ∀ (number : Nat) (other : TaskTicket),
    n.activities[number]? = some (.reclaiming saga other) → other = ticket
  looking : ∃ next ≤ n.clock, n.desk.sagas[saga]? = some s ∧ s.phase = .looking wait next
  removing : m.desk.sagas[saga]? = some { s with phase := .removing }
  begun : ∃ held, m.removals.begun = n.removals.begun ++ [⟨s.key.path n.layout, n.clock, held⟩]
  /-- The wait is for the absence of the data. -/
  wait_eq : wait.condition = s.key.condition ∧ wait.settings = n.desk.plan.polling ∧
    wait.started ≤ n.clock
  live : n.group.isCancelled ticket.token = false
  /-- There is a catalog at that very moment, and it shows the absence. -/
  absent : ∃ catalog, n.feed.catalog = some catalog ∧ s.key.condition.holds (some catalog) = true
  held : n.desk.locks.isHeld s.key = true ∧ m.desk.locks.isHeld s.key = true
  /-- No other saga under way has the key. -/
  alone : ∀ (other : Nat) (t : Saga), n.desk.sagas[other]? = some t → t.isOver = false →
    t.key = s.key → other = saga

variable {n m : Node} {saga : Nat} {ticket : TaskTicket}

/-- Without a catalog no condition holds. -/
theorem exists_catalog_of_holds {condition : CatalogCondition} {catalog : Option Catalog}
    (h : condition.holds catalog = true) :
    ∃ c, catalog = some c ∧ condition.holds (some c) = true := by
  cases catalog with
  | none => cases h
  | some c => exact ⟨c, rfl, h⟩

/-- **Only a saga that looks at the catalog begins a removal.** -/
theorem exists_beginsRemoval (h : n.ReclaimsSoundly) (hstep : n.Step m)
    (hbegun : m.removals.begun ≠ n.removals.begun) :
    ∃ saga ticket s wait, n.BeginsRemoval m saga ticket s wait := by
  rcases hstep.cases with haside | ⟨key, saga, ticket, hasked⟩ |
    ⟨number, saga, ticket, s, s', hactivity, hmove, hmoved⟩
  · exact absurd haside.begun hbegun
  · exact absurd hasked.begun hbegun
  · have hm := h.step hstep
    have hs' : m.desk.sagas[saga]? = some s' := by
      rw [hmoved.desk]
      exact List.getElem?_set_self (List.getElem?_eq_some_iff.mp hmoved.saga).1
    have hunder := hmoved.step.isOver_eq_false
    have hheld := h.desk.isHeld hmoved.saga hunder
    cases hmoved.step with
    | finish _ _ hsame => exact absurd hsame hbegun
    | move hmoves hsame hremove =>
        cases hmoves with
        | remove hphase hdue hlive hholds =>
            rename_i wait next
            have hwait := h.waits s (List.mem_of_getElem? hmoved.saga) wait next hphase
            rw [hwait.1] at hholds
            have hstill : m.desk.locks.isHeld s.key = true :=
              hm.desk.isHeld (s := { s with phase := .removing }) hs' rfl
            refine ⟨saga, ticket, s, wait, ⟨number, hactivity, hmove⟩, ?_,
              ⟨next, hdue, hmoved.saga, hphase⟩, hs', hremove rfl, hwait, hlive,
              exists_catalog_of_holds hholds, ⟨hheld, hstill⟩, ?_⟩
            · intro i other hi
              obtain rfl := h.own number i saga ticket other hactivity hi
              rw [hactivity] at hi
              cases hi
              rfl
            · intro other t ht htunder hkey
              exact h.desk.alone other saga t s ht hmoved.saga htunder hunder hkey
        | _ => exact absurd (hsame (by simp)) hbegun

theorem BeginsRemoval.step {s : Saga} {wait : CatalogWait}
    (h : n.BeginsRemoval m saga ticket s wait) : n.Step m := by
  obtain ⟨number, -, hmove⟩ := h.activity
  exact .act hmove

/-- No time passes in the step. -/
theorem BeginsRemoval.clock_eq {s : Saga} {wait : CatalogWait}
    (h : n.BeginsRemoval m saga ticket s wait) : m.clock = n.clock := by
  obtain ⟨number, hactivity, hmove⟩ := h.activity
  obtain ⟨a, ha, hrest⟩ := Option.bind_eq_some_iff.mp hmove
  obtain rfl := Option.some.inj (hactivity.symm.trans ha)
  obtain ⟨t, t', hmoved⟩ := moved_of_moveReclaiming? hrest
  exact hmoved.clock

/-! ### After a removal -/

/-- The saga of a number, which is about `key`, is past the removal that it began at an instant in
one of its attempts. -/
def SagaIsPast (n : Node) (plan : ReclaimPlan) (key : ReclaimKey) (saga attempt : Nat)
    (since : Instant) : Prop :=
  n.desk.plan = plan ∧ since ≤ n.clock ∧
    ∃ s, n.desk.sagas[saga]? = some s ∧ s.key = key ∧ s.IsPast plan attempt since n.clock

namespace SagaIsPast

variable {plan : ReclaimPlan} {key : ReclaimKey} {attempt : Nat} {since : Instant}

theorem of_beginsRemoval {s : Saga} {wait : CatalogWait}
    (h : n.BeginsRemoval m saga ticket s wait) :
    m.SagaIsPast n.desk.plan s.key saga s.attempt n.clock := by
  refine ⟨h.step.plan_eq, Nat.le_of_eq h.clock_eq.symm, _, h.removing, rfl, ?_⟩
  rw [h.clock_eq]
  exact .remove n.desk.plan n.clock s

theorem step (h : n.SagaIsPast plan key saga attempt since) (hstep : n.Step m) :
    m.SagaIsPast plan key saga attempt since := by
  obtain ⟨hplan, hsince, s, hs, hkey, hpast⟩ := h
  refine ⟨hstep.plan_eq.trans hplan, Nat.le_trans hsince hstep.clock_le, ?_⟩
  rcases hstep.cases with haside | ⟨asked, other, ticket, hasked⟩ |
    ⟨_, other, ticket, t, t', -, -, hmoved⟩
  · rw [haside.desk]
    exact ⟨s, hs, hkey, hpast.later haside.clock⟩
  · obtain ⟨locks, -, -, hdesk⟩ := ReclaimDesk.request_eq_some hasked.desk
    rw [hdesk, hasked.clock]
    exact ⟨s, getElem?_concat_eq_some_iff.mpr (Or.inr hs), hkey, hpast⟩
  · rw [hmoved.desk, hmoved.clock]
    have hplace : ∀ {i : Nat} {r : Saga}, (n.desk.update other t').sagas[i]? = some r ↔
        (i = other ∧ r = t') ∨ (i ≠ other ∧ n.desk.sagas[i]? = some r) :=
      getElem?_set_eq_some_iff hmoved.saga
    rcases eq_or_ne saga other with rfl | hne
    · obtain rfl : s = t := Option.some.inj (hs.symm.trans hmoved.saga)
      refine ⟨t', hplace.mpr (Or.inl ⟨rfl, rfl⟩), hmoved.step.key_eq.trans hkey, ?_⟩
      cases hmoved.step with
      | move hmoves =>
          rw [hplan] at hmoves
          exact hpast.move hsince hmoves
      | finish hphase heq =>
          rw [heq, hplan]
          exact hpast.afterRemoval hphase hsince _
    · exact ⟨s, hplace.mpr (Or.inr ⟨hne, hs⟩), hkey, hpast⟩

theorem course (h : n.SagaIsPast plan key saga attempt since) (hcourse : n.Course m) :
    m.SagaIsPast plan key saga attempt since := by
  induction hcourse with
  | refl => exact h
  | tail _ hstep ih => exact ih.step hstep

end SagaIsPast

/-- **Removals begin while the data is absent.**  In every course of a node, whatever was published,
replaced, cleared and cancelled in it, and however the removals ended, a step that begins a removal
is one of a saga that `BeginsRemoval`: it holds its key alone, its token is not cancelled, and the
catalog of that moment shows the absence that it waits for.  Moreover

* its token was never cancelled before, so no removal begins after a cancellation;
* if the saga has begun a removal before, then in an earlier attempt, and the wait that has led to
  this one began no earlier than a pause after that;
* as long as the removal takes, the saga holds the key. -/
theorem removal_begins_while_absent {n₀ n m : Node} (h₀ : n₀.BeforeReclaims) (hn : n₀.Course n)
    (hstep : n.Step m) (hbegun : m.removals.begun ≠ n.removals.begun) :
    ∃ saga ticket s wait, n.BeginsRemoval m saga ticket s wait ∧
      (∀ p : Node, p.Course n → p.group.isCancelled ticket.token = false) ∧
      (∀ (p q : Node) ticket' s' wait', p.BeginsRemoval q saga ticket' s' wait' → q.Course n →
        s'.attempt < s.attempt ∧
          p.clock + n.desk.plan.settings.pause.pauseNanos ≤ wait.started) ∧
      ∀ (q : Node) (t : Saga), m.Course q → q.desk.sagas[saga]? = some t → t.phase = .removing →
        t.key = s.key ∧ q.desk.locks.isHeld s.key = true := by
  have hsound := (ReclaimsSoundly.of_beforeReclaims h₀).course hn
  obtain ⟨saga, ticket, s, wait, hbegins⟩ := exists_beginsRemoval hsound hstep hbegun
  refine ⟨saga, ticket, s, wait, hbegins, ?_, ?_, ?_⟩
  · intro p hp
    cases hcancelled : p.group.isCancelled ticket.token with
    | false => rfl
    | true =>
        have hlater := Course.isCancelled hp hcancelled
        rw [hbegins.live] at hlater
        cases hlater
  · intro p q ticket' s' wait' hearlier hq
    obtain ⟨hplan, -, t, ht, -, hpast⟩ := (SagaIsPast.of_beginsRemoval hearlier).course hq
    obtain ⟨next, -, hs, hphase⟩ := hbegins.looking
    obtain rfl : s = t := Option.some.inj (hs.symm.trans ht)
    rw [hplan]
    exact hpast.of_looking hphase
  · intro q t hq ht hphase
    obtain ⟨-, -, u, hu, hkey, -⟩ := (SagaIsPast.of_beginsRemoval hbegins).course hq
    obtain rfl : t = u := Option.some.inj (ht.symm.trans hu)
    have hheld := ((hsound.step hstep).course hq).desk.isHeld ht
      (by simp [Saga.isOver, hphase, SagaPhase.outcome?])
    rw [hkey] at hheld
    exact ⟨hkey, hheld⟩

/-- The catalog serves another table than the one to be removed, and the first removal fails.  While
the saga pauses, the catalog is cleared and published again, and a token that is not the saga's is
cancelled.  After the pause the saga begins another removal. -/
theorem removal_begins_again_after_failure :
    let n₀ : Node :=
      { starting ⟨⟨"runtime"⟩⟩ .empty ⟨.ofSeconds 1, .ofSeconds 60⟩
          ⟨.ofMillis 50, 2, 10, .ofSeconds 5⟩ ⟨3, .ofSeconds 1⟩ with
        removals := ⟨[], [some "busy"], true⟩ }
    let next (n : Node) : Node := (n.move? 0).getD n
    let served : Catalog := ⟨[("customers", [(0, ⟨["0_65535"]⟩)])]⟩
    let n₁ : Node := { n₀ with feed := n₀.feed.publish served }
    let p : Node := next (next (n₁.reclaim (.table "orders")).1)
    let q : Node := next p
    let meanwhile (n : Node) : Node :=
      { n with
        feed := n.feed.clear.publish served
        group := n.group.cancel (.top 1)
        clock := (Duration.ofSeconds 1).pauseNanos }
    let n₂ : Node := meanwhile (next q)
    let n : Node := next (next n₂)
    let m : Node := next n
    n₀.BeforeReclaims ∧ n₀.Course p ∧ p.Step q ∧ q.removals.begun ≠ p.removals.begun ∧
      q.Course n ∧ n.Step m ∧ m.removals.begun ≠ n.removals.begun ∧
      n.feed.catalog = some served ∧
      ∃ saga ticket s wait ticket' s' wait', p.BeginsRemoval q saga ticket' s' wait' ∧
        n.BeginsRemoval m saga ticket s wait ∧ s'.attempt < s.attempt ∧
        (Duration.ofSeconds 1).pauseNanos ≤ wait.started := by
  intro n₀ next served n₁ p q meanwhile n₂ n m
  have h₀ : n₀.BeforeReclaims := ⟨⟨_, rfl⟩, fun _ ha => absurd ha List.not_mem_nil⟩
  have hp : n₀.Course p := by
    have h₁ : n₀.Step n₁ := .aside (aside_publish n₀ served)
    have h₂ : n₁.Step (n₁.reclaim (.table "orders")).1 := .reclaim n₁ (.table "orders")
    exact (((Relation.ReflTransGen.single h₁).tail h₂).tail (.next (by decide))).tail
      (.next (by decide))
  have hpq : p.Step q := .next (by decide)
  have hfirst : q.removals.begun ≠ p.removals.begun := by decide
  have hn : q.Course n := by
    have haside : ∀ k : Node, k.clock ≤ (Duration.ofSeconds 1).pauseNanos →
        k.Aside (meanwhile k) := fun k hk =>
      (((aside_clear k).trans (aside_publish _ served)).trans (aside_cancel _ (.top 1))).trans
        (aside_waitUntil _ hk)
    have hwait : (next q).Step n₂ := .aside (haside _ (by decide))
    exact (((Relation.ReflTransGen.single (.next (by decide))).tail hwait).tail
      (.next (by decide))).tail (.next (by decide))
  have hnm : n.Step m := .next (by decide)
  have hagain : m.removals.begun ≠ n.removals.begun := by decide
  refine ⟨h₀, hp, hpq, hfirst, hn, hnm, hagain, by decide, ?_⟩
  obtain ⟨saga', ticket', s', wait', hearlier, -⟩ := removal_begins_while_absent h₀ hp hpq hfirst
  obtain ⟨saga, ticket, s, wait, hlater, -, hfresh, -⟩ :=
    removal_begins_while_absent h₀ ((hp.tail hpq).trans hn) hnm hagain
  -- there is only one saga
  have hsaga : saga' = saga := by
    obtain ⟨-, -, hs', -⟩ := hearlier.looking
    obtain ⟨-, -, hs, -⟩ := hlater.looking
    have hlt' := (List.getElem?_eq_some_iff.mp hs').1
    have hlt := (List.getElem?_eq_some_iff.mp hs).1
    rw [show p.desk.sagas.length = 1 by decide] at hlt'
    rw [show n.desk.sagas.length = 1 by decide] at hlt
    omega
  subst hsaga
  obtain ⟨hattempt, hpause⟩ := hfresh p q ticket' s' wait' hearlier hn
  rw [show p.clock = 0 by decide,
    show n.desk.plan.settings.pause = .ofSeconds 1 by decide, Nat.zero_add] at hpause
  exact ⟨saga', ticket, s, wait, ticket', s', wait', hearlier, hlater, hattempt, hpause⟩

end Node

end ShardKeeper
