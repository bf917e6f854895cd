import Mathlib.Data.List.Basic
import ShardKeeper.Catalog.FileSync

/-!
# A catalog file that is followed while others act

An activity follows a catalog file.  In between any two of its steps somebody may
change the file, ask for a newer catalog or cancel the activity, and the end of
its pause may come at any time.  What the activity takes as one step is taken
apart here as far as others can interfere: a read begins and returns, what it
returned is looked at, and only then does the activity wait.

## Main definitions

* `FollowEvent`, `Follower`, `Follower.Step` — what can happen, and what it does.
* `Follower.Run` — any number of steps, with the list of what happened.
* `FollowEvent.delivered`, `FollowEvent.taken` — what the reads of a run returned,
  and what of it was looked at.
* `FollowEvent.Answered` — after every request a read began.

## Main results

* `Follower.Invariant.step`, `Follower.invariant_of_run` — what holds after every run.
* `Follower.catalog_of_unchanged_file` — the catalog is that of the file once the
  activity waits again, unless the file was changed after the last request.
* `Follower.run_of_next?` — a step of `FileSync.next?` is a run of own steps.
* `Follower.keeps_last_document_and_hears_requests` — the catalog is that of the
  last document that was looked at, and no request is lost.

## Design notes

A request that comes while the activity waits wakes it, and from then on it is
not waiting any more, even before it takes its next step.  It may as well find
that its pause is over or that it was cancelled.
-/

namespace ShardKeeper

namespace FileSync

/-- The catalog that the content of a file describes, if it describes one. -/
def document? (content : Option Bytes) : Option Catalog := do
  let bytes ← content
  if (Utf8.decode? bytes).isSome then (Catalog.ofBytes bytes).toOption else none

theorem receive_eq (feed : CatalogFeed) (content : Option Bytes) :
    receive feed content = (document? content).elim feed feed.publish := by
  rcases content with _ | bytes
  · rfl
  · simp only [receive, document?, Option.bind_eq_bind, Option.bind_some]
    split
    · cases Catalog.ofBytes bytes <;> rfl
    · rfl

theorem catalog_receive (feed : CatalogFeed) (content : Option Bytes) :
    (receive feed content).catalog = (document? content).or feed.catalog := by
  rw [receive_eq]
  cases document? content <;> rfl

@[simp] theorem pending_receive (feed : CatalogFeed) (content : Option Bytes) :
    (receive feed content).pending = feed.pending := by
  rw [receive_eq]
  cases document? content <;> rfl

@[simp] theorem listener_receive (feed : CatalogFeed) (content : Option Bytes) :
    (receive feed content).listener = feed.listener := by
  rw [receive_eq]
  cases document? content <;> rfl

end FileSync

/-! ### What happens -/

/-- Something that happens to an activity that follows a file. -/
inductive FollowEvent where
  /-- Somebody writes or deletes the file. -/
  | change (content : Option Bytes)
  /-- Somebody asks for a newer catalog. -/
  | request
  | cancel
  /-- A read of the file begins. -/
  | begin
  /-- The read returns, with nothing if it failed. -/
  | deliver (content : Option Bytes)
  /-- The activity looks at what the read returned and passes a catalog on. -/
  | take (content : Option Bytes)
  /-- It begins to wait. -/
  | listen
  /-- It goes on after a request. -/
  | hear
  /-- It goes on at the end of its pause. -/
  | expire
  /-- It ends. -/
  | stop

namespace FollowEvent

/-- Whether the activity itself does it. -/
def isOwn : FollowEvent → Bool
  | change _ | request | cancel => false
  | _ => true

/-- What a read returned, where one did. -/
def delivered? : FollowEvent → Option (Option Bytes)
  | deliver content => some content
  | _ => none

/-- What the activity looked at, where it did. -/
def taken? : FollowEvent → Option (Option Bytes)
  | take content => some content
  | _ => none

/-- What the reads of the file returned. -/
def delivered (events : List FollowEvent) : List (Option Bytes) := events.filterMap delivered?

/-- What the activity has looked at of it. -/
def taken (events : List FollowEvent) : List (Option Bytes) := events.filterMap taken?

theorem delivered_concat (events : List FollowEvent) (e : FollowEvent) :
    delivered (events ++ [e]) = delivered events ++ (delivered? e).toList := by
  rw [delivered, List.filterMap_append, delivered]
  cases h : delivered? e <;> simp [h]

theorem taken_concat (events : List FollowEvent) (e : FollowEvent) :
    taken (events ++ [e]) = taken events ++ (taken? e).toList := by
  rw [taken, List.filterMap_append, taken]
  cases h : taken? e <;> simp [h]

/-- After every request a read has begun. -/
def Answered (events : List FollowEvent) : Prop :=
  ∀ before after, events = before ++ request :: after → begin ∈ after

/-- Nobody has changed the file since some read of it began. -/
def Undisturbed (events : List FollowEvent) : Prop :=
  ∃ before after, events = before ++ begin :: after ∧ ∀ content, change content ∉ after

variable {events : List FollowEvent} {e a : FollowEvent}

/-- What is somewhere in a list with one more event is that event, or was there before. -/
theorem concat_eq_append_cons {before after : List FollowEvent}
    (h : events ++ [e] = before ++ a :: after) :
    (after = [] ∧ e = a) ∨ ∃ after', after = after' ++ [e] ∧ events = before ++ a :: after' := by
  rcases List.eq_nil_or_concat after with rfl | ⟨after', e', rfl⟩
  · obtain ⟨-, he⟩ := List.append_inj' h rfl
    exact .inl ⟨rfl, List.singleton_inj.mp he⟩
  · rw [List.concat_eq_append, ← List.cons_append, ← List.append_assoc] at h
    obtain ⟨hevents, he⟩ := List.append_inj' h rfl
    exact .inr ⟨after', by rw [List.concat_eq_append, List.singleton_inj.mp he], hevents⟩

theorem Answered.concat (h : Answered events) (he : e ≠ request) : Answered (events ++ [e]) := by
  intro before after heq
  rcases concat_eq_append_cons heq with ⟨-, rfl⟩ | ⟨after', rfl, hevents⟩
  · exact absurd rfl he
  · exact List.mem_append_left _ (h before after' hevents)

/-- A read answers all requests before it. -/
theorem answered_concat_begin : Answered (events ++ [begin]) := by
  intro before after heq
  rcases concat_eq_append_cons heq with ⟨-, h⟩ | ⟨after', rfl, -⟩
  · exact absurd h (by simp)
  · simp

theorem Undisturbed.of_concat (h : Undisturbed (events ++ [e])) :
    e = begin ∨ Undisturbed events ∧ ∀ content, e ≠ change content := by
  obtain ⟨before, after, heq, hafter⟩ := h
  rcases concat_eq_append_cons heq with ⟨-, he⟩ | ⟨after', rfl, hevents⟩
  · exact .inl he
  · refine .inr ⟨⟨before, after', hevents, fun content h => ?_⟩, fun content h => ?_⟩
    · exact hafter content (List.mem_append_left _ h)
    · exact hafter content (by simp [h])

/-- A read that began after a request has seen the changes before the request. -/
theorem Answered.undisturbed (h : Answered events) {before after : List FollowEvent}
    (hevents : events = before ++ request :: after) (hafter : ∀ content, change content ∉ after) :
    Undisturbed events := by
  obtain ⟨early, late, rfl⟩ := List.append_of_mem (h before after hevents)
  refine ⟨before ++ request :: early, late, by simp [hevents], fun content hmem => ?_⟩
  exact hafter content (by simp [hmem])

end FollowEvent

/-! ### The activity and its surroundings -/

/-- How far the activity has come. -/
inductive FollowPhase where
  | about
  /-- It is reading the file, which may have been changed since the read began. -/
  | inRead (disturbed : Bool)
  /-- It has in hand what the read returned. -/
  | holding (content : Option Bytes)
  | passed
  | parked
  | ended

namespace FollowPhase

/-- What a read has returned and the activity has not looked at yet. -/
def inHand : FollowPhase → List (Option Bytes)
  | holding content => [content]
  | _ => []

/-- A change of the file disturbs a read of it. -/
def disturb : FollowPhase → FollowPhase
  | inRead _ => inRead true
  | phase => phase

@[simp] theorem inHand_disturb (phase : FollowPhase) : phase.disturb.inHand = phase.inHand := by
  cases phase <;> rfl

@[simp] theorem disturb_eq_parked {phase : FollowPhase} :
    phase.disturb = parked ↔ phase = parked := by
  cases phase <;> simp [disturb]

@[simp] theorem disturb_eq_about {phase : FollowPhase} :
    phase.disturb = about ↔ phase = about := by
  cases phase <;> simp [disturb]

/-- The phase of an activity that takes a read and what follows on it as single steps. -/
def ofSync : FileSync → FollowPhase
  | .reading => about
  | .taking content => holding content
  | .parked _ => parked
  | .ended => ended

end FollowPhase

/-- An activity that follows a file, with the file and the feed. -/
structure Follower where
  /-- What the file holds, if there is one. -/
  file : Option Bytes
  feed : CatalogFeed
  phase : FollowPhase
  cancelled : Bool

namespace Follower

open FollowEvent

/-- What an event does.  A read that the file was not changed during returns what the file holds, or
fails; any other read may return anything. -/
inductive Step (f : Follower) : FollowEvent → Follower → Prop where
  | change (content : Option Bytes) :
      Step f (.change content) { f with file := content, phase := f.phase.disturb }
  | request : Step f .request { f with feed := f.feed.request }
  | cancel : Step f .cancel { f with cancelled := true }
  | begin (h : f.phase = .about) : Step f .begin { f with phase := .inRead false }
  | deliver {disturbed : Bool} {content : Option Bytes} (h : f.phase = .inRead disturbed)
      (hcontent : disturbed = true ∨ content = f.file ∨ content = none) :
      Step f (.deliver content) { f with phase := .holding content }
  | take {content : Option Bytes} (h : f.phase = .holding content) :
      Step f (.take content) { f with feed := FileSync.receive f.feed content, phase := .passed }
  | listen (h : f.phase = .passed) :
      Step f .listen { f with feed := f.feed.listen, phase := .parked }
  | hear (h : f.phase = .parked) (hwoken : f.feed.listener = .woken) :
      Step f .hear { f with feed := f.feed.hear, phase := .about }
  | expire (h : f.phase = .parked) :
      Step f .expire { f with feed := f.feed.stopListening, phase := .about }
  | stop (h : f.phase = .parked) (hcancelled : f.cancelled = true) :
      Step f .stop { f with feed := f.feed.stopListening, phase := .ended }

/-- Any number of steps, and what happened in them. -/
inductive Run (start : Follower) : List FollowEvent → Follower → Prop where
  | nil : Run start [] start
  | concat {events : List FollowEvent} {e : FollowEvent} {f g : Follower}
      (hrun : Run start events f) (hstep : Step f e g) : Run start (events ++ [e]) g

variable {start f g : Follower} {events : List FollowEvent} {e : FollowEvent}

/-! ### One step -/

/-- The activity looks at what a read returned before it does anything else. -/
theorem Step.reads (h : Step f e g) :
    f.phase.inHand ++ (delivered? e).toList = (taken? e).toList ++ g.phase.inHand := by
  cases h with
  | change content => simp [delivered?, taken?]
  | begin h | deliver h _ | take h | listen h | hear h _ | expire h | stop h _ =>
      simp [h, delivered?, taken?, FollowPhase.inHand]
  | _ => simp [delivered?, taken?]

/-- Only a look at a document that describes a catalog changes the catalog. -/
theorem Step.catalog_eq (h : Step f e g) :
    g.feed.catalog = ((taken? e).bind FileSync.document?).or f.feed.catalog := by
  cases h with
  | request =>
      show f.feed.request.catalog = f.feed.catalog
      rw [CatalogFeed.request]
      split <;> rfl
  | take => exact FileSync.catalog_receive ..
  | listen =>
      show f.feed.listen.catalog = f.feed.catalog
      rw [CatalogFeed.listen]
      split <;> rfl
  | _ => rfl

/-- The activity is at the feed when it waits and at no other time. -/
theorem Step.listening (hf : f.feed.listener ≠ .away ↔ f.phase = .parked) (h : Step f e g) :
    g.feed.listener ≠ .away ↔ g.phase = .parked := by
  cases h with
  | change => simpa using hf
  | request =>
      rw [← hf]
      show f.feed.request.listener ≠ _ ↔ _
      rw [CatalogFeed.request]
      split <;> simp_all
  | listen =>
      show f.feed.listen.listener ≠ _ ↔ _
      rw [CatalogFeed.listen]
      split <;> simp
  | begin h | deliver h _ | take h => simpa [h] using hf
  | cancel => exact hf
  | hear | expire | stop => simp [CatalogFeed.hear, CatalogFeed.stopListening]

/-- Whether a request is being attended to: it is kept, it has woken the activity, or the activity
is about to read. -/
def Attended (f : Follower) : Prop :=
  f.feed.pending = true ∨ f.feed.listener = .woken ∨ f.phase = .about

theorem attended_request (f : Follower) : Attended { f with feed := f.feed.request } := by
  unfold Attended CatalogFeed.request
  cases f.feed.listener <;> simp

theorem not_woken (hf : f.feed.listener ≠ .away ↔ f.phase = .parked) (h : f.phase ≠ .parked) :
    f.feed.listener ≠ .woken := by
  intro hwoken
  exact h (hf.mp (by simp [hwoken]))

theorem Step.attended (hf : f.feed.listener ≠ .away ↔ f.phase = .parked) (h : Step f e g)
    (hattended : f.Attended) : e = .begin ∨ g.Attended := by
  cases h with
  | change => exact .inr (by simpa [Attended] using hattended)
  | request => exact .inr (attended_request f)
  | cancel => exact .inr hattended
  | begin => exact .inl rfl
  | deliver h _ | take h =>
      refine .inr (.inl ?_)
      simpa [Attended, h, not_woken hf (by simp [h])] using hattended
  | listen h =>
      -- A request that was kept counts now.
      have hpending : f.feed.pending = true := by
        simpa [Attended, h, not_woken hf (by simp [h])] using hattended
      exact .inr (.inr (.inl (by simp [CatalogFeed.listen, hpending])))
  | hear | expire => exact .inr (.inr (.inr rfl))
  | stop h =>
      refine .inr (.inl ?_)
      simpa [Attended, h, CatalogFeed.stopListening] using hattended

/-! ### A whole run -/

/-- What always holds of an activity that began at `start`, after the events of a run. -/
structure Invariant (start : Follower) (events : List FollowEvent) (f : Follower) : Prop where
  delivered : delivered events = taken events ++ f.phase.inHand
  catalog : f.feed.catalog =
    ((taken events).filterMap FileSync.document?).getLast?.or start.feed.catalog
  listening : f.feed.listener ≠ .away ↔ f.phase = .parked
  attended : Answered events ∨ f.Attended

theorem Invariant.step (h : Invariant start events f) (hstep : Step f e g) :
    Invariant start (events ++ [e]) g where
  delivered := by
    rw [delivered_concat, taken_concat, h.delivered, List.append_assoc, hstep.reads,
      List.append_assoc]
  catalog := by
    rw [hstep.catalog_eq, h.catalog, taken_concat]
    cases htaken : taken? e with
    | none => simp
    | some content => cases hdocument : FileSync.document? content <;> simp [hdocument]
  listening := hstep.listening h.listening
  attended := by
    rcases h.attended with hanswered | hattended
    · by_cases he : e = .request
      · subst he
        cases hstep
        exact .inr (attended_request f)
      · exact .inl (hanswered.concat he)
    · rcases hstep.attended h.listening hattended with rfl | hattended
      · exact .inl answered_concat_begin
      · exact .inr hattended

theorem invariant_of_run (habout : start.phase = .about) (haway : start.feed.listener = .away)
    (hrun : Run start events f) : Invariant start events f := by
  induction hrun with
  | nil =>
      exact ⟨by simp [FollowEvent.delivered, taken, habout, FollowPhase.inHand], by simp [taken],
        by simp [habout, haway], .inr (.inr (.inr habout))⟩
  | concat _ hstep ih => exact ih.step hstep

/-- What the last read of an activity has to do with the file. -/
def Current (f : Follower) (taken : List (Option Bytes)) : Prop :=
  match f.phase with
  | .inRead disturbed => disturbed = false
  | .holding content => content = f.file ∨ content = none
  | .passed | .parked => taken.getLast? = some f.file ∨ taken.getLast? = some none
  | .about | .ended => True

theorem Step.current (h : Step f e g) {before : List (Option Bytes)}
    (he : e = .begin ∨ f.Current before ∧ ∀ content, e ≠ .change content) :
    g.Current (before ++ (taken? e).toList) := by
  rcases he with rfl | ⟨hcurrent, hchange⟩
  · cases h
    rfl
  · cases h with
    | change content => exact absurd rfl (hchange content)
    | request | cancel => simpa [Current, taken?] using hcurrent
    | begin => rfl
    | @deliver disturbed content h hcontent =>
        have hdisturbed : disturbed = false := by simpa [Current, h] using hcurrent
        simpa [Current, hdisturbed] using hcontent
    | @take content h =>
        have hcontent : content = f.file ∨ content = none := by simpa [Current, h] using hcurrent
        simpa [Current, taken?] using hcontent
    | listen h => simpa [Current, taken?, h] using hcurrent
    | hear | expire | stop => trivial

theorem current_of_run (hrun : Run start events f)
    (hundisturbed : Undisturbed events) : f.Current (taken events) := by
  induction hrun with
  | nil =>
      obtain ⟨before, after, h, -⟩ := hundisturbed
      simp at h
  | concat _ hstep ih =>
      rw [taken_concat]
      exact hstep.current (hundisturbed.of_concat.imp_right (And.imp_left ih))

/-- Once an activity waits again and no request is left, all requests were answered. -/
theorem Invariant.answered (h : Invariant start events f) (hparked : f.phase = .parked)
    (hwoken : f.feed.listener ≠ .woken) (hpending : f.feed.pending = false) : Answered events := by
  simpa [Attended, hparked, hwoken, hpending] using h.attended

/-- **Once an activity waits again and no request is left, the catalog is that of the file**, unless
the file was changed after the last request or could not be read. -/
theorem catalog_of_unchanged_file (habout : start.phase = .about)
    (haway : start.feed.listener = .away) (hrun : Run start events f)
    (hparked : f.phase = .parked) (hwoken : f.feed.listener ≠ .woken)
    (hpending : f.feed.pending = false) {before after : List FollowEvent}
    (hevents : events = before ++ .request :: after)
    (hunchanged : ∀ content, .change content ∉ after) {c : Catalog}
    (hc : FileSync.document? f.file = some c) :
    f.feed.catalog = some c ∨ (taken events).getLast? = some none := by
  have hinvariant := invariant_of_run habout haway hrun
  have hanswered := hinvariant.answered hparked hwoken hpending
  have hcurrent := current_of_run hrun (hanswered.undisturbed hevents hunchanged)
  rw [Current, hparked] at hcurrent
  refine hcurrent.imp_left fun hlast => ?_
  obtain ⟨earlier, hearlier⟩ := List.getLast?_eq_some_iff.mp hlast
  rw [hinvariant.catalog, hearlier, List.filterMap_append, List.filterMap_cons_some hc,
    List.filterMap_nil, List.getLast?_append, List.getLast?_singleton, Option.some_or,
    Option.some_or]

/-! ### The activity as the node runs it -/

/-- **A step of the activity is a run of own steps.**  Between two of them others may act. -/
theorem run_of_next? {phase phase' : FileSync} {feed : CatalogFeed} {interval : Duration}
    {now : Instant} (hphase : f.phase = .ofSync phase)
    (h : phase.next? f.feed interval now f.cancelled f.file = some (feed, phase')) :
    ∃ own, (∀ e ∈ own, e.isOwn = true) ∧
      Run f own { f with feed := feed, phase := .ofSync phase' } := by
  cases phase with
  | reading =>
      obtain ⟨rfl, rfl⟩ := Prod.mk.inj (Option.some.inj h)
      exact ⟨[.begin, .deliver f.file], by simp [isOwn],
        (Run.nil.concat (.begin hphase)).concat (.deliver rfl (.inr (.inl rfl)))⟩
  | taking content =>
      obtain ⟨rfl, rfl⟩ := Prod.mk.inj (Option.some.inj h)
      exact ⟨[.take content, .listen], by simp [isOwn],
        (Run.nil.concat (.take hphase)).concat (.listen rfl)⟩
  | parked next =>
      simp only [FileSync.next?, FileSync.wake?] at h
      split at h
      · obtain ⟨rfl, rfl⟩ := Prod.mk.inj (Option.some.inj h)
        exact ⟨[.stop], by simp [isOwn], Run.nil.concat (.stop hphase ‹_›)⟩
      · split at h
        · obtain ⟨rfl, rfl⟩ := Prod.mk.inj (Option.some.inj h)
          exact ⟨[.hear], by simp [isOwn], Run.nil.concat (.hear hphase ‹_›)⟩
        · split at h
          · obtain ⟨rfl, rfl⟩ := Prod.mk.inj (Option.some.inj h)
            exact ⟨[.expire], by simp [isOwn], Run.nil.concat (.expire hphase)⟩
          · exact absurd h (by simp)
  | ended => exact absurd h (by simp [FileSync.next?])

/-- **The catalog is that of the last document that a read returned, and no request is lost.**  This
holds in every order of changes of the file, requests, ends of pauses, cancellation and the
activity's own steps.

What a read has returned counts from the moment the activity looks at it, which is the next thing
that the activity does.  Content that describes no catalog changes nothing.  When the activity
waits, has not been woken, and no request is kept for it, a read has begun after every request; and
if the file was not changed after the last one, the catalog is that of the file, unless the file
could not be read.  The steps of `FileSync.next?` are among those considered here. -/
theorem keeps_last_document_and_hears_requests (habout : start.phase = .about)
    (haway : start.feed.listener = .away) (hrun : Run start events f) :
    FollowEvent.delivered events = taken events ++ f.phase.inHand ∧
    f.feed.catalog = ((taken events).filterMap FileSync.document?).getLast?.or start.feed.catalog ∧
    (∀ e g, Step f e g → g.feed.catalog ≠ f.feed.catalog → ∃ content c,
      e = .take content ∧ FileSync.document? content = some c ∧ g.feed.catalog = some c) ∧
    (f.phase = .parked → f.feed.listener ≠ .woken → f.feed.pending = false →
      ∀ before after, events = before ++ .request :: after → .begin ∈ after) ∧
    (f.phase = .parked → f.feed.listener ≠ .woken → f.feed.pending = false →
      ∀ before after c, events = before ++ .request :: after →
        (∀ content, .change content ∉ after) → FileSync.document? f.file = some c →
        f.feed.catalog = some c ∨ (taken events).getLast? = some none) ∧
    ∀ (phase phase' : FileSync) (feed : CatalogFeed) (interval : Duration) (now : Instant),
      f.phase = .ofSync phase →
      phase.next? f.feed interval now f.cancelled f.file = some (feed, phase') →
      ∃ own, (∀ e ∈ own, e.isOwn = true) ∧
        Run f own { f with feed := feed, phase := .ofSync phase' } := by
  have hinvariant := invariant_of_run habout haway hrun
  refine ⟨hinvariant.delivered, hinvariant.catalog, ?changed, hinvariant.answered, ?unchanged,
    fun _ _ _ _ _ hphase h => run_of_next? hphase h⟩
  case changed =>
    intro e g hstep hne
    rw [hstep.catalog_eq] at hne ⊢
    cases e with
    | take content =>
        cases hdocument : FileSync.document? content with
        | none => simp [taken?, hdocument] at hne
        | some c => exact ⟨content, c, rfl, hdocument, by simp [taken?, hdocument]⟩
    | _ => exact absurd rfl hne
  case unchanged =>
    intro hparked hwoken hpending before after c hevents hunchanged hc
    exact catalog_of_unchanged_file habout haway hrun hparked hwoken hpending hevents hunchanged hc

/-- A file is written while it is read, so that the read returns a part of it that describes
nothing, and a newer catalog is asked for.  The next read returns the whole document.  The file is
deleted after that, and the read after the pause finds nothing. -/
def disturbedRead (document part : Bytes) : List FollowEvent :=
  [.begin, .change (some document), .deliver (some part), .request, .take (some part), .listen,
    .hear, .begin, .deliver (some document), .take (some document), .change none, .listen, .expire,
    .begin, .deliver none, .take none, .listen]

theorem run_disturbedRead {document part : Bytes} {c : Catalog}
    (hpart : FileSync.document? (some part) = none)
    (hdocument : FileSync.document? (some document) = some c) :
    Run ⟨none, .empty, .about, false⟩ (disturbedRead document part)
      ⟨none, ⟨some c, 1, false, .waiting⟩, .parked, false⟩ := by
  have hread : Run ⟨none, .empty, .about, false⟩ _
      ⟨some document, .empty, .holding (some part), false⟩ :=
    ((Run.nil.concat (.begin rfl)).concat (.change (some document))).concat
      (.deliver rfl (.inl rfl))
  have hreturned := (hread.concat .request).concat (.take rfl)
  rw [FileSync.receive_eq, hpart] at hreturned
  have hreread :=
    (((hreturned.concat (.listen rfl)).concat (.hear rfl rfl)).concat (.begin rfl)).concat
      (.deliver rfl (.inr (.inl rfl)))
  have hwhole := hreread.concat (.take rfl)
  rw [FileSync.receive_eq, hdocument] at hwhole
  have hdeleted := ((hwhole.concat (.change none)).concat (.listen rfl)).concat (.expire rfl)
  have hrun := (((hdeleted.concat (.begin rfl)).concat (.deliver rfl (.inr (.inl rfl)))).concat
    (.take rfl)).concat (.listen rfl)
  simp only [List.nil_append, List.cons_append] at hrun
  exact hrun

/-- Such a file with the partition of a table: the catalog keeps it when the file is gone. -/
theorem keeps_document_after_disturbed_read :
    let document := Utf8.ofString
      "\x7b\"t\":\x7b\"0\":\x7b\"partitions\":\x7b\"p\":0\x7d\x7d\x7d\x7d"
    let catalog : Catalog := ⟨[("t", [(0, ⟨["p"]⟩)])]⟩
    let events := disturbedRead document (document.take 9)
    Run ⟨none, .empty, .about, false⟩ events
        ⟨none, ⟨some catalog, 1, false, .waiting⟩, .parked, false⟩ ∧
      ((taken events).filterMap FileSync.document?).getLast? = some catalog ∧
      ∀ before after, events = before ++ .request :: after → .begin ∈ after := by
  intro document catalog events
  have hpart : FileSync.document? (some (document.take 9)) = none := by decide +kernel
  have hdocument : FileSync.document? (some document) = some catalog := by decide +kernel
  have hrun := run_disturbedRead hpart hdocument
  obtain ⟨-, hcatalog, -, hanswered, -, -⟩ := keeps_last_document_and_hears_requests rfl rfl hrun
  rw [show CatalogFeed.empty.catalog = none from rfl, Option.or_none] at hcatalog
  exact ⟨hrun, hcatalog.symm, hanswered rfl (by simp) rfl⟩

end Follower

end ShardKeeper
