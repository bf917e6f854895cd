import Mathlib.Data.List.Nodup
import ShardKeeper.Catalog.Condition
import ShardKeeper.Proofs.Json.Members
import ShardKeeper.Proofs.Json.Record

/-!
# What a catalog document says

Which documents describe a catalog, and which conditions hold of it, by the
members of the document alone.  The order in which the members are listed plays
no part in that.

## Main definitions

* `Catalog.IsDocument` — documents of the catalog's shape.
* `Catalog.NumbersGenerations` — the ids of a table's generations are different numbers.
* `Catalog.HasGeneration`, `Catalog.Lists` — a generation of a table, and a partition of a
  generation.

## Main results

* `Catalog.ofDocument_eq_ok_iff` — which documents describe a catalog, and which one.
* `Catalog.served_described` — the generation with the largest number says what is served.
* `Catalog.conditions_by_largest_generation` — all of it.
-/

namespace ShardKeeper

open ShardKeeper.Json (IsObjectOf Reordered)

/-- In a list of pairs with different keys a key is looked up by membership. -/
theorem lookup_eq_some_iff {κ α : Type} [BEq κ] [LawfulBEq κ] {pairs : List (κ × α)} {k : κ} {a : α}
    (h : pairs.Pairwise fun p q => p.1 ≠ q.1) : pairs.lookup k = some a ↔ (k, a) ∈ pairs := by
  induction pairs with
  | nil => simp
  | cons p pairs ih =>
      obtain ⟨hp, hpairs⟩ := List.pairwise_cons.mp h
      obtain ⟨key, b⟩ := p
      rw [List.lookup_cons]
      by_cases hk : k = key
      · subst hk
        have hrest : (k, a) ∉ pairs := fun hmem => hp _ hmem rfl
        simp [hrest, eq_comm]
      · rw [beq_eq_false_iff_ne.mpr hk, List.mem_cons]
        simp [hk, ih hpairs]

theorem lookup_map_snd {κ α β : Type} [BEq κ] (f : α → β) (pairs : List (κ × α)) (k : κ) :
    (pairs.map fun p => (p.1, f p.2)).lookup k = (pairs.lookup k).map f := by
  induction pairs with
  | nil => rfl
  | cons p pairs ih =>
      rw [List.map_cons, List.lookup_cons, List.lookup_cons, ih]
      split <;> rfl

namespace Catalog

variable {v w table : Json} {name partition id : String} {P : Json → Prop}

/-! ### The shape of a document -/

/-- A generation of the right shape: its partitions, if it names any, are an object. -/
structure IsGeneration (v : Json) : Prop where
  isObject : v.IsObjectOf fun _ => True
  partitions : ∀ x, ("partitions", x) ∈ v.members → x.IsObjectOf fun _ => True

/-- A document of the catalog's shape: an object of tables, each an object of generations. -/
def IsDocument (v : Json) : Prop := v.IsObjectOf fun table => table.IsObjectOf IsGeneration

theorem IsGeneration.reordered (h : IsGeneration v) (hvw : Reordered v w) : IsGeneration w := by
  refine ⟨h.isObject.reordered (fun _ _ _ _ => trivial) hvw, fun y hy => ?_⟩
  obtain ⟨x, hx, hyx⟩ := hvw.symm.exists_member hy
  exact (h.partitions x hx).reordered (fun _ _ _ _ => trivial) hyx.symm

theorem IsDocument.reordered (h : IsDocument v) (hvw : Reordered v w) : IsDocument w :=
  IsObjectOf.reordered (fun _ _ htables htable =>
    htable.reordered (fun _ _ hgenerations hgeneration => hgeneration.reordered hgenerations)
      htables) h hvw

/-! ### Reading -/

theorem collapseMembers_eq (ms : List (Option String × Json)) :
    collapseMembers ms = ms.map fun m => (m.1, collapse m.2) := by
  induction ms with
  | nil => rfl
  | cons m ms ih => rw [collapseMembers, ih, List.map_cons]

/-- An object that names each member once keeps all of them. -/
theorem collapse_record {ms : List (String × Json)} (h : ms.Pairwise fun a b => a.1 ≠ b.1) :
    collapse (.record ms) = .record (ms.map fun m => (m.1, collapse m.2)) := by
  have hnames : (ms.map fun m => (some m.1, collapse m.2)).Pairwise fun a b => a.1 ≠ b.1 :=
    List.pairwise_map.mpr (h.imp fun hne heq => hne (Option.some.inj heq))
  rw [Json.record, collapse, collapseMembers_eq, List.map_map, Json.record, List.map_map]
  exact congrArg Json.object (Json.lastOfEach_of_pairwise hnames)

/-- An object is read as a map member by member. -/
theorem entries?_collapse {α : Type} {read : Json → Option α} {value : Json → α}
    (hv : v.IsObjectOf P) (hread : ∀ x, P x → read (collapse x) = some (value x)) :
    Json.entries? read (collapse v) = some (v.members.map fun m => (m.1, value m.2)) := by
  rw [hv.eq_record, collapse_record hv.pairwise_members, ← hv.eq_record]
  exact Json.entries?_record hv.pairwise_members fun m hm => hread m.2 (hv.of_mem hm)

/-- The names of the partitions of a generation. -/
def partitionNames (v : Json) : List String :=
  (v.members.lookup "partitions").elim [] fun x => x.members.map Prod.fst

theorem generationOf?_collapse (h : IsGeneration v) :
    generationOf? (collapse v) = some ⟨partitionNames v⟩ := by
  have hnames := h.isObject.pairwise_members
  have hcollapsed : (v.members.map fun m => (m.1, collapse m.2)).Pairwise fun a b => a.1 ≠ b.1 :=
    List.pairwise_map.mpr hnames
  have hfields : (collapse v).fields? ["partitions"] =
      some [(v.members.lookup "partitions").map collapse] := by
    rw [h.isObject.eq_record, collapse_record hnames, ← h.isObject.eq_record,
      Json.fields?_record hcollapsed, lookup_map_snd]
  rw [generationOf?, hfields, partitionNames]
  cases hpartitions : v.members.lookup "partitions" with
  | none => rfl
  | some x =>
      have hx := h.partitions x ((lookup_eq_some_iff hnames).mp hpartitions)
      have hentries : Json.entries? some (collapse x) =
          some (x.members.map fun m => (m.1, collapse m.2)) :=
        entries?_collapse hx fun _ _ => rfl
      show ((Json.entries? some (collapse x)).bind fun entries =>
        some (Generation.mk (entries.map Prod.fst))) = _
      rw [hentries]
      exact congrArg (fun names => some (Generation.mk names)) (List.map_map ..)

/-! ### Numbers -/

/-- The number that an id spells. -/
def idNumber (id : String) : ℕ := Decimal.value id.toList

/-- An id is a number: one or more digits that spell a number of 64 bits. -/
structure IsNumber (id : String) : Prop where
  ne_nil : id.toList ≠ []
  digits : ∀ c ∈ id.toList, c.isDigit = true
  lt : idNumber id < 2 ^ 64

theorem generationNumber_eq_ok {n : ℕ} :
    generationNumber name id = .ok n ↔ IsNumber id ∧ n = idNumber id := by
  rw [generationNumber, Decimal.nat?, Decimal.isNumeral]
  by_cases hnumeral : (!id.toList.isEmpty && id.toList.all Char.isDigit) = true
  · rw [if_pos hnumeral]
    rw [Bool.and_eq_true, Bool.not_eq_true', List.isEmpty_eq_false_iff, List.all_eq_true]
      at hnumeral
    dsimp only
    by_cases hlt : Decimal.value id.toList < Nat.pow 2 64
    · rw [if_pos hlt]
      exact ⟨fun h => ⟨⟨hnumeral.1, hnumeral.2, hlt⟩, (Except.ok.inj h).symm⟩,
        fun h => congrArg Except.ok h.2.symm⟩
    · rw [if_neg hlt]
      exact ⟨fun h => (nomatch h), fun h => absurd h.1.lt hlt⟩
  · rw [if_neg hnumeral]
    refine ⟨fun h => (nomatch h), fun h => absurd ?_ hnumeral⟩
    rw [Bool.and_eq_true, Bool.not_eq_true', List.isEmpty_eq_false_iff, List.all_eq_true]
    exact ⟨h.1.ne_nil, h.1.digits⟩

/-- **The generations of a table are numbered** if their ids are numbers and no number comes twice.
-/
theorem numberGenerations_eq_ok {generations : List (String × Generation)}
    {seen numbered : List (ℕ × Generation)} (hseen : (seen.map Prod.fst).Nodup) :
    numberGenerations name seen generations = .ok numbered ↔
      (∀ g ∈ generations, IsNumber g.1) ∧
      (seen.map Prod.fst ++ generations.map fun g => idNumber g.1).Nodup ∧
      numbered = seen ++ generations.map fun g => (idNumber g.1, g.2) := by
  induction generations generalizing seen with
  | nil => simp [numberGenerations, hseen, eq_comm]
  | cons g generations ih =>
      obtain ⟨id, g⟩ := g
      rw [numberGenerations]
      cases hnumber : generationNumber name id with
      | error e =>
          have hnot : ¬ IsNumber id := fun h => by
            rw [generationNumber_eq_ok.mpr ⟨h, rfl⟩] at hnumber
            cases hnumber
          exact ⟨fun h => (nomatch h), fun h => absurd (h.1 _ List.mem_cons_self) hnot⟩
      | ok n =>
          obtain ⟨hid, rfl⟩ := generationNumber_eq_ok.mp hnumber
          show (if (seen.any fun g => g.1 == idNumber id) = true then _ else _) = _ ↔ _
          by_cases hany : (seen.any fun g => g.1 == idNumber id) = true
          · rw [if_pos hany]
            obtain ⟨old, hold, heq⟩ := List.any_eq_true.mp hany
            refine ⟨fun h => (nomatch h), fun h => absurd (List.nodup_append.mp h.2.1).2.2 ?_⟩
            intro hdisjoint
            exact hdisjoint _ (List.mem_map_of_mem hold) _ List.mem_cons_self
              (beq_iff_eq.mp heq)
          · rw [if_neg hany]
            have hnew : idNumber id ∉ seen.map Prod.fst := by
              intro hmem
              obtain ⟨old, hold, heq⟩ := List.mem_map.mp hmem
              exact hany (List.any_eq_true.mpr ⟨old, hold, beq_iff_eq.mpr heq⟩)
            have hseen' : ((seen ++ [(idNumber id, g)]).map Prod.fst).Nodup := by
              rw [List.map_append]
              refine List.nodup_append.mpr ⟨hseen, List.nodup_singleton _, fun n hn m hm heq => ?_⟩
              rw [heq, List.mem_singleton.mp hm] at hn
              exact hnew hn
            rw [ih hseen', List.forall_mem_cons, List.map_append, List.append_assoc,
              List.append_assoc]
            simp only [hid, true_and]
            rfl

/-- The ids of a table's generations are numbers, and no two of them are the same number. -/
structure NumbersGenerations (table : Json) : Prop where
  numbers : ∀ id g, (id, g) ∈ table.members → IsNumber id
  inj : ∀ id g id' g', (id, g) ∈ table.members → (id', g') ∈ table.members →
    idNumber id = idNumber id' → id = id'

/-- The generations of a table by their numbers. -/
def describedTable (table : Json) : List (ℕ × Generation) :=
  table.members.map fun g => (idNumber g.1, ⟨partitionNames g.2⟩)

/-- The catalog that a document describes. -/
def described (v : Json) : Catalog := ⟨v.members.map fun t => (t.1, describedTable t.2)⟩

theorem NumbersGenerations.nodup (h : NumbersGenerations table)
    (htable : table.IsObjectOf P) : (table.members.map fun g => idNumber g.1).Nodup := by
  show (table.members.map (idNumber ∘ Prod.fst)).Nodup
  rw [← List.map_map, List.nodup_map_iff_inj_on htable.nodup_names]
  intro id hid id' hid' heq
  obtain ⟨⟨_, g⟩, hg, rfl⟩ := List.mem_map.mp hid
  obtain ⟨⟨_, g'⟩, hg', rfl⟩ := List.mem_map.mp hid'
  exact h.inj _ g _ g' hg hg' heq

theorem numbersGenerations_iff (htable : table.IsObjectOf P) :
    NumbersGenerations table ↔ (∀ g ∈ table.members, IsNumber g.1) ∧
      (table.members.map fun g => idNumber g.1).Nodup := by
  refine ⟨fun h => ⟨fun g hg => h.numbers _ _ hg, h.nodup htable⟩, fun ⟨hnumbers, hnodup⟩ =>
    ⟨fun id g hg => hnumbers _ hg, fun id g id' g' hg hg' heq => ?_⟩⟩
  exact congrArg Prod.fst (List.inj_on_of_nodup_map hnodup hg hg' heq)

/-- What a table is read as. -/
theorem numberGenerations_members {numbered : List (ℕ × Generation)}
    (htable : table.IsObjectOf P) :
    numberGenerations name [] (table.members.map fun g => (g.1, ⟨partitionNames g.2⟩)) =
        .ok numbered ↔
      NumbersGenerations table ∧ numbered = describedTable table := by
  have hseen : (([] : List (ℕ × Generation)).map Prod.fst).Nodup := List.nodup_nil
  rw [numberGenerations_eq_ok hseen, numbersGenerations_iff htable,
    List.forall_mem_map, List.map_nil, List.nil_append, List.nil_append, List.map_map, List.map_map,
    and_assoc]
  rfl

/-- What is written for the items of a list is read item by item, or not at all. -/
theorem mapM_map_eq_ok_iff {α β γ ε : Type} {write : α → γ} {read : γ → Except ε β} {P : α → Prop}
    {value : α → β} {as : List α} {bs : List β}
    (h : ∀ a ∈ as, ∀ b, read (write a) = .ok b ↔ P a ∧ b = value a) :
    (as.map write).mapM read = .ok bs ↔ (∀ a ∈ as, P a) ∧ bs = as.map value := by
  induction as generalizing bs with
  | nil =>
      rw [List.map_nil, List.mapM_nil]
      exact ⟨fun h => ⟨fun _ ha => absurd ha List.not_mem_nil, (Except.ok.inj h).symm⟩,
        fun h => congrArg Except.ok h.2.symm⟩
  | cons a as ih =>
      obtain ⟨ha, has⟩ := List.forall_mem_cons.mp h
      rw [List.map_cons, List.mapM_cons, List.forall_mem_cons, List.map_cons]
      cases hread : read (write a) with
      | error e =>
          refine ⟨fun h => (nomatch h), fun h => ?_⟩
          rw [(ha _).mpr ⟨h.1.1, rfl⟩] at hread
          cases hread
      | ok b =>
          obtain ⟨hP, rfl⟩ := (ha b).mp hread
          cases hrest : (as.map write).mapM read with
          | error e =>
              refine ⟨fun h => (nomatch h), fun h => ?_⟩
              rw [(ih has).mpr ⟨h.1.2, rfl⟩] at hrest
              cases hrest
          | ok rest =>
              obtain ⟨hall, rfl⟩ := (ih has).mp hrest
              exact ⟨fun h => ⟨⟨hP, hall⟩, (Except.ok.inj h).symm⟩,
                fun h => congrArg Except.ok h.2.symm⟩

/-- The table of a document with its generations, as it is read before they are numbered. -/
def unnumbered (t : String × Json) : String × List (String × Generation) :=
  (t.1, t.2.members.map fun g => (g.1, ⟨partitionNames g.2⟩))

/-- The table with its generations numbered. -/
def numberTable (t : String × List (String × Generation)) :
    Except CatalogError (String × List (ℕ × Generation)) := do
  return (t.1, ← numberGenerations t.1 [] t.2)

theorem numberTable_unnumbered {t : String × Json} {numbered : String × List (ℕ × Generation)}
    (ht : t.2.IsObjectOf P) :
    numberTable (unnumbered t) = .ok numbered ↔
      NumbersGenerations t.2 ∧ numbered = (t.1, describedTable t.2) := by
  rw [numberTable]
  cases hnumbered : numberGenerations (unnumbered t).1 [] (unnumbered t).2 with
  | error e =>
      refine ⟨fun h => (nomatch h), fun h => ?_⟩
      rw [unnumbered, (numberGenerations_members ht).mpr ⟨h.1, rfl⟩] at hnumbered
      cases hnumbered
  | ok generations =>
      obtain ⟨hnumbers, rfl⟩ := (numberGenerations_members ht).mp hnumbered
      exact ⟨fun h => ⟨hnumbers, (Except.ok.inj h).symm⟩, fun h => congrArg Except.ok h.2.symm⟩

/-- **Which documents describe a catalog**, and which one: the ids of every table are different
numbers. -/
theorem ofDocument_eq_ok_iff {c : Catalog} (hv : IsDocument v) :
    ofDocument v = .ok c ↔
      (∀ t ∈ v.members, NumbersGenerations t.2) ∧ c = described v := by
  have hread : Json.entries? (Json.entries? generationOf?) (collapse v) =
      some (v.members.map unnumbered) :=
    entries?_collapse hv fun table htable =>
      entries?_collapse htable fun g hg => generationOf?_collapse hg
  have hall : (v.members.map unnumbered).mapM numberTable = .ok c.tables ↔
      (∀ t ∈ v.members, NumbersGenerations t.2) ∧
        c.tables = v.members.map fun t => (t.1, describedTable t.2) :=
    mapM_map_eq_ok_iff fun t ht numbered => numberTable_unnumbered (hv.of_mem ht)
  have hdocument : ofDocument v = ((v.members.map unnumbered).mapM numberTable).bind
      fun numbered => .ok ⟨numbered⟩ := by
    rw [ofDocument, hread]
    rfl
  rw [hdocument]
  cases hnumbered : (v.members.map unnumbered).mapM numberTable with
  | error e =>
      refine ⟨fun h => (nomatch h), fun h => ?_⟩
      rw [hall.mpr ⟨h.1, congrArg tables h.2⟩] at hnumbered
      cases hnumbered
  | ok numbered =>
      rw [hnumbered] at hall
      refine ⟨fun h => ?_, fun h => ?_⟩
      · obtain rfl := Except.ok.inj h
        obtain ⟨hnumbers, htables⟩ := hall.mp rfl
        exact ⟨hnumbers, congrArg Catalog.mk htables⟩
      · rw [Except.ok.inj (hall.mpr ⟨h.1, congrArg tables h.2⟩)]
        rfl

/-! ### The largest number -/

variable {α : Type} {entries : List (ℕ × α)} {e : ℕ × α}

theorem greatest?_eq_none_iff : greatest? entries = none ↔ entries = [] := by
  cases entries with
  | nil => simp [greatest?]
  | cons e entries =>
      rw [greatest?]
      split
      · simp
      · split <;> simp

theorem of_greatest?_eq_some (h : greatest? entries = some e) :
    e ∈ entries ∧ ∀ f ∈ entries, f.1 ≤ e.1 := by
  induction entries generalizing e with
  | nil => cases h
  | cons first entries ih =>
      rw [greatest?] at h
      rw [List.forall_mem_cons]
      cases hrest : greatest? entries with
      | none =>
          rw [hrest] at h
          obtain rfl := Option.some.inj h
          rw [greatest?_eq_none_iff.mp hrest]
          exact ⟨List.mem_cons_self, Nat.le_refl _, fun f hf => absurd hf List.not_mem_nil⟩
      | some f =>
          obtain ⟨hf, hmax⟩ := ih hrest
          rw [hrest] at h
          dsimp only at h
          split at h
          · obtain rfl := Option.some.inj h
            exact ⟨List.mem_cons_of_mem _ hf, by assumption, hmax⟩
          · rename_i hlt
            obtain rfl := Option.some.inj h
            exact ⟨List.mem_cons_self, Nat.le_refl _, fun g hg =>
              Nat.le_trans (hmax g hg) (Nat.le_of_lt (Nat.not_le.mp hlt))⟩

/-- Among entries of different numbers the one with the largest number is found. -/
theorem greatest?_eq_some_iff (hnumbers : (entries.map Prod.fst).Nodup) :
    greatest? entries = some e ↔ e ∈ entries ∧ ∀ f ∈ entries, f.1 ≤ e.1 := by
  refine ⟨of_greatest?_eq_some, fun ⟨he, hmax⟩ => ?_⟩
  cases hfound : greatest? entries with
  | none =>
      rw [greatest?_eq_none_iff.mp hfound] at he
      exact absurd he List.not_mem_nil
  | some f =>
      obtain ⟨hf, hmax'⟩ := of_greatest?_eq_some hfound
      exact congrArg some (List.inj_on_of_nodup_map hnumbers hf he
        (Nat.le_antisymm (hmax f hf) (hmax' e he)))

/-! ### Conditions -/

/-- A document has a generation of a table. -/
def HasGeneration (v : Json) (name id : String) (g : Json) : Prop :=
  ∃ table, (name, table) ∈ v.members ∧ (id, g) ∈ table.members

/-- A generation lists a partition. -/
def Lists (g : Json) (partition : String) : Prop :=
  ∃ partitions, ("partitions", partitions) ∈ g.members ∧ ∃ x, (partition, x) ∈ partitions.members

theorem mem_partitionNames {g : Json} (hg : g.IsObjectOf P) :
    partition ∈ partitionNames g ↔ Lists g partition := by
  rw [partitionNames]
  constructor
  · intro h
    cases hpartitions : g.members.lookup "partitions" with
    | none =>
        rw [hpartitions] at h
        cases h
    | some x =>
        rw [hpartitions] at h
        obtain ⟨⟨_, y⟩, hy, rfl⟩ := List.mem_map.mp h
        exact ⟨x, (lookup_eq_some_iff hg.pairwise_members).mp hpartitions, y, hy⟩
  · rintro ⟨x, hx, y, hy⟩
    rw [(lookup_eq_some_iff hg.pairwise_members).mpr hx]
    exact List.mem_map_of_mem hy

/-- A generation of a table has the largest number. -/
def IsLatest (v : Json) (name id : String) (g : Json) : Prop :=
  HasGeneration v name id g ∧
    ∀ id' g', HasGeneration v name id' g' → idNumber id' ≤ idNumber id

theorem hasGeneration_iff (hnames : v.members.Pairwise fun a b => a.1 ≠ b.1)
    (htable : (name, table) ∈ v.members) {g : Json} :
    HasGeneration v name id g ↔ (id, g) ∈ table.members := by
  refine ⟨fun ⟨table', htable', hg⟩ => ?_, fun hg => ⟨table, htable, hg⟩⟩
  have hlookup := (lookup_eq_some_iff hnames).mpr htable
  rw [(lookup_eq_some_iff hnames).mpr htable'] at hlookup
  rwa [← Option.some.inj hlookup]

theorem HasGeneration.isGeneration (hv : IsDocument v) {g : Json}
    (h : HasGeneration v name id g) : IsGeneration g := by
  obtain ⟨table, htable, hg⟩ := h
  exact (hv.of_mem htable).of_mem hg

section Described

variable (hv : IsDocument v) (hnumbers : ∀ t ∈ v.members, NumbersGenerations t.2)

include hv hnumbers

/-- The generation that counts is the one with the largest number. -/
theorem latest?_described {latest : ℕ × Generation} :
    (described v).latest? name = some latest ↔
      ∃ id g, IsLatest v name id g ∧ latest = (idNumber id, ⟨partitionNames g⟩) := by
  have hnames := hv.pairwise_members
  rw [latest?, described, lookup_map_snd]
  cases hlookup : v.members.lookup name with
  | none =>
      refine ⟨fun h => (nomatch h), fun ⟨id, g, ⟨⟨table, htable, _⟩, _⟩, _⟩ => ?_⟩
      rw [(lookup_eq_some_iff hnames).mpr htable] at hlookup
      cases hlookup
  | some table =>
      have htable := (lookup_eq_some_iff hnames).mp hlookup
      have hdistinct : ((describedTable table).map Prod.fst).Nodup := by
        rw [describedTable, List.map_map]
        exact (hnumbers _ htable).nodup (hv.of_mem htable)
      show greatest? (describedTable table) = some latest ↔ _
      rw [greatest?_eq_some_iff hdistinct, describedTable, List.forall_mem_map]
      simp only [IsLatest, hasGeneration_iff hnames htable]
      constructor
      · rintro ⟨hlatest, hmax⟩
        obtain ⟨⟨id, g⟩, hg, rfl⟩ := List.mem_map.mp hlatest
        exact ⟨id, g, ⟨hg, fun id' g' hg' => hmax _ hg'⟩, rfl⟩
      · rintro ⟨id, g, ⟨hg, hmax⟩, rfl⟩
        exact ⟨List.mem_map.mpr ⟨_, hg, rfl⟩, fun m hm => hmax m.1 m.2 hm⟩

/-- **The generation with the largest number says what is served.** -/
theorem served_described : CatalogCondition.served (described v) name partition = true ↔
    ∃ id g, IsLatest v name id g ∧ Lists g partition := by
  rw [CatalogCondition.served, Option.any_eq_true]
  constructor
  · rintro ⟨latest, hlatest, hserves⟩
    obtain ⟨id, g, hg, rfl⟩ := (latest?_described hv hnumbers).mp hlatest
    exact ⟨id, g, hg, (mem_partitionNames (hg.1.isGeneration hv).isObject).mp
      (List.contains_iff_mem.mp hserves)⟩
  · rintro ⟨id, g, hg, hlists⟩
    exact ⟨_, (latest?_described hv hnumbers).mpr ⟨id, g, hg, rfl⟩, List.contains_iff_mem.mpr
      ((mem_partitionNames (hg.1.isGeneration hv).isObject).mpr hlists)⟩

end Described

theorem hasTable_described :
    (described v).hasTable name = true ↔ ∃ table, (name, table) ∈ v.members := by
  rw [hasTable, described, List.any_map, List.any_eq_true]
  constructor
  · rintro ⟨⟨_, table⟩, htable, heq⟩
    obtain rfl := beq_iff_eq.mp heq
    exact ⟨table, htable⟩
  · rintro ⟨table, htable⟩
    exact ⟨_, htable, beq_self_eq_true _⟩

/-! ### The order of members -/

theorem NumbersGenerations.reordered (h : NumbersGenerations v) (hvw : Reordered v w) :
    NumbersGenerations w where
  numbers id g hg := by
    obtain ⟨g', hg', -⟩ := hvw.symm.exists_member hg
    exact h.numbers id g' hg'
  inj id g id' g' hg hg' heq := by
    obtain ⟨x, hx, -⟩ := hvw.symm.exists_member hg
    obtain ⟨x', hx', -⟩ := hvw.symm.exists_member hg'
    exact h.inj id x id' x' hx hx' heq

theorem HasGeneration.reordered {g : Json} (h : HasGeneration v name id g)
    (hvw : Reordered v w) : ∃ g', HasGeneration w name id g' ∧ Reordered g g' := by
  obtain ⟨table, htable, hg⟩ := h
  obtain ⟨table', htable', hreordered⟩ := hvw.exists_member htable
  obtain ⟨g', hg', hgg'⟩ := hreordered.exists_member hg
  exact ⟨g', ⟨table', htable', hg'⟩, hgg'⟩

theorem IsLatest.reordered {g : Json} (h : IsLatest v name id g) (hvw : Reordered v w) :
    ∃ g', IsLatest w name id g' ∧ Reordered g g' := by
  obtain ⟨g', hg', hgg'⟩ := h.1.reordered hvw
  refine ⟨g', ⟨hg', fun id' x hx => ?_⟩, hgg'⟩
  obtain ⟨x', hx', -⟩ := hx.reordered hvw.symm
  exact h.2 id' x' hx'

theorem Lists.reordered (h : Lists v partition) (hvw : Reordered v w) : Lists w partition := by
  obtain ⟨partitions, hpartitions, x, hx⟩ := h
  obtain ⟨partitions', hpartitions', hreordered⟩ := hvw.exists_member hpartitions
  obtain ⟨x', hx', -⟩ := hreordered.exists_member hx
  exact ⟨partitions', hpartitions', x', hx'⟩

/-- **A reordered document** describes a catalog if it did before, and the same conditions hold. -/
theorem holds_reordered (hv : IsDocument v) (hvw : Reordered v w) {c : Catalog}
    (hc : ofDocument v = .ok c) :
    ∃ d, ofDocument w = .ok d ∧
      ∀ condition : CatalogCondition, condition.holds (some d) = condition.holds (some c) := by
  have hw := hv.reordered hvw
  obtain ⟨hnumbers, rfl⟩ := (ofDocument_eq_ok_iff hv).mp hc
  have hnumbers' : ∀ t ∈ w.members, NumbersGenerations t.2 := by
    rintro ⟨name, table⟩ htable
    obtain ⟨table', htable', hreordered⟩ := hvw.symm.exists_member htable
    exact (hnumbers _ htable').reordered hreordered.symm
  have hserved : ∀ name partition, CatalogCondition.served (described w) name partition =
      CatalogCondition.served (described v) name partition := by
    intro name partition
    rw [Bool.eq_iff_iff, served_described hw hnumbers', served_described hv hnumbers]
    constructor
    · rintro ⟨id, g, hg, hlists⟩
      obtain ⟨g', hg', hgg'⟩ := hg.reordered hvw.symm
      exact ⟨id, g', hg', hlists.reordered hgg'⟩
    · rintro ⟨id, g, hg, hlists⟩
      obtain ⟨g', hg', hgg'⟩ := hg.reordered hvw
      exact ⟨id, g', hg', hlists.reordered hgg'⟩
  have htable : ∀ name, (described w).hasTable name = (described v).hasTable name := by
    intro name
    rw [Bool.eq_iff_iff, hasTable_described, hasTable_described]
    constructor
    · rintro ⟨table, htable⟩
      obtain ⟨table', htable', -⟩ := hvw.symm.exists_member htable
      exact ⟨table', htable'⟩
    · rintro ⟨table, htable⟩
      obtain ⟨table', htable', -⟩ := hvw.exists_member htable
      exact ⟨table', htable'⟩
  refine ⟨described w, (ofDocument_eq_ok_iff hw).mpr ⟨hnumbers', rfl⟩, fun condition => ?_⟩
  cases condition with
  | presence name partition => exact hserved name partition
  | absence name partition =>
      cases partition with
      | none => exact congrArg not (htable name)
      | some partition => exact congrArg not (hserved name partition)

/-! ### All documents -/

/-- **What a document of the catalog's shape says.**

* It describes a catalog exactly if in every table the ids of the generations are numbers of 64 bits
  written in digits, and no two of them are the same number.
* A partition is present exactly if the generation of its table with the largest number lists it,
  and absent exactly if it is not present.
* A table is absent exactly if the document does not name it, and then all its partitions are.
* All of this is the same for every order of the members.

Without a catalog no condition holds. -/
theorem conditions_by_largest_generation (v : Json) (hv : IsDocument v) :
    ((∃ c, ofDocument v = .ok c) ↔ ∀ t ∈ v.members, NumbersGenerations t.2) ∧
    (∀ c, ofDocument v = .ok c → ∀ name,
      (∀ partition, (CatalogCondition.presence name partition).holds (some c) = true ↔
        ∃ id g, IsLatest v name id g ∧ Lists g partition) ∧
      (∀ partition, (CatalogCondition.absence name (some partition)).holds (some c) = true ↔
        ¬ (CatalogCondition.presence name partition).holds (some c) = true) ∧
      ((CatalogCondition.absence name none).holds (some c) = true ↔
        ∀ table, (name, table) ∉ v.members) ∧
      ((CatalogCondition.absence name none).holds (some c) = true →
        ∀ partition, (CatalogCondition.absence name (some partition)).holds (some c) = true)) ∧
    (∀ w, Reordered v w →
      ((∃ d, ofDocument w = .ok d) ↔ ∃ c, ofDocument v = .ok c) ∧
      ∀ c d, ofDocument v = .ok c → ofDocument w = .ok d →
        ∀ condition : CatalogCondition, condition.holds (some d) = condition.holds (some c)) ∧
    ∀ condition : CatalogCondition, condition.holds none = false := by
  refine ⟨?succeeds, ?answers, ?reordered, fun condition => rfl⟩
  case succeeds =>
    exact ⟨fun ⟨c, hc⟩ => ((ofDocument_eq_ok_iff hv).mp hc).1,
      fun hnumbers => ⟨_, (ofDocument_eq_ok_iff hv).mpr ⟨hnumbers, rfl⟩⟩⟩
  case answers =>
    intro c hc name
    obtain ⟨hnumbers, rfl⟩ := (ofDocument_eq_ok_iff hv).mp hc
    have habsent : ∀ partition,
        (CatalogCondition.absence name (some partition)).holds (some (described v)) = true ↔
          ¬ (CatalogCondition.presence name partition).holds (some (described v)) = true :=
      fun partition => by rw [CatalogCondition.holds, CatalogCondition.holds, Bool.not_eq_true',
        Bool.not_eq_true]
    have hunnamed : (CatalogCondition.absence name none).holds (some (described v)) = true ↔
        ∀ table, (name, table) ∉ v.members := by
      rw [CatalogCondition.holds, Bool.not_eq_true', ← Bool.not_eq_true, hasTable_described,
        not_exists]
    refine ⟨fun partition => served_described hv hnumbers, habsent, hunnamed, ?_⟩
    intro hnone partition
    rw [habsent]
    intro hserved
    obtain ⟨id, g, ⟨⟨table, htable, -⟩, -⟩, -⟩ := (served_described hv hnumbers).mp hserved
    exact hunnamed.mp hnone table htable
  case reordered =>
    intro w hvw
    refine ⟨⟨fun ⟨d, hd⟩ => ?_, fun ⟨c, hc⟩ => ?_⟩, fun c d hc hd condition => ?_⟩
    · obtain ⟨c, hc, -⟩ := holds_reordered (hv.reordered hvw) hvw.symm hd
      exact ⟨c, hc⟩
    · obtain ⟨d, hd, -⟩ := holds_reordered hv hvw hc
      exact ⟨d, hd⟩
    · obtain ⟨d', hd', hholds⟩ := holds_reordered hv hvw hc
      obtain rfl := Except.ok.inj (hd.symm.trans hd')
      exact hholds condition

/-- A table with generations that are in one order by text and in the other by number, a table
without generations, and both in another order. -/
theorem conditions_of_two_generations :
    let nine : Json := .record [("partitions", .record [("0_65535", .record [])])]
    let ten : Json := .record [("note", .null), ("partitions", .record [("0_32767", .record [])])]
    let orders : Json := .record [("9", nine), ("010", ten)]
    let v : Json := .record [("orders", orders), ("empty", .record [])]
    let w : Json := .record [("empty", .record []), ("orders", orders)]
    IsDocument v ∧ Reordered v w ∧ ∃ c d, ofDocument v = .ok c ∧ ofDocument w = .ok d ∧
      (CatalogCondition.presence "orders" "0_32767").holds (some d) = true ∧
      (CatalogCondition.absence "orders" (some "0_65535")).holds (some d) = true ∧
      (CatalogCondition.absence "users" none).holds (some d) = true ∧
      (CatalogCondition.absence "users" (some "0_65535")).holds (some d) = true := by
  intro nine ten orders v w
  have hpartitions : ∀ name, (Json.record [(name, .record [])]).IsObjectOf fun _ => True :=
    fun name => ⟨_, rfl, by simp, by simp⟩
  have hnine : IsGeneration nine :=
    ⟨⟨_, rfl, by decide, by simp⟩, by simpa [nine] using hpartitions "0_65535"⟩
  have hten : IsGeneration ten :=
    ⟨⟨_, rfl, by decide, by simp⟩, by simpa [ten] using hpartitions "0_32767"⟩
  have hv : IsDocument v := by
    refine ⟨_, rfl, by decide, ?_⟩
    simp only [List.map_cons, List.map_nil, List.forall_mem_cons, Option.isSome_some, true_and]
    exact ⟨⟨_, rfl, by decide, by simpa using ⟨hnine, hten⟩⟩, ⟨[], rfl, by simp, by simp⟩, by simp⟩
  have hvw : Reordered v w := .listed (List.Perm.swap _ _ _)
  obtain ⟨hsucceeds, hanswers, hreordered, -⟩ := conditions_by_largest_generation v hv
  have horders : ∀ id g, (id, g) ∈ orders.members ↔ id = "9" ∧ g = nine ∨ id = "010" ∧ g = ten := by
    simp [orders]
  have hlt : idNumber "9" < idNumber "010" := by decide
  have hnumbers : ∀ t ∈ v.members, NumbersGenerations t.2 := by
    rw [Json.members_record, List.forall_mem_cons, List.forall_mem_singleton]
    refine ⟨⟨fun id g hg => ?_, fun id g id' g' hg hg' heq => ?_⟩, by simp, by simp⟩
    · rcases (horders id g).mp hg with ⟨rfl, -⟩ | ⟨rfl, -⟩
      · exact ⟨by decide, List.all_eq_true.mp (by decide), by decide⟩
      · exact ⟨by decide, List.all_eq_true.mp (by decide), by decide⟩
    · rcases (horders id g).mp hg with ⟨rfl, -⟩ | ⟨rfl, -⟩ <;>
        rcases (horders id' g').mp hg' with ⟨rfl, -⟩ | ⟨rfl, -⟩ <;> simp_all
  obtain ⟨c, hc⟩ := hsucceeds.mpr hnumbers
  obtain ⟨d, hd⟩ := (hreordered w hvw).1.mpr ⟨c, hc⟩
  have hsame := (hreordered w hvw).2 c d hc hd
  have hlatest : ∀ id g, IsLatest v "orders" id g ↔ id = "010" ∧ g = ten := by
    intro id g
    have hgeneration : ∀ id g, HasGeneration v "orders" id g ↔ (id, g) ∈ orders.members :=
      fun id g => hasGeneration_iff hv.pairwise_members (by simp [v])
    simp only [IsLatest, hgeneration, horders]
    constructor
    · rintro ⟨⟨rfl, -⟩ | hten, hmax⟩
      · exact absurd hlt (Nat.not_lt.mpr (hmax "010" ten (Or.inr ⟨rfl, rfl⟩)))
      · exact hten
    · rintro ⟨rfl, rfl⟩
      refine ⟨Or.inr ⟨rfl, rfl⟩, ?_⟩
      rintro id' g' (⟨rfl, -⟩ | ⟨rfl, -⟩)
      · exact Nat.le_of_lt hlt
      · exact Nat.le_refl _
  refine ⟨hv, hvw, c, d, hc, hd, ?_⟩
  rw [hsame, hsame, hsame, hsame]
  obtain ⟨hpresent, habsent, -, -⟩ := hanswers c hc "orders"
  obtain ⟨-, -, hunnamed, hall⟩ := hanswers c hc "users"
  have husers := hunnamed.mpr (by simp [v])
  refine ⟨(hpresent _).mpr ⟨"010", ten, (hlatest _ _).mpr ⟨rfl, rfl⟩, ?_⟩, (habsent _).mpr ?_,
    husers, hall husers _⟩
  · exact ⟨.record [("0_32767", .record [])], by simp [ten], .record [], by simp⟩
  · rw [hpresent]
    rintro ⟨id, g, hg, x, hx, y, hy⟩
    obtain ⟨rfl, rfl⟩ := (hlatest id g).mp hg
    obtain rfl : x = .record [("0_32767", .record [])] := by simpa [ten] using hx
    simp at hy

end Catalog

end ShardKeeper
