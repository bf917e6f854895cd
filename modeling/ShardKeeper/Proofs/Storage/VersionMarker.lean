import Mathlib.Data.List.Basic
import ShardKeeper.Proofs.Text.Decimal
import ShardKeeper.Storage.VersionMarker

/-!
# The newest marker of a directory

A directory lists names in any order, and among them may be any that are no names
of markers.  Which marker counts as the newest is decided by the numbers in the
names alone.

## Main definitions

* `IsNumbered` — a name that is a number behind a given text.
* `IsGreatest` — the greatest number in some names, of those that a version can be.
* `VersionMarker.Legible` — a directory whose newest marker is where its number says.

## Main results

* `numberAfter?_eq_some_iff`, `greatestNumber?_eq_some_iff` — which numbers are found.
* `VersionMarker.newest_eq` — what is read once they are.
* `VersionMarker.newest_by_greatest_number` — which marker that is, in whatever order names are
  listed.
* `VersionMarker.version_too_great` — names whose number no version can be, or is written with a
  needless zero.
-/

namespace ShardKeeper

/-! ### Numbers in names -/

section Numbers

variable {lead name : String} {names names' : List String} {n m : Nat} {version : Int}

/-- A name that is `lead` and behind it a number, in one or more decimal digits. -/
def IsNumbered (lead : String) (n : Nat) (name : String) : Prop :=
  ∃ digits : List Char, Decimal.isNumeral digits = true ∧ Decimal.value digits = n ∧
    name.toList = lead.toList ++ digits

/-- A number that a version can be. -/
def IsVersion (n : Nat) : Prop := (n : Int) ≤ Decimal.maxInt64

theorem fitsInt64_iff : Decimal.fitsInt64 (n : Int) = true ↔ IsVersion n := by
  have hleast : Decimal.minInt64 ≤ (n : Int) := Int.le_trans (by decide) (Int.natCast_nonneg n)
  simp [Decimal.fitsInt64, IsVersion, hleast]

theorem nat?_eq_some_iff {digits : List Char} :
    Decimal.nat? digits = some n ↔ Decimal.isNumeral digits = true ∧ Decimal.value digits = n := by
  rw [Decimal.nat?]
  split <;> simp_all

/-- Which number a name has. -/
theorem numberAfter?_eq_some_iff :
    numberAfter? lead name = some version ↔
      ∃ n : Nat, version = n ∧ IsVersion n ∧ IsNumbered lead n name := by
  rw [numberAfter?]
  constructor
  · intro h
    split at h
    · rename_i hlead
      obtain ⟨digits, hdigits⟩ := List.isPrefixOf_iff_prefix.mp hlead
      rw [← hdigits, List.drop_left] at h
      split at h
      · rename_i n hn
        split at h
        · rename_i hfits
          obtain ⟨hnumeral, hvalue⟩ := nat?_eq_some_iff.mp hn
          exact ⟨n, (Option.some.inj h).symm, fitsInt64_iff.mp hfits, digits, hnumeral, hvalue,
            hdigits.symm⟩
        · cases h
      · cases h
    · cases h
  · rintro ⟨n, rfl, hversion, digits, hnumeral, hvalue, hname⟩
    have hlead : lead.toList.isPrefixOf name.toList = true :=
      List.isPrefixOf_iff_prefix.mpr ⟨digits, hname.symm⟩
    have hnumber : Decimal.nat? (name.toList.drop lead.toList.length) = some n := by
      rw [hname, List.drop_left]
      exact nat?_eq_some_iff.mpr ⟨hnumeral, hvalue⟩
    rw [if_pos hlead, hnumber]
    exact if_pos (fitsInt64_iff.mpr hversion)

/-- The plain name of a number: without a needless zero. -/
theorem isNumbered_toString (lead : String) (n : Nat) : IsNumbered lead n (lead ++ toString n) := by
  refine ⟨Decimal.ofNat n, ?_, Decimal.value_ofNat n, ?_⟩
  · rw [Decimal.isNumeral, Bool.and_eq_true, Bool.not_eq_true', List.isEmpty_eq_false_iff,
      List.all_eq_true]
    exact ⟨Decimal.ofNat_ne_nil n, fun c hc => Decimal.isDigit_of_mem_ofNat hc⟩
  · rw [String.toList_append, Nat.toString_eq_ofList_toDigits, String.toList_ofList]
    rfl

/-- The greatest number in some names, of those that a version can be. -/
structure IsGreatest (lead : String) (names : List String) (n : Nat) : Prop where
  isVersion : IsVersion n
  listed : ∃ name ∈ names, IsNumbered lead n name
  greatest : ∀ name ∈ names, ∀ m, IsVersion m → IsNumbered lead m name → m ≤ n

theorem IsGreatest.unique (hn : IsGreatest lead names n) (hm : IsGreatest lead names m) :
    n = m := by
  obtain ⟨name, hmem, hnumbered⟩ := hn.listed
  obtain ⟨name', hmem', hnumbered'⟩ := hm.listed
  exact Nat.le_antisymm (hm.greatest name hmem n hn.isVersion hnumbered)
    (hn.greatest name' hmem' m hm.isVersion hnumbered')

/-- Only the names with a number that a version can be decide which one is the greatest. -/
theorem IsGreatest.congr
    (h : ∀ name n, IsVersion n → IsNumbered lead n name → (name ∈ names' ↔ name ∈ names))
    (hn : IsGreatest lead names n) : IsGreatest lead names' n := by
  refine ⟨hn.isVersion, ?_, fun name hmem m hm hnumbered => ?_⟩
  · obtain ⟨name, hmem, hnumbered⟩ := hn.listed
    exact ⟨name, (h name n hn.isVersion hnumbered).mpr hmem, hnumbered⟩
  · exact hn.greatest name ((h name m hm hnumbered).mp hmem) m hm hnumbered

theorem mem_filterMap_numberAfter? :
    version ∈ names.filterMap (numberAfter? lead) ↔
      ∃ n : Nat, version = n ∧ IsVersion n ∧ ∃ name ∈ names, IsNumbered lead n name := by
  rw [List.mem_filterMap]
  constructor
  · rintro ⟨name, hmem, hnumber⟩
    obtain ⟨n, hn, hversion, hnumbered⟩ := numberAfter?_eq_some_iff.mp hnumber
    exact ⟨n, hn, hversion, name, hmem, hnumbered⟩
  · rintro ⟨n, hn, hversion, name, hmem, hnumbered⟩
    exact ⟨name, hmem, numberAfter?_eq_some_iff.mpr ⟨n, hn, hversion, hnumbered⟩⟩

/-- **The greatest number is found** in whatever order the names come. -/
theorem greatestNumber?_eq_some_iff :
    greatestNumber? lead names = some version ↔
      ∃ n : Nat, version = n ∧ IsGreatest lead names n := by
  rw [greatestNumber?, List.max?_eq_some_iff, mem_filterMap_numberAfter?]
  constructor
  · rintro ⟨⟨n, rfl, hversion, hlisted⟩, hgreatest⟩
    refine ⟨n, rfl, hversion, hlisted, fun name hmem m hm hnumbered => ?_⟩
    exact Int.ofNat_le.mp
      (hgreatest m (mem_filterMap_numberAfter?.mpr ⟨m, rfl, hm, name, hmem, hnumbered⟩))
  · rintro ⟨n, rfl, hn⟩
    refine ⟨⟨n, rfl, hn.isVersion, hn.listed⟩, fun other hother => ?_⟩
    obtain ⟨m, rfl, hm, name, hmem, hnumbered⟩ := mem_filterMap_numberAfter?.mp hother
    exact Int.ofNat_le.mpr (hn.greatest name hmem m hm hnumbered)

/-- No number is found where no name has one that a version can be. -/
theorem greatestNumber?_eq_none_iff :
    greatestNumber? lead names = none ↔
      ∀ name ∈ names, ∀ n, IsNumbered lead n name → ¬IsVersion n := by
  rw [greatestNumber?, List.max?_eq_none_iff, List.eq_nil_iff_forall_not_mem]
  constructor
  · intro h name hmem n hnumbered hversion
    exact h n (mem_filterMap_numberAfter?.mpr ⟨n, rfl, hversion, name, hmem, hnumbered⟩)
  · intro h version hmem
    obtain ⟨n, -, hversion, name, hname, hnumbered⟩ := mem_filterMap_numberAfter?.mp hmem
    exact h name hname n hnumbered hversion

end Numbers

namespace VersionMarker

variable {tree : FileTree} {directory : Path} {names : List String} {version : Int}

/-! ### The marker with the greatest number -/

/-- A directory that lists some names, with a marker that can be read where the greatest number
among them says. -/
structure Legible (tree : FileTree) (directory : Path) (names : List String) : Prop where
  listed : tree.list directory = .ok names
  /-- The greatest number has a name without a needless zero. -/
  plain : ∀ n, IsGreatest lead names n → lead ++ toString n ∈ names
  readable : ∀ n, IsGreatest lead names n → ∃ bytes timestamp,
    tree.read (path directory n) = .ok bytes ∧ timestampOfBytes? bytes = some timestamp

theorem newest_of_none (hlist : tree.list directory = .ok names)
    (hnone : greatestNumber? lead names = none) : newest tree directory = .ok none := by
  have hentry : greatestEntry tree directory lead = .ok none := by
    rw [greatestEntry, hlist]
    exact congrArg Except.ok hnone
  rw [newest, hentry]
  rfl

/-- What is read once the greatest number is found. -/
theorem newest_eq (hlist : tree.list directory = .ok names)
    (hgreatest : greatestNumber? lead names = some version) {bytes : Bytes}
    {timestamp : Option Int} (hread : tree.read (path directory version) = .ok bytes)
    (htimestamp : timestampOfBytes? bytes = some timestamp) :
    newest tree directory = .ok (some (ofMicros version timestamp)) := by
  have hentry : greatestEntry tree directory lead = .ok (some version) := by
    rw [greatestEntry, hlist]
    exact congrArg Except.ok hgreatest
  rw [newest, hentry]
  simp only [bind, Except.bind, hread, htimestamp, pure, Except.pure]

/-- A directory whose greatest number has a plain name, and a marker that can be read. -/
theorem legible_of_greatestNumber {n : Nat} (hlist : tree.list directory = .ok names)
    (hgreatest : greatestNumber? lead names = some (n : Int)) (hplain : lead ++ toString n ∈ names)
    {bytes : Bytes} {timestamp : Option Int} (hread : tree.read (path directory n) = .ok bytes)
    (htimestamp : timestampOfBytes? bytes = some timestamp) : Legible tree directory names := by
  obtain ⟨k, hk, hgreatest⟩ := greatestNumber?_eq_some_iff.mp hgreatest
  obtain rfl : n = k := Int.ofNat.inj hk
  refine ⟨hlist, fun m hm => ?_, fun m hm => ?_⟩
  · rwa [hm.unique hgreatest]
  · rw [hm.unique hgreatest]
    exact ⟨bytes, timestamp, hread, htimestamp⟩

/-- **The newest marker is the one with the greatest number**, among all entries whose number is one
that a version can be, and there is none only if no entry has such a number.  It is read from an
entry that the directory lists.  Neither the order of the entries nor what else they are counts, so
every other directory with the same marker entries has the same newest marker. -/
theorem newest_by_greatest_number (tree : FileTree) (directory : Path) (names : List String)
    (h : Legible tree directory names) :
    (∃ found, newest tree directory = .ok found ∧
      (found = none ↔ ∀ name ∈ names, ∀ n, IsNumbered lead n name → ¬IsVersion n) ∧
      ∀ marker, found = some marker ↔ ∃ n bytes timestamp, IsGreatest lead names n ∧
        lead ++ toString n ∈ names ∧
        tree.read (directory.join (lead ++ toString n)) = .ok bytes ∧
        timestampOfBytes? bytes = some timestamp ∧
        marker = ⟨n, timestamp.map (Int.tdiv · 1000)⟩) ∧
    ∀ (tree' : FileTree) (directory' : Path) (names' : List String),
      tree'.list directory' = .ok names' →
      (∀ name n, IsVersion n → IsNumbered lead n name →
        (name ∈ names' ↔ name ∈ names) ∧
          (name ∈ names → tree'.read (directory'.join name) = tree.read (directory.join name))) →
      newest tree' directory' = newest tree directory := by
  cases hfound : greatestNumber? lead names with
  | none =>
      have hnone := greatestNumber?_eq_none_iff.mp hfound
      have hnewest := newest_of_none h.listed hfound
      refine ⟨⟨none, hnewest, iff_of_true rfl hnone, fun marker => ?_⟩, ?_⟩
      · refine iff_of_false nofun ?_
        rintro ⟨n, -, -, hn, -⟩
        obtain ⟨name, hmem, hnumbered⟩ := hn.listed
        exact hnone name hmem n hnumbered hn.isVersion
      · intro tree' directory' names' hlist hsame
        rw [hnewest, newest_of_none hlist]
        refine greatestNumber?_eq_none_iff.mpr fun name hmem n hnumbered hversion => ?_
        exact hnone name ((hsame name n hversion hnumbered).1.mp hmem) n hnumbered hversion
  | some version =>
      obtain ⟨n, rfl, hn⟩ := greatestNumber?_eq_some_iff.mp hfound
      obtain ⟨bytes, timestamp, hread, htimestamp⟩ := h.readable n hn
      have hnewest := newest_eq h.listed hfound hread htimestamp
      refine ⟨⟨_, hnewest, iff_of_false nofun fun hnone => ?_, fun marker => ?_⟩, ?_⟩
      · obtain ⟨name, hmem, hnumbered⟩ := hn.listed
        exact hnone name hmem n hnumbered hn.isVersion
      · constructor
        · intro hmarker
          exact ⟨n, bytes, timestamp, hn, h.plain n hn, hread, htimestamp,
            (Option.some.inj hmarker).symm⟩
        · rintro ⟨m, bytes', timestamp', hm, -, hread', htimestamp', rfl⟩
          obtain rfl := hn.unique hm
          obtain rfl := Except.ok.inj (hread.symm.trans hread')
          obtain rfl := Option.some.inj (htimestamp.symm.trans htimestamp')
          rfl
      · intro tree' directory' names' hlist hsame
        have hn' : IsGreatest lead names' n :=
          hn.congr fun name m hm hnumbered => (hsame name m hm hnumbered).1
        have hread' : tree'.read (path directory' n) = .ok bytes := by
          rw [← hread]
          exact (hsame _ n hn.isVersion (isNumbered_toString lead n)).2 (h.plain n hn)
        rw [hnewest]
        exact newest_eq hlist (greatestNumber?_eq_some_iff.mpr ⟨n, rfl, hn'⟩) hread' htimestamp

/-- Two directories with the same markers, listed in different orders and between other names, two
of them with numbers that no version can be. -/
theorem newest_by_greatest_number_among_others :
    let marker := Utf8.ofString "\x7b\"timestamp\": 9000999, \"segments\": []\x7d"
    let tree : FileTree :=
      ⟨[(["d"], .directory), (["d", "version.9"], .file (Utf8.ofString "\x7b\x7d")),
        (["d", "version.10"], .file marker), (["d", "version.9223372036854775808"], .directory),
        (["e"], .directory), (["e", "version.99999999999999999999"], .directory),
        (["e", "version.10"], .file marker), (["e", "version.-11"], .directory),
        (["e", "version.9"], .file (Utf8.ofString "\x7b\x7d")),
        (["e", "version."], .directory)], []⟩
    Legible tree ⟨"d"⟩ ["version.9", "version.10", "version.9223372036854775808"] ∧
      newest tree ⟨"d"⟩ = .ok (some ⟨10, some 9000⟩) ∧
      newest tree ⟨"e"⟩ = .ok (some ⟨10, some 9000⟩) := by
  intro marker tree
  let names := ["version.9", "version.10", "version.9223372036854775808"]
  let names' :=
    ["version.99999999999999999999", "version.10", "version.-11", "version.9", "version."]
  have hten : greatestNumber? lead names = some ((10 : Nat) : Int) := by decide
  have hread : tree.read (path ⟨"d"⟩ (10 : Nat)) = .ok marker := by decide +kernel
  have htimestamp : timestampOfBytes? marker = some (some 9000999) := by decide +kernel
  have hlegible : Legible tree ⟨"d"⟩ names :=
    legible_of_greatestNumber (by decide +kernel) hten (by decide) hread htimestamp
  obtain ⟨⟨found, hfound, -, hmarker⟩, hsame⟩ := newest_by_greatest_number tree ⟨"d"⟩ names hlegible
  have hnewest : newest tree ⟨"d"⟩ = .ok (some ⟨10, some 9000⟩) := by
    obtain ⟨n, hn, hgreatest⟩ := greatestNumber?_eq_some_iff.mp hten
    obtain rfl : 10 = n := Int.ofNat.inj hn
    have hplain := hlegible.plain 10 hgreatest
    rw [hfound, (hmarker _).mpr ⟨10, marker, _, hgreatest, hplain, hread, htimestamp, rfl⟩]
    rfl
  refine ⟨hlegible, hnewest, ?_⟩
  rw [← hnewest]
  refine hsame tree ⟨"e"⟩ names' (by decide +kernel) fun name n hversion hnumbered => ?_
  have hnumber : (numberAfter? lead name).isSome = true := by
    rw [numberAfter?_eq_some_iff.mpr ⟨n, rfl, hversion, hnumbered⟩]
    rfl
  have hlisted : ∀ name ∈ names ++ names', (numberAfter? lead name).isSome = true →
      (name ∈ names' ↔ name ∈ names) ∧ (name ∈ names →
        tree.read ((⟨"e"⟩ : Path).join name) = tree.read ((⟨"d"⟩ : Path).join name)) := by
    decide +kernel
  by_cases hmem : name ∈ names ++ names'
  · exact hlisted name hmem hnumber
  · rw [List.mem_append, not_or] at hmem
    exact ⟨iff_of_false hmem.2 hmem.1, fun h => absurd h hmem.1⟩

/-- A name whose number is too great for a version is passed over, and one with a needless zero
leads to an entry that is not there. -/
theorem version_too_great :
    let tree : FileTree :=
      ⟨[(["d"], .directory),
        (["d", "version.5"], .file (Utf8.ofString "\x7b\"timestamp\":5000\x7d")),
        (["d", "version.9223372036854775808"], .file (Utf8.ofString "\x7b\"timestamp\":9000\x7d")),
        (["e"], .directory),
        (["e", "version.07"], .file (Utf8.ofString "\x7b\"timestamp\":7000\x7d"))],
        []⟩
    tree.list ⟨"d"⟩ = .ok ["version.5", "version.9223372036854775808"] ∧
      IsNumbered lead 9223372036854775808 "version.9223372036854775808" ∧
      newest tree ⟨"d"⟩ = .ok (some ⟨5, some 5⟩) ∧
      tree.list ⟨"e"⟩ = .ok ["version.07"] ∧ IsNumbered lead 7 "version.07" ∧
      newest tree ⟨"e"⟩ = .error (.inaccessible ⟨"e/version.7"⟩) := by
  intro tree
  refine ⟨by decide +kernel, isNumbered_toString lead 9223372036854775808, by decide +kernel,
    by decide +kernel, ⟨['0', '7'], by decide⟩, by decide +kernel⟩

end VersionMarker

end ShardKeeper
