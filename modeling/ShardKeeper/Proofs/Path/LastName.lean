import Mathlib.Data.List.TakeDrop
import Mathlib.Data.List.TakeWhile
import ShardKeeper.Proofs.Path.Steps

/-!
# The last name of a path

A path that never leads up ends in a name, whatever separators and steps that
lead nowhere stand behind it.  Its parent goes through the names in front of
that, and with another extension it ends in another name next to it.

## Main definitions

* `Path.EndsIn` — the last name of a path, and the text in front of it.

## Main results

* `Path.exists_endsIn` — a path ends in a name, or it goes through none.
* `Path.EndsIn.exists_parent` — the names of the parent.
* `Path.EndsIn.replaceExtension_cases` — what becomes of the last name with another extension.
-/

namespace ShardKeeper

namespace Path

/-! ### The ends of a text -/

/-- What is dropped from the front of a text are separators and steps that lead nowhere. -/
theorem dropIdle_suffix (text : List Char) : dropIdle text <:+ text := by
  fun_induction dropIdle text with
  | case1 rest ih => exact ih.trans (List.suffix_cons _ _)
  | case2 rest ih => exact ih.trans ⟨['.', '/'], rfl⟩
  | case3 => exact List.nil_suffix
  | case4 => exact List.suffix_refl _

/-- What is left of a text does not begin with anything that leads nowhere. -/
theorem dropIdle_spec (text : List Char) :
    (dropIdle text).head? ≠ some separator ∧ dropIdle text ≠ ['.'] ∧
      ∀ rest, dropIdle text ≠ '.' :: separator :: rest := by
  fun_induction dropIdle text with
  | case1 rest ih => exact ih
  | case2 rest ih => exact ih
  | case3 => simp
  | case4 text h₁ h₂ h₃ =>
      refine ⟨?_, h₃, fun rest heq => h₂ rest heq⟩
      intro hhead
      obtain ⟨rest, rfl⟩ := List.head?_eq_some_iff.mp hhead
      exact h₁ rest rfl

/-- A text goes on after its end with nothing but steps that lead nowhere. -/
theorem words_dropIdleEnd (text : List Char) :
    ∃ k, words text = words (dropIdleEnd text) ++ List.replicate k ['.'] := by
  have hreverse : ∀ back : List Char, ∃ k,
      words back.reverse = words (dropIdle back).reverse ++ List.replicate k ['.'] := by
    intro back
    fun_induction dropIdle back with
    | case1 rest ih =>
        obtain ⟨k, hk⟩ := ih
        refine ⟨k, ?_⟩
        have htext : ('/' :: rest).reverse = rest.reverse ++ separator :: [] := by
          simp [separator]
        rw [htext, words_append_separator, words_nil, List.append_nil, hk]
    | case2 rest ih =>
        obtain ⟨k, hk⟩ := ih
        refine ⟨k + 1, ?_⟩
        have htext : ('.' :: '/' :: rest).reverse = rest.reverse ++ separator :: ['.'] := by
          simp [separator]
        rw [htext, words_append_separator, hk, List.append_assoc, List.replicate_succ']
        rfl
    | case3 => exact ⟨1, rfl⟩
    | case4 text => exact ⟨0, by simp⟩
  have htext := hreverse text.reverse
  rwa [List.reverse_reverse] at htext

theorem prefix_dropIdleEnd (text : List Char) : dropIdleEnd text <+: text := by
  rw [← List.reverse_suffix, dropIdleEnd, List.reverse_reverse]
  exact dropIdle_suffix text.reverse

/-- The names of a text do not depend on its end. -/
theorem filter_words_dropIdleEnd (text : List Char) :
    (words (dropIdleEnd text)).filter (· ≠ ['.']) = (words text).filter (· ≠ ['.']) := by
  obtain ⟨k, hk⟩ := words_dropIdleEnd text
  rw [hk, List.filter_append]
  simp

/-! ### The last component -/

/-- The text in front of the last component ends in a separator, and the component has none. -/
theorem splitLast_spec (text : List Char) :
    dropIdleEnd text = (splitLast text).1 ++ (splitLast text).2 ∧
      separator ∉ (splitLast text).2 ∧
      ((splitLast text).1 = [] ∨ (splitLast text).1.getLast? = some separator) := by
  have hsplit : splitLast text = ((((dropIdleEnd text).reverse).dropWhile (· ≠ separator)).reverse,
      (((dropIdleEnd text).reverse).takeWhile (· ≠ separator)).reverse) := rfl
  generalize hback : (dropIdleEnd text).reverse = back at hsplit
  rw [hsplit]
  refine ⟨?_, ?_, ?_⟩
  · rw [← List.reverse_append, List.takeWhile_append_dropWhile, ← hback, List.reverse_reverse]
  · intro hmem
    have hne := List.mem_takeWhile_imp (List.mem_reverse.mp hmem)
    simp at hne
  · show _ = [] ∨ ((back.dropWhile (· ≠ separator)).reverse).getLast? = _
    rw [List.getLast?_reverse]
    cases hrest : back.dropWhile (· ≠ separator) with
    | nil => exact Or.inl rfl
    | cons c rest =>
        right
        have hc : (decide (c ≠ separator)) = false := by
          have := List.head?_dropWhile_not (fun c => decide (c ≠ separator)) back
          rw [hrest] at this
          simpa using this
        simpa using hc

theorem getLast?_dropIdleEnd (text : List Char) :
    (dropIdleEnd text).getLast? ≠ some separator := by
  rw [dropIdleEnd, List.getLast?_reverse]
  exact (dropIdle_spec text.reverse).1

/-- Without a last component there is nothing but steps that lead nowhere. -/
theorem splitLast_of_nil {text : List Char} (h : (splitLast text).2 = []) :
    dropIdleEnd text = [] := by
  obtain ⟨htext, -, hfront⟩ := splitLast_spec text
  rw [h, List.append_nil] at htext
  rcases hfront with hnil | hlast
  · rw [htext, hnil]
  · rw [← htext] at hlast
    exact absurd hlast (getLast?_dropIdleEnd text)

/-- The last component leads somewhere. -/
theorem splitLast_ne_here (text : List Char) : (splitLast text).2 ≠ ['.'] := by
  intro hname
  obtain ⟨htext, -, hfront⟩ := splitLast_spec text
  obtain ⟨-, hdot, hslash⟩ := dropIdle_spec text.reverse
  have hback : dropIdle text.reverse = '.' :: (splitLast text).1.reverse := by
    rw [← List.reverse_reverse (dropIdle text.reverse)]
    show (dropIdleEnd text).reverse = _
    rw [htext, hname, List.reverse_append]
    rfl
  rcases hfront with hnil | hlast
  · rw [hnil] at hback
    exact hdot hback
  · obtain ⟨init, hinit⟩ := List.getLast?_eq_some_iff.mp hlast
    rw [hinit, List.reverse_append] at hback
    exact hslash _ hback

/-- The last component comes after the words in front of it. -/
theorem words_splitLast {text : List Char} (h : (splitLast text).2 ≠ []) :
    words (dropIdleEnd text) = words (splitLast text).1 ++ [(splitLast text).2] := by
  obtain ⟨htext, hword, hfront⟩ := splitLast_spec text
  rw [htext]
  rcases hfront with hnil | hlast
  · rw [hnil]
    exact words_of_notMem h hword
  · rw [words_append_of_getLast? hlast, words_of_notMem h hword]

/-- A path with the text in front of its last component, and that component. -/
structure EndsIn (p : Path) (front : List Char) (name : String) : Prop where
  front_eq : (splitLast p.text.toList).1 = front
  name_eq : (splitLast p.text.toList).2 = name.toList
  plain : IsPlainName name

namespace EndsIn

variable {p : Path} {front : List Char} {name : String}

theorem fileName?_eq (h : p.EndsIn front name) : p.fileName? = some name := by
  have hup : name.toList ≠ ['.', '.'] := fun heq => h.plain.ne_up (String.toList_inj.mp heq)
  rw [fileName?, h.name_eq]
  split
  · rename_i heq
    exact absurd heq h.plain.toList_ne_nil
  · rename_i heq
    exact absurd heq hup
  · rw [String.ofList_toList]

theorem front_cases (h : p.EndsIn front name) : front = [] ∨ front.getLast? = some separator := by
  have hfront := (splitLast_spec p.text.toList).2.2
  rwa [h.front_eq] at hfront

/-- What stands in front is the beginning of the path. -/
theorem begins (h : p.EndsIn front name) : front ++ name.toList <+: p.text.toList := by
  have htext := (splitLast_spec p.text.toList).1
  rw [h.front_eq, h.name_eq] at htext
  rw [← htext]
  exact prefix_dropIdleEnd _

theorem names_eq (h : p.EndsIn front name) :
    p.names = (⟨String.ofList front⟩ : Path).names ++ [name] := by
  have hname : (splitLast p.text.toList).2 ≠ [] := by
    rw [h.name_eq]
    exact h.plain.toList_ne_nil
  have hhere : name.toList ≠ ['.'] := fun heq => h.plain.ne_here (String.toList_inj.mp heq)
  rw [Path.names_eq, Path.names_eq, ← filter_words_dropIdleEnd, words_splitLast hname, h.front_eq,
    h.name_eq, List.filter_append, List.map_append, String.toList_ofList]
  simp [hhere]

/-- What stands in front does not lead up if the path does not. -/
theorem notMem_front (h : p.EndsIn front name) (hup : ".." ∉ p.steps) :
    ".." ∉ (⟨String.ofList front⟩ : Path).names := by
  rw [← up_mem_names, h.names_eq, List.mem_append, not_or] at hup
  exact hup.1

/-- The path starts where the text in front of its last component does. -/
theorem isAbsolute_eq (h : p.EndsIn front name) :
    (⟨String.ofList front⟩ : Path).isAbsolute = p.isAbsolute := by
  obtain ⟨rest, hrest⟩ := h.begins
  rw [isAbsolute, isAbsolute, String.toList_ofList, ← hrest, List.append_assoc]
  cases front with
  | nil =>
      -- the name does not begin with a separator
      obtain ⟨c, tail, hname⟩ := List.exists_cons_of_ne_nil h.plain.toList_ne_nil
      have hc : c ≠ separator := fun heq =>
        h.plain.isWord (by rw [hname, heq]; exact List.mem_cons_self)
      rw [hname]
      simp [hc]
  | cons c tail => rfl

/-- A text in place of the last component and of what stands behind it. -/
theorem steps_sibling (h : p.EndsIn front name) {other : List Char} (hne : other ≠ [])
    (hword : separator ∉ other) :
    (⟨String.ofList (front ++ other)⟩ : Path).steps =
      (⟨String.ofList front⟩ : Path).steps ++ [String.ofList other] := by
  rw [steps_eq, steps_eq, String.toList_ofList, String.toList_ofList]
  rcases h.front_cases with rfl | hlast
  · rw [List.nil_append, words_of_notMem hne hword]
    rfl
  · rw [words_append_of_getLast? hlast, words_of_notMem hne hword]
    simp

theorem isAbsolute_sibling (h : p.EndsIn front name) {other : List Char} (hne : other ≠ [])
    (hword : separator ∉ other) :
    (⟨String.ofList (front ++ other)⟩ : Path).isAbsolute = p.isAbsolute := by
  rw [← h.isAbsolute_eq, isAbsolute, isAbsolute, String.toList_ofList, String.toList_ofList]
  cases front with
  | nil =>
      obtain ⟨c, rest, rfl⟩ := List.exists_cons_of_ne_nil hne
      have hc : c ≠ separator := fun heq => hword (heq ▸ List.mem_cons_self)
      simp [hc]
  | cons c tail => rfl

/-- The parent goes through the names in front of the last component. -/
theorem exists_parent (h : p.EndsIn front name) :
    ∃ directory, p.parent? = some directory ∧
      directory.names = (⟨String.ofList front⟩ : Path).names ∧
      directory.isAbsolute = p.isAbsolute := by
  have hname : (splitLast p.text.toList).2.isEmpty = false := by
    rw [h.name_eq, List.isEmpty_eq_false_iff]
    exact h.plain.toList_ne_nil
  have hparent : p.parent? = some ⟨String.ofList
      (if (dropIdleEnd front).isEmpty && p.isAbsolute then [separator]
        else dropIdleEnd front)⟩ := by
    rw [parent?, ← h.front_eq]
    simp [hname]
  refine ⟨_, hparent, ?_, ?_⟩
  · have hfront := filter_words_dropIdleEnd front
    rw [Path.names_eq, Path.names_eq, String.toList_ofList, String.toList_ofList, ← hfront]
    split
    · rename_i hroot
      rw [List.isEmpty_iff.mp (Bool.and_eq_true_iff.mp hroot).1]
      rfl
    · rfl
  · rw [← h.isAbsolute_eq, isAbsolute, isAbsolute, String.toList_ofList, String.toList_ofList]
    obtain ⟨rest, hrest⟩ := prefix_dropIdleEnd front
    cases htrimmed : dropIdleEnd front with
    | nil =>
        cases decide (front.head? = some separator) <;> simp
    | cons c tail =>
        rw [htrimmed] at hrest
        rw [← hrest]
        rfl

end EndsIn

/-- A path that never leads up ends in a name, or it goes through no name at all. -/
theorem exists_endsIn (p : Path) (hup : ".." ∉ p.names) :
    (∃ front name, p.EndsIn front name) ∨
      (p.fileName? = none ∧ p.parent? = none ∧ p.names = []) := by
  by_cases hname : (splitLast p.text.toList).2 = []
  · refine Or.inr ⟨?_, ?_, ?_⟩
    · rw [fileName?, hname]
    · rw [parent?]
      simp [hname]
    · rw [names_eq, ← filter_words_dropIdleEnd, splitLast_of_nil hname]
      rfl
  · obtain ⟨-, hword, -⟩ := splitLast_spec p.text.toList
    have hhere := splitLast_ne_here p.text.toList
    have hlast := words_splitLast hname
    generalize hsplit : (splitLast p.text.toList).2 = last at hname hword hhere hlast
    refine Or.inl ⟨_, String.ofList last, rfl, by rw [hsplit, String.toList_ofList], ?_, ?_, ?_, ?_⟩
    · intro heq
      rw [← String.toList_inj, String.toList_ofList] at heq
      exact hname heq
    · intro heq
      rw [← String.toList_inj, String.toList_ofList] at heq
      exact hhere heq
    · intro heq
      refine hup ?_
      rw [names_eq, ← filter_words_dropIdleEnd, hlast, List.filter_append, List.map_append, ← heq]
      simp [hhere]
    · rwa [String.toList_ofList]

/-! ### Extensions -/

/-- A name is its stem, or its stem with a last extension behind it. -/
theorem stem_cases (name : List Char) :
    stem name = name ∨ ∃ extension, '.' ∉ extension ∧ name = stem name ++ '.' :: extension := by
  have hspan : name.reverse.span (· ≠ '.') =
      (name.reverse.takeWhile (· ≠ '.'), name.reverse.dropWhile (· ≠ '.')) :=
    List.span_eq_takeWhile_dropWhile ..
  rw [stem, hspan]
  cases hrest : name.reverse.dropWhile (· ≠ '.') with
  | nil => exact Or.inl rfl
  | cons c front =>
      dsimp only
      split
      · exact Or.inl rfl
      · right
        have hdot : c = '.' := by
          have hhead := List.head?_dropWhile_not (fun c => decide (c ≠ '.')) name.reverse
          rw [hrest] at hhead
          simpa using hhead
        refine ⟨(name.reverse.takeWhile (· ≠ '.')).reverse, ?_, ?_⟩
        · intro hmem
          have hne := List.mem_takeWhile_imp (List.mem_reverse.mp hmem)
          simp at hne
        · have hname := List.takeWhile_append_dropWhile (p := (· ≠ '.')) (l := name.reverse)
          rw [hrest, hdot] at hname
          rw [← List.reverse_inj, List.reverse_append, List.reverse_cons, List.reverse_reverse,
            List.reverse_reverse, List.append_assoc, List.singleton_append, hname]

theorem stem_ne_nil {name : List Char} (h : name ≠ []) : stem name ≠ [] := by
  rw [stem]
  split
  · exact h
  · split
    · exact h
    · rename_i hfront
      simpa using hfront

theorem notMem_stem {name : List Char} (h : separator ∉ name) : separator ∉ stem name := by
  rcases stem_cases name with heq | ⟨last, -, heq⟩
  · rwa [heq]
  · rw [heq, List.mem_append, not_or] at h
    exact h.1

/-- A stem with an extension is a name. -/
theorem isPlainName_extended {stem extension : List Char} (hstem : stem ≠ [])
    (hextension : extension ≠ []) (hword : separator ∉ stem) (hword' : separator ∉ extension) :
    IsPlainName (String.ofList (stem ++ '.' :: extension)) := by
  have hlength : 2 < (stem ++ '.' :: extension).length := by
    have := List.length_pos_iff.mpr hstem
    have := List.length_pos_iff.mpr hextension
    rw [List.length_append, List.length_cons]
    omega
  have hshort : ∀ name : String, name.toList.length ≤ 2 →
      String.ofList (stem ++ '.' :: extension) ≠ name := by
    rintro name hname rfl
    rw [String.toList_ofList] at hname
    omega
  refine ⟨hshort "" (by decide), hshort "." (by decide), hshort ".." (by decide), ?_⟩
  rw [String.toList_ofList, List.mem_append, List.mem_cons, not_or, not_or]
  exact ⟨hword, by decide, hword'⟩

/-- Behind its stem a name has one dot at most, so an extension with a dot in it is another one. -/
theorem extended_ne {name extension : List Char} (hdot : '.' ∈ extension) :
    stem name ++ '.' :: extension ≠ name := by
  intro heq
  rcases stem_cases name with hsame | ⟨last, hlast, hname⟩
  · rw [hsame] at heq
    simp at heq
  · have hbehind := List.append_cancel_left (heq.trans hname)
    exact hlast ((List.cons.inj hbehind).2 ▸ hdot)

/-- An extension of two parts makes another name, unless it is put on a name such as `..x`, of which
nothing but two dots is left. -/
theorem EndsIn.replaceExtension_cases {p : Path} {front : List Char} {name : String}
    (h : p.EndsIn front name) {extension : String} (hdot : '.' ∈ extension.toList)
    (hword : separator ∉ extension.toList) :
    p.replaceExtension extension = ⟨String.ofList (front ++ ['.', '.'])⟩ ∨
      ∃ other : String, IsPlainName other ∧ other ≠ name ∧
        p.replaceExtension extension = ⟨String.ofList (front ++ other.toList)⟩ := by
  have hfront : splitLast p.text.toList = (front, name.toList) :=
    Prod.ext h.front_eq h.name_eq
  rw [replaceExtension, h.fileName?_eq, hfront]
  dsimp only
  split
  · exact Or.inl rfl
  · refine Or.inr ⟨String.ofList (stem name.toList ++ '.' :: extension.toList), ?_, ?_, ?_⟩
    · exact isPlainName_extended (stem_ne_nil h.plain.toList_ne_nil) (List.ne_nil_of_mem hdot)
        (notMem_stem h.plain.isWord) hword
    · intro heq
      rw [← String.toList_inj, String.toList_ofList] at heq
      exact extended_ne hdot heq
    · rw [String.toList_ofList, List.append_assoc]

end Path

end ShardKeeper
