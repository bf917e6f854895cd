import Mathlib.Data.List.Basic
import ShardKeeper.Path

/-!
# The steps of a path

Paths are put together and taken apart as texts.  What they mean is the steps
they go through, so everything about a path is said of its steps here.

## Main definitions

* `Path.words` — the words of a text between separators.
* `Path.IsPlainName` — a name that is one step down.
* `Path.names` — the steps of a path but for those that lead nowhere.

## Main results

* `Path.steps_join` — the steps of a path below another one.
* `Path.isAbsolute_join` — where such a path starts from.
-/

namespace ShardKeeper

namespace Path

/-! ### Words -/

/-- The words of a text between separators. -/
def words (text : List Char) : List (List Char) := (splitChars text).filter fun w => !w.isEmpty

theorem steps_eq (p : Path) : p.steps = (words p.text.toList).map String.ofList := rfl

theorem splitChars_ne_nil (text : List Char) : splitChars text ≠ [] := by
  cases text with
  | nil => simp [splitChars]
  | cons c rest =>
      rw [splitChars]
      split
      · simp
      · split <;> simp

theorem splitChars_cons_separator (text : List Char) :
    splitChars (separator :: text) = [] :: splitChars text := by
  rw [splitChars, if_pos rfl]

/-- A character that is no separator goes into the first word. -/
theorem splitChars_cons {c : Char} (hc : c ≠ separator) (text : List Char) :
    ∃ word rest, splitChars text = word :: rest ∧
      splitChars (c :: text) = (c :: word) :: rest := by
  obtain ⟨word, rest, hsplit⟩ := List.exists_cons_of_ne_nil (splitChars_ne_nil text)
  refine ⟨word, rest, hsplit, ?_⟩
  rw [splitChars, if_neg hc, hsplit]

theorem splitChars_append_separator (front back : List Char) :
    splitChars (front ++ separator :: back) = splitChars front ++ splitChars back := by
  induction front with
  | nil => exact splitChars_cons_separator back
  | cons c front ih =>
      by_cases hc : c = separator
      · subst hc
        rw [List.cons_append, splitChars_cons_separator, splitChars_cons_separator, ih]
        rfl
      · obtain ⟨word, rest, hfront, hcons⟩ := splitChars_cons hc front
        obtain ⟨word', rest', hall, hcons'⟩ := splitChars_cons hc (front ++ separator :: back)
        rw [ih, hfront] at hall
        obtain ⟨rfl, rfl⟩ := List.cons.inj hall
        rw [List.cons_append, hcons', hcons]
        rfl

/-- A text without separators is one word. -/
theorem splitChars_of_notMem {text : List Char} (h : separator ∉ text) :
    splitChars text = [text] := by
  induction text with
  | nil => rfl
  | cons c text ih =>
      rw [List.mem_cons, not_or] at h
      obtain ⟨hc, htext⟩ := h
      obtain ⟨word, rest, hsplit, hcons⟩ := splitChars_cons (Ne.symm hc) text
      rw [ih htext] at hsplit
      obtain ⟨rfl, rfl⟩ := List.cons.inj hsplit
      exact hcons

@[simp] theorem words_nil : words [] = [] := rfl

theorem words_append_separator (front back : List Char) :
    words (front ++ separator :: back) = words front ++ words back := by
  rw [words, splitChars_append_separator, List.filter_append]
  rfl

theorem words_of_notMem {text : List Char} (hne : text ≠ []) (h : separator ∉ text) :
    words text = [text] := by
  simp [words, splitChars_of_notMem h, hne]

/-- A text that ends in a separator is continued by further words. -/
theorem words_append_of_getLast? {front : List Char} (h : front.getLast? = some separator)
    (back : List Char) : words (front ++ back) = words front ++ words back := by
  obtain ⟨init, rfl⟩ := List.getLast?_eq_some_iff.mp h
  rw [List.append_assoc, List.singleton_append, words_append_separator, words_append_separator,
    words_nil, List.append_nil]

/-! ### Joined paths -/

/-- Below a path go its own words and those of the part, unless that is absolute. -/
theorem words_joinChars {base part : List Char} (hpart : part.head? ≠ some separator) :
    words (joinChars base part) = words base ++ words part := by
  rw [joinChars, if_neg hpart]
  split
  · rename_i hopen
    rcases Bool.or_eq_true_iff.mp hopen with hempty | hlast
    · rw [List.isEmpty_iff.mp hempty]
      rfl
    · exact words_append_of_getLast? (of_decide_eq_true hlast) part
  · exact words_append_separator base part

theorem steps_join {p : Path} {part : String} (hpart : (⟨part⟩ : Path).isAbsolute = false) :
    (p.join part).steps = p.steps ++ (⟨part⟩ : Path).steps := by
  have hhead : part.toList.head? ≠ some separator := of_decide_eq_false hpart
  simp only [steps_eq, join, String.toList_ofList, words_joinChars hhead, List.map_append]

theorem isAbsolute_join {p : Path} {part : String} (hpart : (⟨part⟩ : Path).isAbsolute = false) :
    (p.join part).isAbsolute = p.isAbsolute := by
  have hhead : part.toList.head? ≠ some separator := of_decide_eq_false hpart
  rw [isAbsolute, isAbsolute, join, String.toList_ofList, joinChars, if_neg hhead]
  cases htext : p.text.toList with
  | nil => simp [hhead]
  | cons c rest => split <;> simp

/-- A name that leads one step down. -/
structure IsPlainName (name : String) : Prop where
  ne_empty : name ≠ ""
  ne_here : name ≠ "."
  ne_up : name ≠ ".."
  isWord : separator ∉ name.toList

instance (name : String) : Decidable (IsPlainName name) :=
  decidable_of_iff (name ≠ "" ∧ name ≠ "." ∧ name ≠ ".." ∧ separator ∉ name.toList)
    ⟨fun ⟨h₁, h₂, h₃, h₄⟩ => ⟨h₁, h₂, h₃, h₄⟩, fun h => ⟨h.1, h.2, h.3, h.4⟩⟩

namespace IsPlainName

variable {name : String}

theorem toList_ne_nil (h : IsPlainName name) : name.toList ≠ [] :=
  fun hnil => h.ne_empty (String.toList_eq_nil_iff.mp hnil)

theorem steps (h : IsPlainName name) : (⟨name⟩ : Path).steps = [name] := by
  rw [steps_eq, words_of_notMem h.toList_ne_nil h.isWord]
  simp

theorem isAbsolute (h : IsPlainName name) : (⟨name⟩ : Path).isAbsolute = false :=
  decide_eq_false fun hhead => h.isWord (List.mem_of_mem_head? hhead)

end IsPlainName

/-! ### Names -/

/-- The names that a path goes through. -/
def names (p : Path) : List String := p.steps.filter (· ≠ ".")

theorem names_eq (p : Path) :
    p.names = ((words p.text.toList).filter (· ≠ ['.'])).map String.ofList := by
  rw [names, steps_eq, List.filter_map]
  congr 1
  apply List.filter_congr
  intro w _
  have hdot : String.ofList w = "." ↔ w = ['.'] := by
    rw [← String.toList_inj, String.toList_ofList]
    rfl
  simp [hdot]

/-- Steps that lead up are names. -/
theorem up_mem_names {p : Path} : ".." ∈ p.names ↔ ".." ∈ p.steps := by
  simp [names]

end Path

end ShardKeeper
