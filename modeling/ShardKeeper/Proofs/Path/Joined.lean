import ShardKeeper.Proofs.Path.LastName

/-!
# Names below a path

A path puts the same text in front of every name below it, and that text ends
where the name begins.  So a name below a path is its last one, and with another
extension it is another name in the same place.

## Main results

* `eq_of_append_eq` — a text can be cut behind a mark in one way, if the mark is the last one.
* `Path.exists_join_eq` — the text in front of whatever is below a path.
* `Path.splitLast_of_solid` — where the last name of a path begins.
* `Path.stem_extended`, `Path.replaceExtension_join` — a name below a path with another extension.
-/

namespace ShardKeeper

/-- **Behind the last mark a text can be cut in one way.**  It may also be cut at its beginning, if
there is no mark. -/
theorem eq_of_append_eq {front back front' back' : List Char} {mark : Char} (hback : mark ∉ back)
    (hback' : mark ∉ back') (hfront : front = [] ∨ front.getLast? = some mark)
    (hfront' : front' = [] ∨ front'.getLast? = some mark)
    (h : front ++ back = front' ++ back') : front = front' ∧ back = back' := by
  -- what stands behind the mark is what comes before it from the other end
  have hend : ∀ {front back : List Char}, mark ∉ back →
      (front = [] ∨ front.getLast? = some mark) →
      (front ++ back).reverse.takeWhile (· ≠ mark) = back.reverse := by
    intro front back hback hfront
    have hall : ∀ c ∈ back.reverse, decide (c ≠ mark) = true := by
      intro c hc
      rw [decide_eq_true_iff]
      rintro rfl
      exact hback (List.mem_reverse.mp hc)
    rw [List.reverse_append, List.takeWhile_append_of_pos hall]
    rcases hfront with rfl | hlast
    · simp
    · obtain ⟨init, rfl⟩ := List.getLast?_eq_some_iff.mp hlast
      simp
  have heq := hend hback hfront
  rw [h, hend hback' hfront'] at heq
  obtain rfl := List.reverse_inj.mp heq
  exact ⟨List.append_cancel_right h, rfl⟩

namespace Path

variable {lead name base : List Char}

/-- **What stands in front of whatever is below a path** does not depend on what that is. -/
theorem exists_join_eq (directory : Path) :
    ∃ lead : List Char, (lead = [] ∨ lead.getLast? = some separator) ∧
      ∀ part : List Char, part.head? ≠ some separator →
        directory.join (String.ofList part) = ⟨String.ofList (lead ++ part)⟩ := by
  have hjoin : ∀ part : List Char, part.head? ≠ some separator →
      joinChars directory.text.toList part =
        (if directory.text.toList.isEmpty || directory.text.toList.getLast? = some separator then
          directory.text.toList else directory.text.toList ++ [separator]) ++ part := by
    intro part hpart
    rw [joinChars, if_neg hpart]
    split
    · rfl
    · rw [List.append_assoc, List.singleton_append]
  refine ⟨_, ?_, fun part hpart => by rw [join, String.toList_ofList, hjoin part hpart]⟩
  split
  · rename_i hopen
    rcases Bool.or_eq_true_iff.mp hopen with hempty | hlast
    · exact Or.inl (List.isEmpty_iff.mp hempty)
    · exact Or.inr (of_decide_eq_true hlast)
  · exact Or.inr List.getLast?_concat

theorem dropIdleEnd_concat_separator (text : List Char) :
    dropIdleEnd (text ++ [separator]) = dropIdleEnd text := by
  rw [dropIdleEnd, List.reverse_concat]
  rfl

/-- Nothing is dropped from the end of a text that ends in a character of a name. -/
theorem dropIdleEnd_concat {c : Char} (hword : c ≠ separator) (hdot : c ≠ '.') (text : List Char) :
    dropIdleEnd (text ++ [c]) = text ++ [c] := by
  rw [dropIdleEnd, List.reverse_concat, dropIdle, List.reverse_cons, List.reverse_reverse]
  · exact fun rest heq => hword (List.cons.inj heq).1
  · exact fun rest heq => hdot (List.cons.inj heq).1
  · exact fun heq => hdot (List.cons.inj heq).1

/-- **The last name of a path**, where nothing stands behind it. -/
theorem splitLast_of_solid (hlead : lead = [] ∨ lead.getLast? = some separator)
    (hname : separator ∉ name) (hsolid : dropIdleEnd (lead ++ name) = lead ++ name) :
    splitLast (lead ++ name) = (lead, name) := by
  obtain ⟨htext, hword, hfront⟩ := splitLast_spec (lead ++ name)
  rw [hsolid] at htext
  obtain ⟨hlead', hname'⟩ := eq_of_append_eq hname hword hlead hfront htext
  exact Prod.ext hlead'.symm hname'.symm

/-- The stem of a name with an extension. -/
theorem stem_extended {extension : List Char} (hbase : base ≠ []) (hdot : '.' ∉ extension) :
    stem (base ++ '.' :: extension) = base := by
  have hall : ∀ c ∈ extension.reverse, decide (c ≠ '.') = true := by
    intro c hc
    rw [decide_eq_true_iff]
    rintro rfl
    exact hdot (List.mem_reverse.mp hc)
  have hreverse : (base ++ '.' :: extension).reverse =
      extension.reverse ++ '.' :: base.reverse := by
    simp
  have hspan : (base ++ '.' :: extension).reverse.span (· ≠ '.') =
      (extension.reverse, '.' :: base.reverse) := by
    rw [hreverse, List.span_eq_takeWhile_dropWhile, List.takeWhile_append_of_pos hall,
      List.dropWhile_append_of_pos hall]
    simp
  rw [stem, hspan]
  simp [hbase]

/-- **A name below a path, with another extension**, is another name below it. -/
theorem replaceExtension_join (directory : Path) {extension : List Char} (new : String)
    (hbase : base ≠ []) (hhere : base ≠ ['.']) (hword : separator ∉ base)
    (hextension : extension ≠ []) (hdot : '.' ∉ extension) (hword' : separator ∉ extension) :
    (directory.join (String.ofList (base ++ '.' :: extension))).replaceExtension new =
      directory.join (String.ofList (base ++ '.' :: new.toList)) := by
  obtain ⟨lead, hlead, hjoin⟩ := directory.exists_join_eq
  have hhead : ∀ rest : List Char, (base ++ rest).head? ≠ some separator := by
    intro rest
    obtain ⟨c, tail, rfl⟩ := List.exists_cons_of_ne_nil hbase
    exact fun heq => hword (Option.some.inj heq ▸ List.mem_cons_self)
  have hname : separator ∉ base ++ '.' :: extension := by
    rw [List.mem_append, List.mem_cons, not_or, not_or]
    exact ⟨hword, by decide, hword'⟩
  have hsplit : splitLast (lead ++ (base ++ '.' :: extension)) =
      (lead, base ++ '.' :: extension) := by
    refine splitLast_of_solid hlead hname ?_
    -- the last character of the extension ends the whole text
    obtain ⟨init, c, rfl⟩ : ∃ init c, extension = init ++ [c] :=
      ⟨_, _, (List.dropLast_concat_getLast hextension).symm⟩
    have hc : c ≠ separator ∧ c ≠ '.' :=
      ⟨fun heq => hword' (heq ▸ by simp), fun heq => hdot (heq ▸ by simp)⟩
    have hconcat : lead ++ (base ++ '.' :: (init ++ [c])) =
        (lead ++ base ++ '.' :: init) ++ [c] := by
      simp
    rw [hconcat, dropIdleEnd_concat hc.1 hc.2]
  have hends : (⟨String.ofList (lead ++ (base ++ '.' :: extension))⟩ : Path).EndsIn lead
      (String.ofList (base ++ '.' :: extension)) := by
    refine ⟨?_, ?_, isPlainName_extended hbase hextension hword hword'⟩
    · rw [String.toList_ofList, hsplit]
    · rw [String.toList_ofList, hsplit, String.toList_ofList]
  rw [hjoin _ (hhead _), hjoin _ (hhead _), replaceExtension, hends.fileName?_eq,
    String.toList_ofList, hsplit]
  dsimp only
  rw [String.toList_ofList, stem_extended hbase hdot, if_neg (by simp [hhere]), List.append_assoc]

end Path

end ShardKeeper
