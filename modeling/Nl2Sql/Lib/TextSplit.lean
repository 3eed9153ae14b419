import Nl2Sql.Lib.Str

/-!
# Splitting a text

The parts of a text between the occurrences of a separator make up the text again, and a text of two parts that share no character with
the separator is split into these two. What stripping a text drops is white space.
-/

namespace Py

/-! ## White space around a text -/

/-- A character of a text is one of the stripped text, or white space. -/
theorem mem_strip_or {s : String} {c : Char} (h : c ∈ s.toList) : c ∈ (strip s).toList ∨ isSpace c = true := by
  have hdrop : ∀ l : List Char, c ∈ l → c ∈ l.dropWhile isSpace ∨ isSpace c = true := by
    intro l hl
    rw [← List.takeWhile_append_dropWhile (p := isSpace) (l := l), List.mem_append] at hl
    exact hl.symm.imp id List.mem_takeWhile_imp
  unfold strip
  rw [String.toList_ofList]
  rcases hdrop _ h with hleft | hspace
  · exact (hdrop _ (List.mem_reverse.mpr hleft)).imp List.mem_reverse.mpr id
  · exact .inr hspace

theorem strip_eq_empty_iff {s : String} : strip s = "" ↔ ∀ c ∈ s.toList, isSpace c = true := by
  constructor
  · intro h c hc
    have hnil : (strip s).toList = [] := by rw [h]; rfl
    refine (mem_strip_or hc).resolve_left ?_
    rw [hnil]
    exact List.not_mem_nil
  · intro h
    unfold strip
    rw [List.dropWhile_eq_nil_iff.mpr h]
    rfl

/-- A text is not blank where it has a character that is no white space. -/
theorem isBlank_eq_false_iff {s : String} : isBlank s = false ↔ ∃ c ∈ s.toList, isSpace c = false := by
  unfold isBlank
  rw [beq_eq_false_iff_ne, ne_eq, strip_eq_empty_iff]
  simp only [not_forall, Bool.not_eq_true, exists_prop]

theorem isBlank_of_mem {s t : String} (hs : isBlank s = false) (h : s.toList ⊆ t.toList) : isBlank t = false := by
  obtain ⟨c, hc, hspace⟩ := isBlank_eq_false_iff.mp hs
  exact isBlank_eq_false_iff.mpr ⟨c, h hc, hspace⟩

/-- What is joined has the characters of each part. -/
theorem subset_intercalate {sep part : String} {parts : List String} (h : part ∈ parts) :
    part.toList ⊆ (sep.intercalate parts).toList := by
  rw [String.toList_intercalate]
  induction parts with
  | nil => nomatch h
  | cons first rest ih =>
    rw [List.map_cons]
    rcases List.mem_cons.mp h with rfl | h
    · cases rest with
      | nil => rw [List.map_nil, List.intercalate_singleton]; exact List.Subset.refl _
      | cons second rest =>
        rw [List.map_cons, List.intercalate_cons_cons]
        exact List.subset_append_of_subset_left _ (List.subset_append_left _ _)
    · have hne : rest.map String.toList ≠ [] := fun hnil => by
        rw [List.map_eq_nil_iff.mp hnil] at h
        exact List.not_mem_nil h
      rw [List.intercalate_cons_of_ne_nil hne]
      exact List.subset_append_of_subset_right _ (ih h)

theorem mem_wordsFrom {word : List Char} (hword : ∀ c ∈ word, isSpace c = false) {cs : List Char} {w : String} (h : w ∈ wordsFrom word cs) :
    isBlank w = false := by
  have hends (h : word ≠ []) : isBlank (String.ofList word.reverse) = false := by
    obtain ⟨c, hc⟩ := List.exists_mem_of_ne_nil _ h
    refine isBlank_eq_false_iff.mpr ⟨c, ?_, hword c hc⟩
    rw [String.toList_ofList]
    exact List.mem_reverse.mpr hc
  induction cs generalizing word with
  | nil =>
    rw [wordsFrom] at h
    split at h
    · nomatch h
    · rename_i hne
      exact List.mem_singleton.mp h ▸ hends hne
  | cons c cs ih =>
    rw [wordsFrom] at h
    split at h
    · split at h
      · exact ih (fun _ hc => absurd hc List.not_mem_nil) h (fun hnil => absurd rfl hnil)
      · rename_i hne
        rcases List.mem_cons.mp h with rfl | h
        · exact hends hne
        · exact ih (fun _ hc => absurd hc List.not_mem_nil) h (fun hnil => absurd rfl hnil)
    · rename_i hspace
      have hnext : ∀ d ∈ c :: word, isSpace d = false := List.forall_mem_cons.mpr ⟨Bool.not_eq_true _ ▸ hspace, hword⟩
      refine ih hnext h fun _ => isBlank_eq_false_iff.mpr ⟨c, ?_, hnext c List.mem_cons_self⟩
      rw [String.toList_ofList]
      exact List.mem_reverse.mpr List.mem_cons_self

/-- A word is not blank. -/
theorem isBlank_of_mem_words {s w : String} (h : w ∈ words s) : isBlank w = false :=
  mem_wordsFrom (fun _ hc => absurd hc List.not_mem_nil) h

/-- Joined words are not blank unless there are none. -/
theorem isBlank_join_words {sep s : String} (h : sep.intercalate (words s) ≠ "") : isBlank (sep.intercalate (words s)) = false := by
  cases hwords : words s with
  | nil =>
    rw [hwords] at h
    exact absurd rfl h
  | cons w rest =>
    have hmem : w ∈ words s := hwords ▸ List.mem_cons_self
    rw [← hwords]
    exact isBlank_of_mem (isBlank_of_mem_words hmem) (subset_intercalate hmem)

/-- A character of a text that is not white space is in a word of it. -/
theorem exists_wordsFrom {c : Char} (hc : isSpace c = false) {word cs : List Char} (h : c ∈ word ∨ c ∈ cs) :
    ∃ w ∈ wordsFrom word cs, c ∈ w.toList := by
  induction cs generalizing word with
  | nil =>
    have hword := h.resolve_right List.not_mem_nil
    rw [wordsFrom, if_neg (List.ne_nil_of_mem hword)]
    exact ⟨_, List.mem_singleton_self _, by rw [String.toList_ofList]; exact List.mem_reverse.mpr hword⟩
  | cons d cs ih =>
    rw [wordsFrom]
    by_cases hd : isSpace d = true
    · have hrest (hcs : c ∈ cs) : ∃ w ∈ wordsFrom [] cs, c ∈ w.toList := ih (Or.inr hcs)
      have hne : c ≠ d := fun heq => by
        rw [heq, hd] at hc
        nomatch hc
      rw [if_pos hd]
      rcases h with hword | hmem
      · rw [if_neg (List.ne_nil_of_mem hword)]
        exact ⟨_, List.mem_cons_self, by rw [String.toList_ofList]; exact List.mem_reverse.mpr hword⟩
      · obtain ⟨w, hw, hcw⟩ := hrest ((List.mem_cons.mp hmem).resolve_left hne)
        split
        · exact ⟨w, hw, hcw⟩
        · exact ⟨w, List.mem_cons_of_mem _ hw, hcw⟩
    · rw [if_neg hd]
      refine ih ?_
      rcases h with hword | hmem
      · exact Or.inl (List.mem_cons_of_mem d hword)
      · exact (List.mem_cons.mp hmem).imp (fun heq : c = d => heq ▸ List.mem_cons_self) id

/-- What is joined of the words of a text has every character of it that is not white space. -/
theorem mem_join_words {sep s : String} {c : Char} (hc : isSpace c = false) (h : c ∈ s.toList) : c ∈ (sep.intercalate (words s)).toList := by
  obtain ⟨w, hw, hcw⟩ := exists_wordsFrom hc (Or.inr h : c ∈ [] ∨ c ∈ s.toList)
  exact subset_intercalate hw hcw

/-! ## The parts of a text -/

/-- The rest of a separator is skipped. -/
theorem splitTextFrom_skip (sep : List Char) (skip : Nat) (part cs : List Char) :
    splitTextFrom sep skip part cs = splitTextFrom sep 0 part (cs.drop skip) := by
  induction skip generalizing cs with
  | zero => rfl
  | succ skip ih =>
    cases cs with
    | nil => rfl
    | cons c cs => exact ih cs

/-- Where the separator comes next, a part ends. -/
theorem splitTextFrom_separator {sep : List Char} (hsep : sep ≠ []) (part rest : List Char) :
    splitTextFrom sep 0 part (sep ++ rest) = String.ofList part.reverse :: splitTextFrom sep 0 [] rest := by
  obtain ⟨c, tail, rfl⟩ := List.exists_cons_of_ne_nil hsep
  have hnext : (c :: tail).isPrefixOf (c :: (tail ++ rest)) = true := List.isPrefixOf_iff_prefix.mpr (List.prefix_append (c :: tail) rest)
  rw [List.cons_append, splitTextFrom, if_pos hnext, splitTextFrom_skip, List.length_cons, Nat.add_sub_cancel, List.drop_left]

/-- A text without a character of the separator is all of one part. -/
theorem splitTextFrom_disjoint {sep : List Char} (hsep : sep ≠ []) {cs : List Char} (h : ∀ c ∈ cs, c ∉ sep) (part rest : List Char) :
    splitTextFrom sep 0 part (cs ++ rest) = splitTextFrom sep 0 (cs.reverse ++ part) rest := by
  induction cs generalizing part with
  | nil => rfl
  | cons c cs ih =>
    obtain ⟨hc, hcs⟩ := List.forall_mem_cons.mp h
    have hnext : sep.isPrefixOf (c :: (cs ++ rest)) = false := by
      obtain ⟨d, tail, rfl⟩ := List.exists_cons_of_ne_nil hsep
      have hne : d ≠ c := fun heq => hc (heq ▸ List.mem_cons_self)
      rw [List.isPrefixOf, beq_eq_false_iff_ne.mpr hne, Bool.false_and]
    rw [List.cons_append, splitTextFrom, hnext, if_neg Bool.false_ne_true, ih hcs, List.reverse_cons, List.append_assoc]
    rfl

theorem splitTextFrom_ne_nil (sep : List Char) (skip : Nat) (part cs : List Char) : splitTextFrom sep skip part cs ≠ [] := by
  induction cs generalizing skip part with
  | nil => cases skip <;> nofun
  | cons c cs ih =>
    cases skip with
    | zero =>
      rw [splitTextFrom]
      split
      · nofun
      · exact ih 0 (c :: part)
    | succ skip => exact ih skip part

/-- The parts with the separator between them are the text. -/
theorem intercalate_splitTextFrom {sep : List Char} (hsep : sep ≠ []) (part cs : List Char) :
    sep.intercalate ((splitTextFrom sep 0 part cs).map String.toList) = part.reverse ++ cs := by
  induction h : cs.length using Nat.strongRecOn generalizing part cs with
  | ind n ih =>
    cases cs with
    | nil => simp [splitTextFrom]
    | cons c cs =>
      by_cases hnext : sep.isPrefixOf (c :: cs) = true
      · obtain ⟨rest, hrest⟩ := List.isPrefixOf_iff_prefix.mp hnext
        have hshort : rest.length < n := by
          have hlength := congrArg List.length hrest
          have hpos := List.length_pos_of_ne_nil hsep
          rw [List.length_append] at hlength
          omega
        have hjoin := ih rest.length hshort [] rest rfl
        have hparts : (splitTextFrom sep 0 [] rest).map String.toList ≠ [] := fun hnil =>
          splitTextFrom_ne_nil sep 0 [] rest (List.map_eq_nil_iff.mp hnil)
        rw [← hrest, splitTextFrom_separator hsep, List.map_cons, List.intercalate_cons_of_ne_nil hparts, hjoin, String.toList_ofList,
          List.reverse_nil, List.nil_append, List.append_assoc]
      · rw [splitTextFrom, if_neg hnext, ih cs.length (by rw [← h]; exact Nat.lt_succ_self _) (c :: part) cs rfl, List.reverse_cons,
          List.append_assoc]
        rfl

/-- A text that is split into two parts is these two around the separator. -/
theorem eq_of_splitText_pair {sep s first second : String} (hsep : sep ≠ "") (h : splitText sep s = [first, second]) :
    s = first ++ sep ++ second := by
  have hjoin := intercalate_splitTextFrom (fun hnil => hsep (String.toList_eq_nil_iff.mp hnil)) [] s.toList
  rw [show splitTextFrom sep.toList 0 [] s.toList = [first, second] from h] at hjoin
  refine String.toList_injective ?_
  rw [String.toList_append, String.toList_append]
  simpa using hjoin.symm

/-- Two parts that share no character with the separator are the parts of what they make up around it. -/
theorem splitText_pair {sep first second : String} (hsep : sep ≠ "") (hfirst : ∀ c ∈ first.toList, c ∉ sep.toList)
    (hsecond : ∀ c ∈ second.toList, c ∉ sep.toList) : splitText sep (first ++ sep ++ second) = [first, second] := by
  have hne : sep.toList ≠ [] := fun hnil => hsep (String.toList_eq_nil_iff.mp hnil)
  have hlast := splitTextFrom_disjoint hne hsecond [] []
  unfold splitText
  rw [String.toList_append, String.toList_append, List.append_assoc, splitTextFrom_disjoint hne hfirst, splitTextFrom_separator hne]
  rw [List.append_nil, List.append_nil] at hlast
  rw [hlast, List.append_nil, List.reverse_reverse, String.ofList_toList]
  simp [splitTextFrom]

end Py
