import Mathlib.Data.List.TakeWhile
import TypedEnv.Text.Blank
import TypedEnv.Text.Cut

/-!
Laws of trimming and of splitting.  Trimming only takes away, and takes nothing from a text without
blanks at its ends; pieces hold no separator, and a piece without one is split off as it stands.
Joining the pieces of a text gives the text back.
-/

namespace TypedEnv.Text

variable {p : Char → Bool} {text piece rest : List Char} {c : Char}

theorem takeWhile_append_of_head {front tail : List Char} (hfront : ∀ d ∈ front, p d = true)
    (h : ∀ c ∈ tail.head?, p c = false) : (front ++ tail).takeWhile p = front := by
  rw [List.takeWhile_append_of_pos hfront]
  cases tail with
  | nil => exact List.append_nil front
  | cons c tail => simp [h c rfl]

theorem dropWhile_append_of_head {front tail : List Char} (hfront : ∀ d ∈ front, p d = true)
    (h : ∀ c ∈ tail.head?, p c = false) : (front ++ tail).dropWhile p = tail := by
  rw [List.dropWhile_append_of_pos hfront]
  cases tail with
  | nil => rfl
  | cons c tail => simp [h c rfl]

theorem takeWhile_append_stop {tail : List Char} (h : ∀ c ∈ tail.head?, p c = false)
    (text : List Char) : (text ++ tail).takeWhile p = text.takeWhile p := by
  induction text with
  | nil => exact takeWhile_append_of_head (List.forall_mem_nil _) h
  | cons c text ih =>
    rw [List.cons_append, List.takeWhile_cons, List.takeWhile_cons, ih]

theorem dropWhile_append_stop {tail : List Char} (h : ∀ c ∈ tail.head?, p c = false)
    (text : List Char) : (text ++ tail).dropWhile p = text.dropWhile p ++ tail := by
  induction text with
  | nil => exact dropWhile_append_of_head (List.forall_mem_nil _) h
  | cons c text ih =>
    rw [List.cons_append, List.dropWhile_cons, List.dropWhile_cons, ih]
    split
    · rfl
    · rfl

/-- A test that no blank passes.  The blanks are few enough to look at each of their code points. -/
theorem eq_false_of_isBlank (hall : ∀ range ∈ blanks.ranges,
      ∀ n ∈ List.range' range.1 (range.2 + 1 - range.1), p (Char.ofNat n) = false)
    (h : isBlank c = true) : p c = false := by
  obtain ⟨range, hrange, hlow, hhigh⟩ := (CharSet.contains_iff blanks c).1 h
  have hmem : c.toNat ∈ List.range' range.1 (range.2 + 1 - range.1) := by
    rw [List.mem_range'_1]
    omega
  rw [← Char.ofNat_toNat c]
  exact hall range hrange c.toNat hmem

theorem mem_of_mem_trimStart (h : c ∈ trimStart text) : c ∈ text :=
  (List.dropWhile_sublist isBlank).subset h

theorem mem_of_mem_trimEnd (h : c ∈ trimEnd text) : c ∈ text := by
  rw [trimEnd, List.mem_reverse] at h
  exact List.mem_reverse.1 (mem_of_mem_trimStart h)

theorem mem_of_mem_trim (h : c ∈ trim text) : c ∈ text :=
  mem_of_mem_trimStart (mem_of_mem_trimEnd h)

theorem trimStart_cons (h : isBlank c = false) : trimStart (c :: rest) = c :: rest := by
  rw [trimStart, List.dropWhile_cons, h]
  rfl

theorem trimEnd_append (h : isBlank c = false) : trimEnd (text ++ [c]) = text ++ [c] := by
  rw [trimEnd, List.reverse_append, List.reverse_singleton, List.singleton_append, trimStart_cons h,
    List.reverse_cons, List.reverse_reverse]

theorem trimEnd_append_of_forall (h : ∀ c ∈ rest, isBlank c = true) :
    trimEnd (text ++ rest) = trimEnd text := by
  have hreverse : ∀ c ∈ rest.reverse, isBlank c = true := fun c hc => h c (List.mem_reverse.1 hc)
  rw [trimEnd, List.reverse_append, trimStart, List.dropWhile_append_of_pos hreverse]
  rfl

theorem exists_trimEnd_append (text : List Char) :
    ∃ gap, text = trimEnd text ++ gap ∧ ∀ c ∈ gap, isBlank c = true := by
  refine ⟨(text.reverse.takeWhile isBlank).reverse, ?_, fun c hc => ?_⟩
  · rw [trimEnd, trimStart, ← List.reverse_append, List.takeWhile_append_dropWhile,
      List.reverse_reverse]
  · exact List.mem_takeWhile_imp (List.mem_reverse.1 hc)

theorem trimEnd_trimEnd (text : List Char) : trimEnd (trimEnd text) = trimEnd text := by
  obtain ⟨gap, heq, hgap⟩ := exists_trimEnd_append text
  have hboth := @trimEnd_append_of_forall (trimEnd text) gap hgap
  rw [← heq] at hboth
  exact hboth.symm

theorem trimEnd_append_cons (h : isBlank c = false) (text rest : List Char) :
    trimEnd (text ++ c :: rest) = text ++ c :: trimEnd rest := by
  have hlast : trimStart (rest.reverse ++ c :: text.reverse) =
      trimStart rest.reverse ++ c :: text.reverse := by
    rw [trimStart, List.dropWhile_append]
    split
    · next hall =>
      rw [trimStart, List.isEmpty_iff.1 hall, List.dropWhile_cons, h]
      rfl
    · rfl
  have hreverse : (text ++ c :: rest).reverse = rest.reverse ++ c :: text.reverse := by simp
  rw [trimEnd, hreverse, hlast, trimEnd]
  simp

theorem trimEnd_cons (h : isBlank c = false) : trimEnd (c :: rest) = c :: trimEnd rest :=
  trimEnd_append_cons h [] rest

theorem trim_enclosed (h : isBlank c = false) : trim (c :: text ++ [c]) = c :: text ++ [c] := by
  rw [trim, List.cons_append, trimStart_cons h, ← List.cons_append, trimEnd_append h]

theorem trim_of_ends (hhead : ∀ c ∈ text.head?, isBlank c = false)
    (hlast : ∀ c ∈ text.getLast?, isBlank c = false) : trim text = text := by
  cases text with
  | nil => rfl
  | cons c rest =>
    rw [trim, trimStart_cons (hhead c rfl)]
    have hne : c :: rest ≠ [] := List.cons_ne_nil c rest
    rw [← List.dropLast_concat_getLast hne]
    exact trimEnd_append (hlast _ (List.getLast?_eq_some_getLast hne))

theorem trim_of_forall (h : ∀ c ∈ text, isBlank c = false) : trim text = text := by
  apply trim_of_ends
  · exact fun c hc => h c (List.mem_of_mem_head? hc)
  · exact fun c hc => h c (List.mem_of_getLast? hc)

theorem trim_padded {before after : List Char} (hbefore : ∀ c ∈ before, isBlank c = true)
    (hafter : ∀ c ∈ after, isBlank c = true) : trim (before ++ text ++ after) = trim text := by
  rw [List.append_assoc, trim, trimStart, List.dropWhile_append_of_pos hbefore,
    List.dropWhile_append]
  split
  · next hempty =>
    rw [trim, trimStart, List.isEmpty_iff.1 hempty, List.dropWhile_eq_nil_iff.2 hafter]
  · rw [trimEnd_append_of_forall hafter, trim, trimStart]

theorem splitWhere_cons_of_pos (h : p c = true) :
    splitWhere p (c :: rest) = [] :: splitWhere p rest := by
  rw [splitWhere, if_pos h]

theorem splitWhere_append_cons (h : p c = true) :
    splitWhere p (text ++ c :: rest) = splitWhere p text ++ splitWhere p rest := by
  induction text with
  | nil => exact splitWhere_cons_of_pos h
  | cons d text ih =>
    rw [List.cons_append, splitWhere, splitWhere, ih]
    split
    · rfl
    · cases hs : splitWhere p text with
      | nil => exact absurd hs (splitWhere_ne_nil p text)
      | cons first pieces => rfl

theorem splitWhere_of_forall (h : ∀ d ∈ piece, p d = false) : splitWhere p piece = [piece] := by
  induction piece with
  | nil => rfl
  | cons d piece ih =>
    rw [splitWhere, h d List.mem_cons_self, ih fun e he => h e (List.mem_cons_of_mem d he)]
    rfl

theorem splitWhere_append (hpiece : ∀ d ∈ piece, p d = false) (h : p c = true) :
    splitWhere p (piece ++ c :: rest) = piece :: splitWhere p rest := by
  rw [splitWhere_append_cons h, splitWhere_of_forall hpiece, List.singleton_append]

theorem splitWhere_intercalate {pieces : List (List Char)} (h : p c = true) (hne : pieces ≠ [])
    (hpieces : ∀ piece ∈ pieces, ∀ d ∈ piece, p d = false) :
    splitWhere p ([c].intercalate pieces) = pieces := by
  induction pieces with
  | nil => exact absurd rfl hne
  | cons piece pieces ih =>
    rw [List.forall_mem_cons] at hpieces
    by_cases hlast : pieces = []
    · rw [hlast, List.intercalate_singleton, splitWhere_of_forall hpieces.1]
    · rw [List.intercalate_cons_of_ne_nil hlast, List.append_assoc, List.singleton_append,
        splitWhere_append hpieces.1 h, ih hlast hpieces.2]

theorem eq_false_of_mem_splitWhere (hpiece : piece ∈ splitWhere p text) (h : c ∈ piece) :
    p c = false := by
  induction text generalizing piece with
  | nil =>
    rw [splitWhere, List.mem_singleton] at hpiece
    rw [hpiece] at h
    cases h
  | cons d text ih =>
    rw [splitWhere] at hpiece
    cases hd : p d with
    | true =>
      rw [hd, if_pos rfl, List.mem_cons] at hpiece
      cases hpiece with
      | inl hnil =>
        rw [hnil] at h
        cases h
      | inr hlater => exact ih hlater h
    | false =>
      rw [hd, if_neg Bool.false_ne_true] at hpiece
      cases hs : splitWhere p text with
      | nil => exact absurd hs (splitWhere_ne_nil p text)
      | cons first pieces =>
        simp only [hs, List.mem_cons] at hpiece ih
        rcases hpiece with rfl | hlater
        · rcases List.mem_cons.1 h with rfl | hfirst
          · exact hd
          · exact ih (Or.inl rfl) hfirst
        · exact ih (Or.inr hlater) h

section Separator

variable {head : Char} {tail : List Char}

theorem splitOn_prefix (head : Char) (tail rest : List Char) :
    splitOn head tail (head :: tail ++ rest) = [] :: splitOn head tail rest := by
  have hcut : cutAt (head :: tail) (head :: tail ++ rest) = some ([], rest) := by
    rw [List.cons_append, cutAt, ← List.cons_append,
      if_pos (List.isPrefixOf_iff_prefix.2 (List.prefix_append _ _)), List.drop_left]
  rw [splitOn]
  split
  · next hnone =>
    rw [hcut] at hnone
    cases hnone
  · next hsome =>
    rw [hcut] at hsome
    cases hsome
    rfl

theorem splitOn_nil (head : Char) (tail : List Char) : splitOn head tail [] = [[]] := by
  rw [splitOn]
  rfl

theorem splitOn_cons (h : ¬ head :: tail <+: c :: rest) :
    ∃ first pieces, splitOn head tail rest = first :: pieces ∧
      splitOn head tail (c :: rest) = (c :: first) :: pieces := by
  have hcut : cutAt (head :: tail) (c :: rest) =
      (cutAt (head :: tail) rest).map fun parts => (c :: parts.1, parts.2) := by
    rw [cutAt, if_neg (mt List.isPrefixOf_iff_prefix.1 h)]
  rw [splitOn, splitOn.eq_def head tail (c :: rest)]
  split
  · next hnone =>
    rw [hnone] at hcut
    split
    · exact ⟨rest, [], rfl, rfl⟩
    · next hsome =>
      rw [hcut] at hsome
      cases hsome
  · next before after hsome =>
    rw [hsome] at hcut
    split
    · next hnone =>
      rw [hcut] at hnone
      cases hnone
    · next hboth =>
      rw [hcut] at hboth
      cases hboth
      exact ⟨before, splitOn head tail after, rfl, rfl⟩

theorem intercalate_splitOn (head : Char) (tail text : List Char) :
    (head :: tail).intercalate (splitOn head tail text) = text := by
  rw [splitOn]
  split
  · exact List.intercalate_singleton
  · next before after hcut =>
    have hshorter : after.length < text.length := by
      rw [eq_append_of_cutAt hcut]
      simp only [List.length_append, List.length_cons]
      omega
    rw [List.intercalate_cons_of_ne_nil (splitOn_ne_nil head tail after),
      intercalate_splitOn head tail after, ← eq_append_of_cutAt hcut]
termination_by text.length

end Separator

theorem toList_join (separator : String) (pieces : List String) :
    (join separator pieces).toList = separator.toList.intercalate (pieces.map String.toList) :=
  String.toList_intercalate

theorem intercalate_singletons (text : List Char) :
    ([] : List Char).intercalate (text.map fun c => [c]) = text := by
  induction text with
  | nil => rfl
  | cons c rest ih =>
    cases rest with
    | nil => rfl
    | cons d rest =>
      have hne : ((d :: rest).map fun c => [c]) ≠ [] := List.cons_ne_nil _ _
      rw [List.map_cons, List.intercalate_cons_of_ne_nil hne, ih]
      rfl

end TypedEnv.Text
