import TypedEnv.Proofs.ReadBack

/-!
Splitting as the inverse of joining.  The pieces of a text hold no separator.  Conversely pieces
without a separator come back from their joined text, exactly if the separator has no border: with
a border, the end of a piece and the start of the separator after it may make up a separator of
their own, further to the left.
-/

namespace TypedEnv

namespace Text

variable {separator text before after piece rest : List Char} {head : Char} {tail : List Char}

theorem infix_of_cutAt (h : cutAt separator text = some (before, after)) :
    separator <:+: text := by
  rw [eq_append_of_cutAt h]
  exact ⟨before, after, rfl⟩

theorem not_infix_of_cutAt (hne : separator ≠ [])
    (h : cutAt separator text = some (before, after)) : ¬ separator <:+: before := by
  induction text generalizing before with
  | nil => simp [cutAt, hne] at h
  | cons c text ih =>
    rw [cutAt] at h
    split at h
    · cases h
      simpa using hne
    · next hprefix =>
      obtain ⟨⟨front, back⟩, hcut, heq⟩ := Option.map_eq_some_iff.1 h
      cases heq
      rw [List.infix_cons_iff, not_or]
      refine ⟨fun hfront => hprefix ?_, ih hcut⟩
      rw [List.isPrefixOf_iff_prefix, eq_append_of_cutAt hcut, List.append_assoc]
      exact hfront.trans (List.prefix_append (c :: front) _)

theorem cutAt_of_not_infix (h : ¬ separator <:+: text) : cutAt separator text = none := by
  cases hcut : cutAt separator text with
  | none => rfl
  | some parts => exact absurd (infix_of_cutAt hcut) h

theorem infix_of_cutAt_eq_none (h : cutAt separator text = none) : ¬ separator <:+: text := by
  induction text with
  | nil => simpa [cutAt] using h
  | cons c text ih =>
    rw [cutAt] at h
    split at h
    · cases h
    · next hprefix =>
      rw [List.infix_cons_iff, not_or]
      exact ⟨mt List.isPrefixOf_iff_prefix.2 hprefix, ih (Option.map_eq_none_iff.1 h)⟩

theorem not_infix_of_mem_splitOn (h : piece ∈ splitOn head tail text) :
    ¬ head :: tail <:+: piece := by
  fun_induction splitOn head tail text with
  | case1 text hcut =>
    cases List.mem_singleton.1 h
    exact infix_of_cutAt_eq_none hcut
  | case2 text before after hcut hshorter ih =>
    cases h with
    | head => exact not_infix_of_cutAt (List.cons_ne_nil head tail) hcut
    | tail _ hlater => exact ih hlater

theorem splitOn_of_not_infix (h : ¬ head :: tail <:+: text) : splitOn head tail text = [text] := by
  have hcut := cutAt_of_not_infix h
  rw [splitOn]
  split
  · rfl
  · next hsome =>
    rw [hcut] at hsome
    cases hsome

/-- No part of the text both starts and ends it, but the empty one and the whole. -/
def Unbordered (text : List Char) : Prop :=
  ∀ border, border ≠ [] → border ≠ text → border <+: text → ¬ border <:+ text

theorem unbordered_iff :
    Unbordered text ↔ ∀ n < text.length, n ≠ 0 → ¬ text.take n <:+ text := by
  constructor
  · intro h n hn hzero
    have hlength : (text.take n).length = n := List.length_take_of_le (Nat.le_of_lt hn)
    apply h
    · intro hnil
      rw [hnil] at hlength
      exact hzero hlength.symm
    · intro hall
      rw [hall] at hlength
      omega
    · exact List.take_prefix n text
  · intro h border hne hproper hfront
    have hlength : border.length ≠ text.length := fun heq =>
      hproper (List.IsPrefix.eq_of_length hfront heq)
    rw [List.prefix_iff_eq_take.1 hfront]
    apply h
    · exact Nat.lt_of_le_of_ne hfront.length_le hlength
    · exact mt List.length_eq_zero_iff.1 hne

instance : DecidablePred Unbordered := fun _ => decidable_of_iff _ unbordered_iff.symm

theorem unbordered_singleton (c : Char) : Unbordered [c] := by
  rw [unbordered_iff]
  intro n hn hzero
  simp only [List.length_singleton] at hn
  omega

/-- A separator that begins in a piece ends in it too, or else has a border. -/
theorem Unbordered.not_prefix (h : Unbordered separator) (hne : piece ≠ [])
    (hpiece : ¬ separator <:+: piece) : ¬ separator <+: piece ++ (separator ++ rest) := by
  rintro ⟨later, heq⟩
  rcases List.append_eq_append_iff.1 heq with ⟨inner, hinside, -⟩ | ⟨border, hsplit, hover⟩
  · exact hpiece (hinside ▸ (List.prefix_append separator inner).isInfix)
  · have hlength : separator.length = piece.length + border.length := by
      rw [hsplit, List.length_append]
    have hpositive : 0 < piece.length := List.length_pos_iff.2 hne
    have hshorter : border.length < separator.length := by omega
    apply h border
    · rintro rfl
      rw [List.append_nil] at hsplit
      exact hpiece (hsplit ▸ List.infix_refl _)
    · rintro rfl
      exact Nat.lt_irrefl _ hshorter
    · have hborder : border <+: separator ++ rest := ⟨later, hover.symm⟩
      exact List.prefix_of_prefix_length_le hborder (List.prefix_append separator rest)
        (Nat.le_of_lt hshorter)
    · exact ⟨piece, hsplit.symm⟩

theorem splitOn_append (h : Unbordered (head :: tail)) (hpiece : ¬ head :: tail <:+: piece)
    (rest : List Char) :
    splitOn head tail (piece ++ (head :: tail ++ rest)) = piece :: splitOn head tail rest := by
  induction piece with
  | nil => exact splitOn_prefix head tail rest
  | cons c piece ih =>
    have hnext : ¬ head :: tail <+: c :: (piece ++ (head :: tail ++ rest)) :=
      h.not_prefix (List.cons_ne_nil c piece) hpiece
    obtain ⟨first, pieces, hrest, hall⟩ := splitOn_cons hnext
    rw [ih fun hin => hpiece (List.infix_cons hin)] at hrest
    cases hrest
    exact hall

theorem splitOn_intercalate (h : Unbordered (head :: tail)) {pieces : List (List Char)}
    (hne : pieces ≠ []) (hpieces : ∀ piece ∈ pieces, ¬ head :: tail <:+: piece) :
    splitOn head tail ((head :: tail).intercalate pieces) = pieces := by
  induction pieces with
  | nil => exact absurd rfl hne
  | cons piece pieces ih =>
    rw [List.forall_mem_cons] at hpieces
    by_cases hlast : pieces = []
    · rw [hlast, List.intercalate_singleton, splitOn_of_not_infix hpieces.1]
    · rw [List.intercalate_cons_of_ne_nil hlast, List.append_assoc, splitOn_append h hpieces.1,
        ih hlast hpieces.2]

/-- With a border, the separator less its border and an empty piece are split elsewhere. -/
theorem exists_splitOn_intercalate_ne (h : ¬ Unbordered (head :: tail)) :
    ∃ pieces : List (List Char), pieces ≠ [] ∧ (∀ piece ∈ pieces, ¬ head :: tail <:+: piece) ∧
      splitOn head tail ((head :: tail).intercalate pieces) ≠ pieces := by
  unfold Unbordered at h
  push Not at h
  obtain ⟨border, hne, hproper, ⟨later, hstart⟩, ⟨piece, hend⟩⟩ := h
  have hlength : (head :: tail).length = piece.length + border.length := by
    rw [← hend, List.length_append]
  have hpositive : 0 < border.length := List.length_pos_iff.2 hne
  have hpiece : piece ≠ [] := by
    rintro rfl
    exact hproper hend
  refine ⟨[piece, []], List.cons_ne_nil _ _, ?_, ?_⟩
  · rw [List.forall_mem_cons, List.forall_mem_singleton]
    refine ⟨fun hin => ?_, fun hin => List.cons_ne_nil head tail (List.infix_nil.1 hin)⟩
    have hle := hin.length_le
    omega
  · have hjoined : (head :: tail).intercalate [piece, []] = head :: tail ++ later := by
      calc (head :: tail).intercalate [piece, []]
          = piece ++ (head :: tail) := by simp [List.intercalate]
        _ = (piece ++ border) ++ later := by rw [← hstart, List.append_assoc]
        _ = head :: tail ++ later := by rw [hend]
    rw [hjoined, splitOn_prefix]
    intro heq
    exact hpiece (List.cons.inj heq).1.symm

end Text

open TypedEnv.Text

variable {delimiter : String} {items : List String}

theorem exists_delimiter_eq_cons (h : delimiter ≠ "") :
    ∃ head tail, delimiter.toList = head :: tail := by
  apply List.exists_cons_of_ne_nil
  rwa [Ne, String.toList_eq_nil_iff]

theorem splitList_eq {head : Char} {tail : List Char} (h : delimiter.toList = head :: tail)
    (raw : String) :
    splitList delimiter raw = (splitOn head tail raw.toList).map String.ofList := by
  unfold splitList
  rw [h]

theorem not_infix_of_mem_splitList (hne : delimiter ≠ "") {raw item : String}
    (h : item ∈ splitList delimiter raw) : ¬ delimiter.toList <:+: item.toList := by
  obtain ⟨head, tail, hdelimiter⟩ := exists_delimiter_eq_cons hne
  rw [splitList_eq hdelimiter] at h
  obtain ⟨piece, hpiece, rfl⟩ := List.mem_map.1 h
  rw [hdelimiter, String.toList_ofList]
  exact not_infix_of_mem_splitOn hpiece

theorem splitList_join (h : Unbordered delimiter.toList) (hne : delimiter ≠ "")
    (hitems : items ≠ []) (hfree : ∀ item ∈ items, ¬ delimiter.toList <:+: item.toList) :
    splitList delimiter (join delimiter items) = items := by
  obtain ⟨head, tail, hdelimiter⟩ := exists_delimiter_eq_cons hne
  rw [hdelimiter] at h hfree
  rw [splitList_eq hdelimiter, toList_join, hdelimiter, splitOn_intercalate h]
  · simp [Function.comp_def]
  · exact mt List.map_eq_nil_iff.1 hitems
  · exact List.forall_mem_map.2 hfree

theorem unbordered_of_splitList_join (hne : delimiter ≠ "")
    (h : ∀ items : List String, items ≠ [] →
      (∀ item ∈ items, ¬ delimiter.toList <:+: item.toList) →
        splitList delimiter (join delimiter items) = items) : Unbordered delimiter.toList := by
  obtain ⟨head, tail, hdelimiter⟩ := exists_delimiter_eq_cons hne
  rw [hdelimiter]
  by_contra hborder
  obtain ⟨pieces, hpieces, hfree, hother⟩ := exists_splitOn_intercalate_ne hborder
  apply hother
  have hsplit := h (pieces.map String.ofList) (mt List.map_eq_nil_iff.1 hpieces)
    (List.forall_mem_map.2 (by simpa [hdelimiter] using hfree))
  rw [splitList_eq hdelimiter, toList_join_ofList, hdelimiter] at hsplit
  exact List.map_injective_iff.2 (fun _ _ => String.ofList_inj.1) hsplit

theorem unbordered_of_length_eq_one (h : delimiter.toList.length = 1) :
    Unbordered delimiter.toList := by
  obtain ⟨c, hc⟩ := List.length_eq_one_iff.1 h
  rw [hc]
  exact unbordered_singleton c

/-- Populating joins a list of strings with the delimiter, and the reader of lists splits at it.
Joining undoes splitting for every delimiter; splitting undoes joining exactly if the delimiter has
no border, which holds of the default one and of all single characters.  No element holds the
delimiter, and an empty one parts all characters. -/
theorem splitList_inverts_join (delimiter : String) :
    (∀ items : List String,
      renderValue delimiter (.array (items.map .string)) = some (join delimiter items)) ∧
    (∀ raw, (Leaf.array delimiter).parse raw = .array ((splitList delimiter raw).map .string) ∧
      join delimiter (splitList delimiter raw) = raw) ∧
    (delimiter ≠ "" → (∀ raw, splitList delimiter raw ≠ [] ∧
        ∀ item ∈ splitList delimiter raw, ¬ delimiter.toList <:+: item.toList) ∧
      (Unbordered delimiter.toList ↔ ∀ items : List String, items ≠ [] →
        (∀ item ∈ items, ¬ delimiter.toList <:+: item.toList) →
          splitList delimiter (join delimiter items) = items)) ∧
    (delimiter = defaultDelimiter ∨ delimiter.toList.length = 1 → Unbordered delimiter.toList) ∧
    (delimiter = "" → ∀ raw, splitList delimiter raw = raw.toList.map fun c => .ofList [c]) := by
  refine ⟨renderValue_strings delimiter, fun raw => ⟨rfl, join_splitList delimiter raw⟩,
    fun hne => ⟨fun raw => ⟨?_, fun item hitem => not_infix_of_mem_splitList hne hitem⟩,
      fun h items hitems hfree => splitList_join h hne hitems hfree,
      unbordered_of_splitList_join hne⟩, ?_, ?_⟩
  · apply splitList_ne_nil
    rwa [Ne, String.toList_eq_nil_iff]
  · rintro (rfl | hlength)
    · decide
    · exact unbordered_of_length_eq_one hlength
  · rintro rfl raw
    exact splitList_empty raw

theorem splitList_inverts_join_straddled :
    let items := ["xa", "", "ba"]
    "ab" ≠ "" ∧ Unbordered "ab".toList ∧ (∀ item ∈ items, ¬ "ab".toList <:+: item.toList) ∧
      join "ab" items = "xaababba" ∧ splitList "ab" "xaababba" = items ∧
      ¬ Unbordered "aba".toList := by
  intro items
  have hborder : Unbordered "ab".toList := by decide
  have hfree : ∀ item ∈ items, ¬ "ab".toList <:+: item.toList := by decide
  have hjoin : join "ab" items = "xaababba" := by decide
  obtain ⟨-, -, hlaws, -, -⟩ := splitList_inverts_join "ab"
  have hsplit := (hlaws (by decide)).2.1 hborder items (List.cons_ne_nil _ _) hfree
  rw [hjoin] at hsplit
  exact ⟨by decide, hborder, hfree, hjoin, hsplit, by decide⟩

end TypedEnv
