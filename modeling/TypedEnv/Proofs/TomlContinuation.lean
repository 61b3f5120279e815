import TypedEnv.Proofs.TomlStrings

/-!
A TOML value is read alike in front of any text that cannot belong to it.  So a text that is a value
by itself stays that value on a line and between brackets.
-/

namespace TypedEnv.Toml

open TypedEnv.Text

variable {α : Type} {edition : Edition} {text rest after : List Char} {c : Char}

theorem skipComment_append (h : skipComment text ≠ []) :
    skipComment (text ++ rest) = skipComment text ++ rest := by
  unfold skipComment at h
  split at h
  · next comment =>
    rw [List.cons_append, skipComment, List.dropWhile_append, if_neg]
    · rfl
    · rwa [List.isEmpty_iff]
  · next hother =>
    obtain ⟨c, more, rfl⟩ := List.exists_cons_of_ne_nil h
    have hc : c ≠ '#' := by
      rintro rfl
      exact hother more rfl
    simp [skipComment, hc]

theorem skipLines_of_break (h : lineBreak? (skipComment (skipSpace text)) = some after) :
    skipLines text = skipLines after := by
  rw [skipLines]
  split
  · next other hother =>
    rw [h] at hother
    cases hother
    rfl
  · next hnone =>
    rw [h] at hnone
    cases hnone

theorem skipLines_of_none (h : lineBreak? (skipComment (skipSpace text)) = none) :
    skipLines text = skipSpace text := by
  rw [skipLines]
  split
  · next other hother =>
    rw [h] at hother
    cases hother
  · rfl

theorem skipComment_of_ne (h : c ≠ '#') (text : List Char) :
    skipComment (c :: text) = c :: text := by
  simp [skipComment, h]

theorem ne_nil_of_lineBreak? (h : lineBreak? text = some after) : text ≠ [] := by
  rintro rfl
  cases h

theorem ne_nil_of_skipComment (h : skipComment text ≠ []) : text ≠ [] := by
  rintro rfl
  exact h rfl

theorem skipLines_append (h : skipLines text = c :: after) (hcomment : c ≠ '#')
    (hreturn : c ≠ '\r') : skipLines (text ++ rest) = c :: after ++ rest := by
  fun_induction skipLines text with
  | case1 text line hbreak hshorter ih =>
    have hcomment := ne_nil_of_lineBreak? hbreak
    have hlong : lineBreak? (skipComment (skipSpace (text ++ rest))) = some (line ++ rest) := by
      rw [skipSpace_append (ne_nil_of_skipComment hcomment), skipComment_append hcomment]
      exact lineBreak?_append hbreak
    rw [skipLines_of_break hlong, ih h]
  | case2 text hbreak =>
    have hskip : skipSpace (text ++ rest) = c :: after ++ rest := by
      rw [skipSpace_append (by simp [h]), h]
    rw [h, skipComment_of_ne hcomment] at hbreak
    have hfeed : c ≠ '\n' := by
      rintro rfl
      cases hbreak
    rw [skipLines_of_none, hskip]
    rw [hskip, List.cons_append, skipComment_of_ne hcomment]
    exact lineBreak?_of_ne hfeed hreturn _

structure Extends (value : ValueReader) : Prop where
  append : ∀ {text rest after item}, Stops rest → Takes (value text) item after →
    Takes (value (text ++ rest)) item (after ++ rest)
  head : ∀ {text item after}, Takes (value text) item after →
    ∃ c more, text = c :: more ∧ isStop c = false

section Lists

variable {value : ValueReader} {item : Value} {items : List Value} {mid : List Char}

theorem takes_items?_end (h : skipLines text = ']' :: rest) :
    Takes (items? value text) [] rest := by
  rw [items?]
  split
  · next hnil =>
    rw [h] at hnil
    cases hnil
  · next c more hmore =>
    rw [h] at hmore
    cases hmore
    exact ⟨_, rfl, rfl, rfl⟩

theorem takes_items?_last (h : skipLines text = c :: mid) (hc : c ≠ ']')
    (hitem : Takes (value (c :: mid)) item after) (hafter : skipLines after = ']' :: rest) :
    Takes (items? value text) [item] rest := by
  obtain ⟨step, hstep, rfl, rfl⟩ := hitem
  rw [items?]
  split
  · next hnil =>
    rw [h] at hnil
    cases hnil
  · next d more hmore =>
    rw [h] at hmore
    cases hmore
    rw [if_neg hc, hstep]
    dsimp only [Option.bind_eq_bind, Option.bind_some]
    split
    · next other hother =>
      rw [hafter] at hother
      cases hother
      exact ⟨_, rfl, rfl, rfl⟩
    · next other hother =>
      rw [hafter] at hother
      cases hother
    · next hend hcomma => exact absurd hafter (hend rest)

theorem takes_items?_next {more : List Char} (h : skipLines text = c :: mid) (hc : c ≠ ']')
    (hitem : Takes (value (c :: mid)) item after) (hafter : skipLines after = ',' :: more)
    (htail : Takes (items? value more) items rest) :
    Takes (items? value text) (item :: items) rest := by
  obtain ⟨step, hstep, rfl, rfl⟩ := hitem
  obtain ⟨tail, htailStep, rfl, rfl⟩ := htail
  rw [items?]
  split
  · next hnil =>
    rw [h] at hnil
    cases hnil
  · next d other hother =>
    rw [h] at hother
    cases hother
    rw [if_neg hc, hstep]
    dsimp only [Option.bind_eq_bind, Option.bind_some]
    split
    · next other hother =>
      rw [hafter] at hother
      cases hother
    · next other hother =>
      rw [hafter] at hother
      cases hother
      rw [htailStep]
      exact ⟨_, rfl, rfl, rfl⟩
    · next hend hcomma => exact absurd hafter (hcomma more)

theorem items?_append (hvalue : Extends value) (hrest : Stops rest)
    (h : Takes (items? value text) items after) :
    Takes (items? value (text ++ rest)) items (after ++ rest) := by
  obtain ⟨step, hstep, rfl, rfl⟩ := h
  fun_induction items? value text with
  | case1 => cases hstep
  | case2 text more hskip =>
    cases hstep
    exact takes_items?_end (skipLines_append hskip (by decide) (by decide))
  | case3 text c more hskip hc ih =>
    obtain ⟨item, hitem, hstep⟩ := Option.bind_eq_some_iff.1 hstep
    have htakes : Takes (value (c :: more)) item.value item.rest := ⟨item, hitem, rfl, rfl⟩
    obtain ⟨d, tail, heq, hstop⟩ := hvalue.head htakes
    cases heq
    have hcomment : c ≠ '#' := by
      rintro rfl
      cases hstop
    have hreturn : c ≠ '\r' := by
      rintro rfl
      cases hstop
    have hlong : skipLines (text ++ rest) = c :: more ++ rest :=
      skipLines_append hskip hcomment hreturn
    have hitemLong := hvalue.append hrest htakes
    split at hstep
    · next other hother =>
      cases hstep
      exact takes_items?_last hlong hc hitemLong (skipLines_append hother (by decide) (by decide))
    · next other hother =>
      obtain ⟨tail, htail, hstep⟩ := Option.bind_eq_some_iff.1 hstep
      cases hstep
      exact takes_items?_next hlong hc hitemLong (skipLines_append hother (by decide) (by decide))
        (ih item other hother tail htail)
    · cases hstep

end Lists

section Tables

variable {value : ValueReader} {item table : Value} {mid : List Char} {inBraces : Bool}
  {pair : (List String × String) × Value} {pairs : List ((List String × String) × Value)}

theorem takes_pair? {key : List String × String} (hkey : Takes (key? edition text) key mid)
    (hsign : skipGap edition inBraces mid = '=' :: after)
    (hitem : Takes (value (skipGap edition inBraces after)) item rest) :
    Takes (pair? edition inBraces value text) (key, item) rest := by
  obtain ⟨step, hstep, rfl, rfl⟩ := hkey
  obtain ⟨itemStep, hitemStep, rfl, rfl⟩ := hitem
  rw [pair?, hstep]
  dsimp only [Option.bind_eq_bind, Option.bind_some]
  split
  · next other hother =>
    rw [hsign] at hother
    cases hother
    rw [hitemStep]
    exact ⟨_, rfl, rfl, rfl⟩
  · next hnone => exact absurd hsign (hnone after)

theorem takes_pairs?_last
    (hpair : Takes (pair? edition true value (skipGap edition true text)) pair mid)
    (hend : skipGap edition true mid = '\x7d' :: rest) :
    Takes (pairs? edition value text) [pair] rest := by
  obtain ⟨step, hstep, rfl, rfl⟩ := hpair
  rw [pairs?, hstep]
  dsimp only [Option.bind_eq_bind, Option.bind_some]
  split
  · next other hother =>
    rw [hend] at hother
    cases hother
    exact ⟨_, rfl, rfl, rfl⟩
  · next other hother =>
    rw [hend] at hother
    cases hother
  · next hbrace hcomma => exact absurd hend (hbrace rest)

theorem takes_pairs?_next
    (hpair : Takes (pair? edition true value (skipGap edition true text)) pair mid)
    (hcomma : skipGap edition true mid = ',' :: after)
    (hopen : closedAfterComma? edition after = none)
    (htail : Takes (pairs? edition value after) pairs rest) :
    Takes (pairs? edition value text) (pair :: pairs) rest := by
  obtain ⟨step, hstep, rfl, rfl⟩ := hpair
  obtain ⟨tail, htailStep, rfl, rfl⟩ := htail
  rw [pairs?, hstep]
  dsimp only [Option.bind_eq_bind, Option.bind_some]
  split
  · next other hother =>
    rw [hcomma] at hother
    cases hother
  · next other hother =>
    rw [hcomma] at hother
    cases hother
    split
    · next closed hclosed =>
      rw [hopen] at hclosed
      cases hclosed
    · rw [htailStep]
      exact ⟨_, rfl, rfl, rfl⟩
  · next hbrace hnone => exact absurd hcomma (hnone after)

theorem takes_inlineTable?_empty (h : skipGap edition true text = '\x7d' :: rest) :
    Takes (inlineTable? edition value text) (.table []) rest := by
  rw [inlineTable?]
  split
  · next other hother =>
    rw [h] at hother
    cases hother
    exact ⟨_, rfl, rfl, rfl⟩
  · next hnone => exact absurd h (hnone rest)

theorem takes_inlineTable? (h : ∀ more, skipGap edition true text ≠ '\x7d' :: more)
    (hpairs : Takes (pairs? edition value text) pairs rest)
    (htable : tableOfPairs pairs = some table) :
    Takes (inlineTable? edition value text) table rest := by
  obtain ⟨step, hstep, hvalue, rfl⟩ := hpairs
  rw [inlineTable?]
  split
  · next other hother => exact absurd hother (h other)
  · rw [hstep]
    dsimp only [Option.bind_eq_bind, Option.bind_some]
    rw [hvalue, htable]
    exact ⟨_, rfl, rfl, rfl⟩

/-- In the first edition nothing but blanks stands between the parts of a table. -/
@[simp] theorem skipGap_initial (inBraces : Bool) (text : List Char) :
    skipGap .initial inBraces text = skipSpace text := by
  simp [skipGap, Edition.initial]

@[simp] theorem closedAfterComma?_initial (text : List Char) :
    closedAfterComma? .initial text = none := by
  simp [closedAfterComma?, Edition.initial]

theorem skipSpace_append_of_eq (h : skipSpace text = c :: after) :
    skipSpace (text ++ rest) = c :: after ++ rest := by
  rw [skipSpace_append (by simp [h]), h]

theorem pair?_append (hvalue : Extends value) (hrest : Stops rest)
    (h : Takes (pair? .initial inBraces value text) pair after) :
    Takes (pair? .initial inBraces value (text ++ rest)) pair (after ++ rest) := by
  obtain ⟨step, hstep, rfl, rfl⟩ := h
  obtain ⟨key, hkey, hstep⟩ := Option.bind_eq_some_iff.1 hstep
  split at hstep
  · next more hsign =>
    obtain ⟨item, hitem, hstep⟩ := Option.bind_eq_some_iff.1 hstep
    cases hstep
    have htakes : Takes (value (skipGap .initial inBraces more)) item.value item.rest :=
      ⟨item, hitem, rfl, rfl⟩
    obtain ⟨c, tail, heq, -⟩ := hvalue.head htakes
    obtain ⟨d, mid, hmid⟩ : ∃ d mid, key.rest = d :: mid := by
      apply List.exists_cons_of_ne_nil
      intro hnil
      rw [hnil] at hsign
      simp [skipSpace] at hsign
    have hkeyLong := key?_append hrest.head (⟨key, hkey, rfl, hmid⟩ : Takes _ key.value (d :: mid))
    rw [← hmid] at hkeyLong
    have hlong :
        skipGap .initial inBraces (more ++ rest) = skipGap .initial inBraces more ++ rest := by
      rw [skipGap_initial] at heq ⊢
      rw [skipGap_initial, skipSpace_append (by simp [heq])]
    have hsignLong : skipGap .initial inBraces (key.rest ++ rest) = '=' :: (more ++ rest) := by
      rw [skipGap_initial] at hsign ⊢
      exact skipSpace_append_of_eq hsign
    exact takes_pair? hkeyLong hsignLong (hlong ▸ hvalue.append hrest htakes)
  · cases hstep

theorem ne_nil_of_pair? (h : Takes (pair? edition inBraces value text) pair after) : text ≠ [] := by
  rintro rfl
  obtain ⟨step, hstep, -⟩ := h
  rw [pair?, key?, keyParts?] at hstep
  cases hstep

theorem ne_nil_of_pairs? (h : Takes (pairs? .initial value text) pairs after) :
    skipSpace text ≠ [] := by
  obtain ⟨step, hstep, -⟩ := h
  rw [pairs?] at hstep
  obtain ⟨pair, hpair, -⟩ := Option.bind_eq_some_iff.1 hstep
  have hgap := ne_nil_of_pair? ⟨pair, hpair, rfl, rfl⟩
  rwa [skipGap_initial] at hgap

theorem pairs?_append (hvalue : Extends value) (hrest : Stops rest)
    (h : Takes (pairs? .initial value text) pairs after) :
    Takes (pairs? .initial value (text ++ rest)) pairs (after ++ rest) := by
  obtain ⟨step, hstep, rfl, rfl⟩ := h
  fun_induction pairs? .initial value text with
  | case1 text ih =>
    obtain ⟨pair, hpair, hstep⟩ := Option.bind_eq_some_iff.1 hstep
    have htakes : Takes (pair? .initial true value (skipGap .initial true text)) pair.value
      pair.rest := ⟨pair, hpair, rfl, rfl⟩
    have hpairLong := pair?_append hvalue hrest htakes
    have hne : skipSpace text ≠ [] := by
      have hgap := ne_nil_of_pair? htakes
      rwa [skipGap_initial] at hgap
    have hlong : skipGap .initial true (text ++ rest) = skipGap .initial true text ++ rest := by
      rw [skipGap_initial, skipGap_initial, skipSpace_append hne]
    rw [← hlong] at hpairLong
    have hgap {d : Char} {more : List Char} (h : skipGap .initial true pair.rest = d :: more) :
        skipGap .initial true (pair.rest ++ rest) = d :: (more ++ rest) := by
      rw [skipGap_initial] at h ⊢
      exact skipSpace_append_of_eq h
    split at hstep
    · next more hend =>
      cases hstep
      exact takes_pairs?_last hpairLong (hgap hend)
    · next more hcomma =>
      split at hstep
      · next closed hclosed =>
        rw [closedAfterComma?_initial] at hclosed
        cases hclosed
      · obtain ⟨tail, htail, hstep⟩ := Option.bind_eq_some_iff.1 hstep
        cases hstep
        exact takes_pairs?_next hpairLong (hgap hcomma) (closedAfterComma?_initial _)
          (ih pair more hcomma tail htail)
    · cases hstep

theorem inlineTable?_append (hvalue : Extends value) (hrest : Stops rest)
    (h : Takes (inlineTable? .initial value text) table after) :
    Takes (inlineTable? .initial value (text ++ rest)) table (after ++ rest) := by
  unfold inlineTable? at h
  split at h
  · next more hend =>
    obtain ⟨step, hstep, rfl, rfl⟩ := h
    cases hstep
    apply takes_inlineTable?_empty
    rw [skipGap_initial] at hend ⊢
    exact skipSpace_append_of_eq hend
  · next hopen =>
    obtain ⟨step, hstep, rfl, rfl⟩ := h
    obtain ⟨pairs, hpairs, hstep⟩ := Option.bind_eq_some_iff.1 hstep
    obtain ⟨table, htable, hstep⟩ := Option.bind_eq_some_iff.1 hstep
    cases hstep
    have htakes : Takes (pairs? .initial value text) pairs.value pairs.rest :=
      ⟨pairs, hpairs, rfl, rfl⟩
    refine takes_inlineTable? (fun more hend => ?_) (pairs?_append hvalue hrest htakes) htable
    have hne := ne_nil_of_pairs? htakes
    rw [skipGap_initial, skipSpace_append hne] at hend
    obtain ⟨c, tail, hskip⟩ := List.exists_cons_of_ne_nil hne
    rw [hskip] at hend
    cases hend
    exact hopen tail (by rw [skipGap_initial, hskip])

end Tables

theorem plainStep?_append {value : Value} (hrest : Stops rest)
    (h : Takes (plainStep? edition text) value after) :
    Takes (plainStep? edition (text ++ rest)) value (after ++ rest) := by
  obtain ⟨step, hstep, rfl, rfl⟩ := h
  unfold plainStep? at hstep
  split at hstep
  · next value after hplain =>
    cases hstep
    have hlong : plainValue? edition (text ++ rest) = _ := plainValue?_append hrest text
    rw [hplain] at hlong
    unfold plainStep?
    split
    · next other otherAfter hother =>
      rw [hlong] at hother
      cases hother
      exact ⟨_, rfl, rfl, rfl⟩
    · next hnone =>
      rw [hlong] at hnone
      cases hnone
  · cases hstep

theorem plainStep?_of_isStop (hc : isStop c = true) (text : List Char) :
    plainStep? edition (c :: text) = none := by
  have hplain : plainValue? edition (c :: text) = none := by
    apply plainValue?_of_ends
    rintro d hd
    cases hd
    exact hc
  unfold plainStep?
  split
  · next value after hvalue =>
    rw [hplain] at hvalue
    cases hvalue
  · rfl

section Values

variable {levels : Nat} {value : Value} {items : List Value}

theorem value?_cons (edition : Edition) (levels : Nat) (c : Char) (text : List Char) :
    value? edition levels (c :: text) =
      if c = '"' ∨ c = '\'' then (string? edition (c :: text)).map (·.map .string)
      else if c = '[' ∨ c = '\x7b' then
        match levels with
        | 0 => none
        | levels + 1 =>
          if c = '[' then
            (items? (value? edition levels) text).map fun step => (step.map .array).behind c
          else (inlineTable? edition (value? edition levels) text).map (·.behind c)
      else plainStep? edition (c :: text) := by
  cases levels <;> rfl

theorem takes_value?_string {s : String} (hc : c = '"' ∨ c = '\'')
    (h : Takes (string? edition (c :: text)) s rest) :
    Takes (value? edition levels (c :: text)) (.string s) rest := by
  obtain ⟨step, hstep, rfl, rfl⟩ := h
  rw [value?_cons, if_pos hc, hstep]
  exact ⟨_, rfl, rfl, rfl⟩

theorem takes_value?_array (h : Takes (items? (value? edition levels) text) items rest) :
    Takes (value? edition (levels + 1) ('[' :: text)) (.array items) rest := by
  obtain ⟨step, hstep, rfl, rfl⟩ := h
  rw [value?_cons, if_neg (by decide), if_pos (by decide)]
  dsimp only
  rw [if_pos rfl, hstep]
  exact ⟨_, rfl, rfl, rfl⟩

theorem takes_value?_table
    (h : Takes (inlineTable? edition (value? edition levels) text) value rest) :
    Takes (value? edition (levels + 1) ('\x7b' :: text)) value rest := by
  obtain ⟨step, hstep, rfl, rfl⟩ := h
  rw [value?_cons, if_neg (by decide), if_pos (by decide)]
  dsimp only
  rw [if_neg (by decide), hstep]
  exact ⟨_, rfl, rfl, rfl⟩

theorem takes_value?_plain (hstring : ¬ (c = '"' ∨ c = '\'')) (hopen : ¬ (c = '[' ∨ c = '\x7b'))
    (h : Takes (plainStep? edition (c :: text)) value rest) :
    Takes (value? edition levels (c :: text)) value rest := by
  rwa [value?_cons, if_neg hstring, if_neg hopen]

theorem head_of_value? (h : Takes (value? edition levels text) value after) :
    ∃ c more, text = c :: more ∧ isStop c = false := by
  cases text with
  | nil =>
    obtain ⟨step, hstep, -⟩ := h
    rw [value?.eq_def] at hstep
    cases hstep
  | cons c more =>
    refine ⟨c, more, rfl, Bool.eq_false_iff.2 fun hc => ?_⟩
    have hstring : ¬ (c = '"' ∨ c = '\'') := by
      rintro (rfl | rfl) <;> cases hc
    have hopen : ¬ (c = '[' ∨ c = '\x7b') := by
      rintro (rfl | rfl) <;> cases hc
    obtain ⟨step, hstep, -⟩ := h
    rw [value?_cons, if_neg hstring, if_neg hopen, plainStep?_of_isStop hc] at hstep
    cases hstep

end Values

theorem extends_value? (levels : Nat) : Extends (value? .initial levels) := by
  induction levels using Nat.strongRecOn with
  | ind levels ih =>
    refine ⟨?_, head_of_value?⟩
    intro text rest after value hrest h
    obtain ⟨c, more, rfl, -⟩ := head_of_value? h
    rw [value?_cons] at h
    split at h
    · next hmark =>
      obtain ⟨step, hstep, rfl, rfl⟩ := h
      obtain ⟨s, hs, rfl⟩ := Option.map_eq_some_iff.1 hstep
      exact takes_value?_string hmark (string?_append hrest.head ⟨s, hs, rfl, rfl⟩)
    · next hmark =>
      split at h
      · next hopen =>
        obtain ⟨step, hstep, rfl, rfl⟩ := h
        cases levels with
        | zero => cases hstep
        | succ levels =>
          have hinner := ih levels (Nat.lt_succ_self levels)
          rcases hopen with rfl | rfl
          · obtain ⟨items, hitems, rfl⟩ := Option.map_eq_some_iff.1 hstep
            exact takes_value?_array (items?_append hinner hrest ⟨items, hitems, rfl, rfl⟩)
          · obtain ⟨table, htable, rfl⟩ := Option.map_eq_some_iff.1 hstep
            exact takes_value?_table (inlineTable?_append hinner hrest ⟨table, htable, rfl, rfl⟩)
      · next hopen => exact takes_value?_plain hmark hopen (plainStep?_append hrest h)

end TypedEnv.Toml
