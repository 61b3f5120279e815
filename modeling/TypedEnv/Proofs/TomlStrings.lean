import Mathlib.Data.List.Basic
import TypedEnv.Proofs.TomlNumerals

/-!
The strings and keys of TOML are read alike in front of any text that cannot belong to them.  One
mark more behind an empty string would make it the start of a string of several lines.
-/

namespace TypedEnv.Toml

open TypedEnv.Text TypedEnv.KeyLine

def Takes {α : Type} {text : List Char} (result : Option (Step α text)) (value : α)
    (rest : List Char) : Prop :=
  ∃ step, result = some step ∧ step.value = value ∧ step.rest = rest

variable {α β : Type} {edition : Edition} {text rest after : List Char} {c : Char}

theorem Takes.map {part : List Char} {result : Option (Step α part)} {x : α}
    (h : Takes result x rest) (f : (step : Step α part) → Step β text) {y : β}
    (hvalue : ∀ step, step.value = x → (f step).value = y)
    (hrest : ∀ step, (f step).rest = step.rest) : Takes (result.map f) y rest := by
  obtain ⟨step, rfl, hx, rfl⟩ := h
  exact ⟨f step, rfl, hvalue step hx, hrest step⟩

theorem length_of_mapM {f : α → Option β} {items : List α} {images : List β}
    (h : items.mapM f = some images) : images.length = items.length := by
  induction items generalizing images with
  | nil =>
    cases h
    rfl
  | cons item items ih =>
    rw [List.mapM_cons] at h
    obtain ⟨image, -, h⟩ := Option.bind_eq_some_iff.1 h
    obtain ⟨others, hothers, h⟩ := Option.bind_eq_some_iff.1 h
    cases h
    rw [List.length_cons, List.length_cons, ih hothers]

theorem codePoint?_append {count : Nat} {value : Char} (h : codePoint? count text = some value) :
    count ≤ text.length ∧ codePoint? count (text ++ rest) = some value := by
  have hlength : count ≤ text.length := by
    unfold codePoint? at h
    split at h
    · cases h
    · next digits hdigits =>
      obtain ⟨⟨hcount, -⟩, -⟩ := Option.ite_none_right_eq_some.1 h
      have htaken := length_of_mapM hdigits
      rw [hcount, List.length_take] at htaken
      omega
  refine ⟨hlength, ?_⟩
  rwa [codePoint?, List.take_append_of_le_length hlength]

def plainEscape? (edition : Edition) (c : Char) : Option Char :=
  if c = 'b' then some '\x08'
  else if c = 'e' ∧ edition.shortEscapes then some '\x1b'
  else if c = 't' then some '\t'
  else if c = 'n' then some '\n'
  else if c = 'f' then some '\x0c'
  else if c = 'r' then some '\r'
  else if c = '"' ∨ c = '\\' then some c
  else none

def escapeDigits? (edition : Edition) (c : Char) : Option Nat :=
  if c = 'x' ∧ edition.shortEscapes then some 2
  else if c = 'u' then some 4
  else if c = 'U' then some 8
  else none

theorem escape?_cons (edition : Edition) (c : Char) (text : List Char) :
    escape? edition (c :: text) = match plainEscape? edition c with
      | some value => some (.head value)
      | none => (escapeDigits? edition c).bind fun count =>
        (codePoint? count text).map fun value =>
          ⟨value, text.drop count, length_drop_lt_cons count c text⟩ := by
  rw [escape?]
  fun_cases plainEscape? edition c with
  | case1 hb => rw [if_pos hb]
  | case2 hb he => rw [if_neg hb, if_pos he]
  | case3 hb he ht => rw [if_neg hb, if_neg he, if_pos ht]
  | case4 hb he ht hn => rw [if_neg hb, if_neg he, if_neg ht, if_pos hn]
  | case5 hb he ht hn hf => rw [if_neg hb, if_neg he, if_neg ht, if_neg hn, if_pos hf]
  | case6 hb he ht hn hf hr => rw [if_neg hb, if_neg he, if_neg ht, if_neg hn, if_neg hf, if_pos hr]
  | case7 hb he ht hn hf hr hmark =>
    rw [if_neg hb, if_neg he, if_neg ht, if_neg hn, if_neg hf, if_neg hr, if_pos hmark]
  | case8 hb he ht hn hf hr hmark =>
    rw [if_neg hb, if_neg he, if_neg ht, if_neg hn, if_neg hf, if_neg hr, if_neg hmark,
      escapeDigits?]
    split
    · rfl
    · split
      · rfl
      · split <;> rfl

theorem escape?_append {value : Char} (h : Takes (escape? edition text) value after) :
    Takes (escape? edition (text ++ rest)) value (after ++ rest) := by
  cases text with
  | nil =>
    obtain ⟨step, hstep, -⟩ := h
    cases hstep
  | cons c text =>
    obtain ⟨step, hstep, rfl, rfl⟩ := h
    rw [escape?_cons] at hstep
    rw [List.cons_append, escape?_cons]
    split at hstep
    · cases hstep
      exact ⟨_, rfl, rfl, rfl⟩
    · obtain ⟨count, hcount, hstep⟩ := Option.bind_eq_some_iff.1 hstep
      obtain ⟨x, hx, rfl⟩ := Option.map_eq_some_iff.1 hstep
      obtain ⟨hlength, happend⟩ := @codePoint?_append text rest _ _ hx
      rw [hcount, Option.bind_some, happend]
      exact ⟨_, rfl, rfl, List.drop_append_of_le_length hlength⟩

theorem takes_basicBody?_end : Takes (basicBody? edition ('"' :: rest)) [] rest := by
  rw [basicBody?, if_pos rfl]
  exact ⟨_, rfl, rfl, rfl⟩

theorem takes_basicBody?_escape {value : List Char} (hescape : Takes (escape? edition text) c after)
    (h : Takes (basicBody? edition after) value rest) :
    Takes (basicBody? edition ('\\' :: text)) (c :: value) rest := by
  obtain ⟨first, hfirst, rfl, rfl⟩ := hescape
  obtain ⟨tail, htail, rfl, rfl⟩ := h
  rw [basicBody?, if_neg (by decide), if_pos rfl, hfirst]
  dsimp only [Option.bind_eq_bind, Option.bind_some]
  rw [htail]
  exact ⟨_, rfl, rfl, rfl⟩

theorem takes_basicBody?_plain {value : List Char} (hquote : c ≠ '"') (hslash : c ≠ '\\')
    (hprint : isPrintable c = true) (h : Takes (basicBody? edition text) value rest) :
    Takes (basicBody? edition (c :: text)) (c :: value) rest := by
  obtain ⟨tail, htail, rfl, rfl⟩ := h
  rw [basicBody?, if_neg hquote, if_neg hslash, if_pos hprint, htail]
  exact ⟨_, rfl, rfl, rfl⟩

theorem basicBody?_append {value : List Char} (h : Takes (basicBody? edition text) value after) :
    Takes (basicBody? edition (text ++ rest)) value (after ++ rest) := by
  obtain ⟨step, hstep, rfl, rfl⟩ := h
  fun_induction basicBody? edition text with
  | case1 => cases hstep
  | case2 text =>
    cases hstep
    exact takes_basicBody?_end
  | case3 text hquote ih =>
    obtain ⟨first, hfirst, hstep⟩ := Option.bind_eq_some_iff.1 hstep
    obtain ⟨tail, htail, hstep⟩ := Option.bind_eq_some_iff.1 hstep
    cases hstep
    exact takes_basicBody?_escape (escape?_append ⟨first, hfirst, rfl, rfl⟩) (ih first tail htail)
  | case4 c text hquote hslash hprint ih =>
    obtain ⟨tail, htail, hstep⟩ := Option.bind_eq_some_iff.1 hstep
    cases hstep
    exact takes_basicBody?_plain hquote hslash hprint (ih tail htail)
  | case5 c text hquote hslash hprint => cases hstep

theorem literalBody?_append {value : List Char} (h : Takes (literalBody? text) value after) :
    Takes (literalBody? (text ++ rest)) value (after ++ rest) := by
  obtain ⟨step, hstep, rfl, rfl⟩ := h
  induction text with
  | nil => cases hstep
  | cons c text ih =>
    rw [literalBody?] at hstep
    rw [List.cons_append, literalBody?]
    split at hstep
    · next hquote =>
      cases hstep
      rw [if_pos hquote]
      exact ⟨_, rfl, rfl, rfl⟩
    · next hquote =>
      rw [if_neg hquote]
      split at hstep
      · next hprint =>
        obtain ⟨tail, htail, hstep⟩ := Option.bind_eq_some_iff.1 hstep
        cases hstep
        obtain ⟨next, hnext, hvalue, hrest⟩ := ih tail htail
        rw [if_pos hprint, hnext]
        exact ⟨_, rfl, congrArg (c :: ·) hvalue, hrest⟩
      · cases hstep

theorem skipSpace_append (h : skipSpace text ≠ []) :
    skipSpace (text ++ rest) = skipSpace text ++ rest := by
  rw [skipSpace, List.dropWhile_append, if_neg]
  · rfl
  · rwa [List.isEmpty_iff]

theorem lineBreak?_append (h : lineBreak? text = some after) :
    lineBreak? (text ++ rest) = some (after ++ rest) := by
  unfold lineBreak? at h
  split at h
  · cases h
    rfl
  · cases h
    rfl
  · cases h

theorem lineBreak?_of_ne (hfeed : c ≠ '\n') (hreturn : c ≠ '\r') (text : List Char) :
    lineBreak? (c :: text) = none := by
  simp [lineBreak?, hfeed, hreturn]

theorem skipBreaks_cons (hfeed : c ≠ '\n') (hreturn : c ≠ '\r') (text : List Char) :
    skipBreaks (c :: text) = if isSpace c then skipBreaks text else c :: text := by
  rw [skipBreaks.eq_def]
  simp [hreturn]

theorem ne_break_of_isSpace (h : isSpace c = true) : c ≠ '\n' ∧ c ≠ '\r' := by
  simp only [isSpace, decide_eq_true_eq] at h
  rcases h with rfl | rfl <;> decide

theorem skipBreaks_append (h : skipBreaks text = c :: after) (hc : c ≠ '\r') :
    skipBreaks (text ++ rest) = c :: after ++ rest := by
  fun_induction skipBreaks text with
  | case1 => cases h
  | case2 text ih => exact ih h
  | case3 text ih => exact ih h
  | case4 d text hfeed hreturn hspace ih =>
    obtain ⟨hfeed, hreturn⟩ := ne_break_of_isSpace hspace
    rw [List.cons_append, skipBreaks_cons hfeed hreturn, if_pos hspace, ih h]
  | case5 d text hfeed hreturn hspace =>
    cases h
    rw [List.cons_append, skipBreaks_cons hfeed hc, if_neg hspace]

theorem ne_of_escape? {value : Char} (h : Takes (escape? edition (c :: text)) value after) :
    isSpace c = false ∧ c ≠ '\n' ∧ c ≠ '\r' := by
  obtain ⟨step, hstep, -⟩ := h
  rw [escape?_cons] at hstep
  refine ⟨Bool.eq_false_iff.2 fun hspace => ?_, ?_, ?_⟩
  · simp only [isSpace, decide_eq_true_eq] at hspace
    rcases hspace with rfl | rfl <;> cases hstep
  · rintro rfl
    cases hstep
  · rintro rfl
    cases hstep

theorem lineBreak?_skipBreaks (text : List Char) : lineBreak? (skipBreaks text) = none := by
  fun_induction skipBreaks text with
  | case1 => rfl
  | case2 text ih => exact ih
  | case3 text ih => exact ih
  | case4 c text hfeed hreturn hspace ih => exact ih
  | case5 c text hfeed hreturn hspace =>
    unfold lineBreak?
    split
    · next heq =>
      cases heq
      exact absurd rfl hfeed
    · next tail heq =>
      cases heq
      exact absurd rfl (hreturn tail rfl)
    · rfl

theorem head_of_multilineBody? {mark : Char} {value : List Char} (hmark : isStop mark = false)
    (hbreak : lineBreak? text = none) (h : Takes (multilineBody? edition mark text) value after) :
    ∃ c more, text = c :: more ∧ c ≠ '\r' := by
  cases text with
  | nil =>
    rw [multilineBody?] at h
    obtain ⟨step, hstep, -⟩ := h
    cases hstep
  | cons c more =>
    refine ⟨c, more, rfl, ?_⟩
    rintro rfl
    have hne : '\r' ≠ mark := by
      rintro rfl
      cases hmark
    rw [multilineBody?, if_neg hne, if_neg (by simp)] at h
    obtain ⟨step, hstep, -⟩ := h
    split at hstep
    · next other hother =>
      rw [hbreak] at hother
      cases hother
    · cases hstep

theorem continuation?_append {value mid : List Char} (h : Takes (continuation? text) () mid)
    (hbody : Takes (multilineBody? edition '"' mid) value after) :
    Takes (continuation? (text ++ rest)) () (mid ++ rest) := by
  obtain ⟨step, hstep, -, rfl⟩ := h
  unfold continuation? at hstep
  split at hstep
  · next line hline =>
    cases hstep
    obtain ⟨c, more, hskip, hc⟩ :=
      head_of_multilineBody? (by decide) (lineBreak?_skipBreaks line) hbody
    have hne : skipSpace text ≠ [] := by
      intro hnil
      rw [hnil] at hline
      cases hline
    have hlong : lineBreak? (skipSpace text ++ rest) = _ := lineBreak?_append hline
    rw [← skipSpace_append hne] at hlong
    unfold continuation?
    split
    · next other hother =>
      rw [hlong] at hother
      cases hother
      exact ⟨_, rfl, rfl, (skipBreaks_append hskip hc).trans (hskip ▸ rfl)⟩
    · next hnone =>
      rw [hlong] at hnone
      cases hnone
  · cases hstep

theorem continuation?_of_escape {value : Char} (h : Takes (escape? edition text) value after) :
    continuation? (text ++ rest) = none := by
  cases text with
  | nil =>
    obtain ⟨step, hstep, -⟩ := h
    cases hstep
  | cons c text =>
    obtain ⟨hspace, hfeed, hreturn⟩ := ne_of_escape? h
    have hskip : lineBreak? (skipSpace (c :: text ++ rest)) = none := by
      rw [List.cons_append, skipSpace, List.dropWhile_cons, hspace]
      exact lineBreak?_of_ne hfeed hreturn _
    unfold continuation?
    split
    · next line hline =>
      rw [hskip] at hline
      cases hline
    · rfl

section Multiline

variable {mark : Char} {value : List Char}

theorem takeWhile_mark_append (hrest : Ends rest) (hmark : isStop mark = false)
    (text : List Char) : (text ++ rest).takeWhile (· == mark) = text.takeWhile (· == mark) := by
  apply takeWhile_append_stop
  exact fun c hc => beq_eq_false_iff_ne.2 (hrest.ne hmark c hc)

theorem takes_multilineBody?_end {a b d : Char} {more : List Char}
    (h : text.takeWhile (· == mark) = a :: b :: d :: more) :
    Takes (multilineBody? edition mark text) (more.take 2)
      (text.drop (3 + (more.take 2).length)) := by
  cases text with
  | nil => cases h
  | cons c text =>
    have hc : c = mark := by
      rw [List.takeWhile_cons] at h
      split at h
      · next hc => exact eq_of_beq hc
      · cases h
    rw [multilineBody?, if_pos hc]
    split
    · next hrun =>
      rw [h] at hrun
      cases hrun
      exact ⟨_, rfl, rfl, rfl⟩
    · next hrun => exact absurd h (hrun a b d more)

theorem takes_multilineBody?_mark
    (hfew : ∀ a b d more, (mark :: text).takeWhile (· == mark) ≠ a :: b :: d :: more)
    (h : Takes (multilineBody? edition mark text) value after) :
    Takes (multilineBody? edition mark (mark :: text)) (mark :: value) after := by
  obtain ⟨tail, htail, rfl, rfl⟩ := h
  rw [multilineBody?, if_pos rfl]
  split
  · next hrun => exact absurd hrun (hfew _ _ _ _)
  · rw [htail]
    exact ⟨_, rfl, rfl, rfl⟩

theorem takes_multilineBody?_continued (hcontinued : Takes (continuation? text) () after)
    (h : Takes (multilineBody? edition '"' after) value rest) :
    Takes (multilineBody? edition '"' ('\\' :: text)) value rest := by
  obtain ⟨next, hnext, -, rfl⟩ := hcontinued
  obtain ⟨tail, htail, rfl, rfl⟩ := h
  rw [multilineBody?, if_neg (by decide), if_pos (by decide), hnext]
  dsimp only [Option.bind_eq_bind, Option.bind_some]
  rw [htail]
  exact ⟨_, rfl, rfl, rfl⟩

theorem takes_multilineBody?_escape (hcontinued : continuation? text = none)
    (hescape : Takes (escape? edition text) c after)
    (h : Takes (multilineBody? edition '"' after) value rest) :
    Takes (multilineBody? edition '"' ('\\' :: text)) (c :: value) rest := by
  obtain ⟨first, hfirst, rfl, rfl⟩ := hescape
  obtain ⟨tail, htail, rfl, rfl⟩ := h
  rw [multilineBody?, if_neg (by decide), if_pos (by decide), hcontinued]
  dsimp only [Option.bind_eq_bind, Option.bind_some]
  rw [hfirst]
  dsimp only [Option.bind_eq_bind, Option.bind_some]
  rw [htail]
  exact ⟨_, rfl, rfl, rfl⟩

theorem takes_multilineBody?_break (hmark : c ≠ mark) (hslash : ¬ (c = '\\' ∧ mark = '"'))
    (hbreak : lineBreak? (c :: text) = some after)
    (h : Takes (multilineBody? edition mark after) value rest) :
    Takes (multilineBody? edition mark (c :: text)) (writtenBreak edition (c :: text) ++ value)
      rest := by
  obtain ⟨tail, htail, rfl, rfl⟩ := h
  rw [multilineBody?, if_neg hmark, if_neg hslash]
  split
  · next other hother =>
    rw [hbreak] at hother
    cases hother
    rw [htail]
    exact ⟨_, rfl, rfl, rfl⟩
  · next hnone =>
    rw [hbreak] at hnone
    cases hnone

theorem takes_multilineBody?_plain (hmark : c ≠ mark) (hslash : ¬ (c = '\\' ∧ mark = '"'))
    (hbreak : lineBreak? (c :: text) = none) (hprint : isPrintable c = true)
    (h : Takes (multilineBody? edition mark text) value rest) :
    Takes (multilineBody? edition mark (c :: text)) (c :: value) rest := by
  obtain ⟨tail, htail, rfl, rfl⟩ := h
  rw [multilineBody?, if_neg hmark, if_neg hslash]
  split
  · next other hother =>
    rw [hbreak] at hother
    cases hother
  · rw [if_pos hprint, htail]
    exact ⟨_, rfl, rfl, rfl⟩

/-- Several lines end at the first three marks in a row, with up to two marks more that belong to
the string.  What follows starts with no mark, so that it adds none to them. -/
theorem multilineBody?_append (hrest : Ends rest) (hmark : isStop mark = false)
    (h : Takes (multilineBody? edition mark text) value after) :
    Takes (multilineBody? edition mark (text ++ rest)) value (after ++ rest) := by
  obtain ⟨step, hstep, rfl, rfl⟩ := h
  fun_induction multilineBody? edition mark text with
  | case1 => cases hstep
  | case2 text a b d more kept hrun =>
    cases hstep
    have hlong := takeWhile_mark_append hrest hmark (mark :: text)
    rw [hrun] at hlong
    obtain ⟨result, hresult, hvalue, hafter⟩ :
        Takes (multilineBody? edition mark (mark :: text ++ rest)) _ _ :=
      takes_multilineBody?_end hlong
    refine ⟨result, hresult, hvalue, hafter.trans ?_⟩
    have hlength := (List.takeWhile_prefix (l := mark :: text) (· == mark)).length_le
    rw [hrun] at hlength
    apply List.drop_append_of_le_length
    simp only [List.length_cons, List.length_take] at hlength ⊢
    omega
  | case3 text hfew ih =>
    obtain ⟨tail, htail, hstep⟩ := Option.bind_eq_some_iff.1 hstep
    cases hstep
    refine takes_multilineBody?_mark (fun a b d more hrun => ?_) (ih tail htail)
    exact hfew a b d more ((takeWhile_mark_append hrest hmark (mark :: text)).symm.trans hrun)
  | case4 c text hmark hslash next hcontinued hshorter ih =>
    obtain ⟨tail, htail, hstep⟩ := Option.bind_eq_some_iff.1 hstep
    cases hstep
    obtain ⟨rfl, rfl⟩ := hslash
    have hnext : Takes (continuation? text) () next.rest := ⟨next, hcontinued, rfl, rfl⟩
    exact takes_multilineBody?_continued (continuation?_append hnext ⟨tail, htail, rfl, rfl⟩)
      (ih tail htail)
  | case5 c text hmark hslash hcontinued ih =>
    obtain ⟨first, hfirst, hstep⟩ := Option.bind_eq_some_iff.1 hstep
    obtain ⟨tail, htail, hstep⟩ := Option.bind_eq_some_iff.1 hstep
    cases hstep
    obtain ⟨rfl, rfl⟩ := hslash
    have hescape : Takes (escape? edition text) first.value first.rest := ⟨first, hfirst, rfl, rfl⟩
    exact takes_multilineBody?_escape (continuation?_of_escape hescape) (escape?_append hescape)
      (ih first tail htail)
  | case6 c text hmark hslash next hbreak hshorter ih =>
    obtain ⟨tail, htail, hstep⟩ := Option.bind_eq_some_iff.1 hstep
    cases hstep
    have hwritten :
        writtenBreak edition (c :: text) = writtenBreak edition (c :: (text ++ rest)) := by
      by_cases hc : c = '\r'
      · subst hc
        rfl
      · simp [writtenBreak, hc]
    dsimp only
    rw [hwritten]
    exact takes_multilineBody?_break hmark hslash (lineBreak?_append hbreak) (ih tail htail)
  | case7 c text hmark hslash hbreak hprint ih =>
    obtain ⟨tail, htail, hstep⟩ := Option.bind_eq_some_iff.1 hstep
    cases hstep
    have hlong : lineBreak? (c :: (text ++ rest)) = none := by
      apply lineBreak?_of_ne
      · rintro rfl
        cases hprint
      · rintro rfl
        cases hprint
    exact takes_multilineBody?_plain hmark hslash hlong hprint (ih tail htail)
  | case8 c text hmark hslash hbreak hprint => cases hstep

theorem multiline?_append (hrest : Ends rest) (hmark : isStop mark = false)
    (h : Takes (multiline? edition mark text) value after) :
    Takes (multiline? edition mark (text ++ rest)) value (after ++ rest) := by
  unfold multiline? at h
  split at h
  · next line hline =>
    obtain ⟨step, hstep, rfl, rfl⟩ := h
    obtain ⟨body, hbody, rfl⟩ := Option.map_eq_some_iff.1 hstep
    have hlong : lineBreak? (text ++ rest) = _ := lineBreak?_append hline
    unfold multiline?
    split
    · next other hother =>
      rw [hlong] at hother
      cases hother
      exact (multilineBody?_append hrest hmark ⟨body, hbody, rfl, rfl⟩).map _ (fun _ => id)
        fun _ => rfl
    · next hnone =>
      rw [hlong] at hnone
      cases hnone
  · next hline =>
    have hlong : lineBreak? (text ++ rest) = none := by
      obtain ⟨c, more, rfl, hreturn⟩ := head_of_multilineBody? hmark hline h
      apply lineBreak?_of_ne ?_ hreturn
      rintro rfl
      cases hline
    unfold multiline?
    split
    · next other hother =>
      rw [hlong] at hother
      cases hother
    · exact multilineBody?_append hrest hmark h

end Multiline

theorem two_marks_of_append {mark : Char} {more : List Char} (hrest : Ends rest)
    (hmark : isStop mark = false) (hne : text ≠ []) (h : text ++ rest = mark :: mark :: more) :
    ∃ tail, text = mark :: mark :: tail := by
  match text with
  | [] => exact absurd rfl hne
  | [c] =>
    obtain ⟨-, rfl⟩ := List.cons.inj h
    exact absurd rfl (hrest.ne hmark mark rfl)
  | c :: d :: tail =>
    cases h
    exact ⟨tail, rfl⟩

theorem string?_append {value : String} (hrest : Ends rest)
    (h : Takes (string? edition text) value after) :
    Takes (string? edition (text ++ rest)) value (after ++ rest) := by
  unfold string? at h
  split at h
  · next more =>
    obtain ⟨step, hstep, rfl, rfl⟩ := h
    obtain ⟨body, hbody, rfl⟩ := Option.map_eq_some_iff.1 hstep
    exact (multiline?_append hrest (by decide) ⟨body, hbody, rfl, rfl⟩).map _
      (fun _ heq => congrArg String.ofList heq) fun _ => rfl
  · next more hone =>
    obtain ⟨step, hstep, rfl, rfl⟩ := h
    obtain ⟨body, hbody, rfl⟩ := Option.map_eq_some_iff.1 hstep
    have hne : more ≠ [] := by
      rintro rfl
      rw [basicBody?] at hbody
      cases hbody
    rw [List.cons_append, string?]
    · exact (basicBody?_append ⟨body, hbody, rfl, rfl⟩).map _
        (fun _ heq => congrArg String.ofList heq) fun _ => rfl
    · intro tail heq
      obtain ⟨tail, rfl⟩ := two_marks_of_append hrest (by decide) hne heq
      exact hone tail rfl
  · next more =>
    obtain ⟨step, hstep, rfl, rfl⟩ := h
    obtain ⟨body, hbody, rfl⟩ := Option.map_eq_some_iff.1 hstep
    exact (multiline?_append hrest (by decide) ⟨body, hbody, rfl, rfl⟩).map _
      (fun _ heq => congrArg String.ofList heq) fun _ => rfl
  · next more hone =>
    obtain ⟨step, hstep, rfl, rfl⟩ := h
    obtain ⟨body, hbody, rfl⟩ := Option.map_eq_some_iff.1 hstep
    have hne : more ≠ [] := by
      rintro rfl
      cases hbody
    rw [List.cons_append, string?]
    · exact (literalBody?_append ⟨body, hbody, rfl, rfl⟩).map _
        (fun _ heq => congrArg String.ofList heq) fun _ => rfl
    · intro tail heq
      obtain ⟨tail, rfl⟩ := two_marks_of_append hrest (by decide) hne heq
      exact hone tail rfl
  · obtain ⟨step, hstep, -⟩ := h
    cases hstep

theorem isBareKeyChar_of_isStop (h : isStop c = true) : isBareKeyChar c = false := by
  rcases eq_of_isStop h with rfl | rfl | rfl | rfl | rfl | rfl | rfl | rfl <;> decide

theorem ne_nil_of_keyPart? {part : String} (h : Takes (keyPart? edition text) part after) :
    text ≠ [] := by
  rintro rfl
  obtain ⟨step, hstep, -⟩ := h
  cases hstep

theorem keyPart?_append {part : String} (hrest : Ends rest)
    (h : Takes (keyPart? edition text) part after) :
    Takes (keyPart? edition (text ++ rest)) part (after ++ rest) := by
  have hstop : ∀ c ∈ rest.head?, isBareKeyChar c = false :=
    fun c hc => isBareKeyChar_of_isStop (hrest c hc)
  unfold keyPart? at h
  split at h
  · obtain ⟨step, hstep, rfl, rfl⟩ := h
    obtain ⟨body, hbody, rfl⟩ := Option.map_eq_some_iff.1 hstep
    exact (basicBody?_append ⟨body, hbody, rfl, rfl⟩).map _
      (fun _ heq => congrArg String.ofList heq) fun _ => rfl
  · obtain ⟨step, hstep, rfl, rfl⟩ := h
    obtain ⟨body, hbody, rfl⟩ := Option.map_eq_some_iff.1 hstep
    exact (literalBody?_append ⟨body, hbody, rfl, rfl⟩).map _
      (fun _ heq => congrArg String.ofList heq) fun _ => rfl
  · next c more hquote hmark =>
    obtain ⟨step, hstep, rfl, rfl⟩ := h
    obtain ⟨hbare, heq⟩ := Option.ite_none_right_eq_some.1 hstep
    cases heq
    rw [List.cons_append, keyPart?, if_pos hbare, takeWhile_append_stop hstop]
    · exact ⟨_, rfl, rfl, dropWhile_append_stop hstop more⟩
    · exact hquote
    · exact hmark
  · obtain ⟨step, hstep, -⟩ := h
    cases hstep

theorem takes_keyParts?_last {part : String} {mid : List Char}
    (hpart : Takes (keyPart? edition (skipSpace text)) part mid)
    (hlast : ∀ more, skipSpace mid ≠ '.' :: more) :
    Takes (keyParts? edition text) [part] (skipSpace mid) := by
  obtain ⟨first, hfirst, rfl, rfl⟩ := hpart
  rw [keyParts?, hfirst]
  dsimp only [Option.bind_eq_bind, Option.bind_some]
  split
  · next more hpoint => exact absurd hpoint (hlast more)
  · exact ⟨_, rfl, rfl, rfl⟩

theorem takes_keyParts?_next {part : String} {parts : List String} {mid more : List Char}
    (hpart : Takes (keyPart? edition (skipSpace text)) part mid)
    (hpoint : skipSpace mid = '.' :: more) (h : Takes (keyParts? edition more) parts after) :
    Takes (keyParts? edition text) (part :: parts) after := by
  obtain ⟨first, hfirst, rfl, rfl⟩ := hpart
  obtain ⟨tail, htail, rfl, rfl⟩ := h
  rw [keyParts?, hfirst]
  dsimp only [Option.bind_eq_bind, Option.bind_some]
  split
  · next other hother =>
    rw [hpoint] at hother
    cases hother
    rw [htail]
    exact ⟨_, rfl, rfl, rfl⟩
  · next hlast => exact absurd hpoint (hlast more)

theorem keyParts?_append {parts : List String} (hrest : Ends rest)
    (h : Takes (keyParts? edition text) parts (c :: after)) :
    Takes (keyParts? edition (text ++ rest)) parts (c :: after ++ rest) := by
  obtain ⟨step, hstep, rfl, hafter⟩ := h
  fun_induction keyParts? edition text with
  | case1 text ih =>
    obtain ⟨first, hfirst, hstep⟩ := Option.bind_eq_some_iff.1 hstep
    have hpart := keyPart?_append hrest ⟨first, hfirst, rfl, rfl⟩
    have hne : skipSpace text ≠ [] := ne_nil_of_keyPart? ⟨first, hfirst, rfl, rfl⟩
    rw [← skipSpace_append hne] at hpart
    split at hstep
    · next more hpoint =>
      obtain ⟨tail, htail, hstep⟩ := Option.bind_eq_some_iff.1 hstep
      cases hstep
      refine takes_keyParts?_next hpart ?_ (ih first more hpoint tail htail hafter)
      rw [skipSpace_append (by rw [hpoint]; simp), hpoint]
      rfl
    · next hlast =>
      cases hstep
      have hafter : skipSpace first.rest = c :: after := hafter
      have hskip : skipSpace (first.rest ++ rest) = c :: after ++ rest := by
        rw [← hafter]
        exact skipSpace_append (by rw [hafter]; simp)
      rw [← hskip]
      apply takes_keyParts?_last hpart
      intro more hpoint
      rw [hskip] at hpoint
      cases hpoint
      exact hlast after hafter

theorem takes_key? {parts path : List String} {name : String}
    (h : Takes (keyParts? edition text) parts rest) (hparts : parts = path ++ [name])
    (hlength : parts.length ≤ edition.keyParts) :
    Takes (key? edition text) (path, name) rest := by
  obtain ⟨step, hstep, hvalue, rfl⟩ := h
  rw [key?, hstep]
  dsimp only [Option.bind_eq_bind, Option.bind_some]
  rw [hvalue, hparts, List.getLast?_concat]
  dsimp only
  rw [if_pos (by rwa [← hparts])]
  refine ⟨_, rfl, ?_, rfl⟩
  simp [Step.map, hvalue, hparts]

theorem key?_append {key : List String × String} (hrest : Ends rest)
    (h : Takes (key? edition text) key (c :: after)) :
    Takes (key? edition (text ++ rest)) key (c :: after ++ rest) := by
  obtain ⟨step, hstep, rfl, hafter⟩ := h
  obtain ⟨parts, hparts, hstep⟩ := Option.bind_eq_some_iff.1 hstep
  split at hstep
  · next last hlast =>
    obtain ⟨hlength, hstep⟩ := Option.ite_none_right_eq_some.1 hstep
    cases hstep
    have hlong := keyParts?_append hrest ⟨parts, hparts, rfl, hafter⟩
    exact takes_key? hlong (List.dropLast_append_getLast? last hlast).symm hlength
  · cases hstep

end TypedEnv.Toml
