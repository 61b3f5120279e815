import TypedEnv.Proofs.Text
import TypedEnv.Schema.KeyLine
import TypedEnv.Toml.Parser

/-!
The numbers, dates and times of TOML are read alike in front of any text that cannot belong to them.
-/

namespace TypedEnv.Toml

open TypedEnv.Text TypedEnv.KeyLine

def isStop (c : Char) : Bool :=
  isSpace c || c == '\n' || c == '\r' || c == '#' || c == ',' || c == ']' || c == '\x7d'

def Ends (rest : List Char) : Prop := ∀ c ∈ rest.head?, isStop c = true

/-- Nothing of a text belongs to a value in front of it.  A time may follow its date after a blank,
so what stands behind a blank counts too. -/
structure Stops (rest : List Char) : Prop where
  head : Ends rest
  behind : ∀ more, rest = ' ' :: more → Ends more

/-- What a reader gives when more text follows than what it left over. -/
def before {α : Type} (rest : List Char) (result : α × List Char) : α × List Char :=
  (result.1, result.2 ++ rest)

variable {rest text : List Char} {c : Char}

theorem eq_of_isStop (h : isStop c = true) : c = ' ' ∨ c = '\t' ∨ c = '\n' ∨ c = '\r' ∨ c = '#' ∨
    c = ',' ∨ c = ']' ∨ c = '\x7d' := by
  simpa [isStop, isSpace, or_assoc] using h

theorem Ends.ne (h : Ends rest) (hc : isStop c = false) : ∀ d ∈ rest.head?, d ≠ c := by
  rintro d hd rfl
  rw [h d hd] at hc
  cases hc

theorem isDigit_of_isStop (h : isStop c = true) : isDigit c = false := by
  rcases eq_of_isStop h with rfl | rfl | rfl | rfl | rfl | rfl | rfl | rfl <;> decide

theorem Ends.isDigit (h : Ends rest) : ∀ c ∈ rest.head?, isDigit c = false :=
  fun c hc => isDigit_of_isStop (h c hc)

theorem bind_before {α β : Type} {read : List Char → Option (α × List Char)}
    {next : α × List Char → Option (β × List Char)}
    (h : read (text ++ rest) = (read text).map (before rest))
    (hnext : ∀ value after, next (value, after ++ rest) = (next (value, after)).map (before rest)) :
    (read (text ++ rest) >>= next) = (read text >>= next).map (before rest) := by
  rw [h]
  cases read text with
  | none => rfl
  | some result => exact hnext result.1 result.2

theorem after?_append {word : List Char} (hrest : Ends rest) (hword : word.any isStop = false)
    (text : List Char) : after? word (text ++ rest) = (after? word text).map (· ++ rest) := by
  have hprefix : word.isPrefixOf (text ++ rest) = word.isPrefixOf text := by
    induction word generalizing text with
    | nil => rfl
    | cons d word ih =>
      rw [List.any_cons, Bool.or_eq_false_iff] at hword
      cases text with
      | nil =>
        cases rest with
        | nil => rfl
        | cons c rest =>
          have hne : c ≠ d := hrest.ne hword.1 c rfl
          simp [List.isPrefixOf, hne.symm]
      | cons e text => simp [List.isPrefixOf, ih hword.2]
  rw [after?, after?, hprefix]
  split
  · next hfits =>
    have hlength := (List.isPrefixOf_iff_prefix.1 hfits).length_le
    rw [List.drop_append_of_le_length hlength, Option.map_some]
  · rfl

theorem after?_eq_none {word : List Char} (h : ∀ after, text ≠ word ++ after) :
    after? word text = none := by
  rw [after?, if_neg]
  rintro hfits
  obtain ⟨after, rfl⟩ := List.isPrefixOf_iff_prefix.1 hfits
  exact h after rfl

section Digits

variable {digit : Char → Bool}

theorem moreDigits?_cons (hc : c ≠ '_') (text : List Char) :
    moreDigits? digit (c :: text) =
      if digit c then (moreDigits? digit text).map fun (digits, rest) => (c :: digits, rest)
      else some ([], c :: text) := by
  rw [moreDigits?.eq_def]
  simp [hc]

theorem ne_of_alone (hpair : ∀ d rest, c = '_' → text = d :: rest → False)
    (halone : c = '_' → text = [] → False) : c ≠ '_' := by
  rintro rfl
  cases text with
  | nil => exact halone rfl rfl
  | cons d text => exact hpair d text rfl rfl

theorem moreDigits?_append (hrest : Ends rest) (hdigit : ∀ c, isStop c = true → digit c = false)
    (text : List Char) :
    moreDigits? digit (text ++ rest) = (moreDigits? digit text).map (before rest) := by
  fun_induction moreDigits? digit text with
  | case1 c text hc ih => simp [moreDigits?, hc, ih, Option.map_map, before, Function.comp_def]
  | case2 c text hc => simp [moreDigits?, hc]
  | case3 =>
    cases rest with
    | nil => rfl
    | cons c rest => simp [moreDigits?, hdigit c (hrest c rfl)]
  | case4 c text hpair hlone hc ih =>
    have hne : c ≠ '_' := ne_of_alone hpair hlone
    rw [List.cons_append, moreDigits?_cons hne, if_pos hc, ih]
    simp [Option.map_map, before, Function.comp_def]
  | case5 c text hpair hlone hc =>
    have hne : c ≠ '_' := ne_of_alone hpair hlone
    rw [List.cons_append, moreDigits?_cons hne, if_neg hc]
    rfl
  | case6 =>
    cases rest with
    | nil => rfl
    | cons c rest =>
      have hc := hrest c rfl
      rw [List.nil_append, moreDigits?_cons (hrest.ne (by decide) c rfl), hdigit c hc]
      rfl

theorem digits?_append (hrest : Ends rest) (hdigit : ∀ c, isStop c = true → digit c = false)
    (text : List Char) : digits? digit (text ++ rest) = (digits? digit text).map (before rest) := by
  cases text with
  | nil =>
    cases rest with
    | nil => rfl
    | cons c rest => simp [digits?, hdigit c (hrest c rfl)]
  | cons c text =>
    rw [List.cons_append, digits?, digits?, moreDigits?_append hrest hdigit]
    split
    · simp [Option.map_map, before, Function.comp_def]
    · rfl

end Digits

theorem wholeDigits?_append (hrest : Ends rest) (text : List Char) :
    wholeDigits? (text ++ rest) = (wholeDigits? text).map (before rest) := by
  cases text with
  | nil =>
    cases rest with
    | nil => rfl
    | cons c rest =>
      have hne : c ≠ '0' := hrest.ne (by decide) c rfl
      simp [wholeDigits?, digits?, hne, hrest.isDigit c rfl]
  | cons c text =>
    by_cases hc : c = '0'
    · subst hc
      rfl
    · have hother (text : List Char) : wholeDigits? (c :: text) = digits? isDigit (c :: text) := by
        simp [wholeDigits?, hc]
      rw [List.cons_append, hother, hother, ← List.cons_append]
      exact digits?_append hrest (fun _ => isDigit_of_isStop) _

theorem fractionText?_append (hrest : Ends rest) (text : List Char) :
    fractionText? (text ++ rest) = (fractionText? text).map (before rest) := by
  cases text with
  | nil =>
    cases rest with
    | nil => rfl
    | cons c rest =>
      have hne : c ≠ '.' := hrest.ne (by decide) c rfl
      simp [fractionText?, hne, before]
  | cons c text =>
    by_cases hc : c = '.'
    · subst hc
      have hdigits := digits?_append hrest (fun _ => isDigit_of_isStop) text
      simp [fractionText?, hdigits, Option.map_map, before, Function.comp_def]
    · simp [fractionText?, hc, before]

theorem signText_append (hrest : Ends rest) (text : List Char) :
    signText (text ++ rest) = before rest (signText text) := by
  cases text with
  | nil =>
    cases rest with
    | nil => rfl
    | cons c rest =>
      have hplus : c ≠ '+' := hrest.ne (by decide) c rfl
      have hminus : c ≠ '-' := hrest.ne (by decide) c rfl
      simp [signText, hplus, hminus, before]
  | cons c text =>
    rw [List.cons_append]
    unfold signText
    split <;> simp_all [before]

theorem exponentText?_append (hrest : Ends rest) (text : List Char) :
    exponentText? (text ++ rest) = (exponentText? text).map (before rest) := by
  cases text with
  | nil =>
    cases rest with
    | nil => rfl
    | cons c rest =>
      have hsmall : c ≠ 'e' := hrest.ne (by decide) c rfl
      have hlarge : c ≠ 'E' := hrest.ne (by decide) c rfl
      simp [exponentText?, hsmall, hlarge, before]
  | cons c text =>
    rw [List.cons_append, exponentText?, exponentText?, signText_append hrest]
    split
    · have hdigits := digits?_append hrest (fun _ => isDigit_of_isStop) (signText text).2
      simp [before, hdigits, Option.map_map, Function.comp_def]
    · rfl

section Numbers

variable {edition : Edition}

theorem float?_append (hrest : Ends rest) (text : List Char) :
    float? edition (text ++ rest) = (float? edition text).map (before rest) := by
  unfold float?
  rw [signText_append hrest]
  refine bind_before (wholeDigits?_append hrest _) fun whole afterWhole => ?_
  refine bind_before (fractionText?_append hrest _) fun fraction afterFraction => ?_
  refine bind_before (exponentText?_append hrest _) fun exponent after => ?_
  dsimp only
  split
  · rfl
  · cases Binary64.ofText? ((signText text).1 ++ whole ++ fraction ++ exponent) with
    | none => rfl
    | some x =>
      dsimp only [Option.bind_eq_bind, Option.bind_some]
      split <;> rfl

theorem namedFloat?_eq (text : List Char) :
    namedFloat? text = match after? ['i', 'n', 'f'] (signText text).2 with
      | some after => some (.float (.infinite ((signText text).1 == ['-'])), after)
      | none =>
        (after? ['n', 'a', 'n'] (signText text).2).map fun after => (.float .nan, after) := by
  unfold namedFloat?
  dsimp only
  split
  · next after h =>
    rw [h]
    rfl
  · next after h =>
    rw [h]
    simp [after?, List.isPrefixOf]
  · next hinf hnan =>
    rw [after?_eq_none fun after h => hinf after h, after?_eq_none fun after h => hnan after h]
    rfl

theorem namedFloat?_append (hrest : Ends rest) (text : List Char) :
    namedFloat? (text ++ rest) = (namedFloat? text).map (before rest) := by
  rw [namedFloat?_eq, namedFloat?_eq, signText_append hrest]
  dsimp only [before]
  rw [after?_append hrest (by decide), after?_append hrest (by decide)]
  cases after? ['i', 'n', 'f'] (signText text).2 with
  | some after => rfl
  | none => cases after? ['n', 'a', 'n'] (signText text).2 <;> rfl

theorem based?_append (hrest : Ends rest) {base : Nat} {digit : Char → Bool}
    (hdigit : ∀ c, isStop c = true → digit c = false) (text : List Char) :
    based? edition base digit (text ++ rest) =
      (based? edition base digit text).map (before rest) := by
  refine bind_before (digits?_append hrest hdigit _) fun digits after => ?_
  dsimp only
  cases digits.mapM Json.hexValue? with
  | none => rfl
  | some values =>
    dsimp only [Option.bind_eq_bind, Option.bind_some]
    split <;> rfl

def signedInteger? (edition : Edition) (text : List Char) : Option (Value × List Char) := do
  let (digits, rest) ← wholeDigits? (signText text).2
  let n : Int := if (signText text).1 = ['-'] then -(ofDigits digits : Int) else ofDigits digits
  if edition.leastInteger ≤ n ∧ n ≤ edition.greatestInteger then some (.integer n, rest) else none

theorem signedInteger?_append (hrest : Ends rest) (text : List Char) :
    signedInteger? edition (text ++ rest) = (signedInteger? edition text).map (before rest) := by
  unfold signedInteger?
  rw [signText_append hrest]
  refine bind_before (wholeDigits?_append hrest _) fun digits after => ?_
  dsimp only
  rw [apply_ite (Option.map (before rest))]
  rfl

theorem integer?_eq (text : List Char) :
    integer? edition text = match after? ['0', 'x'] text with
      | some after => based? edition 16 (fun c => (Json.hexValue? c).isSome) after
      | none => match after? ['0', 'o'] text with
        | some after => based? edition 8 (fun c => '0' ≤ c && c ≤ '7') after
        | none => match after? ['0', 'b'] text with
          | some after => based? edition 2 (fun c => c == '0' || c == '1') after
          | none => signedInteger? edition text := by
  unfold integer?
  split
  · rfl
  · rfl
  · rfl
  · next hx ho hb =>
    rw [after?_eq_none hx, after?_eq_none ho, after?_eq_none hb]
    rfl

theorem integer?_append (hrest : Ends rest) (text : List Char) :
    integer? edition (text ++ rest) = (integer? edition text).map (before rest) := by
  have hdigit : ∀ c, isStop c = true → (Json.hexValue? c).isSome = false ∧
      ('0' ≤ c && c ≤ '7') = false ∧ (c == '0' || c == '1') = false := by
    intro c hc
    rcases eq_of_isStop hc with rfl | rfl | rfl | rfl | rfl | rfl | rfl | rfl <;> decide
  rw [integer?_eq, integer?_eq, after?_append hrest (by decide), after?_append hrest (by decide),
    after?_append hrest (by decide)]
  cases after? ['0', 'x'] text with
  | some after => exact based?_append hrest (fun c hc => (hdigit c hc).1) after
  | none =>
    cases after? ['0', 'o'] text with
    | some after => exact based?_append hrest (fun c hc => (hdigit c hc).2.1) after
    | none =>
      cases after? ['0', 'b'] text with
      | some after => exact based?_append hrest (fun c hc => (hdigit c hc).2.2) after
      | none => exact signedInteger?_append hrest text

end Numbers

theorem fixedDigits?_append (hrest : Ends rest) (count : Nat) (text : List Char) :
    fixedDigits? count (text ++ rest) = (fixedDigits? count text).map (before rest) := by
  by_cases hlength : count ≤ text.length
  · rw [fixedDigits?, fixedDigits?, List.take_append_of_le_length hlength,
      List.drop_append_of_le_length hlength, apply_ite (Option.map (before rest))]
    rfl
  · have hshort : (text.take count).length ≠ count := by
      rw [List.length_take]
      omega
    have hnone : fixedDigits? count text = none := if_neg fun h => hshort h.1
    rw [hnone]
    cases rest with
    | nil => rwa [List.append_nil]
    | cons c rest =>
      -- The digits would have to go on with the first character behind the text.
      obtain ⟨more, hmore⟩ : ∃ more, count - text.length = more + 1 :=
        Nat.exists_eq_add_one.2 (by omega)
      simp [fixedDigits?, List.take_append, hmore, hrest.isDigit c rfl]

theorem expect?_append (hrest : Ends rest) (hc : isStop c = false) (text : List Char) :
    expect? c (text ++ rest) = (expect? c text).map (· ++ rest) := by
  cases text with
  | nil =>
    cases rest with
    | nil => rfl
    | cons d rest => simp [expect?, hrest.ne hc d rfl]
  | cons d text =>
    rw [List.cons_append, expect?, expect?]
    split <;> rfl

theorem bind_expect? {β : Type} {next : List Char → Option (β × List Char)} (hrest : Ends rest)
    (hc : isStop c = false)
    (hnext : ∀ after, next (after ++ rest) = (next after).map (before rest)) :
    (expect? c (text ++ rest) >>= next) = (expect? c text >>= next).map (before rest) := by
  rw [expect?_append hrest hc]
  cases expect? c text with
  | none => rfl
  | some after => exact hnext after

theorem date?_append (hrest : Ends rest) (text : List Char) :
    date? (text ++ rest) = (date? text).map (before rest) := by
  refine bind_before (fixedDigits?_append hrest 4 _) fun year afterYear => ?_
  refine bind_expect? hrest (by decide) fun afterYear => ?_
  refine bind_before (fixedDigits?_append hrest 2 _) fun month afterMonth => ?_
  refine bind_expect? hrest (by decide) fun afterMonth => ?_
  refine bind_before (fixedDigits?_append hrest 2 _) fun day after => ?_
  dsimp only
  rw [apply_ite (Option.map (before rest))]
  rfl

theorem seconds?_append (hrest : Ends rest) (text : List Char) :
    seconds? (text ++ rest) = (seconds? text).map (before rest) := by
  refine bind_expect? hrest (by decide) fun after => ?_
  refine bind_before (fixedDigits?_append hrest 2 _) fun second after => ?_
  dsimp only
  split
  · cases after with
    | nil =>
      cases rest with
      | nil => rfl
      | cons c rest =>
        have hc : c ≠ '.' := hrest.ne (by decide) c rfl
        simp [hc, before]
    | cons c more =>
      by_cases hc : c = '.'
      · subst hc
        have hdigits := takeWhile_append_stop hrest.isDigit more
        have hafter := dropWhile_append_stop hrest.isDigit more
        simp [hdigits, hafter, apply_ite (Option.map (before rest)), before]
      · simp [hc, before]
  · rfl

theorem time?_append (hrest : Ends rest) {edition : Edition} (text : List Char) :
    time? edition (text ++ rest) = (time? edition text).map (before rest) := by
  refine bind_before (fixedDigits?_append hrest 2 _) fun hour afterHour => ?_
  refine bind_expect? hrest (by decide) fun afterHour => ?_
  refine bind_before (fixedDigits?_append hrest 2 _) fun minute after => ?_
  dsimp only
  split
  · cases after with
    | nil =>
      cases rest with
      | nil =>
        rw [List.nil_append, apply_ite (Option.map (before []))]
        rfl
      | cons c rest =>
        have hc : c ≠ ':' := hrest.ne (by decide) c rfl
        simp [hc, before]
    | cons c more =>
      by_cases hc : c = ':'
      · subst hc
        have hseconds := seconds?_append hrest (':' :: more)
        rw [List.cons_append] at hseconds
        simp [hseconds, Option.map_map, before, Function.comp_def]
      · simp [hc, before]
  · rfl

theorem offset?_append (hrest : Ends rest) (text : List Char) :
    offset? (text ++ rest) = (offset? text).map (before rest) := by
  cases text with
  | nil =>
    cases rest with
    | nil => rfl
    | cons c rest =>
      have hne {d : Char} (hd : isStop d = false) : c ≠ d := hrest.ne hd c rfl
      rw [List.nil_append, offset?, if_neg (by simp [@hne 'Z', @hne 'z', isStop, isSpace]),
        if_neg (by simp [@hne '+', @hne '-', isStop, isSpace])]
      rfl
  | cons c text =>
    rw [List.cons_append, offset?, offset?]
    split
    · rfl
    · split
      · refine bind_before (fixedDigits?_append hrest 2 _) fun hour afterHour => ?_
        refine bind_expect? hrest (by decide) fun afterHour => ?_
        refine bind_before (fixedDigits?_append hrest 2 _) fun minute after => ?_
        dsimp only
        rw [apply_ite (Option.map (before rest))]
        rfl
      · rfl

theorem datetime?_append (hrest : Stops rest) {edition : Edition} (text : List Char) :
    datetime? edition (text ++ rest) = (datetime? edition text).map (before rest) := by
  rw [datetime?, datetime?, date?_append hrest.head]
  cases date? text with
  | none =>
    rw [Option.map_none]
    dsimp only
    rw [time?_append hrest.head, Option.map_map, Option.map_map]
    rfl
  | some result =>
    obtain ⟨date, after⟩ := result
    rw [Option.map_some]
    dsimp only [before]
    cases after with
    | nil =>
      -- The text is over with the date: what follows must not be taken for its time.
      cases rest with
      | nil => rfl
      | cons c more =>
        rw [List.nil_append]
        dsimp only
        split
        · next hmark =>
          have hblank : c = ' ' := by
            refine (hmark.resolve_left ?_).resolve_left ?_
            · exact hrest.head.ne (by decide) c rfl
            · exact hrest.head.ne (by decide) c rfl
          have hmore : time? edition more = none :=
            time?_append (hrest.behind more (hblank ▸ rfl)) []
          rw [hmore]
          rfl
        · rfl
    | cons c more =>
      rw [List.cons_append]
      dsimp only
      rw [time?_append hrest.head]
      split
      · cases time? edition more with
        | none => rfl
        | some result =>
          rw [Option.map_some]
          dsimp only [before]
          rw [offset?_append hrest.head, Option.map_map, Option.map_map]
          rfl
      · rfl

variable {edition : Edition}

theorem numeral?_append (hrest : Stops rest) (text : List Char) :
    numeral? edition (text ++ rest) = (numeral? edition text).map (before rest) := by
  rw [numeral?, numeral?, datetime?_append hrest, float?_append hrest.head,
    namedFloat?_append hrest.head, integer?_append hrest.head, Option.map_or, Option.map_or,
    Option.map_or]

theorem plainValue?_eq (text : List Char) :
    plainValue? edition text = match after? ['t', 'r', 'u', 'e'] text with
      | some after => some (.boolean true, after)
      | none => match after? ['f', 'a', 'l', 's', 'e'] text with
        | some after => some (.boolean false, after)
        | none => numeral? edition text := by
  unfold plainValue?
  split
  · rfl
  · rfl
  · next htrue hfalse => rw [after?_eq_none htrue, after?_eq_none hfalse]

theorem plainValue?_append (hrest : Stops rest) (text : List Char) :
    plainValue? edition (text ++ rest) = (plainValue? edition text).map (before rest) := by
  rw [plainValue?_eq, plainValue?_eq, after?_append hrest.head (by decide),
    after?_append hrest.head (by decide), numeral?_append hrest]
  cases after? ['t', 'r', 'u', 'e'] text with
  | some after => rfl
  | none => cases after? ['f', 'a', 'l', 's', 'e'] text <;> rfl

theorem plainValue?_of_ends (hrest : Ends rest) : plainValue? edition rest = none := by
  have hdate : date? rest = none := date?_append hrest []
  have htime : time? edition rest = none := time?_append hrest []
  have hfloat : float? edition rest = none := float?_append hrest []
  have hnamed : namedFloat? rest = none := namedFloat?_append hrest []
  have hinteger : integer? edition rest = none := integer?_append hrest []
  have htrue : after? ['t', 'r', 'u', 'e'] rest = none := after?_append hrest (by decide) []
  have hfalse : after? ['f', 'a', 'l', 's', 'e'] rest = none := after?_append hrest (by decide) []
  rw [plainValue?_eq, htrue, hfalse]
  simp [numeral?, datetime?, hdate, htime, hfloat, hnamed, hinteger]

end TypedEnv.Toml
