import Mathlib.Data.List.TakeWhile
import TypedEnv.Proofs.EnvFile
import TypedEnv.Proofs.Pattern

/-!
The grammar of lines.  A line that is an assignment divides in one way into blanks, a key, blanks,
an equals sign and a rest, whose trimmed text is the value or writes it in quotes.  The pattern of
such lines, matched as matchers of patterns do, leads to the same key and value.
-/

namespace TypedEnv

open TypedEnv.Text

namespace Assignment

variable {mark : Char} {text inner value rest line : List Char} {a : Assignment}

structure Enclosed (mark : Char) (text : List Char) : Prop where
  length : 2 ≤ text.length
  head : text.head? = some mark
  last : text.getLast? = some mark

/-- The value that a trimmed text writes.  In double quotes each backslash before an `n` is the end
of a line, counted from the left; single quotes replace nothing. -/
inductive Writes (text : List Char) : List Char → Prop
  | double : Enclosed '"' text →
      Writes text (['\n'].intercalate (splitOn '\\' ['n'] text.tail.dropLast))
  | single : Enclosed '\'' text → Writes text text.tail.dropLast
  | plain : ¬ Enclosed '"' text → ¬ Enclosed '\'' text → Writes text text

theorem enclosed?_of_enclosed (h : Enclosed mark text) :
    enclosed? mark text = some text.tail.dropLast := by
  rw [enclosed?_eq_some_iff]
  cases text with
  | nil => cases h.head
  | cons first tail =>
    cases h.head
    have htail : tail ≠ [] := by
      rintro rfl
      exact absurd h.length (by simp)
    have hlast := h.last
    rw [List.getLast?_cons_of_ne_nil htail] at hlast
    rw [List.tail_cons, List.cons_append, List.dropLast_append_getLast? mark hlast]

theorem enclosed?_of_not_enclosed (h : ¬ Enclosed mark text) : enclosed? mark text = none := by
  rw [Option.eq_none_iff_forall_ne_some]
  intro inner hinner
  apply h
  rw [enclosed?_eq_some_iff.1 hinner]
  exact ⟨by simp, rfl, List.getLast?_concat⟩

theorem expandBreaks_eq (text : List Char) :
    expandBreaks text = ['\n'].intercalate (splitOn '\\' ['n'] text) := by
  induction text using expandBreaks.induct with
  | case1 rest ih =>
    have hsplit : splitOn '\\' ['n'] ('\\' :: 'n' :: rest) = [] :: splitOn '\\' ['n'] rest :=
      splitOn_prefix '\\' ['n'] rest
    rw [expandBreaks, ih, hsplit, List.intercalate_cons_of_ne_nil (splitOn_ne_nil _ _ _)]
    rfl
  | case2 c rest hc ih =>
    have hprefix : ¬ ['\\', 'n'] <+: c :: rest := by
      rintro ⟨later, hlater⟩
      injection hlater with hslash hn
      exact hc later hslash.symm hn.symm
    obtain ⟨first, pieces, hrest, hcons⟩ := splitOn_cons hprefix
    rw [expandBreaks, ih, hrest, hcons]
    · cases pieces <;> simp [List.intercalate_cons_of_ne_nil]
    · exact hc
  | case3 =>
    rw [splitOn_nil]
    rfl

theorem unquote_of_writes (h : Writes text value) : unquote text = value := by
  unfold unquote
  cases h with
  | double h =>
    rw [enclosed?_of_enclosed h]
    exact expandBreaks_eq _
  | single h =>
    have hdouble : ¬ Enclosed '"' text := by
      intro hdouble
      exact absurd (hdouble.head.symm.trans h.head) (by decide)
    rw [enclosed?_of_not_enclosed hdouble, enclosed?_of_enclosed h]
    rfl
  | plain hdouble hsingle =>
    rw [enclosed?_of_not_enclosed hdouble, enclosed?_of_not_enclosed hsingle]
    rfl

theorem exists_writes (text : List Char) : ∃ value, Writes text value := by
  by_cases hdouble : Enclosed '"' text
  · exact ⟨_, .double hdouble⟩
  · by_cases hsingle : Enclosed '\'' text
    · exact ⟨_, .single hsingle⟩
    · exact ⟨_, .plain hdouble hsingle⟩

theorem writes_iff : Writes text value ↔ unquote text = value := by
  constructor
  · exact unquote_of_writes
  · rintro rfl
    obtain ⟨value, h⟩ := exists_writes text
    rwa [unquote_of_writes h]

theorem value?_eq_some_iff :
    value? rest = some value ↔
      '\n' ∉ trim rest ∧ (trim rest).head? ≠ some '#' ∧ Writes (trim rest) value := by
  rw [value?, writes_iff]
  split
  · next h =>
    constructor
    · intro hnone
      cases hnone
    · rintro ⟨hbreak, hcomment, _⟩
      exact (h.elim hcomment hbreak).elim
  · next h =>
    rw [not_or] at h
    simp [h]

/-- A division of a line around its first equals sign. -/
structure Parts where
  front : List Char
  key : List Char
  gap : List Char
  rest : List Char

structure Parts.Divide (parts : Parts) (line : List Char) : Prop where
  line_eq : line = parts.front ++ (parts.key ++ (parts.gap ++ '=' :: parts.rest))
  front : ∀ c ∈ parts.front, isBlank c = true
  key_ne_nil : parts.key ≠ []
  key : ∀ c ∈ parts.key, isKeyChar c = true
  gap : ∀ c ∈ parts.gap, isBlank c = true

structure Parts.Give (parts : Parts) (a : Assignment) : Prop where
  unbroken : '\n' ∉ trim parts.rest
  no_comment : (trim parts.rest).head? ≠ some '#'
  key : a.key.toList = parts.key
  value : Writes (trim parts.rest) a.value.toList

/-! Reading a line from the left comes to the parts of any division: the key starts with no blank,
and what follows the key starts with a blank or the equals sign. -/

namespace Parts.Divide

variable {parts other : Parts}

theorem span_front (h : parts.Divide line) :
    line.takeWhile isBlank = parts.front ∧
      trimStart line = parts.key ++ (parts.gap ++ '=' :: parts.rest) := by
  have hhead : ∀ c ∈ (parts.key ++ (parts.gap ++ '=' :: parts.rest)).head?, isBlank c = false := by
    obtain ⟨first, tail, hkey⟩ := List.exists_cons_of_ne_nil h.key_ne_nil
    rw [hkey]
    rintro c ⟨⟩
    apply isBlank_of_isKeyChar
    apply h.key
    rw [hkey]
    exact List.mem_cons_self
  rw [h.line_eq]
  exact ⟨takeWhile_append_of_head h.front hhead, dropWhile_append_of_head h.front hhead⟩

theorem span_key (h : parts.Divide line) :
    (trimStart line).takeWhile isKeyChar = parts.key ∧
      (trimStart line).dropWhile isKeyChar = parts.gap ++ '=' :: parts.rest := by
  have hhead : ∀ c ∈ (parts.gap ++ '=' :: parts.rest).head?, isKeyChar c = false := by
    cases hgap : parts.gap with
    | nil =>
      rintro c ⟨⟩
      decide
    | cons first tail =>
      rintro c ⟨⟩
      apply isKeyChar_of_isBlank
      apply h.gap
      rw [hgap]
      exact List.mem_cons_self
  rw [h.span_front.2]
  exact ⟨takeWhile_append_of_head h.key hhead, dropWhile_append_of_head h.key hhead⟩

theorem span_gap (h : parts.Divide line) :
    ((trimStart line).dropWhile isKeyChar).takeWhile isBlank = parts.gap ∧
      trimStart ((trimStart line).dropWhile isKeyChar) = '=' :: parts.rest := by
  have hhead : ∀ c ∈ ('=' :: parts.rest).head?, isBlank c = false := by
    rintro c ⟨⟩
    decide
  rw [h.span_key.2]
  exact ⟨takeWhile_append_of_head h.gap hhead, dropWhile_append_of_head h.gap hhead⟩

theorem unique (h : parts.Divide line) (hother : other.Divide line) : parts = other := by
  have hrest := h.span_gap.2.symm.trans hother.span_gap.2
  obtain ⟨front, key, gap, rest⟩ := parts
  obtain ⟨otherFront, otherKey, otherGap, otherRest⟩ := other
  injection hrest with _ hrest
  rw [Parts.mk.injEq]
  exact ⟨h.span_front.1.symm.trans hother.span_front.1,
    h.span_key.1.symm.trans hother.span_key.1, h.span_gap.1.symm.trans hother.span_gap.1, hrest⟩

end Parts.Divide

theorem exists_divide (hkey : (trimStart line).takeWhile isKeyChar ≠ [])
    (hrest : trimStart ((trimStart line).dropWhile isKeyChar) = '=' :: rest) :
    ∃ parts : Parts, parts.Divide line := by
  refine ⟨⟨line.takeWhile isBlank, (trimStart line).takeWhile isKeyChar,
    ((trimStart line).dropWhile isKeyChar).takeWhile isBlank, rest⟩, ?_, ?_, hkey, ?_, ?_⟩
  · dsimp only
    rw [← hrest]
    unfold trimStart
    rw [List.takeWhile_append_dropWhile, List.takeWhile_append_dropWhile,
      List.takeWhile_append_dropWhile]
  · exact fun c => List.mem_takeWhile_imp
  · exact fun c => List.mem_takeWhile_imp
  · exact fun c => List.mem_takeWhile_imp

theorem ofLine?_of_divide {parts : Parts} (h : parts.Divide line) :
    ofLine? line =
      (value? parts.rest).map fun value => ⟨String.ofList parts.key, String.ofList value⟩ := by
  unfold ofLine?
  dsimp only
  rw [h.span_gap.2, h.span_key.1]
  exact if_neg h.key_ne_nil

theorem exists_divide_of_ofLine? (h : ofLine? line = some a) :
    ∃ parts : Parts, parts.Divide line := by
  unfold ofLine? at h
  dsimp only at h
  split at h
  · next hrest =>
    split at h
    · cases h
    · next hkey => exact exists_divide hkey hrest
  · cases h

theorem ofLine?_eq_some_iff :
    ofLine? line = some a ↔ ∃ parts : Parts, parts.Divide line ∧ parts.Give a := by
  constructor
  · intro h
    obtain ⟨parts, hparts⟩ := exists_divide_of_ofLine? h
    rw [ofLine?_of_divide hparts] at h
    obtain ⟨value, hvalue, rfl⟩ := Option.map_eq_some_iff.1 h
    obtain ⟨hbreak, hcomment, hwrites⟩ := value?_eq_some_iff.1 hvalue
    exact ⟨parts, hparts, hbreak, hcomment, String.toList_ofList,
      String.toList_ofList.symm ▸ hwrites⟩
  · rintro ⟨parts, hparts, hbreak, hcomment, hkey, hvalue⟩
    rw [ofLine?_of_divide hparts, value?_eq_some_iff.2 ⟨hbreak, hcomment, hvalue⟩, ← hkey]
    simp

namespace Line

def ending : Pattern := .seq (.many isBlank) .finish

def valued : Pattern := .seq (.optional (.group (.many (· != '\n')))) ending

def given : Pattern := .seq (.one (· == '=')) (.seq (.many isBlank) valued)

def keyed : Pattern :=
  .seq (.group (.seq (.one isKeyChar) (.many isKeyChar))) (.seq (.many isBlank) given)

/-- The whole pattern, `^\s*([\w.-]+)\s*=\s*(.*)?\s*$`. -/
def pattern : Pattern := .seq .start (.seq (.many isBlank) keyed)

theorem captured?_ending (text : List Char) :
    ending.captured? text = if text.all isBlank then some [] else none := by
  have hsheds : Pattern.finish.Sheds isBlank := by
    intro c rest _ h
    cases h
  rw [ending, Pattern.captured?_many_seq hsheds, Pattern.captured?_finish]
  simp only [List.dropWhile_eq_nil_iff, List.all_eq_true]

theorem sheds_ending (set : Char → Bool) : ending.Sheds set := by
  intro c rest _ h
  rw [captured?_ending, Option.isSome_ite, List.all_eq_true] at h ⊢
  exact fun d hd => h d (List.mem_cons_of_mem c hd)

theorem captured?_valued (text : List Char) :
    valued.captured? text =
      if (text.dropWhile (· != '\n')).all isBlank then some [some (text.takeWhile (· != '\n'))]
      else none := by
  rw [valued, Pattern.captured?_optional_seq (sheds_ending _), captured?_ending, captured?_ending]
  split
  · rfl
  · next hrest =>
    rw [if_neg]
    · rfl
    · rw [List.all_eq_true] at hrest ⊢
      exact fun hall => hrest fun c hc => hall c ((List.dropWhile_sublist _).subset hc)

theorem sheds_valued : valued.Sheds isBlank := by
  intro c rest _ h
  rw [captured?_valued, Option.isSome_ite, List.all_eq_true] at h ⊢
  intro d hd
  apply h
  rw [List.dropWhile_cons]
  split
  · exact hd
  · exact List.mem_cons_of_mem c ((List.dropWhile_sublist _).subset hd)

theorem captured?_given_of_ne {c : Char} (h : c ≠ '=') (rest : List Char) :
    given.captured? (c :: rest) = none := by
  rw [given, Pattern.captured?_one_seq_cons, if_neg (by simpa using h)]

theorem captured?_given (rest : List Char) :
    given.captured? ('=' :: rest) = valued.captured? (trimStart rest) := by
  rw [given, Pattern.captured?_one_seq_cons, Pattern.captured?_many_seq sheds_valued]
  rfl

theorem captured?_gap (text : List Char) :
    (Pattern.seq (.many isBlank) given).captured? text = given.captured? (trimStart text) := by
  refine Pattern.captured?_many_seq (fun c rest hc h => ?_) text
  have hne : c ≠ '=' := by
    rintro rfl
    exact absurd hc (by decide)
  rw [captured?_given_of_ne hne] at h
  cases h

theorem captured?_keyed (text : List Char) :
    keyed.captured? text =
      if text.takeWhile isKeyChar = [] then none
      else (given.captured? (trimStart (text.dropWhile isKeyChar))).map
        (some (text.takeWhile isKeyChar) :: ·) := by
  rw [keyed, Pattern.captured?_some_seq, captured?_gap]
  intro c rest hc h
  have hne : c ≠ '=' := by
    rintro rfl
    exact absurd hc (by decide)
  rw [captured?_gap, trimStart_cons (isBlank_of_isKeyChar hc), captured?_given_of_ne hne] at h
  cases h

theorem captures?_pattern (line : List Char) :
    pattern.captures? line = keyed.captured? (trimStart line) := by
  have hfloating : (Pattern.seq (.many isBlank) keyed).Floating := by
    simp [keyed, given, valued, ending, Pattern.Floating]
  rw [pattern, Pattern.captures?_start hfloating, Pattern.captured?_many_seq]
  · rfl
  · intro c rest hc h
    rw [captured?_keyed, List.takeWhile_cons_of_neg (by simp [isKeyChar_of_isBlank hc]),
      if_pos rfl] at h
    cases h

theorem captures?_of_divide {parts : Parts} (h : parts.Divide line) :
    pattern.captures? line =
      (valued.captured? (trimStart parts.rest)).map (some parts.key :: ·) := by
  rw [captures?_pattern, captured?_keyed, h.span_key.1, h.span_gap.2, captured?_given,
    if_neg h.key_ne_nil]

theorem captures?_eq_none (h : ¬ ∃ parts : Parts, parts.Divide line) :
    pattern.captures? line = none := by
  rw [captures?_pattern, captured?_keyed]
  split
  · rfl
  · next hkey =>
    cases hafter : trimStart ((trimStart line).dropWhile isKeyChar) with
    | nil => rfl
    | cons c rest =>
      by_cases hc : c = '='
      · rw [hc] at hafter
        exact absurd (exists_divide hkey hafter) h
      · rw [captured?_given_of_ne hc, Option.map_none]

end Line

/-- The value that the group of the value leads to: no comment, its end trimmed, its quotes taken
away. -/
def ofGroup? (value : List Char) : Option (List Char) :=
  let text := trimEnd value
  if value.head? = some '#' then none
  else some (match enclosed? '"' text with
    | some inner => expandBreaks inner
    | none => (enclosed? '\'' text).getD (trim text))

def ofPattern? (line : List Char) : Option Assignment := do
  let groups ← Line.pattern.captures? line
  let key ← groups[0]?.join
  let value ← ofGroup? (groups[1]?.join.getD [])
  return ⟨String.ofList key, String.ofList value⟩

theorem trimEnd_takeWhile (h : (text.dropWhile (· != '\n')).all isBlank = true) :
    trimEnd (text.takeWhile (· != '\n')) = trimEnd text := by
  have hparts := @trimEnd_append_of_forall (text.takeWhile (· != '\n')) _ (List.all_eq_true.1 h)
  rw [List.takeWhile_append_dropWhile] at hparts
  exact hparts.symm

theorem newline_mem_trimEnd_iff :
    '\n' ∈ trimEnd text ↔ ¬ (text.dropWhile (· != '\n')).all isBlank = true := by
  constructor
  · intro hmem hall
    rw [← trimEnd_takeWhile hall] at hmem
    exact absurd (List.mem_takeWhile_imp (mem_of_mem_trimEnd hmem)) (by decide)
  · contrapose!
    intro hnot
    rw [List.all_eq_true]
    intro c hc
    obtain ⟨gap, heq, hgap⟩ := exists_trimEnd_append text
    have hpass : ∀ d ∈ trimEnd text, (d != '\n') = true := by
      intro d hd
      rw [bne_iff_ne]
      rintro rfl
      exact hnot hd
    rw [heq, List.dropWhile_append_of_pos hpass] at hc
    exact hgap c ((List.dropWhile_sublist _).subset hc)

theorem ofGroup?_cons {c : Char} (hc : isBlank c = false) (later : List Char) :
    ofGroup? (c :: later) =
      if c = '#' then none else some (unquote (trimEnd (c :: later))) := by
  have htrim : trim (trimEnd (c :: later)) = trimEnd (c :: later) := by
    rw [trim, trimEnd_cons hc, trimStart_cons hc, ← trimEnd_cons hc, trimEnd_trimEnd]
  unfold ofGroup?
  dsimp only
  rw [htrim]
  simp only [List.head?_cons, Option.some.injEq]
  rfl

theorem value?_eq_ofGroup? (rest : List Char) :
    value? rest =
      if ((trimStart rest).dropWhile (· != '\n')).all isBlank then
        ofGroup? ((trimStart rest).takeWhile (· != '\n'))
      else none := by
  have hvalue : value? rest = if (trim rest).head? = some '#' ∨ '\n' ∈ trim rest then none
      else some (unquote (trim rest)) := rfl
  rw [hvalue, trim]
  cases hstart : trimStart rest with
  | nil => simp [trimEnd, ofGroup?, unquote, enclosed?]
  | cons c later =>
    have hc := isBlank_of_trimStart_eq_cons hstart
    have hne : (c != '\n') = true := by
      rw [bne_iff_ne]
      rintro rfl
      exact absurd hc (by decide)
    by_cases hall : ((c :: later).dropWhile (· != '\n')).all isBlank = true
    · have hbreak : '\n' ∉ trimEnd (c :: later) := fun hmem => newline_mem_trimEnd_iff.1 hmem hall
      have htake : (c :: later).takeWhile (· != '\n') = c :: later.takeWhile (· != '\n') :=
        List.takeWhile_cons_of_pos hne
      rw [if_pos hall, htake, ofGroup?_cons hc, ← htake, trimEnd_takeWhile hall]
      rw [trimEnd_cons hc] at hbreak ⊢
      simp only [List.head?_cons, Option.some.injEq, hbreak, or_false]
    · rw [if_neg hall, if_pos (Or.inr (newline_mem_trimEnd_iff.2 hall))]

theorem ofPattern?_eq_ofLine? (line : List Char) : ofPattern? line = ofLine? line := by
  unfold ofPattern?
  by_cases h : ∃ parts : Parts, parts.Divide line
  · obtain ⟨parts, hparts⟩ := h
    rw [ofLine?_of_divide hparts, value?_eq_ofGroup?, Line.captures?_of_divide hparts,
      Line.captured?_valued]
    split
    · cases hgroup : ofGroup? ((trimStart parts.rest).takeWhile (· != '\n')) with
      | none => simp [hgroup]
      | some value => simp [hgroup]
    · rfl
  · have hnone : ofLine? line = none :=
      Option.eq_none_iff_forall_not_mem.2 fun a ha => h (exists_divide_of_ofLine? ha)
    rw [Line.captures?_eq_none h, hnone]
    rfl

/-- Every line divides around its first equals sign in at most one way, it is an assignment exactly
if it divides and the rest gives a value, and matching the pattern of a line says the same. -/
theorem ofLine?_grammar (line : List Char) :
    (∀ parts other : Parts, parts.Divide line → other.Divide line → parts = other) ∧
    (∀ a, ofLine? line = some a ↔ ∃ parts : Parts, parts.Divide line ∧ parts.Give a) ∧
    ofLine? line = ofPattern? line :=
  ⟨fun _ _ h hother => h.unique hother, fun _ => ofLine?_eq_some_iff,
    (ofPattern?_eq_ofLine? line).symm⟩

theorem ofLine?_grammar_quoted :
    let line := " a.b = \t\"x\\n'=\"\n".toList
    let parts : Parts := ⟨[' '], "a.b".toList, [' '], " \t\"x\\n'=\"\n".toList⟩
    parts.Divide line ∧ parts.Give ⟨"a.b", "x\n'="⟩ ∧ ofLine? line = some ⟨"a.b", "x\n'="⟩ ∧
      ofPattern? line = some ⟨"a.b", "x\n'="⟩ ∧
      ∀ other : Parts, other.Divide line → other = parts := by
  intro line parts
  have hdivide : parts.Divide line :=
    ⟨rfl, List.all_eq_true.1 (by decide), by decide, List.all_eq_true.1 (by decide),
      List.all_eq_true.1 (by decide)⟩
  have hgive : parts.Give ⟨"a.b", "x\n'="⟩ :=
    ⟨by decide +kernel, by decide +kernel, rfl, writes_iff.2 (by decide +kernel)⟩
  obtain ⟨hunique, hread, hpattern⟩ := ofLine?_grammar line
  have hline := (hread _).2 ⟨parts, hdivide, hgive⟩
  exact ⟨hdivide, hgive, hline, hpattern ▸ hline, fun other hother => hunique _ _ hother hdivide⟩

end Assignment

end TypedEnv
