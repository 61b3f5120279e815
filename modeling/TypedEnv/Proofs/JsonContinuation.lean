import TypedEnv.Proofs.JsonReading
import TypedEnv.Proofs.Text

/-!
A JSON value is read alike in front of any text that cannot belong to it, and the more levels may
open, the more texts are read.  So a text that is a value by itself stays that value as a part of a
longer text.
-/

namespace TypedEnv.Json

open TypedEnv.Text

variable {text rest after : List Char} {document : Document}

section Numbers

variable {negative : Bool} {significand extra : Nat} {exponent start : Int}

theorem EndsNumeral.isDigit_head? (h : EndsNumeral rest) : ∀ c ∈ rest.head?, isDigit c = false :=
  fun c hc => (h c hc).1

theorem assemble_append (h : assemble negative significand exponent text = .ok (document, after)) :
    assemble negative significand exponent (text ++ rest) = .ok (document, after ++ rest) := by
  unfold assemble at h ⊢
  split at h
  · cases h
  · cases h
    rfl

theorem gatherExponent_append (hrest : EndsNumeral rest) (n : Nat) (text : List Char) :
    gatherExponent n (text ++ rest) =
      ((gatherExponent n text).1, (gatherExponent n text).2 ++ rest) := by
  fun_induction gatherExponent n text with
  | case1 n =>
    cases rest with
    | nil => rfl
    | cons d rest => simp [gatherExponent, hrest.isDigit_head? d rfl]
  | case2 n c text hc next hnext ih =>
    rw [List.cons_append, gatherExponent, if_pos hc]
    dsimp only
    rw [if_pos hnext, ih]
  | case3 n c text hc next hnext =>
    rw [List.cons_append, gatherExponent, if_pos hc]
    dsimp only
    rw [if_neg hnext]
  | case4 n c text hc => rw [List.cons_append, gatherExponent, if_neg hc]

theorem sign_append (h : (Decimal.sign text).2 ≠ []) :
    Decimal.sign (text ++ rest) = ((Decimal.sign text).1, (Decimal.sign text).2 ++ rest) := by
  cases text with
  | nil => exact absurd rfl h
  | cons c text =>
    unfold Decimal.sign
    split <;> simp_all

theorem exponentPart_append (hrest : EndsNumeral rest)
    (h : exponentPart negative significand start text = .ok (document, after)) :
    exponentPart negative significand start (text ++ rest) = .ok (document, after ++ rest) := by
  unfold exponentPart at h
  dsimp only at h
  split at h
  · cases h
  · next c digits hdigits =>
    have hsign := @sign_append text rest (by simp [hdigits])
    rw [hdigits, List.cons_append] at hsign
    split at h
    · next hc =>
      rw [exponentPart, hsign]
      dsimp only
      rw [if_pos hc, gatherExponent_append hrest]
      split at h
      · next hgather =>
        rw [hgather]
        exact assemble_append h
      · next hgather =>
        rw [hgather]
        dsimp only
        split at h
        · cases h
        · next hrange =>
          cases h
          rw [if_neg hrange, dropWhile_append_stop hrest.isDigit_head?]
    · cases h

theorem afterDigits_append (hrest : EndsNumeral rest)
    (h : afterDigits negative significand exponent text = .ok (document, after)) :
    afterDigits negative significand exponent (text ++ rest) = .ok (document, after ++ rest) := by
  cases text with
  | nil =>
    have hassemble := @assemble_append [] rest _ _ _ _ _ h
    cases rest with
    | nil => exact hassemble
    | cons d rest =>
      obtain ⟨-, -, hsmall, hlarge⟩ := hrest d rfl
      simpa [afterDigits, hsmall, hlarge] using hassemble
  | cons c text =>
    rw [afterDigits] at h
    rw [List.cons_append, afterDigits]
    split at h
    · next hc => rw [if_pos hc, exponentPart_append hrest h]
    · next hc =>
      rw [if_neg hc, ← List.cons_append]
      exact assemble_append h

theorem fractionPart_append (hrest : EndsNumeral rest)
    (h : fractionPart negative significand exponent text = .ok (document, after)) :
    fractionPart negative significand exponent (text ++ rest) = .ok (document, after ++ rest) := by
  unfold fractionPart at h ⊢
  dsimp only at h ⊢
  rw [takeWhile_append_stop hrest.isDigit_head?, dropWhile_append_stop hrest.isDigit_head?]
  split at h
  · cases h
  · next hdigits =>
    rw [if_neg hdigits]
    exact afterDigits_append hrest h

theorem whole_append
    (h : afterWhole.whole negative significand extra text = .ok (document, after)) :
    afterWhole.whole negative significand extra (text ++ rest) = .ok (document, after ++ rest) := by
  unfold afterWhole.whole at h ⊢
  split at h
  · next hextra => rw [if_pos hextra, assemble_append h]
  · next hextra =>
    rw [if_neg hextra]
    split at h
    · next hpositive =>
      cases h
      rw [if_pos hpositive]
    · next hnegative =>
      rw [if_neg hnegative]
      split at h
      · next hlarge =>
        cases h
        rw [if_pos hlarge]
      · next hsmall =>
        cases h
        rw [if_neg hsmall]

theorem afterWhole_append (hrest : EndsNumeral rest)
    (h : afterWhole negative significand extra text = .ok (document, after)) :
    afterWhole negative significand extra (text ++ rest) = .ok (document, after ++ rest) := by
  cases text with
  | nil =>
    have hwhole := @whole_append [] rest _ _ _ _ _ h
    cases rest with
    | nil => exact hwhole
    | cons d rest =>
      obtain ⟨-, hpoint, hsmall, hlarge⟩ := hrest d rfl
      simpa [afterWhole, hpoint, hsmall, hlarge] using hwhole
  | cons c text =>
    by_cases hpoint : c = '.'
    · subst hpoint
      exact fractionPart_append hrest h
    · have hother (tail : List Char) : afterWhole negative significand extra (c :: tail) =
          if c = 'e' ∨ c = 'E' then exponentPart negative significand extra tail
          else afterWhole.whole negative significand extra (c :: tail) := by
        simp [afterWhole, hpoint]
      rw [hother] at h
      rw [List.cons_append, hother]
      split at h
      · next hc => rw [if_pos hc, exponentPart_append hrest h]
      · next hc =>
        rw [if_neg hc, ← List.cons_append]
        exact whole_append h

theorem number_append (hrest : EndsNumeral rest)
    (h : number negative text = .ok (document, after)) :
    number negative (text ++ rest) = .ok (document, after ++ rest) := by
  cases text with
  | nil => cases h
  | cons c text =>
    unfold number at h
    dsimp only at h
    rw [List.cons_append, number.eq_def]
    dsimp only
    split at h
    · next hc =>
      rw [if_pos hc]
      split at h
      · next d tail =>
        rw [List.cons_append]
        dsimp only
        split at h
        · cases h
        · next hd =>
          rw [if_neg hd, ← List.cons_append]
          exact afterWhole_append hrest h
      · have hzero := @afterWhole_append [] rest _ _ _ _ _ hrest h
        cases rest with
        | nil => exact hzero
        | cons d rest =>
          rw [List.nil_append] at hzero ⊢
          dsimp only
          rw [if_neg (by simp [hrest.isDigit_head? d rfl]), hzero]
    · next hc =>
      rw [if_neg hc]
      split at h
      · next hdigit =>
        rw [if_pos hdigit, ← List.cons_append, takeWhile_append_stop hrest.isDigit_head?,
          dropWhile_append_stop hrest.isDigit_head?]
        exact afterWhole_append hrest h
      · cases h

end Numbers

/-- What one reader takes from a text, the other takes when more text follows. -/
def Extends {α : Type} (read other : (text : List Char) → Except Fault (Step α text))
    (rest : List Char) : Prop :=
  ∀ {text step}, read text = .ok step →
    Takes (other (text ++ rest)) step.value (step.rest ++ rest)

theorem extends_fourHex : Extends fourHex fourHex rest := by
  intro text step h
  unfold fourHex at h
  split at h
  · split at h
    · next ha hb hc hd =>
      cases h
      exact takes_fourHex ha hb hc hd
    · cases h
  · split at h
    · cases h
    · cases h

theorem extends_unicodeEscape : Extends unicodeEscape unicodeEscape rest := by
  intro text step h
  obtain ⟨first, hfirst, h⟩ := exists_of_bind_eq_ok h
  have hunit : Takes (fourHex (text ++ rest)) first.value (first.rest ++ rest) :=
    extends_fourHex hfirst
  split at h
  · cases h
  · next htrailing =>
    rw [Bool.not_eq_true] at htrailing
    split at h
    · next hleading =>
      split at h
      · cases h
      · cases h
      · next hmid =>
        obtain ⟨second, hsecond, h⟩ := exists_of_bind_eq_ok h
        split at h
        · next hpair =>
          have hstep := Except.ok.inj h
          subst hstep
          dsimp only
          rw [hmid] at hunit
          exact takes_unicodeEscape_pair hunit (extends_fourHex hsecond) htrailing hleading hpair
        · cases h
      · cases h
      · cases h
    · next hleading =>
      cases h
      exact takes_unicodeEscape_unit hunit htrailing (Bool.not_eq_true _ ▸ hleading)

theorem extends_escape : Extends escape escape rest := by
  intro text step h
  cases text with
  | nil => cases h
  | cons c text =>
    have hplain (d : Char) : (.ok (.head d) : Except Fault (Step Char (c :: text))) = .ok step →
        escape (c :: (text ++ rest)) = .ok (.head d) →
        Takes (escape (c :: (text ++ rest))) step.value (step.rest ++ rest) := by
      intro h hescape
      cases h
      exact ⟨_, hescape, rfl, rfl⟩
    unfold escape at h
    dsimp only at h
    rw [List.cons_append]
    split at h
    · next hmark => exact hplain c h (if_pos hmark)
    split at h
    · next hc => exact hplain _ h (hc ▸ rfl)
    split at h
    · next hc => exact hplain _ h (hc ▸ rfl)
    split at h
    · next hc => exact hplain _ h (hc ▸ rfl)
    split at h
    · next hc => exact hplain _ h (hc ▸ rfl)
    split at h
    · next hc => exact hplain _ h (hc ▸ rfl)
    split at h
    · next hc =>
      subst hc
      obtain ⟨unit, hunit, rfl⟩ := exists_of_map_eq_ok h
      exact takes_escape_unicode (extends_unicodeEscape hunit)
    · cases h

theorem extends_stringBody : Extends stringBody stringBody rest := by
  intro text step h
  fun_induction stringBody text with
  | case1 => cases h
  | case2 text => 
    cases h
    exact takes_stringBody_end
  | case3 text hquote ih =>
    obtain ⟨first, hfirst, h⟩ := exists_of_bind_eq_ok h
    obtain ⟨tail, htail, h⟩ := exists_of_bind_eq_ok h
    cases h
    exact takes_stringBody_escape (extends_escape hfirst) (ih first htail)
  | case4 => cases h
  | case5 c text hquote hslash hcontrol ih =>
    obtain ⟨tail, htail, h⟩ := exists_of_bind_eq_ok h
    cases h
    exact takes_stringBody_plain hquote hslash (Nat.not_lt.1 hcontrol) (ih htail)

theorem skipSpace_append {c : Char} (h : skipSpace text = c :: after) (rest : List Char) :
    skipSpace (text ++ rest) = c :: (after ++ rest) := by
  unfold skipSpace at h ⊢
  rw [List.dropWhile_append, h]
  simp

theorem wordTail_append {word : List Char} (h : wordTail word text = .ok after) :
    wordTail word (text ++ rest) = .ok (after ++ rest) := by
  fun_induction wordTail word text with
  | case1 text =>
    cases h
    rfl
  | case2 => cases h
  | case3 c word text ih =>
    rw [List.cons_append, wordTail, if_pos rfl]
    exact ih h
  | case4 => cases h

theorem scalar_append {c : Char} (hrest : EndsNumeral rest)
    (h : scalar c text = .ok (document, after)) :
    scalar c (text ++ rest) = .ok (document, after ++ rest) := by
  have hword {word : List Char} {value : Document}
      (h : ((wordTail word text).map fun rest => (value, rest)) = .ok (document, after)) :
      ((wordTail word (text ++ rest)).map fun rest => (value, rest)) =
        .ok (document, after ++ rest) := by
    obtain ⟨tail, htail, heq⟩ := exists_of_map_eq_ok h
    cases heq
    rw [wordTail_append htail]
    rfl
  unfold scalar at h ⊢
  split at h
  · next hc => rw [if_pos hc, hword h]
  next hnull =>
  rw [if_neg hnull]
  split at h
  · next hc => rw [if_pos hc, hword h]
  next htrue =>
  rw [if_neg htrue]
  split at h
  · next hc => rw [if_pos hc, hword h]
  next hfalse =>
  rw [if_neg hfalse]
  split at h
  · next hc => rw [if_pos hc, number_append hrest h]
  next hsign =>
  rw [if_neg hsign]
  split at h
  · next hc => rw [if_pos hc, ← List.cons_append, number_append hrest h]
  next hdigit =>
  rw [if_neg hdigit]
  split at h
  · next hc =>
    rw [if_pos hc]
    obtain ⟨step, hstep, heq⟩ := exists_of_map_eq_ok h
    cases heq
    have hbody : Takes (stringBody (text ++ rest)) step.value (step.rest ++ rest) :=
      extends_stringBody hstep
    obtain ⟨longer, hlonger, hvalue, hafter⟩ := hbody
    rw [hlonger, Except.map, hvalue, hafter]
  · cases h

section Values

variable {read other : ValueReader} (hvalue : Extends read other rest)

include hvalue

theorem Extends.items (first : Bool) : Extends (items read first) (items other first) rest := by
  intro text step h
  fun_induction Json.items read first text with
  | case1 | case4 | case5 | case7 => cases h
  | case2 first text hskip tail htext =>
    cases h
    exact takes_items_end (skipSpace_append htext rest)
  | case3 text hskip c tail htext hshorter hend ih =>
    obtain ⟨item, hitem, h⟩ := exists_of_bind_eq_ok h
    obtain ⟨more, hmore, h⟩ := exists_of_bind_eq_ok h
    cases h
    exact takes_items_first (skipSpace_append htext rest) hend (hvalue hitem) (ih item hmore)
  | case6 first text hskip tail hfirst hnil hclose htext hshorter hcomma ih =>
    obtain ⟨item, hitem, h⟩ := exists_of_bind_eq_ok h
    obtain ⟨more, hmore, h⟩ := exists_of_bind_eq_ok h
    cases h
    rw [Bool.not_eq_true] at hfirst
    subst hfirst
    obtain ⟨d, front, hfront⟩ := List.exists_cons_of_ne_nil hnil
    have hd : d ≠ ']' := by
      rintro rfl
      exact hclose front hfront
    exact takes_items_next (skipSpace_append htext rest) (skipSpace_append hfront rest) hd
      (hvalue hitem) (ih item hmore)

theorem Extends.member : Extends (member read) (member other) rest := by
  intro text step h
  obtain ⟨key, hkey, h⟩ := exists_of_bind_eq_ok h
  split at h
  · cases h
  · next hcolon =>
    split at h
    · next hc =>
      subst hc
      obtain ⟨item, hitem, h⟩ := exists_of_bind_eq_ok h
      cases h
      exact takes_member (extends_stringBody hkey) (skipSpace_append hcolon rest) (hvalue hitem)
    · cases h

theorem Extends.members (first : Bool) :
    Extends (members read first) (members other first) rest := by
  intro text step h
  fun_induction Json.members read first text with
  | case1 | case4 | case5 | case7 | case8 | case9 => cases h
  | case2 first text hskip tail htext =>
    cases h
    exact takes_members_end (skipSpace_append htext rest)
  | case3 text hskip tail htext hshorter hend ih =>
    obtain ⟨item, hitem, h⟩ := exists_of_bind_eq_ok h
    obtain ⟨more, hmore, h⟩ := exists_of_bind_eq_ok h
    cases h
    exact takes_members_first (skipSpace_append htext rest) (hvalue.member hitem) (ih item hmore)
  | case6 first text hskip tail hfirst name htext hshorter hcomma hname ih =>
    obtain ⟨item, hitem, h⟩ := exists_of_bind_eq_ok h
    obtain ⟨more, hmore, h⟩ := exists_of_bind_eq_ok h
    cases h
    rw [Bool.not_eq_true] at hfirst
    subst hfirst
    exact takes_members_next (skipSpace_append htext rest) (skipSpace_append hname rest)
      (hvalue.member hitem) (ih item hmore)

end Values

/-- A value keeps its meaning in front of what does not go on with it, also where more levels may
open. -/
theorem extends_value (hrest : EndsNumeral rest) {levels more : Nat} (hroom : levels ≤ more) :
    Extends (value levels) (value more) rest := by
  induction levels generalizing more with
  | zero =>
    intro text step h
    cases h
  | succ levels ih =>
    obtain ⟨more, rfl⟩ : ∃ m, more = m + 1 := ⟨more - 1, by omega⟩
    have hinner : Extends (value levels) (value more) rest := ih (by omega)
    intro text step h
    rw [value] at h
    dsimp only at h
    split at h
    · cases h
    · next c tail htext =>
      have hskip := skipSpace_append htext rest
      split at h
      · next hc =>
        subst hc
        split at h
        · cases h
        · next hlevels =>
          obtain ⟨more, rfl⟩ : ∃ m, more = m + 1 := ⟨more - 1, by omega⟩
          obtain ⟨list, hlist, rfl⟩ := exists_of_map_eq_ok h
          exact takes_value_list hskip (hinner.items true hlist)
      next hlist =>
      split at h
      · next hc =>
        subst hc
        split at h
        · cases h
        · next hlevels =>
          obtain ⟨more, rfl⟩ : ∃ m, more = m + 1 := ⟨more - 1, by omega⟩
          obtain ⟨object, hobject, rfl⟩ := exists_of_map_eq_ok h
          exact takes_value_object hskip (hinner.members true hobject)
      · next hobject =>
        obtain ⟨inner, hstep, rfl⟩ := exists_of_map_eq_ok h
        unfold scalarStep at hstep
        split at hstep
        · next hscalar =>
          cases hstep
          exact takes_value_scalar hskip hlist hobject (scalar_append hrest hscalar)
        · cases hstep

/-- A text is read at that many levels as a value, up to blanks behind it, whatever follows. -/
def Reads (levels : Nat) (text : List Char) (document : Document) : Prop :=
  ∃ gap, (∀ c ∈ gap, isSpace c = true) ∧ ∀ rest, EndsNumeral rest →
    Takes (value levels (text ++ rest)) document (gap ++ rest)

theorem reads_of_parse (h : parse text = .ok document) {levels : Nat} (hroom : room ≤ levels) :
    Reads levels text document := by
  obtain ⟨step, hstep, h⟩ := exists_of_bind_eq_ok h
  obtain ⟨_, hend, h⟩ := exists_of_bind_eq_ok h
  cases h
  refine ⟨step.rest, ?_, fun rest hrest => extends_value hrest hroom hstep⟩
  unfold atEnd at hend
  split at hend
  · next hskip => exact List.dropWhile_eq_nil_iff.1 hskip
  · cases hend

theorem Reads.unique {levels : Nat} {other : Document} (h : Reads levels text document)
    (hother : Reads levels text other) : document = other := by
  obtain ⟨_, -, htakes⟩ := h
  obtain ⟨_, -, htakesOther⟩ := hother
  exact (htakes [] endsNumeral_nil).unique (htakesOther [] endsNumeral_nil)

theorem parse_of_parseObject {fields : List (String × Document)}
    (h : parseObject text = .ok fields) : parse text = .ok (.object fields) := by
  unfold parseObject at h
  split at h
  · cases h
  · next c tail hskip =>
    split at h
    · next hc =>
      subst hc
      obtain ⟨step, hstep, h⟩ := exists_of_bind_eq_ok h
      obtain ⟨_, hend, h⟩ := exists_of_bind_eq_ok h
      cases h
      have htakes : Takes (value room text) (.ofMembers step.value) step.rest :=
        takes_value_object hskip ⟨step, hstep, rfl, rfl⟩
      obtain ⟨whole, hwhole, hvalue, hrest⟩ := htakes
      rw [parse, hwhole]
      dsimp only [bind, Except.bind]
      rw [hrest, hend, hvalue]
      rfl
    · split at h
      · cases h
      · obtain ⟨_, -, h⟩ := exists_of_bind_eq_ok h
        cases h

end TypedEnv.Json
