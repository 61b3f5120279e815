import TypedEnv.Proofs.Document
import TypedEnv.Proofs.JsonReading
import TypedEnv.Proofs.ReadBack

/-!
JSON text is read back.  What was read from a text and has no floating-point number in it prints to
a text that reads as the same value, so an object in a variable is the object of the env file.
-/

namespace TypedEnv

open TypedEnv.Text

inductive Document.FloatFree : Document → Prop
  | null : FloatFree null
  | bool (value : Bool) : FloatFree (bool value)
  | int (value : Int) : FloatFree (int value)
  | string (value : String) : FloatFree (string value)
  | array {items : List Document} (h : ∀ item ∈ items, FloatFree item) : FloatFree (array items)
  | object {members : List (String × Document)} (h : ∀ member ∈ members, FloatFree member.2) :
    FloatFree (object members)

theorem Document.ofMembers_of_sorted {members : List (String × Document)}
    (h : (members.map Prod.fst).Pairwise (· < ·)) : ofMembers members = object members := by
  have hdict := congrArg Dict.entries (Dict.ofList_entries ⟨members, h⟩)
  rw [Dict.entries_ofList] at hdict
  exact congrArg object hdict

namespace Json

variable {rest : List Char}

theorem hexValue?_hexDigit {n : Nat} (h : n < 16) : hexValue? (hexDigit n) = some n := by
  have hall : ∀ n < 16, hexValue? (hexDigit n) = some n := by decide
  exact hall n h

theorem hexValue?_hexDigit_mod (n : Nat) : hexValue? (hexDigit n) = some (n % 16) := by
  rw [← hexValue?_hexDigit (Nat.mod_lt n (by decide)), hexDigit, hexDigit, Nat.mod_mod]

theorem takes_escape_control {c : Char} (h : c.toNat < 0x20) :
    Takes (escape ('u' :: '0' :: '0' :: hexDigit (c.toNat / 16) :: hexDigit c.toNat :: rest)) c
      rest := by
  have hzero : hexValue? '0' = some 0 := by decide
  have hhigh : hexValue? (hexDigit (c.toNat / 16)) = some (c.toNat / 16) :=
    hexValue?_hexDigit (by omega)
  have hfour : Takes (fourHex ('0' :: '0' :: hexDigit (c.toNat / 16) :: hexDigit c.toNat :: rest))
      (((0 * 16 + 0) * 16 + c.toNat / 16) * 16 + c.toNat % 16) rest :=
    takes_fourHex hzero hzero hhigh (hexValue?_hexDigit_mod c.toNat)
  have hcode : ((0 * 16 + 0) * 16 + c.toNat / 16) * 16 + c.toNat % 16 = c.toNat := by omega
  rw [hcode] at hfour
  have htrailing : isTrailing c.toNat = false := by
    simp [isTrailing]
    omega
  have hleading : isLeading c.toNat = false := by
    simp [isLeading]
    omega
  have hunit := takes_unicodeEscape_unit hfour htrailing hleading
  rw [Char.ofNat_toNat] at hunit
  exact takes_escape_unicode hunit

theorem takes_escaped {text value : List Char} (c : Char) (h : Takes (stringBody text) value rest) :
    Takes (stringBody (escaped c ++ text)) (c :: value) rest := by
  have hplain {letter d : Char} (hescape : escape (letter :: text) = .ok (.head d)) :
      Takes (stringBody ('\\' :: letter :: text)) (d :: value) rest :=
    takes_stringBody_escape ⟨_, hescape, rfl, rfl⟩ h
  generalize heq : escaped c = letters
  unfold escaped at heq
  split at heq
  · next hmark =>
    subst heq
    rcases hmark with rfl | rfl
    · exact hplain rfl
    · exact hplain rfl
  split at heq
  · next hc => exact heq ▸ hc ▸ hplain rfl
  split at heq
  · next hc => exact heq ▸ hc ▸ hplain rfl
  split at heq
  · next hc => exact heq ▸ hc ▸ hplain rfl
  split at heq
  · next hc => exact heq ▸ hc ▸ hplain rfl
  split at heq
  · next hc => exact heq ▸ hc ▸ hplain rfl
  split at heq
  · next hcontrol =>
    exact heq ▸ takes_stringBody_escape (takes_escape_control hcontrol) h
  · next hmark _ _ _ _ _ hcontrol =>
    rw [not_or] at hmark
    exact heq ▸ takes_stringBody_plain hmark.1 hmark.2 (Nat.not_lt.1 hcontrol) h

theorem takes_stringText (s : String) (rest : List Char) :
    Takes (stringBody (s.toList.flatMap escaped ++ '"' :: rest)) s.toList rest := by
  induction s.toList with
  | nil => exact takes_stringBody_end
  | cons c cs ih =>
    rw [List.flatMap_cons, List.append_assoc]
    exact takes_escaped c ih

theorem head?_toDigits {n : Nat} (h : n ≠ 0) : (toDigits n).head? ≠ some '0' := by
  induction n using Nat.strongRecOn with
  | ind n ih =>
    by_cases hsmall : n < 10
    · have hall : ∀ n < 10, n ≠ 0 → (toDigits n).head? ≠ some '0' := by decide
      exact hall n hsmall h
    · rw [toDigits, Nat.toDigits_of_base_le (by decide) (Nat.not_lt.1 hsmall),
        List.head?_append_of_ne_nil _ Nat.toDigits_ne_nil]
      exact ih (n / 10) (by omega) (by omega)

theorem le_foldl_digits (digits : List Char) (n : Nat) :
    n ≤ digits.foldl (fun n c => 10 * n + digitValue c) n := by
  induction digits generalizing n with
  | nil => exact Nat.le_refl n
  | cons c digits ih =>
    have htail := ih (10 * n + digitValue c)
    rw [List.foldl_cons]
    omega

theorem gather_of_lt {digits : List Char} {significand : Nat}
    (h : digits.foldl (fun n c => 10 * n + digitValue c) significand < significandBound) :
    gather significand digits =
      (digits.foldl (fun n c => 10 * n + digitValue c) significand, []) := by
  induction digits generalizing significand with
  | nil => rfl
  | cons c digits ih =>
    have hnext : significand * 10 + digitValue c = 10 * significand + digitValue c := by
      rw [Nat.mul_comm]
    have hle := le_foldl_digits digits (10 * significand + digitValue c)
    rw [List.foldl_cons] at h ⊢
    rw [gather, hnext, if_pos (Nat.lt_of_le_of_lt hle h), ih h]

theorem number_toDigits {negative : Bool} {n : Nat} (hn : n < significandBound)
    (hrest : EndsNumeral rest) :
    number negative (toDigits n ++ rest) = afterWhole negative n 0 rest := by
  have hdigits : ∀ c ∈ toDigits n, isDigit c = true := fun _ => isDigit_of_mem_toDigits
  have hhead : ∀ c ∈ rest.head?, isDigit c = false := fun c hc => (hrest c hc).1
  by_cases hzero : n = 0
  · subst hzero
    cases rest with
    | nil => rfl
    | cons d rest =>
      have hd : isDigit d = false := hhead d rfl
      simp [toDigits, number, hd]
  · obtain ⟨c, tail, heq⟩ := List.exists_cons_of_ne_nil (l := toDigits n) Nat.toDigits_ne_nil
    have hc : isDigit c = true := hdigits c (heq ▸ List.mem_cons_self)
    have hne : c ≠ '0' := by
      rintro rfl
      exact head?_toDigits hzero (heq ▸ rfl)
    have htake : (c :: (tail ++ rest)).takeWhile isDigit = toDigits n := by
      rw [← List.cons_append, ← heq]
      exact takeWhile_append_of_head hdigits hhead
    have hdrop : (c :: (tail ++ rest)).dropWhile isDigit = rest := by
      rw [← List.cons_append, ← heq]
      exact dropWhile_append_of_head hdigits hhead
    have hvalue : (toDigits n).foldl (fun n c => 10 * n + digitValue c) 0 = n :=
      ofDigits_toDigits n
    have hgather : gather 0 (toDigits n) = (n, []) := by
      rw [gather_of_lt (by rw [hvalue]; exact hn), hvalue]
    rw [heq, List.cons_append, number.eq_def]
    dsimp only
    rw [if_neg hne, if_pos hc, htake, hdrop, hgather]
    rfl

theorem afterWhole_of_ends {negative : Bool} {significand extra : Nat} (hrest : EndsNumeral rest) :
    afterWhole negative significand extra rest =
      afterWhole.whole negative significand extra rest := by
  cases rest with
  | nil => rfl
  | cons c rest =>
    obtain ⟨-, hpoint, hsmall, hlarge⟩ := hrest c rfl
    simp [afterWhole, hpoint, hsmall, hlarge]

theorem scalar_of_isDigit {c : Char} {tail : List Char} (h : isDigit c = true) :
    scalar c tail = number false (c :: tail) := by
  have hne (d : Char) (hd : isDigit d = false) : c ≠ d := by
    rintro rfl
    rw [h] at hd
    cases hd
  simp [scalar, hne 'n' rfl, hne 't' rfl, hne 'f' rfl, hne '-' rfl, h]

theorem scalar_intText {n : Int} (hleast : leastInt64 ≤ n) (hbound : n < significandBound)
    (hrest : EndsNumeral rest) : ∃ c tail, intText n = c :: tail ∧ (c = '-' ∨ isDigit c = true) ∧
      scalar c (tail ++ rest) = .ok (.int n, rest) := by
  have hpower : significandBound = 18446744073709551616 := by decide
  rw [leastInt64] at hleast
  have hsize : n.natAbs < significandBound := by omega
  rw [intText]
  split
  · next hnegative =>
    refine ⟨'-', toDigits n.natAbs, rfl, Or.inl rfl, ?_⟩
    have hleast : leastInt64.natAbs = 9223372036854775808 := by decide
    have hfits : ¬ (n.natAbs = 0 ∨ leastInt64.natAbs < n.natAbs) := by omega
    have hvalue : -(n.natAbs : Int) = n := by omega
    have hscalar : scalar '-' (toDigits n.natAbs ++ rest) =
        number true (toDigits n.natAbs ++ rest) := rfl
    rw [hscalar, number_toDigits hsize hrest, afterWhole_of_ends hrest, afterWhole.whole,
      if_neg (not_not.2 rfl), if_neg (by decide), if_neg hfits, hvalue]
  · next hnegative =>
    obtain ⟨c, tail, heq⟩ := List.exists_cons_of_ne_nil (l := toDigits n.natAbs) Nat.toDigits_ne_nil
    have hc : isDigit c = true := isDigit_of_mem_toDigits (heq ▸ List.mem_cons_self)
    have hvalue : (n.natAbs : Int) = n := by omega
    refine ⟨c, tail, heq, Or.inr hc, ?_⟩
    rw [scalar_of_isDigit hc, ← List.cons_append, ← heq, number_toDigits hsize hrest,
      afterWhole_of_ends hrest, afterWhole.whole, if_neg (not_not.2 rfl), if_pos rfl, hvalue]

theorem isSpace_of_isDigit {c : Char} (h : isDigit c = true) : isSpace c = false := by
  rw [isSpace, decide_eq_false_iff_not]
  rintro (rfl | rfl | rfl | rfl) <;> cases h

theorem exists_text_eq_cons {document : Document} (h : document.FloatFree) :
    ∃ c tail, text document = c :: tail ∧ isSpace c = false ∧ c ≠ ']' := by
  cases h with
  | null => exact ⟨_, _, rfl, by decide, by decide⟩
  | bool value => cases value <;> exact ⟨_, _, rfl, by decide, by decide⟩
  | int n =>
    rw [text, intText]
    split
    · exact ⟨_, _, rfl, by decide, by decide⟩
    · obtain ⟨c, tail, heq⟩ := List.exists_cons_of_ne_nil (l := toDigits n.natAbs)
        Nat.toDigits_ne_nil
      have hc : isDigit c = true := isDigit_of_mem_toDigits (heq ▸ List.mem_cons_self)
      refine ⟨c, tail, heq, isSpace_of_isDigit hc, ?_⟩
      rintro rfl
      cases hc
  | string s => exact ⟨_, _, rfl, by decide, by decide⟩
  | @array items _ => cases items <;> exact ⟨_, _, rfl, by decide, by decide⟩
  | @object members _ => cases members <;> exact ⟨_, _, rfl, by decide, by decide⟩

/-- A reader of values takes a document from the text that the document prints. -/
def Rereads (value : ValueReader) (document : Document) : Prop :=
  document.FloatFree ∧
    ∀ rest, EndsNumeral rest → Takes (value (text document ++ rest)) document rest

section Parts

variable {value : ValueReader}

theorem endsNumeral_itemsText (items : List Document) (rest : List Char) :
    EndsNumeral (itemsText items ++ rest) := by
  cases items with
  | nil => exact endsNumeral_cons (by simp)
  | cons item items => exact endsNumeral_cons (by simp)

theorem endsNumeral_membersText (members : List (String × Document)) (rest : List Char) :
    EndsNumeral (membersText members ++ rest) := by
  cases members with
  | nil => exact endsNumeral_cons (by simp)
  | cons member members => exact endsNumeral_cons (by simp)

theorem takes_itemsText {items : List Document} (h : ∀ item ∈ items, Rereads value item) :
    Takes (Json.items value false (itemsText items ++ rest)) items rest := by
  induction items with
  | nil => exact takes_items_end rfl
  | cons item items ih =>
    rw [List.forall_mem_cons] at h
    obtain ⟨c, tail, htext, hspace, hend⟩ := exists_text_eq_cons h.1.1
    have hskip : skipSpace (text item ++ (itemsText items ++ rest)) =
        c :: (tail ++ (itemsText items ++ rest)) := by
      rw [htext]
      exact skipSpace_cons hspace
    have hitem := h.1.2 _ (endsNumeral_itemsText items rest)
    have hsplit : itemsText (item :: items) ++ rest =
        ',' :: (text item ++ (itemsText items ++ rest)) := by
      simp [itemsText]
    rw [hsplit]
    exact takes_items_next rfl hskip hend hitem (ih h.2)

theorem takes_items {items : List Document} (rest : List Char)
    (h : ∀ item ∈ items, Rereads value item) :
    ∃ tail, text (.array items) = '[' :: tail ∧
      Takes (Json.items value true (tail ++ rest)) items rest := by
  cases items with
  | nil => exact ⟨_, rfl, takes_items_end rfl⟩
  | cons item items =>
    rw [List.forall_mem_cons] at h
    obtain ⟨c, tail, htext, hspace, hend⟩ := exists_text_eq_cons h.1.1
    have hitem := h.1.2 _ (endsNumeral_itemsText items rest)
    refine ⟨text item ++ itemsText items, rfl, ?_⟩
    rw [htext, List.cons_append] at hitem
    rw [htext, List.append_assoc, List.cons_append]
    exact takes_items_first (skipSpace_cons hspace) hend hitem (takes_itemsText h.2)

theorem takes_memberText {member : String × Document} (h : Rereads value member.2)
    (hrest : EndsNumeral rest) :
    Takes (Json.member value
      (member.1.toList.flatMap escaped ++ '"' :: ':' :: (text member.2 ++ rest))) member rest := by
  have hmember := takes_member (takes_stringText member.1 (':' :: (text member.2 ++ rest)))
    (skipSpace_cons (by decide)) (h.2 rest hrest)
  rwa [String.ofList_toList] at hmember

theorem takes_membersText {members : List (String × Document)}
    (h : ∀ member ∈ members, Rereads value member.2) :
    Takes (Json.members value false (membersText members ++ rest)) members rest := by
  induction members with
  | nil => exact takes_members_end rfl
  | cons member members ih =>
    rw [List.forall_mem_cons] at h
    have hmember := takes_memberText h.1 (endsNumeral_membersText members rest)
    have hsplit : membersText (member :: members) ++ rest =
        ',' :: '"' :: (member.1.toList.flatMap escaped ++
          '"' :: ':' :: (text member.2 ++ (membersText members ++ rest))) := by
      simp [membersText, stringText]
    rw [hsplit]
    exact takes_members_next rfl rfl hmember (ih h.2)

theorem takes_members {members : List (String × Document)} (rest : List Char)
    (h : ∀ member ∈ members, Rereads value member.2) :
    ∃ tail, text (.object members) = '\x7b' :: tail ∧
      Takes (Json.members value true (tail ++ rest)) members rest := by
  cases members with
  | nil => exact ⟨_, rfl, takes_members_end rfl⟩
  | cons member members =>
    rw [List.forall_mem_cons] at h
    have hmember := takes_memberText h.1 (endsNumeral_membersText members rest)
    have hsplit : stringText member.1 ++ ':' :: text member.2 ++ membersText members ++ rest =
        '"' :: (member.1.toList.flatMap escaped ++
          '"' :: ':' :: (text member.2 ++ (membersText members ++ rest))) := by
      simp [stringText]
    refine ⟨stringText member.1 ++ ':' :: text member.2 ++ membersText members, rfl, ?_⟩
    rw [hsplit]
    exact takes_members_first rfl hmember (takes_membersText h.2)

end Parts

theorem takes_value_int {levels : Nat} {n : Int} (hleast : leastInt64 ≤ n)
    (hbound : n < significandBound) (hrest : EndsNumeral rest) :
    Takes (value (levels + 1) (text (.int n) ++ rest)) (.int n) rest := by
  obtain ⟨c, tail, heq, hc, hscalar⟩ := scalar_intText hleast hbound hrest
  have hspace : isSpace c = false := by
    rcases hc with rfl | hc
    · decide
    · exact isSpace_of_isDigit hc
  have hopening (d : Char) (hd : d ≠ '-' ∧ isDigit d = false) : c ≠ d := by
    rintro rfl
    rcases hc with rfl | hc
    · exact hd.1 rfl
    · exact absurd hc (by rw [hd.2]; decide)
  rw [text, heq]
  exact takes_value_scalar (skipSpace_cons hspace) (hopening '[' (by decide))
    (hopening '\x7b' (by decide)) hscalar

theorem takes_value_string {levels : Nat} (s : String) (rest : List Char) :
    Takes (value (levels + 1) (text (.string s) ++ rest)) (.string s) rest := by
  have hscalar : scalar '"' (s.toList.flatMap escaped ++ '"' :: rest) = .ok (.string s, rest) := by
    obtain ⟨step, hstep, hvalue, hafter⟩ := takes_stringText s rest
    have hopening : scalar '"' (s.toList.flatMap escaped ++ '"' :: rest) =
        (stringBody (s.toList.flatMap escaped ++ '"' :: rest)).map fun step =>
          (.string (String.ofList step.value), step.rest) := rfl
    rw [hopening, hstep, Except.map, hvalue, hafter, String.ofList_toList]
  have hsplit : text (.string s) ++ rest = '"' :: (s.toList.flatMap escaped ++ '"' :: rest) := by
    simp [text, stringText]
  rw [hsplit]
  exact takes_value_scalar rfl (by decide) (by decide) hscalar

/-- What is readable and has no floating-point number in it is read from what it prints. -/
theorem rereads_of_readable {levels : Nat} {document : Document} (h : Readable levels document)
    (hfree : document.FloatFree) : Rereads (value (levels + 1)) document := by
  refine ⟨hfree, ?_⟩
  induction h with
  | null =>
    intro rest _
    exact takes_value_scalar rfl (by decide) (by decide) rfl
  | bool value =>
    intro rest _
    cases value
    · exact takes_value_scalar rfl (by decide) (by decide) rfl
    · exact takes_value_scalar rfl (by decide) (by decide) rfl
  | int hleast hbound =>
    intro rest hrest
    exact takes_value_int hleast hbound hrest
  | float x => cases hfree
  | string s =>
    intro rest _
    exact takes_value_string s rest
  | array _ ih =>
    cases hfree with
    | array hitems =>
    intro rest _
    obtain ⟨tail, htext, htakes⟩ := takes_items rest fun item hitem =>
      ⟨hitems item hitem, ih item hitem (hitems item hitem)⟩
    rw [htext]
    exact takes_value_list rfl htakes
  | object hsorted _ ih =>
    cases hfree with
    | object hmembers =>
    intro rest _
    obtain ⟨tail, htext, htakes⟩ := takes_members rest fun member hmember =>
      ⟨hmembers member hmember, ih member hmember (hmembers member hmember)⟩
    rw [htext, ← Document.ofMembers_of_sorted hsorted]
    exact takes_value_object rfl htakes

theorem parse_text {document : Document} (h : Readable (room - 1) document)
    (hfree : document.FloatFree) : parse (text document) = .ok document := by
  obtain ⟨step, hstep, hvalue, hrest⟩ :=
    ((rereads_of_readable h hfree).2 [] endsNumeral_nil).of_eq (List.append_nil _)
  have hroom : value room (text document) = .ok step := hstep
  rw [parse, hroom]
  dsimp only [bind, Except.bind]
  rw [hrest, hvalue]
  rfl

end Json

namespace Leaf

theorem json_of_parse {raw : String} {document : Document}
    (h : Json.parse raw.toList = .ok document) :
    json.accepts raw = true ∧ json.parse raw = document := by
  dsimp only [json]
  rw [h]
  exact ⟨rfl, rfl⟩

theorem parse_of_json {raw : String} (h : json.accepts raw = true) :
    Json.parse raw.toList = .ok (json.parse raw) := by
  cases hparse : Json.parse raw.toList with
  | error fault =>
    simp only [json, hparse] at h
    cases h
  | ok document => rw [(json_of_parse hparse).2]

/-- An object without floating-point numbers is rendered as a text that the reader of JSON accepts
and takes for the same object. -/
theorem readsBack_json {delimiter raw : String} {members : List (String × Document)}
    (haccepts : json.accepts raw = true) (hobject : json.parse raw = .object members)
    (hfree : (Document.object members).FloatFree) : json.ReadsBack delimiter raw := by
  have hparse := parse_of_json haccepts
  rw [hobject] at hparse
  have hback : Json.parse (String.ofList (Json.text (.object members))).toList =
      .ok (.object members) := by
    rw [String.toList_ofList]
    exact Json.parse_text (Json.readable_of_parse hparse) hfree
  obtain ⟨htaken, hsame⟩ := json_of_parse hback
  have hrender : renderValue delimiter (json.parse raw) =
      some (String.ofList (Json.text (.object members))) := by
    rw [hobject]
    rfl
  exact ⟨_, hrender, htaken, hsame.trans hobject.symm⟩

theorem readsBack_json_escapes :
    let raw := "\x7b \"b\": 1, \"a\": [\"\\u0041\\/\\u001f\", -9223372036854775808], " ++
      "\"b\": \x7b\"n\": 18446744073709551615, \"e\": \"\\ud83d\\ude00\\n\"\x7d \x7d"
    let inner := Document.object [("e", .string "😀\n"), ("n", .int 18446744073709551615)]
    let members := [("a", .array [.string "A/\x1f", .int (-9223372036854775808)]), ("b", inner)]
    json.accepts raw = true ∧ json.parse raw = .object members ∧
      (Document.object members).FloatFree ∧ json.ReadsBack "," raw := by
  intro raw inner members
  have haccepts : json.accepts raw = true := by decide +kernel
  have hobject : json.parse raw = .object members := by decide +kernel
  have hinner : inner.FloatFree :=
    .object (by simp [Document.FloatFree.string, Document.FloatFree.int])
  have hlist : (Document.array [.string "A/\x1f", .int (-9223372036854775808)]).FloatFree :=
    .array (by simp [Document.FloatFree.string, Document.FloatFree.int])
  have hfree : (Document.object members).FloatFree := .object (by simp [members, hinner, hlist])
  exact ⟨haccepts, hobject, hfree, readsBack_json haccepts hobject hfree⟩

end Leaf

end TypedEnv
