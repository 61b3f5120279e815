import TypedEnv.Proofs.Splitting
import TypedEnv.Schema.Json

/-!
The keys that a strict reading reports, and searches for them in the lines of a text.  A search
through the lines of a text finds the same place as a search through the text, if no line end
belongs to what is sought, and the number of the line is one more than the number of line feeds in
front of that place.
-/

namespace TypedEnv

namespace Text

variable {separator text line rest : List Char} {c : Char}

theorem cutAt_append_cons (h : c ∉ separator) (text rest : List Char) :
    cutAt separator (text ++ c :: rest) =
      ((cutAt separator text).map fun parts => (parts.1, parts.2 ++ c :: rest)).or
        ((cutAt separator rest).map fun parts => (text ++ c :: parts.1, parts.2)) := by
  induction text with
  | nil =>
    cases separator with
    | nil => rfl
    | cons d separator =>
      have hd : (d == c) = false := by
        rw [beq_eq_false_iff_ne]
        rintro rfl
        exact h List.mem_cons_self
      simp [cutAt, List.isPrefixOf, hd]
  | cons d text ih =>
    -- A separator that reached beyond `text` would contain the character behind it.
    have hprefix : separator.isPrefixOf (d :: text ++ c :: rest) =
        separator.isPrefixOf (d :: text) := by
      rw [Bool.eq_iff_iff, List.isPrefixOf_iff_prefix, List.isPrefixOf_iff_prefix]
      constructor
      · intro hlong
        refine (List.prefix_or_prefix_of_prefix hlong (List.prefix_append _ _)).elim id ?_
        rintro ⟨beyond, rfl⟩
        rw [List.prefix_append_right_inj] at hlong
        cases beyond with
        | nil => simp
        | cons e beyond =>
          rw [List.cons_prefix_cons] at hlong
          exact absurd (by simp [hlong.1]) h
      · exact fun hshort => hshort.trans (List.prefix_append _ _)
    rw [List.cons_append] at hprefix ⊢
    rw [cutAt, cutAt, hprefix, ih]
    split
    · next hfits =>
      have hlength := (List.isPrefixOf_iff_prefix.1 hfits).length_le
      rw [← List.cons_append, List.drop_append_of_le_length hlength]
      rfl
    · cases cutAt separator text with
      | none => cases cutAt separator rest <;> rfl
      | some parts => rfl

theorem length_le_of_cutAt {before after front : List Char}
    (h : cutAt separator text = some (before, after)) (hplace : text = front ++ separator ++ rest) :
    before.length ≤ front.length := by
  induction text generalizing before front with
  | nil =>
    have hbefore := eq_append_of_cutAt h
    simp only [List.nil_eq, List.append_eq_nil_iff] at hbefore
    simp [hbefore.1.1]
  | cons c text ih =>
    rw [cutAt] at h
    split at h
    · cases h
      exact Nat.zero_le _
    · next hprefix =>
      obtain ⟨⟨inner, tail⟩, hcut, heq⟩ := Option.map_eq_some_iff.1 h
      cases heq
      cases front with
      | nil =>
        rw [List.nil_append] at hplace
        exact absurd (List.isPrefixOf_iff_prefix.2 (hplace ▸ List.prefix_append _ _)) hprefix
      | cons d front =>
        cases hplace
        exact Nat.succ_le_succ (ih hcut rfl)

theorem cutAt_of_leftmost {before after : List Char} (htext : text = before ++ separator ++ after)
    (h : ∀ front rest, text = front ++ separator ++ rest → before.length ≤ front.length) :
    cutAt separator text = some (before, after) := by
  cases hcut : cutAt separator text with
  | none => exact absurd ⟨before, after, htext.symm⟩ (infix_of_cutAt_eq_none hcut)
  | some parts =>
    have hparts := eq_append_of_cutAt hcut
    have hlength := Nat.le_antisymm (h _ _ hparts) (length_le_of_cutAt hcut htext)
    rw [htext, List.append_assoc, List.append_assoc] at hparts
    obtain ⟨hbefore, hafter⟩ := List.append_inj hparts hlength
    rw [List.append_cancel_left_eq] at hafter
    rw [hbefore, hafter]

theorem cutAt_singleton (h : c ∉ text) (rest : List Char) :
    cutAt [c] (text ++ c :: rest) = some (text, rest) := by
  induction text with
  | nil => simp [cutAt, List.isPrefixOf]
  | cons d text ih =>
    rw [List.mem_cons, not_or] at h
    rw [List.cons_append, cutAt, ih h.2]
    simp [List.isPrefixOf, h.1]

def withoutReturn (line : List Char) : List Char :=
  if line.getLast? == some '\r' then line.dropLast else line

theorem withoutReturn_of_ne (h : line.getLast? ≠ some '\r') :
    withoutReturn line = line := by
  rw [withoutReturn, if_neg (by simpa using h)]

@[simp] theorem withoutReturn_append_singleton (line : List Char) :
    withoutReturn (line ++ ['\r']) = line := by
  simp [withoutReturn]

theorem lines_append_cons (h : '\n' ∉ line) (rest : List Char) :
    lines (line ++ '\n' :: rest) = withoutReturn line :: lines rest := by
  have hline : ∀ d ∈ line, (d == '\n') = false := by
    intro d hd
    rw [beq_eq_false_iff_ne]
    rintro rfl
    exact h hd
  obtain ⟨last, earlier, hreverse⟩ : ∃ last earlier,
      (splitWhere (· == '\n') rest).reverse = last :: earlier :=
    List.exists_cons_of_ne_nil (by simpa using splitWhere_ne_nil (· == '\n') rest)
  rw [lines, lines, splitWhere_append hline rfl, List.reverse_cons, hreverse]
  simp only [List.cons_append, List.map_append, List.map_singleton, List.reverse_append]
  split
  · rfl
  · rfl

theorem lines_of_not_mem (h : '\n' ∉ text) : lines text = if text = [] then [] else [text] := by
  have htext : ∀ d ∈ text, (d == '\n') = false := by
    intro d hd
    rw [beq_eq_false_iff_ne]
    rintro rfl
    exact h hd
  rw [lines, splitWhere_of_forall htext]
  cases text with
  | nil => rfl
  | cons c text => rfl

/-- A text is its last line, or a line before a text. -/
theorem line_induction {P : List Char → Prop} (last : ∀ line, '\n' ∉ line → P line)
    (next : ∀ line rest, '\n' ∉ line → P rest → P (line ++ '\n' :: rest)) (text : List Char) :
    P text := by
  induction hlength : text.length using Nat.strongRecOn generalizing text with
  | ind length ih =>
    by_cases hbreak : '\n' ∈ text
    · obtain ⟨line, rest, rfl, hline⟩ := List.eq_append_cons_of_mem hbreak
      apply next line rest hline
      apply ih rest.length ?_ rest rfl
      rw [← hlength, List.length_append, List.length_cons]
      omega
    · exact last text hbreak

theorem cutAt_withoutReturn (hne : separator ≠ []) (h : '\r' ∉ separator) (line : List Char) :
    cutAt separator (withoutReturn line) =
      (cutAt separator line).map fun parts => (parts.1, withoutReturn parts.2) := by
  rcases List.eq_nil_or_concat line with rfl | ⟨front, c, rfl⟩
  · simp [withoutReturn, cutAt, hne]
  · rw [List.concat_eq_append]
    by_cases hc : c = '\r'
    · subst hc
      have hnil : cutAt separator [] = none := by simp [cutAt, hne]
      rw [withoutReturn_append_singleton, cutAt_append_cons h, hnil]
      cases cutAt separator front with
      | none => rfl
      | some parts => simp
    · have hlast : (front ++ [c]).getLast? ≠ some '\r' := by simpa using hc
      rw [withoutReturn_of_ne hlast]
      cases hcut : cutAt separator (front ++ [c]) with
      | none => rfl
      | some parts =>
        have hafter : parts.2.getLast? ≠ some '\r' := by
          intro hreturn
          apply hlast
          rw [eq_append_of_cutAt hcut, List.getLast?_append, hreturn]
          rfl
        rw [Option.map_some, withoutReturn_of_ne hafter]

end Text

namespace KeyLine

open TypedEnv.Text

variable {piece text : List Char}

theorem parts?_append {field : String} (h : '.' ∉ field.toList) (name : String) :
    parts? (field ++ "." ++ name) = some (field.toList, name.toList) := by
  have htext : (field ++ "." ++ name).toList = field.toList ++ '.' :: name.toList := by simp
  rw [parts?, htext, cutAt_singleton h]

theorem firstHolding_lines (hne : piece ≠ []) (hbreak : '\n' ∉ piece) (hreturn : '\r' ∉ piece)
    (number : Nat) (text : List Char) :
    firstHolding piece number (lines text) = (cutAt piece text).map fun parts =>
      (number + parts.1.count '\n', (lines parts.2).headD [], (lines parts.2).tail) := by
  induction text using line_induction generalizing number with
  | last line hline =>
    rw [lines_of_not_mem hline]
    split
    · next hnil => simp [hnil, firstHolding, cutAt, hne]
    · rw [firstHolding]
      cases hcut : cutAt piece line with
      | none => rfl
      | some parts =>
        rw [eq_append_of_cutAt hcut] at hline
        simp only [List.mem_append, not_or] at hline
        rw [Option.map_some, List.count_eq_zero_of_not_mem hline.1.1, lines_of_not_mem hline.2]
        dsimp only
        split
        · next hnil => rw [hnil]; rfl
        · rfl
  | next line rest hline ih =>
    rw [lines_append_cons hline, firstHolding, cutAt_withoutReturn hne hreturn,
      cutAt_append_cons hbreak, ih]
    cases hcut : cutAt piece line with
    | none =>
      cases cutAt piece rest with
      | none => rfl
      | some parts =>
        have hcount : (line ++ '\n' :: parts.1).count '\n' = 1 + parts.1.count '\n' := by
          rw [List.count_append, List.count_eq_zero_of_not_mem hline, List.count_cons_self]
          omega
        simp [hcount, Nat.add_assoc]
    | some parts =>
      rw [eq_append_of_cutAt hcut] at hline
      simp only [List.mem_append, not_or] at hline
      simp [List.count_eq_zero_of_not_mem hline.1.1, lines_append_cons hline.2]

theorem not_mem_inQuotes {word : List Char} (h : ∀ c ∈ word, 0x20 ≤ c.toNat) {d : Char}
    (hd : d.toNat < 0x20) : d ∉ inQuotes word := by
  intro hmem
  simp only [inQuotes, List.cons_append, List.mem_cons, List.mem_append, List.not_mem_nil,
    or_false] at hmem
  rcases hmem with rfl | hword | rfl
  · exact absurd hd (by decide)
  · exact absurd (h d hword) (Nat.not_le.2 hd)
  · exact absurd hd (by decide)

theorem inObjects_eq {text key : String} {field name : List Char}
    (hparts : parts? key = some (field, name)) (hfield : ∀ c ∈ field, 0x20 ≤ c.toNat)
    (hname : ∀ c ∈ name, 0x20 ≤ c.toNat) :
    inObjects text key = match cutAt (inQuotes field) text.toList with
      | none => 0
      | some (before, after) => match cutAt (inQuotes name) after with
        | none => 0
        | some (between, _) => (before ++ between).count '\n' + 1 := by
  have hne {word : List Char} : inQuotes word ≠ [] := List.cons_ne_nil _ _
  rw [inObjects, hparts]
  dsimp only
  rw [firstHolding_lines hne (not_mem_inQuotes hfield (by decide))
    (not_mem_inQuotes hfield (by decide))]
  cases cutAt (inQuotes field) text.toList with
  | none => rfl
  | some parts =>
    obtain ⟨before, after⟩ := parts
    have hsearch := firstHolding_lines hne (not_mem_inQuotes hname (by decide))
      (not_mem_inQuotes hname (by decide)) (1 + before.count '\n') after
    have hcount (between : List Char) : 1 + before.count '\n' + between.count '\n' =
        (before ++ between).count '\n' + 1 := by
      rw [List.count_append]
      omega
    simp only [Option.map_some, hcount] at hsearch ⊢
    cases hlines : lines after with
    | nil =>
      rw [hlines, firstHolding] at hsearch
      rw [Option.map_eq_none_iff.1 hsearch.symm]
      rfl
    | cons line later =>
      rw [hlines, firstHolding] at hsearch
      rw [List.headD_cons, List.tail_cons, occursIn]
      cases hline : cutAt (inQuotes name) line with
      | none =>
        rw [hline] at hsearch
        dsimp only at hsearch
        rw [if_neg (by decide), hsearch]
        cases cutAt (inQuotes name) after <;> rfl
      | some parts =>
        rw [hline] at hsearch
        obtain ⟨found, hcut, hfound⟩ := Option.map_eq_some_iff.1 hsearch.symm
        rw [hcut, Option.isSome_some, if_pos rfl]
        exact (congrArg Prod.fst hfound).symm

end KeyLine

theorem Draft.unknown_of_mem_takeAll {draft : Draft} {members : List (String × Sight)}
    {name : String} (h : name ∈ (draft.takeAll members).1) :
    isKnown name = false ∧ name ∈ members.map Prod.fst := by
  induction members generalizing draft with
  | nil => cases h
  | cons member members ih =>
    obtain ⟨own, sight⟩ := member
    rw [takeAll] at h
    rw [List.map_cons, List.mem_cons]
    split at h
    · split at h
      · exact ⟨(ih h).1, Or.inr (ih h).2⟩
      · cases h
    · next hunknown =>
      rcases List.mem_cons.1 h with rfl | hlater
      · exact ⟨Bool.not_eq_true _ ▸ hunknown, Or.inl rfl⟩
      · exact ⟨(ih hlater).1, Or.inr (ih hlater).2⟩

theorem Schema.reported_of_ofFile {path : String} {lineOf : String → Nat}
    {entries : List (String × FileEntry)} {keys : List UnknownKey}
    (h : ofFile true path lineOf entries = .error (.unknownSchemaKeys path keys))
    {unknown : UnknownKey} (hunknown : unknown ∈ keys) :
    unknown.line = lineOf unknown.key ∧ ∃ field members name,
      (field, .table members) ∈ entries ∧ name ∈ members.map Prod.fst ∧
        Draft.isKnown name = false ∧ unknown.key = field ++ "." ++ name := by
  have hkeys : keys = (unknownKeys entries).map fun key => ⟨key, lineOf key⟩ := by
    rw [ofFile, if_pos rfl] at h
    split at h
    · cases hread : ofEntries entries .empty with
      | error fault =>
        rw [hread] at h
        cases h
      | ok schema =>
        rw [hread] at h
        cases h
    · cases h
      rfl
  rw [hkeys] at hunknown
  obtain ⟨key, hkey, rfl⟩ := List.mem_map.1 hunknown
  obtain ⟨⟨field, entry⟩, hentry, hkey⟩ := List.mem_flatMap.1 hkey
  refine ⟨rfl, ?_⟩
  cases entry with
  | table members =>
    obtain ⟨name, hname, rfl⟩ := List.mem_map.1 hkey
    obtain ⟨hstray, hmember⟩ := Draft.unknown_of_mem_takeAll hname
    exact ⟨field, members, name, hentry, hmember, hstray, rfl⟩
  | name typeId => cases hkey
  | other word => cases hkey

end TypedEnv
