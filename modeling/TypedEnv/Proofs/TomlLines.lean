import TypedEnv.Proofs.KeyLines
import TypedEnv.Proofs.Strictness
import TypedEnv.Proofs.TomlPlaces
import TypedEnv.Schema.Toml

/-!
The lines that a strict reading of a TOML schema reports.  The search sees the headers of a layout
as they are, takes a line for one that writes a key only if it marks that key, and no two lines mark
the same; so it finds the line of each place.
-/

namespace TypedEnv.Toml

open TypedEnv.Text TypedEnv.KeyLine

section Texts

variable {line : LineLayout} {text rest : List Char} {c : Char}

theorem newline_not_mem_gap {gap : List Char} (h : AllSpace gap) : '\n' ∉ gap := by
  intro hmem
  exact absurd (h _ hmem) (by decide)

theorem newline_not_mem_bare {name : String} (h : IsBare name) : '\n' ∉ name.toList := by
  intro hmem
  exact absurd (h.2 _ hmem) (by decide)

theorem newline_not_mem_framed {α : Type} {P : α → Prop} {write : α → List Char}
    {framed : Framed α} (h : framed.WellFormed P) (hitem : '\n' ∉ write framed.item) :
    '\n' ∉ framed.text write := by
  simp [Framed.text, newline_not_mem_gap h.before, newline_not_mem_gap h.after, hitem]

theorem newline_not_mem_pair {α : Type} {P : α → Prop} {write : α → List Char}
    {pair : PairLayout α} (h : pair.WellFormed P) (hvalue : '\n' ∉ write pair.value) :
    '\n' ∉ pair.text write := by
  simp [PairLayout.text, newline_not_mem_bare h.key, newline_not_mem_gap h.between,
    newline_not_mem_gap h.behind, hvalue]

theorem newline_not_mem_value {value : ValueLayout} (h : value.WellFormed) :
    '\n' ∉ value.text := by
  cases value with
  | plain text => exact h.1
  | braces gap pairs =>
    obtain ⟨hgap, hpairs⟩ := h
    have htext : ∀ pair ∈ pairs, '\n' ∉ pair.text (PairLayout.text id) := fun pair hpair =>
      newline_not_mem_framed (hpairs pair hpair)
        (newline_not_mem_pair (hpairs pair hpair).item (hpairs pair hpair).item.value.1)
    have hinner : '\n' ∉ [','].intercalate (pairs.map (Framed.text (PairLayout.text id))) := by
      cases pairs with
      | nil => exact List.not_mem_nil
      | cons pair pairs =>
        rw [List.forall_mem_cons] at htext
        rw [intercalate_pairs, List.mem_append, moreText, List.mem_flatMap]
        rintro (hfirst | ⟨later, hlater, hmem⟩)
        · exact htext.1 hfirst
        · rcases List.mem_cons.1 hmem with heq | hmem
          · cases heq
          · exact htext.2 later hlater hmem
    simp [ValueLayout.text, newline_not_mem_gap hgap, hinner]

theorem newline_not_mem_content {content : Content} (h : content.WellFormed) :
    '\n' ∉ content.text := by
  cases content with
  | nothing => exact List.not_mem_nil
  | header name =>
    have hname : '\n' ∉ name.text String.toList :=
      newline_not_mem_framed h (newline_not_mem_bare h.item)
    simp [Content.text, hname]
  | entry pair => exact newline_not_mem_pair h (newline_not_mem_value h.value)

theorem newline_not_mem_text (h : line.WellFormed) : '\n' ∉ line.text := by
  have hcomment : '\n' ∉ line.comment := by
    intro hmem
    exact absurd (h.comment.2 _ hmem) (by decide)
  rw [LineLayout.text, List.mem_append, not_or]
  exact ⟨newline_not_mem_framed h.framed (newline_not_mem_content h.framed.item), hcomment⟩

theorem isBlank_of_isSpace (h : isSpace c = true) : isBlank c = true := by
  simp only [isSpace, decide_eq_true_eq] at h
  rcases h with rfl | rfl <;> decide

theorem isBlank_of_isBareKeyChar (h : isBareKeyChar c = true) : isBlank c = false := by
  rw [← Bool.not_eq_true]
  intro hblank
  have hother : isBareKeyChar c = false := eq_false_of_isBlank (by decide +kernel) hblank
  rw [h] at hother
  cases hother

theorem trim_withoutReturn (line : List Char) : trim (withoutReturn line) = trim line := by
  rcases List.eq_nil_or_concat line with rfl | ⟨front, c, rfl⟩
  · rfl
  · rw [List.concat_eq_append]
    by_cases hc : c = '\r'
    · have hpadded : trim ([] ++ front ++ [c]) = trim front := by
        apply trim_padded (List.forall_mem_nil _)
        rw [List.forall_mem_singleton, hc]
        decide
      rw [hc, withoutReturn_append_singleton, ← hc]
      exact hpadded.symm
    · rw [withoutReturn_of_ne (by simpa using hc)]

theorem trim_gap {gap : List Char} (hgap : AllSpace gap) (hc : isBlank c = false)
    (text : List Char) : trim (gap ++ c :: text) = c :: trimEnd text := by
  have hblank : ∀ d ∈ gap, isBlank d = true := fun d hd => isBlank_of_isSpace (hgap d hd)
  rw [trim, trimStart, List.dropWhile_append_of_pos hblank, ← trimStart, trimStart_cons hc,
    trimEnd_cons hc]

end Texts

section Search

variable {line : LineLayout} {later : List LineLayout} {section_ : Option String}
  {pair : PairLayout ValueLayout} {name field : String}

theorem trim_text_nothing (h : line.WellFormed) (hitem : line.item = .nothing) :
    trim line.text = [] ∨ ∃ rest, trim line.text = '#' :: rest := by
  have hgap : AllSpace (line.before ++ line.after) := by
    intro c hc
    exact (List.mem_append.1 hc).elim (h.framed.before c) (h.framed.after c)
  have htext : line.text = (line.before ++ line.after) ++ line.comment := by
    simp [LineLayout.text, Framed.text, Content.text, hitem]
  rw [htext]
  cases hcomment : line.comment with
  | nil =>
    left
    have hpadded : trim ([] ++ [] ++ (line.before ++ line.after)) = trim [] :=
      trim_padded (List.forall_mem_nil _) fun c hc => isBlank_of_isSpace (hgap c hc)
    rw [List.append_nil]
    exact hpadded
  | cons c comment =>
    obtain rfl : c = '#' := h.comment.1 c (by simp [hcomment])
    exact Or.inr ⟨_, trim_gap hgap (by decide) comment⟩

theorem trim_text_header (h : line.WellFormed) {name : Framed String}
    (hitem : line.item = .header name) :
    trim line.text = '[' :: (name.text String.toList ++ [']']) := by
  have hcomment : line.comment = [] := h.bare (by rw [hitem]; rfl)
  have htext : line.text = line.before ++ ('[' :: (name.text String.toList ++ [']'])) ++
      line.after := by
    simp [LineLayout.text, Framed.text, Content.text, hitem, hcomment]
  rw [htext, trim_padded (fun c hc => isBlank_of_isSpace (h.framed.before c hc))
    fun c hc => isBlank_of_isSpace (h.framed.after c hc)]
  apply trim_of_ends
  · rintro c hc
    cases hc
    decide
  · rw [← List.cons_append, List.getLast?_append_of_ne_nil _ (List.cons_ne_nil _ _)]
    rintro c hc
    cases hc
    decide

def LineLayout.behindSign (line : LineLayout) (pair : PairLayout ValueLayout) : List Char :=
  trimEnd (pair.behind ++ (pair.value.text ++ (line.after ++ line.comment)))

theorem trim_text_entry (h : line.WellFormed) (hitem : line.item = .entry pair) :
    trim line.text = pair.key.toList ++ (pair.between ++ '=' :: line.behindSign pair) := by
  obtain ⟨c, key, hlist, hc⟩ := (h.entry hitem).key.exists_cons
  have htext : line.text = line.before ++ c :: ((key ++ pair.between) ++ '=' ::
      (pair.behind ++ (pair.value.text ++ (line.after ++ line.comment)))) := by
    simp [LineLayout.text, Framed.text, Content.text, PairLayout.text, hitem, hlist]
  rw [htext, trim_gap h.framed.before (isBlank_of_isBareKeyChar hc),
    trimEnd_append_cons (by decide), hlist, List.append_assoc]
  rfl

theorem dropEnd_append {p : Char → Bool} {text rest : List Char} (hrest : ∀ c ∈ rest, p c = true)
    (htext : ∀ c ∈ text, p c = false) : dropEnd p (text ++ rest) = text := by
  rw [dropEnd, List.reverse_append, dropWhile_append_of_head, List.reverse_reverse]
  · exact fun c hc => hrest c (List.mem_reverse.1 hc)
  · exact fun c hc => htext c (List.mem_reverse.1 (List.mem_of_mem_head? hc))

theorem dropWhile_of_forall {p : Char → Bool} {text : List Char} (h : ∀ c ∈ text, p c = false) :
    text.dropWhile p = text :=
  dropWhile_append_of_head (List.forall_mem_nil _) fun c hc => h c (List.mem_of_mem_head? hc)

theorem header?_name {name : Framed String} (h : name.WellFormed IsBare) :
    KeyLine.header? ('[' :: (name.text String.toList ++ [']'])) = some name.item.toList := by
  have hbare {c d : Char} (hc : c ∈ name.item.toList) (hd : isBareKeyChar d = false) :
      (c == d) = false :=
    beq_eq_false_iff_ne.2 (ne_of_isBareKeyChar (h.item.2 c hc) hd)
  have hinner {d : Char} (hbare : isBareKeyChar d = false) (hspace : isSpace d = false) :
      ∀ c ∈ name.text String.toList, (c == d) = false := by
    rintro c hc
    rw [beq_eq_false_iff_ne]
    rintro rfl
    simp only [Framed.text, List.mem_append] at hc
    rcases hc with hc | hc | hc
    · rw [h.before c hc] at hspace
      cases hspace
    · rw [h.item.2 c hc] at hbare
      cases hbare
    · rw [h.after c hc] at hspace
      cases hspace
  have hopen : ('[' :: (name.text String.toList ++ [']'])).dropWhile (· == '[') =
      name.text String.toList ++ [']'] := by
    rw [List.dropWhile_cons, if_pos (by decide)]
    exact dropWhile_of_forall
      (List.forall_mem_append.2 ⟨hinner (by decide) (by decide),
        List.forall_mem_singleton.2 (by decide)⟩)
  have hclose : dropEnd (· == ']') (name.text String.toList ++ [']']) = name.text String.toList :=
    dropEnd_append (List.forall_mem_singleton.2 (by decide)) (hinner (by decide) (by decide))
  have htrim : trim (name.text String.toList) = name.item.toList := by
    rw [Framed.text, ← List.append_assoc, trim_padded
      (fun c hc => isBlank_of_isSpace (h.before c hc))
      fun c hc => isBlank_of_isSpace (h.after c hc)]
    exact trim_of_forall fun c hc => isBlank_of_isBareKeyChar (h.item.2 c hc)
  have hquotes : dropEnd (· == '"') (name.item.toList ++ []) = name.item.toList :=
    dropEnd_append (List.forall_mem_nil _) fun c hc => hbare hc (by decide)
  have hsingle (more : List Char) : name.text String.toList ++ [']'] ≠ '[' :: more := by
    rw [Framed.text, List.append_assoc, List.append_assoc]
    exact head_framed_ne h more
  rw [List.append_nil] at hquotes
  rw [KeyLine.header?]
  · rw [hopen, hclose, htrim, dropWhile_of_forall fun c hc => hbare hc (by decide), hquotes]
  · rintro more heq
    exact hsingle more heq

theorem header?_text (h : line.WellFormed) :
    KeyLine.header? (trim line.text) = match line.item with
      | .header name => some name.item.toList
      | _ => none := by
  cases hitem : line.item with
  | nothing =>
    rcases trim_text_nothing h hitem with heq | ⟨rest, heq⟩
    · rw [heq]
      rfl
    · rw [heq]
      rfl
  | header name => rw [trim_text_header h hitem, header?_name (h.header hitem)]
  | entry pair =>
    obtain ⟨c, key, hlist, hc⟩ := (h.entry hitem).key.exists_cons
    have hopen : c ≠ '[' := ne_of_isBareKeyChar hc (by decide)
    rw [trim_text_entry h hitem, hlist, List.cons_append, KeyLine.header?]
    · rintro rest heq
      exact hopen (List.cons.inj heq).1
    · rintro rest heq
      exact hopen (List.cons.inj heq).1

theorem after?_self_append (name rest : List Char) : after? name (name ++ rest) = some rest := by
  rw [after?, if_pos (List.isPrefixOf_iff_prefix.2 (List.prefix_append _ _)), List.drop_left]

theorem assigned?_of_sign {name rest value : List Char} (h : trimStart rest = '=' :: value) :
    assigned? name (name ++ rest) = some value := by
  unfold assigned?
  rw [after?_self_append]
  simp only [h]

theorem assigned?_of_no_sign {name rest : List Char} (h : ∀ value, trimStart rest ≠ '=' :: value) :
    assigned? name (name ++ rest) = none := by
  unfold assigned?
  rw [after?_self_append]
  dsimp only
  split
  · next value hsign => exact absurd hsign (h value)
  · rfl

theorem assigned?_entry {name key : String} {between value : List Char} (hname : IsBare name)
    (hkey : IsBare key) (hbetween : AllSpace between) :
    assigned? name.toList (key.toList ++ (between ++ '=' :: value)) =
      if name = key then some value else none := by
  split
  · next heq =>
    have hsign : trimStart (between ++ '=' :: value) = '=' :: value := by
      apply dropWhile_append_of_head fun c hc => isBlank_of_isSpace (hbetween c hc)
      rintro c hc
      cases hc
      decide
    rw [heq, assigned?_of_sign hsign]
  · next hne =>
    by_cases hprefix : name.toList <+: key.toList ++ (between ++ '=' :: value)
    · obtain ⟨rest, hrest⟩ := hprefix
      rcases List.append_eq_append_iff.1 hrest with ⟨more, hmore, hbehind⟩ | ⟨more, hmore, hbehind⟩
      · -- The key is longer: its next character is no sign.
        cases more with
        | nil =>
          rw [List.append_nil, String.toList_inj] at hmore
          exact absurd hmore.symm hne
        | cons c more =>
          have hc : isBareKeyChar c = true := hkey.2 c (by simp [hmore])
          rw [← hrest, hbehind]
          apply assigned?_of_no_sign
          intro value heq
          rw [List.cons_append, trimStart_cons (isBlank_of_isBareKeyChar hc)] at heq
          exact ne_of_isBareKeyChar hc (by decide) (List.cons.inj heq).1
      · -- The name is longer: its next character would have to be a blank or the sign.
        cases more with
        | nil =>
          rw [List.append_nil, String.toList_inj] at hmore
          exact absurd hmore hne
        | cons c more =>
          have hc : isBareKeyChar c = true := hname.2 c (by simp [hmore])
          cases between with
          | nil => exact absurd (List.cons.inj hbehind).1.symm (ne_of_isBareKeyChar hc (by decide))
          | cons d between =>
            have hd : isSpace d = true := hbetween d List.mem_cons_self
            rw [(List.cons.inj hbehind).1, not_isSpace_of_isBareKeyChar hc] at hd
            cases hd
    · rw [assigned?, after?, if_neg (mt List.isPrefixOf_iff_prefix.1 hprefix)]

theorem assigned?_nil (hname : IsBare name) : assigned? name.toList [] = none := by
  rw [assigned?, after?, if_neg]
  simpa using hname.1

theorem assigned?_of_head {c : Char} {rest : List Char} (hname : IsBare name)
    (hc : isBareKeyChar c = false) : assigned? name.toList (c :: rest) = none := by
  obtain ⟨d, more, hlist, hd⟩ := hname.exists_cons
  have hne : ¬ name.toList <+: c :: rest := by
    rw [hlist, List.cons_prefix_cons]
    exact fun h => ne_of_isBareKeyChar hd hc h.1
  rw [assigned?, after?, if_neg (mt List.isPrefixOf_iff_prefix.1 hne)]

theorem assigned?_text (h : line.WellFormed) (hname : IsBare name) :
    assigned? name.toList (trim line.text) = match line.item with
      | .entry pair => if name = pair.key then some (line.behindSign pair) else none
      | _ => none := by
  cases hitem : line.item with
  | nothing =>
    rcases trim_text_nothing h hitem with heq | ⟨rest, heq⟩
    · rw [heq, assigned?_nil hname]
    · rw [heq, assigned?_of_head hname (by decide)]
  | header header => rw [trim_text_header h hitem, assigned?_of_head hname (by decide)]
  | entry pair =>
    rw [trim_text_entry h hitem, assigned?_entry hname (h.entry hitem).key (h.entry hitem).between]

theorem infix_intercalate_pairs {pair : Framed (PairLayout (List Char))}
    {pairs : List (Framed (PairLayout (List Char)))} (h : pair ∈ pairs) :
    pair.text (PairLayout.text id) <:+:
      [','].intercalate (pairs.map (Framed.text (PairLayout.text id))) := by
  cases pairs with
  | nil => cases h
  | cons first pairs =>
    rw [intercalate_pairs]
    rcases List.mem_cons.1 h with rfl | h
    · exact (List.prefix_append _ _).isInfix
    · have hlater : ',' :: pair.text (PairLayout.text id) <:+: moreText pairs := by
        rw [moreText, List.flatMap_def]
        exact List.infix_of_mem_flatten (List.mem_map_of_mem h)
      exact ((List.infix_cons (List.infix_refl _)).trans hlater).trans
        (List.suffix_append _ _).isInfix

theorem exists_trimStart_behindSign (h : line.WellFormed) (hitem : line.item = .entry pair)
    (hkey : name ∈ pair.value.keys) :
    ∃ rest, trimStart (line.behindSign pair) = '\x7b' :: rest ∧ name.toList <:+: rest := by
  cases hvalue : pair.value with
  | plain text =>
    rw [hvalue] at hkey
    cases hkey
  | braces gap pairs =>
    rw [hvalue] at hkey
    obtain ⟨own, hown, rfl⟩ := List.mem_map.1 hkey
    let inner := [','].intercalate (pairs.map (Framed.text (PairLayout.text id)))
    let rest := gap ++ (inner ++ '\x7d' :: trimEnd (line.after ++ line.comment))
    have hbehind : line.behindSign pair = pair.behind ++ '\x7b' :: rest := by
      have htext : pair.behind ++ (pair.value.text ++ (line.after ++ line.comment)) =
          (pair.behind ++ '\x7b' :: (gap ++ inner)) ++ '\x7d' :: (line.after ++ line.comment) := by
        simp [hvalue, ValueLayout.text, inner]
      rw [LineLayout.behindSign, htext, trimEnd_append_cons (by decide)]
      simp [rest]
    refine ⟨rest, ?_, ?_⟩
    · rw [hbehind]
      apply dropWhile_append_of_head
      · exact fun c hc => isBlank_of_isSpace ((h.entry hitem).behind c hc)
      · rintro c hc
        cases hc
        decide
    · have hfirst : own.item.key.toList <:+: own.text (PairLayout.text id) :=
        ⟨own.before, own.item.between ++ '=' :: (own.item.behind ++ own.item.value ++ own.after),
          by simp [Framed.text, PairLayout.text]⟩
      have hinner : inner <:+: rest :=
        ⟨gap, '\x7d' :: trimEnd (line.after ++ line.comment), by simp [rest]⟩
      exact (hfirst.trans (infix_intercalate_pairs hown)).trans hinner

theorem occursIn_of_infix {piece text : List Char} (h : piece <:+: text) :
    occursIn piece text = true := by
  rw [occursIn, Option.isSome_iff_ne_none]
  exact fun hcut => infix_of_cutAt_eq_none hcut h

def sectionText (section_ : Option String) : List Char := (section_.map String.toList).getD []

theorem writes_root (hfield : IsBare field) (text : List Char) :
    writes field.toList name.toList (sectionText none) text =
      (assigned? field.toList text).any fun value =>
        (trimStart value).head? == some '\x7b' && occursIn name.toList (trimStart value) := by
  have hroot : sectionText none = [] := rfl
  rw [writes, hroot, if_neg (Ne.symm hfield.1), if_pos rfl]
  cases assigned? field.toList text <;> rfl

theorem writes_below {header : String} (hheader : IsBare header) (text : List Char) :
    writes field.toList name.toList (sectionText (some header)) text =
      (header == field && (assigned? name.toList text).isSome) := by
  change writes field.toList name.toList header.toList text = _
  rw [writes]
  by_cases heq : header = field
  · simp [heq]
  · simp [heq, String.toList_inj, hheader.1]

theorem writes_of_mem_keys (h : line.WellFormed) (hsection : ∀ header ∈ section_, IsBare header)
    (hkey : (field, name) ∈ line.keys section_) :
    writes field.toList name.toList (sectionText section_) (trim line.text) = true := by
  obtain ⟨pair, hitem, hkeys⟩ := LineLayout.exists_entry_of_mem_keys hkey
  have hassigned : assigned? pair.key.toList (trim line.text) = some (line.behindSign pair) := by
    rw [assigned?_text h (h.entry hitem).key, hitem]
    exact if_pos rfl
  rcases hkeys with ⟨rfl, rfl, hname⟩ | ⟨rfl, rfl⟩
  · obtain ⟨rest, hrest, hinfix⟩ := exists_trimStart_behindSign h hitem hname
    rw [writes_root (h.entry hitem).key, hassigned]
    simp [hrest, occursIn_of_infix (List.infix_cons hinfix)]
  · rw [writes_below (hsection _ rfl), hassigned]
    simp

/-- The search takes no line for one that writes a key but the line that marks it. -/
theorem mark?_of_writes (h : line.WellFormed) (hfield : IsBare field) (hname : IsBare name)
    (hsection : ∀ header ∈ section_, IsBare header)
    (hwrites : writes field.toList name.toList (sectionText section_) (trim line.text) = true) :
    line.mark? section_ = some (field, section_.map fun _ => name) := by
  have hassigned {key : String} (hkey : IsBare key)
      (hsome : (assigned? key.toList (trim line.text)).isSome = true) :
      ∃ pair, line.item = .entry pair ∧ pair.key = key := by
    rw [assigned?_text h hkey] at hsome
    split at hsome
    · next pair hitem =>
      refine ⟨pair, hitem, by_contra fun hne => ?_⟩
      rw [if_neg (Ne.symm hne)] at hsome
      cases hsome
    · cases hsome
  cases section_ with
  | none =>
    rw [writes_root hfield, Option.any_eq_true] at hwrites
    obtain ⟨value, hvalue, -⟩ := hwrites
    obtain ⟨pair, hitem, rfl⟩ := hassigned hfield (by rw [hvalue]; rfl)
    simp [LineLayout.mark?, hitem]
  | some header =>
    rw [writes_below (hsection _ rfl), Bool.and_eq_true, beq_iff_eq] at hwrites
    obtain ⟨rfl, hsome⟩ := hwrites
    obtain ⟨pair, hitem, rfl⟩ := hassigned hname hsome
    simp [LineLayout.mark?, hitem]

theorem lines_textOf (h : line.WellFormed) (later : List LineLayout) :
    (∃ shown, lines (textOf (line :: later)) = shown :: lines (textOf later) ∧
      trim shown = trim line.text) ∨ line.text = [] ∧ later = [] := by
  have hbreak := newline_not_mem_text h
  cases later with
  | nil =>
    change (∃ shown, lines line.text = shown :: [] ∧ _) ∨ _
    rw [lines_of_not_mem hbreak]
    split
    · next hnil => exact Or.inr ⟨hnil, rfl⟩
    · exact Or.inl ⟨_, rfl, rfl⟩
  | cons next later =>
    left
    have htext : textOf (line :: next :: later) =
      line.text ++ (line.ending ++ textOf (next :: later)) := rfl
    rw [htext, LineLayout.ending]
    split
    · have hreturn : '\n' ∉ line.text ++ ['\r'] := by simp [hbreak]
      have hlines := lines_append_cons hreturn (textOf (next :: later))
      rw [withoutReturn_append_singleton, List.append_assoc] at hlines
      exact ⟨_, hlines, rfl⟩
    · exact ⟨_, lines_append_cons hbreak _, trim_withoutReturn line.text⟩

theorem search_textOf_cons (h : line.WellFormed) (hfield : IsBare field) (hname : IsBare name)
    (number : Nat) (later : List LineLayout) :
    search field.toList name.toList number (sectionText section_) (lines (textOf (line :: later))) =
      match line.item with
      | .header header => search field.toList name.toList (number + 1) header.item.toList
          (lines (textOf later))
      | _ => if writes field.toList name.toList (sectionText section_) (trim line.text) then number
          else search field.toList name.toList (number + 1) (sectionText section_)
            (lines (textOf later)) := by
  rcases lines_textOf h later with ⟨shown, hlines, htrim⟩ | ⟨htext, rfl⟩
  · rw [hlines, search, htrim, header?_text h]
    cases line.item <;> rfl
  · have hwrites : writes field.toList name.toList (sectionText section_) [] = false := by
      simp [writes, assigned?_nil hfield, assigned?_nil hname]
    have hheader := header?_text h
    rw [htext] at hheader
    have hnone : lines (textOf [line]) = [] := by
      rw [textOf, htext]
      rfl
    rw [hnone, htext, trim_nil, hwrites]
    cases hitem : line.item with
    | header header =>
      rw [hitem] at hheader
      cases hheader
    | nothing => rfl
    | entry pair => rfl

theorem isBare_of_mem_sectionAfter (h : line.WellFormed)
    (hsection : ∀ header ∈ section_, IsBare header) :
    ∀ header ∈ line.sectionAfter section_, IsBare header := by
  cases hheader : line.item.isHeader with
  | true =>
    obtain ⟨name, hitem⟩ := Content.exists_of_isHeader hheader
    rw [LineLayout.sectionAfter_header hitem]
    rintro header hname
    cases hname
    exact (h.header hitem).item
  | false => rwa [LineLayout.sectionAfter_of_not_header hheader]

theorem isBare_of_mem_keys (h : line.WellFormed) (hsection : ∀ header ∈ section_, IsBare header)
    (hkey : (field, name) ∈ line.keys section_) : IsBare field ∧ IsBare name := by
  obtain ⟨pair, hitem, hkeys⟩ := LineLayout.exists_entry_of_mem_keys hkey
  have hpair := h.entry hitem
  rcases hkeys with ⟨rfl, rfl, hmem⟩ | ⟨rfl, rfl⟩
  · refine ⟨hpair.key, ?_⟩
    have hvalue := hpair.value
    cases hlayout : pair.value with
    | plain text =>
      rw [hlayout] at hmem
      cases hmem
    | braces gap pairs =>
      rw [hlayout] at hmem hvalue
      obtain ⟨inner, hinner, rfl⟩ := List.mem_map.1 hmem
      exact (hvalue.2 inner hinner).item.key
  · exact ⟨hsection _ rfl, hpair.key⟩

theorem isBare_of_mem_placesFrom {place : Place} {number : Nat}
    (h : ∀ line ∈ later, line.WellFormed) (hsection : ∀ header ∈ section_, IsBare header)
    (hplace : place ∈ placesFrom section_ number later) :
    IsBare place.field ∧ IsBare place.name := by
  induction later generalizing section_ number with
  | nil => cases hplace
  | cons line later ih =>
    rw [List.forall_mem_cons] at h
    rcases List.mem_append.1 hplace with hplace | hplace
    · obtain ⟨key, hkey, rfl⟩ := List.mem_map.1 hplace
      exact isBare_of_mem_keys h.1 hsection hkey
    · exact ih h.2 (isBare_of_mem_sectionAfter h.1 hsection) hplace

theorem marked_of_mem_placesFrom {place : Place} {number : Nat}
    (hplace : place ∈ placesFrom section_ number later) :
    (section_ = some place.field ∨ (place.field, none) ∈ marksFrom section_ later) ∧
      (section_ ≠ none → (place.field, some place.name) ∈ marksFrom section_ later) := by
  induction later generalizing section_ number with
  | nil => cases hplace
  | cons line later ih =>
    rw [marksFrom]
    rcases List.mem_append.1 hplace with hplace | hplace
    · obtain ⟨⟨field, name⟩, hkey, rfl⟩ := List.mem_map.1 hplace
      obtain ⟨pair, hitem, hkeys⟩ := LineLayout.exists_entry_of_mem_keys hkey
      rcases hkeys with ⟨rfl, rfl, -⟩ | ⟨rfl, rfl⟩
      · simp [LineLayout.mark?, hitem]
      · simp [LineLayout.mark?, hitem]
    · obtain ⟨hfield, hname⟩ := ih hplace
      refine ⟨?_, fun hsome => List.mem_append_right _ (hname fun hnone =>
        hsome (eq_none_of_sectionAfter hnone).2)⟩
      cases hheader : line.item.isHeader with
      | false =>
        rw [LineLayout.sectionAfter_of_not_header hheader] at hfield ⊢
        exact hfield.imp_right (List.mem_append_right _)
      | true =>
        right
        obtain ⟨header, hitem⟩ := Content.exists_of_isHeader hheader
        rcases hfield with hfield | hfield
        · rw [LineLayout.sectionAfter_header hitem, Option.some_inj] at hfield
          simp [LineLayout.mark?, hitem, hfield]
        · exact List.mem_append_right _ hfield

/-- The search finds each place, if no two lines mark the same. -/
theorem search_of_mem_placesFrom {place : Place} {number : Nat}
    (h : ∀ line ∈ later, line.WellFormed) (hsection : ∀ header ∈ section_, IsBare header)
    (hnodup : (marksFrom section_ later).Nodup)
    (hplace : place ∈ placesFrom section_ number later) :
    search place.field.toList place.name.toList number (sectionText section_)
      (lines (textOf later)) = place.line := by
  obtain ⟨hfield, hname⟩ := isBare_of_mem_placesFrom h hsection hplace
  induction later generalizing section_ number with
  | nil => cases hplace
  | cons line later ih =>
    rw [List.forall_mem_cons] at h
    rw [search_textOf_cons h.1 hfield hname]
    rcases List.mem_append.1 hplace with hkey | hlater
    · obtain ⟨⟨field, name⟩, hkeys, rfl⟩ := List.mem_map.1 hkey
      obtain ⟨pair, hitem, -⟩ := LineLayout.exists_entry_of_mem_keys hkeys
      rw [hitem]
      exact if_pos (writes_of_mem_keys h.1 hsection hkeys)
    · have hrest := ih h.2 (isBare_of_mem_sectionAfter h.1 hsection)
        (List.Nodup.of_append_right hnodup) hlater
      -- A line that writes the key marks it, and so does the line of the place or its header.
      have hskip (hheader : line.item.isHeader = false) :
          writes place.field.toList place.name.toList (sectionText section_) (trim line.text) ≠
            true := by
        intro hwrites
        have hmark := mark?_of_writes h.1 hfield hname hsection hwrites
        have hmarked := marked_of_mem_placesFrom hlater
        rw [marksFrom, hmark, LineLayout.sectionAfter_of_not_header hheader] at hnodup
        rw [LineLayout.sectionAfter_of_not_header hheader] at hmarked
        apply (List.nodup_cons.1 hnodup).1
        cases section_ with
        | none => exact hmarked.1.resolve_left (Option.some_ne_none _).symm
        | some header => exact hmarked.2 (Option.some_ne_none _)
      cases hitem : line.item with
      | header header => rwa [LineLayout.sectionAfter_header hitem] at hrest
      | nothing =>
        have hheader : line.item.isHeader = false := by rw [hitem]; rfl
        rw [LineLayout.sectionAfter_of_not_header hheader] at hrest
        rwa [if_neg (hskip hheader)]
      | entry pair =>
        have hheader : line.item.isHeader = false := by rw [hitem]; rfl
        rw [LineLayout.sectionAfter_of_not_header hheader] at hrest
        rwa [if_neg (hskip hheader)]

end Search

theorem exists_of_mem_membersToValues {members : Members} {field : String} {value : Value}
    (h : (field, value) ∈ membersToValues members) :
    ∃ node, (field, node) ∈ members ∧ node.toValue = value := by
  induction members with
  | nil => cases h
  | cons member members ih =>
    obtain ⟨own, node⟩ := member
    rw [membersToValues] at h
    rcases List.mem_cons.1 h with heq | h
    · cases heq
      exact ⟨node, List.mem_cons_self, rfl⟩
    · obtain ⟨node, hnode, hvalue⟩ := ih h
      exact ⟨node, List.mem_cons_of_mem _ hnode, hvalue⟩

theorem has_of_canonicalText? {draft : Draft} {fields members : List (String × Value)}
    {field name : String} (h : canonicalText? (membersToValues draft.members) = some fields)
    (hfield : (field, .table members) ∈ fields) (hname : name ∈ members.map Prod.fst) :
    draft.Has field name := by
  obtain ⟨own, hown, rfl⟩ := Option.map_eq_some_iff.1 h
  obtain ⟨value, hvalue, hcanonical⟩ :=
    exists_of_mem_canonicalMembers? hown (Dict.mem_of_mem_ofList hfield)
  obtain ⟨written, inner, rfl, hinner, rfl⟩ := exists_of_canonical?_eq_table hcanonical
  obtain ⟨node, hnode, htable⟩ := exists_of_mem_membersToValues hvalue
  obtain ⟨member, hmember, rfl⟩ := List.mem_map.1 hname
  obtain ⟨other, hother, -⟩ :=
    exists_of_mem_canonicalMembers? hinner (Dict.mem_of_mem_ofList hmember)
  exact ⟨node, written, hnode, htable, List.mem_map.2 ⟨_, hother, rfl⟩⟩

namespace SchemaLayout

variable {layout : SchemaLayout} {draft : Draft} {place : Place}

theorem inTables_of_place (h : layout.WellFormed) (hread : addAll .empty layout.lines = some draft)
    (hplace : place ∈ layout.places) :
    inTables (String.ofList layout.text) place.key = place.line := by
  have hsection : ∀ header ∈ (none : Option String), IsBare header := fun header hheader => by
    cases hheader
  have hpoint : '.' ∉ place.field.toList := by
    intro hmem
    exact absurd ((isBare_of_mem_placesFrom h.lines hsection hplace).1.2 _ hmem) (by decide)
  rw [inTables, Place.key, parts?_append hpoint, String.toList_ofList]
  exact search_of_mem_placesFrom h.lines hsection (nodup_marksFrom below_empty hread).1 hplace

/-- Each reported key is written in the layout under a name that no rule has, and its line is that
on which it is written. -/
theorem line_of_stray (h : layout.WellFormed) {path : String} {keys : List UnknownKey}
    (hstrict : Schema.ofToml (String.ofList layout.text) path true =
      .error (.unknownSchemaKeys path keys)) :
    ∀ unknown ∈ keys,
      (∃ place ∈ layout.places, unknown.key = place.key ∧ Draft.isKnown place.name = false) ∧
      ∀ place ∈ layout.places, unknown.key = place.key → unknown.line = place.line := by
  intro unknown hunknown
  rw [Schema.ofToml, String.toList_ofList, parse_text h] at hstrict
  split at hstrict
  · cases hstrict
  · next fields hfields =>
    obtain ⟨written, hwritten, hcanonical⟩ := Option.bind_eq_some_iff.1 hfields
    obtain ⟨draft, hread, rfl⟩ := Option.map_eq_some_iff.1 hwritten
    obtain ⟨hline, field, members, name, hentry, hname, hstray, hkey⟩ :=
      Schema.reported_of_ofFile hstrict hunknown
    constructor
    · obtain ⟨⟨own, value⟩, hmember, hsight⟩ := List.mem_map.1 hentry
      have htable : ∃ inner, value = .table inner ∧
          members.map Prod.fst = inner.map Prod.fst := by
        cases value <;> cases hsight
        exact ⟨_, rfl, by simp⟩
      obtain ⟨inner, rfl, hnames⟩ := htable
      cases hsight
      have hhas := has_of_canonicalText? hcanonical hmember (hnames ▸ hname)
      rcases has_of_addAll below_empty hread (fun _ => h.root) hhas 1 with hnone | hplaces
      · obtain ⟨node, members, hnode, -⟩ := hnone
        cases hnode
      · obtain ⟨place, hplace, rfl, rfl⟩ := hplaces
        exact ⟨place, hplace, hkey, hstray⟩
    · intro place hplace hplaceKey
      rw [hline, hplaceKey]
      exact inTables_of_place h hread hplace

def lineOf (gap : String) (item : Content) (comment : String) (returned : Bool) : LineLayout :=
  ⟨⟨gap.toList, item, if comment = "" then [] else [' ']⟩, comment.toList, returned⟩

def pairOf {α : Type} (key : String) (value : α) : PairLayout α := ⟨key, [' '], [' '], value⟩

/-- An unknown key in three tables, in one of them behind a longer key.  It stands in comments and
is a field as well, and one of the headers goes on where the name of another field ends. -/
def crowded : SchemaLayout :=
  ⟨[lineOf "" .nothing "# A has no mni = 1" true,
    lineOf "" (.entry (pairOf "A" (.braces [' ']
      [⟨[], pairOf "type" "\"int\"".toList, []⟩, ⟨[' '], pairOf "mni" ['1'], [' ']⟩]))) "" true,
    lineOf "" (.entry (pairOf "mni" (.plain "\"string\"".toList))) "" false,
    lineOf "" .nothing "" false,
    lineOf "" (.header ⟨[], "B", []⟩) "" false,
    lineOf "  " (.entry (pairOf "mnix" (.plain "[1, 2]".toList))) "" false,
    lineOf "  " (.entry (pairOf "mni" (.plain "\"\x7b # \x7d\"".toList))) "# mni = 2" false,
    lineOf "" (.header ⟨[' '], "A-1", [' ']⟩) "" false,
    lineOf "\t" (.entry (pairOf "type" (.plain "\"int\"".toList))) "" false,
    lineOf "\t" (.entry (pairOf "mni" (.plain ['2']))) "" false]⟩

theorem wellFormed_crowded : crowded.WellFormed := by
  decide +kernel

theorem ofToml_crowded : Schema.ofToml (String.ofList crowded.text) "s.toml" true =
    .error (.unknownSchemaKeys "s.toml"
      [⟨"A.mni", 2⟩, ⟨"A-1.mni", 10⟩, ⟨"B.mni", 7⟩, ⟨"B.mnix", 6⟩]) := by
  have hread : (parse .initial crowded.text >>= canonicalText?).map (fun fields =>
      Schema.unknownKeys (fields.map fun field => (field.1, field.2.fileEntry))) =
        some ["A.mni", "A-1.mni", "B.mni", "B.mnix"] := by
    decide +kernel
  obtain ⟨fields, hfields, hkeys⟩ := Option.map_eq_some_iff.1 hread
  rw [Schema.ofToml, String.toList_ofList, hfields]
  dsimp only
  rw [Schema.ofFile_strict, hkeys, if_neg (by decide)]
  have hlines : ["A.mni", "A-1.mni", "B.mni", "B.mnix"].map (fun key =>
      UnknownKey.mk key (inTables (String.ofList crowded.text) key)) =
        [⟨"A.mni", 2⟩, ⟨"A-1.mni", 10⟩, ⟨"B.mni", 7⟩, ⟨"B.mnix", 6⟩] := by
    decide +kernel
  rw [hlines]

theorem line_of_stray_crowded :
    crowded.WellFormed ∧
    Schema.ofToml (String.ofList crowded.text) "s.toml" true =
      .error (.unknownSchemaKeys "s.toml"
        [⟨"A.mni", 2⟩, ⟨"A-1.mni", 10⟩, ⟨"B.mni", 7⟩, ⟨"B.mnix", 6⟩]) ∧
    ∃ place ∈ crowded.places, place.key = "B.mni" ∧ Draft.isKnown place.name = false ∧
      place.line = 7 := by
  obtain ⟨⟨place, hplace, hkey, hstray⟩, hline⟩ :=
    line_of_stray wellFormed_crowded ofToml_crowded ⟨"B.mni", 7⟩ (by decide)
  exact ⟨wellFormed_crowded, ofToml_crowded, place, hplace, hkey.symm, hstray,
    (hline place hplace hkey).symm⟩

end SchemaLayout

end TypedEnv.Toml
