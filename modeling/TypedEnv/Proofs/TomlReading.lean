import TypedEnv.Proofs.TomlLayout

/-!
Reading the text of a layout adds up what its lines add.
-/

namespace TypedEnv.Toml

open TypedEnv.Text

variable {gap text rest after : List Char} {c : Char}

def EndsLine (tail more : List Char) : Prop :=
  (tail = [] ∧ more = []) ∨ lineBreak? tail = some more

variable {comment tail more : List Char} {draft : Draft}

theorem EndsLine.head (h : EndsLine tail more) : ∀ c ∈ tail.head?, c = '\n' ∨ c = '\r' := by
  rcases h with ⟨rfl, -⟩ | h
  · simp
  · unfold lineBreak? at h
    split at h
    · simp
    · simp
    · cases h

theorem LineLayout.endsLine_ending (line : LineLayout) (more : List Char) :
    EndsLine (line.ending ++ more) more := by
  right
  unfold LineLayout.ending
  split <;> rfl

theorem skip_behind (hafter : AllSpace after) (hcomment : IsComment comment)
    (htail : EndsLine tail more) :
    skipComment (skipSpace (after ++ (comment ++ tail))) = tail := by
  obtain ⟨hmark, hprint⟩ := hcomment
  rw [skipSpace_gap hafter]
  cases comment with
  | nil =>
    cases tail with
    | nil => rfl
    | cons c tail =>
      have hc : c = '\n' ∨ c = '\r' := htail.head c rfl
      rcases hc with rfl | rfl <;> rfl
  | cons c comment =>
    obtain rfl : c = '#' := hmark c rfl
    rw [List.forall_mem_cons] at hprint
    rw [List.cons_append, skipSpace_cons (by decide), skipComment]
    apply dropWhile_append_of_head hprint.2
    intro c hc
    rcases htail.head c hc with rfl | rfl <;> decide

theorem nextLine?_behind (hafter : AllSpace after) (hcomment : IsComment comment)
    (htail : EndsLine tail more) : nextLine? (after ++ (comment ++ tail)) = some more := by
  rw [nextLine?, skip_behind hafter hcomment htail]
  rcases htail with ⟨rfl, rfl⟩ | h
  · rfl
  · split
    · cases h
    · exact h

theorem lines?_of_nil (h : skipLines text = []) : lines? .initial draft text = some draft := by
  rw [lines?]
  split
  · rfl
  · next c more hmore =>
    rw [h] at hmore
    cases hmore

@[simp] theorem lines?_nil : lines? .initial draft [] = some draft :=
  lines?_of_nil (by rw [skipLines_of_none rfl]; rfl)

theorem lines?_of_cons (h : skipLines text = c :: more) :
    lines? .initial draft text = if c = '#' then
        if skipComment (c :: more) = [] then some draft else none
      else
        line? .initial draft (c :: more) >>= fun step =>
          lines? .initial step.value step.rest := by
  rw [lines?]
  split
  · next hnil =>
    rw [h] at hnil
    cases hnil
  · next d other hother =>
    rw [h] at hother
    cases hother
    rfl

theorem lines?_congr {other : List Char} (h : skipLines text = skipLines other) :
    lines? .initial draft text = lines? .initial draft other := by
  cases hother : skipLines other with
  | nil => rw [lines?_of_nil (h.trans hother), lines?_of_nil hother]
  | cons c more => rw [lines?_of_cons (h.trans hother), lines?_of_cons hother]

theorem pair?_gives {value : ValueReader} {value? : Option Value} {key : List String × String}
    {mid : List Char} (hkey : Takes (key? .initial text) key mid)
    (hsign : skipSpace mid = '=' :: after)
    (hitem : Gives (value (skipSpace after)) value? rest) :
    Gives (pair? .initial false value text) (value?.map (key, ·)) rest := by
  have hsign : skipGap .initial false mid = '=' :: after := by rw [skipGap_initial, hsign]
  have hitem : Gives (value (skipGap .initial false after)) value? rest := by rwa [skipGap_initial]
  cases value? with
  | some item => exact takes_pair? hkey hsign hitem
  | none =>
    obtain ⟨step, hstep, rfl, rfl⟩ := hkey
    change pair? _ _ _ _ = none
    rw [pair?, hstep]
    dsimp only [Option.bind_eq_bind, Option.bind_some]
    split
    · next other hother =>
      rw [hsign] at hother
      cases hother
      change value _ = none at hitem
      rw [hitem]
      rfl
    · rfl

theorem line?_gives_entry {value? : Option Value} {key : String} (hc : c ≠ '[')
    (hpair : Gives (pair? .initial false (Toml.value? .initial Edition.initial.levels) (c :: text))
      (value?.map (([], key), ·)) rest) (hnext : nextLine? rest = some more) :
    Gives (line? .initial draft (c :: text)) (value? >>= draft.addValue [] key) more := by
  rw [line?]
  · cases value? with
    | none =>
      change pair? _ _ _ _ = none at hpair
      change _ = none
      rw [hpair]
      rfl
    | some value =>
      obtain ⟨step, hstep, hvalue, rfl⟩ := hpair
      rw [hstep]
      dsimp only [Option.bind_eq_bind, Option.bind_some]
      split
      · next hnone =>
        rw [hnext] at hnone
        cases hnone
      · next other hother =>
        rw [hnext] at hother
        cases hother
        rw [hvalue]
        cases hadd : draft.addValue [] key value with
        | none => rfl
        | some next => exact ⟨_, rfl, rfl, rfl⟩
  · intro rest heq
    exact hc (List.cons.inj heq).1
  · intro rest heq
    exact hc (List.cons.inj heq).1

theorem header?_gives {name : String} (hkey : Takes (key? .initial text) ([], name) (']' :: after))
    (hnext : nextLine? after = some more) :
    Gives (header? .initial draft false text) (draft.openHeader false [] name) more := by
  obtain ⟨step, hstep, hvalue, hrest⟩ := hkey
  have hclosed : closed? false step.rest = some after := by
    rw [hrest]
    rfl
  rw [header?, hstep]
  dsimp only [Option.bind_eq_bind, Option.bind_some]
  split
  · next hnone =>
    rw [hclosed] at hnone
    cases hnone
  · next other hother =>
    rw [hclosed] at hother
    cases hother
    split
    · next hnone =>
      rw [hnext] at hnone
      cases hnone
    · next other hother =>
      rw [hnext] at hother
      cases hother
      rw [hvalue]
      cases hopen : draft.openHeader false [] name with
      | none => rfl
      | some next => exact ⟨_, rfl, rfl, rfl⟩

theorem skipLines_gap (hgap : AllSpace gap) (hc : isStop c = false) (text : List Char) :
    skipLines (gap ++ c :: text) = c :: text := by
  have hne {d : Char} (hd : isStop d = true) : c ≠ d := by
    rintro rfl
    rw [hc] at hd
    cases hd
  have hspace : isSpace c = false := by
    rw [Bool.eq_false_iff]
    exact fun hspace => hne (isStop_of_isSpace hspace) rfl
  have hskip : skipSpace (gap ++ c :: text) = c :: text := by
    rw [skipSpace_gap hgap, skipSpace_cons hspace]
  rw [skipLines_of_none, hskip]
  rw [hskip, skipComment_of_ne (hne (by decide))]
  exact lineBreak?_of_ne (hne (by decide)) (hne (by decide)) text

theorem stops_behind (hafter : AllSpace after) (hcomment : IsComment comment)
    (htail : EndsLine tail more) : Stops (after ++ (comment ++ tail)) := by
  apply stops_gap hafter
  cases comment with
  | nil =>
    intro c hc
    rcases htail.head c hc with rfl | rfl <;> decide
  | cons d comment =>
    rintro c hc
    cases hc
    rw [hcomment.1 d rfl]
    decide

theorem isStop_of_bare (h : isBareKeyChar c = true) : isStop c = false := by
  rw [Bool.eq_false_iff]
  intro hstop
  rw [isBareKeyChar_of_isStop hstop] at h
  cases h

theorem ValueLayout.skipSpace_text {value : ValueLayout} (h : value.WellFormed) (rest : List Char) :
    skipSpace (value.text ++ rest) = value.text ++ rest := by
  cases value with
  | braces gap pairs => exact skipSpace_cons (by decide) _
  | plain text =>
    obtain ⟨value, hvalue⟩ := Option.isSome_iff_exists.1 h.2
    have hstops : Stops [] := stops_gap allSpace_nil (by simp)
    obtain ⟨c, more, hhead, hstop⟩ := head_of_value? (takes_of_wholeValue? hvalue hstops)
    rw [List.append_nil] at hhead
    have hspace : isSpace c = false := by
      rw [Bool.eq_false_iff]
      intro hspace
      rw [isStop_of_isSpace hspace] at hstop
      cases hstop
    rw [ValueLayout.text, hhead]
    exact skipSpace_cons hspace _

theorem head_framed_ne {name : Framed String} (hname : name.WellFormed IsBare) (more : List Char) :
    name.before ++ (name.item.toList ++ text) ≠ '[' :: more := by
  intro heq
  cases hbefore : name.before with
  | nil =>
    obtain ⟨c, key, hlist, hc⟩ := hname.item.exists_cons
    rw [hbefore, hlist] at heq
    exact ne_of_isBareKeyChar hc (by decide) (List.cons.inj heq).1
  | cons c gap =>
    have hc : isSpace c = true := hname.before c (by simp [hbefore])
    rw [hbefore] at heq
    rw [(List.cons.inj heq).1] at hc
    cases hc

theorem lines?_nothing {line : LineLayout} (h : line.WellFormed) (htail : EndsLine tail more)
    (hitem : line.item = .nothing) (draft : Draft) :
    lines? .initial draft (line.text ++ tail) = lines? .initial draft more := by
  have hgap : AllSpace (line.before ++ line.after) := by
    intro c hc
    exact (List.mem_append.1 hc).elim (h.framed.before c) (h.framed.after c)
  have htext : line.text ++ tail = (line.before ++ line.after) ++ (line.comment ++ tail) := by
    simp [LineLayout.text, Framed.text, Content.text, hitem]
  have hskip := skip_behind hgap h.comment htail
  rw [htext]
  rcases htail with ⟨rfl, rfl⟩ | hbreak
  · have hlines :
        skipLines (line.before ++ line.after ++ (line.comment ++ [])) = line.comment ++ [] := by
      rw [skipLines_of_none (by rw [hskip]; rfl), skipSpace_gap hgap]
      cases hcomment : line.comment with
      | nil => rfl
      | cons c comment =>
        obtain rfl : c = '#' := h.comment.1 c (by simp [hcomment])
        exact skipSpace_cons (by decide) _
    rw [lines?_nil]
    cases hcomment : line.comment with
    | nil =>
      rw [hcomment] at hlines
      exact lines?_of_nil hlines
    | cons c comment =>
      obtain rfl : c = '#' := h.comment.1 c (by simp [hcomment])
      rw [skipSpace_gap hgap, hcomment, List.cons_append, skipSpace_cons (by decide)] at hskip
      rw [hcomment] at hlines
      rw [lines?_of_cons hlines, if_pos rfl]
      exact if_pos hskip
  · apply lines?_congr
    apply skipLines_of_break
    rw [hskip, hbreak]

theorem lines?_header {line : LineLayout} {name : Framed String} (h : line.WellFormed)
    (htail : EndsLine tail more) (hitem : line.item = .header name) (draft : Draft) :
    lines? .initial draft (line.text ++ tail) =
      draft.openHeader false [] name.item >>= fun next => lines? .initial next more := by
  have hname := h.header hitem
  have hcomment : line.comment = [] := h.bare (by rw [hitem]; rfl)
  let inner := name.before ++
    (name.item.toList ++ (name.after ++ ']' :: (line.after ++ ([] ++ tail))))
  have htext : line.text ++ tail = line.before ++ '[' :: inner := by
    simp [LineLayout.text, Framed.text, Content.text, hitem, hcomment, inner]
  have hkey : Takes (key? .initial inner) ([], name.item) (']' :: (line.after ++ ([] ++ tail))) :=
    takes_key?_bare hname.item hname.before hname.after (by decide) (by decide) (by decide)
  have hnext : nextLine? (line.after ++ ([] ++ tail)) = some more :=
    nextLine?_behind h.framed.after (by simp [IsComment]) htail
  have hline : Gives (line? .initial draft ('[' :: inner)) (draft.openHeader false [] name.item)
      more := by
    have hopen : ∀ rest, inner ≠ '[' :: rest := head_framed_ne hname
    rw [line?]
    · have hheader : Gives (header? .initial draft false inner) _ _ := header?_gives hkey hnext
      cases hadd : draft.openHeader false [] name.item with
      | none =>
        rw [hadd] at hheader
        change header? _ _ _ _ = none at hheader
        rw [hheader]
        rfl
      | some next =>
        rw [hadd] at hheader
        exact hheader.map _ (fun _ => id) fun _ => rfl
    · exact hopen
  rw [htext, lines?_of_cons (skipLines_gap h.framed.before (by decide) _), if_neg (by decide)]
  exact hline.bind fun next rest => lines? .initial next rest

theorem lines?_entry {line : LineLayout} {pair : PairLayout ValueLayout} (h : line.WellFormed)
    (htail : EndsLine tail more) (hitem : line.item = .entry pair) (draft : Draft) :
    lines? .initial draft (line.text ++ tail) =
      (pair.value.read? >>= draft.addValue [] pair.key) >>= fun next =>
        lines? .initial next more := by
  have hpair := h.entry hitem
  let behind := line.after ++ (line.comment ++ tail)
  obtain ⟨c, key, hlist, hc⟩ := hpair.key.exists_cons
  let inner := pair.between ++ '=' :: (pair.behind ++ (pair.value.text ++ behind))
  have htext : line.text ++ tail = line.before ++ c :: (key ++ inner) := by
    simp [LineLayout.text, Framed.text, Content.text, PairLayout.text, hitem, hlist, inner, behind]
  have hkey : Takes (key? .initial (c :: (key ++ inner))) ([], pair.key)
      ('=' :: (pair.behind ++ (pair.value.text ++ behind))) := by
    have htakes : Takes (key? .initial ([] ++ (pair.key.toList ++ inner))) _ _ :=
      takes_key?_bare hpair.key allSpace_nil hpair.between (by decide) (by decide) (by decide)
    rwa [hlist] at htakes
  have hnext : nextLine? behind = some more := nextLine?_behind h.framed.after h.comment htail
  have hstops : Stops behind := stops_behind h.framed.after h.comment htail
  have hvalue : Gives (value? .initial Edition.initial.levels
      (skipSpace (pair.behind ++ (pair.value.text ++ behind)))) pair.value.read? behind := by
    rw [skipSpace_gap hpair.behind, ValueLayout.skipSpace_text hpair.value]
    exact ValueLayout.gives hpair.value hstops
  have hline : Gives (line? .initial draft (c :: (key ++ inner)))
      (pair.value.read? >>= draft.addValue [] pair.key) more :=
    line?_gives_entry (ne_of_isBareKeyChar hc (by decide))
      (pair?_gives hkey (skipSpace_cons (by decide) _) hvalue) hnext
  rw [htext, lines?_of_cons (skipLines_gap h.framed.before (isStop_of_bare hc) _),
    if_neg (ne_of_isBareKeyChar hc (by decide))]
  exact hline.bind fun next rest => lines? .initial next rest

theorem lines?_line {line : LineLayout} (h : line.WellFormed) (htail : EndsLine tail more)
    (draft : Draft) :
    lines? .initial draft (line.text ++ tail) =
      line.add draft >>= fun next => lines? .initial next more := by
  unfold LineLayout.add
  cases hitem : line.item with
  | nothing => exact lines?_nothing h htail hitem draft
  | header name => exact lines?_header h htail hitem draft
  | entry pair => exact lines?_entry h htail hitem draft

theorem lines?_textOf {lines : List LineLayout} (h : ∀ line ∈ lines, line.WellFormed)
    (draft : Draft) :
    lines? .initial draft (textOf lines) = addAll draft lines := by
  fun_induction textOf lines generalizing draft with
  | case1 => exact lines?_nil
  | case2 line =>
    have hline := lines?_line (h line List.mem_cons_self) (Or.inl ⟨rfl, rfl⟩) draft
    rw [List.append_nil] at hline
    rw [hline, addAll_cons]
    congr 1
    funext draft
    exact lines?_nil
  | case3 line next lines ih =>
    rw [List.forall_mem_cons] at h
    rw [lines?_line h.1 (line.endsLine_ending _), addAll_cons]
    congr 1
    funext draft
    exact ih h.2 draft

theorem text_ne_mark {line : LineLayout} (h : line.WellFormed) (htail : EndsLine tail more)
    (rest : List Char) : line.text ++ tail ≠ '\ufeff' :: rest := by
  have hspace {gap text : List Char} (hgap : AllSpace gap) (htext : text ≠ '\ufeff' :: rest) :
      gap ++ text ≠ '\ufeff' :: rest := by
    cases gap with
    | nil => exact htext
    | cons c gap =>
      intro heq
      have hc : isSpace c = true := hgap c List.mem_cons_self
      rw [(List.cons.inj heq).1] at hc
      cases hc
  have hsplit : line.text ++ tail = line.before ++
      (line.item.text ++ (line.after ++ (line.comment ++ tail))) := by
    simp [LineLayout.text, Framed.text]
  rw [hsplit]
  apply hspace h.framed.before
  cases hitem : line.item with
  | nothing =>
    apply hspace h.framed.after
    cases hcomment : line.comment with
    | nil =>
      intro heq
      rw [List.nil_append] at heq
      rcases htail.head '\ufeff' (by rw [heq]; rfl) with hc | hc <;> cases hc
    | cons c comment =>
      intro heq
      have hc : c = '#' := h.comment.1 c (by simp [hcomment])
      rw [(List.cons.inj heq).1] at hc
      cases hc
  | header name =>
    intro heq
    cases heq
  | entry pair =>
    obtain ⟨c, key, hlist, hc⟩ := (h.entry hitem).key.exists_cons
    intro heq
    rw [Content.text, PairLayout.text, hlist] at heq
    exact ne_of_isBareKeyChar hc (by decide) (List.cons.inj heq).1

theorem textOf_ne_mark {lines : List LineLayout} (h : ∀ line ∈ lines, line.WellFormed)
    (rest : List Char) : textOf lines ≠ '\ufeff' :: rest := by
  match lines with
  | [] => exact List.cons_ne_nil _ _ |>.symm
  | [line] =>
    have hline := text_ne_mark (h line List.mem_cons_self) (Or.inl ⟨rfl, rfl⟩) rest
    rwa [List.append_nil] at hline
  | line :: next :: lines =>
    exact text_ne_mark (h line List.mem_cons_self) (line.endsLine_ending _) rest

theorem SchemaLayout.parse_text {layout : SchemaLayout} (h : layout.WellFormed) :
    parse .initial layout.text =
      (addAll .empty layout.lines).map fun draft => membersToValues draft.members := by
  have hread : lines? .initial .empty layout.text = addAll .empty layout.lines :=
    lines?_textOf h.lines .empty
  rw [parse, hread]
  exact textOf_ne_mark h.lines

end TypedEnv.Toml
