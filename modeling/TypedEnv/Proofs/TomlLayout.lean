import TypedEnv.Proofs.TomlContinuation

/-!
Layouts of TOML schemas: blank lines and comments, headers, and entries with a value on one line
each.  The keys of the tables in braces that stand for fields are in sight, all other values are
known by their texts.
-/

namespace TypedEnv.Toml

open TypedEnv.Text

structure Framed (α : Type) where
  before : List Char
  item : α
  after : List Char

structure PairLayout (α : Type) where
  key : String
  between : List Char
  behind : List Char
  value : α

inductive ValueLayout where
  | braces (gap : List Char) (pairs : List (Framed (PairLayout (List Char))))
  | plain (text : List Char)

inductive Content where
  | nothing
  | header (name : Framed String)
  | entry (pair : PairLayout ValueLayout)

/-- A line may end in a comment, and a carriage return may belong to its end. -/
structure LineLayout extends Framed Content where
  comment : List Char
  returned : Bool

structure SchemaLayout where
  lines : List LineLayout

def Framed.text {α : Type} (write : α → List Char) (framed : Framed α) : List Char :=
  framed.before ++ (write framed.item ++ framed.after)

def PairLayout.text {α : Type} (write : α → List Char) (pair : PairLayout α) : List Char :=
  pair.key.toList ++ (pair.between ++ '=' :: (pair.behind ++ write pair.value))

def ValueLayout.text : ValueLayout → List Char
  | braces gap pairs =>
    '\x7b' :: (gap ++
      ([','].intercalate (pairs.map (Framed.text (PairLayout.text id))) ++ ['\x7d']))
  | plain text => text

def Content.text : Content → List Char
  | nothing => []
  | header name => '[' :: (name.text String.toList ++ [']'])
  | entry pair => pair.text ValueLayout.text

def LineLayout.text (line : LineLayout) : List Char :=
  line.toFramed.text Content.text ++ line.comment

def LineLayout.ending (line : LineLayout) : List Char :=
  if line.returned then ['\r', '\n'] else ['\n']

def textOf : List LineLayout → List Char
  | [] => []
  | [line] => line.text
  | line :: next :: lines => line.text ++ (line.ending ++ textOf (next :: lines))

def SchemaLayout.text (layout : SchemaLayout) : List Char := textOf layout.lines

def AllSpace (gap : List Char) : Prop := ∀ c ∈ gap, isSpace c = true

def IsBare (name : String) : Prop := name.toList ≠ [] ∧ ∀ c ∈ name.toList, isBareKeyChar c = true

def IsComment (comment : List Char) : Prop :=
  (∀ c ∈ comment.head?, c = '#') ∧ ∀ c ∈ comment, isPrintable c = true

def wholeValue? (levels : Nat) (text : List Char) : Option Value :=
  match value? .initial levels text with
  | some step => if step.rest = [] then some step.value else none
  | none => none

def IsValue (levels : Nat) (text : List Char) : Prop :=
  '\n' ∉ text ∧ (wholeValue? levels text).isSome

structure Framed.WellFormed {α : Type} (P : α → Prop) (framed : Framed α) : Prop where
  before : AllSpace framed.before
  item : P framed.item
  after : AllSpace framed.after

structure PairLayout.WellFormed {α : Type} (P : α → Prop) (pair : PairLayout α) : Prop where
  key : IsBare pair.key
  between : AllSpace pair.between
  behind : AllSpace pair.behind
  value : P pair.value

def innerLevels : Nat := 78

def ValueLayout.WellFormed : ValueLayout → Prop
  | braces gap pairs =>
    AllSpace gap ∧ ∀ pair ∈ pairs, pair.WellFormed (PairLayout.WellFormed (IsValue innerLevels))
  | plain text => IsValue (innerLevels + 1) text

def Content.WellFormed : Content → Prop
  | nothing => True
  | header name => name.WellFormed IsBare
  | entry pair => pair.WellFormed ValueLayout.WellFormed

def Content.isHeader : Content → Bool
  | header _ => true
  | _ => false

/-- Nothing stands behind a header. -/
structure LineLayout.WellFormed (line : LineLayout) : Prop where
  framed : line.toFramed.WellFormed Content.WellFormed
  comment : IsComment line.comment
  bare : line.item.isHeader = true → line.comment = []

theorem LineLayout.WellFormed.header {line : LineLayout} {name : Framed String}
    (h : line.WellFormed) (hitem : line.item = .header name) : name.WellFormed IsBare := by
  have hcontent := h.framed.item
  rwa [hitem] at hcontent

theorem LineLayout.WellFormed.entry {line : LineLayout} {pair : PairLayout ValueLayout}
    (h : line.WellFormed) (hitem : line.item = .entry pair) :
    pair.WellFormed ValueLayout.WellFormed := by
  have hcontent := h.framed.item
  rwa [hitem] at hcontent

def isTable : Value → Bool
  | .table _ => true
  | _ => false

/-- A table of a field is written as a table in braces with its keys in sight. -/
def Content.IsRoot : Content → Prop
  | entry pair => match pair.value with
    | .braces _ _ => True
    | .plain text => (wholeValue? (innerLevels + 1) text).any isTable = false
  | _ => True

structure SchemaLayout.WellFormed (layout : SchemaLayout) : Prop where
  lines : ∀ line ∈ layout.lines, line.WellFormed
  root : ∀ line ∈ layout.lines.takeWhile (!·.item.isHeader), line.item.IsRoot

instance {gap : List Char} : Decidable (AllSpace gap) := List.decidableBAll _ gap

instance {name : String} : Decidable (IsBare name) :=
  decidable_of_iff (name.toList ≠ [] ∧ name.toList.all isBareKeyChar = true)
    (and_congr_right' List.all_eq_true)

instance {comment : List Char} : Decidable (IsComment comment) :=
  decidable_of_iff (comment.head?.all (· == '#') = true ∧ comment.all isPrintable = true)
    (and_congr (by cases comment <;> simp) List.all_eq_true)

instance {levels : Nat} : DecidablePred (IsValue levels) := fun _ =>
  inferInstanceAs (Decidable (_ ∧ _))

section Checks

variable {α : Type} {P : α → Prop} [DecidablePred P]

instance : DecidablePred (Framed.WellFormed P) := fun framed =>
  decidable_of_iff (AllSpace framed.before ∧ P framed.item ∧ AllSpace framed.after)
    ⟨fun ⟨before, item, after⟩ => ⟨before, item, after⟩, fun h => ⟨h.before, h.item, h.after⟩⟩

instance : DecidablePred (PairLayout.WellFormed P) := fun pair =>
  decidable_of_iff (IsBare pair.key ∧ AllSpace pair.between ∧ AllSpace pair.behind ∧ P pair.value)
    ⟨fun ⟨key, between, behind, value⟩ => ⟨key, between, behind, value⟩,
      fun h => ⟨h.key, h.between, h.behind, h.value⟩⟩

end Checks

instance : DecidablePred ValueLayout.WellFormed
  | .braces _ _ => inferInstanceAs (Decidable (_ ∧ _))
  | .plain _ => inferInstanceAs (Decidable (_ ∧ _))

instance : DecidablePred Content.WellFormed
  | .nothing => inferInstanceAs (Decidable True)
  | .header _ => inferInstanceAs (Decidable (Framed.WellFormed _ _))
  | .entry _ => inferInstanceAs (Decidable (PairLayout.WellFormed _ _))

instance : DecidablePred LineLayout.WellFormed := fun line =>
  decidable_of_iff (line.toFramed.WellFormed Content.WellFormed ∧ IsComment line.comment ∧
      (line.item.isHeader = true → line.comment = []))
    ⟨fun ⟨framed, comment, bare⟩ => ⟨framed, comment, bare⟩,
      fun h => ⟨h.framed, h.comment, h.bare⟩⟩

instance : DecidablePred Content.IsRoot
  | .nothing => inferInstanceAs (Decidable True)
  | .header _ => inferInstanceAs (Decidable True)
  | .entry ⟨_, _, _, .braces _ _⟩ => inferInstanceAs (Decidable True)
  | .entry ⟨_, _, _, .plain _⟩ => inferInstanceAs (Decidable (_ = false))

instance {layout : SchemaLayout} : Decidable layout.WellFormed :=
  decidable_of_iff ((∀ line ∈ layout.lines, line.WellFormed) ∧
      ∀ line ∈ layout.lines.takeWhile (!·.item.isHeader), line.item.IsRoot)
    ⟨fun ⟨lines, root⟩ => ⟨lines, root⟩, fun h => ⟨h.lines, h.root⟩⟩

def ValueLayout.read? : ValueLayout → Option Value
  | braces _ pairs =>
    (pairs.mapM fun pair => (wholeValue? innerLevels pair.item.value).map fun value =>
      (([], pair.item.key), value)) >>= tableOfPairs
  | plain text => wholeValue? (innerLevels + 1) text

def LineLayout.add (line : LineLayout) (draft : Draft) : Option Draft :=
  match line.item with
  | .nothing => some draft
  | .header name => draft.openHeader false [] name.item
  | .entry pair => pair.value.read? >>= draft.addValue [] pair.key

def addAll (draft : Draft) (lines : List LineLayout) : Option Draft :=
  lines.foldlM (fun draft line => line.add draft) draft

theorem addAll_cons (draft : Draft) (line : LineLayout) (lines : List LineLayout) :
    addAll draft (line :: lines) = line.add draft >>= (addAll · lines) := rfl

theorem allSpace_nil : AllSpace [] := by
  simp [AllSpace]

variable {gap text rest after : List Char} {c : Char}

theorem takes_of_wholeValue? {levels : Nat} {value : Value}
    (h : wholeValue? levels text = some value) (hrest : Stops rest) :
    Takes (value? .initial levels (text ++ rest)) value rest := by
  unfold wholeValue? at h
  split at h
  · next step hstep =>
    obtain ⟨hnil, heq⟩ := Option.ite_none_right_eq_some.1 h
    exact (extends_value? levels).append hrest ⟨step, hstep, Option.some.inj heq, hnil⟩
  · cases h

theorem skipSpace_gap (hgap : AllSpace gap) (text : List Char) :
    skipSpace (gap ++ text) = skipSpace text :=
  List.dropWhile_append_of_pos hgap

theorem skipSpace_cons (h : isSpace c = false) (text : List Char) :
    skipSpace (c :: text) = c :: text := by
  rw [skipSpace, List.dropWhile_cons, h]
  rfl

theorem isStop_of_isSpace (h : isSpace c = true) : isStop c = true := by
  simp [isStop, h]

theorem stops_gap (hgap : AllSpace gap) (hrest : ∀ c ∈ rest.head?, isStop c = true ∧ c ≠ ' ') :
    Stops (gap ++ rest) := by
  have hends (gap : List Char) (hgap : AllSpace gap) : Ends (gap ++ rest) := by
    cases gap with
    | nil => exact fun c hc => (hrest c hc).1
    | cons d gap =>
      rintro c hc
      cases hc
      exact isStop_of_isSpace (hgap _ List.mem_cons_self)
  refine ⟨hends gap hgap, fun more heq => ?_⟩
  cases gap with
  | nil => exact absurd rfl (hrest ' ' (by rw [List.nil_append] at heq; simp [heq])).2
  | cons d gap =>
    cases heq
    exact hends gap fun c hc => hgap c (List.mem_cons_of_mem _ hc)

theorem ne_of_isBareKeyChar (h : isBareKeyChar c = true) {d : Char} (hd : isBareKeyChar d = false) :
    c ≠ d := by
  rintro rfl
  rw [h] at hd
  cases hd

theorem IsBare.exists_cons {name : String} (h : IsBare name) :
    ∃ c more, name.toList = c :: more ∧ isBareKeyChar c = true := by
  obtain ⟨c, more, hlist⟩ := List.exists_cons_of_ne_nil h.1
  exact ⟨c, more, hlist, h.2 c (by simp [hlist])⟩

theorem not_isSpace_of_isBareKeyChar (h : isBareKeyChar c = true) : isSpace c = false := by
  have htab := ne_of_isBareKeyChar h (d := '\t') (by decide)
  have hblank := ne_of_isBareKeyChar h (d := ' ') (by decide)
  simp [isSpace, htab, hblank]

theorem takes_key?_bare {key : String} {between : List Char} (hkey : IsBare key)
    (hgap : AllSpace gap) (hbetween : AllSpace between) (hc : isBareKeyChar c = false)
    (hspace : isSpace c = false) (hpoint : c ≠ '.') :
    Takes (key? .initial (gap ++ (key.toList ++ (between ++ c :: rest)))) ([], key)
      (c :: rest) := by
  obtain ⟨hne, hbare⟩ := hkey
  obtain ⟨d, more, hlist⟩ := List.exists_cons_of_ne_nil hne
  rw [hlist, List.forall_mem_cons] at hbare
  have hstop : ∀ e ∈ (between ++ c :: rest).head?, isBareKeyChar e = false := by
    cases between with
    | nil =>
      rintro e he
      cases he
      exact hc
    | cons e between =>
      rintro f hf
      cases hf
      exact isBareKeyChar_of_isStop (isStop_of_isSpace (hbetween _ List.mem_cons_self))
  have hpart : Takes (keyPart? .initial (skipSpace (gap ++ (key.toList ++ (between ++ c :: rest)))))
      key (between ++ c :: rest) := by
    rw [skipSpace_gap hgap, hlist, List.cons_append,
      skipSpace_cons (not_isSpace_of_isBareKeyChar hbare.1), keyPart?, if_pos hbare.1]
    · refine ⟨_, rfl, ?_, dropWhile_append_of_head hbare.2 hstop⟩
      rw [takeWhile_append_of_head hbare.2 hstop, ← hlist, String.ofList_toList]
    · exact ne_of_isBareKeyChar hbare.1 (by decide)
    · exact ne_of_isBareKeyChar hbare.1 (by decide)
  have hskip : skipSpace (between ++ c :: rest) = c :: rest := by
    rw [skipSpace_gap hbetween, skipSpace_cons hspace]
  have hparts := takes_keyParts?_last hpart fun more heq => by
    rw [hskip] at heq
    exact hpoint (List.cons.inj heq).1
  rw [hskip] at hparts
  exact takes_key? hparts rfl (by simp [Edition.initial])

def moreText (pairs : List (Framed (PairLayout (List Char)))) : List Char :=
  pairs.flatMap fun pair => ',' :: pair.text (PairLayout.text id)

theorem intercalate_pairs (pair : Framed (PairLayout (List Char)))
    (pairs : List (Framed (PairLayout (List Char)))) :
    [','].intercalate ((pair :: pairs).map (Framed.text (PairLayout.text id))) =
      pair.text (PairLayout.text id) ++ moreText pairs := by
  induction pairs generalizing pair with
  | nil => simp [moreText]
  | cons next pairs ih =>
    have hne : (next :: pairs).map (Framed.text (PairLayout.text id)) ≠ [] := List.cons_ne_nil _ _
    rw [List.map_cons, List.intercalate_cons_of_ne_nil hne, ih]
    simp [moreText]

theorem head_moreText (pairs : List (Framed (PairLayout (List Char)))) (rest : List Char) :
    ∀ c ∈ (moreText pairs ++ '\x7d' :: rest).head?, isStop c = true ∧ c ≠ ' ' := by
  cases pairs with
  | nil =>
    rintro c hc
    cases hc
    decide
  | cons pair pairs =>
    rintro c hc
    cases hc
    decide

def pairOf? (pair : Framed (PairLayout (List Char))) : Option ((List String × String) × Value) :=
  (wholeValue? innerLevels pair.item.value).map fun value => (([], pair.item.key), value)

variable {pair : Framed (PairLayout (List Char))} {pairs : List (Framed (PairLayout (List Char)))}
  {read : (List String × String) × Value}

theorem skipSpace_key {key : String} (hkey : IsBare key) (text : List Char) :
    skipSpace (key.toList ++ text) = key.toList ++ text := by
  obtain ⟨c, more, hlist, hc⟩ := hkey.exists_cons
  rw [hlist, List.cons_append, skipSpace_cons (not_isSpace_of_isBareKeyChar hc)]

theorem skipSpace_value {levels : Nat} {value : Value}
    (h : Takes (value? .initial levels text) value after) : skipSpace text = text := by
  obtain ⟨c, more, rfl, hstop⟩ := head_of_value? h
  apply skipSpace_cons
  rw [Bool.eq_false_iff]
  intro hspace
  rw [isStop_of_isSpace hspace] at hstop
  cases hstop

theorem takes_pair?_layout (h : pair.WellFormed (PairLayout.WellFormed (IsValue innerLevels)))
    (hread : pairOf? pair = some read) (hgap : AllSpace gap)
    (hrest : ∀ c ∈ rest.head?, isStop c = true ∧ c ≠ ' ') :
    Takes (pair? .initial true (value? .initial innerLevels)
      (skipGap .initial true (gap ++ (pair.text (PairLayout.text id) ++ rest)))) read
        (pair.after ++ rest) := by
  obtain ⟨value, hvalue, rfl⟩ := Option.map_eq_some_iff.1 hread
  have hitem := takes_of_wholeValue? hvalue (stops_gap h.after hrest)
  let behind := pair.item.behind ++ (pair.item.value ++ (pair.after ++ rest))
  have hkey : Takes (key? .initial (pair.item.key.toList ++ (pair.item.between ++ '=' :: behind)))
      ([], pair.item.key) ('=' :: behind) :=
    takes_key?_bare h.item.key allSpace_nil h.item.between (by decide) (by decide) (by decide)
  have hsplit : pair.text (PairLayout.text id) ++ rest =
      pair.before ++ (pair.item.key.toList ++ (pair.item.between ++ '=' :: behind)) := by
    simp [Framed.text, PairLayout.text, behind]
  rw [skipGap_initial, skipSpace_gap hgap, hsplit, skipSpace_gap h.before, skipSpace_key h.item.key]
  apply takes_pair? hkey
  · rw [skipGap_initial, skipSpace_cons (by decide)]
  · rw [skipGap_initial, skipSpace_gap h.item.behind, skipSpace_value hitem]
    exact hitem

theorem takes_pairs?_layout
    (h : ∀ pair ∈ pairs, pair.WellFormed (PairLayout.WellFormed (IsValue innerLevels)))
    {pair : Framed (PairLayout (List Char))}
    (hpair : pair.WellFormed (PairLayout.WellFormed (IsValue innerLevels)))
    {reads : List ((List String × String) × Value)}
    (hreads : (pair :: pairs).mapM pairOf? = some reads) (hgap : AllSpace gap) :
    Takes (pairs? .initial (value? .initial innerLevels)
      (gap ++ (pair.text (PairLayout.text id) ++ (moreText pairs ++ '\x7d' :: rest))))
        reads rest := by
  induction pairs generalizing pair reads gap with
  | nil =>
    rw [List.mapM_cons] at hreads
    obtain ⟨read, hread, hreads⟩ := Option.bind_eq_some_iff.1 hreads
    cases hreads
    have htakes := takes_pair?_layout hpair hread hgap (head_moreText [] rest)
    apply takes_pairs?_last htakes
    rw [skipGap_initial, skipSpace_gap hpair.after]
    rfl
  | cons next pairs ih =>
    rw [List.mapM_cons] at hreads
    obtain ⟨read, hread, hreads⟩ := Option.bind_eq_some_iff.1 hreads
    obtain ⟨others, hothers, hreads⟩ := Option.bind_eq_some_iff.1 hreads
    cases hreads
    rw [List.forall_mem_cons] at h
    have htakes := takes_pair?_layout hpair hread hgap (head_moreText (next :: pairs) rest)
    refine takes_pairs?_next htakes ?_ (closedAfterComma?_initial _)
      (ih h.2 h.1 hothers allSpace_nil)
    rw [skipGap_initial, skipSpace_gap hpair.after]
    simp [moreText, skipSpace_cons, isSpace]

def Gives {α : Type} {text : List Char} (result : Option (Step α text)) (value? : Option α)
    (rest : List Char) : Prop :=
  match value? with
  | some value => Takes result value rest
  | none => result = none

theorem Gives.bind {α β : Type} {result : Option (Step α text)} {value? : Option α}
    (h : Gives result value? rest) (next : α → List Char → Option β) :
    (result >>= fun step => next step.value step.rest) =
      value? >>= fun value => next value rest := by
  cases value? with
  | none =>
    rw [Gives] at h
    rw [h]
    rfl
  | some value =>
    obtain ⟨step, rfl, rfl, rfl⟩ := h
    rfl

theorem exists_mapM_pairOf?
    (h : ∀ pair ∈ pairs, pair.WellFormed (PairLayout.WellFormed (IsValue innerLevels))) :
    ∃ reads, pairs.mapM pairOf? = some reads := by
  induction pairs with
  | nil => exact ⟨[], rfl⟩
  | cons pair pairs ih =>
    rw [List.forall_mem_cons] at h
    obtain ⟨reads, hreads⟩ := ih h.2
    obtain ⟨value, hvalue⟩ := Option.isSome_iff_exists.1 h.1.item.value.2
    rw [List.mapM_cons, pairOf?, hvalue, hreads]
    exact ⟨_, rfl⟩

theorem skipGap_pair_ne (hgap : AllSpace gap)
    (h : pair.WellFormed (PairLayout.WellFormed (IsValue innerLevels))) (more : List Char) :
    skipGap .initial true (gap ++ (pair.text (PairLayout.text id) ++ rest)) ≠ '\x7d' :: more := by
  obtain ⟨c, key, hlist, hc⟩ := h.item.key.exists_cons
  have hskip : ∃ other, skipGap .initial true (gap ++ (pair.text (PairLayout.text id) ++ rest)) =
      pair.item.key.toList ++ other := by
    rw [skipGap_initial, skipSpace_gap hgap, Framed.text, PairLayout.text, List.append_assoc,
      skipSpace_gap h.before, List.append_assoc, List.append_assoc, skipSpace_key h.item.key]
    exact ⟨_, rfl⟩
  obtain ⟨other, hother⟩ := hskip
  rw [hother, hlist]
  intro heq
  exact ne_of_isBareKeyChar hc (by decide) (List.cons.inj heq).1

theorem inlineTable?_of_none {value : ValueReader} {pairs : List ((List String × String) × Value)}
    (h : ∀ more, skipGap .initial true text ≠ '\x7d' :: more)
    (hpairs : Takes (pairs? .initial value text) pairs rest) (htable : tableOfPairs pairs = none) :
    inlineTable? .initial value text = none := by
  obtain ⟨step, hstep, rfl, rfl⟩ := hpairs
  rw [inlineTable?]
  split
  · next other hother => exact absurd hother (h other)
  · rw [hstep]
    dsimp only [Option.bind_eq_bind, Option.bind_some]
    rw [htable]
    rfl

theorem value?_of_table {levels : Nat}
    (h : inlineTable? .initial (value? .initial levels) text = none) :
    value? .initial (levels + 1) ('\x7b' :: text) = none := by
  rw [value?_cons, if_neg (by decide), if_pos (by decide)]
  dsimp only
  rw [if_neg (by decide), h]
  rfl

theorem ValueLayout.gives {value : ValueLayout} (h : value.WellFormed) (hrest : Stops rest) :
    Gives (value? .initial (innerLevels + 1) (value.text ++ rest)) value.read? rest := by
  cases value with
  | plain text =>
    obtain ⟨read, hread⟩ := Option.isSome_iff_exists.1 h.2
    rw [ValueLayout.read?, hread]
    exact takes_of_wholeValue? hread hrest
  | braces gap pairs =>
    obtain ⟨hgap, hpairs⟩ := h
    obtain ⟨reads, hreads⟩ := exists_mapM_pairOf? hpairs
    have hvalue : (braces gap pairs).read? = tableOfPairs reads := by
      change (pairs.mapM pairOf? >>= tableOfPairs) = _
      rw [hreads]
      rfl
    rw [hvalue]
    cases pairs with
    | nil =>
      cases hreads
      have hclosed : skipGap .initial true (gap ++ '\x7d' :: rest) = '\x7d' :: rest := by
        rw [skipGap_initial, skipSpace_gap hgap]
        rfl
      have htext : (braces gap []).text ++ rest = '\x7b' :: (gap ++ '\x7d' :: rest) := by
        simp [ValueLayout.text]
      rw [htext]
      exact takes_value?_table (takes_inlineTable?_empty hclosed)
    | cons pair pairs =>
      rw [List.forall_mem_cons] at hpairs
      let inner := gap ++ (pair.text (PairLayout.text id) ++ (moreText pairs ++ '\x7d' :: rest))
      have htext : (braces gap (pair :: pairs)).text ++ rest = '\x7b' :: inner := by
        rw [ValueLayout.text, intercalate_pairs]
        simp [inner]
      have htakes : Takes (pairs? .initial (value? .initial innerLevels) inner) reads rest :=
        takes_pairs?_layout hpairs.2 hpairs.1 hreads hgap
      have hopen : ∀ more, skipGap .initial true inner ≠ '\x7d' :: more :=
        skipGap_pair_ne hgap hpairs.1
      rw [htext]
      cases htable : tableOfPairs reads with
      | some table => exact takes_value?_table (takes_inlineTable? hopen htakes htable)
      | none =>
        exact value?_of_table (inlineTable?_of_none hopen htakes htable)

end TypedEnv.Toml
