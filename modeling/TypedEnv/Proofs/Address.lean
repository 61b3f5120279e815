import TypedEnv.Proofs.Pattern
import TypedEnv.Proofs.Typing

/-!
Addresses.  A text is an address if it has no blank and one `@`, with text before it and, after it,
a point that stands neither first nor last.  The pattern of addresses takes characters up to a point
as long as it can, points among them, and gives them back until what is left fits.  It matches the
same texts.
-/

namespace TypedEnv

open TypedEnv.Text

namespace Address

variable {text name domain host top : List Char}

def nameOf (text : List Char) : List Char := text.takeWhile (· != '@')

def domainOf (text : List Char) : List Char := (text.dropWhile (· != '@')).tail

/-- The requirements on a text, each one on its own. -/
structure Scanned (text : List Char) : Prop where
  unspaced : ∀ c ∈ text, isBlank c = false
  one_mark : text.count '@' = 1
  name : nameOf text ≠ []
  point : ∃ place, 0 < place ∧ place + 1 < (domainOf text).length ∧
    (domainOf text)[place]? = some '.'

theorem split_at_mark (h : '@' ∉ name) :
    nameOf (name ++ '@' :: domain) = name ∧ domainOf (name ++ '@' :: domain) = domain := by
  have hname : ∀ c ∈ name, (c != '@') = true := by
    intro c hc
    rw [bne_iff_ne]
    rintro rfl
    exact h hc
  have hmark : ∀ c ∈ ('@' :: domain).head?, (c != '@') = false := by
    rintro c ⟨⟩
    rfl
  constructor
  · exact takeWhile_append_of_head hname hmark
  · rw [domainOf, dropWhile_append_of_head hname hmark, List.tail_cons]

theorem eq_nameOf_append (h : '@' ∈ text) : text = nameOf text ++ '@' :: domainOf text := by
  obtain ⟨name, domain, rfl, hname⟩ := List.eq_append_cons_of_mem h
  rw [(split_at_mark hname).1, (split_at_mark hname).2]

theorem isAddressChar_iff {c : Char} : isAddressChar c = true ↔ isBlank c = false ∧ c ≠ '@' := by
  rw [isAddressChar, Bool.and_eq_true, Bool.not_eq_true', bne_iff_ne]

theorem exists_place_iff :
    (∃ place, 0 < place ∧ place + 1 < domain.length ∧ domain[place]? = some '.') ↔
      ∃ host top, host ≠ [] ∧ top ≠ [] ∧ domain = host ++ '.' :: top := by
  constructor
  · rintro ⟨place, hfirst, hlast, hpoint⟩
    obtain ⟨hplace, hpoint⟩ := List.getElem?_eq_some_iff.1 hpoint
    refine ⟨domain.take place, domain.drop (place + 1), ?_, ?_, ?_⟩
    · rw [Ne, List.take_eq_nil_iff]
      rintro (rfl | rfl)
      · omega
      · simp at hlast
    · rw [Ne, List.drop_eq_nil_iff]
      omega
    · rw [← hpoint, List.getElem_cons_drop, List.take_append_drop]
  · rintro ⟨host, top, hhost, htop, rfl⟩
    have hbefore : 0 < host.length := List.length_pos_iff.2 hhost
    have hafter : 0 < top.length := List.length_pos_iff.2 htop
    refine ⟨host.length, hbefore, ?_, ?_⟩
    · rw [List.length_append, List.length_cons]
      omega
    · simp

theorem scanned_of_shape (h : AddressShape text) : Scanned text := by
  cases h with
  | @intro name host top hname hhost htop hall =>
    simp only [List.forall_mem_append, isAddressChar_iff] at hall
    obtain ⟨⟨hnames, hhosts⟩, htops⟩ := hall
    have hmark : '@' ∉ name := fun hmem => (hnames '@' hmem).2 rfl
    have hdomain : '@' ∉ host ++ '.' :: top := by
      rw [List.mem_append, List.mem_cons]
      rintro (hmem | hpoint | hmem)
      · exact (hhosts '@' hmem).2 rfl
      · exact absurd hpoint (by decide)
      · exact (htops '@' hmem).2 rfl
    obtain ⟨hbefore, hafter⟩ := @split_at_mark name (host ++ '.' :: top) hmark
    constructor
    case unspaced =>
      intro c hc
      simp only [List.mem_append, List.mem_cons] at hc
      rcases hc with hc | rfl | hc | rfl | hc
      · exact (hnames c hc).1
      · decide
      · exact (hhosts c hc).1
      · decide
      · exact (htops c hc).1
    case one_mark =>
      rw [List.count_append, List.count_cons_self, List.count_eq_zero.2 hmark,
        List.count_eq_zero.2 hdomain]
    case name =>
      rw [hbefore]
      exact hname
    case point =>
      rw [hafter, exists_place_iff]
      exact ⟨host, top, hhost, htop, rfl⟩

theorem shape_of_scanned (h : Scanned text) : AddressShape text := by
  have hmem : '@' ∈ text := by
    rw [← List.count_pos_iff, h.one_mark]
    decide
  have htext := eq_nameOf_append hmem
  have hcount := h.one_mark
  rw [htext, List.count_append, List.count_cons_self] at hcount
  have hname : '@' ∉ nameOf text := List.count_eq_zero.1 (by omega)
  have hdomain : '@' ∉ domainOf text := List.count_eq_zero.1 (by omega)
  obtain ⟨host, top, hhost, htop, hpoint⟩ := exists_place_iff.1 h.point
  have hnames : ∀ c ∈ nameOf text, isAddressChar c = true := by
    intro c hc
    refine isAddressChar_iff.2 ⟨h.unspaced c ?_, fun heq => hname (heq ▸ hc)⟩
    rw [htext]
    exact List.mem_append_left _ hc
  have hdomains : ∀ c ∈ domainOf text, isAddressChar c = true := by
    intro c hc
    refine isAddressChar_iff.2 ⟨h.unspaced c ?_, fun heq => hdomain (heq ▸ hc)⟩
    rw [htext]
    exact List.mem_append_right _ (List.mem_cons_of_mem _ hc)
  rw [hpoint] at hdomains htext
  rw [htext]
  refine .intro h.name hhost htop fun c hc => ?_
  rw [List.append_assoc, List.mem_append, List.mem_append] at hc
  rcases hc with hc | hc | hc
  · exact hnames c hc
  · exact hdomains c (List.mem_append_left _ hc)
  · exact hdomains c (List.mem_append_right _ (List.mem_cons_of_mem _ hc))

def word : Pattern := .seq (.one isAddressChar) (.many isAddressChar)

def body : Pattern :=
  .seq word (.seq (.one (· == '@')) (.seq word (.seq (.one (· == '.')) (.seq word .finish))))

/-- The whole pattern, `^[^\s@]+@[^\s@]+\.[^\s@]+$`. -/
def pattern : Pattern := .seq .start body

theorem leaves_word {rest : List Char} : word.Leaves text rest ↔
    ∃ run : List Char, run ≠ [] ∧ text = run ++ rest ∧ ∀ c ∈ run, isAddressChar c = true := by
  simp only [word, Pattern.leaves_seq, Pattern.leaves_one, Pattern.leaves_many]
  constructor
  · rintro ⟨_, ⟨c, hc, rfl⟩, run, rfl, hrun⟩
    exact ⟨c :: run, List.cons_ne_nil _ _, rfl, List.forall_mem_cons.2 ⟨hc, hrun⟩⟩
  · rintro ⟨run, hne, rfl, hrun⟩
    obtain ⟨c, tail, rfl⟩ := List.exists_cons_of_ne_nil hne
    rw [List.forall_mem_cons] at hrun
    exact ⟨tail ++ rest, ⟨c, hrun.1, rfl⟩, tail, rfl, hrun.2⟩

theorem leaves_mark {mark : Char} {rest : List Char} :
    (Pattern.one (· == mark)).Leaves text rest ↔ text = mark :: rest := by
  simp [Pattern.leaves_one]

theorem isSome_captures?_iff : (pattern.captures? text).isSome = true ↔ AddressShape text := by
  have hfloating : body.Floating := by
    simp [body, word, Pattern.Floating]
  rw [pattern, Pattern.captures?_start hfloating, Pattern.isSome_captured?_iff]
  simp only [body, Pattern.leaves_seq, leaves_word, leaves_mark, Pattern.leaves_finish]
  constructor
  · rintro ⟨_, _, ⟨name, hname, rfl, hnames⟩, _, rfl, _, ⟨host, hhost, rfl, hhosts⟩, _, rfl, _,
      ⟨top, htop, rfl, htops⟩, rfl, rfl⟩
    rw [List.append_nil]
    refine .intro hname hhost htop ?_
    simp only [List.forall_mem_append]
    exact ⟨⟨hnames, hhosts⟩, htops⟩
  · intro h
    cases h with
    | @intro name host top hname hhost htop hall =>
      simp only [List.forall_mem_append] at hall
      exact ⟨[], _, ⟨name, hname, rfl, hall.1.1⟩, _, rfl, _, ⟨host, hhost, rfl, hall.1.2⟩, _, rfl,
        _, ⟨top, htop, (List.append_nil top).symm, hall.2⟩, rfl, rfl⟩

end Address

/-- The reader of addresses accepts the texts without a blank that have one `@`, text before it, and
after it a point that is neither the first nor the last character.  The pattern matches these and no
others. -/
theorem Leaf.accepts_email_iff (raw : String) :
    (email.accepts raw = true ↔ Address.Scanned raw.toList) ∧
      email.accepts raw = (Address.pattern.captures? raw.toList).isSome := by
  have hshape : email.accepts raw = true ↔ AddressShape raw.toList := isEmail_iff
  constructor
  · rw [hshape]
    exact ⟨Address.scanned_of_shape, Address.shape_of_scanned⟩
  · rw [Bool.eq_iff_iff, hshape, Address.isSome_captures?_iff]

example : Leaf.email.accepts "a@b.c." = true ∧ Leaf.email.accepts "a@..b" = true ∧
    Leaf.email.accepts "a@.b." = false := by
  decide +kernel

end TypedEnv
