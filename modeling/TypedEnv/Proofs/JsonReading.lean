import TypedEnv.Proofs.Json

/-!
How the readers of JSON go on from one part of a text to the next: a value, the items of a list or
the members of an object are taken when their parts are, one after the other.
-/

namespace TypedEnv.Json

open TypedEnv.Text

def Takes {α : Type} {text : List Char} (result : Except Fault (Step α text)) (value : α)
    (rest : List Char) : Prop :=
  ∃ step, result = .ok step ∧ step.value = value ∧ step.rest = rest

variable {α β : Type} {text mid rest after : List Char} {c : Char}

theorem Takes.of_eq {other : List Char} {f : (text : List Char) → Except Fault (Step α text)}
    {value : α} (h : Takes (f text) value rest) (heq : text = other) :
    Takes (f other) value rest := heq ▸ h

theorem Takes.unique {result : Except Fault (Step α text)} {x y : α} (hx : Takes result x rest)
    (hy : Takes result y after) : x = y := by
  obtain ⟨step, hstep, rfl, -⟩ := hx
  obtain ⟨other, hother, rfl, -⟩ := hy
  rw [Except.ok.inj (hstep.symm.trans hother)]

theorem Takes.map {part : List Char} {result : Except Fault (Step α part)} {x : α}
    (h : Takes result x rest) (f : (step : Step α part) → Step β text) {y : β}
    (hvalue : ∀ step, step.value = x → (f step).value = y)
    (hrest : ∀ step, (f step).rest = step.rest) :
    Takes (result.map f) y rest := by
  obtain ⟨step, rfl, hx, rfl⟩ := h
  exact ⟨f step, rfl, hvalue step hx, hrest step⟩

/-- What follows cannot belong to a numeral in front of it. -/
def EndsNumeral (rest : List Char) : Prop :=
  ∀ c ∈ rest.head?, isDigit c = false ∧ c ≠ '.' ∧ c ≠ 'e' ∧ c ≠ 'E'

theorem endsNumeral_nil : EndsNumeral [] := by
  simp [EndsNumeral]

theorem endsNumeral_cons (h : isSpace c = true ∨ c = ',' ∨ c = ']' ∨ c = '\x7d') :
    EndsNumeral (c :: rest) := by
  intro d hd
  cases hd
  simp only [isSpace, decide_eq_true_eq] at h
  rcases h with (rfl | rfl | rfl | rfl) | rfl | rfl | rfl <;> decide

theorem skipSpace_of_forall {gap : List Char} (h : ∀ c ∈ gap, isSpace c = true)
    (text : List Char) : skipSpace (gap ++ text) = skipSpace text := by
  rw [skipSpace, List.dropWhile_append_of_pos h, skipSpace]

theorem skipSpace_cons (h : isSpace c = false) : skipSpace (c :: rest) = c :: rest := by
  rw [skipSpace, List.dropWhile_cons, h]
  rfl

theorem takes_stringBody_end : Takes (stringBody ('"' :: rest)) [] rest := by
  rw [stringBody]
  exact ⟨_, rfl, rfl, rfl⟩

theorem takes_stringBody_plain {value : List Char} (hquote : c ≠ '"') (hslash : c ≠ '\\')
    (hcontrol : 0x20 ≤ c.toNat) (h : Takes (stringBody text) value rest) :
    Takes (stringBody (c :: text)) (c :: value) rest := by
  obtain ⟨tail, htail, rfl, rfl⟩ := h
  rw [stringBody, if_neg hquote, if_neg hslash, if_neg (Nat.not_lt.2 hcontrol), htail]
  exact ⟨_, rfl, rfl, rfl⟩

theorem takes_stringBody_escape {value : List Char} (hescape : Takes (escape text) c mid)
    (h : Takes (stringBody mid) value rest) :
    Takes (stringBody ('\\' :: text)) (c :: value) rest := by
  obtain ⟨first, hfirst, rfl, rfl⟩ := hescape
  obtain ⟨tail, htail, rfl, rfl⟩ := h
  rw [stringBody, if_neg (by decide), if_pos rfl, hfirst]
  dsimp only [bind, Except.bind]
  rw [htail]
  exact ⟨_, rfl, rfl, rfl⟩

theorem takes_fourHex {a b c d : Char} {p q r t : Nat} (ha : hexValue? a = some p)
    (hb : hexValue? b = some q) (hc : hexValue? c = some r) (hd : hexValue? d = some t) :
    Takes (fourHex (a :: b :: c :: d :: rest)) (((p * 16 + q) * 16 + r) * 16 + t) rest := by
  rw [fourHex]
  split
  · next h1 h2 h3 h4 =>
    rw [ha] at h1
    rw [hb] at h2
    rw [hc] at h3
    rw [hd] at h4
    cases h1
    cases h2
    cases h3
    cases h4
    exact ⟨_, rfl, rfl, rfl⟩
  · next hnone => exact absurd hd (hnone p q r t ha hb hc)

theorem takes_unicodeEscape_unit {n : Nat} (h : Takes (fourHex text) n rest)
    (htrailing : isTrailing n = false) (hleading : isLeading n = false) :
    Takes (unicodeEscape text) (Char.ofNat n) rest := by
  obtain ⟨first, hfirst, rfl, rfl⟩ := h
  rw [unicodeEscape, hfirst]
  dsimp only [bind, Except.bind]
  rw [htrailing, hleading]
  exact ⟨_, rfl, rfl, rfl⟩

theorem takes_unicodeEscape_pair {n m : Nat} (h : Takes (fourHex text) n ('\\' :: 'u' :: mid))
    (hnext : Takes (fourHex mid) m rest) (hfirst : isTrailing n = false)
    (hleading : isLeading n = true) (htrailing : isTrailing m = true) :
    Takes (unicodeEscape text)
      (Char.ofNat ((n - 0xD800) * 0x400 + (m - 0xDC00) + 0x10000)) rest := by
  obtain ⟨first, hstep, rfl, hmid⟩ := h
  obtain ⟨second, hsecond, rfl, rfl⟩ := hnext
  rw [unicodeEscape, hstep]
  dsimp only [bind, Except.bind]
  rw [if_neg (by simp [hfirst]), if_pos hleading]
  split
  · next heq =>
    rw [hmid] at heq
    cases heq
  · next heq =>
    rw [hmid] at heq
    cases heq
  · next heq =>
    rw [hmid] at heq
    cases heq
    rw [hsecond]
    dsimp only
    rw [if_pos htrailing]
    refine ⟨_, rfl, ?_, ?_⟩
    · dsimp only
    · dsimp only
  · next hother heq =>
    rw [hmid] at heq
    cases heq
    exact (hother mid rfl).elim
  · next hother => exact (hother _ hmid).elim

theorem takes_escape_unicode (h : Takes (unicodeEscape text) c rest) :
    Takes (escape ('u' :: text)) c rest := by
  have hescape : escape ('u' :: text) = (unicodeEscape text).map (·.behind 'u') := rfl
  rw [hescape]
  exact h.map _ (fun _ heq => heq) fun _ => rfl

theorem takes_stringBody {name : List Char}
    (h : ∀ c ∈ name, c ≠ '"' ∧ c ≠ '\\' ∧ 0x20 ≤ c.toNat) :
    Takes (stringBody (name ++ '"' :: rest)) name rest := by
  induction name with
  | nil => exact takes_stringBody_end
  | cons c name ih =>
    rw [List.forall_mem_cons] at h
    exact takes_stringBody_plain h.1.1 h.1.2.1 h.1.2.2 (ih h.2)

section Values

variable {value : ValueReader} {document : Document} {documents : List Document}
  {entry : String × Document} {entries : List (String × Document)} {first : Bool} {levels : Nat}

theorem takes_value_scalar (htext : skipSpace text = c :: rest) (hlist : c ≠ '[')
    (hobject : c ≠ '\x7b') (h : scalar c rest = .ok (document, after)) :
    Takes (Json.value (levels + 1) text) document after := by
  have hstep : Takes (scalarStep c rest) document after := by
    unfold scalarStep
    split
    · next heq =>
      rw [h] at heq
      cases heq
      exact ⟨_, rfl, rfl, rfl⟩
    · next heq =>
      rw [h] at heq
      cases heq
  rw [Json.value]
  dsimp only
  split <;> rename_i heq <;> rw [htext] at heq <;> cases heq
  rw [if_neg hlist, if_neg hobject]
  exact hstep.map _ (fun _ heq => heq) fun _ => rfl

theorem takes_value_list (htext : skipSpace text = '[' :: rest)
    (h : Takes (items (Json.value (levels + 1)) true rest) documents after) :
    Takes (Json.value (levels + 2) text) (.array documents) after := by
  rw [Json.value]
  dsimp only
  split <;> rename_i heq <;> rw [htext] at heq <;> cases heq
  rw [if_pos rfl, if_neg (Nat.succ_ne_zero levels)]
  exact h.map _ (fun _ heq => congrArg Document.array heq) fun _ => rfl

theorem takes_value_object (htext : skipSpace text = '\x7b' :: rest)
    (h : Takes (members (Json.value (levels + 1)) true rest) entries after) :
    Takes (Json.value (levels + 2) text) (.ofMembers entries) after := by
  rw [Json.value]
  dsimp only
  split <;> rename_i heq <;> rw [htext] at heq <;> cases heq
  rw [if_neg (by decide), if_pos rfl, if_neg (Nat.succ_ne_zero levels)]
  exact h.map _ (fun _ heq => congrArg Document.ofMembers heq) fun _ => rfl

theorem takes_items_end (htext : skipSpace text = ']' :: rest) :
    Takes (items value first text) [] rest := by
  rw [items]
  split <;> rename_i heq <;> rw [htext] at heq <;> cases heq
  exact ⟨_, rfl, rfl, rfl⟩

theorem takes_items_first (htext : skipSpace text = c :: rest) (hend : c ≠ ']')
    (hvalue : Takes (value (c :: rest)) document mid)
    (h : Takes (items value false mid) documents after) :
    Takes (items value true text) (document :: documents) after := by
  obtain ⟨item, hitem, rfl, rfl⟩ := hvalue
  obtain ⟨tail, htail, rfl, rfl⟩ := h
  rw [items]
  split <;> rename_i heq <;> rw [htext] at heq <;> cases heq
  rw [if_neg hend, if_pos rfl, hitem]
  dsimp only [bind, Except.bind]
  rw [htail]
  exact ⟨_, rfl, rfl, rfl⟩

theorem takes_items_next {d : Char} {tail : List Char} (htext : skipSpace text = ',' :: rest)
    (hrest : skipSpace rest = d :: tail) (hend : d ≠ ']') (hvalue : Takes (value rest) document mid)
    (h : Takes (items value false mid) documents after) :
    Takes (items value false text) (document :: documents) after := by
  obtain ⟨item, hitem, rfl, rfl⟩ := hvalue
  obtain ⟨more, hmore, rfl, rfl⟩ := h
  rw [items]
  split <;> rename_i heq <;> rw [htext] at heq <;> cases heq
  rw [if_neg (by decide), if_neg Bool.false_ne_true, if_pos rfl]
  split
  · next hnil =>
    rw [hrest] at hnil
    cases hnil
  · next hclose =>
    rw [hrest] at hclose
    cases hclose
    exact absurd rfl hend
  · rw [hitem]
    dsimp only [bind, Except.bind]
    rw [hmore]
    exact ⟨_, rfl, rfl, rfl⟩

theorem takes_member {name : List Char} (hname : Takes (stringBody text) name mid)
    (hcolon : skipSpace mid = ':' :: rest) (hvalue : Takes (value rest) document after) :
    Takes (member value text) (String.ofList name, document) after := by
  obtain ⟨key, hkey, rfl, rfl⟩ := hname
  obtain ⟨item, hitem, rfl, rfl⟩ := hvalue
  rw [member, hkey]
  dsimp only [bind, Except.bind]
  split <;> rename_i heq <;> rw [hcolon] at heq <;> cases heq
  rw [if_pos rfl, hitem]
  exact ⟨_, rfl, rfl, rfl⟩

theorem takes_members_end (htext : skipSpace text = '\x7d' :: rest) :
    Takes (members value first text) [] rest := by
  rw [members]
  split <;> rename_i heq <;> rw [htext] at heq <;> cases heq
  exact ⟨_, rfl, rfl, rfl⟩

theorem takes_members_first (htext : skipSpace text = '"' :: rest)
    (hmember : Takes (member value rest) entry mid)
    (h : Takes (members value false mid) entries after) :
    Takes (members value true text) (entry :: entries) after := by
  obtain ⟨item, hitem, rfl, rfl⟩ := hmember
  obtain ⟨tail, htail, rfl, rfl⟩ := h
  rw [members]
  split <;> rename_i heq <;> rw [htext] at heq <;> cases heq
  rw [if_neg (by decide), if_pos rfl, if_pos rfl, hitem]
  dsimp only [bind, Except.bind]
  rw [htail]
  exact ⟨_, rfl, rfl, rfl⟩

theorem takes_members_next {tail : List Char} (htext : skipSpace text = ',' :: rest)
    (hrest : skipSpace rest = '"' :: tail) (hmember : Takes (member value tail) entry mid)
    (h : Takes (members value false mid) entries after) :
    Takes (members value false text) (entry :: entries) after := by
  obtain ⟨item, hitem, rfl, rfl⟩ := hmember
  obtain ⟨more, hmore, rfl, rfl⟩ := h
  rw [members]
  split <;> rename_i heq <;> rw [htext] at heq <;> cases heq
  rw [if_neg (by decide), if_neg Bool.false_ne_true, if_pos rfl]
  split
  · next hnil =>
    rw [hrest] at hnil
    cases hnil
  · next hquote =>
    rw [hrest] at hquote
    cases hquote
    rw [if_pos rfl, hitem]
    dsimp only [bind, Except.bind]
    rw [hmore]
    exact ⟨_, rfl, rfl, rfl⟩

end Values

end TypedEnv.Json
