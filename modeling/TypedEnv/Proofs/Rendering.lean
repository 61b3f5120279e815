import Mathlib.Data.List.Basic
import TypedEnv.Populate
import TypedEnv.Proofs.Text

/-!
Characters of renderings.  Numerals are made of a few characters, and JSON text holds no control
character, as strings in it are escaped.  So a NUL comes out of a string that stands as it is, alone
or in a list, or out of the delimiter between two items.
-/

namespace TypedEnv

/-- The value has a string with a NUL that is rendered as it is, or two items with a NUL between
them. -/
def Document.CarriesNul (delimiter : String) : Document → Prop
  | .string s => '\x00' ∈ s.toList
  | .array items =>
    (∃ s, .string s ∈ items ∧ '\x00' ∈ s.toList) ∨ 1 < items.length ∧ '\x00' ∈ delimiter.toList
  | _ => False

def isNumeralChar (c : Char) : Bool := isDigit c || ['-', '+', '.', 'e'].contains c

theorem all_isNumeralChar_toDigits (n : Nat) : (toDigits n).all isNumeralChar = true := by
  rw [List.all_eq_true]
  intro c hc
  have hdigit : isDigit c = true := Nat.isDigit_of_mem_toDigits (by decide) (by decide) hc
  rw [isNumeralChar, hdigit, Bool.true_or]

namespace Notation64

variable (notation64 : Notation64) {digits : List Char}

theorem all_isNumeralChar_placePoint (h : digits.all isNumeralChar = true) (whole : Int) :
    (notation64.placePoint digits whole).all isNumeralChar = true := by
  have hzeros (k : Nat) : (List.replicate k '0').all isNumeralChar = true := by
    simp [List.all_replicate, isNumeralChar, isDigit]
  have hpoint : isNumeralChar '.' = true := by decide
  have hzero : isNumeralChar '0' = true := by decide
  have hparts := List.take_append_drop whole.toNat digits ▸ h
  rw [List.all_append, Bool.and_eq_true] at hparts
  unfold placePoint
  split
  · simp [h, hzeros, hpoint, hzero]
  · split
    · cases notation64.keepsPoint <;> simp [h, hzeros, hpoint, hzero]
    · simp [hparts, hpoint]

theorem all_isNumeralChar_withExponent (h : digits.all isNumeralChar = true) (exponent : Int) :
    (withExponent digits exponent).all isNumeralChar = true := by
  have hmark : isNumeralChar 'e' = true := by decide
  have hpoint : isNumeralChar '.' = true := by decide
  have hsign : isNumeralChar (if exponent < 0 then '-' else '+') = true := by
    split <;> decide
  have hparts := List.take_append_drop 1 digits ▸ h
  rw [List.all_append, Bool.and_eq_true] at hparts
  unfold withExponent
  dsimp only
  split <;> simp only [List.all_append, List.all_cons, List.all_nil, hparts, hmark, hpoint, hsign,
    all_isNumeralChar_toDigits, Bool.and_self]

theorem all_isNumeralChar_text {x : Binary64} (h : x.isFinite = true) :
    (notation64.text x).all isNumeralChar = true := by
  cases x with
  | nan => cases h
  | infinite negative => cases h
  | finite negative size =>
    have hsign : (minus negative).all isNumeralChar = true := by
      cases negative <;> decide
    rw [text, List.all_append, hsign, Bool.true_and]
    unfold magnitudeText
    dsimp only
    split
    · exact all_isNumeralChar_placePoint notation64 (all_isNumeralChar_toDigits _) _
    · exact all_isNumeralChar_withExponent (all_isNumeralChar_toDigits _) _

end Notation64

namespace Json

def isAboveControls (c : Char) : Bool := 0x20 ≤ c.toNat

theorem isAboveControls_of_isNumeralChar {c : Char} (h : isNumeralChar c = true) :
    isAboveControls c = true := by
  rw [isNumeralChar, Bool.or_eq_true] at h
  rcases h with hdigit | hmark
  · have hcode : 48 ≤ c.toNat := (Char.isDigit_iff_toNat.1 hdigit).1
    rw [isAboveControls, decide_eq_true_eq]
    omega
  · have hmarks : ['-', '+', '.', 'e'].all isAboveControls = true := by decide
    exact List.all_eq_true.1 hmarks c (List.contains_iff_mem.1 hmark)

theorem all_isNumeralChar_intText (n : Int) : (intText n).all isNumeralChar = true := by
  have hminus : isNumeralChar '-' = true := by decide
  unfold intText
  split <;> simp [hminus, all_isNumeralChar_toDigits]

theorem all_isAboveControls_of_numeral {digits : List Char}
    (h : digits.all isNumeralChar = true) : digits.all isAboveControls = true := by
  rw [List.all_eq_true] at h ⊢
  exact fun c hc => isAboveControls_of_isNumeralChar (h c hc)

theorem isAboveControls_hexDigit (n : Nat) : isAboveControls (hexDigit n) = true := by
  have hdigits : ∀ k < 16, isAboveControls (Nat.digitChar k) = true := by decide
  exact hdigits _ (Nat.mod_lt _ (by decide))

theorem all_isAboveControls_escaped (c : Char) : (escaped c).all isAboveControls = true := by
  have hmarks : ['\\', 'b', 't', 'n', 'f', 'r', 'u', '0'].all isAboveControls = true := by decide
  have hquoted (h : c = '"' ∨ c = '\\') : isAboveControls c = true := by
    rcases h with rfl | rfl <;> decide
  have hself (h : ¬ c.toNat < 0x20) : isAboveControls c = true := by
    simpa [isAboveControls] using h
  unfold escaped
  repeat' split
  all_goals simp_all [isAboveControls_hexDigit]

theorem all_isAboveControls_stringText (s : String) :
    (stringText s).all isAboveControls = true := by
  have hquote : isAboveControls '"' = true := by decide
  simp [stringText, List.all_flatMap, all_isAboveControls_escaped, hquote]

theorem all_isAboveControls_floatText (x : Binary64) :
    (floatText x).all isAboveControls = true := by
  unfold floatText
  split
  · next hfinite =>
    exact all_isAboveControls_of_numeral (Notation64.all_isNumeralChar_text _ hfinite)
  · decide

mutual

theorem all_isAboveControls_text :
    ∀ document : Document, (text document).all isAboveControls = true
  | .null => by decide
  | .bool true => by decide
  | .bool false => by decide
  | .int n => all_isAboveControls_of_numeral (all_isNumeralChar_intText n)
  | .float x => all_isAboveControls_floatText x
  | .string s => all_isAboveControls_stringText s
  | .array [] => by decide
  | .array (item :: items) => by
    have hopening : isAboveControls '[' = true := by decide
    simp [text, hopening, all_isAboveControls_text item, all_isAboveControls_itemsText items]
  | .object [] => by decide
  | .object ((key, value) :: members) => by
    have hmarks : isAboveControls '\x7b' = true ∧ isAboveControls ':' = true := by decide
    simp [text, hmarks, all_isAboveControls_stringText key, all_isAboveControls_text value,
      all_isAboveControls_membersText members]

theorem all_isAboveControls_itemsText :
    ∀ items : List Document, (itemsText items).all isAboveControls = true
  | [] => by decide
  | item :: items => by
    have hcomma : isAboveControls ',' = true := by decide
    simp [itemsText, hcomma, all_isAboveControls_text item, all_isAboveControls_itemsText items]

theorem all_isAboveControls_membersText :
    ∀ members : List (String × Document), (membersText members).all isAboveControls = true
  | [] => by decide
  | (key, value) :: members => by
    have hmarks : isAboveControls ',' = true ∧ isAboveControls ':' = true := by decide
    simp [membersText, hmarks, all_isAboveControls_stringText key,
      all_isAboveControls_text value, all_isAboveControls_membersText members]

end

theorem nul_not_mem_text (document : Document) : '\x00' ∉ text document := by
  intro h
  exact absurd (List.all_eq_true.1 (all_isAboveControls_text document) _ h) (by decide)

end Json

theorem Document.nul_mem_display_iff {document : Document} :
    '\x00' ∈ document.display.toList ↔ ∃ s, document = .string s ∧ '\x00' ∈ s.toList := by
  cases document with
  | string s => simp [display]
  | _ => simp [display, Json.nul_not_mem_text]

theorem Text.mem_join_iff {c : Char} {separator : String} {pieces : List String} :
    c ∈ (join separator pieces).toList ↔
      (∃ piece ∈ pieces, c ∈ piece.toList) ∨ 1 < pieces.length ∧ c ∈ separator.toList := by
  rw [toList_join]
  induction pieces with
  | nil => simp
  | cons piece pieces ih =>
    cases pieces with
    | nil => simp
    | cons next pieces =>
      have hmany : 1 < (piece :: next :: pieces).length := by simp
      rw [List.map_cons, List.map_cons, List.intercalate_cons_cons, ← List.map_cons,
        List.mem_append, List.mem_append, ih, List.exists_mem_cons_iff]
      grind

theorem Document.nul_mem_displays_iff {items : List Document} :
    (∃ piece ∈ items.map display, '\x00' ∈ piece.toList) ↔
      ∃ s, .string s ∈ items ∧ '\x00' ∈ s.toList := by
  constructor
  · rintro ⟨piece, hpiece, hnul⟩
    obtain ⟨item, hitem, rfl⟩ := List.mem_map.1 hpiece
    obtain ⟨s, rfl, hs⟩ := nul_mem_display_iff.1 hnul
    exact ⟨s, hitem, hs⟩
  · rintro ⟨s, hitem, hs⟩
    exact ⟨s, List.mem_map.2 ⟨.string s, hitem, rfl⟩, hs⟩

theorem nul_mem_renderValue_iff {delimiter : String} {value : Document} :
    (∃ text, renderValue delimiter value = some text ∧ '\x00' ∈ text.toList) ↔
      value.CarriesNul delimiter := by
  cases value with
  | null => simp [renderValue, Document.CarriesNul]
  | string s => simp [renderValue, Document.CarriesNul]
  | array items =>
    have hlength : (items.map Document.display).length = items.length := List.length_map _
    rw [Document.CarriesNul, ← Document.nul_mem_displays_iff, ← hlength, ← Text.mem_join_iff]
    simp [renderValue]
  | _ => simp [renderValue, Document.CarriesNul, Document.nul_mem_display_iff]

end TypedEnv
