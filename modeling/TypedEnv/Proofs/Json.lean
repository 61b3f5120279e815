import TypedEnv.Error
import TypedEnv.Json.Parser
import TypedEnv.Proofs.Dict

/-!
What JSON texts are read as.  Integers fit 64 bits, lists and objects stand in one another as deep
as the reader goes, and the members of every object stand in strictly increasing key order, whatever
order they are written in.
-/

namespace TypedEnv

open TypedEnv.Text

namespace Json

variable {text rest after : List Char} {document : Document}

/-- What a text can be read as when that many lists and objects may stand in one another.  Integers
fit 64 bits with or without a sign. -/
inductive Readable : Nat → Document → Prop
  | null {levels : Nat} : Readable levels .null
  | bool {levels : Nat} (value : Bool) : Readable levels (.bool value)
  | int {levels : Nat} {n : Int} (hleast : leastInt64 ≤ n) (hbound : n < significandBound) :
    Readable levels (.int n)
  | float {levels : Nat} (x : Binary64) : Readable levels (.float x)
  | string {levels : Nat} (s : String) : Readable levels (.string s)
  | array {levels : Nat} {items : List Document} (h : ∀ item ∈ items, Readable levels item) :
    Readable (levels + 1) (.array items)
  | object {levels : Nat} {members : List (String × Document)}
      (sorted : (members.map Prod.fst).Pairwise (· < ·))
      (h : ∀ member ∈ members, Readable levels member.2) : Readable (levels + 1) (.object members)

theorem Readable.wellKeyed {levels : Nat} (h : Readable levels document) : document.WellKeyed := by
  induction h with
  | null => exact .null
  | bool value => exact .bool value
  | int => exact .int _
  | float x => exact .float x
  | string s => exact .string s
  | array _ ih => exact .array ih
  | object sorted _ ih => exact .object sorted ih

theorem isFloat_of_assemble {negative : Bool} {significand : Nat} {exponent : Int}
    (h : assemble negative significand exponent rest = .ok (document, after)) :
    ∃ x, document = .float x := by
  unfold assemble at h
  split at h
  · cases h
  · cases h
    exact ⟨_, rfl⟩

theorem isFloat_of_exponentPart {negative : Bool} {significand : Nat} {start : Int}
    (h : exponentPart negative significand start text = .ok (document, after)) :
    ∃ x, document = .float x := by
  unfold exponentPart at h
  dsimp only at h
  split at h
  · cases h
  · split at h
    · split at h
      · exact isFloat_of_assemble h
      · split at h
        · cases h
        · cases h
          exact ⟨_, rfl⟩
    · cases h

theorem isFloat_of_fractionPart {negative : Bool} {significand : Nat} {exponent : Int}
    (h : fractionPart negative significand exponent text = .ok (document, after)) :
    ∃ x, document = .float x := by
  unfold fractionPart at h
  dsimp only at h
  split at h
  · cases h
  · unfold afterDigits at h
    split at h
    · split at h
      · exact isFloat_of_exponentPart h
      · exact isFloat_of_assemble h
    · exact isFloat_of_assemble h

theorem readable_of_isFloat {levels : Nat} (h : ∃ x, document = .float x) :
    Readable levels document := by
  obtain ⟨x, rfl⟩ := h
  exact .float x

theorem readable_of_afterWhole {levels : Nat} {negative : Bool} {significand extra : Nat}
    (hbound : significand < significandBound)
    (h : afterWhole negative significand extra text = .ok (document, after)) :
    Readable levels document := by
  have hwhole : afterWhole.whole negative significand extra text = .ok (document, after) →
      Readable levels document := by
    intro h
    unfold afterWhole.whole at h
    split at h
    · exact readable_of_isFloat (isFloat_of_assemble h)
    · split at h
      · cases h
        refine .int ?_ (Int.ofNat_lt.2 hbound)
        rw [leastInt64]
        omega
      · split at h
        · cases h
          exact .float _
        · next hsize =>
          cases h
          have hleast : leastInt64.natAbs = 9223372036854775808 := by decide
          refine .int ?_ (by omega)
          rw [leastInt64]
          omega
  unfold afterWhole at h
  split at h
  · exact readable_of_isFloat (isFloat_of_fractionPart h)
  · split at h
    · split at h
      · exact readable_of_isFloat (isFloat_of_exponentPart h)
      · exact hwhole h
    · exact hwhole h

theorem gather_lt {significand : Nat} (h : significand < significandBound) (digits : List Char) :
    (gather significand digits).1 < significandBound := by
  induction digits generalizing significand with
  | nil => exact h
  | cons c digits ih =>
    rw [gather]
    split
    · next hnext => exact ih hnext
    · exact h

theorem readable_of_number {levels : Nat} {negative : Bool}
    (h : number negative text = .ok (document, after)) : Readable levels document := by
  have hzero : 0 < significandBound := by decide
  unfold number at h
  split at h
  · cases h
  · split at h
    · split at h
      · split at h
        · cases h
        · exact readable_of_afterWhole hzero h
      · exact readable_of_afterWhole hzero h
    · split at h
      · exact readable_of_afterWhole (gather_lt hzero _) h
      · cases h

theorem readable_of_scalar {levels : Nat} {first : Char}
    (h : scalar first text = .ok (document, after)) : Readable levels document := by
  have hword {word : List Char} {value : Document} (hvalue : Readable levels value)
      (h : ((wordTail word text).map fun rest => (value, rest)) = .ok (document, after)) :
      Readable levels document := by
    obtain ⟨rest, -, heq⟩ := exists_of_map_eq_ok h
    cases heq
    exact hvalue
  unfold scalar at h
  split at h
  · exact hword .null h
  split at h
  · exact hword (.bool true) h
  split at h
  · exact hword (.bool false) h
  split at h
  · exact readable_of_number h
  split at h
  · exact readable_of_number h
  split at h
  · obtain ⟨step, -, heq⟩ := exists_of_map_eq_ok h
    cases heq
    exact .string _
  · cases h

section Parts

variable {P : Document → Prop} {value : ValueReader}
  (hvalue : ∀ {text step}, value text = .ok step → P step.value)

include hvalue

theorem forall_of_items {first : Bool} {step : Step (List Document) text}
    (h : items value first text = .ok step) : ∀ item ∈ step.value, P item := by
  fun_induction items value first text
  case case1 | case4 | case5 | case7 => cases h
  case case2 =>
    cases h
    exact List.forall_mem_nil _
  case case3 ih | case6 ih =>
    obtain ⟨item, hitem, h⟩ := exists_of_bind_eq_ok h
    obtain ⟨tail, htail, h⟩ := exists_of_bind_eq_ok h
    cases h
    exact List.forall_mem_cons.2 ⟨hvalue hitem, ih item htail⟩

theorem of_member {step : Step (String × Document) text} (h : member value text = .ok step) :
    P step.value.2 := by
  obtain ⟨key, -, h⟩ := exists_of_bind_eq_ok h
  split at h
  · cases h
  · split at h
    · obtain ⟨item, hitem, h⟩ := exists_of_bind_eq_ok h
      cases h
      exact hvalue hitem
    · cases h

theorem forall_of_members {first : Bool} {step : Step (List (String × Document)) text}
    (h : members value first text = .ok step) : ∀ member ∈ step.value, P member.2 := by
  fun_induction members value first text
  case case1 | case4 | case5 | case7 | case8 | case9 => cases h
  case case2 =>
    cases h
    exact List.forall_mem_nil _
  case case3 ih | case6 ih =>
    obtain ⟨item, hitem, h⟩ := exists_of_bind_eq_ok h
    obtain ⟨tail, htail, h⟩ := exists_of_bind_eq_ok h
    cases h
    exact List.forall_mem_cons.2 ⟨of_member hvalue hitem, ih item htail⟩

end Parts

theorem readable_ofMembers {levels : Nat} {members : List (String × Document)}
    (h : ∀ member ∈ members, Readable levels member.2) :
    Readable (levels + 1) (.ofMembers members) := by
  rw [Document.ofMembers, ← Dict.entries_ofList]
  exact .object (Dict.ofList members).sorted fun member hmember =>
    h member (Dict.mem_of_mem_ofList hmember)

theorem readable_of_scalarStep {levels : Nat} {first : Char}
    {step : Step Document (first :: text)} (h : scalarStep first text = .ok step) :
    Readable levels step.value := by
  unfold scalarStep at h
  split at h
  · next hscalar =>
    cases h
    exact readable_of_scalar hscalar
  · cases h

theorem readable_of_value {levels : Nat} {step : Step Document text}
    (h : value (levels + 1) text = .ok step) : Readable levels step.value := by
  induction levels generalizing text with
  | zero =>
    rw [value] at h
    dsimp only at h
    split at h
    · cases h
    · split at h
      · cases h
      · split at h
        · cases h
        · obtain ⟨inner, hinner, rfl⟩ := exists_of_map_eq_ok h
          exact readable_of_scalarStep hinner
  | succ levels ih =>
    rw [value] at h
    dsimp only at h
    split at h
    · cases h
    · split at h
      · obtain ⟨inner, hinner, rfl⟩ := exists_of_map_eq_ok h
        exact .array (forall_of_items ih hinner)
      · split at h
        · obtain ⟨inner, hinner, rfl⟩ := exists_of_map_eq_ok h
          exact readable_ofMembers (forall_of_members ih hinner)
        · obtain ⟨inner, hinner, rfl⟩ := exists_of_map_eq_ok h
          exact readable_of_scalarStep hinner

theorem readable_of_parse (h : parse text = .ok document) : Readable (room - 1) document := by
  obtain ⟨step, hstep, h⟩ := exists_of_bind_eq_ok h
  obtain ⟨_, -, h⟩ := exists_of_bind_eq_ok h
  cases h
  exact readable_of_value hstep

/-- The object of a text is in key order, and so are all objects in it. -/
theorem wellKeyed_of_parseObject {fields : List (String × Document)}
    (h : parseObject text = .ok fields) : (Document.object fields).WellKeyed := by
  unfold parseObject at h
  split at h
  · cases h
  · split at h
    · obtain ⟨step, hstep, h⟩ := exists_of_bind_eq_ok h
      obtain ⟨_, -, h⟩ := exists_of_bind_eq_ok h
      cases h
      have hreadable : Readable (room - 1) (.ofMembers step.value) :=
        readable_ofMembers (forall_of_members readable_of_value hstep)
      exact hreadable.wellKeyed
    · split at h
      · cases h
      · obtain ⟨scalar, -, h⟩ := exists_of_bind_eq_ok h
        cases h

end Json

end TypedEnv
