import Mathlib.Data.List.Forall2
import TypedEnv.Proofs.Meaning
import TypedEnv.Proofs.Numeral
import TypedEnv.Proofs.Rounding

/-!
Whole numbers are read exactly.  The reader of integers accepts at most one sign and a run of
digits, whose value by places fits 64 bits, and gives that value; taking the digits one by one and
giving up at the first overflow comes to the same.  Its texts are numbers too, with the same values,
so a union with it adds nothing to the reader of numbers.
-/

namespace TypedEnv

open TypedEnv.Text

variable {text digits : List Char} {n : Int}

/-- The number that a run of digits writes, each digit counted by its place. -/
def placeValue : List Char → Nat
  | [] => 0
  | c :: rest => digitValue c * tenPow rest.length + placeValue rest

def DigitRun (text : List Char) : Prop := text ≠ [] ∧ ∀ c ∈ text, isDigit c = true

/-- A text is a run of digits after at most one sign and writes an integer. -/
inductive WritesInteger : List Char → Int → Prop
  | unsigned {digits : List Char} : DigitRun digits → WritesInteger digits (placeValue digits)
  | plus {digits : List Char} : DigitRun digits → WritesInteger ('+' :: digits) (placeValue digits)
  | minus {digits : List Char} :
      DigitRun digits → WritesInteger ('-' :: digits) (-(placeValue digits : Int))

theorem placeValue_shift (c : Char) (rest : List Char) (n : Nat) :
    n * tenPow (c :: rest).length + placeValue (c :: rest) =
      (10 * n + digitValue c) * tenPow rest.length + placeValue rest := by
  rw [List.length_cons, tenPow_succ, placeValue, Nat.add_mul, Nat.mul_comm 10 n, Nat.mul_assoc,
    Nat.mul_comm 10, Nat.add_assoc]

theorem foldl_digits (digits : List Char) (n : Nat) :
    digits.foldl (fun n c => 10 * n + digitValue c) n =
      n * tenPow digits.length + placeValue digits := by
  induction digits generalizing n with
  | nil => simp [placeValue]
  | cons c rest ih => rw [List.foldl_cons, ih, placeValue_shift]

theorem ofDigits_eq_placeValue (digits : List Char) : ofDigits digits = placeValue digits := by
  rw [ofDigits, foldl_digits, Nat.zero_mul, Nat.zero_add]

theorem wholeNumber?_eq_some_iff_digitRun {m : Nat} :
    wholeNumber? text = some m ↔ DigitRun text ∧ placeValue text = m := by
  rw [wholeNumber?_eq_some_iff, ofDigits_eq_placeValue, DigitRun, and_assoc]

theorem writesInteger_iff :
    WritesInteger text n ↔ DigitRun (Decimal.sign text).2 ∧
      Binary64.signed (Decimal.sign text).1 (placeValue (Decimal.sign text).2) = n := by
  constructor
  · intro h
    cases h with
    | unsigned hrun =>
      rw [Decimal.sign_of_forall hrun.2]
      exact ⟨hrun, rfl⟩
    | plus hrun => exact ⟨hrun, rfl⟩
    | minus hrun => exact ⟨hrun, rfl⟩
  · rintro ⟨hrun, rfl⟩
    unfold Decimal.sign at hrun ⊢
    split at hrun
    · exact .minus hrun
    · exact .plus hrun
    · exact .unsigned hrun

theorem integer?_eq_some_iff : integer? text = some n ↔ WritesInteger text n := by
  rw [integer?_eq, writesInteger_iff, Option.map_eq_some_iff]
  simp only [wholeNumber?_eq_some_iff_digitRun, and_assoc, exists_and_left, exists_eq_left']

def FitsInt64 (n : Int) : Prop := -(twoPow 63 : Int) ≤ n ∧ n < twoPow 63

instance : DecidablePred FitsInt64 := fun n =>
  inferInstanceAs (Decidable (-(twoPow 63 : Int) ≤ n ∧ n < twoPow 63))

theorem fitsInt64_iff : FitsInt64 n ↔ leastInt64 ≤ n ∧ n ≤ greatestInt64 := by
  have hpower : twoPow 63 = 9223372036854775808 := by decide
  rw [FitsInt64, hpower, leastInt64, greatestInt64]
  omega

theorem FitsInt64.of_le {negative : Bool} {m k : Nat} (hle : m ≤ k)
    (h : FitsInt64 (Binary64.signed negative k)) : FitsInt64 (Binary64.signed negative m) := by
  rw [fitsInt64_iff, leastInt64, greatestInt64] at h ⊢
  cases negative <;> simp only [Binary64.signed_true, Binary64.signed_false] at h ⊢ <;> omega

theorem rawInt64?_eq_some_iff {raw : String} :
    rawInt64? raw = some n ↔ WritesInteger (trim raw.toList) n ∧ FitsInt64 n := by
  rw [rawInt64?, int64?_eq_some_iff, integer?_eq_some_iff, fitsInt64_iff]

def checked? (n : Int) : Option Int := if FitsInt64 n then some n else none

def takeDigit? (negative : Bool) (n : Int) (c : Char) : Option Int := do
  let tens ← checked? (10 * n)
  checked? (tens + Binary64.signed negative (digitValue c))

def accumulate? (text : List Char) : Option Int :=
  let (negative, digits) := Decimal.sign text
  if digits ≠ [] ∧ digits.all isDigit then digits.foldlM (takeDigit? negative) 0 else none

theorem checked?_eq_some_iff {m : Int} : checked? m = some n ↔ m = n ∧ FitsInt64 n := by
  unfold checked?
  split
  · next h => simpa using fun heq => heq ▸ h
  · next h => simpa using fun heq => heq ▸ h

theorem takeDigit?_signed (negative : Bool) (m : Nat) (c : Char) :
    takeDigit? negative (Binary64.signed negative m) c =
      checked? (Binary64.signed negative (10 * m + digitValue c)) := by
  have htens : 10 * Binary64.signed negative m = Binary64.signed negative (10 * m) := by
    cases negative <;> simp only [Binary64.signed_true, Binary64.signed_false] <;> omega
  have hsum : Binary64.signed negative (10 * m) + Binary64.signed negative (digitValue c) =
      Binary64.signed negative (10 * m + digitValue c) := by
    cases negative <;> simp only [Binary64.signed_true, Binary64.signed_false] <;> omega
  rw [takeDigit?, htens, checked?]
  split
  · exact congrArg checked? hsum
  · next htoo =>
    have hmore : ¬ FitsInt64 (Binary64.signed negative (10 * m + digitValue c)) :=
      fun h => htoo (h.of_le (Nat.le_add_right _ _))
    rw [checked?, if_neg hmore]
    rfl

/-- A step overflows only if the whole number does. -/
theorem foldlM_takeDigit? (negative : Bool) (digits : List Char) {m : Nat}
    (h : FitsInt64 (Binary64.signed negative m)) :
    digits.foldlM (takeDigit? negative) (Binary64.signed negative m) =
      checked? (Binary64.signed negative (m * tenPow digits.length + placeValue digits)) := by
  induction digits generalizing m with
  | nil => simp [placeValue, checked?, h]
  | cons c rest ih =>
    rw [List.foldlM_cons, takeDigit?_signed, placeValue_shift]
    by_cases hnext : FitsInt64 (Binary64.signed negative (10 * m + digitValue c))
    · rw [checked?, if_pos hnext]
      exact ih hnext
    · have hwhole : 10 * m + digitValue c ≤
          (10 * m + digitValue c) * tenPow rest.length + placeValue rest :=
        Nat.le_trans (Nat.le_mul_of_pos_right _ (tenPow_pos _)) (Nat.le_add_right _ _)
      rw [checked?, checked?, if_neg hnext, if_neg fun hfits => hnext (hfits.of_le hwhole)]
      rfl

theorem accumulate?_eq (text : List Char) : accumulate? text = int64? text := by
  have hzero : ∀ negative, FitsInt64 (Binary64.signed negative 0) := by decide
  apply Option.ext
  intro n
  rw [int64?_eq_some_iff, ← fitsInt64_iff, integer?_eq]
  unfold accumulate? wholeNumber?
  dsimp only
  split
  · next hrun =>
    rw [← Binary64.signed_zero (Decimal.sign text).1, foldlM_takeDigit? _ _ (hzero _),
      checked?_eq_some_iff, Nat.zero_mul, Nat.zero_add, ofDigits_eq_placeValue]
    simp
  · simp

namespace Leaf

theorem accepts_int_iff {raw : String} :
    int.accepts raw = true ↔ ∃ n, WritesInteger (trim raw.toList) n ∧ FitsInt64 n := by
  rw [accepts_int, Option.isSome_iff_exists]
  simp only [rawInt64?_eq_some_iff]

theorem number_of_int {raw : String} (h : int.accepts raw = true) :
    number.accepts raw = true ∧ number.parse raw = int.parse raw := by
  rw [accepts_int, Option.isSome_iff_exists] at h
  obtain ⟨n, hn⟩ := h
  rw [accepts_number, parse_number_of_int hn, parse_int hn]
  exact ⟨isSome_rawFinite?_of_rawInt64? hn, rfl⟩

theorem parse_number_of_rejected {raw : String} (h : number.accepts raw = false) :
    number.parse raw = .string raw := by
  have hfinite : rawFinite? raw = none := by
    rwa [accepts_number, Option.isSome_eq_false_iff, Option.isNone_iff_eq_none] at h
  have hint : rawInt64? raw = none := by
    rw [Option.eq_none_iff_forall_ne_some]
    intro n hn
    have hsome := isSome_rawFinite?_of_rawInt64? hn
    rw [hfinite] at hsome
    cases hsome
  dsimp only [number]
  rw [hint, hfinite]

/-- Asked before numbers or after them, integers make no difference. -/
theorem choice_number {leaves : List Leaf} (h : leaves = [int, number] ∨ leaves = [number, int])
    (id raw : String) : (choice id leaves).accepts raw = number.accepts raw ∧
      (choice id leaves).parse raw = number.parse raw := by
  have hint : int.accepts raw = true → number.accepts raw = true := fun h => (number_of_int h).1
  have hvalue : int.accepts raw = true → number.parse raw = int.parse raw :=
    fun h => (number_of_int h).2
  rcases h with rfl | rfl
  all_goals
    cases hi : int.accepts raw <;> cases hn : number.accepts raw <;>
      simp_all [choice, parse_number_of_rejected]

end Leaf

variable {registry : Registry} {raw : String}

namespace Registry

theorem resolve_of_meaning? {id : String} {reader : Reader} (hid : isUnionId id = false)
    (h : registry.meaning? id = some reader) :
    ∃ serial, registry.resolve id = (some ⟨serial, reader⟩, registry) := by
  have hafter := resolve_snd_of_not_union registry hid
  rw [← map_reader_resolve] at h
  obtain ⟨⟨serial, own⟩, hfound, rfl⟩ := Option.map_eq_some_iff.1 h
  exact ⟨serial, Prod.ext hfound hafter⟩

def Names (registry : Registry) : List String → List Leaf → Prop :=
  List.Forall₂ fun id own => registry.meaning? id = some (.leaf own)

end Registry

namespace Reader

theorem firstPassing_of_names {ids : List String} {leaves : List Leaf}
    (h : registry.Names ids leaves) (hids : ∀ id ∈ ids, isUnionId id = false) (raw : String)
    (hops : Nat) : firstPassing (acceptsWithin raw hops) ids registry =
      ((leaves.find? (·.accepts raw)).map leaf, registry) := by
  induction h with
  | nil => rfl
  | @cons id own ids leaves hid _ ih =>
    rw [List.forall_mem_cons] at hids
    obtain ⟨serial, hresolve⟩ := Registry.resolve_of_meaning? hids.1 hid
    simp only [firstPassing, hresolve, acceptsWithin_leaf, List.find?_cons]
    cases own.accepts raw with
    | true => rfl
    | false => exact ih hids.2

theorem accepts_of_names {expression : String} {leaves : List Leaf}
    (h : registry.Names (unionMembers expression) leaves) (raw : String) :
    (union expression).accepts raw registry =
      ((Leaf.choice expression leaves).accepts raw, registry) := by
  have hfirst := firstPassing_of_names h (fun _ => isUnionId_of_mem_unionMembers) raw
  simp only [accepts, hops, acceptsWithin, hfirst, Option.isSome_map, List.isSome_find?,
    Leaf.choice]

theorem parse_of_names {expression : String} {leaves : List Leaf}
    (h : registry.Names (unionMembers expression) leaves) (raw : String) :
    (union expression).parse raw registry =
      ((Leaf.choice expression leaves).parse raw, registry) := by
  have hfirst := firstPassing_of_names h (fun _ => isUnionId_of_mem_unionMembers) raw
  simp only [parse, hops, parseWithin, hfirst, Leaf.choice]
  cases leaves.find? (·.accepts raw) with
  | none => rfl
  | some own => exact parseWithin_leaf raw _ own registry

end Reader

/-- The reader of integers accepts at most one sign and a run of digits whose value fits 64 bits,
and gives that value; so does taking the digits one by one.  Integers are numbers of the same value,
so where both ids mean the built-in readers, the unions of the two answer as numbers alone. -/
theorem number_extends_int (raw : String) :
    (Leaf.int.accepts raw = true ↔
      ∃ n, WritesInteger (trim raw.toList) n ∧ FitsInt64 n) ∧
    (∀ n, WritesInteger (trim raw.toList) n → FitsInt64 n → Leaf.int.parse raw = .int n) ∧
    Leaf.int.accepts raw = (accumulate? (trim raw.toList)).isSome ∧
    (Leaf.int.accepts raw = true →
      Leaf.number.accepts raw = true ∧ Leaf.number.parse raw = Leaf.int.parse raw) ∧
    ∀ registry : Registry, registry.meaning? "int" = some (.leaf .int) →
      registry.meaning? "number" = some (.leaf .number) →
      ∀ expression ∈ ["int|number", "number|int"],
        (Reader.union expression).accepts raw registry = (Leaf.number.accepts raw, registry) ∧
        (Reader.union expression).parse raw registry = (Leaf.number.parse raw, registry) := by
  refine ⟨Leaf.accepts_int_iff, fun n hn hfits => ?_, ?_, Leaf.number_of_int, ?_⟩
  · exact Leaf.parse_int (rawInt64?_eq_some_iff.2 ⟨hn, hfits⟩)
  · rw [accumulate?_eq]
    rfl
  · intro registry hint hnumber expression hexpression
    obtain ⟨leaves, hnames, hleaves⟩ : ∃ leaves, registry.Names (unionMembers expression) leaves ∧
        (leaves = [.int, .number] ∨ leaves = [.number, .int]) := by
      rcases List.mem_cons.1 hexpression with rfl | hexpression
      · have hmembers : unionMembers "int|number" = ["int", "number"] := by decide +kernel
        rw [hmembers]
        exact ⟨_, .cons hint (.cons hnumber .nil), Or.inl rfl⟩
      · cases List.mem_singleton.1 hexpression
        have hmembers : unionMembers "number|int" = ["number", "int"] := by decide +kernel
        rw [hmembers]
        exact ⟨_, .cons hnumber (.cons hint .nil), Or.inr rfl⟩
    obtain ⟨haccepts, hparse⟩ := Leaf.choice_number hleaves expression raw
    rw [Reader.accepts_of_names hnames, Reader.parse_of_names hnames, haccepts, hparse]
    exact ⟨rfl, rfl⟩

theorem number_extends_int_least :
    let raw := "\t-009223372036854775808 "
    let registry := Registry.withBuiltins ", "
    WritesInteger (trim raw.toList) (-9223372036854775808) ∧ FitsInt64 (-9223372036854775808) ∧
      registry.meaning? "int" = some (.leaf .int) ∧
      registry.meaning? "number" = some (.leaf .number) ∧
      Leaf.int.accepts raw = true ∧ Leaf.int.accepts "-9223372036854775809" = false ∧
      Leaf.number.parse raw = .int (-9223372036854775808) ∧
      (Reader.union "number|int").parse raw registry =
        (.int (-9223372036854775808), registry) := by
  intro raw registry
  have hwrites : WritesInteger (trim raw.toList) (-9223372036854775808) :=
    integer?_eq_some_iff.1 (by decide)
  have hfits : FitsInt64 (-9223372036854775808) := by decide
  obtain ⟨haccepts, hvalue, -, hnumber, hunion⟩ := number_extends_int raw
  have hint := haccepts.2 ⟨_, hwrites, hfits⟩
  have hparse := (hnumber hint).2.trans (hvalue _ hwrites hfits)
  have hboth := (hunion registry rfl rfl "number|int" (by decide)).2
  exact ⟨hwrites, hfits, rfl, rfl, hint, by decide, hparse, hparse ▸ hboth⟩

end TypedEnv
