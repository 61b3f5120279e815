import TypedEnv.Proofs.Binary64
import TypedEnv.Proofs.Reuse

/-!
Types of values.  A parser with the built-in readers alone gives every key a value of the type that
the schema declares for it, or the fallback of its rule, and values that are no fallbacks keep the
rule.
-/

namespace TypedEnv

/-- Text before and after one `@`, and after it a point with text on both sides. -/
inductive AddressShape : List Char → Prop
  | intro {name host top : List Char} : name ≠ [] → host ≠ [] → top ≠ [] →
      (∀ c ∈ name ++ host ++ top, isAddressChar c = true) →
      AddressShape (name ++ '@' :: (host ++ '.' :: top))

namespace Document

inductive HasBuiltin : String → Document → Prop
  | string (s : String) : HasBuiltin "string" (.string s)
  | email {s : String} : AddressShape s.toList → HasBuiltin "email" (.string s)
  | int {n : Int} : leastInt64 ≤ n → n ≤ greatestInt64 → HasBuiltin "int" (.int n)
  | whole {n : Int} : leastInt64 ≤ n → n ≤ greatestInt64 → HasBuiltin "number" (.int n)
  | float {x : Binary64} : x.isFinite = true → HasBuiltin "number" (.float x)
  | boolean (b : Bool) : HasBuiltin "boolean" (.bool b)
  | array (items : List String) : HasBuiltin "array" (.array (items.map .string))
  | json (document : Document) : HasBuiltin "json" document

/-- A value of a type id; a union has the values of its members of built-in types. -/
inductive HasType : String → Document → Prop
  | plain {typeId : String} {value : Document} : HasBuiltin typeId value → HasType typeId value
  | member {expression id : String} {value : Document} : isUnionId expression = true →
      id ∈ unionMembers expression → HasBuiltin id value → HasType expression value

end Document

def Leaf.Typed (own : Leaf) : Prop :=
  ∀ raw, own.accepts raw = true → (own.parse raw).HasBuiltin own.id

section Addresses

variable {text : List Char}

theorem mem_dropLast_drop_one {domain : List Char} :
    '.' ∈ (domain.drop 1).dropLast ↔
      ∃ host top, host ≠ [] ∧ top ≠ [] ∧ domain = host ++ '.' :: top := by
  constructor
  · intro h
    obtain ⟨host, top, hsplit⟩ := List.append_of_mem h
    cases domain with
    | nil => cases h
    | cons c rest =>
      rcases List.eq_nil_or_concat rest with rfl | ⟨inner, last, rfl⟩
      · cases h
      · rw [List.drop_one, List.tail_cons, List.concat_eq_append, List.dropLast_concat] at hsplit
        refine ⟨c :: host, top ++ [last], List.cons_ne_nil _ _, by simp, ?_⟩
        rw [hsplit]
        simp
  · rintro ⟨host, top, hhost, htop, rfl⟩
    obtain ⟨c, host, rfl⟩ := List.exists_cons_of_ne_nil hhost
    rw [List.cons_append, List.drop_one, List.tail_cons,
      List.dropLast_append_of_ne_nil (List.cons_ne_nil _ _), List.dropLast_cons_of_ne_nil htop]
    exact List.mem_append_right _ List.mem_cons_self

theorem addressShape_of_isEmail (h : isEmail text = true) : AddressShape text := by
  unfold isEmail at h
  split at h
  · next domain hdrop =>
    simp only [Bool.and_eq_true, bne_iff_ne, List.all_eq_true, List.contains_iff_mem] at h
    obtain ⟨⟨hhead, hdomain⟩, hpoint⟩ := h
    obtain ⟨host, top, hhost, htop, rfl⟩ := mem_dropLast_drop_one.1 hpoint
    have htext : text = text.takeWhile isAddressChar ++ '@' :: (host ++ '.' :: top) := by
      rw [← hdrop, List.takeWhile_append_dropWhile]
    have hname : text.takeWhile isAddressChar ≠ [] := by
      intro hempty
      rw [htext, hempty] at hhead
      exact hhead rfl
    rw [htext]
    refine .intro hname hhost htop fun c hc => ?_
    simp only [List.mem_append] at hc
    rcases hc with (hc | hc) | hc
    · exact List.all_eq_true.1 List.all_takeWhile c hc
    · exact hdomain c (by simp [hc])
    · exact hdomain c (by simp [hc])
  · cases h

theorem isEmail_of_addressShape (h : AddressShape text) : isEmail text = true := by
  cases h with
  | @intro name host top hname hhost htop hall =>
    simp only [List.mem_append] at hall
    have hdrop : (name ++ '@' :: (host ++ '.' :: top)).dropWhile isAddressChar =
        '@' :: (host ++ '.' :: top) := by
      rw [List.dropWhile_append_of_pos fun c hc => hall c (Or.inl (Or.inl hc))]
      rfl
    have hhead : (name ++ '@' :: (host ++ '.' :: top)).head? ≠ some '@' := by
      obtain ⟨first, rest, rfl⟩ := List.exists_cons_of_ne_nil hname
      intro heq
      cases heq
      cases hall '@' (Or.inl (Or.inl List.mem_cons_self))
    unfold isEmail
    rw [hdrop]
    simp only [Bool.and_eq_true, bne_iff_ne, List.all_eq_true, List.contains_iff_mem]
    refine ⟨⟨hhead, fun c hc => ?_⟩, mem_dropLast_drop_one.2 ⟨host, top, hhost, htop, rfl⟩⟩
    rcases List.mem_append.1 hc with hc | hc
    · exact hall c (Or.inl (Or.inr hc))
    · rcases List.mem_cons.1 hc with rfl | hc
      · rfl
      · exact hall c (Or.inr hc)

theorem isEmail_iff : isEmail text = true ↔ AddressShape text :=
  ⟨addressShape_of_isEmail, isEmail_of_addressShape⟩

end Addresses

theorem rawInt64?_bounds {raw : String} {n : Int} (h : rawInt64? raw = some n) :
    leastInt64 ≤ n ∧ n ≤ greatestInt64 := by
  have hbounds := (Option.filter_eq_some_iff.1 h).2
  simpa only [Bool.and_eq_true, decide_eq_true_eq] using hbounds

theorem rawFinite?_isFinite {raw : String} {x : Binary64} (h : rawFinite? raw = some x) :
    x.isFinite = true := (Option.filter_eq_some_iff.1 h).2

namespace Leaf

theorem typed_int : int.Typed := by
  intro raw h
  dsimp only [int] at h ⊢
  obtain ⟨n, hn⟩ := Option.isSome_iff_exists.1 h
  have hbounds := rawInt64?_bounds hn
  rw [hn]
  exact .int hbounds.1 hbounds.2

theorem typed_number : number.Typed := by
  intro raw h
  dsimp only [number] at h ⊢
  obtain ⟨x, hx⟩ := Option.isSome_iff_exists.1 h
  rw [hx]
  -- Both numerals count: a finite number that reads as an integer stays one.
  cases hn : rawInt64? raw with
  | some n => exact .whole (rawInt64?_bounds hn).1 (rawInt64?_bounds hn).2
  | none => exact .float (rawFinite?_isFinite hx)

theorem typed_boolean : boolean.Typed := by
  intro raw h
  dsimp only [boolean] at h ⊢
  obtain ⟨b, hb⟩ := Option.isSome_iff_exists.1 h
  rw [hb]
  exact .boolean b

theorem typed_array (delimiter : String) : (array delimiter).Typed :=
  fun raw _ => .array (splitList delimiter raw)

theorem typed_of_mem_builtins {delimiter : String} {own : Leaf} (h : own ∈ builtins delimiter) :
    own.Typed := by
  simp only [builtins, List.mem_cons, List.not_mem_nil, or_false] at h
  rcases h with rfl | rfl | rfl | rfl | rfl | rfl | rfl
  · exact typed_array delimiter
  · exact fun raw _ => .string raw
  · exact typed_int
  · exact typed_number
  · exact typed_boolean
  · exact fun raw _ => .json _
  · exact fun raw h => .email (isEmail_iff.1 h)

end Leaf

namespace Registry

variable {registry : Registry} {id raw : String} {leaf : Leaf}

@[simp] theorem registerAll_nil (registry : Registry) : registry.registerAll [] = registry := rfl

def Typed (registry : Registry) : Prop :=
  ∀ id entry, registry.shelf.get? id = some entry →
    ∃ own, entry.reader = .leaf own ∧ own.id = id ∧ own.Typed

theorem Typed.register (h : registry.Typed) {own : Leaf} (hown : own.Typed) :
    (registry.register (.leaf own)).Typed := by
  intro id entry he
  rw [get?_register] at he
  split at he
  · next hid =>
    cases he
    exact ⟨own, rfl, hid.symm, hown⟩
  · exact h id entry he

theorem Typed.registerAll (h : registry.Typed) {leaves : List Leaf}
    (hleaves : ∀ own ∈ leaves, own.Typed) : (registry.registerAll (leaves.map .leaf)).Typed := by
  induction leaves generalizing registry with
  | nil => exact h
  | cons own later ih =>
    rw [List.forall_mem_cons] at hleaves
    exact ih (h.register hleaves.1) hleaves.2

theorem typed_withBuiltins (delimiter : String) : (withBuiltins delimiter).Typed := by
  have hempty : empty.Typed := fun _ _ he => by cases he
  exact hempty.registerAll fun _ => Leaf.typed_of_mem_builtins

theorem Typed.meaning? (h : registry.Typed) {reader : Reader}
    (hm : registry.meaning? id = some reader) :
    (∃ own, reader = .leaf own ∧ own.id = id ∧ own.Typed) ∨
      isUnionId id = true ∧ reader = .union id := by
  rcases entry_or_union_of_meaning? hm with ⟨serial, he⟩ | hunion
  · exact Or.inl (h id _ he)
  · exact Or.inr hunion

theorem Typed.of_mem_leaves (h : registry.Typed) {expression : String}
    (hleaf : leaf ∈ registry.leaves expression) :
    leaf.id ∈ unionMembers expression ∧ leaf.Typed := by
  obtain ⟨member, hmem, hbound⟩ := List.mem_filterMap.1 hleaf
  obtain ⟨reader, hm, hreader⟩ := Option.bind_eq_some_iff.1 hbound
  rcases h.meaning? hm with ⟨own, rfl, rfl, hown⟩ | ⟨_, rfl⟩
  · cases hreader
    exact ⟨hmem, hown⟩
  · cases hreader

theorem Typed.hasType (h : registry.Typed) (hleaf : registry.leafOf? id = some leaf)
    (ha : leaf.accepts raw = true) : (leaf.parse raw).HasType id := by
  obtain ⟨reader, hm, rfl⟩ := Option.map_eq_some_iff.1 hleaf
  rcases h.meaning? hm with ⟨own, rfl, rfl, hown⟩ | ⟨hu, rfl⟩
  · exact .plain (hown raw ha)
  · have hfound : ((registry.leaves id).find? (·.accepts raw)).isSome = true := by
      rw [List.isSome_find?]
      exact ha
    -- The member that accepts the text is also the one that reads it.
    obtain ⟨member, hmember⟩ := Option.isSome_iff_exists.1 hfound
    obtain ⟨hmem, htyped⟩ := h.of_mem_leaves (List.mem_of_find?_eq_some hmember)
    have haccepts : member.accepts raw = true := by simpa using List.find?_some hmember
    dsimp only [asLeaf, Leaf.choice]
    rw [hmember]
    exact .member hu hmem (htyped raw haccepts)

def Accepts (registry : Registry) (id raw : String) : Prop :=
  (registry.perform (.accepts id raw)).1 = .verdict (some true)

theorem accepts_iff (h : registry.Grounded) :
    registry.Accepts id raw ↔
      ∃ leaf, registry.leafOf? id = some leaf ∧ leaf.accepts raw = true := by
  rw [Accepts, perform_accepts h, leafOf?]
  cases registry.meaning? id with
  | none => simp
  | some reader => simp

theorem leafOf?_of_mem_builtins {delimiter id : String} {own : Leaf}
    (h : own ∈ Leaf.builtins delimiter) (hown : own.id = id) :
    (withBuiltins delimiter).leafOf? id = some own := by
  subst hown
  have hreader : ((withBuiltins delimiter).shelf.get? own.id).map Entry.reader =
      some (.leaf own) := by
    rw [withBuiltins, map_reader_registerAll]
    simp only [Leaf.builtins, List.mem_cons, List.not_mem_nil, or_false] at h
    rcases h with rfl | rfl | rfl | rfl | rfl | rfl | rfl <;> rfl
  have hids : (Leaf.builtins delimiter).map Leaf.id =
      ["array", "string", "int", "number", "boolean", "json", "email"] := rfl
  have hid : own.id ≠ "" := by
    have hmem := List.mem_map_of_mem (f := Leaf.id) h
    rw [hids] at hmem
    intro hempty
    rw [hempty] at hmem
    exact absurd hmem (by decide)
  rw [leafOf?, meaning?, if_neg hid, hreader, Option.some_or]
  rfl

theorem leafOf?_string (delimiter : String) :
    (withBuiltins delimiter).leafOf? "string" = some .string := by
  have hmem : Leaf.string ∈ Leaf.builtins delimiter := List.mem_cons_of_mem _ List.mem_cons_self
  exact leafOf?_of_mem_builtins hmem rfl

end Registry

namespace FieldRule

variable {rule : FieldRule} {raw : String}

/-- Bounds of lengths are compared with the binary64 number next to the length, which is the length
itself up to `2 ^ 53`. -/
structure Bounds (rule : FieldRule) (length : Nat) : Prop where
  not_below : ∀ bound, rule.min = some bound → (Binary64.ofInt length).below bound = false
  not_above : ∀ bound, rule.max = some bound → bound.below (.ofInt length) = false
  le_units : length ≤ twoPow 53 → ∀ bound least, rule.min = some bound →
    bound.rank = some least → least ≤ length * Binary64.unitsPerOne
  units_le : length ≤ twoPow 53 → ∀ bound greatest, rule.max = some bound →
    bound.rank = some greatest → length * Binary64.unitsPerOne ≤ greatest

theorem bounds_of_not_tooSmall (hid : rule.typeId = "string")
    (hsmall : ∀ bound measure, ¬ rule.TooSmall raw bound measure)
    (hlarge : ∀ bound measure, ¬ rule.TooLarge raw bound measure) : rule.Bounds raw.length := by
  have hmin : ∀ bound, rule.min = some bound →
      (Binary64.ofInt raw.length).below bound = false := by
    intro bound hb
    rw [Bool.eq_false_iff]
    exact fun hbelow => hsmall bound .length ⟨hb, _, .length hid, hbelow⟩
  have hmax : ∀ bound, rule.max = some bound →
      bound.below (.ofInt raw.length) = false := by
    intro bound hb
    rw [Bool.eq_false_iff]
    exact fun hbelow => hlarge bound .length ⟨hb, _, .length hid, hbelow⟩
  refine ⟨hmin, hmax, fun hlength bound least hb hrank => ?_,
    fun hlength bound greatest hb hrank => ?_⟩
  · have hexact := Binary64.rank_ofInt (n := raw.length) hlength
    exact (Binary64.below_eq_false hexact hrank).1 (hmin bound hb)
  · have hexact := Binary64.rank_ofInt (n := raw.length) hlength
    exact (Binary64.below_eq_false hrank hexact).1 (hmax bound hb)

structure Admits (rule : FieldRule) (raw : String) (value : Document) : Prop where
  listed : rule.Lists raw value
  bounded : rule.typeId = "string" → ∃ s, value = .string s ∧ rule.Bounds s.length

end FieldRule

/-- What a key may have after a parse: the fallback of a rule for a rejected text, or else an
accepted text read as the declared type, which keeps the rule if there is one. -/
inductive FieldSpec.Gives (registry : Registry) (raw : String) : FieldSpec → Document → Prop
  | fallback {rule : FieldRule} : ¬ registry.Accepts rule.typeId raw →
      Gives registry raw (.rule rule) (rule.fallback.getD .null)
  | type {typeId : String} {value : Document} : registry.Accepts typeId raw →
      value.HasType typeId → Gives registry raw (.type typeId) value
  | rule {rule : FieldRule} {value : Document} : registry.Accepts rule.typeId raw →
      value.HasType rule.typeId → rule.Admits raw value → Gives registry raw (.rule rule) value

theorem Schema.Judged.gives {schema : Schema} {delimiter : String} {a : Assignment}
    {value : Document} (h : schema.Judged (.withBuiltins delimiter) a (.store value))
    (hschema : schema.isEmpty = false) :
    ∃ spec, schema.get? a.key = some spec ∧
      spec.Gives (.withBuiltins delimiter) a.value value := by
  have hg := Registry.grounded_withBuiltins delimiter
  have ht := Registry.typed_withBuiltins delimiter
  cases h with
  | unchecked hempty =>
    rw [hschema] at hempty
    cases hempty
  | @replaced rule leaf hget hleaf ha =>
    refine ⟨.rule rule, hget, .fallback ?_⟩
    rw [Registry.accepts_iff hg]
    rintro ⟨other, hother, hraw⟩
    rw [hleaf] at hother
    cases hother
    rw [ha] at hraw
    cases hraw
  | @typed typeId leaf hget hleaf ha =>
    exact ⟨.type typeId, hget,
      .type ((Registry.accepts_iff hg).2 ⟨leaf, hleaf, ha⟩) (ht.hasType hleaf ha)⟩
  | @kept rule leaf hget hleaf ha hlisted hsmall hlarge =>
    refine ⟨.rule rule, hget, .rule ((Registry.accepts_iff hg).2 ⟨leaf, hleaf, ha⟩)
      (ht.hasType hleaf ha) ⟨hlisted, fun hid => ?_⟩⟩
    rw [hid, Registry.leafOf?_string] at hleaf
    cases hleaf
    exact ⟨a.value, rfl, FieldRule.bounds_of_not_tooSmall hid hsmall hlarge⟩

/-- Every value of a successful parse is one that the schema gives its key for a text of the file,
whatever calls there were before. -/
theorem Parser.gives_of_parseText {builder : Builder} {host : Host} {fresh : Parser}
    (hbuild : builder.build host = .ok fresh) (hreaders : builder.readers = [])
    (hschema : fresh.schema.isEmpty = false) (calls : List Parser.Call) {text : String}
    {parsed : Parsed} (hparse : ((fresh.run calls).parseText text).1 = .ok parsed) {key : String}
    {value : Document} (hvalue : parsed.get? key = some value) :
    ∃ spec raw, fresh.schema.get? key = some spec ∧ ⟨key, raw⟩ ∈ Assignment.ofText text ∧
      spec.Gives fresh.registry raw value := by
  have hregistry : fresh.registry = .withBuiltins builder.delimiter := by
    rw [Builder.registry_of_build hbuild, hreaders, Registry.registerAll_nil]
  have hstart : fresh.Continues fresh :=
    Builder.continues_of_build hbuild (hreaders ▸ List.forall_mem_nil _)
  obtain ⟨_, _, heq⟩ := (hstart.run hstart.grounded calls).parseText hstart.grounded text
  rw [heq] at hparse
  have hok : (fresh.schema.evaluate (Assignment.ofText text) fresh.registry).1 = .ok parsed :=
    hparse
  obtain ⟨before, raw, after, hsplit, hjudged, _⟩ :=
    (Schema.get?_of_evaluate_eq_ok hstart.grounded hok key value).1 hvalue
  rw [hregistry] at hjudged ⊢
  obtain ⟨spec, hget, hgives⟩ := hjudged.gives hschema
  exact ⟨spec, raw, hget, hsplit ▸ List.mem_append_right before List.mem_cons_self, hgives⟩

theorem Parser.gives_of_parseText_union :
    let email : FieldRule := { FieldRule.ofType "email" with fallback := some (.string "none") }
    let word : FieldRule := { FieldRule.ofType "string" with
      oneOf := some [.string "abc", .string "abcd"]
      min := some (.ofInt 2)
      max := some (.ofInt 3) }
    let schema := ((Schema.empty.field "A" (.type "int|boolean")).field "M" (.rule email)).field "S"
      (.rule word)
    let builder := (Builder.initial.withFile "/.env").withSchema schema
    let host : Host := ⟨.empty, .present "/", .empty, none⟩
    let text := "M=a@b\nA=on\nS=abc"
    builder.readers = [] ∧ ∃ fresh parsed, builder.build host = .ok fresh ∧
      fresh.schema.isEmpty = false ∧
      ((fresh.run [.parseText "A=7"]).parseText text).1 = .ok parsed ∧
      parsed.get? "A" = some (.bool true) ∧ parsed.get? "M" = some (.string "none") ∧
      parsed.get? "S" = some (.string "abc") ∧
      (∃ spec raw, fresh.schema.get? "A" = some spec ∧ ⟨"A", raw⟩ ∈ Assignment.ofText text ∧
        spec.Gives fresh.registry raw (.bool true)) ∧
      ∃ spec raw, fresh.schema.get? "S" = some spec ∧ ⟨"S", raw⟩ ∈ Assignment.ofText text ∧
        spec.Gives fresh.registry raw (.string "abc") := by
  intro email word schema builder host text
  let fresh : Parser :=
    { path := "/.env", schema
      registry := (Registry.withBuiltins builder.delimiter).registerAll builder.readers
      delimiter := builder.delimiter, populate := builder.populate }
  let shown (parsed : Parsed) := (parsed.get? "A", parsed.get? "M", parsed.get? "S")
  have hbuild : builder.build host = .ok fresh := rfl
  have hshown : (((fresh.run [.parseText "A=7"]).parseText text).1.toOption.map shown) =
      some (some (.bool true), some (.string "none"), some (.string "abc")) := by
    decide +kernel
  obtain ⟨parsed, hparse, hvalues⟩ := Option.map_eq_some_iff.1 hshown
  obtain ⟨hunion, hvalues⟩ := Prod.mk.inj hvalues
  obtain ⟨hfallback, hword⟩ := Prod.mk.inj hvalues
  have hok := eq_ok_of_toOption hparse
  have hgives {key : String} {value : Document} (hvalue : parsed.get? key = some value) :=
    gives_of_parseText hbuild rfl rfl [.parseText "A=7"] hok hvalue
  exact ⟨rfl, fresh, parsed, hbuild, rfl, hok, hunion, hfallback, hword, hgives hunion,
    hgives hword⟩

end TypedEnv
