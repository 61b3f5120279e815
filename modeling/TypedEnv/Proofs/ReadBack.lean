import TypedEnv.Proofs.Numeral
import TypedEnv.Proofs.Populate
import TypedEnv.Proofs.Typing

/-!
What populating writes is read back.  The reader of a built-in type accepts the rendering of a value
that it made and makes the same value of it.  Strings, addresses and lists come out as the very text
that they were read from, so a list in an env file reaches the environment unchanged.
-/

namespace TypedEnv

open TypedEnv.Text

/-- The value of a text has a rendering, which the reader takes for the same value. -/
def Leaf.ReadsBack (own : Leaf) (delimiter raw : String) : Prop :=
  ∃ text, renderValue delimiter (own.parse raw) = some text ∧ own.accepts text = true ∧
    own.parse text = own.parse raw

/-- Texts whose values keep their type in an environment.  A number that is no integer may come back
as one. -/
inductive Leaf.Keeps (own : Leaf) (raw : String) : Prop
  | always : own.id ∈ ["string", "email", "array", "int", "boolean"] → Keeps own raw
  | whole : own.id = "number" → (rawInt64? raw).isSome = true → Keeps own raw

def Assignment.IsLast (text key raw : String) : Prop :=
  ∃ before after, ofText text = before ++ ⟨key, raw⟩ :: after ∧ ∀ later ∈ after, later.key ≠ key

theorem toList_join_ofList (delimiter : String) (pieces : List (List Char)) :
    (join delimiter (pieces.map String.ofList)).toList = delimiter.toList.intercalate pieces := by
  have hpieces : (pieces.map String.ofList).map String.toList = pieces := by
    rw [List.map_map]
    exact List.map_id'' (fun _ => String.toList_ofList) pieces
  rw [toList_join, hpieces]

theorem join_splitList (delimiter raw : String) :
    join delimiter (splitList delimiter raw) = raw := by
  apply String.toList_inj.1
  unfold splitList
  cases hdelimiter : delimiter.toList with
  | nil =>
    have hpieces : (raw.toList.map fun c => String.ofList [c]) =
        (raw.toList.map fun c => [c]).map String.ofList := by
      rw [List.map_map]
      rfl
    dsimp only
    rw [hpieces, toList_join_ofList, hdelimiter, intercalate_singletons]
  | cons head tail =>
    dsimp only
    rw [toList_join_ofList, hdelimiter, intercalate_splitOn]

theorem renderValue_strings (delimiter : String) (items : List String) :
    renderValue delimiter (.array (items.map .string)) = some (join delimiter items) := by
  have hitems : (items.map Document.string).map Document.display = items := by
    rw [List.map_map]
    exact List.map_id _
  rw [renderValue, hitems]

namespace Leaf

variable {delimiter raw : String}

theorem readsBack_of_renderValue {own : Leaf} (h : renderValue delimiter (own.parse raw) = some raw)
    (ha : own.accepts raw = true) : own.ReadsBack delimiter raw := ⟨raw, h, ha, rfl⟩

theorem renderValue_array (delimiter raw : String) :
    renderValue delimiter ((array delimiter).parse raw) = some raw := by
  dsimp only [array]
  rw [renderValue_strings, join_splitList]

theorem readsBack_int (h : int.accepts raw = true) : int.ReadsBack delimiter raw := by
  rw [accepts_int, Option.isSome_iff_exists] at h
  obtain ⟨n, hn⟩ := h
  obtain ⟨hleast, hgreatest⟩ := rawInt64?_bounds hn
  have hback := rawInt64?_intText hleast hgreatest
  refine ⟨String.ofList (Json.intText n), ?_, ?_, ?_⟩
  · rw [parse_int hn]
    rfl
  · rw [accepts_int, hback]
    rfl
  · rw [parse_int hback, parse_int hn]

theorem readsBack_number {n : Int} (hn : rawInt64? raw = some n) :
    number.ReadsBack delimiter raw := by
  obtain ⟨hleast, hgreatest⟩ := rawInt64?_bounds hn
  have hback := rawInt64?_intText hleast hgreatest
  refine ⟨String.ofList (Json.intText n), ?_, ?_, ?_⟩
  · rw [parse_number_of_int hn]
    rfl
  · rw [accepts_number]
    exact isSome_rawFinite?_of_rawInt64? hback
  · rw [parse_number_of_int hback, parse_number_of_int hn]

theorem readsBack_boolean (h : boolean.accepts raw = true) : boolean.ReadsBack delimiter raw := by
  have hback : ∀ b, rawBool? (Document.bool b).display = some b := by decide
  dsimp only [boolean] at h
  obtain ⟨b, hb⟩ := Option.isSome_iff_exists.1 h
  refine ⟨(Document.bool b).display, ?_, ?_, ?_⟩
  · dsimp only [boolean]
    rw [hb]
    rfl
  · dsimp only [boolean]
    rw [hback]
    rfl
  · dsimp only [boolean]
    rw [hback, hb]

theorem renderValue_verbatim {own : Leaf} (hown : own ∈ builtins delimiter)
    (hid : own.id ∈ ["string", "email", "array"]) :
    renderValue delimiter (own.parse raw) = some raw := by
  simp only [builtins, List.mem_cons, List.not_mem_nil, or_false] at hown
  rcases hown with rfl | rfl | rfl | rfl | rfl | rfl | rfl
  · exact renderValue_array delimiter raw
  · rfl
  · exact absurd hid (by decide)
  · exact absurd hid (by decide)
  · exact absurd hid (by decide)
  · exact absurd hid (by decide)
  · rfl

theorem readsBack_of_keeps {own : Leaf} (hown : own ∈ builtins delimiter)
    (hkeeps : own.Keeps raw) (ha : own.accepts raw = true) : own.ReadsBack delimiter raw := by
  simp only [builtins, List.mem_cons, List.not_mem_nil, or_false] at hown
  rcases hown with rfl | rfl | rfl | rfl | rfl | rfl | rfl
  · exact readsBack_of_renderValue (renderValue_array delimiter raw) ha
  · exact readsBack_of_renderValue rfl ha
  · exact readsBack_int ha
  · cases hkeeps with
    | always hid => exact absurd hid (by decide)
    | whole _ hwhole =>
      obtain ⟨n, hn⟩ := Option.isSome_iff_exists.1 hwhole
      exact readsBack_number hn
  · exact readsBack_boolean ha
  · cases hkeeps with
    | always hid => exact absurd hid (by decide)
    | whole hid _ => exact absurd hid (by decide)
  · exact readsBack_of_renderValue rfl ha

end Leaf

theorem Schema.judge_array {schema : Schema} {delimiter key : String} {spec : FieldSpec}
    (hget : schema.get? key = some spec) (harray : spec.typeId = "array") (raw : String) :
    (schema.judge ⟨key, raw⟩ (.withBuiltins delimiter)).1 =
        .store ((Leaf.array delimiter).parse raw) ∨
      ∃ error, (schema.judge ⟨key, raw⟩ (.withBuiltins delimiter)).1 = .fatal error := by
  have hleaf : (Registry.withBuiltins delimiter).leafOf? spec.typeId =
      some (.array delimiter) := by
    rw [harray]
    exact Registry.leafOf?_of_mem_builtins List.mem_cons_self rfl
  have haccepts : (Leaf.array delimiter).accepts raw = true := rfl
  rw [judge_of_get? (a := ⟨key, raw⟩) (Registry.grounded_withBuiltins delimiter) hget hleaf]
  dsimp only
  rw [if_pos haccepts]
  cases spec with
  | type typeId => exact Or.inl rfl
  | rule own =>
    rw [FieldSpec.accepted]
    split
    · next error _ => exact Or.inr ⟨error, rfl⟩
    · exact Or.inl rfl

theorem Schema.get?_of_evaluate_array {schema : Schema} {delimiter key raw text : String}
    {spec : FieldSpec} {parsed : Parsed}
    (hok : (schema.evaluate (Assignment.ofText text) (.withBuiltins delimiter)).1 = .ok parsed)
    (hget : schema.get? key = some spec) (harray : spec.typeId = "array")
    (hlast : Assignment.IsLast text key raw) :
    parsed.get? key = some ((Leaf.array delimiter).parse raw) := by
  have hg := Registry.grounded_withBuiltins delimiter
  obtain ⟨before, after, hsplit, hafter⟩ := hlast
  have hmem : ⟨key, raw⟩ ∈ Assignment.ofText text := by
    rw [hsplit]
    exact List.mem_append_right before List.mem_cons_self
  rw [get?_of_evaluate_eq_ok hg hok]
  refine ⟨before, raw, after, hsplit, ?_, fun later hl hkey => absurd hkey (hafter later hl)⟩
  rw [judged_iff hg]
  refine (judge_array hget harray raw).resolve_right ?_
  rintro ⟨error, herror⟩
  exact (exists_evaluate_eq_ok_iff hg).1 ⟨parsed, hok⟩ _ hmem error ((judged_iff hg).2 herror)

theorem Parser.populateWith_array {builder : Builder} {host : Host} {fresh : Parser}
    (hbuild : builder.build host = .ok fresh) (hreaders : builder.readers = [])
    (hpopulate : builder.populate = true) (calls : List Parser.Call) {text : String}
    {parsed : Parsed} (hparse : ((fresh.run calls).parseText text).1 = .ok parsed)
    {key raw : String} {spec : FieldSpec} (hget : fresh.schema.get? key = some spec)
    (harray : spec.typeId = "array") (hlast : Assignment.IsLast text key raw)
    {kind : EnvironmentKind} {start : Dict String} (hw : (Environment.mk kind start).WellNamed)
    (hs : parsed.Suits builder.delimiter kind) (hunset : start.get? key = none) :
    ∃ finish report, (fresh.run calls).populateWith parsed ⟨kind, start⟩ =
      .ok (.complete ⟨kind, finish⟩ report) ∧ key ∈ report.written ∧
        finish.get? key = some raw := by
  have hregistry : fresh.registry = .withBuiltins builder.delimiter := by
    rw [Builder.registry_of_build hbuild, hreaders, Registry.registerAll_nil]
  have hstart : fresh.Continues fresh :=
    Builder.continues_of_build hbuild (hreaders ▸ List.forall_mem_nil _)
  have hused := hstart.run hstart.grounded calls
  obtain ⟨_, _, heq⟩ := hused.parseText hstart.grounded text
  rw [heq, parseText_fst, hregistry] at hparse
  have hvalue := Schema.get?_of_evaluate_array hparse hget harray hlast
  have hwritten : key ∈ (reportOf start parsed.entries).written :=
    Parsed.mem_written_iff.2 ⟨_, hvalue, Dict.contains_eq_false_iff.2 hunset, nofun⟩
  refine ⟨parsed.merged builder.delimiter start, reportOf start parsed.entries, ?_, hwritten, ?_⟩
  · have hsame : (fresh.run calls).populateWith parsed ⟨kind, start⟩ =
        fresh.populateWith parsed ⟨kind, start⟩ := by
      rw [populateWith, populateWith, hused.populate_eq, hused.delimiter_eq]
    rw [hsame, Builder.populateWith_of_build hbuild, if_pos hpopulate, Parsed.populate_eq hw hs]
  · rw [Parsed.get?_merged, hunset, Option.none_or, Parsed.rendering?, hvalue, Option.bind_some,
      Leaf.renderValue_array]

/-- Whatever the delimiter, a built-in reader takes the rendering of its value for that value again,
if the value keeps its type; strings, addresses and lists keep their very text.  So the variable of
a list field holds the text of the env file. -/
theorem readsBack_builtins (delimiter : String) :
    (∀ own ∈ Leaf.builtins delimiter, ∀ raw, own.Keeps raw → own.accepts raw = true →
      own.ReadsBack delimiter raw) ∧
    (∀ own ∈ Leaf.builtins delimiter, own.id ∈ ["string", "email", "array"] →
      ∀ raw, renderValue delimiter (own.parse raw) = some raw) ∧
    ∀ (builder : Builder) host fresh, builder.build host = .ok fresh → builder.readers = [] →
      builder.delimiter = delimiter → builder.populate = true →
      ∀ calls text parsed, ((fresh.run calls).parseText text).1 = .ok parsed →
      ∀ key spec raw, fresh.schema.get? key = some spec → spec.typeId = "array" →
        Assignment.IsLast text key raw →
      ∀ kind start, (Environment.mk kind start).WellNamed → parsed.Suits delimiter kind →
        start.get? key = none →
      ∃ finish report, (fresh.run calls).populateWith parsed ⟨kind, start⟩ =
        .ok (.complete ⟨kind, finish⟩ report) ∧ key ∈ report.written ∧
          finish.get? key = some raw := by
  refine ⟨fun own hown raw => Leaf.readsBack_of_keeps hown,
    fun own hown hid raw => Leaf.renderValue_verbatim hown hid, ?_⟩
  rintro builder host fresh hbuild hreaders rfl hpopulate calls text parsed hparse key spec raw hget
    harray hlast kind start hw hs hunset
  exact Parser.populateWith_array hbuild hreaders hpopulate calls hparse hget harray hlast hw hs
    hunset

theorem readsBack_builtins_overlapping :
    let schema := Schema.empty.field "L" (.type "array")
    let builder := ((Builder.initial.withFile "/.env").withSchema schema).withDelimiter "aa"
    let host : Host := ⟨.empty, .present "/", .empty, none⟩
    Leaf.number ∈ Leaf.builtins "aa" ∧ Leaf.number.Keeps " -007" ∧
      Leaf.number.accepts " -007" = true ∧ Leaf.number.ReadsBack "aa" " -007" ∧
      renderValue "aa" ((Leaf.array "aa").parse "xaaay") = some "xaaay" ∧
      ∃ fresh parsed finish report, builder.build host = .ok fresh ∧
        (fresh.parseText "L=b\nL=xaaay").1 = .ok parsed ∧
        fresh.populateWith parsed ⟨.map, .empty⟩ = .ok (.complete ⟨.map, finish⟩ report) ∧
        finish.get? "L" = some "xaaay" := by
  intro schema builder host
  obtain ⟨hback, htext, hparser⟩ := readsBack_builtins "aa"
  have hnumber : Leaf.number ∈ Leaf.builtins "aa" := by simp [Leaf.builtins]
  have hkeeps : Leaf.number.Keeps " -007" := .whole rfl (by decide)
  have haccepts : Leaf.number.accepts " -007" = true := by
    dsimp only [Leaf.number]
    exact isSome_rawFinite?_of_rawInt64? (n := -7) (by decide)
  let fresh : Parser :=
    { path := "/.env", schema
      registry := (Registry.withBuiltins builder.delimiter).registerAll builder.readers
      delimiter := builder.delimiter, populate := builder.populate }
  have hbuild : builder.build host = .ok fresh := rfl
  have hread : Assignment.ofText "L=b\nL=xaaay" = [⟨"L", "b"⟩, ⟨"L", "xaaay"⟩] := by
    decide +kernel
  let parsed := (Parsed.empty.insert "L" ((Leaf.array "aa").parse "b")).insert "L"
    ((Leaf.array "aa").parse "xaaay")
  have hevaluate : (schema.evaluate [⟨"L", "b"⟩, ⟨"L", "xaaay"⟩] (.withBuiltins "aa")).1 =
      .ok parsed := rfl
  have hparse : (fresh.parseText "L=b\nL=xaaay").1 = .ok parsed := by
    rw [Parser.parseText_fst, hread]
    exact hevaluate
  have hlast : Assignment.IsLast "L=b\nL=xaaay" "L" "xaaay" :=
    ⟨[⟨"L", "b"⟩], [], hread, List.forall_mem_nil _⟩
  have hmap : EnvironmentKind.map ≠ .process := by decide
  obtain ⟨finish, report, hpopulate, _, hvalue⟩ := hparser builder host fresh hbuild rfl rfl rfl []
    _ parsed hparse "L" (.type "array") "xaaay" rfl rfl hlast .map .empty
    (fun h => absurd h hmap) (fun h => absurd h hmap) rfl
  exact ⟨hnumber, hkeeps, haccepts, hback _ hnumber _ hkeeps haccepts,
    htext _ List.mem_cons_self (by decide) _, fresh, parsed, finish, report, hbuild, hparse,
    hpopulate, hvalue⟩

end TypedEnv
