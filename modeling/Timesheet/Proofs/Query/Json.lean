import Timesheet.Proofs.Calendar.DateText
import Timesheet.Proofs.Json.Records
import Timesheet.Proofs.Json.Text
import Timesheet.Proofs.Query.Reading
import Timesheet.Query.Json
/-!
# Queries written as JSON and read back

A query is written from its own fields and read by way of a draft, which has fields of its own.  Both lists
of fields are compared with a third, `Query.fields`: what is written of a query holds them
(`Query.holds_of_toJson`), and any object that holds them is read as the draft that knows all of the
query (`Query.draft_of_holds`).  It is read from its text as well, since what is written has no fractions
(`Query.isPlain_toJson`).  Finishing the draft then refuses what is not a query
(`Query.ofJson_eq_ok_iff`), whatever the value looked like.
-/

namespace Timesheet

open Json (Fields Holds Inverts Extends)

/-! ## 1. Parts -/

theorem Kind.inverts : Inverts (Json.name? Kind.names) fun k j => j = Kind.toJson k :=
  .of_eq (by rintro ⟨⟩ <;> rfl) (by rintro ⟨⟩ <;> simp [Kind.toJson])

theorem Mode.inverts : Inverts (Json.name? Mode.names) fun m j => j = Mode.toJson m :=
  .of_eq (by rintro ⟨⟩ <;> rfl) (by simp [Mode.toJson])

theorem SortOrder.inverts :
    Inverts (Json.name? SortOrder.names) fun o j => j = SortOrder.toJson o :=
  .of_eq (by rintro ⟨⟩ <;> rfl) (by rintro ⟨⟩ <;> simp [SortOrder.toJson])

theorem Grouping.inverts : Inverts (Json.name? Grouping.names) fun g j => j = Grouping.toJson g :=
  .of_eq (by rintro ⟨⟩ <;> rfl) (by rintro ⟨⟩ <;> simp [Grouping.toJson])

theorem Date.ofJson?_toJson (d : Date) : Date.ofJson? d.toJson = some d := by
  rw [ofJson?, toJson, Json.str?, Option.bind_some, readLenient?_text]

theorem Date.inverts : Inverts Date.ofJson? fun d j => j = Date.toJson d :=
  .of_eq Date.ofJson?_toJson (by simp [Date.toJson])

theorem Json.str_inverts : Inverts Json.str? fun s j => j = Json.str s :=
  .of_eq (fun _ => rfl) (by simp)

theorem tags_inverts : Inverts (Json.list? Json.str?) fun tags j => j = tagsToJson tags :=
  .of_eq (Json.list?_arr fun _ => rfl) (by simp [tagsToJson])

/-- Every 64-bit number is read back. -/
theorem Json.word?_ofWord (n : UInt64) : (Json.ofWord n).word? = some n := by
  have hsize : (n.toNat : Int) < UInt64.size := Int.ofNat_lt.mpr n.toNat_lt_size
  rw [ofWord, word?, if_pos ⟨by omega, hsize⟩, Int.toNat_natCast, UInt64.ofNat_toNat]

/-- An id is written as a number and a name as a string, so that a name of digits stays a name. -/
theorem Item.ofJson?_toJson (i : Item) : Item.ofJson? i.toJson = some i := by
  cases i with
  | id n =>
    have hword := Json.word?_ofWord n
    rw [Json.ofWord] at hword
    simp only [Item.toJson, Json.ofWord, Item.ofJson?, hword, Option.map_some]
  | name s => rfl

theorem items_inverts :
    Inverts (Json.list? Item.ofJson?) fun items j => j = .arr (items.map Item.toJson) :=
  .of_eq (Json.list?_arr Item.ofJson?_toJson) (by simp)

/-! ## 2. Selections -/

namespace Selection

/-- The fields of a selection. -/
def fields (s : Selection) : Fields := [
  ("mode", some (· = s.mode.toJson)),
  ("list", some (· = .arr (s.items.map Item.toJson)))]

/-- The value is an object that holds the selection. -/
def IsWritten (s : Selection) (j : Json) : Prop := ∃ members, j = .obj members ∧ Holds members s.fields

/-- What a selection has is all written. -/
theorem isWritten_toJson (s : Selection) : s.IsWritten s.toJson := by
  have hmatches : List.Forall₂ Json.Matches
      [("mode", some s.mode.toJson), ("list", some (.arr (s.items.map Item.toJson)))] s.fields :=
    .cons ⟨rfl, .some rfl⟩ (.cons ⟨rfl, .some rfl⟩ .nil)
  exact ⟨_, rfl, Json.holds_filterMap (by simp [fields]) hmatches⟩

theorem inverts : Inverts Selection.ofJson? IsWritten := by
  refine ⟨?_, ?_⟩
  · rintro s j ⟨members, rfl, h⟩
    have hfields : Json.fields? ["mode", "list"] (.obj members) = _ := h.fields?_eq
    have hmode := h.required_eq Mode.inverts "mode" s.mode List.mem_cons_self
    have hitems := h.required_eq items_inverts "list" s.items
      (List.mem_cons_of_mem _ List.mem_cons_self)
    simp only [ofJson?, hfields, fields, List.map_cons, List.map_nil, Option.bind_eq_bind,
      Option.bind_some, hmode, hitems]
    rfl
  · rintro s j ⟨members, rfl, -⟩
    simp

theorem isPlain_toJson (s : Selection) : s.toJson.IsPlain := by
  have hitem (i : Item) : i.toJson.IsPlain := by
    cases i with
    | id n => exact .int _
    | name s => exact .str s
  refine .obj _ ?_
  simp only [List.forall_mem_cons]
  exact ⟨.str _, .arr _ (List.forall_mem_map.mpr fun i _ => hitem i), by simp⟩

end Selection

/-! ## 3. Queries -/

namespace Query

variable {q : Query} {members : List (String × Json)} {j : Json}

/-- The names of the fields of a query. -/
def fieldNames : List String :=
  ["type", "from", "to", "project_selection", "client_selection", "included_tags", "excluded_tags",
    "sort", "group_by", "custom_title"]

/-- The fields of a query. -/
def fields (q : Query) : Fields := [
  ("type", some (· = q.kind.toJson)),
  ("from", some (· = q.start.toJson)),
  ("to", some (· = q.stop.toJson)),
  ("project_selection", q.projects.map Selection.IsWritten),
  ("client_selection", q.clients.map Selection.IsWritten),
  ("included_tags", q.includedTags.map fun tags j => j = tagsToJson tags),
  ("excluded_tags", q.excludedTags.map fun tags j => j = tagsToJson tags),
  ("sort", q.sort.map fun o j => j = o.toJson),
  ("group_by", q.grouping.map fun g j => j = g.toJson),
  ("custom_title", q.title.map fun s j => j = .str s)]

theorem map_fst_fields (q : Query) : q.fields.map Prod.fst = fieldNames := rfl

/-- **What is written of a query holds it**: no part of it is left out. -/
theorem holds_of_toJson (h : q.toJson = .obj members) : Holds members q.fields := by
  obtain rfl := Json.obj.inj h
  refine Json.holds_filterMap (by rw [map_fst_fields]; decide) ?_
  refine .cons ⟨rfl, .some rfl⟩ (.cons ⟨rfl, .some rfl⟩ (.cons ⟨rfl, .some rfl⟩ ?_))
  refine .cons (Json.matches_map Selection.isWritten_toJson _ _) ?_
  refine .cons (Json.matches_map Selection.isWritten_toJson _ _) ?_
  refine .cons (Json.matches_map_eq _ _ _) (.cons (Json.matches_map_eq _ _ _) ?_)
  refine .cons (Json.matches_map_eq _ _ _) (.cons (Json.matches_map_eq _ _ _) ?_)
  exact .cons (Json.matches_map_eq _ _ _) .nil

/-- **Any object that holds a query is read as all that is known of it.** -/
theorem draft_of_holds (h : Holds members q.fields) :
    Draft.ofJson? (.obj members) = some q.toDraft := by
  have hfields : Json.fields? fieldNames (.obj members) = _ := h.fields?_eq
  have hkind := h.optional_eq Kind.inverts "type" (some q.kind) (by simp [fields])
  have hstart := h.optional_eq Date.inverts "from" (some q.start) (by simp [fields])
  have hstop := h.optional_eq Date.inverts "to" (some q.stop) (by simp [fields])
  have hprojects := h.optional_eq Selection.inverts "project_selection" q.projects (by simp [fields])
  have hclients := h.optional_eq Selection.inverts "client_selection" q.clients (by simp [fields])
  have hincluded := h.optional_eq tags_inverts "included_tags" q.includedTags (by simp [fields])
  have hexcluded := h.optional_eq tags_inverts "excluded_tags" q.excludedTags (by simp [fields])
  have hsort := h.optional_eq SortOrder.inverts "sort" q.sort (by simp [fields])
  have hgrouping := h.optional_eq Grouping.inverts "group_by" q.grouping (by simp [fields])
  have htitle := h.optional_eq Json.str_inverts "custom_title" q.title (by simp [fields])
  rw [fieldNames] at hfields
  simp only [Draft.ofJson?, hfields, map_fst_fields, fieldNames, List.map_cons, List.map_nil,
    Option.bind_eq_bind, Option.bind_some, hkind, hstart, hstop, hprojects, hclients, hincluded,
    hexcluded, hsort, hgrouping, htitle]
  rfl

/-- **What is written of a query is plain**, so that it is read back from its texts. -/
theorem isPlain_toJson (q : Query) : q.toJson.IsPlain := by
  have htags (tags : List String) : (tagsToJson tags).IsPlain :=
    .arr _ (List.forall_mem_map.mpr fun tag _ => .str tag)
  have hsort (o : SortOrder) : o.toJson.IsPlain := by cases o <;> exact .str _
  have hgrouping (g : Grouping) : g.toJson.IsPlain := by cases g <;> exact .str _
  have hkind : q.kind.toJson.IsPlain := by cases q.kind <;> exact .str _
  refine Json.isPlain_ofFields ?_
  simp only [List.forall_mem_cons, Option.mem_def, Option.some.injEq, forall_eq',
    Option.map_eq_some_iff, forall_exists_index, and_imp, forall_apply_eq_imp_iff₂]
  exact ⟨hkind, .str _, .str _, fun s _ => s.isPlain_toJson, fun s _ => s.isPlain_toJson,
    fun tags _ => htags tags, fun tags _ => htags tags, fun o _ => hsort o, fun g _ => hgrouping g,
    fun s _ => .str s, by simp⟩

/-! ## 4. Reading -/

/-- **A value is read as a query exactly if it has the shape of its draft and the query is well formed.**
-/
theorem ofJson_eq_ok_iff : ofJson j = .ok q ↔ Draft.ofJson? j = some q.toDraft ∧ q.WellFormed := by
  unfold ofJson
  cases hd : Draft.ofJson? j with
  | none => simp
  | some d =>
    simp only [Option.some.injEq, ← Draft.finish_eq_ok_iff]
    cases d.finish <;> simp [Except.mapError]

/-- **However a query is written as an object, it is read back.** -/
theorem ofJson_of_holds (hq : q.WellFormed) (h : Holds members q.fields) :
    ofJson (.obj members) = .ok q :=
  ofJson_eq_ok_iff.mpr ⟨draft_of_holds h, hq⟩

/-- **A query survives being written and read**, as a value and as either text of it, and so it does with
additions to what is written: members that are no fields, and `null` for what the query does not have.
Whatever value is read, a query comes of it only if it is well formed. -/
theorem ofJson_toJson_lenient :
    (∀ q : Query, q.WellFormed → ofJson q.toJson = .ok q ∧
      Json.read? q.toJson.compact = some q.toJson ∧ Json.read? q.toJson.pretty = some q.toJson) ∧
    (∀ (q : Query) (members members' : List (String × Json)), q.WellFormed →
      q.toJson = .obj members → Extends fieldNames members members' →
      ofJson (.obj members') = .ok q) ∧
    ∀ (j : Json) (q : Query), ofJson j = .ok q →
      q.start ≤ q.stop ∧ q.days ≤ 366 ∧ (q.grouping.isSome → q.kind = .list) := by
  refine ⟨fun q hq => ⟨ofJson_of_holds hq (holds_of_toJson rfl), ?_, ?_⟩, ?_, fun j q h => ?_⟩
  · exact Json.read?_compact q.isPlain_toJson
  · exact Json.read?_pretty q.isPlain_toJson
  · intro q members members' hq hwritten hext
    exact ofJson_of_holds hq ((holds_of_toJson hwritten).of_extends hext)
  · have hq := (ofJson_eq_ok_iff.mp h).2
    exact ⟨hq.forward, hq.short, hq.grouped⟩

/-- Two days long before the year 0, with the largest id, a name of digits, a member that is no field
and a `null`. -/
theorem ofJson_before_year_zero :
    (Date.clamp (-800000)).year < 0 ∧
    ofJson (.obj [("type", .str "LIST"), ("comment", .arr [.null]),
        ("from", (Date.clamp (-800000)).toJson), ("to", (Date.clamp (-799999)).toJson),
        ("project_selection", .obj [("mode", .str "INCLUDE"),
          ("list", .arr [.int 18446744073709551615, .str "7"])]),
        ("client_selection", .null), ("group_by", .str "DATE")]) =
      .ok { kind := .list, start := .clamp (-800000), stop := .clamp (-799999)
            projects := some ⟨.keep, [.id 18446744073709551615, .name "7"]⟩
            grouping := some .date } := by
  refine ⟨by decide, ofJson_toJson_lenient.2.1 _
    [("type", .str "LIST"), ("from", (Date.clamp (-800000)).toJson),
      ("to", (Date.clamp (-799999)).toJson),
      ("project_selection", .obj [("mode", .str "INCLUDE"),
        ("list", .arr [.int 18446744073709551615, .str "7"])]), ("group_by", .str "DATE")] _
    ⟨by decide, by decide, by decide⟩ rfl ?_⟩
  refine .unknown [_] _ "comment" (.arr [.null]) (by decide) ?_
  exact .null [_, _, _, _] _ "client_selection" (by decide) .refl

end Query

end Timesheet
