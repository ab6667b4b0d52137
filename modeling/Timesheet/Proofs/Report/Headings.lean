import Mathlib.Algebra.Order.BigOperators.Group.List
import Timesheet.Proofs.Report.Groups
import Timesheet.Report.Json
/-!
# Headings

A grouped list shows each group under a heading, and as an object it has the same groups with what their
headings say (`headings?_toJson`).  In the text a group whose key is empty is taken for rows that are not
grouped: its rows stand without a heading and are not indented.  Such a key comes from a project or a client
without a name; a date always has a text.

So the text is that of the groups under their headings exactly if no row has an empty key
(`text_eq_groupedText_iff`).  If one has, the text is shorter by the heading, at least.
-/

namespace Timesheet.Report

/-! ## 1. Groups under their headings -/

/-- What the heading of a group says: its key and its seconds. -/
def Group.heading (g : Group) : String × Int := (g.key, (totalSeconds g.rows).toInt)

/-- The line of a heading. -/
def headingLine (heading : String × Int) : String :=
  heading.1 ++ "  (" ++ durationText heading.2 ++ ")"

/-- The lines of a group under its heading, its rows indented. -/
def titledLines (d : Directory) (g : Group) : List String :=
  headingLine g.heading :: g.rows.map fun r => "  " ++ rowLine d r

/-- The report as text, with all groups under their headings. -/
def groupedText (q : Query) (d : Directory) (rows : List Row) : String :=
  String.join (([title q, ""] ++ (groups q d rows).flatMap (titledLines d)
    ++ ["", "Total: " ++ durationText (totalSeconds rows).toInt]).map (· ++ "\n"))

/-- The heading that the object of a group gives. -/
def headingOf? (j : Json) : Option (String × Int) := do
  let [some (.str key), some (.int seconds)] ← j.fields? ["key", "seconds"] | none
  return (key, seconds)

/-- The headings that the object of a report gives for its groups, in order. -/
def headings? (j : Json) : Option (List (String × Int)) := do
  let [some groups] ← j.fields? ["groups"] | none
  Json.list? headingOf? groups

variable {q : Query} {rows : List Row}

/-! ## 2. Headings in the object -/

theorem headingOf?_groupJson (d : Directory) (g : Group) :
    headingOf? (groupJson d g) = some g.heading := rfl

theorem headings?_toJson (hkind : q.kind = .list) (hgrouping : q.grouping.isSome) (d : Directory)
    (rows : List Row) :
    headings? (toJson q d rows) = some ((groups q d rows).map Group.heading) := by
  have hfields : (toJson q d rows).fields? ["groups"] =
      some [some (.arr ((groups q d rows).map (groupJson d)))] := by
    simp only [toJson, hkind, hgrouping, and_self, if_true]
    rfl
  have hread : headingOf? ∘ groupJson d = fun g => pure g.heading := funext (headingOf?_groupJson d)
  simp only [headings?, hfields, Option.bind_eq_bind, Option.bind_some, Json.list?]
  rw [List.mapM_map, hread, List.mapM_pure]
  rfl

/-! ## 3. Headings in the text -/

theorem groupLines_of_ne {g : Group} (d : Directory) (h : g.key ≠ "") :
    groupLines d g = titledLines d g := by
  rw [groupLines, if_neg (by simpa using h)]
  rfl

/-- The characters of lines. -/
def printed (lines : List String) : List Char := lines.flatMap fun line => line.toList ++ ['\n']

theorem toList_join_lines (lines : List String) :
    (String.join (lines.map (· ++ "\n"))).toList = printed lines := by
  rw [String.toList_join, List.flatMap_map, printed]
  simp

theorem printed_append (lines lines' : List String) :
    printed (lines ++ lines') = printed lines ++ printed lines' := List.flatMap_append

theorem printed_flatMap {α : Type} (f : α → List String) (l : List α) :
    printed (l.flatMap f) = l.flatMap fun a => printed (f a) := List.flatMap_assoc

/-- Without its heading a group is shorter, since its rows are not the longer for standing without
indentation. -/
theorem length_printed_groupLines_lt {g : Group} (d : Directory) (h : g.key = "") :
    (printed (groupLines d g)).length < (printed (titledLines d g)).length := by
  have hrows : (printed (g.rows.map (rowLine d))).length ≤
      (printed (g.rows.map fun r => "  " ++ rowLine d r)).length := by
    simp only [printed, List.flatMap_map, List.length_flatMap]
    refine List.sum_le_sum fun r _ => ?_
    simp
  have hlines : groupLines d g = g.rows.map (rowLine d) := if_pos (by simp [h])
  have htitled : titledLines d g =
      [headingLine g.heading] ++ g.rows.map fun r => "  " ++ rowLine d r := rfl
  have hheading : 0 < (printed [headingLine g.heading]).length := by simp [printed]
  rw [hlines, htitled, printed_append, List.length_append]
  omega

/-- **The lines of groups are those under headings exactly if no key is empty**, as far as their characters
go. -/
theorem printed_groupLines_eq_iff (d : Directory) (gs : List Group) :
    printed (gs.flatMap (groupLines d)) = printed (gs.flatMap (titledLines d)) ↔
      ∀ g ∈ gs, g.key ≠ "" := by
  constructor
  · intro h g hg hkey
    have hle : ∀ g' ∈ gs, (printed (groupLines d g')).length ≤ (printed (titledLines d g')).length := by
      intro g' _
      by_cases hkey' : g'.key = ""
      · exact Nat.le_of_lt (length_printed_groupLines_lt d hkey')
      · rw [groupLines_of_ne d hkey']
    have hlt := List.sum_lt_sum _ _ hle ⟨g, hg, length_printed_groupLines_lt d hkey⟩
    have hlength := congrArg List.length h
    rw [printed_flatMap, printed_flatMap, List.length_flatMap, List.length_flatMap] at hlength
    omega
  · intro h
    rw [List.flatMap_congr fun g hg => groupLines_of_ne d (h g hg)]

theorem text_ne_empty (date : Date) : date.text ≠ "" := by
  intro h
  have hchars := congrArg String.toList h
  simp [Date.text, Date.chars] at hchars

/-- **The text of a grouped list has each group under its heading exactly if no row has an empty key**, as
is always so with dates; and the headings are those of the groups in the object, one for one and in the same
order. -/
theorem text_eq_groupedText_iff (hkind : q.kind = .list) {grouping : Grouping}
    (hgrouping : q.grouping = some grouping) (d : Directory) (hrows : rows ≠ []) :
    headings? (toJson q d rows) = some ((groups q d rows).map Group.heading) ∧
    (text q d rows = groupedText q d rows ↔ ∀ r ∈ rows, groupKey grouping d r ≠ "") ∧
    (grouping = .date → text q d rows = groupedText q d rows) := by
  have hiff : text q d rows = groupedText q d rows ↔ ∀ r ∈ rows, groupKey grouping d r ≠ "" := by
    have hlines : lines q d rows = [title q, ""] ++ (groups q d rows).flatMap (groupLines d) ++
        ["", "Total: " ++ durationText (totalSeconds rows).toInt] := by
      rw [lines, if_neg (by simpa using hrows), bodyLines, hkind]
    have hgroups : groups q d rows = groupBy (groupKey grouping d) rows := by
      rw [groups, hgrouping]
    rw [← String.toList_inj, text, groupedText, toList_join_lines, toList_join_lines, hlines]
    simp only [printed_append, List.append_cancel_right_eq, List.append_cancel_left_eq,
      printed_groupLines_eq_iff, hgroups]
    have hempty := exists_mem_groupBy_iff (groupKey grouping d) rows (P := (· = ""))
    simpa using not_congr hempty
  refine ⟨headings?_toJson hkind (by rw [hgrouping]; rfl) d rows, hiff, ?_⟩
  rintro rfl
  exact hiff.mpr fun r _ => text_ne_empty r.date

/-- A row of one minute on the first day of 2020. -/
def minuteRow (project : Option UInt64) (description : String) : Row :=
  let start : Timestamp := ⟨.clamp 737425, 9, 0, 0, 0, 0⟩
  { user := 7, project, description, tags := [], entries := [⟨1, 60, start, start, start⟩], number := 1 }

/-- A list of that day, grouped by project. -/
def byProject : Query :=
  { kind := .list, start := .clamp 737425, stop := .clamp 737425, grouping := some .project }

/-- A project with a name has its heading. -/
theorem named_project_has_heading :
    text byProject ⟨[⟨1, "Site", none⟩], [], []⟩ [minuteRow (some 1) "Call", minuteRow none "Walk"] =
      groupedText byProject ⟨[⟨1, "Site", none⟩], [], []⟩
        [minuteRow (some 1) "Call", minuteRow none "Walk"] :=
  (text_eq_groupedText_iff rfl rfl _ (by simp)).2.1.mpr (by decide)

/-- A project without a name has no heading in the text, and one in the object. -/
theorem unnamed_project_has_no_heading :
    let d : Directory := ⟨[⟨1, "", none⟩], [], []⟩
    let rows := [minuteRow (some 1) "Call", minuteRow none "Walk"]
    text byProject d rows = "Time entries 2020-01-01 to 2020-01-01\n\n" ++
        "2020-01-01    0:01:00    Call\n" ++
        "(no project)  (0:01:00)\n  2020-01-01    0:01:00  (no project)  Walk\n\nTotal: 0:02:00\n" ∧
      groupedText byProject d rows = "Time entries 2020-01-01 to 2020-01-01\n\n" ++
        "  (0:01:00)\n  2020-01-01    0:01:00    Call\n" ++
        "(no project)  (0:01:00)\n  2020-01-01    0:01:00  (no project)  Walk\n\nTotal: 0:02:00\n" ∧
      headings? (toJson byProject d rows) = some [("", 60), ("(no project)", 60)] := by
  decide +kernel

end Timesheet.Report
