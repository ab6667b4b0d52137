import Timesheet.Query.Clause
/-!
# Order, grouping and title

`SORT ASC|DESC`, `GROUP BY DATE|PROJECT|CLIENT`, for lists only, and `TITLE` with a quoted text.
Each may be given once.
-/

namespace Timesheet.Clause

/-- The order of the rows. -/
def sort : Clause where
  heads := [.SORT]
  read d
    | .keyword .SORT :: rest =>
      if d.sort.isSome then .error .duplicateSort
      else
        match rest with
        | .keyword .ASC :: rest => .ok ({ d with sort := some .ascending }, rest)
        | .keyword .DESC :: rest => .ok ({ d with sort := some .descending }, rest)
        | rest => .error (.expected rest.head? [.ASC, .DESC])
    | ts => .error (.expected ts.head? [.SORT])

/-- The grouping of the rows. -/
def grouping : Clause where
  heads := [.GROUP]
  read d
    | .keyword .GROUP :: rest =>
      match rest with
      | .keyword .BY :: rest =>
        if d.grouping.isSome then .error .duplicateGrouping
        else if d.kind ≠ some .list then .error .groupingNeedsList
        else
          match rest with
          | .keyword .DATE :: rest => .ok ({ d with grouping := some .date }, rest)
          | .keyword .PROJECT :: rest => .ok ({ d with grouping := some .project }, rest)
          | .keyword .CLIENT :: rest => .ok ({ d with grouping := some .client }, rest)
          | rest => .error (.expected rest.head? [.DATE, .PROJECT, .CLIENT])
      | rest => .error (.expected rest.head? [.BY])
    | ts => .error (.expected ts.head? [.GROUP])

/-- The title of the report. -/
def title : Clause where
  heads := [.TITLE]
  read d
    | .keyword .TITLE :: rest =>
      match d.title with
      | some earlier => .error (.duplicateTitle earlier)
      | none =>
        match rest with
        | .text s :: rest => .ok ({ d with title := some s }, rest)
        | _ => .error .missingTitle
    | ts => .error (.expected ts.head? [.TITLE])

theorem consumes_sort : sort.Consumes := by
  intro d d' ts rest h
  simp only [sort] at h
  repeat' split at h
  all_goals try (simp at h; done)
  all_goals
    obtain ⟨-, rfl⟩ := Prod.mk.inj (Except.ok.inj h)
    exact ⟨_, [_], rfl⟩

theorem consumes_grouping : grouping.Consumes := by
  intro d d' ts rest h
  simp only [grouping] at h
  repeat' split at h
  all_goals try (simp at h; done)
  all_goals
    obtain ⟨-, rfl⟩ := Prod.mk.inj (Except.ok.inj h)
    exact ⟨_, [_, _], rfl⟩

theorem consumes_title : title.Consumes := by
  intro d d' ts rest h
  simp only [title] at h
  repeat' split at h
  all_goals try (simp at h; done)
  all_goals
    obtain ⟨-, rfl⟩ := Prod.mk.inj (Except.ok.inj h)
    exact ⟨_, [_], rfl⟩

end Timesheet.Clause
