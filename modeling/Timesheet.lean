import Timesheet.Main
import Timesheet.Retrieval.Concurrent
import Timesheet.Retrieval.Queue
import Timesheet.Proofs.Coverage.Batches
import Timesheet.Proofs.Query.RoundTrip
import Timesheet.Proofs.Retrieval.Economy
import Timesheet.Proofs.Retrieval.Transparency
import Timesheet.Proofs.Retrieval.Uninterrupted
import Timesheet.Proofs.Pacing.Timetable
import Timesheet.Proofs.Pacing.Service
import Timesheet.Proofs.Pacing.Runs
import Timesheet.Proofs.Pacing.Schedule
import Timesheet.Proofs.Pacing.Isolation
import Timesheet.Proofs.Query.Normal
import Timesheet.Proofs.Coverage.Pieces
import Timesheet.Proofs.Query.Json
import Timesheet.Proofs.Retrieval.DateOrder
import Timesheet.Proofs.Calendar.Months
import Timesheet.Proofs.Calendar.Weeks
import Timesheet.Proofs.Query.Past
import Timesheet.Proofs.Query.ClauseOrder
import Timesheet.Proofs.Report.Headings
import Timesheet.Proofs.Query.Separators
import Timesheet.Proofs.Query.Displayed
import Timesheet.Proofs.Query.Cutting
import Timesheet.Proofs.Query.Progress
import Timesheet.Proofs.Retrieval.Narrowing
import Timesheet.Proofs.Retrieval.Halves
import Timesheet.Proofs.Report.Partition
import Timesheet.Proofs.Report.Totals
import Timesheet.Proofs.Retrieval.Lookup
import Timesheet.Proofs.Retrieval.Names
import Timesheet.Proofs.Retrieval.Paging
