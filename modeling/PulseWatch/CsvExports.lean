import Mathlib.Data.Prod.Lex
import PulseWatch.AlertExport
import PulseWatch.LogExport
import PulseWatch.Lib.Csv
import PulseWatch.Lib.PgText

/-!
# The text of the CSV exports (`app/utils/csv_export.py`)

`stream_csv` writes a header and one line for each dictionary it is handed. Six
generators make the dictionaries, each with the header it is written under. What is
streamed is one text; the tests of the exports read it with `csv.reader`. The SELECT runs
behind the header: where its parameters are refused, the file breaks off there.
-/

namespace PulseWatch.CsvExports
open PyDatetime OrderBy Exports LogExport Csv

/-! ### `stream_csv` -/

inductive Value where
  | none
  | str (s : String)
  | int (n : ℤ)
  | float (x : PyFloat)
  deriving DecidableEq, Repr

abbrev Dict := List (String × Value)

/- What the standard library prints: a float, a datetime column, the date of a bound. -/
structure Printer where
  str : PyFloat.Str
  isoformat : Instant → String
  date : Datetime → String

/- A cell as the writer prints it. -/
def Value.text (py : Printer) : Value → String
  | .none => ""
  | .str s => s
  | .int n => toString n
  | .float x => py.str.toString x

/-- `DictWriter._dict_to_list`; `ValueError` names the keys that are no fields. -/
def dictToList (fieldnames : List String) (row : Dict) : Except (List String) (List Value) :=
  let wrong := (row.map Prod.fst).filter fun key => !fieldnames.contains key
  if wrong = [] then .ok (fieldnames.map fun key => (row.lookup key).getD (.str ""))
  else .error wrong

/- Keys that are no fields, or a parameter that the driver or PostgreSQL refuses. -/
inductive StreamError where
  | fieldnames (wrong : List String)
  | statement
  deriving DecidableEq, Repr

/- The chunks of a response, and the exception that ended it. -/
structure Body where
  chunks : List String
  raised : Option StreamError
  deriving DecidableEq, Repr

section
variable (py : Printer) (header : List String)

/-- `generate`: every row is written by a `DictWriter` of its own. -/
def generate : List Dict → Body
  | [] => ⟨[], none⟩
  | row :: rows =>
    match dictToList header row with
    | .error wrong => ⟨[], some (.fieldnames wrong)⟩
    | .ok values =>
      let rest := generate rows
      ⟨writerow .excel (values.map (Value.text py)) :: rest.chunks, rest.raised⟩

/-- `writeheader`. -/
def headerRow : Dict := header.map fun name => (name, .str name)

/- `none` is a generator that raises before its first row. -/
def streamCsv : Option (List Dict) → Body
  | some rows => generate py header (headerRow header :: rows)
  | none => { generate py header [headerRow header] with raised := some .statement }

end

/-! ### The generators -/

/- A generator of rows under its header. -/
structure Sheet (R : Type) where
  header : List String
  dict : Printer → R → Dict
  keys : ∀ py r, (dict py r).map Prod.fst = header
  distinct : header.Nodup

/-- `_SYSTEM_RAW_HEADER`. -/
def systemRawHeader : List String :=
  ["collected_at", "cpu_percent", "memory_percent", "disk_percent"]

/-- `_SYSTEM_AGG_HEADER`. -/
def systemAggHeader : List String :=
  ["period_start", "period_end", "avg_cpu", "min_cpu", "max_cpu", "avg_memory", "min_memory",
    "max_memory", "avg_disk", "min_disk", "max_disk", "sample_count"]

/-- `_DOCKER_RAW_HEADER`. -/
def dockerRawHeader : List String :=
  ["collected_at", "container_name", "cpu_percent", "memory_usage_mb", "memory_limit_mb"]

/-- `_DOCKER_AGG_HEADER`. -/
def dockerAggHeader : List String :=
  ["period_start", "period_end", "container_name", "avg_cpu", "min_cpu", "max_cpu",
    "avg_memory_usage", "max_memory_usage", "total_rx_bytes", "total_tx_bytes", "sample_count"]

def logsHeader : List String := ["id", "created_at", "message"]

def alertEventsHeader : List String :=
  ["id", "server_id", "server_name", "rule_id", "rule_name", "container_name", "metric_value",
    "threshold_value", "status", "created_at", "resolved_at", "message"]

/-- `_stream_system_raw`. -/
def systemRawDict (py : Printer) (m : Metric PyFloat) : Dict :=
  [("collected_at", .str (py.isoformat m.collectedAt)), ("cpu_percent", .float m.cpuPercent),
    ("memory_percent", .float m.memoryPercent), ("disk_percent", .float m.diskPercent)]

/-- `_stream_system_agg`. -/
def systemAggDict (py : Printer) (a : MetricAggregate PyFloat) : Dict :=
  [("period_start", .str (py.isoformat a.periodStart)),
    ("period_end", .str (py.isoformat a.periodEnd)),
    ("avg_cpu", .float a.avgCpu), ("min_cpu", .float a.minCpu), ("max_cpu", .float a.maxCpu),
    ("avg_memory", .float a.avgMemory), ("min_memory", .float a.minMemory),
    ("max_memory", .float a.maxMemory), ("avg_disk", .float a.avgDisk),
    ("min_disk", .float a.minDisk), ("max_disk", .float a.maxDisk),
    ("sample_count", .int a.sampleCount)]

/-- `_stream_docker_raw`. -/
def dockerRawDict (py : Printer) (m : DockerMetric PyFloat) : Dict :=
  [("collected_at", .str (py.isoformat m.collectedAt)), ("container_name", .str m.containerName),
    ("cpu_percent", .float m.cpuPercent), ("memory_usage_mb", .float m.memoryUsageMb),
    ("memory_limit_mb", (m.memoryLimitMb.map .float).getD .none)]

/-- `_stream_docker_agg`. -/
def dockerAggDict (py : Printer) (a : DockerAggregate PyFloat) : Dict :=
  [("period_start", .str (py.isoformat a.periodStart)),
    ("period_end", .str (py.isoformat a.periodEnd)), ("container_name", .str a.containerName.1),
    ("avg_cpu", .float a.avgCpu), ("min_cpu", .float a.minCpu), ("max_cpu", .float a.maxCpu),
    ("avg_memory_usage", .float a.avgMemoryUsage), ("max_memory_usage", .float a.maxMemoryUsage),
    ("total_rx_bytes", .int a.totalRxBytes), ("total_tx_bytes", .int a.totalTxBytes),
    ("sample_count", .int a.sampleCount)]

def logsDict (py : Printer) (r : LogRow) : Dict :=
  [("id", .int r.id), ("created_at", .str (py.isoformat r.createdAt)),
    ("message", .str r.line.message)]

def alertEventsDict (py : Printer) (r : AlertExport.CsvRow) : Dict :=
  [("id", .int r.id), ("server_id", .int r.serverId), ("server_name", .str r.serverName),
    ("rule_id", .int r.ruleId), ("rule_name", .str r.ruleName),
    ("container_name", .str r.containerName), ("metric_value", .float r.metricValue),
    ("threshold_value", .float r.thresholdValue), ("status", .str r.status),
    ("created_at", .str (py.isoformat r.createdAt)),
    ("resolved_at", .str ((r.resolvedAt.map py.isoformat).getD "")), ("message", .str r.message)]

theorem systemRawHeader_distinct : systemRawHeader.Nodup := by decide
theorem systemAggHeader_distinct : systemAggHeader.Nodup := by decide
theorem dockerRawHeader_distinct : dockerRawHeader.Nodup := by decide
theorem dockerAggHeader_distinct : dockerAggHeader.Nodup := by decide
theorem logsHeader_distinct : logsHeader.Nodup := by decide
theorem alertEventsHeader_distinct : alertEventsHeader.Nodup := by decide

def systemRaw : Sheet (Metric PyFloat) :=
  ⟨systemRawHeader, systemRawDict, fun _ _ => rfl, systemRawHeader_distinct⟩

def systemAgg : Sheet (MetricAggregate PyFloat) :=
  ⟨systemAggHeader, systemAggDict, fun _ _ => rfl, systemAggHeader_distinct⟩

def dockerRaw : Sheet (DockerMetric PyFloat) :=
  ⟨dockerRawHeader, dockerRawDict, fun _ _ => rfl, dockerRawHeader_distinct⟩

def dockerAgg : Sheet (DockerAggregate PyFloat) :=
  ⟨dockerAggHeader, dockerAggDict, fun _ _ => rfl, dockerAggHeader_distinct⟩

def logEntries : Sheet LogRow := ⟨logsHeader, logsDict, fun _ _ => rfl, logsHeader_distinct⟩

def alertEvents : Sheet AlertExport.CsvRow :=
  ⟨alertEventsHeader, alertEventsDict, fun _ _ => rfl, alertEventsHeader_distinct⟩

/-! ### The handlers -/

structure Tables where
  metrics : List (Metric PyFloat)
  metricAggregates : List (MetricAggregate PyFloat)
  dockerMetrics : List (DockerMetric PyFloat)
  dockerAggregates : List (DockerAggregate PyFloat)
  logs : List LogRow

section
variable {κ : Type} [LinearOrder κ] (collate : String → κ)

/-- `order_by(period_start, container_name)`. -/
def periodAndName (a : DockerAggregate PyFloat) : Instant ×ₗ κ :=
  toLex (a.periodStart, collate a.containerName.1)

/- The orders the database gives ties. -/
structure Sorters where
  metrics : Sorter (@Metric.collectedAt PyFloat)
  metricAggregates : Sorter fun a : MetricAggregate PyFloat => a.periodStart
  dockerMetrics : Sorter (@DockerMetric.collectedAt PyFloat)
  dockerAggregates : Sorter (periodAndName collate)
  logs : Sorter LogRow.createdAt

end

inductive Request where
  | systemMetrics (start stop : Datetime) (granularity : Granularity)
  | dockerMetrics (start stop : Datetime) (granularity : Granularity)
    (containerName : Option String)
  | logs (start stop : Option Datetime)

/- `refused` is what Exports answers without a file. -/
inductive Response where
  | refused (answer : Answer)
  | file (name : String) (body : Body)

def Request.containerName : Request → Option String
  | .dockerMetrics _ _ _ name => name
  | _ => none

/- The bounds as the handler has them when it names the file. -/
def Request.bounds (now : {t : ℤ // InRange t}) : Request → Except Fault (Datetime × Datetime)
  | .systemMetrics start stop g => validateExportRange start stop g
  | .dockerMetrics start stop g _ => validateExportRange start stop g
  | .logs start stop =>
    defaultedWindow (days 1) (days 7) "Период не должен превышать 7 дней" now start stop

def Request.answer (driver : Driver) (owned : Bool) (now : {t : ℤ // InRange t}) :
    Request → Answer
  | .systemMetrics start stop g => exportSystemMetrics driver owned start stop g
  | .dockerMetrics start stop g _ => exportDockerMetrics driver owned start stop g
  | .logs start stop => exportLogs driver owned now start stop

/-- `_granularity_to_period`, and the branch on `raw` before it. -/
def periodOf : Granularity → Option PeriodType
  | .raw => none
  | .fivemin => some .fivemin
  | .hourly => some .hourly
  | .daily => some .daily

def Sheet.body {R : Type} (sheet : Sheet R) (py : Printer) (rows : Option (List R)) : Body :=
  streamCsv py sheet.header (rows.map (List.map (sheet.dict py)))

section
variable (t : Tables) (serverId : ℕ) (first last : Instant) (containerName : Option String)

def metricRows : List (Metric PyFloat) :=
  t.metrics.filter fun m => m.serverId = serverId ∧ first ≤ m.collectedAt ∧ m.collectedAt ≤ last

def metricAggregateRows (period : PeriodType) : List (MetricAggregate PyFloat) :=
  t.metricAggregates.filter fun a =>
    a.serverId = serverId ∧ a.periodType = period ∧ first ≤ a.periodStart ∧ a.periodStart ≤ last

def dockerMetricRows : List (DockerMetric PyFloat) :=
  t.dockerMetrics.filter fun m =>
    m.serverId = serverId ∧ first ≤ m.collectedAt ∧ m.collectedAt ≤ last ∧
      containerName.all (· = m.containerName) = true

def dockerAggregateRows (period : PeriodType) : List (DockerAggregate PyFloat) :=
  t.dockerAggregates.filter fun a =>
    a.serverId = serverId ∧ a.periodType = period ∧ first ≤ a.periodStart ∧ a.periodStart ≤ last ∧
      containerName.all (· = a.containerName.1) = true

end

section
variable {κ : Type} [LinearOrder κ] {collate : String → κ} (py : Printer)
  (sorters : Sorters collate) (t : Tables) (serverId : ℕ)

/- The parameters of the SELECT as PostgreSQL gets them. -/
def Request.parameters (driver : Driver) (start stop : Datetime) (r : Request) :
    Option (Instant × Instant × Option String) :=
  match driver.bind start, driver.bind stop, r.containerName.mapM PgText.text with
  | some first, some last, some name => some (first, last, name)
  | _, _, _ => none

def Request.body (driver : Driver) (start stop : Datetime) (r : Request) : Body :=
  let parameters := r.parameters driver start stop
  match r with
  | .systemMetrics _ _ g =>
    match periodOf g with
    | none => systemRaw.body py (parameters.map fun (first, last, _) =>
        sorters.metrics.sort (metricRows t serverId first last))
    | some period => systemAgg.body py (parameters.map fun (first, last, _) =>
        sorters.metricAggregates.sort (metricAggregateRows t serverId first last period))
  | .dockerMetrics _ _ g _ =>
    match periodOf g with
    | none => dockerRaw.body py (parameters.map fun (first, last, name) =>
        sorters.dockerMetrics.sort (dockerMetricRows t serverId first last name))
    | some period => dockerAgg.body py (parameters.map fun (first, last, name) =>
        sorters.dockerAggregates.sort (dockerAggregateRows t serverId first last name period))
  | .logs _ _ => logEntries.body py (parameters.map fun (first, last, _) =>
      sorters.logs.sort (selected serverId first last t.logs))

def Request.filename (start stop : Datetime) : Request → String
  | .systemMetrics _ _ g =>
    s!"server-{serverId}-system-{g.value}-{py.date start}-{py.date stop}.csv"
  | .dockerMetrics _ _ g _ =>
    s!"server-{serverId}-docker-{g.value}-{py.date start}-{py.date stop}.csv"
  | .logs _ _ => s!"server-{serverId}-logs-{py.date start}-{py.date stop}.csv"

def respond (driver : Driver) (owned : Bool) (now : {t : ℤ // InRange t}) (r : Request) :
    Response :=
  match owned, r.bounds now with
  | true, .ok (start, stop) =>
    .file (r.filename py serverId start stop) (r.body py sorters t serverId driver start stop)
  | _, _ => .refused (r.answer driver owned now)

end

/-! ### Reading the file -/

/- The cells of a row as they are printed. -/
def Sheet.cells {R : Type} (sheet : Sheet R) (py : Printer) (r : R) : List String :=
  (sheet.dict py r).map fun p => p.2.text py

/- Read as CSV, the body is the header and one record for each of the rows, in an order
the query may give; a reader that bounds the length of a field may refuse it, for a longer
cell only. -/
def ReadsBack {R κ : Type} [LinearOrder κ] (py : Printer) (sheet : Sheet R) (key : R → κ)
    (rows : List R) (body : Body) : Prop :=
  body.raised = none ∧ ∃ result, Ordered key rows result ∧
    ∀ limit, reader .excel limit (String.join body.chunks) =
      if (sheet.header :: result.map (sheet.cells py)).all fun record =>
        record.all fun cell => cell.length ≤ limit
      then .ok (sheet.header :: result.map (sheet.cells py))
      else .error .fieldLimit

section
variable {py : Printer} {R κ : Type}

theorem lookup_keys {header : List String} {row : Dict} (hkeys : row.map Prod.fst = header)
    (hdistinct : header.Nodup) :
    (header.map fun key => (row.lookup key).getD (.str "")) = row.map Prod.snd := by
  subst hkeys
  induction row with
  | nil => rfl
  | cons p row ih =>
    obtain ⟨hp, hrest⟩ := List.nodup_cons.mp hdistinct
    have htail : ∀ key ∈ row.map Prod.fst, (List.lookup key (p :: row)) = row.lookup key := by
      intro key hkey
      have hne : (key == p.1) = false := by
        rw [beq_eq_false_iff_ne]
        rintro rfl
        exact hp hkey
      rw [List.lookup_cons, hne]
    rw [List.map_cons, List.map_cons, List.map_cons, List.lookup_cons_self, ← ih hrest]
    congr 1
    exact List.map_congr_left fun key hkey => by rw [htail key hkey]

theorem dictToList_keys {header : List String} {row : Dict}
    (hkeys : row.map Prod.fst = header) (hdistinct : header.Nodup) :
    dictToList header row = .ok (row.map Prod.snd) := by
  have hwrong : ((row.map Prod.fst).filter fun key => !header.contains key) = [] := by
    rw [List.filter_eq_nil_iff]
    intro key hkey
    simp [← hkeys, hkey]
  rw [dictToList, hwrong, ← lookup_keys hkeys hdistinct]
  rfl

theorem generate_rows {header : List String} {rows : List Dict} (hdistinct : header.Nodup)
    (hkeys : ∀ row ∈ rows, row.map Prod.fst = header) :
    generate py header rows =
      ⟨rows.map fun row => writerow .excel (row.map fun p => p.2.text py), none⟩ := by
  induction rows with
  | nil => rfl
  | cons row rows ih =>
    rw [generate, dictToList_keys (hkeys row List.mem_cons_self) hdistinct,
      ih fun row hrow => hkeys row (List.mem_cons_of_mem _ hrow)]
    simp [List.map_map, Function.comp_def]

theorem headerRow_keys (header : List String) : (headerRow header).map Prod.fst = header := by
  simp [headerRow, List.map_map, Function.comp_def]

theorem headerRow_text (header : List String) :
    (headerRow header).map (fun p => p.2.text py) = header := by
  simp [headerRow, List.map_map, Function.comp_def, Value.text]

theorem Sheet.body_eq (sheet : Sheet R) (py : Printer) (rows : List R) :
    sheet.body py (some rows) =
      ⟨(sheet.header :: rows.map (sheet.cells py)).map (writerow .excel), none⟩ := by
  rw [Sheet.body, Option.map_some, streamCsv, generate_rows sheet.distinct]
  · rw [List.map_cons, headerRow_text, List.map_cons, List.map_map, List.map_map]
    rfl
  · intro row hrow
    rcases List.mem_cons.mp hrow with rfl | hrow
    · exact headerRow_keys sheet.header
    · obtain ⟨r, -, rfl⟩ := List.mem_map.mp hrow
      exact sheet.keys py r

/- Behind a refused SELECT there is the header and nothing else. -/
theorem Sheet.body_refused (sheet : Sheet R) (py : Printer) :
    sheet.body py none = ⟨[writerow .excel sheet.header], some .statement⟩ := by
  rw [Sheet.body, Option.map_none, streamCsv, generate_rows sheet.distinct]
  · rw [List.map_cons, headerRow_text, List.map_nil]
  · intro row hrow
    rw [List.mem_singleton.mp hrow]
    exact headerRow_keys sheet.header

theorem Sheet.reads_back [LinearOrder κ] (sheet : Sheet R) {key : R → κ} {rows result : List R}
    (h : Ordered key rows result) : ReadsBack py sheet key rows (sheet.body py (some result)) := by
  rw [Sheet.body_eq]
  exact ⟨rfl, result, h, fun limit => reader_writerow _⟩

end

section
variable {κ : Type} [LinearOrder κ] (collate : String → κ) (py : Printer) (t : Tables)
  (serverId : ℕ)

/- What the file of a request is to be read as. -/
def Request.Reads (first last : Instant) (body : Body) : Request → Prop
  | .systemMetrics _ _ g =>
    match periodOf g with
    | none => ReadsBack py systemRaw Metric.collectedAt (metricRows t serverId first last) body
    | some period => ReadsBack py systemAgg (fun a => a.periodStart)
        (metricAggregateRows t serverId first last period) body
  | .dockerMetrics _ _ g name =>
    match periodOf g with
    | none => ReadsBack py dockerRaw DockerMetric.collectedAt
        (dockerMetricRows t serverId first last name) body
    | some period => ReadsBack py dockerAgg (periodAndName collate)
        (dockerAggregateRows t serverId first last name period) body
  | .logs _ _ => ReadsBack py logEntries LogRow.createdAt (selected serverId first last t.logs) body

variable {collate}

theorem Request.body_reads (sorters : Sorters collate) {driver : Driver} {start stop : Datetime}
    {first last : Instant} {r : Request}
    (h : r.parameters driver start stop = some (first, last, r.containerName)) :
    r.Reads collate py t serverId first last (r.body py sorters t serverId driver start stop) := by
  unfold Request.Reads Request.body
  rw [h]
  cases r with
  | systemMetrics start stop g =>
    dsimp only
    cases periodOf g with
    | none => exact systemRaw.reads_back (sorters.metrics.ordered _)
    | some period => exact systemAgg.reads_back (sorters.metricAggregates.ordered _)
  | dockerMetrics start stop g name =>
    dsimp only
    cases periodOf g with
    | none => exact dockerRaw.reads_back (sorters.dockerMetrics.ordered _)
    | some period => exact dockerAgg.reads_back (sorters.dockerAggregates.ordered _)
  | logs start stop => exact logEntries.reads_back (sorters.logs.ordered _)

/- The file ends behind its header. -/
def BreaksOff (body : Body) : Prop :=
  ∃ header, body = ⟨[writerow .excel header], some .statement⟩

theorem Request.body_refused (sorters : Sorters collate) {driver : Driver}
    {start stop : Datetime} {r : Request} (h : r.parameters driver start stop = none) :
    BreaksOff (r.body py sorters t serverId driver start stop) := by
  unfold Request.body
  rw [h]
  cases r with
  | systemMetrics start stop g =>
    dsimp only
    cases periodOf g with
    | none => exact ⟨_, systemRaw.body_refused py⟩
    | some period => exact ⟨_, systemAgg.body_refused py⟩
  | dockerMetrics start stop g name =>
    dsimp only
    cases periodOf g with
    | none => exact ⟨_, dockerRaw.body_refused py⟩
    | some period => exact ⟨_, dockerAgg.body_refused py⟩
  | logs start stop => exact ⟨_, logEntries.body_refused py⟩

end

/- Both bounds are taken by the driver, and no NUL is asked for. -/
def Request.Taken (driver : Driver) (start stop : Datetime) (first last : Instant)
    (r : Request) : Prop :=
  driver.bind start = some first ∧ driver.bind stop = some last ∧
    ∀ name, r.containerName = some name → '\x00' ∉ name.toList

theorem Request.parameters_taken {driver : Driver} {start stop : Datetime} {first last : Instant}
    {r : Request} (h : r.Taken driver start stop first last) :
    r.parameters driver start stop = some (first, last, r.containerName) := by
  obtain ⟨hfirst, hlast, hname⟩ := h
  have htext : r.containerName.mapM PgText.text = some r.containerName := by
    cases hc : r.containerName with
    | none => rfl
    | some name =>
      show (PgText.text name).map some = some (some name)
      rw [PgText.text, if_neg (hname name hc)]
      rfl
  rw [Request.parameters, hfirst, hlast, htext]

theorem Request.parameters_refused {driver : Driver} {start stop : Datetime} {r : Request}
    (h : ∀ first last, ¬ r.Taken driver start stop first last) :
    r.parameters driver start stop = none := by
  unfold Request.parameters
  split
  · next first last name hfirst hlast htext =>
    refine absurd ⟨hfirst, hlast, fun n hn hnul => ?_⟩ (h first last)
    have hrefused : (PgText.text n).map some = some name := by
      rw [hn] at htext
      exact htext
    rw [PgText.text, if_pos hnul] at hrefused
    cases hrefused
  · rfl

/-- A window that is accepted is answered with a file. Where the database takes the
parameters, `csv.reader` reads it as the header and the rows of the window, whatever the
names and the messages hold; elsewhere the file breaks off behind its header. -/
theorem export_reads_back {κ : Type} [LinearOrder κ] {collate : String → κ} (py : Printer)
    (sorters : Sorters collate) (t : Tables) (serverId : ℕ) (driver : Driver)
    {now : {t : ℤ // InRange t}} {r : Request} {start stop : Datetime}
    (h : r.bounds now = .ok (start, stop)) :
    ∃ name body, respond py sorters t serverId driver true now r = .file name body ∧
      (∀ first last, r.Taken driver start stop first last →
        r.Reads collate py t serverId first last body) ∧
      ((∀ first last, ¬ r.Taken driver start stop first last) → BreaksOff body) := by
  refine ⟨r.filename py serverId start stop, r.body py sorters t serverId driver start stop, ?_,
    ?_, ?_⟩
  · simp only [respond, h]
  · exact fun first last htaken => r.body_reads py t serverId sorters (r.parameters_taken htaken)
  · exact fun hrefused => r.body_refused py t serverId sorters (r.parameters_refused hrefused)

/- Texts that do for the printer of an example. -/
def plainPrinter : Printer where
  str := { toString := fun _ => "0.5", short := by simp, plain := by simp }
  isoformat _ := "2026-05-01T00:00:00+00:00"
  date _ := "2026-05-01"

def plainSorters : Sorters String.length where
  metrics := mergeSorter _
  metricAggregates := mergeSorter _
  dockerMetrics := mergeSorter _
  dockerAggregates := mergeSorter _
  logs := mergeSorter _

/- A line with a comma, quotes and an end of line in it. -/
def quotedLine : LogRow := ⟨4, 1777593600000000, ⟨0, 7, "failed, \"disk\"\nfull"⟩⟩

theorem quoted_line_reads_back : ∃ name body,
    respond plainPrinter plainSorters ⟨[], [], [], [], [quotedLine]⟩ 7 utcDriver true epoch
      (.logs (some mayUtc) (some mayUtc)) = .file name body ∧
    (Request.logs (some mayUtc) (some mayUtc)).Reads String.length plainPrinter
      ⟨[], [], [], [], [quotedLine]⟩ 7 1777593600000000 1777593600000000 body := by
  have hbounds : (Request.logs (some mayUtc) (some mayUtc)).bounds epoch =
      .ok (mayUtc, mayUtc) := rfl
  obtain ⟨name, body, hfile, hreads, -⟩ := export_reads_back plainPrinter plainSorters
    ⟨[], [], [], [], [quotedLine]⟩ 7 utcDriver hbounds
  refine ⟨name, body, hfile, hreads _ _ ⟨by decide, by decide, ?_⟩⟩
  intro name hname
  cases hname

/- The rows of alert events are read back likewise. -/
theorem alert_events_read_back (py : Printer) {driver : Driver}
    {sorter : Sorter fun row : AlertExport.Joined => row.1.createdAt}
    {now : {t : ℤ // InRange t}} {s : Alerts.Db} {userId : ℕ} {q : AlertExport.EventQuery}
    {rows : List AlertExport.CsvRow}
    (h : AlertExport.exportEvents driver sorter now s userId q = .csv rows) :
    ReadsBack py alertEvents AlertExport.CsvRow.createdAt rows
      (alertEvents.body py (some rows)) := by
  refine alertEvents.reads_back ⟨List.Perm.refl rows, ?_⟩
  unfold AlertExport.exportEvents at h
  split at h
  · cases h
  · split at h
    · obtain rfl := AlertExport.Response.csv.inj h
      exact List.pairwise_map.mpr (sorter.ordered _).sorted
    · cases h
  · cases h

end PulseWatch.CsvExports
