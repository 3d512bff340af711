import FederatedMessaging.Analysis.PrintedReport
import FederatedMessaging.Foundations.Csv

/-!
# The tables behind the figures

`tables` of `fam.analysis.e3` turns the dictionary of `Analysis.Report` into flat rows,
`write_tables` writes them as CSV, and `_read_csv` of `scripts/figures.py` reads them again: no
number on a figure comes from anywhere else.

## 1.  What is in the tables

The dictionary is read key by key, as the printer reads it.  `estimateTables` are the tables as
they follow from the estimates, without the dictionary in between; they are the tables that are
built, for every campaign (`tables_summarizeE3`).  No key is missing.

## 2.  What is read back

All rows of a table have the columns of the first one, so the writer accepts them all and pads
none.  Then the figures read what was computed, as it is printed (`figures_read_estimates`): a
missing value becomes an empty cell, and the columns of a row are those of the table.

How a number is printed is left open, and so is whether the writer quotes a carriage return:
that depends on the version of the library.
-/

namespace FederatedMessaging
namespace Analysis
namespace Report

open PythonText DynamicValues Fallible

/-! ## 1.  Rows -/

/-- A row of a table: a dictionary from its columns. -/
abbrev Row := List (Text × Value)

/-- `value or []`. -/
def listOr (value : Value) : Value := if value.truthy then value else .list []

/-- A key of the data, as it is; `names` spells the others. -/
def dataName (names : Key → Text) : Key → Text
  | .text t => t
  | .level n => Nat.toDigits 10 n
  | key => names key

/-- A row of `latency_percentiles`. -/
def latencyRow (name label : Text) (value successful initiated failureRate runs : Value) : Row :=
  [("workload".toList, .str "latency".toList), ("topology".toList, .str name),
    ("percentile".toList, .str label), ("value_ms".toList, value),
    ("successful_interactions".toList, successful), ("initiated_interactions".toList, initiated),
    ("failure_rate".toList, failureRate), ("runs".toList, runs)]

/-- The two ends of an interval. -/
structure Ends where
  low : Value
  high : Value

/-- A row of `paired_comparison`. -/
def comparisonRow (workload metric unit : Text) (onLocal onFederated difference : Value)
    (differenceCi : Ends) (ratio : Value) (ratioCi : Ends) : Row :=
  [("workload".toList, .str workload), ("metric".toList, .str metric), ("unit".toList, .str unit),
    ("local".toList, onLocal), ("federated".toList, onFederated),
    ("difference".toList, difference), ("difference_ci_low".toList, differenceCi.low),
    ("difference_ci_high".toList, differenceCi.high), ("ratio".toList, ratio),
    ("ratio_ci_low".toList, ratioCi.low), ("ratio_ci_high".toList, ratioCi.high)]

/-- A row of `throughput_runs`. -/
def throughputRow (level : ℕ) (name : Text) (index : ℕ) (value : Value) : Row :=
  [("workload".toList, .str "throughput".toList), ("concurrency".toList, .ofNat level),
    ("topology".toList, .str name), ("run_index".toList, .ofNat index),
    ("observed_throughput_per_second".toList, value)]

/-- A row of `stationarity`. -/
def stationarityRow (level : ℕ) (name : Text) (index : ℕ) (first second ratio : Value) : Row :=
  [("concurrency".toList, .ofNat level), ("topology".toList, .str name),
    ("run_index".toList, .ofNat index), ("first_half_rate_per_second".toList, first),
    ("second_half_rate_per_second".toList, second), ("second_over_first".toList, ratio)]

/-- The percentiles that are reported, and where they stand. -/
def percentileLabels : List (Text × Key) :=
  [("p50".toList, .p50Ms), ("p95".toList, .p95Ms), ("p99".toList, .p99Ms)]

/-! ## 2.  The tables -/

section Tables

variable (names : Key → Text)

/-- The rows of a topology under workload A. -/
def latencyTopologyRows (entry : Key × Value) : Printing (List Row) :=
  percentileLabels.mapM fun label => do
    let value ← entry.2.get label.2
    let successful ← entry.2.get .successfulInteractions
    let initiated ← entry.2.get .initiatedInteractions
    let failureRate ← entry.2.get .failureRate
    let runs ← entry.2.get .runs
    pure (latencyRow (dataName names entry.1) label.1 value successful initiated failureRate runs)

/-- `latency_rows`. -/
def latencyRows (summary : Value) : Printing (List Row) := do
  let byTopology ← (← summary.getItem .latency).getItem .byTopology
  let rows ← (← byTopology.orEmpty.items).mapM (latencyTopologyRows names)
  pure rows.flatten

/-- `interval["low"]` and `interval["high"]`. -/
def readEnds (interval : Value) : Printing Ends := do
  let low ← interval.getItem .low
  let high ← interval.getItem .high
  pure ⟨low, high⟩

/-- The comparison of a percentile. -/
def percentileRow (entry : Key × Value) : Printing Row := do
  let onLocal ← entry.2.getItem .localMs
  let onFederated ← entry.2.getItem .federatedMs
  let difference ← entry.2.getItem .differenceMs
  let differenceCi ← entry.2.getItem .differenceCiMs >>= readEnds
  let ratio ← entry.2.getItem .ratio
  let ratioCi ← entry.2.getItem .ratioCi >>= readEnds
  pure (comparisonRow "latency".toList (dataName names entry.1) "ms".toList onLocal onFederated
    difference differenceCi ratio ratioCi)

/-- The comparisons of workload A. -/
def percentileRows (summary : Value) : Printing (List Row) := do
  let bootstrap ← (← summary.getItem .latency).get .bootstrap
  let percentiles ← bootstrap.orEmpty.get .percentiles
  (← percentiles.orEmpty.items).mapM (percentileRow names)

/-- The rows of a topology at a level: the runs, and the halves of their windows. -/
def throughputTopologyRows (level : Key) (entry : Key × Value) :
    Printing (List Row × List Row) := do
  let observed ← (listOr (← entry.2.get .observedThroughputRuns)).elements
  let throughput ← observed.zipIdx.mapM fun value => do
    let n ← intKey level
    pure (throughputRow n (dataName names entry.1) value.2 value.1)
  let halves ← (listOr (← entry.2.get .stationarity)).elements
  let stationarity ← (halves.zipIdx.filter fun half => half.1.truthy).mapM fun half => do
    let n ← intKey level
    let first ← half.1.get .firstHalfRatePerSecond
    let second ← half.1.get .secondHalfRatePerSecond
    let ratio ← half.1.get .secondOverFirst
    pure (stationarityRow n (dataName names entry.1) half.2 first second ratio)
  pure (throughput, stationarity)

/-- The comparison of a level, when there is one. -/
def levelComparison (level : Key) (boot : Value) : Printing (List Row) :=
  if boot.truthy then do
    let onLocal ← boot.getItem .localPerSecond
    let onFederated ← boot.getItem .federatedPerSecond
    let difference ← boot.getItem .differencePerSecond
    let differenceCi ← boot.getItem .differenceCi >>= readEnds
    let ratio ← boot.getItem .ratio
    let ratioCi ← boot.getItem .ratioCi >>= readEnds
    pure [comparisonRow "throughput".toList
      ("C=".toList ++ dataName names level ++ " median observed throughput".toList)
      "interactions/second".toList onLocal onFederated difference differenceCi ratio ratioCi]
  else pure []

/-- What a level adds to three of the tables. -/
structure LevelRows where
  throughput : List Row
  stationarity : List Row
  comparison : List Row

/-- The body of the loop over the levels. -/
def levelRows (throughput : Value) (entry : Key × Value) : Printing LevelRows := do
  let topologies ← (← entry.2.items).mapM (throughputTopologyRows names entry.1)
  let bootstrap ← throughput.get .bootstrap
  let boot ← bootstrap.orEmpty.get entry.1
  let comparison ← levelComparison names entry.1 boot.orEmpty
  pure ⟨(topologies.map Prod.fst).flatten, (topologies.map Prod.snd).flatten, comparison⟩

/-- The tables, from their rows. -/
def tablesOf (latency percentiles : List Row) (levels : List LevelRows) :
    List (Text × List Row) :=
  [("latency_percentiles".toList, latency),
    ("paired_comparison".toList, percentiles ++ (levels.map LevelRows.comparison).flatten),
    ("throughput_runs".toList, (levels.map LevelRows.throughput).flatten),
    ("stationarity".toList, (levels.map LevelRows.stationarity).flatten)]

/-- `tables`. -/
def tables (summary : Value) : Printing (List (Text × List Row)) := do
  let latency ← latencyRows names summary
  let percentiles ← percentileRows names summary
  let throughput ← summary.getItem .throughput
  let byConcurrency ← throughput.getItem .byConcurrency
  let levels ← (← byConcurrency.orEmpty.items).mapM (levelRows names throughput)
  pure (tablesOf latency percentiles levels)

end Tables

/-! ## 3.  The tables, from the estimates -/

/-- One thing for each topology, under its name. -/
def byName {α : Type} (s : ByTopology α) : List (Text × α) :=
  [(topologyLocal, s.localValue), (topologyFederated, s.federatedValue)]

/-- The ends of an interval. -/
def endsOf (i : Interval) : Ends := ⟨.ofFloat i.low, .ofFloat i.high⟩

/-- The rows of a topology. -/
def summaryRows (entry : Text × LatencySummary) : List Row :=
  let row (label : Text) (value : Option ℚ) := latencyRow entry.1 label (.ofFloat value)
    (.ofNat entry.2.successfulInteractions) (.ofNat entry.2.initiatedInteractions)
    (.ofFloat entry.2.failureRate) (.ofNat entry.2.runs)
  [row "p50".toList entry.2.p50Ms, row "p95".toList entry.2.p95Ms, row "p99".toList entry.2.p99Ms]

/-- The row of a percentile. -/
def estimateRow (label : Text) (e : PercentileEstimate) : Row :=
  comparisonRow "latency".toList label "ms".toList (.ofFloat e.localMs) (.ofFloat e.federatedMs)
    (.ofFloat e.differenceMs) (endsOf e.differenceCiMs) (.ofFloat e.ratio) (endsOf e.ratioCi)

/-- The rows of the comparison of workload A. -/
def bootstrapRows : Option LatencyBootstrap → List Row
  | none => []
  | some b => [estimateRow "p50".toList b.p50, estimateRow "p95".toList b.p95,
      estimateRow "p99".toList b.p99]

/-- The row of the comparison of a level. -/
def levelEstimateRows (level : ℕ) : Option ThroughputBootstrap → List Row
  | none => []
  | some b => [comparisonRow "throughput".toList
      ("C=".toList ++ Nat.toDigits 10 level ++ " median observed throughput".toList)
      "interactions/second".toList (.float b.localPerSecond) (.float b.federatedPerSecond)
      (.float b.differencePerSecond) (endsOf b.differenceCi) (.ofFloat b.ratio) (endsOf b.ratioCi)]

/-- The rows of the runs of a topology. -/
def observedRows (level : ℕ) (entry : Text × ThroughputSummary) : List Row :=
  entry.2.observedThroughputRuns.zipIdx.map fun value =>
    throughputRow level entry.1 value.2 (.float value.1)

/-- The row of the halves of a run, if it has any. -/
def halvesRow (level : ℕ) (name : Text) (half : Option Stationarity × ℕ) : Option Row :=
  half.1.map fun s => stationarityRow level name half.2 (.float s.firstHalfRatePerSecond)
    (.float s.secondHalfRatePerSecond) (.ofFloat s.secondOverFirst)

/-- The rows of the halves of a topology. -/
def halvesRows (level : ℕ) (entry : Text × ThroughputSummary) : List Row :=
  entry.2.stationarity.zipIdx.filterMap (halvesRow level entry.1)

/-- What a level adds. -/
def levelEstimates (boots : ℕ → Option ThroughputBootstrap)
    (entry : ℕ × ByTopology ThroughputSummary) : LevelRows :=
  ⟨((byName entry.2).map (observedRows entry.1)).flatten,
    ((byName entry.2).map (halvesRows entry.1)).flatten, levelEstimateRows entry.1 (boots entry.1)⟩

/-- **The tables of a campaign**, from its estimates. -/
def estimateTables (env : Environment) (runs : List AnalysedRun) : List (Text × List Row) :=
  let typed := runs.map AnalysedRun.typed
  let latencyBlocks := pairBlocks (latencyRuns typed)
  let boots (level : ℕ) :=
    let blocks := pairBlocks (levelRuns typed level)
    pairedBootstrapThroughput env.confidence
      (env.draws (blocks.filterMap PairedBlock.throughputs).length) blocks
  tablesOf ((byName (latencyTopologySummary (latencyRuns typed))).map summaryRows).flatten
    (bootstrapRows (pairedBootstrapLatency env.confidence (env.draws latencyBlocks.length)
      latencyBlocks))
    ((concurrencies typed).map fun level =>
      levelEstimates boots (level, throughputTopologySummary (levelRuns typed level) level))

section Reads

variable (names : Key → Text)

theorem latencyRows_byTopologyItem (s : ByTopology LatencySummary) (rest : List (Key × Value))
    {summary : Value} (h : summary.getItem .latency =
      .ok (.dict ((.byTopology, byTopologyItem latencyItem s) :: rest))) :
    latencyRows names summary = .ok ((byName s).map summaryRows).flatten := by
  unfold latencyRows
  rw [h]
  rfl

theorem percentileRows_latencyBootstrapItem (o : Option LatencyBootstrap) {summary latency : Value}
    (h : summary.getItem .latency = .ok latency)
    (hbootstrap : latency.get .bootstrap = .ok (latencyBootstrapItem o)) :
    percentileRows names summary = .ok (bootstrapRows o) := by
  unfold percentileRows
  rw [h]
  show latency.get .bootstrap >>= _ = _
  rw [hbootstrap]
  cases o <;> rfl

/-- A loop over positions, of values that were made one by one. -/
theorem mapM_zipIdx_map {α β : Type} {f : β × ℕ → Printing Row} {g : α → β} {row : α × ℕ → Row}
    {l : List α} (h : ∀ a ∈ l.zipIdx, f (g a.1, a.2) = .ok (row a)) :
    (l.map g).zipIdx.mapM f = .ok (l.zipIdx.map row) := by
  have hzip : (l.map g).zipIdx = l.zipIdx.map fun a => (g a.1, a.2) := by
    rw [List.zipIdx_map]
    rfl
  rw [hzip, List.mapM_map]
  exact Fallible.mapM_eq_ok h

theorem listOr_list (items : List Value) : (listOr (.list items)).elements = .ok items := by
  cases items <;> rfl

theorem truthy_stationarityItem (o : Option Stationarity) :
    (stationarityItem o).truthy = o.isSome := by
  cases o <;> rfl

/-- The halves that there are, each with the position of its run. -/
theorem halves_eq (level : ℕ) (name : Text) (l : List (Option Stationarity)) :
    (((l.map stationarityItem).zipIdx.filter fun half => half.1.truthy).mapM fun half => do
      let n ← intKey (.level level)
      let first ← half.1.get .firstHalfRatePerSecond
      let second ← half.1.get .secondHalfRatePerSecond
      let ratio ← half.1.get .secondOverFirst
      pure (stationarityRow n name half.2 first second ratio)) =
    (.ok (l.zipIdx.filterMap (halvesRow level name)) : Printing (List Row)) := by
  rw [List.zipIdx_map, List.filter_map, List.mapM_map]
  generalize l.zipIdx = halves
  induction halves with
  | nil => rfl
  | cons half halves ih =>
    obtain ⟨o, index⟩ := half
    cases o with
    | none => exact ih
    | some s =>
      rw [List.filter_cons_of_pos rfl, List.mapM_cons, ih]
      rfl

theorem throughputTopologyRows_throughputItem (level : ℕ) (name : Text) (s : ThroughputSummary) :
    throughputTopologyRows names (.level level) (.text name, throughputItem s) =
      .ok (observedRows level (name, s), halvesRows level (name, s)) := by
  have hobserved : (s.observedThroughputRuns.map Item.float).zipIdx.mapM (fun value => do
      let n ← intKey (.level level)
      pure (throughputRow n (dataName names (.text name)) value.2 value.1)) =
      (.ok (observedRows level (name, s)) : Printing (List Row)) :=
    mapM_zipIdx_map fun value _ => rfl
  exact (bind_of_eq_ok rfl _).trans ((bind_of_eq_ok (listOr_list _) _).trans
    ((bind_of_eq_ok hobserved _).trans ((bind_of_eq_ok rfl _).trans
      ((bind_of_eq_ok (listOr_list _) _).trans
        (bind_of_eq_ok (halves_eq level name s.stationarity) _)))))

theorem levelComparison_throughputBootstrapItem (level : ℕ) (o : Option ThroughputBootstrap) :
    levelComparison names (.level level) (throughputBootstrapItem o).orEmpty =
      .ok (levelEstimateRows level o) := by
  cases o <;> rfl

/-- A dictionary that has an entry for every level. -/
theorem lookup_level {f : ℕ → Value} {levels : List ℕ} {level : ℕ} (h : level ∈ levels) :
    (levels.map fun l => (Key.level l, f l)).lookup (.level level) = some (f level) := by
  induction levels with
  | nil => exact absurd h List.not_mem_nil
  | cons l levels ih =>
    rw [List.map_cons, List.lookup_cons]
    by_cases heq : level = l
    · subst heq
      rw [beq_self_eq_true]
    · have hne : (Key.level level == Key.level l) = false :=
        beq_eq_false_iff_ne.mpr fun hkey => heq (Key.level.inj hkey)
      rw [hne]
      exact ih ((List.mem_cons.mp h).resolve_left heq)

theorem levelRows_byTopologyItem {levels : List ℕ} {level : ℕ} (hlevel : level ∈ levels)
    (boots : ℕ → Option ThroughputBootstrap) (s : ByTopology ThroughputSummary)
    {throughput : Value} (h : throughput.get .bootstrap =
      .ok (.dict (levels.map fun l => (.level l, throughputBootstrapItem (boots l))))) :
    levelRows names throughput (.level level, byTopologyItem throughputItem s) =
      .ok (levelEstimates boots (level, s)) := by
  have htopologies : [(Key.text topologyLocal, throughputItem s.localValue),
      (.text topologyFederated, throughputItem s.federatedValue)].mapM
        (throughputTopologyRows names (.level level)) =
      .ok ((byName s).map fun entry => (observedRows level entry, halvesRows level entry)) := by
    rw [List.mapM_cons, List.mapM_cons, List.mapM_nil, throughputTopologyRows_throughputItem,
      throughputTopologyRows_throughputItem]
    rfl
  have hboot : (Item.dict (levels.map fun l =>
      (Key.level l, throughputBootstrapItem (boots l)))).orEmpty.get (.level level) =
      .ok (throughputBootstrapItem (boots level)) := by
    rw [get_orEmpty, lookup_level hlevel]
    rfl
  refine (bind_of_eq_ok rfl _).trans ((bind_of_eq_ok htopologies _).trans
    ((bind_of_eq_ok h _).trans ((bind_of_eq_ok hboot _).trans
      ((bind_of_eq_ok (levelComparison_throughputBootstrapItem names level _) _).trans ?_))))
  rw [List.map_map, List.map_map]
  rfl

/-- **The tables that are built are those of the estimates**, for every campaign: nothing the
tables ask of the dictionary is missing. -/
theorem tables_summarizeE3 (env : Environment) (runs : List AnalysedRun)
    (inventory : OrderedDict Text InventoryEntry) (integrity : InputIntegrity) :
    tables names (summarizeE3 env runs inventory integrity) = .ok (estimateTables env runs) := by
  have hlatency : latencyRows names (summarizeE3 env runs inventory integrity) = _ :=
    latencyRows_byTopologyItem names _ _ rfl
  have hpercentiles : percentileRows names (summarizeE3 env runs inventory integrity) = _ :=
    percentileRows_latencyBootstrapItem names _ rfl rfl
  refine (bind_of_eq_ok hlatency _).trans ((bind_of_eq_ok hpercentiles _).trans
    ((bind_of_eq_ok rfl _).trans ((bind_of_eq_ok rfl _).trans
      ((bind_of_eq_ok (items_orEmpty _) _).trans ?_))))
  rw [List.mapM_map, List.mapM_map]
  refine (bind_of_eq_ok (Fallible.mapM_eq_ok fun level hlevel => ?_) _).trans rfl
  exact levelRows_byTopologyItem names hlevel _ _ rfl

end Reads

/-! ## 4.  The files -/

/-- `ValueError`: a row has a column that the table does not have. -/
inductive WriteFailure where
  | extraColumn
  deriving DecidableEq, Repr

section Files

variable (str : Value → Text) (special : Char → Bool)

/-- What the writer makes of a value: nothing of `None`, a string as it is. -/
def cellText : Value → Text
  | .none => []
  | .str s => s
  | value => str value

/-- `DictWriter._dict_to_list`. -/
def rowCells (columns : List Text) (row : Row) : Except WriteFailure (List Text) :=
  if row.all fun cell => cell.1 ∈ columns then
    .ok (columns.map fun column => cellText str ((row.lookup column).getD (.str [])))
  else .error .extraColumn

/-- The text of a file. -/
def tableText (columns : List Text) (rows : List Row) : Except WriteFailure Text := do
  let cells ← rows.mapM (rowCells str columns)
  pure (Csv.write special (columns :: cells))

/-- The body of the loop of `write_tables`: the columns are those of the first row, and a table
without rows has no file. -/
def writeTable (table : Text × List Row) : Except WriteFailure (Option (Text × Text)) :=
  match table.2 with
  | [] => pure none
  | row :: rows => do
    let text ← tableText str special (row.map Prod.fst) (row :: rows)
    pure (some (table.1 ++ ".csv".toList, text))

/-- `write_tables`: the names of the files and their contents. -/
def writeTables (tables : List (Text × List Row)) : Except WriteFailure (List (Text × Text)) := do
  let written ← tables.mapM (writeTable str special)
  pure (written.filterMap id)

/-- A value of a row that is read: a cell, cells that have no column, or no cell. -/
inductive ReadCell where
  | text (t : Text)
  | rest (cells : List Text)
  | missing

/-- `DictReader.__next__`: cells that have no column stand under `None`. -/
def readRow (columns cells : List Text) : OrderedDict (Option Text) ReadCell :=
  let row := OrderedDict.empty.update
    ((columns.zip cells).map fun p => (some p.1, ReadCell.text p.2))
  if columns.length < cells.length then row.set none (.rest (cells.drop columns.length))
  else row.update ((columns.drop cells.length).map fun column => (some column, .missing))

/-- `_read_csv`. -/
def readCsv (limit : ℕ) (t : Text) :
    Except Csv.Failure (List (OrderedDict (Option Text) ReadCell)) := do
  match ← Csv.read limit t with
  | [] => pure []
  | columns :: rows => pure ((rows.filter fun cells => cells ≠ []).map (readRow columns))

/-- A row, as it is printed. -/
def shownRow (row : Row) : List (Option Text × ReadCell) :=
  row.map fun cell => (some cell.1, .text (cellText str cell.2))

end Files

/-! ### The columns -/

/-- A table: there is a first row, and all rows have its columns, no column twice. -/
structure Tabular (columns : List Text) (rows : List Row) : Prop where
  ne : columns ≠ []
  nodup : columns.Nodup
  rows : ∀ row ∈ rows, row.map Prod.fst = columns

theorem tabular_nil {columns : List Text} (hne : columns ≠ []) (hnodup : columns.Nodup) :
    Tabular columns [] := ⟨hne, hnodup, fun _ h => absurd h List.not_mem_nil⟩

/-- What each of the four tables has in its rows. -/
def tableColumns : List (Text × List Text) :=
  [("latency_percentiles".toList, (latencyRow [] [] .none .none .none .none .none).map Prod.fst),
    ("paired_comparison".toList, (comparisonRow [] [] [] .none .none .none ⟨.none, .none⟩ .none
      ⟨.none, .none⟩).map Prod.fst),
    ("throughput_runs".toList, (throughputRow 0 [] 0 .none).map Prod.fst),
    ("stationarity".toList, (stationarityRow 0 [] 0 .none .none .none).map Prod.fst)]

/-- **Every table has its columns**, in every row. -/
theorem tabular_estimateTables (env : Environment) (runs : List AnalysedRun) :
    List.Forall₂ (fun columns table => columns.1 = table.1 ∧ Tabular columns.2 table.2)
      tableColumns (estimateTables env runs) := by
  have hflat : ∀ {columns : List Text} {tables : List (List Row)},
      (∀ rows ∈ tables, ∀ row ∈ rows, row.map Prod.fst = columns) →
      ∀ row ∈ tables.flatten, row.map Prod.fst = columns := by
    intro columns tables h row hrow
    obtain ⟨rows, hrows, hmem⟩ := List.mem_flatten.mp hrow
    exact h rows hrows row hmem
  have hbootstrap : ∀ o : Option LatencyBootstrap, ∀ row ∈ bootstrapRows o,
      row.map Prod.fst = (tableColumns.map Prod.snd)[1] := by
    intro o row hrow
    cases o with
    | none => exact absurd hrow List.not_mem_nil
    | some b =>
      simp only [bootstrapRows, List.mem_cons, List.not_mem_nil, or_false] at hrow
      rcases hrow with rfl | rfl | rfl <;> rfl
  have hlevel : ∀ (level : ℕ) (o : Option ThroughputBootstrap), ∀ row ∈ levelEstimateRows level o,
      row.map Prod.fst = (tableColumns.map Prod.snd)[1] := by
    intro level o row hrow
    cases o with
    | none => exact absurd hrow List.not_mem_nil
    | some b =>
      rw [List.mem_singleton.mp hrow]
      rfl
  refine .cons ⟨rfl, by decide, by decide, ?_⟩ (.cons ⟨rfl, by decide, by decide, ?_⟩
    (.cons ⟨rfl, by decide, by decide, ?_⟩ (.cons ⟨rfl, by decide, by decide, ?_⟩ .nil)))
  · refine hflat fun rows hrows row hrow => ?_
    obtain ⟨entry, -, rfl⟩ := List.mem_map.mp hrows
    simp only [summaryRows, List.mem_cons, List.not_mem_nil, or_false] at hrow
    rcases hrow with rfl | rfl | rfl <;> rfl
  · intro row hrow
    rcases List.mem_append.mp hrow with hrow | hrow
    · exact hbootstrap _ row hrow
    · refine hflat (fun rows hrows row hrow => ?_) row hrow
      obtain ⟨levelRows, hlevelRows, rfl⟩ := List.mem_map.mp hrows
      obtain ⟨level, -, rfl⟩ := List.mem_map.mp hlevelRows
      exact hlevel _ _ row hrow
  · refine hflat fun rows hrows row hrow => ?_
    obtain ⟨levelRows, hlevelRows, rfl⟩ := List.mem_map.mp hrows
    obtain ⟨level, -, rfl⟩ := List.mem_map.mp hlevelRows
    refine hflat (fun rows hrows row hrow => ?_) row hrow
    obtain ⟨entry, -, rfl⟩ := List.mem_map.mp hrows
    obtain ⟨value, -, rfl⟩ := List.mem_map.mp hrow
    rfl
  · refine hflat fun rows hrows row hrow => ?_
    obtain ⟨levelRows, hlevelRows, rfl⟩ := List.mem_map.mp hrows
    obtain ⟨level, -, rfl⟩ := List.mem_map.mp hlevelRows
    refine hflat (fun rows hrows row hrow => ?_) row hrow
    obtain ⟨entry, -, rfl⟩ := List.mem_map.mp hrows
    obtain ⟨half, -, hhalf⟩ := List.mem_filterMap.mp hrow
    obtain ⟨s, -, rfl⟩ := Option.map_eq_some_iff.mp hhalf
    rfl

/-! ## 5.  Back again -/

/-- `csv.field_size_limit()`. -/
def fieldSizeLimit : ℕ := 131072

section Back

variable {str : Value → Text} {special : Char → Bool} {columns : List Text} {row : Row}
  {rows : List Row}

theorem lookup_getD_of_mem {cell : Text × Value} (hnodup : (row.map Prod.fst).Nodup)
    (h : cell ∈ row) : (row.lookup cell.1).getD (.str []) = cell.2 := by
  obtain ⟨front, back, rfl⟩ := List.append_of_mem h
  rw [List.map_append, List.map_cons, List.nodup_append] at hnodup
  have hfront : ∀ c ∈ front, cell.1 != c.1 := fun c hc =>
    bne_iff_ne.mpr (hnodup.2.2 c.1 (List.mem_map_of_mem hc) cell.1 List.mem_cons_self).symm
  rw [List.lookup_eq_some_iff.mpr ⟨front, back, rfl, hfront⟩, Option.getD_some]

/-- A row that has the columns of the table is written as it is. -/
theorem rowCells_eq (hnodup : (row.map Prod.fst).Nodup) :
    rowCells str (row.map Prod.fst) row = .ok (row.map fun cell => cellText str cell.2) := by
  have hall : (row.all fun cell => cell.1 ∈ row.map Prod.fst) = true :=
    List.all_eq_true.mpr fun cell hcell => decide_eq_true (List.mem_map_of_mem hcell)
  rw [rowCells, if_pos hall, List.map_map]
  refine congrArg Except.ok (List.map_congr_left fun cell hcell => ?_)
  show cellText str ((row.lookup cell.1).getD (.str [])) = _
  rw [lookup_getD_of_mem hnodup hcell]

/-- And read as it is. -/
theorem entries_readRow (hnodup : (row.map Prod.fst).Nodup) :
    (readRow (row.map Prod.fst) (row.map fun cell => cellText str cell.2)).entries =
      shownRow str row := by
  have hzip : (((row.map Prod.fst).zip (row.map fun cell => cellText str cell.2)).map fun p =>
      (some p.1, ReadCell.text p.2)) = shownRow str row := by
    rw [List.zip_map', List.map_map]
    rfl
  have hkeys : ((shownRow str row).map Prod.fst).Nodup := by
    have hmap : (shownRow str row).map Prod.fst = (row.map Prod.fst).map some := by
      rw [shownRow, List.map_map, List.map_map]
      rfl
    rw [hmap]
    exact hnodup.map (Option.some_injective _)
  unfold readRow
  rw [hzip, List.length_map, List.length_map, if_neg (lt_irrefl _), List.drop_of_length_le
    (by rw [List.length_map])]
  show (OrderedDict.empty.update (shownRow str row)).entries = _
  rw [OrderedDict.entries_update_of_nodup hkeys]
  rfl

/-- **A table is read as it is printed.** -/
theorem readCsv_tableText (hcomma : special ',' = true) (hnewline : special '\n' = true)
    {limit : ℕ} (htable : Tabular columns rows)
    (hcolumns : ∀ column ∈ columns, Csv.Readable special limit column)
    (hcells : ∀ row ∈ rows, ∀ cell ∈ row, Csv.Readable special limit (cellText str cell.2)) :
    ∃ text read, tableText str special columns rows = .ok text ∧
      readCsv limit text = .ok read ∧ read.map OrderedDict.entries = rows.map (shownRow str) := by
  have hwritten : rows.mapM (rowCells str columns) =
      .ok (rows.map fun row => row.map fun cell => cellText str cell.2) := by
    refine mapM_eq_ok fun row hrow => ?_
    have hrow' := htable.rows row hrow
    rw [← hrow']
    exact rowCells_eq (hrow' ▸ htable.nodup)
  have hread : Csv.read limit (Csv.write special
      (columns :: rows.map fun row => row.map fun cell => cellText str cell.2)) =
        .ok (columns :: rows.map fun row => row.map fun cell => cellText str cell.2) := by
    refine Csv.read_write hcomma hnewline fun record hrecord field hfield => ?_
    rcases List.mem_cons.mp hrecord with rfl | hrecord
    · exact hcolumns field hfield
    · obtain ⟨row, hrow, rfl⟩ := List.mem_map.mp hrecord
      obtain ⟨cell, hcell, rfl⟩ := List.mem_map.mp hfield
      exact hcells row hrow cell hcell
  refine ⟨_, (rows.map fun row => row.map fun cell => cellText str cell.2).map (readRow columns),
    bind_of_eq_ok hwritten _, ?_, ?_⟩
  · refine (bind_of_eq_ok hread _).trans ?_
    have hkept : ((rows.map fun row => row.map fun cell => cellText str cell.2).filter
        fun cells => cells ≠ []) =
        rows.map fun row => row.map fun cell => cellText str cell.2 := by
      refine List.filter_eq_self.mpr fun cells hcells' => ?_
      obtain ⟨row, hrow, rfl⟩ := List.mem_map.mp hcells'
      refine decide_eq_true fun hempty => htable.ne ?_
      rw [← htable.rows row hrow, List.map_eq_nil_iff.mp hempty, List.map_nil]
    show Except.ok _ = _
    rw [hkept]
  · rw [List.map_map, List.map_map]
    refine List.map_congr_left fun row hrow => ?_
    have hrow' := htable.rows row hrow
    subst hrow'
    exact entries_readRow htable.nodup

/-- The file of a table holds what is printed of it. -/
def Holds (str : Value → Text) (limit : ℕ) (table : Text × List Row) (file : Text × Text) : Prop :=
  file.1 = table.1 ++ ".csv".toList ∧ ∃ read, readCsv limit file.2 = .ok read ∧
    read.map OrderedDict.entries = table.2.map (shownRow str)

/-- Every table that has a row has its file. -/
theorem writeTables_eq (hcomma : special ',' = true) (hnewline : special '\n' = true) {limit : ℕ}
    {shapes : List (Text × List Text)} {tables : List (Text × List Row)}
    (hshapes : List.Forall₂ (fun shape table => shape.1 = table.1 ∧ Tabular shape.2 table.2)
      shapes tables)
    (hcolumns : ∀ shape ∈ shapes, ∀ column ∈ shape.2, Csv.Readable special limit column)
    (hcells : ∀ table ∈ tables, ∀ row ∈ table.2, ∀ cell ∈ row,
      Csv.Readable special limit (cellText str cell.2)) :
    ∃ files, writeTables str special tables = .ok files ∧
      List.Forall₂ (Holds str limit) (tables.filter fun table => !table.2.isEmpty) files := by
  suffices h : ∃ written, tables.mapM (writeTable str special) = .ok written ∧
      List.Forall₂ (Holds str limit) (tables.filter fun table => !table.2.isEmpty)
        (written.filterMap id) by
    obtain ⟨written, hwritten, hholds⟩ := h
    exact ⟨_, bind_of_eq_ok hwritten _, hholds⟩
  induction hshapes with
  | nil => exact ⟨[], rfl, .nil⟩
  | @cons shape table shapes tables hshape hrest ih =>
    obtain ⟨written, hwritten, hholds⟩ := ih
      (fun s hs => hcolumns s (List.mem_cons_of_mem shape hs))
      fun t ht => hcells t (List.mem_cons_of_mem table ht)
    obtain ⟨name, rows⟩ := table
    rw [List.mapM_cons, hwritten]
    cases rows with
    | nil => exact ⟨none :: written, rfl, hholds⟩
    | cons row rows =>
      have hfirst : row.map Prod.fst = shape.2 := hshape.2.rows row List.mem_cons_self
      obtain ⟨text, read, htext, hread, hentries⟩ := readCsv_tableText hcomma hnewline hshape.2
        (hcolumns shape List.mem_cons_self) (hcells (name, row :: rows) List.mem_cons_self)
      have hfile : writeTable str special (name, row :: rows) =
          .ok (some (name ++ ".csv".toList, text)) := by
        refine (bind_of_eq_ok ?_ _).trans rfl
        rw [hfirst]
        exact htext
      rw [hfile]
      exact ⟨some (name ++ ".csv".toList, text) :: written, rfl,
        .cons ⟨rfl, read, hread, hentries⟩ hholds⟩

/-- **The figures read what the analysis computed.**  For every campaign the tables are those of
its estimates, every one of them that has a row is written, and reading the file gives the rows
again: their columns, and their values as they are printed. -/
theorem figures_read_estimates (hcomma : special ',' = true) (hnewline : special '\n' = true)
    (names : Key → Text) (env : Environment) (runs : List AnalysedRun)
    (inventory : OrderedDict Text InventoryEntry) (integrity : InputIntegrity)
    (hcells : ∀ table ∈ estimateTables env runs, ∀ row ∈ table.2, ∀ cell ∈ row,
      Csv.Readable special fieldSizeLimit (cellText str cell.2)) :
    tables names (summarizeE3 env runs inventory integrity) = .ok (estimateTables env runs) ∧
    ∃ files, writeTables str special (estimateTables env runs) = .ok files ∧
      List.Forall₂ (Holds str fieldSizeLimit)
        ((estimateTables env runs).filter fun table => !table.2.isEmpty) files := by
  have hcolumns : ∀ shape ∈ tableColumns, ∀ column ∈ shape.2,
      Csv.Readable special fieldSizeLimit column := by
    have hplain : ∀ shape ∈ tableColumns, ∀ column ∈ shape.2,
        column.length ≤ fieldSizeLimit ∧ '\r' ∉ column := by decide
    exact fun shape hshape column hcolumn => ⟨(hplain shape hshape column hcolumn).1,
      fun hreturn => absurd hreturn (hplain shape hshape column hcolumn).2⟩
  exact ⟨tables_summarizeE3 names env runs inventory integrity,
    writeTables_eq hcomma hnewline (tabular_estimateTables env runs) hcolumns hcells⟩

end Back

/-! ## 6.  Byte for byte -/

section Bytes

variable {str : Value → Text} {special : Char → Bool}

/-- A table, as it is printed. -/
def shownTable (str : Value → Text) (table : Text × List Row) :
    Text × List (List (Option Text × ReadCell)) :=
  (table.1, table.2.map (shownRow str))

/-- The file of a table of this shape, if there is one. -/
def fileOf (special : Char → Bool) (shape : Text × List Text) (cells : List (List Text)) :
    Option (Text × Text) :=
  if cells = [] then none
  else some (shape.1 ++ ".csv".toList, Csv.write special (shape.2 :: cells))

/-- What is written of a row. -/
def writtenRow (str : Value → Text) (row : Row) : List Text :=
  row.map fun cell => cellText str cell.2

theorem writeTable_eq {shape : Text × List Text} {table : Text × List Row}
    (hname : shape.1 = table.1) (htable : Tabular shape.2 table.2) :
    writeTable str special table = .ok (fileOf special shape (table.2.map (writtenRow str))) := by
  obtain ⟨name, rows⟩ := table
  cases rows with
  | nil => rfl
  | cons row rows =>
    have hfirst : row.map Prod.fst = shape.2 := htable.rows row List.mem_cons_self
    have hwritten : (row :: rows).mapM (rowCells str shape.2) =
        .ok ((row :: rows).map (writtenRow str)) := by
      refine mapM_eq_ok fun r hr => ?_
      have hr' := htable.rows r hr
      rw [← hr']
      exact rowCells_eq (hr' ▸ htable.nodup)
    have htext : tableText str special shape.2 (row :: rows) =
        .ok (Csv.write special (shape.2 :: (row :: rows).map (writtenRow str))) :=
      bind_of_eq_ok hwritten _
    rw [← hfirst] at htext
    refine (bind_of_eq_ok htext _).trans ?_
    have hne : (row :: rows).map (writtenRow str) ≠ [] := List.cons_ne_nil _ _
    show _ = Except.ok (fileOf special shape ((row :: rows).map (writtenRow str)))
    rw [fileOf, if_neg hne, hname, hfirst]
    rfl

/-- What is written of a row is what is shown of it, for rows with the same columns. -/
theorem shownRow_eq_iff {row row' : Row} (hcolumns : row.map Prod.fst = row'.map Prod.fst) :
    shownRow str row = shownRow str row' ↔ writtenRow str row = writtenRow str row' := by
  induction row generalizing row' with
  | nil =>
    rw [List.map_nil] at hcolumns
    rw [List.map_eq_nil_iff.mp hcolumns.symm]
    exact iff_of_true rfl rfl
  | cons cell row ih =>
    cases row' with
    | nil => exact absurd hcolumns (List.cons_ne_nil _ _)
    | cons cell' row' =>
      obtain ⟨hcell, hrest⟩ := List.cons.inj hcolumns
      have hhead : ((some cell.1, ReadCell.text (cellText str cell.2)) =
          (some cell'.1, ReadCell.text (cellText str cell'.2))) ↔
          cellText str cell.2 = cellText str cell'.2 := by
        rw [hcell, Prod.mk.injEq, ReadCell.text.injEq, and_iff_right rfl]
      show _ :: shownRow str row = _ :: shownRow str row' ↔
        _ :: writtenRow str row = _ :: writtenRow str row'
      rw [List.cons.injEq, List.cons.injEq, ih hrest, hhead]

theorem shownRows_eq_iff {columns : List Text} {rows rows' : List Row}
    (htable : Tabular columns rows) (htable' : Tabular columns rows') :
    rows.map (shownRow str) = rows'.map (shownRow str) ↔
      rows.map (writtenRow str) = rows'.map (writtenRow str) := by
  have hrow : ∀ row ∈ rows, ∀ row' ∈ rows', shownRow str row = shownRow str row' ↔
      writtenRow str row = writtenRow str row' := fun row h row' h' =>
    shownRow_eq_iff ((htable.rows row h).trans (htable'.rows row' h').symm)
  clear htable htable'
  induction rows generalizing rows' with
  | nil =>
    rw [List.map_nil, List.map_nil, eq_comm, List.map_eq_nil_iff, eq_comm (a := []),
      List.map_eq_nil_iff]
  | cons row rows ih =>
    cases rows' with
    | nil => exact iff_of_false (List.cons_ne_nil _ _) (List.cons_ne_nil _ _)
    | cons row' rows' =>
      have hrest : rows.map (shownRow str) = rows'.map (shownRow str) ↔
          rows.map (writtenRow str) = rows'.map (writtenRow str) := ih fun r hr r' hr' =>
        hrow r (List.mem_cons_of_mem row hr) r' (List.mem_cons_of_mem row' hr')
      rw [List.map_cons, List.map_cons, List.map_cons, List.map_cons, List.cons.injEq,
        List.cons.injEq]
      exact and_congr (hrow row List.mem_cons_self row' List.mem_cons_self) hrest

/-- Files whose names stand in a list without repetition, some of them missing: which ones are
missing can be told from the others. -/
theorem eq_of_filterMap_id_eq {names : List Text} (hnodup : names.Nodup)
    {written written' : List (Option (Text × Text))}
    (h : List.Forall₂ (fun name file => ∀ f ∈ file, f.1 = name) names written)
    (h' : List.Forall₂ (fun name file => ∀ f ∈ file, f.1 = name) names written')
    (heq : written.filterMap id = written'.filterMap id) : written = written' := by
  have hnames : ∀ {names : List Text} {written : List (Option (Text × Text))},
      List.Forall₂ (fun name file => ∀ f ∈ file, f.1 = name) names written →
      ∀ f ∈ written.filterMap id, f.1 ∈ names := by
    intro names written h
    induction h with
    | nil => exact fun f hf => absurd hf List.not_mem_nil
    | @cons name file names written hfile _ ih =>
      intro f hf
      cases file with
      | none => exact List.mem_cons_of_mem name (ih f hf)
      | some g =>
        rcases List.mem_cons.mp hf with rfl | hf
        · rw [hfile f rfl]
          exact List.mem_cons_self
        · exact List.mem_cons_of_mem name (ih f hf)
  induction h generalizing written' with
  | nil =>
    cases h'
    rfl
  | @cons name file names written hfile hrest ih =>
    cases h' with
    | @cons _ file' _ written' hfile' hrest' =>
      obtain ⟨hnotMem, hnodup'⟩ := List.nodup_cons.mp hnodup
      cases file with
      | none =>
        cases file' with
        | none => rw [ih hnodup' hrest' heq]
        | some g =>
          -- the first of the other files has a name that none of these has
          have hmem : g ∈ written.filterMap id := by
            have hcons : (none :: written).filterMap id = written.filterMap id := rfl
            rw [← hcons, heq]
            exact List.mem_cons_self
          exact absurd (hfile' g rfl ▸ hnames hrest g hmem) hnotMem
      | some f =>
        cases file' with
        | none =>
          have hmem : f ∈ written'.filterMap id := by
            have hcons : (none :: written').filterMap id = written'.filterMap id := rfl
            rw [← hcons, ← heq]
            exact List.mem_cons_self
          exact absurd (hfile f rfl ▸ hnames hrest' f hmem) hnotMem
        | some g =>
          obtain ⟨rfl, htail⟩ := List.cons.inj heq
          rw [ih hnodup' hrest' htail]

/-- A carriage return in a cell is quoted. -/
def ReturnsQuoted (special : Char → Bool) (cells : List (List Text)) : Prop :=
  ∀ row ∈ cells, ∀ cell ∈ row, '\r' ∈ cell → special '\r' = true

/-- Tables of given shapes: their names, and the columns of their rows. -/
def Shaped (shapes : List (Text × List Text)) (tables : List (Text × List Row)) : Prop :=
  List.Forall₂ (fun shape table => shape.1 = table.1 ∧ Tabular shape.2 table.2) shapes tables

/-- The files of tables of given shapes, missing ones included. -/
def filesOf (str : Value → Text) (special : Char → Bool) (shapes : List (Text × List Text))
    (tables : List (Text × List Row)) : List (Option (Text × Text)) :=
  List.zipWith (fun shape table => fileOf special shape (table.2.map (writtenRow str)))
    shapes tables

theorem writeTables_of_shaped {shapes : List (Text × List Text)} {tables : List (Text × List Row)}
    (h : Shaped shapes tables) :
    writeTables str special tables = .ok ((filesOf str special shapes tables).filterMap id) := by
  refine bind_of_eq_ok (?_ : tables.mapM (writeTable str special) = _) _
  induction h with
  | nil => rfl
  | @cons shape table shapes tables hshape _ ih =>
    rw [List.mapM_cons, writeTable_eq hshape.1 hshape.2, ih]
    rfl

theorem name_fileOf {shape : Text × List Text} {cells : List (List Text)} {f : Text × Text}
    (h : f ∈ fileOf special shape cells) : f.1 = shape.1 ++ ".csv".toList := by
  unfold fileOf at h
  split at h
  · exact absurd h (Option.not_mem_none f)
  · rw [← Option.some_inj.mp h]

theorem names_filesOf {shapes : List (Text × List Text)} {tables : List (Text × List Row)}
    (h : Shaped shapes tables) :
    List.Forall₂ (fun name file => ∀ f ∈ file, f.1 = name)
      (shapes.map fun shape => shape.1 ++ ".csv".toList) (filesOf str special shapes tables) := by
  induction h with
  | nil => exact .nil
  | @cons shape table shapes tables _ _ ih =>
    exact .cons (fun f hf => name_fileOf hf) ih

theorem fileOf_eq_iff (hcomma : special ',' = true) (hnewline : special '\n' = true)
    {shape : Text × List Text} {cells cells' : List (List Text)}
    (h : ReturnsQuoted special (shape.2 :: cells))
    (h' : ReturnsQuoted special (shape.2 :: cells')) :
    fileOf special shape cells = fileOf special shape cells' ↔ cells = cells' := by
  refine ⟨fun heq => ?_, fun heq => by rw [heq]⟩
  unfold fileOf at heq
  split at heq
  · rename_i hnil
    split at heq
    · rename_i hnil'
      rw [hnil, hnil']
    · exact absurd heq (Option.some_ne_none _).symm
  · split at heq
    · exact absurd heq (Option.some_ne_none _)
    · have hwritten := (Prod.mk.inj (Option.some_inj.mp heq)).2
      exact (List.cons.inj (Csv.write_injective hcomma hnewline h h' hwritten)).2

theorem filesOf_eq_iff (hcomma : special ',' = true) (hnewline : special '\n' = true)
    {shapes : List (Text × List Text)} {tables tables' : List (Text × List Row)}
    (h : Shaped shapes tables) (h' : Shaped shapes tables')
    (hcolumns : ∀ shape ∈ shapes, ∀ column ∈ shape.2, '\r' ∉ column)
    (hquoted : ∀ table ∈ tables, ReturnsQuoted special (table.2.map (writtenRow str)))
    (hquoted' : ∀ table ∈ tables', ReturnsQuoted special (table.2.map (writtenRow str))) :
    filesOf str special shapes tables = filesOf str special shapes tables' ↔
      tables.map (shownTable str) = tables'.map (shownTable str) := by
  induction h generalizing tables' with
  | nil =>
    cases h'
    exact iff_of_true rfl rfl
  | @cons shape table shapes tables hshape _ ih =>
    cases h' with
    | @cons _ table' _ tables' hshape' hrest' =>
      have hrest := ih hrest' (fun s hs => hcolumns s (List.mem_cons_of_mem shape hs))
        (fun t ht => hquoted t (List.mem_cons_of_mem table ht))
        fun t ht => hquoted' t (List.mem_cons_of_mem table' ht)
      have hall : ∀ {cells : List (List Text)}, ReturnsQuoted special cells →
          ReturnsQuoted special (shape.2 :: cells) := by
        intro cells hcells row hrow cell hcell hreturn
        rcases List.mem_cons.mp hrow with rfl | hrow
        · exact absurd hreturn (hcolumns shape List.mem_cons_self cell hcell)
        · exact hcells row hrow cell hcell hreturn
      have hfile := fileOf_eq_iff hcomma hnewline (hall (hquoted table List.mem_cons_self))
        (hall (hquoted' table' List.mem_cons_self))
      have hshown : table.2.map (shownRow str) = table'.2.map (shownRow str) ↔ _ :=
        shownRows_eq_iff hshape.2 hshape'.2
      have htable : shownTable str table = shownTable str table' ↔
          table.2.map (shownRow str) = table'.2.map (shownRow str) := by
        rw [shownTable, shownTable, Prod.mk.injEq, ← hshape.1, hshape'.1, and_iff_right rfl]
      rw [List.map_cons, List.map_cons, List.cons.injEq, htable, hshown, ← hfile, ← hrest,
        ← List.cons.injEq]
      rfl

/-- **Equal files, equal estimates.**  The files of two campaigns agree byte for byte if and only
if their tables agree in every row and every cell, as they are printed: a file that is missing
counts too. -/
theorem writeTables_eq_iff (hcomma : special ',' = true) (hnewline : special '\n' = true)
    (env env' : Environment) (runs runs' : List AnalysedRun)
    (hquoted : ∀ table ∈ estimateTables env runs ++ estimateTables env' runs',
      ReturnsQuoted special (table.2.map (writtenRow str))) :
    writeTables str special (estimateTables env runs) =
        writeTables str special (estimateTables env' runs') ↔
      (estimateTables env runs).map (shownTable str) =
        (estimateTables env' runs').map (shownTable str) := by
  have hshaped : Shaped tableColumns (estimateTables env runs) := tabular_estimateTables env runs
  have hshaped' : Shaped tableColumns (estimateTables env' runs') :=
    tabular_estimateTables env' runs'
  have hcolumns : ∀ shape ∈ tableColumns, ∀ column ∈ shape.2, '\r' ∉ column := by decide
  have hnodup : (tableColumns.map fun shape => shape.1 ++ ".csv".toList).Nodup := by decide
  rw [writeTables_of_shaped hshaped, writeTables_of_shaped hshaped', Except.ok.injEq,
    ← filesOf_eq_iff hcomma hnewline hshaped hshaped' hcolumns
      (fun table htable => hquoted table (List.mem_append_left _ htable))
      fun table htable => hquoted table (List.mem_append_right _ htable)]
  exact ⟨eq_of_filterMap_id_eq hnodup (names_filesOf hshaped) (names_filesOf hshaped'),
    fun heq => by rw [heq]⟩

end Bytes

/-! ### One run -/

/-- How a count is printed, and a float that is a whole number. -/
def wholeText : Value → Text
  | .int n => n.repr.toList
  | .float x => x.num.repr.toList ++ ".0".toList
  | _ => []

/-- The characters that are quoted, when a carriage return is not. -/
def commaOrNewline (c : Char) : Bool := c = ',' || c = '\n'

/-- The analysis of one run without any replicates. -/
def oneRunEnvironment : Environment := ⟨95 / 100, fun _ => [], id, fun _ => none⟩

/-- The tables of one federated run: the figures read 7.0 for its percentiles. -/
theorem recoveredRun_figures :
    tables (fun _ => []) (summarizeE3 oneRunEnvironment [recoveredRun] .empty ⟨1, 9, 1, [], []⟩) =
      .ok (estimateTables oneRunEnvironment [recoveredRun]) ∧
    ∃ files, writeTables wholeText commaOrNewline
        (estimateTables oneRunEnvironment [recoveredRun]) = .ok files ∧
      List.Forall₂ (Holds wholeText fieldSizeLimit)
        ((estimateTables oneRunEnvironment [recoveredRun]).filter fun table => !table.2.isEmpty)
        files := by
  have hall : ((estimateTables oneRunEnvironment [recoveredRun]).all fun table =>
      table.2.all fun row => row.all fun cell =>
        (cellText wholeText cell.2).length ≤ fieldSizeLimit ∧
          '\r' ∉ cellText wholeText cell.2) = true := by decide +kernel
  refine figures_read_estimates rfl rfl (fun _ => []) oneRunEnvironment [recoveredRun] .empty
    ⟨1, 9, 1, [], []⟩ fun table htable row hrow cell hcell => ?_
  have hcell' := of_decide_eq_true (List.all_eq_true.mp (List.all_eq_true.mp
    (List.all_eq_true.mp hall table htable) row hrow) cell hcell)
  exact ⟨hcell'.1, fun hreturn => absurd hreturn hcell'.2⟩

/-- Its files, beside those of a campaign without runs. -/
theorem recoveredRun_files :
    (writeTables wholeText commaOrNewline (estimateTables oneRunEnvironment [recoveredRun]) =
      writeTables wholeText commaOrNewline (estimateTables oneRunEnvironment []) ↔
    (estimateTables oneRunEnvironment [recoveredRun]).map (shownTable wholeText) =
      (estimateTables oneRunEnvironment []).map (shownTable wholeText)) := by
  have hall : ((estimateTables oneRunEnvironment [recoveredRun] ++
      estimateTables oneRunEnvironment []).all fun table =>
      (table.2.map (writtenRow wholeText)).all fun row => row.all fun cell =>
        '\r' ∉ cell) = true := by decide +kernel
  refine writeTables_eq_iff rfl rfl oneRunEnvironment oneRunEnvironment [recoveredRun] []
    fun table htable row hrow cell hcell hreturn => ?_
  exact absurd hreturn (of_decide_eq_true (List.all_eq_true.mp (List.all_eq_true.mp
    (List.all_eq_true.mp hall table htable) row hrow) cell hcell))

end Report
end Analysis
end FederatedMessaging
