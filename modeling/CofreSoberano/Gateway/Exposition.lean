import CofreSoberano.Gateway.Daemon
import CofreSoberano.Gateway.Scrape
import CofreSoberano.Std.Exposition

/-!
# The body of `/metrics`

`render_prometheus` and `render_daemon_metrics` put their lines together by hand. Whatever
characters the names of the tenants hold, a parser of the exposition format reads back
every series of every tenant, and nothing else.
-/

namespace CofreSoberano.Gateway

open CofreSoberano.Std CofreSoberano.Std.Exposition CofreSoberano.Gateway.Serving

/-- `MetricsRegistry`. -/
structure MetricsRegistry where
  inner : Metrics
  tenant : String

/-- `str::replace` of a character. -/
def replaceChar (s : String) (c : Char) (spelling : String) : String :=
  String.ofList (s.toList.flatMap fun d => if d = c then spelling.toList else [d])

/-- `escape_label`. -/
def escapeLabel (s : String) : String :=
  replaceChar (replaceChar (replaceChar s '\\' "\\\\") '"' "\\\"") '\n' "\\n"

/-- The arguments of a call of `emit_counter` or `emit_gauge`. -/
structure Series where
  kind : String
  name : String
  help : String
  counter : Counter

/-- `emit_counter` and `emit_gauge`, which differ in the type that they write. -/
def emitSeries (s : String) (registries : List MetricsRegistry) (series : Series) : String :=
  registries.foldl
    (fun s r => s ++ (series.name ++ "\x7btenant=\"" ++ escapeLabel r.tenant ++ "\"\x7d " ++
      toString (r.inner series.counter) ++ "\n"))
    (s ++ ("# HELP " ++ series.name ++ " " ++ series.help ++ "\n# TYPE " ++ series.name ++ " " ++
      series.kind ++ "\n"))

/-- The calls of `render_prometheus`, in order. -/
def tenantSeries : List Series :=
  [⟨"counter", "qgateway_sessions_opened_total", "Total CSPQ sessions successfully opened.",
      .sessionsOpened⟩,
    ⟨"counter", "qgateway_sessions_closed_total", "Total CSPQ sessions cleanly closed.",
      .sessionsClosed⟩,
    ⟨"counter", "qgateway_sessions_failed_total", "Total handshakes that failed.",
      .sessionsFailed⟩,
    ⟨"gauge", "qgateway_sessions_active", "Currently open CSPQ sessions.", .sessionsActive⟩,
    ⟨"counter", "qgateway_bytes_c2s_total", "Plaintext bytes forwarded client → server.",
      .bytesC2s⟩,
    ⟨"counter", "qgateway_bytes_s2c_total", "Plaintext bytes forwarded server → client.",
      .bytesS2c⟩,
    ⟨"counter", "qgateway_audit_events_total", "Audit events emitted to qaudit.", .auditEvents⟩,
    ⟨"counter", "qgateway_audit_failures_total", "Audit events that failed to be appended.",
      .auditFailures⟩,
    ⟨"counter", "qgateway_audit_rotations_total", "Audit log rotations completed successfully.",
      .auditRotations⟩,
    ⟨"counter", "qgateway_admission_rejected_quota_total",
      "Inbound connections rejected by admission control due to per-tenant concurrency quota.",
      .admissionRejectedQuota⟩,
    ⟨"counter", "qgateway_admission_rejected_rate_total",
      "Inbound connections rejected by admission control due to per-source-IP rate limit.",
      .admissionRejectedRate⟩,
    ⟨"counter", "qgateway_hsm_sessions_opened_total",
      "PKCS#11 sessions opened successfully (startup + per-rotation).", .hsmSessionsOpened⟩,
    ⟨"counter", "qgateway_hsm_sessions_failed_total",
      "PKCS#11 session-open failures (load, slot, login, or key lookup errors).",
      .hsmSessionsFailed⟩,
    ⟨"counter", "qgateway_hsm_sign_ops_total",
      "PKCS#11 C_Sign calls completed successfully (audit signatures).", .hsmSignOps⟩,
    ⟨"counter", "qgateway_hsm_sign_failures_total",
      "PKCS#11 C_Sign failures (token disconnected, mechanism unsupported, etc.).",
      .hsmSignFailures⟩]

section

-- `us as f64 / 1_000_000.0`, displayed
variable (displaySeconds : UInt64 → String)

/-- A bucket line of the histogram. -/
def bucketLine (tenant le : String) (cumulative : UInt64) : String :=
  "qgateway_handshake_seconds_bucket" ++ "\x7btenant=\"" ++ tenant ++
  "\",le=\"" ++ le ++ "\"\x7d " ++
    toString cumulative ++ "\n"

/-- The loop over the bounds, with the cumulative count so far and the buckets left. -/
def bucketLines (s tenant : String) (cumulative : UInt64) : List UInt64 →
    List UInt64 → String × UInt64
  | bound :: bounds, bucket :: buckets =>
      let cumulative := Proxy.saturatingAdd cumulative bucket
      bucketLines (s ++ bucketLine tenant (displaySeconds bound) cumulative) tenant cumulative
        bounds buckets
  | _, _ => (s, cumulative)

/-- The histogram of one registry. -/
def histogram (s : String) (r : MetricsRegistry) : String :=
  let tenant := escapeLabel r.tenant
  let buckets := r.inner.handshakeBucketsSnapshot
  let (s, cumulative) := bucketLines displaySeconds s tenant 0 handshakeBucketsUs buckets
  let plusInf := Proxy.saturatingAdd cumulative (buckets.getD handshakeBucketsUs.length 0)
  let s := s ++ bucketLine tenant "+Inf" plusInf
  let s := s ++ ("qgateway_handshake_seconds_sum" ++ "\x7btenant=\"" ++ tenant ++ "\"\x7d " ++
    displaySeconds (r.inner .handshakeSumUs) ++ "\n")
  s ++ ("qgateway_handshake_seconds_count" ++ "\x7btenant=\"" ++ tenant ++ "\"\x7d " ++
    toString (r.inner .handshakeCount) ++ "\n")

/-- `render_prometheus`. -/
def renderPrometheus (registries : List MetricsRegistry) : String :=
  let s := tenantSeries.foldl (fun s series => emitSeries s registries series) ""
  let s := s ++ "# HELP qgateway_handshake_seconds Handshake duration (seconds).\n"
  let s := s ++ "# TYPE qgateway_handshake_seconds histogram\n"
  registries.foldl (histogram displaySeconds) s

end

/-- The calls of `render_daemon_metrics`, in order. -/
def daemonSeries (d : DaemonMetrics) : List (String × String × Nat) :=
  [("qgateway_sighup_cycles_total", "Total SIGHUP cycles that passed config validation.",
      d.sighupCyclesTotal),
    ("qgateway_sighup_failed_total", "Total SIGHUP cycles where Config::load failed validation.",
      d.sighupFailedTotal),
    ("qgateway_tenants_added_total", "Total tenants successfully added at runtime via SIGHUP.",
      d.tenantsAddedTotal),
    ("qgateway_tenants_add_failed_total", "Total tenant ADD failures during SIGHUP apply.",
      d.tenantsAddFailedTotal),
    ("qgateway_tenants_removed_total",
      "Total tenants successfully removed at runtime via SIGHUP.", d.tenantsRemovedTotal),
    ("qgateway_tenants_remove_failed_total",
      "Total tenant REMOVE failures during SIGHUP apply (drain timeout, etc.).",
      d.tenantsRemoveFailedTotal),
    ("qgateway_limits_hot_applied_total",
      "Total successful hot-applies of [tenants.limits] via SIGHUP.", d.limitsHotAppliedTotal),
    ("qgateway_config_changed_hot_total",
      "Total tenant-config diff entries classified as Hot (limits-only today).",
      d.configChangedHotTotal),
    ("qgateway_config_changed_cold_total",
      "Total tenant-config diff entries classified as Cold (require restart).",
      d.configChangedColdTotal)]

/-- `emit_daemon_counter`. -/
def emitDaemonCounter (s : String) (row : String × String × Nat) : String :=
  s ++ ("# HELP " ++ row.1 ++ " " ++ row.2.1 ++ "\n# TYPE " ++ row.1 ++ " counter\n" ++ row.1 ++
    " " ++ toString row.2.2 ++ "\n")

/-- `render_daemon_metrics`. -/
def renderDaemonMetrics (d : DaemonMetrics) : String :=
  (daemonSeries d).foldl emitDaemonCounter ""

/-- The body that the metrics server answers `/metrics` with. -/
def metricsBody (displaySeconds : UInt64 → String) (registries : List MetricsRegistry)
    (d : DaemonMetrics) : String :=
  renderPrometheus displaySeconds registries ++ renderDaemonMetrics d

/-! ### The lines of the body -/

def tenantLabel (tenant : String) : Label where
  name := ['t', 'e', 'n', 'a', 'n', 't']
  value := tenant.toList

/-- The lines of a series over all tenants. -/
def Series.lines (series : Series) (registries : List MetricsRegistry) : List Line :=
  .help series.name.toList series.help.toList :: .type series.name.toList series.kind.toList ::
    registries.map fun r => .sample
      { metric := series.name.toList
        labels := [tenantLabel r.tenant]
        value := (toString (r.inner series.counter)).toList }

/-- A string that is built from lines. -/
def Spells (text : String) (lines : List Line) : Prop :=
  text.toList = lines.flatMap (·.text ++ ['\n'])

theorem Spells.append {first second : String} {firstLines secondLines : List Line}
    (before : Spells first firstLines) (after : Spells second secondLines) :
    Spells (first ++ second) (firstLines ++ secondLines) := by
  rw [Spells, String.toList_append, before, after, List.flatMap_append]

/-- A step that appends lines to what was written before. -/
def Appends (step : String → String) (lines : List Line) : Prop :=
  ∀ s, ∃ more, step s = s ++ more ∧ Spells more lines

theorem Appends.text {more : String} {lines : List Line} (spells : Spells more lines) :
    Appends (· ++ more) lines :=
  fun _ => ⟨more, rfl, spells⟩

theorem Appends.comp {first second : String → String} {firstLines secondLines : List Line}
    (before : Appends first firstLines) (after : Appends second secondLines) :
    Appends (fun s => second (first s)) (firstLines ++ secondLines) := by
  intro s
  obtain ⟨early, same, spellsEarly⟩ := before s
  obtain ⟨late, sameLate, spellsLate⟩ := after (first s)
  refine ⟨early ++ late, sameLate.trans ?_, spellsEarly.append spellsLate⟩
  rw [same, String.append_assoc]

theorem Appends.foldl {α : Type} (step : String → α → String) {lines : α → List Line}
    (each : ∀ item, Appends (fun s => step s item) (lines item)) (items : List α) :
    Appends (fun s => items.foldl step s) (items.flatMap lines) := by
  induction items with
  | nil => exact fun s => ⟨"", by simp, rfl⟩
  | cons item items inductionHypothesis => exact (each item).comp inductionHypothesis

theorem replaceChar_toList (s : String) (c : Char) (spelling : String) :
    (replaceChar s c spelling).toList =
      s.toList.flatMap fun d => if d = c then spelling.toList else [d] := by
  rw [replaceChar, String.toList_ofList]

/-- The three replacements write every character as one pass would: backslashes go first,
so none that a later replacement writes is escaped again. -/
theorem escapeLabel_toList (s : String) : (escapeLabel s).toList = s.toList.flatMap escape := by
  rw [escapeLabel, replaceChar_toList, replaceChar_toList, replaceChar_toList, List.flatMap_assoc,
    List.flatMap_assoc]
  refine List.flatMap_congr fun c _ => ?_
  by_cases backslash : c = '\\'
  · subst backslash
    rfl
  · by_cases quote : c = '"'
    · subst quote
      rfl
    · by_cases newline : c = '\n'
      · subst newline
        rfl
      · simp [escape, backslash, quote, newline]

/-- One sample with the label of a tenant. -/
theorem spells_sample (metric tenant value : String) :
    Spells (metric ++ "\x7btenant=\"" ++ escapeLabel tenant ++ "\"\x7d " ++ value ++ "\n")
      [.sample { metric := metric.toList
                 labels := [tenantLabel tenant]
                 value := value.toList }] := by
  simp [Spells, Line.text, Sample.text, labelsText, Label.text, tenantLabel, escapeLabel_toList]

theorem spells_header (metric help kind : String) :
    Spells ("# HELP " ++ metric ++ " " ++ help ++ "\n# TYPE " ++ metric ++ " " ++ kind ++ "\n")
      [.help metric.toList help.toList, .type metric.toList kind.toList] := by
  simp [Spells, Line.text]

theorem Series.appends (series : Series) (registries : List MetricsRegistry) :
    Appends (fun s => emitSeries s registries series) (series.lines registries) := by
  have header := Appends.text (spells_header series.name series.help series.kind)
  have samples := Appends.foldl
    (fun s (r : MetricsRegistry) => s ++
      (series.name ++ "\x7btenant=\"" ++ escapeLabel r.tenant ++ "\"\x7d " ++
      toString (r.inner series.counter) ++ "\n"))
    (fun r => Appends.text (spells_sample series.name r.tenant (toString (r.inner series.counter))))
      registries
  have both := header.comp samples
  rw [← List.map_eq_flatMap] at both
  exact both

/-- What `Display` of a float that is neither negative nor infinite writes. -/
def Numeral (text : String) : Prop :=
  text.toList ≠ [] ∧ ∀ c ∈ text.toList, c.isDigit = true ∨ c = '.'

theorem escape_numeral {text : String} (numeral : Numeral text) :
    text.toList.flatMap escape = text.toList := by
  have each : ∀ c ∈ text.toList, escape c = [c] := by
    intro c member
    have plain : c ≠ '\\' ∧ c ≠ '"' ∧ c ≠ '\n' := by
      refine ⟨?_, ?_, ?_⟩ <;> rintro rfl <;> exact absurd (numeral.2 _ member) (by decide)
    simp [escape, plain]
  rw [List.flatMap_congr each, List.flatMap_singleton']

/-- A bucket sample. -/
def bucketSample (tenant le : String) (value : UInt64) : Line :=
  .sample
    { metric := "qgateway_handshake_seconds_bucket".toList
      labels := [tenantLabel tenant, { name := "le".toList, value := le.toList }]
      value := (toString value).toList }

/-- A sample of one tenant. -/
def tenantSample (metric tenant value : String) : Line :=
  .sample { metric := metric.toList, labels := [tenantLabel tenant], value := value.toList }

theorem spells_bounded (metric tenant value : String) {le : String}
    (plain : le.toList.flatMap escape = le.toList) :
    Spells (metric ++ "\x7btenant=\"" ++ escapeLabel tenant ++ "\",le=\"" ++ le ++
      "\"\x7d " ++ value ++ "\n") [.sample
        { metric := metric.toList
          labels := [tenantLabel tenant, { name := "le".toList, value := le.toList }]
          value := value.toList }] := by
  simp [Spells, Line.text, Sample.text, labelsText, Label.text, tenantLabel,
    escapeLabel_toList, plain]

theorem spells_bucketLine (tenant : String) {le : String}
    (plain : le.toList.flatMap escape = le.toList)
    (value : UInt64) : Spells (bucketLine (escapeLabel tenant) le value)
    [bucketSample tenant le value] :=
  spells_bounded _ tenant _ plain

section Histogram

variable {displaySeconds : UInt64 → String}

/-- The loop over the bounds writes the cumulative values, and is left with the last of them. -/
theorem bucketLines_spells (numeral : ∀ us, Numeral (displaySeconds us)) (tenant s : String)
    (cumulative : UInt64) {bounds buckets : List UInt64}
    (enough : bounds.length ≤ buckets.length) :
    ∃ more, (bucketLines displaySeconds s (escapeLabel tenant) cumulative bounds buckets).1 =
      s ++ more ∧
      Spells more (((bounds.map displaySeconds).zip (cumulate cumulative buckets)).map fun line =>
        bucketSample tenant line.1 line.2) ∧
      cumulate cumulative buckets = (cumulate cumulative buckets).take bounds.length ++
        cumulate (bucketLines displaySeconds s (escapeLabel tenant) cumulative bounds buckets).2
          (buckets.drop bounds.length) := by
  induction bounds generalizing s cumulative buckets with
  | nil => exact ⟨"", by simp [bucketLines], rfl, by simp [bucketLines]⟩
  | cons bound bounds inductionHypothesis =>
      cases buckets with
      | nil => simp at enough
      | cons bucket buckets =>
          obtain ⟨more, same, spells, rest⟩ := inductionHypothesis
            (s ++ bucketLine (escapeLabel tenant) (displaySeconds bound)
              (Proxy.saturatingAdd cumulative bucket))
            (Proxy.saturatingAdd cumulative bucket)
            (by simpa using enough : bounds.length ≤ buckets.length)
          refine ⟨_, same.trans (String.append_assoc ..), ?_, ?_⟩
          · exact (spells_bucketLine tenant (escape_numeral (numeral bound)) _).append spells
          · rw [bucketLines, cumulate, List.length_cons, List.take_succ_cons, List.drop_succ_cons,
              List.cons_append, ← rest]

/-- The lines of the histogram of one tenant. -/
def histogramLines (displaySeconds : UInt64 → String) (r : MetricsRegistry) : List Line :=
  ((handshakeBucketsUs.map displaySeconds ++ ["+Inf"]).zip
      (cumulate 0 r.inner.handshakeBucketsSnapshot)).map (fun line =>
        bucketSample r.tenant line.1 line.2) ++
    [tenantSample "qgateway_handshake_seconds_sum" r.tenant
        (displaySeconds (r.inner .handshakeSumUs)),
      tenantSample "qgateway_handshake_seconds_count" r.tenant (toString (r.inner .handshakeCount))]

theorem histogram_appends (numeral : ∀ us, Numeral (displaySeconds us)) (r : MetricsRegistry) :
    Appends (fun s => histogram displaySeconds s r) (histogramLines displaySeconds r) := by
  intro s
  have size : handshakeBucketsUs.length ≤ r.inner.handshakeBucketsSnapshot.length := by
    simp [Metrics.handshakeBucketsSnapshot]
  obtain ⟨more, same, spells, rest⟩ := bucketLines_spells numeral r.tenant s 0 size
  generalize written : bucketLines displaySeconds s (escapeLabel r.tenant) 0 handshakeBucketsUs
    r.inner.handshakeBucketsSnapshot = result at same rest
  obtain ⟨text, cumulative⟩ := result
  simp only at same rest
  subst same
  -- Past the bounds there is one more bucket.
  have last : r.inner.handshakeBucketsSnapshot.drop handshakeBucketsUs.length =
      [r.inner.handshakeBucketsSnapshot.getD handshakeBucketsUs.length 0] := rfl
  rw [last] at rest
  have lines : ((handshakeBucketsUs.map displaySeconds ++ ["+Inf"]).zip
      (cumulate 0 r.inner.handshakeBucketsSnapshot)) =
        (handshakeBucketsUs.map displaySeconds).zip (cumulate 0 r.inner.handshakeBucketsSnapshot) ++
          [("+Inf", Proxy.saturatingAdd cumulative
            (r.inner.handshakeBucketsSnapshot.getD handshakeBucketsUs.length 0))] := by
    have equal : (handshakeBucketsUs.map displaySeconds).length = ((cumulate 0
        r.inner.handshakeBucketsSnapshot).take handshakeBucketsUs.length).length := by
      rw [List.length_map, List.length_take, length_cumulate, Nat.min_eq_left size]
    have bounded := @List.zip_append _ _ _ [] _
      (cumulate cumulative
        [r.inner.handshakeBucketsSnapshot.getD handshakeBucketsUs.length 0]) equal
    rw [List.append_nil] at bounded
    rw [rest, List.zip_append equal, bounded]
    simp [cumulate]
  have infinite := Appends.text (spells_bucketLine r.tenant
    (rfl : "+Inf".toList.flatMap escape = "+Inf".toList) (Proxy.saturatingAdd cumulative
      (r.inner.handshakeBucketsSnapshot.getD handshakeBucketsUs.length 0)))
  have sum := Appends.text (spells_sample "qgateway_handshake_seconds_sum" r.tenant
    (displaySeconds (r.inner .handshakeSumUs)))
  have count := Appends.text (spells_sample "qgateway_handshake_seconds_count" r.tenant
    (toString (r.inner .handshakeCount)))
  obtain ⟨rest', same, spellsRest⟩ := ((infinite.comp sum).comp count) (s ++ more)
  refine ⟨more ++ rest', ?_, ?_⟩
  · simp only [histogram, written]
    exact same.trans (String.append_assoc ..)
  · rw [histogramLines, lines, List.map_append, List.append_assoc]
    exact spells.append spellsRest

end Histogram

/-- The lines of a daemon counter. -/
def daemonLines (row : String × String × Nat) : List Line :=
  [.help row.1.toList row.2.1.toList, .type row.1.toList "counter".toList,
    .sample { metric := row.1.toList, labels := [], value := (toString row.2.2).toList }]

theorem emitDaemonCounter_appends (row : String × String × Nat) :
    Appends (fun s => emitDaemonCounter s row) (daemonLines row) := by
  refine Appends.text ?_
  simp [Spells, Line.text, Sample.text, daemonLines]

/-- What a scrape shows, in order. -/
def scrapeLines (displaySeconds : UInt64 → String) (registries : List MetricsRegistry)
    (d : DaemonMetrics) : List Line :=
  tenantSeries.flatMap (·.lines registries) ++
    [.help "qgateway_handshake_seconds".toList "Handshake duration (seconds).".toList,
      .type "qgateway_handshake_seconds".toList "histogram".toList] ++
    registries.flatMap (histogramLines displaySeconds) ++ (daemonSeries d).flatMap daemonLines

theorem metricsBody_spells {displaySeconds : UInt64 → String}
    (numeral : ∀ us, Numeral (displaySeconds us)) (registries : List MetricsRegistry)
    (d : DaemonMetrics) :
    Spells (metricsBody displaySeconds registries d) (scrapeLines displaySeconds registries d) := by
  have series := Appends.foldl (fun s series => emitSeries s registries series)
    (fun series => series.appends registries) tenantSeries
  have header : Appends
      (· ++ "# HELP qgateway_handshake_seconds Handshake duration (seconds).\n")
      [.help "qgateway_handshake_seconds".toList "Handshake duration (seconds).".toList] :=
    Appends.text rfl
  have type : Appends (· ++ "# TYPE qgateway_handshake_seconds histogram\n")
      [.type "qgateway_handshake_seconds".toList "histogram".toList] := Appends.text rfl
  have histograms := Appends.foldl (histogram displaySeconds) (histogram_appends numeral) registries
  have daemon := Appends.foldl emitDaemonCounter emitDaemonCounter_appends (daemonSeries d)
  obtain ⟨tenants, same, spellsTenants⟩ := (((series.comp header).comp type).comp histograms) ""
  obtain ⟨counters, sameDaemon, spellsDaemon⟩ := daemon ""
  rw [String.empty_append] at same sameDaemon
  have body : metricsBody displaySeconds registries d = tenants ++ counters :=
    congrArg₂ (· ++ ·) same sameDaemon
  rw [body, scrapeLines]
  have whole := spellsTenants.append spellsDaemon
  rw [List.append_assoc (tenantSeries.flatMap _)] at whole
  exact whole

/-- The values that a scrape shows for a series. -/
def valuesOf (lines : List Line) (metric : String) (labels : List Label) : List (List Char) :=
  lines.filterMap fun
    | .sample shown =>
        if shown.metric = metric.toList ∧ shown.labels = labels then some shown.value else none
    | _ => none

section Series

variable {α : Type} {metric : String} {labels : List Label}

theorem valuesOf_append (first second : List Line) : valuesOf (first ++ second) metric labels =
    valuesOf first metric labels ++ valuesOf second metric labels :=
  List.filterMap_append

/-- Lines without a sample of the series show no value of it. -/
theorem valuesOf_eq_nil {lines : List Line} (other : ∀ shown, Line.sample shown ∈ lines →
    shown.metric ≠ metric.toList ∨ shown.labels ≠ labels) : valuesOf lines
      metric labels = [] := by
  refine List.filterMap_eq_nil_iff.mpr fun line member => ?_
  cases line with
  | sample shown =>
      rcases other shown member with other | other <;> simp [other]
  | _ => rfl

/-- Groups of lines with different metric names do not show up in each other's series. -/
theorem valuesOf_flatMap {name : α → String} {lines : α → List Line}
    (own : ∀ item shown, Line.sample shown ∈ lines item → shown.metric = (name item).toList)
    {items : List α} (distinct : (items.map name).Nodup) {item : α} (member : item ∈ items) :
    valuesOf (items.flatMap lines) (name item) labels = valuesOf (lines item)
      (name item) labels := by
  have others : ∀ rest : List α, name item ∉ rest.map name →
      valuesOf (rest.flatMap lines) (name item) labels = [] := by
    intro rest absent
    refine valuesOf_eq_nil fun shown present => .inl ?_
    obtain ⟨other, inRest, here⟩ := List.mem_flatMap.mp present
    rw [own other shown here]
    intro same
    exact absent (List.mem_map.mpr ⟨other, inRest, String.toList_inj.mp same⟩)
  obtain ⟨before, after, rfl⟩ := List.append_of_mem member
  rw [List.map_append, List.map_cons, List.nodup_append, List.nodup_cons] at distinct
  obtain ⟨_, ⟨absentAfter, _⟩, apart⟩ := distinct
  rw [List.flatMap_append, List.flatMap_cons, valuesOf_append, valuesOf_append,
    others before (fun present => apart _ present _ List.mem_cons_self rfl),
    others after absentAfter]
  simp

/-- The values of a tenant in its series. -/
theorem valuesOf_series (series : Series) (registries : List MetricsRegistry) (tenant : String) :
    valuesOf (series.lines registries) series.name [tenantLabel tenant] =
      (registries.filter fun r => r.tenant = tenant).map fun r =>
        (toString (r.inner series.counter)).toList := by
  rw [Series.lines, valuesOf, List.filterMap_cons_none rfl, List.filterMap_cons_none rfl,
    List.filterMap_map]
  induction registries with
  | nil => rfl
  | cons r registries inductionHypothesis =>
      by_cases own : r.tenant = tenant
      · rw [List.filterMap_cons_some (by simp [own]; rfl), inductionHypothesis]
        simp [own]
      · have other : tenantLabel r.tenant ≠ tenantLabel tenant :=
          fun same => own (String.toList_inj.mp (Label.mk.inj same).2)
        rw [List.filterMap_cons_none (by simp [other]), inductionHypothesis]
        simp [own]

end Series

/-- The names and texts of the series fit into lines. -/
def legible (name text : String) : Bool :=
  !name.isEmpty && name.toList.all isNameChar && text.toList.all (· ≠ '\n')

theorem isName_of_legible {name text : String} (fits : legible name text = true) :
    IsName name.toList ∧ '\n' ∉ text.toList := by
  simp only [legible, Bool.and_eq_true, List.all_eq_true, decide_eq_true_eq] at fits
  obtain ⟨⟨some, named⟩, unbroken⟩ := fits
  refine ⟨⟨?_, named⟩, fun member => unbroken _ member rfl⟩
  simpa using some

/-- Literals need not be decoded for it. -/
theorem legible_ofList {name text : List Char}
    (fits : (!name.isEmpty && name.all isNameChar && text.all (· ≠ '\n')) = true) :
    legible (String.ofList name) (String.ofList text) = true := by
  cases name with
  | nil => simp at fits
  | cons first rest => simpa [legible] using fits

theorem tenantSeries_legible : ∀ series ∈ tenantSeries,
    legible series.name series.help = true ∧ legible series.name series.kind = true := by
  simp only [tenantSeries, List.forall_mem_cons, List.not_mem_nil, false_implies, implies_true,
    and_true]
  and_intros <;> exact legible_ofList (by decide +kernel)

theorem tenantSeries_apart : ∀ series ∈ tenantSeries,
    series.name.toList ∉ ["qgateway_handshake_seconds_bucket".toList,
      "qgateway_handshake_seconds_sum".toList, "qgateway_handshake_seconds_count".toList] := by
  have apart : ∀ series ∈ tenantSeries,
      series.name ∉ ["qgateway_handshake_seconds_bucket",
        "qgateway_handshake_seconds_sum", "qgateway_handshake_seconds_count"] := by
    simp [tenantSeries]
  simpa only [List.mem_cons, List.not_mem_nil, String.toList_inj] using apart

theorem tenantSeries_distinct : (tenantSeries.map Series.name).Nodup := by
  simp [tenantSeries]

theorem Series.lines_metric {registries : List MetricsRegistry} (series : Series) (shown : Sample)
    (member : Line.sample shown ∈ series.lines registries) :
    shown.metric = series.name.toList := by
  simp only [Series.lines, List.mem_cons, reduceCtorEq, List.mem_map,
    Line.sample.injEq, false_or] at member
  obtain ⟨_, _, rfl⟩ := member
  rfl

theorem daemonSeries_legible (d : DaemonMetrics) :
    ∀ row ∈ daemonSeries d, legible row.1 row.2.1 = true := by
  simp only [daemonSeries, List.forall_mem_cons, List.not_mem_nil, false_implies, implies_true,
    and_true]
  and_intros <;> exact legible_ofList (by decide +kernel)

theorem daemonSeries_distinct (d : DaemonMetrics) : ((daemonSeries d).map Prod.fst).Nodup := by
  simp [daemonSeries]

theorem daemonLines_metric (row : String × String × Nat) (shown : Sample)
    (member : Line.sample shown ∈ daemonLines row) :
    shown.metric = row.1.toList ∧ shown.labels = [] := by
  simp only [daemonLines, List.mem_cons, reduceCtorEq, Line.sample.injEq,
    List.not_mem_nil, or_false, false_or] at member
  subst member
  exact ⟨rfl, rfl⟩

/-- The samples of the histogram have a tenant, and a metric that no series has. -/
theorem histogramLines_shown {displaySeconds : UInt64 → String}
    {r : MetricsRegistry} {shown : Sample}
    (member : Line.sample shown ∈ histogramLines displaySeconds r) :
    shown.labels ≠ [] ∧ shown.metric ∈ ["qgateway_handshake_seconds_bucket".toList,
      "qgateway_handshake_seconds_sum".toList, "qgateway_handshake_seconds_count".toList] := by
  rw [histogramLines, List.mem_append] at member
  rcases member with member | member
  · obtain ⟨line, _, same⟩ := List.mem_map.mp member
    cases same
    exact ⟨List.cons_ne_nil _ _, List.mem_cons_self⟩
  · simp only [tenantSample, List.mem_cons, Line.sample.injEq,
      List.not_mem_nil, or_false] at member
    rcases member with rfl | rfl <;> exact ⟨List.cons_ne_nil _ _, by simp⟩

/-- A sample value that is read as a whole. -/
def Whole (value : List Char) : Prop := value ≠ [] ∧ ' ' ∉ value ∧ '\n' ∉ value

theorem Numeral.whole {text : String} (numeral : Numeral text) : Whole text.toList := by
  refine ⟨numeral.1, ?_, ?_⟩ <;> intro member <;>
    exact absurd (numeral.2 _ member) (by decide)

theorem numeral_nat (n : Nat) : Numeral (toString n) := by
  have digits : (toString n).toList = Nat.toDigits 10 n := Nat.toList_repr ..
  refine ⟨?_, fun c member => .inl ?_⟩
  · rw [digits]
    exact Nat.toDigits_ne_nil
  · rw [digits] at member
    exact Nat.isDigit_of_mem_toDigits (by decide) (by decide) member

theorem whole_counter (value : UInt64) : Whole (toString value).toList :=
  (numeral_nat value.toNat).whole

theorem tenantLabel_named (tenant : String) : IsName (tenantLabel tenant).name := by
  refine ⟨List.cons_ne_nil _ _, ?_⟩
  exact List.all_eq_true.mp rfl

theorem histogramLines_sound {displaySeconds : UInt64 → String}
    (numeral : ∀ us, Numeral (displaySeconds us)) (r : MetricsRegistry) :
    ∀ line ∈ histogramLines displaySeconds r, line.Sound := by
  have bucket : legible "qgateway_handshake_seconds_bucket" "" = true := by decide
  have sum : legible "qgateway_handshake_seconds_sum" "" = true := by decide
  have count : legible "qgateway_handshake_seconds_count" "" = true := by decide
  have bound : legible "le" "" = true := by decide
  replace bucket := (isName_of_legible bucket).1
  replace sum := (isName_of_legible sum).1
  replace count := (isName_of_legible count).1
  replace bound := (isName_of_legible bound).1
  intro line member
  rw [histogramLines, List.mem_append] at member
  rcases member with member | member
  · obtain ⟨shown, _, rfl⟩ := List.mem_map.mp member
    refine ⟨bucket, ?_, whole_counter _⟩
    intro label labelled
    simp only [List.mem_cons, List.not_mem_nil, or_false] at labelled
    rcases labelled with rfl | rfl
    · exact tenantLabel_named _
    · exact bound
  · simp only [List.mem_cons, List.not_mem_nil, or_false] at member
    rcases member with rfl | rfl
    · exact ⟨sum, by simpa using tenantLabel_named r.tenant, (numeral _).whole⟩
    · exact ⟨count, by simpa using tenantLabel_named r.tenant, whole_counter _⟩

theorem scrapeLines_sound {displaySeconds : UInt64 → String}
    (numeral : ∀ us, Numeral (displaySeconds us)) (registries : List MetricsRegistry)
    (d : DaemonMetrics) : ∀ line ∈ scrapeLines displaySeconds registries d, line.Sound := by
  intro line member
  simp only [scrapeLines, List.mem_append] at member
  rcases member with ((member | member) | member) | member
  · obtain ⟨series, present, here⟩ := List.mem_flatMap.mp member
    obtain ⟨help, kind⟩ := tenantSeries_legible series present
    simp only [Series.lines, List.mem_cons, List.mem_map] at here
    rcases here with rfl | rfl | ⟨r, _, rfl⟩
    · exact isName_of_legible help
    · exact isName_of_legible kind
    · exact ⟨(isName_of_legible help).1, by simpa using tenantLabel_named r.tenant,
        whole_counter _⟩
  · have named : legible "qgateway_handshake_seconds" "Handshake duration (seconds)." = true ∧
        legible "qgateway_handshake_seconds" "histogram" = true := by decide
    simp only [List.mem_cons, List.not_mem_nil, or_false] at member
    rcases member with rfl | rfl
    · exact isName_of_legible named.1
    · exact isName_of_legible named.2
  · obtain ⟨r, _, here⟩ := List.mem_flatMap.mp member
    exact histogramLines_sound numeral r line here
  · obtain ⟨row, present, here⟩ := List.mem_flatMap.mp member
    have named := isName_of_legible (daemonSeries_legible d row present)
    simp only [daemonLines, List.mem_cons, List.not_mem_nil, or_false] at here
    rcases here with rfl | rfl | rfl
    · exact named
    · exact ⟨named.1, by decide⟩
    · exact ⟨named.1, by simp, (numeral_nat row.2.2).whole⟩

/-- The body of `/metrics` is read back as the lines that it was put together from, whatever
the tenants are called: no name breaks a line or forges a sample, every series of a tenant
has the values of its registries, and every daemon counter has its own. -/
theorem metrics_body_faithful {displaySeconds : UInt64 → String}
    (numeral : ∀ us, Numeral (displaySeconds us)) (registries : List MetricsRegistry)
    (d : DaemonMetrics) :
    ∃ lines, parse? (metricsBody displaySeconds registries d).toList = some lines ∧
      lines = scrapeLines displaySeconds registries d ∧
      (∀ series ∈ tenantSeries, ∀ tenant, valuesOf lines series.name [tenantLabel tenant] =
        (registries.filter fun r => r.tenant = tenant).map fun r =>
          (toString (r.inner series.counter)).toList) ∧
      ∀ row ∈ daemonSeries d, valuesOf lines row.1 [] = [(toString row.2.2).toList] := by
  have header (metric : String) (labels : List Label) : valuesOf
      [.help "qgateway_handshake_seconds".toList "Handshake duration (seconds).".toList,
        .type "qgateway_handshake_seconds".toList "histogram".toList] metric labels = [] := rfl
  refine ⟨_, ?_, rfl, ?_, ?_⟩
  · rw [metricsBody_spells numeral]
    exact parse?_lines (scrapeLines_sound numeral registries d)
  · intro series member tenant
    have histograms : valuesOf (registries.flatMap (histogramLines displaySeconds)) series.name
        [tenantLabel tenant] = [] := by
      refine valuesOf_eq_nil fun shown present => .inl ?_
      obtain ⟨r, _, here⟩ := List.mem_flatMap.mp present
      exact fun same => tenantSeries_apart series member (same ▸ (histogramLines_shown here).2)
    have daemon : valuesOf ((daemonSeries d).flatMap daemonLines) series.name
        [tenantLabel tenant] = [] := by
      refine valuesOf_eq_nil fun shown present => .inr ?_
      obtain ⟨row, _, here⟩ := List.mem_flatMap.mp present
      rw [(daemonLines_metric row shown here).2]
      exact (List.cons_ne_nil _ _).symm
    rw [scrapeLines, valuesOf_append, valuesOf_append, valuesOf_append,
      valuesOf_flatMap Series.lines_metric tenantSeries_distinct member, valuesOf_series, header,
      histograms, daemon]
    simp
  · intro row member
    have series : valuesOf (tenantSeries.flatMap (·.lines registries)) row.1 [] = [] := by
      refine valuesOf_eq_nil fun shown present => .inr ?_
      obtain ⟨series, _, here⟩ := List.mem_flatMap.mp present
      simp only [Series.lines, List.mem_cons, reduceCtorEq, List.mem_map,
        Line.sample.injEq, false_or] at here
      obtain ⟨_, _, rfl⟩ := here
      exact List.cons_ne_nil _ _
    have histograms :
        valuesOf (registries.flatMap (histogramLines displaySeconds)) row.1 [] = [] := by
      refine valuesOf_eq_nil fun shown present => .inr ?_
      obtain ⟨r, _, here⟩ := List.mem_flatMap.mp present
      exact (histogramLines_shown here).1
    rw [scrapeLines, valuesOf_append, valuesOf_append, valuesOf_append, series, header, histograms,
      valuesOf_flatMap (fun row shown member => (daemonLines_metric row shown member).1)
        (daemonSeries_distinct d) member]
    simp [valuesOf, daemonLines]

/-- Microseconds as decimal seconds, without trailing zeros. -/
def decimalSeconds (us : UInt64) : String :=
  let digits := Nat.toDigits 10 (us.toNat % 1000000)
  let fraction :=
    ((List.replicate (6 - digits.length) '0' ++ digits).reverse.dropWhile (· = '0')).reverse
  toString (us.toNat / 1000000) ++ if fraction = [] then "" else String.ofList ('.' :: fraction)

theorem numeral_decimalSeconds (us : UInt64) : Numeral (decimalSeconds us) := by
  have whole := numeral_nat (us.toNat / 1000000)
  rw [decimalSeconds]
  refine ⟨by simp, ?_⟩
  intro c member
  rw [String.toList_append, List.mem_append] at member
  rcases member with member | member
  · exact whole.2 c member
  · split at member
    · simp at member
    · rw [String.toList_ofList, List.mem_cons, List.mem_reverse] at member
      rcases member with point | member
      · exact .inr point
      · have digit := (List.dropWhile_sublist _).subset member
        rw [List.mem_reverse, List.mem_append] at digit
        rcases digit with zero | digit
        · exact .inl (List.eq_of_mem_replicate zero ▸ rfl)
        · exact .inl (Nat.isDigit_of_mem_toDigits (by decide) (by decide) digit)

/-- A tenant whose name ends its own label and starts a line for another tenant. -/
def forger : MetricsRegistry where
  inner := Metrics.zero.fetchAdd .sessionsActive 7
  tenant := "x\"\x7d 1\nqgateway_sessions_active\x7btenant=\"y"

theorem metrics_body_faithful_forger :
    ∃ lines, parse? (metricsBody decimalSeconds [forger] .zero).toList = some lines ∧
      valuesOf lines "qgateway_sessions_active" [tenantLabel "y"] = [] ∧
      valuesOf lines "qgateway_sessions_active" [tenantLabel forger.tenant] = [['7']] := by
  obtain ⟨lines, read, _, series, _⟩ :=
    metrics_body_faithful numeral_decimalSeconds [forger] .zero
  have member : (⟨"gauge", "qgateway_sessions_active", "Currently open CSPQ sessions.",
      .sessionsActive⟩ : Series) ∈ tenantSeries := by simp [tenantSeries]
  have other : ([forger].filter fun r => r.tenant = "y") = [] :=
    List.filter_cons_of_neg (by decide)
  have own : ([forger].filter fun r => r.tenant = forger.tenant) = [forger] :=
    List.filter_cons_of_pos (by simp)
  have seven : (toString (forger.inner .sessionsActive)).toList = ['7'] := by decide
  refine ⟨lines, read, ?_, ?_⟩
  · rw [series _ member "y", other]
    rfl
  · rw [series _ member forger.tenant, own, List.map_singleton, seven]

end CofreSoberano.Gateway
