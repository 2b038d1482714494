import CofreSoberano.Gateway.Balance
import CofreSoberano.Gateway.Session
import Mathlib.Algebra.Order.BigOperators.Group.List

/-!
# Scrapes of the handshake histogram

`render_prometheus` loads the buckets of a tenant one after another, then the sum, then the
count, while sessions go on being observed. The lines it writes are cumulated from what it
loaded. All of these are relaxed atomics, so a load may return what its counter held at an
earlier moment than the load before it. The updates are taken as interleaved, the loads are
not: each reads its own moment. The lines then lie between what had been observed at the
first and at the last of these moments. Only if the moments are in the order of the loads, as
under sequential consistency, `+Inf` does not exceed the count.
-/

namespace CofreSoberano.Gateway.Serving

open CofreSoberano.Std

/-- The cumulative values that the loop of `render_prometheus` writes. -/
def cumulate (cumulative : UInt64) : List UInt64 → List UInt64
  | [] => []
  | bucket :: rest =>
      Proxy.saturatingAdd cumulative bucket :: cumulate (Proxy.saturatingAdd cumulative bucket) rest

theorem length_cumulate (cumulative : UInt64) (buckets : List UInt64) :
    (cumulate cumulative buckets).length = buckets.length := by
  induction buckets generalizing cumulative with
  | nil => rfl
  | cons bucket rest inductionHypothesis =>
      rw [cumulate, List.length_cons, inductionHypothesis]; rfl

/-- The handshakes that a bucket line counts: those up to its bound, or all of them. -/
def withinBound (index : Nat) (us : UInt64) : Bool :=
  match handshakeBucketsUs[index]? with
  | some bound => us ≤ bound
  | none => true

/-- The connections whose handshake was observed and that a bucket line counts. -/
def Tenant.observed (tenant : Tenant) (index : Nat) : Nat :=
  tenant.connections.countP fun connection =>
    5 ≤ connection.stage.booked && withinBound index (asMicros connection.elapsed)

/-- The values that a scrape loads; `position` is the moment that each of its loads reads. -/
def loaded (history : Nat → Tenant) (position : Nat → Nat) : List UInt64 :=
  (List.range (handshakeBucketsUs.length + 1)).map fun index =>
    (history (position index)).metrics (.handshakeBuckets index)

/-- The count that a scrape loads behind the buckets and the sum. -/
def loadedCount (history : Nat → Tenant) (position : Nat → Nat) : UInt64 :=
  (history (position (handshakeBucketsUs.length + 2))).metrics .handshakeCount

theorem handshakeBucketsUs_sorted : handshakeBucketsUs.Pairwise (· ≤ ·) := by decide

/-- The bounds increase, so the first bound that is not below is at most the index of every
other such bound. -/
theorem handshakeBucket_le_iff (index : Nat) (us : UInt64) :
    handshakeBucket us ≤ index ↔ withinBound index us = true := by
  rw [handshakeBucket, findIdx_le_iff, withinBound]
  · cases handshakeBucketsUs[index]? <;> simp
  · refine handshakeBucketsUs_sorted.imp ?_
    intro bound later ordered within
    exact decide_eq_true (UInt64.le_trans (of_decide_eq_true within) ordered)

section Saturation

/-- Without overflow, the cumulative values are the partial sums. -/
theorem cumulate_getElem {cumulative : UInt64} {buckets : List UInt64} {index : Nat}
    (inside : index < buckets.length)
    (fits : cumulative.toNat + (buckets.map UInt64.toNat).sum < 2 ^ 64) :
    ∃ line, (cumulate cumulative buckets)[index]? = some line ∧
      line.toNat = cumulative.toNat + ((buckets.take (index + 1)).map UInt64.toNat).sum := by
  induction buckets generalizing cumulative index with
  | nil => simp at inside
  | cons bucket rest inductionHypothesis =>
      rw [List.map_cons, List.sum_cons] at fits
      have added : (Proxy.saturatingAdd cumulative bucket).toNat =
          cumulative.toNat + bucket.toNat := by
        have size : UInt64.size = 2 ^ 64 := rfl
        rw [Proxy.saturatingAdd, Nat.min_eq_left (by omega), UInt64.toNat_ofNat_of_lt']
        omega
      cases index with
      | zero => exact ⟨_, rfl, by simp [added]⟩
      | succ index =>
          obtain ⟨line, found, value⟩ := @inductionHypothesis
            (Proxy.saturatingAdd cumulative bucket) index (by simpa using inside) (by omega)
          refine ⟨line, by simpa [cumulate] using found, ?_⟩
          rw [value, added, List.take_succ_cons, List.map_cons, List.sum_cons, Nat.add_assoc]

end Saturation

section Growth

variable {service : Service} {tenant next : Tenant} {connection after : Connection} {now : Instant}
  {succeeds : Bool}

/-- An observed connection stays observed, with the handshake it had. -/
theorem advance_observed
    (advanced : advance service tenant connection now succeeds = some (next, after)) :
    connection.stage.booked ≤ after.stage.booked ∧
      (1 ≤ connection.stage.booked → after.elapsed = connection.elapsed) := by
  cases stage : connection.stage with
  | leaving outcome =>
      simp only [advance, stage, leave] at advanced
      have same : after.stage = .ended outcome ∧ after.elapsed = connection.elapsed := by
        split at advanced
        · cases advanced
          exact ⟨rfl, rfl⟩
        · obtain ⟨installed, _, ⟨⟩⟩ := Option.bind_eq_some_iff.mp advanced
          exact ⟨rfl, rfl⟩
      rw [same.1, same.2]
      cases outcome <;> exact ⟨Nat.le_refl _, fun _ => rfl⟩
  | ended outcome => simp [advance, stage] at advanced
  | failing | opening | activating | counting | summing | bucketing | proxying | deactivating
  | closing =>
      simp only [advance, stage] at advanced
      cases advanced
      exact ⟨by simp [Connection.goTo, Stage.booked], fun _ => rfl⟩
  | _ => exact ⟨Nat.zero_le _, by simp [Stage.booked]⟩

/-- What only grows along the moves of a tenant: a count of connections that no step leaves. -/
theorem step_countP {move : Move} (counted : Connection → Bool)
    (keeps : ∀ {tenant next : Tenant} {connection after : Connection} {now : Instant}
      {succeeds : Bool}, advance service tenant connection now succeeds = some (next, after) →
        counted connection = true → counted after = true)
    (moved : step service tenant move = some next) :
    tenant.connections.countP counted ≤ next.connections.countP counted := by
  cases move with
  | accept peer =>
      simp only [step, Option.ite_none_left_eq_some] at moved
      obtain ⟨_, ⟨⟩⟩ := moved
      simp [List.countP_append]
  | swap settings =>
      cases moved
      exact Nat.le_refl _
  | run index now succeeds =>
      simp only [step, Option.ite_none_right_eq_some] at moved
      obtain ⟨_, moved⟩ := moved
      obtain ⟨connection, found, moved⟩ := Option.bind_eq_some_iff.mp moved
      obtain ⟨⟨reached, after⟩, advanced, ⟨⟩⟩ := Option.bind_eq_some_iff.mp moved
      have replaced := countP_set counted found after
      have kept := keeps advanced
      cases before : counted connection with
      | false =>
          rw [before] at replaced
          have none : (false : Bool).toNat = 0 := rfl
          simp only
          omega
      | true =>
          rw [before, kept before] at replaced
          simp only
          omega

/-- Along a run, a count of connections that no step leaves grows, and the connections stay. -/
theorem Runs.countP {settings : AdmissionSettings} {moves : List Move}
    (counted : Connection → Bool)
    (keeps : ∀ {tenant next : Tenant} {connection after : Connection} {now : Instant}
      {succeeds : Bool}, advance service tenant connection now succeeds = some (next, after) →
        counted connection = true → counted after = true)
    (run : (machine service settings).Runs (machine service settings).Free tenant moves next) :
    tenant.connections.countP counted ≤ next.connections.countP counted := by
  refine run.invariant
    (fun next : Tenant => tenant.connections.countP counted ≤ next.connections.countP counted)
    (Nat.le_refl _) ?_
  intro state move after grown _ moved
  exact Nat.le_trans grown (step_countP counted keeps moved)

/-- What a bucket has counted. -/
def Connection.inBucket (index : Nat) (connection : Connection) : Bool :=
  5 ≤ connection.stage.booked && handshakeBucket (asMicros connection.elapsed) = index

theorem inBucket_keeps {index : Nat}
    (advanced : advance service tenant connection now succeeds = some (next, after))
    (counted : connection.inBucket index = true) : after.inBucket index = true := by
  obtain ⟨grows, same⟩ := advance_observed advanced
  simp only [Connection.inBucket, Bool.and_eq_true, decide_eq_true_eq] at counted ⊢
  rw [same (by omega)]
  exact ⟨by omega, counted.2⟩

end Growth

section Scrapes

variable {service : Service} {settings : AdmissionSettings} {history : Nat → Tenant}

/-- While a registry counts fewer than 2^64 connections, a bucket holds the number of them. -/
theorem bucket_toNat {tenant : Tenant} (books : tenant.Booked)
    (fits : tenant.connections.length < 2 ^ 64) (index : Nat) :
    (tenant.metrics (.handshakeBuckets index)).toNat =
      tenant.connections.countP (·.inBucket index) := by
  have within := List.countP_le_length (p := (·.inBucket index)) (l := tenant.connections)
  have credits : tally (fun connection => connection.credit (.handshakeBuckets index))
      tenant.connections = tenant.connections.countP (·.inBucket index) := by
    rw [countP_eq_tally]
    congr 1
    funext connection
    simp [Connection.credit, Connection.inBucket]
  have size : UInt64.size = 2 ^ 64 := rfl
  rw [books, credits, UInt64.toNat_ofNat_of_lt']
  omega

theorem tally_eq_sum (credit : Nat → Nat) (items : List Nat) :
    tally credit items = (items.map credit).sum := by
  induction items with
  | nil => rfl
  | cons item items inductionHypothesis =>
      rw [tally_cons, inductionHypothesis, List.map_cons, List.sum_cons]

/-- The connections up to a bound are those in the buckets up to it. -/
theorem sum_inBucket (tenant : Tenant) (index : Nat) :
    ((List.range (index + 1)).map fun bucket => tenant.connections.countP
      (·.inBucket bucket)).sum = tenant.observed index := by
  simp only [countP_eq_tally, Tenant.observed]
  rw [← tally_eq_sum, tally_swap fun bucket connection =>
    (Connection.inBucket bucket connection).toNat]
  congr 1
  funext connection
  by_cases observed : 5 ≤ connection.stage.booked
  · have within := handshakeBucket_le_iff index (asMicros connection.elapsed)
    rw [← Nat.lt_succ_iff] at within
    simp only [Connection.inBucket, observed, decide_true, Bool.true_and, tally_range_indicator]
    congr 1
    rw [Bool.eq_iff_iff, decide_eq_true_iff]
    exact within
  · simp [Connection.inBucket, observed, tally_const]

/-- The count of observed handshakes. -/
theorem handshakeCount_toNat {tenant : Tenant} (books : tenant.Booked)
    (fits : tenant.connections.length < 2 ^ 64) :
    (tenant.metrics .handshakeCount).toNat =
      tenant.connections.countP fun connection => 3 ≤ connection.stage.booked := by
  have within := List.countP_le_length (p := fun connection : Connection =>
    decide (3 ≤ connection.stage.booked)) (l := tenant.connections)
  have credits : tally (fun connection => connection.credit .handshakeCount) tenant.connections =
      tenant.connections.countP fun connection => 3 ≤ connection.stage.booked := by
    rw [countP_eq_tally]
    rfl
  have size : UInt64.size = 2 ^ 64 := rfl
  rw [books, credits, UInt64.toNat_ofNat_of_lt']
  omega

section Loads

variable (goesOn : ∀ moment, ∃ moves, (machine service settings).Runs
    (machine service settings).Free (history moment) moves (history (moment + 1)))
include goesOn

/-- The tenant runs from every moment to every later one. -/
theorem runs_between {moment later : Nat} (ordered : moment ≤ later) :
    ∃ moves, (machine service settings).Runs (machine service settings).Free
      (history moment) moves (history later) := by
  induction ordered with
  | refl => exact ⟨[], .nil⟩
  | step _ inductionHypothesis =>
      obtain ⟨moves, before⟩ := inductionHypothesis
      obtain ⟨further, after⟩ := goesOn _
      exact ⟨moves ++ further, before.trans after⟩

/-- The books of a tenant balance at every moment. -/
theorem booked_at
    (began : (machine service settings).Reachable (machine service settings).Free (history 0))
    (moment : Nat) : (history moment).Booked := by
  obtain ⟨start, first, initial, before⟩ := began
  obtain ⟨moves, after⟩ := runs_between goesOn (Nat.zero_le moment)
  exact reachable_booked ⟨start, first ++ moves, initial, before.trans after⟩

/-- What a bucket has counted grows. -/
theorem inBucket_grows (bucket : Nat) {moment later : Nat} (ordered : moment ≤ later) :
    (history moment).connections.countP (·.inBucket bucket) ≤
      (history later).connections.countP (·.inBucket bucket) := by
  obtain ⟨moves, after⟩ := runs_between goesOn ordered
  exact Runs.countP _ inBucket_keeps after

/-- What a line counts has been counted by every later moment of the count. -/
theorem observed_le_count (index : Nat) {moment later : Nat} (ordered : moment ≤ later) :
    (history moment).observed index ≤
      (history later).connections.countP fun connection => 3 ≤ connection.stage.booked := by
  obtain ⟨moves, after⟩ := runs_between goesOn ordered
  have counted : (history moment).observed index ≤
      (history moment).connections.countP fun connection => 3 ≤ connection.stage.booked := by
    refine List.countP_mono_left fun connection _ observed => ?_
    simp only [Bool.and_eq_true, decide_eq_true_eq] at observed ⊢
    omega
  refine Nat.le_trans counted (Runs.countP _ (fun advanced booked => ?_) after)
  have grown := (advance_observed advanced).1
  simp only [decide_eq_true_eq] at booked ⊢
  omega

variable {position : Nat → Nat} {bound : Nat} (inside : bound ≤ handshakeBucketsUs.length)
  (books : ∀ moment, (history moment).Booked)
  (fits : ∀ moment, (history moment).connections.length < 2 ^ 64)

omit goesOn in
include books fits inside in
/-- The buckets up to a bound, each as it was loaded. -/
theorem loaded_take_sum :
    (((loaded history position).take (bound + 1)).map UInt64.toNat).sum =
      ((List.range (bound + 1)).map fun bucket =>
        (history (position bucket)).connections.countP (·.inBucket bucket)).sum := by
  rw [loaded, List.map_take, List.map_map, ← List.map_take, List.take_range,
    Nat.min_eq_left (by omega)]
  congr 2
  funext bucket
  exact bucket_toNat (books _) (fits _) bucket

include books fits inside in
/-- They add up to at most what was observed at a moment that none of the loads passed. -/
theorem loaded_take_le {last : Nat} (before : ∀ bucket ≤ bound, position bucket ≤ last) :
    (((loaded history position).take (bound + 1)).map UInt64.toNat).sum ≤
      (history last).observed bound := by
  rw [loaded_take_sum inside books fits, ← sum_inBucket]
  refine List.sum_le_sum fun bucket member => inBucket_grows goesOn bucket (before bucket ?_)
  exact Nat.le_of_lt_succ (List.mem_range.mp member)

include books fits inside in
/-- They add up to at least what was observed at a moment that all of the loads reached. -/
theorem le_loaded_take {first : Nat} (behind : ∀ bucket ≤ bound, first ≤ position bucket) :
    (history first).observed bound ≤
      (((loaded history position).take (bound + 1)).map UInt64.toNat).sum := by
  rw [loaded_take_sum inside books fits, ← sum_inBucket]
  refine List.sum_le_sum fun bucket member => inBucket_grows goesOn bucket (behind bucket ?_)
  exact Nat.le_of_lt_succ (List.mem_range.mp member)

end Loads

/-- A scrape in the middle of a run whose loads read any moments of a window: the line of
every bound lies between what had been observed up to that bound at the ends of the window.
If the moments are in the order of the loads, the line also counts at most what had been
observed when the last of its buckets was loaded, and does not exceed the count that is
loaded after it. -/
theorem scrape_between
    (began : (machine service settings).Reachable (machine service settings).Free (history 0))
    (goesOn : ∀ moment, ∃ moves, (machine service settings).Runs (machine service settings).Free
      (history moment) moves (history (moment + 1)))
    (fits : ∀ moment, (history moment).connections.length < 2 ^ 64)
    {position : Nat → Nat} {first last : Nat}
    (window : ∀ load, first ≤ position load ∧ position load ≤ last)
    {index : Nat} (inside : index ≤ handshakeBucketsUs.length) :
    ∃ line, (cumulate 0 (loaded history position))[index]? = some line ∧
      (history first).observed index ≤ line.toNat ∧
      line.toNat ≤ (history last).observed index ∧
      ((∀ load, position load ≤ position (load + 1)) →
        line.toNat ≤ (history (position index)).observed index ∧
          line ≤ loadedCount history position) := by
  have books := booked_at goesOn began
  have size : (loaded history position).length = handshakeBucketsUs.length + 1 := by simp [loaded]
  -- Nothing saturates: all buckets together count at most the connections.
  have total := loaded_take_le goesOn (Nat.le_refl handshakeBucketsUs.length) books fits
    fun bucket _ => (window bucket).2
  rw [← size, List.take_length] at total
  have counted : (history last).observed handshakeBucketsUs.length ≤
      (history last).connections.length := List.countP_le_length
  have all := fits last
  obtain ⟨line, found, value⟩ := @cumulate_getElem 0 (loaded history position) index (by omega)
    (by rw [UInt64.toNat_zero]; omega)
  rw [UInt64.toNat_zero, Nat.zero_add] at value
  refine ⟨line, found, ?_, ?_, fun inOrder => ?_⟩
  · rw [value]
    exact le_loaded_take goesOn inside books fits fun bucket _ => (window bucket).1
  · rw [value]
    exact loaded_take_le goesOn inside books fits fun bucket _ => (window bucket).2
  · have ordered : ∀ {load later : Nat}, load ≤ later → position load ≤ position later :=
      fun before => monotone_nat_of_le_succ inOrder before
    have upper : line.toNat ≤ (history (position index)).observed index := by
      rw [value]
      exact loaded_take_le goesOn inside books fits fun bucket before => ordered before
    refine ⟨upper, ?_⟩
    rw [UInt64.le_iff_toNat_le, loadedCount, handshakeCount_toNat (books _) (fits _)]
    exact Nat.le_trans upper (observed_le_count goesOn index (ordered (by omega)))

/-- A session whose handshake is about to be counted. -/
def aboutToObserve : List Move := .accept (.v4 1) :: List.replicate 8 (.run 0 earliest true)

/-- The three updates of `observe_handshake`. -/
def observing : List Move := List.replicate 3 (.run 0 earliest true)

/-- A history with one change. -/
def changing (before after : Tenant) (moment : Nat) : Tenant :=
  if moment = 0 then before else after

theorem changing_goesOn {before after : Tenant} {moves : List Move}
    (run : (machine service settings).Runs (machine service settings).Free before moves after)
    (moment : Nat) : ∃ moves, (machine service settings).Runs (machine service settings).Free
      (changing before after moment) moves (changing before after (moment + 1)) := by
  cases moment with
  | zero => exact ⟨moves, run⟩
  | succ moment => exact ⟨[], .nil⟩

/-- A tenant before and after a session observed its handshake. -/
theorem observed_between :
    ∃ before after : Tenant,
      (machine ⟨.serveTcp, false⟩ ⟨none, none⟩).exec
        (start ⟨none, none⟩) aboutToObserve = some before ∧
      (machine ⟨.serveTcp, false⟩ ⟨none, none⟩).exec before observing = some after ∧
      (∀ moment, (changing before after moment).connections.length = 1) ∧
      before.observed 11 = 0 ∧ after.observed 11 = 1 ∧
      before.metrics .handshakeCount = 0 ∧
      (cumulate 0 (loaded (changing before after) fun _ => 1))[11]? = some 1 := by
  obtain ⟨before, executed⟩ : ∃ before, (machine ⟨.serveTcp, false⟩ ⟨none, none⟩).exec
      (start ⟨none, none⟩) aboutToObserve = some before := ⟨_, rfl⟩
  obtain ⟨after, moved⟩ : ∃ after,
    (machine ⟨.serveTcp, false⟩ ⟨none, none⟩).exec before
      observing = some after := by
    cases executed
    exact ⟨_, rfl⟩
  refine ⟨before, after, executed, moved, ?_⟩
  cases executed
  cases moved
  refine ⟨fun moment => ?_, rfl, rfl, rfl, rfl⟩
  cases moment <;> rfl

/-- The first bucket is loaded before a handshake is observed, all others behind it. -/
theorem scrape_between_underway :
    ∃ (history : Nat → Tenant) (position : Nat → Nat) (line : UInt64),
      (cumulate 0 (loaded history position))[11]? = some line ∧
      (history (position 0)).observed 11 = 0 ∧ (history (position 11)).observed 11 = 1 ∧
      line.toNat ≤ 1 ∧ line ≤ loadedCount history position := by
  obtain ⟨before, after, executed, moved, length, none, one, _⟩ := observed_between
  have inOrder : ∀ load, (fun load => min load 1) load ≤ (fun load => min load 1) (load + 1) :=
    fun load => by simp only; omega
  obtain ⟨line, found, _, upper, ordered⟩ :=
    @scrape_between ⟨.serveTcp, false⟩ ⟨.none, .none⟩
    (changing before after) (.of_exec rfl executed) (changing_goesOn (.of_exec moved))
    (fun moment => by rw [length]; decide) (fun load => min load 1) 0 1
    (fun load => ⟨Nat.zero_le _, Nat.min_le_right _ _⟩) 11 (by decide)
  exact ⟨_, _, line, found, none, one, upper.trans_eq one, (ordered inOrder).2⟩

/-- If the count is loaded from before the moment of the buckets, `+Inf` exceeds it. -/
theorem scrape_out_of_order :
    ∃ (before after : Tenant) (position : Nat → Nat) (line : UInt64),
      (machine ⟨.serveTcp, false⟩ ⟨none, none⟩).exec
        (start ⟨none, none⟩) aboutToObserve = some before ∧
      (machine ⟨.serveTcp, false⟩ ⟨none, none⟩).exec before observing = some after ∧
      (cumulate 0 (loaded (changing before after) position))[11]? = some line ∧
      loadedCount (changing before after) position < line := by
  obtain ⟨before, after, executed, moved, _, _, _, uncounted, cumulated⟩ := observed_between
  refine ⟨before, after, fun load => if load ≤ 11 then 1 else 0, 1, executed, moved, ?_, ?_⟩
  · exact cumulated
  · have counted : loadedCount (changing before after) (fun load => if load ≤ 11 then 1 else 0) =
        before.metrics .handshakeCount := rfl
    rw [counted, uncounted]
    decide

end Scrapes

end CofreSoberano.Gateway.Serving
