import CofreSoberano.Gateway.AcceptLoop
import CofreSoberano.Gateway.Limits
import CofreSoberano.Std.Tally

/-!
# The metrics registry of a tenant

The counters of `Metrics` are atomics that wrap. `observe_handshake` makes three updates,
and other tasks run between them, so each is a step of its own. A `Duration`
enters the histogram in microseconds.
-/

namespace CofreSoberano.Gateway

open CofreSoberano.Std

/-- The counters of `Metrics`. -/
inductive Counter where
  | sessionsOpened
  | sessionsClosed
  | sessionsFailed
  | sessionsActive
  | bytesC2s
  | bytesS2c
  | auditEvents
  | auditFailures
  | auditRotations
  | admissionRejectedQuota
  | admissionRejectedRate
  | hsmSessionsOpened
  | hsmSessionsFailed
  | hsmSignOps
  | hsmSignFailures
  | handshakeCount
  | handshakeSumUs
  | handshakeBuckets (index : Nat)
deriving DecidableEq, Repr

/-- `Metrics`: the value of every counter. -/
abbrev Metrics := Counter → UInt64

/-- `HANDSHAKE_BUCKETS_US`. -/
def handshakeBucketsUs : List UInt64 :=
  [500, 1000, 2000, 5000, 10000, 20000, 50000, 100000, 250000, 500000, 1000000]

/-- The bucket that `observe_handshake` picks: the first whose bound is not below, or the
one past the bounds. -/
def handshakeBucket (us : UInt64) : Nat := handshakeBucketsUs.findIdx fun bound => us ≤ bound

/-- `Duration::as_micros`, cut to 64 bits. -/
def asMicros (nanos : Nat) : UInt64 := UInt64.ofNat (min (nanos / 1000) (UInt64.size - 1))

/-- The counter that `record_admission_reject` bumps. -/
def RejectReason.counter : RejectReason → Counter
  | .quota => .admissionRejectedQuota
  | .rate => .admissionRejectedRate

namespace Metrics

/-- `Metrics::default`. -/
def zero : Metrics := fun _ => 0

/-- `fetch_add`. -/
def fetchAdd (metrics : Metrics) (counter : Counter) (n : UInt64) : Metrics :=
  fun other => if other = counter then metrics other + n else metrics other

/-- `fetch_sub`. -/
def fetchSub (metrics : Metrics) (counter : Counter) (n : UInt64) : Metrics :=
  fun other => if other = counter then metrics other - n else metrics other

/-- `handshake_buckets_snapshot`. -/
def handshakeBucketsSnapshot (metrics : Metrics) : List UInt64 :=
  (List.range (handshakeBucketsUs.length + 1)).map fun index => metrics (.handshakeBuckets index)

end Metrics

/-- What the buckets of a snapshot add up to. -/
def bucketTotal : List UInt64 → UInt64
  | [] => 0
  | bucket :: rest => bucket + bucketTotal rest

end CofreSoberano.Gateway
