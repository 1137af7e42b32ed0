import TSymbiote.Lib.Int64

/-! # Deadlines of slow requests

`Ping` and `Pprof` give an adapter the time it asks for and some more. Durations
are nanoseconds in 64 bits, and what the requester sends is multiplied without a
check.
-/

namespace TSymbiote.WebUI

/-- `time.Second` -/
def second : Int64 := 1000000000

def outgoingRequestTimeout : Int64 := second * 5

/-- What `Ping` adds to the current time. -/
def totalDelay (count delay : Int64) : Int64 := count * delay + outgoingRequestTimeout

/-- What `Pprof` adds to the current time. -/
def deadlineTimeout (seconds : Int64) : Int64 := seconds * second + outgoingRequestTimeout

/-- How long the adapter's loop sleeps, when these of its pings succeed. -/
def sleeps (delay : Int) : List Bool → Int
  | [] => 0
  | succeeded :: pings => if succeeded then delay + sleeps delay pings else sleeps delay pings

/-- A decoded ping input whose delay parses, neither it nor the count negative. -/
structure PingRequest (parseDuration : String → Option Int64) where
  count : Int64
  delay : String
  duration : Int64
  parsed : parseDuration delay = some duration
  count_nonneg : 0 ≤ count.toInt
  duration_nonneg : 0 ≤ duration.toInt

structure PprofRequest where
  seconds : Int64
  seconds_nonneg : 0 ≤ seconds.toInt

variable {parseDuration : String → Option Int64}

/-- The exact duration, which the adapter's sleeps do not exceed. -/
structure PingRequest.Right (r : PingRequest parseDuration) : Prop where
  exact : (totalDelay r.count r.duration).toInt = r.count.toInt * r.duration.toInt + 5000000000
  outlasts : ∀ pings : List Bool, pings.length = r.count.toInt.toNat →
    sleeps r.duration.toInt pings ≤ (totalDelay r.count r.duration).toInt

/-- The exact duration, which the time of sampling does not exceed. -/
structure PprofRequest.Right (r : PprofRequest) : Prop where
  exact : (deadlineTimeout r.seconds).toInt = r.seconds.toInt * 1000000000 + 5000000000
  outlasts : r.seconds.toInt * 1000000000 ≤ (deadlineTimeout r.seconds).toInt

theorem second_toInt : second.toInt = 1000000000 := by decide

theorem outgoingRequestTimeout_toInt : outgoingRequestTimeout.toInt = 5000000000 := by decide

/-- Each ping sleeps once at most. -/
theorem sleeps_le {delay : Int} (hdelay : 0 ≤ delay) (pings : List Bool) :
    sleeps delay pings ≤ pings.length * delay := by
  induction pings with
  | nil => simp [sleeps]
  | cons succeeded pings ih =>
      have hlength : ((succeeded :: pings).length : Int) * delay = delay + pings.length * delay := by
        rw [List.length_cons, Int.natCast_succ, Int.add_mul, Int.one_mul, Int.add_comm]
      unfold sleeps
      rw [hlength]
      split
      · omega
      · omega

theorem totalDelay_iff (r : PingRequest parseDuration) :
    r.Right ↔ r.count.toInt * r.duration.toInt + 5000000000 < 2 ^ 63 := by
  have hexact := mul_add_exact_iff r.count r.duration outgoingRequestTimeout
  rw [outgoingRequestTimeout_toInt] at hexact
  have hnonneg : 0 ≤ r.count.toInt * r.duration.toInt :=
    Int.mul_nonneg r.count_nonneg r.duration_nonneg
  constructor
  · intro hright
    exact (hexact.mp hright.exact).2
  · intro hbound
    have hfits : Fits (r.count.toInt * r.duration.toInt + 5000000000) := by
      unfold Fits
      omega
    have htotal : (totalDelay r.count r.duration).toInt = _ := hexact.mpr hfits
    refine ⟨htotal, fun pings hpings => ?_⟩
    have hsleeps := sleeps_le r.duration_nonneg pings
    rw [hpings, Int.toNat_of_nonneg r.count_nonneg] at hsleeps
    omega

theorem deadlineTimeout_iff (r : PprofRequest) :
    r.Right ↔ r.seconds.toInt * 1000000000 + 5000000000 < 2 ^ 63 := by
  have hexact := mul_add_exact_iff r.seconds second outgoingRequestTimeout
  rw [outgoingRequestTimeout_toInt, second_toInt] at hexact
  have hnonneg := r.seconds_nonneg
  constructor
  · intro hright
    exact (hexact.mp hright.exact).2
  · intro hbound
    have hfits : Fits (r.seconds.toInt * 1000000000 + 5000000000) := by
      unfold Fits
      omega
    have htotal : (deadlineTimeout r.seconds).toInt = _ := hexact.mpr hfits
    refine ⟨htotal, ?_⟩
    omega

/-- The deadlines are right exactly as long as the durations fit. -/
theorem deadlines_right_iff (parseDuration : String → Option Int64) :
    (∀ r : PingRequest parseDuration,
      r.Right ↔ r.count.toInt * r.duration.toInt + 5000000000 < 2 ^ 63) ∧
    ∀ r : PprofRequest, r.Right ↔ r.seconds.toInt * 1000000000 + 5000000000 < 2 ^ 63 :=
  ⟨totalDelay_iff, deadlineTimeout_iff⟩

def parseOneSecond (delay : String) : Option Int64 := if delay = "1s" then some second else none

/-- Ten thousand million pings, a second apart. -/
def patient : PingRequest parseOneSecond where
  count := 10000000000
  delay := "1s"
  duration := second
  parsed := by decide
  count_nonneg := by decide
  duration_nonneg := by decide

/-- Their deadline has passed before the request begins. -/
theorem patient_expired : (totalDelay patient.count patient.duration).toInt < 0 ∧ ¬ patient.Right := by
  have hnegative : (totalDelay patient.count patient.duration).toInt < 0 := by decide
  refine ⟨hnegative, fun hright => ?_⟩
  have hsleeps := hright.exact
  have hexact : patient.count.toInt * patient.duration.toInt + 5000000000 = 10000000005000000000 := by
    decide
  omega

end TSymbiote.WebUI
