import Foretias.Server.RelationshipBinding
import Mathlib.Data.List.Induction
import Mathlib.Data.Rat.Floor

/-!
# The back-off of a relationship

After a failed request a relationship is in back-off until a deadline, and each further failure is
to double the delay, up to 32 seconds. The code does not keep the delay: it takes the time since
the last deadline for it. So the delay doubles only where a failure comes as long after the
deadline as the deadline was after the failure before, and a failure before the deadline
underflows.

The methods write under one lock, so that a run is a sequence of calls. Words are those of a
release build, where they wrap around; `f64` values are exact.

* `backoffLaw_iff` — the sequences of calls in which the delay doubles, exactly, by their times.
* `delay_of_streak` — in these the delay after `k` failures is `2 ^ k` nanoseconds, up to the cap.
-/

namespace Foretias

/-! ### Statistics -/

/-- Statistics of a relationship. -/
structure CommunerdetteStats where
  lastSuccessNs : Option UInt64
  lastFailureNs : Option UInt64
  consecutiveFailures : UInt32
  libp2pSuccesses : UInt64
  libp2pFailures : UInt64
  noiseSuccesses : UInt64
  noiseFailures : UInt64
  smoothedRttMs : Option ℚ
  deriving DecidableEq, Inhabited

/-- Statistics of a route. -/
structure CommunerdetteRouteStats where
  successCount : UInt64
  failureCount : UInt64
  lastSuccessNs : Option UInt64
  lastFailureNs : Option UInt64
  smoothedRttMs : Option ℚ
  consecutiveFailures : UInt32
  deriving DecidableEq, Inhabited

/-- The moving average, with the next round trip time. -/
def smoothed (rttMs : ℚ) : Option ℚ → ℚ
  | some prev => 0.2 * rttMs + 0.8 * prev
  | none => rttMs

/-- `record_success`. -/
def CommunerdetteRouteStats.recordSuccess (s : CommunerdetteRouteStats) (nowNs : UInt64)
    (rttMs : ℚ) : CommunerdetteRouteStats :=
  { s with
    successCount := s.successCount + 1
    lastSuccessNs := some nowNs
    consecutiveFailures := 0
    smoothedRttMs := some (smoothed rttMs s.smoothedRttMs) }

/-- `record_failure`. -/
def CommunerdetteRouteStats.recordFailure (s : CommunerdetteRouteStats) (nowNs : UInt64) :
    CommunerdetteRouteStats :=
  { s with
    failureCount := s.failureCount + 1
    lastFailureNs := some nowNs
    consecutiveFailures := s.consecutiveFailures + 1 }

/-- The part of `CommunerdetteState` that the outcomes of requests go to. -/
structure RouteHealth where
  stats : CommunerdetteStats
  backoffUntilNs : Option UInt64
  /-- The statistics of the routes that have any. -/
  routeStats : ActiveRoute → Option CommunerdetteRouteStats

namespace RouteHealth

/-- As `CommunerdetteState::default`. -/
def new : RouteHealth := ⟨default, none, fun _ ↦ none⟩

/-- `entry(route).or_default()`, changed. -/
def updateRoute (s : RouteHealth) (route : ActiveRoute)
    (f : CommunerdetteRouteStats → CommunerdetteRouteStats) :
    ActiveRoute → Option CommunerdetteRouteStats :=
  Function.update s.routeStats route (some (f ((s.routeStats route).getD default)))

/-- `record_route_success`. -/
def recordRouteSuccess (s : RouteHealth) (route : ActiveRoute) (nowNs : UInt64) (rttMs : ℚ) :
    RouteHealth where
  stats := { s.stats with
    libp2pSuccesses := s.stats.libp2pSuccesses + if route = .libp2pDirect then 1 else 0
    noiseSuccesses := s.stats.noiseSuccesses + if route = .noiseJsonRpc then 1 else 0
    lastSuccessNs := some nowNs
    consecutiveFailures := 0
    smoothedRttMs := some (smoothed rttMs s.stats.smoothedRttMs) }
  backoffUntilNs := none
  routeStats := s.updateRoute route (·.recordSuccess nowNs rttMs)

/-- What `record_route_failure` takes for the last delay: the time since the deadline. -/
def currentBackoff (s : RouteHealth) (nowNs : UInt64) : ℚ :=
  match s.backoffUntilNs with
  | some b => (nowNs - b).toNat
  | none => 1

/-- The next delay: twice as long, up to 32 seconds in nanoseconds. -/
def nextBackoff (s : RouteHealth) (nowNs : UInt64) : ℚ :=
  min (s.currentBackoff nowNs * 2) 32000000000

/-- `record_route_failure`. -/
def recordRouteFailure (s : RouteHealth) (route : ActiveRoute) (nowNs : UInt64) : RouteHealth where
  stats := { s.stats with
    libp2pFailures := s.stats.libp2pFailures + if route = .libp2pDirect then 1 else 0
    noiseFailures := s.stats.noiseFailures + if route = .noiseJsonRpc then 1 else 0
    lastFailureNs := some nowNs
    consecutiveFailures := s.stats.consecutiveFailures + 1 }
  backoffUntilNs := some (nowNs + UInt64.ofNat ⌊s.nextBackoff nowNs⌋₊)
  routeStats := s.updateRoute route (·.recordFailure nowNs)

/-- `is_in_backoff`. -/
def isInBackoff (s : RouteHealth) (nowNs : UInt64) : Bool :=
  (s.backoffUntilNs.map fun until' ↦ decide (nowNs < until')).getD false

end RouteHealth

/-- The outcome of a request, as it is recorded. -/
inductive RouteCall
  | success (route : ActiveRoute) (nowNs : UInt64) (rttMs : ℚ)
  | failure (route : ActiveRoute) (nowNs : UInt64)

/-- When. -/
def RouteCall.nowNs : RouteCall → UInt64
  | success _ nowNs _ => nowNs
  | failure _ nowNs => nowNs

/-- Record it. -/
def RouteCall.record (s : RouteHealth) : RouteCall → RouteHealth
  | success route nowNs rttMs => s.recordRouteSuccess route nowNs rttMs
  | failure route nowNs => s.recordRouteFailure route nowNs

/-- A new relationship after a sequence of calls. -/
def RouteHealth.after (calls : List RouteCall) : RouteHealth := calls.foldl RouteCall.record .new

open RouteHealth RouteCall

/-! ### What the back-off should do -/

/-- The deadline is so many nanoseconds after a time. -/
def RouteHealth.Delay (s : RouteHealth) (nowNs : UInt64) (d : ℕ) : Prop :=
  ∃ b, s.backoffUntilNs = some b ∧ b.toNat = nowNs.toNat + d

/-- The back-off over a sequence of calls. -/
structure BackoffLaw (calls : List RouteCall) : Prop where
  /-- No subtraction underflows. -/
  noUnderflow : ∀ pre route nowNs post, calls = pre ++ .failure route nowNs :: post →
    ∀ b, (after pre).backoffUntilNs = some b → b ≤ nowNs
  /-- A failure that follows another one doubles the delay, up to 32 seconds. -/
  doubles : ∀ pre route t route' t' post,
    calls = pre ++ .failure route t :: .failure route' t' :: post →
    ∃ d, (after (pre ++ [.failure route t])).Delay t d ∧
      (after (pre ++ [.failure route t, .failure route' t'])).Delay t' (min (2 * d) 32000000000)
  /-- A success clears the back-off. -/
  clears : ∀ pre route nowNs rttMs post, calls = pre ++ .success route nowNs rttMs :: post →
    (after (pre ++ [.success route nowNs rttMs])).backoffUntilNs = none
  /-- `is_in_backoff` says whether the deadline is still to come. -/
  inBackoff : ∀ pre post nowNs, calls = pre ++ post →
    ((after pre).isInBackoff nowNs = true ↔
      ∃ b, (after pre).backoffUntilNs = some b ∧ nowNs < b)

/-- A streak of failures goes on, or is ended by a success. -/
def RouteCall.extend (k : ℕ) : RouteCall → ℕ
  | success _ _ _ => 0
  | failure _ _ => k + 1

/-- How many failures there were since the last success. -/
def streak (calls : List RouteCall) : ℕ := calls.foldl RouteCall.extend 0

/-- The delay after `k` failures: `2 ^ k` nanoseconds, up to 32 seconds. -/
def streakDelay (k : ℕ) : ℕ := min (2 ^ k) 32000000000

/-- A failure that follows another one comes twice its delay after it; where the delay is 16
seconds and more, it comes 16 seconds and more after the delay has passed. -/
def Timely (calls : List RouteCall) : Prop :=
  ∀ pre route t route' t' post, calls = pre ++ .failure route t :: .failure route' t' :: post →
    t'.toNat = t.toNat + 2 * streakDelay (streak pre + 1) ∨
      16000000000 ≤ streakDelay (streak pre + 1) ∧
        t.toNat + streakDelay (streak pre + 1) + 16000000000 ≤ t'.toNat

/-! ### One call -/

section Call

variable {s : RouteHealth} {route : ActiveRoute} {nowNs b : UInt64} {calls pre : List RouteCall}

theorem after_concat (call : RouteCall) : after (calls ++ [call]) = call.record (after calls) := by
  rw [after, List.foldl_append]
  rfl

theorem isInBackoff_iff : s.isInBackoff nowNs = true ↔
    ∃ b, s.backoffUntilNs = some b ∧ nowNs < b := by
  rw [isInBackoff]
  rcases s.backoffUntilNs with - | b
  · exact iff_of_false Bool.false_ne_true fun ⟨_, h, _⟩ ↦ Option.some_ne_none _ h.symm
  · simp

/-- The delays are whole numbers. -/
theorem floor_min (n : ℕ) : ⌊min ((n : ℚ) * 2) 32000000000⌋₊ = min (2 * n) 32000000000 := by
  have hcast : min ((n : ℚ) * 2) 32000000000 = ((min (2 * n) 32000000000 : ℕ) : ℚ) := by
    rw [Nat.cast_min, Nat.cast_mul, mul_comm]
    rfl
  rw [hcast, Nat.floor_natCast]

/-- A deadline that is at most 32 seconds away does not wrap around. -/
theorem toNat_deadline {d : ℕ} (hnow : nowNs.toNat < 2 ^ 63) (hd : d ≤ 32000000000) :
    (nowNs + UInt64.ofNat d).toNat = nowNs.toNat + d := by
  rw [UInt64.toNat_add, UInt64.toNat_ofNat']
  omega

/-- The first failure sets a delay of two nanoseconds. -/
theorem delay_first (hnow : nowNs.toNat < 2 ^ 63) (hs : s.backoffUntilNs = none) :
    (s.recordRouteFailure route nowNs).Delay nowNs 2 := by
  refine ⟨_, rfl, ?_⟩
  have hfloor : ⌊s.nextBackoff nowNs⌋₊ = 2 := by
    rw [nextBackoff, currentBackoff, hs]
    exact floor_min 1
  rw [hfloor, toNat_deadline hnow (by omega)]

/-- A failure after the deadline sets twice the time since then, up to the cap. -/
theorem delay_next (hnow : nowNs.toNat < 2 ^ 63) (hs : s.backoffUntilNs = some b)
    (hb : b ≤ nowNs) : (s.recordRouteFailure route nowNs).Delay nowNs
      (min (2 * (nowNs.toNat - b.toNat)) 32000000000) := by
  refine ⟨_, rfl, ?_⟩
  have hfloor : ⌊s.nextBackoff nowNs⌋₊ = min (2 * (nowNs.toNat - b.toNat)) 32000000000 := by
    rw [nextBackoff, currentBackoff, hs, ← UInt64.toNat_sub_of_le _ _ hb]
    exact floor_min _
  rw [hfloor, toNat_deadline hnow (Nat.min_le_right _ _)]

theorem RouteHealth.Delay.unique {d d' : ℕ} (h : s.Delay nowNs d) (h' : s.Delay nowNs d') :
    d = d' := by
  obtain ⟨b, hb, hd⟩ := h
  obtain ⟨b', hb', hd'⟩ := h'
  obtain rfl := Option.some.inj (hb.symm.trans hb')
  omega

/-- Only a failure leaves a deadline. -/
theorem exists_failure_of_backoff (h : (after pre).backoffUntilNs = some b) :
    ∃ pre' route t, pre = pre' ++ [.failure route t] := by
  rcases List.eq_nil_or_concat pre with rfl | ⟨pre', call, rfl⟩
  · exact absurd h.symm (Option.some_ne_none b)
  rcases call with ⟨route, t, rttMs⟩ | ⟨route, t⟩
  · rw [List.concat_eq_append, after_concat] at h
    exact absurd h.symm (Option.some_ne_none b)
  · exact ⟨pre', route, t, List.concat_eq_append⟩

end Call

/-! ### Sequences of calls -/

section Calls

variable {calls pre post : List RouteCall} {route route' : ActiveRoute} {t t' b : UInt64}

/-- Twice two spans are the same up to the cap exactly if the spans are, or neither is below half
of the cap. -/
theorem min_two_mul_eq_iff {x y : ℕ} : min (2 * x) 32000000000 = min (2 * y) 32000000000 ↔
    x = y ∨ 16000000000 ≤ x ∧ 16000000000 ≤ y := by
  omega

/-- A timely failure comes after the deadline. -/
theorem deadline_le {d : ℕ} (hd : (after pre).Delay t d)
    (htimely : t'.toNat = t.toNat + 2 * d ∨
      16000000000 ≤ d ∧ t.toNat + d + 16000000000 ≤ t'.toNat)
    (hb : (after pre).backoffUntilNs = some b) : b ≤ t' := by
  obtain ⟨b', hb', hspan⟩ := hd
  obtain rfl := Option.some.inj (hb.symm.trans hb')
  rw [UInt64.le_iff_toNat_le]
  omega

/-- After two failures the deadline was kept and the delay has doubled exactly if the second one was
timely. -/
theorem doubles_iff {d : ℕ} (ht' : t'.toNat < 2 ^ 63)
    (hd : (after (pre ++ [RouteCall.failure route t])).Delay t d) :
    (∀ b, (after (pre ++ [RouteCall.failure route t])).backoffUntilNs = some b → b ≤ t') ∧
        (after (pre ++ [RouteCall.failure route t, .failure route' t'])).Delay t'
          (min (2 * d) 32000000000) ↔
      t'.toNat = t.toNat + 2 * d ∨ 16000000000 ≤ d ∧ t.toNat + d + 16000000000 ≤ t'.toNat := by
  obtain ⟨b, hb, hspan⟩ := hd
  have hsplit : pre ++ [RouteCall.failure route t, .failure route' t'] =
      pre ++ [RouteCall.failure route t] ++ [RouteCall.failure route' t'] := by
    rw [List.append_assoc]
    rfl
  have hnext (hle : b ≤ t') :
      (after (pre ++ [RouteCall.failure route t, .failure route' t'])).Delay t'
        (min (2 * (t'.toNat - b.toNat)) 32000000000) := by
    rw [hsplit, after_concat]
    exact delay_next ht' hb hle
  constructor
  · rintro ⟨hkept, hdoubled⟩
    have hle := hkept b hb
    have hspans := min_two_mul_eq_iff.1 ((hnext hle).unique hdoubled)
    rw [UInt64.le_iff_toNat_le] at hle
    omega
  · intro htimely
    have hle : b ≤ t' := deadline_le ⟨b, hb, hspan⟩ htimely hb
    refine ⟨fun b' hb' ↦ Option.some.inj (hb.symm.trans hb') ▸ hle, ?_⟩
    rw [← min_two_mul_eq_iff.2 (show t'.toNat - b.toNat = d ∨ _ by omega)]
    exact hnext hle

/-! ### Streaks of failures -/

theorem streak_success {rttMs : ℚ} : streak (pre ++ [.success route t rttMs]) = 0 := by
  rw [streak, List.foldl_append]
  rfl

theorem streak_failure : streak (pre ++ [.failure route t]) = streak pre + 1 := by
  rw [streak, List.foldl_append]
  rfl

theorem streakDelay_succ (k : ℕ) : streakDelay (k + 1) = min (2 * streakDelay k) 32000000000 := by
  rw [streakDelay, streakDelay, pow_succ]
  omega

/-- Where each failure that follows another one doubles the delay, it is that of the streak. -/
theorem delay_of_pairs (htimes : ∀ call ∈ calls, call.nowNs.toNat < 2 ^ 63)
    (hpairs : ∀ pre route t route' t' post,
      calls = pre ++ .failure route t :: .failure route' t' :: post →
      (after (pre ++ [.failure route t])).Delay t (streakDelay (streak pre + 1)) →
      (after (pre ++ [.failure route t, .failure route' t'])).Delay t'
        (min (2 * streakDelay (streak pre + 1)) 32000000000))
    (hcalls : calls = pre ++ .failure route t :: post) :
    (after (pre ++ [.failure route t])).Delay t (streakDelay (streak pre + 1)) := by
  have ht : t.toNat < 2 ^ 63 := htimes (.failure route t) (by rw [hcalls]; simp)
  have hfirst (hnone : (after pre).backoffUntilNs = none) :
      (after (pre ++ [RouteCall.failure route t])).Delay t 2 := by
    rw [after_concat]
    exact delay_first ht hnone
  induction pre using List.reverseRecOn generalizing route t post with
  | nil => exact hfirst rfl
  | append_singleton pre call ih =>
    rcases call with ⟨route₀, t₀, rttMs⟩ | ⟨route₀, t₀⟩
    · rw [streak_success]
      refine hfirst ?_
      rw [after_concat]
      rfl
    · -- the delay of the failure before is that of its streak
      have hbefore : calls = pre ++ .failure route₀ t₀ :: .failure route t :: post := by
        rw [hcalls, List.append_assoc]
        rfl
      have ht₀ : t₀.toNat < 2 ^ 63 := htimes (.failure route₀ t₀) (by rw [hbefore]; simp)
      have hnext := hpairs pre route₀ t₀ route t post hbefore
        (ih hbefore ht₀ fun hnone ↦ by
          rw [after_concat]
          exact delay_first ht₀ hnone)
      rw [streak_failure, streakDelay_succ, List.append_assoc]
      exact hnext

/-- **A streak of failures.** Where the back-off does what it should do, the delay after the first
`k` failures since a success is `2 ^ k` nanoseconds, up to 32 seconds. -/
theorem delay_of_streak (htimes : ∀ call ∈ calls, call.nowNs.toNat < 2 ^ 63)
    (h : BackoffLaw calls) (hcalls : calls = pre ++ .failure route t :: post) :
    (after (pre ++ [.failure route t])).Delay t (streakDelay (streak pre + 1)) := by
  refine delay_of_pairs htimes (fun pre route t route' t' post hcalls hd ↦ ?_) hcalls
  obtain ⟨d, hd', hnext⟩ := h.doubles pre route t route' t' post hcalls
  exact hd.unique hd' ▸ hnext

/-- **The back-off.** In a sequence of calls before the time `2 ^ 63` the back-off does what it
should do exactly where each failure that follows another one is timely. -/
theorem backoffLaw_iff (htimes : ∀ call ∈ calls, call.nowNs.toNat < 2 ^ 63) :
    BackoffLaw calls ↔ Timely calls := by
  have hmem {pre post : List RouteCall} {route route' : ActiveRoute} {t t' : UInt64}
      (hcalls : calls = pre ++ RouteCall.failure route t :: .failure route' t' :: post) :
      t'.toNat < 2 ^ 63 :=
    htimes (.failure route' t') (by rw [hcalls]; simp)
  have hsplit {pre post : List RouteCall} {route route' : ActiveRoute} {t t' : UInt64} :
      pre ++ RouteCall.failure route t :: .failure route' t' :: post =
        pre ++ [RouteCall.failure route t] ++ RouteCall.failure route' t' :: post := by
    rw [List.append_assoc]
    rfl
  constructor
  · intro h pre route t route' t' post hcalls
    have hd := delay_of_streak htimes h hcalls
    obtain ⟨d, hd', hnext⟩ := h.doubles pre route t route' t' post hcalls
    exact (doubles_iff (hmem hcalls) hd).1
      ⟨h.noUnderflow _ _ _ _ (hcalls.trans hsplit), hd.unique hd' ▸ hnext⟩
  · intro h
    have hdelay {pre post : List RouteCall} {route : ActiveRoute} {t : UInt64}
        (hcalls : calls = pre ++ .failure route t :: post) :
        (after (pre ++ [.failure route t])).Delay t (streakDelay (streak pre + 1)) :=
      delay_of_pairs htimes (fun pre route t route' t' post hcalls hd ↦
        ((doubles_iff (hmem hcalls) hd).2 (h pre route t route' t' post hcalls)).2) hcalls
    refine ⟨fun pre route nowNs post hcalls b hb ↦ ?_,
      fun pre route t route' t' post hcalls ↦ ⟨_, hdelay hcalls,
        ((doubles_iff (hmem hcalls) (hdelay hcalls)).2 (h _ _ _ _ _ _ hcalls)).2⟩,
      fun pre route nowNs rttMs post _ ↦ ?_, fun pre post nowNs _ ↦ isInBackoff_iff⟩
    · -- a deadline is left by the failure just before
      obtain ⟨pre', route', t', rfl⟩ := exists_failure_of_backoff hb
      have hpair := hcalls.trans hsplit.symm
      exact deadline_le (hdelay hpair) (h _ _ _ _ _ _ hpair) hb
    · rw [after_concat]
      rfl

end Calls

/-- Two failures, the second one when the back-off of the first has just ended. -/
def promptRetry : List RouteCall := [.failure .libp2pDirect 10, .failure .libp2pDirect 12]

/-- The second one leaves no delay at all. -/
theorem not_backoffLaw_promptRetry : ¬BackoffLaw promptRetry := by
  intro h
  obtain ⟨d, ⟨b, hb, hd⟩, b', hb', hd'⟩ := h.doubles [] .libp2pDirect 10 .libp2pDirect 12 [] rfl
  have hdeadline : (after [.failure .libp2pDirect 10]).backoffUntilNs = some 12 := by decide +kernel
  have hdeadline' : (after promptRetry).backoffUntilNs = some 12 := by decide +kernel
  obtain rfl := Option.some.inj (hdeadline.symm.trans hb)
  obtain rfl := Option.some.inj (hdeadline'.symm.trans hb')
  have hten : (10 : UInt64).toNat = 10 := rfl
  have htwelve : (12 : UInt64).toNat = 12 := rfl
  omega

/-- Three failures, each of them twice the delay after the one before. -/
def timelyRetries : List RouteCall :=
  [.failure .libp2pDirect 10, .failure .noiseJsonRpc 14, .failure .libp2pDirect 22]

theorem timely_timelyRetries : Timely timelyRetries := by
  rintro (- | ⟨a, - | ⟨b, pre⟩⟩) route t route' t' post hcalls
  · cases hcalls
    exact .inl rfl
  · cases hcalls
    exact .inl rfl
  · -- no two failures are left
    have hlength := congrArg List.length hcalls
    simp only [timelyRetries, List.length_cons, List.length_append, List.length_nil] at hlength
    omega

/-- The delay doubles with each of them. -/
theorem backoffLaw_timelyRetries : BackoffLaw timelyRetries :=
  (backoffLaw_iff (by decide)).2 timely_timelyRetries

end Foretias
