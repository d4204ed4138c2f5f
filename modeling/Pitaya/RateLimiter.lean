import Mathlib.Data.Int.Order.Basic
import Pitaya.Foundations.ByteString
import Pitaya.Foundations.Transition

/-!
# The rate limiter

`acceptorwrapper/rate_limiter.go`: a connection that drops the messages of a client that sends too
many of them.  The limiter keeps the times of the last messages that it passed, at most `limit` of
them, and looks at the oldest one only.

* `RateLimiter.getNextMessage` — one call, on what the connection under it will deliver.
* `RateLimiter.serve` — the results of one call after the other.
* `reading` — the same, message by message, with all messages that were passed.
* `ExactWindow` — the limiter counts exactly: a message is passed if and only if fewer than `limit`
  messages were passed in the interval that ends with it.

Times are nanoseconds on the monotonic clock.
-/

namespace Pitaya

open Transition List Option

/-- `RateLimiter`, without the connection and the reporters. -/
structure RateLimiter where
  limit : ℤ
  interval : Int64
  times : List ℤ := []
  forceDisable : Bool := false
  deriving DecidableEq

namespace RateLimiter

/-- `Time.Sub`: a difference that is no duration becomes the longest one. -/
def sub (t u : ℤ) : ℤ := max (-9223372036854775808) (min 9223372036854775807 (t - u))

/-- `shouldRateLimit`.  With a limit below 1 there is no front, and reading its value crashes. -/
def shouldRateLimit (r : RateLimiter) (now : ℤ) : Option (RateLimiter × Bool) :=
  if r.times.length < r.limit then some ({ r with times := r.times ++ [now] }, false)
  else
    match r.times with
    | [] => none
    | front :: rest =>
      if sub now front < r.interval.toInt then some (r, true)
      else some ({ r with times := rest ++ [now] }, false)

/-- What the connection delivers: a message and the time it is read at, or an error. -/
inductive Read (E : Type) where
  | message (msg : Bytes) (now : ℤ)
  | error (err : E)
  deriving DecidableEq

/-- How a call of `GetNextMessage` ends: with a result, and what is still to be read; or it waits
for the connection, or it crashes. -/
inductive Next (E : Type) where
  | returned (result : Except E Bytes) (r : RateLimiter) (rest : List (Read E))
  | waiting (r : RateLimiter)
  | crashed

variable {E : Type}

/-- The loop of `GetNextMessage`. -/
def loop (r : RateLimiter) : List (Read E) → Next E
  | [] => .waiting r
  | .error err :: rest => .returned (.error err) r rest
  | .message msg now :: rest =>
    match r.shouldRateLimit now with
    | none => .crashed
    | some (r, true) => loop r rest
    | some (r, false) => .returned (.ok msg) r rest

def getNextMessage (r : RateLimiter) (reads : List (Read E)) : Next E :=
  if r.forceDisable then
    match reads with
    | [] => .waiting r
    | .error err :: rest => .returned (.error err) r rest
    | .message msg _ :: rest => .returned (.ok msg) r rest
  else r.loop reads

theorem length_of_loop {r r' : RateLimiter} {reads rest : List (Read E)} {result : Except E Bytes}
    (h : r.loop reads = .returned result r' rest) : rest.length < reads.length := by
  induction reads generalizing r with
  | nil => cases h
  | cons read reads ih =>
    cases read with
    | error =>
      cases h
      exact Nat.lt_succ_self _
    | message =>
      dsimp only [loop] at h
      split at h
      · cases h
      · exact Nat.lt_succ_of_lt (ih h)
      · cases h
        exact Nat.lt_succ_self _

theorem length_of_getNextMessage {r r' : RateLimiter} {reads rest : List (Read E)}
    {result : Except E Bytes} (h : r.getNextMessage reads = .returned result r' rest) :
    rest.length < reads.length := by
  unfold getNextMessage at h
  split at h
  · split at h <;> cases h <;> exact Nat.lt_succ_self _
  · exact length_of_loop h

/-- The results of calling `GetNextMessage` again and again. -/
def serve (r : RateLimiter) (reads : List (Read E)) : List (Except E Bytes) :=
  match _h : r.getNextMessage reads with
  | .returned result r' rest => result :: serve r' rest
  | .waiting _ => []
  | .crashed => []
termination_by reads.length
decreasing_by exact length_of_getNextMessage _h

/-! ## Message by message -/

/-- A limiter, the messages it has passed with the times they were read at, and what the calls have
returned. -/
structure Trace (E : Type) where
  limiter : RateLimiter
  passed : List (Bytes × ℤ) := []
  returned : List (Except E Bytes) := []

/-- One round of the loop of `GetNextMessage`. -/
def Trace.step (s : Trace E) : Read E → Option (Trace E)
  | .error err => some { s with returned := s.returned ++ [.error err] }
  | .message msg now =>
    match s.limiter.shouldRateLimit now with
    | none => none
    | some (r, true) => some { s with limiter := r }
    | some (r, false) =>
      some ⟨r, s.passed ++ [(msg, now)], s.returned ++ [.ok msg]⟩

/-- A limiter at work. -/
def reading (E : Type) (limit : ℤ) (interval : Int64) : System (Trace E) (Read E) where
  start := { limiter := { limit, interval } }
  step := Trace.step

/-- The messages among what is read, with their times. -/
def messages (reads : List (Read E)) : List (Bytes × ℤ) :=
  reads.filterMap fun
    | .message msg now => some (msg, now)
    | .error _ => none

/-- The times never go back. -/
def InOrder (reads : List (Read E)) : Prop :=
  ((messages reads).map Prod.snd).Pairwise (· ≤ ·)

/-- The number of messages that were passed at these times. -/
def passedIn (window : ℤ → Prop) [DecidablePred window] (passed : List (Bytes × ℤ)) : ℕ :=
  passed.countP fun p => window p.2

/-- In the interval that ends at `now`, without its start. -/
abbrev Recent (interval : Int64) (now t : ℤ) : Prop := now - interval.toInt < t ∧ t ≤ now

/-! ## The oldest time that is kept decides -/

theorem sub_lt_iff {interval : Int64} (hpos : 0 < interval.toInt) (t u : ℤ) :
    sub t u < interval.toInt ↔ t - u < interval.toInt := by
  have hupper := Int64.toInt_lt interval
  rw [sub]
  omega

/-- The interval that ends at `now` has room for one more than `rest` if and only if the time before
`rest` is not in it. -/
theorem countP_recent_lt_iff (interval : Int64) {old rest : List ℤ} {front now : ℤ}
    (hsorted : (old ++ front :: rest).Pairwise (· ≤ ·))
    (hle : ∀ t ∈ old ++ front :: rest, t ≤ now) :
    (old ++ front :: rest).countP (fun t => decide (Recent interval now t)) < rest.length + 1 ↔
      ¬ now - front < interval.toInt := by
  obtain ⟨-, hkept, hold⟩ := pairwise_append.mp hsorted
  obtain ⟨hrest, -⟩ := pairwise_cons.mp hkept
  rw [countP_append]
  by_cases hfront : now - front < interval.toInt
  · -- the front and all that follow it are in the interval
    have hall : (front :: rest).countP (fun t => decide (Recent interval now t)) =
        (front :: rest).length := by
      refine countP_eq_length.mpr fun t ht => decide_eq_true ⟨?_, ?_⟩
      · rcases mem_cons.mp ht with rfl | ht
        · omega
        · have := hrest t ht
          omega
      · exact hle t (mem_append_right _ ht)
    rw [hall, length_cons]
    exact iff_of_false (by omega) (not_not.mpr hfront)
  · -- neither the front nor anything before it is in the interval
    have hnone : old.countP (fun t => decide (Recent interval now t)) = 0 := by
      refine countP_eq_zero.mpr fun t ht hin => ?_
      have h := (of_decide_eq_true hin).1
      have := hold t ht front mem_cons_self
      omega
    have hout : (front :: rest).countP (fun t => decide (Recent interval now t)) =
        rest.countP (fun t => decide (Recent interval now t)) := by
      refine countP_cons_of_neg fun hin => ?_
      have h := (of_decide_eq_true hin).1
      omega
    have := countP_le_length (p := fun t => decide (Recent interval now t)) (l := rest)
    exact iff_of_true (by omega) hfront

/-- What the limiter knows: the last `n` times of those it has passed. -/
structure Keeps (n : ℕ) (interval : Int64) (r : RateLimiter) (times : List ℤ) : Prop where
  limit : r.limit = n
  interval : r.interval = interval
  enabled : r.forceDisable = false
  times : r.times = times.drop (times.length - n)

/-- **The limiter counts exactly.** -/
theorem Keeps.shouldRateLimit {n : ℕ} {interval : Int64} {r : RateLimiter} {times : List ℤ}
    (h : Keeps n interval r times) (hn : 1 ≤ n) (hpos : 0 < interval.toInt) {now : ℤ}
    (hsorted : times.Pairwise (· ≤ ·)) (hle : ∀ t ∈ times, t ≤ now) :
    if times.countP (fun t => decide (Recent interval now t)) < n then
      ∃ r', r.shouldRateLimit now = some (r', false) ∧ Keeps n interval r' (times ++ [now])
    else r.shouldRateLimit now = some (r, true) := by
  have hlength : r.times.length = times.length - (times.length - n) := by
    rw [h.times, length_drop]
  have hcount := countP_le_length (p := fun t => decide (Recent interval now t)) (l := times)
  rw [RateLimiter.shouldRateLimit, h.limit]
  rcases Nat.lt_or_ge times.length n with hroom | hfull
  · -- there is room: all that was ever passed is less than the limit
    rw [if_pos (Nat.lt_of_le_of_lt hcount hroom), if_pos (by omega)]
    refine ⟨_, rfl, rfl, h.interval, h.enabled, ?_⟩
    rw [h.times, length_append, length_singleton,
      Nat.sub_eq_zero_of_le (Nat.le_of_lt hroom), Nat.sub_eq_zero_of_le hroom, drop_zero,
      drop_zero]
  · rw [if_neg (c := ((r.times.length : ℤ) < n)) (by omega)]
    -- the times before the ones that are kept, and the oldest of these
    obtain ⟨old, front, rest, hsplit, hkept⟩ :
        ∃ old front rest, times = old ++ front :: rest ∧ r.times = front :: rest := by
      cases hkept : r.times with
      | nil =>
        rw [hkept, length_nil] at hlength
        omega
      | cons front rest =>
        refine ⟨times.take (times.length - n), front, rest, ?_, rfl⟩
        rw [← hkept, h.times, take_append_drop]
    have hrest : rest.length + 1 = n := by
      rw [hkept, length_cons] at hlength
      omega
    have hiff := countP_recent_lt_iff interval (hsplit ▸ hsorted) (hsplit ▸ hle)
    rw [← hsplit, hrest] at hiff
    have hsub := RateLimiter.sub_lt_iff hpos now front
    rw [hkept, h.interval]
    by_cases hfront : now - front < interval.toInt
    · rw [if_neg (mt hiff.mp (not_not.mpr hfront))]
      exact if_pos (hsub.mpr hfront)
    · rw [if_pos (hiff.mpr hfront)]
      refine ⟨_, if_neg (mt hsub.mp hfront), rfl, rfl, h.enabled, ?_⟩
      have hall : times ++ [now] = (old ++ [front]) ++ (rest ++ [now]) := by
        rw [hsplit, append_assoc, append_assoc, cons_append, singleton_append]
      have hdrop : (times ++ [now]).length - n = (old ++ [front]).length := by
        have hlast : (rest ++ [now]).length = n := by
          rw [length_append, length_singleton, hrest]
        rw [hall, length_append, hlast, Nat.add_sub_cancel]
      rw [hdrop, hall, drop_left]

/-! ## One call after the other -/

section Calls

variable {r r' : RateLimiter} {reads rest : List (Read E)}

theorem serve_eq (r : RateLimiter) (reads : List (Read E)) :
    r.serve reads =
      match r.getNextMessage reads with
      | .returned result r' rest => result :: r'.serve rest
      | _ => [] := by
  rw [serve]
  split <;> rename_i h <;> rw [h]

/-- What the calls return does not depend on what the next one drops first. -/
theorem serve_congr (h : r.getNextMessage reads = r'.getNextMessage rest) :
    r.serve reads = r'.serve rest := by
  rw [serve_eq, h, ← serve_eq]

theorem getNextMessage_error (r : RateLimiter) (err : E) (rest : List (Read E)) :
    r.getNextMessage (.error err :: rest) = .returned (.error err) r rest := by
  unfold getNextMessage
  split <;> rfl

theorem forceDisable_of_shouldRateLimit {now : ℤ} {limited : Bool}
    (h : r.shouldRateLimit now = some (r', limited)) : r'.forceDisable = r.forceDisable := by
  unfold shouldRateLimit at h
  split at h
  · cases h
    rfl
  · split at h
    · cases h
    · split at h <;> cases h <;> rfl

theorem getNextMessage_eq_loop (h : r.forceDisable = false) (reads : List (Read E)) :
    r.getNextMessage reads = r.loop reads := by
  unfold getNextMessage
  rw [h]
  rfl

end Calls

section Runs

variable {n : ℕ} {interval : Int64}

theorem returned_eq_serve {s s' : Trace E} {reads : List (Read E)}
    (henabled : s.limiter.forceDisable = false) (hrun : reads.foldlM Trace.step s = some s') :
    s'.returned = s.returned ++ s.limiter.serve reads := by
  induction reads generalizing s with
  | nil =>
    obtain rfl := some.inj hrun
    rw [RateLimiter.serve_eq, RateLimiter.getNextMessage_eq_loop henabled]
    exact (append_nil _).symm
  | cons read reads ih =>
    obtain ⟨s₁, hstep, hrest⟩ := bind_eq_some_iff.mp hrun
    cases read with
    | error err =>
      obtain rfl := some.inj hstep
      have hserve := RateLimiter.serve_eq s.limiter (.error err :: reads)
      rw [RateLimiter.getNextMessage_error] at hserve
      rw [hserve, ih (s := { s with returned := s.returned ++ [.error err] }) henabled hrest,
        append_assoc]
      rfl
    | message msg now =>
      have hloop := RateLimiter.getNextMessage_eq_loop henabled (.message msg now :: reads)
      dsimp only [Trace.step] at hstep
      dsimp only [RateLimiter.loop] at hloop
      cases hlimit : s.limiter.shouldRateLimit now with
      | none =>
        rw [hlimit] at hstep
        cases hstep
      | some next =>
        obtain ⟨r, limited⟩ := next
        have henabled' : r.forceDisable = false :=
          (RateLimiter.forceDisable_of_shouldRateLimit hlimit).trans henabled
        rw [hlimit] at hstep hloop
        cases limited with
        | true =>
          obtain rfl := some.inj hstep
          rw [ih (s := { s with limiter := r }) henabled' hrest]
          refine congrArg (s.returned ++ ·) (RateLimiter.serve_congr ?_)
          rw [hloop, RateLimiter.getNextMessage_eq_loop henabled']
        | false =>
          obtain rfl := some.inj hstep
          rw [RateLimiter.serve_eq s.limiter, hloop,
            ih (s := ⟨r, _, _⟩) henabled' hrest, append_assoc]
          rfl

/-! ## The windows -/

theorem messages_concat (reads : List (Read E)) (read : Read E) :
    messages (reads ++ [read]) = messages reads ++ messages [read] :=
  filterMap_append

theorem InOrder.le {reads : List (Read E)} {msg : Bytes} {now : ℤ}
    (h : InOrder (reads ++ [.message msg now])) {t : ℤ}
    (ht : t ∈ (messages reads).map Prod.snd) : t ≤ now := by
  rw [InOrder, messages_concat, map_append] at h
  exact (pairwise_append.mp h).2.2 t ht now mem_cons_self

theorem InOrder.of_append {reads rest : List (Read E)} (h : InOrder (reads ++ rest)) :
    InOrder reads := by
  rw [InOrder, messages, filterMap_append, map_append] at h
  exact (pairwise_append.mp h).1

/-- Of two times in the window, the later one is within the interval from the earlier one. -/
def Narrow (interval : Int64) (window : ℤ → Prop) : Prop :=
  ∀ t u, window t → window u → u - interval.toInt < t

/-- What is known after some reads. -/
structure Serving (n : ℕ) (interval : Int64) (reads : List (Read E)) (s : Trace E) : Prop where
  keeps : Keeps n interval s.limiter (s.passed.map Prod.snd)
  sublist : s.passed.Sublist (messages reads)
  results : s.returned.filterMap Except.toOption = s.passed.map Prod.fst
  windows : ∀ (window : ℤ → Prop) [DecidablePred window], Narrow interval window →
    passedIn window s.passed ≤ n

/-- What one more read does. -/
def Exact (n : ℕ) (interval : Int64) (s s' : Trace E) (msg : Bytes) (now : ℤ) : Prop :=
  if passedIn (Recent interval now) s.passed < n then
    s'.passed = s.passed ++ [(msg, now)] ∧ s'.returned = s.returned ++ [.ok msg]
  else s'.passed = s.passed ∧ s'.returned = s.returned

theorem passedIn_concat (window : ℤ → Prop) [DecidablePred window] (passed : List (Bytes × ℤ))
    (msg : Bytes) (now : ℤ) :
    passedIn window (passed ++ [(msg, now)]) =
      passedIn window passed + if window now then 1 else 0 := by
  rw [passedIn, countP_append, countP_singleton]
  simp only [decide_eq_true_eq]
  rfl

theorem passedIn_eq_countP (window : ℤ → Prop) [DecidablePred window] (passed : List (Bytes × ℤ)) :
    passedIn window passed = (passed.map Prod.snd).countP fun t => decide (window t) := by
  rw [passedIn, countP_map]
  rfl

variable (hn : 1 ≤ n) (hpos : 0 < interval.toInt)
include hn hpos

/-- **One more read.** -/
theorem Serving.step {reads : List (Read E)} {s : Trace E} (h : Serving n interval reads s)
    {read : Read E} (horder : InOrder (reads ++ [read])) :
    ∃ s', s.step read = some s' ∧ Serving n interval (reads ++ [read]) s' ∧
      ∀ msg now, read = .message msg now → Exact n interval s s' msg now := by
  cases read with
  | error =>
    refine ⟨_, rfl, ⟨h.keeps, ?_, ?_, h.windows⟩, fun msg now heq => by cases heq⟩
    · rw [messages_concat]
      exact h.sublist.trans (sublist_append_left _ _)
    · dsimp only
      rw [filterMap_append, h.results]
      exact append_nil _
  | message msg now =>
    have hsorted : (s.passed.map Prod.snd).Pairwise (· ≤ ·) :=
      List.Pairwise.sublist (h.sublist.map _) horder.of_append
    have hle (t : ℤ) (ht : t ∈ s.passed.map Prod.snd) : t ≤ now :=
      horder.le ((h.sublist.map _).subset ht)
    have hlimit := h.keeps.shouldRateLimit hn hpos hsorted hle
    rw [← passedIn_eq_countP] at hlimit
    have hmessages := messages_concat reads (.message msg now)
    dsimp only [Trace.step]
    by_cases hroom : passedIn (Recent interval now) s.passed < n
    · rw [if_pos hroom] at hlimit
      obtain ⟨r', hr', hkeeps⟩ := hlimit
      rw [hr']
      refine ⟨_, rfl, ⟨?_, hmessages ▸ h.sublist.append (List.Sublist.refl _), ?_, ?_⟩, ?_⟩
      · dsimp only
        rw [map_append]
        exact hkeeps
      · dsimp only
        rw [filterMap_append, h.results, map_append]
        rfl
      · -- what is in a narrow window together with this message is recent
        intro window _ hnarrow
        rw [passedIn_concat]
        by_cases hwindow : window now
        · rw [if_pos hwindow]
          refine Nat.succ_le_of_lt (Nat.lt_of_le_of_lt (countP_mono_left ?_) hroom)
          intro p hp hin
          have hin := of_decide_eq_true hin
          exact decide_eq_true ⟨hnarrow p.2 now hin hwindow, hle p.2 (mem_map_of_mem hp)⟩
        · rw [if_neg hwindow]
          exact h.windows window hnarrow
      · rintro msg' now' heq
        cases heq
        rw [Exact, if_pos hroom]
        exact ⟨rfl, rfl⟩
    · rw [if_neg hroom] at hlimit
      rw [hlimit]
      refine ⟨_, rfl, ⟨h.keeps, hmessages ▸ h.sublist.trans (sublist_append_left _ _),
        h.results, h.windows⟩, ?_⟩
      rintro msg' now' heq
      cases heq
      rw [Exact, if_neg hroom]
      exact ⟨rfl, rfl⟩

/-- **All reads.** -/
theorem serving_of_inOrder {reads : List (Read E)} (horder : InOrder reads) :
    ∃ s, (reading E n interval).run reads = some s ∧ Serving n interval reads s := by
  induction reads using reverseRecOn with
  | nil =>
    refine ⟨_, rfl, ⟨rfl, rfl, rfl, drop_nil.symm⟩, List.Sublist.refl _, rfl, ?_⟩
    intro window _ _
    exact Nat.zero_le n
  | append_singleton reads read ih =>
    obtain ⟨s, hrun, h⟩ := ih horder.of_append
    obtain ⟨s', hstep, h', -⟩ := h.step hn hpos horder
    exact ⟨s', System.run_concat_eq_some.mpr ⟨s, hrun, hstep⟩, h'⟩

end Runs

/-- What the limiter does with these reads. -/
structure ExactWindow (limit : ℤ) (interval : Int64) (reads : List (Read E))
    (s : Trace E) : Prop where
  /-- The calls return what the rounds of the loop return. -/
  serves : RateLimiter.serve { limit, interval } reads = s.returned
  /-- A message is passed if and only if fewer than `limit` messages were passed in the interval
  that ends with it. -/
  exact : ∀ before msg now after, reads = before ++ .message msg now :: after →
    ∃ s₀ s₁, (reading E limit interval).run before = some s₀ ∧
      (reading E limit interval).run (before ++ [.message msg now]) = some s₁ ∧
      if passedIn (Recent interval now) s₀.passed < limit then
        s₁.passed = s₀.passed ++ [(msg, now)] ∧ s₁.returned = s₀.returned ++ [.ok msg]
      else s₁.passed = s₀.passed ∧ s₁.returned = s₀.returned
  /-- No window of the length of the interval has more than `limit` messages. -/
  windows : ∀ a : ℤ,
    passedIn (fun t => a ≤ t ∧ t < a + interval.toInt) s.passed ≤ limit ∧
      passedIn (fun t => a < t ∧ t ≤ a + interval.toInt) s.passed ≤ limit
  /-- The messages that are passed are messages that were read, in their order. -/
  inOrder : s.passed.Sublist (messages reads) ∧
    s.returned.filterMap Except.toOption = s.passed.map Prod.fst
  /-- An error is returned at once. -/
  errors : ∀ (r : RateLimiter) (err : E) (rest : List (Read E)),
    r.getNextMessage (.error err :: rest) = .returned (.error err) r rest

/-- **The limiter enforces an exact sliding window.** -/
theorem exactWindow_of_inOrder {limit : ℤ} (hlimit : 1 ≤ limit) {interval : Int64}
    (hinterval : 0 < interval.toInt) {reads : List (Read E)} (horder : InOrder reads) :
    ∃ s, (reading E limit interval).run reads = some s ∧ ExactWindow limit interval reads s := by
  obtain ⟨n, rfl⟩ := Int.eq_ofNat_of_zero_le (by omega : 0 ≤ limit)
  have hn : 1 ≤ n := by omega
  obtain ⟨s, hrun, h⟩ := serving_of_inOrder hn hinterval horder
  refine ⟨s, hrun, ?_, ?_, ?_, ⟨h.sublist, h.results⟩, RateLimiter.getNextMessage_error⟩
  · exact (returned_eq_serve rfl hrun).symm
  · rintro before msg now after rfl
    rw [List.append_cons] at horder
    obtain ⟨s₀, hrun₀, h₀⟩ := serving_of_inOrder hn hinterval horder.of_append.of_append
    obtain ⟨s₁, hstep, -, hexact⟩ := h₀.step hn hinterval horder.of_append
    refine ⟨s₀, s₁, hrun₀, System.run_concat_eq_some.mpr ⟨s₀, hrun₀, hstep⟩, ?_⟩
    simpa only [Exact, Int.ofNat_lt] using hexact msg now rfl
  · intro a
    constructor
    · refine Int.ofNat_le.mpr (h.windows _ fun t u ht hu => ?_)
      omega
    · refine Int.ofNat_le.mpr (h.windows _ fun t u ht hu => ?_)
      omega

/-- Two messages in ten nanoseconds: the third is dropped, and the fourth comes late enough. -/
theorem exactWindow_two_in_ten : ∃ (reads : List (Read Unit)) (s : Trace Unit),
    (reading Unit 2 10).run reads = some s ∧ ExactWindow 2 10 reads s ∧
    messages reads = [([1], 0), ([2], 3), ([3], 9), ([4], 10)] ∧
    s.passed = [([1], 0), ([2], 3), ([4], 10)] := by
  let reads : List (Read Unit) :=
    [.message [1] 0, .message [2] 3, .message [3] 9, .message [4] 10]
  have horder : InOrder reads := by
    unfold InOrder
    decide
  obtain ⟨s, hrun, h⟩ := exactWindow_of_inOrder (by decide : (1 : ℤ) ≤ 2)
    (by decide : 0 < Int64.toInt 10) horder
  have hpassed : ((reading Unit 2 10).run reads).map Trace.passed =
      some [([1], 0), ([2], 3), ([4], 10)] := by decide +kernel
  rw [hrun] at hpassed
  exact ⟨reads, s, hrun, h, rfl, Option.some.inj hpassed⟩

end RateLimiter

end Pitaya
