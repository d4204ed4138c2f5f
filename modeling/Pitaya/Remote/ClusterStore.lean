import Pitaya.Remote.Logins

/-!
# Whether the cluster store describes the surviving login

The record of a user in the cluster store has no owner.  `FlushFrontendData` writes all fields of
a session when it is bound, and `FlushOnline` writes the online field when a session is closed for
any reason but a rebind, whichever session the record describes by then.

* `stored` — the fields that the last `FlushFrontendData` wrote are still there, except that the
  online field is that of the last `FlushOnline` since.
-/

namespace Pitaya.Logins

open Transition Threads Session List Finmap Program System Function

variable {F : Type} [DecidableEq F] {S : Setup F} {s s' : Shared F}
  {c : Config (Shared F) (Point F)}
  {p q : Point F} {p' : Option (Point F)} {choice : Choice} {x : F × ℕ} {b : Bind F}
  {uid encodedData : Bytes} {online : Bool}

/-! ## Sessions that are offline -/

theorem online_step (h : (logins S).step s p choice = some (s', p'))
    (hx : (s.login x).online = false) : (s'.login x).online = false := by
  obtain ⟨-, rfl⟩ := step_eq_some.mp h
  rw [login_exec.1, hx, Bool.false_and]

theorem chDie_step (h : (logins S).step s p choice = some (s', p'))
    (hx : (s.login x).chDie = true ∨ p.tearsDown x = true) : (s'.login x).chDie = true := by
  obtain ⟨-, rfl⟩ := step_eq_some.mp h
  rw [login_exec.2.1, Bool.or_eq_true]
  exact hx

theorem offline_or_heading (h : (logins S).Reachable c)
    (hoffline : (c.shared.login x).online = false) :
    (c.shared.login x).chDie = true ∨ ∃ p ∈ c.threads, p.heading x = true := by
  refine attended (O := fun s => (s.login x).online = false)
    (D := fun s => (s.login x).chDie = true) (W := fun p => p.heading x = true)
    (fun hoffline => (by cases hoffline)) ?_ h hoffline
  intro s p rest choice s' p' _ hstep hoffline
  obtain ⟨hnext, rfl⟩ := step_eq_some.mp hstep
  have hgoes (hp : p.takesOffline x = true ∨ p.heading x = true) :=
    (heading_next hnext hp).imp_left fun h => chDie_step hstep (.inr h)
  rw [login_exec.1] at hoffline
  cases honline : (s.login x).online with
  | false => exact .inl ⟨rfl, fun hdie => chDie_step hstep (.inl hdie), fun hp => hgoes (.inr hp)⟩
  | true =>
    refine .inr ((hgoes (.inl (by simpa [honline] using hoffline))).imp_right ?_)
    rintro ⟨q, hq, hheading⟩
    exact ⟨q, mem_rejoin.mpr (.inl hq), hheading⟩

/-- Who is about to write "0" with the other fields has found the session offline. -/
theorem offline_of_flushing (h : (logins S).Reachable c)
    (hp : .bind b (.hmset uid false encodedData) ∈ c.threads) :
    (c.shared.login b.session).online = false := by
  refine thread_invariant (J := fun s p => p = .bind b (.hmset uid false encodedData) →
    (s.login b.session).online = false) nofun ?_ ?_ ?_ h _ hp rfl
  · rintro s threads _ _ hentry rfl
    cases hentry
  · rintro s p rest choice s' _ _ _ hstep rfl
    obtain ⟨hnext, rfl⟩ := step_eq_some.mp hstep
    rw [login_exec.1, (flushing_next hnext).2, Bool.false_and]
  · exact fun _ _ _ _ _ _ _ _ _ _ hq hstep heq => online_step hstep (hq heq)

theorem chDie_of_tearing (h : (logins S).Reachable c) :
    ∀ p ∈ c.threads, p.tearing x = true → (c.shared.login x).chDie = true := by
  refine thread_invariant (J := fun s p => p.tearing x = true → (s.login x).chDie = true)
    nofun ?_ ?_ ?_ h
  · intro s threads p _ hentry htearing
    cases p with
    | close k place => cases place <;> simp_all [logins, Point.tearing]
    | _ => cases htearing
  · intro s p rest choice s' q _ hp hstep htearing
    exact chDie_step hstep ((tearing_next (step_eq_some.mp hstep).1 htearing).imp_left hp)
  · exact fun _ _ _ _ _ _ _ _ _ _ hq hstep htearing => chDie_step hstep (.inl (hq htearing))

/-! ## What is stored -/

/-- The record has the fields of a session that is online. -/
structure Describes (S : Setup F) (x : F × ℕ) (store : Finmap fun _ : Bytes => Bytes) : Prop where
  frontendID : store.lookup fieldKeyFrontendID = some (S.serverID x.1)
  frontendSessionID : store.lookup fieldKeyFrontendSessID = some (Strconv.formatInt x.2)
  online : store.lookup fieldKeyOnline = some [49]

/-- The event is a `FlushFrontendData` of the user's record. -/
def flushes (uid : Bytes) : Event (Point F) Choice → Bool
  | .run (.bind _ (.hmset uid' _ _)) .go => uid' = uid
  | _ => false

/-- The flag a `FlushOnline` writes to the user's record. -/
def flushesOnline (uid : Bytes) : Event (Point F) Choice → Option Bool
  | .run (.close _ (.hset uid' online)) _ => if uid' = uid then some online else none
  | _ => none

variable (uid) in
/-- The flag the last `FlushOnline` has written, if there was one. -/
def lastOnline (events : Run (Point F) Choice) : Option Bool :=
  (events.filterMap (flushesOnline uid)).getLast?

omit [DecidableEq F] in
theorem lastOnline_concat (events : Run (Point F) Choice) (e : Event (Point F) Choice) :
    lastOnline uid (events ++ [e]) = (flushesOnline uid e).or (lastOnline uid events) := by
  unfold lastOnline
  cases he : flushesOnline uid e <;> simp [filterMap_append, he]

omit [DecidableEq F] in
theorem lookup_flushed (S : Setup F) (x : F × ℕ) (online : Bool) (encodedData : Bytes)
    (store : Finmap fun _ : Bytes => Bytes) :
    let flushed := hmset store (fields S x online encodedData)
    flushed.lookup fieldKeyFrontendID = some (S.serverID x.1) ∧
      flushed.lookup fieldKeyFrontendSessID = some (Strconv.formatInt x.2) ∧
      flushed.lookup fieldKeyOnline = some (flag online) := by
  simp [hmset, fields, frontendFields, flag, lookup_insert, lookup_insert_of_ne,
    fieldKeyOnline, fieldKeyFrontendID, fieldKeyFrontendSessID, fieldKeyIP, fieldKeyData,
    onlineFlag]

theorem store_exec (hflush : flushes uid (.run p choice) = false) :
    (exec S s p choice).store uid = (flushesOnline uid (.run p choice)).elim (s.store uid)
      fun online => (s.store uid).insert fieldKeyOnline (flag online) := by
  cases p with
  | bind b place =>
    cases place with
    | hmset =>
      cases choice with
      | go => exact update_of_ne (Ne.symm (of_decide_eq_false hflush)) ..
      | _ => rfl
    | _ => cases choice <;> rfl
  | close k place =>
    cases place with
    | hset uid' online =>
      by_cases huid : uid' = uid
      · subst huid
        simp [exec, flushesOnline]
      · simp [exec, flushesOnline, huid, update_of_ne (Ne.symm huid)]
    | _ => rfl
  | _ => rfl

variable {before after : Run (Point F) Choice}

/-- **The record after the last `FlushFrontendData`.** -/
theorem stored (hrun : (logins S).system.run
      (before ++ .run (.bind b (.hmset uid online encodedData)) .go :: after) = some c)
    (hlast : ∀ e ∈ after, flushes uid e = false) :
    (c.shared.store uid).lookup fieldKeyFrontendID = some (S.serverID b.f) ∧
      (c.shared.store uid).lookup fieldKeyFrontendSessID = some (Strconv.formatInt b.sid) ∧
      (c.shared.store uid).lookup fieldKeyOnline =
        some (flag ((lastOnline uid after).getD online)) := by
  revert hlast
  apply run_induction_since ?_ ?_ hrun
  · intro c₁ c _ hstep _
    rcases system_step hstep with ⟨p, he, -⟩ | ⟨p, rest, choice, s', p', he, -, hp, rfl⟩
    · cases he
    · cases he
      obtain ⟨-, rfl⟩ := step_eq_some.mp hp
      simp only [exec, update_self]
      exact lookup_flushed S b.session online encodedData _
  · intro after e c c' _ hI hstep hlast
    have hI := hI fun e he => hlast e (mem_append_left _ he)
    rw [lastOnline_concat]
    rcases system_step hstep with ⟨p, rfl, -, rfl⟩ | ⟨p, rest, choice, s', p', rfl, -, hp, rfl⟩
    · exact hI
    · obtain ⟨-, rfl⟩ := step_eq_some.mp hp
      dsimp only
      rw [store_exec (hlast (.run p choice) (mem_append_right _ (mem_singleton_self _)))]
      cases flushesOnline uid (.run p choice) with
      | none => exact hI
      | some =>
        obtain ⟨hfrontend, hsession, -⟩ := hI
        rw [Option.elim_some, lookup_insert, lookup_insert_of_ne _ (by decide),
          lookup_insert_of_ne _ (by decide)]
        exact ⟨hfrontend, hsession, rfl⟩

/-- A session that was flushed as offline is torn down, or about to be. -/
theorem flushed_online (hrun : (logins S).system.run
      (before ++ .run (.bind b (.hmset uid online encodedData)) .go :: after) = some c)
    (hdone : ∀ p ∈ c.threads, p.heading b.session = false)
    (hopen : (c.shared.login b.session).chDie = false) : online = true := by
  by_contra hflushed
  obtain rfl : online = false := by simpa using hflushed
  obtain ⟨c₀, hbefore, hafter⟩ := run_append_eq_some.mp hrun
  have hoffline : (c.shared.login b.session).online = false :=
    shared_runFrom (J := fun s => (s.login b.session).online = false)
      (fun _ _ _ _ _ hJ hstep => online_step hstep hJ)
      (offline_of_flushing ⟨before, hbefore⟩ (mem_threads_of_run hrun hbefore)) hafter
  rcases offline_or_heading ⟨_, hrun⟩ hoffline with hdie | ⟨p, hp, hheading⟩
  · cases hopen.symm.trans hdie
  · cases (hdone p hp).symm.trans hheading

/-- **The condition.**  A close that writes "0" to the user's record finds it to be that of its own
session. -/
def Owned (S : Setup F) (uid : Bytes) (c : Config (Shared F) (Point F)) :
    Event (Point F) Choice → Prop
  | .run (.close k (.hset uid' false)) _ =>
    uid' = uid → (c.shared.store uid).lookup fieldKeyFrontendID = some (S.serverID k.f) ∧
      (c.shared.store uid).lookup fieldKeyFrontendSessID = some (Strconv.formatInt k.sid)
  | _ => True

omit [DecidableEq F] in
theorem exists_of_lastOnline {events : Run (Point F) Choice}
    (h : lastOnline uid events = some online) : ∃ before after k choice,
      events = before ++ .run (.close k (.hset uid online)) choice :: after := by
  obtain ⟨e, he, honline⟩ := mem_filterMap.mp (mem_of_getLast? h)
  obtain ⟨before, after, rfl⟩ := append_of_mem he
  unfold flushesOnline at honline
  split at honline
  · next k uid' written choice =>
    obtain ⟨rfl, ⟨⟩⟩ := Option.ite_none_right_eq_some.mp honline
    exact ⟨before, after, k, choice, rfl⟩
  · cases honline

/-- If every close that writes "0" finds its own record, none does since an open session was
flushed. -/
theorem lastOnline_of_owned (hrun : (logins S).system.run
      (before ++ .run (.bind b (.hmset uid online encodedData)) .go :: after) = some c)
    (hlast : ∀ e ∈ after, flushes uid e = false) (hopen : (c.shared.login b.session).chDie = false)
    (howned : (logins S).system.Meets (Owned S uid)
      (before ++ .run (.bind b (.hmset uid online encodedData)) .go :: after)) :
    lastOnline uid after ≠ some false := by
  intro hoffline
  obtain ⟨mid, rest, k, choice, rfl⟩ := exists_of_lastOnline hoffline
  have hsplit : before ++ .run (.bind b (.hmset uid online encodedData)) .go ::
      (mid ++ .run (.close k (.hset uid false)) choice :: rest) =
      (before ++ .run (.bind b (.hmset uid online encodedData)) .go :: mid) ++
        .run (.close k (.hset uid false)) choice :: rest := by simp
  rw [hsplit] at hrun
  obtain ⟨c₁, hmid, hafter⟩ := run_append_eq_some.mp hrun
  -- the record is that of the open session, so it is the one that is closed
  obtain ⟨hfrontend, hsession, -⟩ :=
    stored hmid fun e he => hlast e (mem_append_left _ he)
  obtain ⟨hfrontend', hsession'⟩ := howned _ _ _ c₁ hsplit hmid rfl
  have hsame : k.session = b.session := Prod.ext
    (S.injective (Option.some.inj (hfrontend'.symm.trans hfrontend)))
    (Strconv.formatInt_natCast_inj (Option.some.inj (hsession'.symm.trans hsession)))
  have hdie : (c.shared.login b.session).chDie = true :=
    shared_runFrom (J := fun s => (s.login b.session).chDie = true)
      (fun _ _ _ _ _ hJ hstep => chDie_step hstep (.inl hJ))
      (chDie_of_tearing ⟨_, hmid⟩ _ (mem_threads_of_run hrun hmid) (decide_eq_true hsame)) hafter
  cases hopen.symm.trans hdie

/-- **The surviving login.**  When no call is about to tear down the session that was flushed last
to the record of a user, and that session is open, the record in the cluster store describes it if
and only if the last close to write the online field since, if any, has not written "0"; in
particular if every close that writes "0" finds the record to be that of its own session. -/
theorem store_describes_iff (S : Setup F) (b : Bind F) (uid : Bytes) (online : Bool)
    (encodedData : Bytes) (before after : Run (Point F) Choice)
    (c : Config (Shared F) (Point F)) (hrun : (logins S).system.run
      (before ++ .run (.bind b (.hmset uid online encodedData)) .go :: after) = some c)
    (hlast : ∀ e ∈ after, flushes uid e = false)
    (hdone : ∀ p ∈ c.threads, p.heading b.session = false)
    (hopen : (c.shared.login b.session).chDie = false) :
    (Describes S b.session (c.shared.store uid) ↔ lastOnline uid after ≠ some false) ∧
      ((logins S).system.Meets (Owned S uid)
        (before ++ .run (.bind b (.hmset uid online encodedData)) .go :: after) →
        Describes S b.session (c.shared.store uid)) := by
  obtain ⟨hfrontend, hsession, honline⟩ := stored hrun hlast
  obtain rfl := flushed_online hrun hdone hopen
  have hflag : flag ((lastOnline uid after).getD true) = [49] ↔
      lastOnline uid after ≠ some false := by
    cases lastOnline uid after with
    | none | some written => simp [flag, onlineFlag]
  have hdescribes : Describes S b.session (c.shared.store uid) ↔
      lastOnline uid after ≠ some false := by
    rw [← hflag]
    constructor
    · intro h
      exact Option.some.inj (honline.symm.trans h.online)
    · intro h
      exact ⟨hfrontend, hsession, honline.trans (congrArg some h)⟩
  exact ⟨hdescribes, fun howned => hdescribes.mpr (lastOnline_of_owned hrun hlast hopen howned)⟩

/-- The newer login kicks the older one. -/
theorem store_describes_kicked : ∃ c,
    (logins twoFrontends).system.run ((binds false ++ bindsUntil true) ++
      .run (.bind (login true) (.hmset [49] true [])) .go ::
        (bindsAfter true ++ hears true false ++ kicks true false)) = some c ∧
    Describes twoFrontends (true, 1) (c.shared.store [49]) ∧ c.threads = 0 ∧
    (c.shared.login (true, 1)).chDie = false :=
  reaches_and (by decide +kernel) fun c hc ⟨hdone, hopen⟩ =>
    (store_describes_iff twoFrontends (login true) [49] true [] _ _ c hc (by decide)
      (by simp [hdone]) hopen).1.mpr (by decide)

/-- The connection of the older login ends while the newer one is bound: the close callback has
read the flag and writes it last. -/
theorem late_close : ∃ c,
    (logins twoFrontends).system.run
      (binds false ++ closes false ++ binds true ++ hears true false ++ closed false) = some c ∧
    c.threads = 0 ∧ (c.shared.login (false, 1)).chDie = true ∧
    (c.shared.login (true, 1)).chDie = false ∧ (c.shared.login (true, 1)).uid = [49] ∧
    (c.shared.store [49]).lookup fieldKeyFrontendID = some (twoFrontends.serverID true) ∧
    (c.shared.store [49]).lookup fieldKeyOnline = some [48] := by
  decide +kernel

end Pitaya.Logins
