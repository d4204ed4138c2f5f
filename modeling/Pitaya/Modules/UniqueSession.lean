import Pitaya.Remote.Logins

/-!
# One session per user across frontends

A login on one frontend ends the session the user has on another: `UniqueSession.OnUserBind` of
`modules/unique_session.go` kicks it.  But the callback of `Sys` in `Bind` sends the notification,
and the session is registered only after all callbacks (`session.go`, `Bind`).

* `Unraced` — the condition.
* `OneBind` — a call of `Bind` for the user does not overlap another one on the session, and
  finds the uid it has assigned, so that its notification names the user.
* `Contest` — the invariant: of two frontends that have or are about to have a session of
  the user, one has yet to hear of the other.
* `one_live_session_of_unraced` — at most one frontend is left with a session.
* `two_live_sessions` — a run in which both frontends keep theirs.
-/

namespace Pitaya.Logins

open Transition Threads Multiset Option Function

variable {F : Type}

/-! ## What is to be shown -/

namespace Caller

/-- The call of `Bind` that waits. -/
def binding : Caller F → Option (Bind F)
  | .sys b | .bind b => some b
  | _ => none

/-- It is past its notification. -/
def registering : Caller F → Option (Bind F)
  | .bind b => some b
  | _ => none

/-- The notification that is being handled. -/
def handling : Caller F → Option (Notification F)
  | .onUserBind n => some n
  | _ => none

/-- The user whose session is kicked. -/
def user : Caller F → Option Bytes
  | .sys b => some b.uid
  | .onUserBind n => some n.uid
  | _ => none

end Caller

namespace Point

/-- A call of `Bind`, until it has registered its session. -/
def binding : Point F → Option (Bind F)
  | .bind _ .putBinding | .bind _ (.put _) => none
  | .bind b _ => some b
  | .close k _ => k.caller.binding
  | _ => none

/-- A call of `Bind` that has sent its notification and not registered its session. -/
def registering : Point F → Option (Bind F)
  | .bind b .later | .bind b .load | .bind b .store => some b
  | .close k _ => k.caller.registering
  | _ => none

@[inherit_doc Caller.handling]
def handling : Point F → Option (Notification F)
  | .onUserBind n => some n
  | .close k _ => k.caller.handling
  | _ => none

end Point

/-- The frontend has a session of the user that is not closed. -/
def Live (s : Shared F) (uid : Bytes) (f : F) : Prop :=
  ∃ sid, s.sessionsByUID (f, uid) = some sid ∧ (s.login (f, sid)).chDie = false

variable (uid : Bytes) (c : Config (Shared F) (Point F))

/-- All calls of `Bind` for the user have registered their session or returned, and all its
notifications have been delivered and handled. -/
def Settled : Prop :=
  (∀ p ∈ c.threads, ∀ b, p.binding = some b → b.uid ≠ uid) ∧
    (∀ p ∈ c.threads, ∀ n, p.handling = some n → n.uid ≠ uid) ∧
    ∀ fid target, c.shared.inFlight ⟨uid, fid, target⟩ = 0

/-- The event is a call of `Bind`. -/
def binding : Event (Point F) Choice → Option (Bind F)
  | .call p => p.binding
  | _ => none

/-- The event is a lookup of `OnUserBind`. -/
def lookingUp : Event (Point F) Choice → Option (Notification F)
  | .run (.onUserBind n) _ => some n
  | _ => none

/-- The event is a `Kick` that fails to write its packet. -/
def failing : Event (Point F) Choice → Option (F × ℕ)
  | .run (.close k .kick) .fail => some k.session
  | _ => none

variable [DecidableEq F]

/-- **The condition.**  A call of `Bind` for the user does not overlap another one on the same
session; a frontend does not look up the session of the user, to kick it for another frontend,
while one of its own calls of `Bind` for the user is between its notification and its
registration; and a session that is not closed can be kicked. -/
def Unraced (e : Event (Point F) Choice) : Prop :=
  (∀ b ∈ binding e, ∀ p ∈ c.threads, ∀ b' ∈ p.binding, b'.session = b.session →
    b.uid ≠ uid ∧ b'.uid ≠ uid) ∧
  (∀ n ∈ lookingUp e, n.uid = uid → n.target ≠ n.fid →
    ∀ p ∈ c.threads, ∀ b ∈ p.registering, b.f = n.target → b.uid ≠ uid) ∧
  ∀ x ∈ failing e, (c.shared.login x).chDie = true

instance (e : Event (Point F) Choice) : Decidable (Unraced uid c e) :=
  inferInstanceAs (Decidable (_ ∧ _ ∧ _))

/-! ## What a step does -/

namespace Point

/-- A call of `Bind` after it has assigned the uid. -/
def assigned : Point F → Option (Bind F)
  | .bind _ .check | .bind _ .assign => none
  | p => p.binding

/-- A call that is about to kick a session of the user. -/
def kicks (uid : Bytes) (x : F × ℕ) : Point F → Bool
  | .close k .kick | .close k .kicked | .close k .enter => k.session = x ∧ k.caller.user = some uid
  | _ => false

end Point

variable {S : Setup F} {s s' : Shared F} {p q : Point F} {p' : Option (Point F)} {choice : Choice}
  {rest : Multiset (Point F)} {uid : Bytes} {f f' : F} {sid : ℕ} {x : F × ℕ} {b : Bind F}

theorem registering_next (h : next s p choice = some (some q)) (hq : q.registering = some b) :
    p.registering = some b ∨ p = .bind b .fork := by
  unfold next at h
  split at h
  all_goals grind [Point.registering, Caller.registering]

theorem binding_next (h : next s p choice = some (some q)) (hq : q.binding = some b) :
    p.binding = some b := by
  unfold next at h
  split at h
  all_goals grind [Point.binding, Caller.binding]

theorem assigned_next (h : next s p choice = some (some q)) (hq : q.assigned = some b) :
    p.assigned = some b ∧ p.renames b.session = false ∨ p = .bind b .assign := by
  unfold next at h
  split at h
  all_goals grind [Point.assigned, Point.binding, Caller.binding, Point.renames]

theorem kicks_next (h : next s p choice = some p') (hp : p.kicks uid x = true)
    (hfails : ∀ x ∈ failing (.run p choice), (s.login x).chDie = true) :
    (s.login x).chDie = true ∨ p.tearsDown x = true ∨ ∃ q, p' = some q ∧ q.kicks uid x = true := by
  unfold next at h
  split at h
  all_goals grind [Point.kicks, failing, Point.tearsDown]

theorem of_update_none {m : F × Bytes → Option ℕ} {a a' : F × Bytes}
    (h : update m a none a' = some sid) : m a' = some sid := by
  by_cases ha : a' = a
  · subst ha
    cases (update_self ..).symm.trans h
  · exact (update_of_ne ha ..).symm.trans h

/-- Only the end of `Bind` registers a session. -/
theorem registered_exec (h : (exec S s p choice).sessionsByUID (f, uid) = some sid) :
    s.sessionsByUID (f, uid) = some sid ∨ p = .bind ⟨f, sid, uid⟩ .store := by
  cases p with
  | bind b place =>
    cases place with
    | store =>
      by_cases hkey : (f, uid) = (b.f, b.uid)
      · cases hkey
        cases (update_self ..).symm.trans h
        exact .inr rfl
      · exact .inl ((update_of_ne hkey ..).symm.trans h)
    | _ => cases choice <;> exact .inl h
  | close k place =>
    cases place with
    | close | compare =>
      simp only [exec] at h
      split at h
      all_goals first
        | exact .inl h
        | exact .inl (of_update_none h)
    | _ => exact .inl h
  | _ => exact .inl h

theorem inFlight_exec (S : Setup F) (p : Point F) (choice : Choice) {n : Notification F}
    (h : s.inFlight n ≠ 0) : (exec S s p choice).inFlight n ≠ 0 ∨ p = .deliver n := by
  cases p with
  | bind b place =>
    cases place with
    | fork =>
      left
      simp only [exec]
      split
      · exact Nat.succ_ne_zero _
      · exact h
    | _ => cases choice <;> exact .inl h
  | close k place => cases place <;> exact .inl h
  | deliver n' =>
    by_cases hn : n = n'
    · exact .inr (by rw [hn])
    · exact .inl (fun hzero => h ((update_of_ne hn ..).symm.trans hzero))
  | _ => exact .inl h

/-! ## The uid of a session -/

/-- The session of a call of `Bind`. -/
def Point.session (p : Point F) : Option (F × ℕ) := p.binding.map Bind.session

/-- A call of `Bind` for the user is the only one on its session, and finds in the session the
uid it has assigned. -/
structure OneBind (uid : Bytes) (c : Config (Shared F) (Point F)) : Prop where
  alone : ∀ p ∈ c.threads, ∀ b, p.binding = some b → b.uid = uid →
    c.threads.countP (fun q => q.session = some b.session) ≤ 1
  owns : ∀ p ∈ c.threads, ∀ b, p.assigned = some b → b.uid = uid →
    (c.shared.login b.session).uid = uid

omit [DecidableEq F] in
theorem binding_of_assigned (h : p.assigned = some b) : p.binding = some b := by
  unfold Point.assigned at h
  split at h
  · cases h
  · cases h
  · exact h

omit [DecidableEq F] in
theorem session_of_binding (h : p.binding = some b) : p.session = some b.session := by
  rw [Point.session, h]
  rfl

theorem session_of_renames (h : p.renames x = true) : p.session = some x := by
  unfold Point.renames at h
  split at h
  · exact congrArg some (of_decide_eq_true h)
  · exact congrArg some (of_decide_eq_true h)
  · cases h

theorem entry_outside (h : (logins S).entry p = true) :
    p.assigned = none ∧ p.registering = none := by
  cases p with
  | bind b place =>
    cases place with
    | check => exact ⟨rfl, rfl⟩
    | _ => cases h
  | close k place =>
    have hcaller : k.caller = .nobody := by cases place <;> simp_all [logins]
    simp [Point.assigned, Point.binding, Point.registering, hcaller, Caller.binding,
      Caller.registering]
  | _ => exact ⟨rfl, rfl⟩

theorem OneBind.call {threads : Multiset (Point F)} (h : OneBind uid ⟨s, threads⟩)
    (hC : Unraced uid ⟨s, threads⟩ (.call p)) (hentry : (logins S).entry p = true) :
    OneBind uid ⟨s, p ::ₘ threads⟩ := by
  -- the new call and one of the user do not meet on a session
  have hapart {q : Point F} (hq : q ∈ threads) {b b' : Bind F} (hp : p.binding = some b)
      (hb' : q.binding = some b') (hsame : b'.session = b.session) : b.uid ≠ uid ∧ b'.uid ≠ uid :=
    hC.1 b hp q hq b' hb' hsame
  refine ⟨fun q hq b hb huid => ?_, fun q hq b hb huid => ?_⟩
  · rw [countP_cons]
    rcases mem_cons.mp hq with rfl | hq
    · have hnone : threads.countP (fun r => r.session = some b.session) = 0 :=
        countP_eq_zero.mpr fun r hr hsession => by
          obtain ⟨b', hb', hsame⟩ := map_eq_some_iff.mp hsession
          exact (hapart hr hb hb' hsame).1 huid
      rw [if_pos (session_of_binding hb), hnone]
    · rw [if_neg fun hp => ?_]
      · exact h.alone q hq b hb huid
      · obtain ⟨b', hb', hsame⟩ := map_eq_some_iff.mp hp
        exact (hapart hq hb' hb hsame.symm).2 huid
  · rcases mem_cons.mp hq with rfl | hq
    · cases (entry_outside hentry).1.symm.trans hb
    · exact h.owns q hq b hb huid

theorem OneBind.run (h : OneBind uid ⟨s, p ::ₘ rest⟩) (hnext : next s p choice = some p') :
    OneBind uid ⟨exec S s p choice, rejoin p' rest⟩ := by
  have hcount (x : F × ℕ) := @countP_rejoin_le _ (fun q : Point F => q.session = some x) _ p p' rest
    (by
      rintro q rfl hq
      obtain ⟨b, hb, rfl⟩ := map_eq_some_iff.mp hq
      exact session_of_binding (binding_next hnext hb))
  refine ⟨fun q hq b hb huid => (hcount b.session).trans ?_, fun q hq b hb huid => ?_⟩
  · rcases mem_rejoin.mp hq with rfl | hrest
    · exact h.alone p (mem_cons_self p rest) b (binding_next hnext hb) huid
    · exact h.alone q (mem_cons_of_mem hrest) b hb huid
  · rcases mem_rejoin.mp hq with rfl | hrest
    · rcases assigned_next hnext hb with ⟨hold, hkeeps⟩ | rfl
      · exact (login_exec.2.2 hkeeps).trans (h.owns p (mem_cons_self p rest) b hold huid)
      · cases choice <;> simp [exec, Shared.modifyLogin, huid]
    · have hkeeps : p.renames b.session = false := by
        refine eq_false_of_ne_true fun hp => ?_
        have hb' := binding_of_assigned hb
        have hle := h.alone q (mem_cons_of_mem hrest) b hb' huid
        rw [countP_cons, if_pos (session_of_renames hp)] at hle
        have hpos : 0 < rest.countP (fun p => p.session = some b.session) :=
          countP_pos.mpr ⟨q, hrest, session_of_binding hb'⟩
        omega
      exact (login_exec.2.2 hkeeps).trans (h.owns q (mem_cons_of_mem hrest) b hb huid)

/-! ## The contest -/

/-- The frontend is about to register a session of the user, or has one that is not closed
and that nobody is about to kick. -/
def Engaged (uid : Bytes) (c : Config (Shared F) (Point F)) (f : F) : Prop :=
  (∃ p ∈ c.threads, ∃ sid, p.registering = some ⟨f, sid, uid⟩) ∨
    ∃ sid, c.shared.sessionsByUID (f, uid) = some sid ∧
      (c.shared.login (f, sid)).chDie = false ∧ ∀ p ∈ c.threads, p.kicks uid (f, sid) = false

/-- A notification of the first frontend has not been handled by the second. -/
def Pending (uid : Bytes) (c : Config (Shared F) (Point F)) (f f' : F) : Prop :=
  c.shared.inFlight ⟨uid, f, f'⟩ ≠ 0 ∨ .onUserBind ⟨uid, f, f'⟩ ∈ c.threads

/-- **The invariant**: of two frontends that are engaged, one has yet to hear of the
other. -/
def Contest (uid : Bytes) (c : Config (Shared F) (Point F)) : Prop :=
  ∀ f f', f ≠ f' → Engaged uid c f → Engaged uid c f' →
    Pending uid c f f' ∨ Pending uid c f' f

theorem Engaged.before (hnext : next s p choice = some p')
    (hfails : ∀ x ∈ failing (.run p choice), (s.login x).chDie = true)
    (hfork : ∀ sid, p ≠ .bind ⟨f, sid, uid⟩ .fork)
    (h : Engaged uid ⟨exec S s p choice, rejoin p' rest⟩ f) : Engaged uid ⟨s, p ::ₘ rest⟩ f := by
  rcases h with ⟨q, hq, sid, hregistering⟩ | ⟨sid, hlookup, hopen, hkicks⟩
  · rcases mem_rejoin.mp hq with rfl | hrest
    · rcases registering_next hnext hregistering with hbefore | rfl
      · exact .inl ⟨p, mem_cons_self p rest, sid, hbefore⟩
      · exact absurd rfl (hfork sid)
    · exact .inl ⟨q, mem_cons_of_mem hrest, sid, hregistering⟩
  · rcases registered_exec hlookup with hbefore | rfl
    · dsimp only at hopen
      rw [login_exec.2.1, Bool.or_eq_false_iff] at hopen
      refine .inr ⟨sid, hbefore, hopen.1, fun q hq => ?_⟩
      rcases mem_cons.mp hq with rfl | hrest
      · refine eq_false_of_ne_true fun hk => ?_
        rcases kicks_next hnext hk hfails with hdie | htears | ⟨q', hq', hk'⟩
        · cases hopen.1.symm.trans hdie
        · cases hopen.2.symm.trans htears
        · cases (hkicks q' (mem_rejoin.mpr (.inl hq'))).symm.trans hk'
      · exact hkicks q (mem_rejoin.mpr (.inr hrest))
    · exact .inl ⟨_, mem_cons_self _ rest, sid, rfl⟩

theorem Pending.after (hnext : next s p choice = some p') (hp : p ≠ .onUserBind ⟨uid, f, f'⟩)
    (h : Pending uid ⟨s, p ::ₘ rest⟩ f f') :
    Pending uid ⟨exec S s p choice, rejoin p' rest⟩ f f' := by
  rcases h with hflight | hthread
  · rcases inFlight_exec S p choice hflight with hstill | rfl
    · exact .inl hstill
    · cases choice with
      | go =>
        obtain ⟨-, ⟨⟩⟩ := ite_none_left_eq_some.mp hnext
        exact .inr (mem_rejoin.mpr (.inl rfl))
      | _ => cases hnext
  · rcases mem_cons.mp hthread with heq | hrest
    · exact absurd heq.symm hp
    · exact .inr (mem_rejoin.mpr (.inr hrest))

/-- After the lookup for another frontend, and while it is not about to register a session of the
user, a frontend is not engaged: its session is about to be kicked. -/
theorem not_engaged_of_lookup (hne : f ≠ f')
    (hunraced : ∀ q ∈ .onUserBind ⟨uid, f, f'⟩ ::ₘ rest, ∀ b ∈ q.registering,
      b.f = f' → b.uid ≠ uid)
    (hnext : next s (.onUserBind ⟨uid, f, f'⟩) choice = some p') :
    ¬Engaged uid ⟨s, rejoin p' rest⟩ f' := by
  have hrest {q : Point F} (hq : q ∈ rest) {sid : ℕ} (hb : q.registering = some ⟨f', sid, uid⟩) :
      False := hunraced q (mem_cons_of_mem hq) _ hb rfl rfl
  cases choice with
  | go =>
    simp only [next, if_neg (Ne.symm hne)] at hnext
    split at hnext
    · next hnone =>
      cases hnext
      rintro (⟨q, hq, sid, hb⟩ | ⟨sid, hlookup, -, -⟩)
      · exact hrest hq hb
      · cases hnone.symm.trans hlookup
    · next old hold =>
      cases hnext
      rintro (⟨q, hq, sid, hb⟩ | ⟨sid, hlookup, -, hkicks⟩)
      · rcases mem_cons.mp hq with rfl | hq
        · cases hb
        · exact hrest hq hb
      · obtain rfl := some.inj (hold.symm.trans hlookup)
        have hk := hkicks _ (mem_cons_self _ rest)
        simp [Point.kicks, Close.session, Caller.user] at hk
  | _ => cases hnext

theorem Contest.run (hbind : OneBind uid ⟨s, p ::ₘ rest⟩) (h : Contest uid ⟨s, p ::ₘ rest⟩)
    (hC : Unraced uid ⟨s, p ::ₘ rest⟩ (.run p choice)) (hnext : next s p choice = some p') :
    Contest uid ⟨exec S s p choice, rejoin p' rest⟩ := by
  -- a frontend that sends its notification has everybody else yet to hear of it
  have hsent {f : F} {sid : ℕ} (hp : p = .bind ⟨f, sid, uid⟩ .fork) (f' : F) :
      Pending uid ⟨exec S s p choice, rejoin p' rest⟩ f f' := by
    subst hp
    have huid := hbind.owns _ (mem_cons_self _ rest) _ rfl rfl
    refine .inl ?_
    dsimp only [exec]
    rw [if_pos ⟨huid.symm, rfl⟩]
    exact Nat.succ_ne_zero _
  -- a frontend that has heard of another is not engaged any more
  have hheard {f f' : F} (hne : f ≠ f') (hp : p = .onUserBind ⟨uid, f, f'⟩) :
      ¬Engaged uid ⟨exec S s p choice, rejoin p' rest⟩ f' := by
    subst hp
    exact not_engaged_of_lookup hne (hC.2.1 _ rfl rfl (Ne.symm hne)) hnext
  intro f f' hne hf hf'
  by_cases hfork : ∃ sid, p = .bind ⟨f, sid, uid⟩ .fork
  · obtain ⟨sid, hp⟩ := hfork
    exact .inl (hsent hp f')
  by_cases hfork' : ∃ sid, p = .bind ⟨f', sid, uid⟩ .fork
  · obtain ⟨sid, hp⟩ := hfork'
    exact .inr (hsent hp f)
  have hbefore := h f f' hne (hf.before hnext hC.2.2 fun sid hp => hfork ⟨sid, hp⟩)
    (hf'.before hnext hC.2.2 fun sid hp => hfork' ⟨sid, hp⟩)
  exact hbefore.imp (Pending.after hnext fun hp => hheard hne hp hf')
    (Pending.after hnext fun hp => hheard (Ne.symm hne) hp hf)

theorem Contest.call {threads : Multiset (Point F)} (h : Contest uid ⟨s, threads⟩)
    (hentry : (logins S).entry p = true) : Contest uid ⟨s, p ::ₘ threads⟩ := by
  have hengaged {f : F} (hf : Engaged uid ⟨s, p ::ₘ threads⟩ f) : Engaged uid ⟨s, threads⟩ f := by
    rcases hf with ⟨q, hq, sid, hb⟩ | ⟨sid, hlookup, hopen, hkicks⟩
    · rcases mem_cons.mp hq with rfl | hq
      · cases (entry_outside hentry).2.symm.trans hb
      · exact .inl ⟨q, hq, sid, hb⟩
    · exact .inr ⟨sid, hlookup, hopen, fun q hq => hkicks q (mem_cons_of_mem hq)⟩
  have hpending {f f' : F} (hf : Pending uid ⟨s, threads⟩ f f') :
      Pending uid ⟨s, p ::ₘ threads⟩ f f' :=
    hf.imp_right mem_cons_of_mem
  exact fun f f' hne hf hf' => (h f f' hne (hengaged hf) (hengaged hf')).imp hpending hpending

/-- When everything has been handled, a session that is not closed is nobody's to kick. -/
theorem engaged_of_live {c : Config (Shared F) (Point F)} (h : Settled uid c)
    (hlive : Live c.shared uid f) : Engaged uid c f := by
  obtain ⟨sid, hlookup, hopen⟩ := hlive
  refine .inr ⟨sid, hlookup, hopen, fun p hp => eq_false_of_ne_true fun hk => ?_⟩
  obtain ⟨k, place, rfl, huser⟩ : ∃ k place, p = .close k place ∧ k.caller.user = some uid := by
    unfold Point.kicks at hk
    split at hk
    all_goals first
      | exact ⟨_, _, rfl, (of_decide_eq_true hk).2⟩
      | cases hk
  cases hcaller : k.caller with
  | sys b =>
    rw [hcaller] at huser
    exact h.1 _ hp b (by rw [Point.binding, hcaller]; rfl) (some.inj huser)
  | onUserBind n =>
    rw [hcaller] at huser
    exact h.2.1 _ hp n (by rw [Point.handling, hcaller]; rfl) (some.inj huser)
  | _ =>
    rw [hcaller] at huser
    cases huser

/-- **At most one live session.**  In every interleaving of calls of `Bind`, `Kick`, `Close` and
`OnUserBind` on any number of frontends whose steps all meet `Unraced`, when all calls of
`Bind` for the user have returned and all its notifications have been handled, at most one
frontend has a session of the user that is not closed. -/
theorem one_live_session_of_unraced (S : Setup F) (uid : Bytes)
    (events : Run (Point F) Choice) (c : Config (Shared F) (Point F))
    (hrun : (logins S).system.run events = some c)
    (hmeets : (logins S).system.Meets (Unraced uid) events) (settled : Settled uid c)
    (f f' : F) (hf : Live c.shared uid f) (hf' : Live c.shared uid f') : f = f' := by
  have hinv : OneBind uid c ∧ Contest uid c := by
    apply Program.config_induction_of_meets ?_ ?_ ?_ hrun hmeets
    · refine ⟨⟨nofun, nofun⟩, fun f f' _ hf _ => ?_⟩
      rcases hf with ⟨p, hp, -⟩ | ⟨sid, hlookup, -⟩
      · cases hp
      · cases hlookup
    · exact fun s threads p _ hC h hentry => ⟨h.1.call hC hentry, h.2.call hentry⟩
    · intro s p rest choice s' p' _ hC h hstep
      obtain ⟨hnext, rfl⟩ := step_eq_some.mp hstep
      exact ⟨h.1.run hnext, h.2.run h.1 hC hnext⟩
  by_contra hne
  rcases hinv.2 f f' hne (engaged_of_live settled hf) (engaged_of_live settled hf') with
    (hflight | hthread) | (hflight | hthread)
  · exact hflight (settled.2.2 f f')
  · exact settled.2.1 _ hthread _ rfl rfl
  · exact hflight (settled.2.2 f' f)
  · exact settled.2.1 _ hthread _ rfl rfl

/-! ## Two frontends -/

/-- `Bind`, up to the notification. -/
def notifies (f : Bool) : Run (Point Bool) Choice :=
  bindsUntil f ++ steps .go ([.hmset [49] true [], .fork].map (.bind (login f)))

/-- The user logs in at both frontends at once: each of them handles the notification
of the other before it registers its own session. -/
def concurrentLogins : Run (Point Bool) Choice :=
  notifies false ++ notifies true ++ hears false true ++ hears true false ++
    (bindsAfter false).tail ++ (bindsAfter true).tail ++ hears false false ++ hears true true

/-- The user logs in at the first frontend and then at the second. -/
def successiveLogins : Run (Point Bool) Choice :=
  binds false ++ hears false true ++ hears false false ++ notifies true ++ hears true false ++
    kicks true false ++ hears true true ++ (bindsAfter true).tail

omit [DecidableEq F] in
theorem settled_of_idle {c : Config (Shared F) (Point F)} (hthreads : c.threads = 0)
    (hflight : ∀ fid target, c.shared.inFlight ⟨uid, fid, target⟩ = 0) : Settled uid c := by
  unfold Settled
  rw [hthreads]
  exact ⟨nofun, nofun, hflight⟩

/-- **Two live sessions.**  Both frontends keep their session. -/
theorem two_live_sessions :
    ¬∀ (uid : Bytes) (events : Run (Point Bool) Choice)
      (c : Config (Shared Bool) (Point Bool)), (logins twoFrontends).system.run events = some c →
      Settled uid c → ∀ f f', Live c.shared uid f → Live c.shared uid f' → f = f' := by
  intro h
  obtain ⟨c, hc, hthreads, hflight, hlive⟩ :
      ∃ c, (logins twoFrontends).system.run concurrentLogins = some c ∧ c.threads = 0 ∧
        (∀ fid target, c.shared.inFlight ⟨[49], fid, target⟩ = 0) ∧
        ∀ f, c.shared.sessionsByUID (f, [49]) = some 1 ∧ (c.shared.login (f, 1)).chDie = false := by
    decide +kernel
  exact Bool.false_ne_true (h [49] concurrentLogins c hc (settled_of_idle hthreads hflight)
    false true ⟨1, hlive false⟩ ⟨1, hlive true⟩)

/-- A login that follows another one ends its session. -/
theorem one_live_session_of_unraced_successive : ∃ c,
    (logins twoFrontends).system.run successiveLogins = some c ∧
    ((logins twoFrontends).system.Meets (Unraced [49]) successiveLogins ∧ Settled [49] c ∧
      Live c.shared [49] true ∧ ∀ f, Live c.shared [49] f → f = true) ∧
    c.threads = 0 ∧ (∀ fid target, c.shared.inFlight ⟨[49], fid, target⟩ = 0) ∧
    c.shared.sessionsByUID (true, [49]) = some 1 ∧ (c.shared.login (true, 1)).chDie = false := by
  have hmeets : (logins twoFrontends).system.Meets (Unraced [49]) successiveLogins :=
    System.meets_of_meetsFrom (by decide +kernel)
  refine reaches_and (by decide +kernel) fun c hc ⟨hthreads, hflight, hlive⟩ => ?_
  have hsettled : Settled [49] c := settled_of_idle hthreads hflight
  exact ⟨hmeets, hsettled, ⟨1, hlive⟩, fun f hf =>
    one_live_session_of_unraced twoFrontends [49] successiveLogins c hc hmeets hsettled f true hf
      ⟨1, hlive⟩⟩

end Pitaya.Logins
