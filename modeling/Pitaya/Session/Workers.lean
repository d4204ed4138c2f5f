import Pitaya.Session.Heap
import Pitaya.Session.Remote

/-!
# Which worker a task goes to

`Session.Go` of `session/session.go` and `GoWithRequest` of `cluster/cluster.go` give a task to a
worker of the pools of `co/co.go`.  A uid is turned into a number, and the number is tested twice:
`Session.Go` takes zero for a session without a user, and `GoWithUser` does nothing for a number
that is not positive.

* `Worker`, `goWithUser`, `go`, `goWithRequest` — the submissions a call makes.  The pools accept
  them.
-/

namespace Pitaya.Co

open Function CloseReason

/-- Where a task is submitted: the pool without workers of its own, or the worker with an id of
the pools `UserGoPoolName` and `SessionGoPoolName`. -/
inductive Worker where
  | stateless
  | user (goID : ℤ)
  | session (goID : ℤ)
  deriving DecidableEq, Repr

def goWithUser (uid : ℤ) : List Worker := if uid ≤ 0 then [] else [.user uid]

/-- `FrontendSessHash`, the checksum of "%s-%d". -/
def frontendSessHash (frontendID : Bytes) (sid : ℤ) : ℤ :=
  (Crc32.checksumIEEE (frontendID ++ [45] ++ Strconv.formatInt sid)).toNat

section

variable {V : Type}

/-- `Session.Go`, of the session with the id `id`. -/
def go (s : Session V) (id : ℤ) : List Worker :=
  if s.uidInt ≠ 0 then goWithUser s.uidInt
  else [.session (if s.isFrontend then id else frontendSessHash s.frontendID s.frontendSessionID)]

/-- `protos.Request`, as far as it decides about the worker. -/
structure Request where
  session : Option ProtoSession := none
  frontendID : Bytes := []
  deriving DecidableEq

def goWithRequest (req : Option Request) : List Worker :=
  match req.bind Request.session with
  | none => [.stateless]
  | some sess =>
    if sess.uid ≠ [] then goWithUser (forceIdStrToInt sess.uid)
    else [.session (frontendSessHash ((req.map Request.frontendID).getD []) sess.id)]

/-! ## The number of a session -/

/-- The number of the session is that of its uid. -/
def Numbered (s : Session V) : Prop := s.uidInt = forceIdStrToInt s.uid

namespace Numbered

variable {s : Session V} (codec : Codec V)

theorem setUID (s : Session V) (uid : Bytes) : Numbered (s.setUID uid) := rfl

theorem obtainFromCluster (h : Numbered s) (reply : Session.HgetallReply) :
    Numbered (s.obtainFromCluster codec reply).1 := by
  have hcovers := (s.obtainFromCluster_covers codec reply).1
  rw [Numbered, hcovers.uid, hcovers.uidInt]
  exact h

end Numbered

/-- The numbers of all sessions of a pool are those of their uids. -/
def AllNumbered (p : Pool V) : Prop := ∀ id, Numbered (p.session id)

namespace AllNumbered

variable {p : Pool V} (server : Server V)

section

variable (h : AllNumbered p)
include h

theorem of_update {q : Pool V} {id : ℕ} {s : Session V}
    (hsession : q.session = Function.update p.session id s) (hs : Numbered s) : AllNumbered q := by
  intro id'
  rw [hsession]
  by_cases hid : id' = id
  · rw [hid, update_self]
    exact hs
  · rw [update_of_ne hid]
    exact h id'

theorem set {s : Session V} (hs : Numbered s) (id : ℕ) : AllNumbered (p.set id s) :=
  h.of_update rfl hs

variable (id : ℕ)

theorem kick (reason : CloseReason) (replies : KickReplies) :
    AllNumbered (p.kick server id reason replies).1 := by
  obtain ⟨entity, online, -, hsession⟩ := p.kick_session server id reason replies
  exact h.of_update hsession (h id)

theorem close (reason : CloseReason) (replies : CloseReplies) :
    AllNumbered (p.close server id reason replies) := by
  obtain ⟨entity, -, hsession⟩ := p.close_session server id reason replies
  exact h.of_update hsession (h id)

theorem deleteUID : AllNumbered (p.deleteUID id) := by
  unfold Pool.deleteUID
  split <;> exact h

theorem sysBindData (replies : SysReplies) :
    AllNumbered (p.sysBindData server id replies).1 :=
  h.of_update (p.sysBindData_session server id replies) (h id)

theorem runCallbacks (callbacks : List (BindCallback V)) :
    AllNumbered (p.runCallbacks server id callbacks).1 :=
  have hkept : Pool.KeptByCallbacks server id fun p q => AllNumbered p → AllNumbered q :=
    { refl := fun _ hp => hp
      trans := fun hpq hqr hp => hqr (hpq hp)
      kick := fun _ old replies _ hp => hp.kick server old kickRebind replies
      bindData := fun _ replies hp => hp.sysBindData server id replies
      write := fun _ _ hp => hp.of_update rfl (hp id) }
  hkept.runCallbacks p callbacks h

theorem clearUID : AllNumbered (p.clearUID id) :=
  h.set (s := { p.session id with uid := [], uidInt := 0 }) rfl id

theorem bindPrepare (uid : Bytes) (custSessData : StringMap V) (replies : BindReplies V) :
    AllNumbered (p.bindPrepare server id uid custSessData replies).1 := by
  have hassign : AllNumbered (p.assign server id uid custSessData) :=
    h.of_update rfl (Numbered.setUID (p.session id) uid)
  have hcalls := hassign.runCallbacks server id replies.callbacks
  rcases p.bindPrepare_fst server id uid custSessData replies with heq | heq | heq | heq
  · rwa [heq]
  · rwa [heq]
  · rwa [heq]
  · rw [heq]
    exact hcalls.clearUID id

theorem register (uid : Bytes) (replies : CloseReplies) :
    AllNumbered (p.register server id uid replies) := by
  unfold Pool.register
  split
  · exact h.close server _ kickRebind replies
  · exact h

theorem bind (uid : Bytes) (custSessData : StringMap V) (replies : BindReplies V) :
    AllNumbered (p.bind server id uid custSessData replies).1 := by
  have hprepare := h.bindPrepare server id uid custSessData replies
  unfold Pool.bind
  split
  · next heq => rwa [heq] at hprepare
  · next q heq =>
    rw [heq] at hprepare
    split
    · exact hprepare.register server id uid replies.close
    unfold Pool.bindElsewhere
    split
    · exact hprepare.clearUID id
    · exact hprepare.set ((hprepare id).obtainFromCluster server.codec replies.hgetall) id

theorem newSession (entity : Entity) (frontend : Bool) (uid : Option Bytes) :
    AllNumbered (p.newSession entity frontend uid).1 := by
  rcases p.newSession_cases entity frontend uid with
    ⟨id, -, heq⟩ | ⟨-, -, -, hsession, -⟩
  · rw [heq]
    exact h
  · intro id
    rw [hsession]
    by_cases hid : id = p.sid + 1
    · rw [hid, update_self]
      cases uid <;> rfl
    · rw [update_of_ne hid]
      exact h id

theorem closeAllVisit (replies : CloseReplies) :
    AllNumbered (p.closeAllVisit server id replies) := by
  unfold Pool.closeAllVisit
  split
  · exact h
  · exact h.close server id normal replies

theorem setRequestInFlight (reqID reqData : Bytes) (inFlight : Bool) :
    AllNumbered (p.setRequestInFlight id reqID reqData inFlight) := by
  refine h.set ?_ id
  exact h id

theorem storeSessionLocal : AllNumbered (p.storeSessionLocal id).1 := by
  unfold Pool.storeSessionLocal
  dsimp only
  repeat' split
  all_goals exact h

theorem removeSessionLocal : AllNumbered (p.removeSessionLocal id) := by
  have hdeleted := h.deleteUID id
  unfold Pool.removeSessionLocal
  dsimp only
  split <;> exact hdeleted

theorem apply (op : Pool.Op V) : AllNumbered (p.apply server op) := by
  cases op with
  | newSession entity frontend uid => exact h.newSession entity frontend uid
  | bind id uid custSessData replies => exact h.bind server id uid custSessData replies
  | kick id reason replies => exact h.kick server id reason replies
  | close id reason replies => exact h.close server id reason replies
  | closeAllVisit id replies => exact h.closeAllVisit server id replies
  | setRequestInFlight id reqID reqData inFlight =>
    exact h.setRequestInFlight id reqID reqData inFlight
  | storeSessionLocal id => exact h.storeSessionLocal id
  | removeSessionLocal id => exact h.removeSessionLocal id

end

end AllNumbered

/-- **The number of a session is that of its uid**, after any operations on the pool. -/
theorem numbered {server : Server V} {p : Pool V} (h : (Pool.pool server).Reachable p) :
    AllNumbered p := by
  refine Transition.System.reachable_induction (fun _ => rfl) ?_ h
  intro p op p' _ hp hstep
  obtain ⟨rfl, -⟩ := Pool.step_eq_some hstep
  exact hp.apply server op

/-! ## Submissions -/

theorem goWithUser_eq_iff {uid : ℤ} {w : Worker} :
    goWithUser uid = [w] ↔ 0 < uid ∧ w = .user uid := by
  unfold goWithUser
  split
  · next h => exact iff_of_false nofun fun hw => absurd hw.1 (not_lt.mpr h)
  · next h =>
    rw [List.cons.injEq, eq_comm]
    exact ⟨fun hw => ⟨not_le.mp h, hw.1⟩, fun hw => ⟨hw.2, rfl⟩⟩

theorem go_iff {s : Session V} (h : Numbered s) (id : ℤ) :
    (∃ w, go s id = [w]) ↔ 0 ≤ forceIdStrToInt s.uid := by
  rw [← h]
  unfold go
  split
  · next hne =>
    simp only [goWithUser_eq_iff, exists_and_left, exists_eq, and_true]
    omega
  · next hzero =>
    refine iff_of_true ⟨_, rfl⟩ ?_
    rw [not_not.mp hzero]

theorem go_user_iff {s : Session V} (h : Numbered s) (id : ℤ) {n : ℤ} :
    go s id = [.user n] ↔ 0 < n ∧ n = forceIdStrToInt s.uid := by
  rw [← h]
  unfold go
  split
  · rw [goWithUser_eq_iff]
    simp only [Worker.user.injEq]
    constructor
    · rintro ⟨hpos, rfl⟩
      exact ⟨hpos, rfl⟩
    · rintro ⟨hpos, rfl⟩
      exact ⟨hpos, rfl⟩
  · next hzero =>
    rw [not_not.mp hzero]
    refine iff_of_false (by simp) ?_
    rintro ⟨hpos, rfl⟩
    exact lt_irrefl 0 hpos

theorem goWithRequest_iff (req : Option Request) :
    (∃ w, goWithRequest req = [w]) ↔
      ∀ sess, req.bind Request.session = some sess →
        sess.uid = [] ∨ 0 < forceIdStrToInt sess.uid := by
  unfold goWithRequest
  cases hsess : req.bind Request.session with
  | none => exact iff_of_true ⟨_, rfl⟩ nofun
  | some sess =>
    simp only [Option.some.injEq, forall_eq']
    by_cases huid : sess.uid = []
    · rw [if_neg (not_not.mpr huid)]
      exact iff_of_true ⟨_, rfl⟩ (.inl huid)
    · rw [if_pos huid]
      simp [goWithUser_eq_iff, huid]

theorem goWithRequest_user {req : Option Request} {sess : ProtoSession}
    (hsess : req.bind Request.session = some sess) (huid : sess.uid ≠ []) :
    goWithRequest req = goWithUser (forceIdStrToInt sess.uid) := by
  unfold goWithRequest
  rw [hsess]
  exact if_pos huid

/-- **When work is submitted.**  After any operations on a pool, `Session.Go` submits a task to
exactly one worker if and only if the number of the uid is not negative, and `GoWithRequest` if and
only if the request has no session or no uid or the number is positive.  For a user both submit to
one and the same user worker if and only if the number is positive. -/
theorem dispatch_iff {server : Server V} {p : Pool V} (h : (Pool.pool server).Reachable p) (id : ℕ)
    (req : Option Request) :
    ((∃ w, go (p.session id) id = [w]) ↔ 0 ≤ forceIdStrToInt (p.session id).uid) ∧
      ((∃ w, goWithRequest req = [w]) ↔
        ∀ sess, req.bind Request.session = some sess →
          sess.uid = [] ∨ 0 < forceIdStrToInt sess.uid) ∧
      ∀ sess, req.bind Request.session = some sess → sess.uid ≠ [] →
        (p.session id).uid = sess.uid →
        ((∃ n, go (p.session id) id = [.user n] ∧ goWithRequest req = [.user n]) ↔
          0 < forceIdStrToInt sess.uid) := by
  refine ⟨go_iff (numbered h id) id, goWithRequest_iff req, fun sess hsess huid hsame => ?_⟩
  rw [goWithRequest_user hsess huid]
  simp only [go_user_iff (numbered h id), goWithUser_eq_iff, hsame, Worker.user.injEq]
  constructor
  · rintro ⟨n, -, hpos, -⟩
    exact hpos
  · exact fun hpos => ⟨_, ⟨hpos, rfl⟩, hpos, rfl⟩

end

/-- A frontend whose sessions hold no custom data. -/
def plainServer : Server Empty where
  codec := .small (fun _ => none) nofun []

/-- A connection whose session is bound to a user. -/
def login (uid : Bytes) : List (Pool.Op Empty) :=
  [.newSession (.agent {}) true none, .bind 1 uid none {}]

/-- A request of a session of a user. -/
def requestOf (uid : Bytes) : Option Request := some { session := some { uid := uid } }

/-- The user "42" has one worker. -/
theorem dispatch_iff_42 : ∃ p, (Pool.pool plainServer).run (login [52, 50]) = some p ∧
    ((∃ w, go (p.session 1) 1 = [w]) ∧ (∃ w, goWithRequest (requestOf [52, 50]) = [w]) ∧
      ∃ n, go (p.session 1) 1 = [.user n] ∧ goWithRequest (requestOf [52, 50]) = [.user n]) ∧
    (p.session 1).uid = [52, 50] := by
  refine Transition.reaches_and (by decide +kernel) fun p hp huid => ?_
  obtain ⟨hgo, hrequest, hboth⟩ := dispatch_iff ⟨_, hp⟩ 1 (requestOf [52, 50])
  refine ⟨hgo.mpr ?_, hrequest.mpr ?_, (hboth _ rfl nofun huid).mpr (by decide +kernel)⟩
  · rw [huid]
    decide +kernel
  · rintro _ ⟨⟩
    exact .inr (by decide +kernel)

/-- **Work that is dropped.**  For the user "-1" neither call submits the task, and for the user
"0" only that of the session does. -/
theorem negative_uid_dropped :
    (∃ p, (Pool.pool plainServer).run (login [45, 49]) = some p ∧ go (p.session 1) 1 = [] ∧
      goWithRequest (requestOf [45, 49]) = []) ∧
    ∃ p, (Pool.pool plainServer).run (login [48]) = some p ∧ go (p.session 1) 1 = [.session 1] ∧
      goWithRequest (requestOf [48]) = [] := by
  constructor <;> decide +kernel

end Pitaya.Co
