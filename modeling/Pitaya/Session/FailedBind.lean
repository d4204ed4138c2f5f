import Pitaya.Session.Bindings
import Pitaya.Session.Heap

/-!
# What a failed `Bind` leaves behind

`sessionImpl.Bind` assigns the uid and the custom data first and then runs the bind callbacks,
of which that of `Sys` loads the record of the user from the cluster store and the others may
write what they like to the data and the backends.  On the server of another connection it then
calls the frontend and loads the record again.  Each of these steps can fail, and each failure
undoes something else: after a callback or the call of the frontend the uid is cleared, after the
encoding of the custom data and after the load it is left; what was written to the data and the
backends is never taken back.

* `callbacksOverlay`, `written` — what the steps write to the session.
* `failed_bind_changes` — a session that is bound after a failed call, and one that has lost
  its uid.
-/

namespace Pitaya.Pool

open Transition Session

variable {V : Type} (server : Server V)

/-! ## The callbacks -/

variable (p : Pool V) (id : ℕ) (replies : SysReplies)

/-- What the bind callback of `Sys` writes: nothing on a backend, and nothing if the old
session of the uid cannot be kicked. -/
def sysCallbackOverlay : Overlay V :=
  if ¬ server.frontend then {}
  else
    match p.getSessionByUID (p.session id).uid with
    | none => sysOverlay server (p.session id).getData replies
    | some oldSession =>
      match (p.kick server oldSession CloseReason.kickRebind replies.kick).2 with
      | some _ => {}
      | none => sysOverlay server (p.session id).getData replies

theorem sysBindData_covers :
    (sysOverlay server (p.session id).getData replies).Covers (p.session id)
      ((p.sysBindData server id replies).1.session id) := by
  rw [sysBindData_session, Function.update_self]
  exact Overlay.covers_layOver _ _

theorem sysOnSessionBind_covers :
    (p.sysCallbackOverlay server id replies).Covers (p.session id)
      ((p.sysOnSessionBind server id replies).1.session id) := by
  unfold sysOnSessionBind sysCallbackOverlay
  split
  · exact .refl _
  cases p.getSessionByUID (p.session id).uid with
  | none => exact p.sysBindData_covers server id replies
  | some old =>
    have hkick := p.kick_covers server old CloseReason.kickRebind replies.kick id
    dsimp only
    generalize p.kick server old CloseReason.kickRebind replies.kick = r at *
    obtain ⟨q, err⟩ := r
    cases err with
    | some => exact hkick
    | none =>
      have hdata : (q.session id).getData = (p.session id).getData := by
        rw [getData, hkick.data]
        rfl
      have hbind := q.sysBindData_covers server id replies
      rw [hdata] at hbind
      simpa only [Overlay.empty_andThen] using hkick.trans hbind

/-- What a bind callback writes to the session it is called for. -/
def callbackOverlay : BindCallback V → Overlay V
  | .sys replies => p.sysCallbackOverlay server id replies
  | .other act => (act (p.session id)).1

theorem runCallback_covers (callback : BindCallback V) :
    (p.callbackOverlay server id callback).Covers (p.session id)
      ((p.runCallback server id callback).1.session id) := by
  cases callback with
  | sys replies => exact p.sysOnSessionBind_covers server id replies
  | other act =>
    rw [runCallback, set_session_self]
    exact Overlay.covers_layOver _ _

/-- What the loop over the bind callbacks writes. -/
def callbacksOverlay (p : Pool V) (id : ℕ) : List (BindCallback V) → Overlay V
  | [] => {}
  | callback :: callbacks =>
    match p.runCallback server id callback with
    | (_, some _) => p.callbackOverlay server id callback
    | (q, none) => (p.callbackOverlay server id callback).andThen
        (q.callbacksOverlay id callbacks)

theorem runCallbacks_covers (callbacks : List (BindCallback V)) :
    (p.callbacksOverlay server id callbacks).Covers (p.session id)
      ((p.runCallbacks server id callbacks).1.session id) := by
  induction callbacks generalizing p with
  | nil => exact .refl _
  | cons callback callbacks ih =>
    have hfirst := p.runCallback_covers server id callback
    rw [runCallbacks, callbacksOverlay]
    generalize p.runCallback server id callback = r at *
    obtain ⟨q, err⟩ := r
    cases err with
    | some => exact hfirst
    | none => exact hfirst.trans (ih q)

/-! ## Failures -/

/-- Where a call of `Bind` fails. -/
inductive FailurePoint where
  /-- The uid is empty, or the session has another one. -/
  | refused
  /-- The custom data cannot be encoded. -/
  | encoding
  /-- A bind callback fails. -/
  | callback
  /-- The call of the frontend fails. -/
  | frontend
  /-- The record of the store cannot be loaded. -/
  | loading
  deriving DecidableEq, Repr

/-- What the call has written when the callbacks are through. -/
def written (p : Pool V) (id : ℕ) (uid : Bytes) (custSessData : StringMap V)
    (callbacks : List (BindCallback V)) : Overlay V :=
  (customOverlay server custSessData).andThen
    ((p.assign server id uid custSessData).callbacksOverlay server id callbacks)

/-- Where a call of `Bind` fails, if it does, and what it has written by then. -/
def failure (uid : Bytes) (custSessData : StringMap V)
    (replies : BindReplies V) : Option (FailurePoint × Overlay V) :=
  let assigned := p.assign server id uid custSessData
  let written := p.written server id uid custSessData replies.callbacks
  if p.Refuses id uid then some (.refused, {})
  else if (customError server custSessData).isSome then
    some (.encoding, customOverlay server custSessData)
  else if (assigned.runCallbacks server id replies.callbacks).2.isSome then
    some (.callback, written)
  else if (p.session id).isFrontend then none
  else if replies.bindInFront.isSome then some (.frontend, written)
  else if (obtainError server.codec replies.hgetall).isSome then
    some (.loading, written.andThen (replyOverlay server.codec replies.hgetall))
  else none

/-- The session as far as the failure undoes the assignment of the uid. -/
def FailurePoint.left (s : Session V) (uid : Bytes) : FailurePoint → Session V
  | .refused => s
  | .encoding | .loading => s.setUID uid
  | .callback | .frontend => { s with uid := [], uidInt := 0 }

theorem clearUID_covers {q : Pool V} {id : ℕ} {o : Overlay V} {s : Session V} {uid : Bytes}
    (h : o.Covers (s.setUID uid) (q.session id)) :
    o.Covers { s with uid := [], uidInt := 0 } ((q.clearUID id).session id) := by
  rw [clearUID, set_session_self]
  exact ⟨rfl, rfl, h.isFrontend, h.data, h.encodedData, h.backends⟩

section

variable {p q : Pool V} {id : ℕ} {uid : Bytes} {custSessData : StringMap V}
  {replies : BindReplies V} {e : SessionError}

/-- What the callbacks have written over the session, whether they fail or not. -/
theorem written_covers (p : Pool V) (id : ℕ) (uid : Bytes) (custSessData : StringMap V)
    (callbacks : List (BindCallback V)) :
    (p.written server id uid custSessData callbacks).Covers ((p.session id).setUID uid)
      (((p.assign server id uid custSessData).runCallbacks server id callbacks).1.session id) :=
  (p.assign_covers server id uid custSessData).trans (runCallbacks_covers server _ id callbacks)

theorem bindPrepare_failed (h : p.bindPrepare server id uid custSessData replies = (q, some e)) :
    ∃ point o, p.failure server id uid custSessData replies = some (point, o) ∧
      o.Covers (point.left (p.session id) uid) (q.session id) := by
  unfold failure
  by_cases hrefused : p.Refuses id uid
  · obtain ⟨e', hprepare⟩ := bindPrepare_refused server hrefused custSessData replies
    rw [hprepare] at h
    obtain ⟨rfl, -⟩ := Prod.mk.inj h
    rw [if_pos hrefused]
    exact ⟨_, _, rfl, .refl _⟩
  rw [bindPrepare_eq server hrefused] at h
  rw [if_neg hrefused]
  cases hcustom : customError server custSessData with
  | some =>
    rw [hcustom] at h
    obtain ⟨rfl, -⟩ := Prod.mk.inj h
    exact ⟨_, _, rfl, p.assign_covers server id uid custSessData⟩
  | none =>
    rw [hcustom] at h
    have hcalls := p.written_covers server id uid custSessData replies.callbacks
    generalize (p.assign server id uid custSessData).runCallbacks server id
      replies.callbacks = r at *
    obtain ⟨q', err⟩ := r
    cases err with
    | some =>
      obtain ⟨rfl, -⟩ := Prod.mk.inj h
      exact ⟨_, _, rfl, clearUID_covers hcalls⟩
    | none => cases h

theorem bindElsewhere_failed (h : p.bindElsewhere server id replies = (q, some e)) :
    (replies.bindInFront.isSome = true ∧ q = p.clearUID id) ∨
      (replies.bindInFront = none ∧
        (obtainError server.codec replies.hgetall).isSome = true ∧
        (replyOverlay server.codec replies.hgetall).Covers (p.session id) (q.session id)) := by
  unfold bindElsewhere at h
  cases hcall : replies.bindInFront with
  | some =>
    rw [hcall] at h
    exact Or.inl ⟨rfl, (congrArg Prod.fst h).symm⟩
  | none =>
    rw [hcall] at h
    obtain ⟨hload, herror⟩ :=
      (p.session id).obtainFromCluster_covers server.codec replies.hgetall
    have hq : q = p.set id ((p.session id).obtainFromCluster server.codec replies.hgetall).1 :=
      (congrArg Prod.fst h).symm
    have he : ((p.session id).obtainFromCluster server.codec replies.hgetall).2 = some e :=
      congrArg Prod.snd h
    refine Or.inr ⟨rfl, ?_, ?_⟩
    · rw [← herror, he]
      rfl
    · rw [hq, set_session_self]
      exact hload

/-- **What a failed call leaves** in its session: what it has written by then, over the
session with the uid the failure leaves. -/
theorem bind_failed (h : p.bind server id uid custSessData replies = (q, some e)) :
    ∃ point o, p.failure server id uid custSessData replies = some (point, o) ∧
      o.Covers (point.left (p.session id) uid) (q.session id) := by
  unfold bind at h
  cases hprepare : p.bindPrepare server id uid custSessData replies with
  | mk q' err =>
  rw [hprepare] at h
  cases err with
  | some =>
    obtain ⟨rfl, -⟩ := Prod.mk.inj h
    exact bindPrepare_failed server hprepare
  | none =>
    obtain ⟨hrefused, hcustom, hcalls⟩ := bindPrepare_passed server hprepare
    have hwritten := p.written_covers server id uid custSessData replies.callbacks
    rw [hcalls] at hwritten
    dsimp only at h
    split at h
    · cases h
    next hside =>
    have hside' : ¬ (p.session id).isFrontend = true := by
      rwa [hwritten.isFrontend] at hside
    have hpast : p.failure server id uid custSessData replies =
        if replies.bindInFront.isSome then
          some (.frontend, p.written server id uid custSessData replies.callbacks)
        else if (obtainError server.codec replies.hgetall).isSome then
          some (.loading, (p.written server id uid custSessData replies.callbacks).andThen
            (replyOverlay server.codec replies.hgetall))
        else none := by
      unfold failure
      rw [if_neg hrefused, hcustom, hcalls, if_neg (by simp), if_neg (by simp), if_neg hside']
    rcases bindElsewhere_failed server h with ⟨hfront, rfl⟩ | ⟨hfront, herror, hload⟩
    · rw [hpast, if_pos hfront]
      exact ⟨_, _, rfl, clearUID_covers hwritten⟩
    · rw [hpast, hfront, if_neg (by simp), if_pos herror]
      exact ⟨_, _, rfl, hwritten.trans hload⟩

theorem bind_failed_tables (h : p.bind server id uid custSessData replies = (q, some e)) :
    SameTables p q := by
  rcases p.bind_cases server id uid custSessData replies with
    ⟨-, hquiet⟩ | ⟨-, q', -, -, -, hbind⟩
  · rw [h] at hquiet
    exact hquiet.tables
  · rw [hbind] at h
    cases h

end

/-! ## Nothing has changed -/

/-- **The property**: what the session is bound to and holds, and the tables and counters of
the pool, are as before. -/
structure Unchanged (p q : Pool V) (id : ℕ) : Prop where
  uid : (q.session id).uid = (p.session id).uid
  uidInt : (q.session id).uidInt = (p.session id).uidInt
  data : (q.session id).data = (p.session id).data
  encodedData : (q.session id).encodedData = (p.session id).encodedData
  backends : (q.session id).backends = (p.session id).backends
  tables : SameTables p q

/-- The failure leaves the uid and the number the session had. -/
def FailurePoint.Undoes (s : Session V) (uid : Bytes) : FailurePoint → Prop
  | .refused => True
  | .encoding | .loading => s.uid = uid ∧ s.uidInt = forceIdStrToInt uid
  | .callback | .frontend => s.uid = [] ∧ s.uidInt = 0

/-- **The condition**: the failure leaves the uid the session had, and the session already had
what was written by then. -/
def FailsClean (p : Pool V) (id : ℕ) (uid : Bytes) (custSessData : StringMap V)
    (replies : BindReplies V) : Prop :=
  ∃ point o, p.failure server id uid custSessData replies = some (point, o) ∧
    point.Undoes (p.session id) uid ∧ o.Fits (p.session id)

theorem FailurePoint.undoes_iff (point : FailurePoint) (s : Session V) (uid : Bytes) :
    point.Undoes s uid ↔ (point.left s uid).uid = s.uid ∧ (point.left s uid).uidInt = s.uidInt := by
  cases point with
  | refused => simp [Undoes, left]
  | encoding | loading | callback | frontend => simp [Undoes, left, setUID, eq_comm]

theorem FailurePoint.fits_left (point : FailurePoint) (s : Session V) (uid : Bytes)
    (o : Overlay V) : o.Fits (point.left s uid) ↔ o.Fits s := by
  cases point <;> rfl

/-- **A failed `Bind` changes nothing if and only if it fails where the uid is left as the
session had it, and after writing only what the session had.** -/
theorem unchanged_iff_failsClean (p q : Pool V) (id : ℕ) (uid : Bytes)
    (custSessData : StringMap V) (replies : BindReplies V) (e : SessionError)
    (h : p.bind server id uid custSessData replies = (q, some e)) :
    Unchanged p q id ↔ p.FailsClean server id uid custSessData replies := by
  obtain ⟨point, o, hfailure, hcovers⟩ := bind_failed server h
  have hfits := hcovers.same_iff_fits
  rw [point.fits_left] at hfits
  have hdata : (point.left (p.session id) uid).data = (p.session id).data := by cases point <;> rfl
  have hencoded : (point.left (p.session id) uid).encodedData = (p.session id).encodedData := by
    cases point <;> rfl
  have hbackends : (point.left (p.session id) uid).backends = (p.session id).backends := by
    cases point <;> rfl
  rw [hdata, hencoded, hbackends] at hfits
  constructor
  · intro hsame
    refine ⟨point, o, hfailure, (point.undoes_iff _ uid).mpr ⟨?_, ?_⟩,
      hfits.mp ⟨hsame.data, hsame.encodedData, hsame.backends⟩⟩
    · rw [← hcovers.uid, hsame.uid]
    · rw [← hcovers.uidInt, hsame.uidInt]
  · rintro ⟨point', o', hfailure', hundoes, hfit⟩
    rw [hfailure] at hfailure'
    obtain ⟨rfl, rfl⟩ := Prod.mk.inj (Option.some.inj hfailure')
    obtain ⟨huid, huidInt⟩ := (point.undoes_iff _ uid).mp hundoes
    obtain ⟨hdata, hencoded, hbackends⟩ := hfits.mpr hfit
    exact ⟨hcovers.uid.trans huid, hcovers.uidInt.trans huidInt, hdata, hencoded, hbackends,
      bind_failed_tables server h⟩

/-! ## Two failures -/

/-- A frontend with one connection. -/
def connected : Pool Unit := (newSession {} (.agent {}) true none).1

/-- The callback of the NATS server fails to subscribe. -/
def unsubscribed : BindReplies Unit := { callbacks := [.other fun _ => ({}, some [])] }

/-- A callback fails for a session without a uid. -/
theorem unchanged_iff_failsClean_first : ∃ q e,
    connected.bind plainServer 1 [117] none unsubscribed = (q, some e) ∧
      Unchanged connected q 1 := by
  refine ⟨_, .call [], rfl, ?_⟩
  refine (unchanged_iff_failsClean plainServer connected _ 1 [117] none unsubscribed _ rfl).mpr
    ⟨.callback, {}, rfl, ⟨rfl, rfl⟩, ?_⟩
  exact ⟨fun _ h => (by cases h), fun _ h => (by cases h), fun _ h => (by cases h)⟩

/-- A callback stores a backend in the session and fails. -/
def halfWay : BindReplies Unit where
  callbacks := [.other fun _ => ({ backends := some (some (Finmap.singleton [116] [115])) },
    some [])]

/-- The encoder fails, and the session keeps the uid; a callback fails when a user binds the
uid again, and the session loses it; a callback fails, and the session keeps what it wrote. -/
theorem failed_bind_changes :
    (∃ q e, connected.bind plainServer 1 [117] (some (Finmap.singleton [107] ())) {} =
        (q, some e) ∧ (q.session 1).uid = [117] ∧ ¬ Unchanged connected q 1) ∧
      (∃ p q e, (frontendPool plainServer).run
          [.newSession (.agent {}) true none, .bind 1 [117] none {}] = some p ∧
        p.bind plainServer 1 [117] none unsubscribed = (q, some e) ∧
        (q.session 1).uid = [] ∧ q.getSessionByUID [117] = some 1 ∧ ¬ Unchanged p q 1) ∧
      ∃ q e, connected.bind plainServer 1 [117] none halfWay = (q, some e) ∧
        (q.session 1).backends = some (Finmap.singleton [116] [115]) ∧
        ¬ Unchanged connected q 1 := by
  refine ⟨⟨_, .forUID (.json []) [117], rfl, rfl, fun h => ?_⟩,
    ⟨_, _, .call [], rfl, rfl, rfl, rfl, fun h => ?_⟩, _, .call [], rfl, rfl, fun h => ?_⟩
  · exact absurd h.uid (by decide +kernel)
  · exact absurd h.uid (by decide +kernel)
  · exact absurd h.backends (by decide +kernel)

end Pitaya.Pool
