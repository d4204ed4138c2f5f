import Pitaya.Session.Pool

/-!
# What the operations do to the sessions

The counterpart of what `Pool` says about the tables: the operations of a pool as updates of the
heap of sessions, one session at a time.
-/

namespace Pitaya

open Function Overlay

/-- An agent that has not been closed. -/
def Entity.IsOpen : Entity → Prop
  | .agent a => a.status ≠ .closed
  | .remote => False
  | .cluster => False

namespace Pool

open Session

variable {V : Type} (server : Server V)

/-! ## Kicking and closing -/

variable (p : Pool V) (id : ℕ) (reason : CloseReason) (replies : CloseReplies)

theorem onSessionClose_session :
    (p.onSessionClose server id reason replies).session = p.session := by
  unfold onSessionClose
  dsimp only
  repeat' split
  all_goals rfl

/-- Closing an entity changes nothing else in the session, and no other session. -/
theorem closeEntity_session : ∃ entity, ¬ entity.IsOpen ∧
    (p.closeEntity server id reason replies).1.session =
      Function.update p.session id { p.session id with entity := entity } := by
  unfold closeEntity
  split
  · next a _ =>
    refine ⟨.agent (a.close reason replies.conn).1, fun h => h (a.close_status _ _), ?_⟩
    dsimp only
    split
    · rfl
    · rw [onSessionClose_session]
      rfl
  · next hother =>
    refine ⟨(p.session id).entity, ?_, (update_eq_self id p.session).symm⟩
    cases hentity : (p.session id).entity with
    | agent a => exact absurd hentity (hother a)
    | remote | cluster => exact not_false

theorem kickEntity_session (write : Option Bytes) :
    ∃ entity, (entity.IsOpen → (p.session id).entity.IsOpen) ∧
      (p.kickEntity id reason write).1.session =
        Function.update p.session id { p.session id with entity := entity } := by
  have hsame : p.session =
      update p.session id { p.session id with entity := (p.session id).entity } :=
    (update_eq_self id p.session).symm
  unfold kickEntity
  split
  · next a hentity =>
    refine ⟨.agent (a.kick reason write).1, fun h => ?_, rfl⟩
    rw [hentity]
    exact fun hclosed => h ((a.kick_status reason write).trans hclosed)
  · split <;> exact ⟨_, fun h => h, hsame⟩
  · exact ⟨_, fun h => h, hsame⟩

/-- **Kicking** changes the entity and the online flag of the session, and no other session. -/
theorem kick_session (replies : KickReplies) :
    ∃ entity online, (entity.IsOpen → (p.session id).entity.IsOpen) ∧
      (p.kick server id reason replies).1.session =
        Function.update p.session id
          { p.session id with entity := entity, online := online } := by
  obtain ⟨entity, hopen, hfirst⟩ := p.kickEntity_session id reason replies.write
  unfold kick
  generalize p.kickEntity id reason replies.write = r at *
  obtain ⟨q, err⟩ := r
  cases err with
  | some => exact ⟨entity, (p.session id).online, hopen, hfirst⟩
  | none =>
    obtain ⟨entity', hclosed, hclose⟩ := closeEntity_session server
      (q.set id { q.session id with online := false }) id reason replies.close
    refine ⟨entity', false, fun h => absurd h hclosed, hclose.trans ?_⟩
    dsimp only at hfirst
    simp only [set, hfirst, update_self, update_idem]

theorem kick_session_of_ne {id old : ℕ} (hne : id ≠ old) (reason : CloseReason)
    (replies : KickReplies) : (p.kick server old reason replies).1.session id = p.session id := by
  obtain ⟨entity, online, -, hkick⟩ := p.kick_session server old reason replies
  rw [hkick, update_of_ne hne]

theorem kick_covers (old : ℕ) (reason : CloseReason) (replies : KickReplies) (id : ℕ) :
    Overlay.Covers {} (p.session id) ((p.kick server old reason replies).1.session id) := by
  by_cases hid : id = old
  · subst hid
    obtain ⟨entity, online, -, hkick⟩ := p.kick_session server id reason replies
    rw [hkick, update_self]
    exact ⟨rfl, rfl, rfl, rfl, rfl, rfl⟩
  · rw [p.kick_session_of_ne server hid]
    exact .refl _

theorem unregister_session :
    (p.unregister id).session =
      Function.update p.session id { p.session id with online := false } := by
  unfold unregister deleteUID
  dsimp only
  split <;> split <;> rfl

/-- Closing changes the entity and the online flag of the session, and no other session. -/
theorem close_session :
    ∃ entity, ¬ entity.IsOpen ∧ (p.close server id reason replies).session =
      Function.update p.session id { p.session id with online := false, entity := entity } := by
  obtain ⟨entity, hclosed, hsession⟩ :=
    (p.unregister id).closeEntity_session server id reason replies
  refine ⟨entity, hclosed, hsession.trans ?_⟩
  rw [unregister_session, update_self, update_idem]

theorem close_session_of_ne {id old : ℕ} (hne : id ≠ old) (reason : CloseReason)
    (replies : CloseReplies) : (p.close server old reason replies).session id = p.session id := by
  obtain ⟨entity, -, hsession⟩ := p.close_session server old reason replies
  rw [hsession, update_of_ne hne]

theorem close_sessionsByID :
    (p.close server id reason replies).sessionsByID = p.sessionsByID.erase id ∧
      (p.close server id reason replies).sid = p.sid := by
  have htables := (p.close_quiet_unregister server id reason replies).tables
  rw [htables.sessionsByID, htables.sid]
  unfold unregister deleteUID
  dsimp only
  split <;> split <;> exact ⟨rfl, rfl⟩

/-! ## Binding -/

/-- What `Bind` writes of the custom data it is given. -/
def customOverlay (custSessData : StringMap V) : Overlay V :=
  if custSessData.len > 0 then dataOverlay server.codec (some (custSessData.getD ∅)) else {}

/-- The error of encoding the custom data. -/
def customError (custSessData : StringMap V) : Option SessionError :=
  if custSessData.len > 0 then dataError server.codec (some (custSessData.getD ∅)) else none

theorem assignCustom_eq (s : Session V) (custSessData : StringMap V) :
    (if custSessData.len > 0 then s.setData server.codec custSessData else (s, none)) =
      ((customOverlay server custSessData).layOver s, customError server custSessData) := by
  unfold customOverlay customError
  split
  · exact s.setData_eq server.codec custSessData
  · rfl

variable (custData : Finmap fun _ : Bytes => V)

/-- What the bind callback of `Sys` writes after the kick: the record, and then the custom
data the session had before. -/
def sysOverlay (replies : SysReplies) : Overlay V :=
  match initialError server.codec replies.hgetall with
  | some _ => replyOverlay server.codec replies.hgetall
  | none =>
    (replyOverlay server.codec replies.hgetall).andThen
      (if custData.size > 0 then dataOverlay server.codec (some custData) else {})

/-- The error of the bind callback of `Sys` after the kick, of a session with a uid. -/
def sysError (replies : SysReplies) :
    Option SessionError :=
  (initialError server.codec replies.hgetall).or
    ((if custData.size > 0 then dataError server.codec (some custData) else none).or
      (replies.hmset.map .store))

theorem putBack_eq (s : Session V) (custData : Finmap fun _ : Bytes => V) :
    (if custData.size > 0 then s.setData server.codec (some custData) else (s, none)) =
      ((if custData.size > 0 then dataOverlay server.codec (some custData) else {}).layOver s,
        if custData.size > 0 then dataError server.codec (some custData) else none) := by
  split
  · exact s.setData_eq server.codec (some custData)
  · rfl

theorem flushFrontendData_session (hmset : Option Bytes) :
    (p.flushFrontendData id hmset).1.session = p.session := by
  unfold flushFrontendData
  dsimp only
  repeat' split
  all_goals rfl

theorem flushFrontendData_error {p : Pool V} {id : ℕ} (huid : (p.session id).uid ≠ [])
    (hmset : Option Bytes) : (p.flushFrontendData id hmset).2 = hmset.map .store := by
  unfold flushFrontendData
  rw [if_neg huid]
  cases hmset <;> rfl

/-- **The bind callback of `Sys` after the kick** lays an overlay over the session. -/
theorem sysBindData_session (replies : SysReplies) :
    (p.sysBindData server id replies).1.session =
      Function.update p.session id
        ((sysOverlay server (p.session id).getData replies).layOver (p.session id)) := by
  unfold sysBindData sysOverlay
  dsimp only
  rw [initialFromCluster_eq]
  cases initialError server.codec replies.hgetall with
  | some => rfl
  | none =>
    dsimp only
    rw [putBack_eq, layOver_andThen]
    cases (if (p.session id).getData.size > 0 then
      dataError server.codec (some (p.session id).getData) else none) with
    | some => rfl
    | none =>
      dsimp only
      generalize layOver _ (layOver _ _) = s'
      have hsession := (p.set id s').flushFrontendData_session id replies.hmset
      generalize (p.set id s').flushFrontendData id replies.hmset = r at *
      obtain ⟨q, err⟩ := r
      cases err <;> exact hsession

/-- Whether it fails does not depend on anything but the custom data of the session. -/
theorem sysBindData_error {p : Pool V} {id : ℕ} (huid : (p.session id).uid ≠ [])
    (replies : SysReplies) :
    (p.sysBindData server id replies).2 = sysError server (p.session id).getData replies := by
  unfold sysBindData sysError
  rw [initialFromCluster_eq]
  cases initialError server.codec replies.hgetall with
  | some => rfl
  | none =>
    dsimp only
    rw [putBack_eq]
    cases (if (p.session id).getData.size > 0 then
      dataError server.codec (some (p.session id).getData) else none) with
    | some => rfl
    | none =>
      dsimp only
      generalize hs : layOver _ (layOver _ _) = s'
      have huid' : ((p.set id s').session id).uid ≠ [] := by
        rw [set_session_self, ← hs]
        exact huid
      have herror := flushFrontendData_error huid' replies.hmset
      generalize (p.set id s').flushFrontendData id replies.hmset = r at *
      obtain ⟨q, err⟩ := r
      cases err <;> exact herror

/-- The call is refused before it does anything. -/
def Refuses (p : Pool V) (id : ℕ) (uid : Bytes) : Prop :=
  uid = [] ∨ ((p.session id).uid ≠ [] ∧ (p.session id).uid ≠ uid)

instance (p : Pool V) (id : ℕ) (uid : Bytes) : Decidable (p.Refuses id uid) :=
  inferInstanceAs (Decidable (_ ∨ _))

/-- The pool with the uid and the custom data assigned. -/
def assign (p : Pool V) (id : ℕ) (uid : Bytes) (custSessData : StringMap V) : Pool V :=
  p.set id ((customOverlay server custSessData).layOver ((p.session id).setUID uid))

theorem bindPrepare_refused {p : Pool V} {id : ℕ} {uid : Bytes} (h : p.Refuses id uid)
    (custSessData : StringMap V) (replies : BindReplies V) :
    ∃ e, p.bindPrepare server id uid custSessData replies = (p, some e) := by
  by_cases huid : uid = []
  · exact ⟨_, if_pos huid⟩
  · exact ⟨_, (if_neg huid).trans (if_pos (h.resolve_left huid))⟩

theorem bindPrepare_eq {p : Pool V} {id : ℕ} {uid : Bytes} (h : ¬ p.Refuses id uid)
    (custSessData : StringMap V) (replies : BindReplies V) :
    p.bindPrepare server id uid custSessData replies =
      match customError server custSessData with
      | some e => (p.assign server id uid custSessData, some (.forUID e uid))
      | none =>
        match (p.assign server id uid custSessData).runCallbacks server id
            replies.callbacks with
        | (q, some e) => (q.clearUID id, some e)
        | (q, none) => (q, none) := by
  obtain ⟨huid, hbound⟩ := not_or.mp h
  unfold bindPrepare assign
  dsimp only
  rw [if_neg huid, if_neg hbound, assignCustom_eq]
  cases customError server custSessData <;> rfl

/-- The pools that `Bind` can leave when the callbacks are through or have failed. -/
theorem bindPrepare_fst (uid : Bytes) (custSessData : StringMap V) (replies : BindReplies V) :
    (p.bindPrepare server id uid custSessData replies).1 = p ∨
      (p.bindPrepare server id uid custSessData replies).1 =
        p.assign server id uid custSessData ∨
      (p.bindPrepare server id uid custSessData replies).1 =
        ((p.assign server id uid custSessData).runCallbacks server id replies.callbacks).1 ∨
      (p.bindPrepare server id uid custSessData replies).1 =
        ((p.assign server id uid custSessData).runCallbacks server id
          replies.callbacks).1.clearUID id := by
  by_cases hrefused : p.Refuses id uid
  · obtain ⟨e, hprepare⟩ := bindPrepare_refused server hrefused custSessData replies
    exact Or.inl (by rw [hprepare])
  rw [bindPrepare_eq server hrefused]
  cases customError server custSessData with
  | some => exact Or.inr (Or.inl rfl)
  | none =>
    generalize (p.assign server id uid custSessData).runCallbacks server id replies.callbacks = r
    obtain ⟨q, err⟩ := r
    cases err with
    | some => exact Or.inr (Or.inr (Or.inr rfl))
    | none => exact Or.inr (Or.inr (Or.inl rfl))

theorem assign_covers (uid : Bytes) (custSessData : StringMap V) :
    (customOverlay server custSessData).Covers ((p.session id).setUID uid)
      ((p.assign server id uid custSessData).session id) := by
  rw [assign, set_session_self]
  exact covers_layOver _ _

theorem bindPrepare_passed {p q : Pool V} {id : ℕ} {uid : Bytes} {custSessData : StringMap V}
    {replies : BindReplies V} (h : p.bindPrepare server id uid custSessData replies = (q, none)) :
    ¬ p.Refuses id uid ∧ customError server custSessData = none ∧
      (p.assign server id uid custSessData).runCallbacks server id replies.callbacks =
        (q, none) := by
  have hrefused : ¬ p.Refuses id uid := by
    intro hrefused
    obtain ⟨e', hprepare⟩ := bindPrepare_refused server hrefused custSessData replies
    rw [hprepare] at h
    cases h
  rw [bindPrepare_eq server hrefused] at h
  cases hcustom : customError server custSessData with
  | some =>
    rw [hcustom] at h
    cases h
  | none =>
    rw [hcustom] at h
    generalize (p.assign server id uid custSessData).runCallbacks server id
      replies.callbacks = r at *
    obtain ⟨q', err⟩ := r
    cases err with
    | some => cases h
    | none =>
      obtain ⟨rfl, -⟩ := Prod.mk.inj h
      exact ⟨hrefused, rfl, rfl⟩

end Pool

end Pitaya
