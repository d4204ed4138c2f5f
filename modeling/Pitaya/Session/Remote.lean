import Pitaya.Session.Pool

/-!
# Sessions of other servers' connections

`agent/agent_remote.go` and `agent/agent_cluster.go`: a server that receives a request gets
the session of the user from its pool, or makes one from the session in the request; and it
can make one from the cluster store.
-/

namespace Pitaya

/-- `protos.Session`. -/
structure ProtoSession where
  id : ℤ := 0
  uid : Bytes := []
  data : Bytes := []
  backends : StringMap Bytes := none
  ip : Bytes := []
  deriving DecidableEq

namespace Pool

variable {V : Type} (server : Server V)

/-- `NewRemote`, for a request that carries `sess`.  On a frontend the session is left as it
is; elsewhere the fields of `sess` are read, which crashes if there is none.  Only a session
that is new takes over where it is bound. -/
def newRemote (p : Pool V) (sess : Option ProtoSession) (frontendID : Bytes) :
    Outcome Empty (Pool V × Except SessionError ℕ) :=
  let uid := (sess.map ProtoSession.uid).getD []
  let isNew := (p.getSessionByUID uid).isNone
  let (p, id) := p.newSession .remote false (some uid)
  if server.frontend then .ok (p, .ok id)
  else
    match sess with
    | none => .crash
    | some sess =>
      match ((p.session id).setIP sess.ip).setDataEncoded server.codec sess.data with
      | (s, some e) => .ok (p.set id s, .error e)
      | (s, none) =>
        if isNew then
          .ok (p.set id ((s.setFrontendData frontendID sess.id).setBackends sess.backends),
            .ok id)
        else .ok (p.set id s, .ok id)

/-- `NewCluster`, where the store answers `reply`. -/
def newCluster (p : Pool V) (uid : Bytes) (reply : Session.HgetallReply) :
    Pool V × Except SessionError ℕ :=
  let (p, id) := p.newSession .cluster false (some uid)
  match (p.session id).obtainFromCluster server.codec reply with
  | (s, some e) => (p.set id s, .error e)
  | (s, none) => (p.set id s, .ok id)

/-! ## What `NewSession` gives -/

/-- The session `NewSession` returns: the one cached under the uid, or a new one. -/
theorem newSession_cases (p : Pool V) (entity : Entity) (frontend : Bool) (uid : Option Bytes) :
    (∃ id, uid.bind p.getSessionByUID = some id ∧ p.newSession entity frontend uid = (p, id)) ∨
      (uid.bind p.getSessionByUID = none ∧
        (p.newSession entity frontend uid).2 = p.sid + 1 ∧
        (p.newSession entity frontend uid).1.sid = p.sid + 1 ∧
        (p.newSession entity frontend uid).1.session
          = Function.update p.session (p.sid + 1)
              (uid.elim { entity := entity, isFrontend := frontend }
                (Session.setUID { entity := entity, isFrontend := frontend })) ∧
        (p.newSession entity frontend uid).1.sessionsByUID = p.sessionsByUID) := by
  cases hlookup : uid.bind p.getSessionByUID with
  | some id =>
    refine .inl ⟨id, rfl, ?_⟩
    simp only [newSession, hlookup]
  | none =>
    refine .inr ⟨rfl, ?_⟩
    simp only [newSession, hlookup]
    cases uid <;> split <;> exact ⟨rfl, rfl, rfl, rfl⟩

/-- `NewRemote` enters nothing into the tables, and a new session takes the frontend of the
request. -/
theorem newRemote_ok {p p' : Pool V} {sess : ProtoSession} {frontendID : Bytes} {id : ℕ}
    (h : p.newRemote server (some sess) frontendID = .ok (p', .ok id)) :
    p'.sessionsByUID = p.sessionsByUID ∧
      (server.frontend = false → p.getSessionByUID sess.uid = none →
        (p'.session id).frontendID = frontendID) := by
  have hcache : (p.newSession .remote false (some sess.uid)).1.sessionsByUID = p.sessionsByUID := by
    obtain ⟨id, -, hnew⟩ | ⟨-, -, -, -, hcache⟩ :=
      p.newSession_cases .remote false (some sess.uid)
    · rw [hnew]
    · exact hcache
  unfold newRemote at h
  dsimp only [Option.map_some, Option.getD_some] at h
  split at h
  · next hfrontend =>
    cases h
    refine ⟨hcache, fun hbackend => ?_⟩
    cases hfrontend.symm.trans hbackend
  split at h
  · cases h
  split at h
  · cases h
    refine ⟨hcache, fun _ _ => ?_⟩
    rw [set_session_self]
    rfl
  · next hold =>
    cases h
    refine ⟨hcache, fun _ hnone => ?_⟩
    rw [hnone] at hold
    exact absurd rfl hold

end Pool

end Pitaya
