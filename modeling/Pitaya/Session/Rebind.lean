import Pitaya.Session.FailedBind
import Pitaya.Session.Remote

/-!
# Binding a uid that is taken

A frontend admits one session for a uid.  Before a session takes a uid that another session
has, the bind callback of `Sys` kicks the other one, and `Bind` closes it.

* `vacate` — the pool without the session that has the uid.
-/

namespace Pitaya.Pool

open Transition Session List Option Function CloseReason

variable {V : Type} (server : Server V)

/-! ## Kicking the old session -/

/-- A kick packet for a rebind can be encoded; what remains is the reply of the connection. -/
theorem kick_error_agent (a : Agent) (write : Option Bytes) :
    (a.kick CloseReason.kickRebind write).2 = write.map .conn := by
  cases write <;> rfl

theorem close_error_agent (a : Agent) (reason : CloseReason) (conn : Option Bytes) :
    (a.close reason conn).2 = none ↔ a.status ≠ .closed ∧ conn = none := by
  unfold Agent.close
  split
  · next h => simp [h]
  · next h => simp [h]

variable {p : Pool V} {id : ℕ}

theorem closeEntity_error {a : Agent} (ha : (p.session id).entity = .agent a) (reason : CloseReason)
    (replies : CloseReplies) : (p.closeEntity server id reason replies).2 = none ↔
      a.status ≠ .closed ∧ replies.conn = none := by
  rw [← close_error_agent a reason]
  unfold closeEntity
  rw [ha]
  exact map_eq_none_iff

theorem kickEntity_agent {a : Agent} (ha : (p.session id).entity = .agent a) (reason : CloseReason)
    (write : Option Bytes) : p.kickEntity id reason write =
      (p.set id { p.session id with entity := .agent (a.kick reason write).1 },
        (a.kick reason write).2.map .agent) := by
  unfold kickEntity
  rw [ha]

/-- **When a session is kicked without an error.** -/
theorem kick_error_iff {a : Agent} (ha : (p.session id).entity = .agent a) (replies : KickReplies) :
    (p.kick server id CloseReason.kickRebind replies).2 = none ↔
      replies.write = none ∧ a.status ≠ .closed ∧ replies.close.conn = none := by
  unfold kick
  rw [kickEntity_agent ha, kick_error_agent]
  cases hwrite : replies.write with
  | some => simp
  | none =>
    rw [map_none, map_none]
    rw [closeEntity_error server (a := (a.kick kickRebind none).1)
      (by simp only [set_session_self]), Agent.kick_status]
    simp

/-! ## A new login -/

/-- The error of the bind callback of `Sys` on a frontend: that of the kick, or that of the
rest, which is the same with and without an old session. -/
theorem sysOnSessionBind_error (hfrontend : server.frontend = true) (huid : (p.session id).uid ≠ [])
    (replies : SysReplies) : (p.sysOnSessionBind server id replies).2 =
      match p.getSessionByUID (p.session id).uid with
      | none => sysError server (p.session id).getData replies
      | some old =>
        (p.kick server old CloseReason.kickRebind replies.kick).2.or
          (sysError server (p.session id).getData replies) := by
  unfold sysOnSessionBind
  rw [if_neg (by simp [hfrontend])]
  cases p.getSessionByUID (p.session id).uid with
  | none => exact sysBindData_error server huid replies
  | some old =>
    have hkick := p.kick_covers server old kickRebind replies.kick id
    dsimp only
    generalize p.kick server old kickRebind replies.kick = r at *
    obtain ⟨q, err⟩ := r
    cases err with
    | some => rfl
    | none =>
      have hdata : (q.session id).getData = (p.session id).getData := by
        rw [getData, hkick.data]
        rfl
      have huid' : (q.session id).uid ≠ [] := by rwa [hkick.uid]
      exact (sysBindData_error server huid' replies).trans (by rw [hdata]; rfl)

/-- What it leaves in a session that does not have the uid itself. -/
theorem sysOnSessionBind_session (hfrontend : server.frontend = true)
    (hholder : p.getSessionByUID (p.session id).uid ≠ some id) (replies : SysReplies)
    (hnil : (p.sysOnSessionBind server id replies).2 = none) :
    (p.sysOnSessionBind server id replies).1.session id =
      (sysOverlay server (p.session id).getData replies).layOver (p.session id) := by
  unfold sysOnSessionBind at hnil ⊢
  rw [if_neg (by simp [hfrontend])] at hnil ⊢
  cases hold : p.getSessionByUID (p.session id).uid with
  | none =>
    dsimp only
    rw [sysBindData_session, update_self]
  | some old =>
    have hne : id ≠ old := fun heq => hholder (heq ▸ hold)
    have hkick := p.kick_session_of_ne server hne kickRebind replies.kick
    rw [hold] at hnil
    dsimp only at hnil ⊢
    generalize p.kick server old kickRebind replies.kick = r at *
    obtain ⟨q, err⟩ := r
    cases err with
    | some => cases hnil
    | none =>
      dsimp only at hkick ⊢
      rw [sysBindData_session, update_self, hkick]

/-- The callback of `Sys` is registered once. -/
def SysOnce (callbacks : List (BindCallback V)) (replies : SysReplies) : Prop :=
  ∃ before after, callbacks = before ++ .sys replies :: after ∧
    ∀ callback ∈ before ++ after, ∃ act, callback = .other act

theorem runCallbacks_append (p : Pool V) (id : ℕ) (callbacks rest : List (BindCallback V)) :
    p.runCallbacks server id (callbacks ++ rest) =
      match p.runCallbacks server id callbacks with
      | (q, some e) => (q, some e)
      | (q, none) => q.runCallbacks server id rest := by
  induction callbacks generalizing p with
  | nil => rfl
  | cons callback callbacks ih =>
    rw [cons_append, runCallbacks, runCallbacks]
    generalize p.runCallback server id callback = r
    obtain ⟨q, err⟩ := r
    cases err with
    | some => rfl
    | none => exact ih q

/-- **The other callbacks** work on their session alone: what they leave in it, and whether one
of them fails, is the same in every pool. -/
theorem runCallbacks_others (id : ℕ) {callbacks : List (BindCallback V)}
    (hother : ∀ callback ∈ callbacks, ∃ act, callback = .other act) (s : Session V) :
    ∃ s' err, s'.uid = s.uid ∧ ∀ p : Pool V, p.session id = s →
      p.runCallbacks server id callbacks = (p.set id s', err) := by
  induction callbacks generalizing s with
  | nil =>
    refine ⟨s, none, rfl, fun p hp => ?_⟩
    rw [← hp, set, update_eq_self]
    rfl
  | cons callback callbacks ih =>
    rw [forall_mem_cons] at hother
    obtain ⟨⟨act, rfl⟩, hothers⟩ := hother
    cases herr : (act s).2 with
    | some e =>
      refine ⟨(act s).1.layOver s, some (.call e), rfl, fun p hp => ?_⟩
      simp only [runCallbacks, runCallback, hp, herr, map_some]
    | none =>
      obtain ⟨s', err, huid, hrest⟩ := ih hothers ((act s).1.layOver s)
      refine ⟨s', err, huid, fun p hp => ?_⟩
      simp only [runCallbacks, runCallback, hp, herr, map_none]
      rw [hrest _ (p.set_session_self id _)]
      simp only [set, update_idem]

/-- Behind the callback of `Sys` the others find the same session in every pool. -/
theorem runCallbacks_sys (hfrontend : server.frontend = true) (id : ℕ)
    {after : List (BindCallback V)} (hother : ∀ callback ∈ after, ∃ act, callback = .other act)
    (replies : SysReplies) (s : Session V) :
    ∃ err, ∀ p : Pool V, p.session id = s → p.getSessionByUID s.uid ≠ some id →
      (p.runCallbacks server id (.sys replies :: after)).2 =
        (p.sysOnSessionBind server id replies).2.or err := by
  obtain ⟨s', err, -, hafter⟩ := runCallbacks_others server id hother
    ((sysOverlay server s.getData replies).layOver s)
  refine ⟨err, fun p hp hholder => ?_⟩
  have hsession := sysOnSessionBind_session server hfrontend (hp ▸ hholder) replies
  rw [runCallbacks, runCallback]
  generalize p.sysOnSessionBind server id replies = r at *
  obtain ⟨q, err'⟩ := r
  cases err' with
  | some => rfl
  | none =>
    dsimp only
    rw [hafter q ((hsession rfl).trans (by rw [hp]))]
    rfl

/-- **With and without an old session**: where the callbacks go through in a pool in which nobody
has the uid, they go through in the other one if and only if the kick does. -/
theorem runCallbacks_error_iff (hfrontend : server.frontend = true) {p q : Pool V} {id old : ℕ}
    {a : Agent} (hsame : q.session id = p.session id) (huid : (p.session id).uid ≠ [])
    (hvacant : q.getSessionByUID (p.session id).uid = none)
    (hold : p.getSessionByUID (p.session id).uid = some old) (hnew : id ≠ old)
    (hagent : (p.session old).entity = .agent a) {callbacks : List (BindCallback V)}
    {replies : SysReplies} (hsys : SysOnce callbacks replies)
    (hserved : (q.runCallbacks server id callbacks).2 = none) :
    (p.runCallbacks server id callbacks).2 = none ↔ replies.kick.write = none ∧
      a.status ≠ .closed ∧ replies.kick.close.conn = none := by
  obtain ⟨before, after, rfl, hother⟩ := hsys
  rw [forall_mem_append] at hother
  obtain ⟨s, err, hs, hbefore⟩ := runCallbacks_others server id hother.1 (p.session id)
  obtain ⟨err', hafter⟩ := runCallbacks_sys server hfrontend id hother.2 replies s
  rw [runCallbacks_append, hbefore q hsame] at hserved
  rw [runCallbacks_append, hbefore p rfl]
  cases err with
  | some => cases hserved
  | none =>
    have hp : (p.set id s).getSessionByUID s.uid = some old := hs ▸ hold
    have hq : (q.set id s).getSessionByUID s.uid = none := hs ▸ hvacant
    have hentity : ((p.set id s).session old).entity = .agent a := by
      rw [set_session_of_ne p hnew.symm, hagent]
    have huid' (r : Pool V) : ((r.set id s).session id).uid ≠ [] := by rwa [set_session_self, hs]
    have herror (r : Pool V) := sysOnSessionBind_error server hfrontend (huid' r) replies
    simp only [set_session_self] at herror
    dsimp only at hserved ⊢
    rw [hafter _ (q.set_session_self id s) (by simp [hq]), herror, hq, or_eq_none_iff] at hserved
    rw [hafter _ (p.set_session_self id s) (by simpa [hp] using hnew.symm), herror, hp,
      or_eq_none_iff, or_eq_none_iff, kick_error_iff server hentity]
    exact ⟨fun h => h.1.1, fun h => ⟨⟨h, hserved.1⟩, hserved.2⟩⟩

variable {uid : Bytes}

theorem bind_error_iff (hfront : (p.session id).isFrontend = true) (uid : Bytes)
    (custSessData : StringMap V) (replies : BindReplies V) :
    (p.bind server id uid custSessData replies).2 = none ↔
      ¬ p.Refuses id uid ∧ customError server custSessData = none ∧
        ((p.assign server id uid custSessData).runCallbacks server id
          replies.callbacks).2 = none := by
  constructor
  · intro hnil
    cases hprepare : p.bindPrepare server id uid custSessData replies with
    | mk q err =>
    cases err with
    | some =>
      rw [bind, hprepare] at hnil
      cases hnil
    | none =>
      obtain ⟨hrefused, hcustom, hcalls⟩ := bindPrepare_passed server hprepare
      exact ⟨hrefused, hcustom, by rw [hcalls]⟩
  · rintro ⟨hrefused, hcustom, hcalls⟩
    have hregisters : p.Registers server id uid custSessData replies := by
      refine ⟨hfront, ?_⟩
      rw [bindPrepare_eq server hrefused, hcustom]
      generalize (p.assign server id uid custSessData).runCallbacks server id
        replies.callbacks = r at *
      obtain ⟨q, err⟩ := r
      subst hcalls
      rfl
    rcases p.bind_cases server id uid custSessData replies with
      ⟨hnot, -⟩ | ⟨-, q, -, -, -, hbind⟩
    · exact absurd hregisters hnot
    · rw [hbind]

/-- A call on a frontend session that returns nil gives the session the uid. -/
theorem bind_registers (hfront : (p.session id).isFrontend = true) {custSessData : StringMap V}
    {replies : BindReplies V} (hnil : (p.bind server id uid custSessData replies).2 = none) :
    ∃ q, p.bindPrepare server id uid custSessData replies = (q, none) ∧
      (p.bind server id uid custSessData replies).1 = q.register server id uid replies.close := by
  have hquiet := (p.bindPrepare_spec server id uid custSessData replies).1
  unfold bind at hnil ⊢
  cases hprepare : p.bindPrepare server id uid custSessData replies with
  | mk q err =>
  rw [hprepare] at hnil hquiet
  cases err with
  | some => cases hnil
  | none =>
    refine ⟨q, rfl, ?_⟩
    dsimp only
    rw [if_pos ((hquiet.isFrontend id).trans hfront)]

theorem register_getSessionByUID (p : Pool V) (id : ℕ) (uid : Bytes) (replies : CloseReplies) :
    (p.register server id uid replies).getSessionByUID uid = some id :=
  Finmap.lookup_insert _

/-- The pool as if nobody had the uid. -/
def vacate (p : Pool V) (uid : Bytes) : Pool V :=
  { p with sessionsByUID := p.sessionsByUID.erase uid }

/-- **A new login goes through if and only if the old session can be kicked**, where nothing
else stands in its way: the same call would return nil if nobody had the uid. -/
theorem login_iff_kickable (hfrontend : server.frontend = true) (p : Pool V) (old id : ℕ)
    (a : Agent) (uid : Bytes) (custSessData : StringMap V) (replies : BindReplies V)
    (sys : SysReplies) (hsys : SysOnce replies.callbacks sys)
    (hfront : (p.session id).isFrontend = true) (hold : p.getSessionByUID uid = some old)
    (hnew : id ≠ old) (hagent : (p.session old).entity = .agent a)
    (hserved : ((p.vacate uid).bind server id uid custSessData replies).2 = none) :
    ((p.bind server id uid custSessData replies).2 = none ∧
      (p.bind server id uid custSessData replies).1.getSessionByUID uid = some id) ↔
    sys.kick.write = none ∧ a.status ≠ .closed ∧ sys.kick.close.conn = none := by
  obtain ⟨hrefused, hcustom, hcalls⟩ :=
    (bind_error_iff server (p := p.vacate uid) hfront uid custSessData replies).mp hserved
  have huid : ((p.assign server id uid custSessData).session id).uid = uid :=
    (p.assign_covers server id uid custSessData).uid
  have hsame : ((p.vacate uid).assign server id uid custSessData).session id =
      (p.assign server id uid custSessData).session id := by
    simp only [assign, set_session_self, vacate]
  have hvacant : ((p.vacate uid).assign server id uid custSessData).getSessionByUID uid = none :=
    Finmap.lookup_erase _ _
  have hentity : ((p.assign server id uid custSessData).session old).entity = .agent a := by
    rw [assign, set_session_of_ne p hnew.symm, hagent]
  rw [← runCallbacks_error_iff server hfrontend hsame (by rw [huid]; exact (not_or.mp hrefused).1)
    (by rwa [huid]) (by rwa [huid]) hnew hentity hsys hcalls]
  constructor
  · rintro ⟨hnil, -⟩
    exact ((bind_error_iff server hfront uid custSessData replies).mp hnil).2.2
  · intro hpassed
    have hnil := (bind_error_iff server hfront uid custSessData replies).mpr
      ⟨hrefused, hcustom, hpassed⟩
    obtain ⟨q, -, hbind⟩ := bind_registers server hfront hnil
    refine ⟨hnil, ?_⟩
    rw [hbind]
    exact q.register_getSessionByUID server id uid replies.close

/-- Two connections, and the user logs in on the first. -/
def firstLogin : List (Op Unit) :=
  [.newSession (.agent {}) true none, .newSession (.agent {}) true none, .bind 1 [117] none {}]

/-- The user logs in on the second connection while the first one is open. -/
theorem login_iff_kickable_open : ∃ p, (frontendPool plainServer).run firstLogin = some p ∧
    (p.bind plainServer 2 [117] none {}).2 = none ∧
    (p.bind plainServer 2 [117] none {}).1.getSessionByUID [117] = some 2 := by
  refine ⟨_, rfl, ?_⟩
  exact (login_iff_kickable plainServer rfl _ 1 2 {} [117] none {} {}
    ⟨[], [], rfl, fun _ h => by cases h⟩ rfl rfl (by decide) rfl rfl).mpr
    ⟨rfl, by decide, rfl⟩

/-- The agent of the first connection is closed already, or its connection is broken: the
login on the second one fails. -/
theorem login_blocked :
    (∃ p, (frontendPool plainServer).run (firstLogin ++ [.kick 1 CloseReason.kickManual {}]) =
        some p ∧ ((p.vacate [117]).bind plainServer 2 [117] none {}).2 = none ∧
      (p.bind plainServer 2 [117] none {}).2 = some (.agent .closeClosedSession) ∧
      (p.bind plainServer 2 [117] none {}).1.getSessionByUID [117] = some 1) ∧
    ∃ p, (frontendPool plainServer).run firstLogin = some p ∧
      (p.bind plainServer 2 [117] none
        { callbacks := [.sys { kick := { write := some [] } }] }).2 = some (.agent (.conn [])) :=
  ⟨⟨_, rfl, rfl, rfl, rfl⟩, _, rfl, rfl⟩

/-! ## Sessions that are open -/

/-- A session of a frontend whose agent is open. -/
def OpenAt (p : Pool V) (id : ℕ) : Prop :=
  (p.session id).isFrontend = true ∧ (p.session id).entity.IsOpen

/-- An operation that creates no session: it opens nothing, and an open session stays under
its id. -/
structure Shuts (p q : Pool V) : Prop where
  sid : q.sid = p.sid
  openAt : ∀ id, q.OpenAt id → p.OpenAt id
  sessionsByID : ∀ id ∈ p.sessionsByID, q.OpenAt id → id ∈ q.sessionsByID

namespace Shuts

variable {p q r : Pool V}

theorem refl (p : Pool V) : Shuts p p := ⟨rfl, fun _ h => h, fun _ h _ => h⟩

theorem trans (h : Shuts p q) (h' : Shuts q r) : Shuts p r where
  sid := h'.sid.trans h.sid
  openAt id hopen := h.openAt id (h'.openAt id hopen)
  sessionsByID id hid hopen :=
    h'.sessionsByID id (h.sessionsByID id hid (h'.openAt id hopen)) hopen

theorem of_update {s : Session V} (htables : SameTables p q)
    (hsession : q.session = Function.update p.session id s)
    (hopen : s.isFrontend = true → s.entity.IsOpen → p.OpenAt id) : Shuts p q where
  sid := htables.sid
  openAt id' h := by
    unfold OpenAt at h
    rw [hsession] at h
    by_cases hid : id' = id
    · subst hid
      rw [update_self] at h
      exact hopen h.1 h.2
    · rwa [update_of_ne hid] at h
  sessionsByID id' hid _ := by rwa [htables.sessionsByID]

theorem set {s : Session V} (hfront : s.isFrontend = (p.session id).isFrontend)
    (hentity : s.entity = (p.session id).entity) : Shuts p (p.set id s) :=
  of_update ⟨rfl, rfl, rfl, rfl, rfl⟩ rfl fun h h' => ⟨hfront ▸ h, hentity ▸ h'⟩

theorem kick (p : Pool V) (id : ℕ) (reason : CloseReason) (replies : KickReplies) :
    Shuts p (p.kick server id reason replies).1 := by
  obtain ⟨entity, online, hopen, hsession⟩ := p.kick_session server id reason replies
  exact of_update (p.kick_quiet server id reason replies).tables hsession
    fun hfront h => ⟨hfront, hopen h⟩

theorem sysBindData (p : Pool V) (id : ℕ) (replies : SysReplies) :
    Shuts p (p.sysBindData server id replies).1 :=
  of_update (p.sysBindData_quiet server id replies).tables
    (p.sysBindData_session server id replies) fun hfront h => ⟨hfront, h⟩

theorem runCallbacks (p : Pool V) (id : ℕ) (callbacks : List (BindCallback V)) :
    Shuts p (p.runCallbacks server id callbacks).1 :=
  have hshuts : KeptByCallbacks server id Shuts :=
    { refl := .refl
      trans := .trans
      kick := fun p old replies _ => kick server p old kickRebind replies
      bindData := fun p replies => sysBindData server p id replies
      write := fun _ _ => set rfl rfl }
  hshuts.runCallbacks p callbacks

theorem clearUID (p : Pool V) (id : ℕ) : Shuts p (p.clearUID id) := set rfl rfl

theorem bindPrepare (p : Pool V) (id : ℕ) (uid : Bytes) (custSessData : StringMap V)
    (replies : BindReplies V) : Shuts p (p.bindPrepare server id uid custSessData replies).1 := by
  have hassign : Shuts p (p.assign server id uid custSessData) := set rfl rfl
  have hcalls := hassign.trans (runCallbacks server _ id replies.callbacks)
  rcases p.bindPrepare_fst server id uid custSessData replies with heq | heq | heq | heq
  · rw [heq]
    exact .refl p
  · rwa [heq]
  · rwa [heq]
  · rw [heq]
    exact hcalls.trans (clearUID _ id)

theorem close (p : Pool V) (id : ℕ) (reason : CloseReason) (replies : CloseReplies) :
    Shuts p (p.close server id reason replies) := by
  obtain ⟨entity, hclosed, hsession⟩ := p.close_session server id reason replies
  obtain ⟨hbyID, hsid⟩ := p.close_sessionsByID server id reason replies
  have hopen : ∀ id', (p.close server id reason replies).OpenAt id' → id' ≠ id ∧ p.OpenAt id' := by
    intro id' h
    unfold OpenAt at h
    rw [hsession] at h
    by_cases hid : id' = id
    · subst hid
      rw [update_self] at h
      exact absurd h.2 hclosed
    · rw [update_of_ne hid] at h
      exact ⟨hid, h⟩
  refine ⟨hsid, fun id' h => (hopen id' h).2, fun id' hid h => ?_⟩
  rw [hbyID]
  exact Finset.mem_erase.mpr ⟨(hopen id' h).1, hid⟩

theorem register (p : Pool V) (id : ℕ) (uid : Bytes) (replies : CloseReplies) :
    Shuts p (p.register server id uid replies) := by
  unfold Pool.register
  cases p.sessionsByUID.lookup uid with
  | none => exact ⟨rfl, fun _ h => h, fun _ h _ => h⟩
  | some old =>
    have hclose := close server p old kickRebind replies
    exact ⟨hclose.sid, hclose.openAt, hclose.sessionsByID⟩

/-- A session of another server's connection has no agent that could be open. -/
theorem bindElsewhere (hside : ¬ (p.session id).isFrontend = true) (replies : BindReplies V) :
    Shuts p (p.bindElsewhere server id replies).1 := by
  unfold Pool.bindElsewhere
  split
  · exact clearUID p id
  · have hfront :=
      ((p.session id).obtainFromCluster_identity server.codec replies.hgetall).isFrontend
    exact of_update ⟨rfl, rfl, rfl, rfl, rfl⟩ rfl fun h _ => absurd (hfront ▸ h) hside

theorem bind (p : Pool V) (id : ℕ) (uid : Bytes) (custSessData : StringMap V)
    (replies : BindReplies V) : Shuts p (p.bind server id uid custSessData replies).1 := by
  have hprepare := bindPrepare server p id uid custSessData replies
  unfold Pool.bind
  split
  · next heq => rwa [heq] at hprepare
  · next heq =>
    rw [heq] at hprepare
    split
    · exact hprepare.trans (register server _ id uid replies.close)
    · next hside => exact hprepare.trans (bindElsewhere server hside replies)

theorem apply (p : Pool V) {op : Op V} (hop : op.onFrontend = true)
    (hnew : ∀ entity frontend uid, op ≠ .newSession entity frontend uid) :
    Shuts p (p.apply server op) := by
  cases op with
  | newSession entity frontend uid => exact absurd rfl (hnew entity frontend uid)
  | bind id uid custSessData replies => exact bind server p id uid custSessData replies
  | kick id reason replies => exact kick server p id reason replies
  | close id reason replies => exact close server p id reason replies
  | closeAllVisit id replies =>
    rw [Pool.apply, closeAllVisit]
    split
    · exact .refl p
    · exact close server p id normal replies
  | setRequestInFlight => exact set rfl rfl
  | storeSessionLocal => cases hop
  | removeSessionLocal => cases hop

end Shuts

/-- **The invariant**: an open session of the frontend is found under its id. -/
def Enlisted (p : Pool V) : Prop := ∀ id, p.Created id → p.OpenAt id → id ∈ p.sessionsByID

theorem Enlisted.of_shuts {q : Pool V} (h : p.Enlisted) (hshuts : Shuts p q) : q.Enlisted := by
  intro id hcreated hopen
  have hcreated' : p.Created id := by rwa [Created, ← hshuts.sid]
  exact hshuts.sessionsByID id (h id hcreated' (hshuts.openAt id hopen)) hopen

theorem newSession_sessionsByID {uid : Option Bytes} (hnew : uid.bind p.getSessionByUID = none)
    (entity : Entity) (frontend : Bool) : (p.newSession entity frontend uid).1.sessionsByID =
      if frontend then insert (p.sid + 1) p.sessionsByID else p.sessionsByID := by
  simp only [newSession, hnew]
  split <;> rfl

theorem Enlisted.newSession (h : p.Enlisted) (entity : Entity) (frontend : Bool)
    (uid : Option Bytes) : (p.newSession entity frontend uid).1.Enlisted := by
  rcases p.newSession_cases entity frontend uid with
    ⟨id, -, hsame⟩ | ⟨hnew, -, hsid, hsession, -⟩
  · rw [hsame]
    exact h
  intro id hcreated hopen
  unfold Created at hcreated
  unfold OpenAt at hopen
  rw [hsession] at hopen
  rw [newSession_sessionsByID hnew]
  by_cases hid : id = p.sid + 1
  · subst hid
    rw [update_self] at hopen
    have hfront : frontend = true := by cases uid <;> exact hopen.1
    rw [if_pos hfront]
    exact Finset.mem_insert_self _ _
  · rw [update_of_ne hid] at hopen
    have hkept := h id ⟨hcreated.1, by omega⟩ hopen
    split
    · exact Finset.mem_insert_of_mem hkept
    · exact hkept

/-- **Run lemma**: the open sessions of a frontend are found under their ids. -/
theorem enlisted_of_run {ops : List (Op V)} (hrun : (frontendPool server).run ops = some p) :
    p.Enlisted := by
  apply System.run_induction ?_ ?_ hrun
  · intro id hcreated
    have hnone : (frontendPool server).start.sid = 0 := rfl
    unfold Created at hcreated
    omega
  · intro ops op p p' _ henlisted hstep
    obtain ⟨hop, rfl⟩ := frontendPool_step server hstep
    cases op with
    | newSession entity frontend uid => exact henlisted.newSession entity frontend uid
    | _ => exact henlisted.of_shuts (Shuts.apply server p hop fun _ _ _ h => by cases h)

/-! ## Binding again -/

/-- Through the callbacks a session keeps its entity, unless it has the uid itself. -/
theorem runCallbacks_entity (hholder : p.getSessionByUID (p.session id).uid ≠ some id)
    (callbacks : List (BindCallback V)) :
    ((p.runCallbacks server id callbacks).1.session id).entity = (p.session id).entity := by
  have hquiet {p q : Pool V} (h : Quiet none p q) :
      q.getSessionByUID (q.session id).uid = p.getSessionByUID (p.session id).uid := by
    rw [getSessionByUID, h.tables.sessionsByUID, h.uid id (some_ne_none id)]
    rfl
  have hkept : KeptByCallbacks server id fun p q =>
      p.getSessionByUID (p.session id).uid ≠ some id →
        q.getSessionByUID (q.session id).uid ≠ some id ∧
          (q.session id).entity = (p.session id).entity :=
    { refl := fun _ hp => ⟨hp, rfl⟩
      trans := fun hpq hqr hp =>
        ⟨(hqr (hpq hp).1).1, (hqr (hpq hp).1).2.trans (hpq hp).2⟩
      kick := fun p old replies hold hp => by
        have hne : id ≠ old := fun heq => hp (heq ▸ hold)
        rw [hquiet (p.kick_quiet server old _ replies), p.kick_session_of_ne server hne]
        exact ⟨hp, rfl⟩
      bindData := fun p replies hp => by
        rw [hquiet (p.sysBindData_quiet server id replies), sysBindData_session,
          update_self]
        exact ⟨hp, rfl⟩
      write := fun p written hp => by
        have hwrite : Quiet none p (p.set id (written.layOver (p.session id))) :=
          set_quiet p ⟨rfl, rfl⟩
        rw [hquiet hwrite, set_session_self]
        exact ⟨hp, rfl⟩ }
  exact (hkept.runCallbacks p callbacks hholder).2

/-- **The property** of a call of `Bind` that returns nil: the session is found under its uid
and under its id, and its agent is open. -/
structure Live (q : Pool V) (id : ℕ) (uid : Bytes) : Prop where
  byUID : q.getSessionByUID uid = some id
  byID : q.getSessionByID id = some id
  isOpen : (q.session id).entity.IsOpen

/-- Taking a uid from another session leaves the session that takes it alone. -/
theorem register_of_ne (h : p.getSessionByUID uid ≠ some id) (replies : CloseReplies) :
    (p.register server id uid replies).session id = p.session id ∧
      (id ∈ p.sessionsByID → id ∈ (p.register server id uid replies).sessionsByID) := by
  unfold register
  cases hlookup : p.sessionsByUID.lookup uid with
  | none => exact ⟨rfl, fun hid => hid⟩
  | some old =>
    have hne : id ≠ old := fun heq => h (heq ▸ hlookup)
    refine ⟨p.close_session_of_ne server hne _ _, fun hid => ?_⟩
    rw [(p.close_sessionsByID server old kickRebind replies).1]
    exact Finset.mem_erase.mpr ⟨hne, hid⟩

theorem register_of_holder (h : p.getSessionByUID uid = some id) (replies : CloseReplies) :
    id ∉ (p.register server id uid replies).sessionsByID ∧
      (p.register server id uid replies).sessionCount = p.sessionCount - 1 := by
  unfold register
  unfold getSessionByUID at h
  rw [h]
  dsimp only
  rw [(p.close_sessionsByID server id kickRebind replies).1,
    (p.close_quiet_unregister server id kickRebind replies).tables.sessionCount]
  refine ⟨Finset.notMem_erase _ _, ?_⟩
  unfold unregister deleteUID
  dsimp only
  split <;> split <;> rfl

theorem register_covers (p : Pool V) (id : ℕ) (uid : Bytes) (replies : CloseReplies) :
    Overlay.Covers {} (p.session id) ((p.register server id uid replies).session id) := by
  unfold register
  cases p.sessionsByUID.lookup uid with
  | none => exact .refl _
  | some old =>
    obtain ⟨entity, -, hsession⟩ := p.close_session server old kickRebind replies
    dsimp only
    rw [hsession]
    by_cases hid : id = old
    · rw [hid, update_self]
      exact ⟨rfl, rfl, rfl, rfl, rfl, rfl⟩
    · rw [update_of_ne hid]
      exact .refl _

/-- Up to the callbacks, a session keeps its entity, unless it has the uid itself. -/
theorem bindPrepare_entity {q : Pool V} {custSessData : StringMap V} {replies : BindReplies V}
    (hholder : p.getSessionByUID uid ≠ some id)
    (h : p.bindPrepare server id uid custSessData replies = (q, none)) :
    (q.session id).entity = (p.session id).entity := by
  obtain ⟨-, -, hcalls⟩ := bindPrepare_passed server h
  have huid : ((p.assign server id uid custSessData).session id).uid = uid :=
    (p.assign_covers server id uid custSessData).uid
  have hother : (p.assign server id uid custSessData).getSessionByUID
      ((p.assign server id uid custSessData).session id).uid ≠ some id := by
    rw [huid]
    exact hholder
  have hentity := runCallbacks_entity server hother replies.callbacks
  rw [hcalls] at hentity
  rw [hentity, assign, set_session_self]
  rfl

/-- **A call for the session that has the uid** keeps the tables if and only if it fails: where it
returns nil, it closes the session. -/
theorem again_iff (hfront : (p.session id).isFrontend = true) (hne : uid ≠ [])
    (huid : (p.session id).uid = uid) (hholder : p.getSessionByUID uid = some id)
    (custSessData : StringMap V) (replies : BindReplies V) :
    SameTables p (p.bind server id uid custSessData replies).1 ↔
      customError server custSessData ≠ none ∨
        ((p.assign server id uid custSessData).runCallbacks server id
          replies.callbacks).2 ≠ none := by
  have hrefused : ¬ p.Refuses id uid := not_or.mpr ⟨hne, fun h => h.2 huid⟩
  have hnil := bind_error_iff server hfront uid custSessData replies
  rw [and_iff_right hrefused] at hnil
  rw [← not_and_or, ← hnil]
  constructor
  · intro hsame hpassed
    obtain ⟨q, hprepare, hbind⟩ := bind_registers server hfront hpassed
    have hquiet := (p.bindPrepare_spec server id uid custSessData replies).1
    rw [hprepare] at hquiet
    have hholder' : q.getSessionByUID uid = some id := by
      rwa [getSessionByUID, hquiet.tables.sessionsByUID]
    have hcount := hsame.sessionCount
    rw [hbind, (register_of_holder server hholder' _).2, hquiet.tables.sessionCount] at hcount
    omega
  · intro hfailed
    obtain ⟨e, he⟩ := ne_none_iff_exists'.mp hfailed
    exact bind_failed_tables server (Prod.ext rfl he)

/-- **A call of `Bind` that returns nil leaves its session live if and only if the session did
not have the uid.  A second call keeps the maps and counters if and only if it fails**: its custom
data cannot be encoded, or one of the bind callbacks fails. -/
theorem live_iff_not_holder {ops : List (Op V)} {p q : Pool V}
    (hrun : (frontendPool server).run ops = some p) (id : ℕ) (uid : Bytes)
    (custSessData : StringMap V) (replies : BindReplies V) (hcreated : p.Created id)
    (hopen : p.OpenAt id) (hbind : p.bind server id uid custSessData replies = (q, none)) :
    (Live q id uid ↔ p.getSessionByUID uid ≠ some id) ∧
      ∀ custSessData' replies',
        SameTables q (q.bind server id uid custSessData' replies').1 ↔
          customError server custSessData' ≠ none ∨
            ((q.assign server id uid custSessData').runCallbacks server id
              replies'.callbacks).2 ≠ none := by
  have hnil : (p.bind server id uid custSessData replies).2 = none := by rw [hbind]
  obtain ⟨r, hprepare, hregister⟩ := bind_registers server hopen.1 hnil
  obtain ⟨hquiet, huid⟩ := p.bindPrepare_spec server id uid custSessData replies
  rw [hprepare] at hquiet huid
  rw [hbind] at hregister
  dsimp only at hregister
  have hlookup : r.getSessionByUID uid = p.getSessionByUID uid := by
    rw [getSessionByUID, hquiet.tables.sessionsByUID]
    rfl
  have htaken : q.getSessionByUID uid = some id := by
    rw [hregister]
    exact r.register_getSessionByUID server id uid replies.close
  refine ⟨⟨fun hlive hholder => ?_, fun hholder => ?_⟩, ?_⟩
  · have hlisted := hlive.byID
    rw [hregister, getSessionByID,
      if_neg (register_of_holder server (hlookup.trans hholder) _).1] at hlisted
    cases hlisted
  · obtain ⟨hsession, hbyID⟩ := register_of_ne server (hlookup ▸ hholder) replies.close
    have hlisted : id ∈ r.sessionsByID := by
      rw [hquiet.tables.sessionsByID]
      exact enlisted_of_run server hrun id hcreated hopen
    refine ⟨htaken, ?_, ?_⟩
    · rw [hregister]
      exact if_pos (hbyID hlisted)
    · rw [hregister, hsession, bindPrepare_entity server hholder hprepare]
      exact hopen.2
  · have hcovers := r.register_covers server id uid replies.close
    rw [← hregister] at hcovers
    have hfront : (q.session id).isFrontend = true :=
      hcovers.isFrontend.trans ((hquiet.isFrontend id).trans hopen.1)
    exact again_iff server hfront (huid rfl).1 (hcovers.uid.trans (huid rfl).2) htaken

/-- The first login of a user, and a second one on the same connection for which the callback of
the NATS server fails. -/
theorem live_iff_not_holder_first : ∃ q,
    (frontendPool plainServer).run [.newSession (.agent {}) true none] = some connected ∧
      connected.bind plainServer 1 [117] none {} = (q, none) ∧ Live q 1 [117] ∧
      SameTables q (q.bind plainServer 1 [117] none unsubscribed).1 := by
  have hrun : (frontendPool plainServer).run [.newSession (.agent {}) true none] =
      some connected := rfl
  obtain ⟨hlive, hagain⟩ := live_iff_not_holder plainServer hrun 1 [117] none {} (by decide)
    ⟨rfl, fun h => by cases h⟩ rfl
  exact ⟨_, hrun, rfl, hlive.mpr (by decide +kernel),
    (hagain none unsubscribed).mpr (Or.inr (some_ne_none _))⟩

/-- The user logs in twice on one connection: the second call returns nil, the session is closed
and not found under its id, and the counter of sessions has gone down. -/
theorem bound_again_closed : ∃ p, (frontendPool plainServer).run
      [.newSession (.agent {}) true none, .bind 1 [117] none {}] = some p ∧ p.OpenAt 1 ∧
    (p.bind plainServer 1 [117] none {}).2 = none ∧
    (p.bind plainServer 1 [117] none {}).1.getSessionByID 1 = none ∧
    (p.bind plainServer 1 [117] none {}).1.sessionCount = 0 ∧
    ¬ (p.bind plainServer 1 [117] none {}).1.OpenAt 1 ∧
    ¬ Live (p.bind plainServer 1 [117] none {}).1 1 [117] ∧
    ¬ SameTables p (p.bind plainServer 1 [117] none {}).1 := by
  refine ⟨_, rfl, ⟨rfl, fun h => by cases h⟩, rfl, rfl, rfl, fun h => h.2 rfl, fun h => ?_,
    fun h => ?_⟩
  · exact absurd h.byID (by decide +kernel)
  · exact absurd h.sessionCount (by decide +kernel)

end Pitaya.Pool
