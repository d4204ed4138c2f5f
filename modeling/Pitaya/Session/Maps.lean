import Pitaya.Session.Remote

/-!
# The maps of a session

A session keeps its custom data and the backends it is bound to in two Go maps.  Assigning
to a key of a nil map crashes, so neither may ever be nil.

* `SessionOp`, `MapOp`, `sessions` — how sessions come into being, and the operations that
  touch the maps, in any sequence.
* `Usable` — both maps are there; then `Set` and `SetBackendID` return (`usable_iff_returns`).
-/

namespace Pitaya

open Transition List Option Function

namespace Session

variable {V : Type} {codec : Codec V}

/-- Both maps are there. -/
def Usable (s : Session V) : Prop := s.data.isSome = true ∧ s.backends.isSome = true

instance (s : Session V) : Decidable s.Usable := inferInstanceAs (Decidable (_ ∧ _))

theorem usable_iff_returns (codec : Codec V) (s : Session V) (key svrType id : Bytes) (value : V) :
    s.Usable ↔ (s.set codec key value).Returns ∧ (s.setBackendID svrType id).Returns := by
  unfold Usable set setBackendID
  refine and_congr ?_ ?_
  · cases s.data <;> simp
  · cases s.backends <;> simp

variable {s : Session V}

theorem not_usable_of_data (h : s.data = none) : ¬s.Usable := by
  rintro ⟨hdata, -⟩
  rw [h] at hdata
  cases hdata

/-- The maps are the same. -/
structure SameMaps (s s' : Session V) : Prop where
  data : s'.data = s.data
  backends : s'.backends = s.backends

theorem SameMaps.usable {s' : Session V} (h : SameMaps s s') : s'.Usable ↔ s.Usable := by
  rw [Usable, Usable, h.data, h.backends]

theorem updateEncodedData_maps (s : Session V) : SameMaps s (updateEncodedData codec s).1 := by
  unfold updateEncodedData
  split <;> exact ⟨rfl, rfl⟩

theorem setData_usable (h : s.Usable) (data : StringMap V) : (s.setData codec data).1.Usable :=
  (updateEncodedData_maps _).usable.mpr ⟨rfl, h.2⟩

theorem setDataEncoded_usable (codec : Codec V) (h : s.Usable) (encodedData : Bytes) :
    (s.setDataEncoded codec encodedData).1.Usable := by
  unfold setDataEncoded
  split
  · exact h
  · split
    · exact h
    · exact setData_usable h _

theorem setDataEncoded_error (codec : Codec V) (s s' : Session V) (encodedData : Bytes) :
    (s.setDataEncoded codec encodedData).2 = (s'.setDataEncoded codec encodedData).2 := by
  have hupdate (s s' : Session V) (h : s.data = s'.data) :
      (updateEncodedData codec s).2 = (updateEncodedData codec s').2 := by
    rw [updateEncodedData, updateEncodedData, h]
    cases encodeSessionData codec s'.data <;> rfl
  unfold setDataEncoded
  split
  · rfl
  · split
    · rfl
    · exact hupdate _ _ rfl

/-! ## Records of the cluster store -/

/-- What both loaders do with a field. -/
structure Loads (codec : Codec V)
    (load : Session V → Bytes → Bytes → Session V × Option SessionError) : Prop where
  data : ∀ s v, load s fieldKeyData v = s.loadData codec v
  backends : ∀ s v, load s fieldKeyBackends v = s.loadBackends codec v
  other : ∀ s field v, field ≠ fieldKeyData → field ≠ fieldKeyBackends →
    (load s field v).2 = none ∧ SameMaps s (load s field v).1

theorem initialField_loads : Loads codec (initialField codec) where
  data s v := rfl
  backends s v := rfl
  other s field v hdata hbackends := by
    rw [initialField, if_neg hbackends, if_neg hdata]
    exact ⟨rfl, rfl, rfl⟩

theorem obtainField_loads : Loads codec (obtainField codec) where
  data s v := rfl
  backends s v := rfl
  other s field v hdata hbackends := by
    unfold obtainField
    split
    · exact ⟨rfl, rfl, rfl⟩
    split
    · exact ⟨rfl, rfl, rfl⟩
    split
    · exact ⟨rfl, rfl, rfl⟩
    split <;> exact ⟨rfl, rfl, rfl⟩

/-- The loop over a record gets to a data field that stands for no map: an empty one, or the
JSON null.  Only a backends field that cannot be decoded stops it before. -/
def ReachesNil (codec : Codec V) (entries : List (Bytes × Bytes)) : Prop :=
  ∃ before v after, entries = before ++ (fieldKeyData, v) :: after ∧
    decodeSessionData codec v = .ok none ∧
    ∀ b, (fieldKeyBackends, b) ∈ before → ∃ m, decodeSessionData codec b = .ok m

variable {entries : List (Bytes × Bytes)}

theorem not_reachesNil_of_notMem (h : fieldKeyData ∉ entries.map Prod.fst) :
    ¬ReachesNil codec entries := by
  rintro ⟨before, v, after, rfl, -⟩
  exact h (mem_map_of_mem (mem_append_right before mem_cons_self))

theorem reachesNil_cons_data {v : Bytes} (h : fieldKeyData ∉ entries.map Prod.fst) :
    ReachesNil codec ((fieldKeyData, v) :: entries) ↔ decodeSessionData codec v = .ok none := by
  constructor
  · rintro ⟨before, v', after, hsplit, hnil, -⟩
    cases before with
    | nil =>
      obtain ⟨hhead, -⟩ := cons.inj hsplit
      rw [(Prod.mk.inj hhead).2]
      exact hnil
    | cons entry before =>
      obtain ⟨-, rfl⟩ := cons.inj hsplit
      exact absurd (mem_map_of_mem (mem_append_right before mem_cons_self)) h
  · exact fun hnil => ⟨[], v, entries, rfl, hnil, fun b hb => by cases hb⟩

theorem reachesNil_cons_of_ne {field v : Bytes} (h : field ≠ fieldKeyData) :
    ReachesNil codec ((field, v) :: entries) ↔
      (field = fieldKeyBackends → ∃ m, decodeSessionData codec v = .ok m) ∧
        ReachesNil codec entries := by
  constructor
  · rintro ⟨before, v', after, hsplit, hnil, hbefore⟩
    cases before with
    | nil =>
      obtain ⟨hhead, -⟩ := cons.inj hsplit
      exact absurd (Prod.mk.inj hhead).1 h
    | cons entry before =>
      obtain ⟨rfl, rfl⟩ := cons.inj hsplit
      refine ⟨?_, before, v', after, rfl, hnil, fun b hb => hbefore b (mem_cons_of_mem _ hb)⟩
      rintro rfl
      exact hbefore v mem_cons_self
  · rintro ⟨hhead, before, v', after, rfl, hnil, hbefore⟩
    refine ⟨(field, v) :: before, v', after, rfl, hnil, fun b hb => ?_⟩
    rcases mem_cons.mp hb with heq | hb
    · obtain ⟨rfl, rfl⟩ := Prod.mk.inj heq
      exact hhead rfl
    · exact hbefore b hb

section

variable {load : Session V → Bytes → Bytes → Session V × Option SessionError}

theorem Loads.data_of_notMem (hload : Loads codec load) (h : fieldKeyData ∉ entries.map Prod.fst)
    (s : Session V) : (loadFields load s entries).1.data = s.data := by
  induction entries generalizing s with
  | nil => rfl
  | cons entry entries ih =>
    obtain ⟨field, v⟩ := entry
    rw [map_cons, mem_cons, not_or] at h
    have hfirst : (load s field v).1.data = s.data := by
      by_cases hbackends : field = fieldKeyBackends
      · subst hbackends
        rw [hload.backends, loadBackends]
        split <;> rfl
      · exact (hload.other s field v (Ne.symm h.1) hbackends).2.data
    rw [loadFields]
    split
    · next heq => rw [← hfirst, heq]
    · next heq => rw [ih h.2, ← hfirst, heq]

section

variable {entries : List (Bytes × Bytes)} {s : Session V}

/-- A data field that is read decides about the data map: it is the only one. -/
theorem Loads.usable_data (hload : Loads codec load) (hfresh : fieldKeyData ∉ entries.map Prod.fst)
    (h : s.Usable) (v : Bytes) (hrest : ∀ s : Session V, s.Usable →
      ((loadFields load s entries).1.Usable ↔ ¬ReachesNil codec entries)) :
    (loadFields load s ((fieldKeyData, v) :: entries)).1.Usable ↔
      ¬ReachesNil codec ((fieldKeyData, v) :: entries) := by
  rw [loadFields, reachesNil_cons_data hfresh, hload.data, loadData]
  cases hdecode : decodeSessionData codec v with
  | error => exact iff_of_true h fun hnil => by cases hnil
  | ok data =>
    dsimp only
    have hmaps := @updateEncodedData_maps V codec { s with data := data }
    cases data with
    | some =>
      have husable := hmaps.usable.mpr ⟨rfl, h.2⟩
      refine iff_of_true ?_ fun hnil => by cases hnil
      split
      · next heq => rwa [heq] at husable
      · next heq =>
        rw [heq] at husable
        exact (hrest _ husable).mpr (not_reachesNil_of_notMem hfresh)
    | none =>
      refine iff_of_false ?_ (not_not.mpr rfl)
      split
      · next heq =>
        rw [heq] at hmaps
        exact not_usable_of_data hmaps.data
      · next s' heq =>
        rw [heq] at hmaps
        exact not_usable_of_data ((hload.data_of_notMem hfresh s').trans hmaps.data)

theorem Loads.usable_of_ne (hload : Loads codec load) {field : Bytes} (hdata : field ≠ fieldKeyData)
    (h : s.Usable) (v : Bytes) (hrest : ∀ s : Session V, s.Usable →
      ((loadFields load s entries).1.Usable ↔ ¬ReachesNil codec entries)) :
    (loadFields load s ((field, v) :: entries)).1.Usable ↔
      ¬ReachesNil codec ((field, v) :: entries) := by
  rw [loadFields, reachesNil_cons_of_ne hdata]
  by_cases hbackends : field = fieldKeyBackends
  · subst hbackends
    rw [hload.backends, loadBackends]
    cases hdecode : decodeSessionData codec v with
    | error =>
      refine iff_of_true h ?_
      rintro ⟨hreached, -⟩
      obtain ⟨m, ⟨⟩⟩ := hreached rfl
    | ok m =>
      have husable :
          ({ s with backends := some (mapStrInter2MapStrStr codec m) } : Session V).Usable :=
        ⟨h.1, rfl⟩
      rw [and_iff_right fun _ => ⟨m, rfl⟩]
      exact hrest _ husable
  · obtain ⟨hok, hmaps⟩ := hload.other s field v hdata hbackends
    rw [and_iff_right fun hfield => absurd hfield hbackends]
    split
    · next heq =>
      rw [heq] at hok
      cases hok
    · next heq =>
      rw [heq] at hmaps
      exact hrest _ (hmaps.usable.mpr h)

/-- **Loading a record** leaves the session usable, unless it reaches a nil map. -/
theorem Loads.usable_iff (hload : Loads codec load) (hnodup : (entries.map Prod.fst).Nodup)
    (h : s.Usable) : (loadFields load s entries).1.Usable ↔ ¬ReachesNil codec entries := by
  induction entries generalizing s with
  | nil => exact iff_of_true h (not_reachesNil_of_notMem not_mem_nil)
  | cons entry entries ih =>
    obtain ⟨field, v⟩ := entry
    rw [map_cons, nodup_cons] at hnodup
    obtain ⟨hfresh, hnodup⟩ := hnodup
    have hrest (s : Session V) (h : s.Usable) := ih hnodup h
    by_cases hdata : field = fieldKeyData
    · subst hdata
      exact hload.usable_data hfresh h v hrest
    · exact hload.usable_of_ne hdata h v hrest

end

end

/-- A record of the store, as a Go map has it. -/
def HgetallReply.IsMap : HgetallReply → Prop
  | .fields entries => (entries.map Prod.fst).Nodup
  | _ => True

instance : ∀ reply : HgetallReply, Decidable reply.IsMap
  | .fields _ => inferInstanceAs (Decidable (List.Nodup _))
  | .noRows => inferInstanceAs (Decidable True)
  | .failed _ => inferInstanceAs (Decidable True)

/-- The record that is read brings in no nil map. -/
def LoadsMaps (codec : Codec V) : HgetallReply → Prop
  | .fields entries => ¬ReachesNil codec entries
  | _ => True

theorem initialFromCluster_usable_iff (h : s.Usable) {reply : HgetallReply} (hmap : reply.IsMap) :
    (s.initialFromCluster codec reply).1.Usable ↔ LoadsMaps codec reply := by
  cases reply with
  | fields => exact initialField_loads.usable_iff hmap h
  | noRows | failed => exact iff_of_true h trivial

theorem obtainFromCluster_usable_iff (h : s.Usable) {reply : HgetallReply} (hmap : reply.IsMap) :
    (s.obtainFromCluster codec reply).1.Usable ↔ LoadsMaps codec reply := by
  cases reply with
  | fields entries =>
    cases entries with
    | nil => exact iff_of_true h (not_reachesNil_of_notMem not_mem_nil)
    | cons =>
      exact obtainField_loads.usable_iff (s := { s with online := false }) hmap h
  | noRows | failed => exact iff_of_true h trivial

end Session

/-! ## Operations -/

/-- The operations on the maps of a session. -/
inductive SessionOp (V : Type) where
  | set (key : Bytes) (value : V)
  | remove (key : Bytes)
  | setData (data : StringMap V)
  | setDataEncoded (encodedData : Bytes)
  | clear
  | setBackends (bs : StringMap Bytes)
  | setBackendID (svrType id : Bytes)
  | removeBackendID (svrType : Bytes)
  | initialFromCluster (reply : Session.HgetallReply)
  | obtainFromCluster (reply : Session.HgetallReply)

namespace SessionOp

variable {V : Type} (codec : Codec V)

/-- The session after an operation. -/
def apply (s : Session V) : SessionOp V → Outcome Empty (Session V)
  | .set key value => s.set codec key value >>= fun r => pure r.1
  | .remove key => .ok (s.remove codec key).1
  | .setData data => .ok (s.setData codec data).1
  | .setDataEncoded encodedData => .ok (s.setDataEncoded codec encodedData).1
  | .clear => .ok (s.clear codec)
  | .setBackends bs => .ok (s.setBackends bs)
  | .setBackendID svrType id => s.setBackendID svrType id
  | .removeBackendID svrType => .ok (s.removeBackendID svrType)
  | .initialFromCluster reply => .ok (s.initialFromCluster codec reply).1
  | .obtainFromCluster reply => .ok (s.obtainFromCluster codec reply).1

/-- The store answers with a map. -/
def FromStore : SessionOp V → Prop
  | .initialFromCluster reply => reply.IsMap
  | .obtainFromCluster reply => reply.IsMap
  | _ => True

instance : ∀ op : SessionOp V, Decidable op.FromStore
  | .initialFromCluster reply => inferInstanceAs (Decidable reply.IsMap)
  | .obtainFromCluster reply => inferInstanceAs (Decidable reply.IsMap)
  | .set _ _ | .remove _ | .setData _ | .setDataEncoded _ | .clear | .setBackends _
  | .setBackendID _ _ | .removeBackendID _ => inferInstanceAs (Decidable True)

/-- The operation brings in no nil map. -/
def KeepsMaps : SessionOp V → Prop
  | .setBackends bs => bs.isSome = true
  | .initialFromCluster reply => Session.LoadsMaps codec reply
  | .obtainFromCluster reply => Session.LoadsMaps codec reply
  | _ => True

variable {codec}

/-- **An operation** leaves a usable session usable, unless it brings in a nil map. -/
theorem usable_iff {s s' : Session V} (h : s.Usable) {op : SessionOp V} (hstore : op.FromStore)
    (happly : op.apply codec s = .ok s') : s'.Usable ↔ op.KeepsMaps codec := by
  obtain ⟨m, hm⟩ := isSome_iff_exists.mp h.1
  obtain ⟨bs, hbs⟩ := isSome_iff_exists.mp h.2
  cases op with
  | set =>
    rw [apply, Session.set, hm] at happly
    cases happly
    exact iff_of_true ((Session.updateEncodedData_maps _).usable.mpr ⟨rfl, h.2⟩) trivial
  | remove =>
    cases happly
    refine iff_of_true ((Session.updateEncodedData_maps _).usable.mpr ⟨?_, h.2⟩) trivial
    rw [hm]
    rfl
  | setData data =>
    cases happly
    exact iff_of_true (Session.setData_usable h data) trivial
  | setDataEncoded encodedData =>
    cases happly
    exact iff_of_true (Session.setDataEncoded_usable codec h encodedData) trivial
  | clear =>
    cases happly
    exact iff_of_true ((Session.updateEncodedData_maps _).usable.mpr ⟨rfl, h.2⟩) trivial
  | setBackends =>
    cases happly
    exact and_iff_right h.1
  | setBackendID =>
    rw [apply, Session.setBackendID, hbs] at happly
    cases happly
    exact iff_of_true ⟨h.1, rfl⟩ trivial
  | removeBackendID =>
    cases happly
    refine iff_of_true ⟨h.1, ?_⟩ trivial
    rw [Session.removeBackendID, hbs]
    rfl
  | initialFromCluster =>
    cases happly
    exact Session.initialFromCluster_usable_iff h hstore
  | obtainFromCluster =>
    cases happly
    exact Session.obtainFromCluster_usable_iff h hstore

end SessionOp

/-- How sessions come into being, and what is done to them. -/
inductive MapOp (V : Type) where
  /-- A connection is accepted. -/
  | newSession (a : Agent)
  /-- A request of another server arrives. -/
  | newRemote (sess : Option ProtoSession) (frontendID : Bytes)
  | newCluster (uid : Bytes) (reply : Session.HgetallReply)
  /-- A session is put where `NewSession` finds it. -/
  | storeSessionLocal (id : ℕ)
  | session (id : ℕ) (op : SessionOp V)

namespace MapOp

variable {V : Type} (server : Server V)

/-- One step; none if it crashes. -/
def step (p : Pool V) : MapOp V → Option (Pool V)
  | .newSession a => some (p.newSession (.agent a) true none).1
  | .newRemote sess frontendID =>
    match p.newRemote server sess frontendID with
    | .ok r => some r.1
    | .crash => none
  | .newCluster uid reply => if reply.IsMap then some (p.newCluster server uid reply).1 else none
  | .storeSessionLocal id => if p.Created id then some (p.storeSessionLocal id).1 else none
  | .session id op =>
    if p.Created id ∧ op.FromStore then
      match op.apply server.codec (p.session id) with
      | .ok s => some (p.set id s)
      | .crash => none
    else none

/-- The operation brings in no nil map.  `NewRemote` assigns the backends of the request to a
new session, elsewhere than on a frontend and if the data of the request could be read. -/
def KeepsMaps (p : Pool V) : MapOp V → Prop
  | .newRemote sess _ => ∀ sv, sess = some sv → server.frontend = false →
      p.getSessionByUID sv.uid = none →
      (({} : Session V).setDataEncoded server.codec sv.data).2 = none → sv.backends.isSome = true
  | .newCluster _ reply => Session.LoadsMaps server.codec reply
  | .session _ op => op.KeepsMaps server.codec
  | _ => True

end MapOp

/-- All sequences of these operations. -/
def sessions {V : Type} (server : Server V) : System (Pool V) (MapOp V) where
  start := {}
  step := MapOp.step server

namespace Pool

variable {V : Type} {server : Server V} {p p' : Pool V} {id : ℕ} {s s' : Session V}

/-- Every session is usable. -/
def Usable (p : Pool V) : Prop := ∀ id, p.Created id → (p.session id).Usable

/-- The cached sessions exist. -/
def Listed (p : Pool V) : Prop := ∀ uid id, p.getSessionByUID uid = some id → p.Created id

/-! ## What a step does -/

/-- One session is assigned, a new one perhaps, and no other one enters the cache. -/
structure Assigns (p p' : Pool V) (id : ℕ) (s : Session V) : Prop where
  session : p'.session = Function.update p.session id s
  created : ∀ i, p'.Created i ↔ p.Created i ∨ i = id
  cached : ∀ uid i, p'.getSessionByUID uid = some i → p.getSessionByUID uid = some i ∨ i = id

namespace Assigns

theorem refl (hid : p.Created id) : Assigns p p id (p.session id) where
  session := (Function.update_eq_self id p.session).symm
  created i := by
    refine ⟨.inl, ?_⟩
    rintro (hi | rfl)
    · exact hi
    · exact hid
  cached uid i h := .inl h

theorem set (h : Assigns p p' id s) (s' : Session V) : Assigns p (p'.set id s') id s' where
  session := by
    show update p'.session id s' = _
    rw [h.session, update_idem]
  created := h.created
  cached := h.cached

theorem listed (h : Assigns p p' id s) (hlisted : p.Listed) : p'.Listed := by
  intro uid i hi
  rw [h.created]
  exact (h.cached uid i hi).imp_left (hlisted uid i)

theorem usable_iff (h : Assigns p p' id s) (husable : p.Usable) : p'.Usable ↔ s.Usable := by
  have hid : p'.session id = s := by rw [h.session, update_self]
  constructor
  · intro h'
    rw [← hid]
    exact h' id ((h.created id).mpr (.inr rfl))
  · intro hs i hi
    by_cases hi' : i = id
    · rw [hi', hid]
      exact hs
    · rw [h.session, update_of_ne hi']
      exact husable i (((h.created i).mp hi).resolve_right hi')

end Assigns

theorem newSession_assigns (hlisted : p.Listed) (entity : Entity) (frontend : Bool)
    (uid : Option Bytes) :
    Assigns p (p.newSession entity frontend uid).1 (p.newSession entity frontend uid).2
        ((p.newSession entity frontend uid).1.session (p.newSession entity frontend uid).2) ∧
      (p.Usable →
        ((p.newSession entity frontend uid).1.session
          (p.newSession entity frontend uid).2).Usable) := by
  obtain ⟨id, hcached, hnew⟩ | ⟨-, hid, hsid, hsession, hcache⟩ :=
    p.newSession_cases entity frontend uid
  · obtain ⟨uid, -, hcached⟩ := bind_eq_some_iff.mp hcached
    have hcreated := hlisted uid id hcached
    rw [hnew]
    exact ⟨.refl hcreated, fun h => h id hcreated⟩
  · rw [hid, hsession, update_self]
    refine ⟨⟨hsession, fun i => ?_, fun uid i h => .inl ?_⟩, fun _ => ?_⟩
    · unfold Created
      omega
    · rwa [getSessionByUID, hcache] at h
    · cases uid <;> exact ⟨rfl, rfl⟩

theorem storeSessionLocal_assigns (hid : p.Created id) :
    Assigns p (p.storeSessionLocal id).1 id (p.session id) := by
  have hstored : Assigns p { p with
      sessionsByUID := p.sessionsByUID.insert (p.session id).uid id
      userCount := p.userCount + 1 } id (p.session id) := by
    refine ⟨(Assigns.refl hid).session, (Assigns.refl hid).created, fun uid i h => ?_⟩
    by_cases huid : uid = (p.session id).uid
    · rw [huid, getSessionByUID, Finmap.lookup_insert] at h
      exact .inr (some.inj h).symm
    · rw [getSessionByUID, Finmap.lookup_insert_of_ne _ huid] at h
      exact .inl h
  unfold storeSessionLocal
  dsimp only
  split
  · exact .refl hid
  split
  · exact hstored
  · exact ⟨hstored.session, hstored.created, hstored.cached⟩

/-- `NewRemote` gives a usable session, but if it is new it has the backends of the request. -/
theorem newRemote_assigns (hlisted : p.Listed) {sess : Option ProtoSession} {frontendID : Bytes}
    {r : Except SessionError ℕ} (hnew : p.newRemote server sess frontendID = .ok (p', r)) :
    ∃ id s, Assigns p p' id s ∧
      (p.Usable → (s.Usable ↔ (MapOp.newRemote sess frontendID).KeepsMaps server p)) := by
  unfold newRemote at hnew
  obtain ⟨hassigns, husable⟩ :=
    newSession_assigns hlisted .remote false (some ((sess.map ProtoSession.uid).getD []))
  split at hnew
  · next hfrontend =>
    cases hnew
    refine ⟨_, _, hassigns, fun h => iff_of_true (husable h) ?_⟩
    intro sv _ hbackend
    rw [hfrontend] at hbackend
    cases hbackend
  next hbackend =>
  cases sess with
  | none => cases hnew
  | some sv =>
    dsimp only [map_some, getD_some] at hnew hassigns husable
    generalize p.newSession .remote false (some sv.uid) = new at hnew hassigns husable
    have hdata (h : p.Usable) : ((new.1.session new.2).setIP sv.ip).Usable := husable h
    have hdata (h : p.Usable) := Session.setDataEncoded_usable server.codec (hdata h) sv.data
    have herror := Session.setDataEncoded_error server.codec
      ((new.1.session new.2).setIP sv.ip) {} sv.data
    split at hnew
    · next s e hset =>
      cases hnew
      rw [hset] at hdata herror
      refine ⟨new.2, s, hassigns.set s, fun h => iff_of_true (hdata h) ?_⟩
      rintro sv' heq - - hnone
      obtain rfl := some.inj heq
      rw [← herror] at hnone
      cases hnone
    · next s hset =>
      rw [hset] at hdata herror
      split at hnew
      · next hisNew =>
        cases hnew
        refine ⟨new.2, _, hassigns.set _, fun h => ?_⟩
        show (s.data.isSome = true ∧ sv.backends.isSome = true) ↔ _
        rw [and_iff_right (hdata h).1]
        refine ⟨?_, fun hkeeps => ?_⟩
        · rintro hsome sv' heq - - -
          obtain rfl := some.inj heq
          exact hsome
        · exact hkeeps sv rfl (Bool.not_eq_true _ ▸ hbackend) (isNone_iff_eq_none.mp hisNew)
            herror.symm
      · next hold =>
        cases hnew
        refine ⟨new.2, s, hassigns.set s, fun h => iff_of_true (hdata h) ?_⟩
        rintro sv' heq - hnone -
        obtain rfl := some.inj heq
        exact absurd (isNone_iff_eq_none.mpr hnone) hold

end Pool

namespace MapOp

variable {V : Type} {server : Server V} {p p' : Pool V}

/-- **One step** assigns one session, and the session is usable unless the operation brings
in a nil map. -/
theorem step_assigns (hlisted : p.Listed) {op : MapOp V} (hstep : op.step server p = some p') :
    ∃ id s, Pool.Assigns p p' id s ∧ (p.Usable → (s.Usable ↔ op.KeepsMaps server p)) := by
  cases op with
  | newSession a =>
    obtain rfl := some.inj hstep
    obtain ⟨hassigns, husable⟩ := Pool.newSession_assigns hlisted (.agent a) true none
    exact ⟨_, _, hassigns, fun h => iff_of_true (husable h) trivial⟩
  | newRemote =>
    simp only [step] at hstep
    split at hstep
    · next r hnew =>
      obtain rfl := some.inj hstep
      exact Pool.newRemote_assigns hlisted hnew
    · cases hstep
  | newCluster uid reply =>
    obtain ⟨hmap, hstep⟩ := ite_none_right_eq_some.mp hstep
    obtain rfl := some.inj hstep
    obtain ⟨hassigns, husable⟩ := Pool.newSession_assigns hlisted .cluster false (some uid)
    have hloads (h : p.Usable) :=
      @Session.obtainFromCluster_usable_iff V server.codec _ (husable h) reply hmap
    unfold Pool.newCluster
    dsimp only
    split
    · next heq =>
      rw [heq] at hloads
      exact ⟨_, _, hassigns.set _, hloads⟩
    · next heq =>
      rw [heq] at hloads
      exact ⟨_, _, hassigns.set _, hloads⟩
  | storeSessionLocal id =>
    obtain ⟨hid, hstep⟩ := ite_none_right_eq_some.mp hstep
    obtain rfl := some.inj hstep
    exact ⟨id, p.session id, Pool.storeSessionLocal_assigns hid,
      fun h => iff_of_true (h id hid) trivial⟩
  | session id =>
    obtain ⟨⟨hid, hstore⟩, hstep⟩ := ite_none_right_eq_some.mp hstep
    split at hstep
    · next s happly =>
      obtain rfl := some.inj hstep
      exact ⟨id, s, (Pool.Assigns.refl hid).set s,
        fun h => SessionOp.usable_iff (h id hid) hstore happly⟩
    · cases hstep

end MapOp

/-! ## Whole runs -/

section

variable {V : Type} {server : Server V} {p : Pool V}

theorem sessions_listed (h : (sessions server).Reachable p) : p.Listed := by
  refine System.reachable_induction (fun uid id h => ?_) (fun p op p' _ hlisted hstep => ?_) h
  · change (∅ : Finmap fun _ : Bytes => ℕ).lookup uid = some id at h
    cases h
  · obtain ⟨id, s, hassigns, -⟩ := MapOp.step_assigns hlisted hstep
    exact hassigns.listed hlisted

/-- **The maps are usable, or not.**  Over every sequence of creations and operations, after
each of them every session has both maps and takes an assignment to either, if and only if
none of them brings in a nil map. -/
theorem maps_usable_iff (server : Server V) (events : List (MapOp V)) (p : Pool V)
    (hrun : (sessions server).run events = some p) :
    (∀ before q, before <+: events → (sessions server).run before = some q →
      ∀ id, q.Created id → (q.session id).data.isSome = true ∧
        (q.session id).backends.isSome = true ∧
        ∀ key value svrType backend, ((q.session id).set server.codec key value).Returns ∧
          ((q.session id).setBackendID svrType backend).Returns) ↔
    (sessions server).Meets (fun q op => op.KeepsMaps server q) events := by
  rw [← System.forall_prefix_iff_meets (P := Pool.Usable) ?_ ?_ hrun]
  · have husable (s : Session V) : (s.data.isSome = true ∧ s.backends.isSome = true ∧
        ∀ key value svrType backend, (s.set server.codec key value).Returns ∧
          (s.setBackendID svrType backend).Returns) ↔ s.Usable := by
      constructor
      · rintro ⟨hdata, hbackends, -⟩
        exact ⟨hdata, hbackends⟩
      · intro h
        exact ⟨h.1, h.2, fun key value svrType backend =>
          (s.usable_iff_returns server.codec key svrType backend value).mp h⟩
    simp only [husable]
    rfl
  · rintro id ⟨hlow, hhigh⟩
    exact absurd (hlow.trans hhigh) (Nat.not_succ_le_zero 0)
  · intro p op p' hreach husable hstep
    obtain ⟨id, s, hassigns, hkeeps⟩ := MapOp.step_assigns (sessions_listed hreach) hstep
    rw [hassigns.usable_iff husable, hkeeps husable]

end

/-- A request brings a session without backends to a backend server, and `SetBackendID`
crashes; a connection loads an empty or a null data field, and `Set` crashes. -/
theorem maps_lost : (∃ p, (sessions { codec := .strings [], frontend := false }).run
        [.newRemote (some { uid := [120] }) [102]] = some p ∧
      (p.session 1).setBackendID [98] [121] = .crash) ∧
    (∃ p, (sessions { codec := .strings [] }).run
        [.newSession {}, .session 1 (.initialFromCluster (.fields [(Session.fieldKeyData, [])]))]
          = some p ∧
      (p.session 1).set (.strings []) [107] [118] = .crash) ∧
    ∃ p, (sessions { codec := .strings [] }).run
        [.newSession {}, .session 1 (.obtainFromCluster
          (.fields [(Session.fieldKeyData, [110, 117, 108, 108])]))] = some p ∧
      (p.session 1).set (.strings []) [107] [118] = .crash :=
  ⟨⟨_, rfl, rfl⟩, ⟨_, rfl, rfl⟩, _, rfl, rfl⟩

/-- A request brings a session with backends to a backend server, and one more is added. -/
def boundTwice : List (MapOp Bytes) :=
  [.newRemote (some { uid := [120], backends := some (Finmap.singleton [99] [122]) }) [102],
    .session 1 (.setBackendID [98] [121])]

theorem maps_usable_boundTwice :
    ∃ p, (sessions { codec := .strings [], frontend := false }).run boundTwice = some p ∧
      (p.session 1).getBackendID [98] = [121] ∧
      ((p.session 1).setBackendID [97] [121]).Returns := by
  refine ⟨_, rfl, by decide, ?_⟩
  have hmeets : (sessions { codec := .strings [], frontend := false }).Meets
      (fun q op => op.KeepsMaps { codec := .strings [], frontend := false } q) boundTwice := by
    refine System.meets_of_meetsFrom ⟨?_, trivial, trivial⟩
    rintro sv heq - - -
    obtain rfl := Option.some.inj heq
    rfl
  obtain ⟨-, -, hreturns⟩ := (maps_usable_iff _ boundTwice _ rfl).mpr hmeets boundTwice _
    List.prefix_rfl rfl 1 (by decide)
  exact (hreturns [] [] [97] [121]).2

end Pitaya
