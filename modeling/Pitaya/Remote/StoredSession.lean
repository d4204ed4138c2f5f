import Pitaya.Remote.Backend
import Pitaya.Session.FailedLoad
import Pitaya.Session.Heap

/-!
# A session in the cluster store

`FlushFrontendData` and `FlushBackendData` of `session/session.go` write six fields of a session
to its record, and `ObtainFromCluster` reads the record into another session of the same user.

* `RecordStore`, `perform`, `hgetall` — the store: it returns what was last written.
* `flush`, `flushes` — calls of the two functions on a session of a server, some of which may
  fail.
* `holds_flushes` — after a call of each that succeeds, the record has all of them.
-/

namespace Pitaya.Backend

open Ranges Session Loader List Option

variable {V : Type}

/-! ## The store -/

/-- The records of the cluster store by their keys. -/
abbrev RecordStore : Type := Finmap fun _ : Bytes => Record

variable (st : RecordStore)

/-- Write fields of a record. -/
def RecordStore.write (key : Bytes) (fields : List (Bytes × Bytes)) :
    RecordStore :=
  st.insert key (((st.lookup key).getD ∅).assign fields)

/-- What an effect of a server does to the store. -/
def perform : Effect → RecordStore
  | .hmset key fields => st.write key fields
  | .hset key field value => st.write key [(field, value)]
  | .forkBound .. => st
  | .notifyBound .. => st
  | .notifyClosed _ => st

/-- The store after the effects of a server. -/
def storeAfter (cl : Servers V) (me : Bytes) : RecordStore :=
  (cl.site me).pool.effects.foldl perform st

def hgetall (key : Bytes) : StoreOutcome :=
  match st.lookup key with
  | none => .noRows
  | some r => .record r

/-! ## The calls -/

/-- The two functions. -/
inductive Flush where
  /-- `FlushFrontendData`. -/
  | frontendData
  /-- `FlushBackendData`. -/
  | backendData
  deriving DecidableEq, Repr

/-- A call on a session of a server, with the reply of the store. -/
def flush (me : Bytes) (id : ℕ) (cl : Servers V) :
    Flush → Option Bytes → Servers V × Option BackendError
  | .frontendData, reply =>
    let r := (cl.site me).pool.flushFrontendData id reply
    (cl.setPool me r.1, r.2.map .session)
  | .backendData, reply => flushBackendData cl me id reply

/-- Calls one after the other, with their results. -/
def flushes (me : Bytes) (id : ℕ) : Servers V → List (Flush × Option Bytes) →
    Servers V × List (Flush × Option BackendError)
  | cl, [] => (cl, [])
  | cl, (f, reply) :: calls =>
    let r := flush me id cl f reply
    let rest := flushes me id r.1 calls
    (rest.1, (f, r.2) :: rest.2)

/-- The fields a call writes. -/
def Flush.fields (marshalBackends : StringMap Bytes → Bytes) (s : Session V) :
    Flush → List (Bytes × Bytes)
  | .frontendData => s.frontendFields
  | .backendData => [(fieldKeyBackends, marshalBackends s.backends)]

/-- The fields both calls write. -/
def storedFields (marshalBackends : StringMap Bytes → Bytes) (s : Session V) :
    List (Bytes × Bytes) :=
  s.frontendFields ++ [(fieldKeyBackends, marshalBackends s.backends)]

/-- The store has these fields in the record. -/
def Holds (key : Bytes) (fields : List (Bytes × Bytes)) : Prop :=
  ∃ r, st.lookup key = some r ∧ ∀ e ∈ fields, r.lookup e.1 = some e.2

section

variable {me : Bytes} {id : ℕ} {cl : Servers V} {st : RecordStore} {key : Bytes}
  {marshalBackends : StringMap Bytes → Bytes} {s : Session V}

theorem fields_subset (f : Flush) :
    f.fields marshalBackends s ⊆ storedFields marshalBackends s := by
  cases f with
  | frontendData => exact subset_append_left _ _
  | backendData => exact subset_append_right _ _

theorem storedFields_inj {e e' : Bytes × Bytes} (he : e ∈ storedFields marshalBackends s)
    (he' : e' ∈ storedFields marshalBackends s) (h : e.1 = e'.1) : e = e' := by
  have hnodup : ((storedFields marshalBackends s).map Prod.fst).Nodup :=
    show [fieldKeyOnline, fieldKeyFrontendID, fieldKeyFrontendSessID, fieldKeyIP, fieldKeyData,
      fieldKeyBackends].Nodup by decide
  exact inj_on_of_nodup_map hnodup he he' h

theorem holds_write {fields : List (Bytes × Bytes)} (f : Flush)
    (hfields : fields ⊆ storedFields marshalBackends s)
    (h : Holds st key fields ∨ fields = f.fields marshalBackends s) :
    Holds (st.write key (f.fields marshalBackends s)) key fields := by
  refine ⟨_, Finmap.lookup_insert _, fun e he => Finmap.lookup_assign ?_ ?_⟩
  · intro e' he' hkey
    rw [storedFields_inj (fields_subset f he') (hfields he) hkey]
  · obtain ⟨r, hr, hold⟩ | rfl := h
    · exact .inl (by rw [hr]; exact hold e he)
    · exact .inr ⟨e, he, rfl⟩

/-- **A call**: it fails and does nothing, or it writes its fields to the record of the
session. -/
theorem flush_cases (me : Bytes) (id : ℕ) (cl : Servers V) (f : Flush) (reply : Option Bytes) :
    (∃ e, flush me id cl f reply = (cl, some e)) ∨
    (cl.session me id).uid ≠ [] ∧ ∃ effect,
      flush me id cl f reply = (cl.setPool me ((cl.site me).pool.emit [effect]), none) ∧
      ∀ st, perform st effect = st.write (cl.session me id).clusterStorageKey
        (f.fields (cl.site me).marshalBackends (cl.session me id)) := by
  have hsame : cl.setPool me (cl.site me).pool = cl :=
    congrArg (Servers.mk · cl.sent) (Function.update_eq_self _ _)
  cases f with
  | frontendData =>
    unfold flush Pool.flushFrontendData
    dsimp only
    by_cases huid : ((cl.site me).pool.session id).uid = []
    · rw [if_pos huid, hsame]
      exact .inl ⟨_, rfl⟩
    rw [if_neg huid]
    cases reply with
    | some =>
      dsimp only
      rw [hsame]
      exact .inl ⟨_, rfl⟩
    | none => exact .inr ⟨huid, _, rfl, fun st => rfl⟩
  | backendData =>
    unfold flush flushBackendData
    dsimp only
    by_cases huid : (cl.session me id).uid = []
    · rw [if_pos huid]
      exact .inl ⟨_, rfl⟩
    rw [if_neg huid]
    cases reply with
    | some => exact .inl ⟨_, rfl⟩
    | none => exact .inr ⟨huid, _, rfl, fun st => rfl⟩

theorem storeAfter_emit (effect : Effect) :
    storeAfter st (cl.setPool me ((cl.site me).pool.emit [effect])) me =
      perform (storeAfter st cl me) effect := by
  rw [storeAfter, setPool_site]
  exact foldl_append ..

end

/-- **Calls one after the other** keep the session, and what one of them has written stays. -/
theorem holds_flushes (st : RecordStore) (me : Bytes) (id : ℕ)
    {marshalBackends : StringMap Bytes → Bytes} {s : Session V} (f : Flush)
    (calls : List (Flush × Option Bytes)) (cl : Servers V) (hs : cl.session me id = s)
    (hmarshal : (cl.site me).marshalBackends = marshalBackends)
    (h : Holds (storeAfter st cl me) s.clusterStorageKey (f.fields marshalBackends s) ∨
      (f, none) ∈ (flushes me id cl calls).2) :
    Holds (storeAfter st (flushes me id cl calls).1 me) s.clusterStorageKey
      (f.fields marshalBackends s) := by
  induction calls generalizing cl with
  | nil => exact h.resolve_right not_mem_nil
  | cons call calls ih =>
    obtain ⟨f', reply⟩ := call
    rw [flushes] at h ⊢
    obtain ⟨e, hfails⟩ | ⟨huid, effect, hflush, hperform⟩ := flush_cases me id cl f' reply
    · rw [hfails] at h ⊢
      refine ih cl hs hmarshal (h.imp_right fun hmem => ?_)
      exact (mem_cons.mp hmem).resolve_left fun heq => nomatch (Prod.mk.inj heq).2
    · rw [hflush] at h ⊢
      have hwrites := hperform (storeAfter st cl me)
      rw [← storeAfter_emit, hs, hmarshal] at hwrites
      refine ih _ ((setPool_session ..).trans hs) ?_ ?_
      · rw [setPool_site]
        exact hmarshal
      rw [hwrites]
      obtain hholds | hmem := h
      · exact .inl (holds_write f' (fields_subset f) (.inl hholds))
      obtain heq | hmem := mem_cons.mp hmem
      · obtain rfl : f = f' := (Prod.mk.inj heq).1
        exact .inl (holds_write f (fields_subset f) (.inr rfl))
      · exact .inr hmem

/-! ## Reading the record -/

/-- The encoded data is an encoding, the JSON of the data and of the backends can be read back, the
latter as the same keys with the strings as values, and the session id of the frontend is an
`int64`. -/
structure Storable (codec : Codec V) (marshalBackends : StringMap Bytes → Bytes) (s : Session V) :
    Prop where
  data : ∃ data b, decodeSessionData codec s.encodedData = .ok data ∧ codec.marshal data = .ok b
  backends : ∃ m, decodeSessionData codec (marshalBackends s.backends) = .ok m ∧
    ∀ svrType, ((m.getD ∅).lookup svrType).map codec.asString =
      ((s.backends.getD ∅).lookup svrType).map some
  sessionID : -9223372036854775808 ≤ s.frontendSessionID ∧
    s.frontendSessionID < 9223372036854775808

/-- `t'` is `t` with the state of `s`. -/
structure StateOf (codec : Codec V) (s t t' : Session V) : Prop where
  frontendID : t'.frontendID = s.frontendID
  frontendSessionID : t'.frontendSessionID = s.frontendSessionID
  ip : t'.ip = s.ip
  online : t'.online = s.online
  backends : t'.backends.getD ∅ = s.backends.getD ∅
  data : ∃ data, decodeSessionData codec s.encodedData = .ok data ∧ t'.getData = data.getD ∅
  uid : t'.uid = t.uid
  uidInt : t'.uidInt = t.uidInt
  entity : t'.entity = t.entity
  isFrontend : t'.isFrontend = t.isFrontend
  requestsInFlight : t'.requestsInFlight = t.requestsInFlight

section

variable {codec : Codec V} {marshalBackends : StringMap Bytes → Bytes} {s : Session V} {r : Record}

/-- Strings that are read back survive the conversion. -/
theorem mapStrInter2MapStrStr_eq {m : StringMap V} {bs : Finmap fun _ : Bytes => Bytes}
    (h : ∀ key, ((m.getD ∅).lookup key).map codec.asString = (bs.lookup key).map some) :
    mapStrInter2MapStrStr codec m = bs := by
  refine Finmap.ext_lookup fun key => ?_
  have hbind : (mapStrInter2MapStrStr codec m).lookup key =
      ((m.getD ∅).lookup key).bind codec.asString := by
    cases m with
    | none => rfl
    | some => exact Finmap.lookup_filterMapValues ..
  have hkey := h key
  rw [hbind]
  cases hm : (m.getD ∅).lookup key with
  | none =>
    rw [hm, map_none] at hkey
    exact (map_eq_none_iff.mp hkey.symm).symm
  | some v =>
    rw [hm, map_some] at hkey
    obtain ⟨s, hs, hv⟩ := map_eq_some_iff.mp hkey.symm
    rw [bind_some, hs, hv]

theorem fieldError_of_storable (hs : Storable codec marshalBackends s)
    (hdata : r.lookup fieldKeyData = some s.encodedData)
    (hbackends : r.lookup fieldKeyBackends = some (marshalBackends s.backends))
    (fld v : Bytes) (h : r.lookup fld = some v) : fieldError codec fld v = none := by
  by_cases hfld : fld = fieldKeyBackends
  · subst hfld
    obtain ⟨m, hm, -⟩ := hs.backends
    obtain rfl := some.inj (h.symm.trans hbackends)
    rw [fieldError, if_pos rfl, hm]
  by_cases hfld' : fld = fieldKeyData
  · subst hfld'
    obtain ⟨data, b, hdecode, hencode⟩ := hs.data
    obtain rfl := some.inj (h.symm.trans hdata)
    rw [fieldError, if_neg hfld, if_pos rfl, hdecode]
    dsimp only
    rw [dataError, hencode]
  · exact (fieldOverlay_of_ne codec v hfld hfld').2

theorem stateOf_writes (hs : Storable codec marshalBackends s)
    (hr : ∀ e ∈ storedFields marshalBackends s, r.lookup e.1 = some e.2) (t : Session V) :
    StateOf codec s t ((obtain.writes codec r.lookup).apply (obtain.reset t)) := by
  simp only [storedFields, frontendFields, cons_append, nil_append, forall_mem_cons] at hr
  obtain ⟨honline, hid, hsess, hip, hdata, hbackends, -⟩ := hr
  obtain ⟨data, b, hdecode, hencode⟩ := hs.data
  obtain ⟨m, hm, hread⟩ := hs.backends
  have hmap := mapStrInter2MapStrStr_eq hread
  refine ⟨?_, ?_, ?_, ?_, ?_, ⟨data, hdecode, ?_⟩, rfl, rfl, rfl, rfl, rfl⟩
  · simp only [Writes.apply, writes, connection, hid, bind_some, getD_some]
  · simp only [Writes.apply, writes, connection, hsess, bind_some, getD_some]
    rw [Strconv.parseInt_formatInt hs.sessionID.1 hs.sessionID.2]
  · simp only [Writes.apply, writes, connection, hip, bind_some, getD_some]
  · simp only [Writes.apply, writes, connection, honline, bind_some, getD_some]
    unfold onlineFlag
    cases s.online <;> rfl
  · simp only [Writes.apply, Overlay.layOver, writes, hbackends, bind_some, hm, hmap,
      Except.toOption, map_some, getD_some]
  · simp only [getData, Writes.apply, Overlay.layOver, writes, hdata, bind_some, hdecode,
      Except.toOption, getD_some]

end

/-- **A session survives the trip through the store.**  After calls of `FlushFrontendData` and
`FlushBackendData` of which one each has succeeded, `ObtainFromCluster` on any session with the
same uid succeeds, whichever order the fields come in, and takes over the state. -/
theorem obtainFromCluster_flushes {codec : Codec V} (st : RecordStore) {cl : Servers V} {me : Bytes}
    {id : ℕ} (calls : List (Flush × Option Bytes)) {t : Session V} {reply : HgetallReply}
    (hs : Storable codec (cl.site me).marshalBackends (cl.session me id))
    (hfrontend : (.frontendData, none) ∈ (flushes me id cl calls).2)
    (hbackend : (.backendData, none) ∈ (flushes me id cl calls).2)
    (huid : t.uid = (cl.session me id).uid)
    (hgives : (hgetall (storeAfter st (flushes me id cl calls).1 me)
      t.clusterStorageKey).Gives reply) :
    ∃ t', t.obtainFromCluster codec reply = (t', none) ∧
      StateOf codec (cl.session me id) t t' := by
  have hkey : t.clusterStorageKey = (cl.session me id).clusterStorageKey := by
    rw [clusterStorageKey, clusterStorageKey, huid]
  obtain ⟨r, hlookup, hfront⟩ := holds_flushes st me id .frontendData calls cl rfl rfl
    (.inr hfrontend)
  obtain ⟨r', hlookup', hback⟩ := holds_flushes st me id .backendData calls cl rfl rfl
    (.inr hbackend)
  obtain rfl := Option.some.inj (hlookup.symm.trans hlookup')
  have hr : ∀ e ∈ storedFields (cl.site me).marshalBackends (cl.session me id),
      r.lookup e.1 = some e.2 :=
    fun e he => (List.mem_append.mp he).elim (hfront e) (hback e)
  have hbackends : r.lookup fieldKeyBackends = _ := hback _ List.mem_cons_self
  have hdata : r.lookup fieldKeyData = some (cl.session me id).encodedData :=
    hfront (fieldKeyData, _) (by simp [Flush.fields, frontendFields])
  rw [hkey, hgetall, hlookup] at hgives
  have hgood : obtain.Good codec (.record r) := by
    refine ⟨fun _ hempty => ?_, fieldError_of_storable hs hdata hbackends⟩
    rw [hempty, Finmap.lookup_empty] at hdata
    cases hdata
  exact ⟨_, load_of_good hgood hgives t, stateOf_writes hs hr t⟩

/-! ## A user with a backend -/

/-- JSON with the map {"k": "v"}. -/
def oneMapCodec : Codec Bytes := .strings [([107], [118])]

/-- The server "f" with a session of the user "u". -/
def oneUser : Servers Bytes where
  site _ :=
    { codec := oneMapCodec
      marshalBackends := oneMapCodec.bytes
      frontend := true
      pool :=
        { session := fun _ =>
            { uid := [117], encodedData := [123, 125], frontendID := [102], frontendSessionID := -7
              ip := [49], backends := some (Finmap.singleton [107] [118]) } } }

/-- A first call that the store refuses, and then one of each. -/
theorem obtainFromCluster_oneUser :
    ∃ reply t', ({ uid := [117] } : Session Bytes).obtainFromCluster oneMapCodec reply =
      (t', none) ∧
      StateOf oneMapCodec (oneUser.session [102] 1) { uid := [117] } t' := by
  let calls : List (Flush × Option Bytes) :=
    [(.backendData, some []), (.frontendData, none), (.backendData, none)]
  have hs : Storable oneMapCodec (oneUser.site [102]).marshalBackends (oneUser.session [102] 1) :=
    ⟨⟨some ∅, _, rfl, rfl⟩, ⟨some (Finmap.singleton [107] [118]), rfl, fun _ => rfl⟩, by decide,
      by decide⟩
  obtain ⟨r, hr, -⟩ := holds_flushes ∅ [102] 1 .frontendData calls oneUser rfl rfl
    (.inr (List.mem_cons_of_mem _ List.mem_cons_self))
  obtain ⟨entries, hvisits⟩ := exists_visits r
  refine ⟨.fields entries, obtainFromCluster_flushes ∅ calls hs
    (List.mem_cons_of_mem _ List.mem_cons_self)
    (List.mem_cons_of_mem _ (List.mem_cons_of_mem _ List.mem_cons_self)) rfl ?_⟩
  have hgetall : hgetall (storeAfter ∅ (flushes [102] 1 oneUser calls).1 [102])
      (oneUser.session [102] 1).clusterStorageKey = .record r := by
    rw [Backend.hgetall, hr]
  exact hgetall ▸ StoreOutcome.Gives.record hvisits

end Pitaya.Backend
