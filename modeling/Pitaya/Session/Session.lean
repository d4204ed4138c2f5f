import Pitaya.Agent
import Pitaya.Foundations.FiniteMap
import Pitaya.Foundations.Strconv

/-!
# Sessions

`session/session.go`, the part of a session that does not involve the pool: the
record, the custom data with its encoded copy, and the exchange with the cluster
store.

* `Session` — `sessionImpl`.  A Go map that may be nil is an `Option` of a finite
  map.
* `setData`, `setDataEncoded`, `updateEncodedData` — the data map and the bytes
  beside it.
* `initialFromCluster`, `obtainFromCluster` — loading the fields of a store
  record, one after the other, in the order the `range` loop visits them.  A
  field that fails leaves the earlier ones assigned.

The JSON codec of the data map is a parameter (`Codec`), and so are the replies
of the store.
-/

namespace Pitaya

/-- A Go map from strings, nil apart. -/
abbrev StringMap (V : Type) : Type := Option (Finmap fun _ : Bytes => V)

/-- The number of entries; `len` of a nil map is 0. -/
def StringMap.len {V : Type} (m : StringMap V) : ℕ := (m.map Finmap.size).getD 0

/-- `encoding/json` at the type of session data, and the type assertion to a
string. -/
structure Codec (V : Type) where
  marshal : StringMap V → Except Bytes Bytes
  unmarshal : Bytes → Except Bytes (StringMap V)
  asString : V → Option Bytes

namespace Codec

variable {V : Type} [DecidableEq V]

/-- The JSON of the nil map, the empty map and the maps with one of the entries; `text` is the JSON
of a value. -/
def texts (text : V → Bytes) (entries : List (Bytes × V)) : List (StringMap V × Bytes) :=
  (none, [110, 117, 108, 108]) :: (some ∅, [123, 125]) :: entries.map fun (k, v) =>
    (some (Finmap.singleton k v), [123, 34] ++ k ++ [34, 58] ++ text v ++ [125])

/-- `encoding/json` on these maps and texts, and an error for all others. -/
def small (asString : V → Option Bytes) (text : V → Bytes) (entries : List (Bytes × V)) :
    Codec V where
  marshal m :=
    match (texts text entries).find? fun t => t.1 = m with
    | some t => .ok t.2
    | none => .error []
  unmarshal b :=
    match (texts text entries).find? fun t => t.2 = b with
    | some t => .ok t.1
    | none => .error []
  asString := asString

/-- Values that are strings. -/
def strings : List (Bytes × Bytes) → Codec Bytes := small some fun s => 34 :: s ++ [34]

/-- Values that JSON cannot encode. -/
def channels : Codec Unit := small (fun _ => none) (fun _ => []) []

/-- The bytes of a map. -/
def bytes (codec : Codec V) (m : StringMap V) : Bytes := (codec.marshal m).toOption.getD []

end Codec

/-- The network entity behind a session. -/
inductive Entity where
  /-- `agentImpl`, on the frontend that holds the connection. -/
  | agent (a : Agent)
  /-- `agent.Remote`, a session of another server's connection. -/
  | remote
  /-- `agent.Cluster`, a session read from the cluster store. -/
  | cluster
  deriving DecidableEq, Repr

/-- The errors of the session package. -/
inductive SessionError where
  /-- `ErrIllegalUID`, "illegal uid". -/
  | illegalUID
  /-- `ErrSessionAlreadyBound` with the uid of the refused call. -/
  | sessionAlreadyBound (uid : Bytes)
  /-- `ErrSessionNotFound`. -/
  | sessionNotFound
  /-- `ErrEmptyUID`. -/
  | emptyUID
  /-- `ErrNoUIDBind`. -/
  | noUIDBind
  /-- An error of the JSON codec. -/
  | json (text : Bytes)
  /-- "%w,uid=%s": an error wrapped by `Bind`. -/
  | forUID (e : SessionError) (uid : Bytes)
  /-- An error of the cluster store. -/
  | store (text : Bytes)
  /-- An error of a registered callback or of a remote call. -/
  | call (text : Bytes)
  /-- An error of the agent. -/
  | agent (e : AgentError)
  deriving DecidableEq, Repr

/-- `sessionImpl`.  Its id is its key in the heap of the pool. -/
structure Session (V : Type) where
  uid : Bytes := []
  uidInt : ℤ := 0
  entity : Entity := .agent {}
  data : StringMap V := some ∅
  encodedData : Bytes := []
  isFrontend : Bool := true
  frontendID : Bytes := []
  frontendSessionID : ℤ := 0
  online : Bool := true
  backends : StringMap Bytes := some ∅
  ip : Bytes := []
  requestsInFlight : Finmap fun _ : Bytes => Bytes := ∅

/-- `util.ForceIdStrToInt`. -/
def forceIdStrToInt (id : Bytes) : ℤ :=
  if id = [] then 0
  else
    match Strconv.parseInt id with
    | (n, none) => n
    | (_, some _) => (Crc32.checksumIEEE id).toNat

/-- `util.MapStrInter2MapStrStr`: the entries that hold a string. -/
def mapStrInter2MapStrStr {V : Type} (codec : Codec V) (m : StringMap V) :
    Finmap fun _ : Bytes => Bytes :=
  match m with
  | none => ∅
  | some m => m.filterMapValues fun _ v => codec.asString v

namespace Session

variable {V : Type} (codec : Codec V)

variable (s : Session V)

def hasRequestsInFlight : Bool := s.requestsInFlight.size ≠ 0

/-! ## Custom data -/

def encodeSessionData (data : StringMap V) : Except Bytes Bytes := codec.marshal data

/-- `DecodeSessionData`: no bytes are a nil map. -/
def decodeSessionData (encodedData : Bytes) : Except Bytes (StringMap V) :=
  if encodedData = [] then .ok none else codec.unmarshal encodedData

def updateEncodedData : Session V × Option SessionError :=
  match encodeSessionData codec s.data with
  | .error e => (s, some (.json e))
  | .ok b => ({ s with encodedData := b }, none)

/-- `GetData`: a copy, never nil. -/
def getData : Finmap fun _ : Bytes => V := s.data.getD ∅

/-- `SetData`: a copy of the argument. -/
def setData (data : StringMap V) : Session V × Option SessionError :=
  updateEncodedData codec { s with data := some (data.getD ∅) }

def setDataEncoded (encodedData : Bytes) : Session V × Option SessionError :=
  if encodedData = [] then (s, none)
  else
    match decodeSessionData codec encodedData with
    | .error e => (s, some (.json e))
    | .ok data => s.setData codec data

/-- `Set`.  Assigning to a key of a nil map crashes. -/
def set (key : Bytes) (value : V) :
    Outcome Empty (Session V × Option SessionError) :=
  match s.data with
  | none => .crash
  | some m => .ok (updateEncodedData codec { s with data := some (m.insert key value) })

/-- `Remove`; deleting from a nil map does nothing. -/
def remove (key : Bytes) : Session V × Option SessionError :=
  updateEncodedData codec { s with data := s.data.map fun m => m.erase key }

/-- `Clear`; an error of the encoding is dropped. -/
def clear : Session V :=
  (updateEncodedData codec { s with uid := [], uidInt := 0, data := some ∅ }).1

/-! ## Where the session is bound -/

def setFrontendData (frontendID : Bytes) (frontendSessionID : ℤ) : Session V :=
  { s with frontendID := frontendID, frontendSessionID := frontendSessionID }

def setIP (ip : Bytes) : Session V := { s with ip := ip }

/-- `GetBackendID`, empty if there is none. -/
def getBackendID (svrType : Bytes) : Bytes :=
  ((s.backends.getD ∅).lookup svrType).getD []

/-- `SetBackends`: the argument itself. -/
def setBackends (bs : StringMap Bytes) : Session V := { s with backends := bs }

/-- `SetBackendID`.  Assigning to a key of a nil map crashes. -/
def setBackendID (svrType id : Bytes) : Outcome Empty (Session V) :=
  match s.backends with
  | none => .crash
  | some m => .ok { s with backends := some (m.insert svrType id) }

/-- `RemoveBackendID`; deleting from a nil map does nothing. -/
def removeBackendID (svrType : Bytes) : Session V :=
  { s with backends := s.backends.map fun m => m.erase svrType }

/-- Assign the uid and its number. -/
def setUID (uid : Bytes) : Session V :=
  { s with uid := uid, uidInt := forceIdStrToInt uid }

/-! ## The cluster store -/

/-- `fieldKeyFrontendID`, "f". -/
def fieldKeyFrontendID : Bytes := [102]
/-- `fieldKeyFrontendSessID`, "s". -/
def fieldKeyFrontendSessID : Bytes := [115]
/-- `fieldKeyOnline`, "o". -/
def fieldKeyOnline : Bytes := [111]
/-- `fieldKeyBackends`, "bs". -/
def fieldKeyBackends : Bytes := [98, 115]
/-- `fieldKeyIP`, "ip". -/
def fieldKeyIP : Bytes := [105, 112]
/-- `fieldKeyData`, "u". -/
def fieldKeyData : Bytes := [117]

/-- `ClusterStorageKey`, "pit:u:%s:", empty without a uid. -/
def clusterStorageKey : Bytes :=
  if s.uid = [] then [] else [112, 105, 116, 58, 117, 58] ++ s.uid ++ [58]

/-- How the store answers `Hgetall`: the fields of the record, `sql.ErrNoRows`,
or another error. -/
inductive HgetallReply where
  | fields (entries : List (Bytes × Bytes))
  | noRows
  | failed (text : Bytes)
  deriving DecidableEq, Repr

/-- The decimal flag `lo.If(s.online, "1").Else("0")`. -/
def onlineFlag : Bytes := if s.online then [49] else [48]

/-- The fields `FlushFrontendData` writes. -/
def frontendFields : List (Bytes × Bytes) :=
  [(fieldKeyOnline, s.onlineFlag), (fieldKeyFrontendID, s.frontendID),
    (fieldKeyFrontendSessID, Strconv.formatInt s.frontendSessionID),
    (fieldKeyIP, s.ip), (fieldKeyData, s.encodedData)]

/-- `case fieldKeyBackends` of both loaders. -/
def loadBackends (v : Bytes) : Session V × Option SessionError :=
  match decodeSessionData codec v with
  | .error e => (s, some (.json e))
  | .ok m => ({ s with backends := some (mapStrInter2MapStrStr codec m) }, none)

/-- `case fieldKeyData` of both loaders. -/
def loadData (v : Bytes) : Session V × Option SessionError :=
  match decodeSessionData codec v with
  | .error e => (s, some (.json e))
  | .ok data => updateEncodedData codec { s with data := data }

/-- The fields `InitialFromCluster` reads. -/
def initialField (field v : Bytes) : Session V × Option SessionError :=
  if field = fieldKeyBackends then s.loadBackends codec v
  else if field = fieldKeyData then s.loadData codec v
  else (s, none)

/-- The fields `ObtainFromCluster` reads. -/
def obtainField (field v : Bytes) : Session V × Option SessionError :=
  if field = fieldKeyFrontendID then ({ s with frontendID := v }, none)
  else if field = fieldKeyFrontendSessID then
    ({ s with frontendSessionID := (Strconv.parseInt v).1 }, none)
  else if field = fieldKeyBackends then s.loadBackends codec v
  else if field = fieldKeyData then s.loadData codec v
  else if field = fieldKeyIP then ({ s with ip := v }, none)
  else if field = fieldKeyOnline then ({ s with online := decide (v = [49]) }, none)
  else (s, none)

/-- The `range` loop of a loader: stop at the first field that fails. -/
def loadFields (load : Session V → Bytes → Bytes → Session V × Option SessionError)
    (s : Session V) : List (Bytes × Bytes) → Session V × Option SessionError
  | [] => (s, none)
  | (field, v) :: entries =>
    match load s field v with
    | (s, some e) => (s, some e)
    | (s, none) => loadFields load s entries

def initialFromCluster (reply : HgetallReply) :
    Session V × Option SessionError :=
  match reply with
  | .failed e => (s, some (.store e))
  | .noRows => (s, none)
  | .fields entries => loadFields (initialField codec) s entries

def obtainFromCluster (reply : HgetallReply) :
    Session V × Option SessionError :=
  let s := { s with online := false }
  match reply with
  | .failed e => (s, some (.store e))
  | .noRows => (s, some .sessionNotFound)
  | .fields [] => (s, some .sessionNotFound)
  | .fields entries => loadFields (obtainField codec) s entries

end Session

end Pitaya
