import Pitaya.Client.Connection
import Pitaya.Conn.Message
import Pitaya.Foundations.FiniteMap

/-!
# The client with descriptors

`client/protoclient.go`: `ProtoClient` embeds a `Client` and loads the commands of the server
and their descriptors before it connects.  `ConnectTo`, `LoadServerInfo`, `Disconnect`,
`OnDisconnected`, `LoadInfo` and `AddPushResponse` are called from any number of goroutines.

* `Tables` — the commands and descriptors, with what `getDescriptorsForGeneration` adds.
* `Shared` — the fields under `stateMu`, the attempts and the readers, over the state of the
  embedded client.

`attempt.cancel()` cancels the contexts made from the one of the attempt at once, and a context
made from a cancelled one is cancelled when it is made.  The throw-away client of a bootstrap is
known by its tables, which nobody else sees, and each of its exchanges with the server may fail;
what becomes of its connection is left out, and so are the channels' capacities.
-/

namespace Pitaya.Client.Proto

open Transition Threads Conn

/-! ## Commands and descriptors -/

/-- `protoreflect.MessageDescriptor`. -/
structure Descriptor where
  fullName : Bytes
  definition : Bytes := []
  deriving DecidableEq

structure Command where
  input : Bytes
  output : Bytes
  inputMsgDescriptor : Option Descriptor := none
  outputMsgDescriptor : Option Descriptor := none
  deriving DecidableEq

/-- `ProtoBufferInfo`: the commands of a server, by route. -/
abbrev ProtoBufferInfo : Type := Finmap fun _ : Bytes => Command

/-- What a client knows about the server. -/
structure Tables where
  info : ProtoBufferInfo := ∅
  descriptorsNames : Finset Bytes := ∅
  descriptorsRoute : Bytes := []
  ready : Bool := false
  deriving DecidableEq

/-- An entry of the documentation, as `getOutputInputNames` reads it. -/
structure Entry where
  route : Bytes
  input : Bytes
  output : Bytes
  deriving DecidableEq

/-- The documentation of a server, in the order in which its maps are visited. -/
structure Docs where
  handlers : List Entry := []
  remotes : List Entry := []
  deriving DecidableEq

/-- `"protos.ProtoNames"`. -/
def protoNames : Bytes :=
  [112, 114, 111, 116, 111, 115, 46, 80, 114, 111, 116, 111, 78, 97, 109, 101, 115]

/-- `"protos.ProtoDescriptors"`. -/
def protoDescriptors : Bytes :=
  [112, 114, 111, 116, 111, 115, 46, 80, 114, 111, 116, 111, 68, 101, 115, 99, 114, 105, 112, 116,
    111, 114, 115]

/-- The descriptors that are known by now replace those of the command. -/
def Command.resolve (descriptors : Finmap fun _ : Bytes => Descriptor) (cmd : Command) : Command :=
  { cmd with
    inputMsgDescriptor := (descriptors.lookup cmd.input).or cmd.inputMsgDescriptor
    outputMsgDescriptor := (descriptors.lookup cmd.output).or cmd.outputMsgDescriptor }

namespace Tables

variable (t : Tables)

/-- `getDescriptorsForGeneration`, the loop over the handlers. -/
def addHandler (e : Entry) : Tables :=
  { t with
    info := t.info.insert e.route { input := e.input, output := e.output }
    descriptorsRoute :=
      if t.descriptorsRoute = [] ∧ e.input = protoNames ∧ e.output = protoDescriptors then e.route
      else t.descriptorsRoute }

/-- `getDescriptorsForGeneration`, the loop over the remotes. -/
def addRemote (e : Entry) : Tables :=
  { t with info := t.info.insert e.route { input := e.input, output := e.output } }

/-- `getDescriptorsForGeneration`, up to the request for the descriptors. -/
def addDocs (docs : Docs) : Tables :=
  docs.remotes.foldl addRemote (docs.handlers.foldl addHandler t)

/-- The messages of each file. -/
def buildProtosFromDescriptor (files : List (List Descriptor)) : Tables :=
  let descriptorsMap : Finmap fun _ : Bytes => Descriptor :=
    files.flatten.foldl (fun m d => m.insert d.fullName d) ∅
  { t with
    info := t.info.filterMapValues fun _ cmd => some (cmd.resolve descriptorsMap)
    descriptorsNames := t.descriptorsNames ∪ (files.flatten.map Descriptor.fullName).toFinset }

def newBootstrapClient : Tables :=
  { info := t.info, descriptorsRoute := t.descriptorsRoute }

def loadInfo (info : ProtoBufferInfo) : Tables := { t with info := info, ready := true }

def addPushResponse (route protoName : Bytes) : Tables :=
  if route ≠ [] ∧ protoName ≠ [] then
    { t with info := t.info.insert route { input := [], output := protoName } }
  else t

end Tables

/-! ## State -/

/-- The calls that make an attempt. -/
inductive Op where
  | connectTo
  | loadServerInfo
  deriving DecidableEq

/-- Why an attempt returns an error. -/
inductive ConnectError where
  /-- `errClientConnectionClosed`. -/
  | connectionClosed
  /-- An error of `bootstrapServerInfo`. -/
  | bootstrap
  /-- An error of `connectToContext`. -/
  | connect
  deriving DecidableEq

/-- `protoGenerationReader`. -/
structure Reader where
  id : ℕ
  generation : ℕ
  info : ProtoBufferInfo
  deriving DecidableEq

/-- A message on the channel of a reader, with the message it was made from. -/
structure Delivery where
  reader : Reader
  received : Message
  data : Bytes
  deriving DecidableEq

/-- What happened, for the record: no step depends on it. -/
structure Record where
  /-- The attempts that a `Disconnect` found active. -/
  observed : List ℕ := []
  /-- What the attempts returned. -/
  results : List (Op × ℕ × Option ConnectError) := []
  /-- The attempts for which a `Disconnect` that found them active has returned. -/
  disconnected : List ℕ := []
  /-- The messages received on each generation. -/
  received : List (ℕ × Message) := []
  delivered : List Delivery := []

structure Shared where
  /-- The embedded client. -/
  client : Connection.Shared := {}
  /-- `stateMu`: whether it is locked, and how many hold it for reading. -/
  writing : Bool := false
  reading : ℕ := 0
  tables : Tables := {}
  activeAttempt : Option ℕ := none
  reader : Option Reader := none
  /-- The attempts made so far: an attempt is known by its position. -/
  attempts : List Op := []
  /-- The attempts whose context is cancelled. -/
  cancelled : Finset ℕ := ∅
  /-- The attempts whose `done` is closed. -/
  done : Finset ℕ := ∅
  /-- The attempts of the embedded client, with the attempt whose context theirs is made from. -/
  made : List (ℕ × ℕ) := []
  /-- The readers made so far. -/
  readers : List Reader := []
  /-- The readers whose goroutine is yet to run. -/
  launched : List Reader := []
  /-- The readers whose `done` is closed. -/
  ended : Finset ℕ := ∅
  /-- `incomingChan` of the generations. -/
  incoming : List (ℕ × Message) := []
  record : Record := {}

namespace Shared

variable (s : Shared)

/-- `stateMu` can be locked. -/
def free : Bool := !s.writing && s.reading == 0

/-- `attempt.cancel()`. -/
def cancel (s : Shared) (a : ℕ) : Shared :=
  { s with
    cancelled := insert a s.cancelled
    client.cancelled :=
      s.client.cancelled ∪ ((s.made.filter fun child => child.2 = a).map Prod.fst).toFinset }

def finishConnectAttempt (a : ℕ) : Shared :=
  let s := { s with activeAttempt := if s.activeAttempt = some a then none else s.activeAttempt }
  { s.cancel a with done := insert a s.done }

/-- The first message on the `incomingChan` of the generation. -/
def incomingOn (g : ℕ) : Option (ℕ × Message) := s.incoming.find? fun m => m.1 = g

def outputDescriptorForResponse (g : ℕ) (route : Bytes) : Option Descriptor := do
  let reader ← s.reader
  if reader.generation ≠ g then none
  else
    let command ← reader.info.lookup route
    command.outputMsgDescriptor

def returns (op : Op) (a : ℕ) (err : Option ConnectError) : Shared :=
  { s with record.results := (op, a, err) :: s.record.results }

end Shared

/-! ## Program points -/

/-- How far `bootstrapServerInfo` is, with the tables of its client. -/
inductive Stage where
  | newBootstrapClient
  | connectToContext (t : Tables)
  /-- `connectAttemptCancelled`, once connected. -/
  | connected (t : Tables)
  /-- The request for the documentation. -/
  | docs (t : Tables)
  /-- The request for the descriptors. -/
  | descriptors (t : Tables)
  /-- `connectAttemptCancelled`, at the end. -/
  | built (t : Tables)
  | commitBootstrap (t : Tables)
  deriving DecidableEq

/-- On whose behalf a goroutine is inside the embedded client. -/
inductive Frame where
  /-- A loop of a generation, a timer of a context or `OnDisconnected`. -/
  | background
  /-- `connectToContext` of an attempt. -/
  | connectTo (a : ℕ)
  /-- `Disconnect`, with the attempt it found active. -/
  | disconnect (a : Option ℕ)
  /-- `disconnectGeneration` of an attempt that was cancelled. -/
  | abandon (a : ℕ)
  deriving DecidableEq

/-- Where the goroutine of a reader is: in `waitForData`, or in what follows it. -/
inductive Reading where
  | waitForData
  | received (m : Message)
  /-- `outputDescriptorForResponse`. -/
  | describe (m : Message)
  | deliverProtoMessage (m : Message) (data : Bytes)
  /-- The `select` of `deliverProtoMessage`, with the reader it found. -/
  | put (found : Reader) (m : Message) (data : Bytes)
  | exit
  | closeDone
  deriving DecidableEq

/-- Where a goroutine is. -/
inductive Point where
  /-- `beginConnectAttempt`: before it locks, then the two tests it makes. -/
  | beginConnectAttempt (op : Op)
  | activeAttempt (op : Op)
  | connectedStatus (op : Op)
  /-- `ConnectTo` looks at `ready`. -/
  | ready (a : ℕ)
  | bootstrap (op : Op) (a : ℕ) (stage : Stage)
  /-- The deferred `finishConnectAttempt` of a call that returns early. -/
  | deferred (op : Op) (a : ℕ) (err : Option ConnectError)
  /-- `connectAttemptCancelled` before the embedded client connects. -/
  | bootstrapped (a : ℕ)
  /-- Inside the embedded client. -/
  | within (frame : Frame) (p : Connection.Point)
  /-- The function that `OnDisconnected` registers, before it calls the callback. -/
  | onDisconnected (frame : Frame) (g : ℕ)
  | awaitAttempt (frame : Frame) (g : ℕ) (a : ℕ)
  /-- `connectAttemptCancelled` after the embedded client has connected. -/
  | connected (a : ℕ) (g : ℕ)
  /-- `finishConnectAttempt` after that test. -/
  | cancelled (a : ℕ) (g : ℕ)
  | startGenerationReader (a : ℕ) (g : ℕ)
  /-- `<-previous.done`. -/
  | awaitReader (a : ℕ) (g : ℕ) (previous : Reader)
  | newReader (a : ℕ) (g : ℕ)
  | finishConnectAttempt (a : ℕ) (g : ℕ)
  /-- `Disconnect`: before it locks, with the attempt it found, and when it has cancelled it. -/
  | disconnect
  | found (a : Option ℕ)
  | cancelledFound (a : Option ℕ)
  /-- `<-attempt.done` in `Disconnect`. -/
  | awaitDone (a : ℕ)
  /-- The goroutine of a reader, before it runs and then. -/
  | launch (r : Reader)
  | reader (r : Reader) (place : Reading)
  | loadInfo (info : ProtoBufferInfo)
  | addPushResponse (route protoName : Bytes)
  /-- A message arrives on a generation. -/
  | arrive (g : ℕ) (m : Message)
  deriving DecidableEq

/-- What the server and the network do. -/
inductive Choice where
  | go
  | fail
  | docs (d : Docs)
  | files (fs : List (List Descriptor))
  deriving DecidableEq

/-- The choice as the embedded client sees it. -/
def Choice.raw : Choice → Connection.Choice
  | .fail => .fail
  | _ => .go

/-! ## Steps -/

/-- How a client is set up. -/
structure Setup where
  /-- The descriptors route that `NewWithDescriptor` is given. -/
  descriptorsRoute : Bytes := []
  /-- `proto.Unmarshal` with a descriptor, then `protojson.Marshal`. -/
  decode : Descriptor → Bytes → Option Bytes
  /-- `proto.Unmarshal` of a status, then `json.Marshal`. -/
  decodeStatus : Bytes → Option Bytes

variable (s : Shared)

/-- `bootstrapServerInfo`. -/
def Stage.step (a : ℕ) : Stage → Choice → Option (Except ConnectError Stage)
  | .newBootstrapClient, _ =>
    if s.writing then none
    else some (.ok (.connectToContext s.tables.newBootstrapClient))
  | .connectToContext _, .fail => some (.error .bootstrap)
  | .connectToContext t, _ =>
    -- the client of the bootstrap publishes no generation once its context has ended
    if a ∈ s.cancelled then some (.error .bootstrap) else some (.ok (.connected t))
  | .connected t, _ =>
    if a ∈ s.cancelled then some (.error .connectionClosed) else some (.ok (.docs t))
  | .docs t, .docs d => some (.ok (.descriptors (t.addDocs d)))
  | .docs _, _ => some (.error .bootstrap)
  | .descriptors t, .files fs =>
    if fs = [] then some (.error .bootstrap)
    else some (.ok (.built (t.buildProtosFromDescriptor fs)))
  | .descriptors _, _ => some (.error .bootstrap)
  | .built t, _ =>
    if a ∈ s.cancelled then some (.error .connectionClosed)
    else some (.ok (.commitBootstrap t))
  | .commitBootstrap _, _ => none

/-- What follows `beginConnectAttempt`. -/
def begun (a : ℕ) : Op → Point
  | .connectTo => .ready a
  | .loadServerInfo => .bootstrap .loadServerInfo a .newBootstrapClient

/-- What follows `commitBootstrap`. -/
def committed (a : ℕ) : Op → Point
  | .connectTo => .bootstrapped a
  | .loadServerInfo => .deferred .loadServerInfo a none

/-- The context that the embedded client makes for an attempt. -/
def Shared.adopt : Frame → Connection.Point → Shared
  | .connectTo a, .body (.newAttempt :: _) _ =>
    { s with
      made := (s.client.guarded.attempts, a) :: s.made
      client.cancelled :=
        if a ∈ s.cancelled then insert s.client.guarded.attempts s.client.cancelled
        else s.client.cancelled }
  | _, _ => s

/-- Where a goroutine inside the embedded client goes on.  The callback of the embedded client is
the one that `OnDisconnected` registers. -/
def resume (frame : Frame) : Connection.Point → Point
  | .outside (.callback g) => .onDisconnected frame g
  | p => .within frame p

/-- The function of the embedded client returns. -/
def leave (p : Connection.Point) : Frame → Shared × Option Point
  | .background => (s, none)
  | .connectTo a =>
    match p with
    | .outside (.deferred n) =>
      -- the loops were started if and only if the generation is returned
      if n ∈ s.client.started then (s, some (.connected a n))
      else (s, some (.deferred .connectTo a (some .connect)))
    | _ => (s, some (.deferred .connectTo a (some .connect)))
  | .disconnect a => (s, a.map .awaitDone)
  | .abandon a => (s.returns .connectTo a (some .connectionClosed), none)

/-- A step inside the embedded client. -/
def stepWithin (frame : Frame) (p : Connection.Point) (choice : Choice) :
    Option (Shared × Option Point) :=
  let s := s.adopt frame p
  match Connection.step s.client p choice.raw with
  | none => none
  | some (client, some q) => some ({ s with client := client }, some (resume frame q))
  | some (client, none) => some (leave { s with client := client } p frame)

variable (setup : Setup) in
/-- One step of the goroutine of a reader. -/
def stepReader (s : Shared) (r : Reader) : Reading → Choice → Option (Shared × Option Reading)
  | .waitForData, .go =>
    (s.incomingOn r.generation).map fun m =>
      ({ s with incoming := s.incoming.erase m }, some (.received m.2))
  | .waitForData, _ =>
    if r.generation ∈ s.client.closing then some (s, some .exit) else none
  | .received m, _ =>
    if r.generation ∈ s.client.closing then some (s, some .exit)
    else if m.err then
      match setup.decodeStatus m.data with
      | none => some (s, some .waitForData)
      | some data => some (s, some (.deliverProtoMessage m data))
    else some (s, some (.describe m))
  | .describe m, _ =>
    if s.writing then none
    else
      match s.outputDescriptorForResponse r.generation m.route with
      | none => some (s, some .waitForData)
      | some descriptor =>
        match setup.decode descriptor m.data with
        | none => some (s, some .waitForData)
        | some data => some (s, some (.deliverProtoMessage m data))
  | .deliverProtoMessage m data, _ =>
    if s.writing then none
    else
      match s.reader with
      | none => some (s, some .exit)
      | some found =>
        if found.generation = r.generation then some (s, some (.put found m data))
        else some (s, some .exit)
  | .put found m data, .go =>
    some ({ s with record.delivered := ⟨found, m, data⟩ :: s.record.delivered },
      some .waitForData)
  | .put _ _ _, _ =>
    if r.generation ∈ s.client.closing then some (s, some .exit) else none
  | .exit, _ =>
    if s.free then
      some ({ s with reader := if s.reader = some r then none else s.reader }, some .closeDone)
    else none
  | .closeDone, _ => some ({ s with ended := insert r.id s.ended }, none)

variable (setup : Setup) in
/-- One step of a goroutine. -/
def step (s : Shared) : Point → Choice → Option (Shared × Option Point)
  | .beginConnectAttempt op, _ =>
    if s.free then some ({ s with writing := true }, some (.activeAttempt op)) else none
  | .activeAttempt op, _ =>
    -- `errClientConnecting`
    if s.activeAttempt.isSome then some ({ s with writing := false }, none)
    else some (s, some (.connectedStatus op))
  | .connectedStatus op, _ =>
    if s.client.connMutex then none
    -- `errClientAlreadyConnected`
    else if s.client.guarded.connected then some ({ s with writing := false }, none)
    else
      let a := s.attempts.length
      some ({ s with
        writing := false, activeAttempt := some a, attempts := s.attempts ++ [op] },
        some (begun a op))
  | .ready a, _ =>
    if s.writing then none
    else if s.tables.ready then some (s, some (.bootstrapped a))
    else some (s, some (.bootstrap .connectTo a .newBootstrapClient))
  | .bootstrap op a (.commitBootstrap t), _ =>
    if s.free then
      if s.activeAttempt ≠ some a ∨ a ∈ s.cancelled then
        some (s, some (.deferred op a (some .connectionClosed)))
      else some ({ s with tables := { t with ready := true } }, some (committed a op))
    else none
  | .bootstrap op a stage, choice =>
    match stage.step s a choice with
    | none => none
    | some (.ok stage) => some (s, some (.bootstrap op a stage))
    | some (.error err) => some (s, some (.deferred op a (some err)))
  | .deferred op a err, _ =>
    if s.free then some ((s.finishConnectAttempt a).returns op a err, none) else none
  | .bootstrapped a, choice =>
    if a ∈ s.cancelled then some (s, some (.deferred .connectTo a (some .connectionClosed)))
    else
      match choice with
      -- the address or the TLS configuration is wrong
      | .fail => some (s, some (.deferred .connectTo a (some .connect)))
      | _ => some (s, some (.within (.connectTo a) (.outside (.lock .connect))))
  | .within frame p, choice => stepWithin s frame p choice
  | .onDisconnected frame g, _ =>
    if s.writing then none
    else
      match s.activeAttempt with
      | none => some (s, some (.within frame (.outside (.callback g))))
      | some a => some (s, some (.awaitAttempt frame g a))
  | .awaitAttempt frame g a, _ =>
    if a ∈ s.done then some (s, some (.within frame (.outside (.callback g)))) else none
  | .connected a g, _ =>
    if a ∈ s.cancelled then some (s, some (.cancelled a g))
    else some (s, some (.startGenerationReader a g))
  | .cancelled a g, _ =>
    if s.free then
      some (s.finishConnectAttempt a, some (.within (.abandon a) (.outside (.holder g))))
    else none
  | .startGenerationReader a g, _ =>
    if s.writing then none
    else
      match s.reader with
      | none => some (s, some (.newReader a g))
      | some previous =>
        if previous.generation = g then some (s, some (.newReader a g))
        else some (s, some (.awaitReader a g previous))
  | .awaitReader a g previous, _ =>
    if previous.id ∈ s.ended then some (s, some (.newReader a g)) else none
  | .newReader a g, _ =>
    if s.free then
      let r : Reader := ⟨s.readers.length, g, s.tables.info⟩
      some ({ s with
        reader := some r, readers := s.readers ++ [r], launched := r :: s.launched },
        some (.finishConnectAttempt a g))
    else none
  | .finishConnectAttempt a g, _ =>
    if s.free then
      if a ∈ s.cancelled then
        some (s.finishConnectAttempt a, some (.within (.abandon a) (.outside (.holder g))))
      else some ((s.finishConnectAttempt a).returns .connectTo a none, none)
    else none
  | .disconnect, _ =>
    if s.writing then none
    else
      some ({ s with
        reading := s.reading + 1
        record.observed := s.activeAttempt.elim s.record.observed (· :: s.record.observed) },
        some (.found s.activeAttempt))
  | .found a, _ => some (a.elim s s.cancel, some (.cancelledFound a))
  | .cancelledFound a, _ =>
    some ({ s with reading := s.reading - 1 },
      some (.within (.disconnect a) (.outside (.lock .disconnect))))
  | .awaitDone a, _ =>
    if a ∈ s.done then
      some ({ s with record.disconnected := a :: s.record.disconnected }, none)
    else none
  | .launch r, _ =>
    if r ∈ s.launched then
      some ({ s with launched := s.launched.erase r }, some (.reader r .waitForData))
    else none
  | .loadInfo info, _ =>
    if s.free then some ({ s with tables := s.tables.loadInfo info }, none) else none
  | .addPushResponse route protoName, _ =>
    if s.free then some ({ s with tables := s.tables.addPushResponse route protoName }, none)
    else none
  | .arrive g m, _ =>
    if g ∈ s.client.started then
      some ({ s with
        incoming := s.incoming ++ [(g, m)], record.received := (g, m) :: s.record.received },
        none)
    else none
  | .reader r place, choice =>
    (stepReader setup s r place choice).map fun next => (next.1, next.2.map (.reader r))

/-- Where a goroutine starts. -/
def entry : Point → Bool
  | .beginConnectAttempt _ | .disconnect | .launch _ | .loadInfo _ | .addPushResponse _ _
  | .arrive _ _ => true
  | .within .background (.outside (.lock (.onDisconnected _))) => true
  | .within .background (.outside (.holder _)) => true
  | .within .background (.outside (.expire _)) => true
  | _ => false

variable (setup : Setup) in
/-- The client: its methods are called at any time, messages arrive, contexts end and generations
are closed at any time, and the goroutine of a reader starts once the reader is made. -/
def protoClient : Program Shared Point Choice where
  start := { tables.descriptorsRoute := setup.descriptorsRoute }
  main := 0
  entry := entry
  step := step setup

end Pitaya.Client.Proto
