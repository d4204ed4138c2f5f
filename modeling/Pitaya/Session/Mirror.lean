import Pitaya.Session.Maps

/-!
# The encoded copy of the custom data

A session keeps its custom data as a map and as JSON (`session/session.go`).  Handlers read the
map; requests to other servers and the cluster store get the JSON.  Every operation assigns the
map first and encodes it then (`updateEncodedData`).

* `Keeps` — after an operation the JSON is that of the map, and a failed one has changed neither.
* `Faithful` — what an operation can encode, and decode in the record that it loads.
* `keeps_iff_faithful` — a sequence of operations keeps the copy exactly if all of them are
  faithful.
* `stale_copy` — `Set` of a value that cannot be encoded.
-/

namespace Pitaya

open Transition Session Option List

namespace Session

variable {V : Type}

/-- The encoded data decodes to the data; nil and empty maps are the same. -/
def Mirrors (codec : Codec V) (s : Session V) : Prop :=
  ∃ m, decodeSessionData codec s.encodedData = .ok m ∧ m.getD ∅ = s.getData

end Session

namespace SessionOp

variable {V : Type} (codec : Codec V)

/-- The error an operation returns.  `Clear` returns none. -/
def error (s : Session V) : SessionOp V → Option SessionError
  | .set key value =>
    match s.set codec key value with
    | .ok r => r.2
    | .crash => none
  | .remove key => (s.remove codec key).2
  | .setData data => (s.setData codec data).2
  | .setDataEncoded encodedData => (s.setDataEncoded codec encodedData).2
  | .initialFromCluster reply => (s.initialFromCluster codec reply).2
  | .obtainFromCluster reply => (s.obtainFromCluster codec reply).2
  | .clear | .setBackends _ | .setBackendID _ _ | .removeBackendID _ => none

/-- The session after an operation.  The assignment to a nil map that crashes is the first thing
an operation does, and whoever called it recovers. -/
def after (s : Session V) (op : SessionOp V) : Session V :=
  match op.apply codec s with
  | .ok s' => s'
  | .crash => s

/-- The data map an operation assigns. -/
def assigned (s : Session V) : SessionOp V → Option (StringMap V)
  | .set key value => s.data.map fun m => some (m.insert key value)
  | .remove key => some (s.data.map fun m => m.erase key)
  | .setData data => some (some (data.getD ∅))
  | .setDataEncoded encodedData =>
    if encodedData = [] then none
    else (decodeSessionData codec encodedData).toOption.map fun data => some (data.getD ∅)
  | .clear => some (some ∅)
  | .initialFromCluster reply => (replyOverlay codec reply).data
  | .obtainFromCluster reply => (replyOverlay codec reply).data
  | .setBackends _ | .setBackendID _ _ | .removeBackendID _ => none

/-- After an operation the encoded data mirrors the data, and an operation that returns an error
has changed neither. -/
structure Keeps (s : Session V) (op : SessionOp V) : Prop where
  mirrors : (op.after codec s).Mirrors codec
  unchanged : op.error codec s ≠ none →
    (op.after codec s).data = s.data ∧ (op.after codec s).encodedData = s.encodedData

/-- The encoding of the map can be read back; a map without one is that of the session. -/
def Survives (s : Session V) (data : StringMap V) : Prop :=
  match codec.marshal data with
  | .ok b => ∃ m, decodeSessionData codec b = .ok m ∧ m.getD ∅ = data.getD ∅
  | .error _ => data.getD ∅ = s.getData

/-- The map that is assigned can be encoded, and so can be decoded the backends of the record that
it comes from.  `Clear` does not mind. -/
def Accepts (data : StringMap V) : SessionOp V → Prop
  | .clear => True
  | .initialFromCluster reply | .obtainFromCluster reply =>
    (∃ b, codec.marshal data = .ok b) ∧ ∀ entries, reply = .fields entries →
      ∀ v, (fieldKeyBackends, v) ∈ entries → ∃ m, decodeSessionData codec v = .ok m
  | _ => ∃ b, codec.marshal data = .ok b

/-- **The condition.**  The map that an operation assigns is accepted and survives the codec, or it
is the one that the session has. -/
def Faithful (s : Session V) (op : SessionOp V) : Prop :=
  ∀ data, op.assigned codec s = some data →
    (op.Accepts codec data ∧ Survives codec s data) ∨
      (data = s.data ∧ ∀ b, codec.marshal data = .ok b → b = s.encodedData)

end SessionOp

/-- Sequences of operations on a session; a record of the store is a map. -/
def dataOps {V : Type} (codec : Codec V) (s : Session V) : System (Session V) (SessionOp V) where
  start := s
  step s op := if op.FromStore then some (op.after codec s) else none

/-! ## What an operation assigns -/

section

variable {V : Type} {codec : Codec V}

/-- The map `m` is assigned and encoded, if there is one. -/
structure Assigns (codec : Codec V) (m : Option (StringMap V)) (s s' : Session V) : Prop where
  data : s'.data = m.getD s.data
  encodedData : s'.encodedData =
    (m.bind fun data => (codec.marshal data).toOption).getD s.encodedData

theorem Assigns.none (codec : Codec V) {s s' : Session V} (hdata : s'.data = s.data)
    (hencoded : s'.encodedData = s.encodedData) : Assigns codec none s s' :=
  ⟨hdata, hencoded⟩

theorem assigns_updateEncodedData (codec : Codec V) (s : Session V) (data : StringMap V) :
    Assigns codec (some data) s (updateEncodedData codec { s with data := data }).1 := by
  rw [updateEncodedData_eq]
  constructor <;> rfl

theorem fieldOverlay_of_ne_data (codec : Codec V) {field : Bytes} (h : field ≠ fieldKeyData)
    (v : Bytes) :
    (fieldOverlay codec field v).data = none ∧ (fieldOverlay codec field v).encodedData = none := by
  unfold fieldOverlay
  split
  · split <;> exact ⟨rfl, rfl⟩
  · exact ⟨rfl, rfl⟩

theorem recordOverlay_of_notMem (codec : Codec V) {entries : List (Bytes × Bytes)}
    (h : fieldKeyData ∉ entries.map Prod.fst) :
    (recordOverlay codec entries).data = none ∧
    (recordOverlay codec entries).encodedData = none := by
  induction entries with
  | nil => exact ⟨rfl, rfl⟩
  | cons entry entries ih =>
    obtain ⟨field, v⟩ := entry
    rw [map_cons, mem_cons, not_or] at h
    have hfield := fieldOverlay_of_ne_data codec (Ne.symm h.1) v
    rw [recordOverlay]
    split
    · exact hfield
    · rw [Overlay.andThen, hfield.1, hfield.2, (ih h.2).1, (ih h.2).2]
      exact ⟨rfl, rfl⟩

theorem fieldOverlay_encodedData (field v : Bytes) :
    (fieldOverlay codec field v).encodedData =
      (fieldOverlay codec field v).data.bind fun data => (codec.marshal data).toOption := by
  unfold fieldOverlay
  split
  · split <;> rfl
  split
  · split <;> rfl
  · rfl

variable {entries : List (Bytes × Bytes)}

/-- A record has one data field, so the encoding it writes is that of the map it writes. -/
theorem recordOverlay_encodedData (h : (entries.map Prod.fst).Nodup) :
    (recordOverlay codec entries).encodedData =
      (recordOverlay codec entries).data.bind fun data => (codec.marshal data).toOption := by
  induction entries with
  | nil => rfl
  | cons entry entries ih =>
    obtain ⟨field, v⟩ := entry
    rw [map_cons, nodup_cons] at h
    rw [recordOverlay]
    split
    · exact fieldOverlay_encodedData field v
    by_cases hfield : field = fieldKeyData
    · obtain ⟨hdata, hencoded⟩ := recordOverlay_of_notMem codec (hfield ▸ h.1)
      dsimp only [Overlay.andThen]
      rw [hdata, hencoded, none_or, none_or]
      exact fieldOverlay_encodedData field v
    · obtain ⟨hdata, hencoded⟩ := fieldOverlay_of_ne_data codec hfield v
      dsimp only [Overlay.andThen]
      rw [hdata, hencoded, or_none, or_none]
      exact ih h.2

theorem replyOverlay_encodedData {reply : HgetallReply} (h : reply.IsMap) :
    (replyOverlay codec reply).encodedData =
      (replyOverlay codec reply).data.bind fun data => (codec.marshal data).toOption := by
  cases reply with
  | fields => exact recordOverlay_encodedData h
  | noRows => rfl
  | failed => rfl

/-- **What an operation changes**: the map it assigns and, if that can be encoded, the encoded
data. -/
theorem SessionOp.assigns (codec : Codec V) {op : SessionOp V} (hstore : op.FromStore)
    (s : Session V) : Assigns codec (op.assigned codec s) s (op.after codec s) := by
  cases op with
  | set =>
    unfold after apply assigned Session.set
    cases s.data with
    | none => exact .none codec rfl rfl
    | some => exact assigns_updateEncodedData codec s _
  | remove | setData => exact assigns_updateEncodedData codec s _
  | setDataEncoded encodedData =>
    unfold after apply assigned Session.setDataEncoded
    dsimp only
    split
    · exact .none codec rfl rfl
    cases decodeSessionData codec encodedData with
    | error => exact .none codec rfl rfl
    | ok => exact assigns_updateEncodedData codec s _
  | clear =>
    have h := assigns_updateEncodedData codec { s with uid := [], uidInt := 0 } (some ∅)
    exact ⟨h.data, h.encodedData⟩
  | setBackends | removeBackendID => exact .none codec rfl rfl
  | setBackendID =>
    unfold after apply Session.setBackendID
    cases s.backends <;> exact .none codec rfl rfl
  | initialFromCluster reply =>
    have h : (replyOverlay codec reply).Covers s (s.initialFromCluster codec reply).1 := by
      rw [initialFromCluster_eq]
      exact Overlay.covers_layOver _ s
    exact ⟨h.data, h.encodedData.trans (by rw [replyOverlay_encodedData hstore]; rfl)⟩
  | obtainFromCluster reply =>
    have h := (s.obtainFromCluster_covers codec reply).1
    exact ⟨h.data, h.encodedData.trans (by rw [replyOverlay_encodedData hstore]; rfl)⟩

/-! ## What an operation fails with -/

variable {data : StringMap V}

theorem dataError_eq_none :
    dataError codec data = none ↔ ∃ b, codec.marshal data = .ok b := by
  unfold dataError
  cases codec.marshal data <;> simp

theorem recordError_eq_none :
    recordError codec entries = none ↔ ∀ e ∈ entries, fieldError codec e.1 e.2 = none := by
  induction entries with
  | nil => exact iff_of_true rfl (forall_mem_nil _)
  | cons entry entries ih => rw [recordError, or_eq_none_iff, ih, forall_mem_cons]

/-- The data of a record come from its data field. -/
theorem mem_of_recordOverlay (h : (recordOverlay codec entries).data = some data) :
    ∃ v, (fieldKeyData, v) ∈ entries ∧ decodeSessionData codec v = .ok data := by
  induction entries with
  | nil => cases h
  | cons entry entries ih =>
    obtain ⟨field, v⟩ := entry
    have hfirst (h : (fieldOverlay codec field v).data = some data) :
        ∃ v', (fieldKeyData, v') ∈ (field, v) :: entries ∧
          decodeSessionData codec v' = .ok data := by
      by_cases hfield : field = fieldKeyData
      · subst hfield
        refine ⟨v, mem_cons_self, ?_⟩
        rw [fieldOverlay, if_neg (by decide), if_pos rfl] at h
        split at h
        · cases h
        · next hdecode => rw [hdecode, some.inj h]
      · rw [(fieldOverlay_of_ne_data codec hfield v).1] at h
        cases h
    rw [recordOverlay] at h
    split at h
    · exact hfirst h
    · rcases or_eq_some_iff.mp h with hrest | ⟨-, h⟩
      · obtain ⟨v', hmem, hdecode⟩ := ih hrest
        exact ⟨v', mem_cons_of_mem _ hmem, hdecode⟩
      · exact hfirst h

/-- A record whose data are taken fails in their encoding or in its backends. -/
theorem recordError_iff
    (hmap : (entries.map Prod.fst).Nodup) (h : (recordOverlay codec entries).data = some data) :
    recordError codec entries = none ↔ (∃ b, codec.marshal data = .ok b) ∧
      ∀ v, (fieldKeyBackends, v) ∈ entries → ∃ m, decodeSessionData codec v = .ok m := by
  obtain ⟨v, hmem, hdecode⟩ := mem_of_recordOverlay h
  have hdata : fieldError codec fieldKeyData v = dataError codec data := by
    rw [fieldError, if_neg (by decide), if_pos rfl, hdecode]
  have hbackends (v : Bytes) : fieldError codec fieldKeyBackends v = none ↔
      ∃ m, decodeSessionData codec v = .ok m := by
    rw [fieldError, if_pos rfl]
    cases decodeSessionData codec v <;> simp
  rw [recordError_eq_none, ← dataError_eq_none, ← hdata]
  constructor
  · exact fun hall => ⟨hall _ hmem, fun v' hv' => (hbackends v').mp (hall _ hv')⟩
  · rintro ⟨hencodes, hdecodes⟩ ⟨field, v'⟩ hentry
    by_cases hfield : field = fieldKeyBackends
    · subst hfield
      exact (hbackends v').mpr (hdecodes v' hentry)
    by_cases hfield' : field = fieldKeyData
    · subst hfield'
      obtain ⟨-, rfl⟩ := Prod.mk.inj (inj_on_of_nodup_map hmap hentry hmem rfl)
      exact hencodes
    · exact (fieldOverlay_of_ne codec v' hfield hfield').2

variable {s : Session V} {op : SessionOp V}

/-- **An operation that has assigned a map** returns no error if the map is accepted. -/
theorem SessionOp.error_eq_none_iff {data : StringMap V} (hstore : op.FromStore)
    (h : op.assigned codec s = some data) : op.error codec s = none ↔ op.Accepts codec data := by
  have hupdate (s : Session V) : (updateEncodedData codec { s with data := data }).2 = none ↔
      ∃ b, codec.marshal data = .ok b := by
    rw [updateEncodedData_eq, dataError_eq_none]
  cases op with
  | set =>
    obtain ⟨m, hm, rfl⟩ := map_eq_some_iff.mp h
    unfold error Session.set
    rw [hm]
    exact hupdate s
  | remove | setData =>
    obtain rfl := some.inj h
    exact hupdate s
  | setDataEncoded encodedData =>
    obtain ⟨hne, h⟩ := ite_none_left_eq_some.mp h
    obtain ⟨m, hm, rfl⟩ := map_eq_some_iff.mp h
    dsimp only [error, Session.setDataEncoded]
    rw [if_neg hne]
    cases hdecode : decodeSessionData codec encodedData with
    | error => rw [hdecode] at hm; cases hm
    | ok m' =>
      rw [hdecode] at hm
      obtain rfl := some.inj hm
      exact hupdate s
  | clear => exact iff_of_true rfl trivial
  | setBackends | setBackendID | removeBackendID => cases h
  | initialFromCluster reply =>
    rw [error, initialFromCluster_eq]
    cases reply with
    | failed | noRows => cases h
    | fields entries =>
      refine (recordError_iff hstore h).trans (and_congr_right fun _ => ?_)
      simp only [HgetallReply.fields.injEq, forall_eq']
  | obtainFromCluster reply =>
    rw [error, (s.obtainFromCluster_covers codec reply).2]
    cases reply with
    | failed | noRows => cases h
    | fields entries =>
      cases entries with
      | nil => cases h
      | cons entry entries =>
        refine (recordError_iff hstore h).trans (and_congr_right fun _ => ?_)
        simp only [HgetallReply.fields.injEq, forall_eq']

/-! ## Sequences of operations -/

variable {s' : Session V} {data : StringMap V}

/-- A session with the same data and the same encoding mirrors its data as well. -/
theorem Session.Mirrors.of_eq (h : s.Mirrors codec) (hdata : s'.data = s.data)
    (hencoded : s'.encodedData = s.encodedData) : s'.Mirrors codec := by
  obtain ⟨m, hdecode, hm⟩ := h
  refine ⟨m, by rw [hencoded, hdecode], ?_⟩
  rw [hm, getData, getData, hdata]

/-- The copy of a map that was assigned is right if the map survives the codec. -/
theorem Assigns.mirrors_iff (h : Assigns codec (some data) s s') (hs : s.Mirrors codec) :
    s'.Mirrors codec ↔ SessionOp.Survives codec s data := by
  obtain ⟨m, hdecode, hm⟩ := hs
  have hdata : s'.getData = data.getD ∅ := congrArg (getD · ∅) h.data
  have hencoded := h.encodedData
  rw [bind_some] at hencoded
  unfold Session.Mirrors SessionOp.Survives
  rw [hdata]
  cases hmarshal : codec.marshal data with
  | error =>
    -- the old encoding is left, and decodes to the old data
    have hencoded : s'.encodedData = s.encodedData := by rw [hencoded, hmarshal]; rfl
    rw [hencoded, hdecode]
    constructor
    · rintro ⟨m', hm', heq⟩
      obtain rfl := Except.ok.inj hm'
      exact heq.symm.trans hm
    · exact fun heq => ⟨m, rfl, hm.trans heq.symm⟩
  | ok b =>
    have hencoded : s'.encodedData = b := by rw [hencoded, hmarshal]; rfl
    rw [hencoded]

theorem Assigns.unchanged_iff (h : Assigns codec (some data) s s') :
    (s'.data = s.data ∧ s'.encodedData = s.encodedData) ↔
      data = s.data ∧ ∀ b, codec.marshal data = .ok b → b = s.encodedData := by
  have hdata : s'.data = data := h.data
  rw [hdata, h.encodedData, bind_some]
  refine and_congr_right fun _ => ?_
  cases codec.marshal data with
  | error => exact iff_of_true rfl nofun
  | ok => simp [Except.toOption]

/-- **An operation** keeps the copy exactly if it is faithful. -/
theorem SessionOp.keeps_iff (hstore : op.FromStore) (h : s.Mirrors codec) :
    op.Keeps codec s ↔ op.Faithful codec s := by
  have hassigns := SessionOp.assigns codec hstore s
  unfold Faithful
  cases hassigned : op.assigned codec s with
  | none =>
    rw [hassigned] at hassigns
    refine iff_of_true ⟨?_, fun _ => ⟨hassigns.data, hassigns.encodedData⟩⟩ nofun
    exact h.of_eq hassigns.data hassigns.encodedData
  | some =>
    rw [hassigned] at hassigns
    simp only [some.injEq, forall_eq', ← hassigns.mirrors_iff h, ← hassigns.unchanged_iff,
      ← SessionOp.error_eq_none_iff hstore hassigned]
    constructor
    · rintro ⟨hmirrors, hunchanged⟩
      by_cases herror : op.error codec s = none
      · exact .inl ⟨herror, hmirrors⟩
      · exact .inr (hunchanged herror)
    · rintro (⟨herror, hmirrors⟩ | hunchanged)
      · exact ⟨hmirrors, fun hne => absurd herror hne⟩
      · exact ⟨h.of_eq hunchanged.1 hunchanged.2, fun _ => hunchanged⟩

end

/-- **The encoded data mirrors the data after every operation, and a failed one changes nothing, if
and only if** every operation of the sequence that assigns a data map assigns one that can be
encoded and read back, with backends beside it that can be decoded, or one that the session has. -/
theorem keeps_iff_faithful {V : Type} (codec : Codec V) {s s' : Session V} (h : s.Mirrors codec)
    {ops : List (SessionOp V)} (hrun : (dataOps codec s).run ops = some s') :
    (dataOps codec s).Meets (fun s op => op.Keeps codec s) ops ↔
      (dataOps codec s).Meets (fun s op => op.Faithful codec s) ops := by
  have hstep {t t' : Session V} {op : SessionOp V} (h : (dataOps codec s).step t op = some t') :
      op.FromStore ∧ op.after codec t = t' := by
    dsimp only [dataOps] at h
    split at h
    · next hstore => exact ⟨hstore, Option.some.inj h⟩
    · cases h
  refine System.meets_congr h ?_ ?_ hrun
  · rintro t op t' - hkeeps h
    obtain ⟨-, rfl⟩ := hstep h
    exact hkeeps.mirrors
  · intro t op t' hmirrors h
    exact SessionOp.keeps_iff (hstep h).1 hmirrors

/-! ## A value that cannot be encoded -/

/-- JSON, where `true` is itself and `false` stands for a channel. -/
def channelCodec : Codec Bool := .small (fun _ => none) (fun _ => [116, 114, 117, 101])
    [([107], true)]

theorem mirrors_new : ({} : Session Bool).Mirrors channelCodec := ⟨none, rfl, rfl⟩

/-- `Set` of a value that can be encoded, and `SetData` of none. -/
theorem keeps_iff_faithful_set :
    (dataOps channelCodec {}).Meets (fun s op => op.Keeps channelCodec s)
      [.set [107] true, .setData none] := by
  refine (keeps_iff_faithful channelCodec mirrors_new rfl).mpr
    (System.meets_of_meetsFrom ⟨?_, ?_, trivial⟩)
  · rintro data ⟨⟩
    exact .inl ⟨⟨[123, 34, 107, 34, 58, 116, 114, 117, 101, 125], rfl⟩, _, rfl, rfl⟩
  · rintro data ⟨⟩
    exact .inl ⟨⟨[123, 125], rfl⟩, _, rfl, rfl⟩

/-- `Set` returns an error; the handlers see the new value, and other servers get the old data. -/
theorem stale_copy :
    ∃ s e, (dataOps channelCodec {}).run [.set [107] false] = some s ∧
      (SessionOp.set [107] false).error channelCodec {} = some e ∧
      s.getData.lookup [107] = some false ∧ s.encodedData = [] ∧ ¬ s.Mirrors channelCodec ∧
      ¬ (dataOps channelCodec {}).Meets (fun s op => op.Keeps channelCodec s)
        [.set [107] false] := by
  have hmirrors : ¬ ((SessionOp.set [107] false).after channelCodec {}).Mirrors channelCodec := by
    rintro ⟨m, hdecode, hm⟩
    obtain rfl := Except.ok.inj hdecode
    exact absurd (congrArg Finmap.size hm) (by decide +kernel)
  refine ⟨_, _, rfl, rfl, by decide +kernel, rfl, hmirrors, fun h => hmirrors ?_⟩
  exact (h [] _ [] _ rfl rfl).mirrors

end Pitaya
