import Pitaya.Router

/-!
# Session affinity of routing

`defaultRoute` of `router/router.go` draws a server of the type at random, and what it does next
depends on the flags of that server.  Here the servers of the type have the same flags, and the
consistent hash is an arbitrary function.

* `route` — `defaultRoute` from the draw to the result.
* `Affine` — where a session is routed to, and that the draw makes no difference.
* `forbidden_names_draw` — the same session gets two errors.
-/

namespace Pitaya.Router

open Cluster Option Finmap

/-- The servers are of one type and have the same flags. -/
structure Uniform (svType : Bytes) (frontend sticky : Bool) (servers : Servers) : Prop where
  typ : ∀ id sv, servers.lookup id = some sv → sv.typ = svType
  frontend : ∀ id sv, servers.lookup id = some sv → sv.frontend = frontend
  sticky : ∀ id sv, servers.lookup id = some sv → sv.sessionStickiness = sticky

/-- The server can be drawn. -/
def Drawn (servers : Servers) (server : Server) : Prop := ∃ id, servers.lookup id = some server

/-- `defaultRoute` with a session, where `server` is drawn and `ring` is `GetConsistentHashNode` of
the type. -/
def route (svType : Bytes) (servers : Servers) (session : Session)
    (ring : Bytes → Except Discovery.NodeNotFound Bytes) (server : Server) :
    Except RouteError Server :=
  match defaultRoute svType servers (some session) server with
  | .returns result => result
  | .asks session key => resume svType servers session server (ring key)

/-- The error without the id of the server that was drawn. -/
def RouteError.withoutDraw : RouteError → RouteError
  | .forbiddenServerOfSession svType _ uid => .forbiddenServerOfSession svType [] uid
  | .lookup e => .lookup e
  | .serverNotFound uid svType svID => .serverNotFound uid svType svID

/-- Where a session is routed to. -/
structure Affine (svType : Bytes) (frontend sticky : Bool) (servers : Servers) (session : Session)
    (ring : Bytes → Except Discovery.NodeNotFound Bytes) : Prop where
  /-- A frontend type: to the session's frontend. -/
  toFrontend : frontend = true → ∀ draw, Drawn servers draw → ∀ sv,
    route svType servers session ring draw = .ok sv ↔
      session.frontendID ≠ [] ∧ servers.lookup session.frontendID = some sv
  /-- A sticky type: to the backend the session is bound to. -/
  toBackend : frontend = false → sticky = true → ∀ draw, Drawn servers draw → ∀ sv,
    route svType servers session ring draw = .ok sv ↔
      session.backendID svType ≠ [] ∧ servers.lookup (session.backendID svType) = some sv
  /-- A stateless type: to the node of the uid. -/
  toNode : frontend = false → sticky = false → session.uid ≠ [] → ∀ node,
    ring session.uid = .ok node → ∀ draw, Drawn servers draw → ∀ sv,
    route svType servers session ring draw = .ok sv ↔ node ≠ [] ∧ servers.lookup node = some sv
  /-- In these cases the draw makes no difference, up to the id in an error. -/
  sameForAll : (frontend = true ∨ sticky = true ∨
      session.uid ≠ [] ∧ ∃ node, ring session.uid = .ok node) →
    ∀ draw draw', Drawn servers draw → Drawn servers draw' →
      (route svType servers session ring draw).mapError RouteError.withoutDraw =
        (route svType servers session ring draw').mapError RouteError.withoutDraw
  /-- Without an error there is a server of the map. -/
  fromMap : ∀ draw, Drawn servers draw → ∀ sv, route svType servers session ring draw = .ok sv →
    Drawn servers sv

section

variable {svType : Bytes} {servers : Servers} {session : Session} {draw draw' sv : Server}
  {ring : Bytes → Except Discovery.NodeNotFound Bytes}

theorem find_eq_ok {svId : Bytes} :
    find svType servers session draw svId = .ok sv ↔ svId ≠ [] ∧ servers.lookup svId = some sv := by
  unfold find
  by_cases hid : svId = []
  · simp [hid]
  · rw [if_pos hid]
    cases servers.lookup svId <;> simp [hid]

theorem find_withoutDraw (htyp : draw.typ = draw'.typ) (svId : Bytes) :
    (find svType servers session draw svId).mapError RouteError.withoutDraw =
      (find svType servers session draw' svId).mapError RouteError.withoutDraw := by
  unfold find
  split
  · cases servers.lookup svId <;> rfl
  · rw [htyp]
    rfl

/-- The id `defaultRoute` looks for, for a server drawn with these flags; none if the draw is
taken. -/
def lookedFor (svType : Bytes) (frontend sticky : Bool) (session : Session)
    (ring : Bytes → Except Discovery.NodeNotFound Bytes) : Option Bytes :=
  if frontend then some session.frontendID
  else if sticky then some (session.backendID svType)
  else session.hashKey.bind fun key => (ring key).toOption

/-- **Routing in a uniform map**: the server under the id that is looked for, or the draw. -/
theorem route_eq {frontend sticky : Bool} (h : Uniform svType frontend sticky servers)
    (hdraw : Drawn servers draw) :
    route svType servers session ring draw =
      match lookedFor svType frontend sticky session ring with
      | some svId => find svType servers session draw svId
      | none => .ok draw := by
  obtain ⟨id, hlookup⟩ := hdraw
  unfold route defaultRoute lookedFor
  rw [h.frontend id draw hlookup, h.sticky id draw hlookup, h.typ id draw hlookup]
  cases frontend with
  | true => rfl
  | false =>
    cases sticky with
    | true => rfl
    | false =>
      simp only [Bool.false_eq_true, if_false]
      cases session.hashKey with
      | none => rfl
      | some key =>
        dsimp only [bind_some]
        cases ring key <;> rfl

end

/-- **Session affinity**, in every map of servers of one type with the same flags, for every
session, every answer of the consistent hash and every draw. -/
theorem affine_of_uniform {svType : Bytes} {frontend sticky : Bool} {servers : Servers}
    (h : Uniform svType frontend sticky servers) (session : Session)
    (ring : Bytes → Except Discovery.NodeNotFound Bytes) :
    Affine svType frontend sticky servers session ring where
  toFrontend hfrontend draw hdraw sv := by
    rw [route_eq h hdraw, lookedFor, if_pos hfrontend]
    exact find_eq_ok
  toBackend hfrontend hsticky draw hdraw sv := by
    subst hfrontend
    rw [route_eq h hdraw, lookedFor, if_neg Bool.false_ne_true, if_pos hsticky]
    exact find_eq_ok
  toNode hfrontend hsticky huid node hnode draw hdraw sv := by
    subst hfrontend hsticky
    have hkey : session.hashKey = some session.uid := if_pos huid
    rw [route_eq h hdraw, lookedFor, if_neg Bool.false_ne_true, if_neg Bool.false_ne_true, hkey,
      Option.bind_some, hnode]
    exact find_eq_ok
  sameForAll hcase draw draw' hdraw hdraw' := by
    have hlooked : ∃ svId, lookedFor svType frontend sticky session ring = some svId := by
      unfold lookedFor
      split
      · exact ⟨_, rfl⟩
      split
      · exact ⟨_, rfl⟩
      next hfrontend hsticky =>
      obtain ⟨huid, node, hnode⟩ := (hcase.resolve_left hfrontend).resolve_left hsticky
      have hkey : session.hashKey = some session.uid := if_pos huid
      exact ⟨node, by rw [hkey, Option.bind_some, hnode]; rfl⟩
    obtain ⟨svId, hsvId⟩ := hlooked
    have htyp : draw.typ = draw'.typ := by
      obtain ⟨id, hlookup⟩ := hdraw
      obtain ⟨id', hlookup'⟩ := hdraw'
      rw [h.typ id draw hlookup, h.typ id' draw' hlookup']
    rw [route_eq h hdraw, route_eq h hdraw', hsvId]
    exact find_withoutDraw htyp svId
  fromMap draw hdraw sv hroute := by
    rw [route_eq h hdraw] at hroute
    split at hroute
    · exact ⟨_, (find_eq_ok.mp hroute).2⟩
    · obtain rfl := Except.ok.inj hroute
      exact hdraw

/-- **What `GetServersByType` returns** is of one type, and none of the ids is empty. -/
theorem uniform_of_read {cfg : Config} {sd : Discovery} (h : Sound cfg sd) {svType : Bytes}
    {servers : Servers} (hread : sd.getServersByType svType = .ok servers) {frontend sticky : Bool}
    (hfrontend : ∀ id sv, servers.lookup id = some sv → sv.frontend = frontend)
    (hsticky : ∀ id sv, servers.lookup id = some sv → sv.sessionStickiness = sticky) :
    Uniform svType frontend sticky servers ∧
      ∀ id sv, servers.lookup id = some sv → id = sv.id ∧ id ≠ [] := by
  refine ⟨⟨fun id sv hlookup => (h.registered hread hlookup).1, hfrontend, hsticky⟩, ?_⟩
  intro id sv hlookup
  have htyped : sd.typed svType id = some sv :=
    getServersByType_lookup.mp ⟨servers, hread, hlookup⟩
  obtain ⟨hbyID, -⟩ := (h.indexed.byType svType id sv).mp htyped
  have hkey : sv.id = id := h.indexed.keyed id sv hbyID
  exact ⟨hkey.symm, hkey ▸ h.named id sv hbyID⟩

/-! ## Two frontends -/

/-- The frontends "1" and "2" of the type "f". -/
def twoFrontends : Servers :=
  ((∅ : Servers).insert [49] { id := [49], typ := [102], frontend := true }).insert [50]
    { id := [50], typ := [102], frontend := true }

theorem uniform_twoFrontends : Uniform [102] true false twoFrontends := by
  have hserver (id : Bytes) (sv : Server) (h : twoFrontends.lookup id = some sv) :
      sv = { id := [49], typ := [102], frontend := true } ∨
        sv = { id := [50], typ := [102], frontend := true } := by
    unfold twoFrontends at h
    by_cases htwo : id = [50]
    · rw [htwo, lookup_insert] at h
      exact .inr (some.inj h).symm
    rw [lookup_insert_of_ne _ htwo] at h
    by_cases hone : id = [49]
    · rw [hone, lookup_insert] at h
      exact .inl (some.inj h).symm
    · rw [lookup_insert_of_ne _ hone, lookup_empty] at h
      cases h
  refine ⟨fun id sv h => ?_, fun id sv h => ?_, fun id sv h => ?_⟩ <;>
    obtain rfl | rfl := hserver id sv h <;> rfl

/-- A session of the frontend "2" is routed there whichever is drawn. -/
theorem affine_twoFrontends :
    route [102] twoFrontends { frontendID := [50] } (fun _ => .ok [49])
      { id := [49], typ := [102], frontend := true } =
        .ok { id := [50], typ := [102], frontend := true } := by
  have haffine := affine_of_uniform uniform_twoFrontends { frontendID := [50] } (fun _ => .ok [49])
  exact (haffine.toFrontend rfl _ ⟨[49], by decide +kernel⟩ _).mpr ⟨nofun, by decide +kernel⟩

/-- A session without a frontend is refused, and the error tells which server was drawn. -/
theorem forbidden_names_draw :
    ∃ draw draw', Drawn twoFrontends draw ∧ Drawn twoFrontends draw' ∧
      route [102] twoFrontends {} (fun _ => .ok [49]) draw ≠
        route [102] twoFrontends {} (fun _ => .ok [49]) draw' :=
  ⟨{ id := [49], typ := [102], frontend := true }, { id := [50], typ := [102], frontend := true },
    ⟨[49], by decide +kernel⟩, ⟨[50], by decide +kernel⟩, by decide +kernel⟩

end Pitaya.Router
