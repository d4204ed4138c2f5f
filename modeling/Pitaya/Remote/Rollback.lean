import Pitaya.Remote.Unbinding

/-!
# Bindings that fail

`BindBackend` and `KickBackend` of `session/session.go` change the backends of the session first
and call the registered callbacks then.  Callbacks are arbitrary functions on whatever holds the
session: they may change the session too.

* `Holder` — where the session is kept.
* `bindBackend`, `kickBackend` — the two methods, with callbacks before and after.
* `calls` — the callbacks that are called, each with the state that it is given.
* `restored_iff` — when a failed call leaves the backends as they were.  `BindBackend` deletes the
  entry of the type, also one that was there before, with an empty id.  `KickBackend` has a rollback
  too, but the error it looks at is declared in the loop once more, and a failed callback returns.
* `kickBackend_dropped` — there, a binding whose removal fails is lost.
-/

namespace Pitaya.Rollback

open Option Finmap Session

/-- Something that holds a session. -/
structure Holder (W V : Type) where
  get : W → Session V
  set : W → Session V → W
  get_set : ∀ w s, get (set w s) = s

/-- A registered callback, called with the type and the id of the backend. -/
abbrev Callback (W E : Type) : Type := Bytes → Bytes → W → W × Option E

/-- The errors of `BindBackend`. -/
inductive BindError (E : Type) where
  /-- `ErrIllegalUID`. -/
  | illegalUID
  /-- `ErrSessionAlreadyBound`, "%w,uid=%s,bound=%s,target=%s". -/
  | sessionAlreadyBound (uid bound target : Bytes)
  /-- An assignment to a nil map. -/
  | crash
  /-- A callback fails. -/
  | callback (e : E)
  deriving DecidableEq, Repr

/-- The errors of `KickBackend`. -/
inductive KickError (E : Type) where
  /-- `ErrIllegalUID`. -/
  | illegalUID
  /-- `ErrSessionNotBoundBackend`. -/
  | sessionNotBoundBackend
  /-- A callback fails. -/
  | callback (e : E)
  /-- A callback fails that is called after the others. -/
  | afterCallback (e : E)
  deriving DecidableEq, Repr

variable {W V E : Type}

/-- The loop over the callbacks. -/
def runCallbacks (svrType svrID : Bytes) : W → List (Callback W E) → W × Option E
  | w, [] => (w, none)
  | w, cb :: callbacks =>
    match cb svrType svrID w with
    | (w, some e) => (w, some e)
    | (w, none) => runCallbacks svrType svrID w callbacks

/-- The calls of the loop, each with the state that it is given and the one that it leaves. -/
def calls (svrType svrID : Bytes) : W → List (Callback W E) → List (W × W)
  | _, [] => []
  | w, cb :: callbacks =>
    match cb svrType svrID w with
    | (w', some _) => [(w, w')]
    | (w', none) => (w, w') :: calls svrType svrID w' callbacks

section Parts

variable {X : Type} (part : W → X) (x : X)

/-- None of the calls changes a part of the state. -/
def Keeps (cs : List (W × W)) : Prop := ∀ c ∈ cs, part c.2 = part c.1

/-- One of the calls changes the part to `x`, and none after it changes it. -/
def PutsBack (cs : List (W × W)) : Prop :=
  ∃ before c after, cs = before ++ c :: after ∧ part c.1 ≠ x ∧ part c.2 = x ∧ Keeps part after

variable {part x}

theorem putsBack_cons {c : W × W} {cs : List (W × W)} :
    PutsBack part x (c :: cs) ↔
      part c.1 ≠ x ∧ part c.2 = x ∧ Keeps part cs ∨ PutsBack part x cs := by
  constructor
  · rintro ⟨_ | ⟨d, before⟩, c', after, hcs, hchange⟩
    · obtain ⟨rfl, rfl⟩ := List.cons.inj hcs
      exact .inl hchange
    · exact .inr ⟨before, c', after, (List.cons.inj hcs).2, hchange⟩
  · rintro (hchange | ⟨before, c', after, rfl, hchange⟩)
    · exact ⟨[], c, cs, rfl, hchange⟩
    · exact ⟨c :: before, c', after, rfl, hchange⟩

/-- The loop leaves `x` if it starts with it and keeps it, or if a call puts it back. -/
theorem part_runCallbacks_iff {svrType svrID : Bytes} {w : W} {callbacks : List (Callback W E)} :
    part (runCallbacks svrType svrID w callbacks).1 = x ↔
      part w = x ∧ Keeps part (calls svrType svrID w callbacks) ∨
        PutsBack part x (calls svrType svrID w callbacks) := by
  have hnil : Keeps part ([] : List (W × W)) := List.forall_mem_nil _
  have hnone : ¬ PutsBack part x ([] : List (W × W)) := by
    rintro ⟨_ | _, _, _, ⟨⟩, -⟩
  -- the last call that changes the part decides
  have hcons {w w' : W} {cs : List (W × W)} :
      part w' = x ∧ Keeps part cs ∨ PutsBack part x cs ↔
        part w = x ∧ Keeps part ((w, w') :: cs) ∨ PutsBack part x ((w, w') :: cs) := by
    have hkeeps : Keeps part ((w, w') :: cs) ↔ part w' = part w ∧ Keeps part cs :=
      List.forall_mem_cons
    rw [putsBack_cons, hkeeps]
    refine Iff.trans (or_congr_left ?_) or_assoc
    by_cases hw : part w = x
    · simp only [hw, true_and, ne_eq, not_true, false_and, or_false]
    · simp only [hw, false_and, ne_eq, not_false_eq_true, true_and, false_or]
  induction callbacks generalizing w with
  | nil => exact ⟨fun h => .inl ⟨h, hnil⟩, fun h => (h.resolve_right hnone).1⟩
  | cons cb callbacks ih =>
    rw [runCallbacks, calls]
    rcases cb svrType svrID w with ⟨w', _ | e⟩
    · exact ih.trans hcons
    · refine Iff.trans ?_ hcons
      exact ⟨fun h => .inl ⟨h, hnil⟩, fun h => (h.resolve_right hnone).1⟩

end Parts

section

variable (H : Holder W V) (callbacks afterCallbacks : List (Callback W E))

/-- `BindBackend`.  What the callbacks after return is dropped. -/
def bindBackend (w : W) (svrType svrID : Bytes) : W × Option (BindError E) :=
  let s := H.get w
  if s.uid = [] then (w, some .illegalUID)
  else if s.getBackendID svrType ≠ [] then
    (w, some (.sessionAlreadyBound s.uid (s.getBackendID svrType) svrID))
  else
    match s.setBackendID svrType svrID with
    | .crash => (w, some .crash)
    | .ok s =>
      match runCallbacks svrType svrID (H.set w s) callbacks with
      | (w, some e) => (H.set w ((H.get w).removeBackendID svrType), some (.callback e))
      | (w, none) => ((runCallbacks svrType svrID w afterCallbacks).1, none)

def kickBackend (w : W) (svrType : Bytes) : W × Option (KickError E) :=
  let s := H.get w
  if s.uid = [] then (w, some .illegalUID)
  else if s.getBackendID svrType = [] then (w, some .sessionNotBoundBackend)
  else
    let backendID := s.getBackendID svrType
    match runCallbacks svrType backendID (H.set w (s.removeBackendID svrType)) callbacks with
    | (w, some e) => (w, some (.callback e))
    | (w, none) =>
      match runCallbacks svrType backendID w afterCallbacks with
      | (w, some e) => (w, some (.afterCallback e))
      | (w, none) => (w, none)

/-- A call of either. -/
inductive Call where
  | bind (svrID : Bytes)
  | kick
  deriving DecidableEq, Repr

variable (svrType : Bytes)

/-- The call returns the error of a callback. -/
def Call.Fails (w w' : W) (e : E) : Call → Prop
  | .bind svrID =>
    bindBackend H callbacks afterCallbacks w svrType svrID = (w', some (.callback e))
  | .kick => kickBackend H callbacks afterCallbacks w svrType = (w', some (.callback e))

/-- The id that the callbacks are called with. -/
def Call.target (w : W) : Call → Bytes
  | .bind svrID => svrID
  | .kick => (H.get w).getBackendID svrType

/-- The state that the first callback is given. -/
def Call.start (w : W) : Call → W
  | .bind svrID =>
    match (H.get w).setBackendID svrType svrID with
    | .crash => w
    | .ok s => H.set w s
  | .kick => H.set w ((H.get w).removeBackendID svrType)

/-- What the callbacks leave. -/
def Call.left (w : W) (call : Call) : W :=
  (runCallbacks svrType (call.target H svrType w) (call.start H svrType w) callbacks).1

/-- The callbacks that are called. -/
def Call.calls (svrType : Bytes) (w : W) (call : Call) : List (W × W) :=
  Rollback.calls svrType (call.target H svrType w) (call.start H svrType w) callbacks

/-- The backends of the other types. -/
def others (w : W) : Option (Finmap fun _ : Bytes => Bytes) :=
  (H.get w).backends.map (Finmap.erase svrType)

/-- **The condition.**  No callback changes the backends of other types, or the last one that does
gives them back as they were.  In a binding, the type has no entry before, not even an empty one;
in a kick, one of the callbacks puts the id back, and none after it changes it. -/
structure Call.Undone (svrType : Bytes) (w : W) (call : Call) : Prop where
  others : Keeps (others H svrType) (call.calls H callbacks svrType w) ∨
    PutsBack (others H svrType) (others H svrType w) (call.calls H callbacks svrType w)
  own : match call with
    | .bind _ => svrType ∉ (H.get w).backends.getD ∅
    | .kick => PutsBack (fun w => (H.get w).getBackendID svrType) ((H.get w).getBackendID svrType)
        (call.calls H callbacks svrType w)

end

/-! ## What a failed call leaves -/

section

variable {H : Holder W V} {callbacks afterCallbacks : List (Callback W E)} {w w' : W}
  {svrType svrID : Bytes} {e : E}

/-- A binding that fails in a callback: the entry is deleted after the callbacks. -/
theorem bindBackend_failed
    (h : bindBackend H callbacks afterCallbacks w svrType svrID = (w', some (.callback e))) :
    (H.get w).backends.isSome = true ∧
      (H.get w').backends =
        (H.get ((Call.bind svrID).left H callbacks svrType w)).backends.map
          (Finmap.erase svrType) := by
  unfold bindBackend at h
  dsimp only [Call.left, Call.start, Call.target] at h ⊢
  split at h
  · cases h
  split at h
  · cases h
  unfold setBackendID at h ⊢
  cases hbackends : (H.get w).backends with
  | none =>
    rw [hbackends] at h
    cases h
  | some =>
    rw [hbackends] at h
    dsimp only at h ⊢
    refine ⟨rfl, ?_⟩
    split at h
    · next w₁ e₁ hrun =>
      obtain rfl := (Prod.mk.inj h).1
      rw [hrun, H.get_set]
      rfl
    · cases h

theorem kickBackend_failed
    (h : kickBackend H callbacks afterCallbacks w svrType = (w', some (.callback e))) :
    (H.get w).getBackendID svrType ≠ [] ∧ w' = Call.kick.left H callbacks svrType w := by
  unfold kickBackend at h
  dsimp only [Call.left, Call.start, Call.target] at h ⊢
  split at h
  · cases h
  split at h
  · cases h
  next hbound =>
  refine ⟨hbound, ?_⟩
  split at h
  · next w₁ e₁ hrun =>
    rw [hrun]
    exact (Prod.mk.inj h).1.symm
  · split at h <;> cases h

theorem bind_restored_iff
    (h : bindBackend H callbacks afterCallbacks w svrType svrID = (w', some (.callback e))) :
    (H.get w').backends = (H.get w).backends ↔
      others H svrType ((Call.bind svrID).left H callbacks svrType w) = others H svrType w ∧
        svrType ∉ (H.get w).backends.getD ∅ := by
  obtain ⟨hsome, hdeleted⟩ := bindBackend_failed h
  obtain ⟨m, hm⟩ := isSome_iff_exists.mp hsome
  rw [hdeleted, others, others, hm, map_some]
  constructor
  · intro hrestored
    have hnot : svrType ∉ m := by
      obtain ⟨m', -, rfl⟩ := map_eq_some_iff.mp hrestored
      exact notMem_erase_self
    exact ⟨by rw [hrestored, erase_of_notMem hnot], hnot⟩
  · rintro ⟨hothers, hnot⟩
    exact hothers.trans (congrArg some (erase_of_notMem hnot))

theorem kick_restored_iff
    (h : kickBackend H callbacks afterCallbacks w svrType = (w', some (.callback e))) :
    (H.get w').backends = (H.get w).backends ↔
      others H svrType (Call.kick.left H callbacks svrType w) = others H svrType w ∧
        (H.get (Call.kick.left H callbacks svrType w)).getBackendID svrType =
          (H.get w).getBackendID svrType := by
  obtain ⟨hbound, rfl⟩ := kickBackend_failed h
  rw [others, others]
  generalize H.get (Call.kick.left H callbacks svrType w) = s'
  constructor
  · intro hrestored
    refine ⟨by rw [hrestored], ?_⟩
    dsimp only [getBackendID]
    rw [hrestored]
  · rintro ⟨hothers, hown⟩
    -- the entry is not empty, so both maps have it
    have hentry {s : Session V} (h : s.getBackendID svrType ≠ []) :
        ∃ m, s.backends = some m ∧ m.lookup svrType = some (s.getBackendID svrType) := by
      unfold getBackendID at h ⊢
      cases hs : s.backends with
      | none =>
        rw [hs] at h
        exact absurd rfl h
      | some m =>
        rw [hs] at h
        refine ⟨m, rfl, ?_⟩
        cases hm : m.lookup svrType with
        | none => exact absurd (congrArg (getD · []) hm) h
        | some => exact (congrArg some (congrArg (getD · []) hm)).symm
    obtain ⟨m, hm, hlookup⟩ := hentry hbound
    obtain ⟨m', hm', hlookup'⟩ := hentry (s := s') (hown ▸ hbound)
    rw [hm, hm'] at hothers ⊢
    refine congrArg some ((eq_iff_erase_eq_and_lookup_eq svrType).mpr ⟨?_, ?_⟩)
    · exact some.inj hothers
    · rw [hlookup, hlookup', hown]

/-- The call itself leaves the backends of other types alone. -/
theorem others_start (call : Call) :
    others H svrType (call.start H svrType w) = others H svrType w := by
  cases call with
  | bind =>
    dsimp only [Call.start, setBackendID, others]
    cases hbackends : (H.get w).backends with
    | none =>
      dsimp only
      rw [hbackends]
    | some m =>
      dsimp only
      rw [H.get_set]
      exact congrArg some erase_insert_self
  | kick =>
    dsimp only [Call.start, removeBackendID, others]
    rw [H.get_set]
    cases (H.get w).backends with
    | none => rfl
    | some => exact congrArg some (erase_of_notMem notMem_erase_self)

/-- **A call that fails in a callback leaves the backends as they were if and only if** the
callbacks leave those of other types alone, or give them back, and, in a binding, the type had no
entry, in a kick, the callbacks themselves put the entry back. -/
theorem restored_iff {call : Call} (h : call.Fails H callbacks afterCallbacks svrType w w' e) :
    (H.get w').backends = (H.get w).backends ↔ call.Undone H callbacks svrType w := by
  have hothers : others H svrType (call.left H callbacks svrType w) = others H svrType w ↔
      Keeps (others H svrType) (call.calls H callbacks svrType w) ∨
        PutsBack (others H svrType) (others H svrType w) (call.calls H callbacks svrType w) :=
    part_runCallbacks_iff.trans (by rw [and_iff_right (others_start call)]; rfl)
  cases call with
  | bind =>
    rw [bind_restored_iff h, hothers]
    exact ⟨fun h => ⟨h.1, h.2⟩, fun h => ⟨h.1, h.2⟩⟩
  | kick =>
    obtain ⟨hbound, -⟩ := kickBackend_failed h
    -- the loop starts without the entry
    have hstart : (H.get (Call.kick.start H svrType w)).getBackendID svrType ≠
        (H.get w).getBackendID svrType := by
      dsimp only [Call.start]
      rw [H.get_set, Backend.getBackendID_removeBackendID]
      exact hbound.symm
    have hown := @part_runCallbacks_iff W E _ (fun w => (H.get w).getBackendID svrType)
      ((H.get w).getBackendID svrType) svrType (Call.kick.target H svrType w)
      (Call.kick.start H svrType w) callbacks
    rw [or_iff_right fun h => hstart h.1] at hown
    rw [kick_restored_iff h, hothers]
    exact ⟨fun h => ⟨h.1, hown.mp h.2⟩, fun h => ⟨h.1, hown.mpr h.2⟩⟩

end

/-! ## A kick that fails -/

/-- A session on its own. -/
def alone : Holder (Session Unit) Unit := ⟨id, fun _ s => s, fun _ _ => rfl⟩

/-- A callback that only fails. -/
def failing : List (Callback (Session Unit) Unit) := [fun _ _ s => (s, some ())]

/-- The user "u", bound to the backend "b1" of the type "b". -/
def boundUser : Session Unit :=
  { uid := [117], backends := some ((∅ : Finmap fun _ : Bytes => Bytes).insert [98] [98, 49]) }

/-- Bound to nothing, a failed binding is undone. -/
theorem restored_bind :
    ∃ s', (Call.bind [98, 49]).Fails alone failing [] [98] { uid := [117] } s' () ∧
      s'.backends = ({ uid := [117] } : Session Unit).backends := by
  have hfails : (Call.bind [98, 49]).Fails alone failing [] [98] { uid := [117] } _ () := rfl
  have hkeeps : Keeps (others alone [98])
      ((Call.bind [98, 49]).calls alone failing [98] { uid := [117] }) := by
    intro c hc
    rw [List.mem_singleton.mp hc]
  exact ⟨_, hfails, (restored_iff hfails).mpr ⟨.inl hkeeps, Finmap.notMem_empty⟩⟩

/-- The callback does not touch the session, and the binding is gone. -/
theorem kick_dropped :
    ∃ s', Call.kick.Fails alone failing [] [98] boundUser s' () ∧
      boundUser.getBackendID [98] = [98, 49] ∧ s'.getBackendID [98] = [] ∧
      s'.backends ≠ boundUser.backends :=
  ⟨_, rfl, by decide +kernel, by decide +kernel, by decide +kernel⟩

/-! ## Over a whole cluster -/

open Backend (Servers)

section

variable {C : Type} (rpc : C → Servers V → Servers V × Option Backend.BackendError)
  (cl : Servers V) (me : Bytes) (id : ℕ)

/-- A session of a server. -/
def held : Holder (Servers V) V where
  get cl := cl.session me id
  set cl s := cl.setSession me id s
  get_set cl s := Backend.setSession_session cl me id s

/-- The callbacks of a binding. -/
def bindCallback : Backend.Callback C → Callback (Servers V) Backend.BackendError
  | .sys replies call => fun svrType svrID cl =>
    Backend.onBindBackend rpc cl me id svrType svrID replies call
  | .other result => fun _ _ cl => (cl, result.map .call)

/-- The callbacks of a kick. -/
def kickCallback (reason : CloseReason) :
    Backend.KickCallback → Callback (Servers V) Backend.UnbindError
  | .sys replies => fun svrType svrID cl =>
    Backend.onKickBackend cl me id svrType svrID reason replies
  | .other result => fun _ _ cl => (cl, result.map fun e => .backend (.call e))

/-- The errors of a binding. -/
def toBackendError : BindError Backend.BackendError → Backend.BackendError
  | .illegalUID => .session .illegalUID
  | .sessionAlreadyBound uid bound target => .sessionAlreadyBound uid bound target
  | .crash => .crash
  | .callback e => e

/-- The errors of a kick. -/
def toUnbindError : KickError Backend.UnbindError → Backend.UnbindError
  | .illegalUID => .backend (.session .illegalUID)
  | .sessionNotBoundBackend => .sessionNotBoundBackend
  | .callback e => e
  | .afterCallback e => e

/-- A loop that calls a callback for each entry and stops at the first error. -/
theorem runCallbacks_map {W E K : Type} {svrType svrID : Bytes} {f : K → Callback W E}
    (loop : W → List K → W × Option E) (hnil : ∀ w, loop w [] = (w, none))
    (hcons : ∀ w k ks, loop w (k :: ks) =
      match f k svrType svrID w with
      | (w, some e) => (w, some e)
      | (w, none) => loop w ks)
    (w : W) (ks : List K) : runCallbacks svrType svrID w (ks.map f) = loop w ks := by
  induction ks generalizing w with
  | nil => exact (hnil w).symm
  | cons k ks ih =>
    rw [List.map_cons, runCallbacks, hcons]
    split
    · rfl
    · exact ih _

theorem runCallbacks_bindCallback (svrType svrID : Bytes) (callbacks : List (Backend.Callback C)) :
    runCallbacks svrType svrID cl (callbacks.map (bindCallback rpc me id)) =
      Backend.runCallbacks rpc cl me id svrType svrID callbacks := by
  refine runCallbacks_map (fun cl => Backend.runCallbacks rpc cl me id svrType svrID)
    (fun _ => rfl) (fun cl callback callbacks => ?_) cl callbacks
  cases callback with
  | other result => cases result <;> rfl
  | sys replies call =>
    dsimp only [bindCallback]
    rw [Backend.runCallbacks]
    rcases Backend.onBindBackend rpc cl me id svrType svrID replies call with ⟨cl', _ | e⟩ <;> rfl

theorem runCallbacks_kickCallback (svrType svrID : Bytes) (reason : CloseReason)
    (callbacks : List Backend.KickCallback) :
    runCallbacks svrType svrID cl (callbacks.map (kickCallback me id reason)) =
      Backend.runKickCallbacks cl me id svrType svrID reason callbacks := by
  refine runCallbacks_map (fun cl => Backend.runKickCallbacks cl me id svrType svrID reason)
    (fun _ => rfl) (fun cl callback callbacks => ?_) cl callbacks
  cases callback with
  | other result => cases result <;> rfl
  | sys replies =>
    dsimp only [kickCallback]
    rw [Backend.runKickCallbacks]
    rcases Backend.onKickBackend cl me id svrType svrID reason replies with ⟨cl', _ | e⟩ <;> rfl

/-- **`BindBackend` over a cluster** is the method with the callback of `Sys` among others. -/
theorem bindBackend_eq (svrType svrID : Bytes) (callbacks : List (Backend.Callback C)) :
    Backend.bindBackend rpc cl me id svrType svrID callbacks =
      Prod.map (fun cl => cl) (Option.map toBackendError)
        (bindBackend (held me id) (callbacks.map (bindCallback rpc me id))
          [] cl svrType svrID) := by
  unfold Backend.bindBackend bindBackend held
  dsimp only
  split
  · rfl
  split
  · rfl
  cases (cl.session me id).setBackendID svrType svrID with
  | error e => exact e.elim
  | crash => rfl
  | ok s =>
    dsimp only
    rw [runCallbacks_bindCallback]
    generalize Backend.runCallbacks rpc (cl.setSession me id s) me id svrType svrID callbacks = r
    obtain ⟨cl', err⟩ := r
    cases err <;> rfl

/-- **`KickBackend` over a cluster.** -/
theorem kickBackend_eq (svrType : Bytes) (reason : CloseReason)
    (callbacks : List Backend.KickCallback) :
    Backend.kickBackend cl me id svrType reason callbacks =
      Prod.map (fun cl => cl) (Option.map toUnbindError)
        (kickBackend (held me id) (callbacks.map (kickCallback me id reason)) [] cl svrType) := by
  unfold Backend.kickBackend kickBackend held
  dsimp only
  split
  · rfl
  split
  · rfl
  rw [runCallbacks_kickCallback]
  generalize Backend.runKickCallbacks _ me id svrType _ reason callbacks = r
  obtain ⟨cl', err⟩ := r
  cases err <;> rfl

/-- **A kick that fails in a callback, on a server of a cluster**, drops the binding: neither the
callback of `Sys` nor one that only returns its result puts it back. -/
theorem kickBackend_dropped {cl cl' : Servers V} {svrType : Bytes} {reason : CloseReason}
    {callbacks : List Backend.KickCallback} {e : Backend.UnbindError}
    (h : kickBackend (held me id) (callbacks.map (kickCallback me id reason)) [] cl svrType =
      (cl', some (.callback e))) :
    Backend.kickBackend cl me id svrType reason callbacks = (cl', some e) ∧
      (cl'.session me id).backends ≠ (cl.session me id).backends := by
  refine ⟨by rw [kickBackend_eq, h]; rfl, fun hrestored => ?_⟩
  obtain ⟨hbound, -⟩ := kickBackend_failed h
  have hown := ((kick_restored_iff h).mp hrestored).2
  dsimp only [Call.left, Call.start, Call.target, held] at hown
  rw [runCallbacks_kickCallback, Backend.runKickCallbacks_session, Backend.setSession_session,
    Backend.getBackendID_removeBackendID] at hown
  exact hbound hown.symm

end

end Pitaya.Rollback
