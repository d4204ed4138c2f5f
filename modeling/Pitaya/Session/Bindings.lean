import Pitaya.Session.Pool

/-!
# Whose session a user id names

The table `sessionsByUID` of a frontend, over whole runs of the pool.  A session
that has taken a uid should keep it until it is closed itself or another session
takes the uid.  `sessionImpl.Close` deletes the entry of its session's uid without
a look at whose entry it is, so this holds in exactly the runs in which every
session that is closed finds no entry of another session under its uid.

* `CloseSafe` — the condition, on the state before an operation.
-/

namespace Pitaya.Pool

open Transition Finmap Option

variable {V : Type} (server : Server V)

/-! ## The operations of a frontend -/

/-- The operations a frontend performs; the other two belong to stateful
backends. -/
def Op.onFrontend : Op V → Bool
  | .storeSessionLocal _ => false
  | .removeSessionLocal _ => false
  | _ => true

/-- The pool of a frontend. -/
def frontendPool : System (Pool V) (Op V) where
  start := {}
  step p op := if op.onFrontend then p.step server op else none

variable {p : Pool V} {op : Op V}

theorem frontendPool_step {p' : Pool V} (h : (frontendPool server).step p op = some p') :
    op.onFrontend = true ∧ p' = p.apply server op := by
  simp only [frontendPool] at h
  split at h
  · next hop => exact ⟨hop, (step_eq_some h).1⟩
  · cases h

/-- The session an operation closes, the rebind branch of `Bind` included. -/
def closes (p : Pool V) : Op V → Option ℕ
  | .close id _ _ => some id
  | .closeAllVisit id _ => if (p.session id).hasRequestsInFlight then none else some id
  | .bind id uid custSessData replies =>
    if p.Registers server id uid custSessData replies then p.getSessionByUID uid else none
  | _ => none

/-- The uid an operation gives to a session. -/
def takes (p : Pool V) : Op V → Option (Bytes × ℕ)
  | .bind id uid custSessData replies =>
    if p.Registers server id uid custSessData replies then some (uid, id) else none
  | _ => none

theorem newSession_sessionsByUID (p : Pool V) (entity : Entity) (frontend : Bool)
    (uid : Option Bytes) :
    (p.newSession entity frontend uid).1.sessionsByUID = p.sessionsByUID := by
  unfold newSession
  split
  · rfl
  · dsimp only
    split <;> rfl

/-! ## The empty uid -/

theorem deleteUID_lookup (p : Pool V) (id : ℕ) (uid : Bytes) :
    (p.deleteUID id).getSessionByUID uid =
      if (p.session id).uid = [] ∨ uid ≠ (p.session id).uid then p.getSessionByUID uid
      else none := by
  by_cases hnil : (p.session id).uid = []
  · rw [deleteUID_of_nil hnil, if_pos (Or.inl hnil)]
  · rw [deleteUID_of_ne_nil hnil]
    by_cases huid : uid = (p.session id).uid
    · subst huid
      rw [if_neg (by simp [hnil])]
      exact lookup_erase _ _
    · rw [if_pos (Or.inr huid)]
      exact lookup_erase_ne huid

variable {uid : Bytes}

theorem notMem_deleteUID (h : uid ∉ p.sessionsByUID) (id : ℕ) :
    uid ∉ (p.deleteUID id).sessionsByUID := by
  have hnone : p.getSessionByUID uid = none := lookup_eq_none.mpr h
  refine lookup_eq_none.mp ?_
  have hlookup := p.deleteUID_lookup id uid
  rw [hnone, ite_self] at hlookup
  exact hlookup

theorem apply_empty_notMem (hempty : [] ∉ p.sessionsByUID) (op : Op V) :
    [] ∉ (p.apply server op).sessionsByUID := by
  cases op with
  | newSession =>
    rw [apply, newSession_sessionsByUID]
    exact hempty
  | bind id uid custSessData replies =>
    rcases p.bind_cases server id uid custSessData replies with
      ⟨-, hquiet⟩ | ⟨-, q, hquiet, hne, -, hbind⟩
    · rw [apply, hquiet.tables.sessionsByUID]
      exact hempty
    · have hq : [] ∉ q.sessionsByUID := by rwa [hquiet.tables.sessionsByUID]
      rw [apply, hbind, q.register_sessionsByUID server id uid replies.close hq]
      split
      · simpa [mem_insert, hne.symm] using hq
      · simpa [mem_insert, hne.symm] using notMem_deleteUID hq _
  | kick id reason replies =>
    rw [apply, (p.kick_quiet server id reason replies).tables.sessionsByUID]
    exact hempty
  | close id reason replies =>
    rw [apply, p.close_sessionsByUID server id reason replies hempty]
    exact notMem_deleteUID hempty id
  | closeAllVisit id replies =>
    rw [apply, closeAllVisit]
    split
    · exact hempty
    · rw [p.close_sessionsByUID server id CloseReason.normal replies hempty]
      exact notMem_deleteUID hempty id
  | setRequestInFlight => exact hempty
  | storeSessionLocal id =>
    rw [apply, storeSessionLocal]
    dsimp only
    split
    · exact hempty
    · next hlen =>
      have hne : (p.session id).uid ≠ [] := by
        intro h
        simp [h] at hlen
      split <;> simpa [mem_insert, hne.symm] using hempty
  | removeSessionLocal id =>
    rw [apply, removeSessionLocal]
    split <;> exact notMem_deleteUID hempty id

theorem empty_notMem_of_run {ops : List (Op V)} (hrun : (frontendPool server).run ops = some p) :
    [] ∉ p.sessionsByUID := by
  apply System.run_induction ?_ ?_ hrun
  · exact notMem_empty
  · intro ops op p p' _ hempty hstep
    rw [(frontendPool_step server hstep).2]
    exact apply_empty_notMem server hempty op

/-! ## One operation -/

/-- The entry of the session's uid, if there is one, is its own. -/
def OwnEntry (p : Pool V) (id : ℕ) : Prop :=
  (p.session id).uid = [] ∨ ∀ other ∈ p.getSessionByUID (p.session id).uid, other = id

instance (p : Pool V) (id : ℕ) : Decidable (p.OwnEntry id) :=
  inferInstanceAs (Decidable (_ ∨ _))

/-- **The condition**: a session that is closed finds no entry of another session
under its uid. -/
def CloseSafe (p : Pool V) (op : Op V) : Prop :=
  ∀ id ∈ p.closes server op, p.OwnEntry id

instance (p : Pool V) (op : Op V) : Decidable (p.CloseSafe server op) :=
  inferInstanceAs (Decidable (∀ id ∈ p.closes server op, p.OwnEntry id))

/-- The operation neither closes session `id` nor gives the uid to another one. -/
def Undisturbed (uid : Bytes) (id : ℕ) (p : Pool V) (op : Op V) : Prop :=
  p.closes server op ≠ some id ∧ ∀ taker, p.takes server op = some (uid, taker) → taker = id

theorem close_lookup (p : Pool V) (id : ℕ) (reason : CloseReason) (replies : CloseReplies)
    (hempty : [] ∉ p.sessionsByUID) (uid : Bytes) :
    (p.close server id reason replies).getSessionByUID uid =
      if (p.session id).uid = [] ∨ uid ≠ (p.session id).uid then p.getSessionByUID uid
      else none := by
  rw [getSessionByUID, p.close_sessionsByUID server id reason replies hempty]
  exact p.deleteUID_lookup id uid

/-- Registering a session gives it the uid and closes the session that had it. -/
theorem register_lookup (p : Pool V) (id : ℕ) (uid : Bytes) (replies : CloseReplies)
    (hempty : [] ∉ p.sessionsByUID) (uid' : Bytes) :
    (p.register server id uid replies).getSessionByUID uid' =
      if uid' = uid then some id
      else
        match p.getSessionByUID uid with
        | none => p.getSessionByUID uid'
        | some old =>
          if (p.session old).uid = [] ∨ uid' ≠ (p.session old).uid then p.getSessionByUID uid'
          else none := by
  rw [getSessionByUID, p.register_sessionsByUID server id uid replies hempty]
  by_cases huid : uid' = uid
  · subst huid
    rw [if_pos rfl]
    split <;> exact lookup_insert _
  · rw [if_neg huid]
    cases p.getSessionByUID uid with
    | none => exact lookup_insert_of_ne _ huid
    | some old =>
      dsimp only
      rw [lookup_insert_of_ne _ huid]
      exact p.deleteUID_lookup old uid'

variable {id : ℕ}

theorem Registers.uid_eq {custSessData : StringMap V} {replies : BindReplies V}
    (h : p.Registers server id uid custSessData replies) :
    (p.session id).uid = [] ∨ (p.session id).uid = uid := by
  by_contra hother
  rw [not_or] at hother
  have hprepare := h.2
  unfold bindPrepare at hprepare
  dsimp only at hprepare
  split at hprepare <;> cases hprepare

/-- **What an operation of a frontend does to an entry** of a uid it gives to
nobody: the entry goes if it is that of the uid of a session that is closed. -/
theorem apply_lookup (hop : op.onFrontend = true) (hempty : [] ∉ p.sessionsByUID)
    (htakes : ∀ taker, p.takes server op ≠ some (uid, taker)) :
    (p.apply server op).getSessionByUID uid =
      match p.closes server op with
      | none => p.getSessionByUID uid
      | some id =>
        if (p.session id).uid = [] ∨ uid ≠ (p.session id).uid then p.getSessionByUID uid
        else none := by
  cases op with
  | newSession =>
    rw [apply, getSessionByUID, newSession_sessionsByUID]
    rfl
  | kick id reason replies =>
    rw [apply, getSessionByUID, (p.kick_quiet server id reason replies).tables.sessionsByUID]
    rfl
  | close id reason replies => exact p.close_lookup server id reason replies hempty uid
  | closeAllVisit id replies =>
    rw [apply, closeAllVisit, closes]
    split
    · rfl
    · exact p.close_lookup server id CloseReason.normal replies hempty uid
  | setRequestInFlight => rfl
  | storeSessionLocal => cases hop
  | removeSessionLocal => cases hop
  | bind id uid' custSessData replies =>
    rw [takes] at htakes
    rw [closes]
    rcases p.bind_cases server id uid' custSessData replies with
      ⟨hreg, hquiet⟩ | ⟨hreg, q, hquiet, -, huid, hbind⟩
    · rw [if_neg hreg, apply, getSessionByUID, hquiet.tables.sessionsByUID]
      rfl
    · rw [if_pos hreg] at htakes ⊢
      have hne : uid ≠ uid' := fun h => htakes id (h ▸ rfl)
      have hq : q.getSessionByUID = p.getSessionByUID := by
        funext u
        rw [getSessionByUID, hquiet.tables.sessionsByUID, getSessionByUID]
      rw [apply, hbind, q.register_lookup server id uid' replies.close
        (by rwa [hquiet.tables.sessionsByUID]), if_neg hne, hq]
      cases p.getSessionByUID uid' with
      | none => rfl
      | some old =>
        dsimp only
        by_cases hold : old = id
        · -- the session closes itself, and its uid is not the one looked up
          subst hold
          rw [if_pos (Or.inr (huid ▸ hne)), if_pos]
          rcases hreg.uid_eq with h | h
          · exact Or.inl h
          · exact Or.inr (h ▸ hne)
        · rw [hquiet.uid old (by simpa using hold)]

theorem Undisturbed.not_takes (h : Undisturbed server uid id p op)
    (hentry : p.getSessionByUID uid = some id) :
    ∀ taker, p.takes server op ≠ some (uid, taker) := by
  intro taker htakes
  cases op with
  | bind =>
    rw [takes] at htakes
    split at htakes
    · next hreg =>
      obtain ⟨rfl, rfl⟩ := Prod.mk.inj (some.inj htakes)
      exact h.1 (by rw [closes, if_pos hreg, hentry])
    · cases htakes
  | _ => cases htakes

/-- **Step lemma**: an undisturbed entry stays, exactly if no session of the same
uid is closed. -/
theorem apply_kept_iff (hop : op.onFrontend = true) (hempty : [] ∉ p.sessionsByUID)
    (hentry : p.getSessionByUID uid = some id) (hund : Undisturbed server uid id p op) :
    (p.apply server op).getSessionByUID uid = some id ↔
      ∀ closed ∈ p.closes server op, (p.session closed).uid ≠ uid := by
  have hne : uid ≠ [] := by
    rintro rfl
    exact hempty (mem_of_lookup_eq_some hentry)
  rw [apply_lookup server hop hempty (hund.not_takes server hentry)]
  cases p.closes server op with
  | none => simpa using hentry
  | some closed =>
    dsimp only
    constructor
    · intro hkept closed' hclosed'
      obtain rfl := some.inj hclosed'
      intro hsame
      rw [if_neg (by rw [hsame]; simpa using hne)] at hkept
      cases hkept
    · intro hother
      rw [if_pos (Or.inr (hother closed rfl).symm), hentry]

/-! ## Runs -/

/-- **The property**: over every part of the run, an entry of the table that the
part leaves undisturbed is still there at its end. -/
def BindingsKept (ops : List (Op V)) : Prop :=
  ∀ before during after p q uid id, ops = before ++ during ++ after →
    (frontendPool server).run before = some p →
    (frontendPool server).runFrom p during = some q →
    p.getSessionByUID uid = some id →
    (frontendPool server).MeetsFrom (Undisturbed server uid id) p during →
    q.getSessionByUID uid = some id

theorem closeSafe_of_kept (hop : op.onFrontend = true) (hempty : [] ∉ p.sessionsByUID)
    (hkept : ∀ uid id, p.getSessionByUID uid = some id → Undisturbed server uid id p op →
      (p.apply server op).getSessionByUID uid = some id) : p.CloseSafe server op := by
  intro closed hclosed
  by_contra hother
  simp only [OwnEntry, not_or, not_forall] at hother
  obtain ⟨-, other, hentry, hne⟩ := hother
  -- the entry of the other session is undisturbed, and it goes
  have hund : Undisturbed server (p.session closed).uid other p op := by
    refine ⟨fun h => hne (some.inj (h.symm.trans hclosed)), fun taker htakes => ?_⟩
    cases op with
    | bind =>
      rw [takes] at htakes
      rw [closes] at hclosed
      split at htakes
      · next hreg =>
        rw [if_pos hreg] at hclosed
        obtain ⟨huid, -⟩ := Prod.mk.inj (some.inj htakes)
        rw [huid] at hclosed
        exact absurd (some.inj (hentry.symm.trans hclosed)) hne
      · cases htakes
    | _ => cases htakes
  exact (apply_kept_iff server hop hempty hentry hund).mp (hkept _ _ hentry hund) closed hclosed rfl

/-- **Run lemma**: along a part of a run in which every close is safe, an
undisturbed entry stays. -/
theorem runFrom_kept {before during : List (Op V)} {q : Pool V}
    (hrun : (frontendPool server).run before = some p)
    (hsafe : (frontendPool server).Meets (CloseSafe server) (before ++ during))
    (hduring : (frontendPool server).runFrom p during = some q)
    (hentry : p.getSessionByUID uid = some id)
    (hund : (frontendPool server).MeetsFrom (Undisturbed server uid id) p during) :
    q.getSessionByUID uid = some id := by
  induction during generalizing before p with
  | nil =>
    obtain rfl := some.inj hduring
    exact hentry
  | cons op during ih =>
    obtain ⟨p', hstep, hrest⟩ := bind_eq_some_iff.mp hduring
    obtain ⟨hop, rfl⟩ := frontendPool_step server hstep
    have hempty := empty_notMem_of_run server hrun
    obtain ⟨hnow, hlater⟩ := hund
    rw [hstep] at hlater
    have hrun' : (frontendPool server).run (before ++ [op]) = some _ :=
      System.run_concat_eq_some.mpr ⟨p, hrun, hstep⟩
    refine ih hrun' (by rwa [List.append_assoc]) hrest ?_ hlater
    refine (apply_kept_iff server hop hempty hentry hnow).mpr fun closed hclosed hsame => ?_
    -- a closed session of the same uid would be the owner of the entry
    rcases hsafe before op during p rfl hrun closed hclosed with hnil | hown
    · rw [hsame] at hnil
      exact hempty (hnil ▸ mem_of_lookup_eq_some hentry)
    · rw [hsame] at hown
      exact hnow.1 (hown id hentry ▸ hclosed)

/-- **Closing a session leaves the bindings of the others alone in exactly the
runs in which a closed session never finds another session's entry under its
uid.** -/
theorem bindings_kept_iff_close_safe {ops : List (Op V)} {last : Pool V}
    (hrun : (frontendPool server).run ops = some last) :
    BindingsKept server ops ↔ (frontendPool server).Meets (CloseSafe server) ops := by
  constructor
  · intro hkept before op after p hsplit hbefore
    have hsplit' : ops = before ++ [op] ++ after := by
      rw [hsplit, List.append_assoc, List.singleton_append]
    rw [hsplit] at hrun
    obtain ⟨p', hstep⟩ := System.step_of_run_split hrun hbefore
    obtain ⟨hop, rfl⟩ := frontendPool_step server hstep
    refine closeSafe_of_kept server hop (empty_notMem_of_run server hbefore) ?_
    intro uid id hentry hund
    refine hkept before [op] after p _ uid id hsplit' hbefore ?_ hentry ⟨hund, ?_⟩
    · rw [System.runFrom_cons, hstep]
      rfl
    · rw [hstep]
      trivial
  · intro hsafe before during after p q uid id hsplit hbefore hduring hentry hund
    rw [hsplit] at hsafe
    exact runFrom_kept server hbefore hsafe.of_append hduring hentry hund

/-! ## Two logins of one user -/

/-- A frontend whose sessions have no custom data. -/
def plainServer : Server Unit where
  codec := .channels

/-- Two connections, and the user logs in on one after the other.  The second
`Bind` kicks the first session and closes it. -/
def twoLogins : List (Op Unit) :=
  [.newSession (.agent {}) true none, .newSession (.agent {}) true none,
    .bind 1 [117] none {}, .bind 2 [117] none {}]

/-- The second session closes by itself. -/
theorem bindings_kept_iff_close_safe_two_logins :
    BindingsKept plainServer (twoLogins ++ [.close 2 CloseReason.normal {}]) := by
  have hrun : ((frontendPool plainServer).run
      (twoLogins ++ [.close 2 CloseReason.normal {}])).isSome := by decide +kernel
  obtain ⟨last, hlast⟩ := Option.isSome_iff_exists.mp hrun
  exact (bindings_kept_iff_close_safe plainServer hlast).mpr
    (System.meets_of_meetsFrom (by decide +kernel))

/-- The read loop of the kicked connection ends and closes the first session: the
second one is not found any more. -/
theorem binding_lost_on_deferred_close :
    ¬ BindingsKept plainServer (twoLogins ++ [.close 1 CloseReason.normal {}]) := by
  intro h
  have hfound := h twoLogins [.close 1 CloseReason.normal {}] [] _ _ [117] 2 rfl rfl rfl
    (by decide +kernel) ⟨⟨by decide, fun _ h => by cases h⟩, trivial⟩
  exact absurd hfound (by decide +kernel)

end Pitaya.Pool
