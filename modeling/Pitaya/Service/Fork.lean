import Mathlib.Tactic.Abel
import Pitaya.Cluster.Notifications

/-!
# Requests to all instances of a server type

`DoForkRequest` of `service/remote.go`: one goroutine for each server that
`GetServersByType` returned, except the caller, sends the response of its remote call on a
channel of capacity one, and the caller collects responses until it has `len(svs)-1`.

* `Accounted` — the invariant: every server is in one place, and how many responses the
  caller has by the time it returns.
-/

namespace Pitaya.Service

open Cluster Transition Multiset

variable {R E : Type}

/-- A slot of the result: the response of a server, nil if its call failed.  The server is
kept beside it for the record. -/
abbrev Slot (R : Type) : Type := Bytes × Option R

/-- Where `DoForkRequest` is. -/
inductive ForkPoint (R E : Type) where
  /-- In the `range` loop, with the servers left. -/
  | starting (svs : List Server)
  /-- In the loop that receives. -/
  | collecting
  | returned (resps : List (Slot R)) (err : Option E)

/-- A call of `DoForkRequest` with its goroutines: those in their remote call, those that
have to send, and the channel. -/
structure Fork (R E : Type) where
  main : ForkPoint R E
  calling : List Bytes := []
  sending : List (Slot R) := []
  ch : Option (Slot R) := none
  resps : List (Slot R) := []
  err : Option E := none

/-- What happens next. -/
inductive ForkEvent (R E : Type) where
  /-- The next turn of the `range` loop, or its end. -/
  | next
  /-- A remote call returns. -/
  | answer (id : Bytes) (resp : Option R) (err : Option E)
  /-- A goroutine sends. -/
  | send (slot : Slot R)
  /-- The caller receives. -/
  | receive

namespace Fork

/-- The `range` loop, which leaves out the own server. -/
def next (own : Bytes) (s : Fork R E) : Option (Fork R E) :=
  match s.main with
  | .starting [] => some { s with main := .collecting }
  | .starting (server :: svs) =>
    if own = server.id then some { s with main := .starting svs }
    else some { s with main := .starting svs, calling := server.id :: s.calling }
  | _ => none

/-- A remote call returns, and its error becomes the error of the whole. -/
def answer (s : Fork R E) (id : Bytes) (resp : Option R) (err : Option E) : Option (Fork R E) :=
  if id ∈ s.calling then
    some { s with
      calling := s.calling.erase id
      sending := (id, resp) :: s.sending
      err := err.or s.err }
  else none

/-- `ch <- resp`, possible when the channel is empty. -/
def send [DecidableEq R] (s : Fork R E) (slot : Slot R) : Option (Fork R E) :=
  if slot ∈ s.sending ∧ s.ch = none then
    some { s with sending := s.sending.erase slot, ch := some slot }
  else none

/-- `case resp := <-ch`, with the test `len(resps) >= len(svs)-1` after it. -/
def receive (n : ℕ) (s : Fork R E) : Option (Fork R E) :=
  match s.main, s.ch with
  | .collecting, some slot =>
    let resps := s.resps ++ [slot]
    if (resps.length : ℤ) ≥ (n : ℤ) - 1 then
      some { s with ch := none, resps := resps, main := .returned resps s.err }
    else some { s with ch := none, resps := resps }
  | _, _ => none

/-- One step, for `n` servers. -/
def step [DecidableEq R] (own : Bytes) (n : ℕ) (s : Fork R E) :
    ForkEvent R E → Option (Fork R E)
  | .next => s.next own
  | .answer id resp err => s.answer id resp err
  | .send slot => s.send slot
  | .receive => s.receive n

end Fork

/-- `DoForkRequest` on the server `own`, after `GetServersByType` has returned `svs`. -/
def fork (R E : Type) [DecidableEq R] (own : Bytes) (svs : List Server) :
    System (Fork R E) (ForkEvent R E) where
  start := { main := .starting svs }
  step := Fork.step own svs.length

namespace Fork

/-! ## Termination -/

/-- What is left to do: four steps for a server that is not started, three while it is
called, and so on. -/
def work (s : Fork R E) : ℕ :=
  (match s.main with
    | .starting svs => 4 * svs.length + 1
    | _ => 0) +
  3 * s.calling.length + 2 * s.sending.length + s.ch.toList.length

variable {own : Bytes} {svs : List Server} {s s' : Fork R E}

theorem next_work (h : s.next own = some s') : s'.work < s.work := by
  unfold next at h
  split at h
  · next hmain =>
    cases h
    simp only [work, hmain, List.length_nil]
    omega
  · next server rest hmain =>
    split at h
    · cases h
      simp only [work, hmain, List.length_cons]
      omega
    · cases h
      simp only [work, hmain, List.length_cons]
      omega
  · cases h

theorem answer_work {id : Bytes} {resp : Option R} {err : Option E}
    (h : s.answer id resp err = some s') : s'.work < s.work := by
  obtain ⟨hid, ⟨⟩⟩ := Option.ite_none_right_eq_some.mp h
  have hpos := List.length_pos_of_mem hid
  simp only [work, List.length_cons, List.length_erase_of_mem hid]
  omega

theorem send_work [DecidableEq R] {slot : Slot R} (h : s.send slot = some s') :
    s'.work < s.work := by
  obtain ⟨⟨hslot, hch⟩, ⟨⟩⟩ := Option.ite_none_right_eq_some.mp h
  have hpos := List.length_pos_of_mem hslot
  simp only [work, List.length_erase_of_mem hslot, hch, Option.toList_some, Option.toList_none,
    List.length_cons, List.length_nil]
  omega

theorem receive_work {n : ℕ} (h : s.receive n = some s') : s'.work < s.work := by
  unfold receive at h
  split at h
  · next slot hmain hch =>
    dsimp only at h
    split at h <;>
    · cases h
      simp only [work, hmain, hch, Option.toList_some, Option.toList_none, List.length_cons,
        List.length_nil]
      omega
  · cases h

theorem step_work [DecidableEq R] (s : Fork R E) (e : ForkEvent R E) (s' : Fork R E)
    (h : (fork R E own svs).step s e = some s') : s'.work < s.work := by
  cases e with
  | next => exact next_work h
  | answer => exact answer_work h
  | send => exact send_work h
  | receive => exact receive_work h

/-! ## Where the servers are -/

/-- The ids of the servers other than the caller. -/
def others (own : Bytes) (svs : List Server) : List Bytes :=
  (svs.map Server.id).filter fun id => id != own

/-- The servers the `range` loop has still to start. -/
def unstarted (own : Bytes) : ForkPoint R E → List Bytes
  | .starting svs => others own svs
  | _ => []

/-- How far the caller is. -/
def Collected (n : ℕ) (resps : List (Slot R)) : ForkPoint R E → Prop
  | .starting _ => resps = []
  | .collecting => resps = [] ∨ resps.length + 1 < n
  | .returned result _ =>
    result = resps ∧ 0 < resps.length ∧ (resps.length = 1 ∨ resps.length + 1 = n) ∧
      n ≤ resps.length + 1

/-- The servers, by where they are. -/
def located (own : Bytes) (s : Fork R E) : Multiset Bytes :=
  (unstarted own s.main : Multiset Bytes) + s.calling + (s.sending.map Prod.fst : List Bytes) +
    (s.ch.toList.map Prod.fst : List Bytes) + (s.resps.map Prod.fst : List Bytes)

/-- **The invariant**: each other server is in one place. -/
structure Accounted (own : Bytes) (svs : List Server) (s : Fork R E) : Prop where
  places : s.located own = others own svs
  collected : Collected svs.length s.resps s.main

theorem coe_erase_add {α β : Type} [BEq α] [LawfulBEq α] {l : List α} {a : α} (h : a ∈ l)
    (f : α → β) : ((l.map f : List β) : Multiset β) = ((l.erase a).map f : List β) + {f a} := by
  rw [coe_eq_coe.mpr ((List.perm_cons_erase h).map f), List.map_cons,
    ← cons_coe, ← singleton_add, add_comm]

theorem next_places (h : s.next own = some s') : s'.located own = s.located own := by
  unfold next at h
  split at h
  · next hmain =>
    cases h
    rw [located, located, hmain]
    rfl
  · next server rest hmain =>
    rw [located, located, hmain]
    simp only [unstarted, others, List.map_cons]
    split at h
    · next hown =>
      cases h
      rw [List.filter_cons_of_neg (by simp [hown])]
    · next hown =>
      cases h
      rw [List.filter_cons_of_pos (by simpa using Ne.symm hown)]
      simp only [← cons_coe, ← singleton_add]
      abel
  · cases h

theorem answer_places {id : Bytes} {resp : Option R} {err : Option E}
    (h : s.answer id resp err = some s') : s'.located own = s.located own := by
  obtain ⟨hid, ⟨⟩⟩ := Option.ite_none_right_eq_some.mp h
  have hcalling := coe_erase_add hid fun x => x
  rw [List.map_id', List.map_id'] at hcalling
  simp only [located, hcalling, List.map_cons, ← cons_coe, ← singleton_add]
  abel

theorem send_places [DecidableEq R] {slot : Slot R} (h : s.send slot = some s') :
    s'.located own = s.located own := by
  obtain ⟨⟨hslot, hch⟩, ⟨⟩⟩ := Option.ite_none_right_eq_some.mp h
  simp only [located, coe_erase_add hslot Prod.fst, hch, Option.toList_some, Option.toList_none,
    List.map_cons, List.map_nil, coe_singleton, coe_nil]
  abel

theorem receive_eq_some {n : ℕ} (h : s.receive n = some s') :
    s.main = .collecting ∧ ∃ slot, s.ch = some slot ∧ s'.calling = s.calling ∧
      s'.sending = s.sending ∧ s'.ch = none ∧ s'.resps = s.resps ++ [slot] ∧
      s'.main = if n ≤ s'.resps.length + 1 then .returned s'.resps s.err else .collecting := by
  unfold receive at h
  split at h
  · next slot hmain hch =>
    refine ⟨hmain, slot, hch, ?_⟩
    dsimp only at h
    split at h
    · next henough =>
      cases h
      exact ⟨rfl, rfl, rfl, rfl, (if_pos (by dsimp only; omega)).symm⟩
    · next hfew =>
      cases h
      exact ⟨rfl, rfl, rfl, rfl, by rw [if_neg (by dsimp only; omega)]; exact hmain⟩
  · cases h

theorem receive_places {n : ℕ} (h : s.receive n = some s') : s'.located own = s.located own := by
  obtain ⟨hmain, slot, hch, hcalling, hsending, hch', hresps, hmain'⟩ := receive_eq_some h
  have hstarted : unstarted own s'.main = [] := by
    rw [hmain']
    split <;> rfl
  rw [located, located, hstarted, hmain, hcalling, hsending, hch', hresps, hch, List.map_append,
    ← coe_add]
  abel

theorem Accounted.step [DecidableEq R] (h : Accounted own svs s) {e : ForkEvent R E}
    (hstep : (fork R E own svs).step s e = some s') : Accounted own svs s' := by
  obtain ⟨hplaces, hcollected⟩ := h
  cases e with
  | next =>
    refine ⟨(next_places hstep).trans hplaces, ?_⟩
    change s.next own = some s' at hstep
    unfold Fork.next at hstep
    split at hstep
    · next hmain =>
      cases hstep
      rw [hmain] at hcollected
      exact .inl hcollected
    · next hmain =>
      rw [hmain] at hcollected
      split at hstep <;>
      · cases hstep
        exact hcollected
    · cases hstep
  | answer =>
    refine ⟨(answer_places hstep).trans hplaces, ?_⟩
    obtain ⟨-, ⟨⟩⟩ := Option.ite_none_right_eq_some.mp hstep
    exact hcollected
  | send =>
    refine ⟨(send_places hstep).trans hplaces, ?_⟩
    obtain ⟨-, ⟨⟩⟩ := Option.ite_none_right_eq_some.mp hstep
    exact hcollected
  | receive =>
    refine ⟨(receive_places hstep).trans hplaces, ?_⟩
    obtain ⟨hmain, slot, -, -, -, -, hresps, hmain'⟩ := receive_eq_some hstep
    rw [hmain] at hcollected
    have hlength : s'.resps.length = s.resps.length + 1 := by
      rw [hresps, List.length_append]
      rfl
    have hfew : s.resps.length = 0 ∨ s.resps.length + 1 < svs.length :=
      hcollected.imp_left fun hempty => by rw [hempty]; rfl
    rw [hmain']
    split
    · next henough => exact ⟨rfl, by omega, by omega, henough⟩
    · next hmore => exact .inr (not_le.mp hmore)

theorem fork_accounted [DecidableEq R] {events : List (ForkEvent R E)}
    (hrun : (fork R E own svs).run events = some s) : Accounted own svs s := by
  apply System.run_induction ?_ ?_ hrun
  · exact ⟨by simp [fork, located, unstarted], rfl⟩
  · exact fun _ _ _ _ _ h hstep => h.step hstep

/-! ## The end of a run -/

theorem length_others (hnodup : (svs.map Server.id).Nodup) :
    (own ∈ svs.map Server.id ∧ (others own svs).length + 1 = svs.length) ∨
      (own ∉ svs.map Server.id ∧ (others own svs).length = svs.length) := by
  rw [others, ← hnodup.erase_eq_filter]
  by_cases hown : own ∈ svs.map Server.id
  · refine .inl ⟨hown, ?_⟩
    have hpos := List.length_pos_of_mem hown
    rw [List.length_erase_of_mem hown, Nat.sub_add_cancel hpos, List.length_map]
  · exact .inr ⟨hown, by rw [List.erase_of_not_mem hown, List.length_map]⟩

theorem calling_of_stuck [DecidableEq R] (hstuck : (fork R E own svs).Stuck s) :
    s.calling = [] := by
  refine List.eq_nil_iff_forall_not_mem.mpr fun id hid => ?_
  have hanswer : s.answer id none none = none := hstuck (.answer id none none)
  rw [Fork.answer, if_pos hid] at hanswer
  cases hanswer

theorem not_starting_of_stuck [DecidableEq R] (hstuck : (fork R E own svs).Stuck s)
    (rest : List Server) :
    s.main ≠ .starting rest := by
  intro hmain
  have hnext : s.next own = none := hstuck .next
  unfold Fork.next at hnext
  rw [hmain] at hnext
  cases rest with
  | nil => cases hnext
  | cons =>
    dsimp only at hnext
    split at hnext <;> cases hnext

theorem drained_of_stuck [DecidableEq R] (hstuck : (fork R E own svs).Stuck s)
    (hmain : s.main = .collecting) :
    s.ch = none ∧ s.sending = [] := by
  have hreceive : s.receive svs.length = none := hstuck .receive
  have hch : s.ch = none := by
    cases hch : s.ch with
    | none => rfl
    | some =>
      unfold Fork.receive at hreceive
      rw [hmain, hch] at hreceive
      dsimp only at hreceive
      split at hreceive <;> cases hreceive
  refine ⟨hch, List.eq_nil_iff_forall_not_mem.mpr fun slot hslot => ?_⟩
  have hsend : s.send slot = none := hstuck (.send slot)
  rw [Fork.send, if_pos ⟨hslot, hch⟩] at hsend
  cases hsend

/-- **A run that cannot go on**: the caller waits for a response although there is no other
server, or it has returned with some of the responses. -/
theorem Accounted.stuck [DecidableEq R] (h : Accounted own svs s)
    (hnodup : (svs.map Server.id).Nodup) (hstuck : (fork R E own svs).Stuck s) :
    (s.main = .collecting ∧ others own svs = []) ∨
      ∃ resps err, s.main = .returned resps err ∧
        ((resps.map Prod.fst : List Bytes) : Multiset Bytes) ≤ others own svs ∧
        0 < resps.length ∧ (resps.length = 1 ∨ resps.length + 1 = svs.length) ∧
        svs.length ≤ resps.length + 1 := by
  obtain ⟨hplaces, hcollected⟩ := h
  cases hmain : s.main with
  | starting rest => exact absurd hmain (not_starting_of_stuck hstuck rest)
  | collecting =>
    obtain ⟨hch, hsending⟩ := drained_of_stuck hstuck hmain
    -- all responses have been received, and they were not enough
    rw [located, hmain, calling_of_stuck hstuck, hch, hsending] at hplaces
    simp only [unstarted, coe_nil, List.map_nil, Option.toList_none, zero_add] at hplaces
    have hcount : s.resps.length = (others own svs).length := by
      have hcard := congrArg card hplaces
      simpa using hcard
    rw [hmain] at hcollected
    refine .inl ⟨rfl, List.eq_nil_of_length_eq_zero ?_⟩
    rw [← hcount]
    rcases hcollected with hempty | hfew
    · rw [hempty]
      rfl
    · rcases @length_others own svs hnodup with ⟨-, hlength⟩ | ⟨-, hlength⟩ <;> omega
  | returned resps err =>
    rw [hmain] at hcollected
    obtain ⟨rfl, hlength⟩ := hcollected
    refine .inr ⟨s.resps, err, rfl, ?_, hlength⟩
    rw [← hplaces]
    exact le_add_left _ _

/-- All runs that cannot go on have returned one response for each other server. -/
def Answered (R E : Type) [DecidableEq R] (own : Bytes) (svs : List Server) : Prop :=
  ∀ events s, (fork R E own svs).run events = some s → (fork R E own svs).Stuck s →
    ∃ resps err, s.main = .returned resps err ∧
      (resps.map Prod.fst).Perm (others own svs)

theorem answered_iff [DecidableEq R] (hnodup : (svs.map Server.id).Nodup) (hne : svs ≠ []) :
    Answered R E own svs ↔
      (own ∈ svs.map Server.id ∧ 2 ≤ svs.length) ∨
        (own ∉ svs.map Server.id ∧ svs.length = 1) := by
  have hpos : 0 < svs.length := List.length_pos_iff.mpr hne
  have hothers := @length_others own svs hnodup
  constructor
  · intro hanswered
    obtain ⟨events, s, hrun, hstuck⟩ :=
      System.exists_stuck (S := fork R E own svs) step_work (fork R E own svs).start
    obtain ⟨resps, err, hmain, hperm⟩ := hanswered events s hrun hstuck
    have hlength := hperm.length_eq
    rw [List.length_map] at hlength
    rcases (fork_accounted hrun).stuck hnodup hstuck with
      ⟨hmain', -⟩ | ⟨resps', err', hmain', -, hsome, hnumber, henough⟩
    · cases hmain.symm.trans hmain'
    · cases hmain.symm.trans hmain'
      rcases hothers with ⟨hown, hcount⟩ | ⟨hown, hcount⟩
      · exact .inl ⟨hown, by omega⟩
      · exact .inr ⟨hown, by omega⟩
  · intro hcondition events s hrun hstuck
    have hcount : (others own svs).length = max 1 (svs.length - 1) := by
      rcases hcondition with ⟨hown, htwo⟩ | ⟨hown, hone⟩
      · rcases hothers with ⟨-, hcount⟩ | ⟨hnot, -⟩
        · omega
        · exact absurd hown hnot
      · rcases hothers with ⟨hin, -⟩ | ⟨-, hcount⟩
        · exact absurd hin hown
        · omega
    rcases (fork_accounted hrun).stuck hnodup hstuck with
      ⟨-, hnone⟩ | ⟨resps, err, hmain, hle, hsome, hnumber, henough⟩
    · rw [hnone, List.length_nil] at hcount
      omega
    · refine ⟨resps, err, hmain, coe_eq_coe.mp ?_⟩
      refine eq_of_le_of_card_le hle ?_
      rw [coe_card, coe_card, List.length_map]
      omega

end Fork

/-! ## The servers of a type -/

theorem getServersByType_keyed {cfg : Config} {sd : Discovery} (h : sd.Indexed cfg) {typ : Bytes}
    {m : Servers} (hget : sd.getServersByType typ = .ok m) {id : Bytes} {sv : Server}
    (hlookup : m.lookup id = some sv) : sv.id = id := by
  have htyped := getServersByType_lookup.mp ⟨m, hget, hlookup⟩
  exact h.keyed id sv ((h.byType typ id sv).mp htyped).1

theorem getServersByType_pos {sd : Discovery} {typ : Bytes} {m : Servers}
    (hget : sd.getServersByType typ = .ok m) : 0 < m.size := by
  unfold Discovery.getServersByType at hget
  split at hget
  · split at hget
    · next hpos =>
      cases hget
      exact hpos
    · cases hget
  · cases hget

theorem ids_of_visit {m : Servers} (hkeyed : ∀ id sv, m.lookup id = some sv → sv.id = id)
    {svs : List Server} (hvisit : (svs : Multiset Server) = m.values) :
    ((svs.map Server.id : List Bytes) : Multiset Bytes) = m.keys.val := by
  rw [← map_coe, hvisit, Finmap.values, map_map]
  refine map_congr rfl fun e he => ?_
  exact hkeyed e.1 e.2 (Finmap.mem_lookup_iff.mpr he)

/-- **`DoForkRequest` ends with one response for each other server, or not.**  No run of it
is longer than four steps a server and one.  All runs that cannot go on have returned one
slot for each server of the type other than the caller if and only if the caller is one of
at least two servers, or there is just one server and it is not the caller. -/
theorem doForkRequest_iff (R E : Type) [DecidableEq R] (cfg : Config) (updates : List Update)
    (sd : Discovery) (hrun : (reconciler cfg).run updates = some sd) (typ : Bytes) (m : Servers)
    (hget : sd.getServersByType typ = .ok m) (svs : List Server)
    (hvisit : (svs : Multiset Server) = m.values) :
    (∀ events s, (fork R E cfg.server.id svs).run events = some s →
      events.length ≤ 4 * m.size + 1) ∧
    ((∀ events s, (fork R E cfg.server.id svs).run events = some s →
        (fork R E cfg.server.id svs).Stuck s →
        ∃ resps err, s.main = .returned resps err ∧
          ((resps.map Prod.fst : List Bytes) : Multiset Bytes) = (m.keys.erase cfg.server.id).val) ↔
      (cfg.server.id ∈ m ∧ 2 ≤ m.size) ∨ (cfg.server.id ∉ m ∧ m.size = 1)) := by
  have hids := ids_of_visit (fun id sv hlookup =>
    getServersByType_keyed (reconciler_indexed hrun) hget hlookup) hvisit
  have hsize : svs.length = m.size := by
    have hcard := congrArg Multiset.card hids
    rwa [Multiset.coe_card, List.length_map] at hcard
  have hnodup : (svs.map Server.id).Nodup := by
    rw [← Multiset.coe_nodup, hids]
    exact m.keys.nodup
  have hown : cfg.server.id ∈ svs.map Server.id ↔ cfg.server.id ∈ m := by
    rw [← Multiset.mem_coe, hids, Finset.mem_val, Finmap.mem_keys]
  have hothers : ((Fork.others cfg.server.id svs : List Bytes) : Multiset Bytes)
      = (m.keys.erase cfg.server.id).val := by
    rw [← Finset.filter_ne', Finset.filter_val, ← hids, Multiset.filter_coe, Fork.others]
    exact congrArg _ (List.filter_congr fun id _ => by simp [bne, Bool.beq_eq_decide_eq])
  constructor
  · intro events s hevents
    have hbound := System.length_add_le (S := fork R E cfg.server.id svs) Fork.step_work hevents
    have hwork : (fork R E cfg.server.id svs).start.work = 4 * m.size + 1 := by
      rw [← hsize]
      rfl
    omega
  · rw [← hsize, ← hown, ← Fork.answered_iff (R := R) (E := E) hnodup
      (List.length_pos_iff.mp (hsize ▸ getServersByType_pos hget))]
    unfold Fork.Answered
    simp only [← Multiset.coe_eq_coe, hothers]

/-- Only the caller is there: `DoForkRequest` waits for a response that nobody sends. -/
theorem fork_alone : ∃ sd, (reconciler twoByteConfig).run
      [.watchResponse [⟨getKey [115] [98], some [98, 115], 1⟩]] = some sd ∧
    (∃ s, (fork Unit Unit [115] [Server.fix { id := [115], typ := [98] }]).run [.next, .next]
        = some s ∧
      (fork Unit Unit [115] [Server.fix { id := [115], typ := [98] }]).Stuck s ∧ s.resps = []) ∧
    sd.getServersByType [98]
      = .ok (Finmap.singleton [115] (Server.fix { id := [115], typ := [98] })) := by
  refine reaches_and (by decide +kernel) fun sd _ _ =>
    ⟨{ main := .collecting }, rfl, fun e => ?_, rfl⟩
  cases e with
  | next | answer | send | receive => rfl

/-- The caller and one other server: every run ends with the response of the other. -/
theorem doForkRequest_pair : ∃ sd, (reconciler twoByteConfig).run
      [.watchResponse [⟨getKey [115] [98], some [98, 115], 1⟩,
        ⟨getKey [120] [98], some [98, 120], 1⟩]] = some sd ∧
    (∀ events s,
      (fork Unit Unit [115] [Server.fix { id := [120], typ := [98] },
        Server.fix { id := [115], typ := [98] }]).run events = some s →
      (fork Unit Unit [115] [Server.fix { id := [120], typ := [98] },
        Server.fix { id := [115], typ := [98] }]).Stuck s →
      ∃ resps err, s.main = .returned resps err ∧ resps.map Prod.fst = [[120]]) ∧
    sd.getServersByType [98]
      = .ok ((Finmap.singleton [115] (Server.fix { id := [115], typ := [98] })).insert [120]
        (Server.fix { id := [120], typ := [98] })) := by
  refine reaches_and (by decide +kernel) fun sd hsd htest events s hevents hstuck => ?_
  obtain ⟨-, hiff⟩ := doForkRequest_iff Unit Unit twoByteConfig _ sd hsd [98] _
    htest [Server.fix { id := [120], typ := [98] },
      Server.fix { id := [115], typ := [98] }] (by decide +kernel)
  obtain ⟨resps, err, hmain, hslots⟩ :=
    hiff.mpr (.inl ⟨by decide +kernel, by decide +kernel⟩) events s hevents hstuck
  refine ⟨resps, err, hmain, ?_⟩
  exact Multiset.coe_eq_singleton.mp hslots

end Pitaya.Service
