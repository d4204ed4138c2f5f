import Mathlib.Tactic.Push
import Pitaya.Session.Bindings

/-!
# The counters of the pool

`SessionCount` and `UserCount` are kept beside the tables `sessionsByID` and
`sessionsByUID` by separate statements, some of them unconditional.  This module
determines when they stay exact.

* `CountersExact` — both counters are the number of entries of their table.
* `Counted` — the condition on the state before an operation: every unconditional
  update of a counter comes with a change of the table.
* `CloseAllReturns` — the loop condition of `CloseAll` fails.
-/

namespace Pitaya.Pool

open Transition Finmap Finset CloseReason

variable {V : Type} (server : Server V)

variable (p : Pool V)

/-- `SessionCount` and `UserCount` count the entries of the tables. -/
def CountersExact : Prop :=
  p.sessionCount = p.sessionsByID.card ∧ p.userCount = p.sessionsByUID.size

instance (p : Pool V) : Decidable p.CountersExact := inferInstanceAs (Decidable (_ ∧ _))

/-- `CloseAll` loops while `SessionCount > 0`. -/
def CloseAllReturns : Prop := ¬ p.sessionCount > 0

instance (p : Pool V) : Decidable p.CloseAllReturns := inferInstanceAs (Decidable (¬ _))

/-! ## The condition -/

/-- A session whose `Close` is counted: it is in `sessionsByID`, and its uid, if it
has one, is in `sessionsByUID`. -/
def CloseCounted (id : ℕ) : Prop :=
  id ∈ p.sessionsByID ∧ ((p.session id).uid = [] ∨ (p.session id).uid ∈ p.sessionsByUID)

instance (p : Pool V) (id : ℕ) : Decidable (p.CloseCounted id) :=
  inferInstanceAs (Decidable (_ ∧ (_ ∨ _)))

/-- A session whose `Close` in the rebind branch of `Bind` is counted.  When its
uid is neither the one being bound nor in the table, the two miscounts cancel. -/
def RebindCounted (id : ℕ) (uid : Bytes) (old : ℕ) : Prop :=
  old ∈ p.sessionsByID ∧
    (old = id ∨ (p.session old).uid = uid ∨
      ((p.session old).uid ≠ [] ∧ (p.session old).uid ∉ p.sessionsByUID))

instance (p : Pool V) (id : ℕ) (uid : Bytes) (old : ℕ) :
    Decidable (p.RebindCounted id uid old) :=
  inferInstanceAs (Decidable (_ ∧ (_ ∨ _ ∨ _)))

/-- **The condition**: every counter that the operation changes without a look at
the table has its entry there to lose, or none to replace. -/
def Counted : Op V → Prop
  | .close id _ _ => p.CloseCounted id
  | .closeAllVisit id _ => (p.session id).hasRequestsInFlight = true ∨ p.CloseCounted id
  | .bind id uid custSessData replies =>
    p.Registers server id uid custSessData replies →
      ∀ old ∈ p.getSessionByUID uid, p.RebindCounted id uid old
  | .storeSessionLocal id =>
    (p.session id).uid = [] ∨ (p.session id).uid ∉ p.sessionsByUID
  | .removeSessionLocal id =>
    (p.session id).uid = [] ∨ (p.session id).uid ∈ p.sessionsByUID
  | .newSession _ _ _ => True
  | .kick _ _ _ => True
  | .setRequestInFlight _ _ _ _ => True

instance (p : Pool V) (op : Op V) : Decidable (p.Counted server op) :=
  match op with
  | .close _ _ _ => inferInstanceAs (Decidable (CloseCounted _ _))
  | .closeAllVisit _ _ => inferInstanceAs (Decidable (_ ∨ _))
  | .bind id uid custSessData replies =>
    inferInstanceAs (Decidable (p.Registers server id uid custSessData replies →
      ∀ old ∈ p.getSessionByUID uid, p.RebindCounted id uid old))
  | .storeSessionLocal _ => inferInstanceAs (Decidable (_ ∨ _))
  | .removeSessionLocal _ => inferInstanceAs (Decidable (_ ∨ _))
  | .newSession _ _ _ => inferInstanceAs (Decidable True)
  | .kick _ _ _ => inferInstanceAs (Decidable True)
  | .setRequestInFlight _ _ _ _ => inferInstanceAs (Decidable True)

/-! ## Counting one entry -/

theorem countUID_erase {c : ℤ} {m : Finmap fun _ : Bytes => ℕ} (h : c = m.size) (uid : Bytes) :
    c - 1 = ((m.erase uid).size : ℤ) ↔ uid ∈ m := by
  by_cases hmem : uid ∈ m
  · have := size_erase_of_mem hmem
    simp only [hmem, iff_true]
    omega
  · have := size_erase_of_notMem hmem
    simp only [hmem, iff_false]
    omega

theorem countUID_insert {c : ℤ} {m : Finmap fun _ : Bytes => ℕ} (h : c = m.size) (uid : Bytes)
    (id : ℕ) : c + 1 = ((m.insert uid id).size : ℤ) ↔ uid ∉ m := by
  by_cases hmem : uid ∈ m
  · have := size_insert_of_mem hmem id
    simp only [hmem, not_true, iff_false]
    omega
  · have := size_insert_of_notMem hmem id
    simp only [hmem, not_false_iff, iff_true]
    omega

theorem countID_erase {c : ℤ} {s : Finset ℕ} (h : c = s.card) (id : ℕ) :
    c - 1 = ((s.erase id).card : ℤ) ↔ id ∈ s := by
  by_cases hmem : id ∈ s
  · have := card_erase_add_one hmem
    simp only [hmem, iff_true]
    omega
  · rw [erase_eq_of_notMem hmem]
    simp only [hmem, iff_false]
    omega

variable {p : Pool V}

theorem deleteUID_users_iff (hexact : p.CountersExact) (id : ℕ) :
    (p.deleteUID id).userCount = (p.deleteUID id).sessionsByUID.size ↔
      (p.session id).uid = [] ∨ (p.session id).uid ∈ p.sessionsByUID := by
  by_cases hnil : (p.session id).uid = []
  · rw [deleteUID_of_nil hnil]
    exact iff_of_true hexact.2 (Or.inl hnil)
  · rw [deleteUID_of_ne_nil hnil]
    exact (countUID_erase hexact.2 _).trans (by simp only [hnil, false_or])

theorem close_countersExact_iff (hexact : p.CountersExact) (hempty : [] ∉ p.sessionsByUID) (id : ℕ)
    (reason : CloseReason) (replies : CloseReplies) :
    (p.close server id reason replies).CountersExact ↔ p.CloseCounted id := by
  obtain ⟨hbyUID, hbyID, hsessions, husers, -⟩ := p.unregister_tables id hempty
  have htables := (p.close_quiet_unregister server id reason replies).tables
  rw [CountersExact, htables.sessionCount, htables.sessionsByID, htables.userCount,
    htables.sessionsByUID, hbyUID, hbyID, hsessions, husers]
  exact and_congr (countID_erase hexact.1 id) (deleteUID_users_iff hexact id)

theorem rebind_users_iff (hexact : p.CountersExact) (hempty : [] ∉ p.sessionsByUID) {uid : Bytes}
    {old : ℕ} (hold : uid ∈ p.sessionsByUID) (id : ℕ) :
    (p.deleteUID old).userCount + 1 = ((p.deleteUID old).sessionsByUID.insert uid id).size ↔
      (p.session old).uid = uid ∨
        ((p.session old).uid ≠ [] ∧ (p.session old).uid ∉ p.sessionsByUID) := by
  have husers := hexact.2
  by_cases hnil : (p.session old).uid = []
  · -- nothing was deleted: the entry is replaced and counted again
    have hne : [] ≠ uid := fun h => hempty (h ▸ hold)
    rw [deleteUID_of_nil hnil, countUID_insert husers, hnil]
    simp [hold, hne]
  · rw [deleteUID_of_ne_nil hnil]
    by_cases hsame : (p.session old).uid = uid
    · have herase := size_erase_of_mem hold
      have hinsert := size_insert_of_notMem (m := p.sessionsByUID.erase uid) notMem_erase_self id
      simp only [hsame, true_or, iff_true]
      omega
    · have hmem : uid ∈ p.sessionsByUID.erase (p.session old).uid :=
        mem_erase.mpr ⟨Ne.symm hsame, hold⟩
      have hinsert := size_insert_of_mem hmem id
      by_cases hother : (p.session old).uid ∈ p.sessionsByUID
      · have herase := size_erase_of_mem hother
        simp only [hsame, hother, not_true, and_false, or_false, iff_false]
        omega
      · have herase := size_erase_of_notMem hother
        simp only [hsame, hother, hnil, not_false_iff, ne_eq, and_self, or_true, iff_true]
        omega

/-- Registering keeps exact counters exact if and only if the session it closes is
counted. -/
theorem register_countersExact_iff (hexact : p.CountersExact) (hempty : [] ∉ p.sessionsByUID)
    (id : ℕ) {uid : Bytes} (replies : CloseReplies) :
    (p.register server id uid replies).CountersExact ↔
      ∀ old ∈ p.getSessionByUID uid, old ∈ p.sessionsByID ∧
        ((p.session old).uid = uid ∨
          ((p.session old).uid ≠ [] ∧ (p.session old).uid ∉ p.sessionsByUID)) := by
  cases hlookup : p.getSessionByUID uid with
  | none =>
    have hnew : uid ∉ p.sessionsByUID := lookup_eq_none.mp hlookup
    have hregister : p.register server id uid replies =
        { p with
          sessionsByUID := p.sessionsByUID.insert uid id
          userCount := p.userCount + 1 } := by
      rw [register, show p.sessionsByUID.lookup uid = none from hlookup]
    rw [hregister]
    exact iff_of_true ⟨hexact.1, (countUID_insert hexact.2 uid id).mpr hnew⟩ (by simp)
  | some old =>
    have hold : uid ∈ p.sessionsByUID := mem_of_lookup_eq_some hlookup
    obtain ⟨hbyUID, hbyID, hsessions, husers, -⟩ := p.unregister_tables old hempty
    have htables := (p.close_quiet_unregister server old kickRebind replies).tables
    have hregister : p.register server id uid replies =
        { p.close server old kickRebind replies with
          sessionsByUID :=
            (p.close server old kickRebind replies).sessionsByUID.insert uid id
          userCount := (p.close server old kickRebind replies).userCount + 1 } := by
      rw [register, show p.sessionsByUID.lookup uid = some old from hlookup]
    rw [hregister, CountersExact]
    dsimp only
    rw [htables.sessionCount, htables.sessionsByID, htables.userCount, htables.sessionsByUID,
      hbyUID, hbyID, hsessions, husers]
    simp only [Option.mem_some_iff, forall_eq']
    exact and_congr (countID_erase hexact.1 old) (rebind_users_iff hexact hempty hold id)

/-! ## One operation -/

theorem SameTables.countersExact_iff {p' : Pool V} (h : SameTables p p') :
    p'.CountersExact ↔ p.CountersExact := by
  rw [CountersExact, h.sessionCount, h.sessionsByID, h.userCount, h.sessionsByUID]
  exact Iff.rfl

theorem newSession_countersExact (hexact : p.CountersExact)
    (hfresh : ∀ id ∈ p.sessionsByID, id ≤ p.sid) (entity : Entity) (frontend : Bool)
    (uid : Option Bytes) : (p.newSession entity frontend uid).1.CountersExact := by
  unfold newSession
  split
  · exact hexact
  · dsimp only
    split
    · have hnew : p.sid + 1 ∉ p.sessionsByID := fun h => absurd (hfresh _ h) (by omega)
      refine ⟨?_, hexact.2⟩
      have hsessions := hexact.1
      have hcard : (insert (p.sid + 1) p.sessionsByID).card = p.sessionsByID.card + 1 :=
        card_insert_of_notMem hnew
      dsimp only [set]
      omega
    · exact hexact

theorem storeSessionLocal_countersExact_iff (hexact : p.CountersExact) (id : ℕ) :
    (p.storeSessionLocal id).1.CountersExact ↔
      (p.session id).uid = [] ∨ (p.session id).uid ∉ p.sessionsByUID := by
  by_cases hnil : (p.session id).uid = []
  · have hrefused : (p.storeSessionLocal id).1 = p := by
      rw [storeSessionLocal, hnil]
      rfl
    rw [hrefused]
    exact iff_of_true hexact (Or.inl hnil)
  · have hlen : ¬ (p.session id).uid.length ≤ 0 :=
      Nat.not_le.mpr (List.length_pos_of_ne_nil hnil)
    have husers := countUID_insert hexact.2 (p.session id).uid id
    have hsessions := hexact.1
    simp only [hnil, false_or]
    rw [storeSessionLocal]
    dsimp only
    rw [if_neg hlen]
    split
    · exact ⟨fun h => husers.mp h.2, fun h => ⟨hsessions, husers.mpr h⟩⟩
    · next hnew =>
      have hcard := card_insert_of_notMem hnew
      refine ⟨fun h => husers.mp h.2, fun h => ⟨?_, husers.mpr h⟩⟩
      dsimp only
      omega

theorem removeSessionLocal_countersExact_iff (hexact : p.CountersExact) (id : ℕ) :
    (p.removeSessionLocal id).CountersExact ↔
      (p.session id).uid = [] ∨ (p.session id).uid ∈ p.sessionsByUID := by
  have husers := deleteUID_users_iff hexact id
  have hsessions : (p.deleteUID id).sessionCount = (p.deleteUID id).sessionsByID.card := by
    unfold deleteUID
    split <;> exact hexact.1
  rw [removeSessionLocal]
  split
  · exact ⟨fun h => husers.mp h.2, fun h => ⟨hsessions, husers.mpr h⟩⟩
  · next hmem =>
    exact ⟨fun h => husers.mp h.2,
      fun h => ⟨(countID_erase hsessions id).mpr (not_not.mp hmem), husers.mpr h⟩⟩

/-- **Step lemma**: an operation keeps exact counters exact if and only if it is
counted. -/
theorem apply_countersExact_iff (hexact : p.CountersExact) (hempty : [] ∉ p.sessionsByUID)
    (hfresh : ∀ id ∈ p.sessionsByID, id ≤ p.sid) (op : Op V) :
    (p.apply server op).CountersExact ↔ p.Counted server op := by
  cases op with
  | newSession entity frontend uid =>
    exact iff_of_true (newSession_countersExact hexact hfresh entity frontend uid) trivial
  | kick id reason replies =>
    exact iff_of_true
      ((p.kick_quiet server id reason replies).tables.countersExact_iff.mpr hexact) trivial
  | close id reason replies => exact close_countersExact_iff server hexact hempty id reason replies
  | closeAllVisit =>
    rw [apply, closeAllVisit, Counted]
    split
    · next hbusy => exact iff_of_true hexact (Or.inl hbusy)
    · next hidle =>
      rw [close_countersExact_iff server hexact hempty]
      simp only [hidle, Bool.false_eq_true, false_or]
  | setRequestInFlight => exact iff_of_true hexact trivial
  | storeSessionLocal id => exact storeSessionLocal_countersExact_iff hexact id
  | removeSessionLocal id => exact removeSessionLocal_countersExact_iff hexact id
  | bind id uid custSessData replies =>
    rw [apply, Counted]
    rcases p.bind_cases server id uid custSessData replies with
      ⟨hreg, hquiet⟩ | ⟨hreg, q, hquiet, -, huid, hbind⟩
    · exact iff_of_true (hquiet.tables.countersExact_iff.mpr hexact) fun h => absurd h hreg
    · have hq : q.getSessionByUID uid = p.getSessionByUID uid := by
        rw [getSessionByUID, hquiet.tables.sessionsByUID, getSessionByUID]
      rw [hbind, register_countersExact_iff server (hquiet.tables.countersExact_iff.mpr hexact)
        (by rwa [hquiet.tables.sessionsByUID]), hq]
      simp only [hreg, true_imp_iff]
      refine forall_congr' fun old => imp_congr_right fun _ => ?_
      rw [RebindCounted, hquiet.tables.sessionsByID, hquiet.tables.sessionsByUID]
      refine and_congr_right fun _ => ?_
      by_cases hold : old = id
      · rw [hold]
        exact iff_of_true (Or.inl huid) (Or.inl rfl)
      · rw [hquiet.uid old (by simpa using hold)]
        simp only [hold, false_or]

/-! ## Runs -/

/-- What every pool keeps: nobody has the empty uid in the table, and the ids in
use have been given out. -/
structure WellFormed (p : Pool V) : Prop where
  empty : [] ∉ p.sessionsByUID
  fresh : ∀ id ∈ p.sessionsByID, id ≤ p.sid

theorem close_fresh (wf : p.WellFormed) (id : ℕ) (reason : CloseReason) (replies : CloseReplies) :
    ∀ id' ∈ (p.close server id reason replies).sessionsByID,
      id' ≤ (p.close server id reason replies).sid := by
  obtain ⟨-, hbyID, -, -, hsid⟩ := p.unregister_tables id wf.empty
  have htables := (p.close_quiet_unregister server id reason replies).tables
  rw [htables.sessionsByID, htables.sid, hbyID, hsid]
  exact fun id' h => wf.fresh id' (mem_of_mem_erase h)

theorem apply_fresh (wf : p.WellFormed) {op : Op V}
    (hcreated : ∀ id, op.target = some id → p.Created id) :
    ∀ id ∈ (p.apply server op).sessionsByID, id ≤ (p.apply server op).sid := by
  cases op with
  | newSession =>
    rw [apply]
    unfold newSession
    split
    · exact wf.fresh
    · dsimp only
      split
      · intro id hid
        rcases mem_insert.mp hid with rfl | hid
        · exact Nat.le_refl _
        · exact Nat.le_succ_of_le (wf.fresh id hid)
      · exact fun id hid => Nat.le_succ_of_le (wf.fresh id hid)
  | kick id reason replies =>
    have htables := (p.kick_quiet server id reason replies).tables
    rw [apply, htables.sessionsByID, htables.sid]
    exact wf.fresh
  | close id reason replies => exact close_fresh server wf id reason replies
  | closeAllVisit id replies =>
    rw [apply, closeAllVisit]
    split
    · exact wf.fresh
    · exact close_fresh server wf id _ replies
  | setRequestInFlight => exact wf.fresh
  | storeSessionLocal =>
    rw [apply, storeSessionLocal]
    dsimp only
    split
    · exact wf.fresh
    split
    · exact wf.fresh
    · intro id' hid'
      rcases mem_insert.mp hid' with rfl | hid'
      · exact (hcreated _ rfl).2
      · exact wf.fresh id' hid'
  | removeSessionLocal id =>
    have hdelete : (p.deleteUID id).sessionsByID = p.sessionsByID ∧
        (p.deleteUID id).sid = p.sid := by
      unfold deleteUID
      split <;> exact ⟨rfl, rfl⟩
    rw [apply, removeSessionLocal]
    split
    · rw [hdelete.1, hdelete.2]
      exact wf.fresh
    · dsimp only
      rw [hdelete.1, hdelete.2]
      exact fun id' h => wf.fresh id' (mem_of_mem_erase h)
  | bind id uid custSessData replies =>
    rw [apply]
    rcases p.bind_cases server id uid custSessData replies with
      ⟨-, hquiet⟩ | ⟨-, q, hquiet, -, -, hbind⟩
    · rw [hquiet.tables.sessionsByID, hquiet.tables.sid]
      exact wf.fresh
    · have hq : q.WellFormed := by
        constructor
        · rw [hquiet.tables.sessionsByUID]
          exact wf.empty
        · rw [hquiet.tables.sessionsByID, hquiet.tables.sid]
          exact wf.fresh
      rw [hbind, register]
      split
      · exact close_fresh server hq _ _ _
      · exact hq.fresh

theorem wellFormed_of_run {ops : List (Op V)} (hrun : (pool server).run ops = some p) :
    p.WellFormed := by
  apply System.run_induction ?_ ?_ hrun
  · exact ⟨notMem_empty, fun id h => absurd h (notMem_empty id)⟩
  · intro ops op p p' _ wf hstep
    obtain ⟨rfl, hcreated⟩ := step_eq_some hstep
    exact ⟨apply_empty_notMem server wf.empty op, apply_fresh server wf hcreated⟩

/-- After every operation of the run the counters are exact. -/
def AlwaysExact (ops : List (Op V)) : Prop :=
  ∀ before after p, ops = before ++ after → (pool server).run before = some p →
    p.CountersExact

/-- **Run lemma.** -/
theorem countersExact_of_counted {ops : List (Op V)} (hrun : (pool server).run ops = some p)
    (hcounted : (pool server).Meets (Counted server) ops) : p.CountersExact := by
  apply System.run_induction_of_meets ?_ ?_ hrun hcounted
  · exact ⟨rfl, rfl⟩
  · intro ops op p p' hrun' hop hexact hstep
    have wf := wellFormed_of_run server hrun'
    obtain ⟨rfl, -⟩ := step_eq_some hstep
    exact (apply_countersExact_iff server hexact wf.empty wf.fresh op).mpr hop

/-- **The counters are exact throughout exactly the runs whose operations are all
counted, and in these `CloseAll` returns only when `sessionsByID` is empty.** -/
theorem counters_exact_iff_counted {ops : List (Op V)} {last : Pool V}
    (hrun : (pool server).run ops = some last) :
    (AlwaysExact server ops ↔ (pool server).Meets (Counted server) ops) ∧
      ((pool server).Meets (Counted server) ops → last.CloseAllReturns →
        last.sessionsByID = ∅) := by
  refine ⟨⟨fun hexact before op after p hsplit hbefore => ?_, fun hcounted => ?_⟩, ?_⟩
  · have hsplit' : ops = (before ++ [op]) ++ after := by
      rw [hsplit, List.append_assoc, List.singleton_append]
    rw [hsplit] at hrun
    obtain ⟨p', hstep⟩ := System.step_of_run_split hrun hbefore
    have hrun' : (pool server).run (before ++ [op]) = some p' :=
      System.run_concat_eq_some.mpr ⟨p, hbefore, hstep⟩
    obtain ⟨rfl, -⟩ := step_eq_some hstep
    have wf := wellFormed_of_run server hbefore
    exact (apply_countersExact_iff server (hexact before (op :: after) p hsplit hbefore)
      wf.empty wf.fresh op).mp (hexact _ after _ hsplit' hrun')
  · intro before after p hsplit hbefore
    rw [hsplit] at hcounted
    exact countersExact_of_counted server hbefore hcounted.of_append
  · intro hcounted hreturns
    have hsessions := (countersExact_of_counted server hrun hcounted).1
    rw [CloseAllReturns] at hreturns
    refine Finset.card_eq_zero.mp ?_
    omega

/-- Two logins, and the second session closes by itself. -/
theorem counters_exact_iff_counted_two_logins :
    AlwaysExact plainServer (twoLogins ++ [.close 2 CloseReason.normal {}]) := by
  have hrun : ((pool plainServer).run
      (twoLogins ++ [.close 2 CloseReason.normal {}])).isSome := by decide +kernel
  obtain ⟨last, hlast⟩ := Option.isSome_iff_exists.mp hrun
  exact (counters_exact_iff_counted plainServer hlast).1.mpr
    (System.meets_of_meetsFrom (by decide +kernel))

/-- Two logins, and the read loop of the kicked connection closes the first session
once more: `CloseAll` would return with the second session open. -/
theorem counters_wrong_after_deferred_close :
    ∃ last, (pool plainServer).run (twoLogins ++ [.close 1 CloseReason.normal {}]) = some last ∧
      ¬ last.CountersExact ∧ last.CloseAllReturns ∧ last.sessionsByID ≠ ∅ :=
  ⟨_, rfl, by decide +kernel, by decide +kernel, by decide +kernel⟩

end Pitaya.Pool
