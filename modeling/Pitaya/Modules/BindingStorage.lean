import Pitaya.Remote.Logins

/-!
# Whether the binding storage names the current frontend

`ETCDBindingStorage` of `modules/binding_storage.go` keeps one key for a user and a frontend
type.  The frontend that binds a session puts its id there, under its lease, and the frontend that
closes one deletes the key, whoever has put it.  `bootstrapLease` gets a new lease and puts
nothing.

* `getUserFrontendID` — what the key names.
* `leased_binding` — the key is always under the lease its frontend has now.
-/

namespace Pitaya.Logins

open Transition Threads List Option Shared Program Function

variable {F : Type} [DecidableEq F] {S : Setup F} {s s' : Shared F}
  {c : Config (Shared F) (Point F)}
  {p : Point F} {p' : Option (Point F)} {choice : Choice} {f : F} {uid : Bytes}

/-- `ErrBindingNotFound`. -/
inductive BindingError where
  | bindingNotFound
  deriving DecidableEq, Repr

namespace Shared

def getUserFrontendID (s : Shared F) (uid : Bytes) : Except BindingError Bytes :=
  match s.binding uid with
  | none => .error .bindingNotFound
  | some b => .ok b.frontendID

/-- The session of the user that was bound last, of those that are open. -/
def current (s : Shared F) (uid : Bytes) : Option (F × ℕ) :=
  (s.bound uid).find? fun x => (s.login x).chDie = false ∧ (s.login x).uid = uid

/-- The binding names the frontend of the current session. -/
def NamesCurrent (S : Setup F) (s : Shared F) (uid : Bytes) : Prop :=
  ∀ f sid, s.current uid = some (f, sid) → s.getUserFrontendID uid = .ok (S.serverID f)

end Shared

/-! ## Leases -/

/-- A binding is what a frontend would put now, under a lease that is alive. -/
def Leased (S : Setup F) (s : Shared F) : Prop :=
  ∀ uid b, s.binding uid = some b → ∃ f, b = s.bindingOf S f ∧ s.leased f = true

theorem Leased.lose (h : Leased S s) {b : Binding F}
    (hb : (s.binding uid).filter (fun b => b.lease ≠ (f, s.leaseID f)) = some b) :
    ∃ g, g ≠ f ∧ b = s.bindingOf S g ∧ s.leased g = true := by
  obtain ⟨hb, hlease⟩ := filter_eq_some_iff.mp hb
  obtain ⟨g, rfl, hg⟩ := h uid b hb
  refine ⟨g, ?_, rfl, hg⟩
  rintro rfl
  exact of_decide_eq_true hlease rfl

theorem Leased.step (h : Leased S s) (hstep : (logins S).step s p choice = some (s', p')) :
    Leased S s' := by
  obtain ⟨hnext, rfl⟩ := step_eq_some.mp hstep
  intro uid b hb
  cases p with
  | bind b' place =>
    cases place with
    | put uid' =>
      cases choice with
      | go =>
        obtain ⟨hleased, -⟩ := ite_none_right_eq_some.mp hnext
        by_cases huid : uid = uid'
        · subst huid
          cases (update_self ..).symm.trans hb
          exact ⟨b'.f, rfl, hleased⟩
        · exact h uid b ((update_of_ne huid ..).symm.trans hb)
      | _ => cases hnext
    | _ => cases choice <;> exact h uid b hb
  | close k place =>
    cases place with
    | delete uid' =>
      by_cases huid : uid = uid'
      · subst huid
        cases (update_self ..).symm.trans hb
      · exact h uid b ((update_of_ne huid ..).symm.trans hb)
    | _ => exact h uid b hb
  | lose g =>
    obtain ⟨f, hne, rfl, hf⟩ := h.lose hb
    exact ⟨f, rfl, (update_of_ne hne ..).trans hf⟩
  | bootstrapLease g =>
    obtain ⟨f, rfl, hf⟩ := h uid b hb
    have hne : f ≠ g := by
      rintro rfl
      cases choice <;> simp [next, hf] at hnext
    refine ⟨f, ?_, (update_of_ne hne ..).trans hf⟩
    simp [bindingOf, exec, update_of_ne hne]
  | _ => exact h uid b hb

theorem leased_binding (h : (logins S).Reachable c) : Leased S c.shared :=
  shared_invariant (J := Leased S) (fun _ b hb => (by cases hb))
    (fun _ _ _ _ _ hJ hstep => hJ.step hstep) h

/-! ## What happens to the key -/

/-- The event binds a session of the frontend. -/
def puts (uid : Bytes) (f : F) : Event (Point F) Choice → Bool
  | .run (.bind b (.put uid')) _ => uid' = uid ∧ b.f = f
  | _ => false

/-- The event takes the key away from the frontend: another one puts it, somebody deletes it, or
the lease is lost. -/
def disturbs (uid : Bytes) (f : F) : Event (Point F) Choice → Bool
  | .run (.bind b (.put uid')) _ => uid' = uid ∧ b.f ≠ f
  | .run (.close _ (.delete uid')) _ => uid' = uid
  | .run (.lose g) _ => g = f
  | _ => false

/-- Whatever takes the key away from the frontend is followed by another bind there. -/
def Undisturbed (uid : Bytes) (f : F) : Run (Point F) Choice → Prop
  | [] => True
  | e :: events =>
    (disturbs uid f e = true → ∃ e' ∈ events, puts uid f e' = true) ∧ Undisturbed uid f events

theorem not_disturbs_of_puts {e : Event (Point F) Choice} (h : puts uid f e = true) :
    disturbs uid f e = false := by
  unfold puts at h
  split at h
  · simp_all [disturbs]
  · cases h

theorem undisturbed_concat {events : Run (Point F) Choice} {e : Event (Point F) Choice} :
    Undisturbed uid f (events ++ [e]) ↔
      puts uid f e = true ∨ Undisturbed uid f events ∧ disturbs uid f e = false := by
  induction events with
  | nil =>
    have hputs : puts uid f e = true → disturbs uid f e = false := not_disturbs_of_puts
    cases hdisturbs : disturbs uid f e <;> simp_all [Undisturbed]
  | cons e₀ events ih =>
    simp only [cons_append, Undisturbed, ih, mem_append, mem_singleton]
    cases hputs : puts uid f e with
    | true =>
      simp only [true_or, and_true, iff_true]
      exact fun _ => ⟨e, .inr rfl, hputs⟩
    | false =>
      simp only [Bool.false_eq_true, false_or]
      constructor
      · rintro ⟨hfirst, hrest, he⟩
        refine ⟨⟨fun h => ?_, hrest⟩, he⟩
        obtain ⟨e', he' | rfl, hputs'⟩ := hfirst h
        · exact ⟨e', he', hputs'⟩
        · cases hputs.symm.trans hputs'
      · rintro ⟨⟨hfirst, hrest⟩, he⟩
        refine ⟨fun h => ?_, hrest, he⟩
        obtain ⟨e', he', hputs'⟩ := hfirst h
        exact ⟨e', .inl he', hputs'⟩

/-! ## What the key names -/

omit [DecidableEq F] in
theorem getUserFrontendID_eq_ok {id : Bytes} :
    s.getUserFrontendID uid = .ok id ↔ ∃ b, s.binding uid = some b ∧ b.frontendID = id := by
  unfold getUserFrontendID
  cases s.binding uid <;> simp

theorem names_step (hleased : Leased S s) (f : F)
    (hstep : (logins S).step s p choice = some (s', p')) :
    s'.getUserFrontendID uid = .ok (S.serverID f) ↔ puts uid f (.run p choice) = true ∨
      s.getUserFrontendID uid = .ok (S.serverID f) ∧ disturbs uid f (.run p choice) = false := by
  obtain ⟨-, rfl⟩ := step_eq_some.mp hstep
  cases p with
  | bind b place =>
    cases place with
    | put uid' =>
      by_cases huid : uid' = uid
      · subst huid
        simp [getUserFrontendID, exec, bindingOf, puts, disturbs, S.injective.eq_iff]
      · simp [getUserFrontendID, exec, puts, disturbs, huid, update_of_ne (Ne.symm huid)]
    | _ => cases choice <;> simp [getUserFrontendID, exec, modifyLogin, puts, disturbs]
  | close k place =>
    cases place with
    | delete uid' =>
      by_cases huid : uid' = uid
      · subst huid
        simp [getUserFrontendID, exec, puts, disturbs]
      · simp [getUserFrontendID, exec, puts, disturbs, huid, update_of_ne (Ne.symm huid)]
    | _ => simp [getUserFrontendID, exec, modifyLogin, puts, disturbs]
  | lose g =>
    simp only [getUserFrontendID_eq_ok, exec, puts, disturbs, Bool.false_eq_true, false_or,
      decide_eq_false_iff_not]
    constructor
    · rintro ⟨b, hb, hid⟩
      obtain ⟨h, hne, rfl, -⟩ := hleased.lose hb
      obtain rfl : h = f := S.injective hid
      exact ⟨⟨_, (filter_eq_some_iff.mp hb).1, hid⟩, hne.symm⟩
    · rintro ⟨⟨b, hb, hid⟩, hne⟩
      obtain ⟨h, rfl, -⟩ := hleased uid b hb
      obtain rfl : h = f := S.injective hid
      refine ⟨_, filter_eq_some_iff.mpr ⟨hb, decide_eq_true fun hlease => ?_⟩, hid⟩
      exact hne (congrArg Prod.fst hlease).symm
  | _ => simp [getUserFrontendID, exec, puts, disturbs]

/-- **The key since a bind.** -/
theorem names_iff {b : Bind F} {before after : Run (Point F) Choice}
    (hrun : (logins S).system.run (before ++ .run (.bind b (.put uid)) .go :: after) = some c) :
    c.shared.getUserFrontendID uid = .ok (S.serverID b.f) ↔ Undisturbed uid b.f after := by
  apply System.run_induction_since ?_ ?_ hrun
  · intro c₁ c hbefore hstep
    refine iff_of_true ?_ trivial
    rcases system_step hstep with ⟨p, he, -⟩ | ⟨p, rest, choice, s', p', he, -, hp, rfl⟩
    · cases he
    · cases he
      exact (names_step (leased_binding ⟨before, hbefore⟩) b.f hp).mpr (.inl (by simp [puts]))
  · intro after e c c' hbefore hI hstep
    rw [undisturbed_concat]
    rcases system_step hstep with ⟨p, rfl, -, rfl⟩ | ⟨p, rest, choice, s', p', rfl, -, hp, rfl⟩
    · simpa [puts, disturbs] using hI
    · rw [names_step (leased_binding ⟨_, hbefore⟩) b.f hp, hI]

theorem bound_step (uid : Bytes) (h : (logins S).step s p choice = some (s', p')) :
    s'.bound uid = s.bound uid ∨ ∃ b, p = .bind b (.put uid) ∧ choice = .go ∧
      s'.bound uid = b.session :: s.bound uid := by
  obtain ⟨hnext, rfl⟩ := step_eq_some.mp h
  cases p with
  | bind b place =>
    cases place with
    | put uid' =>
      by_cases huid : uid = uid'
      · subst huid
        cases choice with
        | go => exact .inr ⟨b, rfl, rfl, update_self ..⟩
        | _ => cases hnext
      · exact .inl (update_of_ne huid ..)
    | _ => cases choice <;> exact .inl rfl
  | close k place => cases place <;> exact .inl rfl
  | _ => exact .inl rfl

theorem put_of_bound {events : Run (Point F) Choice}
    (hrun : (logins S).system.run events = some c) :
    ∀ x ∈ c.shared.bound uid, ∃ b, b.session = x ∧ .run (.bind b (.put uid)) .go ∈ events := by
  apply System.run_induction ?_ ?_ hrun
  · intro x hx
    cases hx
  · intro events e c c' _ hI hstep x hx
    have hold (hx : x ∈ c.shared.bound uid) :
        ∃ b, b.session = x ∧ .run (.bind b (.put uid)) .go ∈ events ++ [e] := by
      obtain ⟨b, hb, hmem⟩ := hI x hx
      exact ⟨b, hb, mem_append_left _ hmem⟩
    rcases system_step hstep with ⟨p, rfl, -, rfl⟩ | ⟨p, rest, choice, s', p', rfl, -, hp, rfl⟩
    · exact hold hx
    · rcases bound_step uid hp with hsame | ⟨b, rfl, rfl, hbound⟩
      · exact hold (hsame ▸ hx)
      · rw [hbound] at hx
        rcases mem_cons.mp hx with rfl | hx
        · exact ⟨b, rfl, mem_append_right _ (mem_singleton_self _)⟩
        · exact hold hx

/-- **The current frontend.**  In every state, and so when no bind or close is in progress, the
binding of a user names the frontend of the open session that was bound last if and only if that
frontend has been undisturbed since. -/
theorem names_current_iff (S : Setup F) (uid : Bytes) (events : Run (Point F) Choice)
    (c : Config (Shared F) (Point F)) (hrun : (logins S).system.run events = some c) :
    c.shared.NamesCurrent S uid ↔
      ∀ f sid, c.shared.current uid = some (f, sid) → ∀ before after b, b.session = (f, sid) →
        events = before ++ .run (.bind b (.put uid)) .go :: after → Undisturbed uid f after := by
  constructor
  · rintro hnames f sid hcurrent before after b ⟨⟩ rfl
    exact (names_iff hrun).mp (hnames _ _ hcurrent)
  · intro h f sid hcurrent
    obtain ⟨b, hb, hmem⟩ := put_of_bound hrun _ (List.mem_of_find?_eq_some hcurrent)
    obtain ⟨before, after, rfl⟩ := List.append_of_mem hmem
    obtain ⟨rfl, rfl⟩ := Prod.mk.inj hb
    exact (names_iff hrun).mpr (h _ _ hcurrent before after b rfl rfl)

/-- The newer login kicks the older one, and nothing disturbs its frontend. -/
theorem names_current_kicked : ∃ c, (logins twoFrontends).system.run
      (binds false ++ binds true ++ hears true false ++ kicks true false) = some c ∧
    (c.shared.NamesCurrent twoFrontends [49] ∧
      Undisturbed [49] true (hears true false ++ kicks true false)) ∧
    c.shared.current [49] = some (true, 1) ∧
    c.shared.getUserFrontendID [49] = .ok (twoFrontends.serverID true) := by
  refine reaches_and (by decide +kernel) fun c hc ⟨hcurrent, hnamed⟩ => ?_
  have hnames : c.shared.NamesCurrent twoFrontends [49] := by
    intro f sid hf
    cases hcurrent.symm.trans hf
    exact hnamed
  refine ⟨hnames, ?_⟩
  exact (names_current_iff twoFrontends [49] _ c hc).mp hnames true 1 hcurrent
    (binds false ++ (binds true).dropLast) _ (login true) rfl rfl

/-- An older session is closed while a newer one is bound on the other frontend, and its close
callback deletes the key.  And a frontend loses its lease: it gets a new one, but the session that
is open has no binding any more. -/
theorem binding_lost :
    (∃ c, (logins twoFrontends).system.run
        (binds false ++ closes false ++ binds true ++ hears true false ++ closed false) = some c ∧
      c.threads = 0 ∧ c.shared.current [49] = some (true, 1) ∧
      c.shared.getUserFrontendID [49] = .error .bindingNotFound) ∧
    ∃ c, (logins twoFrontends).system.run
        (binds false ++ [.call (.lose false), .run (.lose false) .go,
          .call (.bootstrapLease false), .run (.bootstrapLease false) .go])
        = some c ∧
      c.threads = 0 ∧ c.shared.current [49] = some (false, 1) ∧
      c.shared.getUserFrontendID [49] = .error .bindingNotFound := by
  constructor <;> decide +kernel

end Pitaya.Logins
