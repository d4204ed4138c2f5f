import Pitaya.Foundations.ByteString
import Pitaya.Foundations.FiniteMap
import Pitaya.Foundations.Ranges

/-!
# Registering a component

`Register` of `service/remote.go`: the remote methods of a component are put into the tables of the
remote service and, for a subscriber, into the record of the server that service discovery
publishes, with a flag that says whether every instance is to get a message.

* `subscribeLoop` — the loop over the methods.  Its flag is declared outside and stays up once it
  is.
* `register` — the method.
* `sticky_flag` — a component with two methods, one of which is in the list.
-/

namespace Pitaya.Registration

open Ranges List Finmap

/-- The options of a component that `Register` reads. -/
structure ComponentOptions where
  name : Bytes := []
  nameFunc : Option (Bytes → Bytes) := none
  subscriber : Bool := false
  forkMethods : List Bytes := []
  forkAll : Bool := false

/-- `apply`: the options one after the other; then the methods in the list are renamed as those of
the component are. -/
def apply (opts : List (ComponentOptions → ComponentOptions)) : ComponentOptions :=
  let opt := opts.foldl (fun opt o => o opt) {}
  match opt.nameFunc with
  | some nameFunc => { opt with forkMethods := opt.forkMethods.map nameFunc }
  | none => opt

/-- A component as reflection sees it: its type with the name of that, and the methods that can be
remote ones, of the type and of a pointer to it. -/
structure Component (R : Type) where
  typ : Bytes
  typeName : Bytes
  isExported : Bool := true
  methods : List (Bytes × R)
  pointerMethods : List (Bytes × R) := []

/-- The errors of `Register`. -/
inductive RegisterError where
  /-- "remote: service already defined: %s". -/
  | alreadyDefined (name : Bytes)
  /-- "no service name for type %s". -/
  | noServiceName (typ : Bytes)
  /-- "type %s is not exported". -/
  | notExported (typeName : Bytes)
  /-- "type %s has no exported methods of remote type", with a hint to pass a pointer. -/
  | noMethods (name : Bytes) (hint : Bool)
  deriving DecidableEq, Repr

/-- The tables of a remote service, those of services by their names, and `Subscribe` of the
server. -/
structure Registry (R : Type) where
  services : Finset Bytes := ∅
  subscribers : Finset Bytes := ∅
  remotes : Finmap fun _ : Bytes => R := ∅
  subscribe : Finmap fun _ : Bytes => Bool := ∅

variable {R : Type}

def suitableRemoteMethods (methods : List (Bytes × R)) (nameFunc : Option (Bytes → Bytes)) :
    Finmap fun _ : Bytes => R :=
  Finmap.assign ∅ (methods.map fun m => (nameFunc.elim m.1 fun f => f m.1, m.2))

variable (comp : Component R) (opt : ComponentOptions)

/-- The name of a service. -/
def serviceName : Bytes :=
  if opt.name ≠ [] then opt.name else comp.typeName

/-- The remote methods of a service. -/
def remotes : Finmap fun _ : Bytes => R :=
  suitableRemoteMethods comp.methods opt.nameFunc

def extractRemote :
    Except RegisterError (Finmap fun _ : Bytes => R) :=
  if comp.typeName = [] then .error (.noServiceName comp.typ)
  else if !comp.isExported then .error (.notExported comp.typeName)
  else if (remotes comp opt).size = 0 then
    .error (.noMethods (serviceName comp opt)
      (decide ((suitableRemoteMethods comp.pointerMethods opt.nameFunc).size ≠ 0)))
  else .ok (remotes comp opt)

/-- The key of `AddSubscribe`, "%s-%s". -/
def subscribeKey (service method : Bytes) : Bytes := service ++ [45] ++ method

/-- The loop that publishes the methods. -/
def subscribeLoop (service : Bytes) (forkMethods : List Bytes) :
    Bool → Finmap (fun _ : Bytes => Bool) → List (Bytes × R) → Finmap fun _ : Bytes => Bool
  | _, subscribe, [] => subscribe
  | fork, subscribe, (name, _) :: entries =>
    let fork := if !fork then forkMethods.contains name else fork
    subscribeLoop service forkMethods fork (subscribe.insert (subscribeKey service name) fork)
      entries

variable (reg : Registry R)

/-- The checks of `Register`. -/
def check (comp : Component R) (opt : ComponentOptions) : Option RegisterError :=
  if serviceName comp opt ∈ (if opt.subscriber then reg.subscribers else reg.services) then
    some (.alreadyDefined (serviceName comp opt))
  else
    match extractRemote comp opt with
    | .error e => some e
    | .ok _ => none

/-- The tables with a new service, where the two loops over its methods visit them in the given
orders. -/
def Registry.add (name : Bytes) (opt : ComponentOptions)
    (order order' : List (Bytes × R)) : Registry R where
  services := if opt.subscriber then reg.services else insert name reg.services
  subscribers := if opt.subscriber then insert name reg.subscribers else reg.subscribers
  remotes := reg.remotes.assign (order.map fun e => (name ++ [46] ++ e.1, e.2))
  subscribe :=
    if opt.subscriber then
      let fork := if opt.forkMethods.length = 0 then opt.forkAll else false
      subscribeLoop name opt.forkMethods fork reg.subscribe order'
    else reg.subscribe

def register (comp : Component R)
    (opts : List (ComponentOptions → ComponentOptions)) (order order' : List (Bytes × R)) :
    Registry R × Option RegisterError :=
  let opt := apply opts
  match check reg comp opt with
  | some e => (reg, some e)
  | none => (reg.add (serviceName comp opt) opt order order', none)

/-- The flag the options ask for. -/
def wanted (method : Bytes) : Bool :=
  if opt.forkMethods = [] then opt.forkAll else opt.forkMethods.contains method

/-- In every order of the methods, each of them is published with the flag the options ask for. -/
def FlagsRight (comp : Component R) (opts : List (ComponentOptions → ComponentOptions)) : Prop :=
  ∀ order order', Visits (remotes comp (apply opts)) order →
    Visits (remotes comp (apply opts)) order' → ∀ method ∈ remotes comp (apply opts),
      (register reg comp opts order order').1.subscribe.lookup
        (subscribeKey (serviceName comp (apply opts)) method) = some (wanted (apply opts) method)

/-! ## The loop -/

section

variable {service name : Bytes} {forkMethods : List Bytes} {fork : Bool}
  {subscribe : Finmap fun _ : Bytes => Bool} {before after entries : List (Bytes × R)} {r : R}

theorem subscribeKey_inj {method method' : Bytes}
    (h : subscribeKey service method = subscribeKey service method') : method = method' :=
  append_cancel_left h

theorem subscribeLoop_cons (service : Bytes) (forkMethods : List Bytes) (fork : Bool)
    (subscribe : Finmap fun _ : Bytes => Bool) (name : Bytes) (r : R) (entries : List (Bytes × R)) :
    subscribeLoop service forkMethods fork subscribe ((name, r) :: entries) =
      subscribeLoop service forkMethods (fork || forkMethods.contains name)
        (subscribe.insert (subscribeKey service name) (fork || forkMethods.contains name))
        entries := by
  cases fork <;> rfl

theorem lookup_subscribeLoop_of_notMem (h : name ∉ entries.map Prod.fst) :
    (subscribeLoop service forkMethods fork subscribe entries).lookup (subscribeKey service name) =
      subscribe.lookup (subscribeKey service name) := by
  induction entries generalizing fork subscribe with
  | nil => rfl
  | cons entry entries ih =>
    rw [map_cons, mem_cons, not_or] at h
    rw [subscribeLoop_cons, ih h.2, lookup_insert_of_ne]
    exact fun heq => h.1 (subscribeKey_inj heq)

/-- **The flag of a method** is up if it was at first, or if the list has it or a method visited
before it. -/
theorem lookup_subscribeLoop (h : name ∉ after.map Prod.fst) :
    (subscribeLoop service forkMethods fork subscribe (before ++ (name, r) :: after)).lookup
        (subscribeKey service name) =
      some (fork || (before.map Prod.fst).any forkMethods.contains ||
        forkMethods.contains name) := by
  induction before generalizing fork subscribe with
  | nil =>
    rw [nil_append, subscribeLoop_cons, lookup_subscribeLoop_of_notMem h,
      lookup_insert, map_nil, any_nil, Bool.or_false]
  | cons entry before ih =>
    obtain ⟨name', r'⟩ := entry
    rw [cons_append, subscribeLoop_cons, ih, map_cons, any_cons]
    simp only [Bool.or_assoc]

end

/-! ## Every order -/

section

variable {reg : Registry R} {comp : Component R}
  {opts : List (ComponentOptions → ComponentOptions)} {order order' : List (Bytes × R)}

theorem register_subscribe (hsubscriber : (apply opts).subscriber = true)
    (hcheck : check reg comp (apply opts) = none) (order order' : List (Bytes × R)) :
    (register reg comp opts order order').1.subscribe =
      subscribeLoop (serviceName comp (apply opts)) (apply opts).forkMethods
        (if (apply opts).forkMethods.length = 0 then (apply opts).forkAll else false)
        reg.subscribe order' := by
  rw [register, hcheck]
  exact if_pos hsubscriber

variable {m : Finmap fun _ : Bytes => R}

theorem exists_lookup {k : Bytes} (h : k ∈ m) : ∃ r, m.lookup k = some r :=
  Option.isSome_iff_exists.mp (lookup_isSome.mpr h)

theorem split_of_visits (hvisits : Visits m order) {k : Bytes} (h : k ∈ m) :
    ∃ r before after, order = before ++ (k, r) :: after ∧ k ∉ after.map Prod.fst := by
  obtain ⟨r, hr⟩ := exists_lookup h
  obtain ⟨before, after, rfl⟩ := append_of_mem (hvisits.mem_iff.mpr hr)
  have hnodup := hvisits.nodup
  rw [map_append, map_cons] at hnodup
  exact ⟨r, before, after, rfl, (nodup_cons.mp (nodup_append.mp hnodup).2.1).1⟩

/-- A method that is not listed gets the flag when a listed one is visited before it. -/
theorem exists_order_flagged {service listed out : Bytes} {forkMethods : List Bytes} (fork : Bool)
    (subscribe : Finmap fun _ : Bytes => Bool) (hlisted : listed ∈ m) (hout : out ∈ m)
    (hmem : listed ∈ forkMethods) (hnot : out ∉ forkMethods) : ∃ order, Visits m order ∧
      (subscribeLoop service forkMethods fork subscribe order).lookup (subscribeKey service out) =
        some true := by
  obtain ⟨r, hr⟩ := exists_lookup hlisted
  obtain ⟨r', hr'⟩ := exists_lookup hout
  have hne : out ≠ listed := fun heq => hnot (heq ▸ hmem)
  obtain ⟨order, hvisits⟩ := exists_visits m
  obtain ⟨rest, hsecond⟩ := hvisits.second hr hr' hne
  have hlast : out ∉ rest.map Prod.fst :=
    (nodup_cons.mp (nodup_cons.mp hsecond.nodup).2).1
  refine ⟨_, hsecond, ?_⟩
  rw [← singleton_append, lookup_subscribeLoop hlast]
  simp [hmem]

/-- Where no method of the component is listed, none of those visited raises the flag. -/
theorem any_contains_eq_false {forkMethods : List Bytes} {before after : List (Bytes × R)}
    (hvisits : Visits m (before ++ after)) (hnone : ∀ method ∈ m, method ∉ forkMethods) :
    (before.map Prod.fst).any forkMethods.contains = false := by
  rw [any_eq_false]
  intro name hname
  obtain ⟨⟨name, r⟩, hentry, rfl⟩ := mem_map.mp hname
  have hlookup := hvisits.mem_iff.mp (mem_append_left _ hentry)
  simpa using hnone name (mem_of_lookup_eq_some hlookup)

/-- **The flags of a subscriber are right in every order if and only if** no methods are listed, or
all those of the component are, or none of them. -/
theorem flagsRight_iff (hsubscriber : (apply opts).subscriber = true)
    (hcheck : check reg comp (apply opts) = none) :
    FlagsRight reg comp opts ↔
      (apply opts).forkMethods = [] ∨
      (∀ method ∈ remotes comp (apply opts), method ∈ (apply opts).forkMethods) ∨
      ∀ method ∈ remotes comp (apply opts), method ∉ (apply opts).forkMethods := by
  unfold FlagsRight
  simp only [register_subscribe hsubscriber hcheck, wanted]
  generalize (apply opts).forkMethods = forkMethods
  constructor
  · intro h
    by_contra hmixed
    push Not at hmixed
    obtain ⟨hlist, ⟨out, hout, hnot⟩, listed, hlisted, hmem⟩ := hmixed
    obtain ⟨order, hvisits, hraised⟩ := exists_order_flagged _ _ hlisted hout hmem hnot
    have hflag := h order order hvisits hvisits out hout
    rw [hraised, if_neg hlist] at hflag
    simp [hnot] at hflag
  · rintro h order order' - hvisits method hmethod
    obtain ⟨r, before, after, rfl, hlast⟩ := split_of_visits hvisits hmethod
    rw [lookup_subscribeLoop hlast]
    by_cases hlist : forkMethods = []
    · subst hlist
      simp
    have hlength : forkMethods.length ≠ 0 := fun h => hlist (List.eq_nil_of_length_eq_zero h)
    rw [if_neg hlist, if_neg hlength, Bool.false_or]
    rcases h.resolve_left hlist with hall | hnone
    · simp [hall method hmethod]
    · rw [any_contains_eq_false hvisits hnone]
      simp

end

/-! ## Two methods -/

/-- A component "C" with the methods "A" and "B". -/
def twoMethods : Component Unit where
  typ := [67]
  typeName := [67]
  methods := [([65], ()), ([66], ())]

theorem visits_twoMethods : Visits (remotes twoMethods {}) [([66], ()), ([65], ())] :=
  (visits_empty.cons notMem_empty ()).cons (by decide +kernel) ()

/-- Without a list of methods. -/
theorem flagsRight_forkAll :
    FlagsRight {} twoMethods [fun opt => { opt with subscriber := true, forkAll := true }] :=
  (flagsRight_iff rfl (by decide +kernel)).mpr (.inl rfl)

/-- A subscriber that lists "A". -/
def listsA : List (ComponentOptions → ComponentOptions) :=
  [fun opt => { opt with subscriber := true, forkMethods := [[65]] }]

/-- "A" is listed, and "B" is published with its flag if it is visited later. -/
theorem sticky_flag :
    (∃ order, Visits (remotes twoMethods {}) order ∧
      (register {} twoMethods listsA order order).1.subscribe.lookup (subscribeKey [67] [66]) =
        some true) ∧
    (∃ order, Visits (remotes twoMethods {}) order ∧
      (register {} twoMethods listsA order order).1.subscribe.lookup (subscribeKey [67] [66]) =
        some false) ∧
    ¬ FlagsRight {} twoMethods listsA := by
  have hswapped := visits_twoMethods.of_perm (List.Perm.swap _ _ _)
  refine ⟨⟨_, hswapped, by decide +kernel⟩, ⟨_, visits_twoMethods, by decide +kernel⟩, fun h => ?_⟩
  have hflag := h _ _ hswapped hswapped [66] (by decide +kernel)
  revert hflag
  decide +kernel

end Pitaya.Registration
