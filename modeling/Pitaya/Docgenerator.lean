import Mathlib.Data.Set.Card
import Pitaya.Foundations.ByteString
import Pitaya.Foundations.FiniteMap
import Pitaya.Foundations.Search

/-!
# Descriptors of proto files

`docgenerator/descriptors.go`: the descriptors of a proto file and of all files that it imports,
collected into a map from paths to descriptors that the caller passes from call to call.

* `Registry` — the files that are linked in, the paths that they import and the two lookups.
  An import whose path no file has is a placeholder: a descriptor with that path and nothing else.
* `Registry.recusionImports` — a file and its imports, unless its path is in the map already.
* `Registry.protoDescriptors`, `Registry.protoFileDescriptors` — the two calls.

The recursion is cut off at a depth; `none` is the result that it was not deep enough.  The search
is one of paths: a placeholder has no imports, so what can be reached is reached through files.
-/

namespace Pitaya.Docgenerator

open Relation Search List

variable {F D ε : Type}

/-- The proto files of a program, each registered under its path. -/
structure Registry (F D ε : Type) where
  path : F → Bytes
  /-- The paths of a file's imports. -/
  dependencies : F → List Bytes
  toFileDescriptorProto : F → D
  /-- `ToFileDescriptorProto` of the placeholder for a path. -/
  placeholderProto : Bytes → D
  /-- The file of a message, if it has one. -/
  findMessageByName : Bytes → Except ε (Option F)
  findFileByPath : Bytes → Except ε F
  findFileByPath_eq : ∀ p f, findFileByPath p = .ok f ↔ path f = p

/-- `protoreflect.FileDescriptor` -/
inductive FileDescriptor (F : Type)
  | file (f : F)
  | placeholder (path : Bytes)

/-- The results other than nil; `lookup` hands on the error of the registry. -/
inductive Failure (ε : Type)
  | errProtodescriptor
  | errProtodescriptorMapEmpty
  | lookup (e : ε)

/-- `map[string]*descriptorpb.FileDescriptorProto` -/
abbrev Descriptors (D : Type) : Type := Finmap fun _ : Bytes => D

/-- `.proto` -/
def suffix : Bytes := [0x2E, 0x70, 0x72, 0x6F, 0x74, 0x6F]

namespace Registry

variable (R : Registry F D ε)

/-- What an import of a path is resolved to. -/
def resolve (p : Bytes) : FileDescriptor F :=
  match R.findFileByPath p with
  | .ok f => .file f
  | .error _ => .placeholder p

/-- `Path` -/
def pathOf : FileDescriptor F → Bytes
  | .file f => R.path f
  | .placeholder p => p

/-- `Imports` -/
def imports : FileDescriptor F → List (FileDescriptor F)
  | .file f => (R.dependencies f).map R.resolve
  | .placeholder _ => []

/-- `protodesc.ToFileDescriptorProto` -/
def protoOf : FileDescriptor F → D
  | .file f => R.toFileDescriptorProto f
  | .placeholder p => R.placeholderProto p

/-- `recusionImports`.  No import is nil, so the test for it never holds. -/
def recusionImports : ℕ → FileDescriptor F → Descriptors D → Option (Descriptors D)
  | 0, _, _ => none
  | depth + 1, fileDesc, protoDescs =>
    if R.pathOf fileDesc ∈ protoDescs then some protoDescs
    else (R.imports fileDesc).foldlM
      (fun protoDescs importFileDesc => recusionImports depth importFileDesc protoDescs)
      (protoDescs.insert (R.pathOf fileDesc) (R.protoOf fileDesc))

/-- What is left of a call when the map is not nil: the descriptors of the file, or the error. -/
def collectFile (depth : ℕ) (m : Descriptors D) :
    Except (Failure ε) F → Option (Option (Descriptors D) × Except (Failure ε) Unit)
  | .error e => some (some m, .error e)
  | .ok f => (R.recusionImports depth (.file f) m).map fun m => (some m, .ok ())

/-- `ProtoDescriptors`; a nil map is `none`. -/
def protoDescriptors (depth : ℕ) (protoName : Bytes) (protoDescs : Option (Descriptors D)) :
    Option (Option (Descriptors D) × Except (Failure ε) Unit) :=
  if suffix.isSuffixOf protoName then some (protoDescs, .error .errProtodescriptor)
  else match protoDescs with
    | none => some (none, .error .errProtodescriptorMapEmpty)
    | some m => R.collectFile depth m <| match R.findMessageByName protoName with
      | .error e => .error (.lookup e)
      | .ok none => .error .errProtodescriptor
      | .ok (some fileDesc) => .ok fileDesc

def protoFileDescriptors (depth : ℕ) (protoName : Bytes) (protoDescs : Option (Descriptors D)) :
    Option (Option (Descriptors D) × Except (Failure ε) Unit) :=
  if suffix.isSuffixOf protoName then
    match protoDescs with
    | none => some (none, .error .errProtodescriptorMapEmpty)
    | some m => R.collectFile depth m ((R.findFileByPath protoName).mapError .lookup)
  else some (protoDescs, .error .errProtodescriptor)

end Registry

/-- A call of one of the two functions. -/
inductive Call
  | protoDescriptors (protoName : Bytes)
  | protoFileDescriptors (protoName : Bytes)

namespace Registry

variable (R : Registry F D ε)

/-- One call on the map that the calls share. -/
def call (depth : ℕ) (protoDescs : Option (Descriptors D)) :
    Call → Option (Option (Descriptors D) × Except (Failure ε) Unit)
  | .protoDescriptors protoName => R.protoDescriptors depth protoName protoDescs
  | .protoFileDescriptors protoName => R.protoFileDescriptors depth protoName protoDescs

/-- The map after a sequence of calls that starts with an empty one. -/
def collect (depth : ℕ) (calls : List Call) : Option (Option (Descriptors D)) :=
  calls.foldlM (fun protoDescs c => (R.call depth protoDescs c).map Prod.fst) (some ∅)

/-- The call looks up the file and finds it. -/
def Finds (f : F) : Call → Prop
  | .protoDescriptors protoName =>
    ¬ suffix.isSuffixOf protoName ∧ R.findMessageByName protoName = .ok (some f)
  | .protoFileDescriptors protoName =>
    suffix.isSuffixOf protoName ∧ R.findFileByPath protoName = .ok f

/-- The import edges between files. -/
def Imports (f g : F) : Prop := R.path g ∈ R.dependencies f

/-- The import edges between paths. -/
def Next (p q : Bytes) : Prop := ∃ f, R.path f = p ∧ q ∈ R.dependencies f

/-- The paths in the map. -/
def collected (m : Descriptors D) : Set Bytes := {p | p ∈ m}

/-- Every entry is the descriptor of what its path is resolved to. -/
def Own (m : Descriptors D) : Prop :=
  ∀ p d, m.lookup p = some d → d = R.protoOf (R.resolve p)

variable {R} {m m' : Descriptors D} {f : F} {p : Bytes} {depth : ℕ}

theorem resolve_path (R : Registry F D ε) (f : F) : R.resolve (R.path f) = .file f := by
  rw [resolve, (R.findFileByPath_eq _ f).mpr rfl]

theorem resolve_of_forall_ne (h : ∀ f, R.path f ≠ p) : R.resolve p = .placeholder p := by
  rw [resolve]
  split
  · next f hf => exact absurd ((R.findFileByPath_eq p f).mp hf) (h f)
  · rfl

theorem pathOf_resolve (R : Registry F D ε) (p : Bytes) : R.pathOf (R.resolve p) = p := by
  rw [resolve]
  split
  · next f hf => exact (R.findFileByPath_eq p f).mp hf
  · rfl

theorem collected_insert (d : D) : collected (m.insert p d) = insert p (collected m) := by
  ext q
  exact Finmap.mem_insert

theorem Own.insert (h : R.Own m) : R.Own (m.insert p (R.protoOf (R.resolve p))) := by
  intro q d hd
  by_cases hq : q = p
  · subst hq
    rw [Finmap.lookup_insert, Option.some_inj] at hd
    exact hd.symm
  · rw [Finmap.lookup_insert_of_ne _ hq] at hd
    exact h q d hd

/-- The files that can be reached from files that the calls have found. -/
def Closure (R : Registry F D ε) (calls : List Call) : Set F :=
  {f | ∃ c ∈ calls, ∃ r, R.Finds r c ∧ ReflTransGen R.Imports r f}

theorem closure_closed {calls : List Call} {g : F} (hf : f ∈ R.Closure calls)
    (h : R.Imports f g) : g ∈ R.Closure calls := by
  obtain ⟨c, hc, r, hr, hp⟩ := hf
  exact ⟨c, hc, r, hr, hp.tail h⟩

theorem path_injective (R : Registry F D ε) : R.path.Injective := by
  intro f g h
  have hf := (R.findFileByPath_eq _ f).mpr h
  have hg := (R.findFileByPath_eq _ g).mpr rfl
  exact Except.ok.inj (hf.symm.trans hg)

/-- Between files a path of import edges is one of files. -/
theorem reaches_path_iff (r f : F) :
    ReflTransGen R.Next (R.path r) (R.path f) ↔ ReflTransGen R.Imports r f := by
  refine ⟨fun h => ?_, fun h => h.lift R.path fun a b hab => ⟨a, rfl, hab⟩⟩
  generalize hp : R.path f = p at h
  induction h generalizing f with
  | refl => rw [R.path_injective hp]
  | tail _ hstep ih =>
    obtain ⟨g, hg, hmem⟩ := hstep
    exact (ih g hg).tail (show R.path f ∈ R.dependencies g by rwa [hp])

/-- What can be reached from a file is a file, or an import of a file that can be reached. -/
theorem reaches_iff (r : F) (p : Bytes) : ReflTransGen R.Next (R.path r) p ↔
    (∃ f, R.path f = p ∧ ReflTransGen R.Imports r f) ∨
      (∀ g, R.path g ≠ p) ∧ ∃ f, ReflTransGen R.Imports r f ∧ p ∈ R.dependencies f := by
  constructor
  · intro h
    by_cases hfile : ∃ f, R.path f = p
    · obtain ⟨f, rfl⟩ := hfile
      exact .inl ⟨f, rfl, (reaches_path_iff r f).mp h⟩
    · rw [not_exists] at hfile
      rcases h.cases_tail with heq | ⟨q, hq, f, rfl, hmem⟩
      · exact absurd heq.symm (hfile r)
      · exact .inr ⟨hfile, f, (reaches_path_iff r f).mp hq, hmem⟩
  · rintro (⟨f, rfl, hf⟩ | ⟨-, f, hf, hmem⟩)
    · exact (reaches_path_iff r f).mpr hf
    · exact ((reaches_path_iff r f).mpr hf).tail ⟨f, rfl, hmem⟩

/-- The files that the calls have found, and what can be reached from them. -/
def Reached (R : Registry F D ε) (calls : List Call) : Set Bytes :=
  {p | ∃ c ∈ calls, ∃ r, R.Finds r c ∧ ReflTransGen R.Next (R.path r) p}

/-- The paths reached are those of the closure, and the imports in it that are no file. -/
theorem mem_reached_iff {calls : List Call} : p ∈ R.Reached calls ↔
    (∃ f ∈ R.Closure calls, R.path f = p) ∨
      (∀ g, R.path g ≠ p) ∧ ∃ f ∈ R.Closure calls, p ∈ R.dependencies f := by
  simp only [Reached, Closure, Set.mem_ofPred_eq, reaches_iff]
  constructor
  · rintro ⟨c, hc, r, hr, ⟨f, hf, hreach⟩ | ⟨hnone, f, hreach, hmem⟩⟩
    · exact .inl ⟨f, ⟨c, hc, r, hr, hreach⟩, hf⟩
    · exact .inr ⟨hnone, f, ⟨c, hc, r, hr, hreach⟩, hmem⟩
  · rintro (⟨f, ⟨c, hc, r, hr, hreach⟩, hf⟩ | ⟨hnone, f, ⟨c, hc, r, hr, hreach⟩, hmem⟩)
    · exact ⟨c, hc, r, hr, .inl ⟨f, hf, hreach⟩⟩
    · exact ⟨c, hc, r, hr, .inr ⟨hnone, f, hreach, hmem⟩⟩

theorem call_eq (R : Registry F D ε) (depth : ℕ) (m : Descriptors D) (c : Call) :
    ∃ file, R.call depth (some m) c = R.collectFile depth m file ∧
      ∀ f, file = .ok f ↔ R.Finds f c := by
  cases c with
  | protoDescriptors protoName =>
    simp only [call, protoDescriptors, Finds]
    split_ifs with hs
    · exact ⟨.error .errProtodescriptor, rfl, by simp [hs]⟩
    · refine ⟨_, rfl, fun f => ?_⟩
      rcases R.findMessageByName protoName with e | _ | f' <;> simp [hs]
  | protoFileDescriptors protoName =>
    simp only [call, protoFileDescriptors, Finds]
    split_ifs with hs
    · refine ⟨_, rfl, fun f => ?_⟩
      rcases R.findFileByPath protoName with e | f' <;> simp [hs, Except.mapError]
    · exact ⟨.error .errProtodescriptor, rfl, by simp [hs]⟩

/-! ## One recursion -/

section Recursion

variable [Fintype F]

/-- The files that can still be added. -/
noncomputable def missing (R : Registry F D ε) (m : Descriptors D) : ℕ :=
  {f | R.path f ∉ m}.ncard

theorem missing_le (h : collected m ⊆ collected m') : R.missing m' ≤ R.missing m :=
  Set.ncard_le_ncard fun _ hf hmem => hf (h hmem)

theorem missing_insert_lt (h : R.path f ∉ m) (d : D) :
    R.missing (m.insert (R.path f) d) < R.missing m := by
  refine Set.ncard_lt_ncard ⟨fun g hg hmem => hg (Finmap.mem_insert.mpr (.inr hmem)),
    fun hsub => ?_⟩
  exact hsub (show f ∈ {f | R.path f ∉ m} from h) (Finmap.mem_insert.mpr (.inl rfl))

/-- `m'` is what a recursion from `roots` makes of `m`. -/
def Collects (R : Registry F D ε) (roots : Set Bytes) (m m' : Descriptors D) : Prop :=
  Explores R.Next roots (collected m) (collected m') ∧ (R.Own m → R.Own m')

theorem collects_imports {visit : FileDescriptor F → Descriptors D → Option (Descriptors D)}
    (ih : ∀ p m, R.missing m < depth → ∃ m', visit (R.resolve p) m = some m' ∧ R.Collects {p} m m')
    (ps : List Bytes) : ∀ m, R.missing m < depth →
      ∃ m', (ps.map R.resolve).foldlM (fun m i => visit i m) m = some m' ∧
        R.Collects {p | p ∈ ps} m m' := by
  induction ps with
  | nil => exact fun m _ => ⟨m, rfl, .refl (by simp), id⟩
  | cons p ps rest =>
    intro m hm
    obtain ⟨m₁, hm₁, hc₁⟩ := ih p m hm
    obtain ⟨m', hm', hc⟩ := rest m₁ ((missing_le hc₁.1.grows).trans_lt hm)
    refine ⟨m', ?_, ?_, hc.2 ∘ hc₁.2⟩
    · rw [map_cons, foldlM_cons, hm₁]
      exact hm'
    · have roots : {q | q ∈ p :: ps} = {p} ∪ {q | q ∈ ps} := by
        ext q
        simp
      rw [roots]
      exact hc₁.1.trans hc.1

/-- A recursion as deep as there are files to be added collects the path and what it imports. -/
theorem collects_recusionImports : ∀ depth p m, R.missing m < depth →
    ∃ m', R.recusionImports depth (R.resolve p) m = some m' ∧ R.Collects {p} m m' := by
  intro depth
  induction depth with
  | zero => exact fun _ _ h => absurd h (Nat.not_lt_zero _)
  | succ depth ih =>
    intro p m hm
    rw [recusionImports, pathOf_resolve]
    split_ifs with hp
    · exact ⟨m, rfl, .refl (Set.singleton_subset_iff.mpr hp), id⟩
    by_cases hfile : ∃ f, R.path f = p
    · obtain ⟨f, rfl⟩ := hfile
      have hlt := missing_insert_lt hp (R.protoOf (R.resolve (R.path f)))
      obtain ⟨m', hm', hc⟩ := collects_imports ih (R.dependencies f) _
        (hlt.trans_le (Nat.le_of_lt_succ hm))
      have hnext : {q | R.Next (R.path f) q} = {q | q ∈ R.dependencies f} := by
        ext q
        refine ⟨fun ⟨g, hg, hq⟩ => ?_, fun hq => ⟨f, rfl, hq⟩⟩
        rwa [R.path_injective hg] at hq
      have hexplores := hc.1
      rw [collected_insert, ← hnext] at hexplores
      refine ⟨m', ?_, hexplores.node, fun h => hc.2 h.insert⟩
      rwa [R.resolve_path] at hm' ⊢
    · -- a placeholder imports nothing
      rw [not_exists] at hfile
      have hnext : {q | R.Next p q} = ∅ := by
        ext q
        exact iff_of_false (fun ⟨g, hg, _⟩ => hfile g hg) (Set.notMem_empty q)
      refine ⟨m.insert p (R.protoOf (R.resolve p)), ?_, .node ?_, Own.insert⟩
      · rw [resolve_of_forall_ne hfile]
        rfl
      · rw [collected_insert, hnext]
        exact .refl (Set.empty_subset _)

theorem missing_lt (R : Registry F D ε) (m : Descriptors D) (extra : ℕ) :
    R.missing m < Fintype.card F + 1 + extra := by
  have : R.missing m ≤ Fintype.card F := by
    rw [← Nat.card_eq_fintype_card]
    exact Set.ncard_le_card _
  omega

/-! ## Sequences of calls -/

/-- A call collects the file that it finds, and leaves the map alone when it returns an error. -/
theorem collects_call (R : Registry F D ε) (extra : ℕ) (m : Descriptors D) (c : Call) :
    ∃ m' r, R.call (Fintype.card F + 1 + extra) (some m) c = some (some m', r) ∧
      R.Collects {p | ∃ f, R.path f = p ∧ R.Finds f c} m m' := by
  obtain ⟨file, heq, hfile⟩ := R.call_eq (Fintype.card F + 1 + extra) m c
  simp only [heq, ← hfile]
  cases file with
  | error e => exact ⟨m, .error e, rfl, .refl (fun p ⟨_, _, hf⟩ => nomatch hf), id⟩
  | ok f =>
    obtain ⟨m', hm', hc⟩ := collects_recusionImports _ (R.path f) m (R.missing_lt m extra)
    rw [R.resolve_path] at hm'
    refine ⟨m', .ok (), by rw [collectFile, hm']; rfl, ?_⟩
    simpa [eq_comm] using hc

/-- What a sequence of calls collects, by induction on the calls from the last one. -/
theorem collect_eq (R : Registry F D ε) (extra : ℕ) (calls : List Call) :
    ∃ m, R.collect (Fintype.card F + 1 + extra) calls = some (some m) ∧
      collected m = R.Reached calls ∧ R.Own m := by
  induction calls using reverseRecOn with
  | nil =>
    refine ⟨∅, rfl, ?_, fun p d h => by simp at h⟩
    ext p
    simpa [collected, Reached] using Finmap.notMem_empty
  | append_singleton calls c ih =>
    obtain ⟨m, hm, hcl, hown⟩ := ih
    obtain ⟨m', r, hm', hc⟩ := R.collects_call extra m c
    refine ⟨m', ?_, ?_, hc.2 hown⟩
    · rw [collect, foldlM_append]
      rw [collect] at hm
      rw [hm]
      simp [hm']
    · ext p
      have closed : ∀ x ∈ collected m, ∀ y, R.Next x y → y ∈ collected m := by
        rw [hcl]
        rintro x ⟨c, hc, r, hr, hx⟩ y hy
        exact ⟨c, hc, r, hr, hx.tail hy⟩
      rw [hc.1.mem_iff closed, hcl]
      simp only [Reached, Set.mem_ofPred_eq, mem_append, mem_singleton, or_and_right,
        exists_or, exists_eq_left]
      refine or_congr_right ⟨?_, ?_⟩
      · rintro ⟨_, ⟨f, rfl, hf⟩, hp⟩
        exact ⟨f, hf, hp⟩
      · rintro ⟨f, hf, hp⟩
        exact ⟨_, ⟨f, rfl, hf⟩, hp⟩

/-- After every sequence of calls, whatever they returned, the map is closed under imports and has
each file under its own path.  It is the import closure of the files that the calls have found if
and only if every import in that closure is a file; an import that is not is there as a
placeholder. -/
theorem collect_is_import_closure_iff (R : Registry F D ε) (extra : ℕ) (calls : List Call) :
    ∃ m, R.collect (Fintype.card F + 1 + extra) calls = some (some m) ∧
      (∀ f g, R.path f ∈ m → R.Imports f g → R.path g ∈ m) ∧
      (∀ f, R.path f ∈ m → m.lookup (R.path f) = some (R.toFileDescriptorProto f)) ∧
      (∀ p, (∀ f, R.path f ≠ p) → (p ∈ m ↔ ∃ f ∈ R.Closure calls, p ∈ R.dependencies f) ∧
        (p ∈ m → m.lookup p = some (R.placeholderProto p))) ∧
      ((∀ p, p ∈ m ↔ ∃ f ∈ R.Closure calls, R.path f = p) ↔
        ∀ f ∈ R.Closure calls, ∀ p ∈ R.dependencies f, ∃ g, R.path g = p) := by
  obtain ⟨m, hm, hcl, hown⟩ := R.collect_eq extra calls
  have mem (p : Bytes) : p ∈ m ↔ _ := (Set.ext_iff.mp hcl p).trans mem_reached_iff
  have mem_path (f : F) : R.path f ∈ m ↔ f ∈ R.Closure calls := by
    rw [mem]
    refine ⟨?_, fun hf => .inl ⟨f, hf, rfl⟩⟩
    rintro (⟨g, hg, hpath⟩ | ⟨hnone, -⟩)
    · rwa [R.path_injective hpath] at hg
    · exact absurd rfl (hnone f)
  have lookup (p : Bytes) (hp : p ∈ m) : m.lookup p = some (R.protoOf (R.resolve p)) := by
    obtain ⟨d, hd⟩ := Finmap.mem_iff.mp hp
    rw [hd, hown p d hd]
  refine ⟨m, hm, fun f g hf hg => ?_, fun f hf => ?_, fun p hp => ⟨?_, fun hmem => ?_⟩, ?_⟩
  · rw [mem_path] at hf ⊢
    exact closure_closed hf hg
  · rw [lookup _ hf, R.resolve_path]
    rfl
  · rw [mem]
    refine ⟨?_, fun h => .inr ⟨hp, h⟩⟩
    rintro (⟨f, -, hf⟩ | h)
    · exact absurd hf (hp f)
    · exact h.2
  · rw [lookup p hmem, resolve_of_forall_ne hp]
    rfl
  · constructor
    · intro hall f hf p hp
      by_contra hnone
      rw [not_exists] at hnone
      obtain ⟨g, -, hg⟩ := (hall p).mp ((mem p).mpr (.inr ⟨hnone, f, hf, hp⟩))
      exact hnone g hg
    · intro hresolved p
      rw [mem]
      refine or_iff_left ?_
      rintro ⟨hnone, f, hf, hp⟩
      obtain ⟨g, hg⟩ := hresolved f hf p hp
      exact hnone g hg

end Recursion

end Registry

/-- `a.proto` and `b.proto` -/
def filePath (isB : Bool) : Bytes := (if isB then 0x62 else 0x61) :: suffix

/-- The registry of two files that import each other. -/
def cycle : Registry Bool Bytes Unit where
  path := filePath
  dependencies isB := [filePath !isB]
  toFileDescriptorProto := filePath
  placeholderProto p := p
  findMessageByName _ := .error ()
  findFileByPath p :=
    if p = filePath false then .ok false else if p = filePath true then .ok true else .error ()
  findFileByPath_eq p f := by
    split_ifs with ha hb
    · subst ha
      revert f
      decide
    · subst hb
      revert f
      decide
    · refine iff_of_false nofun ?_
      rintro rfl
      cases f
      · exact ha rfl
      · exact hb rfl

/-- The call for one of the two files collects both. -/
theorem collect_is_import_closure_iff_cycle :
    ∃ m, cycle.collect 3 [.protoFileDescriptors (filePath false)] = some (some m) ∧
      ∀ p, p ∈ m ↔ ∃ f, filePath f = p := by
  obtain ⟨m, hm, -, -, -, hiff⟩ :=
    cycle.collect_is_import_closure_iff 0 [.protoFileDescriptors (filePath false)]
  have hall : ∀ f, f ∈ cycle.Closure [.protoFileDescriptors (filePath false)] := by
    have hfinds : cycle.Finds false (.protoFileDescriptors (filePath false)) := ⟨rfl, rfl⟩
    intro f
    refine ⟨_, mem_singleton_self _, false, hfinds, ?_⟩
    cases f
    · exact .refl
    · exact .single (show cycle.path true ∈ cycle.dependencies false by decide)
  refine ⟨m, hm, fun p => ?_⟩
  rw [hiff.mpr fun f _ p hp => ⟨!f, (mem_singleton.mp hp).symm⟩]
  exact exists_congr fun f => and_iff_right (hall f)

/-- The registry of `a.proto` alone, which imports `b.proto`. -/
def alone : Registry Unit Bytes Unit where
  path _ := filePath false
  dependencies _ := [filePath true]
  toFileDescriptorProto _ := filePath false
  placeholderProto p := p
  findMessageByName _ := .error ()
  findFileByPath p := if p = filePath false then .ok () else .error ()
  findFileByPath_eq p f := by
    split_ifs with ha
    · exact iff_of_true rfl ha.symm
    · exact iff_of_false nofun (Ne.symm ha)

/-- The import that nobody has registered is in the map. -/
theorem unresolved_import_collected :
    ∃ m, alone.collect 2 [.protoFileDescriptors (filePath false)] = some (some m) ∧
      filePath true ∈ m ∧ ∀ f, alone.path f ≠ filePath true :=
  ⟨_, rfl, by decide +kernel, by decide⟩

end Pitaya.Docgenerator
