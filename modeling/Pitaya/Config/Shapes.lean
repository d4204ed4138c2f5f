import Mathlib.Data.Finset.Card
import Pitaya.Config.Values

/-!
# Decode targets of objects with cycles

`config/viper_config.go`: before a configuration is decoded, `seedConfigDecodeShape` gives the fresh
target the structure of the loader's object that a decoder cannot know, squashed pointers and
dynamic types.  The object is a graph in memory; the pointers on the way down are remembered, and
a pointer that is met again is not followed.

* `Data`, `Memory` — what is stored in a cell, and all cells.  A pointer leads to a cell or into it.
* `seedConfigDecodeShape` — the target is returned, with the cells that have been allocated.
* `applyInPlace` — `applyConfigValue` on such an object.
* `Built` — what seeding leaves: trees of fresh cells, to which nothing else leads.
* `apply_changes_configurable_part` — what a reload changes, and that decoding does not touch the
  object.
* `loops_on_shared` — without a cycle is not enough: the object takes over a part of the decoded
  value, and when that part is written through the object a cycle can arise in the decoded value.

Both functions are cut off at a depth; `none` is the result that it was not deep enough.
-/

namespace Pitaya.Config

open Option

/-- `tags[1:]` has "squash". -/
def Field.squash (f : Field) : Bool := f.tags.tail.contains [0x73, 0x71, 0x75, 0x61, 0x73, 0x68]

/-- A cell, and a way into it by the numbers of fields and elements. -/
abbrev Location : Type := ℕ × List ℕ

/-- What is stored in a cell.  A pointer comes with its type. -/
inductive Data (T L : Type)
  | leaf (x : L)
  | nilPointer
  | pointer (typ : T) (target : Location)
  | nilInterface
  | interface (typ : T) (elem : Data T L)
  | array (elems : List (Data T L))
  | struct (typ : T) (fields : List (Data T L))

abbrev Memory (T L : Type) : Type := List (Data T L)

variable {T L : Type}

namespace Data

mutual

/-- The zero value of the same type. -/
def zero [Zero L] : Data T L → Data T L
  | .leaf _ => .leaf 0
  | .nilPointer | .pointer .. => .nilPointer
  | .nilInterface | .interface .. => .nilInterface
  | .array vs => .array (zeros vs)
  | .struct t vs => .struct t (zeros vs)

@[inherit_doc zero]
def zeros [Zero L] : List (Data T L) → List (Data T L)
  | [] => []
  | v :: vs => v.zero :: zeros vs

end

mutual

/-- The pointers that are stored. -/
def pointers : Data T L → List (T × Location)
  | .pointer t l => [(t, l)]
  | .interface _ v => v.pointers
  | .array vs | .struct _ vs => pointersAll vs
  | _ => []

@[inherit_doc pointers]
def pointersAll : List (Data T L) → List (T × Location)
  | [] => []
  | v :: vs => v.pointers ++ pointersAll vs

end

/-- The part at the end of a path. -/
def part : List ℕ → Data T L → Option (Data T L)
  | [], v => some v
  | i :: path, .array vs | i :: path, .struct _ vs => vs[i]?.bind (part path)
  | _ :: _, _ => none

/-- Another part at the end of a path. -/
def put (x : Data T L) : List ℕ → Data T L → Data T L
  | [], _ => x
  | i :: path, .array vs => .array (vs.modify i (put x path))
  | i :: path, .struct t vs => .struct t (vs.modify i (put x path))
  | _ :: _, v => v

end Data

namespace Memory

def read (m : Memory T L) (l : Location) : Option (Data T L) := m[l.1]?.bind (Data.part l.2)

def write (m : Memory T L) (l : Location) (x : Data T L) : Memory T L := m.modify l.1 (x.put l.2)

end Memory

section Definitions

variable [DecidableEq T] [Zero L] (U : Types T)

/-- The slot of an unexported embedded pointer that is exposed. -/
def exposed (heap : Memory T L) (f : Field) : Data T L → Bool
  | .pointer _ l =>
    f.squash && f.anonymous && f.pkgPath != [] &&
      match heap.read l with
      | some (.struct ..) => true
      | _ => false
  | _ => false

/-- The loop over the fields or elements: the values that are built, and if one is needed. -/
def seedAll {ι : Type} (visit : Memory T L → ι → Option (Memory T L × Data T L × Bool)) :
    Memory T L → List ι → Option (Memory T L × List (Data T L) × Bool)
  | mem, [] => some (mem, [], false)
  | mem, i :: is => do
    let (mem, v, needed) ← visit mem i
    let (mem, vs, more) ← seedAll visit mem is
    some (mem, v :: vs, needed || more)

/-- `seedConfigDecodeShape`: the memory after the call, the value of `dst`, and the result.  `dst`
is zero before, and a new cell is added when its content is known.  The target of the first call
may not be set itself, but its cell may, which comes to the same. -/
def seedConfigDecodeShape (heap : Memory T L) : ℕ → Memory T L → Access → Data T L → Bool →
    List (T × Location) → Option (Memory T L × Data T L × Bool)
  | 0, _, _, _, _, _ => none
  | depth + 1, mem, a, src, allocate, active =>
    match src with
    | .pointer t l =>
      if (t, l) ∈ active then some (mem, .nilPointer, false)
      else do
        let (mem, value, needed) ← seedConfigDecodeShape heap depth mem .settable
          ((heap.read l).getD .nilPointer) false ((t, l) :: active)
        if !allocate && !needed then some (mem, .nilPointer, false)
        else if a = .settable then some (mem ++ [value], .pointer t (mem.length, []), true)
        else some (mem, .nilPointer, true)
    | .interface t v =>
      if a = .settable then do
        let (mem, value, _) ← seedConfigDecodeShape heap depth mem .settable v true active
        some (mem, .interface t value, true)
      else some (mem, .nilInterface, false)
    | .struct t vs => do
      let (mem, vs, needed) ← seedAll
        (fun mem (f, v) =>
          if f.excluded then some (mem, v.zero, false)
          else seedConfigDecodeShape heap depth mem
            (if exposed heap f v then .settable else a.field f) v f.squash active)
        mem ((U.fields t).zip vs)
      some (mem, .struct t vs, needed)
    | .array vs => do
      let (mem, vs, needed) ← seedAll
        (fun mem v => seedConfigDecodeShape heap depth mem a.elem v false active) mem vs
      some (mem, .array vs, needed)
    | src => some (mem, src.zero, false)

/-- A `reflect.Value` that is only read: a cell or the content of an interface, and a way in. -/
abbrev View (T L : Type) : Type := (ℕ ⊕ Data T L) × List ℕ

def View.read (m : Memory T L) (d : View T L) : Option (Data T L) :=
  (d.1.elim (m[·]?) some).bind (Data.part d.2)

/-- `applyConfigValue`, in memory.  Both values have the same type. -/
def applyInPlace : ℕ → Memory T L → Access → Location → View T L → Option (Memory T L)
  | 0, _, _, _, _ => none
  | depth + 1, m, a, dst, decoded =>
    match m.read dst, decoded.read m with
    | some (.interface t v), some (.interface t' v') =>
      if t = t' ∧ a = .settable then do
        let m' ← applyInPlace depth (m ++ [v]) .settable (m.length, []) (.inr v', [])
        some (m'.write dst (.interface t ((m'.read (m.length, [])).getD v)))
      else some (a.set m (m.write dst (.interface t' v')))
    | some (.pointer _ p), some (.pointer _ q) => applyInPlace depth m a p (.inl q.1, q.2)
    | some (.array _), some (.array vs') =>
      (List.range vs'.length).foldlM (fun m i =>
        applyInPlace depth m a.elem (dst.1, dst.2 ++ [i]) (decoded.1, decoded.2 ++ [i])) m
    | some (.struct t _), some (.struct t' vs') =>
      if t = U.time then some (a.set m (m.write dst (.struct t' vs')))
      else (List.range vs'.length).foldlM (fun m i =>
        match U.config t i with
        | none => some m
        | some f =>
          applyInPlace depth m (a.field f) (dst.1, dst.2 ++ [i]) (decoded.1, decoded.2 ++ [i])) m
    | _, some v' => some (a.set m (m.write dst v'))
    | _, none => some m

end Definitions

/-! ## Trees in memory -/

/-- A list of cells is divided among the values of a list. -/
def Parts (P : Data T L → List ℕ → Prop) : List (Data T L) → List ℕ → Prop
  | [], cells => cells = []
  | v :: vs, cells => ∃ first rest, P v first ∧ Parts P vs rest ∧ cells = first ++ rest

/-- A value unfolds to a tree of bounded height, in which a pointer leads to a whole cell, and these
are the cells of the tree. -/
def Owns (m : Memory T L) : ℕ → Data T L → List ℕ → Prop
  | 0, _, _ => False
  | k + 1, .pointer _ l, cells =>
    ∃ v rest, l.2 = [] ∧ m[l.1]? = some v ∧ Owns m k v rest ∧ cells = l.1 :: rest
  | k + 1, .interface _ v, cells => Owns m k v cells
  | k + 1, .array vs, cells => Parts (fun v part => Owns m k v part) vs cells
  | k + 1, .struct _ vs, cells => Parts (fun v part => Owns m k v part) vs cells
  | _ + 1, _, cells => cells = []

/-- All that is no structure is zero: scalars, maps, slices and excluded fields. -/
inductive Data.Blank [Zero L] (U : Types T) : Data T L → Prop
  | leaf : Blank U (.leaf 0)
  | nilPointer : Blank U .nilPointer
  | pointer (t : T) (l : Location) : Blank U (.pointer t l)
  | nilInterface : Blank U .nilInterface
  | interface (t : T) {v : Data T L} (h : Blank U v) : Blank U (.interface t v)
  | array {vs : List (Data T L)} (h : ∀ v ∈ vs, Blank U v) : Blank U (.array vs)
  | struct {t : T} {vs : List (Data T L)}
      (hex : ∀ p ∈ (U.fields t).zip vs, p.1.excluded = true → ∃ w : Data T L, p.2 = w.zero)
      (h : ∀ p ∈ (U.fields t).zip vs, p.1.excluded = false → Blank U p.2) : Blank U (.struct t vs)

section Trees

variable {m m' : Memory T L} {k k' : ℕ} {v w : Data T L} {vs : List (Data T L)} {cells : List ℕ}
  {P Q : Data T L → List ℕ → Prop} {key : T × Location}

theorem parts_singleton : Parts P [v] cells ↔ P v cells := by
  simp [Parts]

theorem Parts.imp (h : Parts P vs cells)
    (hPQ : ∀ v part, P v part → (∀ c ∈ part, c ∈ cells) → Q v part) : Parts Q vs cells := by
  induction vs generalizing cells with
  | nil => exact h
  | cons v vs ih =>
    obtain ⟨first, rest, hv, hvs, rfl⟩ := h
    refine ⟨first, rest, hPQ v first hv fun c hc => List.mem_append_left _ hc, ?_, rfl⟩
    exact ih hvs fun v part hv hsub => hPQ v part hv fun c hc => List.mem_append_right _ (hsub c hc)

theorem Owns.congr (h : Owns m k v cells) (hk : k ≤ k')
    (hsame : ∀ c ∈ cells, m'[c]? = m[c]?) : Owns m' k' v cells := by
  induction k generalizing k' v cells with
  | zero => exact h.elim
  | succ k ih =>
    obtain ⟨k', rfl⟩ : ∃ n, k' = n + 1 := ⟨k' - 1, by omega⟩
    have hk := Nat.le_of_succ_le_succ hk
    cases v with
    | pointer =>
      obtain ⟨v, rest, hl, hv, hrest, rfl⟩ := h
      refine ⟨v, rest, hl, (hsame _ (.head _)).trans hv, ?_, rfl⟩
      exact ih hrest hk fun c hc => hsame c (.tail _ hc)
    | interface =>
      rw [Owns] at h ⊢
      exact ih h hk hsame
    | array | struct =>
      exact Parts.imp h fun v part hv hsub => ih hv hk fun c hc => hsame c (hsub c hc)
    | _ => exact h

theorem Data.mem_pointersAll : key ∈ Data.pointersAll vs ↔ ∃ v ∈ vs, key ∈ v.pointers := by
  induction vs with
  | nil => simp [Data.pointersAll]
  | cons v vs ih => simp [Data.pointersAll, ih]

theorem Data.part_le {path : List ℕ} (h : v.part path = some w) :
    sizeOf w ≤ sizeOf v ∧ ∀ key ∈ w.pointers, key ∈ v.pointers := by
  induction path generalizing v with
  | nil =>
    cases h
    exact ⟨le_rfl, fun _ h => h⟩
  | cons i path ih =>
    cases v with
    | array | struct =>
      obtain ⟨u, hu, hw⟩ := bind_eq_some_iff.mp h
      have hmem := List.mem_of_getElem? hu
      obtain ⟨hsize, hkeys⟩ := ih hw
      have := List.sizeOf_lt_of_mem hmem
      refine ⟨?_, fun key hkey => Data.mem_pointersAll.mpr ⟨u, hmem, hkeys key hkey⟩⟩
      simp only [Data.array.sizeOf_spec, Data.struct.sizeOf_spec]
      omega
    | _ => cases h

/-- The pointers of a value lead to the cells, and so do those in the cells. -/
def Closed (m : Memory T L) (pointers : List (T × Location)) (cells : List ℕ) : Prop :=
  (∀ key ∈ pointers, key.2.1 ∈ cells) ∧
    ∀ c ∈ cells, ∃ w, m[c]? = some w ∧ ∀ key ∈ w.pointers, key.2.1 ∈ cells

theorem Closed.parts (hP : ∀ v part, P v part → Closed m v.pointers part)
    (h : Parts P vs cells) : Closed m (Data.pointersAll vs) cells := by
  induction vs generalizing cells with
  | nil =>
    obtain rfl : cells = [] := h
    simp [Closed, Data.pointersAll]
  | cons v vs ih =>
    obtain ⟨first, rest, hv, hvs, rfl⟩ := h
    have hv := hP v first hv
    have hvs := ih hvs
    simp only [Closed, Data.pointersAll, List.mem_append] at hv hvs ⊢
    grind

theorem Owns.closed (h : Owns m k v cells) : Closed m v.pointers cells := by
  induction k generalizing v cells with
  | zero => exact h.elim
  | succ k ih =>
    cases v with
    | pointer =>
      obtain ⟨v, rest, hl, hv, hrest, rfl⟩ := h
      have hrest := ih hrest
      refine ⟨fun key hkey => ?_, fun c hc => ?_⟩
      · cases List.mem_singleton.mp hkey
        exact .head _
      · rcases List.mem_cons.mp hc with rfl | hc
        · exact ⟨v, hv, fun key hkey => .tail _ (hrest.1 key hkey)⟩
        · obtain ⟨w, hw, hkeys⟩ := hrest.2 c hc
          exact ⟨w, hw, fun key hkey => .tail _ (hkeys key hkey)⟩
    | interface t v =>
      exact (ih h : Closed m v.pointers cells)
    | array | struct => exact Closed.parts (fun _ _ hv => ih hv) h
    | _ =>
      obtain rfl : cells = [] := h
      simp [Closed, Data.pointers]

end Trees

/-! ## What is built -/

section Building

variable [Zero L] {U : Types T} {mem mem' mem'' : Memory T L} {v : Data T L} {vs : List (Data T L)}

/-- Pointers in the cells from `start` on lead to such cells, and to older ones; if the cell is not
one of `cells`, then to none of these. -/
def Inward (start : ℕ) (m : Memory T L) (cells : List ℕ) : Prop :=
  ∀ c w, start ≤ c → m[c]? = some w → ∀ key ∈ w.pointers,
    start ≤ key.2.1 ∧ key.2.1 < c ∧ (c ∉ cells → key.2.1 ∉ cells)

/-- From `mem` to `mem'` fresh cells have been added, and the values are trees made of such
cells, apart from each other and from the fresh cells that are not used. -/
def Built (U : Types T) (mem mem' : Memory T L) (vs : List (Data T L)) : Prop :=
  mem <+: mem' ∧ ∃ k cells, Parts (Owns mem' k) vs cells ∧ cells.Nodup ∧
    (∀ c ∈ cells, mem.length ≤ c ∧ ∃ w, mem'[c]? = some w ∧ w.Blank U) ∧
    Inward mem.length mem' cells

omit [Zero L] in
theorem inward_length (m : Memory T L) (cells : List ℕ) : Inward m.length m cells := by
  intro c w hc hw
  rw [List.getElem?_eq_none hc] at hw
  cases hw

/-- Nothing is built. -/
theorem Built.nothing (h : Parts (Owns mem 1) vs []) : Built U mem mem vs :=
  ⟨List.prefix_rfl, 1, [], h, List.nodup_nil, fun _ h => absurd h List.not_mem_nil,
    inward_length mem []⟩

theorem Built.zero (v : Data T L) : Built U mem mem [v.zero] := by
  suffices h : ∀ k, ∀ v : Data T L, sizeOf v ≤ k → Owns mem k v.zero [] from
    ⟨List.prefix_rfl, _, [], parts_singleton.mpr (h _ v le_rfl), List.nodup_nil, by simp,
      inward_length mem []⟩
  intro k
  induction k with
  | zero => intro v hv; cases v <;> simp at hv
  | succ k ih =>
    have all (vs : List (Data T L)) (hvs : sizeOf vs ≤ k) :
        Parts (Owns mem k) (Data.zeros vs) [] := by
      induction vs with
      | nil => rfl
      | cons v vs ihs =>
        simp only [List.cons.sizeOf_spec] at hvs
        exact ⟨[], [], ih v (by omega), ihs (by omega), rfl⟩
    intro v hv
    cases v with
    | array vs | struct t vs =>
      simp only [Data.array.sizeOf_spec, Data.struct.sizeOf_spec] at hv
      exact all vs (by omega)
    | _ => rfl

theorem Built.nilPointer (h : Built U mem mem' vs) : Built U mem mem' [.nilPointer] := by
  obtain ⟨hpre, -, cells, -, -, -, hinward⟩ := h
  refine ⟨hpre, 1, [], parts_singleton.mpr rfl, List.nodup_nil, by simp,
    fun c w hc hw key hkey => ?_⟩
  obtain ⟨hstart, hlt, -⟩ := hinward c w hc hw key hkey
  exact ⟨hstart, hlt, fun _ => List.not_mem_nil⟩

theorem Built.wrap (h : Built U mem mem' vs) {w : Data T L}
    (hw : ∀ k cells, Parts (Owns mem' k) vs cells → Owns mem' (k + 1) w cells) :
    Built U mem mem' [w] := by
  obtain ⟨hpre, k, cells, hvs, h⟩ := h
  exact ⟨hpre, k + 1, cells, parts_singleton.mpr (hw k cells hvs), h⟩

theorem Built.extend (h : Built U mem mem' vs) (more : Memory T L) : ∃ k cells,
    Parts (Owns (mem' ++ more) k) vs cells ∧ cells.Nodup ∧ (∀ c ∈ cells, c < mem'.length ∧
      mem.length ≤ c ∧ ∃ w, (mem' ++ more)[c]? = some w ∧ w.Blank U) ∧
      Inward mem.length mem' cells := by
  obtain ⟨hpre, k, cells, hvs, hnodup, hcells, hinward⟩ := h
  have low (c : ℕ) (hc : c ∈ cells) : c < mem'.length := by
    obtain ⟨-, w, hw, -⟩ := hcells c hc
    exact (List.getElem?_eq_some_iff.mp hw).1
  have same (c : ℕ) (hc : c ∈ cells) : (mem' ++ more)[c]? = mem'[c]? :=
    List.getElem?_append_left (low c hc)
  refine ⟨k, cells, ?_, hnodup, fun c hc => ⟨low c hc, (hcells c hc).1, ?_⟩, hinward⟩
  · exact hvs.imp fun v part hv hsub => hv.congr le_rfl fun c hc => same c (hsub c hc)
  · rw [same c hc]
    exact (hcells c hc).2

theorem Built.cons (h : Built U mem mem' [v]) (h' : Built U mem' mem'' vs) :
    Built U mem mem'' (v :: vs) := by
  obtain ⟨⟨more, rfl⟩, k', rest, hvs, hnodup', hcells', hinward'⟩ := h'
  obtain ⟨k, first, hv, hnodup, hcells, hinward⟩ := h.extend more
  refine ⟨h.1.trans (List.prefix_append mem' more), max k k', first ++ rest, ?_, ?_, ?_, ?_⟩
  · refine ⟨first, rest, (parts_singleton.mp hv).congr (le_max_left k k') fun _ _ => rfl, ?_, rfl⟩
    exact hvs.imp fun v part hv _ => hv.congr (le_max_right k k') fun _ _ => rfl
  · refine List.nodup_append.mpr ⟨hnodup, hnodup', fun c hc c' hc' => ?_⟩
    have := (hcells' c' hc').1
    have := (hcells c hc).1
    omega
  · intro c hc
    rcases List.mem_append.mp hc with hc | hc
    · exact (hcells c hc).2
    · exact ⟨h.1.length_le.trans (hcells' c hc).1, (hcells' c hc).2⟩
  · intro c w hc hw key hkey
    have hle := h.1.length_le
    have hfirst (c : ℕ) (hc : c ∈ first) := (hcells c hc).1
    have hrest (c : ℕ) (hc : c ∈ rest) := (hcells' c hc).1
    rw [List.mem_append, List.mem_append, not_or, not_or]
    by_cases hlow : c < mem'.length
    · rw [List.getElem?_append_left hlow] at hw
      obtain ⟨hstart, hlt, hnot⟩ := hinward c w hc hw key hkey
      exact ⟨hstart, hlt, fun hc => ⟨hnot hc.1, fun hmem => by have := hrest _ hmem; omega⟩⟩
    · obtain ⟨hstart, hlt, hnot⟩ := hinward' c w (not_lt.mp hlow) hw key hkey
      exact ⟨hle.trans hstart, hlt,
        fun hc => ⟨fun hmem => by have := hfirst _ hmem; omega, hnot hc.2⟩⟩

theorem Built.alloc (h : Built U mem mem' [v]) (hblank : v.Blank U) (t : T) :
    Built U mem (mem' ++ [v]) [.pointer t (mem'.length, [])] := by
  obtain ⟨k, cells, hv, hnodup, hcells, hinward⟩ := h.extend [v]
  have last : (mem' ++ [v])[mem'.length]? = some v := by simp
  refine ⟨h.1.trans (List.prefix_append mem' [v]), k + 1, mem'.length :: cells, ?_, ?_, ?_, ?_⟩
  · exact parts_singleton.mpr ⟨v, cells, rfl, last, parts_singleton.mp hv, rfl⟩
  · exact List.nodup_cons.mpr ⟨fun hc => (hcells _ hc).1.false, hnodup⟩
  · intro c hc
    rcases List.mem_cons.mp hc with rfl | hc
    · exact ⟨h.1.length_le, v, last, hblank⟩
    · exact (hcells c hc).2
  · intro c w hc hw key hkey
    by_cases hlow : c < mem'.length
    · rw [List.getElem?_append_left hlow] at hw
      obtain ⟨hstart, hlt, hnot⟩ := hinward c w hc hw key hkey
      rw [List.mem_cons, List.mem_cons, not_or, not_or]
      exact ⟨hstart, hlt, fun hc => ⟨by omega, hnot hc.2⟩⟩
    · have hc : c = mem'.length := by
        have := (List.getElem?_eq_some_iff.mp hw).1
        rw [List.length_append, List.length_singleton] at this
        omega
      subst hc
      obtain rfl := Option.some.inj (last.symm.trans hw)
      have hmem := hcells _ ((parts_singleton.mp hv).closed.1 key hkey)
      exact ⟨hmem.2.1, hmem.1, fun hc => absurd (List.mem_cons_self ..) hc⟩

theorem built_seedAll {ι : Type} {f : Memory T L → ι → Option (Memory T L × Data T L × Bool)}
    {Q : ι → Data T L → Prop} (items : List ι)
    (h : ∀ i ∈ items, ∀ mem, ∃ mem' v needed, f mem i = some (mem', v, needed) ∧
      Built U mem mem' [v] ∧ Q i v) (mem : Memory T L) :
    ∃ mem' vs needed, seedAll f mem items = some (mem', vs, needed) ∧
      Built U mem mem' vs ∧ List.Forall₂ Q items vs := by
  induction items generalizing mem with
  | nil => exact ⟨mem, [], false, rfl, .nothing rfl, .nil⟩
  | cons i items ih =>
    obtain ⟨mem₁, v, n, hvisit, hv, hQ⟩ := h i (.head _) mem
    obtain ⟨mem₂, vs, more, hrest, hvs, hQs⟩ := ih (fun j hj => h j (.tail _ hj)) mem₁
    refine ⟨mem₂, v :: vs, n || more, ?_, hv.cons hvs, .cons hQ hQs⟩
    simp [seedAll, hvisit, hrest]

omit [Zero L] in
theorem forall_zip_of_forall₂ {R : Field → Data T L → Prop} {fs : List Field}
    {vs' : List (Data T L)}
    (h : List.Forall₂ (fun (i : Field × Data T L) v => R i.1 v) (fs.zip vs) vs') :
    ∀ p ∈ fs.zip vs', R p.1 p.2 := by
  induction fs generalizing vs vs' with
  | nil => simp
  | cons f fs ih =>
    cases vs with
    | nil =>
      cases h
      simp
    | cons =>
      obtain ⟨v', vs', hv, hvs, rfl⟩ := List.forall₂_cons_left_iff.mp h
      simpa using ⟨hv, fun a b hab => ih hvs (a, b) hab⟩

end Building

/-! ## Termination -/

section Termination

variable [DecidableEq T] {U : Types T} {keys : Finset (T × Location)}

/-- The pointers that are not on the way down. -/
def room (keys : Finset (T × Location)) (active : List (T × Location)) : ℕ :=
  (keys.filter (· ∉ active)).card

theorem room_cons_lt {active : List (T × Location)} {key : T × Location} (hkey : key ∈ keys)
    (h : key ∉ active) : room keys (key :: active) < room keys active := by
  refine Finset.card_lt_card ⟨fun k hk => ?_, fun hsub => ?_⟩
  · simp only [Finset.mem_filter, List.mem_cons, not_or] at hk ⊢
    exact ⟨hk.1, hk.2.2⟩
  · have := hsub (Finset.mem_filter.mpr ⟨hkey, h⟩)
    simp at this

variable [Zero L] {heap : Memory T L}

/-- A recursion that is deep enough for the pointers that can still be entered builds a tree. -/
theorem built_seed {size : ℕ} (hsize : 0 < size)
    (hheap : ∀ l v, heap.read l = some v → sizeOf v ≤ size ∧ ∀ key ∈ v.pointers, key ∈ keys) :
    ∀ depth mem a src allocate active, (∀ key ∈ src.pointers, key ∈ keys) →
      sizeOf src + room keys active * (size + 1) < depth →
      ∃ mem' v needed, seedConfigDecodeShape U heap depth mem a src allocate active =
        some (mem', v, needed) ∧ Built U mem mem' [v] ∧ v.Blank U := by
  intro depth
  induction depth with
  | zero => intro mem a src allocate active _ h; omega
  | succ depth ih =>
    intro mem a src allocate active hkeys hdepth
    have part {vs : List (Data T L)} {v : Data T L} (hv : v ∈ vs)
        (hvs : ∀ key ∈ Data.pointersAll vs, key ∈ keys) (hlt : sizeOf vs < sizeOf src)
        (mem : Memory T L) (a : Access) (allocate : Bool) :=
      ih mem a v allocate active (fun key hkey => hvs key (Data.mem_pointersAll.mpr ⟨v, hv, hkey⟩))
        (by have := List.sizeOf_lt_of_mem hv; omega)
    cases src with
    | leaf x => exact ⟨mem, _, _, rfl, .zero (.leaf x), .leaf⟩
    | nilPointer => exact ⟨mem, _, _, rfl, .zero .nilPointer, .nilPointer⟩
    | nilInterface => exact ⟨mem, _, _, rfl, .zero .nilInterface, .nilInterface⟩
    | pointer t l =>
      rw [seedConfigDecodeShape]
      by_cases hactive : (t, l) ∈ active
      · rw [if_pos hactive]
        exact ⟨mem, _, _, rfl, .zero .nilPointer, .nilPointer⟩
      · have hroom := room_cons_lt (hkeys _ (List.mem_singleton.mpr rfl)) hactive
        have hval : sizeOf ((heap.read l).getD .nilPointer) ≤ size ∧
            ∀ key ∈ ((heap.read l).getD .nilPointer).pointers, key ∈ keys := by
          cases hl : heap.read l with
          | none => exact ⟨hsize, by simp [Data.pointers]⟩
          | some v => exact hheap l v hl
        have hmul := Nat.mul_le_mul_right (size + 1) hroom
        rw [Nat.succ_mul] at hmul
        obtain ⟨mem', v, needed, hseed, hbuilt, hblank⟩ :=
          ih mem .settable _ false ((t, l) :: active) hval.2 (by omega)
        rw [if_neg hactive, hseed]
        simp only [bind_eq_bind, bind_some]
        split_ifs
        · exact ⟨_, _, _, rfl, hbuilt.nilPointer, .nilPointer⟩
        · exact ⟨_, _, _, rfl, hbuilt.alloc hblank t, .pointer ..⟩
        · exact ⟨_, _, _, rfl, hbuilt.nilPointer, .nilPointer⟩
    | interface t v =>
      rw [seedConfigDecodeShape]
      by_cases ha : a = .settable
      · obtain ⟨mem', v', needed, hseed, hbuilt, hblank⟩ :=
          ih mem .settable v true active hkeys (by simp at hdepth; omega)
        rw [if_pos ha, hseed]
        exact ⟨_, _, _, rfl, hbuilt.wrap fun k cells h => parts_singleton.mp h, .interface t hblank⟩
      · rw [if_neg ha]
        exact ⟨mem, _, _, rfl, .zero .nilInterface, .nilInterface⟩
    | struct t vs =>
      let R (f : Field) (v : Data T L) :=
        if f.excluded then ∃ w : Data T L, v = w.zero else v.Blank U
      obtain ⟨mem', vs', needed, hseed, hbuilt, hQ⟩ := built_seedAll (U := U)
        (Q := fun (i : Field × Data T L) v => R i.1 v)
        (f := fun mem (f, v) =>
          if f.excluded then some (mem, v.zero, false)
          else seedConfigDecodeShape U heap depth mem
            (if exposed heap f v then .settable else a.field f) v f.squash active)
        ((U.fields t).zip vs) (by
          rintro ⟨f, v⟩ hfv mem
          dsimp only [R]
          split_ifs
          · exact ⟨mem, _, _, rfl, .zero v, v, rfl⟩
          all_goals exact part (List.of_mem_zip hfv).2 hkeys (by simp) mem _ _) mem
      have hzip := forall_zip_of_forall₂ (R := R) hQ
      rw [seedConfigDecodeShape, hseed]
      refine ⟨_, _, _, rfl, hbuilt.wrap fun k cells h => h, .struct ?_ ?_⟩
      · exact fun p hp hex => by simpa [R, hex] using hzip p hp
      · exact fun p hp hex => by simpa [R, hex] using hzip p hp
    | array vs =>
      obtain ⟨mem', vs', needed, hseed, hbuilt, hQ⟩ := built_seedAll (U := U)
        (Q := fun _ v => v.Blank U ∧ True) vs
        (fun v hv mem => by simpa using part hv hkeys (by simp) mem a.elem false) mem
      rw [seedConfigDecodeShape, hseed]
      refine ⟨_, _, _, rfl, hbuilt.wrap fun k cells h => h, .array ?_⟩
      exact ((List.forall₂_and_left ..).mp hQ.flip).1

end Termination

/-! ## Applying -/

section Applying

variable {m₀ m : Memory T L} {R S : Set ℕ} {k : ℕ} {v w x : Data T L} {vs : List (Data T L)}
  {cells : List ℕ} {P : Data T L → List ℕ → Prop} {key : T × Location} {dst : Location}

/-- The cells of `R` are those of `m₀`, and no other cell points to them. -/
structure Keeps (m₀ m : Memory T L) (R : Set ℕ) : Prop where
  same : ∀ c ∈ R, m[c]? = m₀[c]?
  inside : ∀ c ∈ R, c < m.length
  apart : ∀ c v, c ∉ R → m[c]? = some v → ∀ key ∈ v.pointers, key.2.1 ∉ R

namespace Keeps

theorem release (h : Keeps m₀ m S) (howns : Owns m₀ k v cells) (hS : S ⊆ R)
    (hR : R \ {c | c ∈ cells} ⊆ S) : Keeps m₀ m (R \ {c | c ∈ cells}) where
  same c hc := h.same c (hR hc)
  inside c hc := h.inside c (hR hc)
  apart c w hc hw key hkey hmem := by
    by_cases hcS : c ∈ S
    · have hcells : c ∈ cells := by_contra fun hn => hc ⟨hS hcS, hn⟩
      obtain ⟨w', hw', hkeys⟩ := howns.closed.2 c hcells
      obtain rfl := some.inj (hw'.symm.trans ((h.same c hcS).symm.trans hw))
      exact hmem.2 (hkeys key hkey)
    · exact h.apart c w hcS hw key hkey (hR hmem)

theorem pointers_put {path : List ℕ} (h : key ∈ (x.put path v).pointers) :
    key ∈ x.pointers ∨ key ∈ v.pointers := by
  induction path generalizing v with
  | nil => exact .inl h
  | cons i path ih =>
    cases v with
    | array | struct =>
      obtain ⟨w, hw, hkey⟩ := Data.mem_pointersAll.mp h
      obtain ⟨j, hj⟩ := List.mem_iff_getElem?.mp hw
      rw [List.getElem?_modify] at hj
      obtain ⟨u, hu, rfl⟩ := map_eq_some_iff.mp hj
      have := List.mem_of_getElem? hu
      split_ifs at hkey
      · exact (ih hkey).imp_right fun h => Data.mem_pointersAll.mpr ⟨u, this, h⟩
      · exact .inr (Data.mem_pointersAll.mpr ⟨u, this, hkey⟩)
    | _ => exact .inr h

theorem write (h : Keeps m₀ m R) (hdst : dst.1 ∉ R) (hx : ∀ key ∈ x.pointers, key.2.1 ∉ R) :
    Keeps m₀ (m.write dst x) R where
  same c hc := by
    rw [Memory.write, List.getElem?_modify_ne _ _ (by rintro rfl; exact hdst hc)]
    exact h.same c hc
  inside c hc := by
    rw [Memory.write, List.length_modify]
    exact h.inside c hc
  apart c v hc hv key hkey := by
    rw [Memory.write, List.getElem?_modify] at hv
    obtain ⟨u, hu, rfl⟩ := map_eq_some_iff.mp hv
    split_ifs at hkey
    · exact (pointers_put hkey).elim (hx key) (h.apart c u hc hu key)
    · exact h.apart c u hc hu key hkey

theorem append (h : Keeps m₀ m R) (hx : ∀ key ∈ x.pointers, key.2.1 ∉ R) :
    Keeps m₀ (m ++ [x]) R where
  same c hc := by rw [List.getElem?_append_left (h.inside c hc), h.same c hc]
  inside c hc := by
    rw [List.length_append]
    exact (h.inside c hc).trans_le (Nat.le_add_right _ _)
  apart c v hc hv := by
    rw [List.getElem?_append] at hv
    split_ifs at hv
    · exact h.apart c v hc hv
    · obtain rfl := List.mem_singleton.mp (List.mem_of_getElem? hv)
      exact hx

theorem target (h : Keeps m₀ m R) (hdst : dst.1 ∉ R) (hv : m.read dst = some v) :
    ∀ key ∈ v.pointers, key.2.1 ∉ R := by
  obtain ⟨u, hu, hpart⟩ := bind_eq_some_iff.mp hv
  exact fun key hkey => h.apart dst.1 u hdst hu key ((Data.part_le hpart).2 key hkey)

end Keeps

/-- A call returns and releases cells, when the object has none of them and the decoded value is in
none of them. -/
def Releases (m₀ : Memory T L) (call : Memory T L → Option (Memory T L)) (dst : ℕ)
    (decoded : ℕ ⊕ Data T L) (cells : List ℕ) : Prop :=
  ∀ m R, Keeps m₀ m R → dst ∉ R → (∀ c, decoded = .inl c → c ∈ R ∧ c ∉ cells) →
    (∀ c ∈ cells, c ∈ R) → ∃ m', call m = some m' ∧ Keeps m₀ m' (R \ {c | c ∈ cells})

theorem Releases.loop {call : Memory T L → ℕ → Option (Memory T L)} {d : ℕ} {decoded : ℕ ⊕ Data T L}
    (hvs : Parts P vs cells) (hnodup : cells.Nodup) (n : ℕ)
    (h : ∀ i v part, vs[i]? = some v → P v part → part.Nodup →
      Releases m₀ (call · (n + i)) d decoded part) :
    Releases m₀ ((List.range' n vs.length).foldlM call ·) d decoded cells := by
  induction vs generalizing n cells with
  | nil =>
    obtain rfl : cells = [] := hvs
    exact fun m R hkeeps _ _ _ => ⟨m, rfl, by simpa using hkeeps⟩
  | cons v vs ih =>
    obtain ⟨first, rest, hv, hvs, rfl⟩ := hvs
    obtain ⟨hfirst, hrest, hdisj⟩ := List.nodup_append.mp hnodup
    intro m R hkeeps hd hdecoded hcells
    simp only [List.mem_append, not_or] at hdecoded hcells
    obtain ⟨m₁, hm₁, h₁⟩ := h 0 v first rfl hv hfirst m R hkeeps hd
      (fun c hc => ⟨(hdecoded c hc).1, (hdecoded c hc).2.1⟩) fun c hc => hcells c (.inl hc)
    obtain ⟨m₂, hm₂, h₂⟩ := ih hvs hrest (n + 1)
      (fun i w part hw => by simpa [Nat.add_assoc, Nat.add_comm 1] using h (i + 1) w part hw)
      m₁ _ h₁ (fun h => hd h.1)
      (fun c hc => ⟨⟨(hdecoded c hc).1, (hdecoded c hc).2.1⟩, (hdecoded c hc).2.2⟩)
      fun c hc => ⟨hcells c (.inr hc), fun hc' => hdisj c hc' c hc rfl⟩
    refine ⟨m₂, ?_, ?_⟩
    · rw [Nat.add_zero] at hm₁
      simpa [List.range'_succ, hm₁] using hm₂
    · convert h₂ using 1
      ext c
      simp [and_assoc]

theorem part_append (path path' : List ℕ) (v : Data T L) :
    v.part (path ++ path') = (v.part path).bind (Data.part path') := by
  induction path generalizing v with
  | nil => rfl
  | cons i path ih =>
    cases v with
    | array | struct =>
      simp only [List.cons_append, Data.part, bind_assoc]
      congr 1
      funext u
      exact ih u
    | _ => rfl

theorem View.read_child {decoded : View T L} (h : decoded.read m = some v) (i : ℕ) :
    View.read m (decoded.1, decoded.2 ++ [i]) = v.part [i] := by
  obtain ⟨u, hu, hv⟩ := bind_eq_some_iff.mp h
  simp [View.read, hu, part_append, hv]

variable [DecidableEq T] {U : Types T}

/-- A call that is as deep as the tree of the decoded value is high returns.  When it takes over a
part of the decoded value, or has passed it, the object may write there. -/
theorem applyInPlace_releases : ∀ k depth a dst (decoded : View T L) v cells, k ≤ depth →
    decoded.read m₀ = some v → Owns m₀ k v cells → cells.Nodup →
    Releases m₀ (applyInPlace U depth · a dst decoded) dst.1 decoded.1 cells := by
  intro k
  induction k with
  | zero => intros; contradiction
  | succ k ih =>
    intro depth a dst decoded v cells hk hread howns hnodup m R hkeeps hdst hin hcells
    obtain ⟨depth, rfl⟩ : ∃ n, depth = n + 1 := ⟨depth - 1, by omega⟩
    have hk := Nat.le_of_succ_le_succ hk
    have released := hkeeps.release howns subset_rfl Set.sdiff_subset
    have set : ∃ m', some (a.set m (m.write dst v)) = some m' ∧
        Keeps m₀ m' (R \ {c | c ∈ cells}) := by
      refine ⟨_, rfl, ?_⟩
      unfold Access.set
      split_ifs
      · exact released.write (fun h => hdst h.1) fun key hkey h => h.2 (howns.closed.1 key hkey)
      · exact released
    have hnow : decoded.read m = some v := by
      rw [← hread, View.read, View.read]
      congr 1
      cases hd : decoded.1 with
      | inl c => exact hkeeps.same c (hin c hd).1
      | inr => rfl
    dsimp only
    rw [applyInPlace, hnow]
    split
    · next t u t' u' hd heq =>
      cases heq
      split_ifs with ht
      · -- the copy of the content of the interface is in a new cell
        have hu := hkeeps.target hdst hd
        have hfresh : m.length ∉ R := fun h => (hkeeps.inside _ h).false
        obtain ⟨m', hm', h'⟩ := ih depth .settable (m.length, []) (.inr u', []) u' cells hk rfl
          howns hnodup (m ++ [u]) R (hkeeps.append hu) hfresh (by simp) hcells
        dsimp only at hm'
        rw [hm']
        refine ⟨_, rfl, h'.write (fun h => hdst h.1) ?_⟩
        rw [Data.pointers]
        cases hw : Memory.read m' (m.length, []) with
        | none => exact fun key hkey h => hu key hkey h.1
        | some => exact h'.target (fun h => hfresh h.1) hw
      · exact set
    · next t p t' q hd heq =>
      cases heq
      obtain ⟨w, rest, hq, hw, hrest, rfl⟩ := id howns
      obtain ⟨hqrest, hnodup⟩ := List.nodup_cons.mp hnodup
      obtain ⟨m', hm', h'⟩ := ih depth a p (.inl q.1, q.2) w rest hk
        (by simp [View.read, hq, hw, Data.part]) hrest hnodup m R hkeeps
        (hkeeps.target hdst hd (t, p) (List.mem_singleton.mpr rfl))
        (by rintro c ⟨⟩; exact ⟨hcells _ (.head _), hqrest⟩) fun c hc => hcells c (.tail _ hc)
      refine ⟨m', hm', h'.release howns Set.sdiff_subset ?_⟩
      exact fun c hc => ⟨hc.1, fun h => hc.2 (.tail _ h)⟩
    · next vs' hd heq =>
      cases heq
      rw [List.range_eq_range']
      refine Releases.loop howns hnodup 0
        (fun i w part hw hpart hn => ?_) m R hkeeps hdst hin hcells
      exact ih depth _ (dst.1, dst.2 ++ [0 + i]) (decoded.1, decoded.2 ++ [0 + i]) w part hk
        ((View.read_child hread _).trans (by simpa [Data.part] using hw)) hpart hn
    · next vs' hd heq =>
      cases heq
      split_ifs
      · exact set
      · rw [List.range_eq_range']
        refine Releases.loop howns hnodup 0 (fun i w part hw hpart hn => ?_) m R hkeeps hdst hin
          hcells
        split
        · exact fun m R hkeeps _ _ _ => ⟨m, rfl, hkeeps.release hpart subset_rfl Set.sdiff_subset⟩
        · exact ih depth _ (dst.1, dst.2 ++ [0 + i]) (decoded.1, decoded.2 ++ [0 + i]) w part hk
            ((View.read_child hread _).trans (by simpa [Data.part] using hw)) hpart hn
    · next heq _ _ _ _ =>
      cases heq
      exact set
    · next heq => cases heq

/-- A tree: no cell is met twice on any way down, so that there is neither a cycle nor a cell that
is shared, and these are its cells. -/
def Tree (m : Memory T L) (v : Data T L) (cells : List ℕ) : Prop :=
  (∃ k, Owns m k v cells) ∧ cells.Nodup

/-- No other cell points to these. -/
def Apart (m : Memory T L) (cells : List ℕ) : Prop :=
  ∀ c v, c ∉ cells → m[c]? = some v → ∀ key ∈ v.pointers, key.2.1 ∉ cells

/-- Every pointer leads to a cell. -/
def Sound (m : Memory T L) : Prop := ∀ v ∈ m, ∀ key ∈ v.pointers, key.2.1 < m.length

omit [DecidableEq T] in
theorem Built.apart [Zero L] {U : Types T} {mem mem' : Memory T L} (hmem : Sound mem)
    (h : Built U mem mem' [v]) :
    ∃ cells, Tree mem' v cells ∧ Apart mem' cells ∧ ∀ c ∈ cells, mem.length ≤ c := by
  obtain ⟨⟨more, rfl⟩, k, cells, hv, hnodup, hcells, hinward⟩ := h
  refine ⟨cells, ⟨⟨k, parts_singleton.mp hv⟩, hnodup⟩, fun c w hc hw key hkey hin => ?_,
    fun c hc => (hcells c hc).1⟩
  by_cases hlow : c < mem.length
  · rw [List.getElem?_append_left hlow] at hw
    have := hmem w (List.mem_of_getElem? hw) key hkey
    have := (hcells _ hin).1
    omega
  · exact (hinward c w (not_lt.mp hlow) hw key hkey).2.2 hc hin

/-- Seeding returns in a bounded depth. -/
theorem seed_built [Zero L] (U : Types T) (heap : Memory T L) (a : Access) (src : Data T L)
    (allocate : Bool) : ∃ bound, ∀ depth ≥ bound, ∃ mem v needed,
      seedConfigDecodeShape U heap depth heap a src allocate [] = some (mem, v, needed) ∧
      Built U heap mem [v] ∧ v.Blank U := by
  let keys := (heap.flatMap Data.pointers ++ src.pointers).toFinset
  have hheap (l : Location) (v : Data T L) (h : heap.read l = some v) :
      sizeOf v ≤ sizeOf heap ∧ ∀ key ∈ v.pointers, key ∈ keys := by
    obtain ⟨u, hu, hv⟩ := Option.bind_eq_some_iff.mp h
    have hmem := List.mem_of_getElem? hu
    obtain ⟨hsize, hpointers⟩ := Data.part_le hv
    refine ⟨hsize.trans (List.sizeOf_lt_of_mem hmem).le, fun key hkey => ?_⟩
    exact List.mem_toFinset.mpr (List.mem_append_left _
      (List.mem_flatMap.mpr ⟨u, hmem, hpointers key hkey⟩))
  have hpos : 0 < sizeOf heap := by
    cases heap with
    | nil => exact Nat.one_pos
    | cons => exact Nat.add_pos_left (Nat.add_pos_left Nat.one_pos _) _
  exact ⟨sizeOf src + room keys [] * (sizeOf heap + 1) + 1, fun depth hdepth =>
    built_seed (U := U) hpos hheap depth heap a src allocate []
      (fun key hkey => List.mem_toFinset.mpr (List.mem_append_right _ hkey)) hdepth⟩

/-- A decoded value that is a tree apart from the object is applied in a bounded depth. -/
theorem apply_terminates (U : Types T) (m : Memory T L) (a : Access) (object : Location) (t : T)
    (decoded : Location) (cells : List ℕ) (htree : Tree m (.pointer t decoded) cells)
    (hapart : Apart m cells) (hobject : object.1 ∉ cells) : ∃ bound, ∀ depth ≥ bound,
      ∃ m', applyInPlace U depth m a object (.inl decoded.1, decoded.2) = some m' := by
  obtain ⟨⟨k, howns⟩, hnodup⟩ := htree
  cases k with
  | zero => exact howns.elim
  | succ k =>
    have hkeeps : Keeps m m {c | c ∈ cells} :=
      { same := fun _ _ => rfl, inside := fun c hc => ?_, apart := hapart }
    · obtain ⟨v, rest, hpath, hv, hrest, rfl⟩ := howns
      obtain ⟨hnotin, hnodup⟩ := List.nodup_cons.mp hnodup
      refine ⟨k, fun depth hk => ?_⟩
      obtain ⟨m', hm', -⟩ := applyInPlace_releases k depth a object (.inl decoded.1, decoded.2) v
        rest hk (by simp [View.read, hpath, hv, Data.part]) hrest hnodup m _ hkeeps hobject
        (by rintro c ⟨⟩; exact ⟨.head _, hnotin⟩) fun c hc => .tail _ hc
      exact ⟨m', hm'⟩
    · obtain ⟨w, hw, -⟩ := howns.closed.2 c hc
      exact (List.getElem?_eq_some_iff.mp hw).1

/-- The target of a loader's object: a pointer to a new cell. -/
theorem seed_pointer [Zero L] {U : Types T} {heap mem : Memory T L} {depth : ℕ} {t : T}
    {object : Location} {needed : Bool}
    (h : seedConfigDecodeShape U heap depth heap .settable (.pointer t object) true [] =
      some (mem, v, needed)) : ∃ decoded, v = .pointer t decoded := by
  cases depth with
  | zero => cases h
  | succ depth =>
    rw [seedConfigDecodeShape, if_neg List.not_mem_nil] at h
    obtain ⟨⟨mem', value, n⟩, -, ⟨⟩⟩ := bind_eq_some_iff.mp h
    exact ⟨_, rfl⟩

/-- For every object, with any sharing and any cycles, seeding returns in a bounded depth; the
object is unchanged, and what is built is a tree of fresh cells in which all that is no structure is
zero.  A decoded value that is a tree apart from the object is applied in a bounded depth.  The
target that is seeded for a loader's object is such a value. -/
theorem seed_terminates [Zero L] (U : Types T) :
    (∀ (heap : Memory T L) a src allocate, ∃ bound, ∀ depth ≥ bound, ∃ mem v needed cells,
      seedConfigDecodeShape U heap depth heap a src allocate [] = some (mem, v, needed) ∧
      heap <+: mem ∧ Tree mem v cells ∧ v.Blank U ∧
      ∀ c ∈ cells, heap.length ≤ c ∧ ∃ w, mem[c]? = some w ∧ w.Blank U) ∧
    (∀ (m : Memory T L) a object t decoded cells, Tree m (.pointer t decoded) cells →
      Apart m cells → object.1 ∉ cells → ∃ bound, ∀ depth ≥ bound,
        ∃ m', applyInPlace U depth m a object (.inl decoded.1, decoded.2) = some m') ∧
    ∀ (heap : Memory T L) t object, Sound heap → object.1 < heap.length →
      ∃ bound, ∀ depth ≥ bound, ∃ mem decoded needed cells,
        seedConfigDecodeShape U heap depth heap .settable (.pointer t object) true [] =
          some (mem, .pointer t decoded, needed) ∧
        Tree mem (.pointer t decoded) cells ∧ Apart mem cells ∧ object.1 ∉ cells ∧
        ∃ bound, ∀ depth ≥ bound,
          ∃ m', applyInPlace U depth mem .settable object (.inl decoded.1, decoded.2) =
            some m' := by
  refine ⟨fun heap a src allocate => ?_, apply_terminates U, fun heap t object hsound hobject => ?_⟩
  · obtain ⟨bound, hbound⟩ := seed_built U heap a src allocate
    refine ⟨bound, fun depth hdepth => ?_⟩
    obtain ⟨mem, v, needed, hseed, ⟨hpre, k, cells, hv, hnodup, hcells, -⟩, hblank⟩ :=
      hbound depth hdepth
    exact ⟨mem, v, needed, cells, hseed, hpre, ⟨⟨k, parts_singleton.mp hv⟩, hnodup⟩, hblank, hcells⟩
  · obtain ⟨bound, hbound⟩ := seed_built U heap .settable (.pointer t object) true
    refine ⟨bound, fun depth hdepth => ?_⟩
    obtain ⟨mem, v, needed, hseed, hbuilt, -⟩ := hbound depth hdepth
    obtain ⟨decoded, rfl⟩ := seed_pointer hseed
    obtain ⟨cells, htree, hapart, hfresh⟩ := hbuilt.apart hsound
    have hout : object.1 ∉ cells := fun hin => (hfresh _ hin).not_gt hobject
    exact ⟨mem, decoded, needed, cells, hseed, htree, hapart, hout,
      apply_terminates U mem .settable object t decoded cells htree hapart hout⟩

end Applying

/-! ## Decoding -/

/-- A cell that can be reached through the pointers of a value. -/
inductive Reaches (m : Memory T L) : Data T L → ℕ → Prop
  | here {v key} (hkey : key ∈ v.pointers) : Reaches m v key.2.1
  | there {v key w c} (hkey : key ∈ v.pointers) (hw : m[key.2.1]? = some w) (hc : Reaches m w c) :
      Reaches m v c

theorem Closed.mem_of_reaches {m : Memory T L} {v : Data T L} {cells : List ℕ} {c : ℕ}
    (h : Closed m v.pointers cells) (hc : Reaches m v c) : c ∈ cells := by
  induction hc with
  | here hkey => exact h.1 _ hkey
  | there hkey hw _ ih =>
    obtain ⟨w', hw', hkeys⟩ := h.2 _ (h.1 _ hkey)
    obtain rfl := Option.some.inj (hw.symm.trans hw')
    exact ih ⟨hkeys, h.2⟩

/-- Nothing that was there before can be reached from what has been built. -/
theorem Built.decode [Zero L] {U : Types T} {heap mem mem' : Memory T L} {v : Data T L}
    (h : Built U heap mem [v])
    (hsame : ∀ c < mem.length, ¬ Reaches mem v c → mem'[c]? = mem[c]?) {c : ℕ}
    (hc : c < heap.length) : mem'[c]? = heap[c]? := by
  obtain ⟨⟨more, rfl⟩, k, cells, hv, -, hcells, -⟩ := h
  rw [hsame c (by rw [List.length_append]; omega), List.getElem?_append_left hc]
  intro hreach
  have hin := (parts_singleton.mp hv).closed.mem_of_reaches hreach
  exact (hcells c hin).1.not_gt hc

/-- A reload changes exactly the configurable part of the object: every excluded field at which the
call arrives keeps its value; every position at which it ends is the decoded one if it may be set,
and the old one if not; a second application of the same value changes nothing.  After an error of
the decoder nothing changes, and `Reload` is not called: the target is seeded in fresh cells, and
whatever the decoder writes to what it can reach from its target, the cells of the object stay as
they are. -/
theorem apply_changes_configurable_part [DecidableEq T] (U : Types T) (object decoded : Value T L) :
    (∀ path a t v t' v' i f, arrive U object decoded path = some (a, .struct t v, .struct t' v') →
      t ≠ U.time → (U.fields t)[i]? = some f → f.excluded = true →
      object.part U (path ++ [.field i]) = some (v i) ∧
        (reload U object (some decoded)).1.part U (path ++ [.field i]) = some (v i)) ∧
    (∀ path a v v', arrive U object decoded path = some (a, v, v') → v.Ends U v' →
      (reload U object (some decoded)).1.part U path = some (a.set v v')) ∧
    applyConfigValue U .settable (reload U object (some decoded)).1 decoded =
      (reload U object (some decoded)).1 ∧
    reload U object none = (object, false) ∧
    ∀ [Zero L] (heap : Memory T L) t object, ∃ bound, ∀ depth ≥ bound, ∃ mem target needed,
      seedConfigDecodeShape U heap depth heap .settable (.pointer t object) true [] =
        some (mem, target, needed) ∧
      ∀ mem' : Memory T L, (∀ c < mem.length, ¬ Reaches mem target c → mem'[c]? = mem[c]?) →
        ∀ c < heap.length, mem'[c]? = heap[c]? := by
  refine ⟨fun path a t v t' v' i f h ht hf hex => part_reload_excluded h ht hf hex,
    fun path a v v' h hend => ?_, apply_apply _ _ _, rfl, fun heap t object => ?_⟩
  · rw [← apply_of_ends hend]
    exact (part_apply_from path h).2
  · obtain ⟨bound, hbound⟩ := seed_built U heap .settable (.pointer t object) true
    refine ⟨bound, fun depth hdepth => ?_⟩
    obtain ⟨mem, target, needed, hseed, hbuilt, -⟩ := hbound depth hdepth
    exact ⟨mem, target, needed, hseed, fun mem' hsame c hc => hbuilt.decode hsame hc⟩

/-! ## A part that is shared -/

/-- Two struct types, one with a pointer to itself. -/
def sharedTypes : Types ℕ where
  fields t := if t = 0 then [{}, {}, {}] else [{}]
  time := 2

/-- Object 0 has the same pointer variable in two fields, and a third field leads to a cycle.  The
decoded value 3 has no cycle, but node 6 in it has three pointers to it. -/
def sharedMemory : Memory ℕ ℕ :=
  [.struct 0 [.pointer 3 (1, []), .pointer 3 (1, []), .pointer 4 (2, [])], .nilPointer,
    .struct 1 [.pointer 4 (2, [])],
    .struct 0 [.pointer 3 (4, []), .pointer 3 (5, []), .pointer 4 (6, [])], .pointer 4 (6, []),
    .pointer 4 (7, []), .struct 1 [.nilPointer], .struct 1 [.pointer 4 (8, [])],
    .struct 1 [.pointer 4 (6, [])]]

/-- After the second field: node 6 has been taken over and then linked to node 8, which leads to
node 6. -/
def linkedMemory : Memory ℕ ℕ :=
  Memory.write (Memory.write sharedMemory (1, []) (.pointer 4 (6, []))) (6, [0])
    (.pointer 4 (8, []))

theorem linked_loops (depth : ℕ) (a : Access) :
    applyInPlace sharedTypes depth linkedMemory a (2, []) (.inl 6, []) = none ∧
    applyInPlace sharedTypes depth linkedMemory a (2, [0]) (.inl 6, [0]) = none ∧
    applyInPlace sharedTypes depth linkedMemory a (2, []) (.inl 8, []) = none ∧
    applyInPlace sharedTypes depth linkedMemory a (2, [0]) (.inl 8, [0]) = none := by
  induction depth generalizing a with
  | zero => exact ⟨rfl, rfl, rfl, rfl⟩
  | succ depth ih =>
    refine ⟨?_, (ih a).2.2.1, ?_, (ih a).1⟩
    · exact congrArg (bind · _) (ih (a.field {})).2.1
    · exact congrArg (bind · _) (ih (a.field {})).2.2.2

theorem loops_on_shared :
    (∃ k cells, Owns sharedMemory k (.pointer 5 (3, [])) cells ∧ Apart sharedMemory cells ∧
      0 ∉ cells) ∧
    ∀ depth, applyInPlace sharedTypes depth sharedMemory .settable (0, []) (.inl 3, []) = none := by
  constructor
  · refine ⟨10, [3, 4, 6, 5, 7, 8, 6, 6], ?_, ?_, by decide⟩
    · simp [Owns, Parts, sharedMemory]
    · rintro (_ | _ | _ | _ | _ | _ | _ | _ | _ | c) v hc hv
      iterate 3
        cases hv
        decide
      iterate 6 exact absurd (by decide) hc
      cases hv
  · rintro (_ | _ | _ | _ | _ | _ | depth)
    iterate 6 rfl
    exact congrArg (Option.bind · _) (linked_loops (depth + 4) .settable).1

end Pitaya.Config
