import GrantPlan.Ordered.Set
/-!
# Maps kept in key order

`OrderedMap κ ν` is a finite map, kept as the list of its entries with strictly increasing keys.

* `get?_insert`: the last value written under a key is the one found there;
* `get?_update`: what is done to the value under a key leaves the other keys alone;
* `get?_mapValues`: what is done to all values is done under each key.
-/

namespace GrantPlan

open Std

variable {κ ν : Type} [Ord κ]

/-! ## Entries in key order -/

/-- Writes `v` under `k` in entries with increasing keys. -/
def writeEntry (k : κ) (v : ν) : List (κ × ν) → List (κ × ν)
  | [] => [(k, v)]
  | e :: rest =>
    match compare k e.1 with
    | .lt => (k, v) :: e :: rest
    | .eq => (k, v) :: rest
    | .gt => e :: writeEntry k v rest

theorem mem_keys_writeEntry [TransOrd κ] [LawfulEqOrd κ] {k x : κ} {v : ν} {es : List (κ × ν)} :
    x ∈ (writeEntry k v es).map Prod.fst ↔ x = k ∨ x ∈ es.map Prod.fst := by
  induction es with
  | nil => simp [writeEntry]
  | cons e rest ih =>
    unfold writeEntry
    split
    · simp
    · next h =>
      obtain rfl := LawfulEqCmp.eq_of_compare h
      simp
    · simp only [List.map_cons, List.mem_cons, ih]
      grind

theorem pairwise_writeEntry [TransOrd κ] [LawfulEqOrd κ] (k : κ) (v : ν) {es : List (κ × ν)}
    (h : (es.map Prod.fst).Pairwise (compare · · = .lt)) :
    ((writeEntry k v es).map Prod.fst).Pairwise (compare · · = .lt) := by
  induction es with
  | nil => simp [writeEntry]
  | cons e rest ih =>
    obtain ⟨he, hrest⟩ := List.pairwise_cons.1 h
    unfold writeEntry
    split
    · next hk =>
      refine List.pairwise_cons.2 ⟨fun x hx => ?_, h⟩
      rcases List.mem_cons.1 hx with rfl | hx
      · exact hk
      · exact TransCmp.lt_trans hk (he x hx)
    · next hk =>
      obtain rfl := LawfulEqCmp.eq_of_compare hk
      exact h
    · next hk =>
      refine List.pairwise_cons.2 ⟨fun x hx => ?_, ih hrest⟩
      rcases mem_keys_writeEntry.1 hx with rfl | hx
      · exact OrientedCmp.gt_iff_lt.1 hk
      · exact he x hx

/-! ## Maps -/

/-- A finite map, listed by increasing key. -/
structure OrderedMap (κ ν : Type) [Ord κ] where
  /-- The entries by increasing key. -/
  toList : List (κ × ν)
  increasing : (toList.map Prod.fst).Pairwise (compare · · = .lt)

namespace OrderedMap

instance [DecidableEq κ] [DecidableEq ν] : DecidableEq (OrderedMap κ ν) := fun s t =>
  decidable_of_iff (s.toList = t.toList) (by cases s; cases t; simp)

/-- The map without entries. -/
def empty : OrderedMap κ ν := ⟨[], by simp⟩

instance : EmptyCollection (OrderedMap κ ν) := ⟨empty⟩

instance : Inhabited (OrderedMap κ ν) := ⟨∅⟩

/-- The keys that have a value. -/
def keys (m : OrderedMap κ ν) : OrderedSet κ := ⟨m.toList.map Prod.fst, m.increasing⟩

/-- The value under a key. -/
def get? [DecidableEq κ] (m : OrderedMap κ ν) (k : κ) : Option ν :=
  (m.toList.find? (·.1 = k)).map Prod.snd

@[simp] theorem get?_empty [DecidableEq κ] (k : κ) : (∅ : OrderedMap κ ν).get? k = none := rfl

/-- The entries are what is found under their keys. -/
theorem get?_eq_some_iff [DecidableEq κ] [TransOrd κ] {m : OrderedMap κ ν} {k : κ} {v : ν} :
    m.get? k = some v ↔ (k, v) ∈ m.toList := by
  have hkeys : (m.toList.map Prod.fst).Nodup := nodup_of_increasing m.increasing
  show (m.toList.find? (·.1 = k)).map Prod.snd = some v ↔ _
  generalize m.toList = es at hkeys
  induction es with
  | nil => simp
  | cons e rest ih =>
    obtain ⟨he, hrest⟩ := List.nodup_cons.1 hkeys
    rw [List.find?_cons]
    by_cases hk : e.1 = k
    · have habsent : (k, v) ∉ rest := fun hmem => he (hk ▸ List.mem_map_of_mem hmem)
      have heq : (k, v) = e ↔ e.2 = v := by
        rw [← hk, eq_comm, Prod.ext_iff]
        exact and_iff_right rfl
      simp [hk, habsent, heq]
    · have hne : (k, v) ≠ e := fun heq => hk (congrArg Prod.fst heq).symm
      simp [hk, hne, ih hrest]

theorem mem_keys_iff [DecidableEq κ] [TransOrd κ] {m : OrderedMap κ ν} {k : κ} :
    k ∈ m.keys ↔ ∃ v, m.get? k = some v := by
  show k ∈ m.toList.map Prod.fst ↔ _
  simp [get?_eq_some_iff]

/-- `m` with a function applied to each value. -/
def mapValues {μ : Type} (f : ν → μ) (m : OrderedMap κ ν) : OrderedMap κ μ :=
  ⟨m.toList.map fun e => (e.1, f e.2), by
    simpa [List.map_map, Function.comp_def] using m.increasing⟩

/-- What is done to all values is done to the one under a key. -/
@[simp] theorem get?_mapValues {μ : Type} [DecidableEq κ] (f : ν → μ) (m : OrderedMap κ ν) (k : κ) :
    (m.mapValues f).get? k = (m.get? k).map f := by
  show ((m.toList.map fun e => (e.1, f e.2)).find? (·.1 = k)).map Prod.snd =
    ((m.toList.find? (·.1 = k)).map Prod.snd).map f
  rw [List.find?_map, Option.map_map, Option.map_map]
  rfl

variable [TransOrd κ] [LawfulEqOrd κ]

/-- `m` with `v` under `k`. -/
def insert (m : OrderedMap κ ν) (k : κ) (v : ν) : OrderedMap κ ν :=
  ⟨writeEntry k v m.toList, pairwise_writeEntry k v m.increasing⟩

/-- The last value written under a key is the one found there. -/
theorem get?_insert [DecidableEq κ] (m : OrderedMap κ ν) (k : κ) (v : ν) (x : κ) :
    (m.insert k v).get? x = if x = k then some v else m.get? x := by
  show ((writeEntry k v m.toList).find? (·.1 = x)).map Prod.snd =
    if x = k then some v else (m.toList.find? (·.1 = x)).map Prod.snd
  induction m.toList with
  | nil => grind [writeEntry]
  | cons e rest ih =>
    unfold writeEntry
    split
    · grind
    · next h =>
      have := LawfulEqCmp.eq_of_compare h
      grind
    · next h =>
      have : k ≠ e.1 := fun he => by simp [he] at h
      grind

/-- `m` with a function applied to the value under `k`, to `initial` if there is no value yet. -/
def update [DecidableEq κ] (m : OrderedMap κ ν) (k : κ) (initial : ν) (f : ν → ν) :
    OrderedMap κ ν :=
  m.insert k (f ((m.get? k).getD initial))

/-- What is done to the value under one key leaves those under other keys alone. -/
theorem get?_update [DecidableEq κ] (m : OrderedMap κ ν) (k : κ) (initial : ν) (f : ν → ν) (x : κ) :
    (m.update k initial f).get? x =
      if x = k then some (f ((m.get? x).getD initial)) else m.get? x := by
  rw [update, get?_insert]
  by_cases hx : x = k
  · rw [if_pos hx, if_pos hx, hx]
  · rw [if_neg hx, if_neg hx]

end OrderedMap

end GrantPlan
