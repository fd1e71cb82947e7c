/-!
# Sets kept in order

`OrderedSet α` is a finite set, kept as the strictly increasing list of its members. Since the
list is determined by the members (`OrderedSet.ext`), two sets with the same members are equal,
and every listing of a set comes in one order.

* `mem_insert`, `mem_erase`, `mem_union`, `mem_diff`, `mem_filter` and `mem_ofList` say which
  members each operation leaves.
-/

namespace GrantPlan

open Std

variable {α : Type} [Ord α]

/-- Elements that a field does not tell apart have that field in common. -/
theorem eq_of_compareOn {α β : Type} [Ord β] [LawfulEqOrd β] {f : α → β} {a b : α}
    (h : compareOn f a b = .eq) : f a = f b := compare_eq_iff_eq.1 h

/-! ## Increasing lists -/

/-- Puts `a` where it belongs in an increasing list, unless it is there already. -/
def insertIncreasing (a : α) : List α → List α
  | [] => [a]
  | b :: rest =>
    match compare a b with
    | .lt => a :: b :: rest
    | .eq => b :: rest
    | .gt => b :: insertIncreasing a rest

theorem mem_insertIncreasing [TransOrd α] [LawfulEqOrd α] {a x : α} {xs : List α} :
    x ∈ insertIncreasing a xs ↔ x = a ∨ x ∈ xs := by
  induction xs with
  | nil => simp [insertIncreasing]
  | cons b rest ih =>
    unfold insertIncreasing
    split
    · simp
    · next h =>
      obtain rfl := LawfulEqCmp.eq_of_compare h
      simp
    · simp only [List.mem_cons, ih]
      grind

theorem pairwise_insertIncreasing [TransOrd α] [LawfulEqOrd α] (a : α) {xs : List α}
    (h : xs.Pairwise (compare · · = .lt)) :
    (insertIncreasing a xs).Pairwise (compare · · = .lt) := by
  induction xs with
  | nil => simp [insertIncreasing]
  | cons b rest ih =>
    obtain ⟨hb, hrest⟩ := List.pairwise_cons.1 h
    unfold insertIncreasing
    split
    · next hab =>
      refine List.pairwise_cons.2 ⟨fun x hx => ?_, h⟩
      rcases List.mem_cons.1 hx with rfl | hx
      · exact hab
      · exact TransCmp.lt_trans hab (hb x hx)
    · exact h
    · next hab =>
      refine List.pairwise_cons.2 ⟨fun x hx => ?_, ih hrest⟩
      rcases mem_insertIncreasing.1 hx with rfl | hx
      · exact OrientedCmp.gt_iff_lt.1 hab
      · exact hb x hx

/-- An increasing list has no element twice. -/
theorem nodup_of_increasing [TransOrd α] {xs : List α} (h : xs.Pairwise (compare · · = .lt)) :
    xs.Nodup :=
  h.imp fun {a b} hab heq => by subst heq; simp at hab

/-- An increasing list is determined by its members. -/
theorem eq_of_increasing_of_mem_iff [TransOrd α] {xs ys : List α}
    (hxs : xs.Pairwise (compare · · = .lt)) (hys : ys.Pairwise (compare · · = .lt))
    (h : ∀ a, a ∈ xs ↔ a ∈ ys) : xs = ys := by
  have hperm := (List.perm_ext_iff_of_nodup (nodup_of_increasing hxs) (nodup_of_increasing hys)).2 h
  exact hperm.eq_of_pairwise
    (fun a b _ _ (hab : compare a b = .lt) hba => absurd hba (OrientedCmp.not_lt_of_lt hab)) hxs hys

/-! ## Sets -/

/-- A finite set, listed in increasing order. -/
structure OrderedSet (α : Type) [Ord α] where
  /-- The members in increasing order. -/
  toList : List α
  increasing : toList.Pairwise (compare · · = .lt)

namespace OrderedSet

instance [DecidableEq α] : DecidableEq (OrderedSet α) := fun s t =>
  decidable_of_iff (s.toList = t.toList) (by cases s; cases t; simp)

instance : Membership α (OrderedSet α) := ⟨fun s a => a ∈ s.toList⟩

instance [DecidableEq α] (a : α) (s : OrderedSet α) : Decidable (a ∈ s) :=
  inferInstanceAs (Decidable (a ∈ s.toList))

@[simp] theorem mem_toList {a : α} {s : OrderedSet α} : a ∈ s.toList ↔ a ∈ s := Iff.rfl

/-- Two sets with the same members are equal. -/
theorem ext [TransOrd α] {s t : OrderedSet α} (h : ∀ a, a ∈ s ↔ a ∈ t) : s = t := by
  cases s with
  | mk xs hxs =>
    cases t with
    | mk ys hys =>
      obtain rfl : xs = ys := eq_of_increasing_of_mem_iff hxs hys h
      rfl

/-- The set without members. -/
def empty : OrderedSet α := ⟨[], .nil⟩

instance : EmptyCollection (OrderedSet α) := ⟨empty⟩

instance : Inhabited (OrderedSet α) := ⟨∅⟩

@[simp] theorem not_mem_empty (a : α) : ¬ a ∈ (∅ : OrderedSet α) := List.not_mem_nil

/-- True when there is no member. -/
def isEmpty (s : OrderedSet α) : Bool := s.toList.isEmpty

/-- The members of `s` that `p` accepts. -/
def filter (p : α → Bool) (s : OrderedSet α) : OrderedSet α :=
  ⟨s.toList.filter p, s.increasing.filter p⟩

@[simp] theorem mem_filter {p : α → Bool} {s : OrderedSet α} {a : α} :
    a ∈ s.filter p ↔ a ∈ s ∧ p a = true := List.mem_filter

/-- The members of `s` that are not in `t`. -/
def diff [DecidableEq α] (s t : OrderedSet α) : OrderedSet α := s.filter (· ∉ t)

@[simp] theorem mem_diff [DecidableEq α] {s t : OrderedSet α} {a : α} :
    a ∈ s.diff t ↔ a ∈ s ∧ ¬ a ∈ t := by simp [diff]

/-- A set with some of the members of `s` lists them as `s` does. -/
theorem map_toList_eq_filter [TransOrd α] {β : Type} {s t : OrderedSet α} {f : α → β}
    {keep : β → Bool} (h : ∀ a, a ∈ t ↔ a ∈ s ∧ keep (f a) = true) :
    t.toList.map f = (s.toList.map f).filter keep := by
  obtain rfl : t = s.filter (keep ∘ f) := ext fun a => by simp [h]
  exact List.filter_map.symm

/-- Where `t` grows by what is not kept of `s`, the difference loses what is not kept. -/
theorem map_diff_eq_filter_of_grown [TransOrd α] [DecidableEq α] {β : Type} {s t t' : OrderedSet α}
    {f : α → β} {keep : β → Bool} (h : ∀ a ∈ s, a ∈ t' ↔ keep (f a) = false ∨ a ∈ t) :
    (s.diff t').toList.map f = ((s.diff t).toList.map f).filter keep := by
  refine map_toList_eq_filter fun a => ?_
  by_cases ha : a ∈ s
  · rw [mem_diff, mem_diff, h a ha, not_or, Bool.not_eq_false, and_comm (a := keep (f a) = true),
      and_assoc]
  · simp [ha]

/-- Where `s` shrinks to what is kept of it outside `t`, the difference loses what is not kept. -/
theorem map_diff_eq_filter_of_shrunk [TransOrd α] [DecidableEq α] {β : Type} {s s' t : OrderedSet α}
    {f : α → β} {keep : β → Bool} (h : ∀ a, ¬ a ∈ t → (a ∈ s' ↔ a ∈ s ∧ keep (f a) = true)) :
    (s'.diff t).toList.map f = ((s.diff t).toList.map f).filter keep := by
  refine map_toList_eq_filter fun a => ?_
  by_cases ha : a ∈ t
  · simp [ha]
  · rw [mem_diff, mem_diff, h a ha, and_right_comm]

/-- `s` without `a`. -/
def erase [DecidableEq α] (s : OrderedSet α) (a : α) : OrderedSet α := s.filter (· ≠ a)

@[simp] theorem mem_erase [DecidableEq α] {s : OrderedSet α} {a x : α} :
    x ∈ s.erase a ↔ x ∈ s ∧ x ≠ a := by simp [erase]

variable [TransOrd α] [LawfulEqOrd α]

/-- `s` with `a` as a member. -/
def insert (s : OrderedSet α) (a : α) : OrderedSet α :=
  ⟨insertIncreasing a s.toList, pairwise_insertIncreasing a s.increasing⟩

@[simp] theorem mem_insert {s : OrderedSet α} {a x : α} : x ∈ s.insert a ↔ x = a ∨ x ∈ s :=
  mem_insertIncreasing

/-- `s` with every element of a list as a member. -/
def insertMany (s : OrderedSet α) (xs : List α) : OrderedSet α := xs.foldl insert s

@[simp] theorem mem_insertMany {s : OrderedSet α} {xs : List α} {x : α} :
    x ∈ s.insertMany xs ↔ x ∈ s ∨ x ∈ xs := by
  unfold insertMany
  induction xs generalizing s with
  | nil => simp
  | cons a xs ih =>
    rw [List.foldl_cons, ih, mem_insert]
    grind

/-- The set of the elements of a list. -/
def ofList (xs : List α) : OrderedSet α := (∅ : OrderedSet α).insertMany xs

@[simp] theorem mem_ofList {xs : List α} {x : α} : x ∈ ofList xs ↔ x ∈ xs := by simp [ofList]

/-- The members of either set. -/
def union (s t : OrderedSet α) : OrderedSet α := s.insertMany t.toList

instance : Union (OrderedSet α) := ⟨union⟩

@[simp] theorem mem_union {s t : OrderedSet α} {x : α} : x ∈ s ∪ t ↔ x ∈ s ∨ x ∈ t :=
  mem_insertMany

end OrderedSet

end GrantPlan
