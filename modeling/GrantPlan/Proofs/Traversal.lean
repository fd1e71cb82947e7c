import Mathlib.Data.List.Forall2
/-!
# Checked traversals

A list is read item by item with a function that may fail, and the first failure ends the reading.
Such a traversal succeeds exactly when the function succeeds on each item (`mapM_eq_ok_iff`), so its
result has the properties that the single results have. Where it fails, it fails as the first item
that does (`failure?_mapM`).
-/

namespace GrantPlan

variable {α β ε : Type}

/-! ## One step after another -/

theorem bind_eq_ok_iff {x : Except ε α} {f : α → Except ε β} {b : β} :
    x >>= f = .ok b ↔ ∃ a, x = .ok a ∧ f a = .ok b := by
  cases x <;> simp [bind, Except.bind]

theorem pure_eq_ok_iff {a b : α} : (pure a : Except ε α) = .ok b ↔ a = b := by
  simp [pure, Except.pure]

/-- What is done with a result does not decide whether there is one. -/
theorem exists_bind_pure_eq_ok_iff {x : Except ε α} {f : α → β} :
    (∃ b, (x >>= fun a => pure (f a)) = .ok b) ↔ ∃ a, x = .ok a := by
  cases x <;> simp [bind, Except.bind, pure, Except.pure]

/-- A traversal succeeds exactly with the results of its items. -/
theorem mapM_eq_ok_iff {f : α → Except ε β} {xs : List α} {ys : List β} :
    xs.mapM f = .ok ys ↔ List.Forall₂ (fun x y => f x = .ok y) xs ys := by
  induction xs generalizing ys with
  | nil => cases ys <;> simp [pure, Except.pure]
  | cons x xs ih =>
    rw [List.mapM_cons, bind_eq_ok_iff, List.forall₂_cons_left_iff]
    constructor
    · rintro ⟨y, hy, hrest⟩
      obtain ⟨ys', hys', heq⟩ := bind_eq_ok_iff.1 hrest
      exact ⟨y, ys', hy, ih.1 hys', (pure_eq_ok_iff.1 heq).symm⟩
    · rintro ⟨y, ys', hy, hys', rfl⟩
      exact ⟨y, hy, bind_eq_ok_iff.2 ⟨ys', ih.2 hys', rfl⟩⟩

/-! ## Items and results -/

section Results
variable {f : α → Except ε β} {xs : List α} {ys : List β}

theorem mem_of_mapM_eq_ok (h : xs.mapM f = .ok ys) {y : β} :
    y ∈ ys ↔ ∃ x ∈ xs, f x = .ok y := by
  induction mapM_eq_ok_iff.1 h with
  | nil => simp
  | @cons x z xs zs hx hrest ih =>
    simp only [List.mem_cons, ih (mapM_eq_ok_iff.2 hrest)]
    constructor
    · rintro (rfl | ⟨x', hx', hy⟩)
      · exact ⟨x, .inl rfl, hx⟩
      · exact ⟨x', .inr hx', hy⟩
    · rintro ⟨x', rfl | hx', hy⟩
      · exact .inl (Except.ok.inj (hy.symm.trans hx))
      · exact .inr ⟨x', hx', hy⟩

/-- A traversal succeeds when every item does. -/
theorem exists_mapM_eq_ok_iff : (∃ ys, xs.mapM f = .ok ys) ↔ ∀ x ∈ xs, ∃ y, f x = .ok y := by
  induction xs with
  | nil => simp [pure, Except.pure]
  | cons x xs ih =>
    rw [List.forall_mem_cons, ← ih]
    simp only [mapM_eq_ok_iff, List.forall₂_cons_left_iff]
    constructor
    · rintro ⟨_, y, ys, hy, hys, rfl⟩
      exact ⟨⟨y, hy⟩, ⟨ys, hys⟩⟩
    · rintro ⟨⟨y, hy⟩, ⟨ys, hys⟩⟩
      exact ⟨_, y, ys, hy, hys, rfl⟩

/-- The order of the items and their number make no difference to which results there are. -/
theorem exists_mapM_eq_ok_of_mem_iff {xs' : List α} (h : xs.mapM f = .ok ys)
    (hxs : ∀ x, x ∈ xs' ↔ x ∈ xs) :
    ∃ ys', xs'.mapM f = .ok ys' ∧ ∀ y, y ∈ ys' ↔ y ∈ ys := by
  obtain ⟨ys', hys'⟩ : ∃ ys', xs'.mapM f = .ok ys' :=
    exists_mapM_eq_ok_iff.2 fun x hx => exists_mapM_eq_ok_iff.1 ⟨ys, h⟩ x ((hxs x).1 hx)
  refine ⟨ys', hys', fun y => ?_⟩
  simp only [mem_of_mapM_eq_ok hys', mem_of_mapM_eq_ok h, hxs]

/-- Where each result of `g` is the image of the result of `f`, so is the result of the traversal. -/
theorem mapM_eq_ok_map {g : α → Except ε β} {k : β → β} (h : xs.mapM f = .ok ys)
    (hfg : ∀ x ∈ xs, ∀ y, f x = .ok y → g x = .ok (k y)) : xs.mapM g = .ok (ys.map k) := by
  rw [mapM_eq_ok_iff] at h ⊢
  induction h with
  | nil => exact .nil
  | @cons x y xs ys hy _ ih =>
    have hx : g x = .ok (k y) := hfg x List.mem_cons_self y hy
    exact .cons hx (ih fun x' hx' => hfg x' (List.mem_cons_of_mem x hx'))

end Results

/-- Where each step succeeds as long as an invariant holds, and keeps it, so does a run of steps. -/
theorem foldlM_eq_ok_foldl {P : β → Prop} {f : β → α → Except ε β} {g : β → α → β}
    (hstep : ∀ b a, P b → f b a = .ok (g b a) ∧ P (g b a)) {b : β} (hb : P b) (xs : List α) :
    xs.foldlM f b = .ok (xs.foldl g b) := by
  induction xs generalizing b with
  | nil => rfl
  | cons x xs ih =>
    obtain ⟨hx, hnext⟩ := hstep b x hb
    rw [List.foldlM_cons, List.foldl_cons]
    exact bind_eq_ok_iff.2 ⟨_, hx, ih hnext⟩

/-! ## Failures -/

/-- The failure that ends a computation, if one does. -/
def failure? : Except ε α → Option ε
  | .ok _ => none
  | .error e => some e

@[simp] theorem failure?_eq_some_iff {x : Except ε α} {e : ε} : failure? x = some e ↔ x = .error e := by
  cases x <;> simp [failure?]

/-- What is done with a result does not fail. -/
@[simp] theorem failure?_bind_pure (x : Except ε α) (f : α → β) :
    failure? (x >>= fun a => pure (f a)) = failure? x := by
  cases x <;> rfl

/-- A traversal fails as the first item that does. -/
@[simp] theorem failure?_mapM (f : α → Except ε β) (xs : List α) :
    failure? (xs.mapM f) = xs.findSome? fun x => failure? (f x) := by
  induction xs with
  | nil => rfl
  | cons x xs ih =>
    rw [List.mapM_cons, List.findSome?_cons, ← ih]
    cases f x with
    | error e => rfl
    | ok y => exact failure?_bind_pure (xs.mapM f) (y :: ·)

/-- The first hit in blocks that are put together is the first one that a block has. -/
theorem findSome?_flatMap {γ : Type} (f : β → Option γ) (g : α → List β) (xs : List α) :
    (xs.flatMap g).findSome? f = xs.findSome? fun x => (g x).findSome? f := by
  induction xs with
  | nil => rfl
  | cons x xs ih =>
    rw [List.flatMap_cons, List.findSome?_append, ih, List.findSome?_cons]
    cases (g x).findSome? f <;> rfl

/-! ## Results that are lists -/

section Blocks
variable {f : α → Except ε (List β)} {xs : List α} {blocks : List (List β)}

theorem mem_flatten_of_mapM_eq_ok (h : xs.mapM f = .ok blocks) {b : β} :
    b ∈ blocks.flatten ↔ ∃ x ∈ xs, ∃ block, f x = .ok block ∧ b ∈ block := by
  simp only [List.mem_flatten, mem_of_mapM_eq_ok h]
  constructor
  · rintro ⟨block, ⟨x, hx, hblock⟩, hb⟩
    exact ⟨x, hx, block, hblock, hb⟩
  · rintro ⟨x, hx, block, hblock, hb⟩
    exact ⟨block, ⟨x, hx, hblock⟩, hb⟩

/-- A relation that holds within each block, and from each block to every later one, holds along
the blocks put together. -/
theorem pairwise_flatten_of_mapM_eq_ok {R : β → β → Prop} (h : xs.mapM f = .ok blocks)
    (hwithin : ∀ x ∈ xs, ∀ block, f x = .ok block → block.Pairwise R)
    (hacross : xs.Pairwise fun x x' => ∀ block block', f x = .ok block → f x' = .ok block' →
      ∀ b ∈ block, ∀ b' ∈ block', R b b') : blocks.flatten.Pairwise R := by
  rw [mapM_eq_ok_iff] at h
  induction h with
  | nil => simp
  | @cons x block xs blocks hblock hrest ih =>
    obtain ⟨hfirst, hlater⟩ := List.pairwise_cons.1 hacross
    rw [List.flatten_cons, List.pairwise_append]
    refine ⟨hwithin x List.mem_cons_self block hblock, ?_, ?_⟩
    · exact ih (fun x' hx' => hwithin x' (List.mem_cons_of_mem x hx')) hlater
    · intro b hb b' hb'
      obtain ⟨x', hx', block', hblock', hmem⟩ :=
        (mem_flatten_of_mapM_eq_ok (mapM_eq_ok_iff.2 hrest)).1 hb'
      exact hfirst x' hx' block block' hblock hblock' b hb b' hmem

/-- Where a test accepts what one item yields, and nothing that another one yields, it picks out the
block of that item. -/
theorem eq_ok_filter_of_mapM_eq_ok {keep : β → Bool} {x : α} (h : xs.mapM f = .ok blocks)
    (hnodup : xs.Nodup) (hx : x ∈ xs)
    (hkeep : ∀ x' ∈ xs, ∀ block, f x' = .ok block → ∀ b ∈ block, keep b = true ↔ x' = x) :
    f x = .ok (blocks.flatten.filter keep) := by
  rw [mapM_eq_ok_iff] at h
  induction h with
  | nil => simp at hx
  | @cons x' block xs blocks hblock hrest ih =>
    obtain ⟨hnew, hnodup⟩ := List.nodup_cons.1 hnodup
    have hfirst := hkeep x' List.mem_cons_self block hblock
    have hlater := fun y hy => hkeep y (List.mem_cons_of_mem x' hy)
    rw [List.flatten_cons, List.filter_append]
    rcases List.mem_cons.1 hx with rfl | hx
    · -- the whole first block, and nothing behind it
      have hwhole : block.filter keep = block :=
        List.filter_eq_self.2 fun b hb => (hfirst b hb).2 rfl
      have hnone : blocks.flatten.filter keep = [] := by
        refine List.filter_eq_nil_iff.2 fun b hb hkept => ?_
        obtain ⟨y, hy, block', hblock', hmem⟩ :=
          (mem_flatten_of_mapM_eq_ok (mapM_eq_ok_iff.2 hrest)).1 hb
        obtain rfl := (hlater y hy block' hblock' b hmem).1 hkept
        exact hnew hy
      rw [hwhole, hnone, List.append_nil, hblock]
    · have hnone : block.filter keep = [] :=
        List.filter_eq_nil_iff.2 fun b hb hkept => hnew ((hfirst b hb).1 hkept ▸ hx)
      rw [hnone, List.nil_append]
      exact ih hnodup hx hlater

end Blocks

end GrantPlan
