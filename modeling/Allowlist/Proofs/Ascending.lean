import Allowlist.Ascending

/-!
# The theory of strictly ascending lists

`sortUnique` gives a strictly ascending list with the same members, and an ascending list is
determined by its members. So the order and the repetitions of the input leave no trace.
-/
namespace Allowlist.Ascending

variable {α : Type} [LT α]

theorem sortUnique_eq_nil_iff [DecidableEq α] [DecidableLT α] {xs : List α} :
    sortUnique xs = [] ↔ xs = [] := by
  simp only [List.eq_nil_iff_forall_not_mem, mem_sortUnique]

theorem nodup_of_pairwise [Std.Irrefl (α := α) (· < ·)] {xs : List α}
    (h : xs.Pairwise (· < ·)) : xs.Nodup := by
  refine h.imp ?_
  intro x y hxy he
  subst he
  exact Std.Irrefl.irrefl x hxy

/-- Without transitivity the checker would see neighbours only. -/
theorem isAscending_iff [DecidableLT α] [Trans (α := α) (· < ·) (· < ·) (· < ·)] (xs : List α) :
    isAscending xs = true ↔ xs.Pairwise (· < ·) := by
  induction xs with
  | nil => simp [isAscending]
  | cons x xs ih =>
    cases xs with
    | nil => simp [isAscending]
    | cons y ys =>
      simp only [isAscending, Bool.and_eq_true, decide_eq_true_eq, ih]
      constructor
      · rintro ⟨hxy, hp⟩
        refine List.pairwise_cons.mpr ⟨?_, hp⟩
        intro z hz
        rcases List.mem_cons.mp hz with he | hz
        · exact he ▸ hxy
        · exact Trans.trans hxy ((List.pairwise_cons.mp hp).1 z hz)
      · intro hp
        exact ⟨(List.pairwise_cons.mp hp).1 y (by simp), (List.pairwise_cons.mp hp).2⟩

/-- An ascending list is determined by its members. The order may be any one: maps are ordered by
their keys only. -/
theorem eq_of_mem_iff {β : Type} {r : β → β → Prop} (hr : ∀ a b, r a b → ¬r b a) {xs ys : List β}
    (hx : xs.Pairwise r) (hy : ys.Pairwise r) (h : ∀ a, a ∈ xs ↔ a ∈ ys) : xs = ys := by
  have hnodup {zs : List β} (hz : zs.Pairwise r) : zs.Nodup := by
    refine hz.imp ?_
    rintro a b hab rfl
    exact hr a a hab hab
  have hp : xs.Perm ys := (List.perm_ext_iff_of_nodup (hnodup hx) (hnodup hy)).mpr h
  refine hp.eq_of_pairwise ?_ hx hy
  intro a b _ _ hab hba
  exact absurd hba (hr a b hab)

/-- In ascending order, what fails first is the least that fails. -/
theorem exists_eq_append_iff_least [Std.Asymm (α := α) (· < ·)] {p : α → Prop} {xs : List α}
    (h : xs.Pairwise (· < ·)) {x : α} :
    (∃ as bs, xs = as ++ x :: bs ∧ ∀ a ∈ as, p a) ↔ x ∈ xs ∧ ∀ y ∈ xs, ¬p y → y = x ∨ x < y := by
  constructor
  · rintro ⟨as, bs, rfl, has⟩
    obtain ⟨-, hbs, -⟩ := List.pairwise_append.mp h
    refine ⟨by simp, fun y hy hfails => ?_⟩
    rcases List.mem_append.mp hy with hy | hy
    · exact absurd (has y hy) hfails
    · rcases List.mem_cons.mp hy with hy | hy
      · exact .inl hy
      · exact .inr ((List.pairwise_cons.mp hbs).1 y hy)
  · rintro ⟨hmem, hleast⟩
    obtain ⟨as, bs, rfl⟩ := List.append_of_mem hmem
    refine ⟨as, bs, rfl, fun a ha => ?_⟩
    have hlt : a < x := (List.pairwise_append.mp h).2.2 a ha x (by simp)
    refine Classical.byContradiction fun hfails => ?_
    rcases hleast a (by simp [ha]) hfails with rfl | hgt
    · exact Std.Asymm.asymm a a hlt hlt
    · exact Std.Asymm.asymm a x hlt hgt

variable [Trans (α := α) (· < ·) (· < ·) (· < ·)] [DecidableEq α] [DecidableLT α]
  [Std.Trichotomous (α := α) (· < ·)]

theorem pairwise_insert (x : α) {xs : List α} (h : xs.Pairwise (· < ·)) :
    (insert x xs).Pairwise (· < ·) := by
  induction xs with
  | nil => simp [insert]
  | cons y ys ih =>
    obtain ⟨hy, hys⟩ := List.pairwise_cons.mp h
    simp only [insert]
    split
    · next hxy =>
      refine List.pairwise_cons.mpr ⟨?_, h⟩
      intro z hz
      rcases List.mem_cons.mp hz with he | hz
      · exact he ▸ hxy
      · exact Trans.trans hxy (hy z hz)
    · next hxy =>
      split
      · exact h
      · next hne =>
        have hyx : y < x := Decidable.byContradiction fun hyx =>
          hne (Std.Trichotomous.trichotomous x y hxy hyx)
        refine List.pairwise_cons.mpr ⟨?_, ih hys⟩
        intro z hz
        rcases mem_insert.mp hz with he | hz
        · exact he ▸ hyx
        · exact hy z hz

theorem pairwise_sortUnique (xs : List α) : (sortUnique xs).Pairwise (· < ·) := by
  induction xs with
  | nil => simp
  | cons x xs ih => exact pairwise_insert x ih

/-- A list is in order if it is strictly ascending and has the members. -/
theorem eq_sortUnique_iff [Std.Asymm (α := α) (· < ·)] {xs ys : List α} :
    ys = sortUnique xs ↔ ys.Pairwise (· < ·) ∧ ∀ a, a ∈ ys ↔ a ∈ xs := by
  constructor
  · rintro rfl
    exact ⟨pairwise_sortUnique xs, fun a => mem_sortUnique⟩
  · rintro ⟨hy, hm⟩
    apply eq_of_mem_iff Std.Asymm.asymm hy (pairwise_sortUnique xs)
    intro a
    rw [hm, mem_sortUnique]

theorem sortUnique_congr [Std.Asymm (α := α) (· < ·)] {xs ys : List α}
    (h : ∀ a, a ∈ xs ↔ a ∈ ys) : sortUnique xs = sortUnique ys := by
  apply eq_sortUnique_iff.mpr
  refine ⟨pairwise_sortUnique xs, fun a => ?_⟩
  rw [mem_sortUnique, h]

end Allowlist.Ascending
