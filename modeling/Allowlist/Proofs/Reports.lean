import Mathlib.Data.Prod.Lex

/-!
# Reports

A report has one result for each place at which something is found, in the order of the places. Places
are those of a list, or those of the lists that the elements of a list hold.
-/
namespace Allowlist

variable {ι α β : Type} {r : ι → ι → Prop} {found found' : ι → β → Prop} {results : List β}

def Reports (r : ι → ι → Prop) (found : ι → β → Prop) (results : List β) : Prop :=
  ∃ ps : List (ι × β), ps.map Prod.snd = results ∧ ps.Pairwise (fun p q => r p.1 q.1) ∧
    ∀ i b, (i, b) ∈ ps ↔ found i b

/-- What is reported was found at some place. -/
theorem Reports.mem_iff (h : Reports r found results) {b : β} :
    b ∈ results ↔ ∃ i, found i b := by
  obtain ⟨ps, rfl, -, hfound⟩ := h
  constructor
  · intro hb
    obtain ⟨⟨i, _⟩, hp, rfl⟩ := List.mem_map.mp hb
    exact ⟨i, (hfound i _).mp hp⟩
  · rintro ⟨i, hi⟩
    exact List.mem_map.mpr ⟨(i, b), (hfound i b).mpr hi, rfl⟩

theorem Reports.congr (h : Reports r found results) (he : ∀ i b, found i b ↔ found' i b) :
    Reports r found' results := by
  obtain ⟨ps, hresults, hordered, hfound⟩ := h
  exact ⟨ps, hresults, hordered, fun i b => (hfound i b).trans (he i b)⟩

theorem reports_nil (h : ∀ i b, ¬found i b) : Reports r found [] :=
  ⟨[], rfl, List.Pairwise.nil, fun i b => iff_of_false (by simp) (h i b)⟩

/-- The places of a list come in their order. -/
theorem pairwise_zipIdx (xs : List α) : xs.zipIdx.Pairwise (fun p q => p.2 < q.2) := by
  have h : (xs.zipIdx.map Prod.snd).Pairwise (· < ·) := by
    rw [List.zipIdx_map_snd]
    exact List.pairwise_lt_range'
  exact List.pairwise_map.mp h

theorem mem_zipIdx {xs : List α} {x : α} {i : Nat} : (x, i) ∈ xs.zipIdx ↔ xs[i]? = some x :=
  List.mem_zipIdx_iff_getElem?

/-- One result at most for each element. -/
theorem reports_filterMap (xs : List α) (f : α → Option β) :
    Reports Nat.lt (fun i b => ∃ x, xs[i]? = some x ∧ f x = some b)
      (xs.filterMap f) := by
  refine ⟨xs.zipIdx.filterMap fun p => (f p.1).map (p.2, ·), ?_, ?_, fun i b => ?_⟩
  · have hfst : xs.zipIdx.filterMap (f ∘ Prod.fst) = xs.filterMap f := by
      rw [← List.filterMap_map, List.zipIdx_map_fst]
    rw [List.map_filterMap, ← hfst]
    simp only [Option.map_map, Function.comp_def, Option.map_id']
  · rw [List.pairwise_filterMap]
    refine (pairwise_zipIdx xs).imp fun hlt p hp q hq => ?_
    obtain ⟨_, -, rfl⟩ := Option.map_eq_some_iff.mp hp
    obtain ⟨_, -, rfl⟩ := Option.map_eq_some_iff.mp hq
    exact hlt
  · simp [mem_zipIdx]

/-- One result for each element that is selected. -/
theorem reports_map_filter (xs : List α) (select : α → Bool) (f : α → β) :
    Reports Nat.lt
      (fun i b => ∃ x, xs[i]? = some x ∧ select x = true ∧ f x = b) ((xs.filter select).map f) := by
  have heq : (xs.filter select).map f =
      xs.filterMap fun x => if select x then some (f x) else none := by
    rw [← List.filterMap_eq_map, List.filterMap_filter]
    rfl
  rw [heq]
  exact (reports_filterMap xs _).congr fun i b => by simp

/-- For each element the results of a report of its own. -/
theorem reports_flatMap (xs : List α) {found : α → ι → β → Prop} {g : α → List β}
    (h : ∀ x, Reports r (found x) (g x)) :
    Reports (Prod.Lex Nat.lt r)
      (fun p b => ∃ x, xs[p.1]? = some x ∧ found x p.2 b) (xs.flatMap g) := by
  choose ps hresults hordered hfound using h
  refine ⟨xs.zipIdx.flatMap fun p => (ps p.1).map fun q => ((p.2, q.1), q.2), ?_, ?_,
    fun i b => ?_⟩
  · rw [List.map_flatMap]
    simp only [List.map_map, Function.comp_def, hresults]
    rw [← List.flatMap_map, List.zipIdx_map_fst]
  · rw [List.pairwise_flatMap]
    constructor
    · intro p _
      rw [List.pairwise_map]
      refine (hordered p.1).imp fun hlt => ?_
      exact Prod.Lex.right p.2 hlt
    · refine (pairwise_zipIdx xs).imp fun hlt a ha b hb => ?_
      obtain ⟨_, -, rfl⟩ := List.mem_map.mp ha
      obtain ⟨_, -, rfl⟩ := List.mem_map.mp hb
      exact Prod.Lex.left _ _ hlt
  · constructor
    · intro hm
      obtain ⟨⟨x, k⟩, hx, hq⟩ := List.mem_flatMap.mp hm
      obtain ⟨⟨j, c⟩, hj, he⟩ := List.mem_map.mp hq
      obtain ⟨rfl, rfl⟩ := Prod.mk.inj he
      exact ⟨x, mem_zipIdx.mp hx, (hfound x j c).mp hj⟩
    · rintro ⟨x, hx, hj⟩
      exact List.mem_flatMap.mpr ⟨(x, i.1), mem_zipIdx.mpr hx,
        List.mem_map.mpr ⟨(i.2, b), (hfound x i.2 b).mpr hj, rfl⟩⟩

end Allowlist
