import Allowlist.Proofs.Except
import Allowlist.Yaml.Document

/-!
# Keys of a mapping

A key that is put keeps its place if the mapping has it, and comes last if not. So the keys of a mapping
that was read are distinct, and come in the order in which the content has them first.
-/
namespace Allowlist.Yaml

namespace Value

/-- A key that is put keeps its place or comes last. -/
theorem keys_put (m : List (Value × Value)) (k v : Value) :
    (put m k v).map Prod.fst = m.map Prod.fst ∨
      (put m k v).map Prod.fst = m.map Prod.fst ++ [k] ∧ ∀ p ∈ m, p.1.sameKey k = false := by
  induction m with
  | nil => exact .inr ⟨rfl, by simp⟩
  | cons p rest ih =>
    obtain ⟨k', u⟩ := p
    rw [put]
    by_cases hk : k'.sameKey k = true
    · rw [if_pos hk]
      exact .inl rfl
    · rw [if_neg hk]
      rcases ih with h | ⟨h, hnew⟩
      · exact .inl (by simp [h])
      · exact .inr ⟨by simp [h], List.forall_mem_cons.mpr ⟨by simpa using hk, hnew⟩⟩

/-- No two keys are the same. -/
def Distinct (keys : List Value) : Prop := keys.Pairwise fun k k' => k.sameKey k' = false

theorem distinct_put {m : List (Value × Value)} (h : Distinct (m.map Prod.fst)) (k v : Value) :
    Distinct ((put m k v).map Prod.fst) := by
  rcases keys_put m k v with he | ⟨he, hnew⟩
  · rw [he]
    exact h
  · rw [he, Distinct, List.pairwise_append]
    refine ⟨h, List.pairwise_singleton _ _, ?_⟩
    intro k' hk' q hq
    obtain ⟨p, hp, rfl⟩ := List.mem_map.mp hk'
    obtain rfl := List.mem_singleton.mp hq
    exact hnew p hp

theorem distinct_foldl_put (ps : List (Value × Value)) {m : List (Value × Value)}
    (h : Distinct (m.map Prod.fst)) :
    Distinct ((ps.foldl (fun m p => put m p.1 p.2) m).map Prod.fst) := by
  induction ps generalizing m with
  | nil => exact h
  | cons p ps ih =>
    apply ih
    exact distinct_put h p.1 p.2

end Value

theorem Document.distinct_of_read {content : Utf8.Bytes} {m : List (Value × Value)}
    (h : read content = .ok (.mapping m)) : Value.Distinct (m.map Prod.fst) := by
  obtain ⟨o, -, h⟩ := bind_eq_ok.mp h
  cases o with
  | none => cases h
  | some n =>
    obtain ⟨v, -, h⟩ := bind_eq_ok.mp h
    split at h
    · cases h
    · obtain ⟨-, -, h⟩ := bind_eq_ok.mp h
      split at h
      · cases h
      · obtain ⟨ps, -, h⟩ := bind_eq_ok.mp h
        obtain ⟨qs, -, h⟩ := bind_eq_ok.mp h
        obtain rfl := Document.mapping.inj (Except.ok.inj h)
        exact Value.distinct_foldl_put qs List.Pairwise.nil
    · obtain ⟨-, -, h⟩ := bind_eq_ok.mp h
      cases h
    · cases h

end Allowlist.Yaml
