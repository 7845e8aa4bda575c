import Allowlist.Proofs.Policy.Rejected

/-!
# Strict policies are restricted ones

Requiring modules changes nothing about how the others are compiled. It puts a gate behind
compiling, which lets a policy through if it has all required modules, and a filter behind the gate,
which leaves out all other modules.
-/
namespace Allowlist.Policy

/-- The policy with the modules of some names only. -/
def restrict (p : Policy) (names : List Text) : Policy :=
  { p with modules := p.modules.filter (fun m => m.1 ∈ names) }

variable {surface : Json} {source : Text} {names : List Text} {p : Policy}

theorem lists_restrict {m e : Text} : (p.restrict names).Lists m e ↔ p.Lists m e ∧ m ∈ names := by
  constructor
  · rintro ⟨es, hm, he⟩
    obtain ⟨hm, hn⟩ := List.mem_filter.mp hm
    exact ⟨⟨es, hm, he⟩, by simpa using hn⟩
  · rintro ⟨⟨es, hm, he⟩, hn⟩
    exact ⟨es, List.mem_filter.mpr ⟨hm, by simpa using hn⟩, he⟩

theorem inOrder_restrict (h : InOrder p.modules) : InOrder (p.restrict names).modules := by
  constructor
  · have hs : (p.restrict names).modules.keys.Sublist p.modules.keys :=
      (List.filter_sublist).map Prod.fst
    exact h.names.sublist hs
  · intro m hm
    exact h.exports m (List.mem_filter.mp hm).1

/-- What is left of a permissive policy lists what a strict one has to. -/
theorem Exact.restrict (h : p.Exact surface source none) :
    (p.restrict names).Exact surface source (some names) := by
  refine ⟨h.source, inOrder_restrict h.inOrder, fun m e => ?_⟩
  simp only [lists_restrict, h.lists, kept_none, kept_some, and_true]

theorem mem_keys_of_ofExports_none {x : Exports} (h : ofExports x source none = .ok p) (n : Text) :
    n ∈ p.modules.keys ↔ n ∈ x.keys := by
  rw [keys_of_ofExports h]
  exact Ascending.mem_sortUnique

/-- Compiling for required modules is compiling without any, then rejecting for the first required
module that the result lacks, or keeping the required ones. No other rejection about required
modules occurs. -/
theorem compile_required (surface : Json) (source : Text) (names : List Text) :
    (compile surface source (some names) = match compile surface source none with
      | .error r => .error r
      | .ok p => match names.find? (fun n => n ∉ p.modules.keys) with
        | some n => .error (.missingModule n)
        | none => .ok (p.restrict names)) ∧
    ∀ (required : Option (List Text)) (n : Text),
      compile surface source required ≠ .error (.emptyModule n) ∧
      compile surface source required ≠ .error (.unlistedModule n) := by
  constructor
  · cases hx : Exports.ofSurface surface with
    | error r =>
      have hc (required : Option (List Text)) : compile surface source required = .error r := by
        rw [compile, hx]
      rw [hc, hc]
    | ok x =>
      have hg : x.Grouped := Exports.grouped_of_ofSurface hx
      obtain ⟨p, hp⟩ : ∃ p, ofExports x source none = .ok p :=
        exists_ofExports hg source (by simp)
      have hpermissive : compile surface source none = .ok p := compile_eq_ok_iff.mpr ⟨x, hx, hp⟩
      rw [hpermissive]
      simp only [mem_keys_of_ofExports_none hp]
      split
      · next n hn =>
        have he : ofExports x source (some names) = .error (.missingModule n) :=
          (ofExports_eq_error_iff hg).mpr ⟨names, n, rfl, hn, rfl⟩
        exact compile_eq_error_iff.mpr (.inr ⟨x, hx, he⟩)
      · next hn =>
        have hall : ∀ n ∈ names, n ∈ x.keys := by simpa using hn
        obtain ⟨q, hq⟩ : ∃ q, ofExports x source (some names) = .ok q := by
          refine exists_ofExports hg source ?_
          rintro _ ⟨⟩ n hn
          exact hg.mem_keys_iff.mp (hall n hn)
        have hstrict : compile surface source (some names) = .ok q :=
          compile_eq_ok_iff.mpr ⟨x, hx, hq⟩
        rw [hstrict, (exact_of_compile hstrict).unique (exact_of_compile hpermissive).restrict]
  · intro required n
    constructor
    · intro h
      rcases missing_of_compile_eq_error h with hd | ⟨m, hm⟩
      · exact hd.ofDocument
      · cases hm
    · intro h
      rcases missing_of_compile_eq_error h with hd | ⟨m, hm⟩
      · exact hd.ofDocument
      · cases hm

end Allowlist.Policy
