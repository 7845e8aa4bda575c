import Allowlist.Proofs.Policy.Form
import Allowlist.Proofs.Surface.Grouping

/-!
# Compiled policies

What compiling gives, as facts about the policy: its modules are the names to be kept in order, each
with its exports in order, and a strict variant finds all that it requires. From these facts the
policy is canonical, and the checks against the surface and against the variant have nothing to
list.
-/
namespace Allowlist

open Ascending (sortUnique mem_sortUnique pairwise_sortUnique sortUnique_eq_nil_iff)

namespace Exports

variable {x : Exports}

theorem orderedModule_eq_ok_iff {name : Text} {m : Text × List Text} :
    x.orderedModule name = .ok m ↔
      m.1 = name ∧ ∃ es, x.get? m.1 = some es ∧ m.2 = sortUnique es := by
  obtain ⟨n, fs⟩ := m
  rw [orderedModule]
  cases hx : x.get? name with
  | none =>
    simp only [reduceCtorEq, false_iff, not_and, not_exists]
    rintro rfl es hes
    rw [hx] at hes
    cases hes
  | some es =>
    simp only [Except.ok.injEq, Prod.mk.injEq]
    constructor
    · rintro ⟨rfl, rfl⟩
      exact ⟨rfl, es, hx, rfl⟩
    · rintro ⟨rfl, es', he, rfl⟩
      obtain rfl := Option.some.inj (hx.symm.trans he)
      exact ⟨rfl, rfl⟩

theorem map_orderedModule_iff {names : List Text} {ms : Fields (List Text)} :
    names.map x.orderedModule = ms.map .ok ↔
      ms.keys = names ∧ ∀ m ∈ ms, ∃ es, x.get? m.1 = some es ∧ m.2 = sortUnique es := by
  induction names generalizing ms with
  | nil => cases ms <;> simp
  | cons name names ih =>
    cases ms with
    | nil => simp
    | cons m ms =>
      simp only [List.map_cons, List.cons.injEq, orderedModule_eq_ok_iff, ih, Assoc.keys_cons,
        List.forall_mem_cons]
      constructor
      · rintro ⟨⟨hname, hm⟩, hkeys, hms⟩
        exact ⟨⟨hname, hkeys⟩, hm, hms⟩
      · rintro ⟨⟨hname, hkeys⟩, hm, hms⟩
        exact ⟨⟨hname, hm⟩, hkeys, hms⟩

/-- The modules in order are the names in order, each with the exports that the groups have. -/
theorem ordered_eq_ok_iff {only : Option (List Text)} {ms : Fields (List Text)} :
    x.ordered only = .ok ms ↔ ms.keys = sortUnique (only.getD x.keys) ∧
      ∀ m ∈ ms, ∃ es, x.get? m.1 = some es ∧ m.2 = sortUnique es := by
  rw [ordered, mapM_eq_ok, map_orderedModule_iff]

end Exports

namespace Policy

open Exports (Grouped)

theorem ofExports_eq_ok_iff {x : Exports} {source : Text} {required : Option (List Text)}
    {p : Policy} : ofExports x source required = .ok p ↔
      x.cover required = .ok () ∧ x.ordered required = .ok p.modules ∧ p.source = source := by
  rw [ofExports]
  obtain ⟨s, ms⟩ := p
  cases x.cover required with
  | error r => simp
  | ok u =>
    cases x.ordered required with
    | error n => simp
    | ok modules => simp [and_comm, eq_comm]

/-- A compiled policy comes from the groups of its surface. -/
theorem compile_eq_ok_iff {surface : Json} {source : Text} {required : Option (List Text)}
    {p : Policy} : compile surface source required = .ok p ↔
      ∃ x, Exports.ofSurface surface = .ok x ∧ ofExports x source required = .ok p := by
  rw [compile]
  cases Exports.ofSurface surface <;> simp

section

variable {x : Exports} {source : Text} {required : Option (List Text)} {p : Policy}

theorem keys_of_ofExports (h : ofExports x source required = .ok p) :
    p.modules.keys = sortUnique (required.getD x.keys) :=
  (Exports.ordered_eq_ok_iff.mp (ofExports_eq_ok_iff.mp h).2.1).1

theorem exports_of_ofExports (h : ofExports x source required = .ok p) {m : Text × List Text}
    (hm : m ∈ p.modules) : ∃ es, x.get? m.1 = some es ∧ m.2 = sortUnique es :=
  (Exports.ordered_eq_ok_iff.mp (ofExports_eq_ok_iff.mp h).2.1).2 m hm

theorem has_of_ofExports (h : ofExports x source required = .ok p) {m : Text × List Text}
    (hm : m ∈ p.modules) {e : Text} (he : e ∈ m.2) : x.Has m.1 e := by
  obtain ⟨es, hes, hs⟩ := exports_of_ofExports h hm
  rw [hs, mem_sortUnique] at he
  exact ⟨es, hes, he⟩

theorem inOrder_of_ofExports (hx : x.Grouped) (h : ofExports x source required = .ok p) :
    InOrder p.modules := by
  constructor
  · rw [keys_of_ofExports h]
    exact pairwise_sortUnique _
  · intro m hm
    obtain ⟨es, hes, hs⟩ := exports_of_ofExports h hm
    rw [hs]
    refine ⟨?_, pairwise_sortUnique es⟩
    intro he
    exact (hx.exports m.1 es hes).1 (sortUnique_eq_nil_iff.mp he)

theorem canonical_of_ofExports (hx : x.Grouped) (hs : source.Joined)
    (hn : ∀ m e, x.Has m e → m.Joined ∧ e.Joined) (h : ofExports x source required = .ok p) :
    p.Canonical := by
  have ho : InOrder p.modules := inOrder_of_ofExports hx h
  refine ⟨ho, ?_, ?_, ?_⟩
  · rw [(ofExports_eq_ok_iff.mp h).2.2]
    exact hs
  · intro m hm
    -- a module without exports would have no fact to take the name from
    obtain ⟨e, he⟩ := List.exists_mem_of_ne_nil _ (ho.exports m hm).1
    exact (hn m.1 e (has_of_ofExports h hm he)).1
  · intro m hm e he
    exact (hn m.1 e (has_of_ofExports h hm he)).2

/-- Reading the modules of a stored policy back gives the modules. -/
theorem listed_moduleFields (modules : Fields (List Text)) :
    listed (moduleFields modules) = modules := by
  induction modules with
  | nil => rfl
  | cons m modules ih =>
    have hm : (Json.arr (m.2.map .str)).strings? = some m.2 := Json.strings?_eq_some_iff.mpr rfl
    rw [moduleFields, List.map_cons, listed, List.filterMap_cons]
    simp only [hm, Option.map_some]
    exact congrArg (m :: ·) ih

/-- The check against the surface finds nothing wrong with a policy exactly if the surface has all
that the policy lists, and the source is the expected one. -/
theorem checkSurface_fields_eq_nil_iff : checkSurface p.fields x source = [] ↔
    (∀ m ∈ p.modules, ∃ es, x.get? m.1 = some es ∧ ∀ e ∈ m.2, e ∈ es) ∧ p.source = source := by
  have hmodules : (fieldOf p.fields "modules").obj? = some (moduleFields p.modules) := rfl
  have hsource : (fieldOf p.fields "source").str? = some p.source := rfl
  have hnames : (∀ n ∈ p.modules.keys, (x.get? n).isNone ≠ true) ↔
      ∀ m ∈ p.modules, (x.get? m.1).isNone ≠ true := List.forall_mem_map
  rw [checkSurface, hmodules, hsource]
  simp only [keys_moduleFields, listed_moduleFields, List.append_eq_nil_iff, List.map_eq_nil_iff,
    List.filter_eq_nil_iff, List.flatMap_eq_nil_iff, ite_eq_left_iff, List.cons_ne_nil, imp_false,
    Decidable.not_not, Option.some.injEq]
  rw [hnames, ← forall₂_and]
  refine and_congr_left fun _ => forall₂_congr fun m _ => ?_
  cases x.get? m.1 with
  | none => simp
  | some es => simp

/-- A compiled policy agrees with the surface that it was made from. -/
theorem checkSurface_of_ofExports (h : ofExports x source required = .ok p) :
    checkSurface p.fields x source = [] := by
  refine checkSurface_fields_eq_nil_iff.mpr ⟨fun m hm => ?_, (ofExports_eq_ok_iff.mp h).2.2⟩
  obtain ⟨es, hes, hs⟩ := exports_of_ofExports h hm
  refine ⟨es, hes, fun e he => ?_⟩
  rwa [hs, mem_sortUnique] at he

theorem gaps_eq_nil_iff {count? : Text → Option Nat} {names : List Text} :
    Gap.all count? names = [] ↔ ∀ n ∈ names, ∃ k, count? n = some k ∧ k ≠ 0 := by
  rw [Gap.all, List.filterMap_eq_nil_iff]
  refine forall₂_congr fun n _ => ?_
  rw [Gap.of?]
  cases count? n with
  | none => simp
  | some k => cases k <;> simp

/-- The check against the required modules finds nothing wrong with a policy exactly if its modules
are required and each required one is there with an export. -/
theorem checkAllowed_fields_eq_nil_iff {names : List Text} : checkAllowed p.fields names = [] ↔
    (∀ m ∈ p.modules.keys, m ∈ names) ∧
      ∀ n ∈ names, ∃ es, p.modules.get? n = some es ∧ es ≠ [] := by
  have hmodules : (fieldOf p.fields "modules").obj? = some (moduleFields p.modules) := rfl
  -- every module of a policy can be counted, so that no required one is passed over
  have hcounted : names.filter (fun n =>
      (p.modules.get? n).isSome || (Assoc.get? (moduleFields p.modules) n).isNone) = names := by
    refine List.filter_eq_self.mpr fun n _ => ?_
    rw [Bool.or_eq_true, ← Option.not_isSome, Bool.not_eq_true', ← Bool.not_eq_true,
      Assoc.get?_isSome_iff, Assoc.get?_isSome_iff, keys_moduleFields]
    exact Decidable.em _
  rw [checkAllowed, hmodules]
  simp only [keys_moduleFields, listed_moduleFields, hcounted, List.append_eq_nil_iff,
    List.map_eq_nil_iff, List.filter_eq_nil_iff, decide_eq_true_eq, Decidable.not_not,
    gaps_eq_nil_iff]
  refine and_congr_right fun _ => forall₂_congr fun n _ => ?_
  simp only [Option.map_eq_some_iff]
  constructor
  · rintro ⟨_, ⟨es, hes, rfl⟩, hne⟩
    exact ⟨es, hes, fun he => hne (by simp [he])⟩
  · rintro ⟨es, hes, hne⟩
    exact ⟨es.length, ⟨es, hes, rfl⟩, fun hl => hne (List.length_eq_zero_iff.mp hl)⟩

/-- A policy compiled for required modules has these modules, and none of them is empty. -/
theorem checkAllowed_of_ofExports {names : List Text} (hx : x.Grouped)
    (h : ofExports x source (some names) = .ok p) : checkAllowed p.fields names = [] := by
  have ho : InOrder p.modules := inOrder_of_ofExports hx h
  have hkeys (n : Text) : n ∈ p.modules.keys ↔ n ∈ names := by
    rw [keys_of_ofExports h]
    exact mem_sortUnique
  refine checkAllowed_fields_eq_nil_iff.mpr ⟨fun n hn => (hkeys n).mp hn, fun n hn => ?_⟩
  obtain ⟨m, hm, rfl⟩ := List.mem_map.mp ((hkeys n).mpr hn)
  exact ⟨m.2, Assoc.get?_of_mem (Ascending.nodup_of_pairwise ho.names) hm, (ho.exports m hm).1⟩

end

end Policy

end Allowlist
