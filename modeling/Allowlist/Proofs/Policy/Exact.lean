import Allowlist.Proofs.Policy.Compiled
import Allowlist.Proofs.Surface.Facts

/-!
# Compiling is exact

A policy compiled from a surface lists the facts that the surface states and the variant keeps, and
no others. Policies in order that list the same facts are the same, so compiling comes down to
this: it gives the one policy in order with these facts, unless the surface is malformed or a
required module is without a fact.
-/
namespace Allowlist

/-- The entry with nothing but its two names. -/
def Entry.toJson (e : Entry) : Json :=
  .obj [("module", .str e.moduleName), ("export", .str e.exportName)]

def Surface.toJson (s : Surface) : Json :=
  .obj [("schema", .str surfaceSchema), ("entries", .arr s.entries)]

namespace Exports

variable {x : Exports}

theorem count?_ne_zero_iff {n : Text} :
    (∃ k, x.count? n = some k ∧ k ≠ 0) ↔ ∃ e, x.Has n e := by
  rw [count?]
  cases hx : x.get? n with
  | none => simp [Has, hx]
  | some es => simp [Has, hx, List.length_eq_zero_iff, List.eq_nil_iff_forall_not_mem]

/-- The required modules are covered exactly if there is a fact for each of them. -/
theorem cover_eq_ok_iff {required : Option (List Text)} : x.cover required = .ok () ↔
    ∀ names, required = some names → ∀ n ∈ names, ∃ e, x.Has n e := by
  cases required with
  | none => simp [cover]
  | some names =>
    simp only [cover, Option.some.injEq, forall_eq', ← count?_ne_zero_iff, ← Policy.gaps_eq_nil_iff]
    cases Gap.all x.count? names <;> simp [Gap.reject]

theorem exists_ordered {only : Option (List Text)} (h : ∀ n ∈ only.getD x.keys, n ∈ x.keys) :
    ∃ ms, x.ordered only = .ok ms := by
  refine exists_mapM_eq_ok fun n hn => ?_
  have hk : (x.get? n).isSome = true :=
    Assoc.get?_isSome_iff.mpr (h n (Ascending.mem_sortUnique.mp hn))
  obtain ⟨es, hes⟩ := Option.isSome_iff_exists.mp hk
  exact ⟨(n, Ascending.sortUnique es), Exports.orderedModule_eq_ok_iff.mpr ⟨rfl, es, hes, rfl⟩⟩

end Exports

namespace Policy

/-- The policy grants an export of a module. -/
def Lists (p : Policy) (m e : Text) : Prop := ∃ es, (m, es) ∈ p.modules ∧ e ∈ es

/-- Whether a module is kept: all are, or the required ones if modules are required. -/
def Kept (required : Option (List Text)) (m : Text) : Prop :=
  ∀ names, required = some names → m ∈ names

@[simp] theorem kept_none (m : Text) : Kept none m := by simp [Kept]

@[simp] theorem kept_some {names : List Text} {m : Text} : Kept (some names) m ↔ m ∈ names := by
  simp [Kept]

section

variable {p q : Policy}

/-- Distinct keys leave one list of exports to a module. -/
theorem lists_iff_of_mem (h : InOrder p.modules) {m : Text} {es : List Text}
    (hm : (m, es) ∈ p.modules) (e : Text) : p.Lists m e ↔ e ∈ es := by
  have hn : p.modules.keys.Nodup := Ascending.nodup_of_pairwise h.names
  constructor
  · rintro ⟨fs, hfs, he⟩
    have hg : p.modules.get? m = some fs := Assoc.get?_of_mem hn hfs
    obtain rfl : es = fs := Option.some.inj ((Assoc.get?_of_mem hn hm).symm.trans hg)
    exact he
  · exact fun he => ⟨es, hm, he⟩

theorem mem_keys_iff_lists (h : InOrder p.modules) {m : Text} :
    m ∈ p.modules.keys ↔ ∃ e, p.Lists m e := by
  constructor
  · intro hm
    obtain ⟨⟨n, es⟩, hn, rfl⟩ := List.mem_map.mp hm
    obtain ⟨e, he⟩ := List.exists_mem_of_ne_nil _ (h.exports _ hn).1
    exact ⟨e, es, hn, he⟩
  · rintro ⟨e, es, hm, -⟩
    exact Assoc.mem_keys_of_mem hm

theorem mem_modules_of_lists (hp : InOrder p.modules) (hq : InOrder q.modules)
    (h : ∀ m e, p.Lists m e ↔ q.Lists m e) {m : Text × List Text} (hm : m ∈ p.modules) :
    m ∈ q.modules := by
  obtain ⟨n, es⟩ := m
  obtain ⟨e, he⟩ := List.exists_mem_of_ne_nil _ (hp.exports _ hm).1
  obtain ⟨fs, hfs, -⟩ := (h n e).mp ⟨es, hm, he⟩
  have heq : es = fs := by
    refine Ascending.eq_of_mem_iff (fun _ _ => List.lt_asymm) (hp.exports _ hm).2
      (hq.exports _ hfs).2 fun d => ?_
    rw [← lists_iff_of_mem hp hm, ← lists_iff_of_mem hq hfs, h]
  exact heq ▸ hfs

/-- Modules in order are determined by what they list. -/
theorem modules_eq_of_lists (hp : InOrder p.modules) (hq : InOrder q.modules)
    (h : ∀ m e, p.Lists m e ↔ q.Lists m e) : p.modules = q.modules := by
  have hkeys {r : Policy} (hr : InOrder r.modules) :
      r.modules.Pairwise fun a b => a.1 < b.1 := List.pairwise_map.mp hr.names
  refine Ascending.eq_of_mem_iff (fun _ _ => List.lt_asymm) (hkeys hp) (hkeys hq) fun m => ?_
  exact ⟨mem_modules_of_lists hp hq h, mem_modules_of_lists hq hp fun n e => (h n e).symm⟩

end

/-- The policy in order with the facts that the surface states and the variant keeps. -/
structure Exact (p : Policy) (surface : Json) (source : Text) (required : Option (List Text)) :
    Prop where
  source : p.source = source
  inOrder : InOrder p.modules
  lists : ∀ m e, p.Lists m e ↔ Surface.States surface m e ∧ Kept required m

/-- There is no more than one such policy. -/
theorem Exact.unique {surface : Json} {source : Text} {required : Option (List Text)}
    {p q : Policy} (hp : p.Exact surface source required) (hq : q.Exact surface source required) :
    p = q := by
  have hm : p.modules = q.modules :=
    modules_eq_of_lists hp.inOrder hq.inOrder fun m e => (hp.lists m e).trans (hq.lists m e).symm
  obtain ⟨s, ms⟩ := p
  obtain rfl : s = q.source := hp.source.trans hq.source.symm
  obtain rfl : ms = q.modules := hm
  rfl

section

variable {x : Exports} {source : Text} {required : Option (List Text)} {p : Policy}

theorem lists_iff_of_ofExports (hx : x.Grouped) (h : ofExports x source required = .ok p)
    (m e : Text) : p.Lists m e ↔ x.Has m e ∧ Kept required m := by
  constructor
  · rintro ⟨es, hm, he⟩
    refine ⟨has_of_ofExports h hm he, ?_⟩
    rintro names rfl
    have hk : m ∈ p.modules.keys := Assoc.mem_keys_of_mem hm
    rwa [keys_of_ofExports h, Ascending.mem_sortUnique] at hk
  · rintro ⟨hxm, hk⟩
    have hm : m ∈ p.modules.keys := by
      rw [keys_of_ofExports h, Ascending.mem_sortUnique]
      cases required with
      | none => exact hx.mem_keys_iff.mpr ⟨e, hxm⟩
      | some names => exact hk names rfl
    obtain ⟨⟨n, fs⟩, hn, rfl⟩ := List.mem_map.mp hm
    obtain ⟨es, hes, hs⟩ := exports_of_ofExports h hn
    obtain ⟨es', hes', he⟩ := hxm
    obtain rfl := Option.some.inj (hes.symm.trans hes')
    refine ⟨fs, hn, ?_⟩
    rw [show fs = Ascending.sortUnique es from hs]
    exact Ascending.mem_sortUnique.mpr he

/-- A policy comes of the groups if there is a fact for each required module. -/
theorem exists_ofExports (hx : x.Grouped) (source : Text)
    (h : ∀ names, required = some names → ∀ n ∈ names, ∃ e, x.Has n e) :
    ∃ p, ofExports x source required = .ok p := by
  have hkeys : ∀ n ∈ required.getD x.keys, n ∈ x.keys := by
    intro n hn
    cases required with
    | none => exact hn
    | some names => exact hx.mem_keys_iff.mpr (h names rfl n hn)
  obtain ⟨ms, hms⟩ := Exports.exists_ordered hkeys
  exact ⟨⟨source, ms⟩, ofExports_eq_ok_iff.mpr ⟨Exports.cover_eq_ok_iff.mpr h, hms, rfl⟩⟩

end

variable {surface : Json} {source : Text} {required : Option (List Text)} {p : Policy}

theorem exact_of_compile (h : compile surface source required = .ok p) :
    p.Exact surface source required := by
  obtain ⟨x, hx, hp⟩ := compile_eq_ok_iff.mp h
  have hg : x.Grouped := Exports.grouped_of_ofSurface hx
  refine ⟨(ofExports_eq_ok_iff.mp hp).2.2, inOrder_of_ofExports hg hp, fun m e => ?_⟩
  rw [lists_iff_of_ofExports hg hp, Exports.has_ofSurface_iff hx]

/-- Compiling gives a policy exactly if the surface is well-formed and states a fact for each
required module, and then the one with its facts. -/
theorem compile_eq_ok_iff_exact : compile surface source required = .ok p ↔
    (∃ x, Exports.ofSurface surface = .ok x) ∧
      (∀ names, required = some names → ∀ n ∈ names, ∃ e, Surface.States surface n e) ∧
      p.Exact surface source required := by
  constructor
  · intro h
    obtain ⟨x, hx, hp⟩ := compile_eq_ok_iff.mp h
    have hc := Exports.cover_eq_ok_iff.mp (ofExports_eq_ok_iff.mp hp).1
    simp only [Exports.has_ofSurface_iff hx] at hc
    exact ⟨⟨x, hx⟩, hc, exact_of_compile h⟩
  · rintro ⟨⟨x, hx⟩, hc, hp⟩
    simp only [← Exports.has_ofSurface_iff hx] at hc
    obtain ⟨q, hq⟩ := exists_ofExports (Exports.grouped_of_ofSurface hx) source hc
    have hcompile : compile surface source required = .ok q := compile_eq_ok_iff.mpr ⟨x, hx, hq⟩
    rw [hcompile, hp.unique (exact_of_compile hcompile)]

/-- A compiled policy has its modules and their exports in strictly ascending order, lists exactly
the facts that the surface states and the variant keeps, has exactly the required modules if modules
are required, and names the source that was given. -/
theorem compile_exact (h : compile surface source required = .ok p) :
    p.modules.keys.Pairwise (· < ·) ∧ (∀ m ∈ p.modules, m.2 ≠ [] ∧ m.2.Pairwise (· < ·)) ∧
      (∀ m e, p.Lists m e ↔ Surface.States surface m e ∧ Kept required m) ∧
      (∀ names, required = some names → ∀ n, n ∈ p.modules.keys ↔ n ∈ names) ∧
      p.source = source := by
  obtain ⟨-, hc, hp⟩ := compile_eq_ok_iff_exact.mp h
  refine ⟨hp.inOrder.names, hp.inOrder.exports, hp.lists, ?_, hp.source⟩
  rintro names rfl n
  simp only [mem_keys_iff_lists hp.inOrder, hp.lists]
  constructor
  · rintro ⟨e, -, hk⟩
    exact hk names rfl
  · intro hn
    obtain ⟨e, he⟩ := hc names rfl n hn
    refine ⟨e, he, ?_⟩
    rintro _ ⟨⟩
    exact hn

/-- Facts out of order, one of them twice, and a module that nobody requires. -/
def noisySurface : Json :=
  Surface.toJson ⟨[Entry.toJson ⟨"n", "f"⟩, Entry.toJson ⟨"x", "g"⟩, Entry.toJson ⟨"m", "e"⟩,
    Entry.toJson ⟨"n", "d"⟩, Entry.toJson ⟨"n", "f"⟩]⟩

def noisyRequired : Option (List Text) := some ["n", "m", "n"]

def noisyPolicy : Policy := ⟨"s", [("m", ["e"]), ("n", ["d", "f"])]⟩

theorem compile_noisySurface :
    compile noisySurface "s" noisyRequired = .ok noisyPolicy ∧
      (∀ m e, noisyPolicy.Lists m e ↔
        Surface.States noisySurface m e ∧ Kept noisyRequired m) ∧
      ∀ n, n ∈ noisyPolicy.modules.keys ↔ n ∈ (["n", "m", "n"] : List Text) := by
  have h : compile noisySurface "s" noisyRequired = .ok noisyPolicy := by rfl
  obtain ⟨-, -, hl, hk, -⟩ := compile_exact h
  exact ⟨h, hl, hk _ rfl⟩

end Policy

end Allowlist
