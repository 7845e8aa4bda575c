import Allowlist.Proofs.Policy.Canonical
import Allowlist.Proofs.Policy.Exact

/-!
# What the checks allow

A stored policy that goes through the checks need not be the one that compiling gives. It is bounded
all the same: it grants no more than the surface states, and with required modules it has exactly
these, none of them without an export, and grants no more than the compiled policy lists.

The checks against the surface and against the required modules pass over a module whose exports are
not a list of strings. The check of the form leaves none, since whatever it accepts holds the fields
of a policy.
-/
namespace Allowlist.Policy

/-- The modules of a decoded policy grant an export of a module. -/
def Grants (modules : Fields Json) (m e : Text) : Prop :=
  ∃ exports, (m, .arr exports) ∈ modules ∧ .str e ∈ exports

section

variable {p : Policy} {x : Exports} {source : Text} {names : List Text}

/-- The stored modules of a policy grant what the policy lists. -/
theorem grants_moduleFields_iff {m e : Text} :
    Grants (moduleFields p.modules) m e ↔ p.Lists m e := by
  constructor
  · rintro ⟨exports, hm, he⟩
    obtain ⟨q, hq, heq⟩ := List.mem_map.mp hm
    obtain ⟨rfl, harr⟩ := Prod.mk.inj heq
    obtain rfl := Json.arr.inj harr
    obtain ⟨d, hd, hde⟩ := List.mem_map.mp he
    obtain rfl := Json.str.inj hde
    exact ⟨q.2, hq, hd⟩
  · rintro ⟨es, hm, he⟩
    exact ⟨es.map .str, List.mem_map_of_mem hm, List.mem_map_of_mem he⟩

theorem has_of_checkSurface (h : checkSurface p.fields x source = []) {m e : Text}
    (hl : p.Lists m e) : x.Has m e := by
  obtain ⟨fs, hm, he⟩ := hl
  obtain ⟨es, hes, hsub⟩ := (checkSurface_fields_eq_nil_iff.mp h).1 _ hm
  exact ⟨es, hes, hsub e he⟩

theorem exists_lists_of_checkAllowed (h : checkAllowed p.fields names = []) {n : Text}
    (hn : n ∈ names) : ∃ e, p.Lists n e := by
  obtain ⟨es, hes, hne⟩ := (checkAllowed_fields_eq_nil_iff.mp h).2 n hn
  obtain ⟨e, he⟩ := List.exists_mem_of_ne_nil _ hne
  exact ⟨e, es, Assoc.mem_of_get? hes, he⟩

/-- The modules of an allowed policy are the required ones. -/
theorem mem_keys_iff_of_checkAllowed (h : checkAllowed p.fields names = []) {n : Text} :
    n ∈ p.modules.keys ↔ n ∈ names := by
  obtain ⟨hsub, hcovered⟩ := checkAllowed_fields_eq_nil_iff.mp h
  constructor
  · exact hsub n
  · intro hn
    obtain ⟨es, hes, -⟩ := hcovered n hn
    exact Assoc.mem_keys_of_mem (Assoc.mem_of_get? hes)

/-- A surface that bounds an allowed policy covers the required modules. Compiling it therefore
succeeds, and gives all that the policy lists. -/
theorem exists_compile_of_checks {surface : Json} (hx : Exports.ofSurface surface = .ok x)
    (hs : checkSurface p.fields x source = []) (ha : checkAllowed p.fields names = []) :
    ∃ q, compile surface source (some names) = .ok q ∧ ∀ m e, p.Lists m e → q.Lists m e := by
  have hcovered : ∀ ns, some names = some ns → ∀ n ∈ ns, ∃ e, x.Has n e := by
    rintro _ ⟨⟩ n hn
    obtain ⟨e, he⟩ := exists_lists_of_checkAllowed ha hn
    exact ⟨e, has_of_checkSurface hs he⟩
  obtain ⟨q, hq⟩ := exists_ofExports (Exports.grouped_of_ofSurface hx) source hcovered
  have hcompile : compile surface source (some names) = .ok q := compile_eq_ok_iff.mpr ⟨x, hx, hq⟩
  refine ⟨q, hcompile, fun m e hl => ?_⟩
  have hstates : Surface.States surface m e :=
    (Exports.has_ofSurface_iff hx m e).mp (has_of_checkSurface hs hl)
  have hkept : Kept (some names) m := by
    obtain ⟨es, hm, -⟩ := hl
    rintro _ ⟨⟩
    exact (mem_keys_iff_of_checkAllowed ha).mp (Assoc.mem_keys_of_mem hm)
  exact ((exact_of_compile hcompile).lists m e).mpr ⟨hstates, hkept⟩

end

/-- Bytes whose form is right hold the fields of a policy. If the checks against the surface and
against the variant find nothing wrong with these, then the surface states all that they grant. If
modules are required, they have exactly these, each with an export, and compiling the surface
succeeds with a policy that lists all that they grant. -/
theorem grants_bounded_of_checks {raw : Utf8.Bytes} {surface : Json} {x : Exports}
    (source : Text) (required : Option (List Text)) (hx : Exports.ofSurface surface = .ok x)
    (hbytes : checkBytes raw = .ok []) :
    ∃ policy modules : Fields Json, decode raw = .ok (.ok (.obj policy)) ∧
      policy.get? "modules" = some (.obj modules) ∧
      (checkSurface policy x source = [] →
        (∀ names, required = some names → checkAllowed policy names = []) →
        (∀ m e, Grants modules m e → Surface.States surface m e) ∧
        ∀ names, required = some names →
          (∀ n, n ∈ modules.keys ↔ n ∈ names) ∧ (∀ n ∈ names, ∃ e, Grants modules n e) ∧
          ∃ p, compile surface source required = .ok p ∧
            ∀ m e, Grants modules m e → p.Lists m e) := by
  obtain ⟨p, hp, rfl⟩ := exists_canonical_of_checkBytes hbytes
  refine ⟨p.fields, moduleFields p.modules, hp.decode_render, rfl, fun hs hallowed => ?_⟩
  simp only [grants_moduleFields_iff, keys_moduleFields]
  constructor
  · intro m e hl
    exact (Exports.has_ofSurface_iff hx m e).mp (has_of_checkSurface hs hl)
  · rintro names rfl
    have ha : checkAllowed p.fields names = [] := hallowed names rfl
    refine ⟨fun n => mem_keys_iff_of_checkAllowed ha, fun n hn => ?_, ?_⟩
    · exact exists_lists_of_checkAllowed ha hn
    · exact exists_compile_of_checks hx hs ha

/-- One export less than `noisyPolicy`. -/
def partPolicy : Policy := ⟨"s", [("m", ["e"]), ("n", ["d"])]⟩

theorem partPolicy_canonical : partPolicy.Canonical where
  inOrder := ⟨by decide, by decide⟩
  source := by decide
  names := by decide
  exports := by decide

/-- The facts of `noisySurface`, grouped. -/
def noisyExports : Exports := [("n", ["f", "d"]), ("x", ["g"]), ("m", ["e"])]

theorem grants_partPolicy :
    Exports.ofSurface noisySurface = .ok noisyExports ∧ checkBytes partPolicy.render = .ok [] ∧
      checkSurface partPolicy.fields noisyExports "s" = [] ∧
      checkAllowed partPolicy.fields ["n", "m", "n"] = [] ∧
      ∃ modules, decode partPolicy.render = .ok (.ok (.obj partPolicy.fields)) ∧
        (∀ m e, Grants modules m e → Surface.States noisySurface m e) ∧
        (∀ n, n ∈ modules.keys ↔ n ∈ (["n", "m", "n"] : List Text)) ∧
        ∃ p, compile noisySurface "s" noisyRequired = .ok p ∧
          ∀ m e, Grants modules m e → p.Lists m e := by
  have hx : Exports.ofSurface noisySurface = .ok noisyExports := by rfl
  have hbytes : checkBytes partPolicy.render = .ok [] := partPolicy_canonical.checkBytes_render
  have hs : checkSurface partPolicy.fields noisyExports "s" = [] := by rfl
  have ha : checkAllowed partPolicy.fields ["n", "m", "n"] = [] := by rfl
  obtain ⟨policy, modules, hd, -, h⟩ := grants_bounded_of_checks "s" noisyRequired hx hbytes
  obtain rfl : partPolicy.fields = policy := by
    simpa [partPolicy_canonical.decode_render] using hd
  obtain ⟨hgrants, hrequired⟩ := h hs fun names hn => Option.some.inj hn ▸ ha
  obtain ⟨hkeys, -, hcompile⟩ := hrequired _ rfl
  exact ⟨hx, hbytes, hs, ha, modules, hd, hgrants, hkeys, hcompile⟩

end Allowlist.Policy
