import Allowlist.Proofs.Policy.Form
import Allowlist.Proofs.Reports

/-!
# What the checks of the content report

The check against the surface reports each module that the surface does not have, then each export
that it does not have in a module of its own, and then a wrong source. The check against a list of
allowed modules reports each module that is not on the list, and then each on the list that is absent or
has an empty list of exports. A module whose exports are not a list of strings is known by its name
only: the first check passes over its exports, and the second takes it as neither absent nor empty.
-/
namespace Allowlist.Policy

variable {policy modules : Fields Json} {surface : Exports} {source : Text} {allowed : List Text}

/-- The modules of a policy, if they are an object. -/
def HasModules (policy modules : Fields Json) : Prop := policy.get? "modules" = some (.obj modules)

/-- At a place of its modules a policy has one that the surface does not have. -/
def UnknownAt (policy : Fields Json) (surface : Exports) (i : Nat) (v : Violation) : Prop :=
  ∃ modules m, HasModules policy modules ∧ modules.keys[i]? = some m ∧ m ∉ surface.keys ∧
    v = .unknownModule m

/-- At a place of its modules, and one of the strings listed there, a policy has an export that the
surface does not have in this module. -/
def ForeignAt (policy : Fields Json) (surface : Exports) (i : Nat × Nat) (v : Violation) : Prop :=
  ∃ modules m known e, ∃ es : List Text, HasModules policy modules ∧
    modules[i.1]? = some (m, .arr (es.map .str)) ∧ surface.get? m = some known ∧
    es[i.2]? = some e ∧ e ∉ known ∧ v = .unknownExport m e

/-- At a place of its modules a policy has one that is not allowed. -/
def ForbiddenAt (policy : Fields Json) (allowed : List Text) (i : Nat) (v : Violation) : Prop :=
  ∃ modules m, HasModules policy modules ∧ modules.keys[i]? = some m ∧ m ∉ allowed ∧
    v = .notPermitted m

/-- At a place of the allowed modules is one that a policy does not have, or has with an empty list. -/
def UncoveredAt (policy : Fields Json) (allowed : List Text) (i : Nat) (v : Violation) : Prop :=
  ∃ modules n, HasModules policy modules ∧ allowed[i]? = some n ∧
    (n ∉ modules.keys ∧ v = .gap (.missing n) ∨ (n, .arr []) ∈ modules ∧ v = .gap (.empty n))

theorem obj?_fieldOf_modules : (fieldOf policy "modules").obj? = some modules ↔
    HasModules policy modules := by
  rw [fieldOf, HasModules, Json.obj?_eq_some_iff]
  cases policy.get? "modules" <;> simp

theorem HasModules.eq {modules' : Fields Json} (h : HasModules policy modules)
    (h' : HasModules policy modules') : modules' = modules :=
  (Json.obj.inj (Option.some.inj (h.symm.trans h'))).symm

theorem str?_fieldOf_source : (fieldOf policy "source").str? = some source ↔
    policy.get? "source" = some (.str source) := by
  rw [fieldOf, Json.str?_eq_some_iff]
  cases policy.get? "source" <;> simp

/-- Names of modules that are picked out, in their order. -/
theorem reports_keys (h : HasModules policy modules) (pick : Text → Bool)
    (report : Text → Violation) :
    Reports Nat.lt (fun i v => ∃ modules m, HasModules policy modules ∧
      modules.keys[i]? = some m ∧ pick m = true ∧ v = report m)
      ((modules.keys.filter pick).map report) := by
  refine (reports_map_filter modules.keys pick report).congr fun i v => ?_
  constructor
  · rintro ⟨m, hm, hpick, rfl⟩
    exact ⟨modules, m, h, hm, hpick, rfl⟩
  · rintro ⟨modules', m, h', hm, hpick, rfl⟩
    rw [h.eq h'] at hm
    exact ⟨m, hm, hpick, rfl⟩

theorem reports_unknown (h : HasModules policy modules) (surface : Exports) :
    Reports Nat.lt (UnknownAt policy surface)
      ((modules.keys.filter fun m => (surface.get? m).isNone).map .unknownModule) := by
  refine (reports_keys h _ _).congr fun i v => ?_
  simp only [UnknownAt, Option.isNone_iff_eq_none, Assoc.get?_eq_none_iff]

theorem reports_forbidden (h : HasModules policy modules) (allowed : List Text) :
    Reports Nat.lt (ForbiddenAt policy allowed)
      ((modules.keys.filter (· ∉ allowed)).map .notPermitted) := by
  refine (reports_keys h _ _).congr fun i v => ?_
  simp only [ForbiddenAt, decide_eq_true_eq]

/-- What the check against the surface finds in one module. -/
def foreignExports (surface : Exports) (p : Text × Json) : List Violation :=
  match p.2.strings? with
  | none => []
  | some es =>
    match surface.get? p.1 with
    | none => []
    | some known => (es.filter (fun e => e ∉ known)).map (.unknownExport p.1)

theorem flatMap_listed (surface : Exports) (modules : Fields Json) :
    ((listed modules).flatMap fun (m, es) =>
      match surface.get? m with
      | none => []
      | some known => (es.filter (fun e => e ∉ known)).map (.unknownExport m)) =
      modules.flatMap (foreignExports surface) := by
  induction modules with
  | nil => rfl
  | cons p modules ih =>
    obtain ⟨m, v⟩ := p
    rw [List.flatMap_cons, ← ih, foreignExports, listed, listed, List.filterMap_cons]
    cases hv : v.strings? with
    | none => simp [hv]
    | some es => simp [hv]

theorem reports_foreignExports (surface : Exports) (p : Text × Json) :
    Reports Nat.lt (fun j v => ∃ known e, ∃ es : List Text,
      p.2 = .arr (es.map .str) ∧ surface.get? p.1 = some known ∧ es[j]? = some e ∧ e ∉ known ∧
        v = .unknownExport p.1 e) (foreignExports surface p) := by
  simp only [← Json.strings?_eq_some_iff, foreignExports]
  cases p.2.strings? with
  | none => exact reports_nil (by simp)
  | some es =>
    cases surface.get? p.1 with
    | none => exact reports_nil (by simp)
    | some known =>
      refine (reports_map_filter es (fun e => e ∉ known) (Violation.unknownExport p.1)).congr
        fun j v => ?_
      constructor
      · rintro ⟨e, he, hforeign, rfl⟩
        exact ⟨known, e, es, rfl, rfl, he, of_decide_eq_true hforeign, rfl⟩
      · rintro ⟨known', e, es', hes, hknown, he, hforeign, rfl⟩
        obtain rfl := Option.some.inj hes
        obtain rfl := Option.some.inj hknown
        exact ⟨e, he, decide_eq_true hforeign, rfl⟩

theorem reports_foreign (h : HasModules policy modules) (surface : Exports) :
    Reports (Prod.Lex Nat.lt Nat.lt) (ForeignAt policy surface)
      (modules.flatMap (foreignExports surface)) := by
  refine (reports_flatMap modules (reports_foreignExports surface)).congr fun i v => ?_
  constructor
  · rintro ⟨⟨m, _⟩, hm, known, e, es, rfl, hknown, he, hforeign, rfl⟩
    exact ⟨modules, m, known, e, es, h, hm, hknown, he, hforeign, rfl⟩
  · rintro ⟨modules', m, known, e, es, h', hm, hknown, he, hforeign, rfl⟩
    rw [h.eq h'] at hm
    exact ⟨_, hm, known, e, es, rfl, hknown, he, hforeign, rfl⟩

theorem get?_listed (hk : modules.keys.Nodup) (n : Text) :
    (listed modules).get? n = (modules.get? n).bind Json.strings? :=
  Assoc.get?_filterMap Json.strings? hk n

/-- What the check against the allowed modules finds for one of them. -/
def gapOf (modules : Fields Json) (n : Text) : Option Violation :=
  match modules.get? n with
  | none => some (.gap (.missing n))
  | some v => if v.strings? = some [] then some (.gap (.empty n)) else none

theorem gaps_listed (hk : modules.keys.Nodup) (allowed : List Text) :
    (Gap.all (fun m => ((listed modules).get? m).map List.length) (allowed.filter fun m =>
      ((listed modules).get? m).isSome || (Assoc.get? modules m).isNone)).map Violation.gap =
      allowed.filterMap (gapOf modules) := by
  rw [Gap.all, List.filterMap_filter, List.map_filterMap]
  refine congrArg (allowed.filterMap ·) (funext fun n => ?_)
  simp only [Gap.of?, get?_listed hk, gapOf]
  cases modules.get? n with
  | none => rfl
  | some v =>
    rw [Option.bind_some]
    cases hs : v.strings? with
    | none => simp [hs]
    | some es => cases es <;> simp [hs]

theorem gapOf_eq_some_iff (hk : modules.keys.Nodup) {n : Text} {v : Violation} :
    gapOf modules n = some v ↔
      n ∉ modules.keys ∧ v = .gap (.missing n) ∨ (n, .arr []) ∈ modules ∧ v = .gap (.empty n) := by
  have hempty : (n, .arr []) ∈ modules ↔ modules.get? n = some (.arr []) :=
    ⟨fun hm => Assoc.get?_of_mem hk hm, Assoc.mem_of_get?⟩
  rw [gapOf, hempty, ← Assoc.get?_eq_none_iff]
  cases modules.get? n with
  | none => simp [eq_comm]
  | some exports =>
    have hstrings : exports.strings? = some [] ↔ exports = .arr [] := Json.strings?_eq_some_iff
    simp only [← hstrings, reduceCtorEq, false_and, false_or, Option.some.injEq]
    by_cases he : exports.strings? = some []
    · rw [if_pos he]
      simp [he, eq_comm]
    · rw [if_neg he]
      simp [he]

theorem reports_uncovered (h : HasModules policy modules) (hk : modules.keys.Nodup)
    (allowed : List Text) :
    Reports Nat.lt (UncoveredAt policy allowed)
      (allowed.filterMap (gapOf modules)) := by
  refine (reports_filterMap allowed (gapOf modules)).congr fun i v => ?_
  simp only [gapOf_eq_some_iff hk]
  constructor
  · rintro ⟨n, hn, hgap⟩
    exact ⟨modules, n, h, hn, hgap⟩
  · rintro ⟨modules', n, h', hn, hgap⟩
    rw [h.eq h'] at hgap
    exact ⟨n, hn, hgap⟩

theorem checkSurface_eq (policy : Fields Json) (surface : Exports) (source : Text) :
    ∃ unknown foreign, checkSurface policy surface source = unknown ++ foreign ++
        (if (fieldOf policy "source").str? = some source then []
          else [.wrongSource (fieldOf policy "source") source]) ∧
      Reports Nat.lt (UnknownAt policy surface) unknown ∧
      Reports (Prod.Lex Nat.lt Nat.lt)
        (ForeignAt policy surface) foreign := by
  rw [checkSurface]
  cases hm : (fieldOf policy "modules").obj? with
  | none =>
    have hno (modules : Fields Json) : ¬HasModules policy modules := by
      rw [← obj?_fieldOf_modules, hm]
      simp
    refine ⟨[], [], rfl, reports_nil ?_, reports_nil ?_⟩
    · rintro i v ⟨modules, m, h, -⟩
      exact hno modules h
    · rintro i v ⟨modules, m, known, e, es, h, -⟩
      exact hno modules h
  | some modules =>
    have h : HasModules policy modules := obj?_fieldOf_modules.mp hm
    have hforeign := reports_foreign h surface
    rw [← flatMap_listed] at hforeign
    refine ⟨_, _, ?_, reports_unknown h surface, hforeign⟩
    rfl

theorem checkAllowed_of_hasModules (h : HasModules policy modules) (hk : modules.keys.Nodup)
    (allowed : List Text) : checkAllowed policy allowed =
      (modules.keys.filter (· ∉ allowed)).map .notPermitted ++
        allowed.filterMap (gapOf modules) := by
  rw [checkAllowed, obj?_fieldOf_modules.mpr h]
  simp only [gaps_listed hk]

theorem checkAllowed_of_noModules (h : ∀ modules, ¬HasModules policy modules)
    (allowed : List Text) : checkAllowed policy allowed = [] := by
  rw [checkAllowed]
  split
  · rfl
  · next modules hm => exact absurd (obj?_fieldOf_modules.mp hm) (h modules)

theorem checkAllowed_eq (hk : ∀ modules, HasModules policy modules → modules.keys.Nodup)
    (allowed : List Text) : ∃ forbidden uncovered,
      checkAllowed policy allowed = forbidden ++ uncovered ∧
      Reports Nat.lt (ForbiddenAt policy allowed) forbidden ∧
      Reports Nat.lt (UncoveredAt policy allowed) uncovered := by
  by_cases hm : ∃ modules, HasModules policy modules
  · obtain ⟨modules, h⟩ := hm
    exact ⟨_, _, checkAllowed_of_hasModules h (hk modules h) allowed, reports_forbidden h allowed,
      reports_uncovered h (hk modules h) allowed⟩
  · have hno := not_exists.mp hm
    refine ⟨[], [], checkAllowed_of_noModules hno allowed, reports_nil ?_, reports_nil ?_⟩
    · rintro i v ⟨modules, m, h, -⟩
      exact hno modules h
    · rintro i v ⟨modules, n, h, -⟩
      exact hno modules h

/-- No gap is reported of a module that is there with anything but an empty list. -/
theorem gap_not_mem_checkAllowed
    (hk : ∀ modules, HasModules policy modules → modules.keys.Nodup) (h : HasModules policy modules)
    (allowed : List Text) {m : Text} {exports : Json} (hm : (m, exports) ∈ modules)
    (hne : exports ≠ .arr []) : .gap (.missing m) ∉ checkAllowed policy allowed ∧
      .gap (.empty m) ∉ checkAllowed policy allowed := by
  obtain ⟨forbidden, uncovered, hc, hforbidden, huncovered⟩ := checkAllowed_eq hk allowed
  have hgap (g : Gap) (hg : .gap g ∈ checkAllowed policy allowed) :
      ∃ n, (n ∉ modules.keys ∧ g = .missing n) ∨ ((n, .arr []) ∈ modules ∧ g = .empty n) := by
    rw [hc] at hg
    rcases List.mem_append.mp hg with hg | hg
    · obtain ⟨i, _, _, -, -, -, he⟩ := hforbidden.mem_iff.mp hg
      cases he
    · obtain ⟨i, modules', n, h', -, hn⟩ := huncovered.mem_iff.mp hg
      rw [h.eq h'] at hn
      simp only [Violation.gap.injEq] at hn
      exact ⟨n, hn⟩
  constructor
  · intro hg
    obtain ⟨n, ⟨hn, he⟩ | ⟨-, he⟩⟩ := hgap _ hg
    · obtain rfl := Gap.missing.inj he
      exact hn (Assoc.mem_keys_of_mem hm)
    · cases he
  · intro hg
    obtain ⟨n, ⟨-, he⟩ | ⟨hn, he⟩⟩ := hgap _ hg
    · cases he
    · obtain rfl := Gap.empty.inj he
      have hexports : modules.get? m = some exports := Assoc.get?_of_mem (hk modules h) hm
      have hempty : modules.get? m = some (.arr []) := Assoc.get?_of_mem (hk modules h) hn
      exact hne (Option.some.inj (hexports.symm.trans hempty))

/-- The checks of the content report what is wrong, each finding once and in its place. For a policy
whose modules are an object, those are modules that the surface does not have, exports that it does not
have in a module of its own, and a wrong source; and modules that are not allowed, and allowed ones
that are absent or empty. A module whose exports are not a list of strings is neither. -/
theorem content_reports (surface : Exports) (source : Text) (allowed : List Text)
    (hk : ∀ modules, HasModules policy modules → modules.keys.Nodup) :
    (∃ unknown foreign wrong, checkSurface policy surface source = unknown ++ foreign ++ wrong ∧
      Reports Nat.lt (UnknownAt policy surface) unknown ∧
      Reports (Prod.Lex Nat.lt Nat.lt)
        (ForeignAt policy surface) foreign ∧
      (policy.get? "source" = some (.str source) ∧ wrong = [] ∨
        policy.get? "source" ≠ some (.str source) ∧
          wrong = [.wrongSource (fieldOf policy "source") source])) ∧
    (∃ forbidden uncovered, checkAllowed policy allowed = forbidden ++ uncovered ∧
      Reports Nat.lt (ForbiddenAt policy allowed) forbidden ∧
      Reports Nat.lt (UncoveredAt policy allowed) uncovered) ∧
    (∀ modules m exports, HasModules policy modules → (m, exports) ∈ modules →
      (∀ es : List Text, exports ≠ .arr (es.map .str)) →
        .gap (.missing m) ∉ checkAllowed policy allowed ∧
        .gap (.empty m) ∉ checkAllowed policy allowed) ∧
    ((∀ modules, ¬HasModules policy modules) → checkAllowed policy allowed = []) := by
  refine ⟨?_, checkAllowed_eq hk allowed, ?_, fun hno => checkAllowed_of_noModules hno allowed⟩
  · obtain ⟨unknown, foreign, hc, hunknown, hforeign⟩ := checkSurface_eq policy surface source
    refine ⟨unknown, foreign, _, hc, hunknown, hforeign, ?_⟩
    by_cases hs : policy.get? "source" = some (.str source)
    · exact .inl ⟨hs, if_pos (str?_fieldOf_source.mpr hs)⟩
    · exact .inr ⟨hs, if_neg fun h => hs (str?_fieldOf_source.mp h)⟩
  · intro modules m exports h hm hmalformed
    exact gap_not_mem_checkAllowed hk h allowed hm (hmalformed [])

/-- A module with exports that are unknown, one without a list, one that no one knows, an empty one. -/
def mixedModules : Fields Json :=
  [("m", .arr [.str "x", .str "e", .str "x"]), ("n", .str "e"), ("z", .null), ("k", .arr [])]

def mixedPolicy : Fields Json := [("modules", .obj mixedModules), ("source", .null)]

def mixedSurface : Exports := [("k", ["f"]), ("m", ["e"]), ("n", ["g"])]

theorem content_reports_mixedPolicy :
    (∀ modules, HasModules mixedPolicy modules → modules.keys.Nodup) ∧
    checkSurface mixedPolicy mixedSurface "s" =
      [.unknownModule "z", .unknownExport "m" "x", .unknownExport "m" "x", .wrongSource .null "s"] ∧
    checkAllowed mixedPolicy ["q", "n", "k", "m"] =
      [.notPermitted "z", .gap (.missing "q"), .gap (.empty "k")] ∧
    .gap (.missing "n") ∉ checkAllowed mixedPolicy ["q", "n", "k", "m"] ∧
    .gap (.empty "n") ∉ checkAllowed mixedPolicy ["q", "n", "k", "m"] := by
  have h : HasModules mixedPolicy mixedModules := rfl
  have hk : ∀ modules, HasModules mixedPolicy modules → modules.keys.Nodup := by
    intro modules h'
    rw [h.eq h']
    decide
  obtain ⟨-, -, hmalformed, -⟩ := content_reports mixedSurface "s" ["q", "n", "k", "m"] hk
  have hn : (("n" : Text), Json.str "e") ∈ mixedModules := .tail _ (.head _)
  exact ⟨hk, rfl, rfl, hmalformed mixedModules "n" (.str "e") h hn (fun es => by simp)⟩

end Allowlist.Policy
